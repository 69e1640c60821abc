import ArrayEngine.Proofs.Grid.Copy
import ArrayEngine.Proofs.Layout.Box

/-! The elements of a distributed tensor by global index: each rank can read those that it holds. -/
namespace ArrayEngine

/-- Without elements nothing can be read. -/
theorem Tensor.element?_eq_none {tensor : Tensor} {machine : Machine} (h : tensor.numel = .ok 0)
    (index : List Nat) : tensor.element? machine index = none := by
  rw [element?_apply, read_of_numel_eq_zero h]
  split
  · cases Layout.offset index tensor.strides <;> rfl
  · rfl

/-- The index in a box of intervals, counted from the start of each. -/
def localIndex (index : List Nat) (ranges : List Interval) : List Nat :=
  index.zipWith (fun i range => i - range.start) ranges

theorem inShape_localIndex {index : List Nat} {ranges : List Interval}
    (inside : inBox index ranges = true) :
    Layout.inShape (localIndex index ranges) (ranges.map Interval.length) = true := by
  induction ranges generalizing index with
  | nil =>
    cases index with
    | nil => rfl
    | cons i index => cases inside
  | cons range ranges ih =>
    rcases index with _ | ⟨i, index⟩
    · cases inside
    obtain ⟨hi, inside⟩ := Bool.and_eq_true_iff.mp inside
    obtain ⟨hstart, hstop⟩ := Interval.contains_iff.mp hi
    rw [localIndex, List.zipWith_cons_cons, List.map_cons, Layout.inShape, Bool.and_eq_true_iff]
    refine ⟨decide_eq_true ?_, ih inside⟩
    rw [Interval.length]
    omega

namespace DistTensor

variable {tensor dst src : DistTensor} {machine later : Machine}

/-- The element at a global index, if this process holds it and can read it. -/
def element? (tensor : DistTensor) (machine : Machine) (index : List Nat) : Option Element :=
  match tensor.ranges with
  | .ok ranges =>
    if inBox index ranges then tensor.share.element? machine (localIndex index ranges) else none
  | .error _ => none

/-- A process holds no more of an axis than there is. -/
theorem IsLaid.share_le (laid : tensor.IsLaid) :
    List.Forall₂ (· ≤ ·) tensor.share.shape tensor.shape := by
  have hshare := laid.share
  rw [shareShape] at hshare
  obtain ⟨coords, hcoords, hshare⟩ := except_bind_eq_ok.mp hshare
  obtain ⟨ranges, hranges, hshare⟩ := except_bind_eq_ok.mp hshare
  have hshape : ranges.map Interval.length = tensor.share.shape := Except.ok.inj hshare
  rw [← hshape]
  rcases laid.axes with hnil | ⟨hdistribution, hgrid⟩
  · rw [hnil] at hranges ⊢
    cases hranges
    exact .nil
  · exact intervals_le hranges hdistribution hgrid ((Grid.length_of_digits hcoords).trans hgrid)

/-- The shape of the share are the lengths of what the process holds along the axes. -/
theorem IsLaid.ranges (laid : tensor.IsLaid) (h : tensor.shape ≠ []) :
    ∃ ranges, tensor.ranges = .ok ranges ∧ tensor.share.shape = ranges.map Interval.length := by
  rcases laid.axes with hnil | ⟨hdistribution, hgrid⟩
  · exact absurd hnil h
  have hshare := laid.share
  rw [shareShape] at hshare
  obtain ⟨coords, hcoords, hshare⟩ := except_bind_eq_ok.mp hshare
  obtain ⟨ranges, hranges, hshare⟩ := except_bind_eq_ok.mp hshare
  refine ⟨ranges, ?_, (Except.ok.inj hshare).symm⟩
  rw [ranges_eq_intervals hcoords ((Grid.length_of_digits hcoords).trans hgrid) hdistribution hgrid]
  exact hranges

theorem ranges_congr (hshape : dst.shape = src.shape) (hdistribution : dst.distribution = src.distribution)
    (hgrid : dst.grid.shape = src.grid.shape) (hrank : dst.grid.rank = src.grid.rank) :
    dst.ranges = src.ranges := by
  have hindices : dst.globalIndices = src.globalIndices := by
    funext axis
    rw [globalIndices, globalIndices, Grid.coords, Grid.coords, Grid.coordsOf, Grid.coordsOf, hshape,
      hdistribution, hgrid, hrank]
  rw [DistTensor.ranges, DistTensor.ranges, hshape, hindices]

/-- After a share was filled, both tensors have the same elements at the indices of a rank. -/
theorem element?_of_filled {share : Tensor} (srcSound : src.IsSound machine)
    (hgrid : dst.grid.shape = src.grid.shape) (hrank : dst.grid.rank = src.grid.rank)
    (hdtype : share.dtype = src.share.dtype) (filled : Filled src share machine later)
    (index : List Nat) :
    (dst.relaid src.shape src.dimTypes src.distribution share).element? later index =
      src.element? machine index := by
  have hranges : (dst.relaid src.shape src.dimTypes src.distribution share).ranges = src.ranges :=
    ranges_congr rfl rfl hgrid hrank
  have hshare (position : List Nat) :
      share.element? later position = src.share.element? machine position := by
    rcases filled.filled with ⟨hzero, _⟩ | ⟨d, s, hd, hs, hbytes⟩
    · have hnow : share.numel = .ok 0 := by
        rw [Tensor.numel, filled.laid.shape]
        exact hzero
      rw [Tensor.element?_eq_none hzero, Tensor.element?_eq_none hnow]
    · exact Tensor.element?_congr srcSound.host srcSound.share.toFits hs hd filled.laid.shape
        filled.laid.strides hdtype hbytes position
  rw [element?, element?, hranges]
  cases src.ranges with
  | error trap => rfl
  | ok ranges =>
    change (if inBox index ranges then share.element? later (localIndex index ranges) else none) = _
    rw [hshare]

/-- The elements of a tensor stay as long as its buffer does. -/
theorem element?_of_kept (sound : tensor.IsSound machine) (memory : tensor.share.HasMemory)
    (kept : ∀ id buffer, tensor.share.buffer? = some id → machine.buffers[id]? = some buffer →
      later.buffers[id]? = some buffer) (index : List Nat) :
    tensor.element? later index = tensor.element? machine index := by
  have hshare (position : List Nat) :
      tensor.share.element? later position = tensor.share.element? machine position := by
    rcases memory with hzero | hsome
    · rw [Tensor.element?_eq_none hzero, Tensor.element?_eq_none hzero]
    · obtain ⟨id, hid⟩ := Option.isSome_iff_exists.mp hsome
      obtain ⟨_, buffer, _, _, hbuffer, _⟩ := sound.share.memory id hid
      refine Tensor.element?_congr sound.host sound.share.toFits hid hid rfl rfl rfl ?_ position
      rw [Machine.hostBytes, Machine.hostBytes, Machine.buffer_of_getElem? hbuffer,
        Machine.buffer_of_getElem? (kept id buffer hid hbuffer)]
  rw [element?, element?]
  cases tensor.ranges with
  | error trap => rfl
  | ok ranges =>
    dsimp only
    rw [hshare]

/-- A process can read every element that it holds. -/
theorem isSome_element? {index : List Nat} (sound : tensor.IsSound machine)
    (memory : tensor.share.HasMemory) (sized : 0 < tensor.share.dtype.size) (h : tensor.shape ≠ [])
    (held : tensor.holds index = .ok true) : (tensor.element? machine index).isSome = true := by
  obtain ⟨ranges, hranges, hshape⟩ := sound.laid.ranges h
  have inside : inBox index ranges = true := by
    rw [holds, hranges] at held
    exact Except.ok.inj held
  have hlocal : Layout.inShape (localIndex index ranges) tensor.share.shape = true :=
    hshape ▸ inShape_localIndex inside
  rw [element?, hranges]
  dsimp only
  rw [if_pos inside]
  rcases memory with hzero | hsome
  · have hnil : tensor.share.shape ≠ [] := by
      obtain ⟨hdistribution, hgrid, _⟩ := sound.accepts h
      intro hnil
      have hlength := length_of_shareShape sound.laid.share hdistribution hgrid
      rw [hnil] at hlength
      exact h (List.length_eq_zero_iff.mp hlength.symm)
    have hcount := Layout.eq_of_numel hzero
    rw [Layout.count_of_ne_nil hnil] at hcount
    exact absurd hcount (Nat.ne_of_lt (Nat.zero_lt_of_lt (Layout.number_lt hlocal)))
  · obtain ⟨id, hid⟩ := Option.isSome_iff_exists.mp hsome
    exact Tensor.isSome_element? sound.host sound.share.toFits hid sized hlocal

end DistTensor

end ArrayEngine
