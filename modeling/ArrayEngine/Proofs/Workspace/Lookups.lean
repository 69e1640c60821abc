import ArrayEngine.Proofs.Tensor.Lookups
import ArrayEngine.Proofs.Workspace.Copies

/-! Single elements of the host tensors of a reachable workspace: every index that the walk over the shape visits
has one, and no other index has. The empty index is inside a shape without axes all the same. -/
namespace ArrayEngine

namespace Layout

variable {elements : Nat} {index shape : List Nat} {indices : List (List Nat)}

theorem ne_nil_of_inShape (inside : inShape index shape = true) (axes : shape ≠ [] ∨ index ≠ []) : shape ≠ [] := by
  rintro rfl
  cases index with
  | nil => exact axes.elim (absurd rfl) (absurd rfl)
  | cons i index => cases inside

/-- Only a shape with elements has an index with axes inside it. -/
theorem pos_of_inShape (hnumel : numel shape = .ok elements) (inside : inShape index shape = true)
    (axes : shape ≠ [] ∨ index ≠ []) : 0 < elements := by
  rw [eq_of_numel hnumel, count_of_ne_nil (ne_nil_of_inShape inside axes)]
  exact Nat.zero_lt_of_lt (number_lt inside)

/-- An index with axes is inside a shape exactly if the walk over the shape visits it. -/
theorem mem_walk_iff (hnumel : numel shape = .ok elements) (hwalk : walk shape = .ok indices)
    (axes : shape ≠ [] ∨ index ≠ []) : index ∈ indices ↔ inShape index shape = true := by
  rcases eq_or_ne shape [] with rfl | hshape
  · cases hwalk
    exact ⟨nofun, fun inside => absurd rfl (ne_nil_of_inShape inside axes)⟩
  · cases hwalk.symm.trans (walk_eq_box hnumel hshape)
    exact mem_box

end Layout

namespace Workspace

variable {workspace : Workspace} {name : String} {tensor : Tensor} {trap : Trap}

/-- Only a lazy tensor without memory can have an extent that is no word. -/
theorem Reachable.bare_of_extent (reachable : Reachable workspace)
    (found : workspace.tensors.lookup name = some tensor) (htrap : tensor.extent = .error trap) :
    tensor.isLazy = true ∧ tensor.buffer? = none := by
  have sound := reachable.sound.each found
  have bare : tensor.buffer? = none := by
    by_contra hsome
    obtain ⟨id, hid⟩ := Option.ne_none_iff_exists'.mp hsome
    obtain ⟨_, _, _, _, _, hbytes⟩ := sound.memory id hid
    obtain ⟨extent, hextent, -⟩ := Tensor.byteCount_eq_ok.mp hbytes
    cases htrap.symm.trans hextent
  refine ⟨?_, bare⟩
  by_contra eager
  obtain hzero | hsome := sound.eager (Bool.eq_false_iff.mpr eager)
  · cases htrap.symm.trans (Tensor.extent_of_numel_eq_zero hzero)
  · rw [bare] at hsome
    cases hsome

/-- A host tensor of a reachable workspace, and an index. If it can be told how far the tensor reaches, every index
but the empty one of a tensor without axes has an answer: an error if the walk over the shape does not visit it;
else an error if there is no memory; and else the element that stands among all elements where packed strides put
it. The empty index of a tensor without axes is inside the shape, where there is nothing to be had, and ends in a
trap. So does every index inside the shape of a tensor whose extent is no word, which is lazy and without memory. -/
theorem lookups_of_reachable (reachable : Reachable workspace)
    (found : workspace.tensors.lookup name = some tensor) (sized : 0 < tensor.dtype.size)
    (host : ∀ id, tensor.buffer? = some id → (workspace.machine.buffer id).place = .host) (index : List Nat) :
    (∀ extent, tensor.extent = .ok extent → tensor.shape ≠ [] ∨ index ≠ [] → ∃ indices strides,
      Layout.walk tensor.shape = .ok indices ∧ Layout.packedStrides tensor.shape = .ok strides ∧
      (tensor.get index workspace.machine = .error (.error (.index index tensor.shape)) workspace.machine ↔
        index ∉ indices) ∧
      (index ∈ indices →
        (tensor.get index workspace.machine = .error (.error .notEnsured) workspace.machine ↔
          tensor.buffer? = none) ∧
        (tensor.buffer? ≠ none → ∃ values place value,
          tensor.toList workspace.machine = .ok values workspace.machine ∧
          Layout.offset index strides = .ok place ∧ values[place]? = some value ∧
          tensor.get index workspace.machine = .ok value workspace.machine))) ∧
    (tensor.shape = [] →
      tensor.get [] workspace.machine = .error (.trap (.indexOutOfBounds 0 0)) workspace.machine) ∧
    ∀ trap, tensor.extent = .error trap → tensor.isLazy = true ∧ tensor.buffer? = none ∧
      if Layout.inShape index tensor.shape then
        ∃ cause, tensor.get index workspace.machine = .error (.trap cause) workspace.machine
      else tensor.get index workspace.machine = .error (.error (.index index tensor.shape)) workspace.machine := by
  have sound := reachable.sound.each found
  refine ⟨fun extent hextent axes => ?_, fun none => Tensor.get_of_no_axes none _, fun trap htrap => ?_⟩
  · obtain ⟨elements, hnumel, -⟩ := except_bind_eq_ok.mp (hextent : Layout.extent _ _ = _)
    obtain ⟨indices, hwalk, -⟩ := Layout.walk_eq_ok hnumel
    obtain ⟨strides, hstrides⟩ := Layout.packedStrides_eq_ok hnumel
    have visited := Layout.mem_walk_iff hnumel hwalk axes
    refine ⟨indices, strides, hwalk, hstrides, ?_⟩
    by_cases inside : Layout.inShape index tensor.shape = true
    · have pos := Layout.pos_of_inShape hnumel inside axes
      cases hid : tensor.buffer? with
      | none =>
        obtain ⟨position, hposition, -⟩ := Layout.offset_lt_extent hextent
          (Layout.pos_of_extent hnumel pos hextent) inside sound.strides
        have hget := Tensor.get_of_bare hid hextent (Tensor.isEmpty_eq_false hnumel pos) inside hposition
          workspace.machine
        simp [hget, visited, inside]
      | some id =>
        obtain ⟨_, _, holds⟩ := reachable.exists_holds_buffer found sized hid
        obtain ⟨values, value, hvalues, hvalue, hget⟩ := holds.get_eq_ok (host id hid) inside
        have hoffset := Layout.offset_of_isPacked (Layout.isPacked_of_packedStrides hstrides)
          (Layout.length_stridesFrom hstrides) hnumel pos inside
        simp [hget, visited, inside, hvalues, hoffset, hvalue]
    · have hget := Tensor.get_of_outside (Bool.eq_false_iff.mpr inside) workspace.machine
      simp [hget, visited, inside]
  · obtain ⟨isLazy, bare⟩ := reachable.bare_of_extent found htrap
    refine ⟨isLazy, bare, ?_⟩
    split
    · next inside => exact Tensor.exists_trap_of_get htrap inside _
    · next outside => exact Tensor.get_of_outside (Bool.eq_false_iff.mpr outside) _

/-- The fourth of five bytes with gaps between them, and the one after the last. -/
theorem lookups_of_reachable_fourth : Reachable twoWithGaps ∧
    (gaps .cpu 0).toList twoWithGaps.machine = .ok [[1], [3], [5], [7], [9]] twoWithGaps.machine ∧
    (gaps .cpu 0).get [3] twoWithGaps.machine = .ok [7] twoWithGaps.machine ∧
    (gaps .cpu 0).get [5] twoWithGaps.machine = .error (.error (.index [5] [5])) twoWithGaps.machine := by
  have lookups (index : List Nat) := (lookups_of_reachable reachable_twoWithGaps
    (rfl : twoWithGaps.tensors.lookup "a" = some (gaps .cpu 0)) (by decide) (by rintro _ ⟨⟩; rfl) index).1 9 rfl
  obtain ⟨indices, strides, hwalk, hstrides, -, inside⟩ := lookups [3] (.inl (by decide))
  cases hwalk
  cases hstrides
  obtain ⟨values, place, value, hvalues, hplace, hvalue, hget⟩ := (inside (by decide)).2 (by decide)
  cases hvalues
  cases hplace
  cases hvalue
  obtain ⟨indices, _, hwalk, _, outside, -⟩ := lookups [5] (.inl (by decide))
  cases hwalk
  exact ⟨reachable_twoWithGaps, rfl, hget, outside.mpr (by decide)⟩

/-- A tensor without axes has no elements, and no index is visited, but the empty one is not refused. -/
theorem lookup_without_axes : ∃ workspace tensor, Reachable workspace ∧
    workspace.tensors.lookup "a" = some tensor ∧ tensor.device = .cpu ∧ tensor.numel = .ok 0 ∧
    Layout.walk tensor.shape = .ok [] ∧
    tensor.get [] workspace.machine = .error (.trap (.indexOutOfBounds 0 0)) workspace.machine := by
  have reachable : Reachable initial := .start rfl Catalogue.tame_initial
  exact ⟨_, _, reachable.make (.packed .f32 [] .cpu false) (.of_ok rfl : EndsAt (create "a" _ _) _), rfl, rfl, rfl,
    rfl, rfl⟩

end Workspace

end ArrayEngine
