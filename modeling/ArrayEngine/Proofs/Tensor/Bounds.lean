import ArrayEngine.Proofs.Layout.Box
import ArrayEngine.Proofs.Machine.Bounds
import ArrayEngine.Proofs.Tensor.Contents
import ArrayEngine.Tensor.Cast
import ArrayEngine.Tensor.Fill

/-! Work on the elements of a tensor stays within its buffer. -/
namespace ArrayEngine.Tensor

/-- A tensor with elements and its buffer, which is as long as they reach. The memory that the buffer is in
gave out whole granules for it. -/
structure Holds (tensor : Tensor) (machine : Machine) (id : BufferId) (buffer : Buffer)
    (elements extent : Nat) : Prop where
  held : tensor.buffer? = some id
  found : machine.buffers[id]? = some buffer
  numel : tensor.numel = .ok elements
  pos : 0 < elements
  reach : tensor.extent = .ok extent
  strides : tensor.strides.length = tensor.shape.length
  sized : 0 < tensor.dtype.size
  size : byteSize extent tensor.dtype.size = .ok buffer.size
  length : buffer.bytes.length = roundUp buffer.place.granule buffer.size

variable {tensor dst src : Tensor} {machine later : Machine} {id : BufferId} {buffer : Buffer}
  {elements extent : Nat}

theorem exists_holds (fits : tensor.Fits machine) (housed : tensor.IsHoused machine)
    (sized : 0 < tensor.dtype.size) (hid : tensor.buffer? = some id) :
    ∃ buffer elements extent, tensor.Holds machine id buffer elements extent := by
  obtain ⟨elements, buffer, hnumel, pos, hbuffer, hbytes⟩ := fits.memory id hid
  obtain ⟨same, hsame, hlength⟩ := housed id hid
  cases hbuffer.symm.trans hsame
  obtain ⟨extent, hextent, hsize⟩ := byteCount_eq_ok.mp hbytes
  exact ⟨buffer, elements, extent, hid, hbuffer, hnumel, pos, hextent, fits.strides, sized, hsize, hlength⟩

/-- The positions of all elements are as many as there are elements. -/
theorem positions_eq_ok {shape strides : List Nat} {kept : Nat → Prop}
    (hnumel : Layout.numel shape = .ok elements)
    (h : ∀ index, Layout.inShape index shape = true →
      ∃ position, Layout.offset index strides = .ok position ∧ kept position) :
    ∃ places, positions shape strides = .ok places ∧ places.length = elements ∧
      ∀ position ∈ places, kept position := by
  obtain ⟨indices, hwalk, hlength, inside⟩ := Layout.walk_eq_ok hnumel
  obtain ⟨places, hplaces, hsame, all⟩ := mapM_eq_ok fun index hindex => h index (inside index hindex)
  exact ⟨places, except_bind_eq_ok.mpr ⟨indices, hwalk, hplaces⟩, hsame.trans hlength, all⟩

/-- Writes inside an array succeed. -/
theorem scatter_eq_ok {span : Array Element} {writes : List (Nat × Element)}
    (h : ∀ entry ∈ writes, entry.1 < span.size) : ∃ changed, scatter span writes = .ok changed := by
  rw [scatter]
  induction writes generalizing span with
  | nil => exact ⟨span, rfl⟩
  | cons entry writes ih =>
    obtain ⟨position, value⟩ := entry
    obtain ⟨changed, hchanged⟩ := @ih (span.setIfInBounds position value)
      fun other hother => by simpa using h other (by simp [hother])
    refine ⟨changed, ?_⟩
    rw [List.foldlM_cons]
    dsimp only
    rw [if_pos (h (position, value) (by simp))]
    exact hchanged

namespace Holds

variable (holds : tensor.Holds machine id buffer elements extent)
include holds

theorem buffer_size : buffer.size = extent * tensor.dtype.size :=
  (byteSize_eq_ok.mp holds.size).1.symm

theorem mul_size : Word.mul extent tensor.dtype.size = .ok buffer.size := mul_of_byteSize holds.size

theorem size_le : buffer.size ≤ maxAllocation := (byteSize_eq_ok.mp holds.size).2

theorem bytes_lt_wordLimit : extent * tensor.dtype.size < wordLimit := by
  obtain ⟨hsize, hword⟩ := Word.mul_eq_ok.mp holds.mul_size
  exact hsize ▸ hword

theorem isEmpty : tensor.isEmpty = .ok false := isEmpty_eq_false holds.numel holds.pos

theorem isPacked : ∃ packed, tensor.isPacked = .ok packed ∧ (packed = true → extent = elements) := by
  obtain ⟨packed, hpacked⟩ := Layout.isPacked_eq_ok holds.numel tensor.strides
  refine ⟨packed, hpacked, ?_⟩
  rintro rfl
  have hextent := Layout.extent_eq_of_isPacked hpacked holds.strides holds.numel holds.pos
  exact Except.ok.inj (holds.reach.symm.trans hextent)

/-- The position of every element is before the end. -/
theorem offset_lt {index : List Nat} (inside : Layout.inShape index tensor.shape = true) :
    ∃ position, Layout.offset index tensor.strides = .ok position ∧ position < extent :=
  Layout.offset_lt_extent holds.reach
    (Layout.pos_of_extent holds.numel holds.pos holds.reach) inside holds.strides

theorem positions : ∃ places, positions tensor.shape tensor.strides = .ok places ∧
    places.length = elements ∧ ∀ position ∈ places, position < extent :=
  positions_eq_ok holds.numel fun _ => holds.offset_lt

/-- A host buffer is taken as exactly the elements that the tensor reaches over. -/
theorem length_elements (host : buffer.place = .host) :
    ∃ bytes, machine.hostBytes id = .ok bytes ∧ bytes.length / tensor.dtype.size = extent := by
  refine ⟨_, Machine.hostBytes_of_getElem? holds.found host, ?_⟩
  have hroom : buffer.size ≤ buffer.bytes.length := holds.length ▸ le_roundUp buffer.place buffer.size
  rw [List.length_take, Nat.min_eq_left hroom, holds.buffer_size, Nat.mul_div_cancel _ holds.sized]

/-- Reading and writing hand out as many elements as the tensor reaches over, and a write puts what became of
them in their place. -/
theorem access (host : buffer.place = .host) : ∃ span : List Element, span.length = extent ∧
    tensor.read machine = .ok span machine ∧
    ∀ change, tensor.write change machine = match change span with
      | .ok changed => .ok () (machine.store id 0 changed.flatten)
      | .error trap => .error (.trap trap) machine := by
  obtain ⟨bytes, hbytes, hcount⟩ := holds.length_elements host
  have hlength := Bytes.length_elements tensor.dtype.size (bytes.length / tensor.dtype.size) bytes
  have hheld := Bytes.split_of_pos holds.sized bytes
  generalize Bytes.elements tensor.dtype.size (bytes.length / tensor.dtype.size) bytes = held at hlength hheld
  rw [hcount] at hlength
  have hspan : span extent held = .ok held := by
    rw [span, if_pos hlength.ge, ← hlength, List.take_length]
  refine ⟨held, hlength, ?_, fun change => ?_⟩
  · rw [read_apply holds.numel holds.pos holds.reach holds.held hbytes, hheld, except_ok_bind, hspan]
  · rw [write_apply holds.numel holds.pos holds.reach holds.held hbytes hheld, hspan,
      List.drop_eq_nil_of_le hlength.le]
    simp only [List.append_nil]
    rfl

/-- All elements of a host tensor can be listed. -/
theorem toList (host : buffer.place = .host) :
    ∃ values, tensor.toList machine = .ok values machine ∧ values.length = elements := by
  obtain ⟨span, hlength, hread, _⟩ := holds.access host
  obtain ⟨places, hplaces, hcount, all⟩ := holds.positions
  have hfetch (position) (h : position ∈ places) :
      ∃ value, fetch span.toArray position = .ok value ∧ value ∈ span := by
    have hlt : position < span.toArray.size := (all position h).trans_eq hlength.symm
    rw [fetch, Array.getElem?_eq_getElem hlt]
    exact ⟨_, rfl, by simp⟩
  obtain ⟨values, hvalues, hsame, _⟩ := mapM_eq_ok hfetch
  have hgather : gather tensor.shape tensor.strides span.toArray = .ok values :=
    except_bind_eq_ok.mpr ⟨places, hplaces, hvalues⟩
  refine ⟨values, ?_, hsame.trans hcount⟩
  rw [Tensor.toList, bind_apply, hread]
  change (monadLift (gather tensor.shape tensor.strides span.toArray) : Work TensorError _) machine = _
  rw [hgather]
  rfl

/-- A change that never traps on as many elements as there are can be written. -/
theorem write (host : buffer.place = .host) {change : List Element → Except Trap (List Element)}
    (h : ∀ span, span.length = extent → ∃ changed, change span = .ok changed) :
    ∃ later, tensor.write change machine = .ok () later := by
  obtain ⟨span, hlength, _, hwrite⟩ := holds.access host
  obtain ⟨changed, hchanged⟩ := h span hlength
  exact ⟨_, by rw [hwrite, hchanged]⟩

/-- Filling a host tensor succeeds. -/
theorem fillHost (host : buffer.place = .host) (value : Element) :
    ∃ later, tensor.fillHost value machine = .ok () later := by
  obtain ⟨packed, hpacked, _⟩ := holds.isPacked
  obtain ⟨places, hplaces, _, all⟩ := holds.positions
  rw [Tensor.fillHost, holds.isEmpty, ok_bind_apply]
  simp only [Bool.false_eq_true, if_false]
  rw [hpacked, ok_bind_apply]
  refine holds.write host fun span hspan => ?_
  cases packed with
  | true => exact ⟨_, rfl⟩
  | false =>
    obtain ⟨changed, hchanged⟩ := @scatter_eq_ok span.toArray (places.map (·, value)) <| by
      intro entry hentry
      obtain ⟨position, hposition, rfl⟩ := List.mem_map.mp hentry
      simpa [hspan] using all position hposition
    refine ⟨changed.toList, ?_⟩
    rw [if_neg Bool.false_ne_true, spread, hplaces]
    change Array.toList <$> scatter span.toArray (places.map (·, value)) = _
    rw [hchanged]
    rfl

/-- Listed elements can be written to a host tensor of as many. -/
theorem assign (host : buffer.place = .host) (values : List Element) :
    ∃ later, tensor.assign values machine = .ok () later := by
  obtain ⟨places, hplaces, _, all⟩ := holds.positions
  refine holds.write host fun span hspan => ?_
  obtain ⟨changed, hchanged⟩ := @scatter_eq_ok span.toArray (places.zip values) <| by
    rintro ⟨position, value⟩ hentry
    simpa [hspan] using all position (List.of_mem_zip hentry).1
  refine ⟨changed.toList, ?_⟩
  rw [hplaces]
  change (scatter span.toArray (places.zip values) >>= fun changed => Except.ok changed.toList) = _
  rw [hchanged]
  rfl

end Holds

/-- The elements of a host tensor are converted into one of the same shape. -/
theorem castHost_eq_ok {origin : Buffer} {other : BufferId} {count reach : Nat}
    (holds : dst.Holds machine id buffer elements extent)
    (kept : src.Holds machine other origin count reach) (host : buffer.place = .host)
    (originHost : origin.place = .host) (hshape : dst.shape = src.shape) (target source : Conversion) :
    ∃ later, castHost target source dst src machine = .ok () later := by
  have hcount : elements = count := by
    have hnumel := holds.numel
    rw [numel, hshape] at hnumel
    exact Except.ok.inj (hnumel.symm.trans kept.numel)
  obtain ⟨packed, hpacked, htight⟩ := holds.isPacked
  obtain ⟨values, hvalues, hlength⟩ := kept.toList originHost
  rw [castHost, if_neg (not_not_intro hshape), kept.isEmpty]
  dsimp only
  rw [ok_bind_apply]
  simp only [Bool.false_eq_true, if_false]
  rw [bind_apply, hvalues]
  dsimp only
  rw [hpacked, ok_bind_apply]
  cases packed with
  | true =>
    refine holds.write host fun span hspan => ⟨_, if_pos ?_⟩
    rw [hspan, htight rfl, List.length_map, hlength, hcount]
  | false => exact holds.assign host _

/-- The runs that single writes cover end before the elements do. -/
theorem positions_runs (holds : tensor.Holds machine id buffer elements extent) :
    ∃ places, positions (runs tensor.shape tensor.strides).2.1 (runs tensor.shape tensor.strides).2.2 =
        .ok places ∧
      ∀ position ∈ places, position + (runs tensor.shape tensor.strides).1 ≤ extent := by
  have hnumel := holds.numel
  have hreach := holds.reach
  have hsame := holds.strides
  rw [numel] at hnumel
  rw [Tensor.extent] at hreach
  unfold runs
  split
  · next n shape strides hshape hstrides =>
    rw [hshape, hstrides] at hreach hsame
    rw [hshape] at hnumel
    obtain ⟨rest, hrest⟩ := Layout.numel_tail hnumel holds.pos
    obtain ⟨places, hplaces, _, all⟩ := positions_eq_ok hrest fun index inside =>
      Layout.offset_add_le_extent hreach hnumel holds.pos inside (Nat.succ.inj hsame)
    exact ⟨places, hplaces, all⟩
  · obtain ⟨places, hplaces, _, all⟩ := holds.positions
    exact ⟨places, hplaces, all⟩

theorem length_repeated (count : Nat) (value : Element) :
    (repeated count value).length = count * value.length := by
  rw [repeated, List.length_flatten, List.map_replicate, List.sum_replicate_nat]

theorem length_padded (bytes : List UInt8) : (padded bytes).length = roundUp copyGranule bytes.length := by
  rw [padded, List.length_append, List.length_replicate, Nat.add_sub_cancel' (le_roundUp_copyGranule _)]

theorem gpuWrites_of_gaps (hpacked : tensor.isPacked = .ok false) (value : Element) :
    tensor.gpuWrites value =
      if tensor.dtype.size % copyGranule ≠ 0 then
        .error (.error (.unsupported "strided GPU writes of elements narrower than 4 bytes"))
      else
        match runStarts (runs tensor.shape tensor.strides).2.1 (runs tensor.shape tensor.strides).2.2
          tensor.dtype.size with
        | .ok starts => .ok (starts.map (·, repeated (runs tensor.shape tensor.strides).1 value))
        | .error trap => .error (.trap trap) := by
  rw [gpuWrites, hpacked]
  generalize runs tensor.shape tensor.strides = layout
  obtain ⟨run, shape, strides⟩ := layout
  change (if tensor.dtype.size % copyGranule ≠ 0 then _ else _ : Except (Halt TensorError) _) = _
  split
  · rfl
  · dsimp only
    cases runStarts shape strides tensor.dtype.size <;> rfl

/-- Every write that fills a tensor in GPU memory starts and ends with a granule, inside the buffer. There are
none only for elements that are no granules and have gaps between them. -/
theorem gpuWrites_cases {context : ContextId} {value : Element}
    (holds : tensor.Holds machine id buffer elements extent) (place : buffer.place = .gpu context)
    (hvalue : value.length = tensor.dtype.size) :
    (∃ writes, tensor.gpuWrites value = .ok writes ∧ ∀ start bytes, (start, bytes) ∈ writes →
      copyGranule ∣ start ∧ copyGranule ∣ start + bytes.length ∧
        start + bytes.length ≤ buffer.bytes.length) ∨
    tensor.isPacked = .ok false ∧ ¬copyGranule ∣ tensor.dtype.size ∧
      ∃ what, tensor.gpuWrites value = .error (.error (.unsupported what)) := by
  have hsize := holds.buffer_size
  have hroom : buffer.bytes.length = roundUp copyGranule buffer.size := by
    rw [holds.length, place]
    rfl
  obtain ⟨packed, hpacked, htight⟩ := holds.isPacked
  cases packed with
  | true =>
    have hlength : (padded (repeated elements value)).length = buffer.bytes.length := by
      rw [length_padded, length_repeated, hvalue, hroom, hsize, htight rfl]
    refine .inl ⟨[(0, padded (repeated elements value))], by rw [gpuWrites, hpacked, holds.numel]; rfl, ?_⟩
    rintro start bytes hentry
    cases List.mem_singleton.mp hentry
    rw [Nat.zero_add, hlength]
    refine ⟨Nat.dvd_zero _, ?_, Nat.le_refl _⟩
    rw [hroom]
    exact Nat.dvd_mul_left _ _
  | false =>
    by_cases hwhole : tensor.dtype.size % copyGranule = 0
    · obtain ⟨places, hplaces, all⟩ := positions_runs holds
      have hgranule : copyGranule ∣ tensor.dtype.size := Nat.dvd_of_mod_eq_zero hwhole
      have hword := holds.bytes_lt_wordLimit
      have hrun (position) (h : position ∈ places) : ∃ start,
          Word.mul position tensor.dtype.size = .ok start ∧ copyGranule ∣ start ∧
            start + (runs tensor.shape tensor.strides).1 * tensor.dtype.size ≤ buffer.size := by
        have hle := Nat.mul_le_mul_right tensor.dtype.size (all position h)
        rw [Nat.add_mul, ← hsize] at hle
        exact ⟨_, Word.mul_eq_ok.mpr ⟨rfl, by omega⟩, Nat.dvd_mul_left_of_dvd hgranule position, hle⟩
      obtain ⟨starts, hstarts, _, each⟩ := mapM_eq_ok hrun
      have hwrites : runStarts (runs tensor.shape tensor.strides).2.1 (runs tensor.shape tensor.strides).2.2
          tensor.dtype.size = .ok starts :=
        except_bind_eq_ok.mpr ⟨places, hplaces, hstarts⟩
      refine .inl ⟨starts.map (·, repeated (runs tensor.shape tensor.strides).1 value), ?_, ?_⟩
      · rw [gpuWrites_of_gaps hpacked, if_neg (not_not_intro hwhole), hwrites]
      · rintro start bytes hentry
        obtain ⟨_, hstart, hsame⟩ := List.mem_map.mp hentry
        cases hsame
        obtain ⟨haligned, hend⟩ := each start hstart
        rw [length_repeated, hvalue]
        refine ⟨haligned, (Nat.dvd_add_right haligned).mpr (Nat.dvd_mul_left_of_dvd hgranule _), ?_⟩
        rw [hroom]
        exact hend.trans (le_roundUp_copyGranule _)
    · exact .inr ⟨hpacked, fun h => hwhole (Nat.mod_eq_zero_of_dvd h), _,
        (gpuWrites_of_gaps hpacked value).trans (if_pos hwhole)⟩

end ArrayEngine.Tensor
