import ArrayEngine.Proofs.Layout.Box
import ArrayEngine.Proofs.Machine.Elements
import ArrayEngine.Proofs.Tensor.Bounds

/-! What filling writes: the value at the position of every index, and nothing else of what the tensor reaches
over. The loop over all indices, the host and GPUs come to the same. -/
namespace ArrayEngine.Tensor

section Painted

variable {value : Element} {places others : List Nat} {span : List Element}

end Painted

/-- The elements that a tensor reaches over, in memory order and wherever they are. Without memory there are
none. -/
def memory (tensor : Tensor) (machine : Machine) : List Element :=
  match tensor.buffer?, tensor.extent with
  | some id, .ok extent => Bytes.elements tensor.dtype.size extent (machine.buffer id).bytes
  | _, _ => []

/-- What the loop over all indices makes of the elements that a tensor reaches over: the value is at the
position of every index, and every other element is as it was. -/
structure Filled (tensor : Tensor) (value : Element) (before after : List Element) : Prop where
  loop : spread tensor.shape tensor.strides value before.toArray = .ok after.toArray
  value : ∀ index, Layout.inShape index tensor.shape = true →
    ∃ position, Layout.offset index tensor.strides = .ok position ∧ after[position]? = some value
  rest : ∀ position, (∀ index, Layout.inShape index tensor.shape = true →
    Layout.offset index tensor.strides ≠ .ok position) → after[position]? = before[position]?

variable {tensor : Tensor} {machine later : Machine} {id : BufferId} {buffer : Buffer}
  {elements extent : Nat} {value : Element} {context : ContextId}

/-- The positions of all elements in the order of the indices. -/
theorem positions_eq {shape strides : List Nat} (hnumel : Layout.numel shape = .ok elements) (axes : shape ≠ [])
    (h : ∀ index, Layout.inShape index shape = true → ∃ position, Layout.offset index strides = .ok position) :
    positions shape strides = .ok ((Layout.box shape).map (Layout.position · strides)) := by
  rw [positions, Layout.walk_eq_box hnumel axes]
  change (Layout.box shape).mapM (Layout.offset · strides) = _
  have hoffset (index) (hmem : index ∈ Layout.box shape) :
      Layout.offset index strides = pure (Layout.position index strides) := by
    obtain ⟨position, hposition⟩ := h index (Layout.mem_box.mp hmem)
    rw [hposition, Layout.eq_of_offset hposition]
    rfl
  rw [mapM_congr hoffset, List.mapM_pure]
  rfl

/-- The positions of the elements of a tensor in the order of their indices. -/
def places (tensor : Tensor) : List Nat :=
  (Layout.box tensor.shape).map (Layout.position · tensor.strides)

namespace Holds

variable (holds : tensor.Holds machine id buffer elements extent)
include holds

theorem positions_eq_places : Tensor.positions tensor.shape tensor.strides = .ok tensor.places :=
  positions_eq holds.numel (Layout.ne_nil_of_numel holds.numel holds.pos) fun _ inside =>
    (holds.offset_lt inside).imp fun _ h => h.1

theorem mem_places {place : Nat} : place ∈ tensor.places ↔
    ∃ index, Layout.inShape index tensor.shape = true ∧ Layout.offset index tensor.strides = .ok place := by
  rw [places, List.mem_map]
  constructor
  · rintro ⟨index, hmem, rfl⟩
    have inside := Layout.mem_box.mp hmem
    obtain ⟨position, hposition, _⟩ := holds.offset_lt inside
    exact ⟨index, inside, Layout.eq_of_offset hposition ▸ hposition⟩
  · rintro ⟨index, inside, hplace⟩
    exact ⟨index, Layout.mem_box.mpr inside, (Layout.eq_of_offset hplace).symm⟩

theorem lt_of_mem_places {place : Nat} (h : place ∈ tensor.places) : place < extent := by
  obtain ⟨index, inside, hplace⟩ := holds.mem_places.mp h
  obtain ⟨position, hposition, hlt⟩ := holds.offset_lt inside
  cases hplace.symm.trans hposition
  exact hlt

theorem bytes_le : extent * tensor.dtype.size ≤ buffer.bytes.length := by
  rw [← holds.buffer_size, holds.length]
  exact le_roundUp buffer.place buffer.size

theorem memory_of_bytes {bytes : List UInt8} (h : later.buffers[id]? = some { buffer with bytes }) :
    tensor.memory later = Bytes.elements tensor.dtype.size extent bytes := by
  rw [memory, holds.held, holds.reach]
  dsimp only
  rw [Machine.buffer_of_getElem? h]

theorem memory_eq : tensor.memory machine = Bytes.elements tensor.dtype.size extent buffer.bytes :=
  holds.memory_of_bytes holds.found

theorem length_memory : (tensor.memory machine).length = extent := by
  rw [holds.memory_eq, Bytes.length_elements]

theorem length_of_mem_memory : ∀ element ∈ tensor.memory machine, element.length = tensor.dtype.size := by
  rw [holds.memory_eq]
  exact fun _ => Bytes.length_of_mem_elements holds.bytes_le

/-- On the host a tensor is read and written as the elements that it reaches over. -/
theorem access_memory (host : buffer.place = .host) :
    tensor.read machine = .ok (tensor.memory machine) machine ∧
      ∀ change, tensor.write change machine = match change (tensor.memory machine) with
        | .ok changed => .ok () (machine.store id 0 changed.flatten)
        | .error trap => .error (.trap trap) machine := by
  obtain ⟨span, hlength, hread, hwrite⟩ := holds.access host
  have hspan : span = tensor.memory machine := by
    have hcount : (buffer.bytes.take buffer.size).length / tensor.dtype.size = extent := by
      rw [List.length_take, Nat.min_eq_left (holds.buffer_size ▸ holds.bytes_le), holds.buffer_size,
        Nat.mul_div_cancel _ holds.sized]
    rw [read_apply holds.numel holds.pos holds.reach holds.held
      (Machine.hostBytes_of_getElem? holds.found host), Bytes.split_of_pos holds.sized, except_ok_bind, hcount,
      Bytes.elements_take (holds.buffer_size.ge), ← holds.memory_eq, Tensor.span,
      if_pos holds.length_memory.ge, List.take_of_length_le holds.length_memory.le] at hread
    cases hread
    rfl
  exact hspan ▸ ⟨hread, hwrite⟩

/-- Elements that are written over all that a tensor reaches over. -/
theorem memory_store {changed : List Element} (hlength : changed.length = extent)
    (whole : ∀ element ∈ changed, element.length = tensor.dtype.size) :
    tensor.memory (machine.store id 0 changed.flatten) = changed := by
  have hwritten := Bytes.elements_overwrite (p := 0) whole (by omega) (hlength.symm ▸ holds.bytes_le)
  rw [Nat.zero_mul, hlength, Nat.zero_add] at hwritten
  rw [holds.memory_of_bytes (Machine.buffers_store_self holds.found 0 _), hwritten, List.take_zero,
    List.drop_of_length_le (Bytes.length_elements ..).le, List.nil_append, List.append_nil]

end Holds

namespace Holds

variable (holds : tensor.Holds machine id buffer elements extent)
include holds

end Holds

/-- The loop over all indices comes to one result. -/
theorem Filled.unique {other : Tensor} {before first second : List Element} (hshape : other.shape = tensor.shape)
    (hstrides : other.strides = tensor.strides) (h : tensor.Filled value before first)
    (k : other.Filled value before second) : second = first := by
  have hloop := k.loop
  rw [hshape, hstrides, h.loop] at hloop
  exact (List.toArray_inj (Except.ok.inj hloop)).symm

namespace Holds

variable (holds : tensor.Holds machine id buffer elements extent)
include holds

end Holds

end ArrayEngine.Tensor
