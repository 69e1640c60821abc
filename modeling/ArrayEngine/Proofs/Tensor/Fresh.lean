import ArrayEngine.Proofs.Machine.Downloads
import ArrayEngine.Proofs.Tensor.Packed

/-! New packed tensors over buffers of their own. -/
namespace ArrayEngine.Tensor

/-- A packed tensor of the shape of another one, over a buffer of its own. -/
def packedLike (src : Tensor) (dtype : TypeInfo) (strides : List Nat) (id : BufferId) : Tensor :=
  { src with
    dtype, strides
    device := src.stream.device
    buffer? := some id
    ownership := .exclusive
    isLazy := false }

variable {src : Tensor} {machine : Machine} {elements size : Nat} {strides : List Nat} {dtype : TypeInfo}

section PackedLike

variable (hnumel : src.numel = .ok elements) (pos : 0 < elements)
include hnumel pos

/-- A new packed tensor of the shape of another one takes a new buffer. All that can stop it is that it has too many
bytes. -/
theorem withLayout_packed (htypes : src.dimTypes.length = src.shape.length) (dtype : TypeInfo) (machine : Machine) :
    ∃ strides, Layout.packedStrides src.shape = .ok strides ∧
      withLayout dtype src.shape src.dimTypes none src.stream false machine =
        match byteSize elements dtype.size with
        | .error trap => .error (.trap trap) machine
        | .ok size => .ok (src.packedLike dtype strides machine.buffers.length)
          (machine.withBuffer src.stream.place size) := by
  obtain ⟨strides, hstrides⟩ := Layout.packedStrides_eq_ok hnumel
  have hextent := Layout.extent_eq_of_packedStrides hstrides hnumel pos
  refine ⟨strides, hstrides, ?_⟩
  let bare : Tensor := { src.packedLike dtype strides machine.buffers.length with buffer? := none }
  have hblank : (blank dtype src.stream false).relaid src.shape src.dimTypes strides = bare := by
    simp [relaid, blank, bare, packedLike]
  have hempty : bare.isEmpty = .ok false := isEmpty_eq_false (hnumel : bare.numel = _) pos
  have hensured : bare.isEnsured = .ok false := by
    rw [isEnsured, hempty]
    rfl
  have hbytes : bare.byteCount = byteSize elements dtype.size := by
    rw [byteCount, show bare.extent = .ok elements from hextent]
    rfl
  rw [withLayout, build, resize_apply, if_neg (not_not_intro htypes), stridesFor_none.mpr hstrides]
  dsimp only
  rw [if_neg (by simp [blank, isView]), if_neg (by simp [blank]), hblank, ensure_apply, hensured]
  dsimp only
  rw [if_neg (by simp [bare, packedLike, isView]), hbytes]
  cases byteSize elements dtype.size <;> rfl

theorem holds_packedLike (hstrides : Layout.packedStrides src.shape = .ok strides) (sized : 0 < dtype.size)
    (hsize : byteSize elements dtype.size = .ok size) (machine : Machine) :
    (src.packedLike dtype strides machine.buffers.length).Holds (machine.withBuffer src.stream.place size)
      machine.buffers.length (.zeroed src.stream.place size) elements elements :=
  ⟨rfl, machine.getElem?_withBuffer_self _ _, hnumel, pos,
    Layout.extent_eq_of_packedStrides hstrides hnumel pos, Layout.length_stridesFrom hstrides, sized,
    hsize, length_zeroed _ _⟩

end PackedLike

namespace Holds

variable {tensor : Tensor} {id : BufferId} {buffer : Buffer} {extent : Nat}
  (holds : tensor.Holds machine id buffer elements extent)
include holds

/-- A tensor stays in its buffer whatever is stored there. -/
theorem exists_holds_store (data : List UInt8) :
    ∃ bytes, tensor.Holds (machine.store id 0 data) id { buffer with bytes } elements extent :=
  ⟨_, { holds with
    found := Machine.buffers_store_self holds.found 0 data
    length := (Bytes.length_overwrite ..).trans holds.length }⟩

/-- Elements that are written to a packed host tensor are what it then lists. -/
theorem toList_of_written {values : List Element} (host : buffer.place = .host) (packed : tensor.isPacked = .ok true)
    (hlength : values.length = extent) (whole : ∀ value ∈ values, value.length = tensor.dtype.size) :
    tensor.toList (machine.store id 0 values.flatten) = .ok values (machine.store id 0 values.flatten) := by
  obtain ⟨bytes, after⟩ := holds.exists_holds_store values.flatten
  rw [after.toList_of_isPacked host packed, holds.memory_store hlength whole]

end Holds

/-- Elements with too many bytes make no tensor. -/
theorem ofList_eq_trap {shape : List Nat} {values : List Element} (hnumel : Layout.numel shape = .ok values.length)
    (pos : 0 < values.length) {trap : Trap} (hsize : byteSize values.length dtype.size = .error trap)
    (machine : Machine) : ofList dtype shape values machine = .error (.trap trap) machine := by
  let src : Tensor := { blank dtype .cpu false with shape, dimTypes := shape.map fun _ => .any }
  have hcount : src.numel = .ok values.length := hnumel
  obtain ⟨_, _, hcreate⟩ := withLayout_packed hcount pos (List.length_map ..) dtype machine
  rw [hsize] at hcreate
  rw [ofList, hnumel, ok_bind_apply, if_neg (not_not_intro rfl), create]
  change (withLayout dtype src.shape src.dimTypes none src.stream false >>= fun tensor => _ : Work _ _) machine = _
  rw [bind_apply, hcreate]

/-- As many elements as a shape has make a packed host tensor that lists them. -/
theorem ofList_eq_ok {shape : List Nat} {values : List Element} (hnumel : Layout.numel shape = .ok values.length)
    (pos : 0 < values.length) (sized : 0 < dtype.size) (fits : values.length * dtype.size ≤ maxAllocation)
    (whole : ∀ value ∈ values, value.length = dtype.size) (machine : Machine) :
    ∃ tensor later id buffer, ofList dtype shape values machine = .ok tensor later ∧
      tensor.shape = shape ∧ Layout.packedStrides shape = .ok tensor.strides ∧
      tensor.Holds later id buffer values.length values.length ∧ buffer.place = .host ∧
      tensor.toList later = .ok values later := by
  let src : Tensor := { blank dtype .cpu false with shape, dimTypes := shape.map fun _ => .any }
  have hcount : src.numel = .ok values.length := hnumel
  have hsize : byteSize values.length dtype.size = .ok (values.length * dtype.size) := byteSize_eq_ok.mpr ⟨rfl, fits⟩
  obtain ⟨strides, hstrides, hcreate⟩ :=
    withLayout_packed hcount pos (List.length_map ..) dtype machine
  rw [hsize] at hcreate
  have fresh := holds_packedLike hcount pos hstrides sized hsize machine
  have packed : (src.packedLike dtype strides machine.buffers.length).isPacked = .ok true :=
    Layout.isPacked_of_packedStrides hstrides
  obtain ⟨bytes, after⟩ := fresh.exists_holds_store values.flatten
  refine ⟨_, _, _, _, ?_, rfl, hstrides, after, rfl, fresh.toList_of_written rfl packed rfl whole⟩
  rw [ofList, hnumel, ok_bind_apply, if_neg (not_not_intro rfl), create]
  change (withLayout dtype src.shape src.dimTypes none src.stream false >>= fun tensor => _ : Work _ _) machine = _
  rw [bind_apply, hcreate]
  dsimp only
  rw [bind_apply, (fresh.access_memory rfl).2]
  rfl

end ArrayEngine.Tensor
