import ArrayEngine.Proofs.Layout.Exact
import ArrayEngine.Proofs.Tensor.Kernels

/-! What holds of every tensor: its layout is one of as many axes throughout, its buffer is as long as the
layout takes, and a tensor that is not lazy has one as soon as it has elements. -/
namespace ArrayEngine

/-- The type of numbers of four bytes. -/
def TypeInfo.f32 : TypeInfo := ⟨0, NumericType.f32.toElementType⟩

/-- A type whose elements have no bytes, known next after those that are known from the start. -/
def TypeInfo.unit : TypeInfo := ⟨6, ⟨"unit", 0, []⟩⟩

namespace TypeTable

/-- The type is the one of its token in the table. -/
def Known (table : TypeTable) (dtype : TypeInfo) : Prop := table.ofToken? dtype.token = some dtype

/-- Types are compared by token, which is enough for known ones. -/
theorem Known.eq_of_beq {table : TypeTable} {dtype other : TypeInfo} (h : table.Known dtype)
    (k : table.Known other) (same : (dtype == other) = true) : dtype = other := by
  have htoken : dtype.token = other.token := LawfulBEq.eq_of_beq same
  have hfound : table.ofToken? dtype.token = some dtype := h
  rw [htoken, k] at hfound
  exact (Option.some.inj hfound).symm

theorem known_f32 : builtin.Known .f32 := rfl

end TypeTable

namespace Tensor

/-- The number of bytes that some elements take, if that many can be allocated. -/
def byteSize (count size : Nat) : Except Trap Nat := Word.mul count size >>= allocatable

theorem byteSize_eq_ok {count size bytes : Nat} :
    byteSize count size = .ok bytes ↔ count * size = bytes ∧ bytes ≤ maxAllocation := by
  rw [byteSize, except_bind_eq_ok]
  simp only [Word.mul_eq_ok, allocatable_eq_ok]
  constructor
  · rintro ⟨_, ⟨rfl, _⟩, rfl, fits⟩
    exact ⟨rfl, fits⟩
  · rintro ⟨rfl, fits⟩
    exact ⟨_, ⟨rfl, Nat.lt_of_le_of_lt fits (by decide)⟩, rfl, fits⟩

theorem byteSize_of_uncounted {count size : Nat} (h : wordLimit ≤ count * size) :
    byteSize count size = .error .multiplyOverflow := by
  rw [byteSize, Word.mul, if_neg (Nat.not_lt.mpr h)]
  rfl

theorem byteSize_of_large {count size : Nat} (large : maxAllocation < count * size) (h : count * size < wordLimit) :
    byteSize count size = .error .capacityOverflow := by
  rw [byteSize, Word.mul, if_pos h]
  exact if_neg (Nat.not_le.mpr large)

theorem mul_of_byteSize {count size bytes : Nat} (h : byteSize count size = .ok bytes) :
    Word.mul count size = .ok bytes := by
  obtain ⟨hmul, fits⟩ := byteSize_eq_ok.mp h
  exact Word.mul_eq_ok.mpr ⟨hmul, Nat.lt_of_le_of_lt fits (by decide)⟩

/-- The number of bytes from the first to the last element, if that many can be allocated. -/
def byteCount (tensor : Tensor) : Except Trap Nat := do
  byteSize (← tensor.extent) tensor.dtype.size

/-- The buffer of a tensor is as long as its elements take, and there are some. The layout has as many
axes throughout. -/
structure Fits (tensor : Tensor) (machine : Machine) : Prop where
  dimTypes : tensor.dimTypes.length = tensor.shape.length
  strides : tensor.strides.length = tensor.shape.length
  memory : ∀ id, tensor.buffer? = some id → ∃ count buffer,
    tensor.numel = .ok count ∧ 0 < count ∧ machine.buffers[id]? = some buffer ∧
      tensor.byteCount = .ok buffer.size

/-- All elements have memory. -/
def HasMemory (tensor : Tensor) : Prop := tensor.numel = .ok 0 ∨ tensor.buffer?.isSome = true

/-- Unless it is lazy the tensor has memory. -/
def IsEager (tensor : Tensor) : Prop := tensor.isLazy = false → tensor.HasMemory

/-- A tensor between two operations. -/
structure Sound (tensor : Tensor) (machine : Machine) : Prop extends Fits tensor machine where
  eager : tensor.IsEager

/-- A tensor owns memory of the host, and is worked on there. -/
structure OnHost (tensor : Tensor) (machine : Machine) : Prop where
  device : tensor.device = .cpu
  stream : tensor.stream = .cpu
  ownership : tensor.ownership = .exclusive
  memory : ∀ id, tensor.buffer? = some id → ∃ buffer, machine.buffers[id]? = some buffer ∧
    buffer.place = .host ∧ buffer.size ≤ buffer.bytes.length

/-- The buffer of a tensor has all bytes that its memory gives out for its size. -/
def IsHoused (tensor : Tensor) (machine : Machine) : Prop :=
  ∀ id, tensor.buffer? = some id → ∃ buffer, machine.buffers[id]? = some buffer ∧
    buffer.bytes.length = roundUp buffer.place.granule buffer.size

variable {tensor : Tensor} {machine later : Machine}

theorem IsHoused.keeps (housed : tensor.IsHoused machine) (keeps : machine.Keeps later) :
    tensor.IsHoused later := by
  intro id hid
  obtain ⟨buffer, hbuffer, hlength⟩ := housed id hid
  obtain ⟨now, hnow, hframe⟩ := keeps id buffer hbuffer
  exact ⟨now, hnow, by rw [hframe.length, hframe.place, hframe.size, hlength]⟩

theorem Fits.keeps (fits : tensor.Fits machine) (keeps : machine.Keeps later) : tensor.Fits later := by
  refine ⟨fits.dimTypes, fits.strides, fun id hid => ?_⟩
  obtain ⟨count, buffer, hcount, hpos, hbuffer, hsize⟩ := fits.memory id hid
  obtain ⟨now, hnow, hframe⟩ := keeps id buffer hbuffer
  exact ⟨count, now, hcount, hpos, hnow, hsize.trans (congrArg _ hframe.size.symm)⟩

theorem OnHost.keeps (host : tensor.OnHost machine) (keeps : machine.Keeps later) :
    tensor.OnHost later := by
  refine ⟨host.device, host.stream, host.ownership, fun id hid => ?_⟩
  obtain ⟨buffer, hbuffer, hplace, hsize⟩ := host.memory id hid
  obtain ⟨now, hnow, hframe⟩ := keeps id buffer hbuffer
  refine ⟨now, hnow, hframe.place.trans hplace, ?_⟩
  rw [hframe.size, hframe.length]
  exact hsize

theorem Sound.keeps (sound : tensor.Sound machine) (keeps : machine.Keeps later) :
    tensor.Sound later :=
  ⟨sound.toFits.keeps keeps, sound.eager⟩

theorem sound_blank (dtype : TypeInfo) (stream : Stream) (isLazy : Bool) (machine : Machine) :
    (blank dtype stream isLazy).Sound machine :=
  ⟨⟨rfl, rfl, fun _ hid => nomatch hid⟩, fun _ => .inl rfl⟩

theorem sound_emptied (tensor : Tensor) (machine : Machine) : tensor.emptied.Sound machine :=
  ⟨⟨rfl, rfl, fun _ hid => nomatch hid⟩, fun _ => .inl rfl⟩

theorem onHost_blank (dtype : TypeInfo) (isLazy : Bool) (machine : Machine) :
    (blank dtype .cpu isLazy).OnHost machine :=
  ⟨rfl, rfl, rfl, fun _ hid => nomatch hid⟩

theorem OnHost.emptied (host : tensor.OnHost machine) : tensor.emptied.OnHost machine :=
  ⟨host.device, host.stream, rfl, fun _ hid => nomatch hid⟩

theorem Sound.view (sound : tensor.Sound machine) : tensor.view.Sound machine :=
  ⟨⟨sound.dimTypes, sound.strides, sound.memory⟩, sound.eager⟩

theorem Sound.viewOn (sound : tensor.Sound machine) (device : Device) (stream : Stream) :
    (tensor.viewOn device stream).Sound machine :=
  ⟨⟨sound.dimTypes, sound.strides, sound.memory⟩, sound.eager⟩

theorem isEmpty_eq_false {elements : Nat} (hnumel : tensor.numel = .ok elements) (pos : 0 < elements) :
    tensor.isEmpty = .ok false := by
  rw [isEmpty, hnumel]
  exact congrArg _ (beq_false_of_ne (Nat.ne_of_gt pos))

theorem isEmpty_eq_true_iff : tensor.isEmpty = .ok true ↔ tensor.numel = .ok 0 := by
  constructor
  · intro h
    obtain ⟨elements, hnumel, hzero⟩ := except_bind_eq_ok.mp h
    obtain rfl : elements = 0 := beq_iff_eq.mp (Except.ok.inj hzero)
    exact hnumel
  · intro h
    rw [isEmpty, h]
    rfl

/-- Without elements a tensor reaches nowhere. -/
theorem extent_of_numel_eq_zero (h : tensor.numel = .ok 0) : tensor.extent = .ok 0 := by
  rw [extent, Layout.extent, ← numel, h]
  rfl

theorem exists_pos_of_isEmpty (h : tensor.isEmpty = .ok false) :
    ∃ elements, tensor.numel = .ok elements ∧ 0 < elements := by
  obtain ⟨elements, hnumel, hzero⟩ := except_bind_eq_ok.mp h
  refine ⟨elements, hnumel, Nat.pos_of_ne_zero fun hnone => ?_⟩
  rw [hnone] at hzero
  cases hzero

theorem isEnsured_eq_ok {ensured : Bool} (h : tensor.isEnsured = .ok ensured) :
    ∃ count, tensor.numel = .ok count ∧ ensured = (count == 0 || tensor.buffer?.isSome) := by
  rw [isEnsured, isEmpty] at h
  obtain ⟨empty, hempty, h⟩ := except_bind_eq_ok.mp h
  obtain ⟨count, hcount, hempty⟩ := except_bind_eq_ok.mp hempty
  cases hempty
  cases h
  exact ⟨count, hcount, rfl⟩

theorem byteCount_eq_ok {size : Nat} : tensor.byteCount = .ok size ↔
    ∃ extent, tensor.extent = .ok extent ∧ byteSize extent tensor.dtype.size = .ok size :=
  except_bind_eq_ok

end Tensor

end ArrayEngine
