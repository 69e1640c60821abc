import ArrayEngine.Proofs.Tensor.RoundTrip

/-! Copies between tensors on the host: whether the target keeps its buffer, and what is read afterwards of it
and of all others. -/
namespace ArrayEngine.Tensor

variable {tensor dst src now other : Tensor} {machine later : Machine} {state : Tensor × Machine}
  {id d : BufferId} {buffer : Buffer} {elements extent : Nat}

/-- Work on the tensor goes to the host, and so did the memory that it has. -/
structure IsHosted (tensor : Tensor) (machine : Machine) : Prop where
  stream : tensor.stream = .cpu
  memory : ∀ id, tensor.buffer? = some id → (machine.buffer id).place = .host

theorem IsHosted.ensured (hosted : tensor.IsHosted machine)
    (ends : EndsAt (ensure (tensor, machine)) state) : state.1.IsHosted state.2 := by
  obtain ⟨rfl, _⟩ | ⟨_, size, _, _, _, rfl⟩ := ensure_cases ends
  · exact hosted
  · refine ⟨hosted.stream, fun id hid => ?_⟩
    cases hid
    rw [Machine.buffer_of_getElem? (machine.getElem?_withBuffer_self tensor.stream.place size), hosted.stream]
    rfl

theorem IsHosted.resized {shape : List Nat} {dimTypes : List DimType} {strides? : Option (List Nat)}
    (hosted : tensor.IsHosted machine)
    (ends : EndsAt (resize shape dimTypes strides? (tensor, machine)) state) : state.1.IsHosted state.2 := by
  have relaid (strides : List Nat) : (tensor.relaid shape dimTypes strides).IsHosted machine := by
    refine ⟨hosted.stream, fun id hid => hosted.memory id ?_⟩
    rw [Tensor.relaid] at hid
    dsimp only at hid
    split at hid
    · exact hid
    · cases hid
  obtain rfl | ⟨strides, _, _, ⟨_, rfl⟩ | ⟨_, rfl⟩ | ⟨_, ends⟩⟩ := resize_cases ends
  · exact hosted
  · exact ⟨hosted.stream, hosted.memory⟩
  · exact relaid strides
  · exact (relaid strides).ensured ends

/-- The place of the buffer of a hosted tensor with memory. -/
theorem IsHosted.place (hosted : tensor.IsHosted machine)
    (holds : tensor.Holds machine id buffer elements extent) : buffer.place = .host := by
  rw [← Machine.buffer_of_getElem? holds.found]
  exact hosted.memory id holds.held

end ArrayEngine.Tensor
