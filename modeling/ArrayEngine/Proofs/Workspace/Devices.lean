import ArrayEngine.Proofs.Workspace.RoundTrip

/-! Which device a tensor is on once it was made accessible, and which stream work on it goes to: the stream
that was asked for is taken as it is where the tensor comes from another device. -/
namespace ArrayEngine

namespace Tensor

variable {src dst tensor : Tensor} {machine later : Machine} {device : Device} {stream : Stream}
  {state : Tensor × Machine}

/-- A tensor is on a device, and work on it goes to a stream of that device. -/
structure IsOn (tensor : Tensor) (device : Device) : Prop where
  device : tensor.device = device
  stream : tensor.stream.device = tensor.device

theorem exists_of_build {changes : Update Unit} (h : build src changes machine = .ok tensor later) :
    changes (src, machine) = .ok () (tensor, later) := by
  rw [build] at h
  cases hchanges : changes (src, machine) with
  | error cause state =>
    rw [hchanges] at h
    cases h
  | ok done state =>
    rw [hchanges] at h
    cases h
    rfl

/-- What comes within reach of a stream is worked on there. It bears the name of the device that was asked for
as a view, and is on the device of the stream as a copy. -/
theorem stream_of_reachedFrom (h : src.reachedFrom device stream machine = .ok tensor later) :
    tensor.stream = stream ∧ (tensor.device = device ∨ tensor.device = stream.device) := by
  rw [reachedFrom, get_bind_apply] at h
  split at h
  · cases h
    exact ⟨rfl, .inl rfl⟩
  · obtain ⟨laid, _, hlaid, h⟩ := bind_eq_ok.mp h
    obtain ⟨copied, _, hcopied, h⟩ := bind_eq_ok.mp h
    obtain ⟨hdevice, hstream⟩ := (sameStream_of_copyFrom (exists_of_build hcopied)).trans
      (sameStream_of_resize (exists_of_build hlaid))
    have same : tensor = copied := by
      split at h
      · obtain ⟨_, _, _, h⟩ := bind_eq_ok.mp h
        cases h
        rfl
      · cases h
        rfl
    exact ⟨same ▸ hstream, .inr (same ▸ hdevice)⟩

/-- The stream that is taken when none is asked for is one of the device. -/
theorem device_of_accessStream (h : accessStream device machine = .ok stream later) :
    stream.device = device := by
  have h : Stream.ofDevice device machine = .ok stream later := adaptErrors_eq_ok.mp (adaptErrors_eq_ok.mp h)
  cases device with
  | cpu =>
    cases h
    rfl
  | gpu =>
    rw [Stream.ofDevice, get_bind_apply] at h
    cases hinstalled : machine.installed with
    | none =>
      rw [hinstalled] at h
      cases h
    | some context =>
      rw [hinstalled] at h
      cases h
      rfl

/-- The stream that goes into an access unexamined: the one asked for, or without one that of a source which
is on the device. -/
def passedStream? (src : Tensor) (device : Device) (stream? : Option Stream) : Option Stream :=
  stream?.or (if src.device = device then some src.stream else none)

/-- A tensor that was made accessible from a device is on that device, with a stream of it, exactly if the
stream that was asked for is one of the device. Without one the stream of a source on the device has to be, and a
source from elsewhere is always made accessible there. -/
theorem isOn_iff_of_accessibleOn {stream? : Option Stream}
    (h : src.accessibleOn device stream? machine = .ok tensor later) :
    tensor.IsOn device ↔ ∀ stream ∈ src.passedStream? device stream?, stream.device = device := by
  by_cases hdevice : src.device = device
  · unfold accessibleOn at h
    rw [if_pos hdevice] at h
    rw [passedStream?, if_pos hdevice]
    cases stream? with
    | none =>
      cases h
      simp only [Option.none_or, Option.mem_some_iff, forall_eq']
      exact ⟨fun on => on.stream.trans on.device, fun hstream => ⟨hdevice, hstream.trans hdevice.symm⟩⟩
    | some stream =>
      -- the only case in which the stream is compared with the device
      cases hview : src.view.withStream stream with
      | error cause =>
        simp only [hview] at h
        cases h
      | ok view =>
        simp only [hview] at h
        cases h
        rw [withStream] at hview
        split at hview
        · next hstream =>
          cases hview
          simp only [Option.some_or, Option.mem_some_iff, forall_eq']
          exact ⟨fun _ => hstream.trans hdevice, fun _ => ⟨hdevice, hstream⟩⟩
        · cases hview
  · rw [accessibleOn_of_ne hdevice] at h
    obtain ⟨stream, _, hstream, h⟩ := bind_eq_ok.mp h
    obtain ⟨rfl, hon⟩ := stream_of_reachedFrom h
    have moved : tensor.IsOn device ↔ tensor.stream.device = device := by
      refine ⟨fun on => on.stream.trans on.device, fun hserves => ?_⟩
      have htensor : tensor.device = device := hon.elim id fun h => h.trans hserves
      exact ⟨htensor, hserves.trans htensor.symm⟩
    rw [moved, passedStream?, if_neg hdevice]
    cases stream? with
    | none => simpa using device_of_accessStream hstream
    | some asked =>
      cases hstream
      simp only [Option.some_or, Option.mem_some_iff, forall_eq']

end Tensor

namespace Workspace

/-- A single number. -/
def number (stream : Stream) (id : BufferId) : Tensor :=
  ⟨[1], [.any], [1], .f32, stream.device, stream, some id, .exclusive, false⟩

/-- A number on the host, and one on a GPU with memory of its own. -/
def onBothSides : Workspace :=
  { initial with
    machine := { discrete with buffers := [.zeroed .host 4, .zeroed (.gpu 0) 4] }
    tensors := [("c", number (.gpu 0 0) 1), ("a", number .cpu 0)] }

theorem reachable_onBothSides : Reachable onBothSides := by
  have reachable : Reachable initial := .start rfl Catalogue.tame_initial
  have reachable : Reachable { initial with machine := discrete } :=
    reachable.outside rfl (.of_buffers_eq rfl) Catalogue.tame_initial
  have reachable := reachable.make (.packed .f32 [1] .cpu false) (.of_ok rfl : EndsAt (create "a" _ _) _)
  exact reachable.make (.packed .f32 [1] (.gpu 0 0) false) (.of_ok rfl : EndsAt (create "c" _ _) _)

end Workspace

namespace Tensor

open Workspace

/-- The number on the host is made accessible from the GPU with a stream of the GPU, and the one on the GPU from the
host with a stream of the GPU again. -/
theorem isOn_iff_of_accessibleOn_number : ∃ away astray middle later,
    (number .cpu 0).accessibleOn .gpu (some (.gpu 0 3)) onBothSides.machine = .ok away middle ∧
      away.IsOn .gpu ∧
    (number (.gpu 0 0) 1).accessibleOn .cpu (some (.gpu 0 3)) onBothSides.machine = .ok astray later ∧
      ¬astray.IsOn .cpu := by
  have hthere : (number .cpu 0).accessibleOn .gpu (some (.gpu 0 3)) onBothSides.machine = .ok _ _ := rfl
  have hback : (number (.gpu 0 0) 1).accessibleOn .cpu (some (.gpu 0 3)) onBothSides.machine = .ok _ _ := rfl
  refine ⟨_, _, _, _, hthere, (isOn_iff_of_accessibleOn hthere).mpr ?_, hback, fun on => ?_⟩
  · rintro stream ⟨⟩
    rfl
  · exact nomatch (isOn_iff_of_accessibleOn hback).mp on _ rfl

/-- The number on the host becomes one on the GPU that is worked on by the host, and the number on the GPU stays
there although it was to be accessible from the host. -/
theorem astray_of_accessibleOn : Reachable onBothSides ∧
    (onBothSides.tensors.lookup "a" = some (number .cpu 0) ∧ ∃ tensor later,
      (number .cpu 0).accessibleOn .gpu (some .cpu) onBothSides.machine = .ok tensor later ∧
        tensor.device = .gpu ∧ tensor.stream.device = .cpu) ∧
    onBothSides.tensors.lookup "c" = some (number (.gpu 0 0) 1) ∧ ∃ tensor later,
      (number (.gpu 0 0) 1).accessibleOn .cpu (some (.gpu 0 0)) onBothSides.machine = .ok tensor later ∧
        tensor.device = .gpu :=
  ⟨reachable_onBothSides, ⟨rfl, _, _, rfl, rfl, rfl⟩, rfl, _, _, rfl, rfl⟩

end Tensor

end ArrayEngine
