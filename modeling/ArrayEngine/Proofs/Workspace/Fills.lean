import ArrayEngine.Proofs.Tensor.Fills
import ArrayEngine.Proofs.Workspace.RoundTrip

/-! The tensors of a reachable workspace are filled alike on the host and on GPUs. -/
namespace ArrayEngine.Workspace

variable {workspace : Workspace}

/-- Two columns of two numbers each, with a gap between them. -/
def columns (stream : Stream) (id : BufferId) : Tensor :=
  ⟨[2, 2], [.any, .any], [1, 3], .f32, stream.device, stream, some id, .exclusive, false⟩

/-- The columns on the host and on a GPU with memory of its own, with something in the gap on both sides. -/
def twoColumns : Workspace :=
  { initial with
    machine := { discrete with buffers :=
      [⟨20, .host, List.replicate 8 0 ++ [7, 7, 7, 7] ++ List.replicate 20 0⟩,
        ⟨20, .gpu 0, List.replicate 8 0 ++ [7, 7, 7, 7] ++ List.replicate 8 0⟩] }
    tensors := [("c", columns (.gpu 0 0) 1), ("a", columns .cpu 0)] }

theorem reachable_twoColumns : Reachable twoColumns := by
  have reachable : Reachable initial := .start rfl Catalogue.tame_initial
  have reachable : Reachable { initial with machine := discrete } :=
    reachable.outside rfl (.of_buffers_eq rfl) Catalogue.tame_initial
  have reachable := reachable.make (.layout .f32 [2, 2] [.any, .any] (some [1, 3]) .cpu false)
    (.of_ok rfl : EndsAt (create "a" _ _) _)
  have reachable := reachable.make (.layout .f32 [2, 2] [.any, .any] (some [1, 3]) (.gpu 0 0) false)
    (.of_ok rfl : EndsAt (create "c" _ _) _)
  exact reachable.outside rfl ((Machine.keeps_store _ 0 8 [7, 7, 7, 7]).trans
    (Machine.keeps_store _ 1 8 [7, 7, 7, 7])) Catalogue.tame_initial

end ArrayEngine.Workspace
