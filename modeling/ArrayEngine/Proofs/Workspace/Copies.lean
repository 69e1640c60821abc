import ArrayEngine.Proofs.Tensor.HostCopies
import ArrayEngine.Proofs.Workspace.RoundTrip

/-! Copies between the host tensors of a reachable workspace, and what they mean for all other tensors. -/
namespace ArrayEngine

namespace Workspace

variable {workspace : Workspace} {name other : String} {dst src : Tensor}

/-- Tensors over one buffer are of one type, shape and strides. -/
theorem Sound.alike (sound : workspace.Sound) {tensor : Tensor} {id : BufferId}
    (found : workspace.tensors.lookup name = some dst) (foundToo : workspace.tensors.lookup other = some tensor)
    (hid : dst.buffer? = some id) (hidToo : tensor.buffer? = some id) :
    tensor.dtype = dst.dtype ∧ tensor.shape = dst.shape ∧ tensor.strides = dst.strides := by
  by_cases hname : name = other
  · subst hname
    cases found.symm.trans foundToo
    exact ⟨rfl, rfl, rfl⟩
  · have agrees := sound.shared hname found foundToo hid hidToo
    exact ⟨agrees.dtype.symm, agrees.shape.symm, agrees.strides.symm⟩

/-- Five bytes with gaps between them, and others of the same layout with a view of them. -/
def twoWithGaps : Workspace :=
  { initial with
    machine := { Machine.initial with buffers := [⟨9, .host, [1, 2, 3, 4, 5, 6, 7, 8, 9, 0, 0, 0, 0, 0, 0, 0]⟩,
      .zeroed .host 9] }
    tensors := [("w", (gaps .cpu 1).view), ("c", gaps .cpu 1), ("a", gaps .cpu 0)] }

theorem reachable_twoWithGaps : Reachable twoWithGaps := by
  have reachable : Reachable initial := .start rfl Catalogue.tame_initial
  have reachable := reachable.make (.layout ⟨5, .u8⟩ [5] [.any] (some [2]) .cpu false)
    (.of_ok rfl : EndsAt (create "a" _ _) _)
  have reachable := reachable.make (.layout ⟨5, .u8⟩ [5] [.any] (some [2]) .cpu false)
    (.of_ok rfl : EndsAt (create "c" _ _) _)
  have reachable := reachable.make (@Making.view _ "c" _ rfl) (.of_ok rfl : EndsAt (create "w" _ _) _)
  exact reachable.outside rfl (Machine.keeps_store _ 0 0 [1, 2, 3, 4, 5, 6, 7, 8, 9]) Catalogue.tame_initial

end Workspace

end ArrayEngine
