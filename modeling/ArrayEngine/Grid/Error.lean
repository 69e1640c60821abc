import ArrayEngine.Error
import ArrayEngine.Layout

/-! Errors of grids and communicators. -/
namespace ArrayEngine

inductive GridError where
  | notCongruent
  | inconsistent (rank : Nat)
  | disconnected
  | shape (size : Nat) (extents : List Nat)
deriving DecidableEq, Repr

namespace GridError

def name : GridError → String
  | notCongruent => "NotCongruent"
  | inconsistent _ => "Inconsistent"
  | disconnected => "Disconnected"
  | shape _ _ => "Shape"

def kind : GridError → ErrorKind
  | disconnected => .fatal
  | _ => .precondition

def message : GridError → String
  | notCongruent => "process grids are not congruent"
  | inconsistent rank => s!"[rank {rank}] collective call arguments differ across processes"
  | disconnected => "communicator peer disconnected"
  | shape size extents => s!"grid shape {Layout.text extents} does not cover {size} processes"

end GridError

instance : Explained GridError := ⟨GridError.name, GridError.kind, GridError.message⟩

end ArrayEngine
