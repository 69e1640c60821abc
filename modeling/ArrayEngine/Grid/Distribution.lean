import ArrayEngine.Named
import ArrayEngine.Trap

/-! How an axis of a tensor is split over an axis of a grid. -/
namespace ArrayEngine

/-- The indices from `start` on below `stop`. -/
structure Interval where
  start : Nat
  stop : Nat
deriving DecidableEq, Repr

def Interval.length (interval : Interval) : Nat := interval.stop - interval.start

/-- Blocks of equal length, of which the first ones are longer by 1 if the axis does not divide; the
whole axis everywhere; or the whole axis at coordinate 0 only. -/
inductive Distribution where
  | block | replicated | single
deriving DecidableEq, Repr, Inhabited

instance : Named Distribution where
  all := [.block, .replicated, .single]
  name
    | .block => "Block"
    | .replicated => "Replicated"
    | .single => "Single"

namespace Distribution

def blockAt (length procs coord : Nat) : Except Trap Interval := do
  if procs = 0 then throw .divideByZero
  let size := length / procs
  let longer := length % procs
  let start ← Word.add (← Word.mul coord size) (min coord longer)
  let stop ← Word.add (← Word.add start size) (if coord < longer then 1 else 0)
  return ⟨start, stop⟩

/-- The indices of an axis of the given length that are held at a coordinate of a grid axis of
`procs` places. -/
def indices (distribution : Distribution) (length procs coord : Nat) : Except Trap Interval :=
  match distribution with
  | block => blockAt length procs coord
  | replicated => .ok ⟨0, length⟩
  | single => .ok (if coord = 0 then ⟨0, length⟩ else ⟨0, 0⟩)

end Distribution

end ArrayEngine
