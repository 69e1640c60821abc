import ArrayEngine.Comm.Collective
import ArrayEngine.Trap

/-! Processes in a grid. The first coordinate varies fastest with the rank. -/
namespace ArrayEngine

/-- The members of a communicator, arranged in a shape with as many places. -/
structure Grid where
  comm : Comm
  shape : List Nat
deriving DecidableEq, Repr

namespace Grid

/-- Arranges the members of a communicator. The shape must have a place for each. -/
def create (comm : Comm) (shape : List Nat) : Except (Halt GridError) Grid := do
  if (← Layout.product shape) = comm.size then return ⟨comm, shape⟩
  else throw (.error (.shape comm.size shape))

def rank (grid : Grid) : Nat := grid.comm.rank

def size (grid : Grid) : Nat := grid.comm.size

/-- The digits of a rank to the mixed base `shape`, the first digit lowest. -/
def digits : List Nat → Nat → Except Trap (List Nat)
  | [], _ => .ok []
  | n :: shape, rank =>
    if n = 0 then .error .remainderByZero
    else return rank % n :: (← digits shape (rank / n))

def coordsOf (grid : Grid) (rank : Nat) : Except Trap (List Nat) := digits grid.shape rank

def rankOf (grid : Grid) (coords : List Nat) : Except Trap Nat := do
  Layout.offset coords (← Layout.packedStrides grid.shape)

def coords (grid : Grid) : Except Trap (List Nat) := grid.coordsOf grid.rank

/-- Both grids have the same shape and the same members. -/
def isCongruent (grid other : Grid) : Bool :=
  grid.shape == other.shape && grid.comm.members == other.comm.members

end Grid

end ArrayEngine
