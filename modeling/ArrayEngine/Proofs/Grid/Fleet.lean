import ArrayEngine.Assoc
import ArrayEngine.Grid.Fingerprint
import ArrayEngine.Proofs.Comm.Rounds
import ArrayEngine.Tensor.Fill

/-! Programs over distributed tensors that all ranks of a world run with the same arguments, but for what
they write to their shares. -/
namespace ArrayEngine

/-- Sets the elements of the share, in index order. -/
def DistTensor.assign (elements : List Element) : DistUpdate Unit := fun state =>
  onShare (onMachine (state.1.share.assign elements)) state

namespace Fleet

/-- What one rank has. -/
structure Seat where
  tensors : Assoc String DistTensor
  machine : Machine

/-- A step of a program. The values that are filled in or written may differ from rank to rank. -/
inductive Step (n : Nat) where
  | create (name : String) (dtype : TypeInfo) (gridShape shape : List Nat) (dimTypes : List DimType)
      (distribution : List Distribution) (isLazy : Bool)
  | resize (name : String) (shape : List Nat) (dimTypes : List DimType)
      (distribution : List Distribution)
  | ensure (name : String)
  | empty (name : String)
  | fill (name : String) (values : Fin n → Element)
  | write (name : String) (elements : Fin n → List Element)
  | copy (dst src : String)

/-- What a step ends in. -/
abbrev Outcome := EStateM.Result (Halt DistError) Seat Unit

/-- What was given back by the steps so far, oldest first, and what the rank has after them. -/
structure Log where
  replies : List (Except DistError Unit)
  seat : Seat

namespace Seat

/-- A tensor of a name takes the place of the one that was changed. -/
def settle (seat : Seat) (name : String) :
    EStateM.Result (Halt DistError) (DistTensor × Machine) Unit → Outcome
  | .ok _ (tensor, machine) => .ok () ⟨Assoc.insert seat.tensors name tensor, machine⟩
  | .error cause (tensor, machine) => .error cause ⟨Assoc.insert seat.tensors name tensor, machine⟩

/-- Changes a tensor. A step on a name that no tensor has does nothing. -/
def change (seat : Seat) (name : String) (update : DistUpdate Unit) : Outcome :=
  match seat.tensors.lookup name with
  | some tensor => seat.settle name (update (tensor, seat.machine))
  | none => .ok () seat

/-- Makes a tensor on a grid of all ranks. -/
def create (seat : Seat) (comm : Comm) (name : String) (dtype : TypeInfo) (gridShape shape : List Nat)
    (dimTypes : List DimType) (distribution : List Distribution) (isLazy : Bool) : Outcome :=
  match Grid.create comm gridShape with
  | .error cause => .error (cause.map .grid) seat
  | .ok grid =>
    match DistTensor.create dtype grid shape dimTypes distribution .cpu isLazy seat.machine with
    | .ok tensor machine => .ok () ⟨Assoc.insert seat.tensors name tensor, machine⟩
    | .error cause machine => .error cause { seat with machine }

end Seat

namespace Step

variable {n : Nat}

/-- What a rank makes of a step if all ranks agree. -/
def act (checks : Bool) (rank : Fin n) (seat : Seat) : Step n → Outcome
  | create name dtype gridShape shape dimTypes distribution isLazy =>
    seat.create (Comm.member checks rank) name dtype gridShape shape dimTypes distribution isLazy
  | resize name shape dimTypes distribution =>
    seat.change name (DistTensor.resize shape dimTypes distribution)
  | ensure name => seat.change name DistTensor.ensure
  | empty name => seat.change name (modify fun (tensor, machine) => (tensor.emptied, machine))
  | fill name values => seat.change name (DistTensor.onShare (Tensor.fill (values rank)))
  | write name elements => seat.change name (DistTensor.assign (elements rank))
  | copy dst src =>
    match seat.tensors.lookup dst, seat.tensors.lookup src with
    | some target, some source =>
      if dst = src then .ok () seat
      else if target.grid.isCongruent source.grid then
        seat.settle dst (DistTensor.copyShare source (target, seat.machine))
      else seat.settle dst (.error (.error (.grid .notCongruent)) (target, seat.machine))
    | _, _ => .ok () seat

/-- The program of a rank for a step. Only copies need the other ranks. -/
def run (hash : CopyTerms → UInt64) (checks : Bool) (rank : Fin n) (seat : Seat) : Step n → Collective Outcome
  | copy dst src =>
    match seat.tensors.lookup dst, seat.tensors.lookup src with
    | some target, some source =>
      if dst = src then .done (.ok () seat)
      else do return seat.settle dst (← DistTensor.copy hash target source seat.machine)
    | _, _ => .done (.ok () seat)
  | step => .done (step.act checks rank seat)

end Step

/-- Adds what a step ended in. After a trap a rank does nothing more. -/
def Log.add (log : Log) : Outcome → Except Trap Log
  | .ok _ seat => .ok ⟨log.replies ++ [.ok ()], seat⟩
  | .error (.error cause) seat => .ok ⟨log.replies ++ [.error cause], seat⟩
  | .error (.trap trap) _ => .error trap

variable {n : Nat}

/-- The program of a rank for some steps. -/
def script (hash : CopyTerms → UInt64) (checks : Bool) (rank : Fin n) :
    List (Step n) → Log → Collective (Except Trap Log)
  | [], log => .done (.ok log)
  | step :: steps, log => do
    match log.add (← step.run hash checks rank log.seat) with
    | .ok log => script hash checks rank steps log
    | .error trap => .done (.error trap)

/-- What a rank makes of some steps if all ranks agree. -/
def actAll (checks : Bool) (rank : Fin n) : List (Step n) → Log → Except Trap Log
  | [], log => .ok log
  | step :: steps, log => do actAll checks rank steps (← log.add (step.act checks rank log.seat))

/-- A rank without tensors, on a machine of its own. -/
def blank (machine : Machine) : Log := ⟨[], [], machine⟩

/-- The ranks of a world run a program, each on a machine of its own. -/
def session (hash : CopyTerms → UInt64) (checks : Bool) (machines : Fin n → Machine)
    (steps : List (Step n)) (rank : Fin n) : Collective (Except Trap Log) :=
  script hash checks rank steps (blank (machines rank))

/-- What the ranks have after a program that none of them was stopped in by a trap, under some schedule. -/
def Reachable (hash : CopyTerms → UInt64) (checks : Bool) (machines : Fin n → Machine)
    (steps : List (Step n)) (logs : Fin n → Log) : Prop :=
  ∃ (moves : List (World.Move n)) (world : World n _) (history : World.History n),
    World.Run (session hash checks machines steps) moves world history ∧
      (∀ rank, World.Move.leave rank ∉ moves) ∧ ∀ rank, world.result? rank = some (.ok (logs rank))

end Fleet

end ArrayEngine
