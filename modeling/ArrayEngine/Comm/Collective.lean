import ArrayEngine.Grid.Error

/-! Programs of one process that call collectives, and the communicators they call them through. How
the calls of all processes meet is not said here. -/
namespace ArrayEngine

/-- A program that ends in an `α`. Every collective is a gathering of one word from every member: the
program hands in its own word, and goes on with those of all members in rank order. -/
inductive Collective (α : Type) where
  | done (result : α)
  | gather (value : UInt64) (resume : Except GridError (List UInt64) → Collective α)

namespace Collective

variable {α β : Type}

def bind : Collective α → (α → Collective β) → Collective β
  | done result, next => next result
  | gather value resume, next => gather value fun gathered => (resume gathered).bind next

instance : Monad Collective where
  pure := done
  bind := bind

def result? : Collective α → Option α
  | done result => some result
  | gather _ _ => none

end Collective

/-- The part of a process in a group of processes. A process on its own needs no messages. -/
structure Comm where
  rank : Nat
  /-- The members in rank order. -/
  members : List Nat
  /-- Members of a world exchange messages; a single process does not. -/
  isJoined : Bool
  /-- Collective calls check that all members mean the same. -/
  checks : Bool
deriving DecidableEq, Repr

namespace Comm

def single : Comm := ⟨0, [0], false, false⟩

def world (size : Nat) (checks : Bool) : List Comm :=
  (List.range size).map fun rank => ⟨rank, List.range size, true, checks⟩

def size (comm : Comm) : Nat := comm.members.length

/-- One word from every member, in rank order. -/
def gather (comm : Comm) (value : UInt64) : Collective (Except GridError (List UInt64)) :=
  if comm.isJoined then .gather value .done else .done (.ok [value])

def barrier (comm : Comm) : Collective (Except GridError Unit) := do
  return (← comm.gather 0).map fun _ => ()

/-- The words of all members are that of this one. -/
def agree (comm : Comm) (value : UInt64) (words : List UInt64) : Except GridError Unit :=
  if words.all (· == value) then .ok () else .error (.inconsistent comm.rank)

/-- Fails unless all members hand in the same word. -/
def check (comm : Comm) (value : UInt64) : Collective (Except GridError Unit) := do
  return (← comm.gather value).bind (comm.agree value)

end Comm

end ArrayEngine
