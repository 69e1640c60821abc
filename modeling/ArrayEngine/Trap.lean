/-! Checked machine arithmetic. A failed check is a `Trap`: it ends the program, unlike an error,
which an operation reports to its caller. -/
namespace ArrayEngine

/-- Sizes, counts, strides and coordinates are words: natural numbers below this limit. -/
def wordLimit : Nat := UInt64.size

inductive Trap where
  | multiplyOverflow
  | addOverflow
  | shiftOverflow
  | divideByZero
  | remainderByZero
  | indexOutOfBounds (length index : Nat)
  | rangeEnd (stop length : Nat)
  | unequalLengths (left right : Nat)
  | nonNativeToken
  | typeTableFull (name : String)
  | lockPoisoned
  | capacityOverflow
  | matrixBounds
deriving DecidableEq, Repr

namespace Trap

def message : Trap → String
  | multiplyOverflow => "attempt to multiply with overflow"
  | addOverflow => "attempt to add with overflow"
  | shiftOverflow => "attempt to shift right with overflow"
  | divideByZero => "attempt to divide by zero"
  | remainderByZero => "attempt to calculate the remainder with a divisor of zero"
  | indexOutOfBounds length index =>
    s!"index out of bounds: the len is {length} but the index is {index}"
  | rangeEnd stop length => s!"range end index {stop} out of range for slice of length {length}"
  | unequalLengths left right =>
    "assertion `left == right` failed: iterators must have the same length\n" ++
      s!"  left: {left}\n right: {right}"
  | nonNativeToken => "assertion failed: tokens.iter().all(|&token| is_native(token))"
  | typeTableFull name => s!"type registry is full: cannot register {name}"
  | lockPoisoned => "failed to lock type registry: PoisonError \x7b .. \x7d"
  | capacityOverflow => "capacity overflow"
  | matrixBounds => "faer assertion"

end Trap

/-- Why an operation stopped: a trap of the machine, or an error it reports. -/
inductive Halt (ε : Type) where
  | trap (cause : Trap)
  | error (cause : ε)
deriving DecidableEq, Repr

namespace Halt

variable {ε δ : Type}

def map (f : ε → δ) : Halt ε → Halt δ
  | trap cause => trap cause
  | error cause => error (f cause)

@[simp] theorem map_trap (f : ε → δ) (cause : Trap) : (trap cause).map f = trap cause := rfl

@[simp] theorem map_error (f : ε → δ) (cause : ε) : (error cause).map f = error (f cause) := rfl

end Halt

/-- Traps pass through computations that can also fail with an error. -/
instance liftTrap {ε : Type} : MonadLift (Except Trap) (Except (Halt ε)) where
  monadLift := Except.mapError Halt.trap

/-- A failing value, in a computation that changes a state. The state is kept. -/
instance liftFailure {ε σ : Type} : MonadLift (Except ε) (EStateM ε σ) where
  monadLift x := fun s =>
    match x with
    | .ok a => .ok a s
    | .error e => .error e s

instance liftTrapFailure {ε σ : Type} : MonadLift (Except Trap) (EStateM (Halt ε) σ) where
  monadLift x := fun s =>
    match x with
    | .ok a => .ok a s
    | .error t => .error (.trap t) s

/-- Runs a computation with its errors read as errors of another kind. -/
def adaptErrors {ε δ σ α : Type} (f : ε → δ) (x : EStateM (Halt ε) σ α) : EStateM (Halt δ) σ α :=
  fun s =>
    match x s with
    | .ok a s => .ok a s
    | .error e s => .error (e.map f) s

/-- Runs a computation on one part of a larger state. -/
def zoom {ε σ τ α : Type} (get : τ → σ) (put : σ → τ → τ) (x : EStateM ε σ α) : EStateM ε τ α :=
  fun t =>
    match x (get t) with
    | .ok a s => .ok a (put s t)
    | .error e s => .error e (put s t)

namespace Word

/-- The sum of two words, if it is a word. -/
def add (a b : Nat) : Except Trap Nat :=
  if a + b < wordLimit then .ok (a + b) else .error .addOverflow

/-- The product of two words, if it is a word. -/
def mul (a b : Nat) : Except Trap Nat :=
  if a * b < wordLimit then .ok (a * b) else .error .multiplyOverflow

theorem add_eq_ok {a b c : Nat} : add a b = .ok c ↔ a + b = c ∧ c < wordLimit := by
  unfold add
  split <;> constructor <;> simp_all <;> omega

theorem mul_eq_ok {a b c : Nat} : mul a b = .ok c ↔ a * b = c ∧ c < wordLimit := by
  unfold mul
  split <;> constructor <;> simp_all <;> omega

end Word

end ArrayEngine
