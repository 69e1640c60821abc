import ArrayEngine.Dispatch.Key
import ArrayEngine.Error

/-! Errors of dispatch. -/
namespace ArrayEngine

/-- Why a dispatch failed. `κ` is what kernels fail with. -/
inductive DispatchError (κ : Type) where
  | notFound (operation : String) (key : DispatchKey)
  | nonComputeType (type : String)
  | nonNativeType (type : String)
  | tooManyTypes (count max : Nat)
  | arity (expected actual : Nat)
  | argType (index : Nat) (expected : String)
  | tableIndex (key length : Nat)
  | kernel (cause : κ)
deriving DecidableEq, Repr

namespace DispatchError

variable {κ : Type}

def name : DispatchError κ → String
  | notFound _ _ => "NotFound"
  | nonComputeType _ => "NonComputeType"
  | nonNativeType _ => "NonNativeType"
  | tooManyTypes _ _ => "TooManyTypes"
  | arity _ _ => "Arity"
  | argType _ _ => "ArgType"
  | tableIndex _ _ => "TableIndex"
  | kernel _ => "Kernel"

def kind : DispatchError κ → ErrorKind
  | nonNativeType _ | arity _ _ | argType _ _ => .precondition
  | _ => .fatal

def message (describe : κ → String) : DispatchError κ → String
  | notFound operation key =>
    s!"no dispatch entry for `{operation}` with key {key.text}"
  | nonComputeType type => s!"cannot dispatch on non-compute type {type}"
  | nonNativeType type => s!"type {type} is not native"
  | tooManyTypes count max => s!"{count} types do not fit in a dispatch key (max {max})"
  | arity expected actual =>
    s!"dispatch arity mismatch: expected {expected} arguments, got {actual}"
  | argType index expected => s!"dispatch argument {index} is not a `{expected}`"
  | tableIndex key length => s!"native key {key} is out of the dispatch table of length {length}"
  | kernel cause => s!"kernel error: {describe cause}"

end DispatchError

end ArrayEngine
