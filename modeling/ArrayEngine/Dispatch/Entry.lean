import ArrayEngine.Dispatch.Error
import ArrayEngine.Trap

/-! Kernels as dispatch sees them: a signature, and a function on arguments of run-time types that
is only run on arguments that fit the signature. -/
namespace ArrayEngine

inductive ParamType where
  | plain (type : TypeId)
  | tensor (element : TypeId)
  | anyTensor
deriving DecidableEq, Repr

/-- The run-time type of an argument. The static type of a tensor may be known or not; its element
type is known in any case. -/
inductive ArgType where
  | plain (type : TypeId)
  | tensor (element : TypeId)
  | anyTensor (element : TypeId)
deriving DecidableEq, Repr

namespace ParamType

def text : ParamType → String
  | plain type => type.name
  | tensor element => s!"dihydro::loom::tensor::Tensor<{element.name}>"
  | anyTensor => "dihydro::loom::tensor::TensorUntyped"

/-- A parameter takes arguments of its own type, and a tensor parameter also takes tensors of its
element type whose static type is unknown. -/
def accepts : ParamType → ArgType → Bool
  | plain type, .plain actual => type == actual
  | tensor element, .tensor actual => element == actual
  | tensor element, .anyTensor actual => element == actual
  | anyTensor, .anyTensor _ => true
  | _, _ => false

end ParamType

structure Arg (ν : Type) where
  type : ArgType
  value : ν

/-- A kernel over the state `σ` and arguments in `ν`. It fails with a `κ`. -/
structure Entry (σ ν κ : Type) where
  params : List ParamType
  run : List ν → EStateM (Halt κ) σ Unit

namespace Entry

variable {σ ν κ : Type}

def arity (entry : Entry σ ν κ) : Nat := entry.params.length

/-- The first argument that its parameter does not accept, counted from `index`. -/
def mismatch? (index : Nat) : List ParamType → List (Arg ν) → Option (Nat × ParamType)
  | param :: params, arg :: args =>
    if param.accepts arg.type then mismatch? (index + 1) params args else some (index, param)
  | _, _ => none

/-- Why a kernel cannot be run on some arguments: their number comes before their types, and of the
types the first wrong one counts. -/
def refusal? (entry : Entry σ ν κ) (args : List (Arg ν)) : Option (DispatchError κ) :=
  if args.length ≠ entry.arity then some (.arity entry.arity args.length)
  else (mismatch? 0 entry.params args).map fun (index, param) => .argType index param.text

/-- Runs the kernel, unless it is refused. A failure of the kernel itself is told apart from every
other error. -/
def call (entry : Entry σ ν κ) (args : List (Arg ν)) :
    EStateM (Halt (DispatchError κ)) σ Unit :=
  match entry.refusal? args with
  | some cause => throw (.error cause)
  | none => adaptErrors .kernel (entry.run (args.map Arg.value))

end Entry

end ArrayEngine
