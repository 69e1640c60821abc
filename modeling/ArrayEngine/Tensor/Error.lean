import ArrayEngine.Device
import ArrayEngine.Dispatch.Error
import ArrayEngine.Layout

/-! Errors of tensors and of the kernels that work on them. -/
namespace ArrayEngine

inductive Unviewable where
  | empty | notPacked
deriving DecidableEq, Repr

/-- Types are given by name. The kernels of a failed dispatch are given by what they say. -/
inductive TensorError where
  | unsupportedConversion (source target : String)
  | resizeView
  | unsupported (what : String)
  | notEnsured
  | shape (expected actual : Nat)
  | rank (axes actual : Nat)
  | index (position extents : List Nat)
  | notHost (place : Device)
  | notViewable (why : Unviewable)
  | type (actual expected : String)
  | device (cause : DeviceError)
  | dispatch (cause : DispatchError String)
deriving DecidableEq, Repr

namespace Unviewable

def message : Unviewable → String
  | empty => "empty tensors have no data"
  | notPacked => "only rank-1 and CHW-packed tensors collapse into matrices"

end Unviewable

namespace TensorError

def name : TensorError → String
  | unsupportedConversion _ _ => "UnsupportedConversion"
  | resizeView => "ResizeView"
  | unsupported _ => "Unsupported"
  | notEnsured => "NotEnsured"
  | shape _ _ => "Shape"
  | rank _ _ => "Rank"
  | index _ _ => "Index"
  | notHost _ => "NotHost"
  | notViewable _ => "NotViewable"
  | type _ _ => "Type"
  | device cause => s!"Device.{cause.name}"
  | dispatch cause => s!"Dispatch.{cause.name}"

def kind : TensorError → ErrorKind
  | unsupportedConversion _ _ | resizeView | unsupported _ => .unsupported
  | device cause => cause.kind
  | dispatch cause => cause.kind
  | _ => .precondition

def message : TensorError → String
  | unsupportedConversion source target =>
    s!"conversion from {source} to {target} is not supported"
  | resizeView => "cannot resize a view"
  | unsupported what => s!"{what} is not supported"
  | notEnsured => "tensor memory is not ensured"
  | shape expected actual =>
    s!"tensor shape error: expected {expected} elements, got {actual}"
  | rank axes actual => s!"tensor rank error: shape has {axes} axes, got {actual}"
  | index position extents =>
    s!"index {Layout.text position} is out of shape {Layout.text extents}"
  | notHost place =>
    s!"tensor memory is not accessible from host: it resides on {Named.name place}"
  | notViewable why => s!"tensor is not viewable as a matrix: {why.message}"
  | type actual expected => s!"tensor type error: data type {actual} mismatches {expected}"
  | device cause => cause.message
  | dispatch cause => cause.message id

end TensorError

instance : Explained TensorError := ⟨TensorError.name, TensorError.kind, TensorError.message⟩

/-- What a kernel fails with: an error of a tensor, or one of its own. -/
inductive KernelFailure where
  | tensor (cause : TensorError)
  | other (message : String)
deriving DecidableEq, Repr

namespace KernelFailure

def message : KernelFailure → String
  | tensor cause => cause.message
  | other message => message

end KernelFailure

instance : Explained (DispatchError KernelFailure) :=
  ⟨DispatchError.name, DispatchError.kind, DispatchError.message KernelFailure.message⟩

namespace DispatchError

variable {κ δ : Type}

def map (f : κ → δ) : DispatchError κ → DispatchError δ
  | notFound operation key => .notFound operation key
  | nonComputeType type => .nonComputeType type
  | nonNativeType type => .nonNativeType type
  | tooManyTypes count max => .tooManyTypes count max
  | arity expected actual => .arity expected actual
  | argType index expected => .argType index expected
  | tableIndex key length => .tableIndex key length
  | kernel cause => .kernel (f cause)

/-- The error of a tensor operation that dispatches. A tensor error of the kernel is its own. -/
def toTensorError : DispatchError KernelFailure → TensorError
  | kernel (.tensor cause) => cause
  | cause => .dispatch (cause.map KernelFailure.message)

end DispatchError

end ArrayEngine
