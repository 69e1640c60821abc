import ArrayEngine.Data.Class
import ArrayEngine.Dispatch.Selection
import ArrayEngine.Grid.DistTensor

/-! Errors, ranges, types and tensors as data. Of tensors all is given that follows from their
layout. -/
namespace ArrayEngine

open Data (field)

def Explained.fields {ε : Type} [Explained ε] (cause : ε) : List (String × Data) :=
  [field "error" (name cause), field "kind" (kind cause), field "message" (message cause)]

instance : ToData Interval := ⟨fun range => toData [range.start, range.stop]⟩

/-- The fields of a key of types that all have dense tables. -/
def NativeKey.fields {n : Nat} (key : NativeKey n) : List (String × Data) :=
  [field "value" key.word, field "display" key.text, field "index" key.index,
    field "tokens" key.tokens]

def TypeTable.report (table : TypeTable) (info : TypeInfo) : Data :=
  .map [field "token" info.token, field "size" info.size, field "name" info.name,
    field "display" info.name, field "native" info.isNative, field "compute" (table.isCompute info),
    field "kind" (table.kind info.token), field "ids" (table.find? info.type == some info)]

def Machine.report (machine : Machine) (id : BufferId) : List Data :=
  [toData (machine.buffer id).size, toData (machine.buffer id).device]

/-- A tensor. The names of its element type and its stream are given. -/
def Tensor.report (tensor : Tensor) (machine : Machine) (dtype stream : String) :
    Except Trap Data := do
  return .map [field "ndim" tensor.rank, field "numel" (← tensor.numel),
    field "extent" (← tensor.extent), field "empty" (← tensor.isEmpty),
    field "contiguous" (← tensor.isPacked), field "chw_packed" (← tensor.isMatrixPacked),
    field "ensured" (← tensor.isEnsured), field "dtype" dtype, field "shape" tensor.shape,
    field "strides" tensor.strides, field "dim_types" tensor.dimTypes,
    field "device" tensor.device, field "stream" stream,
    field "buffer" (tensor.buffer?.map machine.report), field "ownership" tensor.ownership,
    field "view" tensor.isView, field "lazy" tensor.isLazy]

def DistTensor.report (tensor : DistTensor) (machine : Machine) (dtype stream : String) :
    Except Trap Data := do
  return .map [field "coords" (← tensor.grid.coords), field "empty" (← tensor.isEmpty),
    field "local_empty" (← tensor.isShareEmpty),
    field "local" (← tensor.share.report machine dtype stream), field "shape" tensor.shape,
    field "dim_types" tensor.dimTypes, field "distribution" tensor.distribution,
    field "grid" tensor.grid.shape, field "device" tensor.share.device,
    field "local_shape" tensor.share.shape]

end ArrayEngine
