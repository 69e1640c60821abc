import ArrayEngine.Machine.Stream
import ArrayEngine.Tensor.Error
import ArrayEngine.TypeTable

/-! Strided tensors over the buffers of a machine. A tensor is a value; its elements are in a buffer
that other tensors may hold too. -/
namespace ArrayEngine

/-- A tensor owns its buffer and may take a new one, or it is a view of another one's. -/
inductive Ownership where
  | exclusive | view
deriving DecidableEq, Repr, Inhabited

instance : Named Ownership where
  all := [.exclusive, .view]
  name
    | .exclusive => "Exclusive"
    | .view => "View"

/-- A tensor without elements holds no buffer. One that is lazy gets its buffer on demand only. -/
structure Tensor where
  shape : List Nat
  dimTypes : List DimType
  strides : List Nat
  dtype : TypeInfo
  device : Device
  stream : Stream
  buffer? : Option BufferId
  ownership : Ownership
  isLazy : Bool

/-- Changes of a tensor on a machine. What was changed before a failure stays changed. -/
abbrev Update := EStateM (Halt TensorError) (Tensor × Machine)

/-- Work on the machine as a change of a tensor. -/
def onMachine {ε α : Type} (work : EStateM ε Machine α) : EStateM ε (Tensor × Machine) α :=
  zoom Prod.snd (fun machine state => (state.1, machine)) work

def onDevice {α : Type} (work : Work DeviceError α) : Work TensorError α :=
  adaptErrors .device work

namespace Tensor

def blank (dtype : TypeInfo) (stream : Stream) (isLazy : Bool) : Tensor where
  shape := []
  dimTypes := []
  strides := []
  dtype := dtype
  device := stream.device
  stream := stream
  buffer? := none
  ownership := .exclusive
  isLazy := isLazy

def rank (tensor : Tensor) : Nat := tensor.shape.length

def isView (tensor : Tensor) : Bool := tensor.ownership == .view

def numel (tensor : Tensor) : Except Trap Nat := Layout.numel tensor.shape

def extent (tensor : Tensor) : Except Trap Nat := Layout.extent tensor.shape tensor.strides

def isEmpty (tensor : Tensor) : Except Trap Bool := return (← tensor.numel) == 0

def isPacked (tensor : Tensor) : Except Trap Bool := Layout.isPacked tensor.shape tensor.strides

def isMatrixPacked (tensor : Tensor) : Except Trap Bool :=
  Layout.isMatrixPacked tensor.shape tensor.strides

/-- All elements have memory. -/
def isEnsured (tensor : Tensor) : Except Trap Bool :=
  return (← tensor.isEmpty) || tensor.buffer?.isSome

/-- The tensor of no axes that is left when all elements are dropped. -/
def emptied (tensor : Tensor) : Tensor :=
  { tensor with shape := [], dimTypes := [], strides := [], buffer? := none, ownership := .exclusive }

def view (tensor : Tensor) : Tensor := { tensor with ownership := .view }

/-- A view that is worked on elsewhere. This is meant for memory that both devices share. -/
def viewOn (tensor : Tensor) (device : Device) (stream : Stream) : Tensor :=
  { tensor.view with device := device, stream := stream }

/-- Later work on the tensor goes to another stream of its device. -/
def withStream (tensor : Tensor) (stream : Stream) : Except TensorError Tensor :=
  if stream.device = tensor.device then .ok { tensor with stream := stream }
  else .error (.device (.mismatch tensor.device stream.device))

def ofType (tensor : Tensor) (info : TypeInfo) : Except TensorError Tensor :=
  if tensor.dtype == info then .ok tensor
  else .error (.type tensor.dtype.name info.name)

/-- Takes memory for all elements, unless there is some. -/
def ensure : Update Unit := do
  let (tensor, machine) ← get
  if ← tensor.isEnsured then pure ()
  else if tensor.isView then throw (.error .notEnsured)
  else
    let size ← Word.mul (← tensor.extent) tensor.dtype.size
    let (id, machine) ← machine.allocate tensor.stream.place size
    set ({ tensor with buffer? := some id }, machine)

/-- The strides asked for, or packed ones. -/
def stridesFor (shape : List Nat) : Option (List Nat) → Except (Halt TensorError) (List Nat)
  | some strides =>
    if strides.length = shape.length then .ok strides
    else .error (.error (.rank shape.length strides.length))
  | none => monadLift (Layout.packedStrides shape)

/-- Changes the layout. A tensor that changes its shape or strides drops its buffer, and takes a new
one at once unless it is lazy. Views keep their shape and strides. -/
def resize (shape : List Nat) (dimTypes : List DimType) (strides? : Option (List Nat)) :
    Update Unit := do
  if dimTypes.length ≠ shape.length then throw (.error (.rank shape.length dimTypes.length))
  let strides ← stridesFor shape strides?
  let (tensor, machine) ← get
  let same := tensor.shape == shape && tensor.strides == strides
  if tensor.isView then
    if same then set ({ tensor with dimTypes := dimTypes }, machine)
    else throw (.error .resizeView)
  else
    let buffer? := if same then tensor.buffer? else none
    let tensor := { tensor with shape, dimTypes, strides, buffer? }
    set (tensor, machine)
    if tensor.isLazy then pure () else ensure

/-- The tensor that some changes make of another one. -/
def build (tensor : Tensor) (changes : Update Unit) : Work TensorError Tensor := fun machine =>
  match changes (tensor, machine) with
  | .ok _ (tensor, machine) => .ok tensor machine
  | .error cause (_, machine) => .error cause machine

def withLayout (dtype : TypeInfo) (shape : List Nat) (dimTypes : List DimType)
    (strides? : Option (List Nat)) (stream : Stream) (isLazy : Bool) : Work TensorError Tensor :=
  build (blank dtype stream isLazy) (resize shape dimTypes strides?)

/-- A new packed tensor whose axes stand for nothing special. -/
def create (dtype : TypeInfo) (shape : List Nat) (stream : Stream) (isLazy : Bool) :
    Work TensorError Tensor :=
  withLayout dtype shape (shape.map fun _ => .any) none stream isLazy

end Tensor

end ArrayEngine
