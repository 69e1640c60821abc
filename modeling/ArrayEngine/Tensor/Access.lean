import ArrayEngine.Tensor.Basic

/-! Host access to the memory of a tensor: to the elements from the first to the last position, gaps
included, and to single elements by index. -/
namespace ArrayEngine.Tensor

/-- The host buffer of a tensor. Without elements there is none. -/
def hostBuffer? (tensor : Tensor) : Work TensorError (Option BufferId) := do
  if ← tensor.isEmpty then return none
  match tensor.buffer? with
  | none => throw (.error .notEnsured)
  | some id =>
    match ((← get).buffer id).device with
    | .cpu => return some id
    | device => throw (.error (.notHost device))

/-- The first `extent` elements. There must be as many. -/
def span (extent : Nat) (elements : List Element) : Except Trap (List Element) :=
  if extent ≤ elements.length then .ok (elements.take extent)
  else .error (.rangeEnd extent elements.length)

/-- The elements from the first to the last position, in memory order. -/
def read (tensor : Tensor) : Work TensorError (List Element) := do
  let extent ← tensor.extent
  match ← tensor.hostBuffer? with
  | none => return []
  | some id => span extent (← onDevice (Machine.readHost id tensor.dtype.size))

/-- Changes the elements from the first to the last position. The number of elements stays. -/
def write (tensor : Tensor) (change : List Element → Except Trap (List Element)) :
    Work TensorError Unit := do
  let extent ← tensor.extent
  match ← tensor.hostBuffer? with
  | none => let _ ← change []
  | some id =>
    let elements ← onDevice (Machine.readHost id tensor.dtype.size)
    let changed ← change (← span extent elements)
    onDevice (Machine.writeHost id tensor.dtype.size fun _ => changed ++ elements.drop extent)

/-- Writes the first elements in memory order, and returns how many there are. -/
def writeFirst (tensor : Tensor) (data : List Element) : Work TensorError Nat := do
  let span ← tensor.read
  tensor.write fun span => .ok (Machine.replaceFirst data span)
  return span.length

def positions (shape strides : List Nat) : Except Trap (List Nat) := do
  (← Layout.walk shape).mapM fun index => Layout.offset index strides

def fetch (span : Array Element) (position : Nat) : Except Trap Element :=
  match span[position]? with
  | some element => .ok element
  | none => .error (.indexOutOfBounds span.size position)

/-- The elements at the positions of all indices, in index order. -/
def gather (shape strides : List Nat) (span : Array Element) : Except Trap (List Element) := do
  (← positions shape strides).mapM (fetch span)

/-- The elements in index order. There is taken to be room for the list of them. -/
def toList (tensor : Tensor) : Work TensorError (List Element) := do
  let span ← tensor.read
  gather tensor.shape tensor.strides span.toArray

def get (tensor : Tensor) (index : List Nat) : Work TensorError Element := do
  if Layout.inShape index tensor.shape then
    let position ← Layout.offset index tensor.strides
    fetch (← tensor.read).toArray position
  else throw (.error (.index index tensor.shape))

/-- Sets the elements at some positions, in order. -/
def scatter (span : Array Element) (writes : List (Nat × Element)) :
    Except Trap (Array Element) :=
  writes.foldlM (fun span (position, element) =>
    if position < span.size then .ok (span.setIfInBounds position element)
    else .error (.indexOutOfBounds span.size position)) span

def assign (tensor : Tensor) (elements : List Element) : Work TensorError Unit :=
  tensor.write fun span => do
    let positions ← positions tensor.shape tensor.strides
    return (← scatter span.toArray (positions.zip elements)).toList

/-- A new packed host tensor of the given elements in index order. -/
def ofList (dtype : TypeInfo) (shape : List Nat) (elements : List Element) :
    Work TensorError Tensor := do
  let expected ← Layout.numel shape
  if elements.length ≠ expected then throw (.error (.shape expected elements.length))
  let tensor ← create dtype shape .cpu false
  tensor.write fun _ => .ok elements
  return tensor

end ArrayEngine.Tensor
