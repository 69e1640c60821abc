import ArrayEngine.Tensor.Access

/-! Kernels that write one value to every element, on the host and on GPUs. -/
namespace ArrayEngine.Tensor

/-- `span` with the value at the position of every index. -/
def spread (shape strides : List Nat) (value : Element) (span : Array Element) :
    Except Trap (Array Element) := do
  scatter span ((← positions shape strides).map (·, value))

/-- Writes a value to every element of a host tensor. Packed ones are written in one go. -/
def fillHost (tensor : Tensor) (value : Element) : Work TensorError Unit := do
  if ← tensor.isEmpty then return
  let packed ← tensor.isPacked
  tensor.write fun span =>
    if packed then .ok (span.map fun _ => value)
    else Array.toList <$> spread tensor.shape tensor.strides value span.toArray

/-- The context whose memory a tensor is in, or none if it is in host memory. -/
def gpuContext? (tensor : Tensor) : Work TensorError (Option (ContextId × BufferId)) := do
  match tensor.buffer? with
  | none => throw (.error .notEnsured)
  | some id =>
    match ((← MonadState.get).buffer id).place with
    | .host => return none
    | .gpu context =>
      if tensor.stream.context?.all (· == context) then return some (context, id)
      else throw (.error (.device .contextMismatch))

/-- The axes along which single writes are issued, and how many elements each one covers: a first
axis of stride 1 is written in runs. -/
def runs (shape strides : List Nat) : Nat × List Nat × List Nat :=
  match shape, strides with
  | n :: shape, 1 :: strides => (n, shape, strides)
  | shape, strides => (1, shape, strides)

/-- The byte positions at which runs start. -/
def runStarts (shape strides : List Nat) (size : Nat) : Except Trap (List Nat) := do
  (← positions shape strides).mapM (Word.mul · size)

def repeated (count : Nat) (value : Element) : List UInt8 :=
  (List.replicate count value).flatten

/-- `bytes` and zeros up to a whole number of granules. -/
def padded (bytes : List UInt8) : List UInt8 :=
  bytes ++ List.replicate (roundUp copyGranule bytes.length - bytes.length) 0

/-- The writes that put a value at every element: positions in the buffer, and bytes. Runs that are
no whole granules cannot be written. -/
def gpuWrites (tensor : Tensor) (value : Element) :
    Except (Halt TensorError) (List (Nat × List UInt8)) := do
  let size := tensor.dtype.size
  if ← tensor.isPacked then
    return [(0, padded (repeated (← tensor.numel) value))]
  else if size % copyGranule ≠ 0 then
    throw (.error (.unsupported "strided GPU writes of elements narrower than 4 bytes"))
  else
    let (run, shape, strides) := runs tensor.shape tensor.strides
    return (← runStarts shape strides size).map (·, repeated run value)

/-- Writes a value to every element of a tensor in GPU memory. One in host memory is left to the
host. -/
def fillGpu (tensor : Tensor) (value : Element) : Work TensorError Unit := do
  if ← tensor.isEmpty then return
  match ← tensor.gpuContext? with
  | none => tensor.fillHost value
  | some (context, id) =>
    let writes ← tensor.gpuWrites value
    modify fun machine => machine.submit context fun machine =>
      writes.foldl (fun machine (start, bytes) => machine.store id start bytes) machine

/-- Writes the zero of its type to every element of a host tensor. -/
def zeroHost (tensor : Tensor) : Work TensorError Unit :=
  tensor.fillHost tensor.dtype.type.zero

/-- Writes the zero of its type to every element of a tensor in GPU memory. The buffer of a packed
tensor is cleared as a whole. -/
def zeroGpu (tensor : Tensor) : Work TensorError Unit := do
  if ← tensor.isEmpty then return
  match ← tensor.gpuContext? with
  | none => tensor.zeroHost
  | some (context, id) =>
    if ← tensor.isPacked then
      modify fun machine => machine.submit context fun machine =>
        machine.store id 0 (List.replicate (machine.buffer id).bytes.length 0)
    else tensor.fillGpu tensor.dtype.type.zero

/-- Writes a value to every element, on the device of the tensor, and takes memory first. -/
def fill (value : Element) : Update Unit := do
  ensure
  let (tensor, _) ← MonadState.get
  match tensor.device with
  | .cpu => onMachine (tensor.fillHost value)
  | .gpu => onMachine (tensor.fillGpu value)

end ArrayEngine.Tensor
