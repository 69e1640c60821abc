import ArrayEngine.Machine.Copy
import ArrayEngine.Tensor.Access

/-! Copies of tensors, and access to a tensor from another device. -/
namespace ArrayEngine.Tensor

/-- The number of elements that a copy moves: all positions from the first to the last. -/
def copyCount (src : Tensor) : Except Trap Nat := do
  if ← src.isPacked then src.numel else src.extent

/-- Gives the tensor the layout and the elements of `src`, gaps included. A source without elements
empties it. After a failure it may have the layout already. -/
def copyFrom (src : Tensor) : Update Unit := do
  if ← src.isEmpty then
    modify fun (dst, machine) => (dst.emptied, machine)
  else
    let (dst, _) ← MonadState.get
    if !(dst.dtype == src.dtype) then
      throw (.error (.unsupportedConversion src.dtype.name dst.dtype.name))
    resize src.shape src.dimTypes (some src.strides)
    ensure
    let size ← Word.mul (← src.copyCount) src.dtype.size
    let (dst, _) ← MonadState.get
    onMachine (onDevice (Machine.copyBytes dst.buffer? dst.stream src.buffer? src.stream size))

/-- The stream that a tensor is made accessible on, if none was asked for. -/
def accessStream (device : Device) : Work TensorError Stream :=
  onDevice (adaptErrors
    (fun cause => if cause = .gpuUnavailable then .unknownDevice device else cause)
    (Stream.ofDevice device))

/-- Whether a tensor can be worked on from a stream of another device where it is: no context on
either side has memory of its own, and the tensor is in host memory. -/
def isShared (machine : Machine) (src : Tensor) (stream : Stream) : Bool :=
  [src.stream, stream].all (fun s => s.context?.all fun id => (machine.context id).unified) &&
    src.buffer?.all fun id => (machine.buffer id).place == .host

/-- A tensor with the elements of `src` that is worked on from `device`: a view where the memory is
within reach, and a copy elsewhere. A copy on the host is complete. -/
def accessibleOn (src : Tensor) (device : Device) (stream? : Option Stream) :
    Work TensorError Tensor := do
  if src.device = device then
    match stream? with
    | some stream =>
      match src.view.withStream stream with
      | .ok view => return view
      | .error cause => throw (.error cause)
    | none => return src.view
  else
    let stream ← match stream? with
      | some stream => pure stream
      | none => accessStream device
    if isShared (← MonadState.get) src stream then return src.viewOn device stream
    else
      let dst ← withLayout src.dtype src.shape src.dimTypes (some src.strides) stream true
      let dst ← build dst (copyFrom src)
      if device.isSynchronous then onDevice src.stream.wait
      return dst

/-- The elements from the first to the last position, wherever they are, once they have come to the
host. -/
def download (src : Tensor) : Work TensorError (List Element) := do
  let dst ← build (blank src.dtype .cpu true) (copyFrom src)
  onDevice src.stream.wait
  dst.read

end ArrayEngine.Tensor
