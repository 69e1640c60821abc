import ArrayEngine.Machine.Stream

/-! Copies between buffers. -/
namespace ArrayEngine.Machine

/-- A stream works for a context if it has none or that one. -/
def serves (stream : Stream) (context : ContextId) : Bool :=
  stream.context?.all (· == context)

/-- Copies the first `size` bytes between two buffers that hold as many. Bytes that move to a GPU
move in whole granules, padding and all. -/
def copyWithin (dst : BufferId) (dstStream : Stream) (src : BufferId) (srcStream : Stream)
    (size : Nat) : Work DeviceError Unit := do
  let machine ← get
  let bytes := (machine.buffer src).bytes
  let padded := bytes.take (roundUp copyGranule size)
  match (machine.buffer dst).place, (machine.buffer src).place with
  | .host, .host =>
    if dst = src then pure () else modify (store · dst 0 (bytes.take size))
  | .gpu context, .host =>
    if serves dstStream context then
      modify fun machine => machine.submit context (store · dst 0 padded)
    else throw (.error .contextMismatch)
  | .host, .gpu context =>
    if serves srcStream context then modify (download · context ⟨dst, bytes.take size⟩)
    else throw (.error .contextMismatch)
  | .gpu context, .gpu owner =>
    if context ≠ owner then throw (.error (.unknownDeviceCombination .gpu .gpu))
    else if dst = src then pure ()
    else dstStream.merged [srcStream] (modify fun machine =>
      machine.submit context (store · dst 0 padded))

/-- Copies the first `size` bytes of a buffer to another one. Nothing is asked of an empty copy. -/
def copyBytes (dst : Option BufferId) (dstStream : Stream) (src : Option BufferId)
    (srcStream : Stream) (size : Nat) : Work DeviceError Unit :=
  if size = 0 then pure ()
  else
    match dst, src with
    | some dst, some src => do
      let machine ← get
      let capacity := min (machine.buffer dst).size (machine.buffer src).size
      if capacity < size then throw (.error (.outOfBounds size capacity))
      copyWithin dst dstStream src srcStream size
    | _, _ => throw (.error .nullBuffer)

/-- Copies the first `count` elements of `size` bytes each. -/
def copyElements (dst : Option BufferId) (dstStream : Stream) (src : Option BufferId)
    (srcStream : Stream) (count size : Nat) : Work DeviceError Unit := do
  copyBytes dst dstStream src srcStream (← Word.mul count size)

end ArrayEngine.Machine
