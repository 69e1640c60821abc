import ArrayEngine.Tensor.Access

/-! The kernel that converts the elements of one host tensor into another one of the same shape. -/
namespace ArrayEngine.Tensor

/-- `span` replaced by as many elements. -/
def replaceAll (elements span : List Element) : Except Trap (List Element) :=
  if span.length = elements.length then .ok elements
  else .error (.unequalLengths span.length elements.length)

/-- Writes the converted elements of `src` into `dst`. They are read before the first one is
written, so that both may share their memory. -/
def castHost (target source : Conversion) (dst src : Tensor) : Work TensorError Unit := do
  if dst.shape ≠ src.shape then
    throw (.error (.shape (← dst.numel) (← src.numel)))
  if ← src.isEmpty then return
  let elements := (← src.toList).map (Conversion.cast source target)
  if ← dst.isPacked then dst.write (replaceAll elements) else dst.assign elements

end ArrayEngine.Tensor
