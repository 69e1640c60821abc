import ArrayEngine.Tensor.Access

/-! Host tensors as column-major matrices. The faster axes are the rows, and the slowest axis is the
columns. A tensor of one axis is a column if it is packed, and a row otherwise. -/
namespace ArrayEngine

/-- The extents of a matrix, and the distance of its columns in memory. -/
structure MatrixLayout where
  rows : Nat
  cols : Nat
  colStride : Nat
deriving DecidableEq, Repr

namespace MatrixLayout

/-- The distance of the columns as a signed word, since columns may run backwards. -/
def signedStride (layout : MatrixLayout) : Int := (layout.colStride : Int).bmod wordLimit

/-- All elements lie within `length` positions. -/
def fits (layout : MatrixLayout) (length : Nat) : Bool :=
  layout.rows = 0 || layout.cols = 0 ||
    layout.colStride * (layout.cols - 1) + (layout.rows - 1) < length

def position (layout : MatrixLayout) (row col : Nat) : Nat :=
  row + col * layout.colStride

def entries (layout : MatrixLayout) (span : Array Element) : Except Trap (List Element) :=
  ((List.range layout.cols).flatMap fun col =>
    (List.range layout.rows).map fun row => layout.position row col).mapM (Tensor.fetch span)

end MatrixLayout

/-- A matrix somewhere in memory: its extents, and the element in each row and column. -/
structure MatrixView where
  rows : Nat
  cols : Nat
  entry : Nat → Nat → Element

namespace MatrixView

/-- The matrix of some elements column by column. -/
def ofColumns (rows cols : Nat) (elements : Array Element) : MatrixView where
  rows := rows
  cols := cols
  entry row col := elements.getD (row + col * rows) []

def transpose (view : MatrixView) : MatrixView where
  rows := view.cols
  cols := view.rows
  entry row col := view.entry col row

/-- All elements, column by column. -/
def elements (view : MatrixView) : List Element :=
  (List.range view.cols).flatMap fun col => (List.range view.rows).map fun row => view.entry row col

end MatrixView

namespace Tensor

def matrixLayout (tensor : Tensor) : Except (Halt TensorError) MatrixLayout := do
  if ← tensor.isEmpty then throw (.error (.notViewable .empty))
  match tensor.shape, tensor.strides with
  | [n], 1 :: _ => return ⟨n, 1, n⟩
  | [n], stride :: _ => return ⟨1, n, stride⟩
  | shape, strides =>
    if ← tensor.isMatrixPacked then
      return ⟨← Layout.product shape.dropLast, shape.getLast?.getD 0, strides.getLast?.getD 0⟩
    else throw (.error (.notViewable .notPacked))

/-- The tensor as a matrix, and its elements column by column. -/
def matrix (tensor : Tensor) : Work TensorError (MatrixLayout × List Element) := do
  let layout ← tensor.matrixLayout
  let span ← tensor.read
  if layout.fits span.length then return (layout, ← layout.entries span.toArray)
  else throw (.trap .matrixBounds)

/-- Sets one element of the tensor as a matrix, if it is inside. Columns may not overlap. Returns the
matrix, and whether the element was set. -/
def setMatrix (tensor : Tensor) (row col : Nat) (value : Element) :
    Work TensorError (MatrixLayout × Bool) := do
  let layout ← tensor.matrixLayout
  let inside := row < layout.rows && col < layout.cols
  tensor.write fun span =>
    if layout.fits span.length && layout.rows ≤ layout.colStride then
      .ok (if inside then span.set (layout.position row col) value else span)
    else .error .matrixBounds
  return (layout, inside)

/-- A packed host tensor of two axes with a copy of a matrix. Its elements are gathered before there is memory
for the tensor. -/
def ofMatrix (dtype : TypeInfo) (view : MatrixView) : Work TensorError Tensor :=
  ofList dtype [view.rows, view.cols] view.elements

end Tensor

end ArrayEngine
