import ArrayEngine.Named
import ArrayEngine.Trap

/-! Shapes, strides and indices of strided column-major arrays. Axis 0 varies fastest, and strides
count elements. Every function checks its word arithmetic. -/
namespace ArrayEngine

/-- What an axis stands for. It takes no part in any computation. -/
inductive DimType where
  | any | scalar | sample | channel | filter | spatial | sequence
deriving DecidableEq, Repr, Inhabited

instance : Named DimType where
  all := [.any, .scalar, .sample, .channel, .filter, .spatial, .sequence]
  name
    | .any => "Any"
    | .scalar => "Scalar"
    | .sample => "Sample"
    | .channel => "Channel"
    | .filter => "Filter"
    | .spatial => "Spatial"
    | .sequence => "Sequence"

namespace Layout

/-- The product of all extents, multiplied in axis order. -/
def product (shape : List Nat) : Except Trap Nat :=
  shape.foldlM Word.mul 1

/-- The running products of `shape` from `first` on, the last one left out. It is computed
nevertheless, so it must be a word. -/
def stridesFrom (first : Nat) : List Nat → Except Trap (List Nat)
  | [] => .ok []
  | n :: shape => do
    let next ← Word.mul first n
    let rest ← stridesFrom next shape
    return first :: rest

/-- The strides of an array without gaps: the product of the extents of all faster axes. -/
def packedStrides (shape : List Nat) : Except Trap (List Nat) :=
  stridesFrom 1 shape

/-- The number of elements. Without axes there are none. -/
def numel : List Nat → Except Trap Nat
  | [] => .ok 0
  | shape => product shape

/-- The sum of `first` and the steps from the first to the last index of every axis. -/
def reachFrom (first : Nat) : List Nat → List Nat → Except Trap Nat
  | n :: shape, s :: strides => do
    let step ← Word.mul (n - 1) s
    reachFrom (← Word.add first step) shape strides
  | _, _ => .ok first

/-- The number of positions from the first to the last element. -/
def extent (shape strides : List Nat) : Except Trap Nat := do
  if (← numel shape) = 0 then return 0
  Word.add 1 (← reachFrom 0 shape strides)

/-- Each stride is the running product from `expected` on, axes of extent 1 apart. -/
def isPackedFrom (expected : Nat) : List Nat → List Nat → Except Trap Bool
  | n :: shape, s :: strides => do
    if n ≠ 1 ∧ s ≠ expected then return false
    isPackedFrom (← Word.mul expected n) shape strides
  | _, _ => .ok true

/-- The elements lie in memory in index order without gaps. The stride of an axis of extent 1
moves nothing and is free. -/
def isPacked (shape strides : List Nat) : Except Trap Bool :=
  isPackedFrom 1 shape strides

/-- All axes but the slowest are packed, so that the array is a matrix whose columns are its
slices along the slowest axis. -/
def isMatrixPacked (shape strides : List Nat) : Except Trap Bool :=
  match shape.length with
  | 0 => .ok true
  | faster + 1 =>
    if strides.length < faster then .error (.rangeEnd faster strides.length)
    else isPacked (shape.take faster) (strides.take faster)

/-- The index has one entry per axis, each below the extent. -/
def inShape : List Nat → List Nat → Bool
  | [], [] => true
  | i :: index, n :: shape => i < n && inShape index shape
  | _, _ => false

/-- `first` plus the position of the element at `index`. -/
def offsetFrom (first : Nat) : List Nat → List Nat → Except Trap Nat
  | i :: index, s :: strides => do
    let step ← Word.mul i s
    offsetFrom (← Word.add first step) index strides
  | _, _ => .ok first

def offset (index strides : List Nat) : Except Trap Nat :=
  offsetFrom 0 index strides

/-- Moves `index` to the next one in column-major order and says whether there was one: after the
last index come all zeros. -/
def next : List Nat → List Nat → Except Trap (Bool × List Nat)
  | i :: index, n :: shape => do
    let i ← Word.add i 1
    if i < n then return (true, i :: index)
    let (more, index) ← next index shape
    return (more, 0 :: index)
  | index, _ => .ok (false, index)

/-- `index` and the indices that follow it, at most `count` in all. -/
def walkFrom (shape : List Nat) : Nat → List Nat → Except Trap (List (List Nat))
  | 0, _ => .ok []
  | count + 1, index => do
    let (more, following) ← next index shape
    let rest ← if more then walkFrom shape count following else .ok []
    return index :: rest

/-- Every index of `shape` in column-major order, the first one all zeros. -/
def walk (shape : List Nat) : Except Trap (List (List Nat)) := do
  walkFrom shape (← numel shape) (List.replicate shape.length 0)

/-- The indices inside `shape`, listed axis by axis with axis 0 innermost. -/
def box : List Nat → List (List Nat)
  | [] => [[]]
  | n :: shape => (box shape).flatMap fun rest => (List.range n).map (· :: rest)

def text (entries : List Nat) : String :=
  "[" ++ ", ".intercalate (entries.map Nat.repr) ++ "]"

end Layout

end ArrayEngine
