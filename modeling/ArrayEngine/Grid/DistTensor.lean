import ArrayEngine.Grid.Basic
import ArrayEngine.Grid.Distribution
import ArrayEngine.Tensor.Copy

/-! Tensors that are split over a grid of processes: axis `i` of the tensor over axis `i` of the grid.
Every process has a share, which is a tensor of its own. -/
namespace ArrayEngine

inductive DistError where
  | unsupportedNonContiguous
  | distribution (shape distribution grid : Nat)
  | grid (cause : GridError)
  | tensor (cause : TensorError)
deriving DecidableEq, Repr

namespace DistError

def name : DistError → String
  | unsupportedNonContiguous => "UnsupportedNonContiguous"
  | distribution .. => "Distribution"
  | grid cause => s!"Grid.{cause.name}"
  | tensor cause => s!"Tensor.{cause.name}"

def kind : DistError → ErrorKind
  | unsupportedNonContiguous => .unsupported
  | distribution .. => .precondition
  | grid cause => cause.kind
  | tensor cause => cause.kind

def message : DistError → String
  | unsupportedNonContiguous => "resizing local data with custom strides is not supported"
  | distribution axes distributions gridAxes =>
    s!"distribution error: {axes} tensor axes, {distributions} distributions, {gridAxes} grid axes"
  | grid cause => cause.message
  | tensor cause => cause.message

end DistError

instance : Explained DistError := ⟨DistError.name, DistError.kind, DistError.message⟩

/-- A tensor of a global shape, and the share of this process. -/
structure DistTensor where
  shape : List Nat
  dimTypes : List DimType
  grid : Grid
  distribution : List Distribution
  share : Tensor

/-- The arguments of a copy that are the same for all members if they match. -/
structure CopyTerms where
  shape : List Nat
  dimTypes : List DimType
  distribution : List Distribution
  gridShape : List Nat
  token : UInt8
  targetToken : UInt8
  targetGridShape : List Nat
deriving DecidableEq, Repr

/-- Changes of a distributed tensor on the machine of its share. -/
abbrev DistUpdate := EStateM (Halt DistError) (DistTensor × Machine)

namespace DistTensor

def onShare {α : Type} (change : Update α) : DistUpdate α :=
  adaptErrors .tensor
    (zoom (fun state => (state.1.share, state.2))
      (fun (share, machine) state => ({ state.1 with share }, machine)) change)

/-- There are no elements in any share. -/
def isEmpty (tensor : DistTensor) : Except Trap Bool := return (← Layout.numel tensor.shape) == 0

/-- This process holds no elements. -/
def isShareEmpty (tensor : DistTensor) : Except Trap Bool := tensor.share.isEmpty

/-- What is held of every axis at some coordinates of a grid. -/
def intervals : List Nat → List Distribution → List Nat → List Nat → Except Trap (List Interval)
  | n :: shape, d :: distribution, procs :: grid, coord :: coords => do
    let interval ← d.indices n procs coord
    return interval :: (← intervals shape distribution grid coords)
  | _, _, _, _ => .ok []

/-- The shape of the share of this process of a grid. -/
def shareShape (grid : Grid) (shape : List Nat) (distribution : List Distribution) :
    Except Trap (List Nat) := do
  let intervals ← intervals shape distribution grid.shape (← grid.coords)
  return intervals.map Interval.length

def entry {α : Type} (list : List α) (index : Nat) : Except Trap α :=
  match list[index]? with
  | some a => .ok a
  | none => .error (.indexOutOfBounds list.length index)

/-- The global indices that this process holds along an axis. -/
def globalIndices (tensor : DistTensor) (axis : Nat) : Except Trap Interval := do
  let coords ← tensor.grid.coords
  let distribution ← entry tensor.distribution axis
  distribution.indices (← entry tensor.shape axis) (← entry tensor.grid.shape axis)
    (← entry coords axis)

/-- The positions that the elements of the share have in the packed tensor of the global shape, in
index order. -/
def globalPositions (tensor : DistTensor) : Except Trap (List Nat) := do
  let ranges ← (List.range tensor.shape.length).mapM tensor.globalIndices
  let strides ← Layout.packedStrides tensor.shape
  (← Layout.walk tensor.share.shape).mapM fun index =>
    Layout.offset (index.zipWith (fun i range => range.start + i) ranges) strides

/-- Changes the global layout and gives the share its new shape, packed. Strides of the share may be
asked for, but only ones that mean the same. -/
def resizeWith (shape : List Nat) (dimTypes : List DimType) (distribution : List Distribution)
    (shareStrides? : Option (List Nat)) : DistUpdate Unit := do
  let (tensor, _) ← get
  if distribution.length ≠ shape.length ∨ tensor.grid.shape.length ≠ shape.length then
    throw (.error (.distribution shape.length distribution.length tensor.grid.shape.length))
  let share ← shareShape tensor.grid shape distribution
  if let some strides := shareStrides? then
    unless ← Layout.isPacked share strides do
      throw (.error .unsupportedNonContiguous)
  onShare (Tensor.resize share dimTypes none)
  modify fun (tensor, machine) => ({ tensor with shape, dimTypes, distribution }, machine)

def resize (shape : List Nat) (dimTypes : List DimType) (distribution : List Distribution) :
    DistUpdate Unit :=
  resizeWith shape dimTypes distribution none

def ensure : DistUpdate Unit := onShare Tensor.ensure

def emptied (tensor : DistTensor) : DistTensor :=
  { tensor with shape := [], dimTypes := [], distribution := [], share := tensor.share.emptied }

def create (dtype : TypeInfo) (grid : Grid) (shape : List Nat) (dimTypes : List DimType)
    (distribution : List Distribution) (stream : Stream) (isLazy : Bool) :
    EStateM (Halt DistError) Machine DistTensor := fun machine =>
  let blank : DistTensor := ⟨[], [], grid, [], Tensor.blank dtype stream isLazy⟩
  match resize shape dimTypes distribution (blank, machine) with
  | .ok _ (tensor, machine) => .ok tensor machine
  | .error cause (_, machine) => .error cause machine

/-- What all members must agree on in a copy, in the order in which it is hashed. -/
def terms (dst src : DistTensor) : CopyTerms :=
  ⟨src.shape, src.dimTypes, src.distribution, src.grid.shape, src.share.dtype.token,
    dst.share.dtype.token, dst.grid.shape⟩

/-- The part of a copy that needs no other process. The share of the source keeps its strides, so it
must be packed. -/
def copyShare (src : DistTensor) : DistUpdate Unit := do
  if ← src.isEmpty then
    modify fun (dst, machine) => (dst.emptied, machine)
  else
    let (dst, _) ← get
    if !(src.share.dtype == dst.share.dtype) then
      throw (.error (.tensor
        (.unsupportedConversion src.share.dtype.name dst.share.dtype.name)))
    resizeWith src.shape src.dimTypes src.distribution (some src.share.strides)
    if ← src.isShareEmpty then pure ()
    else
      ensure
      onShare (Tensor.copyFrom src.share)

/-- Gives `dst` the layout and the elements of `src`; it keeps its grid. All members make the call,
and where they check their calls, nothing is changed unless they agree on the hash of its terms. -/
def copy (hash : CopyTerms → UInt64) (dst src : DistTensor) (machine : Machine) :
    Collective (EStateM.Result (Halt DistError) (DistTensor × Machine) Unit) :=
  let refuse (cause : GridError) : EStateM.Result (Halt DistError) (DistTensor × Machine) Unit :=
    .error (.error (.grid cause)) (dst, machine)
  if dst.grid.isCongruent src.grid then
    if src.grid.comm.checks then do
      match ← src.grid.comm.check (hash (terms dst src)) with
      | .ok () => return copyShare src (dst, machine)
      | .error cause => return refuse cause
    else .done (copyShare src (dst, machine))
  else .done (refuse .notCongruent)

end DistTensor

end ArrayEngine
