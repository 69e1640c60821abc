import ArrayEngine.Dispatch.Registry
import ArrayEngine.Tensor.Cast
import ArrayEngine.Tensor.Fill

/-! The known element types and their kernels, and the tensor operations that dispatch on them. -/
namespace ArrayEngine

abbrev Kernel := Entry Machine Tensor KernelFailure

namespace Kernel

def unary (element : ElementType) (run : Tensor → Work TensorError Unit) : Kernel where
  params := [.tensor element.id]
  run
    | [tensor] => adaptErrors .tensor (run tensor)
    | _ => pure ()

def binary (first second : ElementType) (run : Tensor → Tensor → Work TensorError Unit) :
    Kernel where
  params := [.tensor first.id, .tensor second.id]
  run
    | [dst, src] => adaptErrors .tensor (run dst src)
    | _ => pure ()

def zeroHost (element : ElementType) : Kernel := unary element Tensor.zeroHost

def zeroGpu (element : ElementType) : Kernel := unary element Tensor.zeroGpu

def cast (target source : NumericType) : Kernel :=
  binary target.toElementType source.toElementType
    (Tensor.castHost target.conversion source.conversion)

/-- The dense tables of the native types. The target of a cast comes first. -/
def zeroHostTable : List Kernel := NumericType.native.map fun type => zeroHost type.toElementType

def zeroGpuTable : List Kernel := NumericType.native.map fun type => zeroGpu type.toElementType

def castTable : List Kernel :=
  NumericType.native.flatMap fun target => NumericType.native.map fun source => cast target source

end Kernel

/-- The known types, and the kernels of those that are not native. -/
structure Catalogue where
  types : TypeTable
  kernels : Registry Kernel

namespace Catalogue

def initial : Catalogue := ⟨.builtin, .empty⟩

/-- Adds the kernel of a cast. Its types become known if they were not. -/
def insertCast (catalogue : Catalogue) (target source : NumericType) : Except Trap Catalogue := do
  let (first, types) ← catalogue.types.intern target.toElementType
  let (second, types) ← types.intern source.toElementType
  let key := DispatchKey.pack [first.token, second.token]
  return ⟨types, catalogue.kernels.insert "cast_cpu" key (Kernel.cast target source)⟩

/-- Makes a type a compute type with all kernels, casts from and to every native type included.
Native types have theirs already. -/
def insertNumeric (catalogue : Catalogue) (type : NumericType) :
    Except Trap (TypeInfo × Catalogue) := do
  let (info, types) ← catalogue.types.internCompute type.toElementType
  if info.isNative then return (info, { catalogue with types })
  let key := DispatchKey.pack [info.token]
  let kernels := (catalogue.kernels.insert "zero_cpu" key (Kernel.zeroHost type.toElementType)).insert
    "zero_gpu" key (Kernel.zeroGpu type.toElementType)
  let own ← insertCast ⟨types, kernels⟩ type type
  let all ← NumericType.native.foldlM (fun catalogue native => do
    insertCast (← catalogue.insertCast type native) native type) own
  return (info, all)

def argument (tensor : Tensor) : Arg Tensor := ⟨.anyTensor tensor.dtype.id, tensor⟩

def dispatch (catalogue : Catalogue) (dense : List Kernel) (name : String) (on : Selection)
    (tensors : List Tensor) : Work TensorError Unit :=
  adaptErrors DispatchError.toTensorError
    (catalogue.kernels.dispatch dense name on (tensors.map argument))

def select (catalogue : Catalogue) (types : List TypeInfo) : Except (Halt TensorError) Selection :=
  (Selection.ofTypes catalogue.types types).mapError fun cause => .error (.dispatch cause)

end Catalogue

namespace Tensor

/-- Writes zero to every element, and takes memory first. Types that are not computed with are
refused before. -/
def zero (catalogue : Catalogue) : Update Unit := do
  let on ← catalogue.select [(← MonadState.get).1.dtype]
  ensure
  let (tensor, _) ← MonadState.get
  if ← tensor.isEmpty then pure ()
  else
    match tensor.device with
    | .cpu => onMachine (catalogue.dispatch Kernel.zeroHostTable "zero_cpu" on [tensor])
    | .gpu => onMachine (catalogue.dispatch Kernel.zeroGpuTable "zero_gpu" on [tensor])

/-- A new packed tensor with the elements of a host tensor converted to another type. -/
def cast (catalogue : Catalogue) (src : Tensor) (dtype : TypeInfo) : Work TensorError Tensor := do
  if src.device ≠ .cpu then throw (.error (.unsupported "casting device tensors"))
  let on ← catalogue.select [dtype, src.dtype]
  let dst ← withLayout dtype src.shape src.dimTypes none src.stream false
  if ← src.isEmpty then return dst
  catalogue.dispatch Kernel.castTable "cast_cpu" on [dst, src]
  return dst

end Tensor

end ArrayEngine
