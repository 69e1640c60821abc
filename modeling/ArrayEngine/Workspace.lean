import ArrayEngine.Assoc
import ArrayEngine.Catalogue
import ArrayEngine.Tensor.Copy

/-! Named objects over one machine and one catalogue of types and kernels. -/
namespace ArrayEngine

/-- What a program that works step by step has at hand. Every sort of objects has names of its
own. -/
structure Workspace where
  catalogue : Catalogue
  machine : Machine
  tensors : Assoc String Tensor
  streams : Assoc String Stream
  events : Assoc String Event
  contexts : Assoc String ContextId
  buffers : Assoc String BufferId

namespace Workspace

def initial : Workspace := ⟨.initial, .initial, [], [], [], [], []⟩

def run {ε α : Type} (work : Work ε α) : EStateM (Halt ε) Workspace α :=
  zoom Workspace.machine (fun machine workspace => { workspace with machine }) work

/-- The stream of the host has a name from the start. -/
def stream? (workspace : Workspace) (name : String) : Option Stream :=
  if name = "cpu" then some .cpu else workspace.streams.lookup name

/-- The first one of the names of a stream in the order of their characters. -/
def streamName (workspace : Workspace) (stream : Stream) : String :=
  if stream = .cpu then "cpu"
  else
    let names := (workspace.streams.filter fun pair => pair.2 = stream).map Prod.fst
    (names.mergeSort fun a b => a ≤ b).headD "unnamed"

def setTypes (types : TypeTable) (workspace : Workspace) : Workspace :=
  { workspace with catalogue := { workspace.catalogue with types } }

def setKernels (kernels : Registry Kernel) (workspace : Workspace) : Workspace :=
  { workspace with catalogue := { workspace.catalogue with kernels } }

def setTensor (name : String) (tensor : Tensor) (workspace : Workspace) : Workspace :=
  { workspace with tensors := Assoc.insert workspace.tensors name tensor }

def setStream (name : String) (stream : Stream) (workspace : Workspace) : Workspace :=
  { workspace with streams := Assoc.insert workspace.streams name stream }

def setEvent (name : String) (event : Event) (workspace : Workspace) : Workspace :=
  { workspace with events := Assoc.insert workspace.events name event }

def setBuffer (name : String) (id : BufferId) (workspace : Workspace) : Workspace :=
  { workspace with buffers := Assoc.insert workspace.buffers name id }

def setContext (name : String) (id : ContextId) (workspace : Workspace) : Workspace :=
  { workspace.setStream name (.ofContext id) with
    contexts := Assoc.insert workspace.contexts name id }

/-- The entry of a type, which is known from now on. -/
def intern (type : ElementType) : EStateM Trap Workspace TypeInfo := do
  let (info, types) ← (← get).catalogue.types.intern type
  modify (setTypes types)
  return info

/-- The entry of a type, which is computed with from now on. -/
def internCompute (type : ElementType) : EStateM Trap Workspace TypeInfo := do
  let (info, types) ← (← get).catalogue.types.internCompute type
  modify (setTypes types)
  return info

/-- Makes a tensor. If that fails, the name stands for what it stood for before. -/
def create (name : String) (work : Work TensorError Tensor) :
    EStateM (Halt TensorError) Workspace Unit := do
  let tensor ← run work
  modify (setTensor name tensor)

/-- Changes a tensor, and keeps it under a name. -/
def change (name : String) (tensor : Tensor) (update : Update Unit) :
    EStateM (Halt TensorError) Workspace Unit :=
  zoom (fun workspace => (tensor, workspace.machine))
    (fun (tensor, machine) workspace => { workspace.setTensor name tensor with machine }) update

/-- Takes a new buffer, and names it. -/
def allocate (name : String) (place : Place) (size : Nat) : EStateM Trap Workspace Buffer := do
  let (id, machine) ← (← get).machine.allocate place size
  modify fun workspace => { workspace.setBuffer name id with machine }
  return machine.buffer id

end Workspace

end ArrayEngine
