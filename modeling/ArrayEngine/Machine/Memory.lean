import ArrayEngine.Device
import ArrayEngine.Scalar.Conversion
import ArrayEngine.Trap

/-! The machine that arrays live on: buffers in host memory and in the memory of GPU contexts, and
the downloads that a context has yet to deliver. -/
namespace ArrayEngine

/-- The position of a context in its machine. -/
abbrev ContextId := Nat

/-- The position of a buffer in its machine. -/
abbrev BufferId := Nat

inductive Place where
  | host
  | gpu (context : ContextId)
deriving DecidableEq, Repr

namespace Place

def device : Place → Device
  | host => .cpu
  | gpu _ => .gpu

/-- Allocations are multiples of this number of bytes. -/
def granule : Place → Nat
  | host => 16
  | gpu _ => 4

end Place

/-- GPU memory is moved in multiples of this number of bytes. -/
def copyGranule : Nat := 4

/-- The most bytes of one allocation: in whole granules of the host they are counted by a signed word.
No GPU has as many. -/
def maxAllocation : Nat := wordLimit / 2 - 16

/-- The size of an allocation, if there can be one. -/
def allocatable (size : Nat) : Except Trap Nat :=
  if size ≤ maxAllocation then .ok size else .error .capacityOverflow

theorem allocatable_eq_ok {size count : Nat} :
    allocatable size = .ok count ↔ size = count ∧ count ≤ maxAllocation := by
  rw [allocatable]
  split <;> constructor <;> simp_all <;> omega

/-- The least multiple of `granule` that is not below `size`. -/
def roundUp (granule size : Nat) : Nat :=
  (size + (granule - 1)) / granule * granule

/-- An allocation. `size` bytes were asked for; the bytes past them are padding. -/
structure Buffer where
  size : Nat
  place : Place
  bytes : List UInt8

namespace Buffer

def zeroed (place : Place) (size : Nat) : Buffer :=
  ⟨size, place, List.replicate (roundUp place.granule size) 0⟩

def device (buffer : Buffer) : Device := buffer.place.device

end Buffer

namespace Bytes

/-- `bytes` with `data` written over it from position `start` on. What would lie past the end is
dropped. -/
def overwrite (start : Nat) (data bytes : List UInt8) : List UInt8 :=
  (bytes.take start ++ (data ++ bytes.drop (start + data.length))).take bytes.length

@[simp] theorem length_overwrite (start : Nat) (data bytes : List UInt8) :
    (overwrite start data bytes).length = bytes.length := by
  simp only [overwrite, List.length_take, List.length_append, List.length_drop]
  omega

/-- The first `count` elements of `size` bytes each. -/
def elements (size : Nat) : Nat → List UInt8 → List Element
  | 0, _ => []
  | count + 1, bytes => bytes.take size :: elements size count (bytes.drop size)

@[simp] theorem length_elements (size count : Nat) (bytes : List UInt8) :
    (elements size count bytes).length = count := by
  induction count generalizing bytes with
  | zero => rfl
  | succ count ih => simp [elements, ih]

/-- All whole elements of `size` bytes. -/
def split (size : Nat) (bytes : List UInt8) : Except Trap (List Element) :=
  if size = 0 then .error .divideByZero else .ok (elements size (bytes.length / size) bytes)

theorem split_of_pos {size : Nat} (pos : 0 < size) (bytes : List UInt8) :
    split size bytes = .ok (elements size (bytes.length / size) bytes) :=
  if_neg (Nat.ne_of_gt pos)

end Bytes

/-- Data on its way from a GPU to a host buffer. -/
structure Download where
  target : BufferId
  data : List UInt8

/-- A GPU, driven through one queue. -/
structure Context where
  handle : Nat
  /-- The GPU shares its memory with the host. -/
  unified : Bool
  /-- The GPU is gone: no work on it has an effect. -/
  lost : Bool
  /-- What was taken from the queue for the host, oldest first. -/
  downloads : List Download
  /-- A download failed, and no waiting host has been told. -/
  failed : Bool

instance : Inhabited Context := ⟨⟨0, false, false, [], false⟩⟩

/-- All buffers and contexts in the order of their making. -/
structure Machine where
  buffers : List Buffer
  contexts : List Context
  /-- The context that stands for the GPU. -/
  installed : Option ContextId
  /-- The next identity of a stream or an event. -/
  nextId : Nat
  recorded : List Nat

/-- Computations on a machine that can fail with an `ε`. -/
abbrev Work (ε : Type) := EStateM (Halt ε) Machine

namespace Machine

def initial : Machine := ⟨[], [], none, 1, []⟩

/-- The buffer with this position; an empty one if there is none. -/
def buffer (machine : Machine) (id : BufferId) : Buffer :=
  machine.buffers[id]?.getD ⟨0, .host, []⟩

def context (machine : Machine) (id : ContextId) : Context :=
  machine.contexts[id]?.getD default

def modifyContext (machine : Machine) (id : ContextId) (f : Context → Context) : Machine :=
  { machine with contexts := machine.contexts.modify id f }

def withBuffer (machine : Machine) (place : Place) (size : Nat) : Machine :=
  { machine with buffers := machine.buffers ++ [Buffer.zeroed place size] }

/-- Adds a buffer of zeros. -/
def allocate (machine : Machine) (place : Place) (size : Nat) : Except Trap (BufferId × Machine) := do
  let size ← allocatable size
  return (machine.buffers.length, machine.withBuffer place size)

def store (machine : Machine) (id : BufferId) (start : Nat) (data : List UInt8) : Machine :=
  { machine with
    buffers := machine.buffers.modify id fun buffer =>
      { buffer with bytes := Bytes.overwrite start data buffer.bytes } }

/-- The context of a GPU. A GPU that has one keeps it as it is. -/
def contextOf (machine : Machine) (handle : Nat) (unified : Bool) : ContextId × Machine :=
  match machine.contexts.findIdx? fun context => context.handle == handle with
  | some id => (id, machine)
  | none =>
    (machine.contexts.length,
      { machine with contexts := machine.contexts ++ [⟨handle, unified, false, [], false⟩] })

/-- Makes a context stand for the GPU, unless another one does so already. Returns the one that
does. -/
def install (machine : Machine) (id : ContextId) : ContextId × Machine :=
  match machine.installed with
  | some installed => (installed, machine)
  | none => (id, { machine with installed := some id })

/-- The GPU of a context is lost. What was downloaded before still arrives. -/
def lose (machine : Machine) (id : ContextId) : Machine :=
  machine.modifyContext id fun context => { context with lost := true }

/-- Work on a context. A lost one does nothing. -/
def submit (machine : Machine) (id : ContextId) (work : Machine → Machine) : Machine :=
  if (machine.context id).lost then machine else work machine

/-- Takes data from a context to a host buffer, which has it once the host waits for the context.
On a lost context the download fails instead. -/
def download (machine : Machine) (id : ContextId) (entry : Download) : Machine :=
  machine.modifyContext id fun context =>
    if context.lost then { context with failed := true }
    else { context with downloads := context.downloads ++ [entry] }

def deliver (machine : Machine) (id : ContextId) : Machine :=
  let arrived := (machine.context id).downloads.foldl
    (fun machine entry => machine.store entry.target 0 entry.data) machine
  arrived.modifyContext id fun context => { context with downloads := [] }

/-- Waits until all work of a context is done. Of the downloads that failed the host is told once. -/
def poll (id : ContextId) : Work DeviceError Unit := do
  modify (deliver · id)
  if ((← get).context id).failed then
    modify (modifyContext · id fun context => { context with failed := false })
    throw (.error .mapFailed)

/-- The bytes of a host buffer without the padding. -/
def hostBytes (machine : Machine) (id : BufferId) : Except DeviceError (List UInt8) :=
  match (machine.buffer id).place with
  | .host => .ok ((machine.buffer id).bytes.take (machine.buffer id).size)
  | .gpu _ => .error (.mismatch .cpu .gpu)

/-- A host buffer as elements of `size` bytes, as many as it holds. -/
def readHost (id : BufferId) (size : Nat) : Work DeviceError (List Element) := do
  match (← get).hostBytes id with
  | .ok bytes => Bytes.split size bytes
  | .error cause => throw (.error cause)

/-- Changes a host buffer, taken as elements of `size` bytes. -/
def writeHost (id : BufferId) (size : Nat) (change : List Element → List Element) :
    Work DeviceError Unit := do
  let elements ← readHost id size
  modify (store · id 0 (change elements).flatten)

/-- `elements`, the first ones replaced by `data`. What has no place is left out. -/
def replaceFirst (data elements : List Element) : List Element :=
  data.take elements.length ++ elements.drop data.length

/-- Writes the first elements of a host buffer, and returns how many there are. -/
def writeFirst (id : BufferId) (size : Nat) (data : List Element) : Work DeviceError Nat := do
  let elements ← readHost id size
  writeHost id size (replaceFirst data)
  return elements.length

end Machine

end ArrayEngine
