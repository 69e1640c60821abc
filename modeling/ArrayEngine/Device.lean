import ArrayEngine.Error
import ArrayEngine.Named

/-! Devices, and what can go wrong with them. -/
namespace ArrayEngine

/-- Where memory lives and work runs. -/
inductive Device where
  | cpu | gpu
deriving DecidableEq, Repr, Inhabited

instance : Named Device where
  all := [.cpu, .gpu]
  name
    | .cpu => "Cpu"
    | .gpu => "Gpu"

/-- Work on the device is done when the call that issues it returns. -/
def Device.isSynchronous (device : Device) : Bool := device == .cpu

inductive DeviceError where
  | unknownDevice (device : Device)
  | unknownDeviceCombination (first second : Device)
  | gpuUnavailable
  | mismatch (expected actual : Device)
  | nullBuffer
  | outOfBounds (size capacity : Nat)
  | mapFailed
  | contextMismatch
deriving DecidableEq, Repr

namespace DeviceError

def name : DeviceError → String
  | unknownDevice _ => "UnknownDevice"
  | unknownDeviceCombination _ _ => "UnknownDeviceCombination"
  | gpuUnavailable => "GpuUnavailable"
  | mismatch _ _ => "Mismatch"
  | nullBuffer => "NullBuffer"
  | outOfBounds _ _ => "OutOfBounds"
  | mapFailed => "Map"
  | contextMismatch => "ContextMismatch"

def kind : DeviceError → ErrorKind
  | mismatch _ _ | nullBuffer | outOfBounds _ _ => .precondition
  | _ => .fatal

def message : DeviceError → String
  | unknownDevice device => s!"unknown device: {Named.name device}"
  | unknownDeviceCombination first second =>
    s!"unknown device combination: {Named.name first} and {Named.name second}"
  | gpuUnavailable => "no GPU runtime is installed"
  | mismatch expected actual =>
    s!"device mismatch: expected {Named.name expected}, got {Named.name actual}"
  | nullBuffer => "null buffer with non-zero element count"
  | outOfBounds size capacity => s!"copy of {size} bytes exceeds buffer capacity {capacity}"
  | mapFailed => "failed to map buffer"
  | contextMismatch => "streams belong to different GPU contexts"

end DeviceError

instance : Explained DeviceError := ⟨DeviceError.name, DeviceError.kind, DeviceError.message⟩

end ArrayEngine
