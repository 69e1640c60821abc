import ArrayEngine.Machine.Memory

/-! Streams of work, and the points in them that others wait for. Work on the host is done at once.
A GPU context runs the work of all its streams in one order, so only the host and other contexts ever
have to wait. -/
namespace ArrayEngine

/-- A stream. Every context has a default one, with identity 0. -/
inductive Stream where
  | cpu
  | gpu (context : ContextId) (id : Nat)
deriving DecidableEq, Repr

/-- A mark that can be set in a stream. -/
inductive Event where
  | cpu
  | gpu (context : ContextId) (id : Nat)
deriving DecidableEq, Repr

/-- What can be waited for: the work of a stream so far, or that before an event. -/
inductive SyncPoint where
  | stream (stream : Stream)
  | event (event : Event)

namespace Stream

def device : Stream → Device
  | cpu => .cpu
  | gpu _ _ => .gpu

def context? : Stream → Option ContextId
  | cpu => none
  | gpu context _ => some context

/-- The default stream of a context. -/
def ofContext (context : ContextId) : Stream := gpu context 0

def ofDevice : Device → Work DeviceError Stream
  | .cpu => pure cpu
  | .gpu => do
    match (← get).installed with
    | some context => pure (ofContext context)
    | none => throw (.error .gpuUnavailable)

/-- The place of the buffers that a stream allocates. -/
def place : Stream → Place
  | cpu => .host
  | gpu context _ => .gpu context

end Stream

namespace Event

def device : Event → Device
  | cpu => .cpu
  | gpu _ _ => .gpu

def context? : Event → Option ContextId
  | cpu => none
  | gpu context _ => some context

/-- A new event of a context. -/
def ofContext (context : ContextId) : Work DeviceError Event := do
  let id := (← get).nextId
  modify fun machine => { machine with nextId := id + 1 }
  return gpu context id

def ofDevice : Device → Work DeviceError Event
  | .cpu => pure cpu
  | .gpu => do
    match (← get).installed with
    | some context => ofContext context
    | none => throw (.error .gpuUnavailable)

end Event

namespace SyncPoint

def context? : SyncPoint → Option ContextId
  | stream s => s.context?
  | event e => e.context?

/-- Holds the host until the point is reached. An event never recorded is reached. -/
def hostWait : SyncPoint → Work DeviceError Unit
  | stream .cpu | event .cpu => pure ()
  | stream (.gpu context _) => Machine.poll context
  | event (.gpu context id) => do
    if (← get).recorded.contains id then Machine.poll context

end SyncPoint

namespace Stream

/-- A new stream of a device. All streams of the host are one. -/
def create (device : Device) : Work DeviceError Stream := do
  match ← ofDevice device with
  | cpu => pure cpu
  | gpu context _ =>
    let id := (← get).nextId
    modify fun machine => { machine with nextId := id + 1 }
    return gpu context id

def record (stream : Stream) (event : Event) : Work DeviceError Unit :=
  if stream.device ≠ event.device then
    throw (.error (.mismatch stream.device event.device))
  else
    match stream, event with
    | gpu context _, .gpu owner id =>
      if context ≠ owner then throw (.error .contextMismatch)
      else modify fun machine => { machine with recorded := id :: machine.recorded }
    | _, _ => pure ()

/-- Later work of the stream comes after the point. Within a context this holds by itself; otherwise
the host waits. -/
def waitFor (stream : Stream) (point : SyncPoint) : Work DeviceError Unit :=
  match stream.context?, point.context? with
  | _, none => pure ()
  | some context, some owner => if context = owner then pure () else point.hostWait
  | none, some _ => point.hostWait

def wait (stream : Stream) : Work DeviceError Unit :=
  (SyncPoint.stream stream).hostWait

/-- Each of `others` waits for `main`; the first failure ends it. -/
def allWaitFor (main : Stream) (others : List Stream) : Work DeviceError Unit :=
  others.forM fun other => other.waitFor (.stream main)

/-- `main` waits for each of `others`; the first failure ends it. -/
def waitForAll (main : Stream) (others : List Stream) : Work DeviceError Unit :=
  others.forM fun other => main.waitFor (.stream other)

/-- Every other stream waits for `main`, whether or not the one before failed. Failures are
dropped. -/
def release (main : Stream) (others : List Stream) : Work DeviceError Unit :=
  (others.filter (· ≠ main)).forM fun other =>
    tryCatch (other.waitFor (.stream main)) fun _ => pure ()

/-- Runs work on `main` after all that `others` did so far, and before what they do next. -/
def merged {α : Type} (main : Stream) (others : List Stream) (work : Work DeviceError α) :
    Work DeviceError α := do
  waitForAll main others
  let result ← work
  release main others
  return result

end Stream

end ArrayEngine
