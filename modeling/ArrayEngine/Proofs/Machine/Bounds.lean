import ArrayEngine.Proofs.Machine.Contents

/-! Copies of bytes stay within the buffers that they are made between, padding and all. -/
namespace ArrayEngine

theorem le_roundUp (place : Place) (size : Nat) : size ≤ roundUp place.granule size := by
  cases place <;> simp only [roundUp, Place.granule] <;> omega

theorem roundUp_lt (place : Place) (size : Nat) : roundUp place.granule size < size + 16 := by
  cases place <;> simp only [roundUp, Place.granule] <;> omega

/-- What is moved of a buffer in whole granules is no more than what its memory gives out for it. -/
theorem roundUp_copyGranule_le (place : Place) (size : Nat) :
    roundUp copyGranule size ≤ roundUp place.granule size := by
  cases place <;> simp only [roundUp, Place.granule, copyGranule] <;> omega

theorem le_roundUp_copyGranule (size : Nat) : size ≤ roundUp copyGranule size := by
  simp only [roundUp, copyGranule]
  omega

namespace Machine

/-- The first bytes of a buffer. There must be as many. -/
def slice (machine : Machine) (id : BufferId) (stop : Nat) : Except Trap (List UInt8) :=
  if stop ≤ (machine.buffer id).bytes.length then .ok ((machine.buffer id).bytes.take stop)
  else .error (.rangeEnd stop (machine.buffer id).bytes.length)

/-- Writes over the first bytes of a buffer. There must be as many. -/
def storeSlice (machine : Machine) (id : BufferId) (data : List UInt8) : Except Trap Machine :=
  if data.length ≤ (machine.buffer id).bytes.length then .ok (machine.store id 0 data)
  else .error (.rangeEnd data.length (machine.buffer id).bytes.length)

/-- A copy between two buffers that reads and writes slices of them, and stops where a buffer is too short
for its slice. -/
def copySlices (dst : BufferId) (dstStream : Stream) (src : BufferId) (srcStream : Stream)
    (size : Nat) : Work DeviceError Unit := do
  let machine ← get
  match (machine.buffer dst).place, (machine.buffer src).place with
  | .host, .host =>
    if dst = src then pure ()
    else
      let data ← machine.slice src size
      set (← machine.storeSlice dst data)
  | .gpu context, .host =>
    if serves dstStream context then
      let data ← machine.slice src (roundUp copyGranule size)
      let stored ← machine.storeSlice dst data
      set (machine.submit context fun _ => stored)
    else throw (.error .contextMismatch)
  | .host, .gpu context =>
    if serves srcStream context then
      let data ← machine.slice src (roundUp copyGranule size)
      let _ ← machine.storeSlice dst (data.take size)
      modify (download · context ⟨dst, data.take size⟩)
    else throw (.error .contextMismatch)
  | .gpu context, .gpu owner =>
    if context ≠ owner then throw (.error (.unknownDeviceCombination .gpu .gpu))
    else if dst = src then pure ()
    else
      let data ← machine.slice src (roundUp copyGranule size)
      let _ ← machine.storeSlice dst data
      dstStream.merged [srcStream] (modify fun machine => machine.submit context (store · dst 0 data))

variable {machine later : Machine} {dst src : BufferId} {size : Nat}

/-- A copy between buffers with room for all granules that it moves is one of slices. -/
theorem copyWithin_eq_copySlices (target : roundUp copyGranule size ≤ (machine.buffer dst).bytes.length)
    (source : roundUp copyGranule size ≤ (machine.buffer src).bytes.length)
    (dstStream srcStream : Stream) :
    copyWithin dst dstStream src srcStream size machine =
      copySlices dst dstStream src srcStream size machine := by
  have hsize := le_roundUp_copyGranule size
  have hslice {stop : Nat} (h : stop ≤ roundUp copyGranule size) :
      machine.slice src stop = .ok ((machine.buffer src).bytes.take stop) :=
    if_pos (Nat.le_trans h source)
  have hstore {data : List UInt8} (h : data.length ≤ roundUp copyGranule size) :
      machine.storeSlice dst data = .ok (machine.store dst 0 data) :=
    if_pos (Nat.le_trans h target)
  have hpadded := hslice (Nat.le_refl _)
  have hall := hstore (List.length_take_le (roundUp copyGranule size) (machine.buffer src).bytes)
  have htrim : ((machine.buffer src).bytes.take (roundUp copyGranule size)).take size =
      (machine.buffer src).bytes.take size := by
    rw [List.take_take, Nat.min_eq_left hsize]
  have hpart := hstore (Nat.le_trans (List.length_take_le size (machine.buffer src).bytes) hsize)
  rw [copyWithin, copySlices, get_bind_apply, get_bind_apply]
  cases (machine.buffer dst).place with
  | host =>
    cases (machine.buffer src).place with
    | host =>
      dsimp only
      split
      · rfl
      · rw [hslice hsize, ok_bind_apply, hpart]
        rfl
    | gpu context =>
      dsimp only
      split
      · rw [hpadded, ok_bind_apply, htrim, hpart]
        rfl
      · rfl
  | gpu context =>
    cases (machine.buffer src).place with
    | host =>
      dsimp only
      split
      · rw [hpadded, ok_bind_apply, hall]
        rfl
      · rfl
    | gpu owner =>
      dsimp only
      split
      · rfl
      · split
        · rfl
        · rw [hpadded, ok_bind_apply, hall]
          rfl

/-- A copy of no more bytes than both buffers were asked to hold is not refused for their size. -/
theorem copyBytes_eq_copyWithin {target source : Buffer} (hsize : size ≠ 0)
    (htarget : machine.buffers[dst]? = some target) (hsource : machine.buffers[src]? = some source)
    (targetSize : size ≤ target.size) (sourceSize : size ≤ source.size) (dstStream srcStream : Stream) :
    copyBytes (some dst) dstStream (some src) srcStream size machine =
      copyWithin dst dstStream src srcStream size machine := by
  rw [← buffer_of_getElem? htarget] at targetSize
  rw [← buffer_of_getElem? hsource] at sourceSize
  have hcapacity : ¬min (machine.buffer dst).size (machine.buffer src).size < size := by omega
  rw [copyBytes, if_neg hsize, get_bind_apply]
  simp only [if_neg hcapacity]

theorem copyBytes_eq_copySlices {target source : Buffer} (hsize : size ≠ 0)
    (htarget : machine.buffers[dst]? = some target) (hsource : machine.buffers[src]? = some source)
    (targetSize : size ≤ target.size) (sourceSize : size ≤ source.size)
    (targetRoom : roundUp copyGranule size ≤ target.bytes.length)
    (sourceRoom : roundUp copyGranule size ≤ source.bytes.length) (dstStream srcStream : Stream) :
    copyBytes (some dst) dstStream (some src) srcStream size machine =
      copySlices dst dstStream src srcStream size machine := by
  rw [← buffer_of_getElem? htarget] at targetRoom
  rw [← buffer_of_getElem? hsource] at sourceRoom
  rw [copyBytes_eq_copyWithin hsize htarget hsource targetSize sourceSize,
    copyWithin_eq_copySlices targetRoom sourceRoom]

theorem failed_deliver (machine : Machine) (id other : ContextId) :
    ((machine.deliver id).context other).failed = (machine.context other).failed := by
  have hstores (entries : List Download) (machine : Machine) :
      (entries.foldl (fun machine entry => machine.store entry.target 0 entry.data) machine).contexts =
        machine.contexts := by
    induction entries generalizing machine with
    | nil => rfl
    | cons entry entries ih => exact ih _
  simp only [deliver, modifyContext, context, hstores, List.getElem?_modify]
  cases machine.contexts[other]? with
  | none => rfl
  | some found => by_cases h : id = other <;> simp [h]

/-- A wait for a context fails only with what it tells the host of its downloads. -/
theorem poll_error {id : ContextId} {cause : Halt DeviceError} (h : poll id machine = .error cause later) :
    cause = .error .mapFailed := by
  rw [poll, modify_bind_apply, get_bind_apply] at h
  split at h <;> cases h
  rfl

end Machine

theorem SyncPoint.hostWait_error {point : SyncPoint} {machine later : Machine} {cause : Halt DeviceError}
    (h : point.hostWait machine = .error cause later) : cause = .error .mapFailed := by
  cases point with
  | stream stream =>
    cases stream with
    | cpu => cases h
    | gpu context id => exact Machine.poll_error h
  | event event =>
    cases event with
    | cpu => cases h
    | gpu context id =>
      rw [hostWait, get_bind_apply] at h
      split at h
      · exact Machine.poll_error h
      · cases h

namespace Stream

variable {machine later : Machine} {cause : Halt DeviceError}

theorem waitFor_error {stream : Stream} {point : SyncPoint}
    (h : stream.waitFor point machine = .error cause later) : cause = .error .mapFailed := by
  rw [waitFor] at h
  cases hpoint : point.context? with
  | none =>
    simp only [hpoint] at h
    cases h
  | some owner =>
    cases hstream : stream.context? with
    | none =>
      simp only [hpoint, hstream] at h
      exact SyncPoint.hostWait_error h
    | some context =>
      simp only [hpoint, hstream] at h
      split at h
      · cases h
      · exact SyncPoint.hostWait_error h

theorem release_eq_ok (main : Stream) (others : List Stream) (machine : Machine) :
    ∃ later, main.release others machine = .ok () later := by
  rw [release]
  induction others.filter (· ≠ main) generalizing machine with
  | nil => exact ⟨machine, rfl⟩
  | cons other others ih =>
    change ∃ later, (tryCatch (other.waitFor (.stream main)) (fun _ => pure ()) >>= fun _ =>
      others.forM fun other => tryCatch (other.waitFor (.stream main)) fun _ => pure () :
        Work DeviceError Unit) machine = .ok () later
    rw [bind_apply, tryCatch_apply]
    cases other.waitFor (.stream main) machine <;> exact ih _

/-- Work that cannot fail itself fails after another stream only if a wait does. -/
theorem merged_error {main other : Stream} {work : Machine → Machine}
    (h : main.merged [other] (modify work) machine = .error cause later) : cause = .error .mapFailed := by
  have hwaits : main.waitForAll [other] machine = main.waitFor (.stream other) machine := by
    change (main.waitFor (.stream other) >>= fun _ => pure () : Work DeviceError Unit) machine = _
    rw [bind_apply]
    cases main.waitFor (.stream other) machine <;> rfl
  rw [merged, bind_apply, hwaits] at h
  cases hwait : main.waitFor (.stream other) machine with
  | error first last =>
    rw [hwait] at h
    cases h
    exact waitFor_error hwait
  | ok _ waited =>
    obtain ⟨last, hlast⟩ := main.release_eq_ok [other] (work waited)
    rw [hwait] at h
    change (main.release [other] >>= fun _ => pure () : Work DeviceError Unit) (work waited) = _ at h
    rw [bind_apply, hlast] at h
    cases h

end Stream

namespace Machine

/-- Why a copy of bytes that are there fails. -/
theorem copyWithin_error {machine later : Machine} {dst src : BufferId} {dstStream srcStream : Stream}
    {size : Nat} {cause : Halt DeviceError}
    (h : copyWithin dst dstStream src srcStream size machine = .error cause later) :
    cause = .error .contextMismatch ∨ cause = .error (.unknownDeviceCombination .gpu .gpu) ∨
      cause = .error .mapFailed := by
  rw [copyWithin, get_bind_apply] at h
  cases hdst : (machine.buffer dst).place with
  | host =>
    cases hsrc : (machine.buffer src).place with
    | host =>
      simp only [hdst, hsrc] at h
      split at h <;> cases h
    | gpu context =>
      simp only [hdst, hsrc] at h
      split at h
      · cases h
      · cases h
        exact .inl rfl
  | gpu context =>
    cases hsrc : (machine.buffer src).place with
    | host =>
      simp only [hdst, hsrc] at h
      split at h
      · cases h
      · cases h
        exact .inl rfl
    | gpu owner =>
      simp only [hdst, hsrc] at h
      split at h
      · cases h
        exact .inr (.inl rfl)
      · split at h
        · cases h
        · exact .inr (.inr (Stream.merged_error h))

end Machine

end ArrayEngine
