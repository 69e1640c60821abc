import ArrayEngine.Proofs.Machine.Keeps

/-! The contents of host buffers: which bytes a copy brings, and which it leaves as they were. -/
namespace ArrayEngine

theorem Bytes.take_overwrite_zero {data bytes : List UInt8} {size : Nat} (hdata : data.length = size)
    (hbytes : size ≤ bytes.length) : (overwrite 0 data bytes).take size = data := by
  simp only [overwrite, List.take_zero, List.nil_append, List.take_take]
  rw [Nat.min_eq_left hbytes, List.take_append_of_le_length (Nat.le_of_eq hdata.symm), ← hdata,
    List.take_length]

namespace Machine

variable {machine : Machine}

theorem buffer_of_getElem? {id : BufferId} {buffer : Buffer} (h : machine.buffers[id]? = some buffer) :
    machine.buffer id = buffer := by
  rw [Machine.buffer, h, Option.getD_some]

theorem hostBytes_of_getElem? {id : BufferId} {buffer : Buffer}
    (h : machine.buffers[id]? = some buffer) (host : buffer.place = .host) :
    machine.hostBytes id = .ok (buffer.bytes.take buffer.size) := by
  rw [hostBytes, buffer_of_getElem? h, host]

theorem buffers_store_self {id : BufferId} {buffer : Buffer} (h : machine.buffers[id]? = some buffer)
    (start : Nat) (data : List UInt8) :
    (machine.store id start data).buffers[id]? =
      some { buffer with bytes := Bytes.overwrite start data buffer.bytes } := by
  simp [store, h]

theorem buffers_store_of_ne {id other : BufferId} (h : other ≠ id) (start : Nat)
    (data : List UInt8) : (machine.store id start data).buffers[other]? = machine.buffers[other]? := by
  simp only [store, List.getElem?_modify, if_neg h.symm]
  exact id_map _

/-- A host buffer that is written as a whole holds what was written. -/
theorem hostBytes_store {id : BufferId} {buffer : Buffer} {data : List UInt8}
    (h : machine.buffers[id]? = some buffer) (host : buffer.place = .host) (hdata : data.length = buffer.size)
    (room : buffer.size ≤ buffer.bytes.length) : (machine.store id 0 data).hostBytes id = .ok data := by
  rw [hostBytes_of_getElem? (buffers_store_self h 0 data) host]
  exact congrArg _ (Bytes.take_overwrite_zero hdata room)

theorem copyBytes_zero (dst src : Option BufferId) (dstStream srcStream : Stream) :
    copyBytes dst dstStream src srcStream 0 = pure () := rfl

/-- There is nothing to copy some bytes from. -/
theorem copyBytes_of_none {size : Nat} (h : size ≠ 0) (dst : Option BufferId)
    (dstStream srcStream : Stream) (machine : Machine) :
    copyBytes dst dstStream none srcStream size machine = .error (.error .nullBuffer) machine := by
  unfold copyBytes
  rw [if_neg h]
  cases dst <;> rfl

/-- Between host buffers bytes are copied at once, and within one buffer there is nothing to copy. -/
theorem copyWithin_host {dst src : BufferId} (dstHost : (machine.buffer dst).place = .host)
    (srcHost : (machine.buffer src).place = .host) (size : Nat) :
    copyWithin dst .cpu src .cpu size machine = .ok () (if dst = src then machine
      else machine.store dst 0 ((machine.buffer src).bytes.take size)) := by
  rw [copyWithin]
  refine bind_eq_ok.mpr ⟨machine, machine, rfl, ?_⟩
  rw [dstHost, srcHost]
  dsimp only
  split <;> rfl

/-- A copy of all bytes between two host buffers of one size. Afterwards they hold the same, and all other
buffers are as they were. -/
theorem copyBytes_eq_ok {dst src : BufferId} {target source : Buffer} {size : Nat} (apart : dst ≠ src)
    (htarget : machine.buffers[dst]? = some target) (hsource : machine.buffers[src]? = some source)
    (targetHost : target.place = .host) (sourceHost : source.place = .host)
    (targetSize : target.size = size) (sourceSize : source.size = size)
    (targetRoom : size ≤ target.bytes.length) (sourceRoom : size ≤ source.bytes.length) :
    ∃ later, copyBytes (some dst) .cpu (some src) .cpu size machine = .ok () later ∧
      (∀ id, id ≠ dst → later.buffers[id]? = machine.buffers[id]?) ∧
      later.hostBytes dst = .ok (source.bytes.take size) := by
  by_cases hsize : size = 0
  · refine ⟨machine, by rw [copyBytes, if_pos hsize]; rfl, fun _ _ => rfl, ?_⟩
    rw [hostBytes_of_getElem? htarget targetHost, targetSize, hsize]
    rfl
  · refine ⟨machine.store dst 0 (source.bytes.take size), ?_, fun id hid => buffers_store_of_ne hid _ _, ?_⟩
    · have hcapacity : ¬min (machine.buffer dst).size (machine.buffer src).size < size := by
        rw [buffer_of_getElem? htarget, buffer_of_getElem? hsource, targetSize, sourceSize, Nat.min_self]
        exact Nat.lt_irrefl _
      rw [copyBytes, if_neg hsize]
      change (if min (machine.buffer dst).size (machine.buffer src).size < size then _ else _ :
        Work DeviceError Unit) machine = _
      rw [if_neg hcapacity]
      rw [copyWithin_host (by rw [buffer_of_getElem? htarget, targetHost])
        (by rw [buffer_of_getElem? hsource, sourceHost]), if_neg apart, buffer_of_getElem? hsource]
    · refine hostBytes_store htarget targetHost ?_ (targetSize ▸ targetRoom)
      rw [List.length_take, Nat.min_eq_left sourceRoom, targetSize]

end Machine

end ArrayEngine
