import ArrayEngine.Machine.Copy
import ArrayEngine.Proofs.Effect

/-! Work on a machine never takes a buffer away, nor does it move or resize one. -/
namespace ArrayEngine

/-- Two buffers of the same size in the same memory. -/
structure Buffer.SameFrame (buffer other : Buffer) : Prop where
  size : other.size = buffer.size
  place : other.place = buffer.place
  length : other.bytes.length = buffer.bytes.length

namespace Machine

/-- Every buffer is still there, with other contents at most. -/
def Keeps (machine later : Machine) : Prop :=
  ∀ (id : BufferId) (buffer : Buffer), machine.buffers[id]? = some buffer →
    ∃ now, later.buffers[id]? = some now ∧ buffer.SameFrame now

variable {machine later : Machine}

theorem Keeps.refl (machine : Machine) : machine.Keeps machine :=
  fun _ buffer h => ⟨buffer, h, rfl, rfl, rfl⟩

theorem Keeps.trans {last : Machine} (h : machine.Keeps later) (k : later.Keeps last) :
    machine.Keeps last := by
  intro id buffer hbuffer
  obtain ⟨now, hnow, hframe⟩ := h id buffer hbuffer
  obtain ⟨at_last, hlast, klast⟩ := k id now hnow
  exact ⟨at_last, hlast, klast.size.trans hframe.size, klast.place.trans hframe.place,
    klast.length.trans hframe.length⟩

instance : Std.Refl Keeps := ⟨Keeps.refl⟩

instance : IsTrans Machine Keeps := ⟨fun _ _ _ => Keeps.trans⟩

theorem Keeps.of_buffers_eq (h : later.buffers = machine.buffers) : machine.Keeps later := by
  intro id buffer hbuffer
  exact ⟨buffer, by rw [h, hbuffer], rfl, rfl, rfl⟩

theorem Keeps.length_le (h : machine.Keeps later) : machine.buffers.length ≤ later.buffers.length := by
  rcases Nat.eq_zero_or_pos machine.buffers.length with hzero | hpos
  · omega
  · have hlast : machine.buffers.length - 1 < machine.buffers.length := by omega
    obtain ⟨now, hnow, _⟩ := h _ _ (List.getElem?_eq_getElem hlast)
    obtain ⟨hlt, _⟩ := List.getElem?_eq_some_iff.mp hnow
    omega

theorem keeps_store (machine : Machine) (id : BufferId) (start : Nat) (data : List UInt8) :
    machine.Keeps (machine.store id start data) := by
  intro other buffer hbuffer
  simp only [store, List.getElem?_modify, hbuffer]
  by_cases h : id = other
  · exact ⟨{ buffer with bytes := Bytes.overwrite start data buffer.bytes }, by simp [h], rfl, rfl,
      by simp⟩
  · exact ⟨buffer, by simp [h], rfl, rfl, rfl⟩

theorem keeps_modifyContext (machine : Machine) (id : ContextId) (f : Context → Context) :
    machine.Keeps (machine.modifyContext id f) :=
  .of_buffers_eq rfl

/-- All buffers are there with the same contents. -/
def Extends (machine later : Machine) : Prop :=
  ∀ (id : BufferId) (buffer : Buffer), machine.buffers[id]? = some buffer →
    later.buffers[id]? = some buffer

theorem Extends.refl (machine : Machine) : machine.Extends machine := fun _ _ h => h

theorem Extends.trans {last : Machine} (h : machine.Extends later) (k : later.Extends last) :
    machine.Extends last :=
  fun id buffer hbuffer => k id buffer (h id buffer hbuffer)

theorem Extends.keeps (h : machine.Extends later) : machine.Keeps later :=
  fun id buffer hbuffer => ⟨buffer, h id buffer hbuffer, rfl, rfl, rfl⟩

theorem extends_withBuffer (machine : Machine) (place : Place) (size : Nat) :
    machine.Extends (machine.withBuffer place size) := by
  intro id buffer hbuffer
  obtain ⟨hlt, _⟩ := List.getElem?_eq_some_iff.mp hbuffer
  simp only [withBuffer, List.getElem?_append_left hlt, hbuffer]

theorem keeps_withBuffer (machine : Machine) (place : Place) (size : Nat) :
    machine.Keeps (machine.withBuffer place size) :=
  (extends_withBuffer machine place size).keeps

theorem keeps_submit (id : ContextId) {work : Machine → Machine} (h : machine.Keeps (work machine)) :
    machine.Keeps (machine.submit id work) := by
  rw [submit]
  split
  · exact .refl machine
  · exact h

theorem keeps_foldl_store {α : Type} (entries : List α) (target : α → BufferId) (start : α → Nat)
    (data : α → List UInt8) (machine : Machine) :
    machine.Keeps (entries.foldl (fun machine entry =>
      machine.store (target entry) (start entry) (data entry)) machine) := by
  induction entries generalizing machine with
  | nil => exact .refl machine
  | cons entry entries ih => exact (keeps_store machine _ _ _).trans (ih _)

theorem keeps_deliver (machine : Machine) (id : ContextId) : machine.Keeps (machine.deliver id) :=
  (keeps_foldl_store _ Download.target (fun _ => 0) Download.data machine).trans
    (keeps_modifyContext _ _ _)

/-- A relation between machines that deliveries keep, and reports of failures too. So all waits do. -/
structure KeptByWaits (kept : Machine → Machine → Prop) : Prop where
  deliver : ∀ machine id, kept machine (machine.deliver id)
  report : ∀ machine id,
    kept machine (machine.modifyContext id fun context => { context with failed := false })

theorem keptByWaits_keeps : KeptByWaits Keeps :=
  ⟨keeps_deliver, fun machine id => keeps_modifyContext machine id _⟩

section Waits

variable {kept : Machine → Machine → Prop} [Std.Refl kept] [IsTrans Machine kept]

theorem KeptByWaits.poll (waits : KeptByWaits kept) (id : ContextId) : Keeping kept (poll id) := by
  rw [Machine.poll]
  refine .bind (.modify fun machine => waits.deliver machine id) fun _ => .get_bind fun machine => ?_
  split
  · exact .bind (.modify fun machine => waits.report machine id) fun _ => .throw _
  · exact .pure _

end Waits

theorem keeping_readHost (id : BufferId) (size : Nat) : Keeping Eq (readHost id size) := by
  rw [readHost]
  refine .get_bind ?_
  intro machine
  split
  · exact .liftTrap _
  · exact .throw _

theorem keeping_writeHost (id : BufferId) (size : Nat) (change : List Element → List Element) :
    Keeping Keeps (writeHost id size change) := by
  rw [writeHost]
  refine .bind ((keeping_readHost id size).mono ?_) fun elements => ?_
  · rintro machine _ rfl
    exact .refl machine
  · exact .modify fun machine => keeps_store machine _ _ _

end Machine

section Waits

variable {kept : Machine → Machine → Prop} [Std.Refl kept]

theorem Stream.keeping_ofDevice (device : Device) : Keeping kept (ofDevice device) := by
  cases device with
  | cpu => exact .pure _
  | gpu =>
    refine .get_bind ?_
    intro machine
    split
    · exact .pure _
    · exact .throw _

variable [IsTrans Machine kept]

namespace Machine.KeptByWaits

theorem hostWait (waits : KeptByWaits kept) (point : SyncPoint) : Keeping kept point.hostWait := by
  cases point with
  | stream stream =>
    cases stream with
    | cpu => exact .pure _
    | gpu context id => exact waits.poll context
  | event event =>
    cases event with
    | cpu => exact .pure _
    | gpu context id =>
      refine .get_bind ?_
      intro machine
      split
      · exact waits.poll context
      · exact .pure _

theorem waitFor (waits : KeptByWaits kept) (stream : Stream) (point : SyncPoint) :
    Keeping kept (stream.waitFor point) := by
  rw [Stream.waitFor]
  split
  · exact .pure _
  · split
    · exact .pure _
    · exact waits.hostWait point
  · exact waits.hostWait point

theorem merged {α : Type} (waits : KeptByWaits kept) (main : Stream) (others : List Stream)
    {work : Work DeviceError α} (h : Keeping kept work) : Keeping kept (main.merged others work) := by
  rw [Stream.merged, Stream.waitForAll, Stream.release]
  refine .bind (.forM fun other => waits.waitFor main _) fun _ => .bind h fun result => ?_
  refine .bind (.forM fun other => ?_) fun _ => .pure _
  exact .tryCatch (waits.waitFor other _) fun _ => .pure _

end Machine.KeptByWaits

end Waits

theorem Stream.keeping_wait (stream : Stream) : Keeping Machine.Keeps stream.wait :=
  Machine.keptByWaits_keeps.hostWait _

namespace Machine

theorem keeping_copyWithin (dst : BufferId) (dstStream : Stream) (src : BufferId)
    (srcStream : Stream) (size : Nat) :
    Keeping Keeps (copyWithin dst dstStream src srcStream size) := by
  have submitted (context : ContextId) (data : List UInt8) : Keeping Keeps
      (modify fun machine => machine.submit context (store · dst 0 data) : Work DeviceError Unit) :=
    .modify fun machine => keeps_submit context (keeps_store machine _ _ _)
  rw [copyWithin]
  refine .get_bind ?_
  intro machine
  dsimp only
  split
  · split
    · exact .pure _
    · exact .modify fun machine => keeps_store machine _ _ _
  · split
    · exact submitted _ _
    · exact .throw _
  · split
    · exact .modify fun machine => keeps_modifyContext machine _ _
    · exact .throw _
  · split
    · exact .throw _
    · split
      · exact .pure _
      · exact keptByWaits_keeps.merged _ _ (submitted _ _)

theorem keeping_copyBytes (dst : Option BufferId) (dstStream : Stream) (src : Option BufferId)
    (srcStream : Stream) (size : Nat) :
    Keeping Keeps (copyBytes dst dstStream src srcStream size) := by
  unfold copyBytes
  split
  · exact .pure _
  · cases dst with
    | none => exact .throw _
    | some dst =>
      cases src with
      | none => exact .throw _
      | some src =>
        refine .get_bind ?_
        intro machine
        dsimp only
        split
        · exact .bind (.throw _) fun _ => keeping_copyWithin _ _ _ _ _
        · exact keeping_copyWithin _ _ _ _ _

end Machine

end ArrayEngine
