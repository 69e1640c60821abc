import ArrayEngine.Proofs.Machine.Downloads

/-! What is due for a buffer of the host: what it holds once a context has delivered all that is on its way there.
Work that does not write the buffer leaves that alone, in whatever order contexts deliver. -/
namespace ArrayEngine

namespace Machine

/-- What a buffer holds once all downloads from a context are there. -/
def due (machine : Machine) (context : ContextId) (id : BufferId) : List UInt8 :=
  Download.received (machine.context context).downloads id (machine.buffer id).bytes

/-- A buffer is there, in host memory. -/
def HasHost (machine : Machine) (id : BufferId) : Prop :=
  ∃ buffer, machine.buffers[id]? = some buffer ∧ buffer.place = .host

/-- A download from a context to a buffer is on its way. -/
structure Awaits (machine : Machine) (id : BufferId) (context : ContextId) (entry : Download) : Prop where
  sent : entry ∈ (machine.context context).downloads
  target : entry.target = id

/-- No context but one has delivered what it had for a buffer. -/
def Withholds (context : ContextId) (id : BufferId) (machine later : Machine) : Prop :=
  ∀ other, other ≠ context → ∀ entry, machine.Awaits id other entry → later.Awaits id other entry

/-- A buffer of the host, and nothing more on its way to it: unless other contexts deliver to it, the same is due for
it from one context. -/
structure Spared (context : ContextId) (id : BufferId) (machine later : Machine) : Prop where
  host : later.HasHost id
  awaits : ∀ other entry, later.Awaits id other entry → machine.Awaits id other entry
  due : Withholds context id machine later → later.due context id = machine.due context id

/-- Work that does not write a buffer of the host. -/
def Spares (context : ContextId) (id : BufferId) (machine later : Machine) : Prop :=
  machine.HasHost id → Spared context id machine later

variable {machine later last : Machine} {context : ContextId} {id : BufferId}

theorem Spares.refl (machine : Machine) : Spares context id machine machine :=
  fun host => ⟨host, fun _ _ h => h, fun _ => rfl⟩

theorem Spared.trans (first : Spared context id machine later) (h : Spares context id later last) :
    Spared context id machine last := by
  have second := h first.host
  refine ⟨second.host, fun other entry hentry => first.awaits other entry (second.awaits other entry hentry),
    fun withheld => ?_⟩
  -- what was on its way at first and still is at last was on its way between
  rw [second.due, first.due]
  · exact fun other hother entry hentry => second.awaits other entry (withheld other hother entry hentry)
  · exact fun other hother entry hentry => withheld other hother entry (first.awaits other entry hentry)

theorem Spares.trans (h : Spares context id machine later) (k : Spares context id later last) :
    Spares context id machine last :=
  fun host => (h host).trans k

instance : Std.Refl (Spares context id) := ⟨Spares.refl⟩

instance : IsTrans Machine (Spares context id) := ⟨fun _ _ _ => Spares.trans⟩

/-- The buffer is the same, and so is what is on its way. -/
theorem spares_of_eq (hbuffer : ∀ buffer, machine.buffers[id]? = some buffer → later.buffers[id]? = some buffer)
    (hdownloads : ∀ other, (later.context other).downloads = (machine.context other).downloads) :
    Spares context id machine later := by
  rintro ⟨buffer, hfound, host⟩
  refine ⟨⟨buffer, hbuffer buffer hfound, host⟩, fun other entry h => ⟨hdownloads other ▸ h.sent, h.target⟩,
    fun _ => ?_⟩
  rw [due, due, hdownloads, buffer_of_getElem? (hbuffer buffer hfound), buffer_of_getElem? hfound]

theorem spares_withBuffer (machine : Machine) (place : Place) (size : Nat) :
    Spares context id machine (machine.withBuffer place size) :=
  spares_of_eq (fun buffer h => extends_withBuffer machine place size id buffer h) fun _ => rfl

theorem spares_store (machine : Machine) {other : BufferId} (h : other ≠ id) (start : Nat) (data : List UInt8) :
    Spares context id machine (machine.store other start data) :=
  spares_of_eq (fun _ hbuffer => (buffers_store_of_ne h.symm start data).trans hbuffer) fun _ => rfl

theorem spares_submit (owner : ContextId) {work : Machine → Machine} (h : Spares context id machine (work machine)) :
    Spares context id machine (machine.submit owner work) := by
  rw [submit]
  split
  · exact .refl machine
  · exact h

theorem context_modifyContext (machine : Machine) (owner other : ContextId) (f : Context → Context) :
    (machine.modifyContext owner f).context other =
      if owner = other ∧ other < machine.contexts.length then f (machine.context other)
      else machine.context other := by
  rw [Machine.context, Machine.context, modifyContext, List.getElem?_modify]
  by_cases hlt : other < machine.contexts.length
  · by_cases hsame : owner = other <;> simp [hlt, hsame]
  · simp [hlt]

theorem spares_modifyContext (machine : Machine) (owner : ContextId) {f : Context → Context}
    (h : ∀ found, (f found).downloads = found.downloads) :
    Spares context id machine (machine.modifyContext owner f) := by
  refine spares_of_eq (fun _ hbuffer => hbuffer) fun other => ?_
  rw [context_modifyContext]
  split
  · exact h _
  · rfl

/-- A download to another buffer. -/
theorem spares_download (machine : Machine) (owner : ContextId) {entry : Download} (h : entry.target ≠ id) :
    Spares context id machine (machine.download owner entry) := by
  have hdownloads (other : ContextId) :
      ((machine.download owner entry).context other).downloads = (machine.context other).downloads ∨
      ((machine.download owner entry).context other).downloads = (machine.context other).downloads ++ [entry] := by
    rw [download, context_modifyContext]
    split
    · split
      · exact .inl rfl
      · exact .inr rfl
    · exact .inl rfl
  refine fun host => ⟨host, fun other sent hsent => ?_, fun _ => ?_⟩
  · obtain hsame | hmore := hdownloads other
    · exact ⟨hsame ▸ hsent.sent, hsent.target⟩
    · obtain hmem | hnew := List.mem_append.mp (hmore ▸ hsent.sent)
      · exact ⟨hmem, hsent.target⟩
      · cases List.mem_singleton.mp hnew
        exact absurd hsent.target h
  · rw [due, due]
    obtain hsame | hmore := hdownloads context
    · rw [hsame]
      rfl
    · rw [hmore, Download.received_concat_of_ne h]
      rfl

theorem contexts_deliver (machine : Machine) (owner : ContextId) :
    (machine.deliver owner).contexts = machine.contexts.modify owner fun found => { found with downloads := [] } := by
  have hstores (entries : List Download) (machine : Machine) :
      (entries.foldl (fun machine entry => machine.store entry.target 0 entry.data) machine).contexts =
        machine.contexts := by
    induction entries generalizing machine with
    | nil => rfl
    | cons entry entries ih => exact ih _
  rw [deliver, modifyContext, hstores]

theorem downloads_deliver (machine : Machine) (owner other : ContextId) :
    ((machine.deliver owner).context other).downloads =
      if owner = other then [] else (machine.context other).downloads := by
  rw [Machine.context, Machine.context, contexts_deliver, List.getElem?_modify]
  by_cases hsame : owner = other
  · cases machine.contexts[other]? with
    | none =>
      rw [if_pos hsame]
      rfl
    | some found => simp [hsame]
  · rw [if_neg hsame]
    cases machine.contexts[other]? with
    | none => rfl
    | some found => simp [hsame]

/-- What is delivered is what was due. Deliveries of other contexts to the buffer are ruled out. -/
theorem spares_deliver (machine : Machine) (owner : ContextId) :
    Spares context id machine (machine.deliver owner) := by
  rintro ⟨buffer, hfound, host⟩
  have hdelivered := getElem?_deliver machine owner id
  rw [hfound, Option.map_some] at hdelivered
  refine ⟨⟨_, hdelivered, host⟩, fun other entry h => ⟨?_, h.target⟩, fun withheld => ?_⟩
  · have hsent := h.sent
    rw [downloads_deliver] at hsent
    split at hsent
    · cases hsent
    · exact hsent
  · rw [due, due, buffer_of_getElem? hdelivered, buffer_of_getElem? hfound, downloads_deliver]
    by_cases hsame : owner = context
    · rw [if_pos hsame, hsame]
      rfl
    · have hnone : Download.received (machine.context owner).downloads id buffer.bytes = buffer.bytes := by
        apply Download.received_of_ne
        intro entry hentry htarget
        have hstill := (withheld owner hsame entry ⟨hentry, htarget⟩).sent
        rw [downloads_deliver, if_pos rfl] at hstill
        cases hstill
      rw [if_neg hsame, hnone]

theorem keptByWaits_spares : KeptByWaits (Spares context id) :=
  ⟨spares_deliver, fun machine owner => spares_modifyContext machine owner fun _ => rfl⟩

/-- A context that was waited for has nothing on its way. -/
theorem not_awaits_of_poll (ends : EndsAt (poll context machine) later) (entry : Download) :
    ¬later.Awaits id context entry := by
  have delivered : ¬(machine.deliver context).Awaits id context entry := by
    rintro ⟨hsent, _⟩
    rw [downloads_deliver, if_pos rfl] at hsent
    cases hsent
  rw [poll, modify_bind_apply, get_bind_apply] at ends
  split at ends
  · cases ends
    rintro ⟨hsent, htarget⟩
    rw [context_modifyContext] at hsent
    refine delivered ⟨?_, htarget⟩
    split at hsent <;> exact hsent
  · cases ends
    exact delivered

section Copies

variable {dst src : BufferId} {dstStream srcStream : Stream} {size : Nat}

/-- Copies to other buffers. -/
theorem keeping_copyWithin_of_ne (h : dst ≠ id) (dstStream : Stream) (src : BufferId) (srcStream : Stream)
    (size : Nat) : Keeping (Spares context id) (copyWithin dst dstStream src srcStream size) := by
  have stored (data : List UInt8) (machine : Machine) : Spares context id machine (machine.store dst 0 data) :=
    spares_store machine h 0 data
  rw [copyWithin]
  refine .get_bind ?_
  intro machine
  dsimp only
  split
  · split
    · exact .pure _
    · exact .modify (stored _)
  · split
    · exact .modify fun machine => spares_submit _ (stored _ machine)
    · exact .throw _
  · split
    · exact .modify fun machine => spares_download machine _ h
    · exact .throw _
  · split
    · exact .throw _
    · split
      · exact .pure _
      · exact keptByWaits_spares.merged _ _ (.modify fun machine => spares_submit _ (stored _ machine))

/-- A copy to a host buffer: at once from the host, and on its way from a GPU. -/
theorem copyWithin_of_host (host : (machine.buffer dst).place = .host) (dstStream : Stream) (src : BufferId)
    (srcStream : Stream) (size : Nat) : copyWithin dst dstStream src srcStream size machine =
      match (machine.buffer src).place with
      | .host => .ok () (if dst = src then machine else machine.store dst 0 ((machine.buffer src).bytes.take size))
      | .gpu owner =>
        if serves srcStream owner then
          .ok () (machine.download owner ⟨dst, (machine.buffer src).bytes.take size⟩)
        else .error (.error .contextMismatch) machine := by
  rw [copyWithin, get_bind_apply, host]
  cases (machine.buffer src).place <;>
    · dsimp only
      split <;> rfl

/-- A copy within the buffer, and one that fails, do not write it. -/
theorem spares_copyWithin
    (h : dst = id → src = id ∨ ∃ cause last, copyWithin dst dstStream src srcStream size machine = .error cause last) :
    Spares context id machine (endState (copyWithin dst dstStream src srcStream size) machine) := by
  by_cases hdst : dst = id
  · subst hdst
    rintro ⟨buffer, hfound, host⟩
    suffices hsame : endState (copyWithin dst dstStream src srcStream size) machine = machine by
      rw [hsame]
      exact Spares.refl machine ⟨buffer, hfound, host⟩
    have hcopy := copyWithin_of_host (by rw [buffer_of_getElem? hfound, host]) dstStream src srcStream size
    obtain rfl | ⟨cause, last, herror⟩ := h rfl
    · rw [buffer_of_getElem? hfound, host] at hcopy
      exact (endState_ok hcopy).trans (if_pos rfl)
    · rw [endState_error herror]
      rw [herror] at hcopy
      split at hcopy
      · cases hcopy
      · split at hcopy <;> cases hcopy
        rfl
  · exact keeping_copyWithin_of_ne hdst _ _ _ _ machine

theorem spares_copyBytes {target source : Option BufferId}
    (h : target = some id → source = some id ∨
      ∃ cause last, copyBytes target dstStream source srcStream size machine = .error cause last) :
    Spares context id machine (endState (copyBytes target dstStream source srcStream size) machine) := by
  unfold copyBytes at h ⊢
  split
  · exact .refl machine
  · next hsize =>
    rw [if_neg hsize] at h
    cases target with
    | none => exact .refl machine
    | some dst =>
      cases source with
      | none => exact .refl machine
      | some src =>
        dsimp only at h ⊢
        rw [get_bind_apply] at h
        change Spares context id machine (endState (if _ then _ else _) machine)
        split
        · exact .refl machine
        · next hroom =>
          rw [if_neg hroom] at h
          apply spares_copyWithin
          intro hdst
          exact (h (congrArg some hdst)).imp_left Option.some.inj

end Copies

end Machine

end ArrayEngine
