import ArrayEngine.Proofs.Tensor.Fills
import ArrayEngine.Proofs.Tensor.HostCopies
import ArrayEngine.Proofs.Tensor.Writes
import ArrayEngine.Proofs.Workspace.Copies
import ArrayEngine.Proofs.Workspace.Devices
import Mathlib.Logic.Relation

/-! A copy from a GPU to the host brings what the source held when it was asked for, whatever a program does until
the host waits, as long as nothing else writes the buffer that is copied to. -/
namespace ArrayEngine

namespace Tensor

variable {dst src now : Tensor} {machine later : Machine} {id d : BufferId} {buffer : Buffer}
  {elements extent : Nat} {context : ContextId}

/-- A tensor over a buffer is of the type and layout of another one. -/
def LaidLike (src : Tensor) (d : BufferId) (tensor : Tensor) : Prop :=
  tensor.buffer? = some d → tensor.dtype = src.dtype ∧ tensor.shape = src.shape ∧ tensor.strides = src.strides

end Tensor

namespace Workspace

open Machine (Spares)

/-- Changes of a tensor with the buffer `d` that do not write its elements. -/
inductive Idle (workspace : Workspace) (d : BufferId) : Update Unit → Prop
  | resize (shape dimTypes strides?) : Idle workspace d (Tensor.resize shape dimTypes strides?)
  | ensure : Idle workspace d Tensor.ensure
  | empty : Idle workspace d Tensor.empty
  | setStream (stream) : Idle workspace d (Tensor.setStream stream)
  | copy {name src} : workspace.tensors.lookup name = some src → src.buffer? = some d →
      Idle workspace d (Tensor.copyFrom src)

/-- The steps of a program that do not write the buffer `d`. Tensors are made, changed and dropped, and the host
waits for whatever it likes. What else is done makes buffers at most, and downloads nothing. -/
inductive Sparing (d : BufferId) : Workspace → Workspace → Prop
  | make {workspace later name work} : Making workspace work → EndsAt (create name work workspace) later →
      Sparing d workspace later
  | change {workspace later name tensor update} : workspace.tensors.lookup name = some tensor →
      Changing workspace update → EndsAt (change name tensor update workspace) later →
      (change name tensor update workspace = .ok () later → ∀ now, later.tensors.lookup name = some now →
        now.buffer? = some d → Idle workspace d update) →
      Sparing d workspace later
  | drop {workspace : Workspace} (name) :
      Sparing d workspace { workspace with tensors := Assoc.erase workspace.tensors name }
  | wait {workspace later} (point : SyncPoint) : EndsAt (run point.hostWait workspace) later →
      Sparing d workspace later
  | outside {workspace later : Workspace} : later.tensors = workspace.tensors →
      workspace.machine.Extends later.machine →
      (∀ id, (later.machine.context id).downloads = (workspace.machine.context id).downloads) →
      later.catalogue.IsTame → later.catalogue.IsConfined → Sparing d workspace later

variable {workspace later : Workspace} {name : String} {tensor src : Tensor} {context : ContextId}
  {d : BufferId}

theorem spares_of_making (confined : workspace.catalogue.IsConfined) {work : Work TensorError Tensor}
    (making : Making workspace work) {machine : Machine} (ends : EndsAt (work workspace.machine) machine) :
    Spares context d workspace.machine machine := by
  cases making with
  | packed => exact Tensor.spares_withLayout ends
  | layout => exact Tensor.spares_withLayout ends
  | list => exact Tensor.spares_ofList ends
  | view =>
    cases ends
    exact .refl _
  | accessible => exact Tensor.spares_accessibleOn ends
  | cast => exact Tensor.spares_cast confined ends

theorem spares_of_idle {update : Update Unit} (idle : Idle workspace d update) {state : Tensor × Machine}
    (ends : EndsAt (update (tensor, workspace.machine)) state) :
    Spares context d workspace.machine state.2 := by
  cases idle with
  | resize => exact Tensor.spares_resize ends
  | ensure => exact Tensor.spares_ensure ends
  | empty =>
    cases ends
    exact .refl _
  | setStream =>
    obtain rfl | ⟨_, rfl⟩ := Tensor.setStream_cases ends <;> exact .refl _
  | copy _ hsrc => exact Tensor.spares_copyFrom ends fun _ _ => hsrc

theorem spares_of_changing (confined : workspace.catalogue.IsConfined) {update : Update Unit}
    (changing : Changing workspace update) {state : Tensor × Machine}
    (ends : EndsAt (update (tensor, workspace.machine)) state)
    (idle : update (tensor, workspace.machine) = .ok () state → state.1.buffer? = some d →
      Idle workspace d update) :
    Spares context d workspace.machine state.2 := by
  by_cases hidle : Idle workspace d update
  · exact spares_of_idle hidle ends
  · have apart (hupdate : update (tensor, workspace.machine) = .ok () state) : state.1.buffer? ≠ some d :=
      fun hid => hidle (idle hupdate hid)
    cases changing with
    | resize => exact absurd (.resize _ _ _) hidle
    | ensure => exact absurd .ensure hidle
    | empty => exact absurd .empty hidle
    | setStream => exact absurd (.setStream _) hidle
    | copy => exact Tensor.spares_copyFrom ends fun hcopy hid => absurd hid (apart hcopy)
    | fill value => exact Tensor.avoids_fill value _ state ends apart
    | zero => exact Tensor.avoids_zero confined _ state ends apart

theorem Sparing.reachable (reachable : Reachable workspace) (step : Sparing d workspace later) :
    Reachable later := by
  cases step with
  | make making ends => exact reachable.make making ends
  | change found changing ends _ => exact reachable.change found changing ends
  | drop name => exact reachable.drop name
  | wait point ends =>
    obtain ⟨machine, hwait, rfl⟩ := exists_of_run ends
    have keeps := Evolving.of_keeping (Machine.keptByWaits_keeps.hostWait point) _ _ hwait
    exact reachable.outside rfl keeps reachable.sound.tame
  | outside tensors longer _ tame _ => exact reachable.outside tensors longer.keeps tame

/-- A buffer of the host, and all tensors over it are laid out like one that is copied there. -/
structure IsTarget (workspace : Workspace) (src : Tensor) (d : BufferId) : Prop where
  reachable : Reachable workspace
  confined : workspace.catalogue.IsConfined
  host : workspace.machine.HasHost d
  alike : ∀ {name tensor}, workspace.tensors.lookup name = some tensor → src.LaidLike d tensor

/-- The tensors over a target stay alike if one that is laid out like them takes a name. -/
private theorem IsTarget.alike_insert (target : workspace.IsTarget src d) (h : src.LaidLike d tensor)
    {other : String} {found : Tensor}
    (hfound : (Assoc.insert workspace.tensors name tensor).lookup other = some found) : src.LaidLike d found := by
  by_cases hname : other = name
  · subst hname
    rw [Assoc.lookup_insert_self] at hfound
    cases hfound
    exact h
  · rw [Assoc.lookup_insert_of_ne _ _ hname] at hfound
    exact target.alike hfound

/-- What one step leaves of a target, and what is due for it. -/
theorem IsTarget.of_sparing (target : workspace.IsTarget src d) (step : Sparing d workspace later) :
    later.IsTarget src d ∧ Spares context d workspace.machine later.machine := by
  have reachable := step.reachable target.reachable
  have sound := target.reachable.sound
  -- the rest of the target follows from what is due, step by step
  suffices rest : Spares context d workspace.machine later.machine ∧ later.catalogue.IsConfined ∧
      ∀ {name tensor}, later.tensors.lookup name = some tensor → src.LaidLike d tensor from
    ⟨⟨reachable, rest.2.1, (rest.1 target.host).host, rest.2.2⟩, rest.1⟩
  cases step with
  | make making ends =>
    obtain ⟨machine, hwork, rfl⟩ | ⟨made, machine, hwork, rfl⟩ := create_cases ends
    · exact ⟨spares_of_making target.confined making hwork, target.confined, target.alike⟩
    · refine ⟨spares_of_making target.confined making (.of_ok hwork), target.confined,
        target.alike_insert fun hid => ?_⟩
      obtain isNew | ⟨_, _, origin, horigin, view⟩ := isNew_or_view_of_making sound.tame making hwork
      · exact absurd hid (isNew.buffer?_ne target.host)
      · obtain ⟨hdtype, hshape, hstrides⟩ := target.alike horigin (view.buffer ▸ hid)
        exact ⟨view.dtype.trans hdtype, view.shape.trans hshape, view.strides.trans hstrides⟩
  | change found changing ends idle =>
    obtain ⟨state, hupdate, hchange, rfl⟩ := exists_of_change ends
    refine ⟨spares_of_changing target.confined changing hupdate fun hok hid => ?_, target.confined,
      target.alike_insert fun hid => ?_⟩
    · exact idle (hchange.mpr hok) state.1 (Assoc.lookup_insert_self _ _ _) hid
    · have changed := evolving_of_changing sound.tame changing _ _ hupdate
      obtain hnew | ⟨hold, hshape, hstrides, _⟩ := changed.buffer d hid
      · obtain ⟨_, hbuffer, _⟩ := target.host
        exact absurd (List.getElem?_eq_some_iff.mp hbuffer).1 (Nat.not_lt_of_le hnew)
      · obtain ⟨sameType, sameShape, sameStrides⟩ := target.alike found hold
        exact ⟨changed.dtype.trans sameType, hshape.trans sameShape, hstrides.trans sameStrides⟩
  | drop dropped =>
    refine ⟨.refl _, target.confined, fun {other _} hfound => ?_⟩
    by_cases hname : other = dropped
    · subst hname
      rw [Assoc.lookup_erase_self] at hfound
      cases hfound
    · rw [Assoc.lookup_erase_of_ne _ hname] at hfound
      exact target.alike hfound
  | wait point ends =>
    obtain ⟨machine, hwait, rfl⟩ := exists_of_run ends
    exact ⟨Evolving.of_keeping (Machine.keptByWaits_spares.hostWait point) _ _ hwait, target.confined,
      target.alike⟩
  | outside tensors longer downloads _ confined =>
    exact ⟨Machine.spares_of_eq (longer d) downloads, confined, fun hfound => target.alike (tensors ▸ hfound)⟩

/-- What any number of steps leaves of a target, by induction on the steps. -/
theorem IsTarget.of_run (target : workspace.IsTarget src d)
    (run : Relation.ReflTransGen (Sparing d) workspace later) :
    later.IsTarget src d ∧ Spares context d workspace.machine later.machine := by
  induction run with
  | refl => exact ⟨target, .refl _⟩
  | tail _ step ih =>
    obtain ⟨between, spared⟩ := ih
    obtain ⟨last, spares⟩ := between.of_sparing step
    exact ⟨last, spared.trans spares⟩

/-- Once the host has waited for a stream, nothing of its context is on its way to a target. -/
theorem IsTarget.delivered {last waited final : Workspace} (target : workspace.IsTarget src d)
    (before : Relation.ReflTransGen (Sparing d) workspace last) {stream : Stream}
    (hstream : stream.context? = some context) (ends : EndsAt (run stream.wait last) waited)
    (beyond : Relation.ReflTransGen (Sparing d) waited final) :
    final.IsTarget src d ∧ Machine.Spared context d workspace.machine final.machine ∧
      ∀ entry, ¬final.machine.Awaits d context entry := by
  obtain ⟨lasting, first⟩ := target.of_run before
  obtain ⟨waiting, second⟩ := lasting.of_sparing (.wait (.stream stream) ends)
  obtain ⟨finished, third⟩ := waiting.of_run beyond
  refine ⟨finished, ((first.trans second).trans third) target.host, fun entry awaits => ?_⟩
  obtain ⟨machine, hwait, rfl⟩ := exists_of_run ends
  have hpoll : EndsAt (Machine.poll context last.machine) machine := by
    cases stream with
    | cpu => cases hstream
    | gpu owner id =>
      cases hstream
      exact hwait
  exact Machine.not_awaits_of_poll hpoll entry ((third waiting.host).awaits context entry awaits)

end Workspace

end ArrayEngine
