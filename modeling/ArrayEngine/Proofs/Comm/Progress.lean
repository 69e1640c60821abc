import ArrayEngine.Proofs.Comm.Delivery
import Mathlib.Algebra.BigOperators.Fin
import Mathlib.Data.Finset.Max

/-! Members that make equally many gatherings never get stuck while all of them stay, and every run
comes to an end: each action uses up some of a fixed amount of work. -/
namespace ArrayEngine

/-- Actions left in a gathering, those of peers that receive its word included. -/
def Task.cost {n : Nat} {α : Type} : Task n α → Nat
  | .running _ => 0
  | .sending _ peers _ => 2 * peers.length + 2
  | .receiving _ _ => 1

/-- Actions that a member with so many gatherings has still to cause. -/
def Member.cost {n : Nat} {α : Type} (member : Member n α) (count : Nat) : Nat :=
  (count - member.rounds) * (2 * n + 1) + member.task.cost + member.inbox.length

/-- A program that has made some gatherings has ended with the last of so many, or has some left. -/
def Collective.OnPace {α : Type} (count made : Nat) : Collective α → Prop
  | .done _ => made = count
  | .gather _ _ => made < count

namespace World

variable {n : Nat} {α : Type} {programs : Fin n → Collective α} {history : History n}
  {rank : Fin n} {world next : World n α} {moves : List (Move n)} {count limit : Nat}

/-- A member that cannot act has ended its program, or waits for a message. -/
private theorem waiting_of_step (present : (world.member rank).isPresent = true)
    (h : world.step rank = none) :
    (∃ result, (world.member rank).task = .running (.done result)) ∨
    ∃ words resume, (world.member rank).task = .receiving words resume ∧
      complete? words = none ∧ (world.member rank).inbox = [] := by
  simp only [step, getElem_members, present, Bool.not_true, Bool.false_eq_true, if_false] at h
  split at h
  case h_1 result task => exact .inl ⟨result, task⟩
  case h_2 => cases h
  case h_3 => split at h <;> cases h
  case h_4 => cases h
  case h_5 words resume task =>
    split at h
    case h_1 => cases h
    case h_2 missing empty => exact .inr ⟨words, resume, task, missing, empty⟩
    case h_3 => split at h <;> cases h

private theorem none_mem_of_mapM {β : Type} {options : List (Option β)}
    (h : options.mapM id = none) : none ∈ options := by
  induction options with
  | nil => cases h
  | cons option options ih =>
    cases option with
    | none => exact List.mem_cons_self
    | some value =>
      cases hrest : options.mapM id with
      | none => exact List.mem_cons_of_mem _ (ih hrest)
      | some values =>
        rw [List.mapM_cons, hrest] at h
        cases h

private theorem exists_missing {words : Vector (Option UInt64) n} (h : complete? words = none) :
    ∃ peer : Fin n, words.get peer = none := by
  obtain ⟨index, hindex, hnone⟩ :=
    Vector.mem_iff_getElem.mp (Vector.mem_toList_iff.mp (none_mem_of_mapM h))
  exact ⟨⟨index, hindex⟩, hnone⟩

theorem result?_of_task {result : α} (h : (world.member rank).task = .running (.done result)) :
    world.result? rank = some result := by
  simp only [result?, getElem_members, h]

/-- No member has begun more than so many gatherings, and all that ended have begun as many. -/
structure Paced (world : World n α) (count : Nat) : Prop where
  le : ∀ rank : Fin n, (world.member rank).rounds ≤ count
  ended : ∀ (rank : Fin n) result, (world.member rank).task = .running (.done result) →
    (world.member rank).rounds = count
  open_lt : ∀ (rank : Fin n) value resume,
    (world.member rank).task = .running (.gather value resume) → (world.member rank).rounds < count

/-- Programs that are on pace wherever they have got to keep the world paced. -/
theorem paced_of_follows (sound : world.Sound programs history)
    (h : ∀ rank words rest, (programs rank).Follows words (history.returned rank) rest →
      rest.OnPace count words.length) : world.Paced count := by
  have running (rank : Fin n) (rest : Collective α) (ht : (world.member rank).task = .running rest) :
      rest.OnPace count (world.member rank).rounds := by
    have htask := (sound rank).task
    rw [ht] at htask
    rw [← (sound rank).rounds]
    exact h rank _ rest htask
  refine ⟨fun rank => ?_, fun rank result ht => running rank _ ht,
    fun rank value resume ht => running rank _ ht⟩
  have htask := (sound rank).task
  cases ht : (world.member rank).task with
  | running rest =>
    have hpace := running rank rest ht
    cases rest with
    | done result => exact Nat.le_of_eq hpace
    | gather value resume => exact Nat.le_of_lt hpace
  | sending value peers resume =>
    rw [ht] at htask
    obtain ⟨before, hhanded, hfollows⟩ := htask
    rw [← (sound rank).rounds, hhanded, List.length_append]
    exact h rank _ _ hfollows
  | receiving words resume =>
    rw [ht] at htask
    obtain ⟨before, value, hhanded, hfollows, _⟩ := htask
    rw [← (sound rank).rounds, hhanded, List.length_append]
    exact h rank _ _ hfollows

theorem paced_of_makes (sound : world.Sound programs history)
    (makes : ∀ rank, (programs rank).Makes count) : world.Paced count := by
  refine paced_of_follows sound ?_
  intro rank words rest hfollows
  obtain ⟨left, hleft, hsum⟩ := hfollows.makes (makes rank)
  cases hleft with
  | done result => exact hsum
  | gather value _ =>
    change words.length < count
    omega

/-- A member that waits has no word of some peer, which has not sent it yet. -/
private theorem exists_unsent (delivered : world.Delivered limit) {words : Vector (Option UInt64) n}
    {resume : Except GridError (List UInt64) → Collective α}
    (task : (world.member rank).task = .receiving words resume) (missing : complete? words = none)
    (empty : (world.member rank).inbox = []) (begun : 0 < (world.member rank).rounds)
    (within : (world.member rank).rounds ≤ limit) :
    ∃ peer, peer ≠ rank ∧ ¬(world.member peer).HasSent rank ((world.member rank).rounds - 1) := by
  obtain ⟨peer, hpeer⟩ := exists_missing missing
  have hne : peer ≠ rank := by
    rintro rfl
    exact (delivered.tidy peer).own words resume task hpeer
  refine ⟨peer, hne, fun hsent => ?_⟩
  rcases (delivered.got peer rank _ hne (by omega)).mp hsent with
    ⟨message, hmem | hmem, _, hround⟩ | hended | ⟨got, _, hgot, _, hword⟩
  · rw [empty] at hmem
    cases hmem
  · have := (delivered.tidy rank).early words resume task message hmem
    omega
  · simp only [Member.ended, task] at hended
    omega
  · rw [task] at hgot
    cases hgot
    exact hword hpeer

/-- Members do not get stuck in the first gatherings, so many as all make and as are behind all members that
have left: as long as a member is not done with these, one that is not done with them can act. -/
theorem Run.exists_step_below (run : Run programs moves world history) (late : world.LeavesAfter limit)
    (done : ∀ rank result, (world.member rank).task = .running (.done result) →
      limit ≤ (world.member rank).rounds)
    (behind : (world.member rank).ended < limit) :
    ∃ other next, (world.member other).ended < limit ∧ world.step other = some next := by
  by_contra hstuck
  push Not at hstuck
  have delivered := run.delivered late
  have waits (other : Fin n) (h : (world.member other).ended < limit) :
      ∃ words resume, (world.member other).task = .receiving words resume ∧
        complete? words = none ∧ (world.member other).inbox = [] := by
    have present : (world.member other).isPresent = true := by
      by_contra absent
      exact absurd (late other (eq_false_of_ne_true absent)) (by omega)
    rcases waiting_of_step present (Option.eq_none_iff_forall_ne_some.mpr fun next =>
      hstuck other next h) with ⟨result, task⟩ | waiting
    · have hrounds := done other result task
      simp only [Member.ended, task] at h
      omega
    · exact waiting
  let slow := Finset.univ.filter fun rank => (world.member rank).ended < limit
  -- the member that is behind all others waits for nothing that its peers still have to send
  obtain ⟨last, hlast, hmin⟩ := Finset.exists_min_image slow (fun rank => (world.member rank).rounds)
    ⟨rank, by simp [slow, behind]⟩
  have hopen : (world.member last).ended < limit := (Finset.mem_filter.mp hlast).2
  obtain ⟨words, resume, task, missing, empty⟩ := waits last hopen
  have begun := rounds_pos run.sound last (by simp [task])
  simp only [Member.ended, task] at hopen
  obtain ⟨peer, _, unsent⟩ := exists_unsent delivered task missing empty begun (by omega)
  apply unsent
  by_cases hpeer : (world.member peer).ended < limit
  · obtain ⟨_, _, hother, _⟩ := waits peer hpeer
    have := hmin peer (Finset.mem_filter.mpr ⟨Finset.mem_univ _, hpeer⟩)
    exact ⟨by omega, by simp [hother]⟩
  · have hle := (world.member peer).ended_le
    refine ⟨by omega, fun value rest next hsending _ => ?_⟩
    simp only [Member.ended, hsending] at hpeer
    omega

/-- While no member leaves, members of a paced world do not get stuck. -/
theorem Run.exists_step_of_paced (run : Run programs moves world history)
    (stay : ∀ rank, Move.leave rank ∉ moves) (paced : world.Paced count)
    (busy : world.result? rank = none) :
    ∃ rank next, world.step rank = some next := by
  have behind : (world.member rank).ended < count := by
    have hle := paced.le rank
    cases task : (world.member rank).task with
    | running rest =>
      cases rest with
      | done result =>
        rw [result?_of_task task] at busy
        cases busy
      | gather value resume =>
        simpa only [Member.ended, task] using paced.open_lt rank value resume task
    | sending value peers resume =>
      have begun := rounds_pos run.sound rank (by simp [task])
      simp only [Member.ended, task]
      omega
    | receiving words resume =>
      have begun := rounds_pos run.sound rank (by simp [task])
      simp only [Member.ended, task]
      omega
  obtain ⟨other, next, _, hstep⟩ := run.exists_step_below (run.leavesAfter stay)
    (fun other result task => (paced.ended other result task).ge) behind
  exact ⟨other, next, hstep⟩

/-- While no member leaves, members that all make equally many gatherings do not get stuck. -/
theorem Run.exists_step (run : Run programs moves world history)
    (stay : ∀ rank, Move.leave rank ∉ moves) (makes : ∀ rank, (programs rank).Makes count)
    (busy : world.result? rank = none) : ∃ rank next, world.step rank = some next :=
  run.exists_step_of_paced stay (paced_of_makes run.sound makes) busy

def cost (world : World n α) (count : Nat) : Nat :=
  ∑ rank : Fin n, (world.member rank).cost count

private theorem cost_set (world : World n α) (rank : Fin n) (member : Member n α) (count : Nat) :
    (world.set rank member).cost count + (world.member rank).cost count =
      world.cost count + member.cost count := by
  have hrest : ∑ other ∈ Finset.univ.erase rank, ((world.set rank member).member other).cost count =
      ∑ other ∈ Finset.univ.erase rank, (world.member other).cost count := by
    apply Finset.sum_congr rfl
    intro other hmem
    rw [members_set_of_ne _ _ (Finset.ne_of_mem_erase hmem)]
  rw [cost, cost, ← Finset.sum_erase_add _ _ (Finset.mem_univ rank), hrest, members_set_self,
    ← Finset.sum_erase_add Finset.univ _ (Finset.mem_univ rank)]
  omega

private theorem cost_post (world : World n α) (peer : Fin n) (message : Message n) :
    (world.post peer message).cost count = world.cost count + 1 := by
  have h := cost_set world peer
    { world.member peer with inbox := (world.member peer).inbox ++ [message] } count
  simp only [Member.cost, List.length_append, List.length_singleton] at h
  simp only [post, getElem_members]
  omega

private theorem length_peers_lt (rank : Fin n) : (peers rank).length < n := by
  have h : (peers rank).length < (List.finRange n).length := by
    rw [peers, List.length_filter_lt_length_iff_exists]
    exact ⟨rank, List.mem_finRange rank, by simp⟩
  simpa using h

/-- A member that costs less after a change costs the world less. -/
private theorem cost_set_le {member : Member n α} {spent : Nat}
    (h : member.cost count + spent ≤ (world.member rank).cost count) :
    (world.set rank member).cost count + spent ≤ world.cost count := by
  have := cost_set world rank member count
  omega

private theorem cost_lt_of_action {handed : Option UInt64}
    {returned : Option (Except GridError (List UInt64))}
    (action : Action world rank handed returned next) (paced : world.Paced count) :
    next.cost count + 1 ≤ world.cost count := by
  cases action with
  | begin value resume task =>
    have hlt := paced.open_lt rank value resume task
    have hpeers := length_peers_lt rank
    apply cost_set_le
    obtain ⟨left, hleft⟩ := Nat.exists_eq_add_of_lt hlt
    have hbefore : count - (world.member rank).rounds = left + 1 := by omega
    have hafter : count - ((world.member rank).rounds + 1) = left := by omega
    simp only [Member.cost, Task.cost, task, hbefore, hafter, Nat.add_mul]
    omega
  | send value peer rest resume task present =>
    rw [cost_post, Nat.add_assoc]
    apply cost_set_le
    simp only [Member.cost, Task.cost, task, List.length_cons]
    omega
  | refuse value peer rest resume task absent =>
    apply cost_set_le
    simp only [Member.cost, Task.cost, task]
    omega
  | collect value resume task =>
    apply cost_set_le
    simp only [Member.cost, Task.cost, task]
    omega
  | finish words gathered resume task complete =>
    apply cost_set_le
    simp only [Member.cost, Task.cost, task]
    omega
  | hear words message inbox resume task first due =>
    apply cost_set_le
    simp only [Member.cost, Task.cost, task, first, List.length_cons]
    omega
  | park words message inbox resume task first early =>
    apply cost_set_le
    simp only [Member.cost, Task.cost, task, first, List.length_cons]
    omega

/-- A world of `n` members that is paced all along has seen at most `n * (count * (2 * n + 1))` actions. -/
theorem Run.actions_le_of_paced (run : Run programs moves world history)
    (paced : ∀ {earlier world history}, earlier <+: moves → Run programs earlier world history →
      world.Paced count) :
    moves.countP Move.isAct + world.cost count ≤ n * (count * (2 * n + 1)) := by
  induction run with
  | start => simp [cost, Member.cost, Task.cost, members_start]
  | act rank run hstep ih =>
    have before := ih fun h => paced (h.trans (List.prefix_append _ _))
    have := cost_lt_of_action (action_of_step hstep) (paced (List.prefix_append _ _) run)
    have hcount : [Move.act rank].countP Move.isAct = 1 := rfl
    rw [List.countP_append, hcount]
    omega
  | @leave _ before _ rank _ ih =>
    have hcount : [Move.leave rank].countP Move.isAct = 0 := rfl
    have hsame : (before.leave rank).cost count = before.cost count :=
      Nat.add_right_cancel (cost_set before rank _ count)
    rw [List.countP_append, hcount, hsame]
    exact ih fun h => paced (h.trans (List.prefix_append _ _))

/-- Whatever the schedule, members that make `count` gatherings each end them within so many actions. -/
theorem Run.actions_le (run : Run programs moves world history)
    (makes : ∀ rank, (programs rank).Makes count) :
    moves.countP Move.isAct + world.cost count ≤ n * (count * (2 * n + 1)) :=
  run.actions_le_of_paced fun _ earlier => paced_of_makes earlier.sound makes

/-- As long as no member leaves, every run of a world that stays paced can go on until all members have
ended their programs. -/
theorem Run.exists_ended (run : Run programs moves world history)
    (stay : ∀ rank, Move.leave rank ∉ moves)
    (paced : ∀ {moves world history}, Run programs moves world history →
      (∀ rank, Move.leave rank ∉ moves) → world.Paced count) :
    ∃ moves world history, Run programs moves world history ∧
      (∀ rank, Move.leave rank ∉ moves) ∧ ∀ rank, ∃ result, world.result? rank = some result := by
  induction hcost : world.cost count using Nat.strongRecOn generalizing moves world history with
  | _ cost ih =>
    by_cases busy : ∃ rank, world.result? rank = none
    · obtain ⟨rank, hbusy⟩ := busy
      have here := paced run stay
      obtain ⟨actor, next, hstep⟩ := run.exists_step_of_paced stay here hbusy
      have less := cost_lt_of_action (action_of_step hstep) here
      refine ih (next.cost count) (by omega) (run.act actor hstep) (fun other hmem => ?_) rfl
      rcases List.mem_append.mp hmem with hmem | hmem
      · exact stay other hmem
      · cases List.mem_singleton.mp hmem
    · push Not at busy
      exact ⟨moves, world, history, run, stay, fun rank => Option.ne_none_iff_exists'.mp (busy rank)⟩

end World

end ArrayEngine
