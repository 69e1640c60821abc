import ArrayEngine.Proofs.Comm.Stages
import ArrayEngine.Proofs.Grid.Layouts
import ArrayEngine.Proofs.Grid.Lockstep

/-! Distributed copies of the ranks of a world that checks, each with arguments of its own and between any
other collective calls. On congruent grids a copy is one gathering of every rank, and on other grids none. -/
namespace ArrayEngine

namespace Collective

variable {α β : Type} {program rest : Collective α} {next : α → Collective β} {count more : Nat}

theorem Makes.bind (makes : program.Makes count) (h : ∀ a, program.Ends a → (next a).Makes more) :
    (program >>= next).Makes (count + more) := by
  induction makes with
  | done a =>
    rw [Nat.zero_add]
    exact h a (.done a)
  | @gather value resume count _ ih =>
    rw [Nat.add_right_comm]
    exact .gather value fun gathered => ih gathered fun a ends => h a (.gather gathered ends)

/-- What a program has come to, it may end in. -/
theorem Follows.ends {words results} (follows : program.Follows words results rest) {a : α}
    (h : rest.Ends a) : program.Ends a := by
  induction follows with
  | start => exact h
  | next result _ ih => exact ih (.gather result h)

end Collective

/-- What a distributed copy ends in. -/
abbrev CopyOutcome := EStateM.Result (Halt DistError) (DistTensor × Machine) Unit

/-- The arguments of a distributed copy, and the machine of the rank. -/
structure CopyCall where
  dst : DistTensor
  src : DistTensor
  machine : Machine

namespace CopyCall

variable {hash : CopyTerms → UInt64} {n : Nat} {call : CopyCall} {rank : Fin n}

def run (hash : CopyTerms → UInt64) (call : CopyCall) : Collective CopyOutcome :=
  DistTensor.copy hash call.dst call.src call.machine

/-- The word that the ranks compare. -/
def word (hash : CopyTerms → UInt64) (call : CopyCall) : UInt64 := hash (DistTensor.terms call.dst call.src)

/-- The grids are congruent, and the source is on one of a rank of a world that checks. -/
structure IsChecked (call : CopyCall) (rank : Fin n) : Prop where
  comm : call.src.grid.comm = Comm.member true rank
  congruent : call.dst.grid.isCongruent call.src.grid = true

/-- What the call makes of the words of all ranks. -/
def conclude (hash : CopyTerms → UInt64) (call : CopyCall) (gathered : Except GridError (List UInt64)) : CopyOutcome :=
  DistTensor.concludeCopy call.dst call.src call.machine
    (gathered.bind (call.src.grid.comm.agree (call.word hash)))

/-- A call on congruent grids is one gathering. -/
theorem IsChecked.run_eq (checked : call.IsChecked rank) :
    call.run hash = .gather (call.word hash) fun gathered => .done (call.conclude hash gathered) := by
  rw [run, DistTensor.copy_eq checked.comm checked.congruent, if_pos rfl]
  rfl

theorem IsChecked.makes (checked : call.IsChecked rank) : (call.run hash).Makes 1 := by
  rw [checked.run_eq]
  exact .gather _ fun gathered => .done _

/-- A call on grids that are not congruent is over at once, and changes nothing. -/
theorem run_of_not_congruent (h : call.dst.grid.isCongruent call.src.grid = false) :
    call.run hash = .done (.error (.error (.grid .notCongruent)) (call.dst, call.machine)) := by
  rw [run, DistTensor.copy, h]
  rfl

end CopyCall

/-- A program that comes to a copy, makes it, and goes on with what it ended in. -/
structure CopyProgram (γ α : Type) where
  before : Collective γ
  call : γ → CopyCall
  after : γ → CopyOutcome → Collective α

namespace CopyProgram

open CopyTerms (fingerprint)

variable {hash : CopyTerms → UInt64} {n : Nat} {γ α : Type}

/-- The program up to the end of the copy. -/
def made (hash : CopyTerms → UInt64) (program : CopyProgram γ α) : Collective (γ × CopyOutcome) := do
  let state ← program.before
  return (state, ← (program.call state).run hash)

def run (hash : CopyTerms → UInt64) (program : CopyProgram γ α) : Collective α := do
  let made ← program.made hash
  program.after made.1 made.2

theorem run_eq (program : CopyProgram γ α) : program.run hash =
    program.before >>= fun state => (program.call state).run hash >>= program.after state := by
  rw [run, made, Collective.bind_assoc]
  congr 1
  funext state
  exact Collective.bind_assoc _ _ _

/-- The program comes to its copy after `k` gatherings, and makes it on congruent grids of a world that
checks. -/
structure IsChecked (program : CopyProgram γ α) (rank : Fin n) (k : Nat) : Prop where
  makes : program.before.Makes k
  call : ∀ state, program.before.Ends state → (program.call state).IsChecked rank

variable {program : CopyProgram γ α} {rank : Fin n} {k : Nat} {history : World.History n} {state : γ}
  {outcome : CopyOutcome}

variable (hash) in
theorem IsChecked.made_makes (checked : program.IsChecked rank k) : (program.made hash).Makes (k + 1) := by
  refine checked.makes.bind fun state ends => ?_
  have noted (outcome : CopyOutcome) : (pure (state, outcome) : Collective (γ × CopyOutcome)).Makes 0 :=
    .done _
  exact (checked.call state ends).makes.bind fun outcome _ => noted outcome

/-- The rank came to its copy with this state. -/
def ComesTo (program : CopyProgram γ α) (history : World.History n) (rank : Fin n) (k : Nat) (state : γ) :
    Prop :=
  program.before.Follows ((history.handed rank).take k) ((history.returned rank).take k) (.done state)

/-- The rank came to its copy with this state, and this is what the copy ended in. -/
def HasMade (hash : CopyTerms → UInt64) (program : CopyProgram γ α) (history : World.History n) (rank : Fin n)
    (k : Nat) (state : γ) (outcome : CopyOutcome) : Prop :=
  (program.made hash).Follows ((history.handed rank).take (k + 1)) ((history.returned rank).take (k + 1))
    (.done (state, outcome))

private theorem getElem?_of_drop_take {β : Type} {list more : List β} {value : β}
    (h : (list.take (k + 1)).drop k = value :: more) : list[k]? = some value := by
  have hfirst := congrArg (·[0]?) h
  simpa [List.getElem?_drop, List.getElem?_take] using hfirst

/-- The word of its gathering is that of its arguments, and its end follows from what was gathered. -/
theorem IsChecked.of_hasMade (checked : program.IsChecked rank k)
    (made : program.HasMade hash history rank k state outcome) :
    program.ComesTo history rank k state ∧
      (history.handed rank)[k]? = some ((program.call state).word hash) ∧
      ∃ gathered, (history.returned rank)[k]? = some gathered ∧
        outcome = (program.call state).conclude hash gathered := by
  obtain ⟨_, _, _, _, hrest⟩ | ⟨_, came, hbefore, hcall⟩ :=
    Collective.Follows.of_bind_makes checked.makes made
  · cases hrest
  · rw [List.take_take, List.take_take, Nat.min_eq_left (Nat.le_succ k)] at hbefore
    rw [(checked.call came (hbefore.ends (.done came))).run_eq] at hcall
    obtain ⟨_, _, hrest⟩ | ⟨gathered, more, given, hword, hgathered, hdone⟩ :=
      Collective.Follows.of_gather hcall
    · cases hrest
    · obtain ⟨_, _, hdone⟩ := Collective.Follows.of_done hdone
      cases hdone
      exact ⟨hbefore, getElem?_of_drop_take hword, gathered, getElem?_of_drop_take hgathered, rfl⟩

section Runs

variable {programs : Fin n → CopyProgram γ α} {moves : List (World.Move n)} {world : World n α}

variable (checked : ∀ rank, (programs rank).IsChecked rank k)
  (run : World.Run (fun rank => (programs rank).run hash) moves world history)

include checked run

/-- The word of a rank for the gathering of its copy is that of the arguments it came with. -/
theorem comesTo_of_handed {word : UInt64} (h : (history.handed rank)[k]? = some word) :
    ∃ state, (programs rank).ComesTo history rank k state ∧ ((programs rank).call state).word hash = word := by
  have same : (fun rank => (programs rank).run hash) = fun rank => (programs rank).before >>= fun state =>
      ((programs rank).call state).run hash >>= (programs rank).after state :=
    funext fun rank => (programs rank).run_eq
  rw [same] at run
  obtain ⟨hlt, _⟩ := List.getElem?_eq_some_iff.mp h
  obtain ⟨state, came, results, rest, hcall⟩ :=
    run.exists_done (fun rank => (checked rank).makes) (run.le_returned_of_handed h)
  have hchecked := (checked rank).call state (came.ends (.done state))
  rw [hchecked.run_eq] at hcall
  refine ⟨state, came, ?_⟩
  obtain ⟨hnone, _⟩ | ⟨_, _, _, hword, _⟩ := Collective.Follows.of_gather hcall
  · rw [List.drop_eq_nil_iff] at hnone
    omega
  · have hfirst := congrArg (·[0]?) hword
    simp only [List.getElem?_drop, Nat.add_zero, List.getElem?_cons_zero, h] at hfirst
    exact (Option.some.inj hfirst).symm

/-- A rank that is done with the gathering of its copy has made it. -/
theorem exists_hasMade (h : k < (history.returned rank).length) :
    ∃ state outcome, (programs rank).HasMade hash history rank k state outcome := by
  obtain ⟨made, hmade, _⟩ := run.exists_done (fun rank => (checked rank).made_makes hash) h
  exact ⟨made.1, made.2, hmade⟩

/-- Copies of all ranks of a world that checks, each on congruent grids and after `k` gatherings, whatever the
other arguments are, under any schedule. A copy on grids that are not congruent would be over at once, send
nothing and change nothing. Each of these is one gathering, which hands in the word of its arguments, and is
made when that gathering is done. As long as a rank has not made its copy, one of those ranks can act, if no
rank leaves before it has made its own; so a rank does not wait for ranks that have all made theirs. What is
received in a gathering was handed in for the one of the same number, so what is received in a gathering after
the copies was handed in by a rank that had made its own. -/
theorem one_round_of_checked :
    (∀ call : CopyCall, call.dst.grid.isCongruent call.src.grid = false →
      call.run hash = .done (.error (.error (.grid .notCongruent)) (call.dst, call.machine))) ∧
    (∀ rank state, (programs rank).before.Ends state → (((programs rank).call state).run hash).Makes 1) ∧
    (∀ rank word, (history.handed rank)[k]? = some word →
      ∃ state, (programs rank).ComesTo history rank k state ∧ ((programs rank).call state).word hash = word) ∧
    (∀ rank, k < (history.returned rank).length →
      ∃ state outcome, (programs rank).HasMade hash history rank k state outcome) ∧
    (world.LeavesAfter (k + 1) → ∀ rank, (history.returned rank).length ≤ k →
      ∃ other next, (history.returned other).length ≤ k ∧ world.step other = some next) ∧
    (∀ rank peer round word, world.Received history rank peer round word →
      (history.handed peer)[round]? = some word ∧ (k < round → ∃ state outcome,
        (programs peer).HasMade hash history peer k state outcome ∧
          ((programs peer).after state outcome).Hands word)) := by
  have makes (rank : Fin n) := (checked rank).made_makes hash
  refine ⟨fun _ => CopyCall.run_of_not_congruent, fun rank state ends => ?_, fun rank word => ?_,
    fun rank => exists_hasMade checked run, fun late rank behind => ?_, fun rank peer round word h => ?_⟩
  · exact ((checked rank).call state ends).makes
  · exact comesTo_of_handed checked run
  · obtain ⟨other, next, hother, hstep⟩ := run.exists_step_of_stages makes late (Nat.lt_succ_of_le behind)
    exact ⟨other, next, Nat.le_of_lt_succ hother, hstep⟩
  · refine ⟨run.handed_of_received h, fun later => ?_⟩
    obtain ⟨made, hmade, hands⟩ := run.hands_of_received makes h later
    exact ⟨made.1, made.2, hmade, hands⟩

end Runs

/-- Two by two numbers without memory, on a grid of two ranks in a column or in a row. -/
def square (rank : Fin 2) (upright : Bool) : DistTensor :=
  ⟨[2, 2], [.any, .any], ⟨Comm.member true rank, if upright then [2, 1] else [1, 2]⟩, [.block, .block],
    { Tensor.blank .f32 .cpu true with
      shape := if upright then [1, 2] else [2, 1]
      dimTypes := [.any, .any]
      strides := if upright then [1, 1] else [1, 2] }⟩

private theorem create_square (rank : Fin 2) (upright : Bool) :
    DistTensor.create .f32 (square rank upright).grid [2, 2] [.any, .any] [.block, .block] .cpu true
      .initial = .ok (square rank upright) .initial :=
  match rank, upright with
  | 0, true | 0, false | 1, true | 1, false => rfl

/-- Each of two ranks copies numbers over others and then gathers a word. The grids of rank 0 are congruent
or not, and those of rank 1 are. -/
def pair (congruent : Bool) (rank : Fin 2) : CopyProgram Unit (Except GridError (List UInt64)) where
  before := .done ()
  call _ := ⟨square rank true, square rank (congruent || rank == 1), .initial⟩
  after _ _ := (Comm.member true rank).gather 5

/-- Rank 0 has sent the word of its copy and hears that of rank 1, and goes on to its next gathering, while rank
1 has yet to receive: it is rank 1 that can act. -/
theorem one_round_of_checked_pair : ∃ moves world history,
    World.Run (fun rank => (pair true rank).run fingerprint) moves world history ∧
      (∀ rank, (pair true rank).IsChecked rank 0) ∧ world.LeavesAfter 1 ∧
      (history.returned 0).length = 1 ∧ (history.returned 1).length = 0 ∧
      ∃ other next, (history.returned other).length ≤ 0 ∧ world.step other = some next := by
  have checked (rank : Fin 2) : (pair true rank).IsChecked rank 0 :=
    ⟨.done (), fun _ _ => ⟨rfl, rfl⟩⟩
  have run : World.Run (fun rank => (pair true rank).run fingerprint) _ _ _ := .start
  have run := run.act 0 rfl |>.act 0 rfl |>.act 0 rfl |>.act 1 rfl |>.act 1 rfl
  have run := run.act 0 rfl |>.act 0 rfl
  have late : World.LeavesAfter _ 1 := run.leavesAfter (by simp)
  obtain ⟨_, _, _, _, progress, _⟩ := one_round_of_checked checked run
  exact ⟨_, _, _, run, checked, late, rfl, rfl, progress late 1 (by decide)⟩

/-- Rank 0 copies on grids that are not congruent: its copy is over without a gathering while rank 1 waits in
the gathering of its own copy and cannot act. When rank 0 goes on to its next gathering, this gives back the
word of the copy of rank 1. -/
theorem copy_not_congruent_waits :
    (∀ rank upright, DistTensor.create .f32 (square rank upright).grid [2, 2] [.any, .any] [.block, .block]
      .cpu true .initial = .ok (square rank upright) .initial) ∧
    ∃ moves world history, World.Run (fun rank => (pair false rank).run fingerprint) moves world history ∧
      (∀ rank, World.Move.leave rank ∉ moves) ∧
      (pair false 0).made fingerprint =
        .done ((), .error (.error (.grid .notCongruent)) (square 0 true, .initial)) ∧
      (world.member 0).task = .running ((pair false 0).after ()
        (.error (.error (.grid .notCongruent)) (square 0 true, .initial))) ∧
      history.handed 1 = [((pair false 1).call ()).word fingerprint] ∧ history.returned 1 = [] ∧
      world.step 1 = none ∧
      ∃ longer later laterHistory, World.Run (fun rank => (pair false rank).run fingerprint) longer later laterHistory ∧
        moves <+: longer ∧ laterHistory.returned 0 = [.ok [5, ((pair false 1).call ()).word fingerprint]] := by
  have run : World.Run (fun rank => (pair false rank).run fingerprint) _ _ _ := .start
  have run := run.act 1 rfl |>.act 1 rfl |>.act 1 rfl
  have later := run.act 0 rfl |>.act 0 rfl |>.act 0 rfl |>.act 0 rfl |>.act 0 rfl
  exact ⟨create_square, _, _, _, run, by simp, rfl, rfl, rfl, rfl, rfl, _, _, _, later, by simp, rfl⟩

end CopyProgram

end ArrayEngine
