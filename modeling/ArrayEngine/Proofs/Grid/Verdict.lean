import ArrayEngine.Proofs.Grid.CopyRounds

/-! What the ranks of a world that checks make of the words of a distributed copy: none of them refuses it, or
all of them do. -/
namespace ArrayEngine

namespace DistTensor

/-- A change that does not fail for a reason of the grid. -/
def Gridless (change : DistUpdate Unit) : Prop :=
  ∀ (state later : DistTensor × Machine) (cause : GridError), change state ≠ .error (.error (.grid cause)) later

theorem gridless_onShare (change : Update Unit) : Gridless (onShare change) := by
  rintro ⟨tensor, machine⟩ later cause h
  rw [onShare_apply] at h
  split at h
  · cases h
  · next halt _ _ _ => cases halt <;> cases h

theorem Gridless.bind {first second : DistUpdate Unit} (h : Gridless first) (k : Gridless second) :
    Gridless (first >>= fun _ => second) := by
  intro state later cause hbind
  rw [bind_apply] at hbind
  split at hbind
  · exact k _ _ _ hbind
  · next halt _ hfirst =>
    cases hbind
    exact h _ _ _ hfirst

theorem gridless_resizeWith (shape : List Nat) (dimTypes : List DimType) (distribution : List Distribution)
    (shareStrides? : Option (List Nat)) :
    Gridless (resizeWith shape dimTypes distribution shareStrides?) := by
  rintro ⟨tensor, machine⟩ later cause h
  rw [resizeWith_apply] at h
  repeat' split at h
  all_goals try cases h
  next halt _ _ _ => cases halt <;> cases h

theorem gridless_fillShare (src : DistTensor) : Gridless (fillShare src) := by
  intro state later cause h
  rw [fillShare, bind_apply] at h
  cases hempty : src.isShareEmpty with
  | error trap =>
    rw [hempty] at h
    cases h
  | ok empty =>
    rw [hempty] at h
    cases empty with
    | true => cases h
    | false => exact (gridless_onShare _).bind (gridless_onShare _) _ _ _ h

/-- The part of a copy that a rank does alone does not fail for a reason of the grid. -/
theorem gridless_copyShare (src : DistTensor) : Gridless (copyShare src) := by
  rintro ⟨dst, machine⟩ later cause h
  rw [copyShare_apply] at h
  split at h
  · cases h
  · cases h
  · split at h
    · exact (gridless_resizeWith _ _ _ _).bind (gridless_fillShare src) _ _ _ h
    · cases h

end DistTensor

namespace CopyCall

variable {hash : CopyTerms → UInt64} {n : Nat} {call : CopyCall} {rank : Fin n}

/-- A rank goes on with its copy if it is given back its own word from all ranks. -/
theorem IsChecked.conclude_ok (checked : call.IsChecked rank) (words : List UInt64) :
    call.conclude hash (.ok words) =
      if words.all (· == call.word hash) then DistTensor.copyShare call.src (call.dst, call.machine)
      else .error (.error (.grid (.inconsistent rank))) (call.dst, call.machine) := by
  have hrank : call.src.grid.comm.rank = rank := congrArg Comm.rank checked.comm
  rw [conclude, Except.bind, Comm.agree, hrank]
  split <;> rfl

end CopyCall

namespace CopyProgram

open CopyTerms (fingerprint)

variable {hash : CopyTerms → UInt64} {n : Nat} {γ α : Type} {programs : Fin n → CopyProgram γ α} {k : Nat}
  {moves : List (World.Move n)} {world : World n α} {history : World.History n}

section Runs

variable (checked : ∀ rank, (programs rank).IsChecked rank k)
  (run : World.Run (fun rank => (programs rank).run hash) moves world history)

include checked run

/-- What a rank hands in for its copy is the word of the arguments that it came with. -/
private theorem word_of_comesTo {rank : Fin n} {state : γ} {word : UInt64}
    (came : (programs rank).ComesTo history rank k state) (h : (history.handed rank)[k]? = some word) :
    word = ((programs rank).call state).word hash := by
  obtain ⟨_, cameToo, hword⟩ := comesTo_of_handed checked run h
  cases cameToo.unique came
  exact hword.symm

/-- A gathering of the copy that succeeds gives back the words of the arguments of all ranks. -/
private theorem words_of_comesTo {rank : Fin n} {words : List UInt64} {states : Fin n → γ}
    (came : ∀ other, (programs other).ComesTo history other k (states other))
    (h : (history.returned rank)[k]? = some (.ok words)) :
    words = List.ofFn fun other => ((programs other).call (states other)).word hash := by
  have hwords := (run.sound rank).returned k words h
  refine (List.map_inj_right fun _ _ => Option.some.inj).mp (hwords.trans ?_)
  rw [List.map_ofFn]
  congr 1
  funext other
  obtain ⟨word, hword⟩ := World.exists_handed hwords other
  rw [hword, Function.comp, word_of_comesTo checked run (came other) hword]

/-- Distributed copies of all ranks of a world that checks, each on congruent grids and after `k` gatherings,
under any schedule in which no rank leaves before it has made its copy. As long as a rank has not made it, one of
those can act, and if all ranks make `m` gatherings after it, all comes to an end within so many actions. Once a
rank has made its copy, all ranks have come to theirs. If the words of their arguments are all the same, each rank
that has made its copy has done its own part of it, and was not told that the ranks differ. If any two words
differ, each was told so with its own rank, and its target and its machine are as they were. -/
theorem same_verdict_of_checked (late : world.LeavesAfter (k + 1)) :
    (∀ rank, (history.returned rank).length ≤ k →
      ∃ other next, (history.returned other).length ≤ k ∧ world.step other = some next) ∧
    (∀ m, (∀ rank state outcome, ((programs rank).after state outcome).Makes m) →
      moves.countP World.Move.isAct ≤ n * ((k + 1 + m) * (2 * n + 1))) ∧
    ((∃ rank, k < (history.returned rank).length) →
      ∃ states : Fin n → γ, (∀ rank, (programs rank).ComesTo history rank k (states rank)) ∧
        ∀ rank, k < (history.returned rank).length →
          let call := fun rank => (programs rank).call (states rank)
          ∃ outcome, (programs rank).HasMade hash history rank k (states rank) outcome ∧
            ((∀ a b, (call a).word hash = (call b).word hash) →
              outcome = DistTensor.copyShare (call rank).src ((call rank).dst, (call rank).machine) ∧
                ∀ other state, outcome ≠ .error (.error (.grid (.inconsistent other))) state) ∧
            ((∃ a b, (call a).word hash ≠ (call b).word hash) →
              outcome = .error (.error (.grid (.inconsistent rank)))
                ((call rank).dst, (call rank).machine))) := by
  have makes (rank : Fin n) := (checked rank).made_makes hash
  refine ⟨fun rank behind => ?_, fun m after => ?_, fun ⟨first, hfirst⟩ => ?_⟩
  · obtain ⟨other, next, hother, hstep⟩ := run.exists_step_of_stages makes late (Nat.lt_succ_of_le behind)
    exact ⟨other, next, Nat.le_of_lt_succ hother, hstep⟩
  · have hcost := run.actions_le fun rank => (makes rank).bind fun made _ => after rank made.1 made.2
    omega
  · have gathered (rank : Fin n) (h : k < (history.returned rank).length) :
        ∃ words, (history.returned rank)[k]? = some (.ok words) := by
      obtain ⟨words, hwords⟩ := run.returned_ok late (Nat.lt_succ_self k) (List.getElem?_eq_getElem h)
      exact ⟨words, hwords ▸ List.getElem?_eq_getElem h⟩
    obtain ⟨firstWords, hfirstWords⟩ := gathered first hfirst
    choose word hword using World.exists_handed ((run.sound first).returned k firstWords hfirstWords)
    choose states came _ using fun other => comesTo_of_handed checked run (hword other)
    refine ⟨states, came, fun rank hrank => ?_⟩
    obtain ⟨words, hreturned⟩ := gathered rank hrank
    have hwords := words_of_comesTo checked run came hreturned
    obtain ⟨state, outcome, made⟩ := exists_hasMade checked run hrank
    obtain ⟨cameHere, _, result, hresult, hend⟩ := (checked rank).of_hasMade made
    cases cameHere.unique (came rank)
    cases hreturned.symm.trans hresult
    rw [((checked rank).call _ ((came rank).ends (.done _))).conclude_ok] at hend
    refine ⟨outcome, made, fun same => ?_, fun ⟨a, b, differ⟩ => ?_⟩
    · have agreed : words.all (· == ((programs rank).call (states rank)).word hash) = true := by
        rw [hwords, List.all_eq_true]
        intro word hmem
        obtain ⟨other, rfl⟩ := List.mem_ofFn.mp hmem
        exact beq_iff_eq.mpr (same other rank)
      rw [if_pos agreed] at hend
      exact ⟨hend, fun other state h => DistTensor.gridless_copyShare _ _ _ _ (hend.symm.trans h)⟩
    · have refused : ¬words.all (· == ((programs rank).call (states rank)).word hash) = true := by
        intro agreed
        have own (other : Fin n) : ((programs other).call (states other)).word hash =
            ((programs rank).call (states rank)).word hash := by
          refine beq_iff_eq.mp (List.all_eq_true.mp agreed _ ?_)
          rw [hwords]
          exact List.mem_ofFn.mpr ⟨other, rfl⟩
        exact differ ((own a).trans (own b).symm)
      rw [if_neg refused] at hend
      exact hend

end Runs

/-- Each of two ranks copies numbers over others, rank 0 on grids in a column and rank 1 on grids in a row. -/
def askew (rank : Fin 2) : CopyProgram Unit CopyOutcome where
  before := .done ()
  call _ := ⟨square rank (rank.val == 0), square rank (rank.val == 0), .initial⟩
  after _ outcome := .done outcome

private theorem exists_run_askew : ∃ moves world history,
    World.Run (fun rank => (askew rank).run fingerprint) moves world history ∧ world.LeavesAfter 1 ∧
      ∀ rank, 0 < (history.returned rank).length := by
  have run : World.Run (fun rank => (askew rank).run fingerprint) _ _ _ := .start
  have run := run.act 0 rfl |>.act 0 rfl |>.act 1 rfl |>.act 0 rfl |>.act 1 rfl |>.act 1 rfl
  have run := run.act 0 rfl |>.act 0 rfl |>.act 1 rfl |>.act 1 rfl
  exact ⟨_, _, _, run, run.leavesAfter (by simp), fun rank =>
    match rank with | 0 | 1 => Nat.zero_lt_one⟩

/-- Both ranks are told that they differ. -/
theorem same_verdict_of_checked_askew : ∃ moves world history,
    World.Run (fun rank => (askew rank).run fingerprint) moves world history ∧
      (∀ rank, (askew rank).IsChecked rank 0) ∧ world.LeavesAfter 1 ∧
      (∀ rank, 0 < (history.returned rank).length) ∧
      ((askew 0).call ()).word fingerprint ≠ ((askew 1).call ()).word fingerprint ∧
      ∀ rank, (askew rank).HasMade fingerprint history rank 0 ()
        (.error (.error (.grid (.inconsistent rank))) (square rank (rank.val == 0), .initial)) := by
  have checked (rank : Fin 2) : (askew rank).IsChecked rank 0 :=
    ⟨.done (), fun _ _ => ⟨rfl, match rank with | 0 | 1 => rfl⟩⟩
  have differ : ((askew 0).call ()).word fingerprint ≠ ((askew 1).call ()).word fingerprint := by decide
  obtain ⟨moves, world, history, run, late, returned⟩ := exists_run_askew
  obtain ⟨_, _, verdict⟩ := same_verdict_of_checked checked run late
  obtain ⟨states, _, made⟩ := verdict ⟨0, returned 0⟩
  refine ⟨moves, world, history, run, checked, late, returned, differ, fun rank => ?_⟩
  obtain ⟨outcome, hmade, _, refused⟩ := made rank (returned rank)
  exact refused ⟨0, 1, differ⟩ ▸ hmade

end CopyProgram

end ArrayEngine
