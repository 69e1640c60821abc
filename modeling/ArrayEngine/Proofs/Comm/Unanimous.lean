import ArrayEngine.Proofs.Comm.Progress

/-! Members that hand in the same words. Each of them ends as if it were given back its own word from all
the others. -/
namespace ArrayEngine

namespace Collective

variable {n : Nat} {α : Type}

/-- What a gathering of `n` members gives back that all hand in the same word. -/
def unanimous (n : Nat) (word : UInt64) : Except GridError (List UInt64) := .ok (List.replicate n word)

/-- If each gathering is unanimous, the program hands in the first of some words, leaves the others, and
ends in a result. -/
inductive Settles (n : Nat) : Collective α → List UInt64 → List UInt64 → α → Prop
  | done (result : α) (words : List UInt64) : Settles n (.done result) words words result
  | gather {word resume words left result} :
      Settles n (resume (unanimous n word)) words left result →
      Settles n (.gather word resume) (word :: words) left result

/-- A program that was given back its own words so far goes on with the others. -/
theorem Settles.follows {program rest : Collective α} {words left handed : List UInt64} {results}
    {result : α} (h : program.Settles n words left result)
    (follows : program.Follows handed results rest) (same : results <+: words.map (unanimous n)) :
    ∃ next, words = handed ++ next ∧ rest.Settles n next left result := by
  induction follows with
  | start => exact ⟨words, rfl, h⟩
  | @next handed results value resume last follows ih =>
    obtain ⟨next, hwords, hrest⟩ := ih ((List.prefix_append _ _).trans same)
    cases hrest with
    | @gather _ _ next _ _ hrest =>
      refine ⟨next, by rw [hwords, List.append_assoc, List.singleton_append], ?_⟩
      have hlast : (words.map (unanimous n))[results.length]? = some last := by
        obtain ⟨more, hmore⟩ := same
        rw [← hmore]
        simp
      rw [hwords, ← follows.length] at hlast
      simp only [List.map_append, List.map_cons] at hlast
      rw [List.getElem?_append_right (by simp)] at hlast
      simp only [List.length_map, Nat.sub_self, List.getElem?_cons_zero, Option.some.injEq] at hlast
      rw [← hlast]
      exact hrest

end Collective

private theorem concat_prefix {β : Type} {short long : List β} {value : β} (h : short <+: long)
    (hv : long[short.length]? = some value) : short ++ [value] <+: long := by
  obtain ⟨rest, rfl⟩ := h
  rcases rest with _ | ⟨first, rest⟩
  · simp at hv
  · have hfirst : first = value := by simpa using hv
    exact ⟨rest, by simp [hfirst]⟩

namespace World

variable {n : Nat} {α : Type} {programs : Fin n → Collective α} {history : History n}
  {world : World n α} {moves : List (Move n)} {words : List UInt64} {left : Fin n → List UInt64}
  {results : Fin n → α} {rank : Fin n}

/-- A member that was given back its own words so far has handed in the first of all words. -/
private theorem handed_prefix_of_settles {member : Member n α} {program : Collective α}
    {unused : List UInt64} {result : α} (sound : member.Sound program history rank)
    (h : program.Settles n words unused result)
    (same : history.returned rank <+: words.map (Collective.unanimous n)) :
    history.handed rank <+: words := by
  have opened {before : List UInt64} {value resume}
      (hfollows : program.Follows before (history.returned rank) (.gather value resume)) :
      before ++ [value] <+: words := by
    obtain ⟨_, hwords, hrest⟩ := h.follows hfollows same
    cases hrest with
    | @gather _ _ next _ _ _ => exact ⟨next, by rw [hwords, List.append_assoc, List.singleton_append]⟩
  have htask := sound.task
  cases task : member.task with
  | running rest =>
    rw [task] at htask
    obtain ⟨next, hwords, _⟩ := h.follows htask same
    exact ⟨next, hwords.symm⟩
  | sending value peers resume =>
    rw [task] at htask
    obtain ⟨before, hhanded, hfollows⟩ := htask
    exact hhanded ▸ opened hfollows
  | receiving got resume =>
    rw [task] at htask
    obtain ⟨before, value, hhanded, hfollows, _⟩ := htask
    exact hhanded ▸ opened hfollows

/-- What was gathered in a round is the word of that round from everyone. -/
private theorem gathered_eq_replicate {gathered : List UInt64} {round : Nat} (rank : Fin n)
    (handed : ∀ other, history.handed other <+: words)
    (h : gathered.map some = List.ofFn fun other => (history.handed other)[round]?) :
    ∃ word, words[round]? = some word ∧ gathered = List.replicate n word := by
  have each (other : Fin n) : ∃ word, (history.handed other)[round]? = some word ∧
      words[round]? = some word := by
    obtain ⟨word, hword⟩ := exists_handed h other
    obtain ⟨rest, hrest⟩ := handed other
    obtain ⟨hlt, _⟩ := List.getElem?_eq_some_iff.mp hword
    exact ⟨word, hword, by rw [← hrest, List.getElem?_append_left hlt, hword]⟩
  obtain ⟨word, _, hword⟩ := each rank
  refine ⟨word, hword, ?_⟩
  have hsame : (fun other => (history.handed other)[round]?) = fun _ : Fin n => some word := by
    funext other
    obtain ⟨found, hfound, hthere⟩ := each other
    rw [hfound, ← hthere, hword]
  rw [hsame, List.ofFn_const, ← List.map_replicate] at h
  exact (List.map_inj_right fun _ _ => Option.some.inj).mp h

/-- While no member leaves, members that all hand in the same words are given back those. -/
theorem Run.unanimous (run : Run programs moves world history)
    (stay : ∀ rank, Move.leave rank ∉ moves)
    (settles : ∀ rank, (programs rank).Settles n words (left rank) (results rank)) (rank : Fin n) :
    history.returned rank <+: words.map (Collective.unanimous n) := by
  induction run generalizing rank with
  | start => exact List.nil_prefix
  | leave other _ _ => exact absurd (by simp) (stay other)
  | @act moves world history next actor run hstep ih =>
    have stayed (other : Fin n) : Move.leave other ∉ moves :=
      fun hmem => stay other (List.mem_append_left _ hmem)
    have agreed := fun other => ih stayed other
    by_cases hrank : rank = actor
    · subst hrank
      have action := action_of_step hstep
      have hnext := (run.act rank hstep).sound rank
      generalize world.handing? rank = handed at action hnext ⊢
      generalize world.returning? rank = returned at action hnext ⊢
      rw [returned_add_self]
      cases action with
      | refuse value peer rest resume task absent =>
        have hpresent := run.isPresent stayed peer
        rw [absent] at hpresent
        cases hpresent
      | finish got gathered resume task complete =>
        have hwords := hnext.returned (history.returned rank).length gathered (by
          rw [returned_add_self]
          simp)
        simp only [History.add, Option.toList_none, List.append_nil, Function.update_eq_self] at hwords
        obtain ⟨word, hword, rfl⟩ := gathered_eq_replicate rank
          (fun other => handed_prefix_of_settles (run.sound other) (settles other) (agreed other)) hwords
        refine concat_prefix (agreed rank) ?_
        rw [List.getElem?_map, hword]
        rfl
      | begin => simpa using agreed rank
      | send => simpa using agreed rank
      | collect => simpa using agreed rank
      | hear => simpa using agreed rank
      | park => simpa using agreed rank
    · rw [returned_add_of_ne _ _ hrank]
      exact agreed rank

/-- While no member leaves, members that all hand in the same words end as they settle. -/
theorem Run.result_of_settles (run : Run programs moves world history)
    (stay : ∀ rank, Move.leave rank ∉ moves)
    (settles : ∀ rank, (programs rank).Settles n words (left rank) (results rank)) {result : α}
    (h : world.result? rank = some result) : result = results rank := by
  have task : (world.member rank).task = .running (.done result) := by
    rw [result?] at h
    split at h
    · next task =>
      cases h
      exact task
    · cases h
  have hfollows := (run.sound rank).task
  rw [task] at hfollows
  obtain ⟨_, _, hrest⟩ := (settles rank).follows hfollows (run.unanimous stay settles rank)
  cases hrest
  rfl

/-- While no member leaves, members that hand in the same words and leave none of them keep a world paced. -/
theorem Run.paced_of_settles (run : Run programs moves world history)
    (stay : ∀ rank, Move.leave rank ∉ moves)
    (settles : ∀ rank, (programs rank).Settles n words [] (results rank)) : world.Paced words.length := by
  refine paced_of_follows run.sound ?_
  intro rank handed rest hfollows
  obtain ⟨next, hwords, hrest⟩ :=
    (settles rank).follows hfollows (run.unanimous stay settles rank)
  rw [hwords, List.length_append]
  cases hrest with
  | done result => exact (Nat.add_zero _).symm
  | gather _ => exact Nat.lt_add_of_pos_right (Nat.zero_lt_succ _)

end World

end ArrayEngine
