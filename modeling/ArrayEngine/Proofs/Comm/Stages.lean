import ArrayEngine.Proofs.Comm.Progress

/-! Programs that come to a result after so many gatherings and then go on. Every gathering belongs to what a
member does before it has the result or to what it does after, and the members do not wait for each other across. -/
namespace ArrayEngine

namespace Collective

variable {α β γ : Type} {program : Collective α} {next : α → Collective β} {rest : Collective β}
  {words : List UInt64} {results : List (Except GridError (List UInt64))} {count : Nat}

theorem bind_assoc (program : Collective α) (next : α → Collective β) (last : β → Collective γ) :
    (program >>= next) >>= last = program >>= fun a => next a >>= last := by
  induction program with
  | done a => rfl
  | gather value resume ih => exact congrArg (gather value) (funext ih)

/-- What a program has come to follows from what it was given back. -/
theorem Follows.unique {other : Collective α} {first : Collective α} {known : List UInt64}
    (h : program.Follows words results first) (h' : program.Follows known results other) : first = other := by
  generalize hresults : results = given at h'
  induction h generalizing other known given with
  | start =>
    cases h' with
    | start => rfl
    | next => simp at hresults
  | next result _ ih =>
    cases h' with
    | start => simp at hresults
    | next last hlast =>
      obtain ⟨hinit, hlast'⟩ := List.append_inj' hresults rfl
      cases hlast'
      cases ih _ hinit hlast
      rfl

/-- A program hands in a word, if it is given back some results. -/
def Hands (program : Collective α) (word : UInt64) : Prop :=
  ∃ words results rest, program.Follows words results rest ∧ word ∈ words

/-- A program that has ended goes nowhere. -/
theorem Follows.of_done {a : α} {rest : Collective α} (h : (Collective.done a).Follows words results rest) :
    words = [] ∧ results = [] ∧ rest = .done a := by
  induction h with
  | start => exact ⟨rfl, rfl, rfl⟩
  | next result _ ih => cases ih.2.2

/-- The first word that a program hands in is that of its next gathering. -/
theorem Follows.of_gather {value : UInt64} {resume : Except GridError (List UInt64) → Collective α}
    {rest : Collective α} (h : (Collective.gather value resume).Follows words results rest) :
    words = [] ∧ results = [] ∧ rest = .gather value resume ∨
      ∃ gathered more given, words = value :: more ∧ results = gathered :: given ∧
        (resume gathered).Follows more given rest := by
  induction h with
  | start => exact .inl ⟨rfl, rfl, rfl⟩
  | next result _ ih =>
    obtain ⟨rfl, rfl, hrest⟩ | ⟨gathered, more, given, rfl, rfl, hmore⟩ := ih
    · cases hrest
      exact .inr ⟨result, [], [], rfl, rfl, .start⟩
    · exact .inr ⟨gathered, _, _, rfl, rfl, hmore.next result⟩

/-- A program that goes on after another one is in the first of them, or the first has come to a result. -/
theorem Follows.of_bind (h : (program >>= next).Follows words results rest) :
    (∃ left, program.Follows words results left ∧ rest = left >>= next) ∨
      ∃ before after given more a, words = before ++ after ∧ results = given ++ more ∧
        program.Follows before given (.done a) ∧ (next a).Follows after more rest := by
  induction h with
  | start => exact .inl ⟨program, .start, rfl⟩
  | @next words results value resume result _ ih =>
    obtain ⟨left, hleft, hrest⟩ | ⟨before, after, given, more, a, rfl, rfl, hbefore, hafter⟩ := ih
    · cases left with
      | gather word resume =>
        cases hrest
        exact .inl ⟨_, hleft.next result, rfl⟩
      | done a =>
        refine .inr ⟨words, [value], results, [result], a, rfl, rfl, hleft, ?_⟩
        change Follows (Collective.done a >>= next) _ _ _
        rw [← hrest]
        exact Follows.start.next result
    · exact .inr ⟨before, after ++ [value], given, more ++ [result], a, List.append_assoc _ _ _,
        List.append_assoc _ _ _, hbefore, hafter.next result⟩

/-- The first of two programs makes so many gatherings: until then a program is in it, and from then on its
result is known. -/
theorem Follows.of_bind_makes (makes : program.Makes count)
    (h : (program >>= next).Follows words results rest) :
    (words.length < count ∧ ∃ value resume, program.Follows words results (.gather value resume) ∧
      rest = .gather value fun gathered => resume gathered >>= next) ∨
    count ≤ words.length ∧ ∃ a, program.Follows (words.take count) (results.take count) (.done a) ∧
      (next a).Follows (words.drop count) (results.drop count) rest := by
  obtain ⟨left, hleft, hrest⟩ | ⟨before, after, given, more, a, rfl, rfl, hbefore, hafter⟩ := h.of_bind
  · obtain ⟨some, hsome, hsum⟩ := hleft.makes makes
    have hlength := hleft.length
    cases hsome with
    | done a =>
      refine .inr ⟨by omega, a, ?_, ?_⟩
      · rwa [List.take_of_length_le (by omega), List.take_of_length_le (by omega)]
      · rw [hrest, List.drop_of_length_le (by omega), List.drop_of_length_le (by omega)]
        exact .start
    | gather value _ => exact .inl ⟨by omega, _, _, hleft, hrest⟩
  · obtain ⟨some, hsome, hsum⟩ := hbefore.makes makes
    have hlength := hbefore.length
    cases hsome
    refine .inr ⟨by rw [List.length_append]; omega, a, ?_, ?_⟩
    · rwa [List.take_left' (by omega), List.take_left' (by omega)]
    · rwa [List.drop_left' (by omega), List.drop_left' (by omega)]

end Collective

namespace World

variable {n : Nat} {α β : Type} {stages : Fin n → Collective α} {after : Fin n → α → Collective β}
  {history : History n} {world : World n β} {moves : List (Move n)} {rank peer : Fin n}
  {count round : Nat} {word : UInt64}

/-- A member has received a word from a peer, in a gathering that it is done with or in the one it is in. -/
def Received (world : World n α) (history : History n) (rank peer : Fin n) (round : Nat) (word : UInt64) :
    Prop :=
  (∃ words, (history.returned rank)[round]? = some (.ok words) ∧ words[peer.val]? = some word) ∨
    ∃ words resume, (world.member rank).task = .receiving words resume ∧
      round + 1 = (world.member rank).rounds ∧ words.get peer = some word

/-- What a member has received, its peer has handed in for the gathering of the same number. -/
theorem Run.handed_of_received {programs : Fin n → Collective β} (run : Run programs moves world history)
    (received : world.Received history rank peer round word) :
    (history.handed peer)[round]? = some word := by
  have sound := run.sound rank
  rcases received with ⟨words, hreturned, hword⟩ | ⟨words, resume, task, hround, hword⟩
  · have hwords := congrArg (·[peer.val]?) (sound.returned round words hreturned)
    simpa [List.getElem?_map, hword] using hwords.symm
  · have htask := sound.task
    rw [task] at htask
    obtain ⟨before, value, hhanded, _, heard⟩ := htask
    have hlength := sound.rounds
    rw [hhanded, List.length_append, List.length_singleton] at hlength
    have := heard peer word hword
    rwa [show before.length = round by omega] at this

/-- A member that hands in a word is done with all earlier gatherings. -/
theorem Run.le_returned_of_handed {programs : Fin n → Collective β}
    (run : Run programs moves world history) (h : (history.handed rank)[round]? = some word) :
    round ≤ (history.returned rank).length := by
  obtain ⟨hlt, _⟩ := List.getElem?_eq_some_iff.mp h
  have sound := run.sound rank
  have hle := (world.member rank).rounds_le
  rw [← sound.rounds, sound.ended_eq] at hle
  omega

section Stages

variable (makes : ∀ rank, (stages rank).Makes count)
  (run : Run (fun rank => stages rank >>= after rank) moves world history)

include makes run

/-- A member that is done with the gatherings of its first program knows the result, and goes on. -/
theorem Run.exists_done (h : count ≤ (history.returned rank).length) :
    ∃ a, (stages rank).Follows ((history.handed rank).take count) ((history.returned rank).take count)
        (.done a) ∧ ∃ results rest,
      (after rank a).Follows ((history.handed rank).drop count) results rest := by
  obtain ⟨results, rest, hfollows, given, hgiven⟩ := (run.sound rank).follows_returned
  have hlength := congrArg List.length hgiven
  rw [List.length_append, ← hfollows.length] at hlength
  obtain ⟨hlt, _⟩ | ⟨_, a, hdone, hafter⟩ := hfollows.of_bind_makes (makes rank)
  · omega
  · rw [← hgiven, List.take_append_of_le_length h] at hdone
    exact ⟨a, hdone, _, rest, hafter⟩

/-- What is received in a gathering after those of the first programs, the peer has handed in after its own. -/
theorem Run.hands_of_received (received : world.Received history rank peer round word)
    (h : count ≤ round) : ∃ a, (stages peer).Follows ((history.handed peer).take count)
      ((history.returned peer).take count) (.done a) ∧ (after peer a).Hands word := by
  have hword := run.handed_of_received received
  obtain ⟨a, hdone, results, rest, hafter⟩ :=
    run.exists_done makes (Nat.le_trans h (run.le_returned_of_handed hword))
  refine ⟨a, hdone, _, results, rest, hafter, List.mem_of_getElem? (i := round - count) ?_⟩
  rw [List.getElem?_drop, Nat.add_sub_cancel' h, hword]

/-- Members do not get stuck in their first programs, if they all make equally many gatherings in these and
none leaves before it is done with its own. -/
theorem Run.exists_step_of_stages (late : world.LeavesAfter count)
    (behind : (history.returned rank).length < count) :
    ∃ other next, (history.returned other).length < count ∧ world.step other = some next := by
  have hended (other : Fin n) : (world.member other).ended = (history.returned other).length :=
    (run.sound other).ended_eq
  simp only [← hended] at behind ⊢
  refine run.exists_step_below late (fun other result task => ?_) behind
  have hfollows := (run.sound other).task
  rw [task] at hfollows
  rw [← (run.sound other).rounds]
  obtain ⟨_, value, resume, _, hrest⟩ | ⟨hle, _⟩ :=
    Collective.Follows.of_bind_makes (makes other) hfollows
  · cases hrest
  · exact hle

end Stages

end World

end ArrayEngine
