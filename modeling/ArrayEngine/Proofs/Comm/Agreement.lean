import ArrayEngine.Proofs.Comm.Run

/-! Every gathering that succeeds gives back the words that all members handed in to their gathering
of the same number. Nothing is asked of the schedule, and members may leave at any time. -/
namespace ArrayEngine

namespace World

variable {n : Nat} {α : Type} {history : History n} {rank other : Fin n}

private theorem getElem?_of_prefix {β : Type} {short long : List β} {index : Nat} {value : β}
    (h : short <+: long) (hv : short[index]? = some value) : long[index]? = some value := by
  obtain ⟨rest, rfl⟩ := h
  obtain ⟨hlt, _⟩ := List.getElem?_eq_some_iff.mp hv
  rw [List.getElem?_append_left hlt, hv]

private theorem map_some_of_mapM {β : Type} {options : List (Option β)} {values : List β}
    (h : options.mapM id = some values) : options = values.map some := by
  induction options generalizing values with
  | nil =>
    cases h
    rfl
  | cons option options ih =>
    simp only [List.mapM_cons, id_eq, Option.pure_def, Option.bind_eq_bind,
      Option.bind_eq_some_iff, Option.some.injEq] at h
    obtain ⟨value, rfl, rest, hrest, rfl⟩ := h
    rw [ih hrest, List.map_cons]

theorem toList_of_complete? {words : Vector (Option UInt64) n} {gathered : List UInt64}
    (h : complete? words = some gathered) : words.toList = gathered.map some :=
  map_some_of_mapM h

/-- A word that is noted was there before or came in a message of its member. -/
theorem of_note_eq_some {words : Vector (Option UInt64) n} {messages : List (Message n)}
    {value : UInt64} (h : (note words messages).get other = some value) :
    words.get other = some value ∨
      ∃ message ∈ messages, message.sender = other ∧ message.value = value := by
  induction messages generalizing words with
  | nil => exact .inl h
  | cons message messages ih =>
    rcases ih h with hset | ⟨later, hmem, hlater⟩
    · rw [get_set] at hset
      split at hset
      · next hs => exact .inr ⟨message, by simp, hs.symm, Option.some.inj hset⟩
      · exact .inl hset
    · exact .inr ⟨later, List.mem_cons_of_mem _ hmem, hlater⟩

theorem handed_add_self (history : History n) (rank : Fin n) (handed returned) :
    (history.add rank handed returned).handed rank = history.handed rank ++ handed.toList := by
  simp [History.add]

theorem returned_add_self (history : History n) (rank : Fin n) (handed returned) :
    (history.add rank handed returned).returned rank =
      history.returned rank ++ returned.toList := by
  simp [History.add]

theorem handed_add_of_ne (handed returned) (h : other ≠ rank) :
    (history.add rank handed returned).handed other = history.handed other := by
  simp [History.add, Function.update_of_ne h]

theorem returned_add_of_ne (handed returned) (h : other ≠ rank) :
    (history.add rank handed returned).returned other = history.returned other := by
  simp [History.add, Function.update_of_ne h]

theorem add_none (history : History n) (rank : Fin n) : history.add rank none none = history := by
  simp [History.add]

theorem handed_prefix_add (history : History n) (rank other : Fin n) (handed returned) :
    history.handed other <+: (history.add rank handed returned).handed other := by
  by_cases h : other = rank
  · subst h
    rw [handed_add_self]
    exact List.prefix_append _ _
  · exact ⟨[], by rw [handed_add_of_ne _ _ h, List.append_nil]⟩

end World

/-- Where a task is in its program, and what the words it has are. -/
def Task.Sound {n : Nat} {α : Type} (program : Collective α) (history : World.History n)
    (rank : Fin n) : Task n α → Prop
  | .running rest => program.Follows (history.handed rank) (history.returned rank) rest
  | .sending value _ resume => ∃ before, history.handed rank = before ++ [value] ∧
      program.Follows before (history.returned rank) (.gather value resume)
  | .receiving words resume => ∃ before value, history.handed rank = before ++ [value] ∧
      program.Follows before (history.returned rank) (.gather value resume) ∧
      ∀ (peer : Fin n) word, words.get peer = some word →
        (history.handed peer)[before.length]? = some word

/-- Every message in the hands of a member is what its sender handed in for its round, and every
gathering that the member has ended with success had the words of its round. -/
structure Member.Sound {n : Nat} {α : Type} (program : Collective α) (history : World.History n)
    (rank : Fin n) (member : Member n α) : Prop where
  rounds : (history.handed rank).length = member.rounds
  heard : ∀ message, message ∈ member.inbox ∨ message ∈ member.parked →
    (history.handed message.sender)[message.round]? = some message.value
  returned : ∀ (round : Nat) (words : List UInt64),
    (history.returned rank)[round]? = some (.ok words) →
    words.map some = List.ofFn fun other => (history.handed other)[round]?
  task : member.task.Sound program history rank

/-- The words that a member handed in are those of its program, with the results it was given back. -/
theorem Member.Sound.follows_returned {n : Nat} {α : Type} {program : Collective α}
    {history : World.History n} {rank : Fin n} {member : Member n α}
    (sound : member.Sound program history rank) :
    ∃ results rest, program.Follows (history.handed rank) results rest ∧
      history.returned rank <+: results := by
  have htask := sound.task
  cases ht : member.task with
  | running rest =>
    rw [ht] at htask
    exact ⟨_, rest, htask, List.prefix_rfl⟩
  | sending value peers resume =>
    rw [ht] at htask
    obtain ⟨before, hhanded, hfollows⟩ := htask
    rw [hhanded]
    exact ⟨_, _, hfollows.next (.ok []), List.prefix_append _ _⟩
  | receiving words resume =>
    rw [ht] at htask
    obtain ⟨before, value, hhanded, hfollows, _⟩ := htask
    rw [hhanded]
    exact ⟨_, _, hfollows.next (.ok []), List.prefix_append _ _⟩

/-- The words that a member handed in are those of its program. -/
theorem Member.Sound.follows {n : Nat} {α : Type} {program : Collective α}
    {history : World.History n} {rank : Fin n} {member : Member n α}
    (sound : member.Sound program history rank) :
    ∃ results rest, program.Follows (history.handed rank) results rest := by
  obtain ⟨results, rest, hfollows, _⟩ := sound.follows_returned
  exact ⟨results, rest, hfollows⟩

namespace World

/-- Every member is sound. -/
def Sound {n : Nat} {α : Type} (programs : Fin n → Collective α) (history : History n)
    (world : World n α) : Prop :=
  ∀ rank : Fin n, (world.member rank).Sound (programs rank) history rank

variable {n : Nat} {α : Type} {program : Collective α} {programs : Fin n → Collective α}
  {history : History n} {rank other : Fin n} {member : Member n α}

/-- What a member was given for a round, all members handed in. -/
theorem exists_handed {words : List UInt64} {round : Nat}
    (h : words.map some = List.ofFn fun other => (history.handed other)[round]?) (other : Fin n) :
    ∃ word, (history.handed other)[round]? = some word := by
  have hmem : (history.handed other)[round]? ∈ words.map some := by
    rw [h]
    exact List.mem_ofFn.mpr ⟨other, rfl⟩
  obtain ⟨word, _, hword⟩ := List.mem_map.mp hmem
  exact ⟨word, hword.symm⟩

private theorem words_of_prefix {later : History n} {words : List UInt64} {round : Nat}
    (grow : ∀ other, history.handed other <+: later.handed other)
    (h : words.map some = List.ofFn fun other => (history.handed other)[round]?) :
    words.map some = List.ofFn fun other => (later.handed other)[round]? := by
  rw [h]
  congr 1
  funext other
  obtain ⟨word, hword⟩ := exists_handed h other
  rw [hword, getElem?_of_prefix (grow other) hword]

/-- What others do leaves a member sound. -/
private theorem sound_add_other (sound : member.Sound program history other) (handed returned)
    (h : other ≠ rank) : member.Sound program (history.add rank handed returned) other := by
  have grow := fun peer => handed_prefix_add history rank peer handed returned
  refine ⟨?_, ?_, ?_, ?_⟩
  · rw [handed_add_of_ne _ _ h, sound.rounds]
  · intro message hmem
    exact getElem?_of_prefix (grow _) (sound.heard message hmem)
  · intro round words hw
    rw [returned_add_of_ne _ _ h] at hw
    exact words_of_prefix grow (sound.returned round words hw)
  · have htask := sound.task
    revert htask
    cases member.task with
    | running rest =>
      simp only [Task.Sound, handed_add_of_ne _ _ h, returned_add_of_ne _ _ h]
      exact id
    | sending value peers resume =>
      simp only [Task.Sound, handed_add_of_ne _ _ h, returned_add_of_ne _ _ h]
      exact id
    | receiving words resume =>
      simp only [Task.Sound, handed_add_of_ne _ _ h, returned_add_of_ne _ _ h]
      rintro ⟨before, value, hhanded, hfollows, hwords⟩
      exact ⟨before, value, hhanded, hfollows,
        fun peer word hword => getElem?_of_prefix (grow peer) (hwords peer word hword)⟩

private theorem sound_add_self (sound : member.Sound program history rank)
    {handed : Option UInt64} {returned : Option (Except GridError (List UInt64))}
    {next : Member n α} (rounds : next.rounds = member.rounds + handed.toList.length)
    (heard : ∀ message, message ∈ next.inbox ∨ message ∈ next.parked →
      message ∈ member.inbox ∨ message ∈ member.parked)
    (answer : ∀ words, returned = some (.ok words) →
      words.map some = List.ofFn fun other =>
        (history.handed other)[(history.returned rank).length]?)
    (task : next.task.Sound program (history.add rank handed returned) rank) :
    next.Sound program (history.add rank handed returned) rank := by
  have grow := fun peer => handed_prefix_add history rank peer handed returned
  refine ⟨?_, ?_, ?_, task⟩
  · rw [handed_add_self, List.length_append, sound.rounds, rounds]
  · intro message hmem
    exact getElem?_of_prefix (grow _) (sound.heard message (heard message hmem))
  · intro round words hw
    apply words_of_prefix grow
    rw [returned_add_self] at hw
    by_cases hlt : round < (history.returned rank).length
    · rw [List.getElem?_append_left hlt] at hw
      exact sound.returned round words hw
    · rw [List.getElem?_append_right (by omega)] at hw
      cases returned with
      | none => simp at hw
      | some result =>
        obtain ⟨hzero, hresult⟩ := List.getElem?_eq_some_iff.mp hw
        have hround : round = (history.returned rank).length := by
          simp only [Option.toList_some, List.length_singleton] at hzero
          omega
        subst hround
        exact answer words (by simpa using hresult)

/-- A gathering that is complete has the words of its round. -/
private theorem gathered_eq {before : List UInt64} {words : Vector (Option UInt64) n}
    {gathered : List UInt64} (complete : complete? words = some gathered)
    (h : ∀ (peer : Fin n) word, words.get peer = some word →
      (history.handed peer)[before.length]? = some word) :
    gathered.map some = List.ofFn fun other => (history.handed other)[before.length]? := by
  have hall := toList_of_complete? complete
  apply List.ext_getElem?
  intro index
  rw [← hall, List.getElem?_ofFn]
  by_cases hlt : index < n
  · rw [dif_pos hlt, Vector.getElem?_toList, Vector.getElem?_eq_getElem hlt]
    have hmem : words[index] ∈ gathered.map some := by
      rw [← hall, Vector.mem_toList_iff]
      exact Vector.getElem_mem hlt
    obtain ⟨word, _, hword⟩ := List.mem_map.mp hmem
    rw [← hword, h ⟨index, hlt⟩ word hword.symm]
  · rw [dif_neg hlt, Vector.getElem?_toList, Vector.getElem?_eq_none (by omega)]

private theorem sound_set {world : World n α} (sound : world.Sound programs history)
    {handed : Option UInt64} {returned : Option (Except GridError (List UInt64))}
    (h : member.Sound (programs rank) (history.add rank handed returned) rank) :
    (world.set rank member).Sound programs (history.add rank handed returned) := by
  intro other
  by_cases he : other = rank
  · subst he
    rwa [members_set_self]
  · rw [members_set_of_ne _ _ he]
    exact sound_add_other (sound other) handed returned he

private theorem sound_set_same {world : World n α} (sound : world.Sound programs history)
    (h : member.Sound (programs rank) history rank) : (world.set rank member).Sound programs history := by
  intro other
  by_cases he : other = rank
  · subst he
    rwa [members_set_self]
  · rw [members_set_of_ne _ _ he]
    exact sound other

/-- A message that its sender handed in may go to any inbox. -/
private theorem sound_post {world : World n α} (sound : world.Sound programs history)
    {peer : Fin n} {message : Message n}
    (h : (history.handed message.sender)[message.round]? = some message.value) :
    (world.post peer message).Sound programs history := by
  intro other
  rw [members_post]
  split
  · next he =>
    subst he
    have hs := sound other
    refine ⟨hs.rounds, ?_, hs.returned, hs.task⟩
    intro heard hmem
    simp only [List.mem_append, List.mem_singleton] at hmem
    rcases hmem with (hold | rfl) | hparked
    · exact hs.heard heard (.inl hold)
    · exact h
    · exact hs.heard heard (.inr hparked)
  · exact sound other

/-- The words after noting those of messages for their round. -/
private theorem noted_handed {words : Vector (Option UInt64) n} {messages : List (Message n)}
    {round : Nat} (old : ∀ (peer : Fin n) word, words.get peer = some word →
      (history.handed peer)[round]? = some word)
    (due : ∀ message ∈ messages, message.round = round ∧
      (history.handed message.sender)[message.round]? = some message.value)
    (peer : Fin n) (word : UInt64) (h : (note words messages).get peer = some word) :
    (history.handed peer)[round]? = some word := by
  rcases of_note_eq_some h with hold | ⟨message, hmem, rfl, rfl⟩
  · exact old peer word hold
  · obtain ⟨rfl, hvalue⟩ := due message hmem
    exact hvalue

/-- The words that a member begins to receive with: its own one, and those of messages for its round. -/
private theorem collected_handed {before : List UInt64} {value : UInt64} {messages : List (Message n)}
    (hhanded : history.handed rank = before ++ [value])
    (due : ∀ message ∈ messages, message.round = before.length ∧
      (history.handed message.sender)[message.round]? = some message.value)
    (peer : Fin n) (word : UInt64)
    (h : (note ((Vector.replicate n none).set rank (some value) rank.isLt) messages).get peer = some word) :
    (history.handed peer)[before.length]? = some word := by
  refine noted_handed (fun other old hold => ?_) due peer word h
  rw [get_set] at hold
  split at hold
  · next he => rw [he, hhanded, ← hold, List.getElem?_concat_length]
  · cases (Vector.getElem_replicate other.isLt).symm.trans hold

/-- A member in a gathering handed in the word of its round last. -/
private theorem last_round (sound : member.Sound program history rank) {before : List UInt64} {value : UInt64}
    (hhanded : history.handed rank = before ++ [value]) : member.rounds - 1 = before.length := by
  rw [← sound.rounds, hhanded, List.length_append, List.length_singleton, Nat.add_sub_cancel]

private theorem sound_of_action {world next : World n α} {handed : Option UInt64}
    {returned : Option (Except GridError (List UInt64))}
    (action : Action world rank handed returned next) (sound : world.Sound programs history) :
    next.Sound programs (history.add rank handed returned) := by
  have hs := sound rank
  have htask := hs.task
  cases action with
  | begin value resume task =>
    rw [task] at htask
    apply sound_set sound
    refine sound_add_self hs (by rfl) (by exact fun _ h => h) (by nofun) ?_
    refine ⟨history.handed rank, by rw [handed_add_self]; rfl, ?_⟩
    simpa [returned_add_self, Task.Sound] using htask
  | send value peer rest resume task present =>
    rw [task] at htask
    obtain ⟨before, hhanded, hfollows⟩ := htask
    rw [add_none]
    apply sound_post
    · apply sound_set_same sound
      exact ⟨hs.rounds, hs.heard, hs.returned, before, hhanded, hfollows⟩
    · simp only [last_round hs hhanded, hhanded, List.getElem?_concat_length]
  | refuse value peer rest resume task absent =>
    rw [task] at htask
    obtain ⟨before, hhanded, hfollows⟩ := htask
    apply sound_set sound
    refine sound_add_self hs (by rfl) (by exact fun _ h => h) (by simp) ?_
    change Collective.Follows _ _ _ _
    rw [handed_add_self, returned_add_self, hhanded, Option.toList_none, List.append_nil]
    exact hfollows.next _
  | collect value resume task =>
    rw [task] at htask
    obtain ⟨before, hhanded, hfollows⟩ := htask
    rw [add_none]
    apply sound_set_same sound
    refine ⟨hs.rounds, ?_, hs.returned, before, value, hhanded, hfollows, ?_⟩
    · rintro message (h | h)
      · exact hs.heard message (.inl h)
      · exact hs.heard message (.inr (List.mem_filter.mp h).1)
    · apply collected_handed hhanded
      intro message hmem
      obtain ⟨hparked, hdue⟩ := List.mem_filter.mp hmem
      exact ⟨by rw [← last_round hs hhanded]; simpa using hdue, hs.heard message (.inr hparked)⟩
  | finish words gathered resume task complete =>
    rw [task] at htask
    obtain ⟨before, value, hhanded, hfollows, hwords⟩ := htask
    apply sound_set sound
    refine sound_add_self hs rfl (fun _ h => h) ?_ ?_
    · intro answer hanswer
      cases hanswer
      rw [← hfollows.length]
      exact gathered_eq complete hwords
    · change Collective.Follows _ _ _ _
      rw [handed_add_self, returned_add_self, hhanded, Option.toList_none, List.append_nil]
      exact hfollows.next _
  | hear words message inbox resume task first due =>
    rw [task] at htask
    obtain ⟨before, value, hhanded, hfollows, hwords⟩ := htask
    have hheard := hs.heard message (.inl (by rw [first]; exact List.mem_cons_self))
    rw [add_none]
    apply sound_set_same sound
    refine ⟨hs.rounds, ?_, hs.returned, before, value, hhanded, hfollows, ?_⟩
    · rintro other (h | h)
      · exact hs.heard other (.inl (by rw [first]; exact List.mem_cons_of_mem _ h))
      · exact hs.heard other (.inr h)
    · apply noted_handed hwords
      intro other hmem
      cases List.mem_singleton.mp hmem
      exact ⟨due.trans (last_round hs hhanded), hheard⟩
  | park words message inbox resume task first early =>
    rw [add_none]
    apply sound_set_same sound
    refine ⟨hs.rounds, ?_, hs.returned, htask⟩
    intro other h
    apply hs.heard
    rw [first]
    simp only [List.mem_append, List.mem_singleton] at h
    rcases h with h | h | rfl
    · exact .inl (List.mem_cons_of_mem _ h)
    · exact .inr h
    · exact .inl List.mem_cons_self

/-- In every run every member is sound. -/
theorem Run.sound {moves : List (Move n)} {world : World n α}
    (run : Run programs moves world history) : world.Sound programs history := by
  induction run with
  | start =>
    intro rank
    rw [members_start]
    exact ⟨rfl, by simp, by simp [History.empty], .start⟩
  | act rank _ hstep ih => exact sound_of_action (action_of_step hstep) ih
  | leave rank _ ih =>
    intro other
    rw [World.leave, members_set]
    split
    · next he =>
      subst he
      exact ⟨(ih other).rounds, (ih other).heard, (ih other).returned, (ih other).task⟩
    · exact ih other

end World

end ArrayEngine
