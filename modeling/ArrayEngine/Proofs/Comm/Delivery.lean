import ArrayEngine.Proofs.Comm.Agreement

/-! Words are never lost, and none is received that was not sent. This holds for the gatherings that every
member which leaves is done with before, and for all of them while no member leaves. -/
namespace ArrayEngine

namespace Member

variable {n : Nat} {α : Type}

/-- The number of gatherings that a member is done with. -/
def ended (member : Member n α) : Nat :=
  match member.task with
  | .running _ => member.rounds
  | _ => member.rounds - 1

/-- A member has sent its word of a round to a peer. -/
def HasSent (member : Member n α) (peer : Fin n) (round : Nat) : Prop :=
  round < member.rounds ∧ ∀ value rest resume, member.task = .sending value rest resume →
    peer ∈ rest → round + 1 ≠ member.rounds

/-- A member has received the word of a peer for a round, or needs it no more. -/
def HasGot (member : Member n α) (peer : Fin n) (round : Nat) : Prop :=
  (∃ message, (message ∈ member.inbox ∨ message ∈ member.parked) ∧
    message.sender = peer ∧ message.round = round) ∨
  round < member.ended ∨
  ∃ words resume, member.task = .receiving words resume ∧ round + 1 = member.rounds ∧
    words.get peer ≠ none

/-- A member that has left is done with so many gatherings. One that sends does so once to each peer, and
one that waits has its own word and none for its round among the early ones. -/
structure Tidy (limit : Nat) (rank : Fin n) (member : Member n α) : Prop where
  late : member.isPresent = false → limit ≤ member.ended
  once : ∀ value rest resume, member.task = .sending value rest resume → (rank :: rest).Nodup
  own : ∀ words resume, member.task = .receiving words resume → words.get rank ≠ none
  early : ∀ words resume, member.task = .receiving words resume →
    ∀ message ∈ member.parked, message.round + 1 ≠ member.rounds

theorem ended_le (member : Member n α) : member.ended ≤ member.rounds := by
  rw [ended]
  split <;> omega

theorem rounds_le (member : Member n α) : member.rounds ≤ member.ended + 1 := by
  rw [ended]
  split <;> omega

/-- A member has been given back a result of each gathering that it is done with. -/
theorem Sound.ended_eq {program : Collective α} {history : World.History n} {rank : Fin n}
    {member : Member n α} (sound : member.Sound program history rank) :
    member.ended = (history.returned rank).length := by
  have htask := sound.task
  rw [ended, ← sound.rounds]
  cases ht : member.task with
  | running rest =>
    rw [ht] at htask
    exact htask.length
  | sending value peers resume =>
    rw [ht] at htask
    obtain ⟨before, hhanded, hfollows⟩ := htask
    simp only [hhanded, List.length_append, List.length_singleton, Nat.add_sub_cancel]
    exact hfollows.length
  | receiving words resume =>
    rw [ht] at htask
    obtain ⟨before, value, hhanded, hfollows, _⟩ := htask
    simp only [hhanded, List.length_append, List.length_singleton, Nat.add_sub_cancel]
    exact hfollows.length

end Member

namespace World

variable {n : Nat} {α : Type} {programs : Fin n → Collective α} {history : History n}
  {rank other : Fin n} {world next : World n α} {moves : List (Move n)} {limit : Nat}

/-- Members that have left are done with so many gatherings. -/
def LeavesAfter (world : World n α) (limit : Nat) : Prop :=
  ∀ rank : Fin n, (world.member rank).isPresent = false → limit ≤ (world.member rank).ended

/-- What was sent for so many gatherings is what has been received. -/
structure Delivered (world : World n α) (limit : Nat) : Prop where
  tidy : ∀ rank : Fin n, (world.member rank).Tidy limit rank
  got : ∀ (sender peer : Fin n) (round : Nat), sender ≠ peer → round < limit →
    ((world.member sender).HasSent peer round ↔ (world.member peer).HasGot sender round)

/-- A word that was there before or came in a message is noted. -/
theorem note_ne_none {words : Vector (Option UInt64) n} {messages : List (Message n)}
    (h : words.get other ≠ none ∨ ∃ message ∈ messages, message.sender = other) :
    (note words messages).get other ≠ none := by
  induction messages generalizing words with
  | nil =>
    rcases h with h | ⟨_, hmem, _⟩
    · exact h
    · cases hmem
  | cons message messages ih =>
    apply ih
    rw [get_set]
    split
    · exact .inl (Option.some_ne_none _)
    · next hs =>
      rcases h with h | ⟨later, hmem, hlater⟩
      · exact .inl h
      · rcases List.mem_cons.mp hmem with rfl | hmem
        · exact absurd hlater.symm hs
        · exact .inr ⟨later, hmem, hlater⟩

theorem note_ne_none_iff {words : Vector (Option UInt64) n} {messages : List (Message n)} :
    (note words messages).get other ≠ none ↔
      words.get other ≠ none ∨ ∃ message ∈ messages, message.sender = other := by
  refine ⟨fun h => ?_, note_ne_none⟩
  obtain ⟨value, hvalue⟩ := Option.ne_none_iff_exists'.mp h
  refine (of_note_eq_some hvalue).imp (fun hold => ?_) fun ⟨message, hmem, hsender, _⟩ => ?_
  · rw [hold]
    exact Option.some_ne_none _
  · exact ⟨message, hmem, hsender⟩

/-- A member in a gathering has begun one. -/
theorem rounds_pos (sound : world.Sound programs history) (rank : Fin n)
    (h : ∀ rest, (world.member rank).task ≠ .running rest) : 0 < (world.member rank).rounds := by
  have hs := sound rank
  have htask := hs.task
  rw [← hs.rounds]
  cases ht : (world.member rank).task with
  | running rest => exact absurd ht (h rest)
  | sending value peers resume =>
    rw [ht] at htask
    obtain ⟨before, hhanded, _⟩ := htask
    simp [hhanded]
  | receiving words resume =>
    rw [ht] at htask
    obtain ⟨before, value, hhanded, _⟩ := htask
    simp [hhanded]

/-- A change of one member keeps everything delivered, if the member has sent and got what it had sent and
got before. -/
private theorem delivered_set (delivered : world.Delivered limit) {member : Member n α}
    (tidy : member.Tidy limit rank)
    (sent : ∀ peer round, peer ≠ rank → round < limit →
      (member.HasSent peer round ↔ (world.member rank).HasSent peer round))
    (got : ∀ peer round, peer ≠ rank → round < limit →
      (member.HasGot peer round ↔ (world.member rank).HasGot peer round)) :
    (world.set rank member).Delivered limit := by
  refine ⟨?_, ?_⟩
  · intro other
    rw [members_set]
    split
    · next he =>
      subst he
      exact tidy
    · exact delivered.tidy other
  · intro sender peer round hne hlt
    rw [members_set, members_set]
    split
    · next hsender =>
      subst hsender
      rw [if_neg hne.symm]
      exact (sent _ _ hne.symm hlt).trans (delivered.got _ _ _ hne hlt)
    · split
      · next hpeer =>
        subst hpeer
        exact (delivered.got _ _ _ hne hlt).trans (got _ _ hne hlt).symm
      · exact delivered.got _ _ _ hne hlt

private theorem hasSent_post {peer receiver : Fin n} {message : Message n} {round : Nat} :
    ((world.post receiver message).member other).HasSent peer round ↔
      (world.member other).HasSent peer round := by
  rw [members_post]
  split
  · next he =>
    subst he
    exact Iff.rfl
  · exact Iff.rfl

private theorem hasGot_post {peer receiver : Fin n} {message : Message n} {round : Nat} :
    ((world.post receiver message).member other).HasGot peer round ↔
      (world.member other).HasGot peer round ∨
        other = receiver ∧ message.sender = peer ∧ message.round = round := by
  rw [members_post]
  split
  · next he =>
    subst he
    constructor
    · rintro (⟨known, hmem | hmem, hknown⟩ | h)
      · rcases List.mem_append.mp hmem with hmem | hmem
        · exact .inl (.inl ⟨known, .inl hmem, hknown⟩)
        · cases List.mem_singleton.mp hmem
          exact .inr ⟨rfl, hknown⟩
      · exact .inl (.inl ⟨known, .inr hmem, hknown⟩)
      · exact .inl (.inr h)
    · rintro ((⟨known, hmem | hmem, hknown⟩ | h) | ⟨_, hsender, hround⟩)
      · exact .inl ⟨known, .inl (List.mem_append_left _ hmem), hknown⟩
      · exact .inl ⟨known, .inr hmem, hknown⟩
      · exact .inr h
      · exact .inl ⟨message, .inl (by simp), hsender, hround⟩
  · next he => exact ⟨.inl, fun h => h.elim id fun h => absurd h.1 he⟩

/-- A member that sends has sent one word more with its next message. -/
private theorem hasSent_send {member : Member n α} {value : UInt64} {peer receiver : Fin n}
    {rest : List (Fin n)} {resume : Except GridError (List UInt64) → Collective α} {round : Nat}
    (task : member.task = .sending value (peer :: rest) resume) (once : peer ∉ rest) :
    { member with task := .sending value rest resume }.HasSent receiver round ↔
      member.HasSent receiver round ∨ receiver = peer ∧ round + 1 = member.rounds := by
  constructor
  · rintro ⟨hlt, hsent⟩
    by_cases hlast : receiver = peer ∧ round + 1 = member.rounds
    · exact .inr hlast
    · refine .inl ⟨hlt, fun word peers next hnext hmem hround => ?_⟩
      rw [task] at hnext
      cases hnext
      rcases List.mem_cons.mp hmem with rfl | hmem
      · exact hlast ⟨rfl, hround⟩
      · exact hsent value rest resume rfl hmem hround
  · rintro (⟨hlt, hsent⟩ | ⟨rfl, hround⟩)
    · refine ⟨hlt, fun word peers next hnext hmem => ?_⟩
      cases hnext
      exact hsent value _ resume task (List.mem_cons_of_mem _ hmem)
    · refine ⟨by simp only; omega, fun word peers next hnext hmem => ?_⟩
      cases hnext
      exact absurd hmem once

/-- The next word of a member that is sending goes to the inbox of a peer. -/
private theorem delivered_send (delivered : world.Delivered limit) {value : UInt64} {peer : Fin n}
    {rest : List (Fin n)} {resume : Except GridError (List UInt64) → Collective α}
    (task : (world.member rank).task = .sending value (peer :: rest) resume)
    (begun : 0 < (world.member rank).rounds) :
    ((world.set rank { world.member rank with task := .sending value rest resume }).post peer
      ⟨rank, (world.member rank).rounds - 1, value⟩).Delivered limit := by
  have honce := (delivered.tidy rank).once _ _ _ task
  have htidy (other : Fin n) : ((world.set rank
      { world.member rank with task := .sending value rest resume }).member other).Tidy limit other := by
    rw [members_set]
    split
    · next he =>
      subst he
      refine ⟨?_, ?_, nofun, nofun⟩
      · simpa only [Member.ended, task] using (delivered.tidy other).late
      · rintro _ _ _ ⟨⟩
        exact honce.sublist ((List.sublist_cons_self peer rest).cons_cons other)
    · exact delivered.tidy other
  have hgot (receiver sender : Fin n) (round : Nat) :
      ((world.set rank { world.member rank with task := .sending value rest resume }).member
        receiver).HasGot sender round ↔ (world.member receiver).HasGot sender round := by
    rw [members_set]
    split
    · next he =>
      subst he
      simp [Member.HasGot, Member.ended, task]
    · exact Iff.rfl
  refine ⟨?_, ?_⟩
  · intro other
    rw [members_post]
    split
    · next he =>
      subst he
      exact ⟨(htidy other).late, (htidy other).once, (htidy other).own, (htidy other).early⟩
    · exact htidy other
  · intro sender receiver round hne hlt
    rw [hasSent_post, hasGot_post, hgot, ← delivered.got _ _ _ hne hlt, members_set]
    split
    · next he =>
      subst he
      rw [hasSent_send task (List.nodup_cons.mp (List.nodup_cons.mp honce).2).1]
      refine or_congr_right ⟨?_, ?_⟩
      · rintro ⟨rfl, hround⟩
        exact ⟨rfl, rfl, by simp only; omega⟩
      · rintro ⟨rfl, _, hround⟩
        exact ⟨rfl, by simp only at hround; omega⟩
    · next he => exact ⟨.inl, fun h => h.elim id fun h => absurd h.2.1.symm he⟩

private theorem mem_peers : other ∈ peers rank ↔ other ≠ rank := by
  simp [peers]

private theorem nodup_peers (rank : Fin n) : (rank :: peers rank).Nodup :=
  List.nodup_cons.mpr ⟨by simp [peers], (List.nodup_finRange n).filter _⟩

/-- A member that begins a gathering has sent no word of it. -/
private theorem hasSent_begin {member : Member n α} {program : Collective α} {value : UInt64} {peer : Fin n}
    {resume : Except GridError (List UInt64) → Collective α} {round : Nat}
    (task : member.task = .running program) (hne : peer ≠ rank) :
    { member with task := .sending value (peers rank) resume, rounds := member.rounds + 1
      : Member n α }.HasSent peer round ↔ member.HasSent peer round := by
  constructor
  · intro hsent
    have hbegun := hsent.1
    have hnow := hsent.2 value _ resume rfl (mem_peers.mpr hne)
    refine ⟨?_, by rw [task]; nofun⟩
    simp only at hbegun hnow
    omega
  · rintro ⟨hlt, _⟩
    refine ⟨Nat.lt_succ_of_lt hlt, ?_⟩
    rintro _ _ _ ⟨⟩ _ hround
    simp only at hround
    omega

/-- A peer has not left that a member is about to send a word to for one of the first gatherings. -/
theorem Delivered.isPresent_of_sending (delivered : world.Delivered limit) {value : UInt64}
    {peer : Fin n} {rest : List (Fin n)} {resume : Except GridError (List UInt64) → Collective α}
    (task : (world.member rank).task = .sending value (peer :: rest) resume)
    (begun : 0 < (world.member rank).rounds) (within : (world.member rank).rounds ≤ limit) :
    (world.member peer).isPresent = true := by
  by_contra absent
  have honce := (delivered.tidy rank).once _ _ _ task
  have hne : rank ≠ peer := fun h => (List.nodup_cons.mp honce).1 (h ▸ List.mem_cons_self)
  have hended := (delivered.tidy peer).late (eq_false_of_ne_true absent)
  have hsent := (delivered.got rank peer ((world.member rank).rounds - 1) hne (by omega)).mpr
    (.inr (.inl (by omega)))
  exact hsent.2 value _ resume task List.mem_cons_self (by omega)

/-- A member that can act has not left. -/
theorem isPresent_of_step (h : world.step rank = some next) : (world.member rank).isPresent = true := by
  by_contra absent
  simp only [step, getElem_members, eq_false_of_ne_true absent, Bool.not_false, if_true] at h
  cases h

private theorem ne_none_of_complete? {words : Vector (Option UInt64) n} {gathered : List UInt64}
    (h : complete? words = some gathered) (peer : Fin n) : words.get peer ≠ none := by
  intro hnone
  have hmem : (none : Option UInt64) ∈ words.toList :=
    Vector.mem_toList_iff.mpr (hnone ▸ Vector.getElem_mem peer.isLt)
  rw [toList_of_complete? h] at hmem
  simp at hmem

/-- A member that begins to receive takes the words that came early. -/
private theorem hasGot_collect {member : Member n α} {value : UInt64} {peer : Fin n}
    {resume : Except GridError (List UInt64) → Collective α} {round : Nat}
    (task : member.task = .sending value [] resume) (begun : 0 < member.rounds) (hne : peer ≠ rank) :
    { member with
      task := .receiving (note ((Vector.replicate n none).set rank (some value) rank.isLt)
        (member.parked.filter (·.round == member.rounds - 1))) resume
      parked := member.parked.filter fun message => !(message.round == member.rounds - 1)
      : Member n α }.HasGot peer round ↔ member.HasGot peer round := by
  constructor
  · rintro (⟨message, hmem | hmem, hknown⟩ | h | ⟨words, _, ⟨⟩, hround, hword⟩)
    · exact .inl ⟨message, .inl hmem, hknown⟩
    · exact .inl ⟨message, .inr (List.mem_filter.mp hmem).1, hknown⟩
    · exact .inr (.inl (by simpa only [Member.ended, task] using h))
    · rcases note_ne_none_iff.mp hword with hown | ⟨message, hmem, hsender⟩
      · rw [get_set, if_neg hne] at hown
        exact absurd (Vector.getElem_replicate peer.isLt) hown
      · obtain ⟨hparked, hdue⟩ := List.mem_filter.mp hmem
        have hdue : message.round = member.rounds - 1 := by simpa using hdue
        exact .inl ⟨message, .inr hparked, hsender, by simp only at hround; omega⟩
  · rintro (⟨message, hmem | hmem, hsender, hround⟩ | h | ⟨_, _, h, _⟩)
    · exact .inl ⟨message, .inl hmem, hsender, hround⟩
    · by_cases hdue : message.round = member.rounds - 1
      · refine .inr (.inr ⟨_, resume, rfl, by simp only; omega, note_ne_none (.inr ?_)⟩)
        exact ⟨message, List.mem_filter.mpr ⟨hmem, by simpa using hdue⟩, hsender⟩
      · exact .inl ⟨message, .inr (List.mem_filter.mpr ⟨hmem, by simpa using hdue⟩), hsender, hround⟩
    · exact .inr (.inl (by simpa only [Member.ended, task] using h))
    · rw [task] at h
      cases h

/-- A member that is done with a gathering had the words of all its peers. -/
private theorem hasGot_finish {member : Member n α} {words : Vector (Option UInt64) n} {peer : Fin n}
    {resume : Except GridError (List UInt64) → Collective α} {rest : Collective α} {round : Nat}
    (task : member.task = .receiving words resume) (begun : 0 < member.rounds)
    (word : words.get peer ≠ none) :
    { member with task := .running rest }.HasGot peer round ↔ member.HasGot peer round := by
  simp only [Member.HasGot, Member.ended, task]
  constructor
  · rintro (h | h | ⟨_, _, ⟨⟩, _⟩)
    · exact .inl h
    · by_cases hlast : round + 1 = member.rounds
      · exact .inr (.inr ⟨words, resume, rfl, hlast, word⟩)
      · exact .inr (.inl (by omega))
  · rintro (h | h | ⟨_, _, _, hround, _⟩)
    · exact .inl h
    · exact .inr (.inl (by omega))
    · exact .inr (.inl (by omega))

/-- A member notes the word of a message of its round. -/
private theorem hasGot_hear {member : Member n α} {words : Vector (Option UInt64) n} {peer : Fin n}
    {message : Message n} {inbox : List (Message n)}
    {resume : Except GridError (List UInt64) → Collective α} {round : Nat}
    (task : member.task = .receiving words resume) (first : member.inbox = message :: inbox)
    (due : message.round = member.rounds - 1) (begun : 0 < member.rounds) :
    { member with task := .receiving (note words [message]) resume, inbox }.HasGot peer round ↔
      member.HasGot peer round := by
  constructor
  · rintro (⟨known, hmem | hmem, hknown⟩ | h | ⟨noted, _, ⟨⟩, hround, hword⟩)
    · exact .inl ⟨known, .inl (by rw [first]; exact List.mem_cons_of_mem _ hmem), hknown⟩
    · exact .inl ⟨known, .inr hmem, hknown⟩
    · exact .inr (.inl (by simpa only [Member.ended, task] using h))
    · rcases note_ne_none_iff.mp hword with hold | ⟨known, hmem, hsender⟩
      · exact .inr (.inr ⟨words, resume, task, hround, hold⟩)
      · cases List.mem_singleton.mp hmem
        refine .inl ⟨message, .inl (by rw [first]; exact List.mem_cons_self), hsender, ?_⟩
        simp only at hround
        omega
  · rintro (⟨known, hmem | hmem, hsender, hround⟩ | h | ⟨old, _, h, hround, hold⟩)
    · rw [first] at hmem
      rcases List.mem_cons.mp hmem with rfl | hmem
      · refine .inr (.inr ⟨_, resume, rfl, by simp only; omega, note_ne_none (.inr ?_)⟩)
        exact ⟨_, List.mem_singleton.mpr rfl, hsender⟩
      · exact .inl ⟨known, .inl hmem, hsender, hround⟩
    · exact .inl ⟨known, .inr hmem, hsender, hround⟩
    · exact .inr (.inl (by simpa only [Member.ended, task] using h))
    · rw [task] at h
      cases h
      exact .inr (.inr ⟨_, resume, rfl, hround, note_ne_none (.inl hold)⟩)

/-- A message that comes early is put aside. -/
private theorem hasGot_park {member : Member n α} {message : Message n} {inbox : List (Message n)}
    {peer : Fin n} {round : Nat} (first : member.inbox = message :: inbox) :
    { member with inbox, parked := member.parked ++ [message] }.HasGot peer round ↔
      member.HasGot peer round := by
  have hmem (known : Message n) : (known ∈ inbox ∨ known ∈ member.parked ++ [message]) ↔
      known ∈ member.inbox ∨ known ∈ member.parked := by
    rw [first, List.mem_cons, List.mem_append, List.mem_singleton, or_comm, or_assoc, or_comm]
  exact or_congr_left (exists_congr fun known => and_congr_left fun _ => hmem known)

private theorem delivered_of_action {handed : Option UInt64}
    {returned : Option (Except GridError (List UInt64))}
    (action : Action world rank handed returned next) (sound : world.Sound programs history)
    (present : (world.member rank).isPresent = true) (delivered : world.Delivered limit) :
    next.Delivered limit := by
  -- a member that acts is present, so nothing is asked of how far it has got
  have late {member : Member n α} (h : member.isPresent = (world.member rank).isPresent) :
      member.isPresent = false → limit ≤ member.ended := by
    rw [h, present]
    nofun
  cases action with
  | begin value resume task =>
    refine delivered_set delivered ⟨late rfl, ?_, nofun, nofun⟩ ?_ ?_
    · rintro _ _ _ ⟨⟩
      exact nodup_peers rank
    · exact fun peer round hne _ => hasSent_begin task hne
    · intro peer round _ _
      simp [Member.HasGot, Member.ended, task]
  | send value peer rest resume task _ =>
    exact delivered_send delivered task (rounds_pos sound rank (by rw [task]; nofun))
  | refuse value peer rest resume task absent =>
    have begun := rounds_pos sound rank (by rw [task]; nofun)
    have beyond : limit < (world.member rank).rounds := by
      by_contra within
      rw [delivered.isPresent_of_sending task begun (by omega)] at absent
      cases absent
    refine delivered_set delivered ⟨late rfl, nofun, nofun, nofun⟩ ?_ ?_
    · intro peer round _ hlt
      refine ⟨fun hsent => ⟨hsent.1, fun _ _ _ _ _ => by omega⟩, fun hsent => ⟨hsent.1, nofun⟩⟩
    · intro peer round _ hlt
      have hbefore : (world.member rank).ended = (world.member rank).rounds - 1 := by
        rw [Member.ended, task]
      refine ⟨fun _ => .inr (.inl (by omega)), fun _ => .inr (.inl ?_)⟩
      simp only [Member.ended]
      omega
  | collect value resume task =>
    have begun := rounds_pos sound rank (by rw [task]; nofun)
    refine delivered_set delivered ⟨late rfl, nofun, ?_, ?_⟩ ?_ ?_
    · rintro _ _ ⟨⟩
      refine note_ne_none (.inl ?_)
      rw [get_set, if_pos rfl]
      exact Option.some_ne_none _
    · intro words next _ message hmem
      have hearly : message.round ≠ (world.member rank).rounds - 1 := by
        simpa using (List.mem_filter.mp hmem).2
      simp only
      omega
    · intro peer round _ _
      simp [Member.HasSent, task]
    · exact fun peer round hne _ => hasGot_collect task begun hne
  | finish words gathered resume task complete =>
    have begun := rounds_pos sound rank (by rw [task]; nofun)
    refine delivered_set delivered ⟨late rfl, nofun, nofun, nofun⟩ ?_ ?_
    · intro peer round _ _
      simp [Member.HasSent, task]
    · exact fun peer round _ _ => hasGot_finish task begun (ne_none_of_complete? complete peer)
  | hear words message inbox resume task first due =>
    have begun := rounds_pos sound rank (by rw [task]; nofun)
    have tidy := delivered.tidy rank
    refine delivered_set delivered ⟨late rfl, nofun, ?_, fun _ _ _ => tidy.early words resume task⟩ ?_ ?_
    · rintro _ _ ⟨⟩
      exact note_ne_none (.inl (tidy.own words resume task))
    · intro peer round _ _
      simp [Member.HasSent, task]
    · exact fun peer round _ _ => hasGot_hear task first due begun
  | park words message inbox resume task first early =>
    have begun := rounds_pos sound rank (by rw [task]; nofun)
    have tidy := delivered.tidy rank
    refine delivered_set delivered ⟨late rfl, tidy.once, tidy.own, ?_⟩ ?_ ?_
    · intro later next _ known hmem
      rcases List.mem_append.mp hmem with hmem | hmem
      · exact tidy.early words resume task known hmem
      · cases List.mem_singleton.mp hmem
        simp only
        omega
    · exact fun peer round _ _ => Iff.rfl
    · exact fun peer round _ _ => hasGot_park first

/-- No action makes a member leave or come back. -/
private theorem isPresent_of_action {handed : Option UInt64}
    {returned : Option (Except GridError (List UInt64))}
    (action : Action world rank handed returned next) :
    (next.member other).isPresent = (world.member other).isPresent := by
  have same {member : Member n α} (h : member.isPresent = (world.member rank).isPresent)
      (other : Fin n) :
      ((world.set rank member).member other).isPresent = (world.member other).isPresent := by
    rw [members_set]
    split
    · next he =>
      subst he
      exact h
    · rfl
  cases action with
  | send value peer rest resume task present =>
    rw [members_post]
    split
    · next he =>
      subst he
      exact same (by rfl) other
    · exact same (by rfl) other
  | _ => exact same (by rfl) other

/-- What others do leaves a member that has left as it is. -/
private theorem member_of_absent {handed : Option UInt64}
    {returned : Option (Except GridError (List UInt64))}
    (action : Action world rank handed returned next) (hne : other ≠ rank)
    (absent : (world.member other).isPresent = false) : next.member other = world.member other := by
  cases action with
  | send value peer rest resume task present =>
    have hpeer : other ≠ peer := by
      rintro rfl
      rw [absent] at present
      cases present
    rw [members_post, if_neg hpeer, members_set_of_ne _ _ hne]
  | _ => exact members_set_of_ne _ _ hne

theorem leavesAfter_of_step (h : world.step rank = some next) (late : next.LeavesAfter limit) :
    world.LeavesAfter limit := by
  intro other absent
  have hne : other ≠ rank := by
    rintro rfl
    rw [isPresent_of_step h] at absent
    cases absent
  have hsame := member_of_absent (action_of_step h) hne absent
  rw [← hsame]
  exact late other (hsame ▸ absent)

theorem leavesAfter_of_leave (late : (world.leave rank).LeavesAfter limit) : world.LeavesAfter limit := by
  intro other absent
  have hlate := late other
  rw [World.leave, members_set] at hlate
  split at hlate
  · next he =>
    subst he
    exact hlate rfl
  · exact hlate absent

/-- What was sent for so many gatherings is what has been received, if all members that have left were done
with these. -/
theorem Run.delivered (run : Run programs moves world history) (late : world.LeavesAfter limit) :
    world.Delivered limit := by
  induction run with
  | start =>
    refine ⟨fun rank => ?_, fun sender peer round _ _ => ?_⟩
    · rw [members_start]
      exact ⟨nofun, nofun, nofun, nofun⟩
    · rw [members_start, members_start]
      simp [Member.HasSent, Member.HasGot, Member.ended]
  | act rank run hstep ih =>
    exact delivered_of_action (action_of_step hstep) run.sound (isPresent_of_step hstep)
      (ih (leavesAfter_of_step hstep late))
  | leave rank _ ih =>
    have delivered := ih (leavesAfter_of_leave late)
    have tidy := delivered.tidy rank
    have hlate := late rank
    rw [World.leave, members_set_self] at hlate
    exact delivered_set delivered ⟨hlate, tidy.once, tidy.own, tidy.early⟩
      (fun _ _ _ _ => Iff.rfl) fun _ _ _ _ => Iff.rfl

/-- None of so many gatherings fails, if all members that have left were done with these. -/
theorem Run.returned_ok (run : Run programs moves world history) (late : world.LeavesAfter limit)
    {round : Nat} {result : Except GridError (List UInt64)} (hround : round < limit)
    (h : (history.returned rank)[round]? = some result) : ∃ words, result = .ok words := by
  induction run generalizing result with
  | start => cases h
  | leave _ _ ih => exact ih (leavesAfter_of_leave late) h
  | @act moves world history next actor run hstep ih =>
    have before := leavesAfter_of_step hstep late
    by_cases hactor : rank = actor
    · subst hactor
      have action := action_of_step hstep
      rw [returned_add_self] at h
      by_cases hold : round < (history.returned rank).length
      · rw [List.getElem?_append_left hold] at h
        exact ih before h
      · have hended := (run.sound rank).ended_eq
        rw [List.getElem?_append_right (by omega)] at h
        generalize world.handing? rank = handed at action
        generalize world.returning? rank = returned at action h
        cases action with
        | refuse value peer rest resume task absent =>
          have begun := rounds_pos run.sound rank (by rw [task]; nofun)
          simp only [Member.ended, task] at hended
          rw [(run.delivered before).isPresent_of_sending task begun (by omega)] at absent
          cases absent
        | finish words gathered resume task complete =>
          obtain ⟨_, hresult⟩ := List.getElem?_eq_some_iff.mp h
          simp only [Option.toList_some, List.getElem_singleton] at hresult
          exact ⟨gathered, hresult.symm⟩
        | _ => simp at h
    · rw [returned_add_of_ne _ _ hactor] at h
      exact ih before h

/-- While no member leaves, all members are there. -/
theorem Run.isPresent (run : Run programs moves world history)
    (stay : ∀ rank, Move.leave rank ∉ moves) (rank : Fin n) : (world.member rank).isPresent = true := by
  induction run with
  | start => rw [members_start]
  | act actor run hstep ih =>
    rw [isPresent_of_action (action_of_step hstep)]
    exact ih fun other hmem => stay other (List.mem_append_left _ hmem)
  | leave actor _ _ => exact absurd (by simp) (stay actor)

theorem Run.leavesAfter (run : Run programs moves world history)
    (stay : ∀ rank, Move.leave rank ∉ moves) : world.LeavesAfter limit := by
  intro rank absent
  rw [run.isPresent stay rank] at absent
  cases absent

end World

end ArrayEngine
