import ArrayEngine.Proofs.Comm.Progress

/-! Members of a world that make collective calls one after the other: gatherings, barriers and checks.
The calls of the same number of all members are one round. -/
namespace ArrayEngine

/-- A collective call. -/
inductive Call where
  | gather (value : UInt64)
  | barrier
  | check (value : UInt64)
deriving DecidableEq, Repr

/-- What a call gives back that succeeds. -/
inductive Reply where
  | words (gathered : List UInt64)
  | nothing
deriving DecidableEq, Repr

namespace Call

/-- The word that a call hands in. -/
def value : Call → UInt64
  | gather value => value
  | barrier => 0
  | check value => value

/-- Makes a call. -/
def run (comm : Comm) : Call → Collective (Except GridError Reply)
  | gather value => do return (← comm.gather value).map .words
  | barrier => do return (← comm.barrier).map fun _ => .nothing
  | check value => do return (← comm.check value).map fun _ => .nothing

/-- What a call makes of the words that were gathered for it. -/
def reply (comm : Comm) (call : Call) (gathered : Except GridError (List UInt64)) :
    Except GridError Reply :=
  match call with
  | gather _ => gathered.map .words
  | barrier => gathered.map fun _ => .nothing
  | check value => (gathered.bind (comm.agree value)).map fun _ => .nothing

/-- In a world each call is one gathering. -/
theorem run_eq {comm : Comm} (joined : comm.isJoined = true) (call : Call) :
    call.run comm = .gather call.value fun gathered => .done (call.reply comm gathered) := by
  cases call with
  | gather value =>
    rw [run, Comm.gather, if_pos joined]
    rfl
  | barrier =>
    rw [run, Comm.barrier, Comm.gather, if_pos joined]
    simp only [reply]
    change Collective.gather _ _ = _
    congr 1
    funext gathered
    cases gathered <;> rfl
  | check value =>
    rw [run, Comm.check, Comm.gather, if_pos joined]
    rfl

/-- Makes some calls, whatever they give back, and returns what was given back before and by them. -/
def script (comm : Comm) : List Call → List (Except GridError Reply) →
    Collective (List (Except GridError Reply))
  | [], replies => .done replies
  | call :: calls, replies => do script comm calls (replies ++ [← call.run comm])

variable {comm : Comm} {calls : List Call}

theorem script_cons (joined : comm.isJoined = true) (call : Call) (replies) :
    script comm (call :: calls) replies =
      .gather call.value fun gathered => script comm calls (replies ++ [call.reply comm gathered]) := by
  rw [script, run_eq joined]
  rfl

theorem script_makes (joined : comm.isJoined = true) (replies) :
    (script comm calls replies).Makes calls.length := by
  induction calls generalizing replies with
  | nil => exact .done replies
  | cons call calls ih =>
    rw [script_cons joined]
    exact .gather _ fun gathered => ih _

/-- Between two calls, the words of the calls so far are handed in, and the replies are at hand. -/
theorem of_follows_script (joined : comm.isJoined = true) {words results rest}
    (h : (script comm calls []).Follows words results rest) :
    ∃ before left, calls = before ++ left ∧ words = before.map value ∧
      rest = script comm left (List.zipWith (reply comm) before results) := by
  induction h with
  | start => exact ⟨[], calls, rfl, rfl, by simp⟩
  | @next words results value resume result hfollows ih =>
    obtain ⟨before, left, hcalls, hwords, hrest⟩ := ih
    have hlength : before.length = results.length := by
      rw [← hfollows.length, hwords, List.length_map]
    cases left with
    | nil => cases hrest
    | cons call left =>
      rw [script_cons joined] at hrest
      cases hrest
      refine ⟨before ++ [call], left, by simp [hcalls], by simp [hwords], ?_⟩
      rw [List.zipWith_append hlength]
      rfl

end Call

/-- The communicator of a rank of a world. -/
def Comm.member {n : Nat} (checks : Bool) (rank : Fin n) : Comm := ⟨rank, List.range n, true, checks⟩

theorem Comm.ofFn_member (n : Nat) (checks : Bool) :
    List.ofFn (fun rank : Fin n => Comm.member checks rank) = Comm.world n checks := by
  apply List.ext_getElem (by simp [Comm.world])
  intro rank _ _
  simp [Comm.world, Comm.member]

namespace World

variable {n : Nat} {checks : Bool} {calls : Fin n → List Call} {history : History n}
  {moves : List (Move n)} {world : World n (List (Except GridError Reply))}

/-- The ranks of a world make some calls each. -/
def session (checks : Bool) (calls : Fin n → List Call) (rank : Fin n) :
    Collective (List (Except GridError Reply)) :=
  Call.script (Comm.member checks rank) (calls rank) []

/-- The word handed in for a round is that of the call of the same number. -/
private theorem value_of_handed (run : Run (session checks calls) moves world history)
    {rank : Fin n} {round : Nat} {word : UInt64}
    (h : (history.handed rank)[round]? = some word) :
    ((calls rank)[round]?).map Call.value = some word := by
  obtain ⟨results, rest, hfollows⟩ := (run.sound rank).follows
  obtain ⟨before, left, hcalls, hwords, _⟩ := Call.of_follows_script rfl hfollows
  rw [hwords, List.getElem?_map] at h
  obtain ⟨call, hcall, rfl⟩ := Option.map_eq_some_iff.mp h
  obtain ⟨hlt, _⟩ := List.getElem?_eq_some_iff.mp hcall
  rw [hcalls, List.getElem?_append_left hlt, hcall, Option.map_some]

/-- In every run of a world whose ranks make collective calls, under any schedule and with members that
leave at any point: a call that succeeds gathers the words of the calls of the same number of all ranks,
in rank order, and a rank between two calls has the replies that its gatherings so far stand for. While
no member leaves and all make equally many calls, some member can act as long as one has calls left. -/
theorem gathered_words_of_round (run : Run (session checks calls) moves world history) :
    (∀ (rank : Fin n) (round : Nat) (words : List UInt64),
      (history.returned rank)[round]? = some (.ok words) →
      words.map some = List.ofFn fun other => ((calls other)[round]?).map Call.value) ∧
    (∀ (rank : Fin n) rest, (world.member rank).task = .running rest →
      ∃ before left, calls rank = before ++ left ∧
        before.length = (history.returned rank).length ∧
        rest = Call.script (Comm.member checks rank) left
          (List.zipWith (Call.reply (Comm.member checks rank)) before (history.returned rank))) ∧
    ((∀ rank, Move.leave rank ∉ moves) → (∀ a b, (calls a).length = (calls b).length) →
      ∀ rank, world.result? rank = none → ∃ other next, world.step other = some next) := by
  refine ⟨?_, ?_, ?_⟩
  · intro rank round words h
    have hwords := (run.sound rank).returned round words h
    rw [hwords]
    congr 1
    funext other
    obtain ⟨word, hword⟩ := exists_handed hwords other
    rw [hword, value_of_handed run hword]
  · intro rank rest htask
    have hfollows := (run.sound rank).task
    rw [htask] at hfollows
    obtain ⟨before, left, hcalls, hwords, hrest⟩ := Call.of_follows_script rfl hfollows
    refine ⟨before, left, hcalls, ?_, hrest⟩
    rw [← Collective.Follows.length hfollows, hwords, List.length_map]
  · intro stay same rank busy
    have makes (other : Fin n) : (session checks calls other).Makes (calls rank).length := by
      rw [same rank other]
      exact Call.script_makes rfl []
    exact run.exists_step stay makes busy

/-- Three ranks gather and then check. -/
def gatherAndCheck (rank : Fin 3) : List Call := [.gather (5 + rank.val.toUInt64), .check 7]

/-- Rank 0 is through the first round and sends to rank 1 again while rank 2 has yet to send there: rank
1 puts the early word aside, and gathers the words of its own round. -/
theorem gathered_words_of_round_early :
    ∃ moves world history, Run (session true gatherAndCheck) moves world history ∧
      (∀ rank, Move.leave rank ∉ moves) ∧ world.result? 0 = none ∧
      (history.returned 1)[0]? = some (.ok [5, 6, 7]) ∧
      [5, 6, 7].map some =
        List.ofFn (fun other => ((gatherAndCheck other)[0]?).map Call.value) ∧
      ∃ other next, world.step other = some next := by
  have run : Run (session true gatherAndCheck) _ _ _ := .start
  have run := run.act 0 rfl |>.act 0 rfl |>.act 0 rfl |>.act 1 rfl |>.act 1 rfl |>.act 1 rfl
  have run := run.act 2 rfl |>.act 2 rfl |>.act 0 rfl |>.act 0 rfl |>.act 0 rfl |>.act 0 rfl
  have run := run.act 0 rfl |>.act 0 rfl |>.act 1 rfl |>.act 1 rfl |>.act 1 rfl |>.act 2 rfl
  have run := run.act 1 rfl |>.act 1 rfl
  obtain ⟨words, _, progress⟩ := gathered_words_of_round run
  exact ⟨_, _, _, run, by simp, rfl, rfl, words 1 0 _ rfl,
    progress (by simp) (fun _ _ => rfl) 0 rfl⟩

end World

end ArrayEngine
