import ArrayEngine.Comm.World
import Mathlib.Logic.Function.Basic

/-! Runs of a world under any schedule, members that leave included. A run keeps the words that every
member handed in and what its gatherings gave back. -/
namespace ArrayEngine

namespace Collective

variable {α : Type}

/-- After handing in some words and being given as many results, a program goes on as another one. -/
inductive Follows (program : Collective α) :
    List UInt64 → List (Except GridError (List UInt64)) → Collective α → Prop
  | start : Follows program [] [] program
  | next {words results value resume} (result : Except GridError (List UInt64)) :
      Follows program words results (.gather value resume) →
      Follows program (words ++ [value]) (results ++ [result]) (resume result)

/-- A program makes so many gatherings, whatever they give back. -/
inductive Makes : Collective α → Nat → Prop
  | done (result : α) : Makes (.done result) 0
  | gather (value : UInt64) {resume : Except GridError (List UInt64) → Collective α} {count : Nat} :
      (∀ result, Makes (resume result) count) → Makes (.gather value resume) (count + 1)

theorem Follows.length {program rest : Collective α} {words results}
    (h : Follows program words results rest) : words.length = results.length := by
  induction h with
  | start => rfl
  | next _ _ ih => simp [ih]

theorem Follows.makes {program rest : Collective α} {words results} {count : Nat}
    (h : Follows program words results rest) (makes : program.Makes count) :
    ∃ left, rest.Makes left ∧ words.length + left = count := by
  induction h with
  | start => exact ⟨count, makes, by simp⟩
  | next result _ ih =>
    obtain ⟨left, hleft, hsum⟩ := ih
    cases hleft with
    | gather _ hrest => exact ⟨_, hrest result, by simp; omega⟩

end Collective

namespace World

variable {n : Nat} {α : Type}

/-- A member acts, or it leaves. -/
inductive Move (n : Nat) where
  | act (rank : Fin n)
  | leave (rank : Fin n)
deriving DecidableEq

def Move.isAct : Move n → Bool
  | act _ => true
  | leave _ => false

/-- The member of a rank. -/
def member (world : World n α) (rank : Fin n) : Member n α := world.members.get rank

theorem getElem_members (world : World n α) (rank : Fin n) :
    @GetElem.getElem _ (Fin n) _ _ _ world.members rank rank.isLt = world.member rank := rfl

/-- The word that a member hands in with its next action, if that begins a gathering. -/
def handing? (world : World n α) (rank : Fin n) : Option UInt64 :=
  match (world.member rank).task with
  | .running (.gather value _) => some value
  | _ => none

/-- What the gathering of a member gives back with its next action, if that ends it. -/
def returning? (world : World n α) (rank : Fin n) : Option (Except GridError (List UInt64)) :=
  match (world.member rank).task with
  | .sending _ (peer :: _) _ =>
    if (world.member peer).isPresent then none else some (.error .disconnected)
  | .receiving words _ => (complete? words).map .ok
  | _ => none

/-- What the members handed in and what they were given back, oldest first. -/
structure History (n : Nat) where
  handed : Fin n → List UInt64
  returned : Fin n → List (Except GridError (List UInt64))

namespace History

def empty : History n := ⟨fun _ => [], fun _ => []⟩

/-- Adds what a member hands in and is given back. -/
def add (history : History n) (rank : Fin n) (handed : Option UInt64)
    (returned : Option (Except GridError (List UInt64))) : History n where
  handed := Function.update history.handed rank (history.handed rank ++ handed.toList)
  returned := Function.update history.returned rank (history.returned rank ++ returned.toList)

end History

/-- The moves so far, the world they lead to, and its history. -/
inductive Run (programs : Fin n → Collective α) : List (Move n) → World n α → History n → Prop
  | start : Run programs [] (World.start programs) .empty
  | act {moves world history next} (rank : Fin n) :
      Run programs moves world history → world.step rank = some next →
      Run programs (moves ++ [.act rank]) next
        (history.add rank (world.handing? rank) (world.returning? rank))
  | leave {moves world history} (rank : Fin n) :
      Run programs moves world history →
      Run programs (moves ++ [.leave rank]) (world.leave rank) history

theorem get_set {β : Type} (entries : Vector β n) (rank other : Fin n) (entry : β) :
    (entries.set rank entry rank.isLt).get other = if other = rank then entry else entries.get other := by
  by_cases h : other = rank
  · subst h
    rw [if_pos rfl]
    exact Vector.getElem_set_self other.isLt
  · have hne : rank.val ≠ other.val := fun he => h (Fin.ext he.symm)
    rw [if_neg h]
    exact Vector.getElem_set_ne rank.isLt other.isLt hne

theorem members_set (world : World n α) (rank other : Fin n) (member : Member n α) :
    (world.set rank member).member other = if other = rank then member else world.member other :=
  get_set _ _ _ _

@[simp] theorem members_set_self (world : World n α) (rank : Fin n) (member : Member n α) :
    (world.set rank member).member rank = member := by
  rw [members_set, if_pos rfl]

theorem members_set_of_ne (world : World n α) {rank other : Fin n} (member : Member n α)
    (h : other ≠ rank) : (world.set rank member).member other = world.member other := by
  rw [members_set, if_neg h]

theorem members_post (world : World n α) (receiver other : Fin n) (message : Message n) :
    (world.post receiver message).member other = if other = receiver then { world.member receiver with
      inbox := (world.member receiver).inbox ++ [message] } else world.member other :=
  members_set _ _ _ _

theorem members_start (programs : Fin n → Collective α) (rank : Fin n) :
    (start programs).member rank = ⟨.running (programs rank), 0, [], [], true⟩ :=
  Vector.getElem_ofFn _

/-- What an action of a member can be, with what it hands in and is given back. -/
inductive Action (world : World n α) (rank : Fin n) :
    Option UInt64 → Option (Except GridError (List UInt64)) → World n α → Prop
  | begin (value : UInt64) (resume : Except GridError (List UInt64) → Collective α)
      (task : (world.member rank).task = .running (.gather value resume)) :
      Action world rank (some value) none (world.set rank { world.member rank with
        task := .sending value (peers rank) resume, rounds := (world.member rank).rounds + 1 })
  | send (value : UInt64) (peer : Fin n) (rest : List (Fin n))
      (resume : Except GridError (List UInt64) → Collective α)
      (task : (world.member rank).task = .sending value (peer :: rest) resume)
      (present : (world.member peer).isPresent = true) :
      Action world rank none none ((world.set rank { world.member rank with
        task := .sending value rest resume }).post peer
          ⟨rank, (world.member rank).rounds - 1, value⟩)
  | refuse (value : UInt64) (peer : Fin n) (rest : List (Fin n))
      (resume : Except GridError (List UInt64) → Collective α)
      (task : (world.member rank).task = .sending value (peer :: rest) resume)
      (absent : (world.member peer).isPresent = false) :
      Action world rank none (some (.error .disconnected))
        (world.set rank { world.member rank with
          task := .running (resume (.error .disconnected)) })
  | collect (value : UInt64) (resume : Except GridError (List UInt64) → Collective α)
      (task : (world.member rank).task = .sending value [] resume) :
      Action world rank none none (world.set rank { world.member rank with
        task := .receiving (note ((Vector.replicate n none).set rank (some value) rank.isLt)
          ((world.member rank).parked.filter (·.round == (world.member rank).rounds - 1))) resume
        parked := (world.member rank).parked.filter
          fun message => !(message.round == (world.member rank).rounds - 1) })
  | finish (words : Vector (Option UInt64) n) (gathered : List UInt64)
      (resume : Except GridError (List UInt64) → Collective α)
      (task : (world.member rank).task = .receiving words resume)
      (complete : complete? words = some gathered) :
      Action world rank none (some (.ok gathered))
        (world.set rank { world.member rank with task := .running (resume (.ok gathered)) })
  | hear (words : Vector (Option UInt64) n) (message : Message n) (inbox : List (Message n))
      (resume : Except GridError (List UInt64) → Collective α)
      (task : (world.member rank).task = .receiving words resume)
      (first : (world.member rank).inbox = message :: inbox)
      (due : message.round = (world.member rank).rounds - 1) :
      Action world rank none none (world.set rank { world.member rank with
        task := .receiving (note words [message]) resume, inbox })
  | park (words : Vector (Option UInt64) n) (message : Message n) (inbox : List (Message n))
      (resume : Except GridError (List UInt64) → Collective α)
      (task : (world.member rank).task = .receiving words resume)
      (first : (world.member rank).inbox = message :: inbox)
      (early : message.round ≠ (world.member rank).rounds - 1) :
      Action world rank none none (world.set rank { world.member rank with
        inbox, parked := (world.member rank).parked ++ [message] })

theorem action_of_step {world next : World n α} {rank : Fin n} (h : world.step rank = some next) :
    Action world rank (world.handing? rank) (world.returning? rank) next := by
  simp only [step, Bool.not_eq_true'] at h
  split at h
  · cases h
  · split at h
    case h_1 task => cases h
    case h_2 value resume task =>
      change (world.member rank).task = _ at task
      cases h
      simpa only [handing?, returning?, task, getElem_members] using Action.begin value resume task
    case h_3 value peer rest resume task =>
      change (world.member rank).task = _ at task
      split at h
      case isTrue present =>
        change (world.member peer).isPresent = true at present
        cases h
        simpa only [handing?, returning?, task, present, if_true, getElem_members] using
          Action.send value peer rest resume task present
      case isFalse absent =>
        have absent : (world.member peer).isPresent = false := eq_false_of_ne_true absent
        cases h
        simpa only [handing?, returning?, task, absent, Bool.false_eq_true, if_false, getElem_members]
          using Action.refuse value peer rest resume task absent
    case h_4 value resume task =>
      change (world.member rank).task = _ at task
      cases h
      simpa only [handing?, returning?, task, List.partition_eq_filter_filter, Function.comp_def,
        getElem_members] using Action.collect value resume task
    case h_5 words resume task =>
      change (world.member rank).task = _ at task
      split at h
      case h_1 _ _ _ gathered complete =>
        cases h
        simpa only [handing?, returning?, task, complete, Option.map_some, getElem_members] using
          Action.finish words gathered resume task complete
      case h_2 => cases h
      case h_3 _ _ message inbox missing first =>
        change (world.member rank).inbox = _ at first
        split at h
        case isTrue due =>
          cases h
          simpa only [handing?, returning?, task, missing, Option.map_none, getElem_members] using
            Action.hear words message inbox resume task first due
        case isFalse early =>
          cases h
          simpa only [handing?, returning?, task, missing, Option.map_none, getElem_members] using
            Action.park words message inbox resume task first early

end World

end ArrayEngine
