import ArrayEngine.Comm.Collective

/-! A world of processes that run collective programs and exchange messages, one action of one
process at a time. A gathering sends the own word to every peer in rank order, and then receives until
there is a word of every peer. Processes are not in step: a word of a later gathering may come early,
and is put aside until its time. -/
namespace ArrayEngine

/-- A word sent by a member for the gathering of the given number. -/
structure Message (n : Nat) where
  sender : Fin n
  round : Nat
  value : UInt64

inductive Task (n : Nat) (α : Type) where
  | running (program : Collective α)
  | sending (value : UInt64) (peers : List (Fin n))
      (resume : Except GridError (List UInt64) → Collective α)
  | receiving (words : Vector (Option UInt64) n)
      (resume : Except GridError (List UInt64) → Collective α)

structure Member (n : Nat) (α : Type) where
  task : Task n α
  /-- The number of gatherings begun. -/
  rounds : Nat
  /-- What came in, oldest first. -/
  inbox : List (Message n)
  /-- What came in early. -/
  parked : List (Message n)
  /-- One that has left takes no more messages. -/
  isPresent : Bool

structure World (n : Nat) (α : Type) where
  members : Vector (Member n α) n

namespace World

variable {n : Nat} {α : Type}

def start (programs : Fin n → Collective α) : World n α :=
  ⟨Vector.ofFn fun rank => ⟨.running (programs rank), 0, [], [], true⟩⟩

def set (world : World n α) (rank : Fin n) (member : Member n α) : World n α :=
  ⟨world.members.set rank member⟩

def leave (world : World n α) (rank : Fin n) : World n α :=
  world.set rank { world.members[rank] with isPresent := false }

def post (world : World n α) (rank : Fin n) (message : Message n) : World n α :=
  let member := world.members[rank]
  world.set rank { member with inbox := member.inbox ++ [message] }

/-- The members that a member sends to, in order. -/
def peers (rank : Fin n) : List (Fin n) :=
  (List.finRange n).filter (· ≠ rank)

def note (words : Vector (Option UInt64) n) (messages : List (Message n)) :
    Vector (Option UInt64) n :=
  messages.foldl (fun words message => words.set message.sender (some message.value)) words

def complete? (words : Vector (Option UInt64) n) : Option (List UInt64) :=
  words.toList.mapM id

/-- The next action of a member, if it can do one. A program that has ended has none, and a member
that waits for a message has none until one comes. The gathering a member is in has the number before
that of the next one. -/
def step (world : World n α) (rank : Fin n) : Option (World n α) :=
  let member := world.members[rank]
  let go (task : Task n α) : World n α := world.set rank { member with task }
  if !member.isPresent then none
  else
    match member.task with
    | .running (.done _) => none
    | .running (.gather value resume) =>
      some (world.set rank
        { member with task := .sending value (peers rank) resume, rounds := member.rounds + 1 })
    | .sending value (peer :: rest) resume =>
      if world.members[peer].isPresent then
        some ((go (.sending value rest resume)).post peer ⟨rank, member.rounds - 1, value⟩)
      else some (go (.running (resume (.error .disconnected))))
    | .sending value [] resume =>
      let (due, parked) := member.parked.partition (·.round == member.rounds - 1)
      let words := (Vector.replicate n none).set rank (some value)
      some (world.set rank { member with task := .receiving (note words due) resume, parked })
    | .receiving words resume =>
      match complete? words, member.inbox with
      | some gathered, _ => some (go (.running (resume (.ok gathered))))
      | none, [] => none
      | none, message :: inbox =>
        if message.round = member.rounds - 1 then
          some (world.set rank
            { member with task := .receiving (note words [message]) resume, inbox })
        else some (world.set rank { member with inbox, parked := member.parked ++ [message] })

/-- The first member in rank order that can do something does it. -/
def advance (world : World n α) : Option (World n α) :=
  (List.finRange n).findSome? world.step

def run : Nat → World n α → World n α
  | 0, world => world
  | fuel + 1, world =>
    match world.advance with
    | some world => run fuel world
    | none => world

/-- More actions than a world of `n` members can do in `calls` gatherings each. -/
def enough (n calls : Nat) : Nat := (calls + 1) * n * (2 * n + 4)

def result? (world : World n α) (rank : Fin n) : Option α :=
  match world.members[rank].task with
  | .running (.done result) => some result
  | _ => none

/-- What the programs end in, `calls` gatherings each at most, if some members have left before. The
others are listed in rank order. -/
def outcomes (programs : Fin n → Collective α) (calls : Nat) (left : List Nat) : List (Option α) :=
  let (gone, present) := (List.finRange n).partition fun rank => left.contains rank.val
  present.map ((gone.foldl leave (start programs)).run (enough n calls)).result?

end World

end ArrayEngine
