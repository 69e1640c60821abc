import ArrayEngine.Proofs.Dispatch.GeneralKeys
import ArrayEngine.Proofs.Dispatch.Registry
import Mathlib.Data.Finmap

/-! Histories of requests to a registry. It answers each of them as one finite map on pairs of a name and a key
would, and what it holds in the end is what was registered last. -/
namespace ArrayEngine

namespace Registry

variable {σ ν κ ρ : Type}

/-- What a registry can be asked for. -/
inductive Request (σ ν κ : Type) where
  | insert (name : String) (key : DispatchKey) (entry : Entry σ ν κ)
  | remove (name : String) (key : DispatchKey)
  | clear
  | contains (name : String) (key : DispatchKey)
  | lookup (name : String) (key : DispatchKey)
  | call (name : String) (key : DispatchKey) (args : List (Arg ν))
  | size
  | isEmpty

/-- What it answers. -/
inductive Reply (σ ν κ : Type) where
  | done
  | removed (entry : Option (Entry σ ν κ))
  | flag (value : Bool)
  | found (entry : Except (DispatchError κ) (Entry σ ν κ))
  | called (result : Except (Halt (DispatchError κ)) Unit)
  | count (size : Nat)

/-- The answer to a call, and the state in which the kernel leaves everything else. -/
def Reply.ofCall : EStateM.Result (Halt (DispatchError κ)) σ Unit → Reply σ ν κ × σ
  | .ok value state => (.called (.ok value), state)
  | .error cause state => (.called (.error cause), state)

/-- Something that answers requests: what is left of it afterwards, and the answer. -/
structure Answering (ρ σ ν κ : Type) where
  after : ρ → Request σ ν κ → ρ
  answer : ρ → σ → Request σ ν κ → Reply σ ν κ × σ

namespace Answering

/-- The answers to requests one after the other, and what is left in the end. -/
def run (server : Answering ρ σ ν κ) : ρ → σ → List (Request σ ν κ) → List (Reply σ ν κ) × ρ × σ
  | held, state, [] => ([], held, state)
  | held, state, request :: requests =>
    let answered := server.answer held state request
    let rest := server.run (server.after held request) answered.2 requests
    (answered.1 :: rest.1, rest.2)

theorem run_held (server : Answering ρ σ ν κ) (held : ρ) (state : σ) (requests : List (Request σ ν κ)) :
    (server.run held state requests).2.1 = requests.foldl server.after held := by
  induction requests generalizing held state with
  | nil => rfl
  | cons request requests ih => exact ih _ _

/-- Two servers that answer alike in related states, and stay related, answer alike for ever. -/
theorem run_eq_of_related {ρ' : Type} (server : Answering ρ σ ν κ) (model : Answering ρ' σ ν κ)
    {Related : ρ → ρ' → Prop}
    (hafter : ∀ held held' request, Related held held' →
      Related (server.after held request) (model.after held' request))
    (hanswer : ∀ held held' state request, Related held held' →
      server.answer held state request = model.answer held' state request)
    {held : ρ} {held' : ρ'} (h : Related held held') (state : σ) (requests : List (Request σ ν κ)) :
    ∃ replies last last' final, server.run held state requests = (replies, last, final) ∧
      model.run held' state requests = (replies, last', final) ∧ Related last last' := by
  induction requests generalizing held held' state with
  | nil => exact ⟨[], held, held', state, rfl, rfl, h⟩
  | cons request requests ih =>
    obtain ⟨replies, last, last', final, hserver, hmodel, hlast⟩ :=
      ih (hafter held held' request h) (server.answer held state request).2
    have hsame := hanswer held held' state request h
    refine ⟨(server.answer held state request).1 :: replies, last, last', final, ?_, ?_, hlast⟩
    · simp only [run, hserver]
    · simp only [run, ← hsame, hmodel]

end Answering

namespace Request

/-- A request that may change what a name and a key stand for. -/
def Changes (name : String) (key : DispatchKey) : Request σ ν κ → Prop
  | insert other otherKey _ | remove other otherKey => name = other ∧ key = otherKey
  | clear => True
  | _ => False

/-- The entry was registered for the name and the key, and nothing has changed that since. -/
def Registered (requests : List (Request σ ν κ)) (name : String) (key : DispatchKey)
    (entry : Entry σ ν κ) : Prop :=
  ∃ before later, requests = before ++ insert name key entry :: later ∧
    ∀ request ∈ later, ¬request.Changes name key

variable {requests : List (Request σ ν κ)} {request : Request σ ν κ} {name : String} {key : DispatchKey}
  {entry : Entry σ ν κ}

theorem registered_concat_of_changes (requests : List (Request σ ν κ)) (h : request.Changes name key) :
    Registered (requests ++ [request]) name key entry ↔ request = insert name key entry := by
  constructor
  · rintro ⟨before, later, hsplit, hlater⟩
    obtain rfl | ⟨later, last, rfl⟩ := List.eq_nil_or_concat' later
    · exact (List.append_inj' hsplit rfl).2 |> List.singleton_inj.mp
    · rw [← List.cons_append, ← List.append_assoc] at hsplit
      cases List.singleton_inj.mp (List.append_inj' hsplit rfl).2
      exact absurd h (hlater request (List.mem_append_right _ (List.mem_singleton_self _)))
  · rintro rfl
    exact ⟨requests, [], rfl, fun _ h => absurd h List.not_mem_nil⟩

theorem registered_concat_of_not_changes (h : ¬request.Changes name key) :
    Registered (requests ++ [request]) name key entry ↔ Registered requests name key entry := by
  constructor
  · rintro ⟨before, later, hsplit, hlater⟩
    obtain rfl | ⟨later, last, rfl⟩ := List.eq_nil_or_concat' later
    · cases List.singleton_inj.mp (List.append_inj' hsplit rfl).2
      exact absurd ⟨rfl, rfl⟩ h
    · rw [← List.cons_append, ← List.append_assoc] at hsplit
      exact ⟨before, later, (List.append_inj' hsplit rfl).1,
        fun other hmem => hlater other (List.mem_append_left _ hmem)⟩
  · rintro ⟨before, later, rfl, hlater⟩
    refine ⟨before, later ++ [request], by simp, fun other hmem => ?_⟩
    obtain hold | hlast := List.mem_append.mp hmem
    · exact hlater other hold
    · rwa [List.mem_singleton.mp hlast]

end Request

def after (registry : Registry (Entry σ ν κ)) : Request σ ν κ → Registry (Entry σ ν κ)
  | .insert name key entry => registry.insert name key entry
  | .remove name key => (registry.remove name key).2
  | .clear => empty
  | _ => registry

def answer (registry : Registry (Entry σ ν κ)) (state : σ) : Request σ ν κ → Reply σ ν κ × σ
  | .insert _ _ _ | .clear => (.done, state)
  | .remove name key => (.removed (registry.remove name key).1, state)
  | .contains name key => (.flag (registry.contains name key), state)
  | .lookup name key => (.found (registry.lookup name key), state)
  | .call name key args => Reply.ofCall (registry.call name key args state)
  | .size => (.count registry.size, state)
  | .isEmpty => (.flag registry.isEmpty, state)

def answering : Answering (Registry (Entry σ ν κ)) σ ν κ := ⟨after, answer⟩

/-- One finite map on pairs of a name and a key. -/
abbrev Flat (ε : Type) := Finmap fun _ : String × DispatchKey => ε

namespace Flat

def after (flat : Flat (Entry σ ν κ)) : Request σ ν κ → Flat (Entry σ ν κ)
  | .insert name key entry => flat.insert (name, key) entry
  | .remove name key => flat.erase (name, key)
  | .clear => ∅
  | _ => flat

def answer (flat : Flat (Entry σ ν κ)) (state : σ) : Request σ ν κ → Reply σ ν κ × σ
  | .insert _ _ _ | .clear => (.done, state)
  | .remove name key => (.removed (flat.lookup (name, key)), state)
  | .contains name key => (.flag (decide ((name, key) ∈ flat)), state)
  | .lookup name key => (.found ((flat.lookup (name, key)).elim (.error (.notFound name key)) .ok), state)
  | .call name key args =>
    match flat.lookup (name, key) with
    | some entry => Reply.ofCall (entry.call args state)
    | none => (.called (.error (.error (.notFound name key))), state)
  | .size => (.count flat.keys.card, state)
  | .isEmpty => (.flag (decide (flat.keys = ∅)), state)

def answering : Answering (Flat (Entry σ ν κ)) σ ν κ := ⟨after, answer⟩

end Flat

variable {registry : Registry (Entry σ ν κ)} {flat : Flat (Entry σ ν κ)} {name : String}
  {key : DispatchKey} {request : Request σ ν κ} {entry : Entry σ ν κ}

theorem IsSound.after (sound : registry.IsSound) (request : Request σ ν κ) :
    (registry.after request).IsSound := by
  cases request with
  | insert name key entry => exact sound.insert name key entry
  | remove name key => rw [Registry.after, remove_eq]; exact sound.erase name key
  | clear => exact isSound_empty
  | contains | lookup | call | size | isEmpty => exact sound

/-- A request for one name and one key leaves all others what they are. -/
theorem get?_after_of_not_changes (h : ¬request.Changes name key) :
    (registry.after request).get? name key = registry.get? name key := by
  cases request with
  | insert => exact (get?_insert ..).trans (if_neg h)
  | remove => rw [after, remove_eq]; exact (get?_erase ..).trans (if_neg h)
  | clear => exact absurd trivial h
  | contains | lookup | call | size | isEmpty => rfl

theorem get?_after_of_changes (h : request.Changes name key) :
    (registry.after request).get? name key = some entry ↔ request = .insert name key entry := by
  cases request with
  | insert =>
    obtain ⟨rfl, rfl⟩ := h
    rw [after, get?_insert, if_pos ⟨rfl, rfl⟩]
    simp
  | remove =>
    obtain ⟨rfl, rfl⟩ := h
    rw [after, remove_eq, get?_erase, if_pos ⟨rfl, rfl⟩]
    simp
  | clear =>
    rw [after, get?_empty]
    simp
  | contains | lookup | call | size | isEmpty => exact h.elim

/-- What a registry holds for a name and a key is what was registered for these last. -/
theorem get?_foldl_after (requests : List (Request σ ν κ)) :
    (requests.foldl after empty).get? name key = some entry ↔ Request.Registered requests name key entry := by
  -- on the newest request: it alone decides whether the older ones still count
  induction requests using List.reverseRecOn with
  | nil =>
    rw [List.foldl_nil, get?_empty]
    simp [Request.Registered]
  | append_singleton requests request ih =>
    rw [List.foldl_append, List.foldl_cons, List.foldl_nil]
    by_cases h : request.Changes name key
    · rw [get?_after_of_changes h, Request.registered_concat_of_changes _ h]
    · rw [get?_after_of_not_changes h, Request.registered_concat_of_not_changes h, ih]

/-- The registry stands for the finite map. -/
structure Represents (registry : Registry (Entry σ ν κ)) (flat : Flat (Entry σ ν κ)) : Prop where
  sound : registry.IsSound
  lookup : ∀ name key, flat.lookup (name, key) = registry.get? name key

namespace Represents

theorem empty : Represents (σ := σ) (ν := ν) (κ := κ) Registry.empty ∅ :=
  ⟨isSound_empty, fun _ _ => Finmap.lookup_empty _⟩

theorem after (h : registry.Represents flat) (request : Request σ ν κ) :
    (registry.after request).Represents (flat.after request) := by
  refine ⟨h.sound.after request, fun name key => ?_⟩
  cases request with
  | insert other otherKey entry =>
    rw [Registry.after, get?_insert, Flat.after]
    split
    next hsame => rw [hsame.1, hsame.2, Finmap.lookup_insert]
    next hne => rw [Finmap.lookup_insert_of_ne _ (mt Prod.mk.inj hne), h.lookup]
  | remove other otherKey =>
    rw [Registry.after, remove_eq, get?_erase, Flat.after]
    split
    next hsame => rw [hsame.1, hsame.2, Finmap.lookup_erase]
    next hne => rw [Finmap.lookup_erase_ne (mt Prod.mk.inj hne), h.lookup]
  | clear => exact Finmap.lookup_empty _
  | contains | lookup | call | size | isEmpty => exact h.lookup name key

theorem mem_keys (h : registry.Represents flat) {pair : String × DispatchKey} :
    pair ∈ flat.keys ↔ ∃ entry, registry.get? pair.1 pair.2 = some entry := by
  rw [Finmap.mem_keys, Finmap.mem_iff, h.lookup]

/-- The registry has as many entries as pairs are in the map. -/
theorem size_eq (h : registry.Represents flat) : registry.size = flat.keys.card := by
  have hkeys : registry.pairs.toFinset = flat.keys := by
    ext pair
    rw [List.mem_toFinset, h.mem_keys]
    exact h.sound.mem_pairs
  rw [← length_pairs, ← hkeys, List.toFinset_card_of_nodup h.sound.nodup_pairs]

theorem answer (h : registry.Represents flat) (state : σ) (request : Request σ ν κ) :
    registry.answer state request = flat.answer state request := by
  cases request with
  | insert | clear => rfl
  | remove name key => rw [Registry.answer, remove_eq, Flat.answer, h.lookup]
  | contains name key =>
    have hflag : decide ((name, key) ∈ flat) = registry.contains name key := by
      rw [Bool.eq_iff_iff, decide_eq_true_iff, ← Finmap.mem_keys, h.mem_keys, contains,
        Option.isSome_iff_exists]
    rw [Registry.answer, Flat.answer, hflag]
  | lookup name key =>
    rw [Registry.answer, Registry.lookup, Flat.answer, h.lookup]
    cases registry.get? name key <;> rfl
  | call name key args =>
    rw [Registry.answer, call, Registry.lookup, Flat.answer, h.lookup]
    cases registry.get? name key <;> rfl
  | size => rw [Registry.answer, h.size_eq, Flat.answer]
  | isEmpty =>
    have hflag : decide (flat.keys = ∅) = registry.isEmpty := by
      rw [Bool.eq_iff_iff, decide_eq_true_iff, isEmpty, h.size_eq, beq_iff_eq, Finset.card_eq_zero]
    rw [Registry.answer, Flat.answer, hflag]

end Represents

theorem lookup_eq_ok_iff : (registry.lookup name key : Except (DispatchError κ) (Entry σ ν κ)) = .ok entry ↔
    registry.get? name key = some entry := by
  rw [lookup]
  cases registry.get? name key <;> simp

theorem lookup_eq_error (h : ∀ entry, registry.get? name key ≠ some entry) :
    (registry.lookup name key : Except (DispatchError κ) (Entry σ ν κ)) = .error (.notFound name key) := by
  rw [lookup, Option.eq_none_iff_forall_ne_some.mpr h]

/-- Whatever has been asked of a registry, it has answered as one finite map on pairs of a name and a key. It
finds what was registered last for a name and a key and not removed or cleared since, and nothing else; it
removes just that; its size is the number of the pairs that have an entry. A request for one name and one key
leaves all others as they are, those of other lists of tokens too, and no name has an empty table. -/
theorem histories_as_flat_map {σ ν κ : Type} (requests : List (Request σ ν κ)) (state : σ) :
    ∃ replies registry flat final,
      answering.run empty state requests = (replies, registry, final) ∧
      Flat.answering.run ∅ state requests = (replies, flat, final) ∧
      (∀ name key entry, (registry.lookup name key : Except (DispatchError κ) _) = .ok entry ↔
        Request.Registered requests name key entry) ∧
      (∀ name key, (∀ entry, ¬Request.Registered requests name key entry) →
        (registry.lookup name key : Except (DispatchError κ) _) = .error (.notFound name key)) ∧
      (∀ name key, (registry.remove name key).2.get? name key = none ∧
        ∀ entry, (registry.remove name key).1 = some entry ↔ Request.Registered requests name key entry) ∧
      (∃ live : Finset (String × DispatchKey),
        (∀ pair, pair ∈ live ↔ ∃ entry, Request.Registered requests pair.1 pair.2 entry) ∧
        registry.size = live.card ∧ (registry.isEmpty = true ↔ live = ∅)) ∧
      (∀ request name key, ¬request.Changes name key →
        (registry.after request).get? name key = registry.get? name key) ∧
      (∀ (tokens other : List TypeToken) name entry, tokens.length ≤ 7 → other.length ≤ 7 → tokens ≠ other →
        (registry.insert name (.pack other) entry).get? name (.pack tokens) =
          registry.get? name (.pack tokens) ∧
        (registry.remove name (.pack other)).2.get? name (.pack tokens) = registry.get? name (.pack tokens)) ∧
      ∀ named ∈ registry.tables, named.2 ≠ [] := by
  obtain ⟨replies, registry, flat, final, hrun, hflat, represents⟩ :=
    Answering.run_eq_of_related answering Flat.answering
      (fun _ _ request (h : Represents _ _) => h.after request)
      (fun _ _ state request h => h.answer state request) Represents.empty state requests
  have hlast : registry = requests.foldl after empty := by
    have hheld := Answering.run_held answering empty state requests
    rwa [hrun] at hheld
  have hget (name key entry) :
      registry.get? name key = some entry ↔ Request.Registered requests name key entry := by
    rw [hlast, get?_foldl_after]
  refine ⟨replies, registry, flat, final, hrun, hflat, ?_, ?_, ?_, ⟨flat.keys, ?_, represents.size_eq, ?_⟩, ?_,
    ?_, represents.sound.nonempty⟩
  · intro name key entry
    rw [lookup_eq_ok_iff, hget]
  · intro name key h
    exact lookup_eq_error fun entry hentry => h entry ((hget name key entry).mp hentry)
  · intro name key
    rw [remove_eq]
    exact ⟨(get?_erase ..).trans (if_pos ⟨rfl, rfl⟩), hget name key⟩
  · intro pair
    simp only [represents.mem_keys, hget]
  · rw [isEmpty, represents.size_eq, beq_iff_eq, Finset.card_eq_zero]
  · intro request name key h
    exact get?_after_of_not_changes h
  · intro tokens other name entry h hother hne
    have hkeys : DispatchKey.pack tokens ≠ .pack other := mt (DispatchKey.pack_injective h hother) hne
    rw [remove_eq, get?_insert, get?_erase, if_neg fun h => hkeys h.2, if_neg fun h => hkeys h.2]
    exact ⟨rfl, rfl⟩

/-- The second entry of a name and a key is found, and one that was removed is not. -/
theorem histories_as_flat_map_overwritten :
    ∃ replies registry final,
      answering.run empty () [.insert "mark" (.pack [5]) ⟨[], fun _ => pure ()⟩,
        .insert "mark" (.pack [5]) ⟨[.anyTensor], fun _ => pure ()⟩,
        .insert "mark" (.pack [5, 5]) ⟨[], fun _ => pure ()⟩, .remove "mark" (.pack [5, 5])] =
          (replies, registry, final) ∧
      (registry.lookup "mark" (.pack [5]) : Except (DispatchError Unit) (Entry Unit Unit Unit)) =
        .ok ⟨[.anyTensor], fun _ => pure ()⟩ ∧
      (registry.lookup "mark" (.pack [5, 5]) : Except (DispatchError Unit) (Entry Unit Unit Unit)) =
        .error (.notFound "mark" (.pack [5, 5])) := by
  obtain ⟨replies, registry, _, final, hrun, _, hfound, hmissing, _⟩ := histories_as_flat_map _ ()
  refine ⟨replies, registry, final, hrun, (hfound _ _ _).mpr ⟨[_], [_, _], rfl, ?_⟩,
    hmissing _ _ fun entry h => ?_⟩
  · have hkeys : DispatchKey.pack [5] ≠ .pack [5, 5] := by decide
    simp [Request.Changes, hkeys]
  · have hlast : (Request.remove "mark" (.pack [5, 5]) : Request Unit Unit Unit).Changes "mark" (.pack [5, 5]) :=
      ⟨rfl, rfl⟩
    have hregistered := (Request.registered_concat_of_changes [_, _, _] hlast).mp h
    cases hregistered

end Registry

end ArrayEngine
