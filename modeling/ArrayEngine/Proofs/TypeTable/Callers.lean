import ArrayEngine.Proofs.TypeTable.Sound
import Mathlib.Logic.Function.Basic

/-! Callers that share the table of known types under one lock. Who looks a type up in vain adds it in a later turn,
and others may have added it by then. A caller that is refused while it writes poisons the lock for good. -/
namespace ArrayEngine

namespace TypeTable

/-- The table, the types that callers have looked up in vain, and whether the lock is poisoned. -/
structure Shared (ι : Type) where
  table : TypeTable
  waiting : ι → Option ElementType
  poisoned : Bool

/-- What a caller does while it has the table for itself: look a type up, add the one it waits for, or register
a compute type. -/
inductive Turn (ι : Type) where
  | find (caller : ι) (type : ElementType)
  | add (caller : ι)
  | register (caller : ι) (type : ElementType)

namespace Turn

variable {ι : Type}

def caller : Turn ι → ι
  | find caller _ | add caller | register caller _ => caller

def isFind : Turn ι → Bool
  | find .. => true
  | _ => false

def isRegister : Turn ι → Bool
  | register .. => true
  | _ => false

end Turn

/-- How a turn ends for the call that it is a part of. -/
inductive Outcome where
  | open
  | returned (type : ElementType) (info : TypeInfo)
  | refused (type : ElementType) (trap : Trap)

namespace Shared

variable {ι : Type}

def start : Shared ι := ⟨builtin, fun _ => none, false⟩

theorem sound_start : (start : Shared ι).table.Sound := sound_builtin

/-- What any caller gets from the table, if the lock lets it read. -/
def read {α : Type} (shared : Shared ι) (f : TypeTable → α) : Except Trap α :=
  if shared.poisoned then .error .lockPoisoned else .ok (f shared.table)

def ofToken? (shared : Shared ι) (token : TypeToken) : Except Trap (Option TypeInfo) :=
  shared.read (·.ofToken? token)

def kind (shared : Shared ι) (token : TypeToken) : Except Trap TypeKind :=
  shared.read (·.kind token)

/-- The type that a turn is about. A caller that waits for its type to be added starts nothing else. -/
def subject? (shared : Shared ι) : Turn ι → Option ElementType
  | .add caller => shared.waiting caller
  | .find caller type | .register caller type =>
    if (shared.waiting caller).isSome then none else some type

variable [DecidableEq ι] {shared : Shared ι} {caller : ι} {type : ElementType} {info : TypeInfo} {trap : Trap}
  {next : Turn ι}

/-- Ends the call of a caller with what it got from the table. -/
def finish (shared : Shared ι) (caller : ι) (type : ElementType) :
    Except Trap (TypeInfo × TypeTable) → Outcome × Shared ι
  | .ok (info, table) =>
    (.returned type info, { shared with table, waiting := Function.update shared.waiting caller none })
  | .error trap =>
    (.refused type trap, { shared with waiting := Function.update shared.waiting caller none, poisoned := true })

def turn (shared : Shared ι) (next : Turn ι) : Outcome × Shared ι :=
  match shared.subject? next with
  | none => (.open, shared)
  | some type =>
    if shared.poisoned then shared.finish next.caller type (.error .lockPoisoned) else
    match next with
    | .find caller _ =>
      match shared.table.find? type with
      | some info => shared.finish caller type (.ok (info, shared.table))
      | none => (.open, { shared with waiting := Function.update shared.waiting caller (some type) })
    | .add caller => shared.finish caller type (shared.table.insert .storage type)
    | .register caller _ => shared.finish caller type (shared.table.internCompute type)

/-- All turns in their order. -/
def run (shared : Shared ι) : List (Turn ι) → List Outcome × Shared ι
  | [] => ([], shared)
  | next :: turns =>
    let ended := shared.turn next
    let rest := ended.2.run turns
    (ended.1 :: rest.1, rest.2)

theorem snd_run_cons (shared : Shared ι) (next : Turn ι) (turns : List (Turn ι)) :
    (shared.run (next :: turns)).2 = ((shared.turn next).2.run turns).2 := rfl

theorem run_append (shared : Shared ι) (turns later : List (Turn ι)) :
    shared.run (turns ++ later) =
      ((shared.run turns).1 ++ ((shared.run turns).2.run later).1, ((shared.run turns).2.run later).2) := by
  induction turns generalizing shared with
  | nil => rfl
  | cons next turns ih => simp only [List.cons_append, run, ih]

/-- All ends of a turn: nothing happens, the lock is poisoned, a type is looked up in vain, it is returned, or there
is no room for it. -/
inductive Ends (shared : Shared ι) (next : Turn ι) : Outcome × Shared ι → Prop where
  | idle (hsubject : shared.subject? next = none) : Ends shared next (.open, shared)
  | barred {type : ElementType} (hsubject : shared.subject? next = some type) (hpoisoned : shared.poisoned = true) :
      Ends shared next (shared.finish next.caller type (.error .lockPoisoned))
  | waits {type : ElementType} {waiting : ι → Option ElementType} (hsubject : shared.subject? next = some type)
      (hclean : shared.poisoned = false) (hfind : next.isFind = true) (hunknown : shared.table.find? type = none) :
      Ends shared next (.open, { shared with waiting })
  | returned {type : ElementType} {info : TypeInfo} {table : TypeTable} (hsubject : shared.subject? next = some type)
      (hclean : shared.poisoned = false) (adds : shared.table.Adds type info table)
      (hfind : next.isFind = true → shared.table.find? type = some info)
      (hkinds : ∀ token, table.kind token =
        if next.isRegister = true ∧ token = info.token ∧ token.isNative = false then .compute
        else shared.table.kind token) :
      Ends shared next (shared.finish next.caller type (.ok (info, table)))
  | refused {type : ElementType} {trap : Trap} (hsubject : shared.subject? next = some type)
      (hclean : shared.poisoned = false) (hfind : next.isFind = false) (refuses : shared.table.Refuses type trap) :
      Ends shared next (shared.finish next.caller type (.error trap))

theorem ends_turn (sound : shared.table.Sound) (next : Turn ι) : shared.Ends next (shared.turn next) := by
  rw [turn]
  split
  next hsubject => exact .idle hsubject
  next type hsubject =>
    by_cases hpoisoned : shared.poisoned = true
    · rw [if_pos hpoisoned]
      exact .barred hsubject hpoisoned
    have hclean : shared.poisoned = false := Bool.eq_false_of_not_eq_true hpoisoned
    rw [if_neg hpoisoned]
    cases next with
    | find caller _ =>
      dsimp only
      split
      next info hfound =>
        exact .returned hsubject hclean ⟨sound, .refl _, hfound, .inl hfound⟩ (fun _ => hfound)
          (by simp [Turn.isRegister])
      next hunknown => exact .waits hsubject hclean rfl hunknown
    | add caller =>
      cases hinsert : shared.table.insert .storage type with
      | ok added =>
        have hkinds (token : TypeToken) : added.2.kind token = shared.table.kind token :=
          kind_of_insert hinsert (.inl rfl)
        exact .returned hsubject hclean (sound.adds_of_insert (by decide) hinsert) nofun
          (by simp [Turn.isRegister, hkinds])
      | error trap => exact .refused hsubject hclean rfl (sound.refuses_of_insert hinsert)
    | register caller _ =>
      cases hregister : shared.table.internCompute type with
      | ok added =>
        have hkinds (token : TypeToken) :
            added.2.kind token =
              if token = added.1.token ∧ token.isNative = false then .compute else shared.table.kind token :=
          sound.kind_of_internCompute hregister
        exact .returned hsubject hclean (sound.adds_of_internCompute hregister) nofun
          (by simp [Turn.isRegister, hkinds])
      | error trap => exact .refused hsubject hclean rfl (sound.refuses_of_internCompute hregister)

/-- One turn keeps the table sound and every type its token. What it returns is what is found from then on. It
poisons the lock if it is refused. -/
theorem turn_sound (sound : shared.table.Sound) (next : Turn ι) :
    (shared.turn next).2.table.Sound ∧ shared.table.Extends (shared.turn next).2.table ∧
      (∀ type info, (shared.turn next).1 = .returned type info →
        (shared.turn next).2.table.find? type = some info) ∧
      ((shared.turn next).2.poisoned = true ↔
        shared.poisoned = true ∨ ∃ type trap, (shared.turn next).1 = .refused type trap) := by
  have hends := ends_turn sound next
  generalize shared.turn next = ended at hends ⊢
  cases hends with
  | idle => exact ⟨sound, .refl _, nofun, by simp⟩
  | barred _ hpoisoned => exact ⟨sound, .refl _, nofun, by simp [finish, hpoisoned]⟩
  | waits _ hclean => exact ⟨sound, .refl _, nofun, by simp⟩
  | returned _ hclean adds =>
    refine ⟨adds.sound, adds.grown, fun type' info' h => ?_, by simp [finish]⟩
    cases h
    exact adds.found
  | refused => exact ⟨sound, .refl _, nofun, by simp [finish]⟩

/-- The same of all turns of a run. -/
theorem run_sound (sound : shared.table.Sound) (turns : List (Turn ι)) :
    (shared.run turns).2.table.Sound ∧ shared.table.Extends (shared.run turns).2.table ∧
      (∀ type info, .returned type info ∈ (shared.run turns).1 →
        (shared.run turns).2.table.find? type = some info) ∧
      ((shared.run turns).2.poisoned = true ↔
        shared.poisoned = true ∨ ∃ type trap, .refused type trap ∈ (shared.run turns).1) := by
  induction turns generalizing shared with
  | nil => simp [run, sound, Extends.refl]
  | cons next turns ih =>
    obtain ⟨nextSound, hnext, hfound, hpoisoned⟩ := turn_sound sound next
    obtain ⟨lastSound, hlast, hrest, hlater⟩ := ih nextSound
    refine ⟨lastSound, hnext.trans hlast, fun type info hmem => ?_, ?_⟩
    · obtain hfirst | hmem := List.mem_cons.mp hmem
      · exact hlast.find? nextSound lastSound (hfound type info hfirst.symm)
      · exact hrest type info hmem
    · rw [run, hlater, hpoisoned]
      simp only [List.mem_cons]
      grind

/-- What keeps a call from its type: the lock, or a full table that does not have it. -/
theorem turn_refused_iff (sound : shared.table.Sound) (hsubject : shared.subject? next = some type) :
    (shared.turn next).1 = .refused type trap ↔
      if shared.poisoned then trap = .lockPoisoned
      else next.isFind = false ∧ shared.table.Refuses type trap := by
  have hends := ends_turn sound next
  generalize shared.turn next = ended at hends ⊢
  cases hends with
  | idle hnone => cases hnone.symm.trans hsubject
  | barred hsubject' hpoisoned =>
    cases hsubject'.symm.trans hsubject
    simp [finish, hpoisoned, eq_comm]
  | waits _ hclean hfind => simp [hclean, hfind]
  | @returned type' info table hsubject' hclean adds hfind =>
    cases hsubject'.symm.trans hsubject
    have hroom (refuses : shared.table.Refuses type trap) : shared.table.find? type = some info := by
      exact adds.room.resolve_right fun h => by rw [refuses.full] at h; exact Nat.lt_irrefl _ h
    simp only [finish, hclean, reduceCtorEq, Bool.false_eq_true, if_false, false_iff, not_and]
    intro _ refuses
    cases refuses.unknown.symm.trans (hroom refuses)
  | refused hsubject' hclean hfind refuses =>
    cases hsubject'.symm.trans hsubject
    simp only [finish, hclean, hfind, Bool.false_eq_true, if_false, true_and, Outcome.refused.injEq]
    constructor
    · rintro rfl
      exact refuses
    · intro other
      rw [refuses.named, other.named]

/-- A call for a type goes on after this turn only if it has just looked the type up in vain. -/
theorem turn_open_iff (sound : shared.table.Sound) (hsubject : shared.subject? next = some type) :
    (shared.turn next).1 = .open ↔
      shared.poisoned = false ∧ next.isFind = true ∧ shared.table.find? type = none := by
  have hends := ends_turn sound next
  generalize shared.turn next = ended at hends ⊢
  cases hends with
  | idle hnone => cases hnone.symm.trans hsubject
  | barred _ hpoisoned => simp [finish, hpoisoned]
  | waits hsubject' hclean hfind hunknown =>
    cases hsubject'.symm.trans hsubject
    simp [hclean, hfind, hunknown]
  | returned hsubject' _ _ hfind =>
    cases hsubject'.symm.trans hsubject
    simp only [finish, reduceCtorEq, false_iff, not_and]
    intro _ hisFind hunknown
    cases hunknown.symm.trans (hfind hisFind)
  | refused _ _ hfind => simp [finish, hfind]

/-- Whatever does not return leaves the table. -/
theorem table_turn (sound : shared.table.Sound) (h : ∀ type info, (shared.turn next).1 ≠ .returned type info) :
    (shared.turn next).2.table = shared.table := by
  have hends := ends_turn sound next
  generalize shared.turn next = ended at hends h ⊢
  cases hends with
  | returned => exact absurd rfl (h _ _)
  | idle | barred | waits | refused => rfl

theorem kind_turn (sound : shared.table.Sound) (h : (shared.turn next).1 = .returned type info) (token : TypeToken) :
    (shared.turn next).2.table.kind token =
      if next.isRegister = true ∧ token = info.token ∧ token.isNative = false then .compute
      else shared.table.kind token := by
  have hends := ends_turn sound next
  generalize shared.turn next = ended at hends h ⊢
  cases hends with
  | returned _ _ _ _ hkinds => cases h; exact hkinds token
  | idle | barred | waits | refused => cases h

end Shared

variable {ι : Type} [DecidableEq ι]

/-- Whatever callers do to the table that all of them start with, and in whatever order their turns come, types and
entries lead to each other by tokens, which are those below the number of the types, at most 255. A type that is
known keeps its token and its place from then on, all calls for it return one entry, and different types have
different ones. The native types keep the first tokens and are the only ones of their kind; a registration makes a
storage type a compute type, and no other kind ever changes. A call that writes is refused if 255 other types are
known. That leaves the table and poisons the lock, and from then on the lock refuses every call. -/
theorem tokens_of_turns (turns later : List (Turn ι)) :
    ∃ outcomes middle more last, Shared.start.run turns = (outcomes, middle) ∧ middle.run later = (more, last) ∧
      Shared.start.run (turns ++ later) = (outcomes ++ more, last) ∧
      (∀ (type : ElementType) (token : TypeToken), last.table.tokens.lookup type = some token ↔
        ∃ kind, last.table.entries[token.toNat]? = some (type, kind)) ∧
      (∀ token : TypeToken, (∃ type, last.table.tokens.lookup type = some token) ↔
        token.toNat < last.table.entries.length) ∧
      (last.table.entries.length ≤ 255 ∧
        ∀ type token, last.table.tokens.lookup type = some token → token.toNat ≤ 254) ∧
      (∀ type info, .returned type info ∈ outcomes ++ more → info.type = type ∧
        last.table.find? type = some info ∧
        last.ofToken? info.token = if last.poisoned then .error .lockPoisoned else .ok (some info)) ∧
      (∀ type info other second, .returned type info ∈ outcomes ++ more →
        .returned other second ∈ outcomes ++ more → ((info == second) = true ↔ type = other)) ∧
      (∀ type info, middle.table.find? type = some info → last.table.find? type = some info) ∧
      (∀ (place : Nat) (type : NumericType), NumericType.native[place]? = some type →
        last.table.find? type.toElementType = some ⟨UInt8.ofNat place, type.toElementType⟩) ∧
      (∀ token, last.table.kind token = .native ↔ token.isNative = true) ∧
      (∀ (place : Nat) (type : ElementType) (kind : TypeKind), middle.table.entries[place]? = some (type, kind) →
        ∃ kind', last.table.entries[place]? = some (type, kind') ∧
          (kind' = kind ∨ kind = .storage ∧ kind' = .compute)) ∧
      (∀ next type info, (last.turn next).1 = .returned type info → ∀ token, (last.turn next).2.table.kind token =
        if next.isRegister = true ∧ token = info.token ∧ token.isNative = false then .compute
        else last.table.kind token) ∧
      (∀ next, (∀ type info, (last.turn next).1 ≠ .returned type info) → (last.turn next).2.table = last.table) ∧
      (∀ next type, last.subject? next = some type →
        ((last.turn next).1 = .open ↔
          last.poisoned = false ∧ next.isFind = true ∧ last.table.find? type = none) ∧
        ∀ trap, (last.turn next).1 = .refused type trap ↔
          if last.poisoned then trap = .lockPoisoned
          else next.isFind = false ∧ last.table.find? type = none ∧ last.table.entries.length = 255 ∧
            trap = .typeTableFull type.name) ∧
      (last.poisoned = true ↔ ∃ type trap, .refused type trap ∈ outcomes ++ more) ∧
      ∀ token, last.kind token = if last.poisoned then .error .lockPoisoned else .ok (last.table.kind token) := by
  obtain ⟨middleSound, _, _, _⟩ := Shared.run_sound (Shared.sound_start (ι := ι)) turns
  obtain ⟨sound, hextends, _, _⟩ := Shared.run_sound middleSound later
  have hall := Shared.run_append Shared.start turns later
  obtain ⟨_, _, hfound, hpoisoned⟩ := Shared.run_sound (Shared.sound_start (ι := ι)) (turns ++ later)
  rw [hall] at hfound hpoisoned
  refine ⟨_, _, _, _, rfl, rfl, hall, sound.tokens, fun token => sound.exists_lookup_iff,
    ⟨sound.bound, fun type token hlookup => ?_⟩, fun type info hmem => ?_,
    fun type info other second hmem hother => sound.beq_iff (hfound type info hmem) (hfound other second hother),
    fun type info hknown => hextends.find? middleSound sound hknown,
    fun place type hnative => sound.find?_native hnative, fun token => sound.kind_eq_native_iff, hextends,
    fun next type info => Shared.kind_turn sound, fun next => Shared.table_turn sound,
    fun next type hsubject => ⟨Shared.turn_open_iff sound hsubject, fun trap => ?_⟩,
    hpoisoned.trans (or_iff_right Bool.false_ne_true), fun token => rfl⟩
  · have hlt := sound.exists_lookup_iff.mp ⟨type, hlookup⟩
    exact Nat.le_of_lt_succ (Nat.lt_of_lt_of_le hlt sound.bound)
  · obtain ⟨htoken, htype⟩ := sound.find?_eq_some_iff.mp (hfound type info hmem)
    refine ⟨htype, hfound type info hmem, ?_⟩
    rw [Shared.ofToken?, Shared.read, htoken]
  · rw [Shared.turn_refused_iff sound hsubject, refuses_iff]
    rfl

/-- As long as the lock is not poisoned, whoever registers types one after the other gets an entry for each. -/
theorem Shared.returned_of_registers {shared : Shared ι} {caller : ι} (sound : shared.table.Sound)
    (idle : shared.waiting caller = none) {types : List ElementType}
    (clean : (shared.run (types.map (.register caller))).2.poisoned = false) :
    ∀ type ∈ types, ∃ info, .returned type info ∈ (shared.run (types.map (.register caller))).1 := by
  induction types generalizing shared with
  | nil => exact fun _ h => nomatch h
  | cons first types ih =>
    have hsubject : shared.subject? (.register caller first) = some first := by
      rw [subject?, idle]
      rfl
    obtain ⟨nextSound, _, _, _⟩ := turn_sound sound (.register caller first)
    obtain ⟨_, _, _, hlater⟩ := run_sound nextSound (types.map (.register caller))
    have hclean : (shared.turn (.register caller first)).2.poisoned ≠ true := fun h =>
      Bool.false_ne_true (clean.symm.trans (hlater.mpr (.inl h)))
    have hends := ends_turn sound (.register caller first)
    obtain ⟨hidle, info, hinfo⟩ : (shared.turn (.register caller first)).2.waiting caller = none ∧
        ∃ info, (shared.turn (.register caller first)).1 = .returned first info := by
      generalize shared.turn (.register caller first) = ended at hends hclean ⊢
      cases hends with
      | idle hnone => cases hnone.symm.trans hsubject
      | waits _ _ hfind => cases hfind
      | barred | refused => exact absurd rfl hclean
      | returned hsubject' =>
        cases hsubject'.symm.trans hsubject
        exact ⟨Function.update_self _ _ _, _, rfl⟩
    intro type hmem
    obtain rfl | hmem := List.mem_cons.mp hmem
    · exact ⟨info, hinfo ▸ .head _⟩
    · obtain ⟨later, hreturned⟩ := ih nextSound hidle clean type hmem
      exact ⟨later, .tail _ hreturned⟩

/-- The lock is poisoned once somebody registers more types than there are tokens. -/
theorem Shared.poisoned_of_registers {shared : Shared ι} {caller : ι} (sound : shared.table.Sound)
    (idle : shared.waiting caller = none) {types : List ElementType} (distinct : types.Nodup)
    (crowded : 255 < types.length) : (shared.run (types.map (.register caller))).2.poisoned = true := by
  by_contra hclean
  have returned := returned_of_registers sound idle (Bool.eq_false_of_not_eq_true hclean)
  obtain ⟨lastSound, _, hfound, _⟩ := run_sound sound (types.map (.register caller))
  have known : types ⊆ (shared.run (types.map (.register caller))).2.table.entries.map Prod.fst := by
    intro type hmem
    obtain ⟨info, hinfo⟩ := returned type hmem
    obtain ⟨hentry, rfl⟩ := lastSound.find?_eq_some_iff.mp (hfound type info hinfo)
    obtain ⟨_, kind, hentry⟩ := ofToken?_eq_some_iff.mp hentry
    exact List.mem_map.mpr ⟨_, List.mem_of_getElem? hentry, rfl⟩
  have hlength := distinct.length_le_of_subset known
  rw [List.length_map] at hlength
  exact Nat.not_lt.mpr (hlength.trans lastSound.bound) crowded

/-- More types than there are tokens. -/
def strangers : List ElementType := (List.range 256).map fun serial => ⟨⟨serial, "x_rgba"⟩, 4, Bytes.ofNat 4 0⟩

theorem nodup_strangers : strangers.Nodup := by
  refine List.Nodup.map (fun serial other h => ?_) List.nodup_range
  exact congrArg (fun type : ElementType => type.id.serial) h

/-- They are registered by a caller that has looked a native type up before. -/
def crowd : List (Turn Unit) := .find () .f32 :: strangers.map (.register ())

/-- The last types find the table full, and then not even the token of the native type leads to its entry. -/
theorem ofToken?_of_crowd : ∃ outcomes last info, Shared.start.run crowd = (outcomes, last) ∧
    .returned .f32 info ∈ outcomes ∧ last.table.find? .f32 = some info ∧
      last.ofToken? info.token = .error .lockPoisoned := by
  obtain ⟨foundSound, _, _, _⟩ := Shared.turn_sound Shared.sound_start (.find () .f32)
  have crowded : 255 < strangers.length := by
    rw [strangers, List.length_map, List.length_range]
    exact Nat.lt_succ_self 255
  have idle : (Shared.start.turn (.find () .f32)).2.waiting () = none := rfl
  have hpoisoned := Shared.poisoned_of_registers foundSound idle nodup_strangers crowded
  rw [← Shared.snd_run_cons, ← crowd] at hpoisoned
  have hmem : .returned .f32 ⟨0, .f32⟩ ∈ (Shared.start.run crowd).1 := by
    rw [crowd, Shared.run]
    exact List.mem_cons_self
  obtain ⟨_, _, hfound, _⟩ := Shared.run_sound Shared.sound_start crowd
  refine ⟨_, _, _, (Prod.mk.eta).symm, hmem, hfound _ _ hmem, ?_⟩
  rw [Shared.ofToken?, Shared.read, if_pos hpoisoned]

/-- Two callers look a new type up before a third one registers it: all get one token, and the third its kind. -/
theorem tokens_of_turns_raced :
    ∃ rgba info last, rgba = ⟨"x_rgba", 4, Bytes.ofNat 4 0⟩ ∧
      Shared.start.run [.find 0 rgba, .find 1 rgba, .register 2 rgba, .add 0, .add 1] =
        ([.open, .open, .returned rgba info, .returned rgba info, .returned rgba info], last) ∧
      last.table.find? rgba = some info ∧ info.token = 6 ∧ last.kind 6 = .ok .compute := by
  obtain ⟨_, _, _, _, hrun, hlater, _, _, _, _, hreturned, _⟩ := tokens_of_turns
    [.find 0 ⟨"x_rgba", 4, Bytes.ofNat 4 0⟩, .find 1 ⟨"x_rgba", 4, Bytes.ofNat 4 0⟩,
      .register 2 ⟨"x_rgba", 4, Bytes.ofNat 4 0⟩, .add 0, .add 1] []
  cases hrun
  cases hlater
  obtain ⟨_, hfound, _⟩ := hreturned ⟨"x_rgba", 4, Bytes.ofNat 4 0⟩ ⟨6, ⟨"x_rgba", 4, Bytes.ofNat 4 0⟩⟩ (by
    rw [List.append_nil]
    exact List.mem_of_getElem? (i := 2) rfl)
  exact ⟨_, _, _, rfl, rfl, hfound, rfl, rfl⟩

end TypeTable

end ArrayEngine
