import ArrayEngine.Proofs.Dispatch.Registry
import ArrayEngine.TypeTable
import Mathlib.Tactic.IntervalCases

/-! The table of known types: tokens and entries are inverse to each other, and whatever is added or promoted
leaves every type its token. -/
namespace ArrayEngine

namespace TypeTable

variable {table later last : TypeTable} {type : ElementType} {info : TypeInfo} {kind : TypeKind}
  {token : TypeToken} {trap : Trap}

/-- Types and entries lead to each other by token, and the native types alone are of their kind. -/
structure Sound (table : TypeTable) : Prop where
  bound : table.entries.length ≤ maxToken
  tokens : ∀ (type : ElementType) (token : TypeToken), table.tokens.lookup type = some token ↔
    ∃ kind, table.entries[token.toNat]? = some (type, kind)
  native : ∀ (place : Nat) (type : NumericType), NumericType.native[place]? = some type →
    table.entries[place]? = some (type.toElementType, .native)
  others : ∀ (place : Nat) (type : ElementType), table.entries[place]? = some (type, .native) →
    place < nativeCount

/-- Every type of the first table has its token in the second one. Its kind is the same, or it was a storage
type and is a compute type now. -/
def Extends (table later : TypeTable) : Prop :=
  ∀ (place : Nat) (type : ElementType) (kind : TypeKind), table.entries[place]? = some (type, kind) →
    ∃ kind', later.entries[place]? = some (type, kind') ∧ (kind' = kind ∨ kind = .storage ∧ kind' = .compute)

theorem Extends.refl (table : TypeTable) : table.Extends table :=
  fun _ _ kind h => ⟨kind, h, .inl rfl⟩

theorem Extends.trans (hfirst : table.Extends later) (hsecond : later.Extends last) : table.Extends last := by
  intro place type kind h
  obtain ⟨middle, hmiddle, hstart⟩ := hfirst place type kind h
  obtain ⟨final, hfinal, hend⟩ := hsecond place type middle hmiddle
  refine ⟨final, hfinal, ?_⟩
  obtain rfl | ⟨rfl, rfl⟩ := hstart
  · exact hend
  · obtain rfl | ⟨hstorage, _⟩ := hend
    · exact .inr ⟨rfl, rfl⟩
    · cases hstorage

theorem ofToken?_eq_some_iff : table.ofToken? token = some info ↔
    info.token = token ∧ ∃ kind, table.entries[token.toNat]? = some (info.type, kind) := by
  rw [ofToken?, Option.map_eq_some_iff]
  constructor
  · rintro ⟨⟨type, kind⟩, hentry, rfl⟩
    exact ⟨rfl, kind, hentry⟩
  · rintro ⟨rfl, kind, hentry⟩
    exact ⟨_, hentry, rfl⟩

/-- A type is known as the one of its token. -/
theorem Sound.find?_eq_some_iff (sound : table.Sound) :
    table.find? type = some info ↔ table.ofToken? info.token = some info ∧ info.type = type := by
  have hfind : table.find? type = some info ↔ ∃ token, table.tokens.lookup type = some token ∧
      table.ofToken? token = some info := Option.bind_eq_some_iff
  rw [hfind]
  constructor
  · rintro ⟨token, hlookup, hfound⟩
    obtain ⟨rfl, kind, hentry⟩ := ofToken?_eq_some_iff.mp hfound
    obtain ⟨_, hlooked⟩ := (sound.tokens _ _).mp hlookup
    cases hentry.symm.trans hlooked
    exact ⟨hfound, rfl⟩
  · rintro ⟨hfound, rfl⟩
    obtain ⟨_, kind, hentry⟩ := ofToken?_eq_some_iff.mp hfound
    exact ⟨info.token, (sound.tokens _ _).mpr ⟨kind, hentry⟩, hfound⟩

theorem Extends.ofToken? (hextends : table.Extends later) (h : table.ofToken? token = some info) :
    later.ofToken? token = some info := by
  obtain ⟨htoken, kind, hentry⟩ := ofToken?_eq_some_iff.mp h
  obtain ⟨kind', hlater, _⟩ := hextends _ _ _ hentry
  exact ofToken?_eq_some_iff.mpr ⟨htoken, kind', hlater⟩

theorem Extends.find? (hextends : table.Extends later) (sound : table.Sound) (laterSound : later.Sound)
    (h : table.find? type = some info) : later.find? type = some info := by
  obtain ⟨hfound, htype⟩ := sound.find?_eq_some_iff.mp h
  exact laterSound.find?_eq_some_iff.mpr ⟨hextends.ofToken? hfound, htype⟩

/-- The kind of a token is native if the token is. -/
theorem Sound.kind_eq_native_iff (sound : table.Sound) : table.kind token = .native ↔ token.isNative = true := by
  rw [TypeToken.isNative, decide_eq_true_iff, kind]
  constructor
  · intro h
    cases hentry : table.entries[token.toNat]? with
    | none =>
      rw [hentry] at h
      cases h
    | some entry =>
      have hkind : entry.2 = .native := by rwa [hentry] at h
      exact sound.others _ entry.1 (by rw [hentry, ← hkind])
  · intro h
    rw [sound.native token.toNat _ (List.getElem?_eq_getElem h)]
    rfl

/-- The tokens are all that are below the number of the types. -/
theorem Sound.exists_lookup_iff (sound : table.Sound) :
    (∃ type, table.tokens.lookup type = some token) ↔ token.toNat < table.entries.length := by
  constructor
  · rintro ⟨type, hlookup⟩
    obtain ⟨_, hentry⟩ := (sound.tokens type token).mp hlookup
    exact (List.getElem?_eq_some_iff.mp hentry).1
  · intro hlt
    exact ⟨_, (sound.tokens _ token).mpr ⟨_, List.getElem?_eq_getElem hlt⟩⟩

/-- Two entries are equal if they are of one type. -/
theorem Sound.beq_iff (sound : table.Sound) {other : ElementType} {second : TypeInfo}
    (h : table.find? type = some info) (hother : table.find? other = some second) :
    (info == second) = true ↔ type = other := by
  obtain ⟨hfound, htype⟩ := sound.find?_eq_some_iff.mp h
  obtain ⟨hsecond, hotherType⟩ := sound.find?_eq_some_iff.mp hother
  constructor
  · intro hsame
    have htoken : info.token = second.token := eq_of_beq hsame
    rw [htoken, hsecond] at hfound
    rw [← htype, ← hotherType, Option.some.inj hfound]
  · rintro rfl
    rw [Option.some.inj (h.symm.trans hother)]
    exact beq_self_eq_true second.token

theorem Sound.find?_native (sound : table.Sound) {place : Nat} {type : NumericType}
    (h : NumericType.native[place]? = some type) :
    table.find? type.toElementType = some ⟨UInt8.ofNat place, type.toElementType⟩ := by
  have hlt : place < 4 := (List.getElem?_eq_some_iff.mp h).1
  have hplace : (UInt8.ofNat place).toNat = place := UInt8.toNat_ofNat_of_lt (Nat.lt_trans hlt (by decide))
  refine sound.find?_eq_some_iff.mpr ⟨ofToken?_eq_some_iff.mpr ⟨rfl, .native, ?_⟩, rfl⟩
  rw [hplace]
  exact sound.native place type h

theorem Sound.find?_eq_none_iff (sound : table.Sound) : table.find? type = none ↔
    table.tokens.lookup type = none := by
  constructor
  · intro h
    by_contra hsome
    obtain ⟨token, htoken⟩ := Option.ne_none_iff_exists'.mp hsome
    obtain ⟨kind, hentry⟩ := (sound.tokens _ _).mp htoken
    have hfound : table.find? type = some ⟨token, type⟩ :=
      sound.find?_eq_some_iff.mpr ⟨ofToken?_eq_some_iff.mpr ⟨rfl, kind, hentry⟩, rfl⟩
    cases h.symm.trans hfound
  · intro h
    exact Option.bind_eq_none_iff.mpr fun token htoken => by rw [h] at htoken; cases htoken

/-- The table with a type that it did not have. -/
def push (table : TypeTable) (type : ElementType) (kind : TypeKind) : TypeTable :=
  ⟨table.entries ++ [(type, kind)], (type, UInt8.ofNat table.entries.length) :: table.tokens⟩

theorem extends_push (table : TypeTable) (type : ElementType) (kind : TypeKind) :
    table.Extends (table.push type kind) := by
  intro place known kind' h
  refine ⟨kind', ?_, .inl rfl⟩
  rw [push, List.getElem?_append_left (List.getElem?_eq_some_iff.mp h).1, h]

theorem getElem?_push {place : Nat} {entry : ElementType × TypeKind} :
    (table.push type kind).entries[place]? = some entry ↔
      table.entries[place]? = some entry ∨ place = table.entries.length ∧ (type, kind) = entry := by
  obtain hlt | rfl | hgt := Nat.lt_trichotomy place table.entries.length
  · rw [push, List.getElem?_append_left hlt]
    simp [Nat.ne_of_lt hlt]
  · rw [push, List.getElem?_concat_length]
    simp
  · have hnone : ((table.entries ++ [(type, kind)])[place]?) = none := List.getElem?_eq_none (by simp; omega)
    rw [push, hnone, List.getElem?_eq_none (Nat.le_of_lt hgt)]
    simp [Nat.ne_of_gt hgt]

theorem lookup_push (table : TypeTable) (type : ElementType) (kind : TypeKind) (other : ElementType) :
    (table.push type kind).tokens.lookup other =
      if other = type then some (UInt8.ofNat table.entries.length) else table.tokens.lookup other := by
  rw [push, List.lookup_cons]
  split
  next hsame => rw [if_pos (beq_iff_eq.mp hsame)]
  next hother => rw [if_neg (beq_eq_false_iff_ne.mp hother)]

theorem insert_eq (table : TypeTable) (kind : TypeKind) (type : ElementType) :
    table.insert kind type = match table.find? type with
      | some info => .ok (info, table)
      | none =>
        if table.entries.length < maxToken then
          .ok (⟨UInt8.ofNat table.entries.length, type⟩, table.push type kind)
        else .error (.typeTableFull type.name) := rfl

/-- The next token is the number of the types. -/
theorem toNat_next (hroom : table.entries.length < maxToken) :
    (UInt8.ofNat table.entries.length).toNat = table.entries.length :=
  UInt8.toNat_ofNat_of_lt (Nat.lt_trans hroom (by decide))

theorem Sound.push (sound : table.Sound) (hroom : table.entries.length < maxToken)
    (hnew : table.tokens.lookup type = none) (hkind : kind ≠ .native) : (table.push type kind).Sound := by
  refine ⟨?_, fun other token => ?_, fun place known hnative => ?_, fun place known hentry => ?_⟩
  · rw [TypeTable.push, List.length_append]
    exact hroom
  · rw [lookup_push]
    simp only [getElem?_push]
    split
    next hsame =>
      subst hsame
      constructor
      · intro htoken
        cases htoken
        exact ⟨kind, .inr ⟨toNat_next hroom, rfl⟩⟩
      · rintro ⟨old, hentry | ⟨hplace, _⟩⟩
        · -- no older entry is of the type
          cases hnew.symm.trans ((sound.tokens _ _).mpr ⟨old, hentry⟩)
        · exact congrArg some (UInt8.toNat_inj.mp ((toNat_next hroom).trans hplace.symm))
    next hother =>
      rw [sound.tokens]
      constructor
      · rintro ⟨old, hentry⟩
        exact ⟨old, .inl hentry⟩
      · rintro ⟨old, hentry | ⟨_, hpushed⟩⟩
        · exact ⟨old, hentry⟩
        · cases hpushed
          exact absurd rfl hother
  · exact getElem?_push.mpr (.inl (sound.native place known hnative))
  · obtain hold | ⟨_, hpushed⟩ := getElem?_push.mp hentry
    · exact sound.others place known hold
    · exact absurd (congrArg Prod.snd hpushed) hkind

/-- The later table is sound, has all types of the first one, and knows the type as this one. The first table
knew it, or had room for it. -/
structure Adds (table : TypeTable) (type : ElementType) (info : TypeInfo) (later : TypeTable) : Prop where
  sound : later.Sound
  grown : table.Extends later
  found : later.find? type = some info
  room : table.find? type = some info ∨ table.entries.length < maxToken

/-- A refusal: all tokens are taken, none of them by the type. -/
structure Refuses (table : TypeTable) (type : ElementType) (trap : Trap) : Prop where
  unknown : table.find? type = none
  full : table.entries.length = maxToken
  named : trap = .typeTableFull type.name

theorem refuses_iff : table.Refuses type trap ↔
    table.find? type = none ∧ table.entries.length = maxToken ∧ trap = .typeTableFull type.name :=
  ⟨fun h => ⟨h.unknown, h.full, h.named⟩, fun ⟨unknown, full, named⟩ => ⟨unknown, full, named⟩⟩

theorem Sound.adds_of_insert (sound : table.Sound) (hkind : kind ≠ .native)
    (h : table.insert kind type = .ok (info, later)) : table.Adds type info later := by
  rw [insert_eq] at h
  split at h
  next hfound =>
    cases h
    exact ⟨sound, .refl table, hfound, .inl hfound⟩
  next hunknown =>
    split at h
    next hroom =>
      cases h
      have hpush := sound.push hroom (sound.find?_eq_none_iff.mp hunknown) hkind
      refine ⟨hpush, extends_push table type kind, ?_, .inr hroom⟩
      refine hpush.find?_eq_some_iff.mpr ⟨ofToken?_eq_some_iff.mpr ⟨rfl, kind, ?_⟩, rfl⟩
      exact getElem?_push.mpr (.inr ⟨toNat_next hroom, rfl⟩)
    next => cases h

theorem Sound.refuses_of_insert (sound : table.Sound) (h : table.insert kind type = .error trap) :
    table.Refuses type trap := by
  rw [insert_eq] at h
  split at h
  next => cases h
  next hunknown =>
    split at h
    next => cases h
    next hroom =>
      cases h
      exact ⟨hunknown, Nat.le_antisymm sound.bound (Nat.le_of_not_lt hroom), rfl⟩

/-- The second lookup of a call makes the first one a shortcut. -/
theorem intern_eq_insert (table : TypeTable) (type : ElementType) :
    table.intern type = table.insert .storage type := by
  rw [intern]
  split
  next info hfound => rw [insert, hfound]
  next => rfl

/-- A promotion changes nothing but the kind of a storage type. -/
theorem getElem?_promote (table : TypeTable) (token : TypeToken) (place : Nat) :
    (table.promote token).entries[place]? = table.entries[place]?.map fun entry =>
      if place = token.toNat ∧ entry.2 = .storage then (entry.1, .compute) else entry := by
  rw [promote]
  split
  next type hstorage =>
    obtain ⟨hlt, _⟩ := List.getElem?_eq_some_iff.mp hstorage
    by_cases hplace : place = token.toNat
    · rw [hplace, List.getElem?_set_self hlt, hstorage]
      simp
    · rw [List.getElem?_set_ne fun h => hplace h.symm]
      simp [hplace]
  next hother =>
    cases hentry : table.entries[place]? with
    | none => rfl
    | some entry =>
      have hkept : ¬(place = token.toNat ∧ entry.2 = .storage) := by
        rintro ⟨rfl, hstorage⟩
        exact hother entry.1 (by rw [hentry, ← hstorage])
      rw [Option.map_some, if_neg hkept]

theorem tokens_promote (table : TypeTable) (token : TypeToken) : (table.promote token).tokens = table.tokens := by
  rw [promote]
  split <;> rfl

theorem extends_promote (table : TypeTable) (token : TypeToken) : table.Extends (table.promote token) := by
  intro place type kind h
  rw [getElem?_promote, h, Option.map_some]
  split
  next hstorage => exact ⟨.compute, rfl, .inr ⟨hstorage.2, rfl⟩⟩
  next => exact ⟨kind, rfl, .inl rfl⟩

/-- The entry of a promoted table was there before, and it was no native one unless it is one now. -/
theorem exists_of_promote {place : Nat} (h : (table.promote token).entries[place]? = some (type, kind)) :
    ∃ before, table.entries[place]? = some (type, before) ∧ (kind = .native → before = .native) := by
  rw [getElem?_promote, Option.map_eq_some_iff] at h
  obtain ⟨entry, hentry, hpromoted⟩ := h
  split at hpromoted
  · cases hpromoted
    exact ⟨entry.2, hentry, fun h => nomatch h⟩
  · cases hpromoted
    exact ⟨kind, hentry, id⟩

theorem Sound.promote (sound : table.Sound) (token : TypeToken) : (table.promote token).Sound := by
  refine ⟨?_, fun type other => ?_, fun place type hnative => ?_, fun place type hentry => ?_⟩
  · have hlength : (table.promote token).entries.length = table.entries.length := by
      rw [TypeTable.promote]
      split
      · exact List.length_set
      · rfl
    rw [hlength]
    exact sound.bound
  · rw [tokens_promote, sound.tokens]
    constructor
    · rintro ⟨kind, hentry⟩
      obtain ⟨kind', hlater, _⟩ := extends_promote table token _ _ _ hentry
      exact ⟨kind', hlater⟩
    · rintro ⟨kind, hentry⟩
      obtain ⟨before, hbefore, _⟩ := exists_of_promote hentry
      exact ⟨before, hbefore⟩
  · rw [getElem?_promote, sound.native place type hnative]
    simp
  · obtain ⟨before, hbefore, hkind⟩ := exists_of_promote hentry
    exact sound.others place type (hkind rfl ▸ hbefore)

/-- A registration adds the type, and promotes it in any case. -/
theorem internCompute_eq (table : TypeTable) (type : ElementType) :
    table.internCompute type = (table.insert .compute type).map fun (info, later) =>
      (info, later.promote info.token) := by
  rw [internCompute]
  cases hfind : table.find? type with
  | none => cases table.insert .compute type <;> rfl
  | some info =>
    rw [insert, hfind]
    rfl

theorem Sound.adds_of_internCompute (sound : table.Sound) (h : table.internCompute type = .ok (info, later)) :
    table.Adds type info later := by
  rw [internCompute_eq] at h
  cases hinsert : table.insert .compute type with
  | error trap =>
    rw [hinsert] at h
    cases h
  | ok added =>
    rw [hinsert] at h
    cases h
    have hadds := sound.adds_of_insert (by decide) hinsert
    have hpromoted := hadds.sound.promote added.1.token
    have hgrown := extends_promote added.2 added.1.token
    exact ⟨hpromoted, hadds.grown.trans hgrown, hgrown.find? hadds.sound hpromoted hadds.found, hadds.room⟩

theorem Sound.refuses_of_internCompute (sound : table.Sound) (h : table.internCompute type = .error trap) :
    table.Refuses type trap := by
  rw [internCompute_eq] at h
  cases hinsert : table.insert .compute type with
  | error cause =>
    rw [hinsert] at h
    cases h
    exact sound.refuses_of_insert hinsert
  | ok added =>
    rw [hinsert] at h
    cases h

theorem kind_of_getElem? {place : Nat} {entry : Option (ElementType × TypeKind)} (hplace : token.toNat = place)
    (hentry : table.entries[place]? = entry) : table.kind token = (entry.map Prod.snd).getD .storage := by
  rw [TypeTable.kind, hplace, hentry]

theorem kind_push (hroom : table.entries.length < maxToken) : (table.push type kind).kind token =
    if token = UInt8.ofNat table.entries.length then kind else table.kind token := by
  split
  next hnext =>
    rw [kind_of_getElem? (hnext ▸ toNat_next hroom) (getElem?_push.mpr (.inr ⟨rfl, rfl⟩))]
    rfl
  next hother =>
    have hplace : token.toNat ≠ table.entries.length := fun h =>
      hother (UInt8.toNat_inj.mp (h.trans (toNat_next hroom).symm))
    have hentry : (table.push type kind).entries[token.toNat]? = table.entries[token.toNat]? := by
      ext entry
      rw [getElem?_push, or_iff_left fun h => hplace h.1]
    rw [kind_of_getElem? rfl hentry, TypeTable.kind]

/-- Only a type that is new and not just stored changes the kind of a token. -/
theorem kind_of_insert (h : table.insert kind type = .ok (info, later))
    (hkept : kind = .storage ∨ token ≠ info.token) : later.kind token = table.kind token := by
  rw [insert_eq] at h
  split at h
  next => cases h; rfl
  next =>
    split at h
    next hroom =>
      cases h
      rw [kind_push hroom]
      split
      next hnext =>
        rw [hnext, kind_of_getElem? (toNat_next hroom) (List.getElem?_eq_none (Nat.le_refl _))]
        exact hkept.resolve_right fun hne => hne hnext
      next => rfl
    next => cases h

theorem kind_promote (table : TypeTable) (token other : TypeToken) (hknown : token.toNat < table.entries.length) :
    (table.promote token).kind other =
      if other = token ∧ table.kind other = .storage then .compute else table.kind other := by
  rw [kind_of_getElem? rfl (getElem?_promote table token other.toNat), kind_of_getElem? rfl rfl]
  simp only [UInt8.toNat_inj]
  by_cases hsame : other = token
  · rw [hsame, List.getElem?_eq_getElem hknown]
    simp only [Option.map_some, Option.getD_some, true_and]
    split <;> rfl
  · simp [hsame]

/-- A registration makes its type a compute type unless it is native, and changes no other kind. -/
theorem Sound.kind_of_internCompute (sound : table.Sound) (h : table.internCompute type = .ok (info, later)) :
    later.kind token = if token = info.token ∧ token.isNative = false then .compute else table.kind token := by
  rw [internCompute_eq] at h
  cases hinsert : table.insert .compute type with
  | error trap =>
    rw [hinsert] at h
    cases h
  | ok added =>
    rw [hinsert] at h
    cases h
    have hadds := sound.adds_of_insert (by decide) hinsert
    obtain ⟨_, _, hentry⟩ := ofToken?_eq_some_iff.mp (hadds.sound.find?_eq_some_iff.mp hadds.found).1
    rw [kind_promote _ _ _ (List.getElem?_eq_some_iff.mp hentry).1]
    by_cases hsame : token = added.1.token
    · have hbefore : table.kind token = .native ↔ token.isNative = true := sound.kind_eq_native_iff
      have hafter : added.2.kind token = .native ↔ token.isNative = true := hadds.sound.kind_eq_native_iff
      cases hnative : token.isNative with
      | true => simp [hafter.mpr hnative, hbefore.mpr hnative]
      | false =>
        have hnot : added.2.kind token ≠ .native := fun h => by simp [hafter.mp h] at hnative
        cases hkind : added.2.kind token <;> simp_all
    · simp [hsame, kind_of_insert hinsert (.inr hsame)]

/-- The tokens of the types known from the start are their places. -/
theorem lookup_builtin {type : ElementType} {token : TypeToken} : builtin.tokens.lookup type = some token ↔
    ∃ kind, builtin.entries[token.toNat]? = some (type, kind) := by
  have hkeys : Assoc.IsSound builtin.tokens := by
    rw [Assoc.IsSound]
    decide
  have htokens : builtin.tokens =
      builtin.entries.zipIdx.map fun entry => (entry.1.1, UInt8.ofNat entry.2) := rfl
  rw [hkeys.lookup_eq_some_iff, htokens, List.mem_map]
  constructor
  · rintro ⟨⟨entry, place⟩, hmem, hpair⟩
    have hentry := List.mem_zipIdx_iff_getElem?.mp hmem
    have hlt : place < 6 := (List.getElem?_eq_some_iff.mp hentry).1
    cases hpair
    refine ⟨entry.2, ?_⟩
    rw [show (UInt8.ofNat place).toNat = place from UInt8.toNat_ofNat_of_lt (Nat.lt_trans hlt (by decide))]
    exact hentry
  · rintro ⟨kind, hentry⟩
    refine ⟨((type, kind), token.toNat), List.mem_zipIdx_iff_getElem?.mpr hentry, ?_⟩
    rw [UInt8.ofNat_toNat]

theorem sound_builtin : builtin.Sound where
  bound := by decide
  tokens _ _ := lookup_builtin
  native place type h := by
    have hlt : place < 4 := (List.getElem?_eq_some_iff.mp h).1
    interval_cases place <;> cases h <;> rfl
  others place type h := by
    by_contra hlarge
    have hlt : place < 6 := (List.getElem?_eq_some_iff.mp h).1
    have hge : 4 ≤ place := Nat.le_of_not_lt hlarge
    interval_cases place <;> cases h

end TypeTable

end ArrayEngine
