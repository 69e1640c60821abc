import ArrayEngine.Dispatch.Registry
import Mathlib.Data.List.Nodup
import Mathlib.Data.Prod.Basic

/-! A registry is one finite map on pairs of a name and a key, cut into a table for every name. -/
namespace ArrayEngine

namespace Assoc

variable {α β : Type} [BEq α] {map : Assoc α β} {key : α} {value : β}

/-- No two pairs of the map have one key. -/
def IsSound (map : Assoc α β) : Prop := (map.map Prod.fst).Nodup

theorem isSound_erase (sound : map.IsSound) (key : α) : (map.erase key).IsSound :=
  sound.sublist ((List.filter_sublist).map Prod.fst)

theorem mem_insert {pair : α × β} (h : pair ∈ map.insert key value) : pair = (key, value) ∨ pair ∈ map := by
  cases h with
  | head => exact .inl rfl
  | tail _ hrest => exact .inr (List.mem_filter.mp hrest).1

variable [LawfulBEq α]

theorem isSound_insert (sound : map.IsSound) (key : α) (value : β) : (map.insert key value).IsSound := by
  refine List.nodup_cons.mpr ⟨?_, isSound_erase sound key⟩
  intro hmem
  obtain ⟨pair, hpair, rfl⟩ := List.mem_map.mp hmem
  simpa using (List.mem_filter.mp hpair).2

theorem erase_of_lookup_eq_none (h : map.lookup key = none) : map.erase key = map := by
  rw [List.lookup_eq_none_iff] at h
  exact List.filter_eq_self.mpr fun pair hpair => by simpa [bne_comm] using h pair hpair

theorem IsSound.lookup_eq_some_iff (sound : map.IsSound) :
    map.lookup key = some value ↔ (key, value) ∈ map := by
  induction map with
  | nil => simp
  | cons pair map ih =>
    obtain ⟨hnew, hrest⟩ := List.nodup_cons.mp sound
    rw [List.lookup_cons, List.mem_cons]
    by_cases hkey : key = pair.1
    · have hout : (key, value) ∉ map := fun hmem => hnew (hkey ▸ List.mem_map_of_mem hmem)
      simp only [beq_iff_eq.mpr hkey, hout, or_false, Option.some.injEq]
      exact ⟨fun h => Prod.ext hkey h.symm, fun h => (congrArg Prod.snd h).symm⟩
    · have hne : (key, value) ≠ pair := fun h => hkey (congrArg Prod.fst h)
      simp only [beq_eq_false_iff_ne.mpr hkey, hne, false_or]
      exact ih hrest

end Assoc

namespace Registry

variable {ε : Type} {registry : Registry ε} {name other : String} {key otherKey : DispatchKey}

theorem get?_empty (name : String) (key : DispatchKey) : (empty : Registry ε).get? name key = none := rfl

theorem get?_insert (registry : Registry ε) (name other : String) (key otherKey : DispatchKey) (entry : ε) :
    (registry.insert name key entry).get? other otherKey =
      if other = name ∧ otherKey = key then some entry else registry.get? other otherKey := by
  by_cases hname : other = name
  · subst hname
    rw [get?, table, insert, Assoc.lookup_insert_self, Option.getD_some]
    by_cases hkey : otherKey = key
    · subst hkey
      rw [Assoc.lookup_insert_self, if_pos ⟨rfl, rfl⟩]
    · rw [Assoc.lookup_insert_of_ne _ _ hkey, if_neg fun h => hkey h.2]
      rfl
  · rw [get?, table, insert, Assoc.lookup_insert_of_ne _ _ hname, if_neg fun h => hname h.1]
    rfl

/-- The table of a name without an entry, also where it goes with its last entry. -/
theorem table_erase_self (registry : Registry ε) (name : String) (key : DispatchKey) :
    (registry.erase name key).table name = Assoc.erase (registry.table name) key := by
  rw [erase]
  split
  next hempty => rw [hempty, table, Assoc.lookup_erase_self, Option.getD_none]
  next => rw [table, Assoc.lookup_insert_self, Option.getD_some]

theorem table_erase_of_ne (registry : Registry ε) (key : DispatchKey) (h : other ≠ name) :
    (registry.erase name key).table other = registry.table other := by
  rw [erase]
  split
  next => rw [table, Assoc.lookup_erase_of_ne _ h, table]
  next => rw [table, Assoc.lookup_insert_of_ne _ _ h, table]

theorem get?_erase (registry : Registry ε) (name other : String) (key otherKey : DispatchKey) :
    (registry.erase name key).get? other otherKey =
      if other = name ∧ otherKey = key then none else registry.get? other otherKey := by
  by_cases hname : other = name
  · subst hname
    rw [get?, table_erase_self]
    by_cases hkey : otherKey = key
    · subst hkey
      rw [Assoc.lookup_erase_self, if_pos ⟨rfl, rfl⟩]
    · rw [Assoc.lookup_erase_of_ne _ hkey, if_neg fun h => hkey h.2, get?]
  · rw [get?, table_erase_of_ne _ _ hname, if_neg fun h => hname h.1, get?]

/-- What is removed is what was there, and nothing is done without a table. -/
theorem remove_eq (registry : Registry ε) (name : String) (key : DispatchKey) :
    registry.remove name key = (registry.get? name key, registry.erase name key) := by
  rw [remove]
  split
  next found hfound => rw [get?, table, hfound, Option.getD_some]
  next hnone =>
    have hempty : registry.table name = [] := by rw [table, hnone, Option.getD_none]
    have hsame : registry.erase name key = registry := by
      rw [erase, hempty]
      exact congrArg mk (Assoc.erase_of_lookup_eq_none hnone)
    rw [hsame, get?, hempty, List.lookup_nil]

/-- Every name has one table and every key of a table one entry. No table is empty. -/
structure IsSound (registry : Registry ε) : Prop where
  names : Assoc.IsSound registry.tables
  keys : ∀ named ∈ registry.tables, Assoc.IsSound named.2
  nonempty : ∀ named ∈ registry.tables, named.2 ≠ []

theorem isSound_empty : (empty : Registry ε).IsSound :=
  ⟨List.nodup_nil, fun _ h => absurd h List.not_mem_nil, fun _ h => absurd h List.not_mem_nil⟩

namespace IsSound

theorem table (sound : registry.IsSound) (name : String) : Assoc.IsSound (registry.table name) := by
  rw [Registry.table]
  cases htable : registry.tables.lookup name with
  | none => exact List.nodup_nil
  | some table => exact sound.keys (name, table) (sound.names.lookup_eq_some_iff.mp htable)

/-- A registry stays sound if a name gets a sound table that is not empty. -/
private theorem replace (sound : registry.IsSound) (name : String) {table : Assoc DispatchKey ε}
    (hkeys : Assoc.IsSound table) (hnonempty : table ≠ []) :
    IsSound ⟨Assoc.insert registry.tables name table⟩ := by
  refine ⟨Assoc.isSound_insert sound.names name table, fun named hnamed => ?_, fun named hnamed => ?_⟩
  · obtain rfl | hold := Assoc.mem_insert hnamed
    · exact hkeys
    · exact sound.keys named hold
  · obtain rfl | hold := Assoc.mem_insert hnamed
    · exact hnonempty
    · exact sound.nonempty named hold

theorem insert (sound : registry.IsSound) (name : String) (key : DispatchKey) (entry : ε) :
    (registry.insert name key entry).IsSound :=
  sound.replace name (Assoc.isSound_insert (sound.table name) key entry) (List.cons_ne_nil _ _)

theorem erase (sound : registry.IsSound) (name : String) (key : DispatchKey) :
    (registry.erase name key).IsSound := by
  have hrest := Assoc.isSound_erase (sound.table name) key
  rw [Registry.erase]
  split
  next =>
    have hold (named) (h : named ∈ Assoc.erase registry.tables name) : named ∈ registry.tables :=
      (List.mem_filter.mp h).1
    exact ⟨Assoc.isSound_erase sound.names name, fun named h => sound.keys named (hold named h),
      fun named h => sound.nonempty named (hold named h)⟩
  next hnonempty => exact sound.replace name hrest hnonempty

end IsSound

/-- The pairs of a name and a key that have an entry. -/
def pairs (registry : Registry ε) : List (String × DispatchKey) :=
  registry.tables.flatMap fun named => named.2.map fun keyed => (named.1, keyed.1)

theorem length_pairs (registry : Registry ε) : registry.pairs.length = registry.size := by
  rw [size, pairs, List.length_flatMap, List.sum_eq_foldl, List.foldl_map]
  simp only [List.length_map]

theorem IsSound.mem_pairs (sound : registry.IsSound) :
    (name, key) ∈ registry.pairs ↔ ∃ entry, registry.get? name key = some entry := by
  have htable (keyed : Assoc DispatchKey ε) : registry.tables.lookup name = some keyed ↔
      (name, keyed) ∈ registry.tables := sound.names.lookup_eq_some_iff
  constructor
  · intro hmem
    obtain ⟨named, hnamed, hkeyed⟩ := List.mem_flatMap.mp hmem
    obtain ⟨keyed, hentry, hpair⟩ := List.mem_map.mp hkeyed
    cases hpair
    refine ⟨keyed.2, ?_⟩
    rw [get?, Registry.table, (htable named.2).mpr hnamed, Option.getD_some]
    exact (sound.keys named hnamed).lookup_eq_some_iff.mpr hentry
  · rintro ⟨entry, hentry⟩
    rw [get?, Registry.table] at hentry
    cases hfound : registry.tables.lookup name with
    | none => simp [hfound] at hentry
    | some keyed =>
      rw [hfound, Option.getD_some] at hentry
      have hnamed := (htable keyed).mp hfound
      have hkeyed := (sound.keys _ hnamed).lookup_eq_some_iff.mp hentry
      exact List.mem_flatMap.mpr ⟨_, hnamed, List.mem_map.mpr ⟨_, hkeyed, rfl⟩⟩

theorem IsSound.nodup_pairs (sound : registry.IsSound) : registry.pairs.Nodup := by
  rw [pairs, List.nodup_flatMap]
  constructor
  · intro named hnamed
    have hkeys : (named.2.map fun keyed => (named.1, keyed.1)) =
        (named.2.map Prod.fst).map (Prod.mk named.1) := (List.map_map ..).symm
    rw [hkeys]
    exact (sound.keys named hnamed).map (Prod.mk_right_injective _)
  · refine (List.pairwise_map.mp sound.names).imp ?_
    intro first second hne pair hfirst hsecond
    obtain ⟨_, _, rfl⟩ := List.mem_map.mp hfirst
    obtain ⟨_, _, hpair⟩ := List.mem_map.mp hsecond
    exact hne (congrArg Prod.fst hpair).symm

end Registry

end ArrayEngine
