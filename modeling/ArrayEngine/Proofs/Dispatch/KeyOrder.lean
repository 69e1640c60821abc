import Mathlib.Data.List.Sort
import ArrayEngine.Proofs.Dispatch.GeneralKeys

/-! The order of keys. General keys come in the order of the lengths of their lists of tokens, and those of one
length in the order of the first token that differs. Native keys of one arity come in that order too. -/
namespace ArrayEngine

/-- Shorter lists first, and lists of one length in the order of their first different tokens. -/
def shortlex (tokens other : List TypeToken) : Ordering :=
  (compare tokens.length other.length).then (compare tokens other)

/-- There is one way to put the members of a list in shortlex order. -/
theorem eq_of_shortlex {different other : List (List TypeToken)}
    (ordered : different.Pairwise fun tokens other => shortlex tokens other = .lt)
    (otherOrdered : other.Pairwise fun tokens other => shortlex tokens other = .lt)
    (same : ∀ tokens, tokens ∈ different ↔ tokens ∈ other) : different = other := by
  have : Std.Irrefl fun tokens other => shortlex tokens other = .lt := ⟨fun tokens => by simp [shortlex]⟩
  have : Std.Antisymm fun tokens other => shortlex tokens other = .lt := by
    refine ⟨fun tokens other h h' => ?_⟩
    rw [shortlex, Std.OrientedOrd.eq_swap (a := other.length), Std.OrientedOrd.eq_swap (a := other)] at h'
    rw [shortlex] at h
    grind [Ordering.then, Ordering.swap]
  exact ordered.eq_of_mem_iff otherOrdered (by simpa using same)

/-- Numbers are in the order of what stands above their lowest digits, and then in that of these. -/
theorem compare_mul_add {base : Nat} (high other : Nat) {low rest : Nat} (hlow : low < base)
    (hrest : rest < base) :
    compare (high * base + low) (other * base + rest) = (compare high other).then (compare low rest) := by
  rcases Nat.lt_trichotomy high other with h | rfl | h
  · have hle : (high + 1) * base ≤ other * base := Nat.mul_le_mul_right _ h
    rw [Nat.succ_mul] at hle
    rw [Nat.compare_eq_lt.mpr h, Ordering.lt_then, Nat.compare_eq_lt]
    omega
  · rw [Nat.compare_eq_eq.mpr rfl, Ordering.eq_then]
    simp only [Nat.compare_eq_ite_lt, Nat.add_lt_add_iff_left]
  · have hle : (other + 1) * base ≤ high * base := Nat.mul_le_mul_right _ h
    rw [Nat.succ_mul] at hle
    rw [Nat.compare_eq_gt.mpr h, Ordering.gt_then, Nat.compare_eq_gt]
    omega

/-- Tuples of as many digits are packed in their order, since the first digit is the most significant one. -/
theorem compare_packDigits {bits : Nat} {digits other : List Nat} (same : digits.length = other.length)
    (small : ∀ digit ∈ digits, digit < 2 ^ bits) (otherSmall : ∀ digit ∈ other, digit < 2 ^ bits) :
    compare (packDigits bits digits) (packDigits bits other) = compare digits other := by
  induction digits generalizing other with
  | nil =>
    cases other with
    | nil => rfl
    | cons first other => cases same
  | cons digit digits ih =>
    rcases other with _ | ⟨first, other⟩
    · cases same
    have hlength : digits.length = other.length := Nat.succ.inj same
    have hrest := fun digit h => small digit (List.mem_cons_of_mem _ h)
    have hother := fun digit h => otherSmall digit (List.mem_cons_of_mem _ h)
    rw [packDigits_cons, packDigits_cons, ← hlength,
      compare_mul_add digit first (packDigits_lt hrest) (hlength ▸ packDigits_lt hother), ih hlength hrest hother,
      List.compare_cons_cons]

theorem compare_token (token other : TypeToken) : compare token.toNat other.toNat = compare token other := by
  change compare token.toNat other.toNat = compareOfLessAndEq token other
  simp only [Nat.compare_eq_ite_lt, compareOfLessAndEq, UInt8.lt_iff_toNat_lt, ← UInt8.toNat_inj]
  grind

theorem compare_word (word other : UInt64) : compare word.toNat other.toNat = compare word other := by
  change compare word.toNat other.toNat = compareOfLessAndEq word other
  simp only [Nat.compare_eq_ite_lt, compareOfLessAndEq, UInt64.lt_iff_toNat_lt, ← UInt64.toNat_inj]
  grind

theorem compare_map_toNat (tokens other : List TypeToken) :
    compare (tokens.map UInt8.toNat) (other.map UInt8.toNat) = compare tokens other := by
  induction tokens generalizing other with
  | nil => cases other <;> rfl
  | cons token tokens ih =>
    cases other with
    | nil => rfl
    | cons first other => simp only [List.map_cons, List.compare_cons_cons, ih, compare_token]

/-- So are tokens that are digits. -/
theorem compare_packDigits_tokens {bits : Nat} {tokens other : List TypeToken} (same : tokens.length = other.length)
    (small : ∀ digit ∈ tokens.map UInt8.toNat, digit < 2 ^ bits)
    (otherSmall : ∀ digit ∈ other.map UInt8.toNat, digit < 2 ^ bits) :
    compare (packDigits bits (tokens.map UInt8.toNat)) (packDigits bits (other.map UInt8.toNat)) =
      compare tokens other := by
  rw [compare_packDigits (by simpa using same) small otherSmall, compare_map_toNat]

section Repeats

variable {α : Type} [BEq α]

private theorem loop_eq_append (a : α) (list before : List α) :
    List.eraseRepsBy.loop (· == ·) a list before = before.reverse ++ List.eraseRepsBy.loop (· == ·) a list [] := by
  induction list generalizing a before with
  | nil => simp [List.eraseRepsBy.loop]
  | cons b list ih =>
    simp only [List.eraseRepsBy.loop]
    split
    · exact ih a before
    · rw [ih b (a :: before), ih b [a]]
      simp

theorem eraseReps_cons_cons (a b : α) (list : List α) :
    (a :: b :: list).eraseReps = if a == b then (a :: list).eraseReps else a :: (b :: list).eraseReps := by
  simp only [List.eraseReps, List.eraseRepsBy, List.eraseRepsBy.loop]
  cases a == b with
  | true => rfl
  | false => exact loop_eq_append b list [a]

variable [LawfulBEq α]

/-- Only repeats are left out. -/
theorem mem_eraseReps {a : α} {list : List α} : a ∈ list.eraseReps ↔ a ∈ list := by
  match list with
  | [] => rfl
  | [b] => rfl
  | b :: c :: list =>
    rw [eraseReps_cons_cons]
    split
    · next same =>
      rw [mem_eraseReps, eq_of_beq same]
      simp
    · rw [List.mem_cons, mem_eraseReps]
      simp only [List.mem_cons]
termination_by list.length

/-- No element of an ordered list is left that stands there twice. -/
theorem pairwise_eraseReps {le : α → α → Prop} (antisymm : ∀ a b, le a b → le b a → a = b) {list : List α}
    (ordered : list.Pairwise le) : list.eraseReps.Pairwise fun a b => le a b ∧ a ≠ b := by
  match list with
  | [] => exact .nil
  | [b] => exact List.pairwise_singleton _ _
  | b :: c :: list =>
    obtain ⟨first, rest⟩ := List.pairwise_cons.mp ordered
    rw [eraseReps_cons_cons]
    split
    · next same =>
      exact pairwise_eraseReps antisymm (eq_of_beq same ▸ rest)
    · next differs =>
      refine List.pairwise_cons.mpr ⟨fun a ha => ?_, pairwise_eraseReps antisymm rest⟩
      have hmem := mem_eraseReps.mp ha
      refine ⟨first a hmem, ?_⟩
      rintro rfl
      -- what is equal to the first element would be equal to the second one
      have hle : le c b := by
        rcases List.mem_cons.mp hmem with rfl | hlist
        · exact first b (by simp)
        · exact (List.pairwise_cons.mp rest).1 b hlist
      exact differs (beq_iff_eq.mpr (antisymm b c (first c (by simp)) hle))
termination_by list.length

end Repeats

namespace DispatchKey

variable {κ : Type} {tokens other : List TypeToken}

/-- The keys of lists of tokens are in the order of the lists: the arity stands above the tokens, and the first of
these above all others. -/
theorem compare_pack (h : tokens.length ≤ 7) (hother : other.length ≤ 7) :
    compare (pack tokens) (pack other) = shortlex tokens other := by
  change compare (pack tokens).word (pack other).word = _
  rw [← compare_word, toNat_pack h, toNat_pack hother,
    compare_mul_add _ _ (packDigits_lt_arity h) (packDigits_lt_arity hother), shortlex]
  -- tokens only count between lists of one length
  cases hlength : compare tokens.length other.length with
  | eq => rw [compare_packDigits_tokens (Nat.compare_eq_eq.mp hlength) (toNat_lt_of_mem tokens)
      (toNat_lt_of_mem other)]
  | lt => rfl
  | gt => rfl

/-- The keys in their order, each one once. -/
def distinct (keys : List DispatchKey) : List DispatchKey :=
  (keys.mergeSort fun a b => (compare a b).isLE).eraseReps

theorem compare_eq (key other : DispatchKey) : compare key other = compare key.word.toNat other.word.toNat :=
  (compare_word key.word other.word).symm

theorem isLE_compare {key other : DispatchKey} :
    (compare key other).isLE = true ↔ key.word.toNat ≤ other.word.toNat := by
  rw [compare_eq, Nat.isLE_compare]

theorem mem_distinct {key : DispatchKey} {keys : List DispatchKey} : key ∈ distinct keys ↔ key ∈ keys := by
  rw [distinct, mem_eraseReps, List.mem_mergeSort]

theorem pairwise_distinct (keys : List DispatchKey) :
    (distinct keys).Pairwise fun key other => compare key other = .lt := by
  have ordered : (keys.mergeSort fun a b => (compare a b).isLE).Pairwise
      fun key other => (compare key other).isLE = true := by
    apply List.pairwise_mergeSort
    · intro a b c hab hbc
      rw [isLE_compare] at hab hbc ⊢
      exact Nat.le_trans hab hbc
    · intro a b
      rw [Bool.or_eq_true, isLE_compare, isLE_compare]
      exact Nat.le_total _ _
  have antisymm (key other : DispatchKey) (hle : (compare key other).isLE = true)
      (hge : (compare other key).isLE = true) : key = other := by
    rw [isLE_compare] at hle hge
    exact congrArg DispatchKey.mk (UInt64.toNat_inj.mp (Nat.le_antisymm hle hge))
  refine (pairwise_eraseReps antisymm ordered).imp ?_
  rintro key other ⟨hle, hne⟩
  rw [compare_eq, Nat.compare_eq_lt]
  apply Nat.lt_of_le_of_ne (isLE_compare.mp hle)
  intro same
  exact hne (congrArg DispatchKey.mk (UInt64.toNat_inj.mp same))

/-- The keys of some lists. -/
theorem mapM_ofTokens {lists : List (List TypeToken)} (h : ∀ tokens ∈ lists, tokens.length ≤ 7) :
    lists.mapM (ofTokens : List TypeToken → Except (DispatchError κ) DispatchKey) = .ok (lists.map pack) := by
  rw [mapM_congr fun tokens htokens => (ofTokens_of_le (h tokens htokens) : _ = pure (pack tokens))]
  exact List.mapM_pure

/-- Keys of lists in their order stand for these lists in shortlex order. -/
theorem exists_tokens_of_ordered {keys : List DispatchKey} (ordered : keys.Pairwise fun key other =>
      compare key other = .lt)
    (packed : ∀ key ∈ keys, ∃ tokens : List TypeToken, tokens.length ≤ 7 ∧ pack tokens = key) :
    ∃ lists : List (List TypeToken), keys.mapM DispatchKey.tokens = .ok lists ∧ lists.map pack = keys ∧
      (∀ tokens ∈ lists, tokens.length ≤ 7) ∧ lists.Pairwise fun tokens other => shortlex tokens other = .lt := by
  induction keys with
  | nil => exact ⟨[], rfl, rfl, nofun, .nil⟩
  | cons key keys ih =>
    obtain ⟨first, rest⟩ := List.pairwise_cons.mp ordered
    obtain ⟨tokens, hlength, rfl⟩ := packed key (by simp)
    obtain ⟨lists, hlists, rfl, hshort, hordered⟩ := ih rest fun other hother => packed other (by simp [hother])
    refine ⟨tokens :: lists, ?_, rfl, ?_, List.pairwise_cons.mpr ⟨fun other hother => ?_, hordered⟩⟩
    · rw [List.mapM_cons, tokens_pack hlength, hlists]
      rfl
    · simpa using ⟨hlength, hshort⟩
    · rw [← compare_pack hlength (hshort other hother)]
      exact first _ (List.mem_map_of_mem hother)

/-- The keys of some lists, in their order and each one once, stand for the different lists in shortlex order. -/
theorem tokens_of_distinct {lists : List (List TypeToken)} (h : ∀ tokens ∈ lists, tokens.length ≤ 7) :
    ∃ different : List (List TypeToken), (distinct (lists.map pack)).mapM DispatchKey.tokens = .ok different ∧
      (different.Pairwise fun tokens other => shortlex tokens other = .lt) ∧
      ∀ tokens, tokens ∈ different ↔ tokens ∈ lists := by
  have packed (key : DispatchKey) (hkey : key ∈ distinct (lists.map pack)) :
      ∃ tokens : List TypeToken, tokens.length ≤ 7 ∧ pack tokens = key := by
    obtain ⟨tokens, htokens, rfl⟩ := List.mem_map.mp (mem_distinct.mp hkey)
    exact ⟨tokens, h tokens htokens, rfl⟩
  obtain ⟨different, hdifferent, hkeys, hshort, hordered⟩ :=
    exists_tokens_of_ordered (pairwise_distinct _) packed
  -- a list is told from others by its key
  have hmem (tokens : List TypeToken) (hlength : tokens.length ≤ 7) {some : List (List TypeToken)}
      (hsome : ∀ tokens ∈ some, tokens.length ≤ 7) : pack tokens ∈ some.map pack ↔ tokens ∈ some := by
    refine ⟨fun hpack => ?_, List.mem_map_of_mem⟩
    obtain ⟨found, hfound, hsame⟩ := List.mem_map.mp hpack
    exact pack_injective (hsome found hfound) hlength hsame ▸ hfound
  refine ⟨different, hdifferent, hordered, fun tokens => ?_⟩
  constructor
  · intro htokens
    have hlength := hshort tokens htokens
    rw [← hmem tokens hlength h, ← mem_distinct, ← hkeys]
    exact List.mem_map_of_mem htokens
  · intro htokens
    have hlength := h tokens htokens
    rw [← hmem tokens hlength hshort, hkeys, mem_distinct]
    exact List.mem_map_of_mem htokens

end DispatchKey

namespace NativeKey

variable {tokens other : List TypeToken}

theorem compare_eq {n : Nat} (key other : NativeKey n) : compare key other = compare key.index other.index :=
  (compare_word key.word other.word).symm

theorem index_cast {n m : Nat} (h : n = m) (key : NativeKey n) : (h ▸ key).index = key.index := by
  subst h
  rfl

/-- The native keys of tuples of one arity are in the order of the first token that differs. -/
theorem exists_compare (same : other.length = tokens.length) (hlength : tokens.length ≤ 32)
    (native : ∀ token ∈ tokens, token.isNative = true) (otherNative : ∀ token ∈ other, token.isNative = true) :
    ∃ key otherKey, ofTokens tokens = .ok key ∧ ofTokens other = .ok otherKey ∧
      key.toGeneral = DispatchKey.pack tokens ∧ otherKey.toGeneral = DispatchKey.pack other ∧
      compare key (same ▸ otherKey) = compare tokens other := by
  obtain ⟨key, hkey, hindex, -, htokens⟩ := exists_key hlength native
  obtain ⟨otherKey, hother, hotherIndex, -, hotherTokens⟩ := exists_key (same.trans_le hlength) otherNative
  refine ⟨key, otherKey, hkey, hother, congrArg DispatchKey.pack htokens, congrArg DispatchKey.pack hotherTokens, ?_⟩
  rw [compare_eq, index_cast, hindex, hotherIndex]
  exact compare_packDigits_tokens same.symm (digits_lt native) (digits_lt otherNative)

end NativeKey

namespace DispatchKey

/-- General keys of lists are in shortlex order, so that the keys of any lists, put in order and without repeats,
stand for the different lists in that order. The native keys of two tuples of one arity are in the same order as
the general keys that they turn into. -/
theorem keys_in_shortlex_order {κ : Type} :
    (∀ tokens other : List TypeToken, tokens.length ≤ 7 → other.length ≤ 7 → ∃ key otherKey,
      (ofTokens tokens : Except (DispatchError κ) DispatchKey) = .ok key ∧
        (ofTokens other : Except (DispatchError κ) DispatchKey) = .ok otherKey ∧
        compare key otherKey = (compare tokens.length other.length).then (compare tokens other)) ∧
    (∀ lists : List (List TypeToken), (∀ tokens ∈ lists, tokens.length ≤ 7) → ∃ keys different,
      lists.mapM (ofTokens : List TypeToken → Except (DispatchError κ) DispatchKey) = .ok keys ∧
        (distinct keys).mapM DispatchKey.tokens = .ok different ∧
        (different.Pairwise fun tokens other => shortlex tokens other = .lt) ∧
        ∀ tokens, tokens ∈ different ↔ tokens ∈ lists) ∧
    ∀ (tokens other : List TypeToken) (same : other.length = tokens.length), tokens.length ≤ 7 →
      (∀ token ∈ tokens, token.isNative = true) → (∀ token ∈ other, token.isNative = true) →
      ∃ key otherKey, NativeKey.ofTokens tokens = .ok key ∧ NativeKey.ofTokens other = .ok otherKey ∧
        key.toGeneral = pack tokens ∧ otherKey.toGeneral = pack other ∧
        compare key (same ▸ otherKey) = compare key.toGeneral otherKey.toGeneral := by
  refine ⟨fun tokens other h hother => ?_, fun lists h => ?_, fun tokens other same h native otherNative => ?_⟩
  · exact ⟨_, _, ofTokens_of_le h, ofTokens_of_le hother, compare_pack h hother⟩
  · obtain ⟨different, hdifferent, hordered, hmem⟩ := tokens_of_distinct h
    exact ⟨_, different, mapM_ofTokens h, hdifferent, hordered, hmem⟩
  · obtain ⟨key, otherKey, hkey, hother, hgeneral, hotherGeneral, hcompare⟩ :=
      NativeKey.exists_compare same (Nat.le_trans h (by decide)) native otherNative
    refine ⟨key, otherKey, hkey, hother, hgeneral, hotherGeneral, ?_⟩
    rw [hcompare, hgeneral, hotherGeneral, compare_pack h (same.trans_le h), shortlex, same,
      Nat.compare_eq_eq.mpr rfl, Ordering.eq_then]

/-- The key of a longer list comes later, however small its tokens are, and the first token counts most. -/
theorem keys_in_shortlex_order_padded :
    (∃ key otherKey, (ofTokens [255] : Except (DispatchError Unit) DispatchKey) = .ok key ∧
      (ofTokens [0, 0] : Except (DispatchError Unit) DispatchKey) = .ok otherKey ∧
      compare key otherKey = .lt) ∧
    (∃ keys, [[1, 0], [3], [0, 9], [3]].mapM
        (ofTokens : List TypeToken → Except (DispatchError Unit) DispatchKey) = .ok keys ∧
      (distinct keys).mapM DispatchKey.tokens = .ok [[3], [0, 9], [1, 0]]) ∧
    ∃ key otherKey : NativeKey 2, NativeKey.ofTokens [0, 3] = .ok key ∧ NativeKey.ofTokens [1, 0] = .ok otherKey ∧
      compare key otherKey = compare key.toGeneral otherKey.toGeneral := by
  obtain ⟨hpairs, hlists, hnative⟩ := @keys_in_shortlex_order Unit
  refine ⟨?_, ?_, ?_⟩
  · obtain ⟨key, otherKey, hkey, hother, hcompare⟩ := hpairs [255] [0, 0] (by decide) (by decide)
    exact ⟨key, otherKey, hkey, hother, hcompare⟩
  · obtain ⟨keys, different, hkeys, hdifferent, hordered, hmem⟩ :=
      hlists [[1, 0], [3], [0, 9], [3]] (by decide)
    have same : different = [[3], [0, 9], [1, 0]] := by
      apply eq_of_shortlex hordered (by decide)
      intro tokens
      rw [hmem]
      grind
    exact ⟨keys, hkeys, same ▸ hdifferent⟩
  · obtain ⟨key, otherKey, hkey, hother, -, -, hcompare⟩ := hnative [0, 3] [1, 0] rfl (by decide)
      (List.all_eq_true.mp rfl) (List.all_eq_true.mp rfl)
    exact ⟨key, otherKey, hkey, hother, hcompare⟩

end DispatchKey

end ArrayEngine
