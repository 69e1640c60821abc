import ArrayEngine.Dispatch.Key
import Mathlib.Algebra.Ring.Nat
import Mathlib.Tactic.Ring

/-! Tuples of digits as numbers, and the keys of native types: tuples of `n` native tokens are the numbers
below `4 ^ n`, and nothing else is. -/
namespace ArrayEngine

theorem foldl_packDigits (bits key : Nat) (digits : List Nat) :
    digits.foldl (fun key digit => key <<< bits + digit) key =
      key * 2 ^ (bits * digits.length) + packDigits bits digits := by
  induction digits generalizing key with
  | nil => simp [packDigits]
  | cons digit digits ih =>
    rw [packDigits, List.foldl_cons, List.foldl_cons, ih, ih (0 <<< bits + digit), Nat.shiftLeft_eq,
      Nat.zero_shiftLeft, List.length_cons, Nat.mul_succ, Nat.pow_add, Nat.mul_comm (2 ^ _) (2 ^ bits)]
    ring

/-- The first digit is the most significant one. -/
theorem packDigits_cons (bits digit : Nat) (digits : List Nat) :
    packDigits bits (digit :: digits) =
      digit * 2 ^ (bits * digits.length) + packDigits bits digits := by
  rw [packDigits, List.foldl_cons, foldl_packDigits, Nat.zero_shiftLeft, Nat.zero_add]

theorem packDigits_lt {bits : Nat} {digits : List Nat} (h : ∀ digit ∈ digits, digit < 2 ^ bits) :
    packDigits bits digits < 2 ^ (bits * digits.length) := by
  induction digits with
  | nil => simp [packDigits]
  | cons digit digits ih =>
    have hrest := ih fun other hother => h other (by simp [hother])
    have hle : (digit + 1) * 2 ^ (bits * digits.length) ≤ 2 ^ bits * 2 ^ (bits * digits.length) :=
      Nat.mul_le_mul_right _ (h digit (by simp))
    rw [packDigits_cons, List.length_cons, Nat.mul_succ, Nat.add_comm _ bits, Nat.pow_add]
    rw [Nat.succ_mul] at hle
    omega

/-- The digit with some number of less significant ones. -/
def digitOf (bits number place : Nat) : Nat := number >>> (place * bits) % 1 <<< bits

theorem digitOf_eq (bits number place : Nat) :
    digitOf bits number place = number / 2 ^ (bits * place) % 2 ^ bits := by
  rw [digitOf, Nat.shiftRight_eq_div_pow, Nat.shiftLeft_eq, Nat.one_mul, Nat.mul_comm place]

theorem digitOf_lt (bits number place : Nat) : digitOf bits number place < 2 ^ bits := by
  rw [digitOf_eq]
  exact Nat.mod_lt _ (Nat.two_pow_pos bits)

/-- More significant digits do not matter. -/
theorem digitOf_add (bits number more : Nat) {place places : Nat} (h : place < places) :
    digitOf bits (more * 2 ^ (bits * places) + number) place = digitOf bits number place := by
  obtain ⟨rest, rfl⟩ := Nat.exists_eq_add_of_lt h
  have hpow : more * 2 ^ (bits * (place + rest + 1)) =
      2 ^ (bits * place) * (2 ^ bits * (more * 2 ^ (bits * rest))) := by
    rw [Nat.mul_succ, Nat.mul_add, Nat.pow_add, Nat.pow_add]
    ring
  rw [digitOf_eq, digitOf_eq, hpow, Nat.mul_add_div (Nat.two_pow_pos _), Nat.mul_add_mod]

/-- The number of all digits, from the most significant one on. -/
def digitsOf (bits number n : Nat) : List Nat :=
  (List.range n).map fun index => digitOf bits number (n - 1 - index)

theorem digitsOf_succ (bits number n : Nat) :
    digitsOf bits number (n + 1) = digitOf bits number n :: digitsOf bits number n := by
  rw [digitsOf, List.range_succ_eq_map, List.map_cons, List.map_map]
  refine congrArg _ (List.map_congr_left fun index _ => ?_)
  rw [Function.comp, Nat.add_sub_cancel, show n - index.succ = n - 1 - index by omega]

theorem digitsOf_add (bits number more : Nat) (n : Nat) :
    digitsOf bits (more * 2 ^ (bits * n) + number) n = digitsOf bits number n := by
  refine List.map_congr_left fun index hindex => digitOf_add bits number more ?_
  have hlt := List.mem_range.mp hindex
  omega

theorem digitOf_top {bits number n : Nat} (h : number < 2 ^ (bits * n)) {digit : Nat}
    (hdigit : digit < 2 ^ bits) : digitOf bits (digit * 2 ^ (bits * n) + number) n = digit := by
  rw [digitOf_eq, Nat.mul_comm digit, Nat.mul_add_div (Nat.two_pow_pos _), Nat.div_eq_of_lt h, Nat.add_zero,
    Nat.mod_eq_of_lt hdigit]

/-- The digits of a packed tuple are those of the tuple. -/
theorem digitsOf_packDigits {bits : Nat} {digits : List Nat} (h : ∀ digit ∈ digits, digit < 2 ^ bits) :
    digitsOf bits (packDigits bits digits) digits.length = digits := by
  induction digits with
  | nil => rfl
  | cons digit digits ih =>
    have small := fun other hother => h other (List.mem_cons_of_mem digit hother)
    rw [List.length_cons, packDigits_cons, digitsOf_succ, digitsOf_add, ih small,
      digitOf_top (packDigits_lt small) (h digit (by simp))]

/-- The digits of a number that has no more of them are packed to the number. -/
theorem packDigits_digitsOf {bits number n : Nat} (h : number < 2 ^ (bits * n)) :
    packDigits bits (digitsOf bits number n) = number := by
  induction n generalizing number with
  | zero =>
    rw [Nat.mul_zero, Nat.pow_zero] at h
    rw [Nat.lt_one_iff.mp h]
    rfl
  | succ n ih =>
    have hlow : number % 2 ^ (bits * n) < 2 ^ (bits * n) := Nat.mod_lt _ (Nat.two_pow_pos _)
    have hhigh : number / 2 ^ (bits * n) < 2 ^ bits := by
      rw [Nat.mul_succ, Nat.pow_add] at h
      exact Nat.div_lt_of_lt_mul h
    have hsplit : number / 2 ^ (bits * n) * 2 ^ (bits * n) + number % 2 ^ (bits * n) = number :=
      Nat.div_add_mod' _ _
    generalize number / 2 ^ (bits * n) = high at *
    generalize number % 2 ^ (bits * n) = low at *
    subst hsplit
    rw [digitsOf_succ, digitsOf_add, digitOf_top hlow hhigh, packDigits_cons, ih hlow, digitsOf,
      List.length_map, List.length_range]

/-- The digits are those of what is left of the number without the more significant ones. -/
theorem digitsOf_mod (bits number n : Nat) :
    digitsOf bits (number % 2 ^ (bits * n)) n = digitsOf bits number n := by
  have hdigits := digitsOf_add bits (number % 2 ^ (bits * n)) (number / 2 ^ (bits * n)) n
  rw [Nat.div_add_mod'] at hdigits
  exact hdigits.symm

/-- They are packed to just that. -/
theorem packDigits_digitsOf_mod (bits number n : Nat) :
    packDigits bits (digitsOf bits number n) = number % 2 ^ (bits * n) := by
  rw [← digitsOf_mod, packDigits_digitsOf (Nat.mod_lt _ (Nat.two_pow_pos _))]

theorem length_digitsOf (bits number n : Nat) : (digitsOf bits number n).length = n := by
  rw [digitsOf, List.length_map, List.length_range]

theorem lt_of_mem_digitsOf {bits number n digit : Nat} (h : digit ∈ digitsOf bits number n) :
    digit < 2 ^ bits := by
  obtain ⟨place, _, rfl⟩ := List.mem_map.mp h
  exact digitOf_lt _ _ _

/-- Digits of at most 8 bits fit in tokens. -/
theorem map_toNat_digitsOf {bits : Nat} (hbits : bits ≤ 8) (number n : Nat) :
    ((digitsOf bits number n).map UInt8.ofNat).map UInt8.toNat = digitsOf bits number n := by
  rw [List.map_map]
  refine (List.map_congr_left fun digit hdigit => ?_).trans (List.map_id _)
  have hle : 2 ^ bits ≤ 2 ^ 8 := Nat.pow_le_pow_right (by decide) hbits
  exact UInt8.toNat_ofNat_of_lt (Nat.lt_of_lt_of_le (lt_of_mem_digitsOf hdigit) hle)

namespace NativeKey

variable {n : Nat}

theorem tokens_eq (key : NativeKey n) :
    key.tokens = (digitsOf bitsPerNativeType key.index n).map UInt8.ofNat := by
  rw [tokens, digitsOf, List.map_map]
  rfl

theorem isNative_iff {token : TypeToken} : token.isNative = true ↔ token.toNat < 4 :=
  decide_eq_true_iff

/-- The digits that native tokens are. -/
theorem digits_lt {tokens : List TypeToken} (native : ∀ token ∈ tokens, token.isNative = true) :
    ∀ digit ∈ tokens.map UInt8.toNat, digit < 2 ^ bitsPerNativeType := by
  intro digit hdigit
  obtain ⟨token, htoken, rfl⟩ := List.mem_map.mp hdigit
  exact isNative_iff.mp (native token htoken)

private theorem index_of_lt {number : Nat} (hn : n ≤ 32) (h : number < 4 ^ n) :
    (⟨UInt64.ofNat number⟩ : NativeKey n).index = number := by
  have hle : 4 ^ n ≤ 4 ^ 32 := Nat.pow_le_pow_right (by decide) hn
  have hsize : UInt64.size = 4 ^ 32 := rfl
  exact UInt64.toNat_ofNat_of_lt (by omega)

private theorem four_pow (n : Nat) : 2 ^ (bitsPerNativeType * n) = 4 ^ n := by
  rw [show bitsPerNativeType = 2 from rfl, Nat.pow_mul]

/-- Native tokens have a key, which is a number below the number of all tuples, and the tokens of the key are
these. -/
theorem exists_key {tokens : List TypeToken} (hn : tokens.length ≤ 32)
    (native : ∀ token ∈ tokens, token.isNative = true) :
    ∃ key, ofTokens tokens = .ok key ∧ key.index = packDigits bitsPerNativeType (tokens.map UInt8.toNat) ∧
      key.index < 4 ^ tokens.length ∧ key.tokens = tokens := by
  have small := digits_lt native
  have hlt := packDigits_lt small
  rw [List.length_map, four_pow] at hlt
  have hindex := index_of_lt hn hlt
  refine ⟨_, if_pos (List.all_eq_true.mpr native), hindex, hindex.trans_lt hlt, ?_⟩
  have hdigits := digitsOf_packDigits small
  rw [List.length_map] at hdigits
  rw [tokens_eq, hindex, hdigits, List.map_map]
  simp [Function.comp_def]

/-- The digits of the tokens are those of the word. -/
theorem map_toNat_tokens (key : NativeKey n) :
    key.tokens.map UInt8.toNat = digitsOf bitsPerNativeType key.index n := by
  rw [tokens_eq, map_toNat_digitsOf (by decide)]

theorem length_tokens (key : NativeKey n) : key.tokens.length = n := by
  rw [tokens_eq, List.length_map, length_digitsOf]

theorem isNative_tokens (key : NativeKey n) : ∀ token ∈ key.tokens, token.isNative = true := by
  intro token htoken
  have hdigit := List.mem_map_of_mem (f := UInt8.toNat) htoken
  rw [map_toNat_tokens] at hdigit
  exact isNative_iff.mpr (lt_of_mem_digitsOf hdigit)

/-- The tokens of any word have a key, which is what is left of the word without all other digits. -/
theorem exists_key_tokens (hn : n ≤ 32) (key : NativeKey n) :
    ∃ again, ofTokens key.tokens = .ok again ∧ again.index = key.index % 4 ^ n := by
  obtain ⟨again, hagain, hindex, _⟩ := exists_key (key.length_tokens.trans_le hn) key.isNative_tokens
  refine ⟨again, hagain, ?_⟩
  rw [hindex, map_toNat_tokens, packDigits_digitsOf_mod, four_pow]

/-- Every number below the number of all tuples is the key of native tokens. -/
theorem exists_tokens {number : Nat} (hn : n ≤ 32) (h : number < 4 ^ n) :
    ∃ tokens : List TypeToken, tokens.length = n ∧ (∀ token ∈ tokens, token.isNative = true) ∧
      (⟨UInt64.ofNat number⟩ : NativeKey n).tokens = tokens ∧
      ∃ key, ofTokens tokens = .ok key ∧ key.index = number := by
  obtain ⟨key, hkey, hindex⟩ := exists_key_tokens hn ⟨UInt64.ofNat number⟩
  refine ⟨_, length_tokens _, isNative_tokens _, rfl, key, hkey, ?_⟩
  rw [hindex, index_of_lt hn h, Nat.mod_eq_of_lt h]

end NativeKey

end ArrayEngine
