import ArrayEngine.Dispatch.Selection
import ArrayEngine.Proofs.Dispatch.NativeKeys
import ArrayEngine.Proofs.Layout.Exact

/-! General keys: lists of at most 7 tokens and the words that stand for them. Every other word of an arity up
to 8 is read as tokens too, but it is not the key of these. -/
namespace ArrayEngine

namespace DispatchKey

variable {κ : Type} {key : DispatchKey} {tokens : List TypeToken}

theorem arity_eq (key : DispatchKey) : key.arity = key.word.toNat / 2 ^ 56 :=
  Nat.shiftRight_eq_div_pow _ _

/-- As many digits as a key has tokens end below its arity. -/
private theorem digits_dvd {n : Nat} (h : n ≤ 7) : 2 ^ (bitsPerType * n) ∣ 2 ^ 56 :=
  Nat.pow_dvd_pow 2 (Nat.mul_le_mul_left 8 h)

/-- The digits that tokens are. -/
theorem toNat_lt_of_mem (tokens : List TypeToken) : ∀ digit ∈ tokens.map UInt8.toNat, digit < 2 ^ bitsPerType := by
  intro digit hdigit
  obtain ⟨token, _, rfl⟩ := List.mem_map.mp hdigit
  exact token.toNat_lt

private theorem packDigits_tokens_lt (tokens : List TypeToken) :
    packDigits bitsPerType (tokens.map UInt8.toNat) < 2 ^ (bitsPerType * tokens.length) := by
  have hlt := packDigits_lt (toNat_lt_of_mem tokens)
  rwa [List.length_map] at hlt

/-- The tokens of a key end below its arity. -/
theorem packDigits_lt_arity (h : tokens.length ≤ 7) :
    packDigits bitsPerType (tokens.map UInt8.toNat) < 2 ^ 56 :=
  Nat.lt_of_lt_of_le (packDigits_tokens_lt tokens) (Nat.le_of_dvd (Nat.two_pow_pos 56) (digits_dvd h))

/-- The word of a list of tokens: their number above their digits. -/
theorem toNat_pack (h : tokens.length ≤ 7) : (pack tokens).word.toNat =
    tokens.length * 2 ^ 56 + packDigits bitsPerType (tokens.map UInt8.toNat) := by
  have hlt := packDigits_lt_arity h
  have hshift : tokens.length <<< (keyBits - arityBits) = tokens.length * 2 ^ 56 := Nat.shiftLeft_eq _ _
  have hsize : UInt64.size = 2 ^ 64 := rfl
  rw [pack, hshift]
  exact UInt64.toNat_ofNat_of_lt (by omega)

theorem arity_pack (h : tokens.length ≤ 7) : (pack tokens).arity = tokens.length := by
  have hlt := packDigits_lt_arity h
  rw [arity_eq, toNat_pack h]
  omega

/-- There are 8 digits in a word. -/
theorem digit_eq (key : DispatchKey) (place : Nat) : key.digit (place * bitsPerType) =
    if 8 ≤ place then .error .shiftOverflow
    else .ok (UInt8.ofNat (digitOf bitsPerType key.word.toNat place)) := by
  have hbits : bitsPerType = 8 := rfl
  have hiff : keyBits ≤ place * bitsPerType ↔ 8 ≤ place := by
    rw [hbits, keyBits]
    omega
  simp only [digit, hiff, digitOf]

/-- The tokens of a word are its lowest digits. If its arity is 8, the first one of them is the arity. -/
theorem tokens_eq_ok (h : key.arity ≤ 8) :
    key.tokens = .ok ((digitsOf bitsPerType key.word.toNat key.arity).map UInt8.ofNat) := by
  have hdigits : ∀ index ∈ List.range key.arity, key.digit ((key.arity - 1 - index) * bitsPerType) =
      pure (UInt8.ofNat (digitOf bitsPerType key.word.toNat (key.arity - 1 - index))) := by
    intro index hindex
    have hlt := List.mem_range.mp hindex
    rw [digit_eq, if_neg (by omega)]
    rfl
  rw [tokens, mapM_congr hdigits, List.mapM_pure, digitsOf, List.map_map]
  rfl

/-- A larger arity asks for a digit that no word has. -/
theorem tokens_eq_error (h : 9 ≤ key.arity) : key.tokens = .error .shiftOverflow := by
  obtain ⟨rest, hrest⟩ := Nat.exists_eq_add_of_le' (Nat.le_trans (by decide : 1 ≤ 9) h)
  rw [tokens, hrest, List.range_succ_eq_map, List.mapM_cons, digit_eq, if_pos (by omega)]
  rfl

theorem tokens_eq_error_iff {trap : Trap} :
    key.tokens = .error trap ↔ trap = .shiftOverflow ∧ 9 ≤ key.arity := by
  constructor
  · intro h
    by_cases hlarge : 9 ≤ key.arity
    · rw [tokens_eq_error hlarge] at h
      cases h
      exact ⟨rfl, hlarge⟩
    · rw [tokens_eq_ok (by omega)] at h
      cases h
  · rintro ⟨rfl, hlarge⟩
    exact tokens_eq_error hlarge

/-- The tokens of a list's key are the list. -/
theorem tokens_pack (h : tokens.length ≤ 7) : (pack tokens).tokens = .ok tokens := by
  have hlt := packDigits_tokens_lt tokens
  have harity := arity_pack h
  obtain ⟨more, hmore⟩ := digits_dvd h
  have hword : (pack tokens).word.toNat = tokens.length * more * 2 ^ (bitsPerType * tokens.length) +
      packDigits bitsPerType (tokens.map UInt8.toNat) := by
    rw [toNat_pack h, hmore]
    ring
  have hdigits : digitsOf bitsPerType (packDigits bitsPerType (tokens.map UInt8.toNat)) tokens.length =
      tokens.map UInt8.toNat := by
    rw [← List.length_map (f := UInt8.toNat), digitsOf_packDigits (toNat_lt_of_mem tokens)]
  rw [tokens_eq_ok (by omega), harity, hword, digitsOf_add, hdigits, List.map_map]
  simp [Function.comp_def]

theorem ofTokens_of_le (h : tokens.length ≤ 7) :
    (ofTokens tokens : Except (DispatchError κ) DispatchKey) = .ok (pack tokens) :=
  if_neg (Nat.not_lt.mpr h)

theorem ofTokens_of_lt (h : 7 < tokens.length) :
    (ofTokens tokens : Except (DispatchError κ) DispatchKey) = .error (.tooManyTypes tokens.length 7) :=
  if_pos h

theorem ofTokens_eq_ok : (ofTokens tokens : Except (DispatchError κ) DispatchKey) = .ok key ↔
    tokens.length ≤ 7 ∧ pack tokens = key := by
  by_cases h : tokens.length ≤ 7
  · rw [ofTokens_of_le h, Except.ok.injEq, and_iff_right h]
  · rw [ofTokens_of_lt (by omega)]
    simp [h]

/-- Different lists have different keys, of whatever lengths they are. -/
theorem pack_injective {other : List TypeToken} (h : tokens.length ≤ 7) (hother : other.length ≤ 7)
    (hsame : pack tokens = pack other) : tokens = other := by
  have htokens := tokens_pack h
  rw [hsame, tokens_pack hother] at htokens
  exact (Except.ok.inj htokens).symm

theorem ofTokens_injective {other : List TypeToken}
    (h : (ofTokens tokens : Except (DispatchError κ) DispatchKey) = .ok key)
    (hother : (ofTokens other : Except (DispatchError κ) DispatchKey) = .ok key) : tokens = other := by
  obtain ⟨hle, hkey⟩ := ofTokens_eq_ok.mp h
  obtain ⟨hother, hotherKey⟩ := ofTokens_eq_ok.mp hother
  exact pack_injective hle hother (hkey.trans hotherKey.symm)

/-- The key of the tokens of a word: all digits between the arity and the tokens are lost. -/
theorem toNat_pack_tokens (h : key.arity ≤ 7) :
    (pack ((digitsOf bitsPerType key.word.toNat key.arity).map UInt8.ofNat)).word.toNat =
      key.arity * 2 ^ 56 + key.word.toNat % 2 ^ (bitsPerType * key.arity) := by
  have hlength : ((digitsOf bitsPerType key.word.toNat key.arity).map UInt8.ofNat).length = key.arity := by
    rw [List.length_map, length_digitsOf]
  rw [toNat_pack (hlength.trans_le h), hlength, map_toNat_digitsOf (by decide), packDigits_digitsOf_mod]

/-- A word is the key of its own tokens if they are no more than a key has and nothing else is in it. -/
theorem ofTokens_tokens_iff : (∃ tokens, key.tokens = .ok tokens ∧
    (ofTokens tokens : Except (DispatchError κ) DispatchKey) = .ok key) ↔
      key.arity ≤ 7 ∧ key.word.toNat % 2 ^ 56 < 2 ^ (bitsPerType * key.arity) := by
  have hsplit : key.word.toNat = key.arity * 2 ^ 56 + key.word.toNat % 2 ^ 56 := by
    rw [arity_eq, Nat.div_add_mod']
  have hlow (h : key.arity ≤ 7) : key.word.toNat % 2 ^ (bitsPerType * key.arity) =
      key.word.toNat % 2 ^ 56 % 2 ^ (bitsPerType * key.arity) :=
    (Nat.mod_mod_of_dvd _ (digits_dvd h)).symm
  constructor
  · rintro ⟨tokens, htokens, hkey⟩
    obtain ⟨hle, hpack⟩ := ofTokens_eq_ok.mp hkey
    have harity : key.arity ≤ 7 := by rw [← hpack, arity_pack hle]; exact hle
    rw [tokens_eq_ok (by omega)] at htokens
    cases htokens
    have hword := toNat_pack_tokens harity
    rw [hpack, hlow harity] at hword
    have hlt := Nat.mod_lt (key.word.toNat % 2 ^ 56) (Nat.two_pow_pos (bitsPerType * key.arity))
    exact ⟨harity, by omega⟩
  · rintro ⟨harity, hlt⟩
    refine ⟨_, tokens_eq_ok (by omega), ofTokens_eq_ok.mpr ⟨?_, ?_⟩⟩
    · rwa [List.length_map, length_digitsOf]
    · have hword := toNat_pack_tokens harity
      rw [hlow harity, Nat.mod_eq_of_lt hlt, ← hsplit] at hword
      exact congrArg DispatchKey.mk (UInt64.toNat_inj.mp hword)

/-- The general key of a native key's tokens is the one that the native key turns into. -/
theorem exists_toGeneral (h : tokens.length ≤ 7) (native : ∀ token ∈ tokens, token.isNative = true) :
    ∃ key, NativeKey.ofTokens tokens = .ok key ∧ key.toGeneral = pack tokens := by
  obtain ⟨key, hkey, _, _, htokens⟩ := NativeKey.exists_key (Nat.le_trans h (by decide)) native
  exact ⟨key, hkey, congrArg pack htokens⟩

/-- Every list of at most 7 tokens has a key that tells its length and gives it back, and no two lists share a
key; longer ones are refused. Of all words those of an arity above 8 have no tokens, and those are keys of their
tokens that have at most 7 and nothing between these and the arity. A native key of any word has tokens whose
key is the word without its other digits, and native tokens have one general key. -/
theorem keys_of_tokens_and_words {κ : Type} :
    (∀ tokens : List TypeToken, tokens.length ≤ 7 → ∃ key,
      (ofTokens tokens : Except (DispatchError κ) DispatchKey) = .ok key ∧
        key.arity = tokens.length ∧ key.tokens = .ok tokens) ∧
    (∀ (tokens other : List TypeToken) (key : DispatchKey),
      (ofTokens tokens : Except (DispatchError κ) DispatchKey) = .ok key →
      (ofTokens other : Except (DispatchError κ) DispatchKey) = .ok key → tokens = other) ∧
    (∀ tokens : List TypeToken, 7 < tokens.length →
      (ofTokens tokens : Except (DispatchError κ) DispatchKey) =
        .error (.tooManyTypes tokens.length 7)) ∧
    (∀ (word : UInt64) (trap : Trap), (DispatchKey.mk word).tokens = .error trap ↔
      trap = .shiftOverflow ∧ 9 ≤ word.toNat >>> 56) ∧
    (∀ word : UInt64, (∃ tokens, (DispatchKey.mk word).tokens = .ok tokens ∧
      (ofTokens tokens : Except (DispatchError κ) DispatchKey) = .ok ⟨word⟩) ↔
        word.toNat >>> 56 ≤ 7 ∧ word.toNat % 2 ^ 56 < 2 ^ (8 * (word.toNat >>> 56))) ∧
    (∀ (n : Nat) (word : UInt64), n ≤ 32 → ∃ again,
      NativeKey.ofTokens (NativeKey.mk word : NativeKey n).tokens = .ok again ∧
        again.index = word.toNat % 4 ^ n) ∧
    ∀ tokens : List TypeToken, tokens.length ≤ 7 → (∀ token ∈ tokens, token.isNative = true) →
      ∃ key, NativeKey.ofTokens tokens = .ok key ∧ key.toGeneral = pack tokens := by
  refine ⟨fun tokens h => ⟨_, ofTokens_of_le h, arity_pack h, tokens_pack h⟩,
    fun tokens other key h hother => ofTokens_injective h hother, fun tokens h => ofTokens_of_lt h,
    fun word trap => tokens_eq_error_iff, fun word => ofTokens_tokens_iff,
    fun n word hn => NativeKey.exists_key_tokens hn ⟨word⟩, fun tokens h native => exists_toGeneral h native⟩

/-- The key of two tokens with a bit above them is not the key of its tokens, and one of arity 9 has none. -/
theorem keys_of_tokens_and_words_stray :
    (∃ key, (ofTokens [255, 0] : Except (DispatchError Unit) DispatchKey) = .ok key ∧
      key.arity = 2 ∧ key.tokens = .ok [255, 0]) ∧
    ¬(∃ tokens, (DispatchKey.mk 0x020000000001ff00).tokens = .ok tokens ∧
      (ofTokens tokens : Except (DispatchError Unit) DispatchKey) = .ok ⟨0x020000000001ff00⟩) ∧
    (DispatchKey.mk 0x0900000000000000).tokens = .error .shiftOverflow ∧
    (∃ again, NativeKey.ofTokens (NativeKey.mk 0x1f : NativeKey 2).tokens = .ok again ∧
      again.index = 15) ∧
    ∃ key, NativeKey.ofTokens [3, 1] = .ok key ∧ key.toGeneral = pack [3, 1] := by
  obtain ⟨hlists, _, _, htraps, hwords, hnative, hgeneral⟩ := @keys_of_tokens_and_words Unit
  refine ⟨hlists [255, 0] (by decide), ?_, (htraps _ _).mpr (by decide), hnative 2 0x1f (by decide),
    hgeneral [3, 1] (by decide) (List.all_eq_true.mp (by decide))⟩
  rw [hwords]
  decide

end DispatchKey

end ArrayEngine
