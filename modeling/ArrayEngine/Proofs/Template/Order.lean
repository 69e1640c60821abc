import ArrayEngine.Proofs.Dispatch.NativeKeys
import ArrayEngine.Proofs.Layout.Exact
import ArrayEngine.Proofs.Template.Reading

/-! What a template is expanded to, entry by entry: the entry at the position of a key is the template with the
types of the key in place of the placeholders. -/
namespace ArrayEngine.Template

/-- The group `{TN}` that stands for the type of a number: `T` and the number in decimal digits, between
braces. -/
inductive IsPlaceholder (index : Nat) : Token → Prop
  | mk {name : String} {digits : List Char} : name.toList = 'T' :: digits → digits ≠ [] →
      (∀ c ∈ digits, c.isDigit = true) → Nat.ofDigitChars 10 digits 0 = index → index < wordLimit →
      IsPlaceholder index (.group .brace [.ident name])

/-- A placeholder occurs in some tokens, at any depth. -/
inductive Occurs (index : Nat) : List Token → Prop
  | here {token rest} : IsPlaceholder index token → Occurs index (token :: rest)
  | inside {delimiter inner rest} : Occurs index inner → Occurs index (.group delimiter inner :: rest)
  | later {token rest} : Occurs index rest → Occurs index (token :: rest)

/-- Some tokens are others with the type names in place of the placeholders at any depth, and everything else as
it is. -/
inductive Fills (names : List String) : List Token → List Token → Prop
  | nil : Fills names [] []
  | placeholder {index token name rest filled} : IsPlaceholder index token → names[index]? = some name →
      Fills names rest filled → Fills names (token :: rest) (.ident name :: filled)
  | group {delimiter inner changed rest filled} :
      (∀ index, ¬IsPlaceholder index (.group delimiter inner)) → Fills names inner changed →
      Fills names rest filled →
      Fills names (.group delimiter inner :: rest) (.group delimiter changed :: filled)
  | other {token rest filled} : (∀ delimiter inner, token ≠ .group delimiter inner) →
      Fills names rest filled → Fills names (token :: rest) (token :: filled)

theorem wordOfDigits?_eq_some {chars : List Char} {number : Nat} :
    wordOfDigits? chars = some number ↔ chars ≠ [] ∧ (∀ c ∈ chars, c.isDigit = true) ∧
      Nat.ofDigitChars 10 chars 0 = number ∧ number < wordLimit := by
  have hvalue : chars.foldl (fun value c => value * 10 + (c.toNat - '0'.toNat)) 0 =
      Nat.ofDigitChars 10 chars 0 := by
    simp only [Nat.ofDigitChars, Nat.mul_comm 10]
  rw [wordOfDigits?, hvalue, ← List.all_eq_true]
  by_cases hdigits : chars ≠ [] ∧ chars.all Char.isDigit = true
  · rw [if_pos hdigits]
    simp only [hdigits, true_and]
    split <;> grind
  · rw [if_neg hdigits]
    grind

/-- What is taken for a placeholder is one. -/
theorem placeholder?_eq_some {delimiter : Delimiter} {tokens : List Token} {index : Nat} :
    placeholder? delimiter tokens = some index ↔ IsPlaceholder index (.group delimiter tokens) := by
  constructor
  · intro h
    unfold placeholder? at h
    split at h
    · split at h
      · next name digits hname =>
        obtain ⟨hne, hdigits, hvalue, hword⟩ := wordOfDigits?_eq_some.mp h
        exact .mk hname hne hdigits hvalue hword
      · cases h
    · cases h
  · rintro ⟨hname, hne, hdigits, hvalue, hword⟩
    simp only [placeholder?, hname]
    exact wordOfDigits?_eq_some.mpr ⟨hne, hdigits, hvalue, hword⟩

variable {names : List String} {arity : Nat} {template : List Token}

/-- The placeholders in tokens that start with a group. -/
theorem occurs_cons_group {index : Nat} {delimiter : Delimiter} {inner rest : List Token} :
    Occurs index (.group delimiter inner :: rest) ↔
      IsPlaceholder index (.group delimiter inner) ∨ Occurs index inner ∨ Occurs index rest := by
  constructor
  · rintro (h | h | h)
    · exact .inl h
    · exact .inr (.inl h)
    · exact .inr (.inr h)
  · rintro (h | h | h)
    · exact .here h
    · exact .inside h
    · exact .later h

/-- There is no placeholder in a placeholder. -/
theorem not_occurs_of_isPlaceholder {delimiter : Delimiter} {inner : List Token} {index other : Nat}
    (h : IsPlaceholder index (.group delimiter inner)) : ¬Occurs other inner := by
  cases h
  rintro (⟨⟨⟩⟩ | _ | ⟨⟨⟩⟩)

/-- No placeholder is unbound if and only if all that occur stand for one of the types. -/
theorem unbound?_eq_none :
    unbound? arity template = none ↔ ∀ index, Occurs index template → index < arity := by
  induction template using tokens_induction with
  | nil => exact iff_of_true rfl nofun
  | group delimiter inner rest ihInner ihRest =>
    rw [unbound?, Option.orElse_eq_none, ihRest, Token.unbound?]
    cases hplaceholder : placeholder? delimiter inner with
    | some index =>
      have hgroup := placeholder?_eq_some.mp hplaceholder
      have hown (other) : IsPlaceholder other (.group delimiter inner) ↔ other = index := by
        rw [← placeholder?_eq_some, hplaceholder, Option.some_inj, eq_comm]
      simp only [occurs_cons_group, hown, not_occurs_of_isPlaceholder hgroup]
      grind
    | none =>
      have hown (other) : ¬IsPlaceholder other (.group delimiter inner) := by
        simp [← placeholder?_eq_some, hplaceholder]
      simp only [occurs_cons_group, hown, ihInner]
      grind
  | other token rest plain ih =>
    have hcons (index) : Occurs index (token :: rest) ↔ Occurs index rest := by
      refine ⟨fun h => ?_, .later⟩
      cases h with
      | here h => cases h; exact absurd rfl (plain _ _)
      | inside h => exact absurd rfl (plain _ _)
      | later h => exact h
    rw [unbound?, ← ih.trans (forall_congr' fun index => imp_congr_left (hcons index).symm)]
    cases token with
    | group delimiter inner => exact absurd rfl (plain delimiter inner)
    | _ => simp [Token.unbound?]

/-- Filling puts a type in place of each placeholder, and leaves all else alone. -/
theorem fills_fill (bound : ∀ index, Occurs index template → index < names.length) :
    Fills names template (fill names template) := by
  induction template using tokens_induction with
  | nil => exact .nil
  | group delimiter inner rest ihInner ihRest =>
    have hrest := ihRest fun index h => bound index (.later h)
    rw [fill, Token.fill]
    cases hplaceholder : placeholder? delimiter inner with
    | some index =>
      have hgroup := placeholder?_eq_some.mp hplaceholder
      have hname := List.getElem?_eq_getElem (bound index (.here hgroup))
      simp only [hname, Option.getD_some]
      exact .placeholder hgroup hname hrest
    | none =>
      refine .group (fun index h => ?_) (ihInner fun index h => bound index (.inside h)) hrest
      cases hplaceholder.symm.trans (placeholder?_eq_some.mpr h)
  | other token rest plain ih =>
    have hrest := ih fun index h => bound index (.later h)
    cases token with
    | group delimiter inner => exact absurd rfl (plain delimiter inner)
    | _ => exact .other plain hrest

/-- Nothing else is a filled template. -/
theorem Fills.eq_fill {filled : List Token} (h : Fills names template filled) :
    filled = fill names template := by
  induction h with
  | nil => rfl
  | @placeholder index token name rest filled hplaceholder hname _ ih =>
    cases token with
    | group delimiter inner =>
      rw [fill, Token.fill, placeholder?_eq_some.mpr hplaceholder, ih]
      simp [hname]
    | _ => cases hplaceholder
  | @group delimiter inner changed rest filled hplain _ _ ihInner ihRest =>
    have hnone : placeholder? delimiter inner = none :=
      Option.eq_none_iff_forall_ne_some.mpr fun index h => hplain index (placeholder?_eq_some.mp h)
    rw [fill, Token.fill, hnone, ihInner, ihRest]
  | @other token rest filled hplain _ ih =>
    cases token with
    | group delimiter inner => exact absurd rfl (hplain delimiter inner)
    | _ => rw [fill, Token.fill, ih]; nofun

/-- The name of the native type of a token. -/
def nativeName (token : TypeToken) : String := NumericType.native[token.toNat]?.elim "" (·.name)

theorem length_tuples (arity : Nat) : (tuples arity).length = 4 ^ arity := by
  induction arity with
  | zero => rfl
  | succ arity ih =>
    simp [tuples, NumericType.native, ih]
    omega

/-- A tuple stands where its digits say, the first one most significant. -/
theorem getElem?_tuples {tokens : List TypeToken} (native : ∀ token ∈ tokens, token.isNative = true) :
    (tuples tokens.length)[packDigits bitsPerNativeType (tokens.map UInt8.toNat)]? =
      some (tokens.map nativeName) := by
  induction tokens with
  | nil => rfl
  | cons token tokens ih =>
    have hrest := ih fun other hother => native other (List.mem_cons_of_mem token hother)
    have hlt : packDigits bitsPerNativeType (tokens.map UInt8.toNat) < (tuples tokens.length).length :=
      (List.getElem?_eq_some_iff.mp hrest).1
    have hpow : 2 ^ (bitsPerNativeType * (tokens.map UInt8.toNat).length) = (tuples tokens.length).length := by
      rw [length_tuples, List.length_map, show bitsPerNativeType = 2 from rfl, Nat.pow_mul]
    have htoken : token.toNat < NumericType.native.length :=
      NativeKey.isNative_iff.mp (native token (List.mem_cons_self))
    rw [List.map_cons, packDigits_cons, hpow, Nat.add_comm, Nat.mul_comm, List.length_cons, tuples,
      getElem?_flatMap (fun type => List.length_map _) _ hlt, List.getElem?_eq_getElem htoken, Option.bind_some,
      List.getElem?_map, hrest, Option.map_some, List.map_cons, nativeName, List.getElem?_eq_getElem htoken,
      Option.elim_some]

/-- The number of types is taken as it is if it is a positive word. -/
theorem checkedArity_eq (hpos : 0 < arity) (hword : arity < wordLimit) :
    checkedArity ⟨false, arity⟩ = .ok arity := by
  simp [checkedArity, Nat.not_le.mpr hword, hpos.ne']

/-- A template without unbound placeholders is filled for every tuple. -/
theorem expand_eq (hpos : 0 < arity) (hword : arity < wordLimit)
    (bound : ∀ index, Occurs index template → index < arity) :
    Input.expand ⟨none, ⟨false, arity⟩, template⟩ = .ok [.group .bracket ([.punct ',' false].intercalate
      (((tuples arity).map fun types => fill types template).map (entry defaultPath)))] := by
  simp [Input.expand, checkedArity_eq hpos hword, entries, unbound?_eq_none.mpr bound, bind, Except.bind, pure,
    Except.pure]

/-- The keys of `n` native types are the numbers below `4 ^ n`, and a table has an entry for each of them: where
the key of some types is, the template stands with these types in place of its placeholders, and nothing else
changed. -/
theorem entries_in_key_order :
    (∀ tokens : List TypeToken, tokens.length ≤ 32 → (∀ token ∈ tokens, token.isNative = true) →
      ∃ key, NativeKey.ofTokens tokens = .ok key ∧ key.index < 4 ^ tokens.length ∧ key.tokens = tokens) ∧
    (∀ n number, n ≤ 32 → number < 4 ^ n → ∃ tokens : List TypeToken, tokens.length = n ∧
      (∀ token ∈ tokens, token.isNative = true) ∧
      (⟨UInt64.ofNat number⟩ : NativeKey n).tokens = tokens ∧
      ∃ key, NativeKey.ofTokens tokens = .ok key ∧ key.index = number) ∧
    ∀ (path : Reader (List Token)) (text : String) (arity : Nat) (joint : Bool) (template : List Token),
      integer? text.toList = some arity → 0 < arity → arity < wordLimit →
      (∀ index, Occurs index template → index < arity) →
      ∃ (input : Input) (filled : List (List Token)),
        Input.ofTokens path (.literal text :: .punct ',' joint :: template) = .ok input ∧
        input.expand =
          .ok [.group .bracket ([.punct ',' false].intercalate (filled.map (entry defaultPath)))] ∧
        filled.length = 4 ^ arity ∧
        ∀ tokens : List TypeToken, tokens.length = arity → arity ≤ 32 →
          (∀ token ∈ tokens, token.isNative = true) →
          ∃ key out, NativeKey.ofTokens tokens = .ok key ∧ filled[key.index]? = some out ∧
            ∀ other, Fills (tokens.map nativeName) template other ↔ other = out := by
  refine ⟨fun tokens hlength native => ?_, fun n number hn hnumber => NativeKey.exists_tokens hn hnumber,
    fun path text arity joint template htext hpos hword bound => ?_⟩
  · obtain ⟨key, hkey, _, hlt, htokens⟩ := NativeKey.exists_key hlength native
    exact ⟨key, hkey, hlt, htokens⟩
  · refine ⟨_, _, ofTokens_literal path htext joint template, expand_eq hpos hword bound, ?_, ?_⟩
    · rw [List.length_map, length_tuples]
    rintro tokens rfl hlength native
    obtain ⟨key, hkey, hpacked, _⟩ := NativeKey.exists_key hlength native
    refine ⟨key, fill (tokens.map nativeName) template, hkey, ?_, fun other => ⟨Fills.eq_fill, ?_⟩⟩
    · rw [hpacked, List.getElem?_map, getElem?_tuples native, Option.map_some]
    · rintro rfl
      exact fills_fill fun index h => (bound index h).trans_eq (List.length_map _).symm

/-- A table of two types whose template has them in the other order and at different depths: the entry of `i32`
and `f64` is the one at 9. -/
theorem entries_in_key_order_swapped : ∃ (input : Input) (filled : List (List Token)),
    Input.ofTokens enginePath [.literal "2", .punct ',' false, .ident "run", .group .brace [.ident "T1"],
      .group .bracket [.group .brace [.ident "T0"], .group .brace [.ident "N"]]] = .ok input ∧
    input.expand =
      .ok [.group .bracket ([.punct ',' false].intercalate (filled.map (entry defaultPath)))] ∧
    filled.length = 16 ∧
    filled[9]? = some [.ident "run", .ident "f64",
      .group .bracket [.ident "i32", .group .brace [.ident "N"]]] := by
  obtain ⟨input, filled, hread, hexpand, hlength, hentry⟩ := entries_in_key_order.2.2 enginePath "2" 2 false
    [.ident "run", .group .brace [.ident "T1"],
      .group .bracket [.group .brace [.ident "T0"], .group .brace [.ident "N"]]]
    (by decide) (by decide) (by decide) (unbound?_eq_none.mp rfl)
  obtain ⟨key, out, hkey, hout, hfills⟩ := hentry [2, 1] rfl (by decide) (List.all_eq_true.mp rfl)
  have hplace : key.index = 9 := by
    cases hkey
    rfl
  have hfilled := (hfills _).mpr rfl
  rw [hfilled.eq_fill] at hout
  exact ⟨input, filled, hread, hexpand, hlength, hplace ▸ hout⟩

end ArrayEngine.Template
