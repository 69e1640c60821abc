import ArrayEngine.Proofs.Template.Order

/-! What stands where in an entry: at each position the token of the template, or the type of the placeholder there.
What has no table has a placeholder that stands for none of the types, and the error is about the first one. -/
namespace ArrayEngine.Template

/-- The tokens in a group. There are none in any other token. -/
def Token.children : Token → List Token
  | .group _ tokens => tokens
  | _ => []

/-- What stands at a position in a token: the token itself, or what stands in one of those in it. Positions are in
token order, which is that of their first different places. -/
def Token.at? (token : Token) : List Nat → Option Token
  | [] => some token
  | place :: position => token.children[place]?.bind fun child => child.at? position

/-- A token without those in it, and how many these are. -/
def Token.node : Token → Token × Nat
  | .group delimiter tokens => (.group delimiter [], tokens.length)
  | token => (token, 0)

/-- Tokens between the parentheses of an entry. -/
abbrev root (tokens : List Token) : Token :=
  .group .parenthesis tokens

/-- The placeholder at a position stands for none of `arity` types. -/
def UnboundAt (arity : Nat) (tree : Token) (position : List Nat) (index : Nat) : Prop :=
  ∃ token, tree.at? position = some token ∧ IsPlaceholder index token ∧ arity ≤ index

/-- No placeholder before one that stands for none of `arity` types is another such placeholder. -/
structure IsFirstUnbound (arity : Nat) (tree : Token) (position : List Nat) (index : Nat) : Prop where
  unbound : UnboundAt arity tree position index
  first : ∀ other k, UnboundAt arity tree other k → position = other ∨ List.Lex (· < ·) position other

/-- A tree is another one with types in place of the placeholders. All that is at other positions is the same. -/
structure Replaces (types : List String) (template tree : Token) : Prop where
  replaced : ∀ position index token, template.at? position = some token → IsPlaceholder index token →
    ∃ type, types[index]? = some type ∧ tree.at? position = some (.ident type)
  inside : ∀ position place rest index token, template.at? position = some token → IsPlaceholder index token →
    tree.at? (position ++ place :: rest) = none
  kept : ∀ position, (∀ above index token, above <+: position → template.at? above = some token →
      ¬IsPlaceholder index token) →
    (tree.at? position).map Token.node = (template.at? position).map Token.node

section Unbound

variable {arity index : Nat} {position : List Nat} {token : Token} {tokens : List Token}

theorem not_unboundAt_root : ¬UnboundAt arity (root tokens) [] index := by
  rintro ⟨_, ⟨⟩, ⟨⟩, _⟩

theorem not_unboundAt_root_nil : ¬UnboundAt arity (root []) position index := by
  cases position with
  | nil => exact not_unboundAt_root
  | cons place position =>
    rintro ⟨_, h, _⟩
    cases h

/-- A group that is no placeholder has those of the tokens in it. -/
theorem unboundAt_group {delimiter : Delimiter} (h : ∀ index, ¬IsPlaceholder index (.group delimiter tokens)) :
    UnboundAt arity (.group delimiter tokens) position index ↔ UnboundAt arity (root tokens) position index := by
  cases position with
  | nil =>
    refine iff_of_false ?_ not_unboundAt_root
    rintro ⟨_, ⟨⟩, hplaceholder, _⟩
    exact h index hplaceholder
  | cons place position => rfl

/-- A placeholder has no other one. -/
theorem unboundAt_placeholder {own : Nat} (h : IsPlaceholder own token) :
    UnboundAt arity token position index ↔ position = [] ∧ own = index ∧ arity ≤ index := by
  cases h with
  | @mk name digits hname hdigits hdecimal hvalue hword =>
    rcases position with _ | ⟨_ | place, position⟩
    · constructor
      · rintro ⟨_, ⟨⟩, hother, hle⟩
        have hsame := (placeholder?_eq_some.mpr (.mk hname hdigits hdecimal hvalue hword)).symm.trans
          (placeholder?_eq_some.mpr hother)
        exact ⟨rfl, Option.some.inj hsame, hle⟩
      · rintro ⟨-, rfl, hle⟩
        exact ⟨_, rfl, .mk hname hdigits hdecimal hvalue hword, hle⟩
    · refine iff_of_false ?_ nofun
      rintro ⟨_, h, hplaceholder, _⟩
      cases position with
      | nil => cases h; cases hplaceholder
      | cons next position => cases h
    · refine iff_of_false ?_ nofun
      rintro ⟨_, h, _⟩
      cases h

/-- What is no group has no placeholder. -/
theorem not_unboundAt_of_plain (plain : ∀ delimiter inner, token ≠ .group delimiter inner) :
    ¬UnboundAt arity token position index := by
  rintro ⟨found, hfound, hplaceholder, _⟩
  cases position with
  | nil =>
    cases hfound
    cases hplaceholder
    exact plain _ _ rfl
  | cons place position =>
    cases token with
    | group delimiter inner => exact plain _ _ rfl
    | _ => cases hfound

theorem unboundAt_head : UnboundAt arity (root (token :: tokens)) (0 :: position) index ↔
    UnboundAt arity token position index := .rfl

theorem unboundAt_tail {place : Nat} : UnboundAt arity (root (token :: tokens)) ((place + 1) :: position) index ↔
    UnboundAt arity (root tokens) (place :: position) index := .rfl

/-- A number is that of the first placeholder that stands for no type, or there is no such placeholder. -/
def Locates (arity : Nat) (tree : Token) : Option Nat → Prop
  | some index => ∃ position, IsFirstUnbound arity tree position index
  | none => ∀ position index, ¬UnboundAt arity tree position index

/-- The first one in a token comes before all in the tokens after it. -/
theorem Locates.cons {first? rest? : Option Nat} (first : Locates arity token first?)
    (rest : Locates arity (root tokens) rest?) : Locates arity (root (token :: tokens)) (first? <|> rest?) := by
  cases first? with
  | some index =>
    obtain ⟨position, hunbound, hfirst⟩ := first
    refine ⟨0 :: position, unboundAt_head.mpr hunbound, fun other k hother => ?_⟩
    rcases other with _ | ⟨_ | place, other⟩
    · exact absurd hother not_unboundAt_root
    · exact (hfirst _ _ hother).imp (congrArg (0 :: ·)) .cons
    · exact .inr (.rel place.succ_pos)
  | none =>
    change Locates arity (root (token :: tokens)) rest?
    cases rest? with
    | none =>
      rintro (_ | ⟨_ | place, position⟩) index h
      · exact not_unboundAt_root h
      · exact first _ _ h
      · exact rest _ _ (unboundAt_tail.mp h)
    | some index =>
      obtain ⟨_ | ⟨place, position⟩, hunbound, hfirst⟩ := rest
      · exact absurd hunbound not_unboundAt_root
      refine ⟨(place + 1) :: position, unboundAt_tail.mpr hunbound, fun other k hother => ?_⟩
      rcases other with _ | ⟨_ | next, other⟩
      · exact absurd hother not_unboundAt_root
      · exact absurd hother (first _ _)
      · obtain hsame | hbefore := hfirst _ _ (unboundAt_tail.mp hother)
        · cases hsame
          exact .inl rfl
        · cases hbefore with
          | rel hlt => exact .inr (.rel (Nat.succ_lt_succ hlt))
          | cons h => exact .inr (.cons h)

/-- What is found is the first placeholder in token order that stands for no type. -/
theorem locates_unbound? (arity : Nat) (tokens : List Token) :
    Locates arity (root tokens) (unbound? arity tokens) := by
  induction tokens using tokens_induction with
  | nil => exact fun position index => not_unboundAt_root_nil
  | group delimiter inner rest ihInner ihRest =>
    refine Locates.cons ?_ ihRest
    rw [Token.unbound?]
    cases hplaceholder : placeholder? delimiter inner with
    | some own =>
      have hown := placeholder?_eq_some.mp hplaceholder
      by_cases hbound : own < arity
      · simp only [if_pos hbound]
        intro position index h
        obtain ⟨-, rfl, hle⟩ := (unboundAt_placeholder hown).mp h
        exact Nat.not_le.mpr hbound hle
      · simp only [if_neg hbound]
        refine ⟨[], (unboundAt_placeholder hown).mpr ⟨rfl, rfl, Nat.not_lt.mp hbound⟩, fun other k _ => ?_⟩
        cases other with
        | nil => exact .inl rfl
        | cons place other => exact .inr .nil
    | none =>
      have plain (index) : ¬IsPlaceholder index (.group delimiter inner) := by
        simp [← placeholder?_eq_some, hplaceholder]
      cases hinner : unbound? arity inner with
      | some index =>
        rw [hinner] at ihInner
        obtain ⟨position, hunbound, hfirst⟩ := ihInner
        refine ⟨position, (unboundAt_group plain).mpr hunbound, fun other k h => ?_⟩
        exact hfirst _ _ ((unboundAt_group plain).mp h)
      | none =>
        rw [hinner] at ihInner
        exact fun position index h => ihInner _ _ ((unboundAt_group plain).mp h)
  | other token rest plain ih =>
    refine Locates.cons ?_ ih
    cases token with
    | group delimiter inner => exact absurd rfl (plain delimiter inner)
    | _ =>
      exact fun position index => not_unboundAt_of_plain fun delimiter inner h => by cases h

end Unbound

section Fill

variable {types : List String} {template tree : Token}

theorem at?_append (token : Token) (above position : List Nat) :
    token.at? (above ++ position) = (token.at? above).bind fun found => found.at? position := by
  induction above generalizing token with
  | nil => rfl
  | cons place above ih =>
    rw [List.cons_append, Token.at?, Token.at?]
    cases token.children[place]? with
    | none => rfl
    | some child => exact ih child

theorem isPlaceholder_unique {index other : Nat} {token : Token} (h : IsPlaceholder index token)
    (hother : IsPlaceholder other token) : index = other := by
  cases token with
  | group delimiter inner =>
    exact Option.some.inj ((placeholder?_eq_some.mpr h).symm.trans (placeholder?_eq_some.mpr hother))
  | _ => cases h

/-- What has a placeholder in it is none. -/
theorem not_isPlaceholder_of_at? {place index own : Nat} {position : List Nat} {token : Token}
    (h : template.at? (place :: position) = some token) (hplaceholder : IsPlaceholder index token) :
    ¬IsPlaceholder own template := by
  intro hown
  have hunbound : UnboundAt 0 template (place :: position) index := ⟨token, h, hplaceholder, Nat.zero_le index⟩
  cases ((unboundAt_placeholder hown).mp hunbound).1

theorem fill_eq_map (tokens : List Token) : fill types tokens = tokens.map (Token.fill types) := by
  induction tokens with
  | nil => rfl
  | cons token tokens ih => rw [fill, ih, List.map_cons]

theorem fill_of_isPlaceholder {index : Nat} (h : IsPlaceholder index template) :
    template.fill types = .ident (types[index]?.getD "") := by
  cases template with
  | group delimiter inner => rw [Token.fill, placeholder?_eq_some.mpr h]
  | _ => cases h

/-- A token that is no placeholder stays what it is, and those in it are filled. -/
theorem fill_of_plain (plain : ∀ index, ¬IsPlaceholder index template) :
    (template.fill types).node = template.node ∧
      (template.fill types).children = template.children.map (Token.fill types) := by
  cases template with
  | group delimiter inner =>
    have hnone : placeholder? delimiter inner = none :=
      Option.eq_none_iff_forall_ne_some.mpr fun index h => plain index (placeholder?_eq_some.mp h)
    simp [Token.fill, hnone, fill_eq_map, Token.node, Token.children]
  | _ => simp [Token.fill, Token.children]

/-- Below what is no placeholder, positions are those of the tokens in it. -/
theorem at?_fill_cons (plain : ∀ index, ¬IsPlaceholder index template) (place : Nat) (position : List Nat) :
    (template.fill types).at? (place :: position) =
      template.children[place]?.bind fun child => (child.fill types).at? position := by
  rw [Token.at?, (fill_of_plain plain).2, List.getElem?_map]
  cases template.children[place]? <;> rfl

theorem at?_fill_of_isPlaceholder {position : List Nat} {index : Nat} {token : Token}
    (h : template.at? position = some token) (hplaceholder : IsPlaceholder index token) :
    (template.fill types).at? position = some (.ident (types[index]?.getD "")) := by
  induction position generalizing template with
  | nil =>
    cases h
    rw [Token.at?, fill_of_isPlaceholder hplaceholder]
  | cons place position ih =>
    rw [at?_fill_cons fun own => not_isPlaceholder_of_at? h hplaceholder]
    rw [Token.at?] at h
    obtain ⟨child, hchild, hrest⟩ := Option.bind_eq_some_iff.mp h
    rw [hchild, Option.bind_some, ih hrest]

theorem map_node_at?_fill {position : List Nat} (plain : ∀ above index token, above <+: position →
      template.at? above = some token → ¬IsPlaceholder index token) :
    ((template.fill types).at? position).map Token.node = (template.at? position).map Token.node := by
  have own (index : Nat) : ¬IsPlaceholder index template := plain [] index template List.nil_prefix rfl
  induction position generalizing template with
  | nil => simp only [Token.at?, Option.map_some, (fill_of_plain own).1]
  | cons place position ih =>
    rw [at?_fill_cons own, Token.at?]
    cases hchild : template.children[place]? with
    | none => rfl
    | some child =>
      have inner (above : List Nat) (index : Nat) (token : Token) (hstart : above <+: position)
          (h : child.at? above = some token) : ¬IsPlaceholder index token := by
        apply plain (place :: above) index token (List.cons_prefix_cons.mpr ⟨rfl, hstart⟩)
        rw [Token.at?, hchild, Option.bind_some, h]
      exact ih inner fun index => inner [] index child List.nil_prefix rfl

/-- A tree whose placeholders all stand for a type has these in their places when it is filled. -/
theorem replaces_fill (bound : ∀ position index, ¬UnboundAt types.length template position index) :
    Replaces types template (template.fill types) where
  replaced position index token h hplaceholder := by
    have hindex : index < types.length := by
      by_contra hle
      exact bound position index ⟨token, h, hplaceholder, Nat.not_lt.mp hle⟩
    refine ⟨types[index], List.getElem?_eq_getElem hindex, ?_⟩
    rw [at?_fill_of_isPlaceholder h hplaceholder, List.getElem?_eq_getElem hindex, Option.getD_some]
  inside position place rest index token h hplaceholder := by
    rw [at?_append, at?_fill_of_isPlaceholder h hplaceholder]
    rfl
  kept position plain := map_node_at?_fill plain

/-- Two trees from one template only differ at the placeholders that their types differ for. -/
theorem Replaces.ne_iff {others : List String} {other : Token} (h : Replaces types template tree)
    (hother : Replaces others template other) (position : List Nat) :
    (tree.at? position).map Token.node ≠ (other.at? position).map Token.node ↔
      ∃ index token, template.at? position = some token ∧ IsPlaceholder index token ∧
        types[index]? ≠ others[index]? := by
  by_cases plain : ∀ above index token, above <+: position → template.at? above = some token →
      ¬IsPlaceholder index token
  · rw [h.kept position plain, hother.kept position plain]
    refine iff_of_false (fun hne => hne rfl) ?_
    rintro ⟨index, token, hat, hplaceholder, -⟩
    exact plain position index token (List.prefix_refl _) hat hplaceholder
  push Not at plain
  obtain ⟨above, index, token, ⟨rest, rfl⟩, hat, hplaceholder⟩ := plain
  cases rest with
  | nil =>
    rw [List.append_nil]
    obtain ⟨type, htype, htree⟩ := h.replaced _ _ _ hat hplaceholder
    obtain ⟨otherType, hotherType, hotherTree⟩ := hother.replaced _ _ _ hat hplaceholder
    rw [htree, hotherTree]
    constructor
    · intro hne
      refine ⟨index, token, hat, hplaceholder, fun same => hne ?_⟩
      rw [htype, hotherType] at same
      rw [Option.some.inj same]
    · rintro ⟨k, found, hfound, hk, hne⟩ same
      cases hat.symm.trans hfound
      cases isPlaceholder_unique hk hplaceholder
      apply hne
      rw [htype, hotherType]
      simpa [Token.node] using same
  | cons place rest =>
    -- there is nothing in a placeholder that is replaced, and no placeholder in another one
    rw [h.inside _ _ _ _ _ hat hplaceholder, hother.inside _ _ _ _ _ hat hplaceholder]
    refine iff_of_false (fun hne => hne rfl) ?_
    rintro ⟨k, found, hfound, hk, -⟩
    rw [at?_append, hat, Option.bind_some] at hfound
    exact not_isPlaceholder_of_at? hfound hk hplaceholder

end Fill

theorem length_of_mem_tuples {arity : Nat} {types : List String} (h : types ∈ tuples arity) :
    types.length = arity := by
  induction arity generalizing types with
  | zero =>
    rw [tuples, List.mem_singleton] at h
    rw [h, List.length_nil]
  | succ arity ih =>
    rw [tuples] at h
    obtain ⟨type, -, hrest⟩ := List.mem_flatMap.mp h
    obtain ⟨rest, hmem, rfl⟩ := List.mem_map.mp hrest
    rw [List.length_cons, ih hmem]

/-- Expanding fails if and only if some placeholder stands for none of the types. The error is about the first of them
in token order. Else there is an entry for each tuple of native types: the template with these types in place of its
placeholders, at whatever depth they are, and with all else as it is. So two entries only differ at placeholders that
their types differ for. -/
theorem expand_by_position (input : Input) {arity : Nat} (harity : input.arity = ⟨false, arity⟩) (hpos : 0 < arity)
    (hword : arity < wordLimit) :
    ((∃ error, input.expand = .error error) ↔
      ∃ position index, UnboundAt arity (root input.template) position index) ∧
    (∀ error, input.expand = .error error → ∃ position index,
      IsFirstUnbound arity (root input.template) position index ∧ error = .unbound index arity ∧
        error.message = s!"placeholder `T{index}` exceeds the table arity {arity}") ∧
    ∀ out, input.expand = .ok out → ∃ filled : List (List Token),
      out = [.group .bracket ([.punct ',' false].intercalate
        (filled.map (entry (input.path?.getD defaultPath))))] ∧
      filled.length = 4 ^ arity ∧
      (∀ (place : Nat) (types : List String), (tuples arity)[place]? = some types →
        ∃ tokens, filled[place]? = some tokens ∧ Replaces types (root input.template) (root tokens)) ∧
      ∀ (place other : Nat) (types others : List String), (tuples arity)[place]? = some types →
        (tuples arity)[other]? = some others →
        ∃ tokens otherTokens, filled[place]? = some tokens ∧ filled[other]? = some otherTokens ∧
          ∀ position, ((root tokens).at? position).map Token.node ≠
              ((root otherTokens).at? position).map Token.node ↔
            ∃ index token, (root input.template).at? position = some token ∧ IsPlaceholder index token ∧
              types[index]? ≠ others[index]? := by
  have hlocates := locates_unbound? arity input.template
  have hexpand : input.expand = (entries arity input.template).bind fun filled => pure
      [.group .bracket ([.punct ',' false].intercalate (filled.map (entry (input.path?.getD defaultPath))))] := by
    rw [Input.expand, harity, checkedArity_eq hpos hword]
    rfl
  cases hunbound? : unbound? arity input.template with
  | some index =>
    rw [hunbound?] at hlocates
    obtain ⟨position, hfirst⟩ := hlocates
    rw [entries, hunbound?] at hexpand
    refine ⟨iff_of_true ⟨_, hexpand⟩ ⟨position, index, hfirst.unbound⟩, fun error herror => ?_,
      fun out hout => ?_⟩
    · cases hexpand.symm.trans herror
      exact ⟨position, index, hfirst, rfl, rfl⟩
    · cases hexpand.symm.trans hout
  | none =>
    rw [hunbound?] at hlocates
    rw [entries, hunbound?] at hexpand
    have hreplaces {place : Nat} {types : List String} (htypes : (tuples arity)[place]? = some types) :
        Replaces types (root input.template) (root (fill types input.template)) := by
      have hlength := length_of_mem_tuples (List.mem_of_getElem? htypes)
      exact replaces_fill (hlength ▸ hlocates)
    have hentry {place : Nat} {types : List String} (htypes : (tuples arity)[place]? = some types) :
        ((tuples arity).map fun types => fill types input.template)[place]? = some (fill types input.template) := by
      rw [List.getElem?_map, htypes, Option.map_some]
    refine ⟨iff_of_false ?_ ?_, fun error herror => ?_, fun out hout => ?_⟩
    · rintro ⟨error, herror⟩
      cases hexpand.symm.trans herror
    · rintro ⟨position, index, h⟩
      exact hlocates position index h
    · cases hexpand.symm.trans herror
    · cases hexpand.symm.trans hout
      refine ⟨_, rfl, by rw [List.length_map, length_tuples], fun place types htypes => ?_,
        fun place other types others htypes hothers => ?_⟩
      · exact ⟨_, hentry htypes, hreplaces htypes⟩
      · exact ⟨_, _, hentry htypes, hentry hothers, (hreplaces htypes).ne_iff (hreplaces hothers)⟩

/-- A template of two types with a block in it, a group that is empty and one whose name has no number. -/
def nested (index : String) : List Token :=
  [.ident "run", .group .brace [.group .brace [.ident index], .group .brace [], .group .brace [.ident "T"]],
    .group .brace [.ident "T0"], .group .brace [.ident "T7"]]

/-- The error is about the placeholder in the block and not the one after it. Without the latter, the entries of
`f32` and `f64` and of `f32` and `i32` differ in the block. -/
theorem expand_by_position_nested :
    (∃ position, IsFirstUnbound 2 (root (nested "T5")) position 5) ∧
    ∃ filled : List (List Token),
      Input.expand ⟨none, ⟨false, 2⟩, (nested "T1").dropLast⟩ =
        .ok [.group .bracket ([.punct ',' false].intercalate (filled.map (entry defaultPath)))] ∧
      ∃ tokens otherTokens, filled[1]? = some tokens ∧ filled[2]? = some otherTokens ∧
        Replaces ["f32", "f64"] (root (nested "T1").dropLast) (root tokens) ∧
        ((root tokens).at? [1, 0]).map Token.node ≠ ((root otherTokens).at? [1, 0]).map Token.node := by
  constructor
  · have hfails : Input.expand ⟨none, ⟨false, 2⟩, nested "T5"⟩ = .error (.unbound 5 2) := rfl
    obtain ⟨position, index, hfirst, herror, -⟩ :=
      (expand_by_position ⟨none, ⟨false, 2⟩, nested "T5"⟩ rfl (by decide) (by decide)).2.1 _ hfails
    cases herror
    exact ⟨position, hfirst⟩
  · obtain ⟨filled, hout, -, hreplaces, hne⟩ :=
      (expand_by_position ⟨none, ⟨false, 2⟩, (nested "T1").dropLast⟩ rfl (by decide) (by decide)).2.2 _ rfl
    obtain ⟨tokens, otherTokens, htokens, hother, hdiffer⟩ := hne 1 2 ["f32", "f64"] ["f32", "i32"] rfl rfl
    obtain ⟨found, hfound, hreplaced⟩ := hreplaces 1 ["f32", "f64"] rfl
    cases hfound.symm.trans htokens
    refine ⟨filled, congrArg Except.ok hout, tokens, otherTokens, htokens, hother, hreplaced, ?_⟩
    exact (hdiffer [1, 0]).mpr ⟨1, _, rfl, placeholder?_eq_some.mp rfl, by decide⟩

end ArrayEngine.Template
