import ArrayEngine.Template.Expand
import ArrayEngine.Template.Path

/-! What is read of the input of a table: the path to the engine, if there is one, the number of types and the
template. A path of names is read as it is written. -/
namespace ArrayEngine.Template

/-- Tokens one after the other, groups with what is in them. -/
theorem tokens_induction {motive : List Token → Prop} (nil : motive [])
    (group : ∀ delimiter inner rest, motive inner → motive rest →
      motive (.group delimiter inner :: rest))
    (other : ∀ token rest, (∀ delimiter inner, token ≠ .group delimiter inner) → motive rest →
      motive (token :: rest)) (tokens : List Token) : motive tokens := by
  induction hcount : countAll tokens using Nat.strongRecOn generalizing tokens with
  | ind count ih =>
    subst hcount
    cases tokens with
    | nil => exact nil
    | cons token rest =>
      have hrest : countAll rest < countAll (token :: rest) := by
        have hpos : 0 < token.count := by cases token <;> simp [Token.count]
        rw [countAll]
        omega
      cases token with
      | group delimiter inner =>
        have hinner : countAll inner < countAll (.group delimiter inner :: rest) := by
          rw [countAll, Token.count]
          omega
        exact group delimiter inner rest (ih _ hinner inner rfl) (ih _ hrest rest rfl)
      | _ => exact other _ rest nofun (ih _ hrest rest rfl)

/-- What is visible does not start with an invisible group. -/
theorem head?_visible (tokens inner : List Token) : (visible tokens).head? ≠ some (.group .invisible inner) := by
  have opened (tokens : List Token) : ∀ rest later : List Token, later.head? ≠ some (.group .invisible inner) →
      (openAll rest later tokens).head? ≠ some (.group .invisible inner) := by
    induction tokens using tokens_induction with
    | nil => exact fun rest later h => h
    | group delimiter within rest ihWithin ihRest =>
      intro after later h
      have hlater := ihRest after later h
      cases delimiter with
      | invisible => exact ihWithin _ _ hlater
      | _ => simp [openAll, Token.open]
    | other token rest plain ih =>
      intro after later h
      cases token with
      | group delimiter within => exact absurd rfl (plain delimiter within)
      | _ => simp [openAll, Token.open]
  exact opened tokens [] [] nofun

theorem visible_cons {token : Token} (plain : ∀ inner, token ≠ .group .invisible inner) (rest : List Token) :
    visible (token :: rest) = token :: rest := by
  rw [visible, openAll, List.append_nil]
  unfold Token.open
  split
  · exact absurd rfl (plain _)
  · rfl

@[simp] theorem visible_ident (name : String) (rest : List Token) :
    visible (.ident name :: rest) = .ident name :: rest := visible_cons (by simp) rest

@[simp] theorem visible_literal (text : String) (rest : List Token) :
    visible (.literal text :: rest) = .literal text :: rest := visible_cons (by simp) rest

@[simp] theorem visible_punct (c : Char) (joint : Bool) (rest : List Token) :
    visible (.punct c joint :: rest) = .punct c joint :: rest := visible_cons (by simp) rest

variable {α β : Type} {before middle rest : List Token} {a : α} {b : β}

/-- A reader gives `a` for some tokens, of which it leaves `rest`. -/
def Reads (reader : Reader α) (before rest : List Token) (a : α) : Prop :=
  ∀ leftover?, reader.run ⟨before, leftover?⟩ = .ok (a, ⟨rest, leftover?⟩)

namespace Reads

theorem pure (a : α) (rest : List Token) : Reads (pure a) rest rest a := fun _ => rfl

theorem bind {reader : Reader α} {next : α → Reader β} (h : Reads reader before middle a)
    (k : Reads (next a) middle rest b) : Reads (reader >>= next) before rest b := by
  intro leftover?
  rw [StateT.run_bind, h leftover?]
  exact k leftover?

theorem get_bind {next : Cursor → Reader β} (k : ∀ leftover?, Reads (next ⟨before, leftover?⟩) before rest b) :
    Reads (get >>= next) before rest b := fun leftover? => k leftover? leftover?

theorem seesAfter (count : Nat) (term : Term) (rest : List Token) :
    Reads (seesAfter count term) rest rest (term.split? (after count rest)).isSome := fun _ => rfl

theorem sees (term : Term) (rest : List Token) :
    Reads (sees term) rest rest (term.split? rest).isSome := fun _ => rfl

theorem seesAny (terms : List Term) (rest : List Token) :
    Reads (seesAny terms) rest rest (terms.any fun term => (term.split? rest).isSome) := fun _ => rfl

theorem expect {term : Term} {tokens : List Token} (h : term.split? before = some (tokens, rest)) :
    Reads (expect term) before rest tokens := by
  intro leftover?
  simp [Template.expect, h]
  rfl

theorem accept {term : Term} {tokens : List Token} (h : term.split? before = some (tokens, rest)) :
    Reads (accept term) before rest tokens := by
  refine .bind (.sees term before) ?_
  rw [h]
  exact .expect h

theorem accept_none {term : Term} (h : term.split? rest = none) : Reads (Template.accept term) rest rest [] := by
  refine .bind (.sees term rest) ?_
  rw [h]
  exact .pure [] rest

end Reads

theorem split?_operator_of_ne {text : String} {c : Char} {chars : List Char} (h : text.toList = c :: chars) {d : Char}
    (hne : d ≠ c) (joint : Bool) (rest : List Token) :
    (Term.operator text).split? (.punct d joint :: rest) = none := by
  simp [Term.split?, afterOperator?, h, hne]

theorem split?_operator {text : String} {c : Char} (h : text.toList = [c]) (joint : Bool) (rest : List Token) :
    (Term.operator text).split? (.punct c joint :: rest) = some ([.punct c false], rest) := by
  simp [Term.split?, afterOperator?, h, punctuation, ofRun]

theorem reads_integer {text : String} {arity : Nat} (h : integer? text.toList = some arity) (rest : List Token) :
    Reads integer (.literal text :: rest) rest ⟨false, arity⟩ := by
  intro leftover?
  simp [integer, h]
  rfl

/-- An input whose path is read, or that has none: a number, a comma and the template follow. -/
theorem ofTokens_eq {path : Reader (List Token)} {tokens : List Token} {path? : Option (List Token)} {text : String}
    {arity : Nat} {comma : Bool} {template : List Token} (h : integer? text.toList = some arity)
    (hpath : Reads (enginePath? path) tokens (.literal text :: .punct ',' comma :: template) path?) :
    Input.ofTokens path tokens = .ok ⟨path?, ⟨false, arity⟩, template⟩ := by
  have reads : Reads (do
      let path? ← enginePath? path
      let arity ← integer
      let _ ← expect (.operator ",")
      return (path?, arity)) tokens template (path?, (⟨false, arity⟩ : Integer)) :=
    .bind hpath (.bind (reads_integer h _) (.bind (.expect (split?_operator rfl comma template)) (.pure _ _)))
  rw [Input.ofTokens]
  dsimp only
  rw [reads none]
  rfl

/-- An input without a path, whatever reads paths. -/
theorem ofTokens_literal (path : Reader (List Token)) {text : String} {arity : Nat}
    (h : integer? text.toList = some arity) (comma : Bool) (template : List Token) :
    Input.ofTokens path (.literal text :: .punct ',' comma :: template) = .ok ⟨none, ⟨false, arity⟩, template⟩ :=
  ofTokens_eq h (.bind (.sees _ _) (.bind (.seesAfter _ _ _) (.pure none _)))

/-- A path is what is read between the sign and the semicolon. -/
theorem reads_enginePath? {path : Reader (List Token)} {given tokens : List Token} {semicolon : Bool} (equals : Bool)
    (h : Reads path given (.punct ';' semicolon :: rest) tokens) :
    Reads (enginePath? path) (.ident "crate" :: .punct '=' equals :: given) rest (some tokens) := by
  have hcrate (rest : List Token) :
      (Term.keyword "crate").split? (.ident "crate" :: rest) = some ([.ident "crate"], rest) := by
    simp [Term.split?]
  have hequals : (Term.operator "=").split? (.punct '=' equals :: given) = some ([.punct '=' false], given) :=
    split?_operator rfl equals given
  refine .bind (.sees _ _) (.bind (.seesAfter _ _ _) ?_)
  rw [hcrate, after, visible_ident, List.tail_cons, after, hequals]
  exact .bind (.expect (hcrate _)) (.bind (.expect hequals) (.bind h (.bind
    (.expect (split?_operator rfl semicolon rest)) (.pure _ _))))

section Names

variable {name : String} {g : Grammar}

theorem colons_eq : colons = [.punct ':' true, .punct ':' false] := rfl

theorem split?_colons (rest : List Token) : (Term.operator "::").split? (colons ++ rest) = some (colons, rest) := by
  simp [Term.split?, afterOperator?, colons_eq, punctuation, ofRun]

/-- Names with colons before them. -/
def continued (names : List String) : List Token := names.flatMap fun name => colons ++ [.ident name]

/-- What comes after a name that has no arguments, in a path of such names: more of them, and a semicolon. -/
inductive EndsName : List Token → Prop
  | semicolon (joint : Bool) (rest : List Token) : EndsName (.punct ';' joint :: rest)
  | colons (name : String) (rest : List Token) : EndsName (colons ++ .ident name :: rest)

theorem endsName_continued (names : List String) (joint : Bool) (rest : List Token) :
    EndsName (continued names ++ .punct ';' joint :: rest) := by
  cases names with
  | nil => exact .semicolon joint rest
  | cons name names =>
    rw [continued, List.flatMap_cons, List.append_assoc, List.append_assoc]
    exact .colons name _

theorem reads_segmentName (hname : name ∉ keywords) (rest : List Token) :
    Reads segmentName (.ident name :: rest) rest name := by
  intro leftover?
  simp [segmentName, hname]
  rfl

theorem reads_segment (hname : name ∉ keywords) (h : EndsName rest) :
    Reads (segment g) (.ident name :: rest) rest ⟨[.ident name], true, true⟩ := by
  have hopened : (Term.operator "<").split? rest = none := by
    cases h <;> exact split?_operator_of_ne rfl (by decide) _ _
  have hcolons : (Term.operator "::").split? rest = none ∨ (Term.operator "<").split? (after 2 rest) = none := by
    cases h with
    | semicolon => exact .inl (split?_operator_of_ne rfl (by decide) _ _)
    | colons name rest => exact .inr (by simp [after, colons_eq, Term.split?, afterOperator?])
  refine .bind (reads_segmentName hname rest) (.bind (.seesAny _ _) (.bind (.sees _ _) (.bind (.sees _ _)
    (.bind (.seesAfter _ _ _) ?_))))
  dsimp only
  rw [hopened, if_neg]
  · exact .pure _ rest
  · rcases hcolons with hnone | hnone <;> simp [hnone]

theorem reads_nextSegment (hname : name ∉ keywords) (h : EndsName rest) :
    Reads (nextSegment g) (colons ++ .ident name :: rest) rest ([⟨colons ++ [.ident name], true, true⟩], true) := by
  refine .bind (.sees _ _) (.bind (.seesAfter _ _ _) ?_)
  have hgroup : (Term.group .parenthesis).split? (after 2 (colons ++ .ident name :: rest)) = none := by
    simp [after, colons_eq, Term.split?]
  rw [split?_colons, hgroup]
  exact .bind (.expect (split?_colons _)) (.bind (reads_segment hname h) (.pure _ _))

theorem reads_repeated {names : List String} (hnames : ∀ name ∈ names, name ∉ keywords) {count : Nat}
    (hcount : names.length < count) (joint : Bool) (rest : List Token) :
    Reads (repeated (nextSegment g) count) (continued names ++ .punct ';' joint :: rest) (.punct ';' joint :: rest)
      (names.map fun name => ⟨colons ++ [.ident name], true, true⟩) := by
  induction names generalizing count with
  | nil =>
    cases count with
    | zero => cases hcount
    | succ count =>
      have stops : Reads (nextSegment g) (.punct ';' joint :: rest) (.punct ';' joint :: rest) ([], false) := by
        refine .bind (.sees _ _) (.bind (.seesAfter _ _ _) ?_)
        rw [split?_operator_of_ne rfl (by decide)]
        exact .pure _ _
      exact .bind stops (.bind (.pure [] _) (.pure _ _))
  | cons name names ih =>
    cases count with
    | zero => cases hcount
    | succ count =>
      have hrest := ih (fun other hother => hnames other (.tail _ hother)) (Nat.lt_of_succ_lt_succ hcount)
      have hfirst := reads_nextSegment (g := g) (hnames name (.head _)) (endsName_continued names joint rest)
      rw [continued, List.flatMap_cons, List.append_assoc, List.append_assoc]
      exact .bind hfirst (.bind hrest (.pure _ _))

theorem length_le_countAll (tokens : List Token) : tokens.length ≤ countAll tokens := by
  induction tokens with
  | nil => exact Nat.le_refl 0
  | cons token tokens ih =>
    have hone : 1 ≤ token.count := by cases token <;> simp [Token.count]
    rw [countAll, List.length_cons]
    omega

theorem length_le_continued (names : List String) : names.length ≤ (continued names).length := by
  induction names with
  | nil => exact Nat.le_refl 0
  | cons name names ih =>
    rw [continued, List.flatMap_cons, List.length_append, List.length_append, List.length_cons, List.length_singleton]
    rw [continued] at ih
    omega

theorem reads_segments {names : List String} (hnames : ∀ name ∈ names, name ∉ keywords) (first : PathText)
    (joint : Bool) (rest : List Token) : ∃ text : PathText, text.tokens = first.tokens ++ continued names ∧
      Reads (segments g first) (continued names ++ .punct ';' joint :: rest) (.punct ';' joint :: rest) text := by
  have hcount : names.length < countAll (continued names ++ .punct ';' joint :: rest) + 1 := by
    refine Nat.lt_succ_of_le (Nat.le_trans ?_ (length_le_countAll _))
    rw [List.length_append]
    exact Nat.le_trans (length_le_continued names) (Nat.le_add_right _ _)
  have hmore : Reads (many (nextSegment g)) (continued names ++ .punct ';' joint :: rest) (.punct ';' joint :: rest)
      (names.map fun name => ⟨colons ++ [.ident name], true, true⟩) :=
    fun leftover? => reads_repeated hnames hcount joint rest leftover?
  cases hlast : (names.map fun name => (⟨colons ++ [.ident name], true, true⟩ : PathText)).getLast? with
  | none =>
    obtain rfl : names = [] := by simpa using hlast
    exact ⟨first, by simp [continued], .bind hmore (.pure first _)⟩
  | some last =>
    refine ⟨⟨first.tokens ++ continued names, false, last.isBare⟩, rfl, .bind hmore ?_⟩
    rw [hlast, List.flatMap_map]
    exact .pure _ _

/-- The colons that a path may start with. -/
def leadingColons (leading : Bool) : List Token := if leading then colons else []

theorem reads_leadingColons (leading : Bool) (name : String) (rest : List Token) :
    Reads (accept (.operator "::")) (leadingColons leading ++ .ident name :: rest) (.ident name :: rest)
      (leadingColons leading) := by
  cases leading with
  | true => exact .accept (split?_colons _)
  | false =>
    refine .accept_none ?_
    simp [Term.split?, afterOperator?, leadingColons]

theorem reads_path (leading : Bool) (hname : name ∉ keywords) {names : List String}
    (hnames : ∀ other ∈ names, other ∉ keywords) (joint : Bool) (rest : List Token) :
    ∃ text : PathText, text.tokens = below (leadingColons leading ++ [.ident name]) names ∧
      Reads (path g) (below (leadingColons leading ++ [.ident name]) names ++ .punct ';' joint :: rest)
        (.punct ';' joint :: rest) text := by
  have hbelow : below (leadingColons leading ++ [.ident name]) names ++ .punct ';' joint :: rest =
      leadingColons leading ++ .ident name :: (continued names ++ .punct ';' joint :: rest) := by
    simp [below, continued]
  obtain ⟨text, htext, hsegments⟩ := reads_segments (g := g) hnames
    ⟨leadingColons leading ++ [.ident name], (leadingColons leading).isEmpty, true⟩ joint rest
  have hfirst := reads_segment (g := g) hname (endsName_continued names joint rest)
  rw [hbelow]
  exact ⟨text, htext, .bind (reads_leadingColons leading name _) (hfirst.bind (by exact hsegments))⟩

/-- A path of names is read as it is written. -/
theorem reads_enginePath (leading : Bool) (hname : name ∉ keywords) {names : List String}
    (hnames : ∀ other ∈ names, other ∉ keywords) (joint : Bool) (rest : List Token) :
    Reads enginePath (below (leadingColons leading ++ [.ident name]) names ++ .punct ';' joint :: rest)
      (.punct ';' joint :: rest) (below (leadingColons leading ++ [.ident name]) names) := by
  obtain ⟨text, htext, hpath⟩ := reads_path (g := grammar (countAll
    (below (leadingColons leading ++ [.ident name]) names ++ .punct ';' joint :: rest))) leading hname hnames joint rest
  rw [← htext] at hpath ⊢
  exact .get_bind fun _ => hpath.bind (by exact .pure _ _)

/-- An input with a path of names to the engine: it is read as it is written, and so are the number of types and the
template after it. -/
theorem ofTokens_names (leading : Bool) (hname : name ∉ keywords) {names : List String}
    (hnames : ∀ other ∈ names, other ∉ keywords) {text : String} {arity : Nat} (h : integer? text.toList = some arity)
    (equals semicolon comma : Bool) (template : List Token) :
    Input.ofTokens enginePath (.ident "crate" :: .punct '=' equals ::
        (below (leadingColons leading ++ [.ident name]) names ++
          .punct ';' semicolon :: .literal text :: .punct ',' comma :: template)) =
      .ok ⟨some (below (leadingColons leading ++ [.ident name]) names), ⟨false, arity⟩, template⟩ :=
  ofTokens_eq h (reads_enginePath? equals (reads_enginePath leading hname hnames semicolon _))

end Names

end ArrayEngine.Template
