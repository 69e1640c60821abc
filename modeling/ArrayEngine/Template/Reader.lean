import ArrayEngine.Template.Token

/-! Readers of token sequences, and why tokens cannot be read. -/
namespace ArrayEngine.Template

inductive Term where
  | integer | literal | identifier | anyWord | lifetime | expression
  | keyword (word : String)
  | operator (text : String)
  | group (delimiter : Delimiter)
deriving DecidableEq, Repr

inductive ParseError where
  /-- One of some terms should stand where something else does, or where the tokens end. -/
  | expected (terms : List Term) (atEnd : Bool)
  | foundKeyword (word : String)
  /-- A group was not read to its end. -/
  | leftover (delimiter : Delimiter)
  | other (message : String)
deriving DecidableEq, Repr

namespace Term

def text : Term → String
  | integer => "integer literal"
  | literal => "literal"
  | identifier => "identifier"
  | anyWord => "ident"
  | lifetime => "lifetime"
  | expression => "an expression"
  | keyword word => s!"`{word}`"
  | operator text => s!"`{text}`"
  | group .parenthesis => "parentheses"
  | group .bracket => "square brackets"
  | group .brace => "curly braces"
  | group .invisible => "invisible group"

end Term

namespace ParseError

def alternatives : List Term → String
  | [only] => only.text
  | [first, second] => s!"{first.text} or {second.text}"
  | terms => "one of: " ++ ", ".intercalate (terms.map Term.text)

def message : ParseError → String
  | expected [] true => "unexpected end of input"
  | expected [] false => "unexpected token"
  | expected terms atEnd =>
    (if atEnd then "unexpected end of input, " else "") ++ s!"expected {alternatives terms}"
  | foundKeyword word => s!"expected identifier, found keyword `{word}`"
  | leftover .parenthesis => "unexpected token, expected `)`"
  | leftover .bracket => "unexpected token, expected `]`"
  | leftover .brace => "unexpected token, expected `\x7d`"
  | leftover .invisible => "unexpected token"
  | other message => message

end ParseError

/-- Words that are no identifiers. -/
def keywords : List String :=
  ["_", "abstract", "as", "async", "await", "become", "box", "break", "const", "continue", "crate",
    "do", "dyn", "else", "enum", "extern", "false", "final", "fn", "for", "if", "impl", "in", "let",
    "loop", "macro", "match", "mod", "move", "mut", "override", "priv", "pub", "ref", "return",
    "Self", "self", "static", "struct", "super", "trait", "true", "try", "type", "typeof", "unsafe",
    "unsized", "use", "virtual", "where", "while", "yield"]

def punctuation (text : String) : List Token := ofRun text.toList

def colons : List Token := punctuation "::"

/-- The tokens after an operator, if they start with it. Its characters belong together, but the
last one may be joint with more. -/
def afterOperator? : List Char → List Token → Option (List Token)
  | [], _ => none
  | c :: text, tokens =>
    match visible tokens with
    | .punct actual joint :: rest =>
      if actual ≠ c then none
      else if text.isEmpty then some rest
      else if joint then afterOperator? text rest
      else none
    | _ => none

/-- The tokens of a literal and the tokens after it, if a literal comes first. Truth values are
literals, and numbers may have a minus sign. -/
def splitLiteral? (tokens : List Token) : Option (List Token × List Token) :=
  match visible tokens with
  | .literal text :: rest => some ([.literal text], rest)
  | .ident word :: rest =>
    if word = "true" ∨ word = "false" then some ([.ident word], rest) else none
  | .punct '-' _ :: rest =>
    match visible rest with
    | .literal text :: rest =>
      if text.toList.head?.any Char.isDigit then some ([.punct '-' false, .literal text], rest)
      else none
    | _ => none
  | _ => none

/-- The tokens of a term and the tokens after it, if the term comes first. -/
def Term.split? (term : Term) (tokens : List Token) : Option (List Token × List Token) :=
  match term, visible tokens with
  | .literal, _ => splitLiteral? tokens
  | .anyWord, .ident word :: rest => some ([.ident word], rest)
  | .identifier, .ident word :: rest =>
    if word ∈ keywords then none else some ([.ident word], rest)
  | .keyword word, .ident actual :: rest =>
    if actual = word then some ([.ident word], rest) else none
  | .lifetime, .punct '\'' true :: .ident name :: rest =>
    some ([.punct '\'' true, .ident name], rest)
  | .operator text, _ =>
    (afterOperator? text.toList tokens).map fun rest => (punctuation text, rest)
  | .group delimiter, .group actual inner :: rest =>
    if actual = delimiter then some ([.group actual inner], rest) else none
  | _, _ => none

/-- Why a term is not there. Operators are asked for in the same words at the end. -/
def Term.missing (term : Term) (rest : List Token) : ParseError :=
  match term, visible rest with
  | .identifier, .ident word :: _ => .foundKeyword word
  | .operator _, _ => .expected [term] false
  | _, _ => .expected [term] rest.isEmpty

/-- What is left to read, and the first group that was not read to its end. -/
structure Cursor where
  rest : List Token
  leftover? : Option Delimiter

abbrev Reader := StateT Cursor (Except ParseError)

def atEnd : Reader Bool := return (← get).rest.isEmpty

/-- The tokens that come after some others. -/
def after : Nat → List Token → List Token
  | 0, tokens => tokens
  | count + 1, tokens => after count (visible tokens).tail

/-- A term comes after `count` more tokens. -/
def seesAfter (count : Nat) (term : Term) : Reader Bool :=
  return (term.split? (after count (← get).rest)).isSome

def sees (term : Term) : Reader Bool := seesAfter 0 term

def seesAny (terms : List Term) : Reader Bool := do
  let tokens := (← get).rest
  return terms.any fun term => (term.split? tokens).isSome

def expect (term : Term) : Reader (List Token) := do
  let cursor ← get
  match term.split? cursor.rest with
  | some (tokens, rest) =>
    set { cursor with rest }
    return tokens
  | none => throw (term.missing cursor.rest)

def accept (term : Term) : Reader (List Token) := do
  if ← sees term then expect term else return []

/-- Fails since none of some terms comes next. -/
def expectedOneOf {α : Type} (terms : List Term) : Reader α := do
  throw (.expected terms (← atEnd))

/-- Reads a group whose tokens `inside` reads. Tokens that it leaves are an error if no other error
follows. -/
def grouped (delimiter : Delimiter) (inside : Reader (List Token)) : Reader (List Token) := do
  let cursor ← get
  match visible cursor.rest with
  | .group actual tokens :: rest =>
    if actual ≠ delimiter then throw (.expected [.group delimiter] false)
    set { cursor with rest := tokens }
    let result ← inside
    let left ← get
    let own := if left.rest.isEmpty then none else some delimiter
    set (⟨rest, left.leftover? <|> own⟩ : Cursor)
    return [.group delimiter result]
  | _ => throw (.expected [.group delimiter] cursor.rest.isEmpty)

/-- Repeats a step for as long as it says so, at most `count` times. -/
def repeated {α : Type} (step : Reader (List α × Bool)) : Nat → Reader (List α)
  | 0 => return []
  | count + 1 => do
    let (items, more) ← step
    return items ++ (← if more then repeated step count else pure [])

/-- Repeats a step that takes a token whenever it says that more follows. -/
def many {α : Type} (step : Reader (List α × Bool)) : Reader (List α) := do
  repeated step (countAll (← get).rest + 1)

/-- Reads items to the end, with commas between them. -/
def commaSeparated (item : Reader (List Token)) : Reader (List Token) :=
  many do
    if ← atEnd then return ([], false)
    let tokens ← item
    if ← atEnd then return (tokens, false)
    return (tokens ++ (← expect (.operator ",")), true)

end ArrayEngine.Template
