import ArrayEngine.ElementType
import ArrayEngine.Template.Input
import ArrayEngine.Trap

/-! Expanding a template into a dense table: one entry for every tuple of native types, in the order
of their keys. -/
namespace ArrayEngine.Template

inductive ExpandError where
  | negativeArity
  | arityTooLarge
  | noTypes
  | unbound (index arity : Nat)
deriving DecidableEq, Repr

namespace ExpandError

def message : ExpandError → String
  | negativeArity => "invalid digit found in string"
  | arityTooLarge => "number too large to fit in target type"
  | noTypes => "a dispatch table needs at least one type"
  | unbound index arity => s!"placeholder `T{index}` exceeds the table arity {arity}"

end ExpandError

/-- The number written by decimal digits, if it is a word. -/
def wordOfDigits? (chars : List Char) : Option Nat :=
  if chars ≠ [] ∧ chars.all Char.isDigit then
    let value := chars.foldl (fun value c => value * 10 + (c.toNat - '0'.toNat)) 0
    if value < wordLimit then some value else none
  else none

/-- The type that a group stands for: a letter and its number between braces, and nothing else. -/
def placeholder? (delimiter : Delimiter) (tokens : List Token) : Option Nat :=
  match delimiter, tokens with
  | .brace, [.ident name] =>
    match name.toList with
    | 'T' :: digits => wordOfDigits? digits
    | _ => none
  | _, _ => none

mutual

def Token.unbound? (arity : Nat) : Token → Option Nat
  | .group delimiter tokens =>
    match placeholder? delimiter tokens with
    | some index => if index < arity then none else some index
    | none => unbound? arity tokens
  | _ => none

/-- The first placeholder in token order that stands for none of `arity` types. -/
def unbound? (arity : Nat) : List Token → Option Nat
  | [] => none
  | token :: tokens => token.unbound? arity <|> unbound? arity tokens

end

mutual

def Token.fill (types : List String) : Token → Token
  | .group delimiter tokens =>
    match placeholder? delimiter tokens with
    | some index => .ident (types[index]?.getD "")
    | none => .group delimiter (fill types tokens)
  | token => token

/-- Tokens with a type in place of every placeholder, at any depth. -/
def fill (types : List String) : List Token → List Token
  | [] => []
  | token :: tokens => token.fill types :: fill types tokens

end

/-- All tuples of native types, the first one varying slowest. -/
def tuples : Nat → List (List String)
  | 0 => [[]]
  | arity + 1 =>
    NumericType.native.flatMap fun type => (tuples arity).map (type.name :: ·)

/-- The number of types, which must be a positive word. -/
def checkedArity (arity : Integer) : Except ExpandError Nat :=
  if arity.negative then .error .negativeArity
  else if wordLimit ≤ arity.magnitude then .error .arityTooLarge
  else if arity.magnitude = 0 then .error .noTypes
  else .ok arity.magnitude

def defaultPath : List Token := colons ++ [.ident "dihydro"]

def below (path : List Token) (names : List String) : List Token :=
  path ++ names.flatMap fun name => colons ++ [.ident name]

def entry (path tokens : List Token) : List Token :=
  below path ["loom", "dispatch", "DispatchEntry", "new"] ++ [.group .parenthesis tokens]

def entries (arity : Nat) (template : List Token) : Except ExpandError (List (List Token)) :=
  match unbound? arity template with
  | some index => .error (.unbound index arity)
  | none => .ok ((tuples arity).map fun types => fill types template)

/-- The table: its entries between brackets. -/
def Input.expand (input : Input) : Except ExpandError (List Token) := do
  let arity ← checkedArity input.arity
  let filled ← entries arity input.template
  let path := input.path?.getD defaultPath
  return [.group .bracket ([.punct ',' false].intercalate (filled.map (entry path)))]

end ArrayEngine.Template
