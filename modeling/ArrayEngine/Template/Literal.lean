import ArrayEngine.Template.Reader

/-! Literals: the values of integers, and texts. -/
namespace ArrayEngine.Template

/-- A number with the sign that was written before it. -/
structure Integer where
  negative : Bool
  magnitude : Nat
deriving DecidableEq, Repr

/-- The value of a digit to a base up to 16. Letters are digits to base 16 only. -/
def digit? (base : Nat) (c : Char) : Option Nat :=
  if c.isDigit then some (c.toNat - '0'.toNat)
  else if base ≤ 10 then none
  else if 'a' ≤ c ∧ c ≤ 'f' then some (c.toNat - 'a'.toNat + 10)
  else if 'A' ≤ c ∧ c ≤ 'F' then some (c.toNat - 'A'.toNat + 10)
  else none

/-- A letter or anything beyond ASCII can start the suffix of a number. -/
def startsSuffix (c : Char) : Bool := c.isAlpha || 127 < c.toNat

/-- What follows the letter `e` is an exponent: it has a sign, or it has digits and nothing but a
suffix after them. -/
def isExponent (chars : List Char) : Bool :=
  let figure (c : Char) : Bool := c == '_' || c.isDigit
  let hasDigits := (chars.takeWhile figure).any Char.isDigit
  match chars.dropWhile figure with
  | c :: _ => c == '-' || c == '+' || (hasDigits && startsSuffix c)
  | [] => hasDigits

/-- The number whose digits start `chars`, among underscores, and whether there were any. A letter
that is no digit starts a suffix, which does not count. Points and exponents make no integers. -/
def digits (base : Nat) (found : Bool) (value : Nat) : List Char → Option Nat
  | [] => if found then some value else none
  | '_' :: rest => digits base found value rest
  | c :: rest =>
    match digit? base c with
    | some d => if d < base then digits base true (value * base + d) rest else none
    | none =>
      if base = 10 ∧ c = '.' then none
      else if base = 10 ∧ (c = 'e' ∨ c = 'E') ∧ isExponent rest then none
      else if found ∧ startsSuffix c then some value
      else none

def integer? (chars : List Char) : Option Nat :=
  match chars with
  | '0' :: 'x' :: rest => digits 16 false 0 rest
  | '0' :: 'o' :: rest => digits 8 false 0 rest
  | '0' :: 'b' :: rest => digits 2 false 0 rest
  | c :: _ => if c.isDigit then digits 10 false 0 chars else none
  | [] => none

def integer : Reader Integer := do
  let cursor ← get
  let read (negative : Bool) (text : String) (rest : List Token) : Reader Integer := do
    match integer? text.toList with
    | some magnitude =>
      set { cursor with rest }
      return ⟨negative, magnitude⟩
    | none => throw (.expected [.integer] false)
  let refuse : Reader Integer := throw (.expected [.integer] cursor.rest.isEmpty)
  match visible cursor.rest with
  | .literal text :: rest => read false text rest
  | .punct '-' _ :: rest =>
    match visible rest with
    | .literal text :: rest => read true text rest
    | _ => refuse
  | _ => refuse

/-- Reads text between double quotes, if it comes next. -/
def text? : Reader (List Token) := do
  let cursor ← get
  match visible cursor.rest with
  | .literal text :: rest =>
    match text.toList with
    | '"' :: _ | 'r' :: _ =>
      set { cursor with rest }
      return [.literal text]
    | _ => return []
  | _ => return []

end ArrayEngine.Template
