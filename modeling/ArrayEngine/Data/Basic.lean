import ArrayEngine.Decimal.Shortest
import ArrayEngine.Named
import ArrayEngine.Text.Quoted

/-! Data in the form in which it is stored and exchanged, and what is said about data of the wrong
form. -/
namespace ArrayEngine

/-- Whole numbers are told apart from others by how they are written. A float is given by its binary64
pattern. -/
inductive Data where
  | null
  | bool (value : Bool)
  | natural (value : Nat)
  | negative (value : Int)
  | float (bits : Nat)
  | text (value : String)
  | list (items : List Data)
  | map (entries : List (String × Data))

namespace Data

/-- Floats are written without an exponent from 0.00001 on and below 10 to the 16. -/
def floatStyle : Decimal.Style := ⟨16, 4⟩

def floatText (bits : Nat) : String :=
  match BinaryFormat.binary64.decode bits with
  | .finite isNegative significand exponent =>
    let sign := if isNegative then "-" else ""
    if significand = 0 then sign ++ "0.0"
    else
      sign ++ ((Decimal.shortest significand exponent).strip 17).layOut floatStyle
  | .infinite isNegative => if isNegative then "-inf" else "inf"
  | .nan _ _ => "NaN"

def describe : Data → String
  | null => "null"
  | bool value => s!"boolean `{value}`"
  | natural value => s!"integer `{value}`"
  | negative value => s!"integer `{value}`"
  | float bits => s!"floating point `{floatText bits}`"
  | text value => s!"string {Text.Quoted.render value}"
  | list _ => "sequence"
  | map _ => "map"

/-- Why data could not be read: it is of the wrong type, of the right type but not in range, or a name
that is not among the known ones. -/
inductive ReadError where
  | invalidType (found expected : String)
  | invalidValue (found expected : String)
  | unknownVariant (found : String) (known : List String)
deriving DecidableEq, Repr

def alternatives (names : List String) : String :=
  let quoted := names.map fun name => s!"`{name}`"
  match quoted with
  | [] => "there are no variants"
  | [only] => s!"expected {only}"
  | [first, second] => s!"expected {first} or {second}"
  | all => "expected one of " ++ ", ".intercalate all

namespace ReadError

def message : ReadError → String
  | invalidType found expected => s!"invalid type: {found}, expected {expected}"
  | invalidValue found expected => s!"invalid value: {found}, expected {expected}"
  | unknownVariant found known => s!"unknown variant `{found}`, {alternatives known}"

end ReadError

def toWord : Data → Except ReadError UInt64
  | natural value =>
    if value < UInt64.size then .ok (UInt64.ofNat value)
    else .error (.invalidValue (describe (.natural value)) "u64")
  | negative value => .error (.invalidValue (describe (.negative value)) "u64")
  | other => .error (.invalidType other.describe "u64")

def variant (α : Type) [Named α] (name : String) : Except ReadError α :=
  match Named.ofName? name with
  | some value => .ok value
  | none => .error (.unknownVariant name ((Named.all : List α).map Named.name))

/-- The value of an enumeration: its name, or a map from its name to nothing. -/
def toNamed (α : Type) [Named α] : Data → Except ReadError α
  | text name => variant α name
  | map [(name, payload)] => do
    let value ← variant α name
    match payload with
    | null => return value
    | other => throw (.invalidType other.describe "unit")
  | map _ => .error (.invalidValue "map" "map with a single key")
  | other => .error (.invalidType other.describe "string or map")

def ofNamed {α : Type} [Named α] (value : α) : Data := text (Named.name value)

end Data

end ArrayEngine
