import ArrayEngine.Data.Basic

/-! Writing data in JSON, without blanks. -/
namespace ArrayEngine.Data

def escape (c : Char) : List Char :=
  if c = '"' ∨ c = '\\' then ['\\', c]
  else if c.toNat < 32 then
    let digits := Nat.toDigits 16 c.toNat
    ['\\', 'u'] ++ List.replicate (4 - digits.length) '0' ++ digits
  else [c]

def quote (text : String) : String :=
  String.ofList ('"' :: text.toList.flatMap escape ++ ['"'])

def separated (texts : List String) : String := ",".intercalate texts

mutual

def print : Data → String
  | null => "null"
  | bool value => if value then "true" else "false"
  | natural value => value.repr
  | negative value => toString value
  | float bits => floatText bits
  | text value => quote value
  | list items => "[" ++ separated (printItems items) ++ "]"
  | map entries => "\x7b" ++ separated (printEntries entries) ++ "\x7d"

def printItems : List Data → List String
  | [] => []
  | item :: items => item.print :: printItems items

def printEntries : List (String × Data) → List String
  | [] => []
  | (key, value) :: entries => (quote key ++ ":" ++ value.print) :: printEntries entries

end

end ArrayEngine.Data
