import ArrayEngine.Data.Basic

/-! Reading data in JSON. A number is whole if it is written without a point and an exponent and fits
in a signed or unsigned word; every other number is a float, and so is minus zero. A reader returns
what it read and the rest. -/
namespace ArrayEngine.Data.Parse

def skipBlanks (chars : List Char) : List Char :=
  chars.dropWhile fun c => c == ' ' || c == '\t' || c == '\n' || c == '\r'

def digitValue (c : Char) : Nat := c.toNat - '0'.toNat

def hexValue? (c : Char) : Option Nat :=
  if c.isDigit then some (digitValue c)
  else if 'a' ≤ c ∧ c ≤ 'f' then some (c.toNat - 'a'.toNat + 10)
  else if 'A' ≤ c ∧ c ≤ 'F' then some (c.toNat - 'A'.toNat + 10)
  else none

def hexNumber? (chars : List Char) : Option Nat :=
  chars.foldlM (fun n c => (hexValue? c).map (n * 16 + ·)) 0

def escaped (c : Char) : Char :=
  match c with
  | 'n' => '\n'
  | 't' => '\t'
  | 'r' => '\r'
  | 'b' => '\x08'
  | 'f' => '\x0c'
  | c => c

/-- The character of one or two escaped 16-bit units, and how many characters follow the first one's
digits that it takes. -/
def unit? (digits rest : List Char) : Option (Char × Nat) := do
  let high ← hexNumber? digits
  if 0xd800 ≤ high ∧ high < 0xdc00 then
    match rest with
    | '\\' :: 'u' :: rest =>
      let low ← hexNumber? (rest.take 4)
      return (Char.ofNat (0x10000 + (high - 0xd800) * 0x400 + (low - 0xdc00)), 6)
    | _ => none
  else return (Char.ofNat high, 0)

/-- The rest of a text after its opening quote. -/
def text : Nat → List Char → Option (List Char × List Char)
  | fuel + 1, '\\' :: 'u' :: rest => do
    let (c, more) ← unit? (rest.take 4) (rest.drop 4)
    let (tail, rest) ← text fuel (rest.drop (4 + more))
    return (c :: tail, rest)
  | fuel + 1, '\\' :: c :: rest => do
    let (tail, rest) ← text fuel rest
    return (escaped c :: tail, rest)
  | _, '"' :: rest => some ([], rest)
  | fuel + 1, c :: rest => do
    let (tail, rest) ← text fuel rest
    return (c :: tail, rest)
  | _, _ => none

/-- The digits that fit in a word, read on from `value`, and how many do not. -/
def accumulate (value : Nat) : List Char → Nat × Nat
  | [] => (value, 0)
  | c :: digits =>
    let next := value * 10 + digitValue c
    if next < UInt64.size then accumulate next digits else (value, digits.length + 1)

/-- `x * 10 ^ exponent`, by one multiplication or division per 308 decimal places. -/
def scale : Nat → Float → Int → Float
  | fuel + 1, x, exponent =>
    if exponent.natAbs ≤ 308 then
      let power := Float.ofScientific 1 false exponent.natAbs
      if 0 ≤ exponent then x * power else x / power
    else if x == 0 then x
    else if 0 ≤ exponent then x * Float.ofScientific 1 false 309
    else scale fuel (x / Float.ofScientific 1 false 308) (exponent + 308)
  | 0, x, _ => if x == 0 then x else 0

/-- A part of a number that starts with a point: its digits. -/
def fraction (chars : List Char) : Option (List Char) × List Char :=
  match chars with
  | '.' :: rest => (some (rest.takeWhile Char.isDigit), rest.dropWhile Char.isDigit)
  | _ => (none, chars)

/-- A part of a number that starts with the letter e: its value. -/
def exponent (chars : List Char) : Option Int × List Char :=
  let read (sign : Int) (rest : List Char) : Option Int × List Char :=
    let digits := rest.takeWhile Char.isDigit
    (some (sign * (digits.foldl (fun n c => n * 10 + digitValue c) 0 : Nat)),
      rest.dropWhile Char.isDigit)
  match chars with
  | 'e' :: '-' :: rest | 'E' :: '-' :: rest => read (-1) rest
  | 'e' :: '+' :: rest | 'E' :: '+' :: rest => read 1 rest
  | 'e' :: rest | 'E' :: rest => read 1 rest
  | _ => (none, chars)

/-- A number without its sign. Of digits that do not fit in a word, those before the point count for
the size of the number only, and those after it do not count. -/
def unsigned (isNegative : Bool) (chars : List Char) : Option (Data × List Char) :=
  let whole := chars.takeWhile Char.isDigit
  let (fraction?, rest) := fraction (chars.dropWhile Char.isDigit)
  let (exponent?, rest) := exponent rest
  let (head, left) := accumulate 0 whole
  let (digits, lost) := accumulate head (fraction?.getD [])
  let places := (left : Int) - ((fraction?.getD []).length - lost : Nat) + exponent?.getD 0
  let magnitude := scale (places.natAbs / 308 + 1) (UInt64.ofNat digits).toFloat places
  let number : Data :=
    if fraction?.isNone && exponent?.isNone && left = 0 then
      if !isNegative then .natural head
      else if head ≠ 0 ∧ head ≤ UInt64.size / 2 then .negative (-(head : Int))
      else .float (-magnitude).toBits.toNat
    else .float (if isNegative then -magnitude else magnitude).toBits.toNat
  if whole.isEmpty then none else some (number, rest)

def number (chars : List Char) : Option (Data × List Char) :=
  match chars with
  | '-' :: rest => unsigned true rest
  | _ => unsigned false chars

mutual

def value : Nat → List Char → Option (Data × List Char)
  | 0, _ => none
  | fuel + 1, chars =>
    match skipBlanks chars with
    | 'n' :: 'u' :: 'l' :: 'l' :: rest => some (.null, rest)
    | 't' :: 'r' :: 'u' :: 'e' :: rest => some (.bool true, rest)
    | 'f' :: 'a' :: 'l' :: 's' :: 'e' :: rest => some (.bool false, rest)
    | '"' :: rest => (text rest.length rest).map fun (s, rest) => (.text (String.ofList s), rest)
    | '[' :: rest =>
      match skipBlanks rest with
      | ']' :: rest => some (.list [], rest)
      | rest => items fuel rest []
    | '\x7b' :: rest =>
      match skipBlanks rest with
      | '\x7d' :: rest => some (.map [], rest)
      | rest => entries fuel rest []
    | chars => number chars

/-- The items of a list from one of them on. The ones before are given, the last one first. -/
def items : Nat → List Char → List Data → Option (Data × List Char)
  | 0, _, _ => none
  | fuel + 1, chars, before => do
    let (item, rest) ← value fuel chars
    match skipBlanks rest with
    | ',' :: rest => items fuel rest (item :: before)
    | ']' :: rest => return (.list (item :: before).reverse, rest)
    | _ => none

/-- The entries of a map from one of them on. A later entry takes the place of an earlier one of the
same key. -/
def entries : Nat → List Char → List (String × Data) → Option (Data × List Char)
  | 0, _, _ => none
  | fuel + 1, chars, before => do
    match skipBlanks chars with
    | '"' :: rest =>
      let (key, rest) ← text rest.length rest
      let key := String.ofList key
      match skipBlanks rest with
      | ':' :: rest =>
        let (item, rest) ← value fuel rest
        let all := (key, item) :: before.filter fun entry => entry.1 != key
        match skipBlanks rest with
        | ',' :: rest => entries fuel rest all
        | '\x7d' :: rest => return (.map all.reverse, rest)
        | _ => none
      | _ => none
    | _ => none

end

end Parse

def parse? (source : String) : Option Data := do
  let chars := source.toList
  let (data, rest) ← Parse.value (chars.length + 1) chars
  if (Parse.skipBlanks rest).isEmpty then return data else none

end ArrayEngine.Data
