import ArrayEngine.Scalar.Binary

/-! The fewest decimal digits that read back as a binary64 number, and how they are laid out. All
comparisons are exact. -/
namespace ArrayEngine

structure Decimal where
  digits : Nat
  exponent : Int
deriving DecidableEq, Repr

namespace Decimal

structure Fraction where
  num : Nat
  den : Nat

/-- The numbers that round to one number: those between `low` and `high`, and these two if `closed`.
The number itself is `value`. -/
structure Neighbourhood where
  low : Fraction
  value : Fraction
  high : Fraction
  closed : Bool

def dyadic (num : Nat) (exponent : Int) : Fraction :=
  ⟨num <<< exponent.toNat, 1 <<< (-exponent).toNat⟩

/-- The neighbourhood of `significand * 2 ^ exponent`. Below a power of two the next number is only
half as far away as above it. -/
def neighbourhood (significand : Nat) (exponent : Int) : Neighbourhood :=
  let atStep := significand = 1 <<< BinaryFormat.binary64.fractionBits ∧ BinaryFormat.binary64.leastExponent < exponent
  { low := dyadic (4 * significand - if atStep then 1 else 2) (exponent - 2)
    value := dyadic (4 * significand) (exponent - 2)
    high := dyadic (4 * significand + 2) (exponent - 2)
    closed := significand % 2 = 0 }

def compareTo (x : Decimal) (f : Fraction) : Ordering :=
  compare (x.digits * Nat.pow 10 x.exponent.toNat * f.den)
    (f.num * Nat.pow 10 (-x.exponent).toNat)

def Neighbourhood.contains (around : Neighbourhood) (x : Decimal) : Bool :=
  match x.compareTo around.low, x.compareTo around.high with
  | .gt, .lt => true
  | .eq, _ | _, .eq => around.closed
  | _, _ => false

def length (n : Nat) : Nat := (Nat.toDigits 10 n).length

/-- The position of the first digit: the exponent of the greatest power of ten that is not above the
fraction. -/
def magnitude (f : Fraction) : Int :=
  if f.den ≤ f.num then length (f.num / f.den) - 1
  else
    Int.negOfNat (length ((f.den + (f.num - 1)) / f.num - 1))

/-- The greatest number of `count` digits that is not above the fraction. -/
def floorAt (count : Nat) (f : Fraction) : Decimal :=
  let exponent := magnitude f - (count - 1 : Nat)
  ⟨f.num * Nat.pow 10 (-exponent).toNat / (f.den * Nat.pow 10 exponent.toNat), exponent⟩

/-- Of the two numbers of `count` digits next to the value, the nearest one that reads back. If both
are equally near, it is the one whose last digit is even. -/
def nearestAt? (around : Neighbourhood) (count : Nat) : Option Decimal :=
  let below := floorAt count around.value
  let above : Decimal := ⟨below.digits + 1, below.exponent⟩
  let middle : Decimal := ⟨(2 * below.digits + 1) * 5, below.exponent - 1⟩
  match around.contains below, around.contains above with
  | true, true =>
    match middle.compareTo around.value with
    | .lt => some above
    | .eq => some (if below.digits % 2 = 0 then below else above)
    | .gt => some below
  | true, false => some below
  | false, true => some above
  | false, false => none

/-- The shortest decimal that reads back as `significand * 2 ^ exponent`. Seventeen digits always
do. -/
def shortest (significand : Nat) (exponent : Int) : Decimal :=
  let around := neighbourhood significand exponent
  ((List.range 17).findSome? fun count => nearestAt? around (count + 1)).getD
    (floorAt 17 around.value)

/-- Trailing zeros go to the exponent. -/
def strip : Nat → Decimal → Decimal
  | fuel + 1, x =>
    if x.digits ≠ 0 ∧ x.digits % 10 = 0 then strip fuel ⟨x.digits / 10, x.exponent + 1⟩ else x
  | 0, x => x

/-- Which numbers are written without an exponent: the first digit stands at most `whole` places
before the point, or after at most `zeros` zeros behind it. -/
structure Style where
  whole : Int
  zeros : Int

/-- Digits with a point among them, or with an exponent, which has a sign. There is always a digit on
both sides of a point. -/
def layOut (style : Style) (x : Decimal) : String :=
  let digits := Nat.toDigits 10 x.digits
  let point := digits.length + x.exponent
  let zeros (count : Int) : List Char := List.replicate count.toNat '0'
  let chars :=
    if 0 ≤ x.exponent ∧ point ≤ style.whole then digits ++ zeros x.exponent ++ ['.', '0']
    else if 0 < point ∧ point ≤ style.whole then
      digits.take point.toNat ++ '.' :: digits.drop point.toNat
    else if -style.zeros ≤ point ∧ point ≤ 0 then '0' :: '.' :: zeros (-point) ++ digits
    else
      let sign := if point < 1 then '-' else '+'
      let exponent := 'e' :: sign :: Nat.toDigits 10 (point - 1).natAbs
      match digits with
      | [first] => first :: exponent
      | first :: rest => first :: '.' :: rest ++ exponent
      | [] => exponent
  String.ofList chars

end Decimal

end ArrayEngine
