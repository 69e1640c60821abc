/-! Binary floating-point formats as exact arithmetic on their bit patterns: reading a pattern as a
number, and rounding a number to the nearest pattern. -/
namespace ArrayEngine

/-- A binary format: one sign bit, then the exponent, then the fraction. -/
structure BinaryFormat where
  exponentBits : Nat
  fractionBits : Nat
deriving DecidableEq, Repr

/-- What a pattern stands for. A finite number is `significand * 2 ^ exponent` with its sign. The
payload of a NaN is its fraction, aligned to 52 bits. -/
inductive BinaryNumber where
  | nan (negative : Bool) (payload : Nat)
  | infinite (negative : Bool)
  | finite (negative : Bool) (significand : Nat) (exponent : Int)
deriving DecidableEq, Repr

namespace BinaryFormat

def binary16 : BinaryFormat := ⟨5, 10⟩
def binary32 : BinaryFormat := ⟨8, 23⟩
def binary64 : BinaryFormat := ⟨11, 52⟩

/-- The exponent of the last fraction bit of the smallest numbers. -/
def leastExponent (f : BinaryFormat) : Int :=
  2 - (1 <<< (f.exponentBits - 1) : Nat) - f.fractionBits

/-- The pattern of positive infinity; all greater ones without a sign are NaNs. -/
def infinity (f : BinaryFormat) : Nat :=
  (1 <<< f.exponentBits - 1) <<< f.fractionBits

def signWeight (f : BinaryFormat) : Nat :=
  1 <<< (f.exponentBits + f.fractionBits)

def width (f : BinaryFormat) : Nat :=
  1 + f.exponentBits + f.fractionBits

def decode (f : BinaryFormat) (bits : Nat) : BinaryNumber :=
  let negative := f.signWeight ≤ bits
  let magnitude := bits % f.signWeight
  let fraction := magnitude % 1 <<< f.fractionBits
  let biased := magnitude >>> f.fractionBits
  if f.infinity < magnitude then .nan negative (fraction <<< (52 - f.fractionBits))
  else if magnitude = f.infinity then .infinite negative
  else if biased = 0 then .finite negative fraction f.leastExponent
  else .finite negative (1 <<< f.fractionBits + fraction) (f.leastExponent + (biased - 1))

/-- `n / d` rounded to the nearest integer, a tie to the even one. -/
def roundDiv (n d : Nat) : Nat :=
  let q := n / d
  let twice := 2 * (n % d)
  if twice < d then q
  else if d < twice then q + 1
  else q + q % 2

/-- The pattern of the magnitude `significand * 2 ^ exponent`, rounded to nearest even. -/
def roundMagnitude (f : BinaryFormat) (significand : Nat) (exponent : Int) : Nat :=
  if significand = 0 then 0
  else
    let unit := max f.leastExponent (exponent + significand.log2 - f.fractionBits)
    let rounded :=
      if unit ≤ exponent then significand <<< (exponent - unit).toNat
      else roundDiv significand (1 <<< (unit - exponent).toNat)
    min f.infinity (rounded + (unit - f.leastExponent).toNat <<< f.fractionBits)

/-- The pattern of the number nearest to `x`. A NaN stays a quiet NaN with the high bits of its
payload. -/
def encode (f : BinaryFormat) (x : BinaryNumber) : Nat :=
  let signed (negative : Bool) (magnitude : Nat) : Nat :=
    if negative then f.signWeight + magnitude else magnitude
  match x with
  | .nan negative payload =>
    let quiet := 1 <<< (f.fractionBits - 1)
    signed negative (f.infinity + ((payload >>> (52 - f.fractionBits)) ||| quiet))
  | .infinite negative => signed negative f.infinity
  | .finite negative significand exponent =>
    signed negative (f.roundMagnitude significand exponent)

end BinaryFormat

namespace BinaryNumber

def ofInt (n : Int) : BinaryNumber :=
  .finite (n < 0) n.natAbs 0

def scale (k : Int) : BinaryNumber → BinaryNumber
  | .finite negative significand exponent => .finite negative significand (exponent + k)
  | x => x

/-- The integer part of a finite number, rounded towards zero; `none` for others. -/
def truncate? : BinaryNumber → Option Int
  | .finite negative significand exponent =>
    let magnitude :=
      if 0 ≤ exponent then significand <<< exponent.toNat
      else significand >>> (-exponent).toNat
    some (if negative then -(magnitude : Int) else magnitude)
  | _ => none

/-- The integer nearest to the integer part of `x` among `low` to `high`, and 0 for NaN. -/
def clamp (low high : Int) (x : BinaryNumber) : Int :=
  match x with
  | .nan _ _ => 0
  | .infinite negative => if negative then low else high
  | .finite .. => max low (min high (x.truncate?.getD 0))

end BinaryNumber

end ArrayEngine
