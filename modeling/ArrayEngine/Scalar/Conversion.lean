import ArrayEngine.Scalar.Binary
import ArrayEngine.Scalar.Bytes

/-! How the elements of a type convert to and from those of another: through binary64. -/
namespace ArrayEngine

/-- An element is given by its bytes. -/
abbrev Element := List UInt8

/-- The conversions of an element type to and from binary64 patterns. -/
structure Conversion where
  toBinary64 : Element → Nat
  ofBinary64 : Nat → Element

namespace Conversion

open BinaryFormat

/-- Binary64 elements are their own patterns. -/
def binary64 : Conversion where
  toBinary64 := Bytes.toNat
  ofBinary64 := Bytes.ofNat 8

/-- Elements of a narrower format widen exactly and narrow to the nearest number. -/
def float (f : BinaryFormat) : Conversion where
  toBinary64 x := BinaryFormat.binary64.encode (f.decode (Bytes.toNat x))
  ofBinary64 bits := Bytes.ofNat (f.width / 8) (f.encode (BinaryFormat.binary64.decode bits))

/-- Integers of `size` bytes with the last `point` bits after the binary point. Conversions to them
round towards zero and stop at the least and greatest one; NaN becomes 0. -/
def fixed (size point : Nat) (signed : Bool) : Conversion where
  toBinary64 x :=
    let n := Bytes.toNat x
    let value : Int :=
      if signed && Bytes.capacity size ≤ 2 * n then (n : Int) - Bytes.capacity size else n
    BinaryFormat.binary64.encode ((BinaryNumber.ofInt value).scale (-(point : Int)))
  ofBinary64 bits :=
    let limit : Int := Bytes.capacity size
    let low : Int := if signed then -(limit / 2) else 0
    let high : Int := if signed then limit / 2 - 1 else limit - 1
    let value := ((BinaryFormat.binary64.decode bits).scale point).clamp low high
    Bytes.ofNat size (value % limit).toNat

def cast (source target : Conversion) (x : Element) : Element :=
  target.ofBinary64 (source.toBinary64 x)

end Conversion

end ArrayEngine
