import ArrayEngine.Data.Class
import ArrayEngine.Data.Parse
import ArrayEngine.ElementType

/-! Elements as data. -/
namespace ArrayEngine

/-- An element type, its short name, and how its elements are given as data. -/
structure ElementForm where
  name : String
  type : ElementType
  /-- The type with its conversions, if it has any. -/
  numeric? : Option NumericType
  ofNat : Nat → Element
  ofData? : Data → Option Element
  toData : Element → Data

namespace ElementForm

/-- Integers are numbers, which wrap around. -/
def integer (name : String) (type : ElementType) (numeric? : Option NumericType) (signed : Bool) :
    ElementForm where
  name := name
  type := type
  numeric? := numeric?
  ofNat := Bytes.ofNat type.size
  ofData?
    | .natural n => some (Bytes.ofNat type.size n)
    | .negative n => some (Bytes.ofNat type.size (n % (Bytes.capacity type.size : Int)).toNat)
    | _ => none
  toData x :=
    let n := Bytes.toNat x
    if signed && Bytes.capacity type.size ≤ 2 * n then .negative (n - Bytes.capacity type.size : Int)
    else .natural n

/-- The hexadecimal digits of a pattern, at least `count` of them. -/
def patternText (count bits : Nat) : String :=
  let digits := Nat.toDigits 16 bits
  String.ofList (List.replicate (count - digits.length) '0' ++ digits)

/-- Floats are the hexadecimal digits of their patterns, all of them. One name stands for every
NaN. Natural numbers are rounded to binary64 first. -/
def float (name : String) (type : NumericType) (format : BinaryFormat) : ElementForm where
  name := name
  type := type.toElementType
  numeric? := some type
  ofNat n := type.conversion.ofBinary64 (BinaryFormat.binary64.encode (.ofInt n))
  ofData?
    | .text "nan" => some (Bytes.ofNat type.size (format.infinity + 1 <<< (format.fractionBits - 1)))
    | .text digits => (Data.Parse.hexNumber? digits.toList).map (Bytes.ofNat type.size)
    | _ => none
  toData x :=
    let bits := Bytes.toNat x
    match format.decode bits with
    | .nan _ _ => .text "nan"
    | _ => .text (patternText (2 * type.size) bits)

/-- Elements without a meaning of their own are their bytes. -/
def bytes (name : String) (type : ElementType) : ElementForm where
  name := name
  type := type
  numeric? := none
  ofNat := Bytes.ofNat type.size
  ofData? := OfData.ofData?
  toData := ToData.toData

/-- Numbers of half precision, rounded once. -/
def half : NumericType := .f16 (.float .binary16) fun _ => Bytes.length_ofNat _ _

/-- The forms of the types known from the start, in the order of their tokens. -/
def builtin : List ElementForm :=
  [float "f32" .f32 .binary32, float "f64" .f64 .binary64,
    integer "i32" .i32 (some .i32) true, integer "u32" .u32 (some .u32) false,
    float "f16" half .binary16, integer "u8" .u8 none false]

variable (form : ElementForm)

/-- The elements in a field, which are none if it is absent. -/
def getAll? (data : Data) (key : String) : Option (List Element) :=
  (data.getList key).mapM form.ofData?

def get? (data : Data) (key : String) : Option Element := data.get? key >>= form.ofData?

def listData (elements : List Element) : Data := .list (elements.map form.toData)

end ElementForm

end ArrayEngine
