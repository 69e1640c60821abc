import ArrayEngine.Scalar.Conversion

/-! Element types of arrays. -/
namespace ArrayEngine

/-- A type as programs tell it from others. Types of one name may differ. -/
structure TypeId where
  serial : Nat
  name : String
deriving DecidableEq, Repr

/-- Where a name is enough, it stands for the first type of that name. -/
instance : Coe String TypeId := ⟨TypeId.mk 0⟩

structure ElementType where
  id : TypeId
  /-- The size of an element in bytes. -/
  size : Nat
  zero : Element
deriving DecidableEq

def ElementType.name (type : ElementType) : String := type.id.name

/-- A type whose elements convert to those of every other numeric type, and back to whole elements. -/
structure NumericType extends ElementType where
  conversion : Conversion
  length_ofBinary64 : ∀ bits, (conversion.ofBinary64 bits).length = size

namespace ElementType

def f32 : ElementType := ⟨"f32", 4, Bytes.ofNat 4 0⟩
def f64 : ElementType := ⟨"f64", 8, Bytes.ofNat 8 0⟩
def i32 : ElementType := ⟨"i32", 4, Bytes.ofNat 4 0⟩
def u32 : ElementType := ⟨"u32", 4, Bytes.ofNat 4 0⟩
def f16 : ElementType := ⟨"half::binary16::f16", 2, Bytes.ofNat 2 0⟩
def u8 : ElementType := ⟨"u8", 1, Bytes.ofNat 1 0⟩

end ElementType

namespace NumericType

def f32 : NumericType := ⟨.f32, .float .binary32, fun _ => Bytes.length_ofNat _ _⟩
def f64 : NumericType := ⟨.f64, .binary64, fun _ => Bytes.length_ofNat _ _⟩
def i32 : NumericType := ⟨.i32, .fixed 4 0 true, fun _ => Bytes.length_ofNat _ _⟩
def u32 : NumericType := ⟨.u32, .fixed 4 0 false, fun _ => Bytes.length_ofNat _ _⟩

/-- The types with dense kernel tables, in the order of their tokens. -/
def native : List NumericType := [f32, f64, i32, u32]

/-- Numbers of half precision. How they are rounded is up to the library that they come from. -/
def f16 (conversion : Conversion) (whole : ∀ bits, (conversion.ofBinary64 bits).length = 2) :
    NumericType :=
  ⟨.f16, conversion, whole⟩

end NumericType

end ArrayEngine
