import ArrayEngine.Data.Basic

/-! Values as data, and data as values. -/
namespace ArrayEngine

class ToData (α : Type) where
  toData : α → Data

export ToData (toData)

instance : ToData Data := ⟨id⟩
instance : ToData Nat := ⟨.natural⟩
instance : ToData Bool := ⟨.bool⟩
instance : ToData String := ⟨.text⟩
instance : ToData UInt8 := ⟨fun n => .natural n.toNat⟩
instance : ToData UInt64 := ⟨fun n => .natural n.toNat⟩
instance : ToData Int := ⟨fun n => if n < 0 then .negative n else .natural n.toNat⟩
instance {α : Type} [Named α] : ToData α := ⟨Data.ofNamed⟩
instance {α : Type} [ToData α] : ToData (List α) := ⟨fun items => .list (items.map toData)⟩

/-- What is absent is null. -/
instance {α : Type} [ToData α] : ToData (Option α) := ⟨fun a => (a.map toData).getD .null⟩

/-- Types whose values can be read off data of the right form. -/
class OfData (α : Type) where
  ofData? : Data → Option α

export OfData (ofData?)

instance : OfData Data := ⟨some⟩
instance : OfData Nat := ⟨fun | .natural n => some n | _ => none⟩
instance : OfData Bool := ⟨fun | .bool b => some b | _ => none⟩
instance : OfData String := ⟨fun | .text s => some s | _ => none⟩
instance : OfData UInt8 := ⟨fun | .natural n => some (UInt8.ofNat n) | _ => none⟩
instance : OfData UInt64 := ⟨fun | .natural n => some (UInt64.ofNat n) | _ => none⟩
instance {α : Type} [Named α] : OfData α := ⟨fun | .text s => Named.ofName? s | _ => none⟩
instance {α : Type} [OfData α] : OfData (List α) :=
  ⟨fun | .list items => items.mapM ofData? | _ => none⟩

namespace Data

def field? (data : Data) (key : String) : Option Data :=
  match data with
  | map entries => entries.lookup key
  | _ => none

/-- An entry of a map as a value. Null is no value. -/
def get? {α : Type} [OfData α] (data : Data) (key : String) : Option α := do
  match ← data.field? key with
  | null => none
  | value => ofData? value

/-- A list that is empty if it is absent. -/
def getList {α : Type} [OfData α] (data : Data) (key : String) : List α :=
  (data.get? key).getD []

/-- A mark that is not set if it is absent. -/
def getFlag (data : Data) (key : String) : Bool := (data.get? key).getD false

/-- The entries of `first` and those of `second` whose keys are new. -/
def merge (first second : Data) : Data :=
  match first, second with
  | map own, map other => map (own ++ other.filter fun entry => (own.lookup entry.1).isNone)
  | _, _ => second

def field {α : Type} [ToData α] (key : String) (value : α) : String × Data := (key, toData value)

end Data

end ArrayEngine
