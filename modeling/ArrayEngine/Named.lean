/-! Enumerations whose values are written by name. -/
namespace ArrayEngine

/-- The values of an enumeration, in their declared order, and how each one is written. -/
class Named (α : Type) where
  all : List α
  name : α → String

namespace Named

/-- The value written `text`, if there is one. -/
def ofName? {α : Type} [Named α] (text : String) : Option α :=
  (all : List α).find? (fun a => name a == text)

end Named

end ArrayEngine
