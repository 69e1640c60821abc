import ArrayEngine.ElementType
import ArrayEngine.Named
import ArrayEngine.Trap

/-! The table of known element types. Every type gets the next free token when it is first used, and
keeps it. -/
namespace ArrayEngine

/-- A token stands for an element type at run time. -/
abbrev TypeToken := UInt8

/-- Tokens are below this number. -/
def maxToken : Nat := 255

/-- The tokens below this number are those of the native types. -/
def nativeCount : Nat := NumericType.native.length

def TypeToken.isNative (token : TypeToken) : Bool :=
  token.toNat < nativeCount

/-- How a type may be used: dispatched through dense tables, through the registry, or not at all. -/
inductive TypeKind where
  | native | compute | storage
deriving DecidableEq, Repr

instance : Named TypeKind where
  all := [.native, .compute, .storage]
  name
    | .native => "Native"
    | .compute => "Compute"
    | .storage => "Storage"

structure TypeInfo where
  token : TypeToken
  type : ElementType

namespace TypeInfo

def id (info : TypeInfo) : TypeId := info.type.id

def name (info : TypeInfo) : String := info.type.name

def size (info : TypeInfo) : Nat := info.type.size

def isNative (info : TypeInfo) : Bool := info.token.isNative

end TypeInfo

/-- Types are compared by their tokens. -/
instance : BEq TypeInfo where
  beq a b := a.token == b.token

/-- The known types in the order of their tokens, and the token of every type. -/
structure TypeTable where
  entries : List (ElementType × TypeKind)
  tokens : List (ElementType × TypeToken)

namespace TypeTable

def empty : TypeTable := ⟨[], []⟩

def ofToken? (table : TypeTable) (token : TypeToken) : Option TypeInfo :=
  table.entries[token.toNat]?.map fun entry => ⟨token, entry.1⟩

def find? (table : TypeTable) (type : ElementType) : Option TypeInfo := do
  table.ofToken? (← table.tokens.lookup type)

/-- The current kind of a type. Unknown tokens can only be stored. -/
def kind (table : TypeTable) (token : TypeToken) : TypeKind :=
  (table.entries[token.toNat]?.map Prod.snd).getD .storage

def isCompute (table : TypeTable) (info : TypeInfo) : Bool :=
  table.kind info.token != .storage

/-- Adds a type unless it is known by now, and returns its entry. A full table takes no type. -/
def insert (table : TypeTable) (kind : TypeKind) (type : ElementType) :
    Except Trap (TypeInfo × TypeTable) :=
  match table.find? type with
  | some info => .ok (info, table)
  | none =>
    let next := table.entries.length
    if next < maxToken then
      let token := UInt8.ofNat next
      .ok (⟨token, type⟩,
        ⟨table.entries ++ [(type, kind)], (type, token) :: table.tokens⟩)
    else .error (.typeTableFull type.name)

/-- The entry of a type, which becomes a storage type if it was unknown. -/
def intern (table : TypeTable) (type : ElementType) : Except Trap (TypeInfo × TypeTable) :=
  match table.find? type with
  | some info => .ok (info, table)
  | none => table.insert .storage type

/-- The entries of some types, each known from its first place on. -/
def internAll (table : TypeTable) : List ElementType → Except Trap (List TypeInfo × TypeTable)
  | [] => .ok ([], table)
  | type :: types => do
    let (info, table) ← table.intern type
    let (infos, table) ← table.internAll types
    return (info :: infos, table)

/-- Storage types become compute types; the others stay what they are. -/
def promote (table : TypeTable) (token : TypeToken) : TypeTable :=
  match table.entries[token.toNat]? with
  | some (type, .storage) =>
    { table with entries := table.entries.set token.toNat (type, .compute) }
  | _ => table

/-- The entry of a type, which becomes a compute type unless it is native. -/
def internCompute (table : TypeTable) (type : ElementType) :
    Except Trap (TypeInfo × TypeTable) := do
  let (info, table) ← match table.find? type with
    | some info => pure (info, table)
    | none => table.insert .compute type
  return (info, table.promote info.token)

/-- The types known from the start: the native ones first, in their order. -/
def builtin : TypeTable :=
  let native := NumericType.native.map NumericType.toElementType
  let types := native ++ [.f16, .u8]
  { entries := types.zip (List.replicate native.length .native ++ [.compute, .storage])
    tokens := types.zipIdx.map fun (type, token) => (type, UInt8.ofNat token) }

end TypeTable

end ArrayEngine
