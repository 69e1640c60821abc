import ArrayEngine.Assoc
import ArrayEngine.Dispatch.Entry
import ArrayEngine.Dispatch.Selection

/-! The registry of kernels by name and general key, and the choice between it and a dense table. -/
namespace ArrayEngine

/-- The entries of every name by key. No name has an empty table. -/
structure Registry (ε : Type) where
  tables : Assoc String (Assoc DispatchKey ε)

namespace Registry

variable {ε : Type}

def empty : Registry ε := ⟨[]⟩

def table (registry : Registry ε) (name : String) : Assoc DispatchKey ε :=
  (registry.tables.lookup name).getD []

def get? (registry : Registry ε) (name : String) (key : DispatchKey) : Option ε :=
  (registry.table name).lookup key

def contains (registry : Registry ε) (name : String) (key : DispatchKey) : Bool :=
  (registry.get? name key).isSome

/-- Adds an entry in place of an earlier one of the same name and key. -/
def insert (registry : Registry ε) (name : String) (key : DispatchKey) (entry : ε) : Registry ε :=
  ⟨Assoc.insert registry.tables name (Assoc.insert (registry.table name) key entry)⟩

/-- Removes an entry. The last one of a name takes the name with it. -/
def erase (registry : Registry ε) (name : String) (key : DispatchKey) : Registry ε :=
  match Assoc.erase (registry.table name) key with
  | [] => ⟨Assoc.erase registry.tables name⟩
  | rest => ⟨Assoc.insert registry.tables name rest⟩

def remove (registry : Registry ε) (name : String) (key : DispatchKey) : Option ε × Registry ε :=
  match registry.tables.lookup name with
  | some table => (table.lookup key, registry.erase name key)
  | none => (none, registry)

def size (registry : Registry ε) : Nat :=
  registry.tables.foldl (fun size pair => size + pair.2.length) 0

def isEmpty (registry : Registry ε) : Bool := registry.size == 0

/-- The entry of a name and key, which must be there. -/
def lookup {κ : Type} (registry : Registry ε) (name : String) (key : DispatchKey) :
    Except (DispatchError κ) ε :=
  match registry.get? name key with
  | some entry => .ok entry
  | none => .error (.notFound name key)

variable {σ ν κ : Type}

def call (registry : Registry (Entry σ ν κ)) (name : String) (key : DispatchKey)
    (args : List (Arg ν)) : EStateM (Halt (DispatchError κ)) σ Unit :=
  match registry.lookup name key with
  | .ok entry => entry.call args
  | .error cause => throw (.error cause)

/-- Calls the entry of some types: through the dense table if all of them are native, and through
the registry otherwise. -/
def dispatch (registry : Registry (Entry σ ν κ)) (dense : List (Entry σ ν κ)) (name : String)
    (on : Selection) (args : List (Arg ν)) : EStateM (Halt (DispatchError κ)) σ Unit := do
  match ← on.nativeKey? with
  | some key =>
    match dense[key.index]? with
    | some entry => entry.call args
    | none => throw (.error (.tableIndex key.index dense.length))
  | none => registry.call name on.key args

end Registry

end ArrayEngine
