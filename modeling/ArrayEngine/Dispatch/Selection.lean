import ArrayEngine.Dispatch.Error

/-! The types that a call dispatches on, and their keys. -/
namespace ArrayEngine

variable {κ : Type}

namespace DispatchKey

def ofTokens (tokens : List TypeToken) : Except (DispatchError κ) DispatchKey :=
  if maxTypes < tokens.length then .error (.tooManyTypes tokens.length maxTypes)
  else .ok (pack tokens)

/-- The key of the tokens of some types. -/
def ofTypes (types : List TypeInfo) : Except (DispatchError κ) DispatchKey :=
  ofTokens (types.map TypeInfo.token)

end DispatchKey

namespace NativeKey

/-- The key of the tokens of some types. The first type that is not native is an error. -/
def ofTypes (types : List TypeInfo) :
    Except (Halt (DispatchError κ)) (NativeKey (types.map TypeInfo.token).length) :=
  match types.find? fun info => !info.isNative with
  | some info => .error (.error (.nonNativeType info.name))
  | none => monadLift (ofTokens (types.map TypeInfo.token))

end NativeKey

structure Selection where
  types : List TypeInfo

namespace Selection

/-- Selects compute types. The first type that is none is an error. -/
def ofTypes (table : TypeTable) (types : List TypeInfo) : Except (DispatchError κ) Selection :=
  match types.find? fun info => !table.isCompute info with
  | some info => .error (.nonComputeType info.name)
  | none => .ok ⟨types⟩

def tokens (on : Selection) : List TypeToken := on.types.map TypeInfo.token

def isAllNative (on : Selection) : Bool := on.types.all TypeInfo.isNative

def nativeKey? (on : Selection) : Except Trap (Option (NativeKey on.tokens.length)) :=
  if on.isAllNative then some <$> NativeKey.ofTokens on.tokens else .ok none

def key (on : Selection) : DispatchKey := DispatchKey.pack on.tokens

end Selection

end ArrayEngine
