import ArrayEngine.Template.Literal

/-! Reading the input of a table: an optional path to the engine, the number of types, and the
template of an entry. -/
namespace ArrayEngine.Template

structure Input where
  path? : Option (List Token)
  arity : Integer
  template : List Token

variable (path : Reader (List Token))

/-- Reads the path to the engine, if the input starts with one. -/
def enginePath? : Reader (Option (List Token)) := do
  if (← sees (.keyword "crate")) && (← seesAfter 1 (.operator "=")) then
    let _ ← expect (.keyword "crate")
    let _ ← expect (.operator "=")
    let tokens ← path
    let _ ← expect (.operator ";")
    return some tokens
  else return none

/-- Reads a whole input, paths by `path`. What a group of the path was not read to comes up at the
end. -/
def Input.ofTokens (tokens : List Token) : Except ParseError Input := do
  let read : Reader (Option (List Token) × Integer) := do
    let path? ← enginePath? path
    let arity ← integer
    let _ ← expect (.operator ",")
    return (path?, arity)
  let ((path?, arity), cursor) ← read.run ⟨tokens, none⟩
  match cursor.leftover? with
  | some delimiter => throw (.leftover delimiter)
  | none => return ⟨path?, arity, cursor.rest⟩

end ArrayEngine.Template
