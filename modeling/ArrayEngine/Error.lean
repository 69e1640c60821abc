import ArrayEngine.Named

/-! The kinds of errors. -/
namespace ArrayEngine

/-- How an error is to be taken: a configuration that cannot work, a caller's mistake, or an
operation that is known but not provided. -/
inductive ErrorKind where
  | fatal | precondition | unsupported
deriving DecidableEq, Repr

instance : Named ErrorKind where
  all := [.fatal, .precondition, .unsupported]
  name
    | .fatal => "Fatal"
    | .precondition => "Precondition"
    | .unsupported => "Unsupported"

/-- Errors with a name, a kind and a text. An error that stands for one of another type has a name
of two parts. -/
class Explained (ε : Type) where
  name : ε → String
  kind : ε → ErrorKind
  message : ε → String

end ArrayEngine
