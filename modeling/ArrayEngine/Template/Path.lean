import ArrayEngine.Template.Literal

/-! The reader of paths that programs run with: names with two colons between them, which may have lifetimes,
constants and types in angle brackets after them. Constants in braces and lengths are taken as they are. -/
namespace ArrayEngine.Template

structure PathText where
  tokens : List Token
  /-- There is only one name, and nothing before it. -/
  isName : Bool
  /-- The last name has nothing in brackets after it. -/
  isBare : Bool

structure TypeText where
  tokens : List Token
  isName : Bool

structure BoundText where
  tokens : List Token
  isTrait : Bool

/-- Readers of what is nested in a path. A type may be a sum of bounds or not. -/
structure Grammar where
  type : Bool → Reader TypeText
  bounds : Bool → Reader (List BoundText)

/-- What stands in angle brackets after a name. -/
structure Argument where
  isLifetime : Bool
  tokens : List Token

/-- Arguments with commas between them. Lifetimes come before all others. The last comma is written
if the last argument had one. -/
def arrange (arguments : List (Argument × Bool)) : List Token :=
  join (arguments.filter (·.1.isLifetime) ++ arguments.filter (!·.1.isLifetime))
where
  join : List (Argument × Bool) → List Token
    | [] => []
    | [(last, comma)] => last.tokens ++ if comma then punctuation "," else []
    | (first, _) :: rest => first.tokens ++ punctuation "," ++ join rest

def angled (argument : Reader Argument) : Reader (List Token) := do
  let opening ← expect (.operator "<")
  let arguments ← many do
    if ← sees (.operator ">") then return ([], false)
    let argument ← argument
    if ← sees (.operator ">") then return ([(argument, false)], false)
    let _ ← expect (.operator ",")
    return ([(argument, true)], true)
  return opening ++ arrange arguments ++ (← expect (.operator ">"))

def lifetime : Reader Argument := return ⟨true, ← expect .lifetime⟩

/-- Keywords that stand in a path as they are. -/
def pathKeywords : List String := ["super", "self", "crate", "try"]

def pathStarts : List Term :=
  .operator "::" :: .identifier :: ["super", "self", "Self", "crate"].map .keyword

def segmentName : Reader String := do
  let cursor ← get
  match visible cursor.rest with
  | .ident word :: rest =>
    if word = "Self" ∨ word ∈ pathKeywords ∨ word ∉ keywords then
      set { cursor with rest }
      return word
    else throw (.foundKeyword word)
  | _ => throw (Term.identifier.missing cursor.rest)

section Nested

variable (g : Grammar)

/-- Reads a constant, a type, or a name with a value or with bounds. -/
def typeArgument : Reader (List Token) := do
  if ← sees .literal then return ← expect .literal
  if ← sees (.group .brace) then return ← expect (.group .brace)
  let type ← g.type true
  if !type.isName then return type.tokens
  let equals ← accept (.operator "=")
  if !equals.isEmpty then
    let value ←
      if ← sees .literal then expect .literal
      else if ← sees (.group .brace) then expect (.group .brace)
      else TypeText.tokens <$> g.type true
    return type.tokens ++ equals ++ value
  let colon ← accept (.operator ":")
  if colon.isEmpty then return type.tokens
  if ← seesAny [.operator ",", .operator ">"] then return type.tokens ++ colon
  return type.tokens ++ colon ++ (← g.bounds true).flatMap BoundText.tokens

def argument : Reader Argument := do
  if (← sees .lifetime) && !(← seesAfter 2 (.operator "+")) then lifetime
  else return ⟨false, ← typeArgument g⟩

/-- Reads a name and its arguments, which colons may stand before. -/
def segment : Reader PathText := do
  let name ← segmentName
  let compared ← seesAny [.operator "<=", .operator "<<="]
  let opened := (← sees (.operator "<")) && !compared
  let afterColons := (← sees (.operator "::")) && (← seesAfter 2 (.operator "<"))
  if name ∉ pathKeywords ∧ (opened ∨ afterColons) then
    let before ← accept (.operator "::")
    return ⟨.ident name :: before ++ (← angled (argument g)), true, false⟩
  else return ⟨[.ident name], true, true⟩

/-- Reads another name of a path after two colons, unless a parenthesis follows them. -/
def nextSegment : Reader (List PathText × Bool) := do
  if (← sees (.operator "::")) && !(← seesAfter 2 (.group .parenthesis)) then
    let between ← expect (.operator "::")
    let next ← segment g
    return ([{ next with tokens := between ++ next.tokens }], true)
  else return ([], false)

def segments (before : PathText) : Reader PathText := do
  let more ← many (nextSegment g)
  match more.getLast? with
  | some last => return ⟨before.tokens ++ more.flatMap PathText.tokens, false, last.isBare⟩
  | none => return before

def path : Reader PathText := do
  let leading ← accept (.operator "::")
  let first ← segment g
  segments g ⟨leading ++ first.tokens, leading.isEmpty, first.isBare⟩

def typedPath : Reader (List Token) := do
  let opening ← expect (.operator "<")
  let type ← g.type true
  let word ← accept (.keyword "as")
  let trait ← if word.isEmpty then pure [] else PathText.tokens <$> path g
  let closing ← expect (.operator ">")
  let between ← expect (.operator "::")
  let first ← segment g
  let names ← segments g first
  return opening ++ type.tokens ++ word ++ trait ++ closing ++ between ++ names.tokens

def binder? : Reader (List Token) := do
  let word ← accept (.keyword "for")
  if word.isEmpty then return []
  return word ++ (← angled lifetime)

/-- Reads the result of a function, if an arrow comes next. -/
def result? : Reader (List Token) := do
  let arrow ← accept (.operator "->")
  if arrow.isEmpty then return []
  return arrow ++ (← g.type false).tokens

/-- Reads a trait, with arguments and a result in the way of a function or without. -/
def trait : Reader (List Token) := do
  let mark ← accept (.operator "?")
  let binder ← binder?
  let path ← path g
  let colons ← sees (.operator "::")
  let called := (← sees (.group .parenthesis)) || (colons && (← seesAfter 2 (.group .parenthesis)))
  if path.isBare && called then
    let _ ← accept (.operator "::")
    let arguments ← grouped .parenthesis (commaSeparated (TypeText.tokens <$> g.type true))
    return mark ++ binder ++ path.tokens ++ arguments ++ (← result? g)
  else return mark ++ binder ++ path.tokens

def bound : Reader BoundText := do
  if ← sees .lifetime then return ⟨← expect .lifetime, false⟩
  if ← sees (.group .parenthesis) then return ⟨← grouped .parenthesis (trait g), true⟩
  return ⟨← trait g, true⟩

/-- Reads bounds with plus signs between them. Without sums there is one. -/
def boundTexts (allowsSum : Bool) : Reader (List BoundText) :=
  many do
    let first ← bound g
    let plus ← if allowsSum then accept (.operator "+") else pure []
    let more ← seesAny
      [.anyWord, .operator "::", .operator "?", .lifetime, .group .parenthesis]
    return ([{ first with tokens := first.tokens ++ plus }], !plus.isEmpty && more)

/-- Reads bounds of which one has to be a trait. -/
def traits (missing : String) (allowsSum : Bool) : Reader (List Token) := do
  let bounds ← boundTexts g allowsSum
  if bounds.any BoundText.isTrait then return bounds.flatMap BoundText.tokens
  else throw (.other missing)

def functionArgument : Reader (List Token) := do
  let named := (← seesAny [.identifier, .keyword "_"]) && (← seesAfter 1 (.operator ":")) &&
    !(← seesAfter 1 (.operator "::"))
  let name ← if named then (· ++ ·) <$> expect .anyWord <*> expect (.operator ":") else pure []
  return name ++ (← g.type true).tokens

def functionType : Reader (List Token) := do
  let safety ← accept (.keyword "unsafe")
  let abi ← accept (.keyword "extern")
  let name ← if abi.isEmpty then pure [] else text?
  let word ← expect (.keyword "fn")
  let arguments ← grouped .parenthesis (commaSeparated (functionArgument g))
  return safety ++ abi ++ name ++ word ++ arguments ++ (← result? g)

def arrayType : Reader (List Token) :=
  grouped .bracket do
    let element ← g.type true
    let semicolon ← accept (.operator ";")
    if semicolon.isEmpty then return element.tokens
    if ← atEnd then expectedOneOf [.expression]
    let length := (← get).rest
    modify ({ · with rest := [] })
    return element.tokens ++ semicolon ++ length

/-- Reads a pointer or a reference, up to the type that it is to. -/
def pointer : Reader (List Token) := do
  let star ← accept (.operator "*")
  if star.isEmpty then
    let mark ← expect (.operator "&")
    let lifetime ← accept .lifetime
    return mark ++ lifetime ++ (← accept (.keyword "mut"))
  if ← sees (.keyword "const") then return star ++ (← expect (.keyword "const"))
  if ← sees (.keyword "mut") then return star ++ (← expect (.keyword "mut"))
  expectedOneOf [.keyword "const", .keyword "mut"]

def namedType (allowsSum : Bool) (binder : List Token) : Reader TypeText := do
  let path ← path g
  let plus ← if allowsSum then accept (.operator "+") else pure []
  if plus.isEmpty then return ⟨binder ++ path.tokens, binder.isEmpty && path.isName⟩
  let bounds ← boundTexts g true
  return ⟨binder ++ path.tokens ++ plus ++ bounds.flatMap BoundText.tokens, false⟩

/-- What a type can start with, as far as it is asked for. -/
def typeStarts : List Term :=
  [.keyword "for", .group .parenthesis, .keyword "fn", .keyword "unsafe", .keyword "extern",
    .identifier, .operator "::", .operator "<", .keyword "dyn", .group .bracket, .operator "*",
    .operator "&", .operator "!", .keyword "impl", .keyword "_", .lifetime]

def typeText (allowsSum : Bool) : Reader TypeText := do
  let closed (read : Reader (List Token)) : Reader TypeText := return ⟨← read, false⟩
  let binder ← binder?
  if ← seesAny (["fn", "unsafe", "extern"].map .keyword) then
    closed ((binder ++ ·) <$> functionType g)
  else if ← seesAny pathStarts then namedType g allowsSum binder
  else if ← sees (.group .parenthesis) then
    closed (grouped .parenthesis (commaSeparated (TypeText.tokens <$> g.type true)))
  else if ← sees (.group .bracket) then closed (arrayType g)
  else if ← sees (.operator "<") then closed (typedPath g)
  else if ← seesAny [.operator "*", .operator "&"] then
    closed ((· ++ ·) <$> pointer <*> TypeText.tokens <$> g.type false)
  else if ← sees (.keyword "dyn") then
    closed ((· ++ ·) <$> expect (.keyword "dyn") <*>
      traits g "at least one trait is required for an object type" allowsSum)
  else if ← sees (.keyword "impl") then
    closed ((· ++ ·) <$> expect (.keyword "impl") <*>
      traits g "at least one trait must be specified" allowsSum)
  else if ← sees (.operator "!") then closed (expect (.operator "!"))
  else if ← sees (.keyword "_") then closed (expect (.keyword "_"))
  else expectedOneOf typeStarts

end Nested

/-- Readers for what is nested at most `depth` times. -/
def grammar : Nat → Grammar
  | 0 => ⟨fun _ => expectedOneOf [], fun _ => expectedOneOf []⟩
  | depth + 1 => ⟨typeText (grammar depth), boundTexts (grammar depth)⟩

/-- Reads a path to the engine. Whatever is nested in something has fewer tokens, so their number bounds
the depth. -/
def enginePath : Reader (List Token) := do
  let depth := countAll (← get).rest
  return (← path (grammar depth)).tokens

end ArrayEngine.Template
