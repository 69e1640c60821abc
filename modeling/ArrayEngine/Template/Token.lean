/-! Program text as trees of tokens, and their written form: words, runs of punctuation, and groups in
brackets. -/
namespace ArrayEngine.Template

/-- Invisible delimiters stand around what another template has put in. They are not written. -/
inductive Delimiter where
  | parenthesis | bracket | brace | invisible
deriving DecidableEq, Repr

namespace Delimiter

def written : List Delimiter := [parenthesis, bracket, brace]

def text : Delimiter → String
  | parenthesis => "()"
  | bracket => "[]"
  | brace => "\x7b\x7d"
  | invisible => ""

def ofText? (text : String) : Option Delimiter :=
  written.find? fun delimiter => delimiter.text == text

end Delimiter

/-- A punctuation character is joint if it makes one operator with the next one. -/
inductive Token where
  | ident (name : String)
  | literal (text : String)
  | punct (char : Char) (joint : Bool)
  | group (delimiter : Delimiter) (tokens : List Token)

/-- A written piece of a token sequence: one token or a run of joint punctuation, or a group. -/
inductive Piece where
  | word (text : String)
  | group (delimiter : Delimiter) (pieces : List Piece)

mutual

/-- The number of tokens in a token, itself included. -/
def Token.count : Token → Nat
  | .group _ tokens => countAll tokens + 1
  | _ => 1

/-- The number of tokens in tokens at any depth. -/
def countAll : List Token → Nat
  | [] => 0
  | token :: tokens => token.count + countAll tokens

end

mutual

/-- A token before others, `later` being what is visible of those: what stands first is no invisible group. -/
def Token.open (rest later : List Token) : Token → List Token
  | .group .invisible inner => openAll rest later inner
  | token => token :: rest

/-- Some tokens before others in the same way. -/
def openAll (rest later : List Token) : List Token → List Token
  | [] => later
  | token :: tokens => token.open (tokens ++ rest) (openAll rest later tokens)

end

/-- Tokens as they are read: out of the invisible groups that they start with. -/
def visible (tokens : List Token) : List Token := openAll [] [] tokens

def isPunctuation (c : Char) : Bool :=
  "~!@#$%^&*-=+|;:,<.>/?".toList.contains c

/-- Text with a quote in it is a literal, and so is text that starts with a digit. -/
def isLiteral (chars : List Char) : Bool :=
  match chars with
  | '\'' :: rest => rest.getLast? == some '\''
  | c :: _ => c.isDigit || chars.contains '"' || chars.contains '\''
  | [] => false

/-- The token of a word without punctuation. A quote that is not closed marks the identifier after
it. -/
def ofWord (chars : List Char) : List Token :=
  if isLiteral chars then [.literal (String.ofList chars)]
  else
    match chars with
    | [] => []
    | '\'' :: name => [.punct '\'' true, .ident (String.ofList name)]
    | _ => [.ident (String.ofList chars)]

/-- A run of punctuation, of which only the last character is not joint. -/
def ofRun : List Char → List Token
  | [] => []
  | [c] => [.punct c false]
  | c :: run => .punct c true :: ofRun run

def ofText (text : String) : List Token :=
  ofRun (text.toList.takeWhile isPunctuation) ++ ofWord (text.toList.dropWhile isPunctuation)

mutual

def Piece.tokens : Piece → List Token
  | .word text => ofText text
  | .group delimiter pieces => [.group delimiter (tokensOf pieces)]

def tokensOf : List Piece → List Token
  | [] => []
  | piece :: pieces => piece.tokens ++ tokensOf pieces

end

/-- Puts a joint punctuation character before what is written after it. Only punctuation joins. -/
def attach (c : Char) (next : Option Token) (pieces : List Piece) : List Piece :=
  match next, pieces with
  | some (.punct _ _), .word run :: rest => .word (String.singleton c ++ run) :: rest
  | _, _ => .word (String.singleton c) :: pieces

mutual

def Token.write : Token → Option Token → List Piece → List Piece
  | .ident name, _, rest => .word name :: rest
  | .literal text, _, rest => .word text :: rest
  | .punct c false, _, rest => .word (String.singleton c) :: rest
  | .punct c true, next, rest => attach c next rest
  | .group delimiter tokens, _, rest => .group delimiter (piecesOf tokens) :: rest

def piecesOf : List Token → List Piece
  | [] => []
  | token :: tokens => token.write tokens.head? (piecesOf tokens)

end

end ArrayEngine.Template
