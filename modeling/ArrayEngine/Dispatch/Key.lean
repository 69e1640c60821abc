import ArrayEngine.TypeTable

/-! Dispatch keys: tuples of type tokens packed into one word. A general key holds up to 7 tokens
below its arity, one byte each; a native key holds up to 32 tokens of two bits. In both the first
token is the most significant one. -/
namespace ArrayEngine

/-- Lower-case hexadecimal digits of `n` after `0x`, at least `width` of them. -/
def hexadecimal (width n : Nat) : String :=
  let digits := Nat.toDigits 16 n
  "0x" ++ String.ofList (List.replicate (width - digits.length) '0' ++ digits)

/-- The least number of bits that tell `n` values apart. -/
def bitsFor (n : Nat) : Nat :=
  if n ≤ 1 then 0 else (n - 1).log2 + 1

def keyBits : Nat := 64
def arityBits : Nat := 8
def bitsPerNativeType : Nat := bitsFor nativeCount
def bitsPerType : Nat := bitsFor (maxToken - 1)

def maxNativeTypes : Nat := keyBits / bitsPerNativeType

def maxTypes : Nat := (keyBits - arityBits) / bitsPerType

/-- Digits of `bits` bits each as one number, the first one most significant. -/
def packDigits (bits : Nat) (digits : List Nat) : Nat :=
  digits.foldl (fun key digit => key <<< bits + digit) 0

/-- A general key. Any word is one, whether or not it comes from tokens. -/
structure DispatchKey where
  word : UInt64
deriving DecidableEq, Repr

namespace DispatchKey

/-- The tokens in order, below their number in the top byte. -/
def pack (tokens : List TypeToken) : DispatchKey :=
  ⟨UInt64.ofNat (tokens.length <<< (keyBits - arityBits) +
    packDigits bitsPerType (tokens.map UInt8.toNat))⟩

def arity (key : DispatchKey) : Nat :=
  key.word.toNat >>> (keyBits - arityBits)

/-- The digit `shift` bits above the lowest. A shift of the whole word is an overflow. -/
def digit (key : DispatchKey) (shift : Nat) : Except Trap TypeToken :=
  if keyBits ≤ shift then .error .shiftOverflow
  else .ok (UInt8.ofNat (key.word.toNat >>> shift % 1 <<< bitsPerType))

/-- As many tokens as the arity says, the most significant first. -/
def tokens (key : DispatchKey) : Except Trap (List TypeToken) :=
  (List.range key.arity).mapM fun index => key.digit ((key.arity - 1 - index) * bitsPerType)

/-- Keys are ordered by their words. -/
instance : Ord DispatchKey where
  compare a b := compare a.word b.word

def text (key : DispatchKey) : String := hexadecimal 16 key.word.toNat

end DispatchKey

/-- A key of `n` native types. It is the position of the tuple in a dense table. -/
structure NativeKey (n : Nat) where
  word : UInt64
deriving DecidableEq, Repr

namespace NativeKey

/-- The key of `n` tokens, which must all be native. -/
def ofTokens (tokens : List TypeToken) : Except Trap (NativeKey tokens.length) :=
  if tokens.all TypeToken.isNative then
    .ok ⟨UInt64.ofNat (packDigits bitsPerNativeType (tokens.map UInt8.toNat))⟩
  else .error .nonNativeToken

variable {n : Nat}

def index (key : NativeKey n) : Nat := key.word.toNat

/-- The lowest `n` digits of the word, the most significant first. -/
def tokens (key : NativeKey n) : List TypeToken :=
  (List.range n).map fun index =>
    UInt8.ofNat
      (key.word.toNat >>> ((n - 1 - index) * bitsPerNativeType) % 1 <<< bitsPerNativeType)

def toGeneral (key : NativeKey n) : DispatchKey := DispatchKey.pack key.tokens

/-- Keys of one arity are ordered by their words. -/
instance : Ord (NativeKey n) where
  compare a b := compare a.word b.word

def text (key : NativeKey n) : String := hexadecimal 1 key.word.toNat

end NativeKey

end ArrayEngine
