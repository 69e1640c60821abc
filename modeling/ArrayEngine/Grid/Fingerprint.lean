import ArrayEngine.Grid.DistTensor

/-! A hash of words and byte strings into one word, by multiplication. It is meant to tell arguments
apart, not to withstand anyone who looks for two of the same hash. Programs run their copies with it; what is
known of copies does not depend on it. -/
namespace ArrayEngine

/-- The hash of what was taken in so far. -/
structure Fingerprint where
  state : UInt64
deriving DecidableEq, Repr

namespace Fingerprint

def empty : Fingerprint := ⟨0⟩

/-- The low half of a product of two words, with the high half added without carry. -/
def fold (a b : UInt64) : UInt64 :=
  let product := a.toNat * b.toNat
  UInt64.ofNat (product % UInt64.size) ^^^ UInt64.ofNat (product / UInt64.size)

/-- The `count` bytes from `start` on as a little-endian word. -/
def wordAt (bytes : List UInt8) (start count : Nat) : UInt64 :=
  UInt64.ofNat (Bytes.toNat ((bytes.drop start).take count))

def firstSeed : UInt64 := 0x243f6a8885a308d3
def secondSeed : UInt64 := 0x13198a2e03707344
def filler : UInt64 := 0xa4093822299f31d0
def factor : UInt64 := 0xf1357aea2e62a9c5

/-- Takes in a byte string of up to 16 bytes from both its ends. -/
def short (bytes : List UInt8) (a b : UInt64) : UInt64 × UInt64 :=
  let length := bytes.length
  if 8 ≤ length then (a ^^^ wordAt bytes 0 8, b ^^^ wordAt bytes (length - 8) 8)
  else if 4 ≤ length then (a ^^^ wordAt bytes 0 4, b ^^^ wordAt bytes (length - 4) 4)
  else if 0 < length then
    (a ^^^ wordAt bytes 0 1,
      b ^^^ (wordAt bytes (length - 1) 1 * 256 ||| wordAt bytes (length / 2) 1))
  else (a, b)

/-- Takes in 16 bytes at a time, as long as at least one byte follows them, and then the last 16. -/
def long (bytes : List UInt8) : Nat → Nat → UInt64 → UInt64 → UInt64 × UInt64
  | count + 1, start, a, b =>
    if start + 16 < bytes.length then
      let mixed := fold (wordAt bytes start 8 ^^^ a) (wordAt bytes (start + 8) 8 ^^^ filler)
      long bytes count (start + 16) b mixed
    else (a ^^^ wordAt bytes (bytes.length - 16) 8, b ^^^ wordAt bytes (bytes.length - 8) 8)
  | 0, _, a, b => (a, b)

def ofBytes (bytes : List UInt8) : UInt64 :=
  let (a, b) :=
    if bytes.length ≤ 16 then short bytes firstSeed secondSeed
    else long bytes bytes.length 0 firstSeed secondSeed
  fold a b ^^^ UInt64.ofNat bytes.length

def word (hash : Fingerprint) (value : UInt64) : Fingerprint :=
  ⟨(hash.state + value) * factor⟩

/-- Takes in a number below `2 ^ 64`. -/
def nat (hash : Fingerprint) (value : Nat) : Fingerprint := hash.word (UInt64.ofNat value)

/-- Takes in the length of a list of numbers, and their bytes as one string. -/
def nats (hash : Fingerprint) (values : List Nat) : Fingerprint :=
  (hash.nat values.length).word (ofBytes (values.flatMap (Bytes.ofNat 8)))

/-- Takes in the length of a list, and then the number of each entry. -/
def each (hash : Fingerprint) (values : List Nat) : Fingerprint :=
  values.foldl nat (hash.nat values.length)

/-- The hash, its best bits lowest. -/
def finish (hash : Fingerprint) : UInt64 :=
  hash.state <<< 26 ||| hash.state >>> 38

end Fingerprint

/-- The position of a value in its enumeration. -/
def ordinal {α : Type} [Named α] [BEq α] (a : α) : Nat := (Named.all : List α).idxOf a

def CopyTerms.fingerprint (terms : CopyTerms) : UInt64 :=
  let source := ((Fingerprint.empty.nats terms.shape).each (terms.dimTypes.map ordinal)).each
    (terms.distribution.map ordinal)
  (((source.nats terms.gridShape).nat terms.token.toNat).nat
    terms.targetToken.toNat).nats terms.targetGridShape |>.finish

end ArrayEngine
