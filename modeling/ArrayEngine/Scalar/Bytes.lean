/-! Little-endian bytes of numbers. -/
namespace ArrayEngine.Bytes

/-- The number whose little-endian digits to base 256 are `bytes`. -/
def toNat : List UInt8 → Nat
  | [] => 0
  | b :: bytes => b.toNat + 256 * toNat bytes

/-- The lowest `count` little-endian digits of `n` to base 256. -/
def ofNat : Nat → Nat → List UInt8
  | 0, _ => []
  | count + 1, n => UInt8.ofNat (n % 256) :: ofNat count (n / 256)

/-- The number of values that `count` bytes can have. -/
def capacity (count : Nat) : Nat := Nat.pow 256 count

@[simp] theorem length_ofNat (count n : Nat) : (ofNat count n).length = count := by
  induction count generalizing n with
  | zero => rfl
  | succ count ih => simp [ofNat, ih]

end ArrayEngine.Bytes
