import ArrayEngine.Grid.Basic
import ArrayEngine.Proofs.Layout.Exact
import Mathlib.Algebra.BigOperators.Group.Finset.Basic
import Mathlib.Algebra.BigOperators.Ring.Finset

/-! The coordinates of the ranks of a grid: as the rank runs, they run through all places once. -/
namespace ArrayEngine.Grid

/-- The coordinates of a rank in a grid without axes of no places. -/
def place : List Nat → Nat → List Nat
  | [], _ => []
  | n :: shape, rank => rank % n :: place shape (rank / n)

theorem digits_eq_ok {shape : List Nat} (pos : ∀ n ∈ shape, 0 < n) (rank : Nat) :
    digits shape rank = .ok (place shape rank) := by
  induction shape generalizing rank with
  | nil => rfl
  | cons n shape ih =>
    have hn : n ≠ 0 := Nat.pos_iff_ne_zero.mp (pos n (by simp))
    rw [digits, if_neg hn, ih fun m hm => pos m (by simp [hm])]
    rfl

theorem length_place (shape : List Nat) (rank : Nat) : (place shape rank).length = shape.length := by
  induction shape generalizing rank with
  | nil => rfl
  | cons n shape ih => simp [place, ih]

theorem place_lt {shape : List Nat} (pos : ∀ n ∈ shape, 0 < n) (rank : Nat) :
    List.Forall₂ (· < ·) (place shape rank) shape := by
  induction shape generalizing rank with
  | nil => exact .nil
  | cons n shape ih =>
    exact .cons (Nat.mod_lt _ (pos n (by simp))) (ih (fun m hm => pos m (by simp [hm])) _)

theorem place_add (n : Nat) (shape : List Nat) {coord : Nat} (h : coord < n) (rank : Nat) :
    place (n :: shape) (coord + n * rank) = coord :: place shape rank := by
  rw [place, Nat.add_mul_mod_self_left, Nat.mod_eq_of_lt h, Nat.add_mul_div_left _ _ (by omega),
    Nat.div_eq_of_lt h, Nat.zero_add]

theorem sum_range_mul (f : Nat → Nat) (n m : Nat) :
    ∑ k ∈ Finset.range (n * m), f k =
      ∑ q ∈ Finset.range m, ∑ c ∈ Finset.range n, f (c + n * q) := by
  induction m with
  | zero => simp
  | succ m ih =>
    rw [Nat.mul_succ, Finset.sum_range_add, ih, Finset.sum_range_succ]
    simp only [Nat.add_comm]

/-- The ranks of a grid are the places along its first axis for each rank of the other axes. -/
theorem sum_place_cons (n : Nat) (shape : List Nat) (f : List Nat → Nat) :
    ∑ rank ∈ Finset.range (n :: shape).prod, f (place (n :: shape) rank) =
      ∑ rest ∈ Finset.range shape.prod, ∑ coord ∈ Finset.range n, f (coord :: place shape rest) := by
  rw [List.prod_cons, sum_range_mul]
  apply Finset.sum_congr rfl
  intro rest _
  apply Finset.sum_congr rfl
  intro coord hcoord
  rw [place_add n shape (Finset.mem_range.mp hcoord)]

/-- Ranks at the same place are the same. -/
theorem eq_of_place_eq {shape : List Nat} {rank other : Nat} (h : rank < shape.prod)
    (hother : other < shape.prod) (same : place shape rank = place shape other) : rank = other := by
  induction shape generalizing rank other with
  | nil => exact (Nat.lt_one_iff.mp h).trans (Nat.lt_one_iff.mp hother).symm
  | cons n shape ih =>
    rw [List.prod_cons] at h hother
    rw [place, place, List.cons.injEq] at same
    obtain ⟨hfirst, hrest⟩ := same
    have hdiv := ih (Nat.div_lt_of_lt_mul h) (Nat.div_lt_of_lt_mul hother) hrest
    rw [← Nat.mod_add_div rank n, hfirst, hdiv, Nat.mod_add_div]

theorem product_of_create {comm : Comm} {shape : List Nat} {grid : Grid}
    (h : create comm shape = .ok grid) : grid = ⟨comm, shape⟩ ∧ Layout.product shape = .ok comm.size := by
  rw [create] at h
  cases hproduct : Layout.product shape with
  | error trap =>
    rw [hproduct] at h
    cases h
  | ok places =>
    rw [hproduct] at h
    change (if places = comm.size then Except.ok _ else _) = _ at h
    split at h
    · next hsize =>
      cases h
      exact ⟨rfl, congrArg _ hsize⟩
    · cases h

theorem create_eq_ok {comm : Comm} {shape : List Nat} {grid : Grid}
    (h : create comm shape = .ok grid) : grid = ⟨comm, shape⟩ ∧ shape.prod = comm.size := by
  obtain ⟨hgrid, hproduct⟩ := product_of_create h
  exact ⟨hgrid, (Layout.eq_of_product hproduct).symm⟩

/-- The coordinates of a member of a grid with places for all. -/
theorem coords_eq_ok {grid : Grid} (pos : ∀ n ∈ grid.shape, 0 < n) :
    grid.coords = .ok (place grid.shape grid.rank) :=
  digits_eq_ok pos grid.rank

end ArrayEngine.Grid
