import ArrayEngine.Proofs.Layout.Exact
import Mathlib.Algebra.BigOperators.Group.List.Lemmas

/-! Steps from an index to the next one, and the loop that they make. -/
namespace ArrayEngine.Layout

/-- How many indices come before an index in column-major order. -/
def number : List Nat → List Nat → Nat
  | i :: index, n :: shape => i + n * number index shape
  | _, _ => 0

theorem inShape_cons {i n : Nat} {index shape : List Nat} :
    inShape (i :: index) (n :: shape) = true ↔ i < n ∧ inShape index shape = true := by
  simp [inShape]

theorem inShape_zeros {shape : List Nat} (pos : ∀ n ∈ shape, 0 < n) :
    inShape (List.replicate shape.length 0) shape = true := by
  induction shape with
  | nil => rfl
  | cons n shape ih => exact inShape_cons.mpr ⟨pos n (by simp), ih fun m hm => pos m (by simp [hm])⟩

theorem number_zeros (shape : List Nat) : number (List.replicate shape.length 0) shape = 0 := by
  induction shape with
  | nil => rfl
  | cons n shape ih => simp [List.replicate_succ, number, ih]

/-- An index inside a shape has a next one, or it is the last. -/
theorem next_eq_ok {index shape : List Nat} (small : ∀ n ∈ shape, n < wordLimit)
    (inside : inShape index shape = true) :
    ∃ more following, next index shape = .ok (more, following) ∧ inShape following shape = true ∧
      (more = true → number following shape = number index shape + 1) ∧
      (more = false → number index shape + 1 = shape.prod) := by
  induction shape generalizing index with
  | nil =>
    cases index with
    | nil => exact ⟨false, [], rfl, rfl, nofun, fun _ => rfl⟩
    | cons i index => cases inside
  | cons n shape ih =>
    rcases index with _ | ⟨i, index⟩
    · cases inside
    obtain ⟨hi, inside⟩ := inShape_cons.mp inside
    have hword : n < wordLimit := small n (by simp)
    have hadd : Word.add i 1 = .ok (i + 1) := Word.add_eq_ok.mpr ⟨rfl, by omega⟩
    rw [next, hadd]
    change ∃ more following, (if i + 1 < n then _ else _) = _ ∧ _
    by_cases hlast : i + 1 < n
    · rw [if_pos hlast]
      refine ⟨true, (i + 1) :: index, rfl, inShape_cons.mpr ⟨hlast, inside⟩, fun _ => ?_, nofun⟩
      simp only [number]
      omega
    -- The axis starts over, and the slower axes go on.
    · obtain ⟨more, following, hnext, hinside, hmore, hend⟩ :=
        ih (fun m hm => small m (by simp [hm])) inside
      have hcarry : i + n * number index shape + 1 = n * (number index shape + 1) := by
        rw [Nat.mul_succ]
        omega
      rw [if_neg hlast, hnext]
      refine ⟨more, 0 :: following, rfl, inShape_cons.mpr ⟨by omega, hinside⟩, fun h => ?_, fun h => ?_⟩
      · rw [number, number, hmore h, Nat.zero_add, hcarry]
      · rw [number, hcarry, hend h, List.prod_cons]

/-- After the last index come all zeros. -/
theorem eq_zeros_of_next {index shape following : List Nat} (inside : inShape index shape = true)
    (h : next index shape = .ok (false, following)) : following = List.replicate shape.length 0 := by
  induction shape generalizing index following with
  | nil =>
    cases index with
    | nil =>
      cases h
      rfl
    | cons i index => cases inside
  | cons n shape ih =>
    rcases index with _ | ⟨i, index⟩
    · cases inside
    rw [next] at h
    obtain ⟨j, -, h⟩ := except_bind_eq_ok.mp h
    split at h
    · cases h
    · obtain ⟨⟨more, rest⟩, hnext, h⟩ := except_bind_eq_ok.mp h
      cases h
      rw [ih (inShape_cons.mp inside).2 hnext, List.length_cons, List.replicate_succ]

/-- A loop from `index` on visits these indices: it goes on as long as there is a next one, however many there
are. -/
inductive Visits (shape : List Nat) : List Nat → List (List Nat) → Prop
  | last {index following : List Nat} : next index shape = .ok (false, following) → Visits shape index [index]
  | more {index following : List Nat} {rest : List (List Nat)} : next index shape = .ok (true, following) →
      Visits shape following rest → Visits shape index (index :: rest)

namespace Visits

variable {index shape : List Nat} {visited : List (List Nat)}

theorem unique {other : List (List Nat)} (h : Visits shape index visited) (again : Visits shape index other) :
    other = visited := by
  induction h generalizing other with
  | last hnext =>
    cases again with
    | last => rfl
    | more hmore => cases hnext.symm.trans hmore
  | more hnext _ ih =>
    cases again with
    | last hlast => cases hnext.symm.trans hlast
    | more hmore rest =>
      cases hnext.symm.trans hmore
      rw [ih rest]

/-- A walk with enough steps is the whole loop. -/
theorem walkFrom_eq {count : Nat} (h : Visits shape index visited) (enough : visited.length ≤ count) :
    walkFrom shape count index = .ok visited := by
  induction h generalizing count with
  | last hnext =>
    obtain ⟨count, rfl⟩ := Nat.exists_eq_succ_of_ne_zero (Nat.ne_of_gt enough)
    rw [walkFrom, hnext]
    rfl
  | @more index following rest hnext _ ih =>
    rw [List.length_cons] at enough
    obtain ⟨count, rfl⟩ := Nat.exists_eq_add_of_le' (Nat.le_trans (Nat.le_add_left 1 _) enough)
    rw [walkFrom, hnext]
    change (walkFrom shape count following >>= fun rest => Except.ok (index :: rest)) = _
    rw [ih (Nat.le_of_succ_le_succ enough)]
    rfl

end Visits

end ArrayEngine.Layout
