import ArrayEngine.Proofs.Comm.Rounds
import ArrayEngine.Proofs.Grid.Coordinates
import ArrayEngine.Proofs.Grid.Resize

/-! The shares of the ranks of a grid: which elements of a distributed array they hold, and how many of
them hold each. -/
namespace ArrayEngine

/-- The interval contains the index. -/
def Interval.contains (interval : Interval) (index : Nat) : Bool :=
  interval.start ≤ index && index < interval.stop

theorem Interval.contains_iff {interval : Interval} {index : Nat} :
    interval.contains index = true ↔ interval.start ≤ index ∧ index < interval.stop := by
  simp [contains]

/-- One axis of a distributed array: its length, and how it is split over how many places. -/
structure Axis where
  length : Nat
  distribution : Distribution
  procs : Nat

namespace Axis

/-- What is held of the axis at a coordinate. -/
def held (axis : Axis) (coord : Nat) : Interval :=
  let size := axis.length / axis.procs
  let longer := axis.length % axis.procs
  match axis.distribution with
  | .block => ⟨coord * size + min coord longer, (coord + 1) * size + min (coord + 1) longer⟩
  | .replicated => ⟨0, axis.length⟩
  | .single => if coord = 0 then ⟨0, axis.length⟩ else ⟨0, 0⟩

/-- The number of coordinates at which each index of the axis is held. -/
def copies (axis : Axis) : Nat := if axis.distribution = .replicated then axis.procs else 1

variable {axis : Axis} {coord : Nat}

/-- A place has a block of its own, which ends where the next one starts. -/
private theorem blockAt_eq_ok {length procs : Nat} (hword : length < wordLimit) (h : coord < procs) :
    Distribution.blockAt length procs coord =
      .ok ⟨coord * (length / procs) + min coord (length % procs),
        (coord + 1) * (length / procs) + min (coord + 1) (length % procs)⟩ := by
  have hprocs : procs ≠ 0 := by omega
  have hmod : length % procs < procs := Nat.mod_lt _ (by omega)
  have hsum : procs * (length / procs) + length % procs = length := Nat.div_add_mod _ _
  rw [Distribution.blockAt, if_neg hprocs]
  generalize length / procs = size at *
  generalize length % procs = longer at *
  have hblocks : (coord + 1) * size ≤ procs * size := Nat.mul_le_mul_right _ h
  rw [Nat.succ_mul] at hblocks
  have hmul : Word.mul coord size = .ok (coord * size) := Word.mul_eq_ok.mpr ⟨rfl, by omega⟩
  have hstart : Word.add (coord * size) (min coord longer) = .ok (coord * size + min coord longer) :=
    Word.add_eq_ok.mpr ⟨rfl, by omega⟩
  have hstep : Word.add (coord * size + min coord longer) size =
      .ok (coord * size + min coord longer + size) :=
    Word.add_eq_ok.mpr ⟨rfl, by omega⟩
  have hstop : Word.add (coord * size + min coord longer + size) (if coord < longer then 1 else 0) =
      .ok ((coord + 1) * size + min (coord + 1) longer) := by
    rw [Nat.succ_mul]
    refine Word.add_eq_ok.mpr ⟨?_, by omega⟩
    split <;> omega
  simp only [hmul, hstart, hstep, hstop, bind, Except.bind, pure, Except.pure]

theorem indices_eq_ok (hword : axis.length < wordLimit) (h : coord < axis.procs) :
    axis.distribution.indices axis.length axis.procs coord = .ok (axis.held coord) := by
  obtain ⟨length, distribution, procs⟩ := axis
  cases distribution with
  | block => exact blockAt_eq_ok hword h
  | replicated => rfl
  | single => rfl

/-- The blocks at the coordinates below some number reach from the start of the axis to where the next
block starts. -/
private theorem sum_blocks (size longer count index : Nat) :
    (∑ coord ∈ Finset.range count, ((coord + 1) * size + min (coord + 1) longer -
        (coord * size + min coord longer)) = count * size + min count longer) ∧
      ∑ coord ∈ Finset.range count,
        (if coord * size + min coord longer ≤ index ∧
          index < (coord + 1) * size + min (coord + 1) longer then 1 else 0) =
        if index < count * size + min count longer then 1 else 0 := by
  induction count with
  | zero => simp
  | succ count ih =>
    have hstep : (count + 1) * size = count * size + size := Nat.succ_mul _ _
    rw [Finset.sum_range_succ, Finset.sum_range_succ, ih.1, ih.2]
    refine ⟨by omega, ?_⟩
    split <;> split <;> split <;> omega

/-- All blocks of an axis together are the whole axis. -/
theorem blocks_end {length procs : Nat} (pos : 0 < procs) :
    procs * (length / procs) + min procs (length % procs) = length := by
  rw [Nat.min_eq_right (Nat.le_of_lt (Nat.mod_lt _ pos)), Nat.div_add_mod]

theorem sum_length_held (pos : 0 < axis.procs) :
    ∑ coord ∈ Finset.range axis.procs, (axis.held coord).length = axis.length * axis.copies := by
  obtain ⟨length, distribution, procs⟩ := axis
  cases distribution with
  | block =>
    have hsum := (sum_blocks (length / procs) (length % procs) procs 0).1
    rw [blocks_end pos] at hsum
    simpa [held, copies, Interval.length] using hsum
  | replicated => simp [held, copies, Interval.length, Nat.mul_comm]
  | single =>
    have hfirst (coord : Nat) :
        (held ⟨length, .single, procs⟩ coord).length = if coord = 0 then length else 0 := by
      by_cases h : coord = 0 <;> simp [held, h, Interval.length]
    simp only [hfirst, copies, Finset.sum_ite_eq', Finset.mem_range]
    simpa using fun h => absurd h (Nat.ne_of_gt pos)

theorem sum_contains_held (pos : 0 < axis.procs) {index : Nat} (inside : index < axis.length) :
    ∑ coord ∈ Finset.range axis.procs, ((axis.held coord).contains index).toNat = axis.copies := by
  obtain ⟨length, distribution, procs⟩ := axis
  cases distribution with
  | block =>
    have hsum := (sum_blocks (length / procs) (length % procs) procs index).2
    rw [blocks_end pos, if_pos inside] at hsum
    simp only [Bool.toNat, Bool.cond_eq_ite, Interval.contains_iff]
    exact hsum
  | replicated => simp [held, copies, Interval.contains, inside]
  | single =>
    have hfirst (coord : Nat) : (held ⟨length, .single, procs⟩ coord).contains index =
        decide (coord = 0) := by
      by_cases h : coord = 0 <;> simp [held, h, Interval.contains, inside]
    simp only [hfirst, copies, Bool.toNat, Bool.cond_eq_ite, decide_eq_true_eq, Finset.sum_ite_eq',
      Finset.mem_range]
    simp [pos]

theorem length_held_le (axis : Axis) (h : coord < axis.procs) :
    (axis.held coord).length ≤ axis.length := by
  obtain ⟨length, distribution, procs⟩ := axis
  cases distribution with
  | block =>
    have hblocks : (coord + 1) * (length / procs) ≤ procs * (length / procs) :=
      Nat.mul_le_mul_right _ h
    have hsum : procs * (length / procs) + length % procs = length := Nat.div_add_mod _ _
    simp only [held, Interval.length]
    omega
  | replicated => exact Nat.le_refl _
  | single =>
    by_cases h : coord = 0 <;> simp [held, h, Interval.length]

end Axis

/-- An index is in a box of intervals, one for each axis. -/
def inBox : List Nat → List Interval → Bool
  | [], [] => true
  | i :: index, range :: ranges => range.contains i && inBox index ranges
  | _, _ => false

/-- The axes of an array of a shape on a grid of a shape. -/
def axesOf : List Nat → List Distribution → List Nat → List Axis
  | n :: shape, d :: distribution, procs :: gridShape =>
    ⟨n, d, procs⟩ :: axesOf shape distribution gridShape
  | _, _, _ => []

/-- What a rank of a grid of a shape holds of every axis. -/
def heldBy (shape : List Nat) (distribution : List Distribution) (gridShape : List Nat) (rank : Nat) :
    List Interval :=
  List.zipWith Axis.held (axesOf shape distribution gridShape) (Grid.place gridShape rank)

/-- The number of ranks that hold each element: the extents of the grid along the replicated axes,
multiplied. -/
def copiesOn (distribution : List Distribution) (gridShape : List Nat) : Nat :=
  (List.zipWith (fun d procs => if d = Distribution.replicated then procs else 1) distribution
    gridShape).prod

variable {shape gridShape index : List Nat} {distribution : List Distribution}

theorem copiesOn_cons (n : Nat) (d : Distribution) (distribution : List Distribution) (procs : Nat)
    (gridShape : List Nat) : copiesOn (d :: distribution) (procs :: gridShape) =
      Axis.copies ⟨n, d, procs⟩ * copiesOn distribution gridShape := by
  rw [copiesOn, List.zipWith_cons_cons, List.prod_cons]
  rfl

/-- Without replicated axes there is one copy. -/
theorem copiesOn_eq_one (h : Distribution.replicated ∉ distribution) :
    copiesOn distribution gridShape = 1 := by
  induction distribution generalizing gridShape with
  | nil => rfl
  | cons d distribution ih =>
    rcases gridShape with _ | ⟨procs, gridShape⟩
    · rfl
    obtain ⟨hd, hrest⟩ := not_or.mp fun h' => h (List.mem_cons.mpr h')
    rw [copiesOn_cons 0, ih hrest, Axis.copies, if_neg fun h => hd h.symm]

theorem intervals_eq_ok {coords : List Nat} (words : ∀ n ∈ shape, n < wordLimit)
    (below : List.Forall₂ (· < ·) coords gridShape) :
    DistTensor.intervals shape distribution gridShape coords =
      .ok (List.zipWith Axis.held (axesOf shape distribution gridShape) coords) := by
  induction below generalizing shape distribution with
  | nil => cases shape <;> cases distribution <;> rfl
  | @cons coord procs coords gridShape hlt _ ih =>
    rcases shape with _ | ⟨n, shape⟩
    · rfl
    · rcases distribution with _ | ⟨d, distribution⟩
      · rfl
      · have hindices : d.indices n procs coord = .ok (Axis.held ⟨n, d, procs⟩ coord) :=
        @Axis.indices_eq_ok ⟨n, d, procs⟩ coord (words n (by simp)) hlt
        rw [DistTensor.intervals, hindices, ih fun m hm => words m (by simp [hm])]
        rfl

theorem shareShape_eq_ok {grid : Grid} (pos : ∀ procs ∈ grid.shape, 0 < procs)
    (words : ∀ n ∈ shape, n < wordLimit) :
    DistTensor.shareShape grid shape distribution =
      .ok ((heldBy shape distribution grid.shape grid.rank).map Interval.length) := by
  rw [DistTensor.shareShape, Grid.coords_eq_ok pos]
  simp only [bind, Except.bind, intervals_eq_ok words (Grid.place_lt pos _)]
  rfl

/-- Together the ranks hold every element as often as there are copies. -/
theorem sum_count_heldBy (hdistribution : distribution.length = gridShape.length)
    (hshape : shape.length = gridShape.length) (pos : ∀ procs ∈ gridShape, 0 < procs) :
    ∑ rank ∈ Finset.range gridShape.prod,
        ((heldBy shape distribution gridShape rank).map Interval.length).prod =
      shape.prod * copiesOn distribution gridShape := by
  induction gridShape generalizing shape distribution with
  | nil =>
    cases List.length_eq_zero_iff.mp hshape
    cases List.length_eq_zero_iff.mp hdistribution
    rfl
  | cons procs gridShape ih =>
    rcases shape with _ | ⟨n, shape⟩
    · cases hshape
    rcases distribution with _ | ⟨d, distribution⟩
    · cases hdistribution
    have rest := ih (Nat.succ.inj hdistribution) (Nat.succ.inj hshape) fun m hm => pos m (by simp [hm])
    have first := @Axis.sum_length_held ⟨n, d, procs⟩ (pos procs (by simp))
    simp only [heldBy, axesOf]
    rw [Grid.sum_place_cons procs gridShape fun coords =>
      ((List.zipWith Axis.held (⟨n, d, procs⟩ :: axesOf shape distribution gridShape) coords).map
        Interval.length).prod]
    simp only [List.zipWith_cons_cons, List.map_cons, List.prod_cons, ← Finset.sum_mul, first]
    rw [← Finset.mul_sum]
    simp only [heldBy] at rest
    rw [rest, copiesOn_cons n]
    exact Nat.mul_mul_mul_comm _ _ _ _

/-- Each index is in the boxes of as many ranks as there are copies. -/
theorem sum_inBox_heldBy (hdistribution : distribution.length = gridShape.length)
    (hshape : shape.length = gridShape.length) (pos : ∀ procs ∈ gridShape, 0 < procs)
    (inside : Layout.inShape index shape = true) :
    ∑ rank ∈ Finset.range gridShape.prod,
        (inBox index (heldBy shape distribution gridShape rank)).toNat =
      copiesOn distribution gridShape := by
  induction gridShape generalizing shape distribution index with
  | nil =>
    cases List.length_eq_zero_iff.mp hshape
    cases List.length_eq_zero_iff.mp hdistribution
    cases index with
    | nil => rfl
    | cons i index => cases inside
  | cons procs gridShape ih =>
    rcases shape with _ | ⟨n, shape⟩
    · cases hshape
    rcases distribution with _ | ⟨d, distribution⟩
    · cases hdistribution
    rcases index with _ | ⟨i, index⟩
    · cases inside
    obtain ⟨hi, inside⟩ := Bool.and_eq_true_iff.mp inside
    have rest := ih (Nat.succ.inj hdistribution) (Nat.succ.inj hshape)
      (fun m hm => pos m (by simp [hm])) inside
    have first := @Axis.sum_contains_held ⟨n, d, procs⟩ (pos procs (by simp)) i (of_decide_eq_true hi)
    have split (range : Interval) (ranges : List Interval) :
        (inBox (i :: index) (range :: ranges)).toNat =
          (range.contains i).toNat * (inBox index ranges).toNat := by
      cases h : range.contains i <;> simp [inBox, h]
    simp only [heldBy, axesOf]
    rw [Grid.sum_place_cons procs gridShape fun coords =>
      (inBox (i :: index) (List.zipWith Axis.held
        (⟨n, d, procs⟩ :: axesOf shape distribution gridShape) coords)).toNat]
    simp only [List.zipWith_cons_cons, split, ← Finset.sum_mul, first]
    rw [← Finset.mul_sum]
    simp only [heldBy] at rest
    rw [rest, copiesOn_cons n]

/-- A rank holds no more of an axis than there is. -/
theorem heldBy_le (hdistribution : distribution.length = gridShape.length)
    (hshape : shape.length = gridShape.length) (pos : ∀ procs ∈ gridShape, 0 < procs) (rank : Nat) :
    List.Forall₂ (· ≤ ·) ((heldBy shape distribution gridShape rank).map Interval.length) shape := by
  induction gridShape generalizing shape distribution rank with
  | nil =>
    cases List.length_eq_zero_iff.mp hshape
    exact .nil
  | cons procs gridShape ih =>
    rcases shape with _ | ⟨n, shape⟩
    · cases hshape
    rcases distribution with _ | ⟨d, distribution⟩
    · cases hdistribution
    refine .cons (Axis.length_held_le ⟨n, d, procs⟩ (Nat.mod_lt _ (pos procs (by simp)))) ?_
    exact ih (Nat.succ.inj hdistribution) (Nat.succ.inj hshape) (fun m hm => pos m (by simp [hm])) _

namespace DistTensor

/-- What this process holds of every axis. -/
def ranges (tensor : DistTensor) : Except Trap (List Interval) :=
  (List.range tensor.shape.length).mapM tensor.globalIndices

/-- This process holds the element at a global index. -/
def holds (tensor : DistTensor) (index : List Nat) : Except Trap Bool :=
  return inBox index (← tensor.ranges)

private theorem entry_succ {α : Type} {a : α} {list : List α} {k : Nat} (h : k < list.length) :
    entry (a :: list) (k + 1) = entry list k := by
  rw [entry, entry, List.getElem?_cons_succ, List.getElem?_eq_getElem h]

/-- What is held of the axis of a number at some coordinates. -/
def rangeOf (shape : List Nat) (distribution : List Distribution) (gridShape coords : List Nat)
    (axis : Nat) : Except Trap Interval := do
  (← entry distribution axis).indices (← entry shape axis) (← entry gridShape axis)
    (← entry coords axis)

/-- The intervals of all axes, one after the other, are those of the axes by number. -/
private theorem mapM_rangeOf {coords : List Nat} (hdistribution : distribution.length = shape.length)
    (hgrid : gridShape.length = shape.length) (hcoords : coords.length = shape.length) :
    (List.range shape.length).mapM (rangeOf shape distribution gridShape coords) =
      intervals shape distribution gridShape coords := by
  induction shape generalizing distribution gridShape coords with
  | nil => rfl
  | cons n shape ih =>
    rcases distribution with _ | ⟨d, distribution⟩
    · cases hdistribution
    rcases gridShape with _ | ⟨procs, gridShape⟩
    · cases hgrid
    rcases coords with _ | ⟨coord, coords⟩
    · cases hcoords
    have rest : (List.range shape.length).mapM
        (rangeOf (n :: shape) (d :: distribution) (procs :: gridShape) (coord :: coords) ∘ Nat.succ) =
          intervals shape distribution gridShape coords := by
      rw [← ih (Nat.succ.inj hdistribution) (Nat.succ.inj hgrid) (Nat.succ.inj hcoords)]
      apply mapM_congr
      intro axis haxis
      have hlt := List.mem_range.mp haxis
      simp only [List.length_cons, Nat.succ.injEq] at hdistribution hgrid hcoords
      simp only [Function.comp, rangeOf, entry_succ (hdistribution ▸ hlt), entry_succ hlt,
        entry_succ (hgrid ▸ hlt), entry_succ (hcoords ▸ hlt)]
    rw [intervals, List.length_cons, List.range_succ_eq_map, List.mapM_cons, List.mapM_map, rest]
    rfl

variable {tensor : DistTensor}

/-- No more is held of an axis than there is. -/
private theorem length_le_of_indices {d : Distribution} {length procs coord : Nat} {range : Interval}
    (h : d.indices length procs coord = .ok range) : range.length ≤ length := by
  cases d with
  | block =>
    rw [Distribution.indices, Distribution.blockAt] at h
    split at h
    · cases h
    · next hprocs =>
      obtain ⟨first, hfirst, h⟩ := except_bind_eq_ok.mp h
      obtain ⟨start, hstart, h⟩ := except_bind_eq_ok.mp h
      obtain ⟨next, hnext, h⟩ := except_bind_eq_ok.mp h
      obtain ⟨stop, hstop, h⟩ := except_bind_eq_ok.mp h
      obtain ⟨rfl, _⟩ := Word.add_eq_ok.mp hnext
      obtain ⟨rfl, _⟩ := Word.add_eq_ok.mp hstop
      cases h
      have hsum : procs * (length / procs) + length % procs = length := Nat.div_add_mod _ _
      have hle : length / procs ≤ procs * (length / procs) :=
        Nat.le_mul_of_pos_left _ (Nat.pos_of_ne_zero hprocs)
      simp only [Interval.length]
      split <;> omega
  | replicated =>
    cases h
    exact Nat.le_refl _
  | single =>
    cases h
    split <;> simp [Interval.length]

theorem intervals_le {gridShape coords : List Nat} {ranges : List Interval}
    (h : intervals shape distribution gridShape coords = .ok ranges)
    (hdistribution : distribution.length = shape.length) (hgrid : gridShape.length = shape.length)
    (hcoords : coords.length = shape.length) :
    List.Forall₂ (· ≤ ·) (ranges.map Interval.length) shape := by
  induction shape generalizing distribution gridShape coords ranges with
  | nil =>
    cases h
    exact .nil
  | cons n shape ih =>
    rcases distribution with _ | ⟨d, distribution⟩
    · cases hdistribution
    rcases gridShape with _ | ⟨procs, gridShape⟩
    · cases hgrid
    rcases coords with _ | ⟨coord, coords⟩
    · cases hcoords
    rw [intervals] at h
    obtain ⟨range, hrange, h⟩ := except_bind_eq_ok.mp h
    obtain ⟨rest, hrest, h⟩ := except_bind_eq_ok.mp h
    cases h
    exact .cons (length_le_of_indices hrange)
      (ih hrest (Nat.succ.inj hdistribution) (Nat.succ.inj hgrid) (Nat.succ.inj hcoords))

/-- What a process holds of every axis, in terms of its coordinates. -/
theorem ranges_eq_intervals {coords : List Nat} (hcoords : tensor.grid.coords = .ok coords)
    (hlength : coords.length = tensor.shape.length)
    (hdistribution : tensor.distribution.length = tensor.shape.length)
    (hgrid : tensor.grid.shape.length = tensor.shape.length) :
    tensor.ranges = intervals tensor.shape tensor.distribution tensor.grid.shape coords := by
  rw [← mapM_rangeOf hdistribution hgrid hlength, ranges]
  congr 1
  funext axis
  rw [globalIndices, hcoords]
  rfl

/-- The boxes of the ranks are what the processes hold along every axis. -/
theorem ranges_eq_ok (hs : tensor.shape = shape) (hd : tensor.distribution = distribution)
    (hg : tensor.grid.shape = gridShape) (pos : ∀ procs ∈ gridShape, 0 < procs)
    (words : ∀ n ∈ shape, n < wordLimit) (hshape : shape.length = gridShape.length)
    (hdistribution : distribution.length = gridShape.length) :
    tensor.ranges = .ok (heldBy shape distribution gridShape tensor.grid.rank) := by
  subst hs hd hg
  rw [ranges_eq_intervals (Grid.coords_eq_ok pos) (by rw [Grid.length_place, hshape])
    (by rw [hdistribution, hshape]) hshape.symm]
  exact intervals_eq_ok words (Grid.place_lt pos _)

/-- Counted over the ranks of a world, each index inside the shape is held as often as there are
copies. -/
private theorem card_holders {n : Nat} (hprod : gridShape.prod = n)
    (pos : ∀ procs ∈ gridShape, 0 < procs) (hshape : shape.length = gridShape.length)
    (hdistribution : distribution.length = gridShape.length)
    (inside : Layout.inShape index shape = true) :
    (Finset.univ.filter fun rank : Fin n =>
      inBox index (heldBy shape distribution gridShape rank) = true).card =
        copiesOn distribution gridShape := by
  have hsum := sum_inBox_heldBy hdistribution hshape pos inside
  rw [hprod, ← Fin.sum_univ_eq_sum_range fun rank =>
    (inBox index (heldBy shape distribution gridShape rank)).toNat] at hsum
  rw [← hsum, Finset.card_filter]
  apply Finset.sum_congr rfl
  intro rank _
  cases inBox index (heldBy shape distribution gridShape rank) <;> rfl

/-- Summed over the ranks of a world, the shares have as many elements as the shape, times the copies. -/
private theorem sum_share_counts {n : Nat} (hprod : gridShape.prod = n)
    (pos : ∀ procs ∈ gridShape, 0 < procs) (hshape : shape.length = gridShape.length)
    (hdistribution : distribution.length = gridShape.length) :
    ∑ rank : Fin n, Layout.count ((heldBy shape distribution gridShape rank).map Interval.length) =
      Layout.count shape * copiesOn distribution gridShape := by
  have hsum := sum_count_heldBy hdistribution hshape pos
  rw [hprod, ← Fin.sum_univ_eq_sum_range fun rank =>
    ((heldBy shape distribution gridShape rank).map Interval.length).prod] at hsum
  cases shape with
  | nil => simp [heldBy, axesOf, Layout.count]
  | cons extent shape =>
    rw [Layout.count_of_ne_nil (by simp), ← hsum]
    apply Finset.sum_congr rfl
    intro rank _
    apply Layout.count_of_ne_nil
    intro hnil
    have hlength := (heldBy_le hdistribution hshape pos rank).length_eq
    rw [hnil] at hlength
    cases hlength

/-- A grid of all ranks of a world has a place for each of them. -/
theorem grid_of_create {n : Nat} {checks : Bool} {rank : Fin n} {grid : Grid}
    (h : Grid.create (Comm.member checks rank) gridShape = .ok grid) :
    grid = ⟨Comm.member checks rank, gridShape⟩ ∧ gridShape.prod = n ∧
      ∀ procs ∈ gridShape, 0 < procs := by
  obtain ⟨hgrid, hsize⟩ := Grid.create_eq_ok h
  have hprod : gridShape.prod = n := by rw [hsize, Comm.size, Comm.member, List.length_range]
  exact ⟨hgrid, hprod, Layout.pos_of_prod_pos (hprod ▸ rank.pos)⟩

/-- On a grid of all ranks of a world, a distributed tensor of any shape and any distribution: each index
inside the shape is held by as many ranks as the replicated axes of the grid have places, and by exactly
one if no axis is replicated. The share of every rank has the lengths of what the rank holds of each axis
as its shape, whenever the layout was changed with success. The shares have as many elements together as
the global shape, times the replicated places. -/
theorem holders_and_counts {n : Nat} (some_rank : 0 < n) {checks : Bool} (tensors : Fin n → DistTensor)
    (grids : ∀ rank, Grid.create (Comm.member checks rank) gridShape = .ok (tensors rank).grid)
    (layouts : ∀ rank, (tensors rank).shape = shape ∧ (tensors rank).distribution = distribution)
    (hshape : shape.length = gridShape.length) (hdistribution : distribution.length = gridShape.length)
    (words : ∀ extent ∈ shape, extent < wordLimit) :
    (∀ index, Layout.inShape index shape = true →
      (∀ rank, ∃ held, (tensors rank).holds index = .ok held) ∧
      (Finset.univ.filter fun rank => (tensors rank).holds index = .ok true).card =
        copiesOn distribution gridShape ∧
      (Distribution.replicated ∉ distribution → ∃! rank, (tensors rank).holds index = .ok true)) ∧
    (∀ rank, ∃ ranges, (tensors rank).ranges = .ok ranges ∧
      shareShape (tensors rank).grid shape distribution = .ok (ranges.map Interval.length) ∧
      ∀ before after dimTypes strides?, resizeWith shape dimTypes distribution strides? before =
        .ok () after → after.1 = tensors rank → (tensors rank).share.shape = ranges.map Interval.length) ∧
    (∀ elements, Layout.numel shape = .ok elements →
      ∃ counts : Fin n → Nat,
        (∀ rank, ∃ share, shareShape (tensors rank).grid shape distribution = .ok share ∧
          Layout.numel share = .ok (counts rank)) ∧
        ∑ rank, counts rank = elements * copiesOn distribution gridShape) := by
  obtain ⟨_, hprod, pos⟩ := grid_of_create (grids ⟨0, some_rank⟩)
  have onGrid (rank : Fin n) : (tensors rank).grid = ⟨Comm.member checks rank, gridShape⟩ :=
    (grid_of_create (grids rank)).1
  have hranges (rank : Fin n) :
      (tensors rank).ranges = .ok (heldBy shape distribution gridShape rank) := by
    obtain ⟨hs, hd⟩ := layouts rank
    have h := ranges_eq_ok hs hd (congrArg Grid.shape (onGrid rank)) pos words hshape hdistribution
    rwa [onGrid rank] at h
  have hshare (rank : Fin n) : shareShape (tensors rank).grid shape distribution =
      .ok ((heldBy shape distribution gridShape rank).map Interval.length) := by
    rw [onGrid rank]
    exact shareShape_eq_ok pos words
  refine ⟨fun index inside => ?_, fun rank => ⟨_, hranges rank, hshare rank, ?_⟩,
    fun elements helements => ?_⟩
  · have held (rank : Fin n) : (tensors rank).holds index =
        .ok (inBox index (heldBy shape distribution gridShape rank)) := by
      rw [holds, hranges rank]
      rfl
    have hcard := card_holders hprod pos hshape hdistribution inside
    simp only [held, Except.ok.injEq]
    refine ⟨fun rank => ⟨_, rfl⟩, hcard, fun hnone => ?_⟩
    rw [copiesOn_eq_one hnone] at hcard
    obtain ⟨rank, honly⟩ := Finset.card_eq_one.mp hcard
    have hmem (other : Fin n) :
        inBox index (heldBy shape distribution gridShape other) = true ↔ other = rank := by
      simpa using Finset.ext_iff.mp honly other
    exact ⟨rank, (hmem rank).mpr rfl, fun other h => (hmem other).mp h⟩
  · intro before after dimTypes strides? h hafter
    obtain ⟨hgrid, _, _, _, _, _, hlocal, _⟩ := layout_of_resizeWith h
    rw [← hgrid, hafter, hshare rank] at hlocal
    exact (Except.ok.inj hlocal).symm
  · rw [Layout.eq_of_numel helements, ← sum_share_counts hprod pos hshape hdistribution]
    refine ⟨_, fun rank => ⟨_, hshare rank, ?_⟩, rfl⟩
    exact Layout.numel_of_le helements (heldBy_le hdistribution hshape pos rank)

/-- Three by two numbers on two by two ranks, the first axis in blocks and the second one everywhere. -/
def halves (rank : Fin 4) : DistTensor where
  shape := [3, 2]
  dimTypes := [.any, .any]
  grid := ⟨Comm.member false rank, [2, 2]⟩
  distribution := [.block, .replicated]
  share :=
    let rows := 2 - rank.val % 2
    ⟨[rows, 2], [.any, .any], [1, rows], .f32, .cpu, .cpu, some 0, .exclusive, false⟩

private theorem resizeWith_halves (rank : Fin 4) : ∃ later,
    resizeWith [3, 2] [.any, .any] [.block, .replicated] none
      (⟨[], [], (halves rank).grid, [], Tensor.blank .f32 .cpu false⟩, .initial) = .ok () (halves rank, later) :=
  match rank with
  | 0 | 1 | 2 | 3 => ⟨_, rfl⟩

/-- The element at the end of the longer block is held by the two ranks of the first row, each share has the
lengths of what its rank holds, and the six elements are held twice. -/
theorem holders_and_counts_halves :
    (∀ rank, ∃ later, create .f32 (halves rank).grid [3, 2] [.any, .any] [.block, .replicated] .cpu false .initial =
      .ok (halves rank) later) ∧
      Layout.inShape [1, 1] [3, 2] = true ∧
      (Finset.univ.filter fun rank => (halves rank).holds [1, 1] = .ok true).card = 2 ∧
      (∀ rank, ∃ ranges, (halves rank).ranges = .ok ranges ∧
        (halves rank).share.shape = ranges.map Interval.length) ∧
      Layout.numel [3, 2] = .ok 6 ∧ ∃ counts : Fin 4 → Nat,
        (∀ rank, ∃ share, shareShape (halves rank).grid [3, 2] [.block, .replicated] = .ok share ∧
          Layout.numel share = .ok (counts rank)) ∧ ∑ rank, counts rank = 12 := by
  have grids (rank : Fin 4) : Grid.create (Comm.member false rank) [2, 2] = .ok (halves rank).grid := rfl
  have layouts (rank : Fin 4) :
      (halves rank).shape = [3, 2] ∧ (halves rank).distribution = [.block, .replicated] := ⟨rfl, rfl⟩
  obtain ⟨holders, shares, counts⟩ := holders_and_counts (by decide) halves grids layouts rfl rfl (by decide)
  refine ⟨fun rank => ?_, rfl, (holders [1, 1] rfl).2.1, fun rank => ?_, rfl, counts 6 rfl⟩
  · obtain ⟨later, hlater⟩ := resizeWith_halves rank
    refine ⟨later, ?_⟩
    rw [create, resize, hlater]
  · obtain ⟨later, hlater⟩ := resizeWith_halves rank
    obtain ⟨ranges, hranges, _, hshare⟩ := shares rank
    exact ⟨ranges, hranges, hshare _ _ _ _ hlater rfl⟩

end DistTensor

end ArrayEngine
