import ArrayEngine.Proofs.Grid.Coordinates
import ArrayEngine.Proofs.Layout.Order
import ArrayEngine.Proofs.Layout.Products
import Mathlib.Logic.Equiv.Defs

/-! Ranks and coordinates of a grid: each rank has coordinates inside the shape, and the coordinates inside the
shape are those of one rank each, its place in column-major order. -/
namespace ArrayEngine.Grid

open Layout (inShape number)

theorem inShape_place {shape : List Nat} (pos : ∀ n ∈ shape, 0 < n) (rank : Nat) :
    inShape (place shape rank) shape = true := by
  induction shape generalizing rank with
  | nil => rfl
  | cons n shape ih =>
    rw [place, Layout.inShape_cons]
    constructor
    · exact Nat.mod_lt _ (pos n (by simp))
    · exact ih (fun m hm => pos m (by simp [hm])) _

/-- The number of the coordinates of a rank is the rank. -/
theorem number_place {shape : List Nat} {rank : Nat} (h : rank < shape.prod) :
    number (place shape rank) shape = rank := by
  induction shape generalizing rank with
  | nil => exact (Nat.lt_one_iff.mp h).symm
  | cons n shape ih =>
    rw [List.prod_cons] at h
    rw [place, number, ih (Nat.div_lt_of_lt_mul h)]
    exact Nat.mod_add_div rank n

/-- The coordinates of the number of some coordinates are these. -/
theorem place_number {shape coords : List Nat} (inside : inShape coords shape = true) :
    place shape (number coords shape) = coords := by
  induction shape generalizing coords with
  | nil =>
    cases coords with
    | nil => rfl
    | cons coord coords => cases inside
  | cons n shape ih =>
    rcases coords with _ | ⟨coord, coords⟩
    · cases inside
    obtain ⟨hcoord, inside⟩ := Layout.inShape_cons.mp inside
    rw [number, place_add n shape hcoord, ih inside]

/-- The rank at some coordinates is their number. A grid without axes has one rank. -/
theorem rankOf_eq_ok {comm : Comm} {shape coords : List Nat} (hproduct : Layout.product shape = .ok comm.size)
    (pos : 0 < comm.size) (inside : inShape coords shape = true) :
    (⟨comm, shape⟩ : Grid).rankOf coords = .ok (number coords shape) := by
  cases shape with
  | nil =>
    cases coords with
    | nil => rfl
    | cons coord coords => cases inside
  | cons n shape =>
    have hnumel : Layout.numel (n :: shape) = .ok comm.size := hproduct
    obtain ⟨strides, hstrides⟩ := Layout.packedStrides_eq_ok hnumel
    rw [rankOf, hstrides]
    exact Layout.offset_of_isPacked (Layout.isPacked_of_packedStrides hstrides)
      (Layout.length_stridesFrom hstrides) hnumel pos inside

/-- A shape with as many places as there are members is accepted. -/
theorem create_of_product {comm : Comm} {shape : List Nat} (h : Layout.product shape = .ok comm.size) :
    create comm shape = .ok ⟨comm, shape⟩ := by
  rw [create, h]
  exact if_pos rfl

theorem create_of_ne {comm : Comm} {shape : List Nat} {places : Nat} (h : Layout.product shape = .ok places)
    (hne : places ≠ comm.size) : create comm shape = .error (.error (.shape comm.size shape)) := by
  rw [create, h]
  exact if_neg hne

/-- A shape whose product is a word is accepted if and only if it has as many places as there are members. -/
theorem exists_create_iff {comm : Comm} {shape : List Nat} (pos : 0 < comm.size) (h : shape.prod < wordLimit) :
    (∃ grid, create comm shape = .ok grid) ↔ shape.prod = comm.size := by
  constructor
  · rintro ⟨grid, hgrid⟩
    exact (create_eq_ok hgrid).2
  · intro hsize
    have hproduct := Layout.product_eq_ok (Layout.hasWordProducts_of_pos (hsize ▸ pos) h)
    exact ⟨_, create_of_product (hproduct.trans (congrArg _ hsize))⟩

/-- The ranks of a shape with `size` places, and the coordinates inside it. -/
def ranksEquiv {shape : List Nat} {size : Nat} (hsize : shape.prod = size) (pos : 0 < size) :
    Fin size ≃ {coords : List Nat // inShape coords shape = true} where
  toFun rank := ⟨place shape rank, inShape_place (Layout.pos_of_prod_pos (hsize ▸ pos)) rank⟩
  invFun coords := ⟨number coords.val shape, hsize ▸ Layout.number_lt coords.property⟩
  left_inv rank := Fin.ext (number_place (hsize ▸ rank.isLt))
  right_inv coords := Subtype.ext (place_number coords.property)

/-- In every grid the ranks and the coordinates inside its shape are mapped to each other, one to one, each rank
to its place in column-major order. Coordinates are found of any number at all. Of the shapes whose product is a
word just those with as many places as there are members make a grid, and others are refused if their product can
be told. -/
theorem ranks_and_coordinates {comm : Comm} (pos : 1 ≤ comm.size) :
    (∀ shape grid, create comm shape = .ok grid →
      (∀ rank, ∃ coords, grid.coordsOf rank = .ok coords) ∧
      ∃ places : Fin comm.size ≃ {coords : List Nat // inShape coords shape = true},
        (∀ rank : Fin comm.size, grid.coordsOf rank = .ok (places rank)) ∧
        (∀ coords : {coords : List Nat // inShape coords shape = true},
          grid.rankOf coords = .ok (places.symm coords)) ∧
        ∀ rank : Fin comm.size, (Layout.box shape)[rank.val]? = some (places rank).val) ∧
    (∀ shape : List Nat, shape.prod < wordLimit →
      ((∃ grid, create comm shape = .ok grid) ↔ shape.prod = comm.size)) ∧
    ∀ shape places, Layout.product shape = .ok places → places ≠ comm.size →
      create comm shape = .error (.error (.shape comm.size shape)) := by
  refine ⟨fun shape grid hgrid => ?_, fun shape => exists_create_iff pos, fun shape places => create_of_ne⟩
  obtain ⟨rfl, hproduct⟩ := product_of_create hgrid
  have hsize : shape.prod = comm.size := (create_eq_ok hgrid).2
  have hshape : ∀ n ∈ shape, 0 < n := Layout.pos_of_prod_pos (hsize ▸ pos)
  refine ⟨fun rank => ⟨_, digits_eq_ok hshape rank⟩, ranksEquiv hsize pos, ?_, ?_, ?_⟩
  · intro rank
    exact digits_eq_ok hshape rank
  · intro coords
    exact rankOf_eq_ok hproduct pos coords.property
  · intro rank
    apply Layout.getElem?_box_iff.mpr
    exact ⟨inShape_place hshape rank, number_place (rank.isLt.trans_eq hsize.symm)⟩

/-- Six members in a grid with an axis of extent 1: the last of them is at the end of both other axes. -/
theorem ranks_and_coordinates_six : ∃ grid,
    create ⟨4, List.range 6, true, false⟩ [2, 1, 3] = .ok grid ∧
      grid.coordsOf 5 = .ok [1, 0, 2] ∧ grid.rankOf [1, 0, 2] = .ok 5 ∧
      ¬∃ grid, create ⟨4, List.range 6, true, false⟩ [4] = .ok grid := by
  obtain ⟨accepted, iff, -⟩ := @ranks_and_coordinates ⟨4, List.range 6, true, false⟩ (by decide)
  obtain ⟨grid, hgrid⟩ := (iff [2, 1, 3] (by decide)).mpr rfl
  obtain ⟨-, places, hcoords, hranks, hbox⟩ := accepted _ _ hgrid
  have hlast : (places ⟨5, by decide⟩).val = [1, 0, 2] := (Option.some.inj (hbox ⟨5, by decide⟩)).symm
  have hback := hranks (places ⟨5, by decide⟩)
  rw [Equiv.symm_apply_apply, hlast] at hback
  exact ⟨grid, hgrid, (hcoords ⟨5, by decide⟩).trans (congrArg _ hlast), hback,
    fun h => absurd ((iff [4] (by decide)).mp h) (by decide)⟩

end ArrayEngine.Grid
