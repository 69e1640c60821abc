import ArrayEngine.Proofs.Layout.Columns
import ArrayEngine.Proofs.Tensor.Fresh
import ArrayEngine.Proofs.Tensor.Lookups
import ArrayEngine.Tensor.Matrix

/-! Host tensors as matrices: the elements of the tensor in index order are the entries of the matrix column by
column. -/
namespace ArrayEngine

namespace MatrixLayout

variable {layout : MatrixLayout} {row col : Nat}

/-- The positions of the entries column by column. -/
def places (layout : MatrixLayout) : List Nat :=
  (List.range layout.cols).flatMap fun col => (List.range layout.rows).map fun row => layout.position row col

theorem getElem?_places (hrow : row < layout.rows) (hcol : col < layout.cols) :
    layout.places[row + layout.rows * col]? = some (layout.position row col) := by
  rw [places, getElem?_flatMap (fun col => by simp) _ hrow]
  simp [hrow, hcol]

/-- Entries of columns that do not overlap are at different positions. -/
theorem eq_of_position {other last : Nat} (apart : layout.rows ≤ layout.colStride) (hrow : row < layout.rows)
    (hother : other < layout.rows) (same : layout.position row col = layout.position other last) :
    row = other ∧ col = last := by
  rw [position, position, Nat.mul_comm col, Nat.mul_comm last] at same
  exact Layout.eq_of_add_mul (hrow.trans_le apart) (hother.trans_le apart) same

/-- Setting an entry of columns that do not overlap changes this entry and no other. -/
theorem eq_set {span values changed : List Element} {value : Element} (apart : layout.rows ≤ layout.colStride)
    (hrow : row < layout.rows) (inside : layout.position row col < span.length)
    (hvalues : values.length = layout.rows * layout.cols) (hchanged : changed.length = layout.rows * layout.cols)
    (before : ∀ r c, r < layout.rows → c < layout.cols →
      values[r + layout.rows * c]? = span[layout.position r c]?)
    (after : ∀ r c, r < layout.rows → c < layout.cols →
      changed[r + layout.rows * c]? = (span.set (layout.position row col) value)[layout.position r c]?) :
    changed = values.set (row + layout.rows * col) value := by
  refine List.ext_getElem? fun k => ?_
  by_cases hk : k < layout.rows * layout.cols
  · obtain ⟨r, c, hr, hc, rfl⟩ : ∃ r c, r < layout.rows ∧ c < layout.cols ∧ k = r + layout.rows * c :=
      ⟨k % layout.rows, k / layout.rows, Nat.mod_lt _ (Nat.zero_lt_of_lt hrow), Nat.div_lt_of_lt_mul hk,
        (Nat.mod_add_div k _).symm⟩
    rw [after r c hr hc]
    by_cases same : row = r ∧ col = c
    · obtain ⟨rfl, rfl⟩ := same
      rw [List.getElem?_set_self inside, List.getElem?_set_self (by omega)]
    · rw [List.getElem?_set_ne fun h => same (eq_of_position apart hrow hr h),
        List.getElem?_set_ne fun h => same (Layout.eq_of_add_mul hrow hr h), before r c hr hc]
  · rw [List.getElem?_eq_none (by omega), List.getElem?_eq_none (by rw [List.length_set]; omega)]

theorem fits_iff {length : Nat} (rows : 0 < layout.rows) (cols : 0 < layout.cols) :
    layout.fits length = true ↔ layout.colStride * (layout.cols - 1) + (layout.rows - 1) < length := by
  simp [fits, Nat.ne_of_gt rows, Nat.ne_of_gt cols]

end MatrixLayout

namespace MatrixView

variable {view : MatrixView}

@[simp] theorem length_elements (view : MatrixView) : view.elements.length = view.rows * view.cols := by
  simp only [elements, List.length_flatMap, List.length_map, List.length_range, List.map_const', List.sum_replicate_nat,
    Nat.mul_comm]

theorem getElem?_elements {row col : Nat} (hrow : row < view.rows) (hcol : col < view.cols) :
    view.elements[row + view.rows * col]? = some (view.entry row col) := by
  rw [elements, getElem?_flatMap (fun col => by simp) _ hrow]
  simp [hrow, hcol]

theorem mem_elements {element : Element} (h : element ∈ view.elements) :
    ∃ row col, row < view.rows ∧ col < view.cols ∧ view.entry row col = element := by
  obtain ⟨col, hcol, hmem⟩ := List.mem_flatMap.mp h
  obtain ⟨row, hrow, rfl⟩ := List.mem_map.mp hmem
  exact ⟨row, col, List.mem_range.mp hrow, List.mem_range.mp hcol, rfl⟩

end MatrixView

namespace Tensor

variable {tensor : Tensor} {layout : MatrixLayout}

theorem matrix_of_layout (hview : tensor.matrixLayout = .ok layout) (machine : Machine) :
    tensor.matrix machine = (tensor.read >>= fun span =>
      if layout.fits span.length then do return (layout, ← layout.entries span.toArray)
      else throw (.trap .matrixBounds) : Work TensorError (MatrixLayout × List Element)) machine := by
  rw [matrix, hview]
  rfl

theorem matrix_of_error {cause : Halt TensorError} (hview : tensor.matrixLayout = .error cause) (machine : Machine) :
    tensor.matrix machine = .error cause machine := by
  rw [matrix, hview]
  rfl

theorem setMatrix_of_layout (hview : tensor.matrixLayout = .ok layout) (row col : Nat) (value : Element)
    (machine : Machine) : tensor.setMatrix row col value machine = (do
      tensor.write fun span =>
        if layout.fits span.length && layout.rows ≤ layout.colStride then
          .ok (if row < layout.rows && col < layout.cols then span.set (layout.position row col) value else span)
        else .error .matrixBounds
      return (layout, row < layout.rows && col < layout.cols) : Work TensorError (MatrixLayout × Bool)) machine := by
  rw [setMatrix, hview]
  rfl

/-- A tensor is a matrix, whose entries column by column are the elements of the tensor in index order. -/
structure IsMatrix (tensor : Tensor) (layout : MatrixLayout) : Prop where
  view : tensor.matrixLayout = .ok layout
  rows : 0 < layout.rows
  cols : 0 < layout.cols
  numel : tensor.numel = .ok (layout.rows * layout.cols)
  places : layout.places = tensor.places
  entry : ∀ index row col, row < layout.rows → col < layout.cols → Layout.inShape index tensor.shape = true →
    (Layout.IsEntry tensor.shape index row col ↔
      Layout.number index tensor.shape = row + layout.rows * col)

variable {machine : Machine} {id : BufferId} {buffer : Buffer} {elements extent n s : Nat}
  {faster strides : List Nat}

theorem matrixLayout_of_single (hempty : tensor.isEmpty = .ok false) (hshape : tensor.shape = [n])
    (hstrides : tensor.strides = [s]) :
    tensor.matrixLayout = .ok (if s = 1 then ⟨n, 1, n⟩ else ⟨1, n, s⟩) := by
  rw [matrixLayout, hempty, hshape, hstrides]
  match s with
  | 0 => rfl
  | 1 => rfl
  | s + 2 => rfl

theorem matrixLayout_of_several (hempty : tensor.isEmpty = .ok false) (axes : faster ≠ [])
    (hshape : tensor.shape = faster ++ [n]) (hstrides : tensor.strides = strides ++ [s])
    (hproduct : Layout.product faster = .ok faster.prod) {packed : Bool}
    (hpacked : tensor.isMatrixPacked = .ok packed) :
    tensor.matrixLayout =
      if packed then .ok ⟨faster.prod, n, s⟩ else .error (.error (.notViewable .notPacked)) := by
  have several : ∃ m k rest, tensor.shape = m :: k :: rest := by
    rcases faster with _ | ⟨m, _ | ⟨k, rest⟩⟩
    · exact absurd rfl axes
    · exact ⟨m, n, [], hshape⟩
    · exact ⟨m, k, rest ++ [n], hshape⟩
  have happly : tensor.matrixLayout = (do
      if ← tensor.isMatrixPacked then
        return ⟨← Layout.product tensor.shape.dropLast, tensor.shape.getLast?.getD 0,
          tensor.strides.getLast?.getD 0⟩
      else throw (.error (.notViewable .notPacked)) : Except (Halt TensorError) MatrixLayout) := by
    obtain ⟨m, k, rest, hseveral⟩ := several
    rw [matrixLayout, hempty, hseveral]
    rfl
  rw [happly, hpacked, hshape, hstrides, List.dropLast_concat, List.getLast?_concat, List.getLast?_concat, hproduct]
  cases packed <;> rfl

namespace IsMatrix

variable (is : tensor.IsMatrix layout)
include is

theorem prod_eq : layout.rows * layout.cols = tensor.shape.prod :=
  Layout.prod_of_numel is.numel (Nat.mul_pos is.rows is.cols)

/-- Every entry is at one index. -/
theorem existsUnique_index {row col : Nat} (hrow : row < layout.rows) (hcol : col < layout.cols) : ∃! index,
    Layout.inShape index tensor.shape = true ∧ Layout.IsEntry tensor.shape index row col := by
  have hlt : row + layout.rows * col < (Layout.box tensor.shape).length := by
    rw [Layout.length_box, ← is.prod_eq]
    exact Layout.add_mul_lt hrow hcol
  obtain ⟨inside, hnumber⟩ := Layout.getElem?_box_iff.mp (List.getElem?_eq_getElem hlt)
  refine ⟨_, ⟨inside, (is.entry _ row col hrow hcol inside).mpr hnumber⟩, fun other ⟨hother, hentry⟩ => ?_⟩
  have hsame := Layout.getElem?_box_iff.mpr ⟨hother, (is.entry other row col hrow hcol hother).mp hentry⟩
  exact (Option.some.inj ((List.getElem?_eq_getElem hlt).symm.trans hsame)).symm

/-- Every index has one entry. -/
theorem existsUnique_entry {index : List Nat} (inside : Layout.inShape index tensor.shape = true) :
    ∃! place : Nat × Nat, place.1 < layout.rows ∧ place.2 < layout.cols ∧
      Layout.IsEntry tensor.shape index place.1 place.2 := by
  have hlt := Layout.number_lt inside
  rw [← is.prod_eq] at hlt
  have hrow := Nat.mod_lt (Layout.number index tensor.shape) is.rows
  have hcol := Nat.div_lt_of_lt_mul hlt
  have hnumber := (Nat.mod_add_div (Layout.number index tensor.shape) layout.rows).symm
  refine ⟨(_, _), ⟨hrow, hcol, (is.entry index _ _ hrow hcol inside).mpr hnumber⟩,
    fun (row, col) ⟨hr, hc, hentry⟩ => ?_⟩
  obtain ⟨rfl, rfl⟩ := Layout.eq_of_add_mul hr hrow
    (((is.entry index row col hr hc inside).mp hentry).symm.trans hnumber)
  rfl

end IsMatrix

/-- A matrix whose entries, listed column by column, are the elements of a tensor: each entry is the one at its own
index, and each index has its own entry. -/
structure Matches (tensor : Tensor) (machine : Machine) (layout : MatrixLayout) (entries : List Element) :
    Prop where
  numel : tensor.numel = .ok (layout.rows * layout.cols)
  length : entries.length = layout.rows * layout.cols
  reach : ∃ span, tensor.read machine = .ok span machine ∧
    layout.colStride * (layout.cols - 1) + (layout.rows - 1) < span.length
  index : ∀ row < layout.rows, ∀ col < layout.cols, ∃! index,
    Layout.inShape index tensor.shape = true ∧ Layout.IsEntry tensor.shape index row col
  entry : ∀ index, Layout.inShape index tensor.shape = true → ∃! place : Nat × Nat,
    place.1 < layout.rows ∧ place.2 < layout.cols ∧ Layout.IsEntry tensor.shape index place.1 place.2
  value : ∀ index, Layout.inShape index tensor.shape = true → ∀ row < layout.rows, ∀ col < layout.cols,
    Layout.IsEntry tensor.shape index row col → ∃ value,
      entries[row + layout.rows * col]? = some value ∧ tensor.get index machine = .ok value machine

namespace Holds

variable (holds : tensor.Holds machine id buffer elements extent)
include holds

/-- The elements along a single axis are one column if they are packed, and one row otherwise. -/
theorem isMatrix_of_single (hshape : tensor.shape = [n]) : ∃ layout, tensor.IsMatrix layout := by
  obtain ⟨s, hstrides⟩ : ∃ s, tensor.strides = [s] := List.length_eq_one_iff.mp (by rw [holds.strides, hshape]; rfl)
  have hnumel := holds.numel
  have hcount := hnumel
  rw [Tensor.numel, hshape] at hcount
  obtain rfl : elements = n := (Layout.prod_of_numel hcount holds.pos).trans List.prod_singleton
  have inside {index : List Nat} (h : Layout.inShape index tensor.shape = true) : ∃ i, index = [i] :=
    List.length_eq_one_iff.mp (by rw [Layout.length_of_inShape h, hshape]; rfl)
  have hplaces : tensor.places = (List.range elements).map (· * s) := by
    simp [places, hshape, hstrides, Layout.box, Function.comp_def, Layout.position]
  have hview := matrixLayout_of_single holds.isEmpty hshape hstrides
  by_cases hs : s = 1
  · rw [if_pos hs] at hview
    refine ⟨_, hview, holds.pos, Nat.zero_lt_one, by rwa [Nat.mul_one], ?_, fun index row col _ hcol hindex => ?_⟩
    · simp [MatrixLayout.places, MatrixLayout.position, hplaces, hs]
    · obtain rfl := Nat.lt_one_iff.mp hcol
      obtain ⟨i, rfl⟩ := inside hindex
      simp [Layout.IsEntry, hshape, Layout.number]
  · rw [if_neg hs] at hview
    refine ⟨_, hview, Nat.zero_lt_one, holds.pos, by rwa [Nat.one_mul], ?_, fun index row col hrow _ hindex => ?_⟩
    · simp [MatrixLayout.places, MatrixLayout.position, hplaces, List.map_eq_flatMap]
    · obtain rfl := Nat.lt_one_iff.mp hrow
      obtain ⟨i, rfl⟩ := inside hindex
      simp [Layout.IsEntry, hshape, Layout.number]

/-- Along packed faster axes the elements are the columns of a matrix, one for every index of the slowest axis. -/
theorem isMatrix_of_several (axes : faster ≠ []) (hshape : tensor.shape = faster ++ [n]) :
    ∃ packed, tensor.isMatrixPacked = .ok packed ∧
      if packed then ∃ layout, tensor.IsMatrix layout
      else tensor.matrixLayout = .error (.error (.notViewable .notPacked)) := by
  obtain ⟨strides, s, hstrides⟩ : ∃ strides s, tensor.strides = strides ++ [s] := by
    obtain hnone | hsome := List.eq_nil_or_concat' tensor.strides
    · have hlength := holds.strides
      simp [hnone, hshape] at hlength
    · exact hsome
  have same : strides.length = faster.length := by
    have hlength := holds.strides
    simpa [hstrides, hshape] using hlength
  have hnumel := holds.numel
  rw [Tensor.numel, hshape] at hnumel
  obtain ⟨hcount, rows, cols⟩ := Layout.pos_of_numel_append hnumel holds.pos
  have hproduct := Layout.product_of_numel_append hnumel
  have hmatrix : tensor.isMatrixPacked = Layout.isPacked faster strides := by
    rw [isMatrixPacked, hshape, hstrides, Layout.isMatrixPacked_append same]
  obtain ⟨packed, hpacked⟩ := Layout.isPackedFrom_eq_ok hproduct strides
  have hview := matrixLayout_of_several holds.isEmpty axes hshape hstrides hproduct (hmatrix.trans hpacked)
  refine ⟨packed, hmatrix.trans hpacked, ?_⟩
  cases packed with
  | false => exact hview
  | true =>
    refine ⟨_, hview, rows, cols, hcount ▸ holds.numel, ?_, fun index row col hrow _ hindex => ?_⟩
    · rw [places, hshape, hstrides, Layout.positions_of_columns hpacked same]
      rfl
    · rw [hshape] at hindex ⊢
      exact Layout.isEntry_append_iff axes hnumel holds.pos hindex hrow

/-- A tensor with elements is a matrix unless it has several axes, and the faster ones are not packed. -/
theorem isMatrix_cases : ∃ packed, tensor.isMatrixPacked = .ok packed ∧
    (2 ≤ tensor.rank ∧ packed = false ∧
        tensor.matrixLayout = .error (.error (.notViewable .notPacked)) ∨
      ¬(2 ≤ tensor.rank ∧ packed = false) ∧ ∃ layout, tensor.IsMatrix layout) := by
  have axes := Layout.ne_nil_of_numel holds.numel holds.pos
  obtain hnone | ⟨faster, n, hshape⟩ := List.eq_nil_or_concat' tensor.shape
  · exact absurd hnone axes
  have hrank : tensor.rank = faster.length + 1 := by
    rw [rank, hshape, List.length_append, List.length_singleton]
  obtain rfl | several := eq_or_ne faster []
  · have hmatrix : tensor.isMatrixPacked = .ok true := by
      rw [isMatrixPacked, hshape]
      rfl
    exact ⟨true, hmatrix, .inr ⟨nofun, holds.isMatrix_of_single hshape⟩⟩
  · obtain ⟨packed, hmatrix, h⟩ := holds.isMatrix_of_several several hshape
    have hpos := List.length_pos_iff.mpr several
    cases packed with
    | false => exact ⟨false, hmatrix, .inl ⟨by omega, rfl, h⟩⟩
    | true => exact ⟨true, hmatrix, .inr ⟨nofun, h⟩⟩

/-- The elements are at different positions if different indices have different offsets. -/
theorem nodup_places (distinct : Layout.HasDistinctOffsets tensor.shape tensor.strides) : tensor.places.Nodup := by
  refine Layout.nodup_of_hasDistinctOffsets (fun index inside => ?_) distinct
  obtain ⟨place, hplace, -⟩ := holds.offset_lt inside
  exact ⟨place, hplace⟩

section Entries

variable (is : tensor.IsMatrix layout)
include is

/-- The last entry of the matrix is the furthest one, and it is within reach. -/
theorem lt_of_isMatrix : layout.colStride * (layout.cols - 1) + (layout.rows - 1) < extent := by
  have hlast : layout.position (layout.rows - 1) (layout.cols - 1) ∈ tensor.places := by
    rw [← is.places]
    exact List.mem_of_getElem? (MatrixLayout.getElem?_places (Nat.sub_lt is.rows Nat.one_pos)
      (Nat.sub_lt is.cols Nat.one_pos))
  have hlt := holds.lt_of_mem_places hlast
  rwa [MatrixLayout.position, Nat.mul_comm, Nat.add_comm] at hlt

theorem fits_of_isMatrix : layout.fits (tensor.memory machine).length = true := by
  rw [MatrixLayout.fits_iff is.rows is.cols, holds.length_memory]
  exact holds.lt_of_isMatrix is

/-- Several columns do not overlap if different indices have different offsets. -/
theorem apart_of_distinct (distinct : Layout.HasDistinctOffsets tensor.shape tensor.strides)
    (several : layout.cols ≠ 1) : layout.rows ≤ layout.colStride := by
  have hnodup : layout.places.Nodup := is.places ▸ holds.nodup_places distinct
  by_contra overlap
  have hcols := is.cols
  -- Otherwise the first entry of the second column is in the first one as well.
  have hfirst := MatrixLayout.getElem?_places (Nat.lt_of_not_le overlap) is.cols
  have hsecond := MatrixLayout.getElem?_places is.rows (show 1 < layout.cols by omega)
  have same : layout.position layout.colStride 0 = layout.position 0 1 := by
    simp [MatrixLayout.position]
  obtain ⟨hlt, hfirst⟩ := List.getElem?_eq_some_iff.mp hfirst
  obtain ⟨hless, hsecond⟩ := List.getElem?_eq_some_iff.mp hsecond
  have := (hnodup.getElem_inj_iff).mp (hfirst.trans (same.trans hsecond.symm))
  omega

variable (host : buffer.place = .host)
include host

/-- The entries of the matrix column by column are the elements of the tensor in index order. -/
theorem matrix_eq_ok : ∃ values, tensor.toList machine = .ok values machine ∧
    values.length = layout.rows * layout.cols ∧ tensor.matrix machine = .ok (layout, values) machine := by
  obtain ⟨values, hvalues, hcount⟩ := holds.toList host
  cases is.numel.symm.trans holds.numel
  have hentries : layout.entries (tensor.memory machine).toArray = .ok values := by
    rw [← holds.mapM_fetch_of_toList host hvalues, ← is.places]
    rfl
  refine ⟨values, hvalues, hcount, ?_⟩
  rw [matrix_of_layout is.view, bind_apply, (holds.access_memory host).1]
  dsimp only
  rw [if_pos (holds.fits_of_isMatrix is), hentries, ok_bind_apply]
  rfl

/-- The matrix that a tensor is has the elements of the tensor for its entries. -/
theorem matches_of_isMatrix : ∃ entries, tensor.matrix machine = .ok (layout, entries) machine ∧
    tensor.Matches machine layout entries := by
  obtain ⟨entries, hlist, hlength, hmatrix⟩ := holds.matrix_eq_ok is host
  refine ⟨entries, hmatrix, is.numel, hlength, ⟨_, (holds.access_memory host).1, ?_⟩,
    fun row hrow col hcol => is.existsUnique_index hrow hcol, fun index inside => is.existsUnique_entry inside,
    fun index inside row hrow col hcol hentry => ?_⟩
  · rw [holds.length_memory]
    exact holds.lt_of_isMatrix is
  · obtain ⟨values, value, hvalues, hvalue, hget⟩ := holds.get_eq_ok host inside
    cases hlist.symm.trans hvalues
    exact ⟨value, (is.entry index row col hrow hcol inside).mp hentry ▸ hvalue, hget⟩

/-- The entries of the matrix are what stands at their positions. -/
theorem getElem?_of_matrix {values : List Element} {row col : Nat} (hrow : row < layout.rows) (hcol : col < layout.cols)
    (hmatrix : tensor.matrix machine = .ok (layout, values) machine) :
    values[row + layout.rows * col]? = (tensor.memory machine)[layout.position row col]? := by
  obtain ⟨found, hfound, -, hsame⟩ := holds.matrix_eq_ok is host
  cases hmatrix.symm.trans hsame
  obtain ⟨value, hfetch, hvalue⟩ := getElem?_of_mapM (holds.mapM_fetch_of_toList host hfound)
    (is.places ▸ MatrixLayout.getElem?_places hrow hcol)
  rw [hvalue, ← fetch_eq_ok.mp hfetch, List.getElem?_toArray]

/-- An entry of the matrix can be set if its columns do not overlap, and then only. -/
theorem setMatrix_apply (row col : Nat) (value : Element) :
    tensor.setMatrix row col value machine =
      if layout.rows ≤ layout.colStride then
        .ok (layout, row < layout.rows && col < layout.cols)
          (machine.store id 0 (if row < layout.rows && col < layout.cols then
            (tensor.memory machine).set (layout.position row col) value else tensor.memory machine).flatten)
      else .error (.trap .matrixBounds) machine := by
  rw [setMatrix_of_layout is.view, bind_apply, (holds.access_memory host).2, holds.fits_of_isMatrix is, Bool.true_and]
  by_cases apart : layout.rows ≤ layout.colStride
  · rw [if_pos (decide_eq_true apart), if_pos apart]
    rfl
  · rw [if_neg (by simpa using apart), if_neg apart]

/-- Setting an entry of the matrix changes this entry and no other. -/
theorem matrix_of_setMatrix (apart : layout.rows ≤ layout.colStride) {values : List Element} {row col : Nat}
    (hrow : row < layout.rows) (hcol : col < layout.cols) {value : Element} (hvalue : value.length = tensor.dtype.size)
    (hmatrix : tensor.matrix machine = .ok (layout, values) machine) : ∃ later,
    tensor.setMatrix row col value machine = .ok (layout, true) later ∧
      tensor.matrix later = .ok (layout, values.set (row + layout.rows * col) value) later := by
  let changed := (tensor.memory machine).set (layout.position row col) value
  have hstored : changed.length = extent := (List.length_set ..).trans holds.length_memory
  have whole : ∀ element ∈ changed, element.length = tensor.dtype.size := fun element hmem =>
    (List.mem_or_eq_of_mem_set hmem).elim (holds.length_of_mem_memory element) fun h => h ▸ hvalue
  obtain ⟨bytes, after⟩ := holds.exists_holds_store changed.flatten
  obtain ⟨found, -, hcount, hfound⟩ := after.matrix_eq_ok is host
  obtain ⟨_, -, hlength, hagain⟩ := holds.matrix_eq_ok is host
  cases hmatrix.symm.trans hagain
  refine ⟨machine.store id 0 changed.flatten, ?_, ?_⟩
  · rw [holds.setMatrix_apply is host, if_pos apart, decide_eq_true hrow, decide_eq_true hcol]
    rfl
  · have inside : layout.position row col < (tensor.memory machine).length := by
      rw [holds.length_memory]
      exact holds.lt_of_mem_places (is.places ▸ List.mem_of_getElem? (MatrixLayout.getElem?_places hrow hcol))
    have hset := MatrixLayout.eq_set apart hrow inside hlength hcount
      (fun r c hr hc => holds.getElem?_of_matrix is host hr hc hmatrix) fun r c hr hc => by
        rw [after.getElem?_of_matrix is host hr hc hfound, holds.memory_store hstored whole]
    rw [hfound, hset]

end Entries

end Holds

/-- A matrix that is kept as a tensor is the matrix that this tensor is. -/
theorem matrix_of_ofMatrix {dtype : TypeInfo} {view : MatrixView} (sized : 0 < dtype.size) (hrows : 0 < view.rows)
    (hcols : 0 < view.cols)
    (whole : ∀ row col, row < view.rows → col < view.cols → (view.entry row col).length = dtype.size)
    (fits : view.rows * view.cols * dtype.size ≤ maxAllocation) (machine : Machine) :
    ∃ tensor later, ofMatrix dtype view machine = .ok tensor later ∧
      tensor.matrix later = .ok (⟨view.rows, view.cols, view.rows⟩, view.elements) later := by
  have small : view.rows * view.cols < wordLimit :=
    (Nat.le_mul_of_pos_right _ sized).trans_lt (fits.trans_lt (by decide))
  obtain ⟨hnumel, hstrides⟩ := Layout.packedStrides_of_two hcols small
  have hlength := view.length_elements
  obtain ⟨tensor, later, id, buffer, hmake, hshape, hpacked, holds, host, hlist⟩ :=
    ofList_eq_ok (hnumel.trans (congrArg _ hlength.symm)) (hlength ▸ Nat.mul_pos hrows hcols) sized
      (hlength ▸ fits) (fun element hmem => by
        obtain ⟨row, col, hrow, hcol, rfl⟩ := MatrixView.mem_elements hmem
        exact whole row col hrow hcol) machine
  have hrest : tensor.strides = [1] ++ [view.rows] := Except.ok.inj (hpacked.symm.trans hstrides)
  have hproduct : Layout.product [view.rows] = .ok [view.rows].prod :=
    Layout.product_of_numel_append (hnumel : Layout.numel ([view.rows] ++ [view.cols]) = _)
  have hmatrix : tensor.isMatrixPacked = .ok true := by
    obtain ⟨_, hword, -⟩ := except_bind_eq_ok.mp hproduct
    have hone : Layout.packedStrides [view.rows] = .ok [1] := except_bind_eq_ok.mpr ⟨_, hword, rfl⟩
    have same : [1].length = [view.rows].length := rfl
    rw [isMatrixPacked, hshape, hrest]
    exact (Layout.isMatrixPacked_append same).trans (Layout.isPacked_of_packedStrides hone)
  obtain ⟨packed, hsame, h⟩ := holds.isMatrix_of_several (List.cons_ne_nil view.rows []) hshape
  cases hmatrix.symm.trans hsame
  obtain ⟨layout, is⟩ := h
  have hview := matrixLayout_of_several holds.isEmpty (List.cons_ne_nil view.rows []) hshape hrest hproduct hmatrix
  rw [is.view, if_pos rfl, List.prod_singleton] at hview
  cases hview
  obtain ⟨values, hvalues, -, hresult⟩ := holds.matrix_eq_ok is host
  cases hlist.symm.trans hvalues
  exact ⟨tensor, later, hmake, hresult⟩

end Tensor

end ArrayEngine
