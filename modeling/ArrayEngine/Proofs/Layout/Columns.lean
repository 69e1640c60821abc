import ArrayEngine.Proofs.Layout.Order

/-! Arrays by their slowest axis: the elements of each of its slices follow those of the one before. Where the
faster axes are packed the slices are columns. -/
namespace ArrayEngine.Layout

variable {index shape strides : List Nat} {elements i j n s : Nat}

theorem length_of_inShape (inside : inShape index shape = true) : index.length = shape.length := by
  induction shape generalizing index with
  | nil =>
    cases index with
    | nil => rfl
    | cons i index => cases inside
  | cons n shape ih =>
    cases index with
    | nil => cases inside
    | cons i index => exact congrArg Nat.succ (ih (inShape_cons.mp inside).2)

theorem inShape_append : inShape (index ++ [j]) (shape ++ [n]) = true ↔ inShape index shape = true ∧ j < n := by
  induction shape generalizing index with
  | nil => rcases index with _ | ⟨i, _ | ⟨k, index⟩⟩ <;> simp [inShape]
  | cons m shape ih =>
    rcases index with _ | ⟨i, index⟩
    · cases shape <;> simp [inShape]
    · rw [List.cons_append, List.cons_append, inShape_cons, inShape_cons, ih, and_assoc]

theorem number_append (same : index.length = shape.length) :
    number (index ++ [j]) (shape ++ [n]) = number index shape + shape.prod * j := by
  induction shape generalizing index with
  | nil =>
    cases List.length_eq_zero_iff.mp same
    simp [number]
  | cons m shape ih =>
    rcases index with _ | ⟨i, index⟩
    · cases same
    rw [List.cons_append, List.cons_append, number, number, ih (Nat.succ.inj same), List.prod_cons, Nat.mul_add,
      Nat.mul_assoc, Nat.add_assoc]

theorem position_append (same : index.length = strides.length) :
    position (index ++ [j]) (strides ++ [s]) = position index strides + j * s := by
  induction strides generalizing index with
  | nil =>
    cases List.length_eq_zero_iff.mp same
    simp [position]
  | cons t strides ih =>
    rcases index with _ | ⟨i, index⟩
    · cases same
    rw [List.cons_append, List.cons_append, position, position, ih (Nat.succ.inj same), Nat.add_assoc]

/-- The slices along the slowest axis, one after the other. -/
theorem box_append (shape : List Nat) (n : Nat) :
    box (shape ++ [n]) = (List.range n).flatMap fun j => (box shape).map (· ++ [j]) := by
  induction shape with
  | nil => simp [box, List.map_eq_flatMap]
  | cons m shape ih =>
    rw [List.cons_append, box, ih, List.flatMap_assoc]
    refine List.flatMap_congr fun j _ => ?_
    rw [box, List.flatMap_map, List.map_flatMap]
    refine List.flatMap_congr fun rest _ => ?_
    rw [List.map_map]
    rfl

/-- Along packed faster axes the elements of a column follow each other in memory. -/
theorem positions_of_columns (packed : isPacked shape strides = .ok true) (same : strides.length = shape.length) :
    (box (shape ++ [n])).map (position · (strides ++ [s])) =
      (List.range n).flatMap fun j => (List.range shape.prod).map (· + j * s) := by
  rw [box_append, List.map_flatMap]
  refine List.flatMap_congr fun j _ => ?_
  rw [← positions_of_isPacked packed same, List.map_map, List.map_map]
  refine List.map_congr_left fun index hindex => ?_
  exact position_append ((length_of_inShape (mem_box.mp hindex)).trans same.symm)

/-- The faster axes of an array with elements have elements, and so has the slowest one. -/
theorem pos_of_numel_append (hnumel : numel (shape ++ [n]) = .ok elements) (pos : 0 < elements) :
    elements = shape.prod * n ∧ 0 < shape.prod ∧ 0 < n := by
  have hprod : elements = shape.prod * n := by
    rw [prod_of_numel hnumel pos, List.prod_append, List.prod_singleton]
  rw [hprod] at pos
  exact ⟨hprod, Nat.pos_of_mul_pos_right pos, Nat.pos_of_mul_pos_left pos⟩

/-- The extents of the faster axes are multiplied on the way to the number of elements. -/
theorem product_of_numel_append (hnumel : numel (shape ++ [n]) = .ok elements) :
    product shape = .ok shape.prod := by
  have hproduct : product (shape ++ [n]) = .ok elements := by
    cases shape <;> exact hnumel
  rw [product, List.foldlM_append] at hproduct
  obtain ⟨rows, hrows, -⟩ := except_bind_eq_ok.mp hproduct
  rw [← eq_of_product hrows]
  exact hrows

/-- An array of several axes is a matrix if its faster axes are packed. -/
theorem isMatrixPacked_append (same : strides.length = shape.length) :
    isMatrixPacked (shape ++ [n]) (strides ++ [s]) = isPacked shape strides := by
  rw [isMatrixPacked, List.length_append, List.length_singleton]
  dsimp only
  rw [if_neg (by simp [same]), List.take_left, ← same, List.take_left]

theorem packedStrides_of_two {rows cols : Nat} (pos : 0 < cols) (fits : rows * cols < wordLimit) :
    numel [rows, cols] = .ok (rows * cols) ∧ packedStrides [rows, cols] = .ok [1, rows] := by
  have hrows : Word.mul 1 rows = .ok rows :=
    Word.mul_eq_ok.mpr ⟨Nat.one_mul rows, (Nat.le_mul_of_pos_right rows pos).trans_lt fits⟩
  have hboth : Word.mul rows cols = .ok (rows * cols) := Word.mul_eq_ok.mpr ⟨rfl, fits⟩
  have hlast : stridesFrom rows [cols] = .ok [rows] := except_bind_eq_ok.mpr ⟨_, hboth, rfl⟩
  exact ⟨except_bind_eq_ok.mpr ⟨rows, hrows, except_bind_eq_ok.mpr ⟨_, hboth, rfl⟩⟩,
    except_bind_eq_ok.mpr ⟨rows, hrows, except_bind_eq_ok.mpr ⟨_, hlast, rfl⟩⟩⟩

theorem add_mul_lt {rows cols row col : Nat} (hrow : row < rows) (hcol : col < cols) :
    row + rows * col < rows * cols := by
  calc row + rows * col < rows + rows * col := Nat.add_lt_add_right hrow _
    _ = rows * (col + 1) := by rw [Nat.mul_succ, Nat.add_comm]
    _ ≤ rows * cols := Nat.mul_le_mul_left _ hcol

/-- A number is counted in whole columns and a row in one way only. -/
theorem eq_of_add_mul {rows row other col last : Nat} (hrow : row < rows) (hother : other < rows)
    (h : row + rows * col = other + rows * last) : row = other ∧ col = last := by
  have pos : 0 < rows := Nat.zero_lt_of_lt hrow
  obtain ⟨hcol, hmod⟩ := (Nat.div_mod_unique pos).mpr ⟨h, hrow⟩
  obtain ⟨hlast, hsame⟩ := (Nat.div_mod_unique pos).mpr ⟨rfl, hother⟩
  exact ⟨hmod.symm.trans hsame, hcol.symm.trans hlast⟩

/-- Different indices have different offsets. -/
def HasDistinctOffsets (shape strides : List Nat) : Prop :=
  ∀ index other place, inShape index shape = true → inShape other shape = true →
    offset index strides = .ok place → offset other strides = .ok place → index = other

theorem hasDistinctOffsets_of_nodup (h : ((box shape).map (position · strides)).Nodup) :
    HasDistinctOffsets shape strides := fun _ _ _ inside hother hplace hsame =>
  List.inj_on_of_nodup_map h (mem_box.mpr inside) (mem_box.mpr hother)
    ((eq_of_offset hplace).symm.trans (eq_of_offset hsame))

theorem nodup_of_hasDistinctOffsets
    (placed : ∀ index, inShape index shape = true → ∃ place, offset index strides = .ok place)
    (distinct : HasDistinctOffsets shape strides) : ((box shape).map (position · strides)).Nodup := by
  refine (nodup_box shape).map_on fun index hindex other hother same => ?_
  obtain ⟨place, hplace⟩ := placed index (mem_box.mp hindex)
  obtain ⟨last, hlast⟩ := placed other (mem_box.mp hother)
  obtain rfl : place = last := (eq_of_offset hplace).trans (same.trans (eq_of_offset hlast).symm)
  exact distinct index other place (mem_box.mp hindex) (mem_box.mp hother) hplace hlast

/-- The index of an entry of the matrix that an array is. Its faster axes are as far along as the row says, and the
slowest one is at the column. The entries of an array with a single axis are in one row or in one column. -/
def IsEntry (shape index : List Nat) (row col : Nat) : Prop :=
  if shape.length = 1 then index = [row + col]
  else ∃ strides, packedStrides shape.dropLast = .ok strides ∧ offset index.dropLast strides = .ok row ∧
    index.getLast? = some col

variable {row col : Nat}

/-- The numbers of the elements are counted column by column. -/
theorem isEntry_append_iff (axes : shape ≠ []) (hnumel : numel (shape ++ [n]) = .ok elements) (pos : 0 < elements)
    (inside : inShape index (shape ++ [n]) = true) (hrow : row < shape.prod) :
    IsEntry (shape ++ [n]) index row col ↔ number index (shape ++ [n]) = row + shape.prod * col := by
  have hproduct : numel shape = .ok shape.prod := by
    have := product_of_numel_append hnumel
    cases shape with
    | nil => exact absurd rfl axes
    | cons m shape => exact this
  obtain ⟨-, hpos, -⟩ := pos_of_numel_append hnumel pos
  obtain ⟨strides, hstrides⟩ := packedStrides_eq_ok hproduct
  obtain rfl | ⟨faster, j, rfl⟩ := List.eq_nil_or_concat' index
  · have := length_of_inShape inside
    simp at this
  obtain ⟨hfaster, -⟩ := inShape_append.mp inside
  have hoffset : offset faster strides = .ok (number faster shape) :=
    offset_of_isPacked (isPacked_of_packedStrides hstrides) (length_stridesFrom hstrides) hproduct hpos hfaster
  have hlt := number_lt hfaster
  have several : (shape ++ [n]).length ≠ 1 := by simpa using axes
  rw [IsEntry, if_neg several, List.dropLast_concat, List.dropLast_concat, number_append (length_of_inShape hfaster)]
  simp only [hstrides, Except.ok.injEq, exists_eq_left', hoffset, List.getLast?_concat, Option.some.injEq]
  exact ⟨fun ⟨hrow, hcol⟩ => by rw [hrow, hcol], eq_of_add_mul hlt hrow⟩

end ArrayEngine.Layout
