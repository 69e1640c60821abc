import ArrayEngine.Proofs.Layout.Walk

/-! The walk over a shape visits the indices of its box, each one at its place in column-major order, and packed
strides number them. -/
namespace ArrayEngine.Layout

theorem length_box (shape : List Nat) : (box shape).length = shape.prod := by
  induction shape with
  | nil => rfl
  | cons n shape ih =>
    rw [box, List.length_flatMap, List.prod_cons, Nat.mul_comm, ← ih]
    simp only [List.length_map, List.length_range, List.map_const', List.sum_replicate_nat]

theorem mem_box {index shape : List Nat} : index ∈ box shape ↔ inShape index shape = true := by
  induction shape generalizing index with
  | nil => cases index <;> simp [box, inShape]
  | cons n shape ih =>
    rw [box, List.mem_flatMap]
    cases index with
    | nil => simp [inShape]
    | cons i index =>
      rw [inShape_cons]
      constructor
      · rintro ⟨rest, hrest, hmem⟩
        obtain ⟨j, hj, hsame⟩ := List.mem_map.mp hmem
        cases hsame
        exact ⟨List.mem_range.mp hj, ih.mp hrest⟩
      · rintro ⟨hi, inside⟩
        exact ⟨index, ih.mpr inside, List.mem_map.mpr ⟨i, List.mem_range.mpr hi, rfl⟩⟩

/-- Every index of a box stands at its own number. -/
theorem getElem?_box {index shape : List Nat} (inside : inShape index shape = true) :
    (box shape)[number index shape]? = some index := by
  induction shape generalizing index with
  | nil =>
    cases index with
    | nil => rfl
    | cons i index => cases inside
  | cons n shape ih =>
    rcases index with _ | ⟨i, index⟩
    · cases inside
    obtain ⟨hi, inside⟩ := inShape_cons.mp inside
    rw [box, number, getElem?_flatMap (fun rest => by simp) _ hi, ih inside]
    simp [hi]

/-- Fewer indices come before an index than there are in all. -/
theorem number_lt {index shape : List Nat} (inside : inShape index shape = true) :
    number index shape < shape.prod := by
  rw [← length_box]
  exact (List.getElem?_eq_some_iff.mp (getElem?_box inside)).1

/-- From any index on the loop visits the rest of the box. -/
theorem visits_drop {index shape : List Nat} (small : ∀ n ∈ shape, n < wordLimit)
    (inside : inShape index shape = true) :
    Visits shape index ((box shape).drop (number index shape)) := by
  -- by induction on how many indices are left
  induction hleft : shape.prod - number index shape generalizing index with
  | zero =>
    have := number_lt inside
    omega
  | succ left ih =>
    obtain ⟨more, following, hnext, hinside, hmore, hend⟩ := next_eq_ok small inside
    have hlt : number index shape < (box shape).length := (number_lt inside).trans_eq (length_box shape).symm
    have hhead : (box shape)[number index shape] = index :=
      (List.getElem?_eq_some_iff.mp (getElem?_box inside)).2
    rw [List.drop_eq_getElem_cons hlt, hhead]
    cases more with
    | true =>
      rw [← hmore rfl]
      exact .more hnext (ih hinside (by rw [hmore rfl]; omega))
    | false =>
      rw [hend rfl, ← length_box, List.drop_length]
      exact .last hnext

/-- The extents of a shape with elements are words. -/
theorem lt_wordLimit_of_numel {elements n : Nat} {shape : List Nat} (h : numel shape = .ok elements)
    (pos : 0 < elements) (hn : n ∈ shape) : n < wordLimit := by
  have hprod := prod_of_numel h pos
  exact (Nat.le_of_dvd (hprod ▸ pos) (List.dvd_prod hn)).trans_lt (hprod ▸ lt_of_numel h)

/-- From all zeros on the loop visits the whole box. -/
theorem visits_box {elements : Nat} {shape : List Nat} (h : numel shape = .ok elements) (pos : 0 < elements) :
    Visits shape (List.replicate shape.length 0) (box shape) := by
  have hshape := pos_of_prod_pos (prod_of_numel h pos ▸ pos)
  have visits := visits_drop (fun _ hn => lt_wordLimit_of_numel h pos hn) (inShape_zeros hshape)
  rwa [number_zeros, List.drop_zero] at visits

/-- The walk over a shape with axes visits its whole box in order. -/
theorem walk_eq_box {elements : Nat} {shape : List Nat} (h : numel shape = .ok elements) (axes : shape ≠ []) :
    walk shape = .ok (box shape) := by
  have hprod : elements = shape.prod := (eq_of_numel h).trans (count_of_ne_nil axes)
  rw [walk, h]
  change walkFrom shape elements (List.replicate shape.length 0) = _
  rcases Nat.eq_zero_or_pos elements with rfl | hpos
  · rw [List.length_eq_zero_iff.mp ((length_box shape).trans hprod.symm)]
    rfl
  · exact (visits_box h hpos).walkFrom_eq ((length_box shape).trans hprod.symm).le

/-- A walk visits as many indices as there are elements. -/
theorem walk_eq_ok {elements : Nat} {shape : List Nat} (h : numel shape = .ok elements) :
    ∃ indices, walk shape = .ok indices ∧ indices.length = elements ∧
      ∀ index ∈ indices, inShape index shape = true := by
  rcases eq_or_ne shape [] with rfl | axes
  · cases h
    exact ⟨[], rfl, rfl, nofun⟩
  · refine ⟨box shape, walk_eq_box h axes, ?_, fun _ => mem_box.mp⟩
    rw [length_box, eq_of_numel h, count_of_ne_nil axes]

/-- The position of the element at `index`, whether or not it is a word. -/
def position : List Nat → List Nat → Nat
  | i :: index, s :: strides => i * s + position index strides
  | _, _ => 0

theorem eq_of_offsetFrom {first place : Nat} {index strides : List Nat}
    (h : offsetFrom first index strides = .ok place) : place = first + position index strides := by
  induction index generalizing first strides with
  | nil =>
    cases h
    rfl
  | cons i index ih =>
    cases strides with
    | nil =>
      cases h
      rfl
    | cons s strides =>
      rw [offsetFrom] at h
      obtain ⟨step, hstep, h⟩ := except_bind_eq_ok.mp h
      obtain ⟨next, hnext, h⟩ := except_bind_eq_ok.mp h
      obtain ⟨rfl, _⟩ := Word.mul_eq_ok.mp hstep
      obtain ⟨rfl, _⟩ := Word.add_eq_ok.mp hnext
      rw [ih h, position, Nat.add_assoc]

theorem eq_of_offset {place : Nat} {index strides : List Nat} (h : offset index strides = .ok place) :
    place = position index strides := by
  rw [eq_of_offsetFrom h, Nat.zero_add]

theorem range_mul (n m : Nat) :
    (List.range m).flatMap (fun k => (List.range n).map (· + n * k)) = List.range (n * m) := by
  induction m with
  | zero => rfl
  | succ m ih =>
    rw [List.range_succ, List.flatMap_append, ih, Nat.mul_succ, List.range_add]
    simp [Nat.add_comm]

/-- The indices of a box are numbered in their order. -/
theorem map_number_box (shape : List Nat) : (box shape).map (number · shape) = List.range shape.prod := by
  induction shape with
  | nil => rfl
  | cons n shape ih =>
    rw [box, List.map_flatMap, List.prod_cons, ← range_mul, ← ih, List.flatMap_map]
    refine List.flatMap_congr fun rest _ => ?_
    rw [List.map_map]
    rfl

/-- Along packed strides the positions are the numbers of the elements, as far apart as the first stride. -/
theorem position_of_isPackedFrom {first : Nat} {index shape strides : List Nat}
    (packed : isPackedFrom first shape strides = .ok true) (same : strides.length = shape.length)
    (inside : inShape index shape = true) : position index strides = first * number index shape := by
  induction shape generalizing first index strides with
  | nil =>
    cases index with
    | nil => rfl
    | cons i index => cases inside
  | cons n shape ih =>
    rcases strides with _ | ⟨s, strides⟩
    · cases same
    rcases index with _ | ⟨i, index⟩
    · cases inside
    obtain ⟨hi, inside⟩ := inShape_cons.mp inside
    obtain ⟨hfree, -, packed⟩ := isPackedFrom_cons.mp packed
    rw [position, number, step_of_free hfree hi, ih packed (Nat.succ.inj same) inside, Nat.mul_add,
      Nat.mul_comm i, Nat.mul_assoc]

theorem position_of_isPacked {index shape strides : List Nat} (packed : isPacked shape strides = .ok true)
    (same : strides.length = shape.length) (inside : inShape index shape = true) :
    position index strides = number index shape := by
  rw [position_of_isPackedFrom packed same inside, Nat.one_mul]

theorem position_zeros (count : Nat) (strides : List Nat) : position (List.replicate count 0) strides = 0 := by
  induction count generalizing strides with
  | zero => rfl
  | succ count ih =>
    rw [List.replicate_succ]
    cases strides with
    | nil => rfl
    | cons s strides => rw [position, ih, Nat.zero_mul]

/-- The running product is the only stride along which positions are numbers. -/
theorem isPackedFrom_of_position {first total : Nat} {shape strides : List Nat}
    (htotal : shape.foldlM Word.mul first = .ok total) (same : strides.length = shape.length)
    (pos : ∀ n ∈ shape, 0 < n)
    (h : ∀ index, inShape index shape = true → position index strides = first * number index shape) :
    isPackedFrom first shape strides = .ok true := by
  induction shape generalizing first strides with
  | nil =>
    cases List.length_eq_zero_iff.mp same
    rfl
  | cons n shape ih =>
    rcases strides with _ | ⟨s, strides⟩
    · cases same
    rw [List.foldlM_cons] at htotal
    obtain ⟨next, hnext, htotal⟩ := except_bind_eq_ok.mp htotal
    obtain ⟨rfl, hword⟩ := Word.mul_eq_ok.mp hnext
    have hn : 0 < n := pos n (by simp)
    have hshape (m : Nat) (hm : m ∈ shape) : 0 < m := pos m (by simp [hm])
    refine isPackedFrom_cons.mpr ⟨fun hone => ?_, hword, ih htotal (Nat.succ.inj same) hshape
      fun index inside => ?_⟩
    · -- the second index along the axis is one stride after the first
      have hstep := h (1 :: List.replicate shape.length 0) (inShape_cons.mpr ⟨by omega, inShape_zeros hshape⟩)
      rw [position, position_zeros, number, number_zeros] at hstep
      omega
    · have hrest := h (0 :: index) (inShape_cons.mpr ⟨hn, inside⟩)
      rw [position, number, Nat.zero_mul, Nat.zero_add, Nat.zero_add, ← Nat.mul_assoc] at hrest
      exact hrest

/-- The elements of a packed array lie in the order of their indices. -/
theorem positions_of_isPacked {shape strides : List Nat} (packed : isPacked shape strides = .ok true)
    (same : strides.length = shape.length) :
    (box shape).map (position · strides) = List.range shape.prod := by
  rw [← map_number_box]
  exact List.map_congr_left fun _ hindex => position_of_isPacked packed same (mem_box.mp hindex)

end ArrayEngine.Layout
