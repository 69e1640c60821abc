import ArrayEngine.Proofs.Layout.Box

/-! The order of the indices of a shape. The loop over them ends by itself and takes them in column-major order,
in which packed strides number their elements. -/
namespace ArrayEngine.Layout

/-- The slowest axis along which two indices differ has the first of them before the second. -/
def Before (index other : List Nat) : Prop :=
  ∃ (axis i j : Nat), index[axis]? = some i ∧ other[axis]? = some j ∧ i < j ∧
    ∀ slower > axis, index[slower]? = other[slower]?

variable {index other shape strides : List Nat} {elements k : Nat}

theorem before_of_lt {i j : Nat} (h : i < j) (index : List Nat) : Before (i :: index) (j :: index) := by
  refine ⟨0, i, j, rfl, rfl, h, fun slower hslower => ?_⟩
  obtain ⟨slower, rfl⟩ := Nat.exists_eq_succ_of_ne_zero (Nat.ne_of_gt hslower)
  rfl

theorem Before.cons (h : Before index other) (i j : Nat) : Before (i :: index) (j :: other) := by
  obtain ⟨axis, least, most, hleast, hmost, hlt, same⟩ := h
  refine ⟨axis + 1, least, most, hleast, hmost, hlt, fun slower hslower => ?_⟩
  obtain ⟨slower, rfl⟩ := Nat.exists_eq_succ_of_ne_zero (Nat.ne_of_gt (Nat.zero_lt_of_lt hslower))
  exact same slower (Nat.lt_of_succ_lt_succ hslower)

/-- The indices of a box are in this order. -/
theorem pairwise_box (shape : List Nat) : (box shape).Pairwise Before := by
  induction shape with
  | nil => exact List.pairwise_singleton _ _
  | cons n shape ih =>
    rw [box, List.pairwise_flatMap]
    refine ⟨fun rest _ => ?_, ih.imp fun {rest later} before => ?_⟩
    · rw [List.pairwise_map]
      exact List.pairwise_lt_range.imp fun hlt => before_of_lt hlt rest
    · intro index hindex other hother
      obtain ⟨i, -, rfl⟩ := List.mem_map.mp hindex
      obtain ⟨j, -, rfl⟩ := List.mem_map.mp hother
      exact before.cons i j

/-- An index stands at its own number and nowhere else. -/
theorem getElem?_box_iff : (box shape)[k]? = some index ↔ inShape index shape = true ∧ number index shape = k := by
  constructor
  · intro h
    refine ⟨mem_box.mp (List.mem_of_getElem? h), ?_⟩
    have hnumber : ((box shape).map (number · shape))[k]? = some (number index shape) := by
      rw [List.getElem?_map, h, Option.map_some]
    rw [map_number_box] at hnumber
    obtain ⟨_, hat⟩ := List.getElem?_eq_some_iff.mp hnumber
    exact hat.symm.trans (List.getElem_range _)
  · rintro ⟨inside, rfl⟩
    exact getElem?_box inside

theorem nodup_box (shape : List Nat) : (box shape).Nodup :=
  .of_map (number · shape) (map_number_box shape ▸ List.nodup_range)

/-- The offset of an index of a packed array is its number. -/
theorem offset_of_isPacked (packed : isPacked shape strides = .ok true) (same : strides.length = shape.length)
    (hnumel : numel shape = .ok elements) (pos : 0 < elements) (inside : inShape index shape = true) :
    offset index strides = .ok (number index shape) := by
  obtain ⟨place, hplace, -⟩ :=
    offset_lt_extent (extent_eq_of_isPacked packed same hnumel pos) pos inside same
  rw [hplace, eq_of_offset hplace, position_of_isPacked packed same inside]

/-- An array with elements is packed if its indices have their numbers as offsets, and only then. -/
theorem isPacked_iff (same : strides.length = shape.length) (hnumel : numel shape = .ok elements)
    (pos : 0 < elements) : isPacked shape strides = .ok true ↔
      ∀ index, inShape index shape = true → offset index strides = .ok (number index shape) := by
  refine ⟨fun packed index inside => offset_of_isPacked packed same hnumel pos inside, fun h => ?_⟩
  have hprod := prod_of_numel hnumel pos
  have htotal : shape.foldlM Word.mul 1 = .ok elements := by
    cases shape with
    | nil => exact absurd rfl (ne_nil_of_numel hnumel pos)
    | cons n shape => exact hnumel
  refine isPackedFrom_of_position htotal same (pos_of_prod_pos (hprod ▸ pos)) fun index inside => ?_
  rw [← eq_of_offset (h index inside), Nat.one_mul]

/-- An array with elements is packed if its indices have the offsets that packed strides give them, and only
then. -/
theorem isPacked_iff_offsets {packed : List Nat} (hpacked : packedStrides shape = .ok packed)
    (same : strides.length = shape.length) (hnumel : numel shape = .ok elements) (pos : 0 < elements) :
    isPacked shape strides = .ok true ↔ ∀ index, inShape index shape = true →
      ∃ place, offset index strides = .ok place ∧ offset index packed = .ok place := by
  rw [isPacked_iff same hnumel pos]
  refine forall₂_congr fun index inside => ?_
  have hnumber : offset index packed = .ok (number index shape) :=
    offset_of_isPacked (isPacked_of_packedStrides hpacked) (length_stridesFrom hpacked) hnumel pos inside
  refine ⟨fun h => ⟨_, h, hnumber⟩, ?_⟩
  rintro ⟨place, hplace, hsame⟩
  cases hsame.symm.trans hnumber
  exact hplace

/-- Strides are the same along all axes but those of extent 1. -/
def Agree (shape strides packed : List Nat) : Prop :=
  ∀ (axis n : Nat), shape[axis]? = some n → n ≠ 1 → strides[axis]? = packed[axis]?

theorem agree_cons {n s t : Nat} {packed : List Nat} :
    Agree (n :: shape) (s :: strides) (t :: packed) ↔ (n ≠ 1 → s = t) ∧ Agree shape strides packed := by
  constructor
  · intro agree
    exact ⟨fun wide => Option.some.inj (agree 0 n rfl wide), fun axis => agree (axis + 1)⟩
  · rintro ⟨first, rest⟩ (_ | axis) m hm wide
    · cases hm
      exact congrArg some (first wide)
    · exact rest axis m hm wide

/-- It can be told of any strides whether they are packed, which is whether they agree with packed ones. -/
theorem isPackedFrom_iff_agree {first : Nat} {packed : List Nat} (hpacked : stridesFrom first shape = .ok packed)
    (same : strides.length = shape.length) :
    ∃ decided, isPackedFrom first shape strides = .ok decided ∧ (decided = true ↔ Agree shape strides packed) := by
  induction shape generalizing first strides packed with
  | nil =>
    cases List.length_eq_zero_iff.mp same
    exact ⟨true, rfl, iff_of_true rfl fun axis n h => by simp at h⟩
  | cons n shape ih =>
    rcases strides with _ | ⟨s, strides⟩
    · cases same
    rw [stridesFrom] at hpacked
    obtain ⟨next, hnext, h⟩ := except_bind_eq_ok.mp hpacked
    obtain ⟨rest, hrest, hlist⟩ := except_bind_eq_ok.mp h
    cases hlist
    rw [isPackedFrom, agree_cons]
    by_cases differs : n ≠ 1 ∧ s ≠ first
    · rw [if_pos differs]
      exact ⟨false, rfl, iff_of_false Bool.false_ne_true fun agree => differs.2 (agree.1 differs.1)⟩
    · rw [if_neg differs]
      obtain ⟨decided, hdecided, hiff⟩ := ih hrest (Nat.succ.inj same)
      refine ⟨decided, except_bind_eq_ok.mpr ⟨next, hnext, hdecided⟩, ?_⟩
      rw [hiff, iff_and_self]
      exact fun _ wide => Decidable.not_not.mp fun h => differs ⟨wide, h⟩

/-- The step from an index: there is a next one, whose number is the next one, or all come to an end. -/
theorem next_of_number (small : ∀ n ∈ shape, n < wordLimit) (inside : inShape index shape = true) :
    (number index shape + 1 < shape.prod → ∃ following, next index shape = .ok (true, following) ∧
      inShape following shape = true ∧ number following shape = number index shape + 1) ∧
    (number index shape + 1 = shape.prod →
      next index shape = .ok (false, List.replicate shape.length 0)) := by
  obtain ⟨more, following, hnext, hinside, hmore, hend⟩ := next_eq_ok small inside
  cases more with
  | true =>
    have hlt := number_lt hinside
    rw [hmore rfl] at hlt
    exact ⟨fun _ => ⟨following, hnext, hinside, hmore rfl⟩, fun hlast => absurd hlast (Nat.ne_of_lt hlt)⟩
  | false =>
    rw [eq_zeros_of_next inside hnext] at hnext
    exact ⟨fun hlt => absurd (hend rfl) (Nat.ne_of_lt hlt), fun _ => hnext⟩

/-- A walk over a shape with axes is the whole loop, if there are elements. It visits as many indices as there are
elements, those inside the shape, each one once and in column-major order, and each one at the place that packed
strides give its element. A step from one of them is to the next place, and one from the last is to all zeros. -/
theorem walk_in_order (hnumel : numel shape = .ok elements) (axes : shape ≠ []) :
    ∃ indices strides, walk shape = .ok indices ∧ packedStrides shape = .ok strides ∧
      indices.length = elements ∧
      (0 < elements → ∀ visited, Visits shape (List.replicate shape.length 0) visited ↔ visited = indices) ∧
      (∀ (k : Nat) index, indices[k]? = some index ↔
        inShape index shape = true ∧ offset index strides = .ok k) ∧
      (∀ index, index ∈ indices ↔ inShape index shape = true) ∧ indices.Nodup ∧ indices.Pairwise Before ∧
      ∀ index, inShape index shape = true → ∃ k < elements, offset index strides = .ok k ∧
        (k + 1 < elements → ∃ following, next index shape = .ok (true, following) ∧
          inShape following shape = true ∧ offset following strides = .ok (k + 1)) ∧
        (k + 1 = elements → next index shape = .ok (false, List.replicate shape.length 0)) := by
  obtain ⟨strides, hstrides⟩ := packedStrides_eq_ok hnumel
  have hprod : elements = shape.prod := (eq_of_numel hnumel).trans (count_of_ne_nil axes)
  have pos {index : List Nat} (inside : inShape index shape = true) : 0 < elements :=
    hprod ▸ Nat.zero_lt_of_lt (number_lt inside)
  have hoffset {index : List Nat} (inside : inShape index shape = true) :
      offset index strides = .ok (number index shape) :=
    offset_of_isPacked (isPacked_of_packedStrides hstrides) (length_stridesFrom hstrides) hnumel (pos inside) inside
  refine ⟨box shape, strides, walk_eq_box hnumel axes, hstrides, (length_box shape).trans hprod.symm,
    fun hpos visited => ?_, fun k index => ?_, fun _ => mem_box, nodup_box shape, pairwise_box shape,
    fun index inside => ?_⟩
  · have visits := visits_box hnumel hpos
    exact ⟨fun again => visits.unique again, fun h => h ▸ visits⟩
  · rw [getElem?_box_iff]
    refine and_congr_right fun inside => ?_
    rw [hoffset inside, Except.ok.injEq]
  · obtain ⟨hmore, hlast⟩ := next_of_number (fun _ hn => lt_wordLimit_of_numel hnumel (pos inside) hn) inside
    refine ⟨_, hprod ▸ number_lt inside, hoffset inside, fun hlt => ?_, fun hend => hlast (hend.trans hprod)⟩
    obtain ⟨following, hnext, hinside, hnumber⟩ := hmore (hprod ▸ hlt)
    exact ⟨following, hnext, hinside, hnumber ▸ hoffset hinside⟩

/-- The walk over a shape with an axis of extent 1 in the middle. -/
theorem walk_in_order_flat : ∃ indices,
    walk [2, 1, 3] = .ok indices ∧ indices.length = 6 ∧ indices[3]? = some [1, 0, 1] ∧
      Visits [2, 1, 3] [0, 0, 0] indices ∧ next [1, 0, 1] [2, 1, 3] = .ok (true, [0, 0, 2]) := by
  have hnumel : numel [2, 1, 3] = .ok 6 := rfl
  obtain ⟨indices, strides, hwalk, hstrides, hlength, visits, hplaces, -, -, -, hsteps⟩ :=
    walk_in_order hnumel (by decide)
  cases hstrides
  refine ⟨indices, hwalk, hlength, (hplaces 3 _).mpr ⟨rfl, rfl⟩, (visits (by decide) _).mpr rfl, ?_⟩
  obtain ⟨k, -, hk, hmore, -⟩ := hsteps [1, 0, 1] rfl
  cases hk
  obtain ⟨following, hnext, hinside, hoffset⟩ := hmore (by decide)
  have hplace := (hplaces 4 following).mpr ⟨hinside, hoffset⟩
  rw [(hplaces 4 [0, 0, 2]).mpr ⟨rfl, rfl⟩] at hplace
  rw [hnext, Option.some.inj hplace]

end ArrayEngine.Layout
