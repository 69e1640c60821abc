import ArrayEngine.Proofs.Layout.Columns

/-! The extent of an array is the least room that its elements need: they are all inside it, the last one is at its
end, and elements apart from each other are not more than there are positions. -/
namespace ArrayEngine.Layout

variable {shape strides : List Nat} {elements reach : Nat}

theorem inShape_last (pos : ∀ n ∈ shape, 0 < n) : inShape (shape.map (· - 1)) shape = true := by
  induction shape with
  | nil => rfl
  | cons n shape ih =>
    have hn : 0 < n := pos n (by simp)
    apply inShape_cons.mpr
    exact ⟨Nat.sub_lt hn Nat.zero_lt_one, ih fun m hm => pos m (by simp [hm])⟩

/-- The steps to the last index of every axis are those to the last element. -/
theorem offsetFrom_last (first : Nat) (shape strides : List Nat) :
    offsetFrom first (shape.map (· - 1)) strides = reachFrom first shape strides := by
  induction shape generalizing first strides with
  | nil => rfl
  | cons n shape ih =>
    cases strides with
    | nil => rfl
    | cons s strides => simp only [List.map_cons, offsetFrom, reachFrom, ih]

/-- Different positions below a bound are not more than the bound says. -/
theorem prod_le_of_nodup (nodup : ((box shape).map (position · strides)).Nodup)
    (below : ∀ index, inShape index shape = true → position index strides < reach) : shape.prod ≤ reach := by
  have hsubset : (box shape).map (position · strides) ⊆ List.range reach := by
    intro place hplace
    obtain ⟨index, hindex, rfl⟩ := List.mem_map.mp hplace
    exact List.mem_range.mpr (below index (mem_box.mp hindex))
  have hle := nodup.length_le_of_subset hsubset
  rwa [List.length_map, length_box, List.length_range] at hle

/-- An array with elements whose extent is a word: every index inside its shape has an offset before the end, one of
them has the last offset, and if no two of them share one, there is room for as many elements as there are. -/
theorem offsets_fill_extent (same : strides.length = shape.length) (hnumel : numel shape = .ok elements)
    (pos : 0 < elements) (h : extent shape strides = .ok reach) :
    0 < reach ∧
    (∀ index, inShape index shape = true → ∃ place, offset index strides = .ok place ∧ place ≤ reach - 1) ∧
    (∃ index, inShape index shape = true ∧ offset index strides = .ok (reach - 1)) ∧
    (HasDistinctOffsets shape strides → elements ≤ reach) := by
  have hreach := pos_of_extent hnumel pos h
  have hprod := prod_of_numel hnumel pos
  have hoffset (index : List Nat) (inside : inShape index shape = true) :
      ∃ place, offset index strides = .ok place ∧ place < reach :=
    offset_lt_extent h hreach inside same
  refine ⟨hreach, ?_, ⟨shape.map (· - 1), inShape_last (pos_of_prod_pos (hprod ▸ pos)), ?_⟩, ?_⟩
  · intro index inside
    obtain ⟨place, hplace, hlt⟩ := hoffset index inside
    exact ⟨place, hplace, Nat.le_sub_one_of_lt hlt⟩
  · obtain ⟨last, hlast, rfl⟩ := exists_last_of_extent hnumel pos h
    rw [offset, offsetFrom_last, hlast, Nat.add_sub_cancel_left]
  · intro distinct
    rw [hprod]
    refine prod_le_of_nodup (nodup_of_hasDistinctOffsets (fun index inside => ?_) distinct) fun index inside => ?_
    · obtain ⟨place, hplace, -⟩ := hoffset index inside
      exact ⟨place, hplace⟩
    · obtain ⟨place, hplace, hlt⟩ := hoffset index inside
      exact eq_of_offset hplace ▸ hlt

/-- Three slices far apart, along a stride close to the limit on an axis of extent 1, which moves nothing. -/
theorem offsets_fill_extent_apart :
    extent [2, 1, 3] [3, 2 ^ 64 - 1, 2 ^ 62] = .ok (2 ^ 63 + 4) ∧
    (∃ place, offset [0, 0, 2] [3, 2 ^ 64 - 1, 2 ^ 62] = .ok place ∧ place ≤ 2 ^ 63 + 3) ∧
    (∃ index, inShape index [2, 1, 3] = true ∧ offset index [3, 2 ^ 64 - 1, 2 ^ 62] = .ok (2 ^ 63 + 3)) ∧
    6 ≤ 2 ^ 63 + 4 := by
  have hextent : extent [2, 1, 3] [3, 2 ^ 64 - 1, 2 ^ 62] = .ok (2 ^ 63 + 4) := rfl
  have distinct : HasDistinctOffsets [2, 1, 3] [3, 2 ^ 64 - 1, 2 ^ 62] := hasDistinctOffsets_of_nodup (by decide)
  have same : [3, 2 ^ 64 - 1, 2 ^ 62].length = [2, 1, 3].length := rfl
  obtain ⟨-, inside, last, room⟩ := offsets_fill_extent same (rfl : numel [2, 1, 3] = .ok 6) (by decide) hextent
  rw [show 2 ^ 63 + 4 - 1 = 2 ^ 63 + 3 from rfl] at inside last
  exact ⟨hextent, inside [0, 0, 2] rfl, last, room distinct⟩

end ArrayEngine.Layout
