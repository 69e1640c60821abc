import ArrayEngine.Proofs.Layout.Exact

/-! The running products of a shape in axis order. An extent of 0 makes the number of elements 0, but not the stride
of its own axis: that is the product of the extents before it, which need not be a word. -/
namespace ArrayEngine.Layout

/-- The extents of the first axes, however many, have a product that is a word: all exact packed strides are words,
and so is the exact product of the shape. -/
def HasWordProducts (shape : List Nat) : Prop := ∀ k, (shape.take k).prod < wordLimit

variable {first : Nat} {shape other strides : List Nat}

theorem foldlM_mul_eq_ok (words : ∀ k, first * (shape.take k).prod < wordLimit) :
    shape.foldlM Word.mul first = .ok (first * shape.prod) := by
  induction shape generalizing first with
  | nil => simp [pure, Except.pure]
  | cons n shape ih =>
    have hnext : Word.mul first n = .ok (first * n) := Word.mul_eq_ok.mpr ⟨rfl, by simpa using words 1⟩
    rw [List.foldlM_cons, hnext, List.prod_cons, ← Nat.mul_assoc]
    apply ih
    intro k
    have hword := words (k + 1)
    rwa [List.take_succ_cons, List.prod_cons, ← Nat.mul_assoc] at hword

theorem product_eq_ok (words : HasWordProducts shape) : product shape = .ok shape.prod := by
  have hfold := @foldlM_mul_eq_ok 1 shape fun k => by simpa using words k
  rwa [Nat.one_mul] at hfold

theorem numel_eq_ok (words : HasWordProducts shape) : numel shape = .ok (count shape) := by
  cases shape with
  | nil => rfl
  | cons n shape => exact product_eq_ok words

/-- The stride of an axis is the product of the extents before it. -/
theorem getElem?_stridesFrom (h : stridesFrom first shape = .ok strides) {axis : Nat} (inside : axis < shape.length) :
    strides[axis]? = some (first * (shape.take axis).prod) := by
  induction shape generalizing first strides axis with
  | nil => simp at inside
  | cons n shape ih =>
    rw [stridesFrom] at h
    obtain ⟨next, hnext, h⟩ := except_bind_eq_ok.mp h
    obtain ⟨rest, hrest, hstrides⟩ := except_bind_eq_ok.mp h
    cases hstrides
    obtain ⟨rfl, -⟩ := Word.mul_eq_ok.mp hnext
    cases axis with
    | zero => simp
    | succ axis =>
      rw [List.getElem?_cons_succ, ih hrest (Nat.lt_of_succ_lt_succ inside), List.take_succ_cons, List.prod_cons,
        Nat.mul_assoc]

/-- The running products behind packed strides are words, the last one too, which is no stride. -/
theorem lt_of_stridesFrom (h : stridesFrom first shape = .ok strides) (hfirst : first < wordLimit) (k : Nat) :
    first * (shape.take k).prod < wordLimit := by
  induction shape generalizing first strides k with
  | nil => simpa using hfirst
  | cons n shape ih =>
    cases k with
    | zero => simpa using hfirst
    | succ k =>
      rw [stridesFrom] at h
      obtain ⟨next, hnext, h⟩ := except_bind_eq_ok.mp h
      obtain ⟨rest, hrest, -⟩ := except_bind_eq_ok.mp h
      obtain ⟨rfl, hword⟩ := Word.mul_eq_ok.mp hnext
      rw [List.take_succ_cons, List.prod_cons, ← Nat.mul_assoc]
      exact ih hrest hword k

theorem hasWordProducts_of_packedStrides (h : packedStrides shape = .ok strides) : HasWordProducts shape := by
  intro k
  have hword := lt_of_stridesFrom h (by decide) k
  rwa [Nat.one_mul] at hword

/-- Without an extent of 0 the product of all extents is the largest one. -/
theorem hasWordProducts_of_pos (pos : 0 < shape.prod) (word : shape.prod < wordLimit) : HasWordProducts shape := by
  intro k
  have hle : (shape.take k).prod ≤ shape.prod := (List.take_sublist k shape).prod_le_prod' (pos_of_prod_pos pos)
  exact hle.trans_lt word

/-- Some first extents have a product of 0, or they are among the extents that are not 0. -/
theorem prod_take_le (shape : List Nat) (k : Nat) : (shape.take k).prod ≤ (shape.filter (· ≠ 0)).prod := by
  by_cases zero : 0 ∈ shape.take k
  · rw [List.prod_eq_zero zero]
    exact Nat.zero_le _
  · have hkept : (shape.take k).filter (· ≠ 0) = shape.take k := by
      apply List.filter_eq_self.mpr
      intro n hn
      exact decide_eq_true fun h => zero (h ▸ hn)
    have hsublist : (shape.take k).Sublist (shape.filter (· ≠ 0)) := by
      rw [← hkept]
      exact (List.take_sublist k shape).filter _
    apply hsublist.prod_le_prod'
    intro n hn
    exact Nat.one_le_iff_ne_zero.mpr (of_decide_eq_true (List.mem_filter.mp hn).2)

/-- In whatever order the extents stand, it is enough that those that are not 0 have a product that is a word. -/
theorem hasWordProducts_of_perm (perm : other.Perm shape) (word : (shape.filter (· ≠ 0)).prod < wordLimit) :
    HasWordProducts other := by
  intro k
  calc (other.take k).prod ≤ (other.filter (· ≠ 0)).prod := prod_take_le other k
    _ = (shape.filter (· ≠ 0)).prod := (perm.filter _).prod_eq
    _ < wordLimit := word

theorem count_perm (perm : other.Perm shape) : count other = count shape := by
  rcases eq_or_ne shape [] with rfl | axes
  · rw [perm.eq_nil]
  · have hother : other ≠ [] := fun h => axes (h ▸ perm).symm.eq_nil
    rw [count_of_ne_nil hother, count_of_ne_nil axes, perm.prod_eq]

/-- An array along packed strides reaches as far as it has elements, even if there are none. -/
theorem extent_eq_numel {elements : Nat} (hstrides : packedStrides shape = .ok strides)
    (hnumel : numel shape = .ok elements) : extent shape strides = .ok elements := by
  rcases Nat.eq_zero_or_pos elements with rfl | pos
  · rw [extent, hnumel]
    rfl
  · exact extent_eq_of_packedStrides hstrides hnumel pos

/-- If the product and the packed strides of a shape are words, nothing overflows on the way to them, to whether
packed strides are packed or to how far they reach, and every order of the extents of which this holds has as many
elements. No other shape has packed strides. All orders of some extents are such shapes if the extents that are not 0
have a product that is a word. -/
theorem counts_of_word_products :
    (∀ shape, HasWordProducts shape → numel shape = .ok (count shape) ∧
      (∃ strides, packedStrides shape = .ok strides ∧
        (∀ axis < shape.length, strides[axis]? = some (shape.take axis).prod) ∧
        isPacked shape strides = .ok true ∧ extent shape strides = .ok (count shape)) ∧
      ∀ other, other.Perm shape → HasWordProducts other → numel other = numel shape) ∧
    (∀ shape strides, packedStrides shape = .ok strides → HasWordProducts shape) ∧
    ∀ shape other, other.Perm shape → (shape.filter (· ≠ 0)).prod < wordLimit → HasWordProducts other := by
  refine ⟨?_, fun _ _ => hasWordProducts_of_packedStrides, fun _ _ => hasWordProducts_of_perm⟩
  intro shape words
  have hnumel := numel_eq_ok words
  obtain ⟨strides, hstrides⟩ := packedStrides_eq_ok hnumel
  refine ⟨hnumel, ⟨strides, hstrides, ?_, isPacked_of_packedStrides hstrides, extent_eq_numel hstrides hnumel⟩, ?_⟩
  · intro axis inside
    rw [getElem?_stridesFrom hstrides inside, Nat.one_mul]
  · intro other perm hother
    rw [numel_eq_ok hother, hnumel, count_perm perm]

/-- No elements in either order, and a stride just below the limit in the second one. -/
theorem counts_of_word_products_wide : HasWordProducts [3, 0, 2 ^ 62] ∧ HasWordProducts [2 ^ 62, 3, 0] ∧
    numel [2 ^ 62, 3, 0] = numel [3, 0, 2 ^ 62] ∧
    ∃ strides, packedStrides [2 ^ 62, 3, 0] = .ok strides ∧ strides[2]? = some (3 * 2 ^ 62) ∧
      extent [2 ^ 62, 3, 0] strides = .ok 0 := by
  obtain ⟨counts, -, orders⟩ := counts_of_word_products
  have perm : [2 ^ 62, 3, 0].Perm [3, 0, 2 ^ 62] := by decide
  have first := orders [3, 0, 2 ^ 62] _ (.refl _) (by decide)
  have second := orders [3, 0, 2 ^ 62] _ perm (by decide)
  obtain ⟨-, -, same⟩ := counts [3, 0, 2 ^ 62] first
  obtain ⟨-, ⟨strides, hstrides, places, -, hextent⟩, -⟩ := counts [2 ^ 62, 3, 0] second
  exact ⟨first, second, same _ perm second, strides, hstrides, places 2 (by decide), hextent⟩

/-- No elements, as the last extent is 0, but two long axes before it: its stride would be the first number that is no
word. With the extents in another order there are strides, and the number of elements can be told. -/
theorem stride_before_zero_is_no_word : [2 ^ 33, 2 ^ 31, 0].prod = 0 ∧ (∀ n ∈ [2 ^ 33, 2 ^ 31, 0], n < wordLimit) ∧
    ([2 ^ 33, 2 ^ 31, 0].take 2).prod = wordLimit ∧
    packedStrides [2 ^ 33, 2 ^ 31, 0] = .error .multiplyOverflow ∧
    numel [2 ^ 33, 2 ^ 31, 0] = .error .multiplyOverflow ∧
    [0, 2 ^ 33, 2 ^ 31].Perm [2 ^ 33, 2 ^ 31, 0] ∧ numel [0, 2 ^ 33, 2 ^ 31] = .ok 0 ∧
    packedStrides [0, 2 ^ 33, 2 ^ 31] = .ok [1, 0, 0] :=
  ⟨rfl, by decide, rfl, rfl, rfl, by decide, rfl, rfl⟩

end ArrayEngine.Layout
