import ArrayEngine.Layout
import Mathlib.Algebra.BigOperators.Ring.List
import Mathlib.Algebra.Order.BigOperators.Group.List
import Mathlib.Algebra.Ring.Nat

/-! What the word arithmetic of layouts computes where no check fails. -/
namespace ArrayEngine

theorem except_bind_eq_ok {ε α β : Type} {x : Except ε α} {f : α → Except ε β} {b : β} :
    (x >>= f) = .ok b ↔ ∃ a, x = .ok a ∧ f a = .ok b := by
  cases x <;> simp [bind, Except.bind]

theorem except_ok_bind {ε α β : Type} (a : α) (f : α → Except ε β) : (Except.ok a >>= f) = f a := rfl

theorem mapM_congr {ε α β : Type} {f g : α → Except ε β} {list : List α}
    (h : ∀ a ∈ list, f a = g a) : list.mapM f = list.mapM g := by
  induction list with
  | nil => rfl
  | cons a list ih =>
    rw [List.mapM_cons, List.mapM_cons, h a (by simp), ih fun b hb => h b (by simp [hb])]

theorem getElem?_of_mapM {ε α β : Type} {f : α → Except ε β} {list : List α} {results : List β}
    (h : list.mapM f = .ok results) {i : Nat} {a : α} (ha : list[i]? = some a) :
    ∃ b, f a = .ok b ∧ results[i]? = some b := by
  induction list generalizing results i with
  | nil => cases ha
  | cons first list ih =>
    rw [List.mapM_cons] at h
    obtain ⟨b, hb, h⟩ := except_bind_eq_ok.mp h
    obtain ⟨rest, hrest, h⟩ := except_bind_eq_ok.mp h
    cases h
    cases i with
    | zero =>
      cases ha
      exact ⟨b, hb, rfl⟩
    | succ i => exact ih hrest ha

theorem mapM_eq_ok {ε α β : Type} {f : α → Except ε β} {kept : β → Prop} {list : List α}
    (h : ∀ a ∈ list, ∃ b, f a = .ok b ∧ kept b) :
    ∃ results, list.mapM f = .ok results ∧ results.length = list.length ∧ ∀ b ∈ results, kept b := by
  induction list with
  | nil => exact ⟨[], rfl, rfl, nofun⟩
  | cons a list ih =>
    obtain ⟨b, hb, hkept⟩ := h a (by simp)
    obtain ⟨rest, hrest, hlength, all⟩ := ih fun other hother => h other (by simp [hother])
    refine ⟨b :: rest, ?_, by simp [hlength], by simpa [hkept] using all⟩
    rw [List.mapM_cons, hb, hrest]
    rfl

/-- Where an element of a block stands, if all blocks are of one length. -/
theorem getElem?_flatMap {α β : Type} {f : α → List β} {n : Nat} (h : ∀ a, (f a).length = n) (list : List α)
    {i : Nat} (hi : i < n) (k : Nat) : (list.flatMap f)[i + n * k]? = list[k]?.bind fun a => (f a)[i]? := by
  induction list generalizing k with
  | nil => simp
  | cons a list ih =>
    rw [List.flatMap_cons, List.getElem?_append, h a]
    cases k with
    | zero => simp [hi]
    | succ k =>
      have hsplit : i + n * (k + 1) - n = i + n * k := by
        rw [Nat.mul_succ]
        omega
      rw [if_neg (by rw [Nat.mul_succ]; omega), hsplit, ih, List.getElem?_cons_succ]

namespace Layout

/-- The number of elements of a shape. Without axes there are none. -/
def count : List Nat → Nat
  | [] => 0
  | shape => shape.prod

theorem count_of_ne_nil {shape : List Nat} (h : shape ≠ []) : count shape = shape.prod := by
  cases shape with
  | nil => exact absurd rfl h
  | cons n shape => rfl

theorem eq_of_foldlM_mul {first count : Nat} {shape : List Nat}
    (h : shape.foldlM Word.mul first = .ok count) : count = first * shape.prod := by
  induction shape generalizing first with
  | nil =>
    cases h
    simp
  | cons n shape ih =>
    rw [List.foldlM_cons] at h
    obtain ⟨next, hnext, hrest⟩ := except_bind_eq_ok.mp h
    obtain ⟨rfl, _⟩ := Word.mul_eq_ok.mp hnext
    rw [ih hrest, List.prod_cons, Nat.mul_assoc]

/-- Smaller factors have a product that is a word if larger ones have. -/
theorem foldlM_mul_of_le {first least count : Nat} {shape less : List Nat}
    (h : shape.foldlM Word.mul first = .ok count) (hfirst : least ≤ first)
    (le : List.Forall₂ (· ≤ ·) less shape) :
    less.foldlM Word.mul least = .ok (least * less.prod) := by
  induction le generalizing first least with
  | nil => simp [pure, Except.pure]
  | @cons m n less shape hmn _ ih =>
    rw [List.foldlM_cons] at h ⊢
    obtain ⟨next, hnext, hrest⟩ := except_bind_eq_ok.mp h
    obtain ⟨rfl, hword⟩ := Word.mul_eq_ok.mp hnext
    have hle : least * m ≤ first * n := Nat.mul_le_mul hfirst hmn
    have hmul : Word.mul least m = .ok (least * m) := Word.mul_eq_ok.mpr ⟨rfl, by omega⟩
    rw [hmul, List.prod_cons, ← Nat.mul_assoc]
    exact ih hrest hle

theorem eq_of_product {count : Nat} {shape : List Nat} (h : product shape = .ok count) :
    count = shape.prod := by
  rw [eq_of_foldlM_mul h, Nat.one_mul]

theorem eq_of_numel {elements : Nat} {shape : List Nat} (h : numel shape = .ok elements) :
    elements = count shape := by
  cases shape with
  | nil =>
    cases h
    rfl
  | cons n shape => exact eq_of_product h

theorem ne_nil_of_numel {elements : Nat} {shape : List Nat} (h : numel shape = .ok elements)
    (pos : 0 < elements) : shape ≠ [] := by
  rintro rfl
  cases h
  exact Nat.lt_irrefl 0 pos

theorem prod_of_numel {elements : Nat} {shape : List Nat} (h : numel shape = .ok elements)
    (pos : 0 < elements) : elements = shape.prod :=
  (eq_of_numel h).trans (count_of_ne_nil (ne_nil_of_numel h pos))

theorem lt_of_foldlM_mul {first count : Nat} {shape : List Nat}
    (h : shape.foldlM Word.mul first = .ok count) (hfirst : first < wordLimit) : count < wordLimit := by
  induction shape generalizing first with
  | nil =>
    cases h
    exact hfirst
  | cons n shape ih =>
    rw [List.foldlM_cons] at h
    obtain ⟨next, hnext, h⟩ := except_bind_eq_ok.mp h
    exact ih h (Word.mul_eq_ok.mp hnext).2

theorem lt_of_numel {elements : Nat} {shape : List Nat} (h : numel shape = .ok elements) :
    elements < wordLimit := by
  cases shape with
  | nil =>
    cases h
    decide
  | cons n shape => exact lt_of_foldlM_mul h (by decide)

theorem numel_of_le {elements : Nat} {shape less : List Nat} (h : numel shape = .ok elements)
    (le : List.Forall₂ (· ≤ ·) less shape) : numel less = .ok (count less) := by
  cases le with
  | nil => rfl
  | cons hmn le =>
    have := foldlM_mul_of_le h (Nat.le_refl 1) (.cons hmn le)
    rwa [Nat.one_mul] at this

/-- Without elements in a shape there are none in a smaller one. -/
theorem numel_eq_zero_of_le {shape less : List Nat} (h : numel shape = .ok 0)
    (le : List.Forall₂ (· ≤ ·) less shape) : numel less = .ok 0 := by
  have hless := numel_of_le h le
  have hprod := le.prod_le_prod'
  cases le with
  | nil => rfl
  | cons hmn le =>
    have hzero := eq_of_numel h
    rw [count_of_ne_nil (by simp)] at hzero hless
    rw [← hzero] at hprod
    rw [hless, Nat.le_zero.mp hprod]

/-- An axis of a packed array: its stride is the running product, unless its extent is 1. -/
theorem isPackedFrom_cons {first n s : Nat} {shape strides : List Nat} :
    isPackedFrom first (n :: shape) (s :: strides) = .ok true ↔
      (n ≠ 1 → s = first) ∧ first * n < wordLimit ∧ isPackedFrom (first * n) shape strides = .ok true := by
  rw [isPackedFrom]
  split
  · rename_i differs
    exact ⟨nofun, fun h => absurd (h.1 differs.1) differs.2⟩
  · rename_i hfree
    rw [not_and, not_not] at hfree
    rw [except_bind_eq_ok]
    constructor
    · rintro ⟨next, hnext, packed⟩
      obtain ⟨rfl, hword⟩ := Word.mul_eq_ok.mp hnext
      exact ⟨hfree, hword, packed⟩
    · rintro ⟨-, hword, packed⟩
      exact ⟨first * n, Word.mul_eq_ok.mpr ⟨rfl, hword⟩, packed⟩

/-- The stride of an axis of extent 1 is free, but no step is made along it. -/
theorem step_of_free {first n s i : Nat} (hfree : n ≠ 1 → s = first) (hi : i < n) : i * s = i * first := by
  by_cases hone : n = 1
  · obtain rfl : i = 0 := by omega
    rw [Nat.zero_mul, Nat.zero_mul]
  · rw [hfree hone]

theorem isPackedFrom_stridesFrom {first : Nat} {shape strides : List Nat}
    (h : stridesFrom first shape = .ok strides) : isPackedFrom first shape strides = .ok true := by
  induction shape generalizing first strides with
  | nil =>
    cases h
    rfl
  | cons n shape ih =>
    rw [stridesFrom] at h
    obtain ⟨next, hnext, h⟩ := except_bind_eq_ok.mp h
    obtain ⟨rest, hrest, h⟩ := except_bind_eq_ok.mp h
    cases h
    obtain ⟨rfl, hword⟩ := Word.mul_eq_ok.mp hnext
    exact isPackedFrom_cons.mpr ⟨fun _ => rfl, hword, ih hrest⟩

/-- Packed strides are packed. -/
theorem isPacked_of_packedStrides {shape strides : List Nat}
    (h : packedStrides shape = .ok strides) : isPacked shape strides = .ok true :=
  isPackedFrom_stridesFrom h

theorem isPackedFrom_eq_ok {first count : Nat} {shape : List Nat}
    (h : shape.foldlM Word.mul first = .ok count) (strides : List Nat) :
    ∃ packed, isPackedFrom first shape strides = .ok packed := by
  induction shape generalizing first strides with
  | nil => exact ⟨true, rfl⟩
  | cons n shape ih =>
    rw [List.foldlM_cons] at h
    obtain ⟨next, hnext, h⟩ := except_bind_eq_ok.mp h
    rcases strides with _ | ⟨s, strides⟩
    · exact ⟨true, rfl⟩
    rw [isPackedFrom]
    split
    · exact ⟨false, rfl⟩
    · rw [hnext]
      exact ih h strides

/-- It can be told whether an array is packed if its elements can be counted. -/
theorem isPacked_eq_ok {elements : Nat} {shape : List Nat} (h : numel shape = .ok elements)
    (strides : List Nat) : ∃ packed, isPacked shape strides = .ok packed := by
  cases shape with
  | nil => exact ⟨true, rfl⟩
  | cons n shape => exact isPackedFrom_eq_ok h strides

theorem length_stridesFrom {first : Nat} {shape strides : List Nat}
    (h : stridesFrom first shape = .ok strides) : strides.length = shape.length := by
  induction shape generalizing first strides with
  | nil =>
    cases h
    rfl
  | cons n shape ih =>
    rw [stridesFrom] at h
    obtain ⟨next, _, h⟩ := except_bind_eq_ok.mp h
    obtain ⟨rest, hrest, h⟩ := except_bind_eq_ok.mp h
    cases h
    rw [List.length_cons, List.length_cons, ih hrest]

theorem pos_of_prod_pos {shape : List Nat} (h : 0 < shape.prod) : ∀ n ∈ shape, 0 < n := by
  intro n hn
  rcases Nat.eq_zero_or_pos n with rfl | hpos
  · rw [List.prod_eq_zero hn] at h
    exact absurd h (Nat.lt_irrefl 0)
  · exact hpos

/-- The extent of an array with elements ends with the last one. -/
theorem exists_last_of_extent {elements reach : Nat} {shape strides : List Nat}
    (hnumel : numel shape = .ok elements) (pos : 0 < elements) (h : extent shape strides = .ok reach) :
    ∃ last, reachFrom 0 shape strides = .ok last ∧ reach = 1 + last := by
  rw [extent, hnumel] at h
  change (if elements = 0 then Except.ok 0 else _) = _ at h
  rw [if_neg (Nat.ne_of_gt pos)] at h
  obtain ⟨last, hlast, h⟩ := except_bind_eq_ok.mp h
  exact ⟨last, hlast, (Word.add_eq_ok.mp h).1.symm⟩

/-- The last element of a packed array is as far from the first one as there are elements between them. -/
theorem reachFrom_of_isPackedFrom {base first : Nat} {shape strides : List Nat}
    (packed : isPackedFrom first shape strides = .ok true) (same : strides.length = shape.length)
    (pos : ∀ n ∈ shape, 0 < n) (hbase : base < first) :
    ∃ last, reachFrom base shape strides = .ok last ∧ last + first = base + first * shape.prod := by
  induction shape generalizing base first strides with
  | nil =>
    cases List.length_eq_zero_iff.mp same
    exact ⟨base, rfl, by simp⟩
  | cons n shape ih =>
    rcases strides with _ | ⟨s, strides⟩
    · cases same
    obtain ⟨hfree, hword, packed⟩ := isPackedFrom_cons.mp packed
    have hn : 0 < n := pos n (by simp)
    have hsteps : (n - 1) * s = (n - 1) * first := step_of_free hfree (Nat.sub_lt hn Nat.zero_lt_one)
    -- the last position so far stays before the next stride
    have hsplit : (n - 1) * first + first = first * n := by
      rw [← Nat.succ_mul, Nat.succ_eq_add_one, Nat.sub_add_cancel hn, Nat.mul_comm]
    obtain ⟨last, hlast, hreach⟩ := ih packed (Nat.succ.inj same) (fun m hm => pos m (by simp [hm]))
      (show base + (n - 1) * s < first * n by omega)
    refine ⟨last, ?_, ?_⟩
    · rw [reachFrom, Word.mul_eq_ok.mpr ⟨rfl, by omega⟩]
      change (Word.add base ((n - 1) * s) >>= fun next => reachFrom next shape strides) = _
      rw [Word.add_eq_ok.mpr ⟨rfl, by omega⟩]
      exact hlast
    · rw [List.prod_cons, ← Nat.mul_assoc]
      omega

/-- The elements of a packed array reach as far as there are elements. -/
theorem extent_eq_of_isPacked {elements : Nat} {shape strides : List Nat}
    (packed : isPacked shape strides = .ok true) (same : strides.length = shape.length)
    (hnumel : numel shape = .ok elements) (pos : 0 < elements) : extent shape strides = .ok elements := by
  have hcount := prod_of_numel hnumel pos
  have hshape := pos_of_prod_pos (hcount ▸ pos)
  obtain ⟨last, hlast, hreach⟩ := reachFrom_of_isPackedFrom packed same hshape Nat.zero_lt_one
  have hword := lt_of_numel hnumel
  rw [extent, hnumel]
  change (if elements = 0 then Except.ok 0 else _) = _
  rw [if_neg (Nat.ne_of_gt pos), hlast]
  exact Word.add_eq_ok.mpr ⟨by omega, hword⟩

/-- Along packed strides an array reaches as far as it has elements. -/
theorem extent_eq_of_packedStrides {elements : Nat} {shape strides : List Nat}
    (hstrides : packedStrides shape = .ok strides) (hnumel : numel shape = .ok elements) (pos : 0 < elements) :
    extent shape strides = .ok elements :=
  extent_eq_of_isPacked (isPacked_of_packedStrides hstrides) (length_stridesFrom hstrides) hnumel pos

theorem stridesFrom_eq_ok {first count : Nat} {shape : List Nat} (h : shape.foldlM Word.mul first = .ok count) :
    ∃ strides, stridesFrom first shape = .ok strides := by
  induction shape generalizing first with
  | nil => exact ⟨[], rfl⟩
  | cons n shape ih =>
    rw [List.foldlM_cons] at h
    obtain ⟨next, hnext, h⟩ := except_bind_eq_ok.mp h
    obtain ⟨rest, hrest⟩ := ih h
    refine ⟨first :: rest, ?_⟩
    rw [stridesFrom, hnext]
    change (stridesFrom next shape >>= fun rest => Except.ok (first :: rest)) = _
    rw [hrest]
    rfl

/-- A shape has packed strides if its elements can be counted. -/
theorem packedStrides_eq_ok {elements : Nat} {shape : List Nat} (h : numel shape = .ok elements) :
    ∃ strides, packedStrides shape = .ok strides := by
  cases shape with
  | nil => exact ⟨[], rfl⟩
  | cons n shape => exact stridesFrom_eq_ok h

/-- An array with elements has an extent. -/
theorem pos_of_extent {elements reach : Nat} {shape strides : List Nat}
    (hnumel : numel shape = .ok elements) (pos : 0 < elements) (h : extent shape strides = .ok reach) :
    0 < reach := by
  obtain ⟨last, _, rfl⟩ := exists_last_of_extent hnumel pos h
  omega

/-- The position of an index inside a shape is no further from the first one than the last one is. -/
theorem offsetFrom_of_reachFrom {first least reach : Nat} {shape strides index : List Nat}
    (h : reachFrom first shape strides = .ok reach) (hfirst : least ≤ first)
    (inside : inShape index shape = true) (same : strides.length = shape.length) :
    ∃ position, offsetFrom least index strides = .ok position ∧ position + first ≤ reach + least := by
  induction shape generalizing first least strides index with
  | nil =>
    cases List.length_eq_zero_iff.mp same
    cases h
    cases index with
    | nil => exact ⟨least, rfl, Nat.le_of_eq (Nat.add_comm _ _)⟩
    | cons i index => cases inside
  | cons n shape ih =>
    rcases strides with _ | ⟨s, strides⟩
    · cases same
    rcases index with _ | ⟨i, index⟩
    · cases inside
    obtain ⟨hi, inside⟩ := Bool.and_eq_true_iff.mp inside
    have hi : i < n := of_decide_eq_true hi
    rw [reachFrom] at h
    obtain ⟨step, hstep, h⟩ := except_bind_eq_ok.mp h
    obtain ⟨further, hfurther, h⟩ := except_bind_eq_ok.mp h
    obtain ⟨rfl, hword⟩ := Word.mul_eq_ok.mp hstep
    obtain ⟨rfl, hword'⟩ := Word.add_eq_ok.mp hfurther
    have hle : i * s ≤ (n - 1) * s := Nat.mul_le_mul_right s (by omega)
    have hmul : Word.mul i s = .ok (i * s) := Word.mul_eq_ok.mpr ⟨rfl, by omega⟩
    have hadd : Word.add least (i * s) = .ok (least + i * s) := Word.add_eq_ok.mpr ⟨rfl, by omega⟩
    obtain ⟨position, hposition, hlast⟩ :=
      ih h (show least + i * s ≤ first + (n - 1) * s by omega) inside (Nat.succ.inj same)
    refine ⟨position, ?_, by omega⟩
    rw [offsetFrom, hmul]
    change (Word.add least (i * s) >>= fun next => offsetFrom next index strides) = _
    rw [hadd]
    exact hposition

/-- Every index inside a shape has a position below the extent. -/
theorem offset_lt_extent {reach : Nat} {shape strides index : List Nat}
    (h : extent shape strides = .ok reach) (pos : 0 < reach) (inside : inShape index shape = true)
    (same : strides.length = shape.length) :
    ∃ position, offset index strides = .ok position ∧ position < reach := by
  rw [extent] at h
  obtain ⟨elements, _, h⟩ := except_bind_eq_ok.mp h
  split at h
  · cases h
    exact absurd pos (Nat.lt_irrefl 0)
  · obtain ⟨last, hlast, h⟩ := except_bind_eq_ok.mp h
    obtain ⟨rfl, _⟩ := Word.add_eq_ok.mp h
    obtain ⟨position, hposition, hle⟩ :=
      offsetFrom_of_reachFrom hlast (Nat.le_refl 0) inside same
    exact ⟨position, hposition, by omega⟩

/-- An array with elements has elements along all but its first axis. -/
theorem numel_tail {n elements : Nat} {shape : List Nat} (h : numel (n :: shape) = .ok elements)
    (pos : 0 < elements) : ∃ rest, numel shape = .ok rest := by
  cases shape with
  | nil => exact ⟨0, rfl⟩
  | cons m shape =>
    have hprod := eq_of_product h
    change (n :: m :: shape).foldlM Word.mul 1 = _ at h
    rw [List.foldlM_cons] at h
    obtain ⟨first, hfirst, h⟩ := except_bind_eq_ok.mp h
    obtain ⟨rfl, _⟩ := Word.mul_eq_ok.mp hfirst
    have hn : 0 < n := pos_of_prod_pos (hprod ▸ pos) n (by simp)
    exact ⟨_, foldlM_mul_of_le h (by omega) (List.forall₂_refl _)⟩

/-- Elements that follow each other along the first axis are all before the end. -/
theorem offset_add_le_extent {n elements reach : Nat} {shape strides index : List Nat}
    (h : extent (n :: shape) (1 :: strides) = .ok reach) (hnumel : numel (n :: shape) = .ok elements)
    (pos : 0 < elements) (inside : inShape index shape = true) (same : strides.length = shape.length) :
    ∃ position, offset index strides = .ok position ∧ position + n ≤ reach := by
  obtain ⟨last, hlast, rfl⟩ := exists_last_of_extent hnumel pos h
  rw [reachFrom] at hlast
  obtain ⟨step, hstep, hlast⟩ := except_bind_eq_ok.mp hlast
  obtain ⟨further, hfurther, hlast⟩ := except_bind_eq_ok.mp hlast
  obtain ⟨rfl, _⟩ := Word.mul_eq_ok.mp hstep
  obtain ⟨rfl, _⟩ := Word.add_eq_ok.mp hfurther
  obtain ⟨position, hposition, hle⟩ := offsetFrom_of_reachFrom hlast (Nat.zero_le _) inside same
  exact ⟨position, hposition, by omega⟩

end Layout

end ArrayEngine
