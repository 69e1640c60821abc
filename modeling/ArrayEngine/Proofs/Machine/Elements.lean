import ArrayEngine.Proofs.Machine.Contents

/-! Bytes as elements of one size: what becomes of the elements when whole ones are written over. -/
namespace ArrayEngine.Bytes

variable {size count p : Nat} {bytes data : List UInt8} {values : List Element}

theorem elements_add (size a b : Nat) (bytes : List UInt8) :
    elements size (a + b) bytes = elements size a bytes ++ elements size b (bytes.drop (a * size)) := by
  induction a generalizing bytes with
  | zero => simp [elements]
  | succ a ih =>
    have hdrop : (bytes.drop size).drop (a * size) = bytes.drop ((a + 1) * size) := by
      rw [List.drop_drop, Nat.succ_mul, Nat.add_comm]
    rw [Nat.succ_add, elements, elements, ih, hdrop, List.cons_append]

theorem elements_take {stop : Nat} (h : count * size ≤ stop) :
    elements size count (bytes.take stop) = elements size count bytes := by
  induction count generalizing bytes stop with
  | zero => rfl
  | succ count ih =>
    rw [Nat.succ_mul] at h
    rw [elements, elements, List.take_take, Nat.min_eq_left (by omega), List.drop_take, ih (by omega)]

theorem elements_append (h : count * size ≤ bytes.length) (rest : List UInt8) :
    elements size count (bytes ++ rest) = elements size count bytes := by
  rw [← elements_take (Nat.le_refl _), List.take_append_of_le_length h, elements_take (Nat.le_refl _)]

theorem length_of_mem_elements (h : count * size ≤ bytes.length) {element : Element}
    (hmem : element ∈ elements size count bytes) : element.length = size := by
  induction count generalizing bytes with
  | zero => cases hmem
  | succ count ih =>
    rw [Nat.succ_mul] at h
    obtain rfl | hmem := List.mem_cons.mp hmem
    · rw [List.length_take, Nat.min_eq_left (by omega)]
    · exact ih (by rw [List.length_drop]; omega) hmem

theorem length_flatten (whole : ∀ value ∈ values, value.length = size) :
    values.flatten.length = values.length * size := by
  rw [List.length_flatten, List.map_congr_left whole, List.map_const', List.sum_replicate_nat]

/-- Whole elements next to each other are read back. -/
theorem elements_flatten (whole : ∀ value ∈ values, value.length = size) (rest : List UInt8) :
    elements size values.length (values.flatten ++ rest) = values := by
  induction values with
  | nil => rfl
  | cons value values ih =>
    obtain rfl := whole value List.mem_cons_self
    rw [List.length_cons, elements, List.flatten_cons, List.append_assoc, List.take_left, List.drop_left,
      ih fun other hmem => whole other (List.mem_cons_of_mem _ hmem)]

theorem overwrite_of_le {start : Nat} (h : start + data.length ≤ bytes.length) :
    overwrite start data bytes = bytes.take start ++ (data ++ bytes.drop (start + data.length)) := by
  rw [overwrite, List.take_of_length_le]
  simp only [List.length_append, List.length_take, List.length_drop]
  omega

/-- Elements that are written over are replaced, and all others stay. -/
theorem elements_overwrite (whole : ∀ value ∈ values, value.length = size) (inside : p + values.length ≤ count)
    (room : count * size ≤ bytes.length) :
    elements size count (overwrite (p * size) values.flatten bytes) =
      (elements size count bytes).take p ++ (values ++ (elements size count bytes).drop (p + values.length)) := by
  obtain ⟨rest, rfl⟩ := Nat.exists_eq_add_of_le inside
  have hlength := length_flatten whole
  rw [Nat.add_mul, Nat.add_mul] at room
  have hstart : (bytes.take (p * size)).length = p * size := by
    rw [List.length_take, Nat.min_eq_left (by omega)]
  have hbefore : (elements size (p + values.length + rest) bytes).take p = elements size p bytes := by
    rw [Nat.add_assoc, elements_add, List.take_append_of_le_length (Nat.le_of_eq (length_elements ..).symm),
      List.take_of_length_le (Nat.le_of_eq (length_elements ..))]
  have hafter : (elements size (p + values.length + rest) bytes).drop (p + values.length) =
      elements size rest (bytes.drop (p * size + values.flatten.length)) := by
    rw [elements_add, List.drop_left' (length_elements ..), Nat.add_mul, hlength]
  rw [hbefore, hafter, overwrite_of_le (by omega), Nat.add_assoc, elements_add,
    elements_append (Nat.le_of_eq hstart.symm), elements_take (Nat.le_refl _), List.drop_left' hstart, elements_add,
    elements_flatten whole, ← hlength, List.drop_left]

end ArrayEngine.Bytes
