/-! Finite maps as lists of pairs. -/
namespace ArrayEngine

/-- A finite map as a list of pairs with different keys. -/
abbrev Assoc (α β : Type) := List (α × β)

namespace Assoc

variable {α β : Type} [BEq α]

def erase (map : Assoc α β) (key : α) : Assoc α β :=
  map.filter fun pair => pair.1 != key

/-- Adds a pair in place of an earlier one of the same key. -/
def insert (map : Assoc α β) (key : α) (value : β) : Assoc α β :=
  (key, value) :: map.erase key

variable [LawfulBEq α] {key other : α}

theorem lookup_erase_self (map : Assoc α β) (key : α) : (map.erase key).lookup key = none := by
  rw [List.lookup_eq_none_iff]
  intro pair member
  simpa using bne_comm.trans (List.mem_filter.1 member).2

theorem lookup_erase_of_ne (map : Assoc α β) (h : other ≠ key) :
    (map.erase key).lookup other = map.lookup other := by
  have differs : (other == key) = false := beq_eq_false_iff_ne.2 h
  induction map with
  | nil => rfl
  | cons pair map ih =>
    by_cases same : pair.1 = key
    · have dropped : erase (pair :: map) key = erase map key := by simp [erase, same]
      rw [dropped, ih, List.lookup_cons, same, differs]
    · have kept : erase (pair :: map) key = pair :: erase map key := by simp [erase, same]
      rw [kept, List.lookup_cons, List.lookup_cons, ih]

theorem lookup_insert_self (map : Assoc α β) (key : α) (value : β) :
    (map.insert key value).lookup key = some value := by
  simp [insert]

theorem lookup_insert_of_ne (map : Assoc α β) (value : β) (h : other ≠ key) :
    (map.insert key value).lookup other = map.lookup other := by
  have differs : (other == key) = false := beq_eq_false_iff_ne.2 h
  rw [insert, List.lookup_cons, differs]
  exact lookup_erase_of_ne map h

end Assoc

end ArrayEngine
