import ArrayEngine.Proofs.Layout.Order
import ArrayEngine.Proofs.Tensor.Fills

/-! Packed tensors: their elements in memory order are their elements in index order. -/
namespace ArrayEngine.Tensor

variable {tensor : Tensor} {machine later : Machine} {id : BufferId} {buffer : Buffer} {elements extent : Nat}
  {values : List Element}

theorem mapM_fetch_range (values : List Element) :
    (List.range values.length).mapM (fetch values.toArray) = .ok values := by
  have hfetch (i : Nat) (hi : i ∈ List.range values.length) :
      fetch values.toArray i = pure (values[i]?.getD []) := by
    have hlt := List.mem_range.mp hi
    rw [fetch, List.getElem?_toArray, List.getElem?_eq_getElem hlt]
    rfl
  rw [mapM_congr hfetch, List.mapM_pure]
  refine congrArg Except.ok (List.ext_getElem? fun i => ?_)
  rw [List.getElem?_map]
  by_cases hi : i < values.length <;> simp [hi]

/-- Along packed strides the positions of the elements are all positions before the last one. -/
theorem positions_of_isPacked {shape strides : List Nat} (packed : Layout.isPacked shape strides = .ok true)
    (same : strides.length = shape.length) (hnumel : Layout.numel shape = .ok elements) :
    positions shape strides = .ok (List.range elements) := by
  rcases eq_or_ne shape [] with rfl | axes
  · cases hnumel
    rfl
  have hprod : elements = shape.prod := (Layout.eq_of_numel hnumel).trans (Layout.count_of_ne_nil axes)
  rw [positions_eq hnumel axes fun index inside => ?_, Layout.positions_of_isPacked packed same, hprod]
  exact ⟨_, Layout.offset_of_isPacked packed same hnumel (hprod ▸ Nat.zero_lt_of_lt (Layout.number_lt inside)) inside⟩

/-- Only a tensor without elements is read without a buffer. -/
theorem numel_of_hostBuffer? (h : tensor.hostBuffer? machine = .ok none later) : tensor.numel = .ok 0 := by
  rw [hostBuffer?] at h
  obtain ⟨empty, _, hempty, h⟩ := bind_eq_ok.mp h
  cases empty with
  | true => exact isEmpty_eq_true_iff.mp (liftTrap_eq_ok.mp hempty).1
  | false =>
    cases hid : tensor.buffer? with
    | none =>
      rw [hid] at h
      cases h
    | some id =>
      rw [hid] at h
      obtain ⟨now, _, -, h⟩ := bind_eq_ok.mp h
      cases hdevice : (now.buffer id).device
      all_goals
        rw [hdevice] at h
        cases h

/-- As many elements are read of a tensor as it reaches over. -/
theorem extent_of_read (h : tensor.read machine = .ok values later) : tensor.extent = .ok values.length := by
  rw [read] at h
  obtain ⟨extent, _, hextent, h⟩ := bind_eq_ok.mp h
  obtain ⟨hreach, rfl⟩ := liftTrap_eq_ok.mp hextent
  obtain ⟨found, _, hfound, h⟩ := bind_eq_ok.mp h
  cases found with
  | none =>
    cases h
    exact extent_of_numel_eq_zero (numel_of_hostBuffer? hfound)
  | some id =>
    obtain ⟨held, _, _, h⟩ := bind_eq_ok.mp h
    obtain ⟨hspan, rfl⟩ := liftTrap_eq_ok.mp h
    rw [span] at hspan
    split at hspan
    · rename_i hle
      cases hspan
      rw [List.length_take, Nat.min_eq_left hle]
      exact hreach
    · cases hspan

/-- A packed tensor reaches as far as it has elements. -/
theorem numel_of_extent (packed : tensor.isPacked = .ok true) (same : tensor.strides.length = tensor.shape.length)
    (h : tensor.extent = .ok extent) : tensor.numel = .ok extent := by
  obtain ⟨elements, hnumel, hextent⟩ := except_bind_eq_ok.mp h
  rcases Nat.eq_zero_or_pos elements with rfl | pos
  · cases hextent
    exact hnumel
  · cases h.symm.trans (Layout.extent_eq_of_isPacked packed same hnumel pos)
    exact hnumel

/-- The elements of a packed tensor are listed as they are read. -/
theorem toList_eq_read (packed : tensor.isPacked = .ok true) (same : tensor.strides.length = tensor.shape.length) :
    tensor.toList = tensor.read := by
  funext machine
  rw [toList, bind_apply]
  cases hread : tensor.read machine with
  | error => rfl
  | ok values later =>
    have hnumel := numel_of_extent packed same (extent_of_read hread)
    have hgather : gather tensor.shape tensor.strides values.toArray = .ok values := by
      rw [gather, positions_of_isPacked packed same hnumel]
      exact mapM_fetch_range values
    change (monadLift (gather tensor.shape tensor.strides values.toArray) : Work TensorError _) later = _
    rw [hgather]
    rfl

namespace Holds

/-- The elements of a packed host tensor are what it reaches over, in this order. -/
theorem toList_of_isPacked (holds : tensor.Holds machine id buffer elements extent) (host : buffer.place = .host)
    (packed : tensor.isPacked = .ok true) :
    tensor.toList machine = .ok (tensor.memory machine) machine := by
  rw [toList_eq_read packed holds.strides, (holds.access_memory host).1]

end Holds

end ArrayEngine.Tensor
