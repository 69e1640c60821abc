import ArrayEngine.Proofs.Tensor.Packed

/-! Single elements of host tensors: which indices have one, and where it stands among all elements. -/
namespace ArrayEngine.Tensor

variable {tensor : Tensor} {machine : Machine} {id : BufferId} {buffer : Buffer} {elements extent : Nat}
  {index : List Nat} {trap : Trap}

theorem get_of_outside (outside : Layout.inShape index tensor.shape = false) (machine : Machine) :
    tensor.get index machine = .error (.error (.index index tensor.shape)) machine := by
  rw [get, outside]
  rfl

theorem get_of_inside {position : Nat} (inside : Layout.inShape index tensor.shape = true)
    (hposition : Layout.offset index tensor.strides = .ok position) (machine : Machine) :
    tensor.get index machine =
      (tensor.read >>= fun span => monadLift (fetch span.toArray position) : Work TensorError Element) machine := by
  rw [get, if_pos inside, hposition, ok_bind_apply]

/-- Without axes there is no element, but the empty index is inside the shape. -/
theorem get_of_no_axes (axes : tensor.shape = []) (machine : Machine) :
    tensor.get [] machine = .error (.trap (.indexOutOfBounds 0 0)) machine := by
  have hnumel : tensor.numel = .ok 0 := by
    rw [numel, axes]
    rfl
  rw [get_of_inside (by rw [axes]; rfl) rfl, bind_apply, read_of_numel_eq_zero hnumel]
  rfl

/-- Without memory there is no element to be had. -/
theorem get_of_bare (bare : tensor.buffer? = none) (hextent : tensor.extent = .ok extent)
    (hempty : tensor.isEmpty = .ok false) {position : Nat} (inside : Layout.inShape index tensor.shape = true)
    (hposition : Layout.offset index tensor.strides = .ok position) (machine : Machine) :
    tensor.get index machine = .error (.error .notEnsured) machine := by
  have hread : tensor.read machine = .error (.error .notEnsured) machine := by
    rw [read, hextent, ok_bind_apply, bind_apply, hostBuffer?, hempty, bare]
    rfl
  rw [get_of_inside inside hposition, bind_apply, hread]

/-- A tensor of which it cannot be told how far it reaches has no element that can be had. -/
theorem exists_trap_of_get (hextent : tensor.extent = .error trap)
    (inside : Layout.inShape index tensor.shape = true) (machine : Machine) :
    ∃ cause, tensor.get index machine = .error (.trap cause) machine := by
  have hread : tensor.read machine = .error (.trap trap) machine := by
    rw [read, hextent]
    rfl
  cases hposition : Layout.offset index tensor.strides with
  | error cause =>
    refine ⟨cause, ?_⟩
    rw [get, if_pos inside, hposition]
    rfl
  | ok position =>
    refine ⟨trap, ?_⟩
    rw [get_of_inside inside hposition, bind_apply, hread]

theorem fetch_eq_ok {span : Array Element} {place : Nat} {value : Element} :
    fetch span place = .ok value ↔ span[place]? = some value := by
  rw [fetch]
  cases span[place]? <;> simp

namespace Holds

variable (holds : tensor.Holds machine id buffer elements extent) (host : buffer.place = .host)
include holds host

/-- What a host tensor lists is what stands at the positions of its elements. -/
theorem mapM_fetch_of_toList {values : List Element} (hvalues : tensor.toList machine = .ok values machine) :
    tensor.places.mapM (fetch (tensor.memory machine).toArray) = .ok values := by
  rw [Tensor.toList, bind_apply, (holds.access_memory host).1] at hvalues
  obtain ⟨hgather, -⟩ := liftTrap_eq_ok.mp hvalues
  rw [gather, holds.positions_eq_places] at hgather
  exact hgather

/-- The element at an index of a host tensor is the one of its number. -/
theorem get_eq_ok (inside : Layout.inShape index tensor.shape = true) :
    ∃ values value, tensor.toList machine = .ok values machine ∧
      values[Layout.number index tensor.shape]? = some value ∧ tensor.get index machine = .ok value machine := by
  obtain ⟨values, hvalues, -⟩ := holds.toList host
  obtain ⟨position, hposition, -⟩ := holds.offset_lt inside
  have hplace : tensor.places[Layout.number index tensor.shape]? = some position := by
    rw [places, List.getElem?_map, Layout.getElem?_box inside, Option.map_some, Layout.eq_of_offset hposition]
  obtain ⟨value, hfetch, hvalue⟩ := getElem?_of_mapM (holds.mapM_fetch_of_toList host hvalues) hplace
  refine ⟨values, value, hvalues, hvalue, ?_⟩
  rw [get_of_inside inside hposition, bind_apply, (holds.access_memory host).1]
  dsimp only
  rw [hfetch]
  rfl

end Holds

end ArrayEngine.Tensor
