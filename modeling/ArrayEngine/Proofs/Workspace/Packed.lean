import ArrayEngine.Proofs.Tensor.Packed
import ArrayEngine.Proofs.Workspace.Bounds

/-! What it means that an array is packed: its elements have the offsets of packed strides, and a host tensor has
them in memory as it lists them. -/
namespace ArrayEngine.Workspace

/-- A packed tensor with memory on the host is listed as its elements follow each other there. -/
theorem Reachable.toList_of_isPacked {workspace : Workspace} (reachable : Reachable workspace) {name : String}
    {tensor : Tensor} (found : workspace.tensors.lookup name = some tensor) (packed : tensor.isPacked = .ok true)
    (ensured : tensor.isEnsured = .ok true) (sized : 0 < tensor.dtype.size)
    (host : ∀ id, tensor.buffer? = some id → (workspace.machine.buffer id).place = .host) :
    ∃ elements values, tensor.numel = .ok elements ∧ values.length = elements ∧
      tensor.toList workspace.machine = .ok values workspace.machine ∧
      tensor.read workspace.machine = .ok values workspace.machine ∧
      ∀ id, tensor.buffer? = some id →
        values = Bytes.elements tensor.dtype.size elements (workspace.machine.buffer id).bytes := by
  have fits := (reachable.sound.each found).toFits
  have hlist := Tensor.toList_eq_read packed fits.strides
  cases hid : tensor.buffer? with
  | none =>
    obtain ⟨count, hnumel, hcount⟩ := Tensor.isEnsured_eq_ok ensured
    obtain rfl : count = 0 := by simpa [hid] using hcount
    have hread : tensor.read workspace.machine = .ok [] workspace.machine := Tensor.read_of_numel_eq_zero hnumel
    exact ⟨0, [], hnumel, rfl, hlist ▸ hread, hread, nofun⟩
  | some id =>
    obtain ⟨elements, extent, holds⟩ := reachable.exists_holds_buffer found sized hid
    obtain ⟨_, hpacked, htight⟩ := holds.isPacked
    cases packed.symm.trans hpacked
    obtain rfl := htight rfl
    have hread := (holds.access_memory (host id hid)).1
    refine ⟨_, _, holds.numel, holds.length_memory, hlist ▸ hread, hread, ?_⟩
    rintro _ ⟨⟩
    exact holds.memory_eq

/-- The strides of an array with elements are found to be packed if every index has the offset that packed strides
give it, and only then; and then the array reaches as far as it has elements. A packed tensor of a reachable
workspace is listed as it is read, and if it has memory on the host, what is listed are all of its elements as they
follow each other there. -/
theorem packed_layouts_and_tensors :
    (∀ (shape strides : List Nat) (elements : Nat), strides.length = shape.length →
      Layout.numel shape = .ok elements → 0 < elements → ∃ decided packed,
        Layout.isPacked shape strides = .ok decided ∧ Layout.packedStrides shape = .ok packed ∧
        (decided = true ↔ ∀ index, Layout.inShape index shape = true →
          ∃ place, Layout.offset index strides = .ok place ∧ Layout.offset index packed = .ok place) ∧
        (decided = true → Layout.extent shape strides = .ok elements)) ∧
    ∀ workspace, Reachable workspace → ∀ name tensor, workspace.tensors.lookup name = some tensor →
      tensor.isPacked = .ok true → tensor.toList = tensor.read ∧
        (tensor.isEnsured = .ok true → 0 < tensor.dtype.size →
          (∀ id, tensor.buffer? = some id → (workspace.machine.buffer id).place = .host) →
          ∃ elements values, tensor.numel = .ok elements ∧ values.length = elements ∧
            tensor.toList workspace.machine = .ok values workspace.machine ∧
            tensor.read workspace.machine = .ok values workspace.machine ∧
            ∀ id, tensor.buffer? = some id →
              values = Bytes.elements tensor.dtype.size elements (workspace.machine.buffer id).bytes) := by
  refine ⟨fun shape strides elements same hnumel pos => ?_, fun workspace reachable name tensor found packed =>
    ⟨Tensor.toList_eq_read packed (reachable.sound.each found).strides, fun ensured sized host =>
      reachable.toList_of_isPacked found packed ensured sized host⟩⟩
  obtain ⟨decided, hdecided⟩ := Layout.isPacked_eq_ok hnumel strides
  obtain ⟨packed, hpacked⟩ := Layout.packedStrides_eq_ok hnumel
  have hiff : decided = true ↔ Layout.isPacked shape strides = .ok true := by
    rw [hdecided, Except.ok.injEq]
  exact ⟨decided, packed, hdecided, hpacked, hiff.trans (Layout.isPacked_iff_offsets hpacked same hnumel pos),
    fun h => Layout.extent_eq_of_isPacked (hiff.mp h) same hnumel pos⟩

/-- Four numbers in two columns, along strides of which the one in the middle does not matter. -/
def slab : Tensor :=
  ⟨[2, 1, 2], [.any, .any, .any], [1, 7, 2], .f32, .cpu, .cpu, some 0, .exclusive, false⟩

def oneSlab : Workspace :=
  { initial with
    machine := { Machine.initial with buffers :=
      [⟨16, .host, [1, 0, 0, 0, 2, 0, 0, 0, 3, 0, 0, 0, 4, 0, 0, 0]⟩] }
    tensors := [("a", slab)] }

theorem reachable_oneSlab : Reachable oneSlab := by
  have reachable : Reachable initial := .start rfl Catalogue.tame_initial
  have reachable := reachable.make (.layout .f32 [2, 1, 2] [.any, .any, .any] (some [1, 7, 2]) .cpu false)
    (.of_ok rfl : EndsAt (create "a" _ _) _)
  exact reachable.outside rfl (Machine.keeps_store _ 0 0 [1, 0, 0, 0, 2, 0, 0, 0, 3, 0, 0, 0, 4, 0, 0, 0])
    Catalogue.tame_initial

/-- The numbers of the columns are listed as they are in memory. -/
theorem packed_layouts_and_tensors_slab : Reachable oneSlab ∧
    Layout.extent [2, 1, 2] [1, 7, 2] = .ok 4 ∧
    slab.toList oneSlab.machine =
      .ok [[1, 0, 0, 0], [2, 0, 0, 0], [3, 0, 0, 0], [4, 0, 0, 0]] oneSlab.machine := by
  obtain ⟨layouts, tensors⟩ := packed_layouts_and_tensors
  obtain ⟨_, _, hdecided, _, _, hextent⟩ := layouts [2, 1, 2] [1, 7, 2] 4 rfl rfl (by decide)
  cases hdecided
  obtain ⟨_, hmemory⟩ := tensors oneSlab reachable_oneSlab "a" slab rfl rfl
  obtain ⟨_, _, hnumel, _, hlist, _, hvalues⟩ := hmemory rfl (by decide) (by rintro _ ⟨⟩; rfl)
  cases hnumel
  rw [hvalues 0 rfl] at hlist
  exact ⟨reachable_oneSlab, hextent rfl, hlist⟩

end ArrayEngine.Workspace
