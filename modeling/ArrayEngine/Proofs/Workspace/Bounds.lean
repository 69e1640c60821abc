import ArrayEngine.Proofs.Tensor.Transfers
import ArrayEngine.Proofs.Workspace.Sharing

/-! All that is read and written of a tensor in a reachable workspace lies within its buffer. -/
namespace ArrayEngine

namespace Workspace

variable {workspace : Workspace}

/-- The types of all tensors are known. -/
def IsTyped (workspace : Workspace) : Prop :=
  ∀ name tensor, workspace.tensors.lookup name = some tensor →
    workspace.catalogue.types.Known tensor.dtype

theorem isTyped_of_forall (h : ∀ entry ∈ workspace.tensors, workspace.catalogue.types.Known entry.2.dtype) :
    workspace.IsTyped := by
  intro name tensor found
  obtain ⟨before, after, hsplit, _⟩ := List.lookup_eq_some_iff.mp found
  exact h (name, tensor) (by simp [hsplit])

theorem Reachable.exists_holds (reachable : Reachable workspace) {name : String} {tensor : Tensor}
    (found : workspace.tensors.lookup name = some tensor) (sized : 0 < tensor.dtype.size) {id : BufferId}
    (hid : tensor.buffer? = some id) :
    ∃ buffer elements extent, tensor.Holds workspace.machine id buffer elements extent :=
  Tensor.exists_holds (reachable.sound.each found).toFits (reachable.sound.housed found) sized hid

theorem Reachable.exists_holds_buffer (reachable : Reachable workspace) {name : String} {tensor : Tensor}
    (found : workspace.tensors.lookup name = some tensor) (sized : 0 < tensor.dtype.size) {id : BufferId}
    (hid : tensor.buffer? = some id) :
    ∃ elements extent, tensor.Holds workspace.machine id (workspace.machine.buffer id) elements extent := by
  obtain ⟨buffer, elements, extent, holds⟩ := reachable.exists_holds found sized hid
  rw [Machine.buffer_of_getElem? holds.found]
  exact ⟨elements, extent, holds⟩

/-- A tensor with a buffer in a reachable workspace, whose elements have bytes. The position
of every index inside its shape is before its extent. On the host it is read and written as exactly that many
elements, and listing, filling and converting it succeed. In GPU memory every write that fills it is one of
whole granules inside the buffer. A copy from it is refused before any byte is touched, or it is one of slices
of both buffers, padding and all; no copy from it or to it finds a buffer too small. -/
theorem accesses_of_reachable (reachable : Reachable workspace) (typed : workspace.IsTyped)
    {name : String} {tensor : Tensor} {id : BufferId} {extent : Nat}
    (found : workspace.tensors.lookup name = some tensor) (sized : 0 < tensor.dtype.size)
    (hid : tensor.buffer? = some id) (hextent : tensor.extent = .ok extent) :
    ∃ elements buffer, tensor.numel = .ok elements ∧ 0 < elements ∧
      workspace.machine.buffers[id]? = some buffer ∧ buffer.size = extent * tensor.dtype.size ∧
      buffer.bytes.length = roundUp buffer.place.granule buffer.size ∧ buffer.bytes.length < wordLimit ∧
      (∀ index, Layout.inShape index tensor.shape = true →
        ∃ position, Layout.offset index tensor.strides = .ok position ∧ position < extent) ∧
      (buffer.place = .host →
        (∃ span : List Element, span.length = extent ∧
          tensor.read workspace.machine = .ok span workspace.machine ∧
          ∀ change, tensor.write change workspace.machine = match change span with
            | .ok changed => .ok () (workspace.machine.store id 0 changed.flatten)
            | .error trap => .error (.trap trap) workspace.machine) ∧
        (∃ values, tensor.toList workspace.machine = .ok values workspace.machine ∧
          values.length = elements) ∧
        (∀ value, ∃ later, tensor.fillHost value workspace.machine = .ok () later) ∧
        ∀ other src origin, workspace.tensors.lookup other = some src → src.buffer? = some origin →
          0 < src.dtype.size → (workspace.machine.buffer origin).place = .host → tensor.shape = src.shape →
          ∀ target source, ∃ later,
            Tensor.castHost target source tensor src workspace.machine = .ok () later) ∧
      (∀ context value, buffer.place = .gpu context → value.length = tensor.dtype.size →
        (∃ writes, tensor.gpuWrites value = .ok writes ∧ ∀ start bytes, (start, bytes) ∈ writes →
          4 ∣ start ∧ 4 ∣ start + bytes.length ∧ start + bytes.length ≤ buffer.bytes.length) ∨
        tensor.isPacked = .ok false ∧ ¬4 ∣ tensor.dtype.size ∧
          ∃ what, tensor.gpuWrites value = .error (.error (.unsupported what))) ∧
      ∀ other second, workspace.tensors.lookup other = some second →
        ((∃ cause last, Tensor.copyFrom tensor (second, workspace.machine) = .error cause last ∧
            ∀ device, cause ≠ .error (.device device)) ∨
          ∃ ready d target, ready.1.buffer? = some d ∧ ready.2.buffers[d]? = some target ∧
            ready.2.buffers[id]? = some buffer ∧ target.size = buffer.size ∧
            target.bytes.length = roundUp target.place.granule target.size ∧
            roundUp copyGranule buffer.size ≤ target.bytes.length ∧
            roundUp copyGranule buffer.size ≤ buffer.bytes.length ∧
            Tensor.copyFrom tensor (second, workspace.machine) = onMachine (onDevice
              (Machine.copySlices d ready.1.stream id tensor.stream buffer.size)) ready) ∧
        ∀ size capacity last,
          Tensor.copyFrom tensor (second, workspace.machine) ≠
            .error (.error (.device (.outOfBounds size capacity))) last ∧
          Tensor.copyFrom second (tensor, workspace.machine) ≠
            .error (.error (.device (.outOfBounds size capacity))) last := by
  obtain ⟨buffer, elements, reach, holds⟩ := reachable.exists_holds found sized hid
  cases holds.reach.symm.trans hextent
  have hsize := holds.buffer_size
  refine ⟨elements, buffer, holds.numel, holds.pos, holds.found, hsize, holds.length, ?_,
    fun _ => holds.offset_lt, fun host => ⟨holds.access host, holds.toList host, holds.fillHost host, ?_⟩,
    fun context value place hvalue => Tensor.gpuWrites_cases holds place hvalue, ?_⟩
  · have hword : wordLimit = 2 ^ 64 := rfl
    have hmost : buffer.size ≤ 2 ^ 63 - 16 := holds.size_le
    have hround := roundUp_lt buffer.place buffer.size
    rw [holds.length]
    omega
  · intro other src origin hother horigin wide hplace hshape target source
    obtain ⟨filled, count, far, kept⟩ := reachable.exists_holds hother wide horigin
    rw [Machine.buffer_of_getElem? kept.found] at hplace
    exact Tensor.castHost_eq_ok holds kept host hplace hshape target source
  · intro other second hother
    have sound := reachable.sound
    have known {first second : String} {dst src : Tensor}
        (hdst : workspace.tensors.lookup first = some dst)
        (hsrc : workspace.tensors.lookup second = some src) (same : (dst.dtype == src.dtype) = true) :
        dst.dtype = src.dtype :=
      (typed first dst hdst).eq_of_beq (typed second src hsrc) same
    have fits {name : String} {tensor : Tensor} (h : workspace.tensors.lookup name = some tensor) :
        tensor.Fits workspace.machine := (sound.each h).toFits
    refine ⟨?_, fun size capacity last => ⟨?_, ?_⟩⟩
    · obtain refused | ⟨ready, d, target, taken, hbytes, hsource, hcopy⟩ :=
        Tensor.copyFrom_cases holds (fits hother) (sound.housed hother) (known hother found)
      · exact .inl refused
      · have hroom := hbytes ▸ taken.room
        refine .inr ⟨ready, d, target, taken.held, taken.found, hsource, hbytes, taken.length, hroom,
          holds.room, ?_⟩
        rw [hcopy]
        simp only [onMachine, zoom, onDevice, adaptErrors]
        rw [Machine.copyBytes_eq_copySlices holds.size_ne_zero taken.found hsource hbytes.ge (Nat.le_refl _)
          hroom holds.room]
    · exact Tensor.copyFrom_ne_outOfBounds (fits found) (sound.housed found) (fits hother)
        (sound.housed hother) (known hother found) size capacity
    · exact Tensor.copyFrom_ne_outOfBounds (fits hother) (sound.housed hother) (fits found)
        (sound.housed found) (known found hother) size capacity

/-- Five single bytes with gaps between them. -/
def gaps (stream : Stream) (id : BufferId) : Tensor :=
  ⟨[5], [.any], [2], ⟨5, .u8⟩, stream.device, stream, some id, .exclusive, false⟩

/-- Bytes with gaps between them on the host and in GPU memory. -/
def withGaps : Workspace :=
  { initial with
    machine := { Machine.initial with buffers := [.zeroed .host 9, .zeroed (.gpu 0) 9] }
    tensors := [("b", gaps (.gpu 0 0) 1), ("a", gaps .cpu 0)] }

/-- Five bytes with gaps between them can be listed. They reach over 9 bytes, and all 12 bytes that are moved of
them to GPU memory are there on both sides. -/
theorem accesses_of_reachable_gaps :
    Reachable withGaps ∧
      (∃ values, (gaps .cpu 0).toList withGaps.machine = .ok values withGaps.machine ∧ values.length = 5) ∧
      ∃ ready d target, ready.2.buffers[d]? = some target ∧ 12 ≤ target.bytes.length ∧
        12 ≤ (Buffer.zeroed .host 9).bytes.length ∧
        Tensor.copyFrom (gaps .cpu 0) (gaps (.gpu 0 0) 1, withGaps.machine) = onMachine (onDevice
          (Machine.copySlices d ready.1.stream 0 .cpu 9)) ready := by
  have reachable : Reachable initial := .start rfl Catalogue.tame_initial
  have reachable := reachable.make (.layout ⟨5, .u8⟩ [5] [.any] (some [2]) .cpu false)
    (.of_ok rfl : EndsAt (create "a" _ _) _)
  have reachable : Reachable withGaps :=
    reachable.make (.layout ⟨5, .u8⟩ [5] [.any] (some [2]) (.gpu 0 0) false)
      (.of_ok rfl : EndsAt (create "b" _ _) _)
  have known : TypeTable.builtin.Known ⟨5, .u8⟩ := rfl
  have typed : withGaps.IsTyped := by
    intro name tensor found
    rw [withGaps, List.lookup_cons, List.lookup_cons] at found
    split at found
    · cases found
      exact known
    · split at found
      · cases found
        exact known
      · cases found
  obtain ⟨elements, buffer, hnumel, _, hbuffer, _, _, _, _, hhost, _, hcopies⟩ :=
    accesses_of_reachable reachable typed (rfl : withGaps.tensors.lookup "a" = some (gaps .cpu 0)) (by decide)
      rfl rfl
  cases hnumel
  cases hbuffer
  obtain ⟨_, hlist, _⟩ := hhost rfl
  obtain ⟨⟨cause, last, hrefused, _⟩ | ⟨ready, d, target, _, htarget, _, _, _, hroom, hown, hcopy⟩, _⟩ :=
    hcopies "b" (gaps (.gpu 0 0) 1) rfl
  · cases hrefused
  · exact ⟨reachable, hlist, ready, d, target, htarget, hroom, hown, hcopy⟩

end Workspace

end ArrayEngine
