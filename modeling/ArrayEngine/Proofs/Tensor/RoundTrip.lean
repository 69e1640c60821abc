import ArrayEngine.Proofs.Machine.Downloads
import ArrayEngine.Proofs.Tensor.Creation
import ArrayEngine.Proofs.Tensor.Transfers

/-! A tensor made accessible on a GPU and back on the host: as views of it where the memory is shared, and as
copies of all that it reaches over elsewhere. -/
namespace ArrayEngine.Tensor

/-- A tensor of the same layout on a stream, without memory so far. -/
def onStream (src : Tensor) (stream : Stream) : Tensor :=
  { src with device := stream.device, stream, buffer? := none, ownership := .exclusive, isLazy := true }

variable {src : Tensor} {machine later : Machine} {id : BufferId} {buffer : Buffer} {elements extent : Nat}
  {stream : Stream} {context : ContextId} {found : Context}

theorem resize_onStream (htypes : src.dimTypes.length = src.shape.length)
    (hstrides : src.strides.length = src.shape.length) {tensor : Tensor}
    (h : tensor.relaid src.shape src.dimTypes src.strides = src.onStream stream) :
    resize src.shape src.dimTypes (some src.strides) (tensor, machine) =
      .ok () (src.onStream stream, machine) := by
  have hlazy : tensor.isLazy = true := congrArg Tensor.isLazy h
  have howned : tensor.isView = false := by
    rw [isView, show tensor.ownership = .exclusive from congrArg Tensor.ownership h]
    rfl
  rw [resize_apply, if_neg (not_not_intro htypes), stridesFor, if_pos hstrides]
  simp only [howned, hlazy, Bool.false_eq_true, if_false, if_true, h]

/-- A new tensor of the layout of another one. -/
theorem withLayout_eq_ok (htypes : src.dimTypes.length = src.shape.length)
    (hstrides : src.strides.length = src.shape.length) (stream : Stream) (machine : Machine) :
    withLayout src.dtype src.shape src.dimTypes (some src.strides) stream true machine =
      .ok (src.onStream stream) machine := by
  have hblank : (blank src.dtype stream true).relaid src.shape src.dimTypes src.strides =
      src.onStream stream := by
    simp [relaid, blank, onStream]
  rw [withLayout, build, resize_onStream htypes hstrides hblank]

/-- Memory is out of reach if a context on either side has its own. -/
theorem isShared_eq_false {on : Stream} (hon : on ∈ [src.stream, stream])
    (hcontext : on.context? = some context) (h : machine.contexts[context]? = some found)
    (apart : found.unified = false) :
    isShared machine src stream = false := by
  rw [isShared, Bool.and_eq_false_iff]
  refine .inl (List.all_eq_false.mpr ⟨on, hon, ?_⟩)
  rw [hcontext, Option.all_some, Machine.context_of_getElem? h, apart]
  exact Bool.false_ne_true

/-- Memory on the host is within reach if both sides are the host or a context that shares its own. -/
theorem isShared_eq_true (hid : src.buffer? = some id) (hplace : (machine.buffer id).place = .host)
    (hunified : (machine.context context).unified = true)
    (h : ∀ on ∈ [src.stream, stream], on.context? = none ∨ on.context? = some context) :
    isShared machine src stream = true := by
  rw [isShared, hid, Option.all_some, hplace, Bool.and_eq_true_iff]
  refine ⟨List.all_eq_true.mpr fun on hon => ?_, rfl⟩
  obtain hnone | hsome := h on hon
  · rw [hnone, Option.all_none]
  · rw [hsome, Option.all_some, hunified]

theorem reachedFrom_eq_view {device : Device} (shared : isShared machine src stream = true) :
    src.reachedFrom device stream machine = .ok (src.viewOn device stream) machine := by
  rw [reachedFrom, get_bind_apply, if_pos shared]
  rfl

namespace Holds

variable (holds : src.Holds machine id buffer elements extent)
include holds

theorem byteCount : src.byteCount = .ok buffer.size :=
  except_bind_eq_ok.mpr ⟨extent, holds.reach, holds.size⟩

/-- The copy on a stream takes memory there. -/
theorem ensure_onStream (stream : Stream) (machine : Machine) :
    ensure (src.onStream stream, machine) =
      .ok () ((src.onStream stream).placed machine.buffers.length,
        machine.withBuffer stream.place buffer.size) := by
  have hensured : (src.onStream stream).isEnsured = .ok false := by
    have hempty : (src.onStream stream).isEmpty = .ok false := holds.isEmpty
    rw [isEnsured, hempty]
    rfl
  have hbytes : (src.onStream stream).byteCount = .ok buffer.size := holds.byteCount
  rw [ensure_apply, hensured, hbytes]
  rfl

theorem copyFrom_onStream (htypes : src.dimTypes.length = src.shape.length) (stream : Stream) :
    copyFrom src (src.onStream stream, machine) = onMachine (onDevice
        (Machine.copyWithin machine.buffers.length stream id src.stream buffer.size))
      ((src.onStream stream).placed machine.buffers.length,
        machine.withBuffer stream.place buffer.size) := by
  have htoken : ((src.onStream stream).dtype == src.dtype) = true := beq_self_eq_true src.dtype.token
  have hself : (src.onStream stream).relaid src.shape src.dimTypes src.strides = src.onStream stream := by
    simp [relaid, onStream]
  have htarget := machine.getElem?_withBuffer_self stream.place buffer.size
  have hsource := Machine.extends_withBuffer machine stream.place buffer.size id buffer holds.found
  have hcopy := Machine.copyBytes_eq_copyWithin holds.size_ne_zero htarget hsource (Nat.le_refl _)
    (Nat.le_refl _) stream src.stream
  rw [copyFrom_apply, holds.isEmpty]
  simp only [htoken, if_true]
  -- the copy is laid out like the source already, so only the memory is new
  rw [moveFrom, bind_apply, resize_onStream htypes holds.strides hself]
  change (ensure >>= _ : Update Unit) (src.onStream stream, machine) = _
  rw [bind_apply, holds.ensure_onStream]
  change (monadLift src.copyCount >>= _ : Update Unit) _ = _
  rw [bind_apply, holds.copyCount_eq]
  change (monadLift (Word.mul extent src.dtype.size) >>= _ : Update Unit) _ = _
  rw [bind_apply, holds.mul_size]
  change onMachine (onDevice (Machine.copyBytes (some machine.buffers.length) stream src.buffer? src.stream
    buffer.size)) _ = _
  rw [holds.held]
  simp only [onMachine, zoom, onDevice, adaptErrors, hcopy]

/-- Where the memory is out of reach of a stream, what is reached from there is a copy of all that the tensor
reaches over. -/
theorem reachedFrom_eq_copy (htypes : src.dimTypes.length = src.shape.length) {device : Device}
    (apart : isShared machine src stream = false)
    (hcopy : Machine.copyWithin machine.buffers.length stream id src.stream buffer.size
      (machine.withBuffer stream.place buffer.size) = .ok () later) :
    src.reachedFrom device stream machine =
      (do
        if device.isSynchronous then onDevice src.stream.wait
        return (src.onStream stream).placed machine.buffers.length : Work TensorError Tensor) later := by
  have hbuild : build (src.onStream stream) (copyFrom src) machine =
      .ok ((src.onStream stream).placed machine.buffers.length) later := by
    rw [build, holds.copyFrom_onStream htypes]
    simp only [onMachine, zoom, onDevice, adaptErrors, hcopy]
  rw [reachedFrom, get_bind_apply, apart, if_neg Bool.false_ne_true, bind_apply,
    withLayout_eq_ok htypes holds.strides]
  dsimp only
  rw [bind_apply, hbuild]

/-- A host tensor on a GPU with memory of its own: a copy there of all that it reaches over. -/
theorem upload (htypes : src.dimTypes.length = src.shape.length) (host : buffer.place = .host)
    (hdevice : src.device = .cpu) (hcontext : machine.contexts[context]? = some found)
    (present : found.lost = false) (apart : found.unified = false) (stream : Nat) :
    ∃ middle copied, src.accessibleOn .gpu (some (.gpu context stream)) machine =
        .ok ((src.onStream (.gpu context stream)).placed machine.buffers.length) middle ∧
      ((src.onStream (.gpu context stream)).placed machine.buffers.length).Holds middle machine.buffers.length
        copied elements extent ∧
      copied.place = .gpu context ∧ copied.size = buffer.size ∧
      copied.bytes.take buffer.size = buffer.bytes.take buffer.size ∧
      machine.Extends middle ∧ middle.contexts = machine.contexts ∧
      middle.buffers.length = machine.buffers.length + 1 := by
  have htarget := machine.getElem?_withBuffer_self (.gpu context) buffer.size
  have hsource := Machine.extends_withBuffer machine (.gpu context) buffer.size id buffer holds.found
  have hlost : (machine.context context).lost = false := by
    rw [Machine.context_of_getElem? hcontext, present]
  have hzeroed := length_zeroed (.gpu context) buffer.size
  have hcopy := Machine.copyWithin_upload htarget hsource rfl host hlost stream src.stream buffer.size
  have hstored := Machine.buffers_store_self htarget 0 (buffer.bytes.take (roundUp copyGranule buffer.size))
  refine ⟨_, _, ?_, ⟨rfl, hstored, holds.numel, holds.pos, holds.reach, holds.strides, holds.sized, holds.size,
    ?_⟩, rfl, rfl, ?_, fun other old hold => ?_, rfl, ?_⟩
  · rw [accessibleOn_of_ne (by rw [hdevice]; decide)]
    change src.reachedFrom .gpu (.gpu context stream) machine = _
    have hapart : isShared machine src (.gpu context stream) = false :=
      isShared_eq_false (List.mem_cons_of_mem _ (List.mem_singleton_self _)) rfl hcontext apart
    rw [holds.reachedFrom_eq_copy htypes hapart hcopy]
    rfl
  · rw [Bytes.length_overwrite]
    exact hzeroed
  · -- whole granules are moved; what is past the elements is padding on both sides
    exact Bytes.take_overwrite_take (le_roundUp_copyGranule buffer.size) holds.room hzeroed.ge
  · have hlt : other < machine.buffers.length := (List.getElem?_eq_some_iff.mp hold).1
    rw [Machine.buffers_store_of_ne (Nat.ne_of_lt hlt)]
    exact Machine.extends_withBuffer machine (.gpu context) buffer.size other old hold
  · simp [Machine.store, Machine.withBuffer]

/-- A tensor in GPU memory back on the host: a copy that is there once the call returns, together with all that
was on its way before. -/
theorem download {stream : Nat} (htypes : src.dimTypes.length = src.shape.length)
    (hplace : buffer.place = .gpu context) (hdevice : src.device = .gpu)
    (hstream : src.stream = .gpu context stream) (hcontext : machine.contexts[context]? = some found)
    (present : found.lost = false) (clean : found.failed = false) (apart : found.unified = false) :
    ∃ later, src.accessibleOn .cpu none machine =
        .ok ((src.onStream .cpu).placed machine.buffers.length) later ∧
      later.hostBytes machine.buffers.length = .ok (buffer.bytes.take buffer.size) ∧
      ∀ other, other < machine.buffers.length →
        later.buffers[other]? = (machine.deliver context).buffers[other]? := by
  have htarget := machine.getElem?_withBuffer_self .host buffer.size
  have hsource := Machine.extends_withBuffer machine .host buffer.size id buffer holds.found
  have hthere : (machine.withBuffer .host buffer.size).contexts[context]? = some found := hcontext
  have hcopy := Machine.copyWithin_download htarget hsource rfl hplace .cpu stream buffer.size
  rw [← hstream] at hcopy
  have hroom : buffer.size ≤ (Buffer.zeroed .host buffer.size).bytes.length :=
    (le_roundUp .host buffer.size).trans_eq (length_zeroed .host buffer.size).symm
  refine ⟨_, ?_, Machine.hostBytes_deliver_download hthere present htarget rfl holds.length_data hroom,
    fun other hlt => ?_⟩
  · have hapart : isShared machine src .cpu = false :=
      isShared_eq_false List.mem_cons_self (congrArg Stream.context? hstream) hcontext apart
    rw [accessibleOn_of_ne (by rw [hdevice]; decide)]
    change src.reachedFrom .cpu .cpu machine = _
    rw [holds.reachedFrom_eq_copy htypes hapart hcopy, hstream]
    change (onDevice (Machine.poll context) >>= _ : Work TensorError Tensor) _ = _
    have hclean (entry : Download) :=
      (congrArg Context.failed (Machine.context_download hthere present entry)).trans clean
    rw [bind_apply, onDevice, adaptErrors, Machine.poll_eq_ok (hclean _)]
    rfl
  · rw [Machine.getElem?_deliver_download_of_ne hthere present (Nat.ne_of_gt hlt), Machine.getElem?_deliver,
      Machine.getElem?_deliver]
    change (machine.buffers ++ _)[other]?.map _ = _
    rw [List.getElem?_append_left hlt]
    rfl

/-- A tensor of the same layout over the same bytes reads the same. -/
theorem read_eq (host : buffer.place = .host) (other : Tensor) (later : Machine) {place : BufferId}
    (hdtype : other.dtype = src.dtype) (hshape : other.shape = src.shape)
    (hstrides : other.strides = src.strides) (hplace : other.buffer? = some place)
    (hbytes : later.hostBytes place = machine.hostBytes id) :
    ∃ span : List Element, span.length = extent ∧ src.read machine = .ok span machine ∧
      other.read later = .ok span later := by
  obtain ⟨span, hlength, hread, _⟩ := holds.access host
  refine ⟨span, hlength, hread, ?_⟩
  have hheld := Machine.hostBytes_of_getElem? holds.found host
  have hnumel : other.numel = .ok elements := by
    rw [Tensor.numel, hshape, ← holds.numel, Tensor.numel]
  have hreach : other.extent = .ok extent := by
    rw [Tensor.extent, hshape, hstrides, ← holds.reach, Tensor.extent]
  rw [read_apply hnumel holds.pos hreach hplace (hbytes.trans hheld), hdtype]
  rw [read_apply holds.numel holds.pos holds.reach holds.held hheld] at hread
  split at hread <;> cases hread
  rfl

/-- A host tensor on a GPU that shares its memory, and back: two views. -/
theorem round_trip_shared (host : buffer.place = .host) (hdevice : src.device = .cpu)
    (hstream : src.stream = .cpu) (hcontext : machine.contexts[context]? = some found)
    (unified : found.unified = true) (stream : Nat) :
    src.accessibleOn .gpu (some (.gpu context stream)) machine =
        .ok (src.viewOn .gpu (.gpu context stream)) machine ∧
      (src.viewOn .gpu (.gpu context stream)).accessibleOn .cpu none machine =
        .ok ((src.viewOn .gpu (.gpu context stream)).viewOn .cpu .cpu) machine := by
  have hplace : (machine.buffer id).place = .host := by
    rw [Machine.buffer_of_getElem? holds.found, host]
  have hunified : (machine.context context).unified = true := by
    rw [Machine.context_of_getElem? hcontext, unified]
  have hthere : isShared machine src (.gpu context stream) = true :=
    isShared_eq_true holds.held hplace hunified (by simp [hstream, Stream.context?])
  have hback : isShared machine (src.viewOn .gpu (.gpu context stream)) .cpu = true :=
    isShared_eq_true holds.held hplace hunified (by simp [viewOn, Stream.context?])
  constructor
  · rw [accessibleOn_of_ne (by rw [hdevice]; decide)]
    exact reachedFrom_eq_view hthere
  · rw [accessibleOn_of_ne (by change Device.gpu ≠ .cpu; decide)]
    exact reachedFrom_eq_view hback

/-- A host tensor on a GPU with memory of its own, and back: two copies. All other buffers are as they are once
the host has waited for the GPU. -/
theorem round_trip_apart (htypes : src.dimTypes.length = src.shape.length) (host : buffer.place = .host)
    (hdevice : src.device = .cpu) (hcontext : machine.contexts[context]? = some found)
    (present : found.lost = false) (clean : found.failed = false) (apart : found.unified = false)
    (stream : Nat) :
    ∃ middle later, src.accessibleOn .gpu (some (.gpu context stream)) machine =
        .ok ((src.onStream (.gpu context stream)).placed machine.buffers.length) middle ∧
      ((src.onStream (.gpu context stream)).placed machine.buffers.length).accessibleOn .cpu none middle =
        .ok ((src.onStream .cpu).placed (machine.buffers.length + 1)) later ∧
      later.hostBytes (machine.buffers.length + 1) = machine.hostBytes id ∧
      ∀ other, other < machine.buffers.length →
        later.buffers[other]? = (machine.deliver context).buffers[other]? := by
  obtain ⟨middle, copied, hup, kept, hplace, hsize, hbytes, hextends, hcontexts, hcount⟩ :=
    holds.upload htypes host hdevice hcontext present apart stream
  obtain ⟨later, hdown, hback, hrest⟩ :=
    kept.download htypes hplace rfl rfl (hcontexts ▸ hcontext) present clean apart
  rw [hcount] at hdown hback hrest
  -- the way there touches no buffer that was there before, so the wait has the same to deliver as at the start
  refine ⟨middle, later, hup, hdown, ?_, fun other hlt => ?_⟩
  · rw [hback, hsize, hbytes, Machine.hostBytes_of_getElem? holds.found host]
  · have hsame : middle.buffers[other]? = machine.buffers[other]? := by
      rw [List.getElem?_eq_getElem hlt]
      exact hextends other _ (List.getElem?_eq_getElem hlt)
    have hmiddle : middle.context context = machine.context context := by
      rw [Machine.context, Machine.context, hcontexts]
    rw [hrest other (Nat.lt_succ_of_lt hlt), Machine.getElem?_deliver, Machine.getElem?_deliver, hsame, hmiddle]

end Holds

end ArrayEngine.Tensor
