import ArrayEngine.Proofs.Dispatch.Casts
import ArrayEngine.Proofs.Tensor.Fresh

/-! Conversions of the elements of host tensors into new packed tensors. -/
namespace ArrayEngine

namespace Tensor

/-- A tensor holds the elements of another one after a conversion: packed, in a buffer that is new, and with all
buffers that were there as they were. -/
structure IsCast (dst src : Tensor) (dtype : TypeInfo) (convert : Element → Element)
    (machine later : Machine) : Prop where
  dtype : dst.dtype = dtype
  shape : dst.shape = src.shape
  dimTypes : dst.dimTypes = src.dimTypes
  strides : Layout.packedStrides src.shape = .ok dst.strides
  packed : dst.isPacked = .ok true
  stream : dst.stream = src.stream
  device : dst.device = src.device
  ownership : dst.ownership = .exclusive
  buffer : dst.buffer? = some machine.buffers.length
  elements : ∃ values, src.toList machine = .ok values machine ∧
    dst.toList later = .ok (values.map convert) later
  source : src.KeepsContents machine later
  kept : machine.Extends later

variable {tensor dst src : Tensor} {machine later : Machine} {id d : BufferId} {buffer target : Buffer}
  {elements extent count reach : Nat} {dtype : TypeInfo} {values : List Element}

namespace Holds

/-- Converting elements into a packed tensor of the same shape writes them next to each other. -/
theorem castHost_of_isPacked (holds : dst.Holds machine d target elements extent)
    (kept : src.Holds machine id buffer count reach) (host : target.place = .host)
    (srcHost : buffer.place = .host) (hshape : dst.shape = src.shape) (packed : dst.isPacked = .ok true)
    (hvalues : src.toList machine = .ok values machine) (into out : Conversion) :
    castHost into out dst src machine =
      .ok () (machine.store d 0 (values.map (Conversion.cast out into)).flatten) := by
  obtain ⟨_, hpacked, htight⟩ := holds.isPacked
  cases packed.symm.trans hpacked
  have hlength : values.length = extent := by
    obtain ⟨found, hfound, hcount⟩ := kept.toList srcHost
    cases hvalues.symm.trans hfound
    have hnumel := holds.numel
    rw [Tensor.numel, hshape] at hnumel
    rw [hcount, htight rfl]
    exact Except.ok.inj (kept.numel.symm.trans hnumel)
  rw [castHost, if_neg (not_not_intro hshape), kept.isEmpty]
  dsimp only
  rw [ok_bind_apply]
  simp only [Bool.false_eq_true, if_false]
  rw [bind_apply, hvalues]
  dsimp only
  rw [packed, ok_bind_apply, if_pos rfl, (holds.access_memory host).2, replaceAll,
    if_pos (by rw [holds.length_memory, List.length_map, hlength])]

theorem of_extends (holds : tensor.Holds machine id buffer elements extent) (extends' : machine.Extends later) :
    tensor.Holds later id buffer elements extent :=
  { holds with found := extends' id buffer holds.found }

theorem keepsContents (holds : tensor.Holds machine id buffer elements extent) (longer : machine.Extends later) :
    tensor.KeepsContents machine later :=
  .of_bytes fun other hother => by
    cases holds.held.symm.trans hother
    rw [longer id buffer holds.found, holds.found]

/-- The elements of a host tensor are converted into a new packed tensor. -/
theorem isCast_of_castHost (holds : src.Holds machine id buffer elements extent) (host : buffer.place = .host)
    (hdevice : src.device = .cpu) (hstream : src.stream = .cpu) {strides : List Nat} {size : Nat}
    (hstrides : Layout.packedStrides src.shape = .ok strides) (sized : 0 < dtype.size)
    (hsize : byteSize elements dtype.size = .ok size) {into out : Conversion}
    (whole : ∀ bits, (into.ofBinary64 bits).length = dtype.size) :
    ∃ later, castHost into out (src.packedLike dtype strides machine.buffers.length) src
        (machine.withBuffer src.stream.place size) = .ok () later ∧
      (src.packedLike dtype strides machine.buffers.length).IsCast src dtype (Conversion.cast out into)
        machine later := by
  obtain ⟨values, hvalues, hcount⟩ := holds.toList host
  have longer := Machine.extends_withBuffer machine src.stream.place size
  have fresh := holds_packedLike holds.numel holds.pos hstrides sized hsize machine
  have packed : (src.packedLike dtype strides machine.buffers.length).isPacked = .ok true :=
    Layout.isPacked_of_packedStrides hstrides
  have place : (Buffer.zeroed src.stream.place size).place = .host := by
    rw [hstream]
    rfl
  have hcast := fresh.castHost_of_isPacked (holds.of_extends longer) place host rfl packed
    ((holds.keepsContents longer).toList values hvalues) into out
  have hwhole : ∀ element ∈ values.map (Conversion.cast out into), element.length = dtype.size := by
    intro element hmem
    obtain ⟨value, _, rfl⟩ := List.mem_map.mp hmem
    exact whole _
  have kept : machine.Extends ((machine.withBuffer src.stream.place size).store machine.buffers.length 0
      (values.map (Conversion.cast out into)).flatten) := by
    intro other found hfound
    have hlt : other < machine.buffers.length := (List.getElem?_eq_some_iff.mp hfound).1
    rw [Machine.buffers_store_of_ne (Nat.ne_of_lt hlt)]
    exact longer other found hfound
  have hlength : (values.map (Conversion.cast out into)).length = elements := by
    rw [List.length_map, hcount]
  refine ⟨_, hcast, ⟨rfl, rfl, rfl, hstrides, packed, rfl, ?_, rfl, rfl, ⟨values, hvalues, ?_⟩,
    holds.keepsContents kept, kept⟩⟩
  · change src.stream.device = src.device
    rw [hdevice, hstream]
    rfl
  · exact fresh.toList_of_written place packed hlength hwhole

end Holds

/-- A cast between compute types makes the new tensor before it looks for a kernel. -/
theorem cast_apply {catalogue : Catalogue} (hdevice : src.device = .cpu) (hempty : src.isEmpty = .ok false)
    (computed : catalogue.types.isCompute src.dtype = true) (computes : catalogue.types.isCompute dtype = true) :
    src.cast catalogue dtype = (do
      let dst ← withLayout dtype src.shape src.dimTypes none src.stream false
      catalogue.dispatch Kernel.castTable "cast_cpu" ⟨[dtype, src.dtype]⟩ [dst, src]
      return dst : Work TensorError Tensor) := by
  have hselect : catalogue.select [dtype, src.dtype] = .ok ⟨[dtype, src.dtype]⟩ := by
    simp [Catalogue.select, Selection.ofTypes, computed, computes, Except.mapError]
  funext machine
  rw [cast, if_neg (not_not_intro hdevice), hselect, hempty]
  rfl

namespace Holds

section Outcomes

variable {catalogue : Catalogue} (holds : src.Holds machine id buffer elements extent)
  (htypes : src.dimTypes.length = src.shape.length) (hdevice : src.device = .cpu)
  (computed : catalogue.types.isCompute src.dtype = true) (computes : catalogue.types.isCompute dtype = true)
include holds htypes hdevice computed computes

/-- If the new tensor has too many bytes, there is none. -/
theorem cast_eq_trap {trap : Trap} (hsize : byteSize elements dtype.size = .error trap) :
    src.cast catalogue dtype machine = .error (.trap trap) machine := by
  obtain ⟨strides, _, hlayout⟩ := withLayout_packed holds.numel holds.pos htypes dtype machine
  rw [cast_apply hdevice holds.isEmpty computed computes, bind_apply, hlayout, hsize]

/-- With a kernel the new tensor holds what it makes of the elements. -/
theorem isCast_of_dispatch (host : buffer.place = .host) (hstream : src.stream = .cpu) (sized : 0 < dtype.size)
    {size : Nat} (hsize : byteSize elements dtype.size = .ok size) {target source : NumericType}
    (htarget : dtype.type = target.toElementType) (hsource : src.dtype.type = source.toElementType)
    (hdispatch : ∀ dst, dst.dtype = dtype →
      catalogue.dispatch Kernel.castTable "cast_cpu" ⟨[dtype, src.dtype]⟩ [dst, src] =
        adaptErrors DispatchError.toTensorError
          ((Kernel.cast target source).call ([dst, src].map Catalogue.argument))) :
    ∃ dst later, src.cast catalogue dtype machine = .ok dst later ∧
      dst.IsCast src dtype (Conversion.cast source.conversion target.conversion) machine later := by
  obtain ⟨strides, hstrides, hlayout⟩ := withLayout_packed holds.numel holds.pos htypes dtype machine
  have whole (bits : Nat) : (target.conversion.ofBinary64 bits).length = dtype.size := by
    rw [target.length_ofBinary64, TypeInfo.size, htarget]
  obtain ⟨later, hcast, made⟩ := holds.isCast_of_castHost host hdevice hstream hstrides sized hsize whole
  refine ⟨_, later, ?_, made⟩
  rw [cast_apply hdevice holds.isEmpty computed computes, bind_apply, hlayout, hsize]
  dsimp only
  rw [hdispatch _ rfl, Kernel.call_cast htarget hsource, bind_apply, adaptErrors_eq_ok.mpr
    (adaptErrors_eq_ok.mpr (adaptErrors_eq_ok.mpr hcast))]
  rfl

/-- Without a kernel nothing is left but a buffer that no tensor holds. -/
theorem cast_eq_error {size : Nat} (hsize : byteSize elements dtype.size = .ok size) {cause : Halt TensorError}
    (hdispatch : ∀ dst, dst.dtype = dtype → ∀ machine,
      catalogue.dispatch Kernel.castTable "cast_cpu" ⟨[dtype, src.dtype]⟩ [dst, src] machine =
        .error cause machine) :
    src.cast catalogue dtype machine = .error cause (machine.withBuffer src.stream.place size) := by
  obtain ⟨strides, _, hlayout⟩ := withLayout_packed holds.numel holds.pos htypes dtype machine
  rw [cast_apply hdevice holds.isEmpty computed computes, bind_apply, hlayout, hsize]
  dsimp only
  rw [bind_apply, hdispatch _ rfl]

end Outcomes

end Holds

end Tensor

end ArrayEngine
