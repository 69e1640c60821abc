import ArrayEngine.Proofs.Tensor.Bounds

/-! Copies of tensors stay within both buffers, and never find one of them too small. -/
namespace ArrayEngine.Tensor

variable {tensor dst src : Tensor} {machine : Machine} {state last : Tensor × Machine}
  {cause : Halt TensorError}

/-- Devices have no part in it where memory is refused. -/
theorem ensure_error (h : ensure (tensor, machine) = .error cause state) (device : DeviceError) :
    cause ≠ .error (.device device) := by
  rintro rfl
  cases (ensure_error_eq h).2.1

/-- Nor where a layout is. -/
theorem resize_error {shape : List Nat} {dimTypes : List DimType} {strides? : Option (List Nat)}
    (h : resize shape dimTypes strides? (tensor, machine) = .error cause state) (device : DeviceError) :
    cause ≠ .error (.device device) := by
  rintro rfl
  obtain ⟨_, ⟨_, hcause⟩ | ⟨_, _, _, hcause⟩ | ⟨_, hcause⟩⟩ := resize_error_eq h <;> cases hcause

/-- A tensor with elements has a buffer once it has memory. -/
theorem exists_id_of_ensure {elements : Nat} (hnumel : tensor.numel = .ok elements) (pos : 0 < elements)
    (h : ensure (tensor, machine) = .ok () state) : ∃ id, state.1.buffer? = some id := by
  rw [ensure_apply] at h
  cases hensured : tensor.isEnsured with
  | error trap => simp [hensured] at h
  | ok ensured =>
    obtain ⟨count, hcount, hdone⟩ := isEnsured_eq_ok hensured
    cases hnumel.symm.trans hcount
    rw [beq_false_of_ne (Nat.ne_of_gt pos), Bool.false_or] at hdone
    subst hdone
    simp only [hensured] at h
    split at h
    · cases h
    · next hsome =>
      cases h
      exact Option.isSome_iff_exists.mp (Except.ok.inj hsome)
    · split at h
      · cases h
      · cases hsize : tensor.byteCount with
        | error trap => simp [hsize] at h
        | ok size =>
          simp only [hsize] at h
          cases h
          exact ⟨_, rfl⟩

/-- A copy moves all that a tensor reaches over, packed or not. -/
theorem Holds.copyCount_eq {id : BufferId} {buffer : Buffer} {elements extent : Nat}
    (holds : tensor.Holds machine id buffer elements extent) : tensor.copyCount = .ok extent := by
  obtain ⟨packed, hpacked, htight⟩ := holds.isPacked
  rw [copyCount, hpacked]
  cases packed with
  | true =>
    rw [htight rfl]
    exact holds.numel
  | false => exact holds.reach

/-- A tensor with memory that is of the type and layout of another one reaches over as much. -/
theorem Holds.alike {later : Machine} {id d : BufferId} {buffer target : Buffer}
    {elements extent found reach : Nat} (holds : src.Holds machine id buffer elements extent)
    (taken : tensor.Holds later d target found reach) (hdtype : tensor.dtype = src.dtype)
    (hshape : tensor.shape = src.shape) (hstrides : tensor.strides = src.strides) :
    tensor.Holds later d target elements extent ∧ target.size = buffer.size := by
  have hnumel := taken.numel
  rw [Tensor.numel, hshape, ← Tensor.numel, holds.numel] at hnumel
  have hreach := taken.reach
  rw [Tensor.extent, hshape, hstrides, ← Tensor.extent, holds.reach] at hreach
  cases hnumel
  cases hreach
  have hsize := taken.size
  rw [hdtype, holds.size] at hsize
  exact ⟨taken, (Except.ok.inj hsize).symm⟩

/-- A target that was laid out like a tensor with memory and took memory reaches over as much. -/
theorem Holds.ready {id : BufferId} {buffer : Buffer} {elements extent : Nat} {laid ready : Tensor × Machine}
    (holds : src.Holds machine id buffer elements extent) (fits : dst.Fits machine)
    (housed : dst.IsHoused machine) (hdtype : dst.dtype = src.dtype)
    (hresize : resize src.shape src.dimTypes (some src.strides) (dst, machine) = .ok () laid)
    (hensure : ensure laid = .ok () ready) :
    ∃ d target, ready.1.Holds ready.2 d target elements extent ∧ target.size = buffer.size := by
  have laidPasses := (evolving_resize _ _ _ _ _ (.of_ok hresize)).toPasses
  have passes := laidPasses.trans (evolving_ensure _ _ (.of_ok hensure)).toPasses
  obtain ⟨hshape, _, hlaid⟩ := layout_of_resize hresize
  obtain ⟨kshape, _, kstrides⟩ := layout_of_ensure hensure
  have hnumel : laid.1.numel = .ok elements := by
    rw [Tensor.numel, hshape]
    exact holds.numel
  obtain ⟨d, hd⟩ := exists_id_of_ensure hnumel holds.pos hensure
  have readyType : ready.1.dtype = src.dtype := passes.dtype.trans hdtype
  obtain ⟨target, _, _, taken⟩ :=
    exists_holds (passes.fits fits) (passes.housed housed) (readyType ▸ holds.sized) hd
  exact ⟨d, target, holds.alike taken readyType (kshape.trans hshape)
    (kstrides.trans (stridesFor_some.mp hlaid).2.symm)⟩

/-- A copy moves the bytes that were asked for. -/
theorem Holds.bytes_moved {id : BufferId} {buffer : Buffer} {elements extent count size : Nat}
    (holds : src.Holds machine id buffer elements extent) (hcount : src.copyCount = .ok count)
    (hsize : Word.mul count src.dtype.size = .ok size) : size = buffer.size := by
  rw [holds.copyCount_eq] at hcount
  cases hcount
  exact Except.ok.inj (hsize.symm.trans holds.mul_size)

theorem pos_of_mul_ne_zero {count size bytes : Nat} (h : Word.mul count size = .ok bytes) (hbytes : bytes ≠ 0) :
    0 < size := by
  obtain ⟨rfl, _⟩ := Word.mul_eq_ok.mp h
  exact Nat.pos_of_ne_zero (Nat.mul_ne_zero_iff.mp hbytes).2

/-- What comes of a copy from a tensor with memory: it is refused before any byte is touched, or the target is
laid out like the source and takes memory, and the bytes are copied. -/
theorem copyFrom_steps {id : BufferId} {buffer : Buffer} {elements extent : Nat}
    (holds : src.Holds machine id buffer elements extent) (fits : dst.Fits machine)
    (housed : dst.IsHoused machine)
    (known : (dst.dtype == src.dtype) = true → dst.dtype = src.dtype) :
    (∃ cause last, copyFrom src (dst, machine) = .error cause last ∧
      ∀ device, cause ≠ .error (.device device)) ∨
    ∃ laid ready d target,
      resize src.shape src.dimTypes (some src.strides) (dst, machine) = .ok () laid ∧
      ensure laid = .ok () ready ∧ ready.1.Holds ready.2 d target elements extent ∧
      target.size = buffer.size ∧
      copyFrom src (dst, machine) = onMachine (onDevice
        (Machine.copyBytes (some d) ready.1.stream (some id) src.stream buffer.size)) ready := by
  by_cases htoken : (dst.dtype == src.dtype) = true
  · have happly : copyFrom src (dst, machine) = moveFrom src (dst, machine) := by
      rw [copyFrom_apply, holds.isEmpty]
      exact if_pos htoken
    rw [happly]
    obtain ⟨cause, last, hmove, refused⟩ | ⟨laid, ready, count, size, hresize, hensure, hcount, hsize, hmove⟩ :=
      moveFrom_cases src (dst, machine)
    · refine .inl ⟨cause, last, hmove, ?_⟩
      obtain ⟨trap, rfl⟩ | hresize | ⟨laid, _, hensure⟩ := refused
      · rintro device ⟨⟩
      · exact resize_error hresize
      · exact ensure_error hensure
    · obtain ⟨d, target, taken, hbytes⟩ := holds.ready fits housed (known htoken) hresize hensure
      refine .inr ⟨laid, ready, d, target, hresize, hensure, taken, hbytes, ?_⟩
      rw [hmove, taken.held, holds.held, holds.bytes_moved hcount hsize]
  · refine .inl ⟨.error (.unsupportedConversion src.dtype.name dst.dtype.name), (dst, machine), ?_, ?_⟩
    · rw [copyFrom_apply, holds.isEmpty]
      exact if_neg htoken
    · rintro device ⟨⟩

/-- A copy that is not refused has memory for the same layout on both sides, and is one of bytes. -/
theorem copyFrom_cases {id : BufferId} {buffer : Buffer} {elements extent : Nat}
    (holds : src.Holds machine id buffer elements extent) (fits : dst.Fits machine)
    (housed : dst.IsHoused machine)
    (known : (dst.dtype == src.dtype) = true → dst.dtype = src.dtype) :
    (∃ cause last, copyFrom src (dst, machine) = .error cause last ∧
      ∀ device, cause ≠ .error (.device device)) ∨
    ∃ ready d target, ready.1.Holds ready.2 d target elements extent ∧ target.size = buffer.size ∧
      ready.2.buffers[id]? = some buffer ∧
      copyFrom src (dst, machine) = onMachine (onDevice
        (Machine.copyBytes (some d) ready.1.stream (some id) src.stream buffer.size)) ready := by
  refine (copyFrom_steps holds fits housed known).imp_right ?_
  rintro ⟨laid, ready, d, target, hresize, hensure, taken, hbytes, hcopy⟩
  have longer := (extends_of_resize (.of_ok hresize)).trans (extends_of_ensure (.of_ok hensure))
  exact ⟨ready, d, target, taken, hbytes, longer _ buffer holds.found, hcopy⟩

/-- The granules that are moved of a buffer are all there. -/
theorem Holds.room {tensor : Tensor} {machine : Machine} {id : BufferId} {buffer : Buffer}
    {elements extent : Nat} (holds : tensor.Holds machine id buffer elements extent) :
    roundUp copyGranule buffer.size ≤ buffer.bytes.length :=
  holds.length ▸ roundUp_copyGranule_le buffer.place buffer.size

/-- The bytes of all elements, without the padding. -/
theorem Holds.length_data {tensor : Tensor} {machine : Machine} {id : BufferId} {buffer : Buffer}
    {elements extent : Nat} (holds : tensor.Holds machine id buffer elements extent) :
    (buffer.bytes.take buffer.size).length = buffer.size := by
  rw [List.length_take, Nat.min_eq_left (holds.length ▸ le_roundUp buffer.place buffer.size)]

theorem Holds.size_ne_zero {tensor : Tensor} {machine : Machine} {id : BufferId} {buffer : Buffer}
    {elements extent : Nat} (holds : tensor.Holds machine id buffer elements extent) : buffer.size ≠ 0 := by
  have hpos := Layout.pos_of_extent holds.numel holds.pos holds.reach
  rw [holds.buffer_size]
  exact Nat.ne_of_gt (Nat.mul_pos hpos holds.sized)

theorem error_of_onMachine {work : Work DeviceError Unit} {reported : TensorError}
    (h : onMachine (onDevice work) state = .error (.error reported) last) :
    ∃ device later, reported = .device device ∧ work state.2 = .error (.error device) later := by
  rw [onMachine, zoom, onDevice, adaptErrors] at h
  cases hwork : work state.2 with
  | ok _ later => simp [hwork] at h
  | error cause later =>
    cases cause with
    | trap trap => simp [hwork] at h
    | error device =>
      simp only [hwork, Halt.map_error] at h
      cases h
      exact ⟨device, later, rfl, rfl⟩

/-- No copy finds a buffer too small. -/
theorem copyFrom_ne_outOfBounds (srcFits : src.Fits machine) (srcHoused : src.IsHoused machine)
    (fits : dst.Fits machine) (housed : dst.IsHoused machine)
    (known : (dst.dtype == src.dtype) = true → dst.dtype = src.dtype) (size capacity : Nat) :
    copyFrom src (dst, machine) ≠ .error (.error (.device (.outOfBounds size capacity))) last := by
  intro h
  rw [copyFrom_apply] at h
  split at h
  · cases h
  · cases h
  split at h
  · next htoken =>
    obtain ⟨cause, _, hmove, refused⟩ | ⟨laid, ready, count, bytes, hresize, hensure, hcount, hsize, hmove⟩ :=
      moveFrom_cases src (dst, machine)
    · cases h.symm.trans hmove
      obtain ⟨trap, hcause⟩ | hresize | ⟨laid, _, hensure⟩ := refused
      · cases hcause
      · exact resize_error hresize _ rfl
      · exact ensure_error hensure _ rfl
    · obtain ⟨_, later, hdevice, herror⟩ := error_of_onMachine (hmove.symm.trans h)
      cases hdevice
      by_cases hbytes : bytes = 0
      · unfold Machine.copyBytes at herror
        rw [if_pos hbytes] at herror
        cases herror
      · cases hid : src.buffer? with
        | none =>
          rw [hid, Machine.copyBytes_of_none hbytes] at herror
          cases herror
        | some id =>
          have sized := pos_of_mul_ne_zero hsize hbytes
          obtain ⟨buffer, elements, extent, holds⟩ := exists_holds srcFits srcHoused sized hid
          obtain ⟨d, target, taken, htarget⟩ := holds.ready fits housed (known htoken) hresize hensure
          have hfound := (extends_of_resize (.of_ok hresize)).trans (extends_of_ensure (.of_ok hensure)) _ buffer
            holds.found
          rw [taken.held, hid, holds.bytes_moved hcount hsize,
            Machine.copyBytes_eq_copyWithin holds.size_ne_zero taken.found hfound htarget.ge (Nat.le_refl _)]
            at herror
          obtain hcause | hcause | hcause := Machine.copyWithin_error herror <;> cases hcause
  · cases h

end ArrayEngine.Tensor
