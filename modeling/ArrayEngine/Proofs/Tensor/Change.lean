import ArrayEngine.Proofs.Tensor.Sound
import ArrayEngine.Tensor.Copy

/-! Changes of one tensor: what it holds afterwards is what it held before in the same layout, or new
memory. -/
namespace ArrayEngine.Tensor

/-- The tensor with another layout. It keeps its buffer only if shape and strides stay. -/
def relaid (tensor : Tensor) (shape : List Nat) (dimTypes : List DimType) (strides : List Nat) :
    Tensor :=
  { tensor with
    shape, dimTypes, strides
    buffer? := if tensor.shape == shape && tensor.strides == strides then tensor.buffer? else none }

/-- The tensor with a buffer. -/
def placed (tensor : Tensor) (id : BufferId) : Tensor := { tensor with buffer? := some id }

variable {tensor : Tensor} {machine : Machine}

theorem ensure_apply (tensor : Tensor) (machine : Machine) :
    ensure (tensor, machine) =
      match tensor.isEnsured with
      | .error trap => .error (.trap trap) (tensor, machine)
      | .ok true => .ok () (tensor, machine)
      | .ok false =>
        if tensor.isView then .error (.error .notEnsured) (tensor, machine)
        else
          match tensor.byteCount with
          | .error trap => .error (.trap trap) (tensor, machine)
          | .ok size =>
            .ok () (tensor.placed machine.buffers.length,
              machine.withBuffer tensor.stream.place size) := by
  rw [ensure, bind_apply]
  change (monadLift tensor.isEnsured >>= _ : Update Unit) (tensor, machine) = _
  rw [bind_apply]
  cases tensor.isEnsured with
  | error trap => rfl
  | ok ensured =>
    cases ensured with
    | true => rfl
    | false =>
      change (if tensor.isView then _ else _ : Update Unit) (tensor, machine) = _
      dsimp only
      split
      · rfl
      · rw [byteCount, bind_apply]
        cases tensor.extent with
        | error trap => rfl
        | ok extent =>
          change (monadLift (Word.mul extent tensor.dtype.size) >>= _ : Update Unit) (tensor, machine) =
            match byteSize extent tensor.dtype.size with | .error trap => _ | .ok size => _
          rw [bind_apply, byteSize]
          cases Word.mul extent tensor.dtype.size with
          | error trap => rfl
          | ok size =>
            change (monadLift (machine.allocate tensor.stream.place size) >>= _ : Update Unit) (tensor, machine) =
              match allocatable size with | .error trap => _ | .ok size => _
            rw [bind_apply, Machine.allocate]
            cases allocatable size <;> rfl

theorem resize_apply (shape : List Nat) (dimTypes : List DimType) (strides? : Option (List Nat))
    (tensor : Tensor) (machine : Machine) :
    resize shape dimTypes strides? (tensor, machine) =
      if dimTypes.length ≠ shape.length then
        .error (.error (.rank shape.length dimTypes.length)) (tensor, machine)
      else
        match stridesFor shape strides? with
        | .error cause => .error cause (tensor, machine)
        | .ok strides =>
          if tensor.isView then
            if tensor.shape == shape && tensor.strides == strides then
              .ok () ({ tensor with dimTypes }, machine)
            else .error (.error .resizeView) (tensor, machine)
          else if tensor.isLazy then .ok () (tensor.relaid shape dimTypes strides, machine)
          else ensure (tensor.relaid shape dimTypes strides, machine) := by
  rw [resize]
  by_cases hrank : dimTypes.length ≠ shape.length
  · rw [if_pos hrank, if_pos hrank]
    rfl
  · rw [if_neg hrank, if_neg hrank]
    change (monadLift (stridesFor shape strides?) >>= _ : Update Unit) (tensor, machine) = _
    rw [bind_apply]
    cases stridesFor shape strides? with
    | error cause => rfl
    | ok strides =>
      change (if tensor.isView then _ else _ : Update Unit) (tensor, machine) = _
      dsimp only
      split
      · split <;> rfl
      · change (if tensor.isLazy then _ else _ : Update Unit) (tensor.relaid shape dimTypes strides,
          machine) = _
        split <;> rfl

theorem stridesFor_some {shape asked strides : List Nat} :
    stridesFor shape (some asked) = .ok strides ↔ asked.length = shape.length ∧ asked = strides := by
  rw [stridesFor]
  split <;> simp_all

theorem stridesFor_none {shape strides : List Nat} :
    stridesFor shape none = .ok strides ↔ Layout.packedStrides shape = .ok strides := by
  rw [stridesFor]
  cases Layout.packedStrides shape <;> simp [monadLift, MonadLift.monadLift, Except.mapError]

/-- Strides are refused if they are not as many as there are axes. -/
theorem stridesFor_error {shape : List Nat} {strides? : Option (List Nat)} {cause : Halt TensorError}
    (h : stridesFor shape strides? = .error cause) : (∃ trap, cause = .trap trap) ∨
      ∃ strides, strides? = some strides ∧ strides.length ≠ shape.length ∧
        cause = .error (.rank shape.length strides.length) := by
  cases strides? with
  | some asked =>
    rw [stridesFor] at h
    split at h
    · cases h
    · next hlength =>
      cases h
      exact .inr ⟨asked, rfl, hlength, rfl⟩
  | none =>
    rw [stridesFor] at h
    cases hpacked : Layout.packedStrides shape with
    | ok strides =>
      rw [hpacked] at h
      cases h
    | error trap =>
      rw [hpacked] at h
      cases h
      exact .inl ⟨trap, rfl⟩

theorem length_of_stridesFor {shape strides : List Nat} {strides? : Option (List Nat)}
    (h : stridesFor shape strides? = .ok strides) : strides.length = shape.length := by
  cases strides? with
  | some asked =>
    obtain ⟨hlength, rfl⟩ := stridesFor_some.mp h
    exact hlength
  | none => exact Layout.length_stridesFrom (stridesFor_none.mp h)

/-- A tensor on a machine, and what becomes of them: no buffer of the machine is taken away, and a buffer
that the tensor has is new, or the tensor had it before in the same layout. -/
structure Passes (before after : Tensor × Machine) : Prop where
  keeps : before.2.Keeps after.2
  dtype : after.1.dtype = before.1.dtype
  buffer : ∀ id, after.1.buffer? = some id → before.2.buffers.length ≤ id ∨
    before.1.buffer? = some id ∧ after.1.shape = before.1.shape ∧
      after.1.strides = before.1.strides ∧ after.1.ownership = before.1.ownership
  owned : before.1.isView = false → after.1.isView = false
  fits : before.1.Fits before.2 → after.1.Fits after.2
  housed : before.1.IsHoused before.2 → after.1.IsHoused after.2
  host : before.1.OnHost before.2 → after.1.OnHost after.2

/-- What becomes of a tensor and a machine by an operation: if it was sound, it is. -/
structure ChangesTo (before after : Tensor × Machine) : Prop extends Passes before after where
  eager : before.1.IsEager → after.1.IsEager

theorem ChangesTo.sound {before after : Tensor × Machine} (h : ChangesTo before after)
    (sound : before.1.Sound before.2) : after.1.Sound after.2 :=
  ⟨h.fits sound.toFits, h.eager sound.eager⟩

theorem Passes.trans {first second third : Tensor × Machine} (h : Passes first second)
    (k : Passes second third) : Passes first third := by
  refine ⟨h.keeps.trans k.keeps, k.dtype.trans h.dtype, fun id hid => ?_,
    fun owned => k.owned (h.owned owned), fun fits => k.fits (h.fits fits),
    fun housed => k.housed (h.housed housed), fun host => k.host (h.host host)⟩
  rcases k.buffer id hid with hnew | ⟨hid, hshape, hstrides, howner⟩
  · exact .inl (Nat.le_trans h.keeps.length_le hnew)
  · rcases h.buffer id hid with hnew | ⟨hid, kshape, kstrides, kowner⟩
    · exact .inl hnew
    · exact .inr ⟨hid, hshape.trans kshape, hstrides.trans kstrides, howner.trans kowner⟩

theorem ChangesTo.refl (state : Tensor × Machine) : ChangesTo state state :=
  ⟨⟨.refl _, rfl, fun _ h => .inr ⟨h, rfl, rfl, rfl⟩, id, id, id, id⟩, id⟩

theorem ChangesTo.trans {first second third : Tensor × Machine} (h : ChangesTo first second)
    (k : ChangesTo second third) : ChangesTo first third :=
  ⟨h.toPasses.trans k.toPasses, fun eager => k.eager (h.eager eager)⟩

instance : Std.Refl ChangesTo := ⟨ChangesTo.refl⟩

instance : IsTrans (Tensor × Machine) ChangesTo := ⟨fun _ _ _ => ChangesTo.trans⟩

/-- Work on the machine alone. -/
theorem keeping_onMachine {α : Type} {work : Work TensorError α} (h : Keeping Machine.Keeps work) :
    Keeping ChangesTo (onMachine work) :=
  .zoom h fun _ _ keeps =>
    ⟨⟨keeps, rfl, fun _ hid => .inr ⟨hid, rfl, rfl, rfl⟩, id, fun fits => fits.keeps keeps,
      fun housed => housed.keeps keeps, fun host => host.keeps keeps⟩, id⟩

theorem changesTo_emptied (tensor : Tensor) (machine : Machine) :
    ChangesTo (tensor, machine) (tensor.emptied, machine) :=
  ⟨⟨.refl machine, rfl, fun _ hid => (nomatch hid), fun _ => rfl,
    fun _ => (sound_emptied tensor machine).toFits, fun _ _ hid => (nomatch hid), OnHost.emptied⟩,
    fun _ => (sound_emptied tensor machine).eager⟩

theorem passes_relaid (tensor : Tensor) (machine : Machine) {shape strides : List Nat}
    {dimTypes : List DimType} (htypes : dimTypes.length = shape.length)
    (hstrides : strides.length = shape.length) :
    Passes (tensor, machine) (tensor.relaid shape dimTypes strides, machine) := by
  have kept {id : BufferId} (hid : (tensor.relaid shape dimTypes strides).buffer? = some id) :
      tensor.buffer? = some id ∧ tensor.shape = shape ∧ tensor.strides = strides := by
    simp only [relaid] at hid
    split at hid
    · next same =>
      obtain ⟨hshape, hsame⟩ := Bool.and_eq_true_iff.mp same
      exact ⟨hid, eq_of_beq hshape, eq_of_beq hsame⟩
    · cases hid
  refine ⟨.refl machine, rfl, fun id hid => .inr ?_, id, fun fits => ⟨htypes, hstrides, fun id hid => ?_⟩,
    fun housed id hid => housed id (kept hid).1,
    fun host => ⟨host.device, host.stream, host.ownership, fun id hid => host.memory id (kept hid).1⟩⟩
  · obtain ⟨hold, hshape, hsame⟩ := kept hid
    exact ⟨hold, hshape.symm, hsame.symm, rfl⟩
  · obtain ⟨hold, rfl, rfl⟩ := kept hid
    exact fits.memory id hold

/-- Taking memory does nothing where there is enough or none can be had, and else adds a buffer. -/
theorem ensure_cases {state : Tensor × Machine} (ends : EndsAt (ensure (tensor, machine)) state) :
    state = (tensor, machine) ∧ (tensor.isView = false → tensor.HasMemory) ∨
      ∃ count size, tensor.numel = .ok count ∧ 0 < count ∧ tensor.byteCount = .ok size ∧
        state = (tensor.placed machine.buffers.length,
          machine.withBuffer tensor.stream.place size) := by
  rw [ensure_apply] at ends
  cases hensured : tensor.isEnsured with
  | error trap =>
    rw [hensured] at ends
    cases ends
  | ok ensured =>
    obtain ⟨count, hcount, hdone⟩ := isEnsured_eq_ok hensured
    rw [hensured] at ends
    cases ensured with
    | true =>
      cases ends
      refine .inl ⟨rfl, fun _ => ?_⟩
      rcases Bool.or_eq_true_iff.mp hdone.symm with hzero | hsome
      · exact .inl (hcount.trans (congrArg _ (eq_of_beq hzero)))
      · exact .inr hsome
    | false =>
      cases hview : tensor.isView with
      | true =>
        simp only [hview, if_true] at ends
        cases ends
        exact .inl ⟨rfl, fun h => nomatch h⟩
      | false =>
        simp only [hview, Bool.false_eq_true, if_false] at ends
        cases hsize : tensor.byteCount with
        | error trap =>
          rw [hsize] at ends
          cases ends
        | ok size =>
          rw [hsize] at ends
          cases ends
          have hpos : 0 < count :=
            Nat.pos_of_ne_zero (by simpa using (Bool.or_eq_false_iff.mp hdone.symm).1)
          exact .inr ⟨count, size, hcount, hpos, rfl, rfl⟩

theorem length_zeroed (place : Place) (size : Nat) :
    (Buffer.zeroed place size).bytes.length = roundUp place.granule size :=
  List.length_replicate

/-- A new buffer of the host has room for what it was asked for. -/
private theorem zeroed_fits (size : Nat) :
    (Buffer.zeroed .host size).size ≤ (Buffer.zeroed .host size).bytes.length := by
  rw [length_zeroed]
  simp only [Buffer.zeroed, roundUp, Place.granule]
  omega

/-- After memory was taken, a tensor that is no view has it. -/
theorem passes_ensure {state : Tensor × Machine} (ends : EndsAt (ensure (tensor, machine)) state) :
    Passes (tensor, machine) state ∧ (tensor.isView = false → state.1.HasMemory) ∧
      (tensor.IsEager → state.1.IsEager) := by
  rcases ensure_cases ends with ⟨rfl, hmemory⟩ | ⟨count, size, hcount, hpos, hsize, rfl⟩
  · exact ⟨(ChangesTo.refl _).toPasses, hmemory, id⟩
  · refine ⟨⟨Machine.keeps_withBuffer machine _ size, rfl, fun id hid => .inl ?_, id, fun fits => ?_,
      fun _ id hid => ?_, fun host => ?_⟩, fun _ => .inr rfl, fun _ _ => .inr rfl⟩
    · cases hid
      exact Nat.le_refl _
    · refine ⟨fits.dimTypes, fits.strides, fun id hid => ?_⟩
      cases hid
      exact ⟨count, _, hcount, hpos, List.getElem?_concat_length, hsize⟩
    · cases hid
      exact ⟨_, List.getElem?_concat_length, length_zeroed _ size⟩
    · refine ⟨host.device, host.stream, host.ownership, fun id hid => ?_⟩
      cases hid
      refine ⟨_, List.getElem?_concat_length, ?_, ?_⟩
      · rw [host.stream]
        rfl
      · rw [host.stream]
        exact zeroed_fits size

theorem evolving_ensure : Evolving ChangesTo ensure := by
  rintro ⟨tensor, machine⟩ state ends
  obtain ⟨passes, _, eager⟩ := passes_ensure ends
  exact ⟨passes, eager⟩

/-- A tensor that is resized stays as it was, or it keeps its shape and strides, or it gets a new layout
and memory unless it is lazy. -/
theorem resize_cases {shape : List Nat} {dimTypes : List DimType} {strides? : Option (List Nat)}
    {state : Tensor × Machine} (ends : EndsAt (resize shape dimTypes strides? (tensor, machine)) state) :
    state = (tensor, machine) ∨
      ∃ strides, dimTypes.length = shape.length ∧ stridesFor shape strides? = .ok strides ∧
        (tensor.shape = shape ∧ state = ({ tensor with dimTypes }, machine) ∨
          tensor.isLazy = true ∧ state = (tensor.relaid shape dimTypes strides, machine) ∨
          tensor.isView = false ∧ EndsAt (ensure (tensor.relaid shape dimTypes strides, machine)) state) := by
  rw [resize_apply] at ends
  by_cases hrank : dimTypes.length ≠ shape.length
  · rw [if_pos hrank] at ends
    exact .inl ends.symm
  · rw [if_neg hrank] at ends
    cases hstrides : stridesFor shape strides? with
    | error cause =>
      rw [hstrides] at ends
      cases cause with
      | trap cause => cases ends
      | error cause => exact .inl ends.symm
    | ok strides =>
      simp only [hstrides] at ends
      cases hview : tensor.isView with
      | true =>
        simp only [hview, if_true] at ends
        split at ends
        · next same =>
          have hshape : tensor.shape = shape := eq_of_beq (Bool.and_eq_true_iff.mp same).1
          exact .inr ⟨strides, Decidable.not_not.mp hrank, rfl, .inl ⟨hshape, ends.symm⟩⟩
        · exact .inl ends.symm
      | false =>
        simp only [hview, Bool.false_eq_true, if_false] at ends
        refine .inr ⟨strides, Decidable.not_not.mp hrank, rfl, .inr ?_⟩
        split at ends
        · next hlazy => exact .inl ⟨hlazy, ends.symm⟩
        · exact .inr ⟨rfl, ends⟩

theorem layout_of_ensure {now : Tensor} {later : Machine}
    (h : ensure (tensor, machine) = .ok () (now, later)) :
    now.shape = tensor.shape ∧ now.dimTypes = tensor.dimTypes ∧ now.strides = tensor.strides := by
  rcases ensure_cases (.of_ok h) with ⟨hsame, _⟩ | ⟨_, _, _, _, _, hplaced⟩
  · cases hsame
    exact ⟨rfl, rfl, rfl⟩
  · cases hplaced
    exact ⟨rfl, rfl, rfl⟩

/-- A tensor that was resized has the layout that was asked for. -/
theorem layout_of_resize {shape : List Nat} {dimTypes : List DimType}
    {strides? : Option (List Nat)} {now : Tensor} {later : Machine}
    (h : resize shape dimTypes strides? (tensor, machine) = .ok () (now, later)) :
    now.shape = shape ∧ now.dimTypes = dimTypes ∧ stridesFor shape strides? = .ok now.strides := by
  rw [resize_apply] at h
  split at h
  · cases h
  · cases hstrides : stridesFor shape strides? with
    | error cause => simp [hstrides] at h
    | ok strides =>
      simp only [hstrides] at h
      split at h
      · split at h
        · next same =>
          cases h
          obtain ⟨hshape, hsame⟩ := Bool.and_eq_true_iff.mp same
          exact ⟨eq_of_beq hshape, rfl, congrArg _ (eq_of_beq hsame).symm⟩
        · cases h
      · split at h
        · cases h
          exact ⟨rfl, rfl, rfl⟩
        · obtain ⟨hshape, htypes, hsame⟩ := layout_of_ensure h
          exact ⟨hshape, htypes, congrArg _ hsame.symm⟩

/-- Memory is refused to a view only, which stays as it was. -/
theorem ensure_error_eq {cause : TensorError} {state : Tensor × Machine}
    (h : ensure (tensor, machine) = .error (.error cause) state) :
    tensor.isView = true ∧ cause = .notEnsured ∧ state = (tensor, machine) := by
  rw [ensure_apply] at h
  split at h
  · cases h
  · cases h
  · split at h
    · next view =>
      cases h
      exact ⟨view, rfl, rfl⟩
    · split at h <;> cases h

/-- A tensor that is no view is not refused memory. -/
theorem ensure_ne_error {cause : TensorError} {state : Tensor × Machine}
    (owned : tensor.isView = false) : ensure (tensor, machine) ≠ .error (.error cause) state :=
  fun h => Bool.false_ne_true (owned.symm.trans (ensure_error_eq h).1)

/-- A tensor is refused a layout where the numbers of axes differ, or as a view. It stays as it was. -/
theorem resize_error_eq {shape : List Nat} {dimTypes : List DimType} {strides? : Option (List Nat)}
    {cause : TensorError} {state : Tensor × Machine}
    (h : resize shape dimTypes strides? (tensor, machine) = .error (.error cause) state) :
    state = (tensor, machine) ∧
      (dimTypes.length ≠ shape.length ∧ cause = .rank shape.length dimTypes.length ∨
        (∃ strides, strides? = some strides ∧ strides.length ≠ shape.length ∧
          cause = .rank shape.length strides.length) ∨
        tensor.isView = true ∧ cause = .resizeView) := by
  rw [resize_apply] at h
  split at h
  · next hrank =>
    cases h
    exact ⟨rfl, .inl ⟨hrank, rfl⟩⟩
  · cases hstrides : stridesFor shape strides? with
    | error refused =>
      rw [hstrides] at h
      cases h
      obtain ⟨trap, htrap⟩ | ⟨strides, hsome, hlength, hcause⟩ := stridesFor_error hstrides
      · cases htrap
      · cases hcause
        exact ⟨rfl, .inr (.inl ⟨strides, hsome, hlength, rfl⟩)⟩
    | ok strides =>
      simp only [hstrides] at h
      split at h
      · next view =>
        split at h
        · cases h
        · cases h
          exact ⟨rfl, .inr (.inr ⟨view, rfl⟩)⟩
      · next owned =>
        split at h
        · cases h
        · have hrelaid : (tensor.relaid shape dimTypes strides).isView = false := eq_false_of_ne_true owned
          exact absurd h (ensure_ne_error hrelaid)

/-- A tensor that is no view is refused a layout only where the numbers of axes differ. -/
theorem resize_error_of_owned {shape : List Nat} {dimTypes : List DimType}
    {strides? : Option (List Nat)} {cause : TensorError} {state : Tensor × Machine}
    (owned : tensor.isView = false)
    (h : resize shape dimTypes strides? (tensor, machine) = .error (.error cause) state) :
    state = (tensor, machine) ∧
      (dimTypes.length ≠ shape.length ∧ cause = .rank shape.length dimTypes.length ∨
        ∃ strides, strides? = some strides ∧ strides.length ≠ shape.length ∧
          cause = .rank shape.length strides.length) := by
  obtain ⟨same, hrank | hstrides | ⟨view, _⟩⟩ := resize_error_eq h
  · exact ⟨same, .inl hrank⟩
  · exact ⟨same, .inr hstrides⟩
  · exact absurd (owned.symm.trans view) Bool.false_ne_true

theorem evolving_resize (shape : List Nat) (dimTypes : List DimType) (strides? : Option (List Nat)) :
    Evolving ChangesTo (resize shape dimTypes strides?) := by
  rintro ⟨tensor, machine⟩ state ends
  rcases resize_cases ends with rfl | ⟨strides, htypes, hstrides, hcases⟩
  · exact .refl _
  have relaid := passes_relaid tensor machine htypes (length_of_stridesFor hstrides)
  rcases hcases with ⟨rfl, rfl⟩ | ⟨hlazy, rfl⟩ | ⟨hview, ends⟩
  · refine ⟨⟨.refl machine, rfl, fun _ hid => .inr ⟨hid, rfl, rfl, rfl⟩, id, fun fits => ?_, id,
      fun host => ⟨host.device, host.stream, host.ownership, host.memory⟩⟩, id⟩
    exact ⟨htypes, fits.strides, fits.memory⟩
  · exact ⟨relaid, fun _ eager => absurd (hlazy.symm.trans eager) Bool.noConfusion⟩
  · obtain ⟨passes, memory, _⟩ := passes_ensure ends
    exact ⟨relaid.trans passes, fun _ _ => memory hview⟩

/-- The part of a copy that is left for a source with elements of the same type. -/
def moveFrom (src : Tensor) : Update Unit := do
  resize src.shape src.dimTypes (some src.strides)
  ensure
  let size ← Word.mul (← src.copyCount) src.dtype.size
  let (dst, _) ← MonadState.get
  onMachine (onDevice (Machine.copyBytes dst.buffer? dst.stream src.buffer? src.stream size))

/-- What a copy comes to: a trap, a refusal of the layout or of memory, or a copy of bytes once the target
is ready for it. -/
theorem moveFrom_cases (src : Tensor) (state : Tensor × Machine) :
    (∃ cause last, moveFrom src state = .error cause last ∧ ((∃ trap, cause = .trap trap) ∨
      resize src.shape src.dimTypes (some src.strides) state = .error cause last ∨
      ∃ laid, resize src.shape src.dimTypes (some src.strides) state = .ok () laid ∧
        ensure laid = .error cause last)) ∨
    ∃ laid ready count size, resize src.shape src.dimTypes (some src.strides) state = .ok () laid ∧
      ensure laid = .ok () ready ∧ src.copyCount = .ok count ∧
      Word.mul count src.dtype.size = .ok size ∧
      moveFrom src state = onMachine (onDevice (Machine.copyBytes ready.1.buffer? ready.1.stream
        src.buffer? src.stream size)) ready := by
  rw [moveFrom, bind_apply]
  cases resize src.shape src.dimTypes (some src.strides) state with
  | error cause last => exact .inl ⟨cause, last, rfl, .inr (.inl rfl)⟩
  | ok _ laid =>
    dsimp only
    rw [bind_apply]
    cases hensure : ensure laid with
    | error cause last => exact .inl ⟨cause, last, rfl, .inr (.inr ⟨laid, rfl, hensure⟩)⟩
    | ok _ ready =>
      dsimp only
      rw [bind_apply]
      cases src.copyCount with
      | error trap => exact .inl ⟨_, _, rfl, .inl ⟨trap, rfl⟩⟩
      | ok count =>
        change (∃ cause last, (monadLift (Word.mul count src.dtype.size) >>= _ : Update Unit) ready =
          .error cause last ∧ _) ∨ _
        rw [bind_apply]
        cases hsize : Word.mul count src.dtype.size with
        | error trap => exact .inl ⟨_, _, rfl, .inl ⟨trap, rfl⟩⟩
        | ok size =>
          refine .inr ⟨laid, ready, count, size, rfl, hensure, rfl, hsize, ?_⟩
          change (monadLift (Word.mul count src.dtype.size) >>= _ : Update Unit) ready = _
          rw [bind_apply, hsize]
          rfl

theorem copyFrom_apply (src tensor : Tensor) (machine : Machine) :
    copyFrom src (tensor, machine) =
      match src.isEmpty with
      | .error trap => .error (.trap trap) (tensor, machine)
      | .ok true => .ok () (tensor.emptied, machine)
      | .ok false =>
        if tensor.dtype == src.dtype then moveFrom src (tensor, machine)
        else .error (.error (.unsupportedConversion src.dtype.name tensor.dtype.name))
          (tensor, machine) := by
  change (monadLift src.isEmpty >>= _ : Update Unit) (tensor, machine) = _
  rw [bind_apply]
  cases src.isEmpty with
  | error trap => rfl
  | ok empty =>
    cases empty with
    | true => rfl
    | false =>
      change (if !(tensor.dtype == src.dtype) then _ else _ : Update Unit) (tensor, machine) = _
      cases tensor.dtype == src.dtype <;> rfl

/-- A copy from a tensor with elements that succeeded: the target is of the same type, it was laid out like the
source, took memory, and the bytes were copied. -/
theorem steps_of_copyFrom {src now : Tensor} {later : Machine} (hempty : src.isEmpty = .ok false)
    (h : copyFrom src (tensor, machine) = .ok () (now, later)) :
    (tensor.dtype == src.dtype) = true ∧ ∃ laid grown count size,
      resize src.shape src.dimTypes (some src.strides) (tensor, machine) = .ok () laid ∧
      ensure laid = .ok () (now, grown) ∧ src.copyCount = .ok count ∧
      Word.mul count src.dtype.size = .ok size ∧
      Machine.copyBytes now.buffer? now.stream src.buffer? src.stream size grown = .ok () later := by
  rw [copyFrom_apply, hempty] at h
  dsimp only at h
  split at h
  · next htoken =>
    obtain ⟨_, _, herror, _⟩ | ⟨laid, ready, count, size, hresize, hensure, hcount, hsize, hmove⟩ :=
      moveFrom_cases src (tensor, machine)
    · cases herror.symm.trans h
    · rw [hmove, onMachine, zoom, onDevice, adaptErrors] at h
      cases hcopy : Machine.copyBytes ready.1.buffer? ready.1.stream src.buffer? src.stream size ready.2 with
      | error cause last => simp [hcopy] at h
      | ok _ last =>
        simp only [hcopy] at h
        cases h
        exact ⟨htoken, laid, ready.2, count, size, hresize, hensure, hcount, hsize, hcopy⟩
  · cases h

/-- A tensor that was given the elements of another one has its layout. -/
theorem layout_of_copyFrom {src now : Tensor} {later : Machine} (hempty : src.isEmpty = .ok false)
    (h : copyFrom src (tensor, machine) = .ok () (now, later)) :
    now.shape = src.shape ∧ now.dimTypes = src.dimTypes ∧ now.strides = src.strides := by
  obtain ⟨_, laid, grown, _, _, hresize, hensure, _⟩ := steps_of_copyFrom hempty h
  obtain ⟨hshape, htypes, hstrides⟩ := layout_of_resize hresize
  obtain ⟨kshape, ktypes, kstrides⟩ := layout_of_ensure hensure
  exact ⟨kshape.trans hshape, ktypes.trans htypes, kstrides.trans (stridesFor_some.mp hstrides).2.symm⟩

theorem evolving_moveFrom (src : Tensor) : Evolving ChangesTo (moveFrom src) := by
  refine .bind (evolving_resize _ _ _) fun _ => .bind evolving_ensure fun _ => ?_
  refine .bind (.liftTrap _) fun count => .bind (.liftTrap _) fun size => .get_bind fun state => ?_
  exact .of_keeping (keeping_onMachine (.adaptErrors (Machine.keeping_copyBytes _ _ _ _ _)))

theorem evolving_copyFrom (src : Tensor) : Evolving ChangesTo (copyFrom src) := by
  rintro ⟨tensor, machine⟩ state ends
  rw [copyFrom_apply] at ends
  split at ends
  · cases ends
  · cases ends
    exact changesTo_emptied tensor machine
  · split at ends
    · exact evolving_moveFrom src _ _ ends
    · cases ends
      exact .refl _

theorem evolving_fill (value : Element) : Evolving ChangesTo (fill value) := by
  refine .bind evolving_ensure fun _ => .get_bind fun state => ?_
  dsimp only
  split
  · exact .of_keeping (keeping_onMachine (keeping_fillHost _ _))
  · exact .of_keeping (keeping_onMachine (keeping_fillGpu _ _))

theorem evolving_zero {catalogue : Catalogue} (tame : catalogue.IsTame) :
    Evolving ChangesTo (zero catalogue) := by
  refine .get_bind fun state => .bind (.lift _) fun on => .bind evolving_ensure fun _ => ?_
  refine .get_bind fun state => .bind (.liftTrap _) fun empty => ?_
  split
  · exact .pure _
  · split
    · exact .of_keeping (keeping_onMachine (tame.keeping_dispatch Kernel.tame_zeroHostTable _ _ _))
    · exact .of_keeping (keeping_onMachine (tame.keeping_dispatch Kernel.tame_zeroGpuTable _ _ _))

variable {src dst : Tensor} {state : Tensor × Machine}

/-- Both tensors are on the same device, and work on them goes to the same stream. -/
structure SameStream (tensor other : Tensor) : Prop where
  device : tensor.device = other.device
  stream : tensor.stream = other.stream

theorem SameStream.refl (tensor : Tensor) : tensor.SameStream tensor := ⟨rfl, rfl⟩

theorem SameStream.trans {first second third : Tensor} (h : first.SameStream second)
    (k : second.SameStream third) : first.SameStream third :=
  ⟨h.device.trans k.device, h.stream.trans k.stream⟩

theorem sameStream_of_ensure (h : ensure (tensor, machine) = .ok () state) : state.1.SameStream tensor := by
  obtain ⟨rfl, _⟩ | ⟨_, _, _, _, _, rfl⟩ := ensure_cases (.of_ok h)
  · exact .refl _
  · exact ⟨rfl, rfl⟩

theorem sameStream_of_resize {shape : List Nat} {dimTypes : List DimType} {strides? : Option (List Nat)}
    (h : resize shape dimTypes strides? (tensor, machine) = .ok () state) : state.1.SameStream tensor := by
  rw [resize_apply] at h
  split at h
  · cases h
  · split at h
    · cases h
    · split at h
      · split at h
        · cases h
          exact ⟨rfl, rfl⟩
        · cases h
      · split at h
        · cases h
          exact ⟨rfl, rfl⟩
        · exact (sameStream_of_ensure h).trans ⟨rfl, rfl⟩

/-- A copy leaves its target where it is. -/
theorem sameStream_of_copyFrom (h : copyFrom src (dst, machine) = .ok () state) : state.1.SameStream dst := by
  cases hempty : src.isEmpty with
  | error trap =>
    rw [copyFrom_apply, hempty] at h
    cases h
  | ok empty =>
    cases empty with
    | true =>
      rw [copyFrom_apply, hempty] at h
      cases h
      exact ⟨rfl, rfl⟩
    | false =>
      obtain ⟨_, laid, grown, _, _, hresize, hensure, _⟩ := steps_of_copyFrom hempty h
      exact (sameStream_of_ensure hensure).trans (sameStream_of_resize hresize)

end ArrayEngine.Tensor
