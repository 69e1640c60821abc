import ArrayEngine.Proofs.Tensor.Change

/-! New tensors: over memory of their own, or views of others. -/
namespace ArrayEngine.Tensor

/-- A tensor was made on a machine, over new memory. -/
structure IsNew (machine : Machine) (tensor : Tensor) (later : Machine) : Prop where
  keeps : machine.Keeps later
  sound : tensor.Sound later
  housed : tensor.IsHoused later
  buffer : ∀ id, tensor.buffer? = some id → machine.buffers.length ≤ id

/-- A tensor is a view of another one, which may be worked on elsewhere. -/
structure IsViewOf (tensor src : Tensor) : Prop where
  buffer : tensor.buffer? = src.buffer?
  dtype : tensor.dtype = src.dtype
  shape : tensor.shape = src.shape
  strides : tensor.strides = src.strides
  dimTypes : tensor.dimTypes = src.dimTypes
  isLazy : tensor.isLazy = src.isLazy
  ownership : tensor.ownership = .view

variable {tensor src : Tensor} {machine later last : Machine}

theorem IsViewOf.sound (view : tensor.IsViewOf src) (sound : src.Sound machine) :
    tensor.Sound machine := by
  obtain ⟨hbuffer, hdtype, hshape, hstrides, htypes, hlazy, _⟩ := view
  refine ⟨⟨?_, ?_, ?_⟩, ?_⟩
  · rw [htypes, hshape]
    exact sound.dimTypes
  · rw [hstrides, hshape]
    exact sound.strides
  · rw [numel, byteCount, extent, hbuffer, hdtype, hshape, hstrides]
    exact sound.memory
  · rw [IsEager, HasMemory, numel, hbuffer, hshape, hlazy]
    exact sound.eager

theorem IsViewOf.housed (view : tensor.IsViewOf src) (housed : src.IsHoused machine) :
    tensor.IsHoused machine :=
  fun id hid => housed id (view.buffer ▸ hid)

theorem IsNew.then (made : IsNew machine tensor later) (keeps : later.Keeps last) :
    IsNew machine tensor last :=
  ⟨made.keeps.trans keeps, made.sound.keeps keeps, made.housed.keeps keeps, made.buffer⟩

theorem evolving_build (tensor : Tensor) {changes : Update Unit} (h : Evolving ChangesTo changes) :
    Evolving Machine.Keeps (build tensor changes) := by
  intro machine later ends
  have ends : EndsAt (changes (tensor, machine)) (match changes (tensor, machine) with
      | .ok _ state | .error _ state => (state.1, later)) := by
    rw [build] at ends
    cases hchanges : changes (tensor, machine) with
    | ok _ state =>
      rw [hchanges] at ends
      cases ends
      rfl
    | error cause state =>
      rw [hchanges] at ends
      cases cause with
      | trap cause => cases ends
      | error cause =>
        cases ends
        rfl
  have keeps := (h _ _ ends).keeps
  split at keeps <;> exact keeps

theorem isNew_blank (dtype : TypeInfo) (stream : Stream) (isLazy : Bool) (machine : Machine) :
    IsNew machine (blank dtype stream isLazy) machine :=
  ⟨.refl machine, sound_blank dtype stream isLazy machine, fun _ hid => (nomatch hid), fun _ hid => nomatch hid⟩

/-- A new tensor that is changed is a new tensor. -/
theorem IsNew.changed {changes : Update Unit} (made : IsNew machine src later)
    (h : Evolving ChangesTo changes) (hbuild : build src changes later = .ok tensor last) :
    IsNew machine tensor last := by
  rw [build] at hbuild
  cases hchanges : changes (src, later) with
  | error cause state => simp [hchanges] at hbuild
  | ok _ state =>
    rw [hchanges] at hbuild
    cases hbuild
    have changed := h (src, later) state (by rw [hchanges]; rfl)
    refine ⟨made.keeps.trans changed.keeps, changed.sound made.sound, changed.housed made.housed, fun id hid => ?_⟩
    rcases changed.buffer id hid with hnew | ⟨hid, _⟩
    · exact Nat.le_trans made.keeps.length_le hnew
    · exact made.buffer id hid

theorem evolving_withLayout (dtype : TypeInfo) (shape : List Nat) (dimTypes : List DimType)
    (strides? : Option (List Nat)) (stream : Stream) (isLazy : Bool) :
    Evolving Machine.Keeps (withLayout dtype shape dimTypes strides? stream isLazy) :=
  evolving_build _ (evolving_resize _ _ _)

theorem IsNew.of_withLayout {dtype : TypeInfo} {shape : List Nat} {dimTypes : List DimType}
    {strides? : Option (List Nat)} {stream : Stream} {isLazy : Bool}
    (h : withLayout dtype shape dimTypes strides? stream isLazy machine = .ok tensor later) :
    IsNew machine tensor later :=
  (isNew_blank _ _ _ _).changed (evolving_resize _ _ _) h

theorem evolving_ofList (dtype : TypeInfo) (shape : List Nat) (elements : List Element) :
    Evolving Machine.Keeps (ofList dtype shape elements) := by
  have written : Evolving Machine.Keeps (do
      let tensor ← create dtype shape .cpu false
      tensor.write fun _ => .ok elements
      return tensor : Work TensorError Tensor) := by
    refine .bind (evolving_withLayout _ _ _ _ _ _) ?_
    intro tensor
    exact .bind (.of_keeping (tensor.keeping_write _)) fun _ => .pure _
  refine .bind (.liftTrap _) ?_
  intro expected
  split
  · exact .bind (.throw _) fun _ => written
  · exact written

theorem IsNew.of_ofList {dtype : TypeInfo} {shape : List Nat} {elements : List Element}
    (h : ofList dtype shape elements machine = .ok tensor later) : IsNew machine tensor later := by
  obtain ⟨expected, _, hexpected, h⟩ := bind_eq_ok.mp h
  obtain ⟨_, rfl⟩ := liftTrap_eq_ok.mp hexpected
  split at h
  · cases h
  · obtain ⟨made, _, hmade, h⟩ := bind_eq_ok.mp h
    obtain ⟨_, _, hwrite, h⟩ := bind_eq_ok.mp h
    cases h
    exact (IsNew.of_withLayout hmade).then ((keeping_write _ _).ok hwrite)

theorem evolving_cast {catalogue : Catalogue} (tame : catalogue.IsTame) (src : Tensor)
    (dtype : TypeInfo) : Evolving Machine.Keeps (cast catalogue src dtype) := by
  have converted : Evolving Machine.Keeps (do
      let on ← catalogue.select [dtype, src.dtype]
      let dst ← withLayout dtype src.shape src.dimTypes none src.stream false
      if ← src.isEmpty then return dst
      catalogue.dispatch Kernel.castTable "cast_cpu" on [dst, src]
      return dst : Work TensorError Tensor) := by
    refine .bind (.lift _) fun on => .bind (evolving_withLayout _ _ _ _ _ _) fun dst => ?_
    refine .bind (.liftTrap _) ?_
    intro empty
    split
    · exact .pure _
    · refine .bind (.of_keeping ?_) fun _ => .pure _
      exact tame.keeping_dispatch Kernel.tame_castTable _ _ _
  rw [cast]
  split
  · exact .bind (.throw _) fun _ => converted
  · exact converted

theorem IsNew.of_cast {catalogue : Catalogue} (tame : catalogue.IsTame) {dtype : TypeInfo}
    (h : cast catalogue src dtype machine = .ok tensor later) : IsNew machine tensor later := by
  rw [cast] at h
  split at h
  · cases h
  · obtain ⟨on, _, hon, h⟩ := bind_eq_ok.mp h
    obtain ⟨_, rfl⟩ := lift_eq_ok.mp hon
    obtain ⟨dst, _, hdst, h⟩ := bind_eq_ok.mp h
    obtain ⟨empty, _, hempty, h⟩ := bind_eq_ok.mp h
    obtain ⟨_, rfl⟩ := liftTrap_eq_ok.mp hempty
    have made := IsNew.of_withLayout hdst
    split at h
    · cases h
      exact made
    · obtain ⟨_, _, hcast, h⟩ := bind_eq_ok.mp h
      cases h
      exact made.then ((tame.keeping_dispatch Kernel.tame_castTable _ _ _).ok hcast)

/-- A tensor with the elements of `src` that is worked on from a stream of another device. -/
def reachedFrom (src : Tensor) (device : Device) (stream : Stream) : Work TensorError Tensor := do
  if isShared (← MonadState.get) src stream then return src.viewOn device stream
  else
    let dst ← withLayout src.dtype src.shape src.dimTypes (some src.strides) stream true
    let dst ← build dst (copyFrom src)
    if device.isSynchronous then onDevice src.stream.wait
    return dst

theorem accessibleOn_of_ne {device : Device} (h : src.device ≠ device) (stream? : Option Stream) :
    src.accessibleOn device stream? =
      stream?.elim (accessStream device) pure >>= src.reachedFrom device := by
  unfold accessibleOn
  rw [if_neg h]
  cases stream? <;> rfl

theorem keeping_streamFor {kept : Machine → Machine → Prop} [Std.Refl kept] (device : Device)
    (stream? : Option Stream) :
    Keeping kept (stream?.elim (accessStream device) pure : Work TensorError Stream) := by
  cases stream? with
  | none => exact .adaptErrors (.adaptErrors (Stream.keeping_ofDevice device))
  | some stream => exact .pure _

theorem evolving_reachedFrom (src : Tensor) (device : Device) (stream : Stream) :
    Evolving Machine.Keeps (src.reachedFrom device stream) := by
  refine .get_bind ?_
  intro machine
  split
  · exact .pure _
  · refine .bind (evolving_withLayout _ _ _ _ _ _) ?_
    intro dst
    refine .bind (evolving_build _ (evolving_copyFrom src)) ?_
    intro dst
    split
    · exact .bind (.of_keeping (.adaptErrors (Stream.keeping_wait _))) fun _ => .pure _
    · exact .pure _

theorem evolving_accessibleOn (src : Tensor) (device : Device) (stream? : Option Stream) :
    Evolving Machine.Keeps (src.accessibleOn device stream?) := by
  by_cases hdevice : src.device = device
  · unfold accessibleOn
    rw [if_pos hdevice]
    split
    · split
      · exact .pure _
      · exact .throw _
    · exact .pure _
  · rw [accessibleOn_of_ne hdevice]
    exact .bind (.of_keeping (keeping_streamFor device stream?)) (src.evolving_reachedFrom device)

/-- A tensor is within reach of another device as a view, or it is copied there. -/
theorem IsNew.or_view_of_reachedFrom {device : Device} {stream : Stream}
    (h : src.reachedFrom device stream machine = .ok tensor later) :
    IsNew machine tensor later ∨ machine.Keeps later ∧ tensor.IsViewOf src := by
  obtain ⟨_, _, hget, h⟩ := bind_eq_ok.mp h
  cases hget
  split at h
  · cases h
    exact .inr ⟨.refl _, rfl, rfl, rfl, rfl, rfl, rfl, rfl⟩
  · obtain ⟨dst, _, hdst, h⟩ := bind_eq_ok.mp h
    obtain ⟨dst, _, hcopy, h⟩ := bind_eq_ok.mp h
    have made := (IsNew.of_withLayout hdst).changed (evolving_copyFrom src) hcopy
    split at h
    · obtain ⟨_, _, hwait, h⟩ := bind_eq_ok.mp h
      cases h
      exact .inl (made.then ((Stream.keeping_wait _).ok (adaptErrors_eq_ok.mp hwait)))
    · cases h
      exact .inl made

/-- A tensor made accessible is a view where that will do, and a new one elsewhere. -/
theorem IsNew.or_view_of_accessibleOn {device : Device} {stream? : Option Stream}
    (h : src.accessibleOn device stream? machine = .ok tensor later) :
    IsNew machine tensor later ∨ machine.Keeps later ∧ tensor.IsViewOf src := by
  by_cases hdevice : src.device = device
  · unfold accessibleOn at h
    rw [if_pos hdevice] at h
    cases stream? with
    | none =>
      cases h
      exact .inr ⟨.refl _, rfl, rfl, rfl, rfl, rfl, rfl, rfl⟩
    | some stream =>
      cases hview : src.view.withStream stream with
      | error cause =>
        simp only [hview] at h
        cases h
      | ok view =>
        simp only [hview] at h
        cases h
        rw [withStream] at hview
        split at hview
        · cases hview
          exact .inr ⟨.refl _, rfl, rfl, rfl, rfl, rfl, rfl, rfl⟩
        · cases hview
  · rw [accessibleOn_of_ne hdevice] at h
    obtain ⟨stream, _, hstream, h⟩ := bind_eq_ok.mp h
    have keeps : machine.Keeps _ := (keeping_streamFor device stream?).ok hstream
    rcases or_view_of_reachedFrom h with made | ⟨more, view⟩
    · refine .inl ⟨keeps.trans made.keeps, made.sound, made.housed, fun id hid => ?_⟩
      exact Nat.le_trans keeps.length_le (made.buffer id hid)
    · exact .inr ⟨keeps.trans more, view⟩

end ArrayEngine.Tensor
