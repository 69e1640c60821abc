import ArrayEngine.Workspace
import ArrayEngine.Proofs.Tensor.Creation

/-! Tensors under names, made and changed in any order: which of them hold the same memory, and how
their layouts agree. -/
namespace ArrayEngine

namespace Tensor

/-- Two tensors are of the same type and layout, and one of them is a view. -/
structure Agrees (tensor other : Tensor) : Prop where
  dtype : tensor.dtype = other.dtype
  shape : tensor.shape = other.shape
  strides : tensor.strides = other.strides
  owners : ¬(tensor.ownership = .exclusive ∧ other.ownership = .exclusive)

theorem Agrees.symm {tensor other : Tensor} (h : tensor.Agrees other) : other.Agrees tensor :=
  ⟨h.dtype.symm, h.shape.symm, h.strides.symm, fun both => h.owners both.symm⟩

/-- Drops all elements. -/
def empty : Update Unit := modify fun (tensor, machine) => (tensor.emptied, machine)

/-- Later work on the tensor goes to another stream of its device. -/
def setStream (stream : Stream) : Update Unit := do
  match (← MonadState.get).1.withStream stream with
  | .ok tensor => modify fun (_, machine) => (tensor, machine)
  | .error cause => throw (.error cause)

theorem evolving_empty : Evolving ChangesTo empty :=
  .of_keeping (.modify fun state => changesTo_emptied state.1 state.2)

/-- Moving a tensor to a stream of another device changes nothing. -/
theorem setStream_cases {tensor : Tensor} {machine : Machine} {stream : Stream} {state : Tensor × Machine}
    (ends : EndsAt (setStream stream (tensor, machine)) state) :
    state = (tensor, machine) ∨
      stream.device = tensor.device ∧ state = ({ tensor with stream }, machine) := by
  change EndsAt ((match tensor.withStream stream with
    | .ok tensor => modify fun (_, machine) => (tensor, machine)
    | .error cause => throw (.error cause) : Update Unit) (tensor, machine)) state at ends
  cases hmoved : tensor.withStream stream with
  | error cause =>
    simp only [hmoved] at ends
    cases ends
    exact .inl rfl
  | ok moved =>
    simp only [hmoved] at ends
    cases ends
    rw [withStream] at hmoved
    split at hmoved
    · next hdevice =>
      cases hmoved
      exact .inr ⟨hdevice, rfl⟩
    · cases hmoved

theorem evolving_setStream (stream : Stream) : Evolving ChangesTo (setStream stream) := by
  rintro ⟨tensor, machine⟩ state ends
  obtain rfl | ⟨hdevice, rfl⟩ := setStream_cases ends
  · exact .refl _
  · refine ⟨⟨.refl machine, rfl, fun _ hid => .inr ⟨hid, rfl, rfl, rfl⟩, id, fun fits => ?_, id,
      fun host => ?_⟩, id⟩
    · exact ⟨fits.dimTypes, fits.strides, fits.memory⟩
    · refine ⟨host.device, ?_, host.ownership, host.memory⟩
      rw [host.device] at hdevice
      cases stream with
      | cpu => rfl
      | gpu context id => cases hdevice

end Tensor

namespace Workspace

/-- Works that make a tensor, from nothing or from a tensor of the workspace. -/
inductive Making (workspace : Workspace) : Work TensorError Tensor → Prop
  | packed (dtype shape stream isLazy) : Making workspace (Tensor.create dtype shape stream isLazy)
  | layout (dtype shape dimTypes strides? stream isLazy) :
      Making workspace (Tensor.withLayout dtype shape dimTypes strides? stream isLazy)
  | list (dtype shape elements) : Making workspace (Tensor.ofList dtype shape elements)
  | view {name tensor} : workspace.tensors.lookup name = some tensor →
      Making workspace (pure tensor.view)
  | accessible {name tensor} (device stream?) : workspace.tensors.lookup name = some tensor →
      Making workspace (tensor.accessibleOn device stream?)
  | cast {name tensor} (dtype) : workspace.tensors.lookup name = some tensor →
      Making workspace (Tensor.cast workspace.catalogue tensor dtype)

/-- Changes of a tensor of the workspace. -/
inductive Changing (workspace : Workspace) : Update Unit → Prop
  | resize (shape dimTypes strides?) : Changing workspace (Tensor.resize shape dimTypes strides?)
  | ensure : Changing workspace Tensor.ensure
  | empty : Changing workspace Tensor.empty
  | setStream (stream) : Changing workspace (Tensor.setStream stream)
  | copy {name tensor} : workspace.tensors.lookup name = some tensor →
      Changing workspace (Tensor.copyFrom tensor)
  | fill (value) : Changing workspace (Tensor.fill value)
  | zero : Changing workspace (Tensor.zero workspace.catalogue)

/-- The workspaces that come of one without tensors, step by step: tensors are made, changed and dropped,
and between those steps anything may be done to the contents of buffers, to streams, contexts, names of
other objects and the catalogue. A step may fail, but no trap stops it. -/
inductive Reachable : Workspace → Prop
  | start {workspace : Workspace} : workspace.tensors = [] → workspace.catalogue.IsTame →
      Reachable workspace
  | make {workspace later name work} : Reachable workspace → Making workspace work →
      EndsAt (create name work workspace) later → Reachable later
  | change {workspace later name tensor update} : Reachable workspace →
      workspace.tensors.lookup name = some tensor → Changing workspace update →
      EndsAt (change name tensor update workspace) later → Reachable later
  | drop {workspace : Workspace} (name) : Reachable workspace →
      Reachable { workspace with tensors := Assoc.erase workspace.tensors name }
  | outside {workspace later : Workspace} : Reachable workspace →
      later.tensors = workspace.tensors → workspace.machine.Keeps later.machine →
      later.catalogue.IsTame → Reachable later

/-- Every tensor is sound and has all of its memory, and tensors over the same memory agree. -/
structure Sound (workspace : Workspace) : Prop where
  tame : workspace.catalogue.IsTame
  each : ∀ {name tensor}, workspace.tensors.lookup name = some tensor →
    tensor.Sound workspace.machine
  housed : ∀ {name tensor}, workspace.tensors.lookup name = some tensor →
    tensor.IsHoused workspace.machine
  shared : ∀ {name other tensor second id}, name ≠ other →
    workspace.tensors.lookup name = some tensor → workspace.tensors.lookup other = some second →
    tensor.buffer? = some id → second.buffer? = some id → tensor.Agrees second

variable {workspace later : Workspace} {name other : String} {tensor : Tensor}

/-- A buffer that a tensor holds is none that is yet to come. -/
theorem Sound.id_lt (sound : workspace.Sound) (h : workspace.tensors.lookup name = some tensor)
    {id : BufferId} (hid : tensor.buffer? = some id) : id < workspace.machine.buffers.length := by
  obtain ⟨_, _, _, _, hbuffer, _⟩ := (sound.each h).memory id hid
  exact (List.getElem?_eq_some_iff.mp hbuffer).1

/-- A sound tensor that agrees with the ones over the same memory may take a name. -/
private theorem Sound.set (sound : workspace.Sound) (keeps : workspace.machine.Keeps later.machine)
    (tensors : later.tensors = Assoc.insert workspace.tensors name tensor)
    (tame : later.catalogue.IsTame) (each : tensor.Sound later.machine)
    (housed : tensor.IsHoused later.machine)
    (shared : ∀ other second id, other ≠ name → workspace.tensors.lookup other = some second →
      tensor.buffer? = some id → second.buffer? = some id → tensor.Agrees second) :
    later.Sound := by
  have self : later.tensors.lookup name = some tensor := by
    rw [tensors, Assoc.lookup_insert_self]
  have rest {other : String} (h : other ≠ name) :
      later.tensors.lookup other = workspace.tensors.lookup other := by
    rw [tensors, Assoc.lookup_insert_of_ne _ _ h]
  refine ⟨tame, fun {other found} h => ?_, fun {other found} h => ?_,
    fun {first second t u id} hne hfirst hsecond ht hu => ?_⟩
  · by_cases hname : other = name
    · subst hname
      cases self.symm.trans h
      exact each
    · exact (sound.each (rest hname ▸ h)).keeps keeps
  · by_cases hname : other = name
    · subst hname
      cases self.symm.trans h
      exact housed
    · exact (sound.housed (rest hname ▸ h)).keeps keeps
  · by_cases hname : first = name
    · subst hname
      cases self.symm.trans hfirst
      exact shared second u id hne.symm (rest hne.symm ▸ hsecond) ht hu
    · rw [rest hname] at hfirst
      by_cases hother : second = name
      · subst hother
        cases self.symm.trans hsecond
        exact (shared first t id hname hfirst hu ht).symm
      · rw [rest hother] at hsecond
        exact sound.shared hne hfirst hsecond ht hu

theorem evolving_of_making (tame : workspace.catalogue.IsTame) {work : Work TensorError Tensor}
    (making : Making workspace work) : Evolving Machine.Keeps work := by
  cases making with
  | packed => exact Tensor.evolving_withLayout _ _ _ _ _ _
  | layout => exact Tensor.evolving_withLayout _ _ _ _ _ _
  | list => exact Tensor.evolving_ofList _ _ _
  | view => exact .pure _
  | accessible => exact Tensor.evolving_accessibleOn _ _ _
  | cast => exact Tensor.evolving_cast tame _ _

/-- What is made is new, or it is a view of a tensor of the workspace. -/
theorem isNew_or_view_of_making (tame : workspace.catalogue.IsTame) {work : Work TensorError Tensor}
    (making : Making workspace work) {machine : Machine}
    (h : work workspace.machine = .ok tensor machine) :
    Tensor.IsNew workspace.machine tensor machine ∨
      workspace.machine.Keeps machine ∧ ∃ name src, workspace.tensors.lookup name = some src ∧
        tensor.IsViewOf src := by
  cases making with
  | packed => exact .inl (.of_withLayout h)
  | layout => exact .inl (.of_withLayout h)
  | list => exact .inl (.of_ofList h)
  | view hsrc =>
    cases h
    exact .inr ⟨.refl _, _, _, hsrc, rfl, rfl, rfl, rfl, rfl, rfl, rfl⟩
  | accessible _ _ hsrc =>
    exact (Tensor.IsNew.or_view_of_accessibleOn h).imp id fun ⟨keeps, view⟩ =>
      ⟨keeps, _, _, hsrc, view⟩
  | cast => exact .inl (.of_cast tame h)

theorem evolving_of_changing (tame : workspace.catalogue.IsTame) {update : Update Unit}
    (changing : Changing workspace update) : Evolving Tensor.ChangesTo update := by
  cases changing with
  | resize => exact Tensor.evolving_resize _ _ _
  | ensure => exact Tensor.evolving_ensure
  | empty => exact Tensor.evolving_empty
  | setStream => exact Tensor.evolving_setStream _
  | copy => exact Tensor.evolving_copyFrom _
  | fill => exact Tensor.evolving_fill _
  | zero => exact Tensor.evolving_zero tame

theorem exists_of_run {ε α : Type} {work : Work ε α} (ends : EndsAt (run work workspace) later) :
    ∃ machine, EndsAt (work workspace.machine) machine ∧ { workspace with machine } = later := by
  rw [run, zoom] at ends
  cases hwork : work workspace.machine with
  | ok _ machine =>
    rw [hwork] at ends
    exact ⟨machine, rfl, ends⟩
  | error cause machine =>
    rw [hwork] at ends
    cases cause with
    | trap cause => cases ends
    | error cause => exact ⟨machine, rfl, ends⟩

/-- Making a tensor does the work for it, and names the tensor if there is one. -/
theorem create_cases {work : Work TensorError Tensor} (ends : EndsAt (create name work workspace) later) :
    (∃ machine, EndsAt (work workspace.machine) machine ∧ { workspace with machine } = later) ∨
      ∃ tensor machine, work workspace.machine = .ok tensor machine ∧
        { workspace.setTensor name tensor with machine } = later := by
  obtain ends | ⟨tensor, between, hrun, ends⟩ := ends.bind_cases
  · exact .inl (exists_of_run ends)
  · rw [run, zoom] at hrun
    cases hwork : work workspace.machine with
    | ok made machine =>
      rw [hwork] at hrun
      cases hrun
      exact .inr ⟨tensor, machine, rfl, ends⟩
    | error cause machine =>
      rw [hwork] at hrun
      cases hrun

/-- A tensor that is changed keeps its name, whether or not the change succeeds. -/
theorem exists_of_change {update : Update Unit} (ends : EndsAt (change name tensor update workspace) later) :
    ∃ state, EndsAt (update (tensor, workspace.machine)) state ∧
      (change name tensor update workspace = .ok () later ↔
        update (tensor, workspace.machine) = .ok () state) ∧
      { workspace.setTensor name state.1 with machine := state.2 } = later := by
  rw [change, zoom] at ends ⊢
  cases hupdate : update (tensor, workspace.machine) with
  | ok _ state =>
    rw [hupdate] at ends
    exact ⟨state, rfl, ⟨fun _ => rfl, fun _ => congrArg (EStateM.Result.ok ()) ends⟩, ends⟩
  | error cause state =>
    rw [hupdate] at ends
    cases cause with
    | trap cause => cases ends
    | error cause =>
      refine ⟨state, rfl, iff_of_false ?_ ?_, ends⟩ <;>
        · intro h
          cases h

theorem Sound.make (sound : workspace.Sound) {work : Work TensorError Tensor}
    (making : Making workspace work) (ends : EndsAt (create name work workspace) later) :
    later.Sound := by
  obtain ⟨machine, hwork, rfl⟩ | ⟨tensor, machine, hwork, rfl⟩ := create_cases ends
  · have keeps := evolving_of_making sound.tame making _ _ hwork
    exact ⟨sound.tame, fun h => (sound.each h).keeps keeps, fun h => (sound.housed h).keeps keeps, sound.shared⟩
  · obtain made | ⟨keeps, origin, src, hsrc, view⟩ :=
      isNew_or_view_of_making sound.tame making hwork
    · refine sound.set made.keeps rfl sound.tame made.sound made.housed ?_
      intro other second id _ hsecond hid hid'
      exact absurd (made.buffer id hid) (Nat.not_le_of_lt (sound.id_lt hsecond hid'))
    · refine sound.set keeps rfl sound.tame (view.sound ((sound.each hsrc).keeps keeps))
        (view.housed ((sound.housed hsrc).keeps keeps)) ?_
      intro other second id _ hsecond hid hid'
      have isView : ¬tensor.ownership = .exclusive := by simp [view.ownership]
      by_cases hother : origin = other
      · subst hother
        cases hsrc.symm.trans hsecond
        exact ⟨view.dtype, view.shape, view.strides, fun both => isView both.1⟩
      · have agrees := sound.shared hother hsrc hsecond (view.buffer ▸ hid) hid'
        exact ⟨view.dtype.trans agrees.dtype, view.shape.trans agrees.shape,
          view.strides.trans agrees.strides, fun both => isView both.1⟩

theorem Sound.change (sound : workspace.Sound) (found : workspace.tensors.lookup name = some tensor)
    {update : Update Unit} (changing : Changing workspace update)
    (ends : EndsAt (change name tensor update workspace) later) : later.Sound := by
  obtain ⟨⟨now, machine⟩, hupdate, _, rfl⟩ := exists_of_change ends
  have changed := evolving_of_changing sound.tame changing _ _ hupdate
  refine sound.set changed.keeps rfl sound.tame (changed.sound (sound.each found))
    (changed.housed (sound.housed found)) ?_
  intro other second id hne hsecond hid hid'
  rcases changed.buffer id hid with hnew | ⟨hold, hshape, hstrides, howner⟩
  · exact absurd hnew (Nat.not_le_of_lt (sound.id_lt hsecond hid'))
  · have agrees := sound.shared hne.symm found hsecond hold hid'
    refine ⟨changed.dtype.trans agrees.dtype, hshape.trans agrees.shape,
      hstrides.trans agrees.strides, fun both => agrees.owners ⟨?_, both.2⟩⟩
    rw [← howner]
    exact both.1

theorem Sound.drop (sound : workspace.Sound) (name : String) :
    Sound { workspace with tensors := Assoc.erase workspace.tensors name } := by
  have kept {other : String} {tensor : Tensor}
      (h : (Assoc.erase workspace.tensors name).lookup other = some tensor) :
      workspace.tensors.lookup other = some tensor := by
    by_cases hname : other = name
    · subst hname
      rw [Assoc.lookup_erase_self] at h
      cases h
    · rwa [Assoc.lookup_erase_of_ne _ hname] at h
  exact ⟨sound.tame, fun h => sound.each (kept h), fun h => sound.housed (kept h),
    fun hne hfirst hsecond => sound.shared hne (kept hfirst) (kept hsecond)⟩

theorem Reachable.sound (reachable : Reachable workspace) : workspace.Sound := by
  induction reachable with
  | start none tame =>
    refine ⟨tame, fun h => ?_, fun h => ?_, fun _ h => ?_⟩ <;>
      · rw [none] at h
        cases h
  | make _ making ends sound => exact sound.make making ends
  | change _ found changing ends sound => exact sound.change found changing ends
  | drop name _ sound => exact sound.drop name
  | outside _ tensors keeps tame sound =>
    exact ⟨tame, fun h => (sound.each (tensors ▸ h)).keeps keeps,
      fun h => (sound.housed (tensors ▸ h)).keeps keeps,
      fun hne hfirst hsecond => sound.shared hne (tensors ▸ hfirst) (tensors ▸ hsecond)⟩

/-- In every reachable workspace the layout of each tensor has as many axes throughout, a tensor with a
buffer has elements and the buffer is exactly as long as they reach, and one that is not lazy has no
elements or a buffer. Different tensors over the same buffer are of one type, shape and strides, and at
most one of them owns it. -/
theorem tensors_of_reachable (reachable : Reachable workspace) :
    (∀ name tensor, workspace.tensors.lookup name = some tensor →
      (tensor.strides.length = tensor.shape.length ∧ tensor.dimTypes.length = tensor.shape.length) ∧
      (∀ id, tensor.buffer? = some id → ∃ count extent buffer,
        tensor.numel = .ok count ∧ 0 < count ∧
        Layout.extent tensor.shape tensor.strides = .ok extent ∧
        workspace.machine.buffers[id]? = some buffer ∧ buffer.size = extent * tensor.dtype.size) ∧
      (tensor.isLazy = false → tensor.isEmpty = .ok true ∨ tensor.buffer?.isSome = true)) ∧
    (∀ name other tensor second id, name ≠ other →
      workspace.tensors.lookup name = some tensor → workspace.tensors.lookup other = some second →
      tensor.buffer? = some id → second.buffer? = some id →
      tensor.dtype = second.dtype ∧ tensor.shape = second.shape ∧ tensor.strides = second.strides ∧
        ¬(tensor.ownership = .exclusive ∧ second.ownership = .exclusive)) := by
  have sound := reachable.sound
  refine ⟨fun name tensor h => ?_, fun name other tensor second id hne h h' hid hid' => ?_⟩
  · have each := sound.each h
    refine ⟨⟨each.strides, each.dimTypes⟩, fun id hid => ?_, fun eager => ?_⟩
    · obtain ⟨count, buffer, hcount, hpos, hbuffer, hbytes⟩ := each.memory id hid
      obtain ⟨extent, hextent, hsize⟩ := Tensor.byteCount_eq_ok.mp hbytes
      exact ⟨count, extent, buffer, hcount, hpos, hextent, hbuffer, (Tensor.byteSize_eq_ok.mp hsize).1.symm⟩
    · refine (each.eager eager).imp (fun hzero => ?_) id
      rw [Tensor.isEmpty, hzero]
      rfl
  · obtain ⟨hdtype, hshape, hstrides, howners⟩ := sound.shared hne h h' hid hid'
    exact ⟨hdtype, hshape, hstrides, howners⟩

/-- A type of elements of four bytes. -/
def numbers : TypeInfo := ⟨0, NumericType.f32.toElementType⟩

/-- Two by three numbers of four bytes take 24 bytes, and a view over them that was filled agrees with
their owner. -/
theorem tensors_of_reachable_filled_view :
    ∃ workspace tensor view, Reachable workspace ∧ workspace.tensors.lookup "a" = some tensor ∧
      workspace.tensors.lookup "v" = some view ∧
      (∃ buffer, workspace.machine.buffers[0]? = some buffer ∧ buffer.size = 24) ∧
      tensor.buffer? = some 0 ∧ view.buffer? = some 0 ∧ tensor.strides = view.strides ∧
      ¬(tensor.ownership = .exclusive ∧ view.ownership = .exclusive) := by
  have reachable : Reachable initial := .start rfl Catalogue.tame_initial
  have reachable := reachable.make (.packed numbers [2, 3] .cpu false)
    (.of_ok rfl : EndsAt (create "a" _ _) _)
  have reachable := reachable.make (@Making.view _ "a" _ rfl) (.of_ok rfl : EndsAt (create "v" _ _) _)
  have reachable := @Reachable.change _ _ "v" _ _ reachable rfl (.fill [0, 0, 128, 63]) (.of_ok rfl)
  obtain ⟨each, shared⟩ := tensors_of_reachable reachable
  obtain ⟨_, _, hstrides, howners⟩ := shared "a" "v" _ _ 0 (by decide) rfl rfl rfl rfl
  refine ⟨_, _, _, reachable, rfl, rfl, ?_, rfl, rfl, hstrides, howners⟩
  obtain ⟨_, _, buffer, _, _, hextent, hbuffer, hsize⟩ := (each "a" _ rfl).2.1 0 rfl
  cases hextent
  exact ⟨buffer, hbuffer, hsize⟩

end Workspace

end ArrayEngine
