import ArrayEngine.Proofs.Dispatch.Casts
import ArrayEngine.Proofs.Machine.Deliveries
import ArrayEngine.Proofs.Tensor.Creation

/-! Kernels write the buffer of the tensor that they are for, and nothing else. So what is due for a buffer of the
host only changes by work on a tensor that ends up with it. -/
namespace ArrayEngine

variable {ε δ α β : Type}

namespace Machine

/-- One buffer at most has other contents. -/
structure WritesOnly (id? : Option BufferId) (machine later : Machine) : Prop where
  contexts : later.contexts = machine.contexts
  rest : ∀ other, id? ≠ some other → later.buffers[other]? = machine.buffers[other]?

variable {id? : Option BufferId} {machine later : Machine}

theorem WritesOnly.refl (id? : Option BufferId) (machine : Machine) : WritesOnly id? machine machine :=
  ⟨rfl, fun _ _ => rfl⟩

theorem WritesOnly.trans {last : Machine} (h : WritesOnly id? machine later) (k : WritesOnly id? later last) :
    WritesOnly id? machine last :=
  ⟨k.contexts.trans h.contexts, fun other hother => (k.rest other hother).trans (h.rest other hother)⟩

theorem writesOnly_store (machine : Machine) (id : BufferId) (start : Nat) (data : List UInt8) :
    WritesOnly (some id) machine (machine.store id start data) :=
  ⟨rfl, fun _ hother => buffers_store_of_ne (fun same => hother (congrArg some same.symm)) start data⟩

theorem WritesOnly.submit (context : ContextId) {work : Machine → Machine}
    (h : WritesOnly id? machine (work machine)) : WritesOnly id? machine (machine.submit context work) := by
  rw [Machine.submit]
  split
  · exact .refl id? machine
  · exact h

theorem writesOnly_foldl_store (id : BufferId) (writes : List (Nat × List UInt8)) (machine : Machine) :
    WritesOnly (some id) machine
      (writes.foldl (fun machine (start, bytes) => machine.store id start bytes) machine) := by
  induction writes generalizing machine with
  | nil => exact .refl _ machine
  | cons entry writes ih => exact (writesOnly_store machine id _ _).trans (ih _)

/-- What is due for other buffers stays. -/
theorem WritesOnly.spares (h : WritesOnly id? machine later) {context : ContextId} {id : BufferId}
    (apart : id? ≠ some id) : Spares context id machine later := by
  refine spares_of_eq (fun buffer hbuffer => (h.rest id apart).trans hbuffer) fun other => ?_
  rw [Machine.context, Machine.context, h.contexts]

end Machine

/-- Work that writes one buffer at most, or fails and writes none. -/
def Confined (id? : Option BufferId) (work : EStateM ε Machine α) : Prop :=
  ∀ machine, match work machine with
    | .ok _ later => Machine.WritesOnly id? machine later
    | .error _ later => later = machine

namespace Confined

variable {id? : Option BufferId} {work : EStateM ε Machine α} {next : α → EStateM ε Machine β}

theorem of_keeping_eq (h : Keeping Eq work) : Confined id? work := by
  intro machine
  cases hwork : work machine with
  | ok a later => exact h.ok hwork ▸ .refl id? machine
  | error cause later => exact (h.error hwork).symm

theorem modify {change : Machine → Machine} (h : ∀ machine, Machine.WritesOnly id? machine (change machine)) :
    Confined id? (MonadStateOf.modifyGet fun machine => ((), change machine) : EStateM ε Machine Unit) := h

/-- What is looked at before decides on the work. -/
theorem bind (h : Keeping Eq work) (hnext : ∀ machine a, work machine = .ok a machine → Confined id? (next a)) :
    Confined id? (work >>= next) := by
  intro machine
  rw [bind_apply]
  cases hwork : work machine with
  | ok a later =>
    obtain rfl := h.ok hwork
    exact hnext machine a hwork machine
  | error cause later => exact (h.error hwork).symm

/-- What is due for other buffers stays, however the work ends. -/
theorem spares {work : EStateM (Halt ε) Machine α} (h : Confined id? work) {machine later : Machine}
    {context : ContextId} {id : BufferId} (ends : EndsAt (work machine) later)
    (apart : ∀ a, work machine = .ok a later → id? ≠ some id) : Machine.Spares context id machine later := by
  have confined := h machine
  cases hwork : work machine with
  | ok a last =>
    rw [hwork] at ends confined
    cases ends
    exact confined.spares (apart a hwork)
  | error cause last =>
    rw [hwork] at ends confined
    cases cause with
    | trap trap => cases ends
    | error cause =>
      cases ends
      cases confined
      exact .refl machine

theorem adaptErrors {work : EStateM (Halt ε) Machine α} {f : ε → δ} (h : Confined id? work) :
    Confined id? (ArrayEngine.adaptErrors f work) := by
  intro machine
  have confined := h machine
  rw [ArrayEngine.adaptErrors]
  cases hwork : work machine <;> simpa only [hwork] using confined

end Confined

namespace Tensor

variable {tensor src : Tensor} {machine later : Machine} {state : Tensor × Machine} {id : BufferId}
  {context : ContextId}

theorem buffer?_of_hostBuffer? (h : tensor.hostBuffer? machine = .ok (some id) later) :
    tensor.buffer? = some id := by
  obtain ⟨empty, _, _, h⟩ := bind_eq_ok.mp h
  split at h
  · cases h
  · cases hheld : tensor.buffer? with
    | none =>
      simp only [hheld] at h
      cases h
    | some held =>
      simp only [hheld] at h
      obtain ⟨found, _, _, h⟩ := bind_eq_ok.mp h
      cases hdevice : (found.buffer held).device <;> simp only [hdevice] at h <;> cases h
      rfl

theorem buffer?_of_gpuContext? {found : ContextId × BufferId}
    (h : tensor.gpuContext? machine = .ok (some found) later) : tensor.buffer? = some found.2 := by
  rw [gpuContext?] at h
  cases hheld : tensor.buffer? with
  | none =>
    simp only [hheld] at h
    cases h
  | some held =>
    simp only [hheld] at h
    obtain ⟨now, _, _, h⟩ := bind_eq_ok.mp h
    cases hplace : (now.buffer held).place with
    | host =>
      simp only [hplace] at h
      cases h
    | gpu context =>
      simp only [hplace] at h
      split at h <;> cases h
      rfl

theorem confined_write (tensor : Tensor) (change : List Element → Except Trap (List Element)) :
    Confined tensor.buffer? (tensor.write change) := by
  refine .bind (.liftTrap _) fun _ extent _ => .bind tensor.keeping_hostBuffer? fun _ buffer? hbuffer => ?_
  split
  · exact .of_keeping_eq (.bind (.liftTrap _) fun _ => .pure _)
  · next id =>
    rw [buffer?_of_hostBuffer? hbuffer]
    refine .bind (.adaptErrors (Machine.keeping_readHost _ _)) fun _ elements _ => ?_
    refine .bind (.liftTrap _) fun _ span _ => .bind (.liftTrap _) fun _ changed _ => .adaptErrors ?_
    exact .bind (Machine.keeping_readHost _ _) fun _ _ _ => .modify fun machine => machine.writesOnly_store _ _ _

theorem confined_fillHost (tensor : Tensor) (value : Element) :
    Confined tensor.buffer? (tensor.fillHost value) := by
  refine .bind (.liftTrap _) fun _ empty _ => ?_
  split
  · exact .of_keeping_eq (.pure _)
  · exact .bind (.liftTrap _) fun _ packed _ => tensor.confined_write _

theorem confined_fillGpu (tensor : Tensor) (value : Element) : Confined tensor.buffer? (tensor.fillGpu value) := by
  refine .bind (.liftTrap _) fun _ empty _ => ?_
  split
  · exact .of_keeping_eq (.pure _)
  · refine .bind tensor.keeping_gpuContext? fun _ found? hfound => ?_
    split
    · exact tensor.confined_fillHost value
    · next context id =>
      rw [buffer?_of_gpuContext? hfound]
      refine .bind (.lift _) fun _ writes _ => .modify fun machine => ?_
      exact (Machine.writesOnly_foldl_store id writes machine).submit context

theorem confined_zeroGpu (tensor : Tensor) : Confined tensor.buffer? tensor.zeroGpu := by
  refine .bind (.liftTrap _) fun _ empty _ => ?_
  split
  · exact .of_keeping_eq (.pure _)
  · refine .bind tensor.keeping_gpuContext? fun _ found? hfound => ?_
    split
    · exact tensor.confined_fillHost _
    · next context id =>
      refine .bind (.liftTrap _) fun _ packed _ => ?_
      split
      · rw [buffer?_of_gpuContext? hfound]
        exact .modify fun machine => (machine.writesOnly_store id _ _).submit context
      · exact tensor.confined_fillGpu _

theorem confined_castHost (target source : Conversion) (dst src : Tensor) :
    Confined dst.buffer? (castHost target source dst src) := by
  have converted : Confined dst.buffer? (do
      if ← src.isEmpty then return
      let elements := (← src.toList).map (Conversion.cast source target)
      if ← dst.isPacked then dst.write (replaceAll elements) else dst.assign elements :
        Work TensorError Unit) := by
    refine .bind (.liftTrap _) fun _ empty _ => ?_
    split
    · exact .of_keeping_eq (.pure _)
    · refine .bind src.keeping_toList fun _ elements _ => .bind (.liftTrap _) fun _ packed _ => ?_
      split
      · exact dst.confined_write _
      · exact dst.confined_write _
  rw [castHost]
  split
  · refine .bind (.liftTrap _) fun _ expected _ => .bind (.liftTrap _) fun _ actual _ => ?_
    exact .bind (.throw _) fun _ _ _ => converted
  · exact converted

end Tensor

/-- A kernel that writes the buffer of its first tensor and no other one. If it fails, it writes none. -/
def Kernel.IsConfined (kernel : Kernel) : Prop :=
  ∀ tensors, Confined (tensors.head?.bind Tensor.buffer?) (kernel.run tensors)

namespace Kernel

theorem confined_unary (element : ElementType) {run : Tensor → Work TensorError Unit}
    (h : ∀ tensor : Tensor, Confined tensor.buffer? (run tensor)) : (unary element run).IsConfined := by
  intro tensors
  simp only [unary]
  split
  · exact .adaptErrors (h _)
  · exact .of_keeping_eq (.pure _)

theorem confined_binary (first second : ElementType) {run : Tensor → Tensor → Work TensorError Unit}
    (h : ∀ dst src : Tensor, Confined dst.buffer? (run dst src)) : (binary first second run).IsConfined := by
  intro tensors
  simp only [binary]
  split
  · exact .adaptErrors (h _ _)
  · exact .of_keeping_eq (.pure _)

theorem confined_zeroHost (element : ElementType) : (zeroHost element).IsConfined :=
  confined_unary element fun tensor => tensor.confined_fillHost _

theorem confined_zeroGpu (element : ElementType) : (zeroGpu element).IsConfined :=
  confined_unary element Tensor.confined_zeroGpu

theorem confined_cast (target source : NumericType) : (cast target source).IsConfined :=
  confined_binary _ _ (Tensor.confined_castHost _ _)

theorem confined_zeroHostTable : ∀ kernel ∈ zeroHostTable, kernel.IsConfined := by
  intro kernel hmem
  obtain ⟨type, _, rfl⟩ := List.mem_map.mp hmem
  exact confined_zeroHost _

theorem confined_zeroGpuTable : ∀ kernel ∈ zeroGpuTable, kernel.IsConfined := by
  intro kernel hmem
  obtain ⟨type, _, rfl⟩ := List.mem_map.mp hmem
  exact confined_zeroGpu _

theorem confined_castTable : ∀ kernel ∈ castTable, kernel.IsConfined := by
  intro kernel hmem
  obtain ⟨target, _, htarget⟩ := List.mem_flatMap.mp hmem
  obtain ⟨source, _, rfl⟩ := List.mem_map.mp htarget
  exact confined_cast _ _

end Kernel

namespace Catalogue

/-- All registered kernels write the tensor that they are for, and nothing else. -/
def IsConfined (catalogue : Catalogue) : Prop := catalogue.All Kernel.IsConfined

variable {catalogue : Catalogue}

theorem confined_initial : initial.IsConfined := all_initial

/-- So are the kernels that come with the types that are registered. -/
theorem Registers.isConfined {registered : Set NumericType} (registers : Registers registered catalogue) :
    catalogue.IsConfined := by
  induction registers with
  | initial => exact confined_initial
  | intern _ _ confined => exact confined
  | internCompute _ _ confined => exact confined
  | insertNumeric _ _ _ h confined =>
    exact All.insertNumeric Kernel.confined_cast confined Kernel.confined_zeroHost Kernel.confined_zeroGpu h

theorem IsConfined.dispatch (confined : catalogue.IsConfined) {dense : List Kernel}
    (hdense : ∀ kernel ∈ dense, kernel.IsConfined) (name : String) (on : Selection) (tensors : List Tensor) :
    Confined (tensors.head?.bind Tensor.buffer?) (catalogue.dispatch dense name on tensors) := by
  have called {kernel : Kernel} (h : kernel.IsConfined) :
      Confined (tensors.head?.bind Tensor.buffer?) (kernel.call (tensors.map argument)) := by
    have harguments : (tensors.map argument).map Arg.value = tensors := by
      rw [List.map_map]
      exact List.map_id' tensors
    rw [Entry.call, harguments]
    split
    · exact .of_keeping_eq (.throw _)
    · exact .adaptErrors (h tensors)
  refine .adaptErrors (.bind (.liftTrap _) fun _ key? _ => ?_)
  split
  · split
    · next kernel hkernel => exact called (hdense _ (List.mem_of_getElem? hkernel))
    · exact .of_keeping_eq (.throw _)
  · rw [Registry.call, Registry.lookup]
    split
    · next kernel hkernel =>
      split at hkernel
      · next found =>
        cases hkernel
        exact called (confined _ _ _ found)
      · cases hkernel
    · exact .of_keeping_eq (.throw _)

end Catalogue

namespace Tensor

open Machine (Spares)

variable {tensor src : Tensor} {machine later : Machine} {state : Tensor × Machine} {id : BufferId}
  {context : ContextId}

theorem spares_ensure (ends : EndsAt (ensure (tensor, machine)) state) : Spares context id machine state.2 := by
  obtain ⟨rfl, _⟩ | ⟨_, size, _, _, _, rfl⟩ := ensure_cases ends
  · exact .refl machine
  · exact Machine.spares_withBuffer machine _ size

theorem spares_resize {shape : List Nat} {dimTypes : List DimType} {strides? : Option (List Nat)}
    (ends : EndsAt (resize shape dimTypes strides? (tensor, machine)) state) : Spares context id machine state.2 := by
  obtain rfl | ⟨strides, _, _, ⟨_, rfl⟩ | ⟨_, rfl⟩ | ⟨_, ends⟩⟩ := resize_cases ends
  · exact .refl machine
  · exact .refl machine
  · exact .refl machine
  · exact spares_ensure ends

/-- A change of a tensor leaves alone what is due for a buffer of the host, unless it succeeds and the tensor ends up
with this buffer. -/
def Avoids (context : ContextId) (id : BufferId) (update : Update Unit) (before : Tensor × Machine) : Prop :=
  ∀ after, EndsAt (update before) after → (update before = .ok () after → after.1.buffer? ≠ some id) →
    Spares context id before.2 after.2

namespace Avoids

variable {α : Type} {before : Tensor × Machine}

theorem of_spares {update : Update Unit}
    (h : ∀ after, EndsAt (update before) after → Spares context id before.2 after.2) :
    Avoids context id update before :=
  fun after ends _ => h after ends

theorem bind {first : Update α} {next : α → Update Unit}
    (h : ∀ after, EndsAt (first before) after → Spares context id before.2 after.2)
    (hnext : ∀ a between, Avoids context id (next a) between) : Avoids context id (first >>= next) before := by
  intro after ends apart
  obtain ends | ⟨a, between, hfirst, ends⟩ := ends.bind_cases
  · exact h after ends
  · rw [bind_apply, hfirst] at apart
    exact (h between (.of_ok hfirst)).trans (hnext a between after ends apart)

/-- What is looked at before decides on the change. -/
theorem bind_of_keeping_eq {first : Update α} {next : α → Update Unit} (h : Keeping Eq first)
    (hnext : ∀ a, Avoids context id (next a) before) : Avoids context id (first >>= next) before := by
  intro after ends apart
  obtain ends | ⟨a, between, hfirst, ends⟩ := ends.bind_cases
  · cases Evolving.of_keeping h before after ends
    exact .refl before.2
  · obtain rfl := h.ok hfirst
    rw [bind_apply, hfirst] at apart
    exact hnext a after ends apart

theorem get_bind {next : Tensor × Machine → Update Unit} (h : Avoids context id (next before) before) :
    Avoids context id (MonadState.get >>= next) before := h

/-- Work that writes the buffer of the tensor, if any. -/
theorem onMachine {work : Work TensorError Unit} (confined : Confined before.1.buffer? work) :
    Avoids context id (ArrayEngine.onMachine work) before := by
  intro after ends apart
  rw [ArrayEngine.onMachine, zoom] at ends apart
  cases hwork : work before.2 with
  | ok _ last =>
    simp only [hwork] at ends apart
    cases ends
    exact confined.spares (.of_ok hwork) fun _ _ => apart rfl
  | error cause last =>
    simp only [hwork] at ends
    cases cause with
    | trap trap => cases ends
    | error cause =>
      cases ends
      refine confined.spares (.of_error hwork) fun _ hok => ?_
      cases hwork.symm.trans hok

end Avoids

theorem avoids_fill (value : Element) (before : Tensor × Machine) : Avoids context id (fill value) before := by
  refine .bind (fun after ends => spares_ensure ends) fun _ ready => .get_bind ?_
  dsimp only
  split
  · exact .onMachine (ready.1.confined_fillHost value)
  · exact .onMachine (ready.1.confined_fillGpu value)

theorem avoids_zero {catalogue : Catalogue} (confined : catalogue.IsConfined) (before : Tensor × Machine) :
    Avoids context id (zero catalogue) before := by
  refine .get_bind (.bind_of_keeping_eq (.lift _) fun on => ?_)
  refine .bind (fun after ends => spares_ensure ends) fun _ ready => .get_bind ?_
  refine .bind_of_keeping_eq (.liftTrap _) fun empty => ?_
  have host := confined.dispatch Kernel.confined_zeroHostTable "zero_cpu" on [ready.1]
  have gpu := confined.dispatch Kernel.confined_zeroGpuTable "zero_gpu" on [ready.1]
  split
  · exact .of_spares fun _ ends => ends ▸ .refl ready.2
  · split
    · exact .onMachine host
    · exact .onMachine gpu

/-- So does a copy, and a copy from a tensor with the buffer does not write it either. -/
theorem spares_copyFrom (ends : EndsAt (copyFrom src (tensor, machine)) state)
    (apart : copyFrom src (tensor, machine) = .ok () state → state.1.buffer? = some id → src.buffer? = some id) :
    Spares context id machine state.2 := by
  rw [copyFrom_apply] at ends apart
  split at ends
  · cases ends
  · cases ends
    exact .refl machine
  · split at ends
    · next hempty htoken =>
      rw [hempty] at apart
      simp only [if_pos htoken] at apart
      obtain ⟨cause, last, hmove, refused⟩ | ⟨laid, ready, count, size, hresize, hensure, _, _, hmove⟩ :=
        moveFrom_cases src (tensor, machine)
      · rw [hmove] at ends
        obtain ⟨trap, rfl⟩ | hresize | ⟨laid, hresize, hensure⟩ := refused
        · cases ends
        · exact spares_resize (hresize ▸ ends)
        · exact (spares_resize (.of_ok hresize)).trans (spares_ensure (hensure ▸ ends))
      · refine ((spares_resize (.of_ok hresize)).trans (spares_ensure (.of_ok hensure))).trans ?_
        rw [hmove, onMachine, zoom, onDevice, adaptErrors] at ends apart
        cases hcopy : Machine.copyBytes ready.1.buffer? ready.1.stream src.buffer? src.stream size ready.2 with
        | ok _ last =>
          simp only [hcopy] at ends apart
          cases ends
          rw [← endState_ok hcopy]
          exact Machine.spares_copyBytes fun htarget => .inl (apart rfl htarget)
        | error cause last =>
          simp only [hcopy] at ends
          cases cause with
          | trap trap => cases ends
          | error cause =>
            cases ends
            rw [← endState_error hcopy]
            exact Machine.spares_copyBytes fun _ => .inr ⟨_, _, hcopy⟩
    · cases ends
      exact .refl machine

/-- A new tensor has none of the buffers that were there before. -/
theorem IsNew.buffer?_ne (made : IsNew machine tensor later) (host : machine.HasHost id) :
    tensor.buffer? ≠ some id := by
  intro hid
  obtain ⟨_, hbuffer, _⟩ := host
  exact absurd (List.getElem?_eq_some_iff.mp hbuffer).1 (Nat.not_lt_of_le (made.buffer id hid))

theorem spares_build {changes : Update Unit}
    (h : ∀ after, EndsAt (changes (tensor, machine)) after → Spares context id machine after.2)
    (ends : EndsAt (build tensor changes machine) later) : Spares context id machine later := by
  rw [build] at ends
  cases hchanges : changes (tensor, machine) with
  | ok _ after =>
    rw [hchanges] at ends
    cases ends
    exact h after (.of_ok hchanges)
  | error cause after =>
    rw [hchanges] at ends
    cases cause with
    | trap trap => cases ends
    | error cause =>
      cases ends
      exact h after (.of_error hchanges)

theorem spares_withLayout {dtype : TypeInfo} {shape : List Nat} {dimTypes : List DimType}
    {strides? : Option (List Nat)} {stream : Stream} {isLazy : Bool}
    (ends : EndsAt (withLayout dtype shape dimTypes strides? stream isLazy machine) later) :
    Spares context id machine later :=
  spares_build (fun _ => spares_resize) ends

theorem spares_ofList {dtype : TypeInfo} {shape : List Nat} {elements : List Element}
    (ends : EndsAt (ofList dtype shape elements machine) later) : Spares context id machine later := by
  intro host
  obtain ends | ⟨expected, _, hexpected, ends⟩ := ends.bind_cases
  · have looked : Spares context id machine later := Evolving.liftTrap _ _ _ ends
    exact looked host
  obtain ⟨_, rfl⟩ := liftTrap_eq_ok.mp hexpected
  split at ends
  · cases ends
    exact Spares.refl machine host
  obtain ends | ⟨made, grown, hmade, ends⟩ := ends.bind_cases
  · exact spares_withLayout ends host
  refine (spares_withLayout (.of_ok hmade)).trans ?_ host
  have apart := (IsNew.of_withLayout hmade).buffer?_ne host
  obtain ends | ⟨_, _, hwrite, ends⟩ := ends.bind_cases
  · exact (made.confined_write _).spares ends fun _ _ => apart
  · cases ends
    exact (made.confined_write _).spares (.of_ok hwrite) fun _ _ => apart

/-- A copy into a new tensor. -/
theorem IsNew.spares_copyFrom {last : Machine} (made : IsNew machine tensor later) (host : machine.HasHost id)
    (ends : EndsAt (build tensor (copyFrom src) later) last) : Spares context id later last := by
  refine spares_build (fun after ends => Tensor.spares_copyFrom ends fun hcopy hid => ?_) ends
  have moved : IsNew machine after.1 after.2 :=
    made.changed (evolving_copyFrom src) (by rw [build, hcopy])
  exact absurd hid (moved.buffer?_ne host)

theorem spares_reachedFrom {device : Device} {stream : Stream}
    (ends : EndsAt (src.reachedFrom device stream machine) later) : Spares context id machine later := by
  intro host
  rw [reachedFrom, get_bind_apply] at ends
  split at ends
  · cases ends
    exact Spares.refl machine host
  obtain ends | ⟨dst, grown, hdst, ends⟩ := ends.bind_cases
  · exact spares_withLayout ends host
  refine (spares_withLayout (.of_ok hdst)).trans ?_ host
  have made := IsNew.of_withLayout hdst
  obtain ends | ⟨copied, filled, hcopy, ends⟩ := ends.bind_cases
  · exact made.spares_copyFrom host ends
  refine (made.spares_copyFrom host (.of_ok hcopy)).trans ?_
  have waited : Keeping (Spares context id) (onDevice src.stream.wait) :=
    .adaptErrors (Machine.keptByWaits_spares.hostWait _)
  split at ends
  · exact Evolving.bind (.of_keeping waited) (fun _ => .pure _) _ _ ends
  · cases ends
    exact .refl _

theorem spares_accessibleOn {device : Device} {stream? : Option Stream}
    (ends : EndsAt (src.accessibleOn device stream? machine) later) : Spares context id machine later := by
  by_cases hdevice : src.device = device
  · have hsame : Keeping Eq (src.accessibleOn device stream?) := by
      unfold accessibleOn
      rw [if_pos hdevice]
      split
      · split
        · exact .pure _
        · exact .throw _
      · exact .pure _
    cases Evolving.of_keeping hsame machine later ends
    exact .refl machine
  · rw [accessibleOn_of_ne hdevice] at ends
    have looked : Keeping (Spares context id)
        (stream?.elim (accessStream device) pure : Work TensorError Stream) := keeping_streamFor device stream?
    obtain ends | ⟨stream, between, hstream, ends⟩ := ends.bind_cases
    · exact Evolving.of_keeping looked machine later ends
    · exact (looked.ok hstream).trans (spares_reachedFrom ends)

theorem spares_cast {catalogue : Catalogue} (confined : catalogue.IsConfined) {dtype : TypeInfo}
    (ends : EndsAt (cast catalogue src dtype machine) later) : Spares context id machine later := by
  intro host
  rw [cast] at ends
  split at ends
  · cases ends
    exact Spares.refl machine host
  obtain ends | ⟨on, _, hon, ends⟩ := ends.bind_cases
  · have looked : Spares context id machine later := Evolving.lift _ _ _ ends
    exact looked host
  obtain ⟨_, rfl⟩ := lift_eq_ok.mp hon
  obtain ends | ⟨dst, grown, hdst, ends⟩ := ends.bind_cases
  · exact spares_withLayout ends host
  refine (spares_withLayout (.of_ok hdst)).trans ?_ host
  have apart := (IsNew.of_withLayout hdst).buffer?_ne host
  have converted := confined.dispatch Kernel.confined_castTable "cast_cpu" on [dst, src]
  obtain ends | ⟨empty, _, hempty, ends⟩ := ends.bind_cases
  · exact Evolving.liftTrap _ _ _ ends
  obtain ⟨_, rfl⟩ := liftTrap_eq_ok.mp hempty
  split at ends
  · cases ends
    exact .refl _
  obtain ends | ⟨_, _, hcast, ends⟩ := ends.bind_cases
  · exact converted.spares ends fun _ _ => apart
  · cases ends
    exact converted.spares (.of_ok hcast) fun _ _ => apart

end Tensor

end ArrayEngine
