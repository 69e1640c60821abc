import ArrayEngine.Catalogue
import ArrayEngine.Proofs.Dispatch.Registry
import ArrayEngine.Proofs.Layout.Exact
import ArrayEngine.Proofs.Machine.Keeps

/-! Kernels change the contents of buffers and nothing else. Reading changes nothing at all. -/
namespace ArrayEngine

theorem Keeping.keeps {ε α : Type} {work : EStateM ε Machine α} (h : Keeping Eq work) :
    Keeping Machine.Keeps work := by
  refine h.mono ?_
  rintro machine _ rfl
  exact .refl machine

namespace Tensor

theorem keeping_hostBuffer? (tensor : Tensor) : Keeping Eq tensor.hostBuffer? := by
  refine .bind (.liftTrap _) ?_
  intro empty
  split
  · exact .pure _
  · split
    · exact .throw _
    · refine .get_bind ?_
      intro machine
      split
      · exact .pure _
      · exact .throw _

theorem keeping_read (tensor : Tensor) : Keeping Eq tensor.read := by
  refine .bind (.liftTrap _) fun extent => .bind tensor.keeping_hostBuffer? fun buffer? => ?_
  split
  · exact .pure _
  · exact .bind (.adaptErrors (Machine.keeping_readHost _ _)) fun elements => .liftTrap _

theorem keeping_toList (tensor : Tensor) : Keeping Eq tensor.toList :=
  .bind tensor.keeping_read fun _ => .liftTrap _

theorem keeping_write (tensor : Tensor) (change : List Element → Except Trap (List Element)) :
    Keeping Machine.Keeps (tensor.write change) := by
  refine .bind (.liftTrap _) fun extent => .bind tensor.keeping_hostBuffer?.keeps fun buffer? => ?_
  split
  · exact .bind (.liftTrap _) fun _ => .pure _
  · refine .bind (.adaptErrors (Machine.keeping_readHost _ _).keeps) ?_
    intro elements
    refine .bind (.liftTrap _) fun span => .bind (.liftTrap _) fun changed => ?_
    exact .adaptErrors (Machine.keeping_writeHost _ _ _)

theorem keeping_assign (tensor : Tensor) (elements : List Element) :
    Keeping Machine.Keeps (tensor.assign elements) :=
  tensor.keeping_write _

theorem keeping_fillHost (tensor : Tensor) (value : Element) :
    Keeping Machine.Keeps (tensor.fillHost value) := by
  refine .bind (.liftTrap _) ?_
  intro empty
  split
  · exact .pure _
  · exact .bind (.liftTrap _) fun packed => tensor.keeping_write _

theorem keeping_gpuContext? (tensor : Tensor) : Keeping Eq tensor.gpuContext? := by
  rw [gpuContext?]
  split
  · exact .throw _
  · refine .get_bind ?_
    intro machine
    split
    · exact .pure _
    · split
      · exact .pure _
      · exact .throw _

theorem keeping_fillGpu (tensor : Tensor) (value : Element) :
    Keeping Machine.Keeps (tensor.fillGpu value) := by
  refine .bind (.liftTrap _) ?_
  intro empty
  split
  · exact .pure _
  · refine .bind tensor.keeping_gpuContext?.keeps fun context? => ?_
    split
    · exact tensor.keeping_fillHost value
    · refine .bind (.lift _) fun writes => .modify fun machine => ?_
      exact Machine.keeps_submit _ (Machine.keeps_foldl_store writes _ _ _ machine)

theorem keeping_zeroGpu (tensor : Tensor) : Keeping Machine.Keeps tensor.zeroGpu := by
  refine .bind (.liftTrap _) ?_
  intro empty
  split
  · exact .pure _
  · refine .bind tensor.keeping_gpuContext?.keeps fun context? => ?_
    split
    · exact tensor.keeping_fillHost _
    · refine .bind (.liftTrap _) ?_
      intro packed
      split
      · exact .modify fun machine => Machine.keeps_submit _ (Machine.keeps_store machine _ _ _)
      · exact tensor.keeping_fillGpu _

theorem keeping_castHost (target source : Conversion) (dst src : Tensor) :
    Keeping Machine.Keeps (castHost target source dst src) := by
  have converted : Keeping Machine.Keeps (do
      if ← src.isEmpty then return
      let elements := (← src.toList).map (Conversion.cast source target)
      if ← dst.isPacked then dst.write (replaceAll elements) else dst.assign elements :
        Work TensorError Unit) := by
    refine .bind (.liftTrap _) ?_
    intro empty
    split
    · exact .pure _
    · refine .bind src.keeping_toList.keeps fun elements => .bind (.liftTrap _) fun packed => ?_
      split
      · exact dst.keeping_write _
      · exact dst.keeping_assign _
  rw [castHost]
  split
  · refine .bind (.liftTrap _) fun expected => .bind (.liftTrap _) fun actual => ?_
    exact .bind (.throw _) fun _ => converted
  · exact converted

end Tensor

/-- A kernel that changes the contents of buffers and nothing else. -/
def Kernel.IsTame (kernel : Kernel) : Prop :=
  ∀ tensors, Keeping Machine.Keeps (kernel.run tensors)

namespace Kernel

theorem tame_unary (element : ElementType) {run : Tensor → Work TensorError Unit}
    (h : ∀ tensor, Keeping Machine.Keeps (run tensor)) : (unary element run).IsTame := by
  intro tensors
  simp only [unary]
  split
  · exact .adaptErrors (h _)
  · exact .pure _

theorem tame_binary (first second : ElementType) {run : Tensor → Tensor → Work TensorError Unit}
    (h : ∀ dst src, Keeping Machine.Keeps (run dst src)) : (binary first second run).IsTame := by
  intro tensors
  simp only [binary]
  split
  · exact .adaptErrors (h _ _)
  · exact .pure _

theorem tame_zeroHost (element : ElementType) : (zeroHost element).IsTame :=
  tame_unary element fun tensor => tensor.keeping_fillHost _

theorem tame_zeroGpu (element : ElementType) : (zeroGpu element).IsTame :=
  tame_unary element Tensor.keeping_zeroGpu

theorem tame_cast (target source : NumericType) : (cast target source).IsTame :=
  tame_binary _ _ (Tensor.keeping_castHost _ _)

theorem tame_zeroHostTable : ∀ kernel ∈ zeroHostTable, kernel.IsTame := by
  intro kernel hmem
  obtain ⟨type, _, rfl⟩ := List.mem_map.mp hmem
  exact tame_zeroHost _

theorem tame_zeroGpuTable : ∀ kernel ∈ zeroGpuTable, kernel.IsTame := by
  intro kernel hmem
  obtain ⟨type, _, rfl⟩ := List.mem_map.mp hmem
  exact tame_zeroGpu _

theorem tame_castTable : ∀ kernel ∈ castTable, kernel.IsTame := by
  intro kernel hmem
  obtain ⟨target, _, htarget⟩ := List.mem_flatMap.mp hmem
  obtain ⟨source, _, rfl⟩ := List.mem_map.mp htarget
  exact tame_cast _ _

end Kernel

namespace Catalogue

/-- All registered kernels are of a kind. -/
def All (kind : Kernel → Prop) (catalogue : Catalogue) : Prop :=
  ∀ name key kernel, catalogue.kernels.get? name key = some kernel → kind kernel

section All

variable {kind : Kernel → Prop} {catalogue later : Catalogue}

theorem all_initial : All kind initial := by
  intro name key kernel h
  cases h

theorem All.insert (all : catalogue.All kind) {kernel : Kernel} (h : kind kernel) (types : TypeTable)
    (name : String) (key : DispatchKey) : All kind ⟨types, catalogue.kernels.insert name key kernel⟩ := by
  intro other otherKey found hfound
  rw [Registry.get?_insert] at hfound
  split at hfound
  · cases hfound
    exact h
  · exact all _ _ _ hfound

variable (casts : ∀ target source, kind (.cast target source))
include casts

theorem All.insertCast (all : catalogue.All kind) {target source : NumericType}
    (h : catalogue.insertCast target source = .ok later) : later.All kind := by
  obtain ⟨_, _, h⟩ := except_bind_eq_ok.mp h
  obtain ⟨_, _, h⟩ := except_bind_eq_ok.mp h
  cases h
  exact all.insert (casts _ _) _ _ _

/-- Casts from and to some types are added. -/
private theorem All.insertCasts {type : NumericType} (natives : List NumericType) (all : catalogue.All kind)
    (h : natives.foldlM (fun catalogue native => do
      Catalogue.insertCast (← catalogue.insertCast type native) native type) catalogue = .ok later) :
    later.All kind := by
  induction natives generalizing catalogue with
  | nil =>
    cases h
    exact all
  | cons native natives ih =>
    rw [List.foldlM_cons] at h
    obtain ⟨back, hboth, h⟩ := except_bind_eq_ok.mp h
    obtain ⟨there, hto, hback⟩ := except_bind_eq_ok.mp hboth
    exact ih ((all.insertCast casts hto).insertCast casts hback) h

/-- Making a type a compute type adds the kernels of zeroes and casts. -/
theorem All.insertNumeric (all : catalogue.All kind) (zeroHost : ∀ element, kind (.zeroHost element))
    (zeroGpu : ∀ element, kind (.zeroGpu element)) {type : NumericType} {info : TypeInfo}
    (h : catalogue.insertNumeric type = .ok (info, later)) : later.All kind := by
  obtain ⟨interned, _, h⟩ := except_bind_eq_ok.mp h
  dsimp only at h
  split at h
  · cases h
    exact all
  · obtain ⟨own, hown, h⟩ := except_bind_eq_ok.mp h
    obtain ⟨natives, hnatives, h⟩ := except_bind_eq_ok.mp h
    cases h
    refine All.insertCasts casts _ (All.insertCast casts ?_ hown) hnatives
    exact (all.insert (zeroHost _) interned.2 _ _).insert (zeroGpu _) _ _ _

end All

/-- All registered kernels change the contents of buffers and nothing else. -/
def IsTame (catalogue : Catalogue) : Prop :=
  ∀ name key kernel, catalogue.kernels.get? name key = some kernel → kernel.IsTame

theorem tame_initial : initial.IsTame := all_initial

theorem IsTame.insertNumeric {catalogue later : Catalogue} (tame : catalogue.IsTame)
    {type : NumericType} {info : TypeInfo} (h : catalogue.insertNumeric type = .ok (info, later)) :
    later.IsTame :=
  All.insertNumeric Kernel.tame_cast tame Kernel.tame_zeroHost Kernel.tame_zeroGpu h

theorem IsTame.keeping_dispatch {catalogue : Catalogue} (tame : catalogue.IsTame) {dense : List Kernel}
    (hdense : ∀ kernel ∈ dense, kernel.IsTame) (name : String) (on : Selection)
    (tensors : List Tensor) :
    Keeping Machine.Keeps (catalogue.dispatch dense name on tensors) := by
  have called {kernel : Kernel} (h : kernel.IsTame) (args : List (Arg Tensor)) :
      Keeping Machine.Keeps (kernel.call args) := by
    rw [Entry.call]
    split
    · exact .throw _
    · exact .adaptErrors (h _)
  refine .adaptErrors (.bind (.liftTrap _) fun key? => ?_)
  split
  · split
    · next kernel hkernel => exact called (hdense _ (List.mem_of_getElem? hkernel)) _
    · exact .throw _
  · rw [Registry.call, Registry.lookup]
    split
    · next kernel hkernel =>
      split at hkernel
      · next found =>
        cases hkernel
        exact called (tame _ _ _ found) _
      · cases hkernel
    · exact .throw _

end Catalogue

end ArrayEngine
