import ArrayEngine.Data.Element
import ArrayEngine.Proofs.Tensor.Casts
import ArrayEngine.Proofs.Tensor.HostCopies
import ArrayEngine.Proofs.Workspace.Fills

/-! Casts between the native types and those whose kernels were registered. -/
namespace ArrayEngine.Workspace

open Catalogue
open ElementForm (half)

variable {workspace : Workspace}

/-- A cast of a host tensor with memory where nothing but the kernels of some types that are not native has been
registered. The new tensor is made first, and if its bytes are too many to be counted or to be allocated, there is
none. Otherwise the cast succeeds exactly if both types are native, if they are one registered type, or if one is
registered and the other one native. The new tensor is packed and holds the converted elements; nothing else has
changed. The elements that are converted are taken to fit in an allocation. All other casts find no kernel. -/
theorem casts_of_reachable (reachable : Reachable workspace) {registered : Set NumericType}
    (registers : Registers registered workspace.catalogue)
    {name : String} {src : Tensor} {id : BufferId} (found : workspace.tensors.lookup name = some src)
    (hid : src.buffer? = some id) (hdevice : src.device = .cpu) (hosted : src.IsHosted workspace.machine)
    (known : workspace.catalogue.types.Known src.dtype) (sized : 0 < src.dtype.size)
    (computed : workspace.catalogue.types.isCompute src.dtype = true)
    {dtype : TypeInfo} (wanted : workspace.catalogue.types.Known dtype) (wide : 0 < dtype.size)
    (computes : workspace.catalogue.types.isCompute dtype = true) :
    ∃ elements, src.numel = .ok elements ∧
      (wordLimit ≤ elements * dtype.size → src.cast workspace.catalogue dtype workspace.machine =
        .error (.trap .multiplyOverflow) workspace.machine) ∧
      (maxAllocation < elements * dtype.size → elements * dtype.size < wordLimit →
        src.cast workspace.catalogue dtype workspace.machine =
          .error (.trap .capacityOverflow) workspace.machine) ∧
      (elements * dtype.size ≤ maxAllocation →
        (∀ target source, CastFor registered dtype src.dtype target source →
          elements * src.dtype.size < 2 ^ 63 →
          ∃ dst later, src.cast workspace.catalogue dtype workspace.machine = .ok dst later ∧
            dst.IsCast src dtype (Conversion.cast source.conversion target.conversion)
              workspace.machine later) ∧
        ((¬∃ target source, CastFor registered dtype src.dtype target source) →
          ∃ later, src.cast workspace.catalogue dtype workspace.machine = .error (.error (.dispatch
              (.notFound "cast_cpu" (.pack [dtype.token, src.dtype.token])))) later ∧
            workspace.machine.Extends later ∧ src.KeepsContents workspace.machine later)) := by
  have sound := reachable.sound.each found
  obtain ⟨buffer, elements, extent, holds⟩ := reachable.exists_holds found sized hid
  have host := hosted.place holds
  refine ⟨elements, holds.numel, fun uncounted => ?_, fun large counted => ?_,
    fun fits => ⟨fun target source cast _ => ?_, fun missing => ?_⟩⟩
  · exact holds.cast_eq_trap sound.dimTypes hdevice computed computes (Tensor.byteSize_of_uncounted uncounted)
  · exact holds.cast_eq_trap sound.dimTypes hdevice computed computes (Tensor.byteSize_of_large large counted)
  · have hsize : Tensor.byteSize elements dtype.size = .ok _ := Tensor.byteSize_eq_ok.mpr ⟨rfl, fits⟩
    refine holds.isCast_of_dispatch sound.dimTypes hdevice computed computes host hosted.stream wide hsize
      cast.1 cast.2.1 ?_
    rintro dst rfl
    exact registers.dispatch_of_castFor wanted known cast
  · have hsize : Tensor.byteSize elements dtype.size = .ok _ := Tensor.byteSize_eq_ok.mpr ⟨rfl, fits⟩
    have longer := workspace.machine.extends_withBuffer src.stream.place (elements * dtype.size)
    refine ⟨_, holds.cast_eq_error sound.dimTypes hdevice computed computes hsize ?_, longer,
      holds.keepsContents longer⟩
    rintro dst rfl
    exact registers.dispatch_of_missing wanted known missing

/-- The catalogue with the kernels of one more type. -/
def having (type : NumericType) : Catalogue :=
  match Catalogue.initial.insertNumeric type with
  | .ok (_, catalogue) => catalogue
  | .error _ => .initial

theorem registers_half : Registers {half} (having half) := by
  have registers := Registers.initial.insertNumeric (by decide) (fun _ h => h.elim)
    (rfl : Catalogue.initial.insertNumeric half = .ok (_, having half))
  rwa [insert_empty_eq] at registers

/-- Two columns of two numbers each: 1.5 and -2, and after a gap 0.25 and ten billion. -/
def measured : Workspace :=
  { initial with
    catalogue := having half
    machine := { Machine.initial with buffers :=
      [⟨20, .host, [0, 0, 192, 63, 0, 0, 0, 192, 7, 7, 7, 7, 0, 0, 128, 62, 249, 2, 21, 80] ++
        List.replicate 12 0⟩] }
    tensors := [("a", columns .cpu 0)] }

theorem reachable_measured : Reachable measured := by
  have reachable : Reachable initial := .start rfl Catalogue.tame_initial
  have reachable := reachable.make (.layout .f32 [2, 2] [.any, .any] (some [1, 3]) .cpu false)
    (.of_ok rfl : EndsAt (create "a" _ _) _)
  have tame := Catalogue.tame_initial.insertNumeric
    (rfl : Catalogue.initial.insertNumeric half = .ok (_, having half))
  exact reachable.outside rfl (Machine.keeps_store _ 0 0
    [0, 0, 192, 63, 0, 0, 0, 192, 7, 7, 7, 7, 0, 0, 128, 62, 249, 2, 21, 80]) tame

/-- The numbers in half precision, next to each other. The last one is out of range. -/
theorem casts_of_reachable_halves : ∃ dst later, Reachable measured ∧ Registers {half} measured.catalogue ∧
    (columns .cpu 0).cast measured.catalogue ⟨4, .f16⟩ measured.machine = .ok dst later ∧
    dst.strides = [1, 2] ∧ dst.toList later = .ok [[0, 62], [0, 192], [0, 52], [0, 124]] later := by
  obtain ⟨elements, hnumel, _, _, hcast⟩ := casts_of_reachable reachable_measured registers_half
    (rfl : measured.tensors.lookup "a" = some (columns .cpu 0)) rfl rfl ⟨rfl, fun _ h => by cases h; rfl⟩
    rfl (by decide) rfl (rfl : measured.catalogue.types.Known ⟨4, .f16⟩) (by decide) rfl
  cases hnumel
  obtain ⟨dst, later, hdst, made⟩ := (hcast (by decide)).1 half .f32
    ⟨rfl, rfl, .inr (.ofNative rfl List.mem_cons_self)⟩ (by decide)
  refine ⟨dst, later, reachable_measured, registers_half, hdst, (Except.ok.inj made.strides).symm, ?_⟩
  cases hdst
  rfl

/-- As many elements at one place as a power of two. -/
def crowd (log : Nat) : Tensor := ⟨[2 ^ log], [.any], [0], .f32, .cpu, .cpu, some 0, .exclusive, false⟩

def crowded (log : Nat) (catalogue : Catalogue) : Workspace :=
  { initial with
    catalogue
    machine := { Machine.initial with buffers := [.zeroed .host 4] }
    tensors := [("a", crowd log)] }

theorem reachable_crowded {log : Nat} {catalogue : Catalogue} (tame : catalogue.IsTame)
    (ends : EndsAt (create "a" (Tensor.withLayout .f32 [2 ^ log] [.any] (some [0]) .cpu false)
      { initial with catalogue }) (crowded log catalogue)) : Reachable (crowded log catalogue) :=
  .make (.start rfl tame) (.layout ..) ends

def unit : NumericType := ⟨TypeInfo.unit.type, ⟨fun _ => 0, fun _ => []⟩, fun _ => rfl⟩

/-- All elements are in four bytes, but eight bytes for each of them are more than can be counted, or still more
than can be allocated. Elements without bytes are in an allocation that cannot be split into them. -/
theorem cast_uncounted :
    (Reachable (crowded 62 .initial) ∧ Registers ∅ .initial ∧ (crowd 62).IsHosted (crowded 62 .initial).machine ∧
      CastFor ∅ ⟨1, NumericType.f64.toElementType⟩ (crowd 62).dtype .f64 .f32 ∧
      (crowd 62).cast .initial ⟨1, NumericType.f64.toElementType⟩ (crowded 62 .initial).machine =
        .error (.trap .multiplyOverflow) (crowded 62 .initial).machine) ∧
    (Reachable (crowded 60 .initial) ∧ Registers ∅ .initial ∧ (crowd 60).IsHosted (crowded 60 .initial).machine ∧
      CastFor ∅ ⟨1, NumericType.f64.toElementType⟩ (crowd 60).dtype .f64 .f32 ∧
      (crowd 60).cast .initial ⟨1, NumericType.f64.toElementType⟩ (crowded 60 .initial).machine =
        .error (.trap .capacityOverflow) (crowded 60 .initial).machine) ∧
    ∃ later, Reachable (crowded 0 (having unit)) ∧ Registers {unit} (having unit) ∧
      (crowd 0).IsHosted (crowded 0 (having unit)).machine ∧
      CastFor {unit} .unit (crowd 0).dtype unit .f32 ∧
      (crowd 0).cast (having unit) .unit (crowded 0 (having unit)).machine =
        .error (.trap .divideByZero) later := by
  have hosted (log : Nat) (catalogue : Catalogue) : (crowd log).IsHosted (crowded log catalogue).machine :=
    ⟨rfl, fun _ h => by cases h; rfl⟩
  have native (log : Nat) : CastFor ∅ ⟨1, NumericType.f64.toElementType⟩ (crowd log).dtype .f64 .f32 :=
    ⟨rfl, rfl, .inl ⟨List.mem_cons_of_mem _ List.mem_cons_self, List.mem_cons_self⟩⟩
  have tame := Catalogue.tame_initial.insertNumeric
    (rfl : Catalogue.initial.insertNumeric unit = .ok (_, having unit))
  have registers := Registers.initial.insertNumeric (by decide) (fun _ h => h.elim)
    (rfl : Catalogue.initial.insertNumeric unit = .ok (_, having unit))
  rw [insert_empty_eq] at registers
  exact ⟨⟨reachable_crowded Catalogue.tame_initial (.of_ok rfl), .initial, hosted .., native .., rfl⟩,
    ⟨reachable_crowded Catalogue.tame_initial (.of_ok rfl), .initial, hosted .., native .., rfl⟩,
    _, reachable_crowded tame (.of_ok rfl), registers, hosted .., ⟨rfl, rfl, .inr (.ofNative rfl List.mem_cons_self)⟩,
    rfl⟩

end ArrayEngine.Workspace
