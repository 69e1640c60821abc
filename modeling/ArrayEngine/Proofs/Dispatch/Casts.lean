import ArrayEngine.Catalogue
import ArrayEngine.Proofs.Dispatch.Registry
import ArrayEngine.Proofs.Dispatch.Selection
import ArrayEngine.Proofs.Layout.Box
import ArrayEngine.Proofs.TypeTable.Sound
import Mathlib.Data.Set.Function

/-! The casts that a catalogue has kernels for: those between native types, and those that came with the types that
were registered. -/
namespace ArrayEngine

namespace TypeTable

variable {table : TypeTable} {info : TypeInfo}

/-- An entry with a native token is that of a native type. -/
theorem Sound.exists_native (sound : table.Sound) (found : table.ofToken? info.token = some info)
    (native : info.isNative = true) :
    ∃ type, NumericType.native[info.token.toNat]? = some type ∧ info.type = type.toElementType := by
  have hlt : info.token.toNat < NumericType.native.length := of_decide_eq_true native
  have htype := List.getElem?_eq_getElem hlt
  obtain ⟨_, kind, hentry⟩ := ofToken?_eq_some_iff.mp found
  have hsame := Option.some.inj (hentry.symm.trans (sound.native _ _ htype))
  exact ⟨_, htype, congrArg Prod.fst hsame⟩

/-- The entry of a native type is at its own place. -/
theorem Sound.getElem?_native (sound : table.Sound) (found : table.ofToken? info.token = some info)
    {type : NumericType} (native : type ∈ NumericType.native) (htype : info.type = type.toElementType) :
    NumericType.native[info.token.toNat]? = some type := by
  obtain ⟨place, hplace⟩ := List.mem_iff_getElem?.mp native
  have hlt : place < 4 := (List.getElem?_eq_some_iff.mp hplace).1
  have htoken : (UInt8.ofNat place).toNat = place := UInt8.toNat_ofNat_of_lt (Nat.lt_trans hlt (by decide))
  cases (sound.find?_eq_some_iff.mpr ⟨found, htype⟩).symm.trans (sound.find?_native hplace)
  exact (congrArg (NumericType.native[·]?) htoken).trans hplace

end TypeTable

namespace Catalogue

/-- The casts that come with some types: of each of them to itself, and between it and every native type. The
target comes first. -/
inductive AddedCast (registered : Set NumericType) : NumericType → NumericType → Prop
  | own {type} : type ∈ registered → AddedCast registered type type
  | ofNative {type native} : type ∈ registered → native ∈ NumericType.native →
      AddedCast registered type native
  | toNative {type native} : type ∈ registered → native ∈ NumericType.native →
      AddedCast registered native type

/-- The catalogues that come of the initial one when the kernels of some types that are not native are registered,
in any order and any number of times. A type has one conversion. Between that, types may become known and compute
types. -/
inductive Registers : Set NumericType → Catalogue → Prop
  | initial : Registers ∅ .initial
  | intern {registered catalogue type info types} : Registers registered catalogue →
      catalogue.types.intern type = .ok (info, types) → Registers registered { catalogue with types }
  | internCompute {registered catalogue type info types} : Registers registered catalogue →
      catalogue.types.internCompute type = .ok (info, types) →
      Registers registered { catalogue with types }
  | insertNumeric {registered catalogue later type info} : Registers registered catalogue →
      type.toElementType ∉ NumericType.native.map NumericType.toElementType →
      (∀ other ∈ registered, other.toElementType = type.toElementType → other = type) →
      catalogue.insertNumeric type = .ok (info, later) → Registers (insert type registered) later

/-- There is a cast from the second type to the first one: both are native, or it came with one of them. -/
def CastFor (registered : Set NumericType) (dtype origin : TypeInfo) (target source : NumericType) : Prop :=
  dtype.type = target.toElementType ∧ origin.type = source.toElementType ∧
    (target ∈ NumericType.native ∧ source ∈ NumericType.native ∨ AddedCast registered target source)

/-- The key of the cast from `source` to `target`, if both types are known. -/
def castKey? (types : TypeTable) (target source : NumericType) : Option DispatchKey := do
  let first ← types.find? target.toElementType
  let second ← types.find? source.toElementType
  return .pack [first.token, second.token]

/-- The kernels of casts are those of some pairs of known types, and no others. -/
structure HasCasts (all : Set NumericType) (casts : NumericType → NumericType → Prop) (catalogue : Catalogue) :
    Prop where
  sound : catalogue.types.Sound
  within : ∀ {target source}, casts target source → target ∈ all ∧ source ∈ all
  known : ∀ {target source}, casts target source →
    ∃ key, castKey? catalogue.types target source = some key
  kernels : ∀ {key kernel}, catalogue.kernels.get? "cast_cpu" key = some kernel ↔
    ∃ target source, casts target source ∧ castKey? catalogue.types target source = some key ∧
      Kernel.cast target source = kernel

variable {all registered : Set NumericType} {casts : NumericType → NumericType → Prop}
  {catalogue later : Catalogue} {types : TypeTable} {target source type : NumericType} {first second : TypeInfo}
  {key : DispatchKey}

theorem Registers.foreign (registers : Registers registered catalogue) :
    ∀ type ∈ registered, type.toElementType ∉ NumericType.native.map NumericType.toElementType := by
  induction registers with
  | initial => exact fun _ hmem => hmem.elim
  | intern _ _ ih => exact ih
  | internCompute _ _ ih => exact ih
  | insertNumeric _ foreign _ _ ih =>
    rintro type (rfl | hold)
    · exact foreign
    · exact ih type hold

theorem Registers.injOn (registers : Registers registered catalogue) :
    registered.InjOn NumericType.toElementType := by
  induction registers with
  | initial => exact Set.injOn_empty _
  | intern _ _ ih => exact ih
  | internCompute _ _ ih => exact ih
  | insertNumeric _ _ one _ ih =>
    rintro first (rfl | hfirst) second (rfl | hsecond) same
    · rfl
    · exact (one second hsecond same.symm).symm
    · exact one first hfirst same
    · exact ih hfirst hsecond same

theorem castKey?_eq_some_iff : castKey? types target source = some key ↔
    ∃ first second, types.find? target.toElementType = some first ∧
      types.find? source.toElementType = some second ∧ .pack [first.token, second.token] = key := by
  simp [castKey?, Option.bind_eq_some_iff]

theorem castKey?_of_find? (hfirst : types.find? target.toElementType = some first)
    (hsecond : types.find? source.toElementType = some second) :
    castKey? types target source = some (.pack [first.token, second.token]) :=
  castKey?_eq_some_iff.mpr ⟨first, second, hfirst, hsecond, rfl⟩

/-- The key of a cast is that of its types. -/
theorem types_of_castKey? (sound : types.Sound) (h : castKey? types target source = some key)
    (hfirst : types.ofToken? first.token = some first) (hsecond : types.ofToken? second.token = some second)
    (hkey : .pack [first.token, second.token] = key) :
    first.type = target.toElementType ∧ second.type = source.toElementType := by
  obtain ⟨one, two, hone, htwo, rfl⟩ := castKey?_eq_some_iff.mp h
  have htokens : [first.token, second.token] = [one.token, two.token] :=
    DispatchKey.pack_injective (by simp) (by simp) hkey
  obtain ⟨hsame, hrest⟩ := List.cons.inj htokens
  obtain ⟨hone, honeType⟩ := sound.find?_eq_some_iff.mp hone
  obtain ⟨htwo, htwoType⟩ := sound.find?_eq_some_iff.mp htwo
  rw [← hsame, hfirst] at hone
  rw [← (List.cons.inj hrest).1, hsecond] at htwo
  cases hone
  cases htwo
  exact ⟨honeType, htwoType⟩

/-- A key is that of one pair of types. -/
theorem types_eq_of_castKey? {other origin : NumericType} (sound : types.Sound)
    (h : castKey? types target source = some key) (hother : castKey? types other origin = some key) :
    other.toElementType = target.toElementType ∧ origin.toElementType = source.toElementType := by
  obtain ⟨first, second, hfirst, hsecond, hpack⟩ := castKey?_eq_some_iff.mp hother
  obtain ⟨hfirst, hfirstType⟩ := sound.find?_eq_some_iff.mp hfirst
  obtain ⟨hsecond, hsecondType⟩ := sound.find?_eq_some_iff.mp hsecond
  obtain ⟨htarget, hsource⟩ := types_of_castKey? sound h hfirst hsecond hpack
  exact ⟨hfirstType.symm.trans htarget, hsecondType.symm.trans hsource⟩

theorem castKey?_of_extends {table : TypeTable} (sound : table.Sound) (laterSound : types.Sound)
    (grown : table.Extends types) (h : castKey? table target source = some key) :
    castKey? types target source = some key := by
  obtain ⟨first, second, hfirst, hsecond, rfl⟩ := castKey?_eq_some_iff.mp h
  exact castKey?_of_find? (grown.find? sound laterSound hfirst) (grown.find? sound laterSound hsecond)

theorem hasCasts_initial : HasCasts all (AddedCast ∅) .initial := by
  refine ⟨TypeTable.sound_builtin, fun cast => ?_, fun cast => ?_, fun {key kernel} => ⟨fun h => ?_, ?_⟩⟩
  · cases cast <;> contradiction
  · cases cast <;> contradiction
  · cases h
  · rintro ⟨target, source, cast, _⟩
    cases cast <;> contradiction

theorem addedCast_insert_iff : AddedCast (insert type registered) target source ↔
    (AddedCast registered target source ∨ target = type ∧ source = type) ∨
      ∃ native ∈ NumericType.native, target = type ∧ source = native ∨ target = native ∧ source = type := by
  constructor
  · intro cast
    cases cast with
    | own hmem =>
      obtain rfl | hold := Set.mem_insert_iff.mp hmem
      · exact .inl (.inr ⟨rfl, rfl⟩)
      · exact .inl (.inl (.own hold))
    | ofNative hmem native =>
      obtain rfl | hold := Set.mem_insert_iff.mp hmem
      · exact .inr ⟨_, native, .inl ⟨rfl, rfl⟩⟩
      · exact .inl (.inl (.ofNative hold native))
    | toNative hmem native =>
      obtain rfl | hold := Set.mem_insert_iff.mp hmem
      · exact .inr ⟨_, native, .inr ⟨rfl, rfl⟩⟩
      · exact .inl (.inl (.toNative hold native))
  · rintro ((cast | ⟨rfl, rfl⟩) | ⟨native, hmem, ⟨rfl, rfl⟩ | ⟨rfl, rfl⟩⟩)
    · cases cast with
      | own hold => exact .own (.inr hold)
      | ofNative hold native => exact .ofNative (.inr hold) native
      | toNative hold native => exact .toNative (.inr hold) native
    · exact .own (.inl rfl)
    · exact .ofNative (.inl rfl) hmem
    · exact .toNative (.inl rfl) hmem

namespace HasCasts

/-- Types that become known change no casts. -/
theorem grown (has : HasCasts all casts catalogue) (sound : types.Sound)
    (hgrown : catalogue.types.Extends types) : HasCasts all casts { catalogue with types } := by
  have same {target source : NumericType} (cast : casts target source) :
      castKey? types target source = castKey? catalogue.types target source := by
    obtain ⟨key, hkey⟩ := has.known cast
    rw [hkey, castKey?_of_extends has.sound sound hgrown hkey]
  refine ⟨sound, has.within, fun cast => ?_, fun {key kernel} => ?_⟩
  · rw [same cast]
    exact has.known cast
  · rw [has.kernels]
    constructor
    · rintro ⟨target, source, cast, hkey, hkernel⟩
      exact ⟨target, source, cast, (same cast).trans hkey, hkernel⟩
    · rintro ⟨target, source, cast, hkey, hkernel⟩
      exact ⟨target, source, cast, (same cast).symm.trans hkey, hkernel⟩

theorem other (has : HasCasts all casts catalogue) {name : String} (h : "cast_cpu" ≠ name)
    (key : DispatchKey) (kernel : Kernel) :
    HasCasts all casts { catalogue with kernels := catalogue.kernels.insert name key kernel } := by
  refine ⟨has.sound, has.within, has.known, ?_⟩
  intro other found
  rw [Registry.get?_insert, if_neg fun both => h both.1]
  exact has.kernels

/-- One more cast. Its key is none of another one, since different types have different tokens. -/
theorem add (has : HasCasts all casts catalogue) (distinct : all.InjOn NumericType.toElementType)
    (htarget : target ∈ all) (hsource : source ∈ all)
    (hkey : castKey? catalogue.types target source = some key) :
    HasCasts all (fun first second => casts first second ∨ first = target ∧ second = source)
      { catalogue with kernels := catalogue.kernels.insert "cast_cpu" key (Kernel.cast target source) } := by
  refine ⟨has.sound, ?_, ?_, ?_⟩
  · rintro _ _ (cast | ⟨rfl, rfl⟩)
    · exact has.within cast
    · exact ⟨htarget, hsource⟩
  · rintro _ _ (cast | ⟨rfl, rfl⟩)
    · exact has.known cast
    · exact ⟨key, hkey⟩
  · intro other kernel
    rw [Registry.get?_insert]
    split
    · next hsame =>
      obtain ⟨_, rfl⟩ := hsame
      rw [Option.some.injEq]
      refine ⟨fun h => ⟨target, source, .inr ⟨rfl, rfl⟩, hkey, h⟩, ?_⟩
      rintro ⟨first, second, cast, hother, rfl⟩
      obtain cast | ⟨rfl, rfl⟩ := cast
      · obtain ⟨hfirst, hsecond⟩ := has.within cast
        obtain ⟨htargets, hsources⟩ := types_eq_of_castKey? has.sound hkey hother
        rw [distinct hfirst htarget htargets, distinct hsecond hsource hsources]
      · rfl
    · next hne =>
      rw [has.kernels]
      constructor
      · rintro ⟨first, second, cast, hrest⟩
        exact ⟨first, second, .inl cast, hrest⟩
      · rintro ⟨first, second, cast | ⟨rfl, rfl⟩, hother, hkernel⟩
        · exact ⟨first, second, cast, hother, hkernel⟩
        · exact absurd ⟨rfl, Option.some.inj (hother.symm.trans hkey)⟩ hne

theorem insertCast (has : HasCasts all casts catalogue) (distinct : all.InjOn NumericType.toElementType)
    (htarget : target ∈ all) (hsource : source ∈ all) (h : catalogue.insertCast target source = .ok later) :
    HasCasts all (fun first second => casts first second ∨ first = target ∧ second = source) later := by
  obtain ⟨⟨first, middle⟩, hfirst, h⟩ := except_bind_eq_ok.mp h
  obtain ⟨⟨second, types⟩, hsecond, h⟩ := except_bind_eq_ok.mp h
  cases h
  rw [TypeTable.intern_eq_insert] at hfirst hsecond
  have one := has.sound.adds_of_insert (by decide) hfirst
  have two := one.sound.adds_of_insert (by decide) hsecond
  exact (has.grown two.sound (one.grown.trans two.grown)).add distinct htarget hsource
    (castKey?_of_find? (two.grown.find? one.sound two.sound one.found) two.found)

/-- The casts between a type and some native ones. -/
theorem insertCasts (has : HasCasts all casts catalogue) (distinct : all.InjOn NumericType.toElementType)
    (htype : type ∈ all) {natives : List NumericType} (hnatives : ∀ native ∈ natives, native ∈ all)
    (h : natives.foldlM (fun catalogue native => do
      Catalogue.insertCast (← catalogue.insertCast type native) native type) catalogue = .ok later) :
    HasCasts all (fun target source => casts target source ∨ ∃ native ∈ natives,
      target = type ∧ source = native ∨ target = native ∧ source = type) later := by
  induction natives generalizing catalogue casts with
  | nil =>
    cases h
    simpa using has
  | cons native natives ih =>
    rw [List.foldlM_cons] at h
    obtain ⟨both, hboth, h⟩ := except_bind_eq_ok.mp h
    obtain ⟨there, hthere, hback⟩ := except_bind_eq_ok.mp hboth
    have hnative := hnatives native List.mem_cons_self
    have hall := ih ((has.insertCast distinct htype hnative hthere).insertCast distinct hnative htype hback)
      (fun other hmem => hnatives other (List.mem_cons_of_mem _ hmem)) h
    simpa only [List.mem_cons, exists_eq_or_imp, or_assoc] using hall

/-- A type that is not native gets all of its casts. -/
theorem insertNumeric (has : HasCasts all (AddedCast registered) catalogue)
    (distinct : all.InjOn NumericType.toElementType) (hnatives : ∀ native ∈ NumericType.native, native ∈ all)
    (htype : type ∈ all) (foreign : type.toElementType ∉ NumericType.native.map NumericType.toElementType)
    {info : TypeInfo} (h : catalogue.insertNumeric type = .ok (info, later)) :
    HasCasts all (AddedCast (insert type registered)) later := by
  obtain ⟨⟨known, types⟩, hintern, h⟩ := except_bind_eq_ok.mp h
  have added := has.sound.adds_of_internCompute hintern
  have hforeign : known.isNative = false := by
    rw [Bool.eq_false_iff]
    intro native
    obtain ⟨hfound, hknown⟩ := added.sound.find?_eq_some_iff.mp added.found
    obtain ⟨same, hplace, hsame⟩ := added.sound.exists_native hfound native
    exact foreign (List.mem_map.mpr ⟨same, List.mem_of_getElem? hplace, hsame.symm.trans hknown⟩)
  dsimp only at h
  rw [if_neg (by rw [hforeign]; exact Bool.false_ne_true)] at h
  obtain ⟨own, hown, h⟩ := except_bind_eq_ok.mp h
  obtain ⟨last, hlast, h⟩ := except_bind_eq_ok.mp h
  cases h
  have zeros := ((has.grown added.sound added.grown).other (by decide : "cast_cpu" ≠ "zero_cpu")
    (.pack [info.token]) (Kernel.zeroHost type.toElementType)).other
    (by decide : "cast_cpu" ≠ "zero_gpu") (.pack [info.token]) (Kernel.zeroGpu type.toElementType)
  have hall := (zeros.insertCast distinct htype htype hown).insertCasts distinct htype hnatives hlast
  have hcasts : AddedCast (insert type registered) = fun target source =>
      (AddedCast registered target source ∨ target = type ∧ source = type) ∨
        ∃ native ∈ NumericType.native, target = type ∧ source = native ∨ target = native ∧ source = type :=
    funext fun target => funext fun source => propext addedCast_insert_iff
  exact hcasts ▸ hall

end HasCasts

/-- A catalogue has casts for the types that were registered, and no others in its registry. -/
theorem Registers.hasCasts (registers : Registers registered catalogue)
    (distinct : all.InjOn NumericType.toElementType) (hnatives : ∀ native ∈ NumericType.native, native ∈ all)
    (hall : registered ⊆ all) : HasCasts all (AddedCast registered) catalogue := by
  induction registers with
  | initial => exact hasCasts_initial
  | intern _ h ih =>
    rw [TypeTable.intern_eq_insert] at h
    have added := (ih hall).sound.adds_of_insert (by decide) h
    exact (ih hall).grown added.sound added.grown
  | internCompute _ h ih =>
    have added := (ih hall).sound.adds_of_internCompute h
    exact (ih hall).grown added.sound added.grown
  | insertNumeric _ foreign _ h ih =>
    exact (ih (Set.subset_insert _ _ |>.trans hall)).insertNumeric distinct hnatives
      (hall (Set.mem_insert _ _)) foreign h

end Catalogue

variable {dst src : Tensor} {target source : NumericType}

/-- The kernel of a cast takes two tensors of its types. -/
theorem Kernel.call_cast (htarget : dst.dtype.type = target.toElementType)
    (hsource : src.dtype.type = source.toElementType) :
    (Kernel.cast target source).call ([dst, src].map Catalogue.argument) = adaptErrors .kernel
      (adaptErrors .tensor (Tensor.castHost target.conversion source.conversion dst src)) := by
  have hfits : List.Forall₂ Arg.IsFor (Kernel.cast target source).params ([dst, src].map Catalogue.argument) :=
    .cons (.inr ⟨_, rfl, congrArg (fun type : ElementType => ArgType.anyTensor type.id) htarget⟩)
      (.cons (.inr ⟨_, rfl, congrArg (fun type : ElementType => ArgType.anyTensor type.id) hsource⟩) .nil)
  rw [Entry.call_of_forall₂ hfits]
  rfl

/-- The dense table has the kernel of two native types at the place of their key. -/
theorem Kernel.getElem?_castTable {first second : Nat} (hfirst : NumericType.native[first]? = some target)
    (hsecond : NumericType.native[second]? = some source) :
    castTable[second + 4 * first]? = some (Kernel.cast target source) := by
  have hlt : second < 4 := (List.getElem?_eq_some_iff.mp hsecond).1
  rw [castTable, getElem?_flatMap (fun _ => by simp; rfl) _ hlt, hfirst]
  simp [hsecond]

namespace Catalogue

variable {all : Set NumericType} {casts : NumericType → NumericType → Prop} {catalogue : Catalogue}

/-- Between native types the dense table is used. -/
theorem dispatch_of_native (hdst : NumericType.native[dst.dtype.token.toNat]? = some target)
    (hsrc : NumericType.native[src.dtype.token.toNat]? = some source) :
    catalogue.dispatch Kernel.castTable "cast_cpu" ⟨[dst.dtype, src.dtype]⟩ [dst, src] =
      adaptErrors DispatchError.toTensorError
        ((Kernel.cast target source).call ([dst, src].map argument)) := by
  have hfirst : dst.dtype.isNative = true := decide_eq_true (List.getElem?_eq_some_iff.mp hdst).1
  have hsecond : src.dtype.isNative = true := decide_eq_true (List.getElem?_eq_some_iff.mp hsrc).1
  obtain ⟨key, -, hselected, -, -, hindex⟩ :=
    Selection.nativeKey?_of_native ⟨[dst.dtype, src.dtype]⟩ (by simp) (by simp [hfirst, hsecond])
  have hplace : key.index = src.dtype.token.toNat + 4 * dst.dtype.token.toNat := by
    rw [hindex]
    simp only [Selection.tokens, List.map_cons, List.map_nil, List.foldl_cons, List.foldl_nil]
    omega
  rw [dispatch, Registry.dispatch_of_native hselected (hplace ▸ Kernel.getElem?_castTable hdst hsrc)]

/-- Elsewhere the registry is asked. -/
theorem dispatch_of_foreign (foreign : ¬(dst.dtype.isNative = true ∧ src.dtype.isNative = true)) :
    catalogue.dispatch Kernel.castTable "cast_cpu" ⟨[dst.dtype, src.dtype]⟩ [dst, src] =
      adaptErrors DispatchError.toTensorError (catalogue.kernels.call "cast_cpu"
        (.pack [dst.dtype.token, src.dtype.token]) ([dst, src].map argument)) := by
  have hforeign : ∃ info ∈ [dst.dtype, src.dtype], info.isNative = false := by
    simpa [imp_iff_not_or] using foreign
  rw [dispatch, Registry.dispatch_of_foreign hforeign]
  rfl

theorem HasCasts.dispatch_of_cast (has : HasCasts all casts catalogue) (cast : casts target source)
    (hdst : catalogue.types.find? target.toElementType = some dst.dtype)
    (hsrc : catalogue.types.find? source.toElementType = some src.dtype)
    (foreign : ¬(dst.dtype.isNative = true ∧ src.dtype.isNative = true)) :
    catalogue.dispatch Kernel.castTable "cast_cpu" ⟨[dst.dtype, src.dtype]⟩ [dst, src] =
      adaptErrors DispatchError.toTensorError
        ((Kernel.cast target source).call ([dst, src].map argument)) := by
  have hkernel := has.kernels.mpr ⟨target, source, cast, castKey?_of_find? hdst hsrc, rfl⟩
  rw [dispatch_of_foreign foreign, Registry.call, Registry.lookup, hkernel]

theorem HasCasts.dispatch_of_missing (has : HasCasts all casts catalogue)
    (hdst : catalogue.types.ofToken? dst.dtype.token = some dst.dtype)
    (hsrc : catalogue.types.ofToken? src.dtype.token = some src.dtype)
    (missing : ∀ target source, casts target source → dst.dtype.type = target.toElementType →
      src.dtype.type ≠ source.toElementType)
    (foreign : ¬(dst.dtype.isNative = true ∧ src.dtype.isNative = true)) (machine : Machine) :
    catalogue.dispatch Kernel.castTable "cast_cpu" ⟨[dst.dtype, src.dtype]⟩ [dst, src] machine =
      .error (.error (.dispatch (.notFound "cast_cpu" (.pack [dst.dtype.token, src.dtype.token])))) machine := by
  have hnone : catalogue.kernels.get? "cast_cpu" (.pack [dst.dtype.token, src.dtype.token]) = none := by
    rw [Option.eq_none_iff_forall_ne_some]
    intro kernel hkernel
    obtain ⟨target, source, cast, hkey, _⟩ := has.kernels.mp hkernel
    obtain ⟨htarget, hsource⟩ := types_of_castKey? has.sound hkey hdst hsrc rfl
    exact missing target source cast htarget hsource
  rw [dispatch_of_foreign foreign, adaptErrors, Registry.call_of_get?_eq_none hnone]
  rfl

namespace Registers

variable {registered : Set NumericType} (registers : Registers registered catalogue)
include registers

theorem hasCasts_and_native :
    HasCasts (registered ∪ {type | type ∈ NumericType.native}) (AddedCast registered) catalogue := by
  refine registers.hasCasts ?_ (fun _ native => .inr native) Set.subset_union_left
  rintro first (hfirst | hfirst) second (hsecond | hsecond) hsame
  · exact registers.injOn hfirst hsecond hsame
  · exact absurd (List.mem_map.mpr ⟨second, hsecond, hsame.symm⟩) (registers.foreign first hfirst)
  · exact absurd (List.mem_map.mpr ⟨first, hfirst, hsame⟩) (registers.foreign second hsecond)
  · exact List.inj_on_of_nodup_map (by decide) hfirst hsecond hsame

/-- A registered type has no native token, since it is not a native type. -/
theorem not_isNative {info : TypeInfo} {type : NumericType}
    (found : catalogue.types.ofToken? info.token = some info) (hmem : type ∈ registered)
    (htype : info.type = type.toElementType) : ¬info.isNative = true := by
  intro native
  obtain ⟨same, hplace, hsame⟩ :=
    registers.hasCasts_and_native.sound.exists_native found native
  exact registers.foreign type hmem (List.mem_map.mpr ⟨same, List.mem_of_getElem? hplace, hsame.symm.trans htype⟩)

/-- Where there is a cast its kernel is called, in the dense table or in the registry. -/
theorem dispatch_of_castFor (hdst : catalogue.types.ofToken? dst.dtype.token = some dst.dtype)
    (hsrc : catalogue.types.ofToken? src.dtype.token = some src.dtype)
    (cast : CastFor registered dst.dtype src.dtype target source) :
    catalogue.dispatch Kernel.castTable "cast_cpu" ⟨[dst.dtype, src.dtype]⟩ [dst, src] =
      adaptErrors DispatchError.toTensorError
        ((Kernel.cast target source).call ([dst, src].map argument)) := by
  have has := registers.hasCasts_and_native
  obtain ⟨htarget, hsource, ⟨native, origin⟩ | added⟩ := cast
  · exact dispatch_of_native (has.sound.getElem?_native hdst native htarget)
      (has.sound.getElem?_native hsrc origin hsource)
  · refine has.dispatch_of_cast added (has.sound.find?_eq_some_iff.mpr ⟨hdst, htarget⟩)
      (has.sound.find?_eq_some_iff.mpr ⟨hsrc, hsource⟩) fun native => ?_
    cases added with
    | own hmem => exact registers.not_isNative hdst hmem htarget native.1
    | ofNative hmem _ => exact registers.not_isNative hdst hmem htarget native.1
    | toNative hmem _ => exact registers.not_isNative hsrc hmem hsource native.2

/-- Elsewhere no kernel is found. -/
theorem dispatch_of_missing (hdst : catalogue.types.ofToken? dst.dtype.token = some dst.dtype)
    (hsrc : catalogue.types.ofToken? src.dtype.token = some src.dtype)
    (missing : ¬∃ target source, CastFor registered dst.dtype src.dtype target source) (machine : Machine) :
    catalogue.dispatch Kernel.castTable "cast_cpu" ⟨[dst.dtype, src.dtype]⟩ [dst, src] machine =
      .error (.error (.dispatch (.notFound "cast_cpu" (.pack [dst.dtype.token, src.dtype.token])))) machine := by
  have has := registers.hasCasts_and_native
  refine has.dispatch_of_missing hdst hsrc (fun target source cast htarget hsource =>
    missing ⟨target, source, htarget, hsource, .inr cast⟩) (fun native => ?_) machine
  obtain ⟨target, htarget, hfirst⟩ := has.sound.exists_native hdst native.1
  obtain ⟨source, hsource, hsecond⟩ := has.sound.exists_native hsrc native.2
  exact missing ⟨target, source, hfirst, hsecond, .inl ⟨List.mem_of_getElem? htarget, List.mem_of_getElem? hsource⟩⟩

end Registers

end Catalogue

end ArrayEngine
