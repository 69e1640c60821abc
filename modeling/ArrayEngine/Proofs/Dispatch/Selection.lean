import ArrayEngine.Dispatch.Registry
import ArrayEngine.Proofs.Dispatch.Calls
import ArrayEngine.Proofs.Dispatch.GeneralKeys

/-! The choice between a dense table and the registry. It is made by the types of a call alone: what is in the
registry does not matter to native types, and what is in the table does not matter to others. -/
namespace ArrayEngine

variable {σ ν κ : Type}

/-- A call never has the error of a dense table that is too short. -/
theorem Entry.call_ne_tableIndex {entry : Entry σ ν κ} {args : List (Arg ν)} {number length : Nat}
    (state later : σ) : entry.call args state ≠ .error (.error (.tableIndex number length)) later := by
  intro hcall
  obtain ⟨hrefusal, -⟩ | ⟨_, ⟨⟩⟩ := refusal?_of_call hcall
  obtain ⟨-, ⟨⟩⟩ | ⟨-, _, _, -, ⟨⟩⟩ := refusal?_eq_some_iff.mp hrefusal

namespace Selection

variable {table : TypeTable} {types : List TypeInfo} {on : Selection}

theorem isCompute_iff {info : TypeInfo} : table.isCompute info = true ↔ table.kind info.token ≠ .storage :=
  bne_iff_ne

theorem not_isCompute_iff {info : TypeInfo} : table.isCompute info = false ↔ table.kind info.token = .storage := by
  rw [← Bool.not_eq_true, isCompute_iff, not_not]

/-- The error is about the first type that can only be stored. -/
theorem ofTypes_eq_error_iff {cause : DispatchError κ} : ofTypes table types = .error cause ↔
    ∃ before info after, types = before ++ info :: after ∧
      (∀ other ∈ before, table.kind other.token ≠ .storage) ∧ table.kind info.token = .storage ∧
        cause = .nonComputeType info.name := by
  have hfirst (info : TypeInfo) : types.find? (fun info => !table.isCompute info) = some info ↔
      table.kind info.token = .storage ∧ ∃ before after, types = before ++ info :: after ∧
        ∀ other ∈ before, table.kind other.token ≠ .storage := by
    simp [List.find?_eq_some_iff_append, ← not_isCompute_iff]
  rw [ofTypes]
  split
  · rename_i info hinfo
    obtain ⟨hkind, before, after, htypes, hbefore⟩ := (hfirst info).mp hinfo
    constructor
    · rintro ⟨⟩
      exact ⟨before, info, after, htypes, hbefore, hkind, rfl⟩
    · rintro ⟨others, other, rest, hsplit, hothers, hstorage, rfl⟩
      have hother := (hfirst other).mpr ⟨hstorage, others, rest, hsplit, hothers⟩
      rw [Option.some.inj (hinfo.symm.trans hother)]
  · rename_i hnone
    refine ⟨nofun, ?_⟩
    rintro ⟨before, info, after, htypes, hbefore, hkind, -⟩
    have hinfo := (hfirst info).mpr ⟨hkind, before, after, htypes, hbefore⟩
    cases hnone.symm.trans hinfo

theorem ofTypes_eq_ok_iff : (ofTypes table types : Except (DispatchError κ) Selection) = .ok on ↔
    (∀ info ∈ types, table.kind info.token ≠ .storage) ∧ on = ⟨types⟩ := by
  have hnone : types.find? (fun info => !table.isCompute info) = none ↔
      ∀ info ∈ types, table.kind info.token ≠ .storage := by
    simp [← isCompute_iff]
  rw [ofTypes, ← hnone]
  cases types.find? fun info => !table.isCompute info with
  | none => simp [eq_comm]
  | some => simp

/-- Native types have a native key, which is their tokens as one number to the base 4. -/
theorem nativeKey?_of_native (on : Selection) (short : on.types.length ≤ 32)
    (native : ∀ info ∈ on.types, info.isNative = true) :
    ∃ key, NativeKey.ofTokens on.tokens = .ok key ∧ on.nativeKey? = .ok (some key) ∧
      key.tokens = on.tokens ∧ key.index < 4 ^ on.types.length ∧
      key.index = on.tokens.foldl (fun number token => 4 * number + token.toNat) 0 := by
  have hlength : on.tokens.length = on.types.length := List.length_map _
  have nativeTokens : ∀ token ∈ on.tokens, token.isNative = true := List.forall_mem_map.mpr native
  obtain ⟨key, hkey, hindex, hlt, htokens⟩ := NativeKey.exists_key (hlength.trans_le short) nativeTokens
  refine ⟨key, hkey, ?_, htokens, hlength ▸ hlt, ?_⟩
  · rw [nativeKey?, isAllNative, if_pos (List.all_eq_true.mpr native), hkey]
    rfl
  · rw [hindex, packDigits, List.foldl_map]
    simp only [Nat.shiftLeft_eq, Nat.mul_comm, show 2 ^ bitsPerNativeType = 4 from rfl]

theorem ofTypes_of_native (native : ∀ info ∈ types, info.isNative = true)
    {key : NativeKey (types.map TypeInfo.token).length}
    (hkey : NativeKey.ofTokens (types.map TypeInfo.token) = .ok key) :
    (NativeKey.ofTypes types : Except (Halt (DispatchError κ)) _) = .ok key := by
  have hfind : types.find? (fun info => !info.isNative) = none := by
    simpa using native
  rw [NativeKey.ofTypes, hfind]
  exact congrArg (Except.mapError Halt.trap) hkey

theorem nativeKey?_of_foreign (foreign : ∃ info ∈ on.types, info.isNative = false) : on.nativeKey? = .ok none := by
  rw [nativeKey?, if_neg]
  simpa [isAllNative] using foreign

/-- The general key of a selection is that of its types. -/
theorem ofTypes_types (short : on.types.length ≤ 7) :
    (DispatchKey.ofTypes on.types : Except (DispatchError κ) DispatchKey) = .ok on.key :=
  DispatchKey.ofTokens_of_le ((List.length_map _).trans_le short)

end Selection

namespace Registry

variable {registry : Registry (Entry σ ν κ)} {dense : List (Entry σ ν κ)} {name : String} {on : Selection}
  {args : List (Arg ν)} {entry : Entry σ ν κ}

theorem dispatch_of_native {key : NativeKey on.tokens.length} (hkey : on.nativeKey? = .ok (some key))
    (hentry : dense[key.index]? = some entry) : registry.dispatch dense name on args = entry.call args := by
  rw [dispatch, hkey]
  refine funext fun state => ?_
  rw [ok_bind_apply]
  dsimp only
  rw [hentry]

theorem dispatch_of_foreign (foreign : ∃ info ∈ on.types, info.isNative = false) :
    registry.dispatch dense name on args = registry.call name on.key args := by
  rw [dispatch, Selection.nativeKey?_of_foreign foreign]
  rfl

theorem call_of_get?_eq_none {key : DispatchKey} (h : registry.get? name key = none) (state : σ) :
    registry.call name key args state = .error (.error (.notFound name key)) state := by
  rw [call, lookup, h]
  rfl

/-- The first type that can only be stored is an error, and the only one of a selection. Calls on native types use
the entry of a dense table at the place of their key, whatever the registry holds, and a table with a place for
every tuple has it. Calls on other types use the registry, whatever the table holds. -/
theorem dispatch_by_types (table : TypeTable) (types : List TypeInfo) (short : types.length ≤ 7)
    (dense : List (Entry σ ν κ)) (full : dense.length = 4 ^ types.length) (name : String) (args : List (Arg ν)) :
    (∀ cause : DispatchError κ, Selection.ofTypes table types = .error cause ↔
      ∃ before info after, types = before ++ info :: after ∧
        (∀ other ∈ before, table.kind other.token ≠ .storage) ∧ table.kind info.token = .storage ∧
          cause = .nonComputeType info.name) ∧
    ((∀ info ∈ types, table.kind info.token ≠ .storage) → ∃ on,
      (Selection.ofTypes table types : Except (DispatchError κ) Selection) = .ok on ∧
      ((∀ info ∈ types, info.isNative = true) → ∃ key entry,
        (NativeKey.ofTypes types : Except (Halt (DispatchError κ)) _) = .ok key ∧
        key.tokens = types.map TypeInfo.token ∧
        key.index = (types.map TypeInfo.token).foldl (fun number token => 4 * number + token.toNat) 0 ∧
        dense[key.index]? = some entry ∧
        ∀ registry : Registry (Entry σ ν κ), registry.dispatch dense name on args = entry.call args ∧
          ∀ state number length later,
            registry.dispatch dense name on args state ≠ .error (.error (.tableIndex number length)) later) ∧
      ((∃ info ∈ types, info.isNative = false) → ∃ key,
        (DispatchKey.ofTypes types : Except (DispatchError κ) DispatchKey) = .ok key ∧
        key.tokens = .ok (types.map TypeInfo.token) ∧
        ∀ (registry : Registry (Entry σ ν κ)) (other : List (Entry σ ν κ)),
          registry.dispatch other name on args = registry.call name key args ∧
          (registry.get? name key = none → ∀ state,
            registry.dispatch other name on args state = .error (.error (.notFound name key)) state))) := by
  refine ⟨fun _ => Selection.ofTypes_eq_error_iff, fun compute =>
    ⟨⟨types⟩, Selection.ofTypes_eq_ok_iff.mpr ⟨compute, rfl⟩, fun native => ?_, fun foreign => ?_⟩⟩
  · obtain ⟨key, hkey, hselected, htokens, hlt, hindex⟩ :=
      Selection.nativeKey?_of_native ⟨types⟩ (short.trans (by decide)) native
    have hplace : key.index < dense.length := full ▸ hlt
    have hentry : dense[key.index]? = some dense[key.index] := List.getElem?_eq_getElem hplace
    refine ⟨key, _, Selection.ofTypes_of_native native hkey, htokens, hindex, hentry, fun registry => ?_⟩
    have hdispatch : registry.dispatch dense name ⟨types⟩ args = dense[key.index].call args :=
      dispatch_of_native hselected hentry
    refine ⟨hdispatch, fun state number length later => ?_⟩
    rw [hdispatch]
    exact Entry.call_ne_tableIndex state later
  · refine ⟨_, Selection.ofTypes_types short, DispatchKey.tokens_pack ((List.length_map _).trans_le short),
      fun registry other => ?_⟩
    have hdispatch : registry.dispatch other name ⟨types⟩ args = registry.call name (Selection.mk types).key args :=
      dispatch_of_foreign foreign
    refine ⟨hdispatch, fun hnone state => ?_⟩
    rw [hdispatch]
    exact call_of_get?_eq_none hnone state

/-- A kernel that appends its number to a log. -/
def numbered (number : Nat) : Entry (List Nat) Nat String := ⟨[], fun _ => modify (· ++ [number])⟩

/-- A registry with kernels for a pair of native types and for a pair with another one. -/
def shadowing : Registry (Entry (List Nat) Nat String) :=
  (empty.insert "mark" (.pack [1, 3]) (numbered 100)).insert "mark" (.pack [0, 4]) (numbered 101)

/-- The kernel of the native pair is not used, and that of the other pair is; without it, there is none. -/
theorem dispatch_by_types_shadowing :
    shadowing.dispatch ((List.range 16).map numbered) "mark"
      ⟨[⟨1, NumericType.f64.toElementType⟩, ⟨3, NumericType.u32.toElementType⟩]⟩ [] [] = .ok () [7] ∧
    shadowing.dispatch ((List.range 16).map numbered) "mark"
      ⟨[⟨0, NumericType.f32.toElementType⟩, ⟨4, .f16⟩]⟩ [] [] = .ok () [101] ∧
    empty.dispatch ((List.range 16).map numbered) "mark"
      ⟨[⟨0, NumericType.f32.toElementType⟩, ⟨4, .f16⟩]⟩ [] [] =
        .error (.error (.notFound "mark" (.pack [0, 4]))) [] ∧
    (Selection.ofTypes .builtin [⟨5, .u8⟩, ⟨4, .f16⟩] :
      Except (DispatchError String) Selection) = .error (.nonComputeType "u8") := by
  have full : ((List.range 16).map numbered).length = 16 := by decide
  refine ⟨?_, ?_, ?_, ?_⟩
  · obtain ⟨_, hon, native, -⟩ := (dispatch_by_types .builtin
      [⟨1, NumericType.f64.toElementType⟩, ⟨3, NumericType.u32.toElementType⟩] (by decide) _ full "mark" []).2
        (by decide)
    cases hon
    obtain ⟨key, entry, -, -, hindex, hentry, hdispatch⟩ := native (by decide)
    rw [hindex] at hentry
    cases hentry
    rw [(hdispatch shadowing).1]
    rfl
  · obtain ⟨_, hon, -, foreign⟩ := (dispatch_by_types .builtin
      [⟨0, NumericType.f32.toElementType⟩, ⟨4, .f16⟩] (by decide) _ full "mark" []).2
        (by decide)
    cases hon
    obtain ⟨key, hkey, -, hdispatch⟩ := foreign (by decide)
    cases hkey
    rw [(hdispatch shadowing _).1]
    rfl
  · obtain ⟨_, hon, -, foreign⟩ := (dispatch_by_types .builtin
      [⟨0, NumericType.f32.toElementType⟩, ⟨4, .f16⟩] (by decide) _ full "mark" []).2
        (by decide)
    cases hon
    obtain ⟨key, hkey, -, hdispatch⟩ := foreign (by decide)
    cases hkey
    exact (hdispatch empty _).2 rfl []
  · exact ((dispatch_by_types .builtin [⟨5, .u8⟩, ⟨4, .f16⟩] (by decide)
      ((List.range 16).map numbered) full "mark" []).1 _).mpr
        ⟨[], ⟨5, .u8⟩, [⟨4, .f16⟩], rfl, nofun, rfl, rfl⟩

end Registry

end ArrayEngine
