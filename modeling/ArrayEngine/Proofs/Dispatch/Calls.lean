import ArrayEngine.Dispatch.Entry
import ArrayEngine.Proofs.Effect
import Mathlib.Data.List.Forall2

/-! Calls of kernels. All arguments are checked before a kernel runs: their number first, and then their types from
the first one on. A tensor whose static type is not known is as good as one whose type is. -/
namespace ArrayEngine

variable {σ ν κ : Type}

/-- The type that an argument is passed with. -/
def ArgType.static : ArgType → ParamType
  | plain name => .plain name
  | tensor element => .tensor element
  | anyTensor _ => .anyTensor

namespace ParamType

/-- An argument is of the parameter's own type, or it is a tensor without a static type whose elements are those
that the parameter asks for. -/
def Fits (param : ParamType) (arg : ArgType) : Prop :=
  arg.static = param ∨ ∃ element, param = .tensor element ∧ arg = .anyTensor element

theorem accepts_iff {param : ParamType} {arg : ArgType} : param.accepts arg = true ↔ param.Fits arg := by
  cases param <;> cases arg <;> simp [accepts, Fits, ArgType.static] <;> exact eq_comm

end ParamType

namespace Arg

/-- The argument is one for the parameter. -/
def IsFor (param : ParamType) (arg : Arg ν) : Prop := param.Fits arg.type

/-- The same argument, or the same tensor without its static type. -/
def IsBared (arg bared : Arg ν) : Prop :=
  bared = arg ∨ ∃ element, arg.type = .tensor element ∧ bared = ⟨.anyTensor element, arg.value⟩

variable {arg bared : Arg ν} {param : ParamType}

theorem IsBared.value (h : arg.IsBared bared) : bared.value = arg.value := by
  obtain rfl | ⟨_, _, rfl⟩ := h <;> rfl

/-- A parameter that is not for tensors of any type does not tell the two apart. -/
theorem IsBared.accepts (h : arg.IsBared bared) (typed : param ≠ .anyTensor) :
    param.accepts bared.type = param.accepts arg.type := by
  obtain rfl | ⟨element, htype, rfl⟩ := h
  · rfl
  · rw [htype]
    cases param with
    | plain | tensor => rfl
    | anyTensor => exact absurd rfl typed

end Arg

namespace Entry

/-- The argument at a place is not for its parameter, and all before it are for theirs. -/
structure FirstMisfit (params : List ParamType) (args : List (Arg ν)) (index : Nat) (param : ParamType) :
    Prop where
  here : params[index]? = some param
  misfit : ∃ arg, args[index]? = some arg ∧ ¬Arg.IsFor param arg
  earlier : ∀ place < index, ∀ other arg, params[place]? = some other → args[place]? = some arg → Arg.IsFor other arg

variable {params : List ParamType} {args bared : List (Arg ν)} {index place : Nat} {param other : ParamType}
  {arg : Arg ν}

namespace FirstMisfit

theorem zero (h : ¬Arg.IsFor param arg) : FirstMisfit (param :: params) (arg :: args) 0 param :=
  ⟨rfl, ⟨arg, rfl, h⟩, nofun⟩

theorem succ (head : Arg.IsFor other arg) (h : FirstMisfit params args index param) :
    FirstMisfit (other :: params) (arg :: args) (index + 1) param := by
  refine ⟨h.here, h.misfit, fun place hlt before found hbefore hfound => ?_⟩
  cases place with
  | zero =>
    cases hbefore
    cases hfound
    exact head
  | succ place => exact h.earlier place (Nat.lt_of_succ_lt_succ hlt) before found hbefore hfound

theorem not_lt (first : FirstMisfit params args index param) (h : FirstMisfit params args place other) :
    ¬place < index := by
  intro hlt
  obtain ⟨arg, harg, misfit⟩ := h.misfit
  exact misfit (first.earlier place hlt other arg h.here harg)

/-- There is one such place at most. -/
theorem unique (first : FirstMisfit params args index param) (h : FirstMisfit params args place other) :
    place = index ∧ other = param := by
  obtain rfl : place = index := Nat.le_antisymm (Nat.le_of_not_lt (h.not_lt first))
    (Nat.le_of_not_lt (first.not_lt h))
  exact ⟨rfl, Option.some.inj (h.here.symm.trans first.here)⟩

/-- There is none if all arguments are for their parameters. -/
theorem not_forall₂ (h : FirstMisfit params args index param) : ¬List.Forall₂ Arg.IsFor params args := by
  intro all
  obtain ⟨arg, harg, misfit⟩ := h.misfit
  obtain ⟨hparam, rfl⟩ := List.getElem?_eq_some_iff.mp h.here
  obtain ⟨hplace, rfl⟩ := List.getElem?_eq_some_iff.mp harg
  exact misfit (all.get hparam hplace)

end FirstMisfit

/-- The check of the types passes if all arguments are for their parameters, and it stops at the first one that is
not. -/
theorem mismatch?_cases (same : args.length = params.length) (start : Nat) :
    mismatch? start params args = none ∧ List.Forall₂ Arg.IsFor params args ∨
      ∃ index param, mismatch? start params args = some (start + index, param) ∧
        FirstMisfit params args index param := by
  induction params generalizing args start with
  | nil =>
    obtain rfl := List.length_eq_zero_iff.mp same
    exact .inl ⟨rfl, .nil⟩
  | cons head params ih =>
    cases args with
    | nil => cases same
    | cons arg args =>
      rw [mismatch?]
      split
      · rename_i accepted
        have fits : Arg.IsFor head arg := ParamType.accepts_iff.mp accepted
        obtain ⟨hnone, all⟩ | ⟨index, param, hsome, first⟩ := ih (Nat.succ.inj same) (start + 1)
        · exact .inl ⟨hnone, .cons fits all⟩
        · refine .inr ⟨index + 1, param, ?_, first.succ fits⟩
          rw [hsome, Nat.add_assoc, Nat.add_comm 1]
      · rename_i refused
        exact .inr ⟨0, head, rfl, .zero fun fits => refused (ParamType.accepts_iff.mpr fits)⟩

theorem mismatch?_of_forall₂_isBared (typed : .anyTensor ∉ params) (h : List.Forall₂ Arg.IsBared args bared)
    (start : Nat) : mismatch? start params bared = mismatch? start params args := by
  induction h generalizing params start with
  | nil => rfl
  | cons head _ ih =>
    cases params with
    | nil => rfl
    | cons param params =>
      rw [List.mem_cons, not_or] at typed
      rw [mismatch?, mismatch?, head.accepts (Ne.symm typed.1), ih typed.2]

theorem map_value_of_forall₂_isBared (h : List.Forall₂ Arg.IsBared args bared) :
    bared.map Arg.value = args.map Arg.value := by
  induction h with
  | nil => rfl
  | cons head _ ih => rw [List.map_cons, List.map_cons, head.value, ih]

variable {entry : Entry σ ν κ}

/-- The errors before a kernel is run. -/
theorem refusal?_eq_some_iff {cause : DispatchError κ} : entry.refusal? args = some cause ↔
    (args.length ≠ entry.arity ∧ cause = .arity entry.arity args.length) ∨
      (args.length = entry.arity ∧
        ∃ index param, FirstMisfit entry.params args index param ∧ cause = .argType index param.text) := by
  rw [refusal?]
  split
  · rename_i differs
    simp [differs, eq_comm]
  · rename_i same
    rw [not_not] at same
    obtain ⟨hnone, all⟩ | ⟨index, param, hsome, first⟩ := mismatch?_cases same 0
    · rw [hnone]
      refine ⟨nofun, ?_⟩
      rintro (⟨differs, -⟩ | ⟨-, _, _, first, -⟩)
      · exact absurd same differs
      · exact absurd all first.not_forall₂
    · rw [hsome, Nat.zero_add]
      constructor
      · rintro ⟨⟩
        exact .inr ⟨same, index, param, first, rfl⟩
      · rintro (⟨differs, -⟩ | ⟨-, _, _, other, rfl⟩)
        · exact absurd same differs
        · obtain ⟨rfl, rfl⟩ := first.unique other
          rfl

theorem refusal?_eq_none_iff : entry.refusal? args = none ↔ List.Forall₂ Arg.IsFor entry.params args := by
  constructor
  · intro hnone
    rw [refusal?] at hnone
    split at hnone
    · cases hnone
    · rename_i same
      obtain ⟨-, all⟩ | ⟨index, param, hsome, -⟩ := mismatch?_cases (not_not.mp same) 0
      · exact all
      · rw [hsome] at hnone
        cases hnone
  · intro all
    refine Option.eq_none_iff_forall_ne_some.mpr fun cause hsome => ?_
    obtain ⟨differs, -⟩ | ⟨-, _, _, first, -⟩ := refusal?_eq_some_iff.mp hsome
    · exact differs all.length_eq.symm
    · exact first.not_forall₂ all

theorem call_of_refusal? {cause : DispatchError κ} (h : entry.refusal? args = some cause) (state : σ) :
    entry.call args state = .error (.error cause) state := by
  rw [call, h]
  rfl

theorem call_of_forall₂ (h : List.Forall₂ Arg.IsFor entry.params args) :
    entry.call args = adaptErrors .kernel (entry.run (args.map Arg.value)) := by
  rw [call, refusal?_eq_none_iff.mpr h]

/-- A call fails before the kernel is run, with the state as it was, or the kernel fails. -/
theorem refusal?_of_call {cause : DispatchError κ} {state later : σ}
    (h : entry.call args state = .error (.error cause) later) :
    (entry.refusal? args = some cause ∧ later = state) ∨ ∃ inner, cause = .kernel inner := by
  cases hrefusal : entry.refusal? args with
  | some refused =>
    cases (call_of_refusal? hrefusal state).symm.trans h
    exact .inl ⟨rfl, rfl⟩
  | none =>
    rw [call_of_forall₂ (refusal?_eq_none_iff.mp hrefusal), adaptErrors] at h
    rcases hrun : entry.run (args.map Arg.value) state with ⟨_, _⟩ | ⟨⟨_⟩ | ⟨inner⟩, _⟩
    all_goals
      rw [hrun] at h
      cases h
    exact .inr ⟨inner, rfl⟩

theorem call_eq_arity_iff {expected actual : Nat} {state later : σ} :
    entry.call args state = .error (.error (.arity expected actual)) later ↔
      args.length ≠ entry.arity ∧ expected = entry.arity ∧ actual = args.length ∧ later = state := by
  constructor
  · intro hcall
    obtain ⟨hrefusal, hlater⟩ | ⟨_, ⟨⟩⟩ := refusal?_of_call hcall
    obtain ⟨differs, ⟨⟩⟩ | ⟨-, _, _, -, ⟨⟩⟩ := refusal?_eq_some_iff.mp hrefusal
    exact ⟨differs, rfl, rfl, hlater⟩
  · rintro ⟨differs, rfl, rfl, rfl⟩
    exact call_of_refusal? (refusal?_eq_some_iff.mpr (.inl ⟨differs, rfl⟩)) _

theorem call_eq_argType_iff {text : String} {state later : σ} :
    entry.call args state = .error (.error (.argType index text)) later ↔
      args.length = entry.arity ∧ later = state ∧
        ∃ param, text = param.text ∧ FirstMisfit entry.params args index param := by
  constructor
  · intro hcall
    obtain ⟨hrefusal, hlater⟩ | ⟨_, ⟨⟩⟩ := refusal?_of_call hcall
    obtain ⟨-, ⟨⟩⟩ | ⟨same, _, param, first, ⟨⟩⟩ := refusal?_eq_some_iff.mp hrefusal
    exact ⟨same, hlater, param, rfl, first⟩
  · rintro ⟨same, rfl, param, rfl, first⟩
    exact call_of_refusal? (refusal?_eq_some_iff.mpr (.inr ⟨same, index, param, first, rfl⟩)) _

/-- A tensor with its static type and the same one without are refused or taken alike, unless there is a parameter
for tensors of any type. -/
theorem call_of_isBared (typed : .anyTensor ∉ entry.params) (h : List.Forall₂ Arg.IsBared args bared) :
    entry.call bared = entry.call args := by
  have refusals : entry.refusal? bared = entry.refusal? args := by
    rw [refusal?, refusal?, ← h.length_eq, mismatch?_of_forall₂_isBared typed h]
  rw [call, refusals, map_value_of_forall₂_isBared h, ← call]

/-- The kernel with a record of the arguments of its runs, the latest ones last. -/
def recorded (entry : Entry σ ν κ) : Entry (σ × List (List ν)) ν κ where
  params := entry.params
  run values := do
    modify fun (state, runs) => (state, runs ++ [values])
    zoom Prod.fst (fun state (_, runs) => (state, runs)) (entry.run values)

theorem recorded_run (entry : Entry σ ν κ) (values : List ν) (state : σ) (runs : List (List ν)) :
    entry.recorded.run values (state, runs) =
      zoom Prod.fst (fun state (_, runs) => (state, runs)) (entry.run values) (state, runs ++ [values]) := rfl

/-- What a call adds to the record if it runs the kernel. -/
theorem recorded_call_of_forall₂ (h : List.Forall₂ Arg.IsFor entry.params args) (state : σ)
    (runs : List (List ν)) :
    entry.recorded.call args (state, runs) = match entry.call args state with
      | .ok done later => .ok done (later, runs ++ [args.map Arg.value])
      | .error failure later => .error failure (later, runs ++ [args.map Arg.value]) := by
  have hrecorded : List.Forall₂ Arg.IsFor entry.recorded.params args := h
  rw [call_of_forall₂ h, call_of_forall₂ hrecorded, adaptErrors, adaptErrors, recorded_run, zoom]
  cases entry.run (args.map Arg.value) state <;> rfl

/-- Wrong numbers of arguments are an error, whatever their types are, and then the first argument that is not for
its parameter is one. In both cases the kernel is not run and nothing changes. Otherwise it is run once, on just
these arguments, and its failures are told apart from the others. None of this depends on whether the static types
of the tensors are known, if all parameters for tensors have one. -/
theorem call_checks_and_runs_once (entry : Entry σ ν κ) (args : List (Arg ν)) (state : σ)
    (runs : List (List ν)) :
    (∀ expected actual later, entry.call args state = .error (.error (.arity expected actual)) later ↔
      args.length ≠ entry.arity ∧ expected = entry.arity ∧ actual = args.length ∧ later = state) ∧
    (∀ index text later, entry.call args state = .error (.error (.argType index text)) later ↔
      args.length = entry.arity ∧ later = state ∧
        ∃ param, text = param.text ∧ FirstMisfit entry.params args index param) ∧
    (¬List.Forall₂ Arg.IsFor entry.params args → ∃ cause,
      entry.call args state = .error (.error cause) state ∧
        entry.recorded.call args (state, runs) = .error (.error cause) (state, runs)) ∧
    (List.Forall₂ Arg.IsFor entry.params args →
      (entry.call args state = match entry.run (args.map Arg.value) state with
        | .ok done later => .ok done later
        | .error (.error cause) later => .error (.error (.kernel cause)) later
        | .error (.trap cause) later => .error (.trap cause) later) ∧
      entry.recorded.call args (state, runs) = match entry.call args state with
        | .ok done later => .ok done (later, runs ++ [args.map Arg.value])
        | .error failure later => .error failure (later, runs ++ [args.map Arg.value])) ∧
    (.anyTensor ∉ entry.params → ∀ bared, List.Forall₂ Arg.IsBared args bared →
      entry.call bared = entry.call args) := by
  refine ⟨fun _ _ _ => call_eq_arity_iff, fun _ _ _ => call_eq_argType_iff, ?_,
    fun all => ⟨?_, recorded_call_of_forall₂ all state runs⟩, fun typed _ bares => call_of_isBared typed bares⟩
  · intro misfits
    obtain ⟨cause, hrefusal⟩ := Option.ne_none_iff_exists'.mp (mt refusal?_eq_none_iff.mp misfits)
    have hrecorded : entry.recorded.refusal? args = some cause := hrefusal
    exact ⟨cause, call_of_refusal? hrefusal state, call_of_refusal? hrecorded (state, runs)⟩
  · rw [call_of_forall₂ all, adaptErrors]
    rcases entry.run (args.map Arg.value) state with ⟨_, _⟩ | ⟨⟨_⟩ | ⟨_⟩, _⟩ <;> rfl

/-- Appends its arguments to a log, or fails if the log is full. -/
def logging : Entry (List Nat) Nat String where
  params := [.tensor "f32", .plain "u8"]
  run values := do
    match ← get with
    | [_, _, _] => throw (.error "full")
    | log => set (log ++ values)

/-- Four calls of one kernel: with an argument too few, with a second argument that is a tensor after a first one
of the wrong elements, and with a tensor that has no static type, on a log with room and on a full one. -/
theorem calls_of_logging :
    logging.call [⟨.plain "u8", 3⟩] [1] = .error (.error (.arity 2 1)) [1] ∧
    logging.call [⟨.tensor "f64", 3⟩, ⟨.tensor "f32", 4⟩] [1] =
      .error (.error (.argType 0 "dihydro::loom::tensor::Tensor<f32>")) [1] ∧
    logging.recorded.call [⟨.anyTensor "f32", 3⟩, ⟨.plain "u8", 4⟩] ([1], []) = .ok () ([1, 3, 4], [[3, 4]]) ∧
    logging.call [⟨.anyTensor "f32", 3⟩, ⟨.plain "u8", 4⟩] [1, 2, 3] = .error (.error (.kernel "full")) [1, 2, 3] ∧
    logging.call [⟨.anyTensor "f32", 3⟩, ⟨.plain "u8", 4⟩] =
      logging.call [⟨.tensor "f32", 3⟩, ⟨.plain "u8", 4⟩] := by
  have all : List.Forall₂ Arg.IsFor logging.params ([⟨.anyTensor "f32", 3⟩, ⟨.plain "u8", 4⟩] : List (Arg Nat)) :=
    .cons (.inr ⟨_, rfl, rfl⟩) (.cons (.inl rfl) .nil)
  refine ⟨?_, ?_, ?_, ?_, ?_⟩
  · exact ((call_checks_and_runs_once logging [⟨.plain "u8", 3⟩] [1] []).1 2 1 [1]).mpr
      ⟨by decide, rfl, rfl, rfl⟩
  · refine ((call_checks_and_runs_once logging [⟨.tensor "f64", 3⟩, ⟨.tensor "f32", 4⟩] [1] []).2.1 0 _ [1]).mpr
      ⟨rfl, rfl, .tensor "f32", rfl, .zero ?_⟩
    rintro (h | ⟨_, -, ⟨⟩⟩)
    exact absurd h (by decide)
  · exact ((call_checks_and_runs_once logging _ [1] []).2.2.2.1 all).2
  · exact ((call_checks_and_runs_once logging _ [1, 2, 3] []).2.2.2.1 all).1
  · exact (call_checks_and_runs_once logging [⟨.tensor "f32", 3⟩, ⟨.plain "u8", 4⟩] [] []).2.2.2.2 (by decide) _
      (.cons (.inr ⟨_, rfl, rfl⟩) (.cons (.inl rfl) .nil))

end Entry

end ArrayEngine
