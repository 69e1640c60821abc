import ArrayEngine.Proofs.Grid.Elements
import ArrayEngine.Proofs.Grid.Lockstep

/-! What the ranks of a world are told by the steps of a program. It follows from what all of them know, but
for the ranks that have no memory for the elements they are to copy. -/
namespace ArrayEngine

namespace DistTensor

variable {tensor dst src : DistTensor} {machine : Machine} {state : DistTensor × Machine}

/-- The share has elements, but no memory for them. -/
def IsBare (tensor : DistTensor) : Prop :=
  tensor.isShareEmpty = .ok false ∧ tensor.share.buffer? = none

/-- An array without elements has none in any share. -/
theorem IsLaid.not_isBare (laid : tensor.IsLaid) (hzero : Layout.numel tensor.shape = .ok 0) :
    ¬tensor.IsBare := by
  rintro ⟨hsome, _⟩
  rw [isShareEmpty, Tensor.isEmpty, Tensor.numel, Layout.numel_eq_zero_of_le hzero laid.share_le] at hsome
  cases hsome

/-- A share that is not without memory for its elements has it, if all elements can be counted. -/
theorem IsLaid.hasMemory {elements : Nat} (laid : tensor.IsLaid)
    (counted : Layout.numel tensor.shape = .ok elements) (h : ¬tensor.IsBare) :
    tensor.share.HasMemory := by
  have hnumel : tensor.share.numel = .ok (Layout.count tensor.share.shape) :=
    Layout.numel_of_le counted laid.share_le
  by_cases hzero : Layout.count tensor.share.shape = 0
  · exact .inl (hzero ▸ hnumel)
  · refine .inr (Option.isSome_iff_ne_none.mpr fun hnone => h ⟨?_, hnone⟩)
    exact Tensor.isEmpty_eq_false hnumel (Nat.pos_of_ne_zero hzero)

/-- What the ranks are told that have no memory for the elements of the source. -/
def bareReply (src : DistTensor) : Except DistError Unit := src.share.bareReply.mapError .tensor

theorem bareReply_eq (src : DistTensor) : src.bareReply =
    if src.share.dtype.size = 0 then .ok () else .error (.tensor (.device .nullBuffer)) := by
  rw [bareReply, Tensor.bareReply]
  split <;> rfl

/-- Filling a share is a copy on a rank without memory for the elements of the source. -/
theorem fillShare_of_isBare {now : DistTensor} (owned : now.share.isView = false)
    (htoken : (now.share.dtype == src.share.dtype) = true) (srcFits : src.share.Fits machine)
    (bare : src.IsBare) (ends : EndsAt (fillShare src (now, machine)) state) :
    fillShare src (now, machine) = told src.bareReply state := by
  have happly : fillShare src (now, machine) =
      (onShare Tensor.ensure >>= fun _ => onShare (Tensor.copyFrom src.share) : DistUpdate Unit)
        (now, machine) := by
    rw [fillShare, bind_apply, bare.1]
    rfl
  rw [happly, bind_apply, onShare_apply] at ends ⊢
  cases hensure : Tensor.ensure (now.share, machine) with
  | error cause next =>
    rw [hensure] at ends
    cases cause with
    | trap trap => cases ends
    | error cause => exact absurd hensure (Tensor.ensure_ne_error owned)
  | ok _ ready =>
    have changed := Tensor.evolving_ensure _ _ (.of_ok hensure)
    have hready : (ready.1.dtype == src.share.dtype) = true := by rw [changed.dtype, htoken]
    rw [hensure] at ends
    change EndsAt (onShare (Tensor.copyFrom src.share) (now.withShare ready.1, ready.2)) state at ends
    change onShare (Tensor.copyFrom src.share) (now.withShare ready.1, ready.2) = _
    have copied {last : Tensor × Machine}
        (ended : EndsAt (Tensor.copyFrom src.share (ready.1, ready.2)) last) :=
      Tensor.copyFrom_of_bare (changed.owned owned) hready srcFits.dimTypes srcFits.strides bare.1 bare.2 ended
    have hshare : (now.withShare ready.1).share = ready.1 := rfl
    rw [onShare_apply, hshare] at ends ⊢
    rw [bareReply]
    cases hcopy : Tensor.copyFrom src.share (ready.1, ready.2) with
    | ok _ last =>
      have hreply := copied (.of_ok hcopy)
      rw [hcopy] at ends hreply
      cases hbare : src.share.bareReply with
      | ok => cases ends; rfl
      | error cause => rw [hbare] at hreply; cases hreply
    | error cause last =>
      rw [hcopy] at ends copied
      cases cause with
      | trap trap => cases ends
      | error cause =>
        have hreply := copied rfl
        cases hbare : src.share.bareReply with
        | ok => rw [hbare] at hreply; cases hreply
        | error cause =>
          rw [hbare] at hreply
          cases hreply
          cases ends
          rfl

/-- So does the copy. -/
theorem copyShare_of_isBare (dstSound : dst.IsSound machine) (srcSound : src.IsSound machine)
    (hgrid : dst.grid.shape = src.grid.shape) (hrank : dst.grid.rank = src.grid.rank)
    (hdtype : src.share.dtype = dst.share.dtype) (hempty : src.isEmpty = .ok false) (bare : src.IsBare)
    (ends : EndsAt (copyShare src (dst, machine)) state) :
    copyShare src (dst, machine) = told src.bareReply state := by
  have htoken : (src.share.dtype == dst.share.dtype) = true := by
    rw [hdtype]
    exact beq_self_eq_true dst.share.dtype.token
  have hshape : src.shape ≠ [] := by
    intro hnil
    rw [isEmpty, hnil] at hempty
    cases hempty
  rw [copyShare_apply, hempty] at ends ⊢
  dsimp only at ends ⊢
  rw [if_pos htoken, bind_apply] at ends ⊢
  cases hresize : resizeWith src.shape src.dimTypes src.distribution (some src.share.strides)
      (dst, machine) with
  | error cause next =>
    rw [hresize] at ends
    cases cause with
    | trap trap => cases ends
    | error cause =>
      have ended : EndsAt (resizeWith src.shape src.dimTypes src.distribution (some src.share.strides)
          (dst, machine)) next := by
        rw [hresize]
        exact rfl
      obtain ⟨_, _, hok, _⟩ := resizeWith_of_isSound dstSound srcSound hgrid hrank hshape ended
      cases hresize.symm.trans hok
  | ok _ next =>
    obtain ⟨share, later, _, rfl, changed⟩ :=
      resizeWith_of_isSound dstSound srcSound hgrid hrank hshape (.of_ok hresize)
    rw [hresize] at ends
    refine fillShare_of_isBare (changed.owned (Tensor.isView_of_onHost dstSound.host)) ?_
      (srcSound.share.toFits.keeps changed.keeps) bare ends
    have hshare : share.dtype = dst.share.dtype := changed.dtype
    change (share.dtype == src.share.dtype) = true
    rw [hshare, ← hdtype]
    exact beq_self_eq_true src.share.dtype.token

/-- What a copy comes to, if it comes to an end: the types do not fit, the share of the source has no memory
for its elements, or it succeeds. -/
theorem copyShare_eq_told {table : TypeTable} (dstSound : dst.IsSound machine)
    (srcSound : src.IsSound machine) (hgrid : dst.grid.shape = src.grid.shape)
    (hrank : dst.grid.rank = src.grid.rank) (dstKnown : table.Known dst.share.dtype)
    (srcKnown : table.Known src.share.dtype)
    (apart : ∀ id, dst.share.buffer? = some id → src.share.buffer? ≠ some id)
    (ends : EndsAt (copyShare src (dst, machine)) state) :
    if Layout.numel src.shape = .ok 0 ∨ (src.share.dtype == dst.share.dtype) = true then
      (src.IsBare → copyShare src (dst, machine) = told src.bareReply state) ∧
      (¬src.IsBare → copyShare src (dst, machine) = .ok () state)
    else copyShare src (dst, machine) = .error (.error (.tensor
      (.unsupportedConversion src.share.dtype.name dst.share.dtype.name))) state := by
  cases hnumel : Layout.numel src.shape with
  | error trap =>
    rw [copyShare_apply, isEmpty, hnumel] at ends
    cases ends
  | ok elements =>
    have hempty : src.isEmpty = .ok (elements == 0) := by
      rw [isEmpty, hnumel]
      rfl
    by_cases hzero : elements = 0
    · subst hzero
      rw [if_pos (.inl rfl)]
      refine ⟨fun bare => absurd bare (srcSound.laid.not_isBare hnumel), fun _ => ?_⟩
      rw [copyShare_apply, hempty] at ends ⊢
      cases ends
      rfl
    · rw [beq_false_of_ne hzero] at hempty
      by_cases htoken : (src.share.dtype == dst.share.dtype) = true
      · have hdtype := srcKnown.eq_of_beq dstKnown htoken
        rw [if_pos (.inr htoken)]
        refine ⟨fun bare => copyShare_of_isBare dstSound srcSound hgrid hrank hdtype hempty
          bare ends, fun filled => ?_⟩
        obtain ⟨now, later, hcopy, _⟩ := copyShare_eq_ok dstSound srcSound hgrid hrank hdtype.symm apart
          hnumel (srcSound.laid.hasMemory hnumel filled)
        rw [hcopy] at ends ⊢
        cases ends
        rfl
      · rw [if_neg (not_or.mpr ⟨fun h => hzero (Except.ok.inj h), htoken⟩)]
        rw [copyShare_apply, hempty] at ends ⊢
        dsimp only at ends ⊢
        rw [if_neg htoken] at ends ⊢
        cases ends
        rfl

end DistTensor

namespace Fleet

open CopyTerms (fingerprint)
open DistTensor (Face Accepts refusal)

variable {n : Nat} {checks : Bool} {rank : Fin n} {table : TypeTable} {seat later : Seat}
  {faces : String → Option Face}

/-- The type that a step brings in is a known one. -/
def Step.IsKnown (table : TypeTable) : Step n → Prop
  | .create _ dtype .. => table.Known dtype
  | _ => True

/-- All tensors are of known types. -/
def Known (table : TypeTable) (faces : String → Option Face) : Prop :=
  ∀ name face, faces name = some face → table.Known face.dtype

theorem Known.update (known : Known table faces) {name : String} {face? : Option Face}
    (h : ∀ face, face? = some face → table.Known face.dtype) :
    Known table (Function.update faces name face?) := by
  intro other face hface
  by_cases hname : other = name
  · subst hname
    rw [Function.update_self] at hface
    exact h face hface
  · rw [Function.update_of_ne hname] at hface
    exact known other face hface

theorem Known.map (known : Known table faces) (name : String) (reface : Face → Face)
    (h : ∀ face, (reface face).dtype = face.dtype) :
    Known table (Function.update faces name ((faces name).map reface)) := by
  refine known.update fun face hface => ?_
  obtain ⟨old, hold, rfl⟩ := Option.map_eq_some_iff.mp hface
  exact h old ▸ known name old hold

/-- Steps that bring in known types leave it at that. -/
theorem Step.known_reface (known : Known table faces) {step : Step n} (hstep : step.IsKnown table) :
    Known table (step.reface faces) := by
  cases step with
  | create =>
    rw [reface]
    split
    · refine known.update fun face hface => ?_
      cases hface
      exact hstep
    · exact known
  | resize =>
    refine known.map _ _ fun face => ?_
    rw [Face.resized]
    split <;> rfl
  | empty => exact known.map _ Face.emptied fun _ => rfl
  | copy dst src =>
    rw [reface]
    cases hdst : faces dst with
    | none => exact known
    | some target =>
      cases hsrc : faces src with
      | none => exact known
      | some source =>
        dsimp only
        split
        · refine known.update fun face hface => ?_
          have hdtype : (target.copied source).dtype = target.dtype := by
            rw [Face.copied]
            split
            · rfl
            · split <;> rfl
          cases hface
          exact hdtype ▸ known dst target hdst
        · exact known
  | _ => exact known

theorem known_foldl {steps : List (Step n)} (known : Known table faces)
    (h : ∀ step ∈ steps, step.IsKnown table) :
    Known table (steps.foldl (fun faces step => step.reface faces) faces) := by
  induction steps generalizing faces with
  | nil => exact known
  | cons step steps ih =>
    exact ih (step.known_reface known (h step (by simp))) fun other hother => h other (by simp [hother])

theorem Seat.settle_told (reply : Except DistError Unit) (name : String) (state : DistTensor × Machine) :
    seat.settle name (told reply state) =
      told reply { tensors := seat.tensors.insert name state.1, machine := state.2 } := by
  cases reply <;> rfl

/-- What all ranks are told of a change of the layout or of a copy, as far as it follows from what all of them
know. -/
def Step.verdict (faces : String → Option Face) : Step n → Except DistError Unit
  | .create _ _ gridShape shape dimTypes distribution _ =>
    if Layout.product gridShape = .ok n then
      if Accepts gridShape shape dimTypes distribution then .ok ()
      else .error (refusal gridShape shape dimTypes distribution)
    else .error (.grid (.shape n gridShape))
  | .resize name shape dimTypes distribution =>
    match faces name with
    | some face =>
      if Accepts face.gridShape shape dimTypes distribution then .ok ()
      else .error (refusal face.gridShape shape dimTypes distribution)
    | none => .ok ()
  | .copy dst src =>
    match faces dst, faces src with
    | some target, some source =>
      if dst = src then .ok ()
      else if target.gridShape = source.gridShape then
        if Layout.numel source.shape = .ok 0 ∨ (source.dtype == target.dtype) = true then .ok ()
        else .error (.tensor (.unsupportedConversion source.dtype.name target.dtype.name))
      else .error (.grid .notCongruent)
    | _, _ => .ok ()
  | _ => .ok ()

theorem Step.verdict_ne_nullBuffer (faces : String → Option Face) (step : Step n) :
    step.verdict faces ≠ .error (.tensor (.device .nullBuffer)) := by
  have refused (gridShape shape : List Nat) (dimTypes : List DimType) (distribution : List Distribution) :
      refusal gridShape shape dimTypes distribution ≠ .tensor (.device .nullBuffer) := by
    rw [refusal]
    split <;> rintro ⟨⟩
  intro h
  cases step <;> simp only [verdict] at h <;> repeat' split at h
  all_goals first | cases h | exact refused _ _ _ _ (Except.error.inj h)

/-- A new layout is refused for the same reason on all ranks. -/
theorem Seat.create_eq_told {name : String} {dtype : TypeInfo} {gridShape shape : List Nat}
    {dimTypes : List DimType} {distribution : List Distribution} {isLazy : Bool}
    (ends : EndsAt (seat.create (Comm.member checks rank) name dtype gridShape shape dimTypes
      distribution isLazy) later) :
    seat.create (Comm.member checks rank) name dtype gridShape shape dimTypes distribution isLazy =
      told ((Step.create name dtype gridShape shape dimTypes distribution isLazy : Step n).verdict faces)
        later := by
  rw [Step.verdict]
  obtain ⟨hproduct, accepts, _, _, hcreate, _⟩ | ⟨hproduct, refused, hcreate⟩ | ⟨hproduct, hcreate⟩ :=
    Seat.create_cases ends
  · rw [hcreate] at ends ⊢
    cases ends
    rw [if_pos hproduct, if_pos accepts]
    rfl
  · rw [hcreate] at ends ⊢
    cases ends
    rw [if_pos hproduct, if_neg refused]
    rfl
  · rw [hcreate] at ends ⊢
    cases ends
    rw [if_neg hproduct]
    rfl

/-- So is a change of the layout. -/
theorem Seat.Sound.resize_eq_told (sound : seat.Sound checks rank) {name : String} {shape : List Nat}
    {dimTypes : List DimType} {distribution : List Distribution}
    (ends : EndsAt (seat.change name (DistTensor.resize shape dimTypes distribution)) later) :
    seat.change name (DistTensor.resize shape dimTypes distribution) =
      told ((Step.resize name shape dimTypes distribution : Step n).verdict seat.faces) later := by
  rw [Step.verdict, Seat.faces]
  rw [Seat.change] at ends ⊢
  cases hfound : seat.tensors.lookup name with
  | none =>
    rw [hfound] at ends
    cases ends
    rfl
  | some tensor =>
    rw [hfound] at ends
    dsimp only at ends ⊢
    have resized {state : DistTensor × Machine} := @DistTensor.resizeWith_cases tensor seat.machine state
      shape dimTypes distribution none (Tensor.isView_of_onHost (sound.each hfound).host) fun _ _ => rfl
    simp only [Option.map_some, DistTensor.face]
    rw [DistTensor.resize] at ends ⊢
    cases hresize : DistTensor.resizeWith shape dimTypes distribution none (tensor, seat.machine) with
    | ok _ state =>
      obtain ⟨_, _, accepts, _⟩ | ⟨_, _, herror⟩ := resized (.of_ok hresize)
      · rw [hresize] at ends
        cases ends
        rw [if_pos accepts]
        rfl
      · cases hresize.symm.trans herror
    | error cause state =>
      rw [hresize] at ends resized
      cases cause with
      | trap trap => cases ends
      | error cause =>
        obtain ⟨_, _, _, hok, _⟩ | ⟨refused, _, herror⟩ := resized rfl
        · cases hok
        · cases herror
          cases ends
          rw [if_neg refused]
          rfl

/-- A copy is refused for the same reason on all ranks. One that is not refused fails on the ranks that have no
memory for the elements of the source if these have bytes, and succeeds on all others. -/
theorem Seat.Sound.copy_eq_told (sound : seat.Sound checks rank) (known : Known table seat.faces)
    {dst src : String} {target source : DistTensor} (apart : dst ≠ src)
    (hdst : seat.tensors.lookup dst = some target) (hsrc : seat.tensors.lookup src = some source)
    (ends : EndsAt ((Step.copy dst src : Step n).act checks rank seat) later) :
    match (Step.copy dst src : Step n).verdict seat.faces with
    | .error cause => (Step.copy dst src : Step n).act checks rank seat = told (.error cause) later
    | .ok () =>
      (source.IsBare → (Step.copy dst src : Step n).act checks rank seat = told source.bareReply later) ∧
      (¬source.IsBare → (Step.copy dst src : Step n).act checks rank seat = told (.ok ()) later) := by
  have hcomm : target.grid.comm = source.grid.comm :=
    (sound.comm hdst).trans (sound.comm hsrc).symm
  have facesOf {name : String} {tensor : DistTensor} (h : seat.tensors.lookup name = some tensor) :
      seat.faces name = some tensor.face := by rw [faces, h, Option.map_some]
  rw [Step.act] at ends ⊢
  rw [Step.verdict]
  simp only [facesOf hdst, facesOf hsrc, hdst, hsrc, if_neg apart] at ends ⊢
  by_cases hgrid : target.face.gridShape = source.face.gridShape
  · rw [if_pos ((Grid.isCongruent_iff hcomm).mpr hgrid)] at ends ⊢
    obtain ⟨state, hend, rfl⟩ := Seat.settle_ends ends
    have hcopy := DistTensor.copyShare_eq_told (sound.each hdst) (sound.each hsrc) hgrid
      (congrArg Comm.rank hcomm) (known _ _ (facesOf hdst)) (known _ _ (facesOf hsrc))
      (fun _ hid => sound.apart apart hdst hsrc hid) hend
    rw [if_pos hgrid]
    split at hcopy
    · next fits =>
      have hfits : Layout.numel source.face.shape = .ok 0 ∨
          (source.face.dtype == target.face.dtype) = true := fits
      rw [if_pos hfits]
      exact ⟨fun bare => by rw [hcopy.1 bare, Seat.settle_told], fun filled => by rw [hcopy.2 filled]; rfl⟩
    · next unfit =>
      have hunfit : ¬(Layout.numel source.face.shape = .ok 0 ∨
          (source.face.dtype == target.face.dtype) = true) := unfit
      rw [if_neg hunfit]
      rw [hcopy]
      rfl
  · rw [if_neg fun h => hgrid ((Grid.isCongruent_iff hcomm).mp h)] at ends ⊢
    obtain ⟨state, hend, rfl⟩ := Seat.settle_ends ends
    cases hend
    rw [if_neg hgrid]
    rfl

/-- What the ranks are told of a step that is made of what all of them know: the same of a new tensor and of a
change of the layout. A copy is refused on all ranks for the same reason, or it is told apart by the memory of
the source: it succeeds on the ranks that have memory for their elements, and only on those, unless the elements
have no bytes. -/
def Step.Told (seats : Fin n → Seat) (replies : Fin n → Except DistError Unit) : Step n → Prop
  | .create .. | .resize .. => ∀ rank other, replies rank = replies other
  | .copy dst src => ∀ targets sources : Fin n → DistTensor, dst ≠ src →
    (∀ rank, (seats rank).tensors.lookup dst = some (targets rank)) →
    (∀ rank, (seats rank).tensors.lookup src = some (sources rank)) →
    (∃ cause, cause ≠ .tensor (.device .nullBuffer) ∧ ∀ rank, replies rank = .error cause) ∨
    ∀ rank, ((sources rank).IsBare → replies rank =
        if (sources rank).share.dtype.size = 0 then .ok () else .error (.tensor (.device .nullBuffer))) ∧
      (¬(sources rank).IsBare → replies rank = .ok ())
  | _ => True

/-- A rank that goes on after a step was told something. -/
theorem Log.exists_told {log next : Log} {outcome : Outcome} (h : log.add outcome = .ok next) :
    ∃ reply, outcome = told reply next.seat ∧ next.replies = log.replies ++ [reply] := by
  cases outcome with
  | ok _ seat =>
    cases h
    exact ⟨.ok (), rfl, rfl⟩
  | error cause seat =>
    cases cause with
    | trap trap => cases h
    | error cause =>
      cases h
      exact ⟨.error cause, rfl, rfl⟩

theorem actAll_append_eq_ok {steps more : List (Step n)} {log last : Log} :
    actAll checks rank (steps ++ more) log = .ok last ↔
      ∃ next, actAll checks rank steps log = .ok next ∧ actAll checks rank more next = .ok last := by
  induction steps generalizing log with
  | nil => simp [actAll]
  | cons step steps ih =>
    simp only [List.cons_append, actAll, except_bind_eq_ok, ih]
    constructor
    · rintro ⟨first, hfirst, next, hnext, hlast⟩
      exact ⟨next, ⟨first, hfirst, hnext⟩, hlast⟩
    · rintro ⟨next, ⟨first, hfirst, hnext⟩, hlast⟩
      exact ⟨first, hfirst, next, hnext, hlast⟩

/-- A rank is told something of each step. -/
theorem exists_replies {steps : List (Step n)} {log last : Log}
    (h : actAll checks rank steps log = .ok last) :
    ∃ replies, last.replies = log.replies ++ replies ∧ replies.length = steps.length := by
  induction steps generalizing log with
  | nil =>
    cases h
    exact ⟨[], by simp, rfl⟩
  | cons step steps ih =>
    obtain ⟨next, hnext, h⟩ := except_bind_eq_ok.mp h
    obtain ⟨reply, _, hreply⟩ := Log.exists_told hnext
    obtain ⟨replies, hreplies, hlength⟩ := ih h
    refine ⟨reply :: replies, ?_, by rw [List.length_cons, List.length_cons, hlength]⟩
    rw [hreplies, hreply, List.append_assoc]
    rfl

section Session

variable {hash : CopyTerms → UInt64} {machines : Fin n → Machine} {steps : List (Step n)} {logs : Fin n → Log}

/-- What a rank has before and after a step of a program, and what it is told of it. -/
private theorem actAll_at {log last : Log} {k : Nat} {step : Step n} (hstep : steps[k]? = some step)
    (h : actAll checks rank steps log = .ok last) :
    ∃ before after reply, actAll checks rank (steps.take k) log = .ok before ∧
      actAll checks rank (steps.take (k + 1)) log = .ok after ∧
      before.add (step.act checks rank before.seat) = .ok after ∧
      step.act checks rank before.seat = told reply after.seat ∧
      last.replies[log.replies.length + k]? = some reply := by
  obtain ⟨hk, hget⟩ := List.getElem?_eq_some_iff.mp hstep
  have hsplit : steps.take k ++ step :: steps.drop (k + 1) = steps := by
    rw [← hget, ← List.drop_eq_getElem_cons hk, List.take_append_drop]
  have hnext : steps.take (k + 1) = steps.take k ++ [step] := by
    rw [List.take_add_one, hstep, Option.toList_some]
  rw [← hsplit] at h
  obtain ⟨before, hbefore, h⟩ := actAll_append_eq_ok.mp h
  obtain ⟨after, hadd, h⟩ := except_bind_eq_ok.mp h
  obtain ⟨reply, hreply, hreplies⟩ := Log.exists_told hadd
  obtain ⟨first, hfirst, hlength⟩ := exists_replies hbefore
  obtain ⟨rest, hrest, _⟩ := exists_replies h
  refine ⟨before, after, reply, hbefore, ?_, hadd, hreply, ?_⟩
  · rw [hnext]
    refine actAll_append_eq_ok.mpr ⟨before, hbefore, except_bind_eq_ok.mpr ⟨after, hadd, rfl⟩⟩
  · rw [List.length_take, Nat.min_eq_left (Nat.le_of_lt hk)] at hlength
    rw [hrest, hreplies, hfirst, ← hlength, ← List.length_append, List.append_assoc]
    simp

/-- A program that all ranks of a world run with the same arguments, but for what they write to their shares,
and that no trap stops, on tensors of known types. After each step, whatever came of it, all ranks have the same
global shape, axis types, distribution and grid of every tensor. They are told the same of a new tensor and of a
new layout, and of a copy too, except that one which is not refused fails on the ranks that have no memory for
their elements of the source, if these have bytes. -/
theorem replies_of_reachable {table : TypeTable} (reachable : Reachable hash checks machines steps logs)
    (known : ∀ step ∈ steps, step.IsKnown table) {k : Nat} {step : Step n}
    (hstep : steps[k]? = some step) :
    ∃ (before after : Fin n → Log) (replies : Fin n → Except DistError Unit),
      Reachable hash checks machines (steps.take k) before ∧
      Reachable hash checks machines (steps.take (k + 1)) after ∧
      (∀ rank other name tensor, (after rank).seat.tensors.lookup name = some tensor →
        ∃ same, (after other).seat.tensors.lookup name = some same ∧ same.grid.shape = tensor.grid.shape ∧
          same.shape = tensor.shape ∧ same.dimTypes = tensor.dimTypes ∧
          same.distribution = tensor.distribution) ∧
      (∀ rank, (logs rank).replies[k]? = some (replies rank)) ∧
      step.Told (fun rank => (before rank).seat) replies := by
  choose before after replies hbefore hafter hadd hact hreply using fun rank =>
    actAll_at hstep (reachable_iff.mp reachable rank)
  have reachableAfter : Reachable hash checks machines (steps.take (k + 1)) after := reachable_iff.mpr hafter
  have spec (rank : Fin n) := actAll_spec _ (sound_blank checks rank (machines rank)) (hbefore rank)
  -- What all ranks know before the step follows from the program, and so does what they are to be told.
  obtain ⟨faces, hfaces, knownFaces⟩ :
      ∃ faces, (∀ rank, (before rank).seat.faces = faces) ∧ Known table faces :=
    ⟨(steps.take k).foldl (fun faces step => step.reface faces) fun _ => none,
      fun rank => (spec rank).2, known_foldl (fun _ _ h => by cases h) fun step hmem =>
        known step (List.mem_of_mem_take hmem)⟩
  have ends (rank : Fin n) : EndsAt (step.act checks rank (before rank).seat) (after rank).seat :=
    Log.add_eq_ok (hadd rank)
  refine ⟨before, after, replies, reachable_iff.mpr hbefore, reachableAfter,
    fun rank other name tensor h => ?_, fun rank => by simpa [blank] using hreply rank, ?_⟩
  · have hname := congrFun (reachableAfter.sound.2 other rank) name
    rw [Seat.faces, Seat.faces, h, Option.map_some] at hname
    obtain ⟨same, hsame, hface⟩ := Option.map_eq_some_iff.mp hname
    exact ⟨same, hsame, congrArg Face.gridShape hface, congrArg Face.shape hface,
      congrArg Face.dimTypes hface, congrArg Face.distribution hface⟩
  · cases step with
    | create name dtype gridShape shape dimTypes distribution isLazy =>
      have replied (rank : Fin n) : replies rank = (Step.create name dtype gridShape shape dimTypes
          distribution isLazy : Step n).verdict faces :=
        told_inj ((hact rank).symm.trans (Seat.create_eq_told (ends rank)))
      exact fun rank other => (replied rank).trans (replied other).symm
    | resize name shape dimTypes distribution =>
      have replied (rank : Fin n) :
          replies rank = (Step.resize name shape dimTypes distribution : Step n).verdict faces := by
        have htold := (spec rank).1.resize_eq_told (ends rank)
        rw [hfaces rank] at htold
        exact told_inj ((hact rank).symm.trans htold)
      exact fun rank other => (replied rank).trans (replied other).symm
    | copy dst src =>
      intro targets sources apart hdst hsrc
      have copied (rank : Fin n) := (spec rank).1.copy_eq_told (hfaces rank ▸ knownFaces) apart
        (hdst rank) (hsrc rank) (ends rank)
      simp only [hfaces] at copied
      cases hverdict : (Step.copy dst src : Step n).verdict faces with
      | error cause =>
        rw [hverdict] at copied
        refine .inl ⟨cause, ?_, fun rank => told_inj ((hact rank).symm.trans (copied rank))⟩
        rintro rfl
        exact Step.verdict_ne_nullBuffer _ _ hverdict
      | ok _ =>
        rw [hverdict] at copied
        refine .inr fun rank => ⟨fun bare => ?_, fun filled => ?_⟩
        · rw [← DistTensor.bareReply_eq]
          exact told_inj ((hact rank).symm.trans ((copied rank).1 bare))
        · exact told_inj ((hact rank).symm.trans ((copied rank).2 filled))
    | _ => trivial

end Session

/-- One lazy element on two ranks, which the first one holds, and a copy of it. -/
def lone (dtype : TypeInfo) : List (Step 2) :=
  [.create "a" dtype [2] [1] [.any] [.block] true, .create "b" dtype [2] [1] [.any] [.block] true, .copy "b" "a"]

private theorem acted_lone (rank : Fin 2) : ∃ before log target source,
    actAll true rank ((lone .f32).take 2) (blank .initial) = .ok before ∧
      actAll true rank (lone .f32) (blank .initial) = .ok log ∧
      before.seat.tensors.lookup "b" = some target ∧ before.seat.tensors.lookup "a" = some source ∧
      source.share.buffer? = none ∧ source.share.dtype = .f32 ∧ source.isShareEmpty = .ok (rank == 1) ∧
      (rank = 1 → log.replies[2]? = some (.ok ())) := by
  match rank with
  | 0 => exact ⟨_, _, _, _, rfl, rfl, rfl, rfl, rfl, rfl, rfl, nofun⟩
  | 1 => exact ⟨_, _, _, _, rfl, rfl, rfl, rfl, rfl, rfl, rfl, fun _ => rfl⟩

/-- The copy of a number that no memory was taken for fails on the rank that holds it, and on no other. -/
theorem replies_of_reachable_lone : ∃ logs : Fin 2 → Log,
    Reachable fingerprint true (fun _ => .initial) (lone .f32) logs ∧
    (∀ step ∈ lone .f32, step.IsKnown .builtin) ∧
    (logs 0).replies[2]? = some (.error (.tensor (.device .nullBuffer))) ∧
    (logs 1).replies[2]? = some (.ok ()) := by
  choose before logs targets sources earlier acted hdst hsrc bare typed share idle using acted_lone
  have reachable : Reachable fingerprint true (fun _ => .initial) (lone .f32) logs := reachable_iff.mpr acted
  have known : ∀ step ∈ lone .f32, step.IsKnown .builtin := by
    simp [lone, Step.IsKnown, TypeTable.known_f32]
  obtain ⟨first, _, replies, hfirst, _, _, hreplies, told⟩ :=
    replies_of_reachable reachable known (rfl : (lone .f32)[2]? = some (.copy "b" "a"))
  obtain rfl : first = before := by
    funext rank
    exact Except.ok.inj ((reachable_iff.mp hfirst rank).symm.trans (earlier rank))
  obtain ⟨cause, _, refused⟩ | told := told targets sources (by decide) hdst hsrc
  · have hreply := (idle 1 rfl).symm.trans (hreplies 1)
    rw [refused 1] at hreply
    cases hreply
  · refine ⟨logs, reachable, known, (hreplies 0).trans ?_, (hreplies 1).trans ?_⟩
    · rw [(told 0).1 ⟨share 0, bare 0⟩, typed 0]
      rfl
    · refine congrArg _ ((told 1).2 fun h => ?_)
      cases (share 1).symm.trans h.1

private theorem acted_unit (rank : Fin 2) : ∃ before log source,
    actAll true rank ((lone .unit).take 2) (blank .initial) = .ok before ∧
      actAll true rank (lone .unit) (blank .initial) = .ok log ∧ before.seat.tensors.lookup "a" = some source ∧
      source.share.buffer? = none ∧ source.isShareEmpty = .ok (rank == 1) ∧ log.replies[2]? = some (.ok ()) := by
  match rank with
  | 0 => exact ⟨_, _, _, rfl, rfl, rfl, rfl, rfl, rfl⟩
  | 1 => exact ⟨_, _, _, rfl, rfl, rfl, rfl, rfl, rfl⟩

/-- The copy of an element without bytes succeeds on both ranks, though no memory was taken for it on the one that
holds it. -/
theorem copies_of_unit : ∃ (table : TypeTable) (before logs : Fin 2 → Log) (source : DistTensor),
    TypeTable.builtin.intern TypeInfo.unit.type = .ok (.unit, table) ∧ (∀ step ∈ lone .unit, step.IsKnown table) ∧
      Reachable fingerprint true (fun _ => .initial) ((lone .unit).take 2) before ∧
      Reachable fingerprint true (fun _ => .initial) (lone .unit) logs ∧
      (before 0).seat.tensors.lookup "a" = some source ∧ source.IsBare ∧
      ∀ rank, (logs rank).replies[2]? = some (.ok ()) := by
  choose before logs sources earlier acted hsrc bare share replied using acted_unit
  refine ⟨_, before, logs, sources 0, rfl, ?_, reachable_iff.mpr earlier, reachable_iff.mpr acted, hsrc 0,
    ⟨share 0, bare 0⟩, replied⟩
  simp only [lone, List.mem_cons, List.not_mem_nil, or_false, forall_eq_or_imp, forall_eq, Step.IsKnown]
  exact ⟨rfl, rfl, trivial⟩

end Fleet

end ArrayEngine
