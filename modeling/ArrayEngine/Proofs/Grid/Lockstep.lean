import ArrayEngine.Proofs.Comm.Unanimous
import ArrayEngine.Proofs.Grid.Copy
import ArrayEngine.Proofs.Grid.Fleet

/-! What all ranks know of their tensors is the same everywhere after each step of a program: it follows
from the steps alone. So all ranks agree in all copies. -/
namespace ArrayEngine

theorem Tensor.evolving_fill_fillsTo (src : Tensor) (value : Element) :
    Evolving (FillsTo src) (fill value) := by
  refine .bind (evolving_ensure_fillsTo src) fun _ => .get_bind fun state => ?_
  dsimp only
  split
  · exact .of_keeping (fillsTo_onMachine (keeping_fillHost _ _))
  · exact .of_keeping (fillsTo_onMachine (keeping_fillGpu _ _))

namespace DistTensor

/-- A change keeps sound tensors sound, and makes one face of another. -/
def Refaces (reface : Face → Face) (update : DistUpdate Unit) : Prop :=
  ∀ {tensor : DistTensor} {machine : Machine} {state : DistTensor × Machine}, tensor.IsSound machine →
    EndsAt (update (tensor, machine)) state →
      state.1.IsSound state.2 ∧ ChangesTo (tensor, machine) state ∧
        state.1.face = reface tensor.face

theorem refaces_resize (shape : List Nat) (dimTypes : List DimType) (distribution : List Distribution) :
    Refaces (fun face => face.resized shape dimTypes distribution)
      (resize shape dimTypes distribution) := by
  intro tensor machine state sound ends
  obtain ⟨share, later, accepts, hok, rfl, changed⟩ | ⟨refused, rfl, _⟩ :=
    resizeWith_cases (Tensor.isView_of_onHost sound.host) (fun _ _ => rfl) ends
  · refine ⟨sound.of_resizeWith hok changed, ⟨rfl, changed⟩, ?_⟩
    have haccepts : Accepts tensor.face.gridShape shape dimTypes distribution := accepts
    change _ = tensor.face.resized shape dimTypes distribution
    rw [Face.resized, if_pos haccepts]
    exact congrArg (Face.mk shape dimTypes distribution tensor.grid.shape) changed.dtype
  · refine ⟨sound, .refl _, ?_⟩
    have hrefused : ¬Accepts tensor.face.gridShape shape dimTypes distribution := refused
    change _ = tensor.face.resized shape dimTypes distribution
    rw [Face.resized, if_neg hrefused]

theorem refaces_empty : Refaces Face.emptied (modify fun (tensor, machine) => (tensor.emptied, machine)) := by
  intro tensor machine state sound ends
  cases ends
  exact ⟨sound.emptied, ⟨rfl, Tensor.changesTo_emptied _ _⟩, rfl⟩

/-- A change of the share that leaves its layout alone. -/
theorem refaces_onShare {change : Update Unit}
    (h : ∀ src, Evolving (Tensor.FillsTo src) change) : Refaces id (onShare change) := by
  intro tensor machine state sound ends
  obtain ⟨same, fills⟩ := evolving_onShare (h tensor.share) _ _ ends
  have filled : FillsTo tensor (tensor, machine) state := ⟨same, fills⟩
  refine ⟨sound.of_fillsTo ⟨rfl, rfl, rfl⟩ filled, ⟨?_, fills.changed⟩, ?_⟩
  · rw [same]
    rfl
  · rw [same]
    exact congrArg (Face.mk tensor.shape tensor.dimTypes tensor.distribution tensor.grid.shape)
      fills.changed.dtype

theorem refaces_assign (elements : List Element) : Refaces id (assign elements) :=
  fun sound ends => refaces_onShare (fun _ => .of_keeping (Tensor.fillsTo_onMachine
    (Tensor.keeping_assign _ elements))) sound ends

/-- A tensor without axes on a grid is sound. -/
theorem isSound_blank {grid : Grid} (pos : ∀ procs ∈ grid.shape, 0 < procs) (dtype : TypeInfo)
    (isLazy : Bool) (machine : Machine) :
    (blank dtype grid .cpu isLazy).IsSound machine := by
  refine ⟨⟨?_, rfl, rfl, .inl rfl⟩, Tensor.sound_blank _ _ _ _, Tensor.onHost_blank _ _ _⟩
  change shareShape grid [] [] = .ok []
  rw [shareShape, Grid.coords_eq_ok pos]
  rfl

end DistTensor

/-- Grids of all ranks are congruent if they have the same shape. -/
theorem Grid.isCongruent_iff {grid other : Grid} (h : grid.comm = other.comm) :
    grid.isCongruent other = true ↔ grid.shape = other.shape := by
  simp [isCongruent, h]

namespace DistTensor

variable {hash : CopyTerms → UInt64} {n : Nat} {checks : Bool} {rank : Fin n} {dst src : DistTensor}

/-- What a rank makes of a copy once it knows whether all ranks agree. -/
def concludeCopy (dst src : DistTensor) (machine : Machine) (agreed : Except GridError Unit) :
    EStateM.Result (Halt DistError) (DistTensor × Machine) Unit :=
  match agreed with
  | .ok () => copyShare src (dst, machine)
  | .error cause => .error (.error (.grid cause)) (dst, machine)

/-- A copy on congruent grids of all ranks is one gathering, or none without checks. -/
theorem copy_eq (hsrc : src.grid.comm = Comm.member checks rank)
    (hgrid : dst.grid.isCongruent src.grid = true) (machine : Machine) :
    copy hash dst src machine =
      if checks then
        .gather (hash (terms dst src)) fun gathered => .done (concludeCopy dst src machine
          (gathered.bind (src.grid.comm.agree (hash (terms dst src)))))
      else .done (copyShare src (dst, machine)) := by
  have hchecks : src.grid.comm.checks = checks := by rw [hsrc, Comm.member]
  have hjoined : src.grid.comm.isJoined = true := by rw [hsrc, Comm.member]
  rw [copy, if_pos hgrid, hchecks]
  cases checks with
  | false => rfl
  | true =>
    rw [if_pos rfl, if_pos rfl, Comm.check, Comm.gather, if_pos hjoined]
    change Collective.gather _ _ = _
    congr 1
    funext gathered
    change (match gathered.bind (src.grid.comm.agree (hash (terms dst src))) with
      | .ok () => .done _
      | .error cause => .done _ : Collective _) = _
    cases gathered.bind (src.grid.comm.agree (hash (terms dst src))) <;> rfl

/-- The own word from every rank is what a rank agrees to. -/
theorem agree_unanimous (comm : Comm) (word : UInt64) :
    (Collective.unanimous n word).bind (comm.agree word) = .ok () := by
  rw [Collective.unanimous, Except.bind, Comm.agree, if_pos (by simp)]

/-- A tensor of a face, with nothing in it. The ranks compare no more than its face in a copy. -/
def Face.standIn (face : Face) : DistTensor :=
  ⟨face.shape, face.dimTypes, ⟨.single, face.gridShape⟩, face.distribution,
    Tensor.blank face.dtype .cpu true⟩

end DistTensor

namespace Fleet

variable {n : Nat}

open DistTensor (Face Accepts)

/-- What all ranks know of the tensors of a rank. -/
def Seat.faces (seat : Seat) (name : String) : Option Face :=
  (seat.tensors.lookup name).map DistTensor.face

/-- What a step makes of what all ranks know. -/
def Step.reface (faces : String → Option Face) : Step n → String → Option Face
  | .create name dtype gridShape shape dimTypes distribution _ =>
    if Layout.product gridShape = .ok n ∧ Accepts gridShape shape dimTypes distribution then
      Function.update faces name (some ⟨shape, dimTypes, distribution, gridShape, dtype⟩)
    else faces
  | .resize name shape dimTypes distribution =>
    Function.update faces name ((faces name).map fun face => face.resized shape dimTypes distribution)
  | .empty name => Function.update faces name ((faces name).map Face.emptied)
  | .copy dst src =>
    match faces dst, faces src with
    | some target, some source =>
      if dst ≠ src ∧ target.gridShape = source.gridShape then
        Function.update faces dst (some (target.copied source))
      else faces
    | _, _ => faces
  | _ => faces

/-- The tensors of a rank are sound and on grids of all ranks, and no two have the same memory. -/
structure Seat.Sound (checks : Bool) (rank : Fin n) (seat : Seat) : Prop where
  each : ∀ {name tensor}, seat.tensors.lookup name = some tensor → tensor.IsSound seat.machine
  comm : ∀ {name tensor}, seat.tensors.lookup name = some tensor →
    tensor.grid.comm = Comm.member checks rank
  apart : ∀ {name other tensor second id}, name ≠ other → seat.tensors.lookup name = some tensor →
    seat.tensors.lookup other = some second → tensor.share.buffer? = some id →
    second.share.buffer? ≠ some id

theorem Seat.faces_insert (seat : Seat) (name : String) (tensor : DistTensor) (machine : Machine) :
    Seat.faces ⟨Assoc.insert seat.tensors name tensor, machine⟩ =
      Function.update seat.faces name (some tensor.face) := by
  funext other
  rw [faces]
  by_cases hname : other = name
  · subst hname
    rw [Assoc.lookup_insert_self, Function.update_self, Option.map_some]
  · rw [Assoc.lookup_insert_of_ne _ _ hname, Function.update_of_ne hname]
    rfl

/-- A change that ends well or with an error puts its tensor in place. -/
theorem Seat.settle_ends {seat later : Seat} {name : String}
    {result : EStateM.Result (Halt DistError) (DistTensor × Machine) Unit}
    (ends : EndsAt (seat.settle name result) later) :
    ∃ state, EndsAt result state ∧ later = ⟨Assoc.insert seat.tensors name state.1, state.2⟩ := by
  cases result with
  | ok _ state =>
    cases ends
    exact ⟨state, rfl, rfl⟩
  | error cause state =>
    cases cause with
    | trap trap => cases ends
    | error cause =>
      cases ends
      exact ⟨state, rfl, rfl⟩

/-- Making a tensor gives a name a sound one over new memory, or nothing is changed: the numbers of axes do
not fit together, or the grid has not one place for each rank. -/
theorem Seat.create_cases {checks : Bool} {rank : Fin n} {seat later : Seat} {name : String}
    {dtype : TypeInfo} {gridShape shape : List Nat} {dimTypes : List DimType}
    {distribution : List Distribution} {isLazy : Bool}
    (ends : EndsAt (seat.create (Comm.member checks rank) name dtype gridShape shape dimTypes
      distribution isLazy) later) :
    (Layout.product gridShape = .ok n ∧ Accepts gridShape shape dimTypes distribution ∧
      ∃ tensor machine, seat.create (Comm.member checks rank) name dtype gridShape shape dimTypes
          distribution isLazy = .ok () ⟨Assoc.insert seat.tensors name tensor, machine⟩ ∧
        tensor.IsSound machine ∧ tensor.grid = ⟨Comm.member checks rank, gridShape⟩ ∧
        tensor.face = ⟨shape, dimTypes, distribution, gridShape, dtype⟩ ∧
        seat.machine.Keeps machine ∧
        ∀ id, tensor.share.buffer? = some id → seat.machine.buffers.length ≤ id) ∨
    (Layout.product gridShape = .ok n ∧ ¬Accepts gridShape shape dimTypes distribution ∧
      seat.create (Comm.member checks rank) name dtype gridShape shape dimTypes distribution isLazy =
        .error (.error (DistTensor.refusal gridShape shape dimTypes distribution)) seat) ∨
    Layout.product gridShape ≠ .ok n ∧
      seat.create (Comm.member checks rank) name dtype gridShape shape dimTypes distribution isLazy =
        .error (.error (.grid (.shape n gridShape))) seat := by
  have hsize : (Comm.member checks rank).size = n := List.length_range
  cases hproduct : Layout.product gridShape with
  | error trap =>
    rw [Seat.create, Grid.create, hproduct] at ends
    cases ends
  | ok count =>
    by_cases hcount : count = n
    · have hgrid : Grid.create (Comm.member checks rank) gridShape =
          .ok ⟨Comm.member checks rank, gridShape⟩ := by
        rw [Grid.create, hproduct]
        exact if_pos (hcount.trans hsize.symm)
      obtain ⟨_, _, pos⟩ := DistTensor.grid_of_create hgrid
      have blank := @DistTensor.isSound_blank ⟨Comm.member checks rank, gridShape⟩ pos dtype isLazy
        seat.machine
      rw [Seat.create, hgrid] at ends ⊢
      dsimp only at ends ⊢
      obtain ⟨trap, _, hcreate⟩ | ⟨share, machine, accepts, hcreate, hresize, changed⟩ |
        ⟨refused, hcreate⟩ := DistTensor.create_cases dtype ⟨Comm.member checks rank, gridShape⟩ shape
          dimTypes distribution .cpu isLazy seat.machine
      · rw [hcreate] at ends
        cases ends
      · rw [hcreate]
        refine .inl ⟨congrArg _ hcount, accepts, _, _, rfl, blank.of_resizeWith hresize changed, rfl, ?_,
          changed.keeps, fun id hid => ?_⟩
        · exact congrArg (Face.mk shape dimTypes distribution gridShape) changed.dtype
        · rcases changed.buffer id hid with hnew | ⟨hold, _⟩
          · exact hnew
          · cases hold
      · rw [hcreate]
        exact .inr (.inl ⟨congrArg _ hcount, refused, rfl⟩)
    · refine .inr (.inr ⟨fun h => hcount (Except.ok.inj h), ?_⟩)
      have hgrid : Grid.create (Comm.member checks rank) gridShape =
          .error (.error (.shape n gridShape)) := by
        rw [Grid.create, hproduct, hsize]
        exact if_neg hcount
      rw [Seat.create, hgrid]
      rfl

namespace Seat.Sound

variable {checks : Bool} {rank : Fin n} {seat later : Seat} {name other : String}
  {tensor : DistTensor}

/-- A buffer that a tensor has is none that is yet to come. -/
theorem id_lt (sound : seat.Sound checks rank) (h : seat.tensors.lookup name = some tensor)
    {id : BufferId} (hid : tensor.share.buffer? = some id) : id < seat.machine.buffers.length := by
  obtain ⟨_, _, _, _, hbuffer, _⟩ := (sound.each h).share.memory id hid
  exact DistTensor.lt_of_buffers hbuffer

/-- A sound tensor with memory that no other one has may take a name. -/
theorem set (sound : seat.Sound checks rank) {machine : Machine} (keeps : seat.machine.Keeps machine)
    (each : tensor.IsSound machine) (comm : tensor.grid.comm = Comm.member checks rank)
    (apart : ∀ other second id, other ≠ name → seat.tensors.lookup other = some second →
      tensor.share.buffer? = some id → second.share.buffer? ≠ some id) :
    Seat.Sound checks rank ⟨Assoc.insert seat.tensors name tensor, machine⟩ := by
  have self {found : DistTensor}
      (h : (Assoc.insert seat.tensors name tensor).lookup name = some found) : found = tensor := by
    rw [Assoc.lookup_insert_self] at h
    exact (Option.some.inj h).symm
  have rest {other : String} (h : other ≠ name) :
      (Assoc.insert seat.tensors name tensor).lookup other = seat.tensors.lookup other :=
    Assoc.lookup_insert_of_ne _ _ h
  refine ⟨fun {other found} h => ?_, fun {other found} h => ?_,
    fun {first second t u id} hne hfirst hsecond ht => ?_⟩
  · by_cases hname : other = name
    · subst hname
      exact self h ▸ each
    · have old := sound.each (rest hname ▸ h)
      exact ⟨old.laid, old.share.keeps keeps, old.host.keeps keeps⟩
  · by_cases hname : other = name
    · subst hname
      exact self h ▸ comm
    · exact sound.comm (rest hname ▸ h)
  · by_cases hname : first = name
    · subst hname
      cases self hfirst
      exact apart second u id hne.symm (rest hne.symm ▸ hsecond) ht
    · by_cases hother : second = name
      · subst hother
        cases self hsecond
        exact fun hu => apart first t id hname (rest hname ▸ hfirst) hu ht
      · exact sound.apart hne (rest hname ▸ hfirst) (rest hother ▸ hsecond) ht

/-- A change that keeps a tensor sound and gives it another face. -/
theorem settle (sound : seat.Sound checks rank) (found : seat.tensors.lookup name = some tensor)
    {face : Face} {result : EStateM.Result (Halt DistError) (DistTensor × Machine) Unit}
    (changed : ∀ state, EndsAt result state → state.1.IsSound state.2 ∧
      DistTensor.ChangesTo (tensor, seat.machine) state ∧ state.1.face = face)
    (ends : EndsAt (seat.settle name result) later) :
    later.Sound checks rank ∧ later.faces = Function.update seat.faces name (some face) := by
  obtain ⟨⟨now, machine⟩, hend, rfl⟩ := Seat.settle_ends ends
  obtain ⟨each, change, hface⟩ := changed _ hend
  refine ⟨sound.set change.share.keeps each ?_ fun other second id hne hsecond hid hid' => ?_, ?_⟩
  · rw [show now.grid = tensor.grid from change.grid]
    exact sound.comm found
  · rcases change.share.buffer id hid with hnew | ⟨hold, _⟩
    · exact absurd (sound.id_lt hsecond hid') (Nat.not_lt_of_le hnew)
    · exact sound.apart hne.symm found hsecond hold hid'
  · rw [faces_insert, hface]

/-- A change of a tensor of some name. -/
theorem change (sound : seat.Sound checks rank) {reface : Face → Face} {update : DistUpdate Unit}
    (h : DistTensor.Refaces reface update) (ends : EndsAt (seat.change name update) later) :
    later.Sound checks rank ∧
      later.faces = Function.update seat.faces name ((seat.faces name).map reface) := by
  rw [Seat.change] at ends
  cases found : seat.tensors.lookup name with
  | none =>
    rw [found] at ends
    cases ends
    have hnone : seat.faces name = none := by rw [faces, found, Option.map_none]
    refine ⟨sound, ?_⟩
    rw [hnone, Option.map_none, ← hnone, Function.update_eq_self]
  | some tensor =>
    rw [found] at ends
    have hsome : seat.faces name = some tensor.face := by rw [faces, found, Option.map_some]
    rw [hsome, Option.map_some]
    exact sound.settle found (fun state => h (sound.each found)) ends

/-- A change that leaves what all ranks know alone. -/
theorem change_id (sound : seat.Sound checks rank) {update : DistUpdate Unit}
    (h : DistTensor.Refaces id update) (ends : EndsAt (seat.change name update) later) :
    later.Sound checks rank ∧ later.faces = seat.faces := by
  obtain ⟨hlater, hfaces⟩ := sound.change h ends
  rw [Option.map_id, id, Function.update_eq_self] at hfaces
  exact ⟨hlater, hfaces⟩

theorem create (sound : seat.Sound checks rank) {dtype : TypeInfo} {gridShape shape : List Nat}
    {dimTypes : List DimType} {distribution : List Distribution} {isLazy : Bool}
    (ends : EndsAt (seat.create (Comm.member checks rank) name dtype gridShape shape dimTypes
      distribution isLazy) later) :
    later.Sound checks rank ∧ later.faces =
      if Layout.product gridShape = .ok n ∧ Accepts gridShape shape dimTypes distribution then
        Function.update seat.faces name (some ⟨shape, dimTypes, distribution, gridShape, dtype⟩)
      else seat.faces := by
  obtain ⟨hproduct, accepts, tensor, machine, hcreate, each, hgrid, hface, keeps, fresh⟩ |
    ⟨_, refused, hcreate⟩ | ⟨hproduct, hcreate⟩ := Seat.create_cases ends
  · rw [hcreate] at ends
    cases ends
    refine ⟨sound.set keeps each (congrArg Grid.comm hgrid) ?_, ?_⟩
    · intro other second id _ hsecond hid hid'
      exact absurd (sound.id_lt hsecond hid') (Nat.not_lt_of_le (fresh id hid))
    · rw [faces_insert, if_pos ⟨hproduct, accepts⟩, hface]
  · rw [hcreate] at ends
    cases ends
    exact ⟨sound, (if_neg fun h => refused h.2).symm⟩
  · rw [hcreate] at ends
    cases ends
    exact ⟨sound, (if_neg fun h => hproduct h.1).symm⟩

/-- A copy within a rank, the ranks agreeing. -/
theorem copy (sound : seat.Sound checks rank) {dst src : String}
    (ends : EndsAt ((Step.copy dst src : Step n).act checks rank seat) later) :
    later.Sound checks rank ∧ later.faces = (Step.copy dst src : Step n).reface seat.faces := by
  rw [Step.act] at ends
  rw [Step.reface, faces, faces]
  cases hdst : seat.tensors.lookup dst with
  | none =>
    rw [hdst] at ends
    cases ends
    exact ⟨sound, rfl⟩
  | some target =>
    cases hsrc : seat.tensors.lookup src with
    | none =>
      rw [hdst, hsrc] at ends
      cases ends
      exact ⟨sound, rfl⟩
    | some source =>
      have hcomm : target.grid.comm = source.grid.comm :=
        (sound.comm hdst).trans (sound.comm hsrc).symm
      simp only [hdst, hsrc] at ends
      simp only [Option.map_some]
      by_cases hsame : dst = src
      · rw [if_pos hsame] at ends
        cases ends
        exact ⟨sound, (if_neg fun h => h.1 hsame).symm⟩
      · rw [if_neg hsame] at ends
        by_cases hgrid : target.grid.shape = source.grid.shape
        · rw [if_pos ((Grid.isCongruent_iff hcomm).mpr hgrid)] at ends
          obtain ⟨hlater, hfaces⟩ := sound.settle hdst (fun state => DistTensor.copyShare_cases
            (sound.each hdst) (sound.each hsrc) hgrid (congrArg Comm.rank hcomm)) ends
          refine ⟨hlater, hfaces.trans (if_pos ?_).symm⟩
          exact ⟨hsame, hgrid⟩
        · rw [if_neg fun h => hgrid ((Grid.isCongruent_iff hcomm).mp h)] at ends
          obtain ⟨hlater, hfaces⟩ := sound.settle hdst (fun state hend => by
            cases (hend : (target, seat.machine) = state)
            exact ⟨sound.each hdst, .refl _, rfl⟩) ends
          refine ⟨hlater, hfaces.trans ?_⟩
          have hface : seat.faces dst = some target.face := by rw [faces, hdst, Option.map_some]
          rw [← hface, Function.update_eq_self]
          exact (if_neg fun h => hgrid h.2).symm

end Seat.Sound

/-- What a rank makes of a step keeps it sound, and what all ranks know follows from the step. -/
theorem Step.act_spec {checks : Bool} {rank : Fin n} {seat later : Seat}
    (sound : seat.Sound checks rank) (step : Step n) (ends : EndsAt (step.act checks rank seat) later) :
    later.Sound checks rank ∧ later.faces = step.reface seat.faces := by
  cases step with
  | create => exact sound.create ends
  | resize => exact sound.change (DistTensor.refaces_resize _ _ _) ends
  | ensure => exact sound.change_id (DistTensor.refaces_onShare Tensor.evolving_ensure_fillsTo) ends
  | empty => exact sound.change DistTensor.refaces_empty ends
  | fill => exact sound.change_id (DistTensor.refaces_onShare fun src =>
      Tensor.evolving_fill_fillsTo src _) ends
  | write => exact sound.change_id (DistTensor.refaces_assign _) ends
  | copy => exact sound.copy ends

/-- The word that a step hands in. -/
def Step.word? (hash : CopyTerms → UInt64) (checks : Bool) (faces : String → Option Face) : Step n → Option UInt64
  | .copy dst src =>
    match faces dst, faces src with
    | some target, some source =>
      if dst ≠ src ∧ target.gridShape = source.gridShape ∧ checks = true then
        some (hash (DistTensor.terms target.standIn source.standIn))
      else none
    | _, _ => none
  | _ => none

/-- A step hands in what follows from what all ranks know, and if all agree the rank acts. -/
theorem Step.run_cases (hash : CopyTerms → UInt64) {checks : Bool} {rank : Fin n} {seat : Seat}
    (sound : seat.Sound checks rank) (step : Step n) :
    (step.word? hash checks seat.faces = none ∧
      step.run hash checks rank seat = .done (step.act checks rank seat)) ∨
    ∃ word resume, step.word? hash checks seat.faces = some word ∧
      step.run hash checks rank seat = .gather word resume ∧
      resume (Collective.unanimous n word) = .done (step.act checks rank seat) := by
  cases step with
  | copy dst src =>
    rw [word?, Seat.faces, Seat.faces, run, act]
    cases hdst : seat.tensors.lookup dst with
    | none => exact .inl ⟨rfl, rfl⟩
    | some target =>
      cases hsrc : seat.tensors.lookup src with
      | none => exact .inl ⟨rfl, rfl⟩
      | some source =>
        simp only [Option.map_some]
        by_cases hsame : dst = src
        · exact .inl ⟨if_neg fun h => h.1 hsame, by rw [if_pos hsame, if_pos hsame]⟩
        · have hcomm : target.grid.comm = source.grid.comm :=
            (sound.comm hdst).trans (sound.comm hsrc).symm
          rw [if_neg hsame, if_neg hsame]
          by_cases hgrid : target.grid.shape = source.grid.shape
          · have congruent := (Grid.isCongruent_iff hcomm).mpr hgrid
            rw [if_pos congruent, DistTensor.copy_eq (sound.comm hsrc) congruent]
            cases checks with
            | false => exact .inl ⟨if_neg fun h => Bool.false_ne_true h.2.2, rfl⟩
            | true =>
              refine .inr ⟨_, _, if_pos ⟨hsame, hgrid, rfl⟩, rfl, ?_⟩
              change Collective.done (seat.settle dst (DistTensor.concludeCopy target source seat.machine
                ((Collective.unanimous n (hash (DistTensor.terms target source))).bind
                  (source.grid.comm.agree (hash (DistTensor.terms target source)))))) = _
              rw [DistTensor.agree_unanimous]
              rfl
          · have apart : ¬target.grid.isCongruent source.grid = true :=
              fun h => hgrid ((Grid.isCongruent_iff hcomm).mp h)
            refine .inl ⟨if_neg fun h => hgrid h.2.1, ?_⟩
            rw [if_neg apart, DistTensor.copy, if_neg apart]
            rfl
  | _ => exact .inl ⟨rfl, rfl⟩

/-- The words that a program hands in. -/
def words (hash : CopyTerms → UInt64) (checks : Bool) : List (Step n) → (String → Option Face) → List UInt64
  | [], _ => []
  | step :: steps, faces => (step.word? hash checks faces).toList ++ words hash checks steps (step.reface faces)

theorem length_words_le (hash : CopyTerms → UInt64) (checks : Bool) (steps : List (Step n))
    (faces : String → Option Face) : (words hash checks steps faces).length ≤ steps.length := by
  induction steps generalizing faces with
  | nil => exact Nat.le_refl 0
  | cons step steps ih =>
    have hstep : (step.word? hash checks faces).toList.length ≤ 1 := by
      cases step.word? hash checks faces <;> simp
    have hrest := ih (step.reface faces)
    rw [words, List.length_append, List.length_cons]
    omega

/-- If all ranks agree, the program of a rank hands in some words, and all of them unless a trap stops it. -/
def Completes (n : Nat) (program : Collective (Except Trap Log)) (words : List UInt64)
    (result : Except Trap Log) : Prop :=
  ∃ left, program.Settles n words left result ∧ ∀ log, result = .ok log → left = []

/-- A rank between two steps of a program. -/
private theorem completes_next {hash : CopyTerms → UInt64} {checks : Bool} {rank : Fin n} {steps : List (Step n)}
    {outcome : Outcome} {log : Log} {later : List UInt64}
    (h : ∀ next, log.add outcome = .ok next →
      Completes n (script hash checks rank steps next) later (actAll checks rank steps next)) :
    Completes n
      (match log.add outcome with
        | .ok log => script hash checks rank steps log
        | .error trap => .done (.error trap)) later
      (log.add outcome >>= actAll checks rank steps) := by
  cases hadd : log.add outcome with
  | error trap => exact ⟨later, .done _ _, nofun⟩
  | ok next => exact h next hadd

theorem Log.add_eq_ok {log next : Log} {outcome : Outcome} (h : log.add outcome = .ok next) :
    EndsAt outcome next.seat := by
  cases outcome with
  | ok _ seat =>
    cases h
    exact rfl
  | error cause seat =>
    cases cause with
    | trap trap => cases h
    | error cause =>
      cases h
      exact rfl

/-- What all ranks know after a program follows from the program. -/
theorem actAll_spec {checks : Bool} {rank : Fin n} (steps : List (Step n)) {log later : Log}
    (sound : log.seat.Sound checks rank) (h : actAll checks rank steps log = .ok later) :
    later.seat.Sound checks rank ∧
      later.seat.faces = steps.foldl (fun faces step => step.reface faces) log.seat.faces := by
  induction steps generalizing log with
  | nil =>
    cases h
    exact ⟨sound, rfl⟩
  | cons step steps ih =>
    obtain ⟨next, hnext, h⟩ := except_bind_eq_ok.mp h
    obtain ⟨nextSound, hfaces⟩ := step.act_spec sound (Log.add_eq_ok hnext)
    rw [List.foldl_cons, ← hfaces]
    exact ih nextSound h

theorem sound_blank (checks : Bool) (rank : Fin n) (machine : Machine) :
    (blank machine).seat.Sound checks rank :=
  ⟨nofun, nofun, fun _ h => nomatch h⟩

/-- All ranks hand in the same words, and if they are given back those each acts as on its own. -/
theorem completes_script (hash : CopyTerms → UInt64) {checks : Bool} {rank : Fin n} (steps : List (Step n)) {log : Log}
    (sound : log.seat.Sound checks rank) :
    Completes n (script hash checks rank steps log) (words hash checks steps log.seat.faces)
      (actAll checks rank steps log) := by
  induction steps generalizing log with
  | nil => exact ⟨[], .done _ _, fun _ _ => rfl⟩
  | cons step steps ih =>
    have next (after : Log) (h : log.add (step.act checks rank log.seat) = .ok after) :
        Completes n (script hash checks rank steps after) (words hash checks steps (step.reface log.seat.faces))
          (actAll checks rank steps after) := by
      obtain ⟨later, hfaces⟩ := step.act_spec sound (Log.add_eq_ok h)
      exact hfaces ▸ ih later
    rw [script, words, actAll]
    rcases step.run_cases hash sound with ⟨hword, hrun⟩ | ⟨word, resume, hword, hrun, hresume⟩
    · rw [hword, hrun]
      exact completes_next next
    · rw [hword, hrun]
      obtain ⟨left, settles, all⟩ := completes_next next
      refine ⟨left, .gather ?_, all⟩
      rw [hresume]
      exact settles

section Session

variable {hash : CopyTerms → UInt64} {checks : Bool} {machines : Fin n → Machine} {steps : List (Step n)}
  {logs : Fin n → Log}

theorem completes_session (hash : CopyTerms → UInt64) (checks : Bool) (machines : Fin n → Machine)
    (steps : List (Step n)) (rank : Fin n) : Completes n (session hash checks machines steps rank)
      (words hash checks steps fun _ => none) (actAll checks rank steps (blank (machines rank))) :=
  completes_script hash steps (sound_blank checks rank (machines rank))

/-- Ranks that no trap stops hand in all words of the program. -/
theorem settles_session (hash : CopyTerms → UInt64)
    (acted : ∀ rank, actAll checks rank steps (blank (machines rank)) = .ok (logs rank)) (rank : Fin n) :
    (session hash checks machines steps rank).Settles n (words hash checks steps fun _ => none) []
      (.ok (logs rank)) := by
  obtain ⟨left, settles, all⟩ := completes_session hash checks machines steps rank
  obtain rfl := all _ (acted rank)
  exact acted rank ▸ settles

/-- A program leads under every schedule to what each rank makes of it on its own. -/
theorem reachable_iff : Reachable hash checks machines steps logs ↔
    ∀ rank, actAll checks rank steps (blank (machines rank)) = .ok (logs rank) := by
  constructor
  · rintro ⟨moves, world, history, run, stay, ended⟩ rank
    choose left settles _ using completes_session hash checks machines steps
    exact (run.result_of_settles stay settles (ended rank)).symm
  · intro acted
    have settles := settles_session hash acted
    obtain ⟨moves, world, history, run, stay, ended⟩ :=
      World.Run.exists_ended .start nofun fun run stay => run.paced_of_settles stay settles
    refine ⟨moves, world, history, run, stay, fun rank => ?_⟩
    obtain ⟨result, hresult⟩ := ended rank
    rw [hresult, run.result_of_settles stay settles hresult]

/-- What the ranks have after a program is sound, and what all know is the same. -/
theorem Reachable.sound (reachable : Reachable hash checks machines steps logs) :
    (∀ rank, (logs rank).seat.Sound checks rank) ∧
      ∀ rank other, (logs rank).seat.faces = (logs other).seat.faces := by
  have all (rank : Fin n) := actAll_spec steps (sound_blank checks rank (machines rank))
    (reachable_iff.mp reachable rank)
  exact ⟨fun rank => (all rank).1, fun rank other => (all rank).2.trans (all other).2.symm⟩

end Session

end Fleet

end ArrayEngine
