import ArrayEngine.Proofs.Grid.Resize
import ArrayEngine.Proofs.Tensor.Contents

/-! What holds of every distributed tensor on the host: its share is its part of the global shape, packed.
All changes of a layout end in the same way on every rank. -/
namespace ArrayEngine

namespace Grid

theorem length_of_digits {shape coords : List Nat} {rank : Nat} (h : digits shape rank = .ok coords) :
    coords.length = shape.length := by
  induction shape generalizing rank coords with
  | nil =>
    cases h
    rfl
  | cons n shape ih =>
    rw [digits] at h
    split at h
    · cases h
    · obtain ⟨rest, hrest, h⟩ := except_bind_eq_ok.mp h
      cases h
      rw [List.length_cons, List.length_cons, ih hrest]

end Grid

namespace DistTensor

theorem length_of_intervals {shape gridShape coords : List Nat} {distribution : List Distribution}
    {ranges : List Interval} (h : intervals shape distribution gridShape coords = .ok ranges)
    (hdistribution : distribution.length = shape.length) (hgrid : gridShape.length = shape.length)
    (hcoords : coords.length = shape.length) : ranges.length = shape.length := by
  induction shape generalizing distribution gridShape coords ranges with
  | nil =>
    cases h
    rfl
  | cons n shape ih =>
    rcases distribution with _ | ⟨d, distribution⟩
    · cases hdistribution
    rcases gridShape with _ | ⟨procs, gridShape⟩
    · cases hgrid
    rcases coords with _ | ⟨coord, coords⟩
    · cases hcoords
    rw [intervals] at h
    obtain ⟨range, _, h⟩ := except_bind_eq_ok.mp h
    obtain ⟨rest, hrest, h⟩ := except_bind_eq_ok.mp h
    cases h
    exact congrArg _ (ih hrest (Nat.succ.inj hdistribution) (Nat.succ.inj hgrid) (Nat.succ.inj hcoords))

/-- The share has as many axes as the array. -/
theorem length_of_shareShape {grid : Grid} {shape share : List Nat} {distribution : List Distribution}
    (h : shareShape grid shape distribution = .ok share)
    (hdistribution : distribution.length = shape.length)
    (hgrid : grid.shape.length = shape.length) : share.length = shape.length := by
  rw [shareShape] at h
  obtain ⟨coords, hcoords, h⟩ := except_bind_eq_ok.mp h
  obtain ⟨ranges, hranges, h⟩ := except_bind_eq_ok.mp h
  cases h
  rw [List.length_map]
  exact length_of_intervals hranges hdistribution hgrid ((Grid.length_of_digits hcoords).trans hgrid)

/-- The layout of a share follows from the global one. -/
structure IsLaid (tensor : DistTensor) : Prop where
  share : shareShape tensor.grid tensor.shape tensor.distribution = .ok tensor.share.shape
  strides : Layout.packedStrides tensor.share.shape = .ok tensor.share.strides
  dimTypes : tensor.share.dimTypes = tensor.dimTypes
  axes : tensor.shape = [] ∨ tensor.distribution.length = tensor.shape.length ∧
    tensor.grid.shape.length = tensor.shape.length

/-- A distributed tensor on the host between two operations. -/
structure IsSound (tensor : DistTensor) (machine : Machine) : Prop where
  laid : tensor.IsLaid
  share : tensor.share.Sound machine
  host : tensor.share.OnHost machine

/-- A distributed tensor on a machine, and what becomes of them. -/
structure ChangesTo (before after : DistTensor × Machine) : Prop where
  grid : after.1.grid = before.1.grid
  share : Tensor.ChangesTo (before.1.share, before.2) (after.1.share, after.2)

theorem ChangesTo.refl (state : DistTensor × Machine) : ChangesTo state state := ⟨rfl, .refl _⟩

theorem ChangesTo.trans {first second third : DistTensor × Machine} (h : ChangesTo first second)
    (k : ChangesTo second third) : ChangesTo first third :=
  ⟨k.grid.trans h.grid, h.share.trans k.share⟩

instance : Std.Refl ChangesTo := ⟨ChangesTo.refl⟩

instance : IsTrans (DistTensor × Machine) ChangesTo := ⟨fun _ _ _ => ChangesTo.trans⟩

/-- A change of the share keeps what it keeps of the share. -/
theorem evolving_onShare {α : Type} {change : Update α} {kept : Tensor × Machine → Tensor × Machine → Prop}
    (h : Evolving kept change) :
    Evolving (fun s t : DistTensor × Machine => t.1 = s.1.withShare t.1.share ∧
      kept (s.1.share, s.2) (t.1.share, t.2)) (onShare change) := by
  rintro ⟨tensor, machine⟩ state ends
  have changed := h (tensor.share, machine)
  rw [onShare_apply] at ends
  cases hchange : change (tensor.share, machine) with
  | ok a next =>
    rw [hchange] at ends changed
    cases ends
    exact ⟨rfl, changed next rfl⟩
  | error cause next =>
    rw [hchange] at ends changed
    cases cause with
    | trap cause => cases ends
    | error cause =>
      cases ends
      exact ⟨rfl, changed next rfl⟩

variable {tensor : DistTensor} {machine : Machine} {state : DistTensor × Machine}
  {shape : List Nat} {dimTypes : List DimType} {distribution : List Distribution}

theorem isLaid_emptied (h : tensor.IsLaid) : tensor.emptied.IsLaid := by
  refine ⟨?_, rfl, rfl, .inl rfl⟩
  have hshare := h.share
  rw [shareShape] at hshare
  obtain ⟨coords, hcoords, _⟩ := except_bind_eq_ok.mp hshare
  rw [shareShape]
  change (tensor.grid.coords >>= _) = _
  rw [hcoords]
  rfl

theorem IsSound.emptied (sound : tensor.IsSound machine) : tensor.emptied.IsSound machine :=
  ⟨isLaid_emptied sound.laid, Tensor.sound_emptied _ _, sound.host.emptied⟩

/-- The numbers of axes fit together. -/
def Accepts (gridShape shape : List Nat) (dimTypes : List DimType) (distribution : List Distribution) :
    Prop :=
  distribution.length = shape.length ∧ gridShape.length = shape.length ∧
    dimTypes.length = shape.length

instance (gridShape shape : List Nat) (dimTypes : List DimType) (distribution : List Distribution) :
    Decidable (Accepts gridShape shape dimTypes distribution) :=
  inferInstanceAs (Decidable (_ ∧ _ ∧ _))

/-- Why the layout of a tensor on a grid may not be changed to another one. -/
def refusal (gridShape shape : List Nat) (dimTypes : List DimType) (distribution : List Distribution) :
    DistError :=
  if distribution.length ≠ shape.length ∨ gridShape.length ≠ shape.length then
    .distribution shape.length distribution.length gridShape.length
  else .tensor (.rank shape.length dimTypes.length)

/-- A change of the layout of a tensor with a share of its own is made if the numbers of axes fit together,
and else nothing is changed, provided that strides asked for are those of the packed share. -/
theorem resizeWith_cases {shareStrides? : Option (List Nat)} (owned : tensor.share.isView = false)
    (keep : ∀ share, shareShape tensor.grid shape distribution = .ok share →
      mayKeep share shareStrides? = .ok true)
    (ends : EndsAt (resizeWith shape dimTypes distribution shareStrides? (tensor, machine)) state) :
    (∃ share later, Accepts tensor.grid.shape shape dimTypes distribution ∧
      resizeWith shape dimTypes distribution shareStrides? (tensor, machine) = .ok () state ∧
      state = (tensor.relaid shape dimTypes distribution share, later) ∧
      Tensor.ChangesTo (tensor.share, machine) (share, later)) ∨
    ¬Accepts tensor.grid.shape shape dimTypes distribution ∧ state = (tensor, machine) ∧
      resizeWith shape dimTypes distribution shareStrides? (tensor, machine) =
        .error (.error (refusal tensor.grid.shape shape dimTypes distribution)) state := by
  have happly := resizeWith_apply shape dimTypes distribution shareStrides? tensor machine
  by_cases haxes : distribution.length ≠ shape.length ∨ tensor.grid.shape.length ≠ shape.length
  · rw [if_pos haxes] at happly
    rw [happly] at ends
    cases ends
    refine .inr ⟨fun accepts => haxes.elim (fun h => h accepts.1) fun h => h accepts.2.1, rfl, ?_⟩
    rw [happly, refusal, if_pos haxes]
  · rw [if_neg haxes] at happly
    obtain ⟨hdistribution, hgrid⟩ := not_or.mp haxes
    cases hshare : shareShape tensor.grid shape distribution with
    | error trap =>
      rw [happly, hshare] at ends
      cases ends
    | ok share =>
      have hlength : share.length = shape.length :=
        length_of_shareShape hshare (Decidable.not_not.mp hdistribution) (Decidable.not_not.mp hgrid)
      simp only [hshare, keep share hshare] at happly
      cases hresize : Tensor.resize share dimTypes none (tensor.share, machine) with
      | ok _ next =>
        simp only [hresize] at happly
        rw [happly] at ends
        have htypes : dimTypes.length = share.length := by
          by_contra hrank
          rw [Tensor.resize_apply, if_pos hrank] at hresize
          cases hresize
        cases ends
        exact .inl ⟨next.1, next.2, ⟨Decidable.not_not.mp hdistribution, Decidable.not_not.mp hgrid,
          htypes.trans hlength⟩, happly, rfl, Tensor.evolving_resize _ _ _ _ _ (.of_ok hresize)⟩
      | error cause next =>
        simp only [hresize] at happly
        rw [happly] at ends
        cases cause with
        | trap trap => cases ends
        | error cause =>
          obtain ⟨rfl, ⟨htypes, rfl⟩ | ⟨_, hnone, _⟩⟩ := Tensor.resize_error_of_owned owned hresize
          · cases ends
            refine .inr ⟨fun accepts => htypes (accepts.2.2.trans hlength.symm), rfl, ?_⟩
            rw [happly, refusal, if_neg haxes, hlength]
            rfl
          · cases hnone

/-- A tensor without axes on a grid. -/
def blank (dtype : TypeInfo) (grid : Grid) (stream : Stream) (isLazy : Bool) : DistTensor :=
  ⟨[], [], grid, [], Tensor.blank dtype stream isLazy⟩

/-- A new tensor is a blank one that was given its layout. It is refused if the numbers of axes do not fit
together. -/
theorem create_cases (dtype : TypeInfo) (grid : Grid) (shape : List Nat) (dimTypes : List DimType)
    (distribution : List Distribution) (stream : Stream) (isLazy : Bool) (machine : Machine) :
    (∃ trap later, create dtype grid shape dimTypes distribution stream isLazy machine =
      .error (.trap trap) later) ∨
    (∃ share later, Accepts grid.shape shape dimTypes distribution ∧
      create dtype grid shape dimTypes distribution stream isLazy machine =
        .ok ((blank dtype grid stream isLazy).relaid shape dimTypes distribution share) later ∧
      resizeWith shape dimTypes distribution none (blank dtype grid stream isLazy, machine) =
        .ok () ((blank dtype grid stream isLazy).relaid shape dimTypes distribution share, later) ∧
      Tensor.ChangesTo (Tensor.blank dtype stream isLazy, machine) (share, later)) ∨
    ¬Accepts grid.shape shape dimTypes distribution ∧
      create dtype grid shape dimTypes distribution stream isLazy machine =
        .error (.error (refusal grid.shape shape dimTypes distribution)) machine := by
  have cases_of {state : DistTensor × Machine} := @resizeWith_cases (blank dtype grid stream isLazy) machine
    state shape dimTypes distribution none rfl fun _ _ => rfl
  have hblank : resize shape dimTypes distribution (⟨[], [], grid, [], Tensor.blank dtype stream isLazy⟩, machine) =
      resizeWith shape dimTypes distribution none (blank dtype grid stream isLazy, machine) := rfl
  simp only [create, hblank]
  cases hresize : resizeWith shape dimTypes distribution none (blank dtype grid stream isLazy, machine) with
  | ok _ state =>
    obtain ⟨share, later, accepts, _, rfl, changed⟩ | ⟨_, _, herror⟩ := cases_of (.of_ok hresize)
    · exact .inr (.inl ⟨share, later, accepts, rfl, rfl, changed⟩)
    · cases hresize.symm.trans herror
  | error cause state =>
    cases cause with
    | trap trap => exact .inl ⟨trap, state.2, rfl⟩
    | error cause =>
      have ended : EndsAt (resizeWith shape dimTypes distribution none
          (blank dtype grid stream isLazy, machine)) state := by
        rw [hresize]
        exact rfl
      obtain ⟨_, _, _, hok, _⟩ | ⟨refused, rfl, herror⟩ := cases_of ended
      · cases hresize.symm.trans hok
      · cases hresize.symm.trans herror
        exact .inr (.inr ⟨refused, rfl⟩)

/-- A change of the layout of a tensor with a share of its own is made, or nothing is changed. -/
theorem resizeWith_ends {shareStrides? : Option (List Nat)} (owned : tensor.share.isView = false)
    (ends : EndsAt (resizeWith shape dimTypes distribution shareStrides? (tensor, machine)) state) :
    state = (tensor, machine) ∨ ∃ share later, Accepts tensor.grid.shape shape dimTypes distribution ∧
      resizeWith shape dimTypes distribution shareStrides? (tensor, machine) = .ok () state ∧
      state = (tensor.relaid shape dimTypes distribution share, later) ∧
      Tensor.ChangesTo (tensor.share, machine) (share, later) := by
  by_cases keep : ∀ share, shareShape tensor.grid shape distribution = .ok share →
      mayKeep share shareStrides? = .ok true
  · exact (resizeWith_cases owned keep ends).symm.imp (fun refused => refused.2.1) id
  · -- Other strides than packed ones are refused before anything is changed.
    simp only [not_forall] at keep
    obtain ⟨share, hshare, hkeep⟩ := keep
    rw [resizeWith_apply] at ends
    split at ends
    · exact .inl (Eq.symm ends)
    · cases hpacked : mayKeep share shareStrides? with
      | error trap =>
        simp only [hshare, hpacked] at ends
        cases ends
      | ok packed =>
        cases packed with
        | true => exact absurd hpacked hkeep
        | false =>
          simp only [hshare, hpacked] at ends
          exact .inl (Eq.symm ends)

/-- A layout that was given is that of a share as well. -/
theorem IsLaid.of_resizeWith {shareStrides? : Option (List Nat)} {now : DistTensor} {later : Machine}
    (h : resizeWith shape dimTypes distribution shareStrides? (tensor, machine) = .ok () (now, later)) :
    now.IsLaid := by
  obtain ⟨hgrid, hshape, htypes, hdist, hdistribution, hrank, hshare, hshareTypes, hstrides⟩ :=
    layout_of_resizeWith h
  refine ⟨?_, hstrides, hshareTypes.trans htypes.symm, .inr ⟨?_, ?_⟩⟩
  · rw [hgrid, hshape, hdist]
    exact hshare
  · rw [hshape, hdist]
    exact hdistribution
  · rw [hgrid, hshape]
    exact hrank

theorem IsSound.of_resizeWith {shareStrides? : Option (List Nat)} {now : DistTensor} {later : Machine}
    (sound : tensor.IsSound machine)
    (h : resizeWith shape dimTypes distribution shareStrides? (tensor, machine) = .ok () (now, later))
    (changed : Tensor.ChangesTo (tensor.share, machine) (now.share, later)) : now.IsSound later :=
  ⟨.of_resizeWith h, changed.sound sound.share, changed.host sound.host⟩

/-- The numbers of axes of a tensor fit together. -/
theorem IsSound.accepts (sound : tensor.IsSound machine) (h : tensor.shape ≠ []) :
    Accepts tensor.grid.shape tensor.shape tensor.dimTypes tensor.distribution := by
  rcases sound.laid.axes with hnil | ⟨hdistribution, hgrid⟩
  · exact absurd hnil h
  · refine ⟨hdistribution, hgrid, ?_⟩
    rw [← sound.laid.dimTypes, sound.share.dimTypes]
    exact length_of_shareShape sound.laid.share hdistribution hgrid

/-- The share follows from the shape of the grid and the rank. -/
theorem shareShape_congr {grid other : Grid} (hshape : grid.shape = other.shape)
    (hrank : grid.rank = other.rank) (shape : List Nat) (distribution : List Distribution) :
    shareShape grid shape distribution = shareShape other shape distribution := by
  rw [shareShape, shareShape, Grid.coords, Grid.coords, Grid.coordsOf, Grid.coordsOf, hshape, hrank]

/-- What all ranks know of a distributed tensor. -/
structure Face where
  shape : List Nat
  dimTypes : List DimType
  distribution : List Distribution
  gridShape : List Nat
  dtype : TypeInfo

def face (tensor : DistTensor) : Face :=
  ⟨tensor.shape, tensor.dimTypes, tensor.distribution, tensor.grid.shape, tensor.share.dtype⟩

namespace Face

def emptied (face : Face) : Face := { face with shape := [], dimTypes := [], distribution := [] }

/-- The layout of `src` on the grid of `dst`. -/
def relaid (dst src : Face) : Face := { src with gridShape := dst.gridShape, dtype := dst.dtype }

/-- What a change of the layout makes of it. -/
def resized (face : Face) (shape : List Nat) (dimTypes : List DimType)
    (distribution : List Distribution) : Face :=
  if Accepts face.gridShape shape dimTypes distribution then { face with shape, dimTypes, distribution }
  else face

/-- What a copy makes of `dst`. -/
def copied (dst src : Face) : Face :=
  if Layout.numel src.shape = .ok 0 then dst.emptied
  else if src.dtype == dst.dtype then dst.relaid src
  else dst

end Face

end DistTensor

end ArrayEngine
