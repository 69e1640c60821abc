import ArrayEngine.Grid.DistTensor
import ArrayEngine.Proofs.Tensor.Change

/-! Changes of the layout of a distributed tensor, which are changes of the layout of its share. -/
namespace ArrayEngine

namespace DistTensor

/-- The tensor with another global layout and the share of it. -/
def relaid (tensor : DistTensor) (shape : List Nat) (dimTypes : List DimType)
    (distribution : List Distribution) (share : Tensor) : DistTensor :=
  { tensor with shape, dimTypes, distribution, share }

/-- The tensor with another share. -/
def withShare (tensor : DistTensor) (share : Tensor) : DistTensor := { tensor with share }

theorem onShare_apply {α : Type} (change : Update α) (tensor : DistTensor) (machine : Machine) :
    onShare change (tensor, machine) =
      match change (tensor.share, machine) with
      | .ok a (share, later) => .ok a (tensor.withShare share, later)
      | .error cause (share, later) => .error (cause.map .tensor) (tensor.withShare share, later) := by
  rw [onShare, adaptErrors, zoom]
  cases change (tensor.share, machine) <;> rfl

/-- Strides of the share that were not asked for are packed, and others must be. -/
def mayKeep (share : List Nat) (shareStrides? : Option (List Nat)) : Except Trap Bool :=
  shareStrides?.elim (.ok true) (Layout.isPacked share)

private theorem onShare_resize_apply (shape : List Nat) (dimTypes : List DimType)
    (distribution : List Distribution) (share : List Nat) (tensor : DistTensor) (machine : Machine) :
    (onShare (Tensor.resize share dimTypes none) >>= fun _ =>
        modify fun (tensor, machine) => ({ tensor with shape, dimTypes, distribution }, machine) :
          DistUpdate Unit) (tensor, machine) =
      match Tensor.resize share dimTypes none (tensor.share, machine) with
      | .ok _ (share, later) => .ok () (tensor.relaid shape dimTypes distribution share, later)
      | .error cause (share, later) =>
        .error (cause.map .tensor) (tensor.withShare share, later) := by
  rw [bind_apply, onShare_apply]
  cases Tensor.resize share dimTypes none (tensor.share, machine) <;> rfl

theorem resizeWith_apply (shape : List Nat) (dimTypes : List DimType)
    (distribution : List Distribution) (shareStrides? : Option (List Nat)) (tensor : DistTensor)
    (machine : Machine) :
    resizeWith shape dimTypes distribution shareStrides? (tensor, machine) =
      if distribution.length ≠ shape.length ∨ tensor.grid.shape.length ≠ shape.length then
        .error (.error (.distribution shape.length distribution.length tensor.grid.shape.length))
          (tensor, machine)
      else
        match shareShape tensor.grid shape distribution with
        | .error trap => .error (.trap trap) (tensor, machine)
        | .ok share =>
          match mayKeep share shareStrides? with
          | .error trap => .error (.trap trap) (tensor, machine)
          | .ok false => .error (.error .unsupportedNonContiguous) (tensor, machine)
          | .ok true =>
            match Tensor.resize share dimTypes none (tensor.share, machine) with
            | .ok _ (share, later) =>
              .ok () (tensor.relaid shape dimTypes distribution share, later)
            | .error cause (share, later) =>
              .error (cause.map .tensor) (tensor.withShare share, later) := by
  rw [resizeWith]
  change (if distribution.length ≠ shape.length ∨ tensor.grid.shape.length ≠ shape.length then _
    else _ : DistUpdate Unit) (tensor, machine) = _
  split
  · rfl
  · change (monadLift (shareShape tensor.grid shape distribution) >>= _ : DistUpdate Unit)
      (tensor, machine) = _
    rw [bind_apply]
    cases shareShape tensor.grid shape distribution with
    | error trap => rfl
    | ok share =>
      have resized := onShare_resize_apply shape dimTypes distribution share tensor machine
      cases shareStrides? with
      | none => exact resized
      | some strides =>
        change (monadLift (Layout.isPacked share strides) >>= _ : DistUpdate Unit)
          (tensor, machine) = _
        have hkeep : mayKeep share (some strides) = Layout.isPacked share strides := rfl
        rw [bind_apply]
        dsimp only
        rw [hkeep]
        cases Layout.isPacked share strides with
        | error trap => rfl
        | ok packed =>
          cases packed with
          | false => rfl
          | true => exact resized

/-- A layout change that succeeds gives the share its part of the global shape, packed. -/
theorem layout_of_resizeWith {shape : List Nat} {dimTypes : List DimType}
    {distribution : List Distribution} {shareStrides? : Option (List Nat)}
    {tensor now : DistTensor} {machine later : Machine}
    (h : resizeWith shape dimTypes distribution shareStrides? (tensor, machine) =
      .ok () (now, later)) :
    now.grid = tensor.grid ∧ now.shape = shape ∧ now.dimTypes = dimTypes ∧
      now.distribution = distribution ∧ distribution.length = shape.length ∧
      tensor.grid.shape.length = shape.length ∧
      shareShape tensor.grid shape distribution = .ok now.share.shape ∧
      now.share.dimTypes = dimTypes ∧
      Layout.packedStrides now.share.shape = .ok now.share.strides := by
  rw [resizeWith_apply] at h
  split at h
  · cases h
  · next haxes =>
    obtain ⟨hdistribution, hgrid⟩ := not_or.mp haxes
    cases hshare : shareShape tensor.grid shape distribution with
    | error trap => simp [hshare] at h
    | ok share =>
      cases hkeep : mayKeep share shareStrides? with
      | error trap => simp [hshare, hkeep] at h
      | ok keep =>
        cases keep with
        | false => simp [hshare, hkeep] at h
        | true =>
          simp only [hshare, hkeep] at h
          cases hresize : Tensor.resize share dimTypes none (tensor.share, machine) with
          | error cause state => simp [hresize] at h
          | ok _ state =>
            rw [hresize] at h
            cases h
            obtain ⟨hshape, htypes, hstrides⟩ := Tensor.layout_of_resize hresize
            refine ⟨rfl, rfl, rfl, rfl, Decidable.not_not.mp hdistribution,
              Decidable.not_not.mp hgrid, congrArg _ hshape.symm, htypes, ?_⟩
            change Layout.packedStrides state.1.shape = .ok state.1.strides
            rw [hshape]
            exact Tensor.stridesFor_none.mp hstrides

end DistTensor

end ArrayEngine
