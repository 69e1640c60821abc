import ArrayEngine.Proofs.Grid.Sound
import ArrayEngine.Proofs.Layout.Order

/-! Changes of the layout of a distributed tensor with strides that are asked for its share. Only packed ones are
taken, axes of extent 1 apart, and they come to the same as none. -/
namespace ArrayEngine.DistTensor

variable {tensor now : DistTensor} {machine later : Machine} {shape strides : List Nat} {dimTypes : List DimType}
  {distribution : List Distribution}

/-- Where a change of the layout succeeds, strides that are asked for are either without effect or refused. -/
theorem resizeWith_of_resize (plain : resize shape dimTypes distribution (tensor, machine) = .ok () (now, later))
    {packed : Bool} (hpacked : Layout.isPacked now.share.shape strides = .ok packed) :
    resizeWith shape dimTypes distribution (some strides) (tensor, machine) =
      if packed then .ok () (now, later) else .error (.error .unsupportedNonContiguous) (tensor, machine) := by
  obtain ⟨-, -, -, -, hdistribution, hgrid, hshare, -⟩ := layout_of_resizeWith plain
  have axes : ¬(distribution.length ≠ shape.length ∨ tensor.grid.shape.length ≠ shape.length) :=
    not_or.mpr ⟨not_not_intro hdistribution, not_not_intro hgrid⟩
  have hkeep : mayKeep now.share.shape (some strides) = .ok packed := hpacked
  rw [resize, resizeWith_apply, if_neg axes, hshare] at plain
  rw [resizeWith_apply, if_neg axes, hshare]
  dsimp only
  rw [hkeep]
  cases packed with
  | false => rfl
  | true => exact plain

/-- A change of the layout that succeeds, and the same change with one stride for every axis of the share. It comes
to the same if the strides are the packed ones along all axes of the share but those of extent 1. If they are not,
it is refused, and nothing is changed. For a share with elements this means that the strides put every element where
packed strides put it; for one without, the strides are compared all the same. -/
theorem resize_with_share_strides
    (plain : resize shape dimTypes distribution (tensor, machine) = .ok () (now, later))
    (same : strides.length = shape.length) :
    shareShape tensor.grid shape distribution = .ok now.share.shape ∧
    Layout.packedStrides now.share.shape = .ok now.share.strides ∧
    (Layout.Agree now.share.shape strides now.share.strides →
      resizeWith shape dimTypes distribution (some strides) (tensor, machine) = .ok () (now, later)) ∧
    (¬Layout.Agree now.share.shape strides now.share.strides →
      resizeWith shape dimTypes distribution (some strides) (tensor, machine) =
        .error (.error .unsupportedNonContiguous) (tensor, machine)) ∧
    ∀ elements, now.share.numel = .ok elements → 0 < elements →
      (Layout.Agree now.share.shape strides now.share.strides ↔
        ∀ index, Layout.inShape index now.share.shape = true → ∃ place,
          Layout.offset index strides = .ok place ∧ Layout.offset index now.share.strides = .ok place) := by
  obtain ⟨-, -, -, -, hdistribution, hgrid, hshare, -, hpacked⟩ := layout_of_resizeWith plain
  have hlength : strides.length = now.share.shape.length :=
    same.trans (length_of_shareShape hshare hdistribution hgrid).symm
  obtain ⟨decided, hdecided, hagree⟩ := Layout.isPackedFrom_iff_agree hpacked hlength
  have hresize := resizeWith_of_resize plain hdecided
  refine ⟨hshare, hpacked, fun agree => ?_, fun differ => ?_, fun elements hnumel pos => ?_⟩
  · rw [hresize, if_pos (hagree.mpr agree)]
  · rw [hresize, if_neg (mt hagree.mp differ)]
  · rw [← Layout.isPacked_iff_offsets hpacked hlength hnumel pos, ← hagree]
    exact ⟨fun h => h ▸ hdecided, fun h => Except.ok.inj (hdecided.symm.trans h)⟩

/-- A tensor without axes on two ranks below each other. -/
def unshaped (rank : Nat) : DistTensor :=
  ⟨[], [], ⟨⟨rank, [0, 1], true, false⟩, [2, 1]⟩, [], Tensor.blank .f32 .cpu true⟩

/-- One row of three numbers on each of the two ranks. Along the rows nothing moves, and any stride will do. -/
theorem resize_with_share_strides_row : ∃ now,
    resizeWith [2, 3] [.any, .any] [.block, .block] (some [7, 1]) (unshaped 1, .initial) = .ok () (now, .initial) ∧
    now.share.shape = [1, 3] ∧ now.share.strides = [1, 1] ∧
    resizeWith [2, 3] [.any, .any] [.block, .block] (some [1, 2]) (unshaped 1, .initial) =
      .error (.error .unsupportedNonContiguous) (unshaped 1, .initial) := by
  have plain : resize [2, 3] [.any, .any] [.block, .block] (unshaped 1, .initial) = .ok () (_, .initial) := rfl
  have agree : Layout.Agree [1, 3] [7, 1] [1, 1] :=
    Layout.agree_cons.mpr ⟨nofun, Layout.agree_cons.mpr ⟨fun _ => rfl, nofun⟩⟩
  have differ : ¬Layout.Agree [1, 3] [1, 2] [1, 1] := fun agree => by
    cases agree 1 3 rfl (by decide)
  obtain ⟨-, -, accepted, -⟩ := resize_with_share_strides plain (rfl : [7, 1].length = _)
  obtain ⟨-, -, -, refused, -⟩ := resize_with_share_strides plain (rfl : [1, 2].length = _)
  exact ⟨_, accepted agree, rfl, rfl, refused differ⟩

/-- One row on two ranks, with the same strides asked for on both. The first rank has the row, along which they are
packed. The second one has no elements, for which they could be anything, but is refused what plain strides give. -/
theorem strides_of_no_elements_refused : ∃ row none,
    resizeWith [1, 2] [.any, .any] [.block, .block] (some [1, 1]) (unshaped 0, .initial) = .ok () (row, .initial) ∧
    resize [1, 2] [.any, .any] [.block, .block] (unshaped 1, .initial) = .ok () (none, .initial) ∧
    none.share.shape = [0, 2] ∧ none.share.numel = .ok 0 ∧ none.share.ownership = .exclusive ∧
    resizeWith [1, 2] [.any, .any] [.block, .block] (some [1, 1]) (unshaped 1, .initial) =
      .error (.error .unsupportedNonContiguous) (unshaped 1, .initial) :=
  ⟨_, _, rfl, rfl, rfl, rfl, rfl, rfl⟩

end ArrayEngine.DistTensor
