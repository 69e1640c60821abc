import ArrayEngine.Proofs.Grid.Layouts

/-! What congruent grids give a process: the same indices of every array if it has the same rank on both, and
else not. So a copy between them leaves the share of the target its own if the ranks are the same. -/
namespace ArrayEngine

namespace Grid

/-- The grid was arranged, and the process is one of its members. -/
structure IsPlaced (grid : Grid) : Prop where
  arranged : create grid.comm grid.shape = .ok grid
  member : grid.rank < grid.size

namespace IsPlaced

variable {grid : Grid} (placed : grid.IsPlaced)

include placed

theorem rank_lt : grid.rank < grid.shape.prod := (create_eq_ok placed.arranged).2 ▸ placed.member

theorem pos : ∀ n ∈ grid.shape, 0 < n := Layout.pos_of_prod_pos (Nat.zero_lt_of_lt placed.rank_lt)

theorem words : ∀ n ∈ grid.shape, n < wordLimit := by
  intro n hn
  have hproduct := (product_of_create placed.arranged).2
  have hsize : grid.shape.prod < wordLimit :=
    Layout.eq_of_product hproduct ▸ Layout.lt_of_foldlM_mul hproduct (by decide)
  exact Nat.lt_of_le_of_lt (Nat.le_of_dvd (Nat.zero_lt_of_lt placed.rank_lt) (List.dvd_prod hn)) hsize

end IsPlaced

end Grid

/-- In an array of the shape of the grid, split into blocks, each rank holds the one element at its place. -/
theorem heldBy_block (gridShape : List Nat) (pos : ∀ n ∈ gridShape, 0 < n) (rank : Nat) :
    heldBy gridShape (gridShape.map fun _ => .block) gridShape rank =
      (Grid.place gridShape rank).map fun coord => ⟨coord, coord + 1⟩ := by
  induction gridShape generalizing rank with
  | nil => rfl
  | cons n gridShape ih =>
    have rest := ih (fun m hm => pos m (by simp [hm])) (rank / n)
    have first : Axis.held ⟨n, .block, n⟩ (rank % n) = ⟨rank % n, rank % n + 1⟩ := by
      simp [Axis.held, Nat.div_self (pos n (by simp))]
    rw [heldBy] at rest ⊢
    rw [List.map_cons, axesOf, Grid.place, List.zipWith_cons_cons, rest, first, List.map_cons]

namespace DistTensor

variable {dst src now : DistTensor} {machine later : Machine} {a b : Grid}

/-- The array as it is split over another grid. -/
def onGrid (tensor : DistTensor) (grid : Grid) : DistTensor := { tensor with grid }

/-- The shape of the share is what the grid of the tensor gives this process. -/
def HasOwnShare (tensor : DistTensor) : Prop :=
  shareShape tensor.grid tensor.shape tensor.distribution = .ok tensor.share.shape

theorem globalIndices_congr (hshape : a.shape = b.shape) (hrank : a.rank = b.rank) (tensor : DistTensor)
    (axis : Nat) : (tensor.onGrid a).globalIndices axis = (tensor.onGrid b).globalIndices axis := by
  simp only [globalIndices, onGrid, Grid.coords, Grid.coordsOf, hshape, hrank]

/-- An array of one element for each rank tells the ranks apart. -/
theorem rank_eq_of_globalIndices (placed : a.IsPlaced) (placedToo : b.IsPlaced) (hshape : a.shape = b.shape)
    (tensor : DistTensor) (hs : tensor.shape = a.shape) (hd : tensor.distribution = a.shape.map fun _ => .block)
    (same : ∀ axis < a.shape.length,
      (tensor.onGrid a).globalIndices axis = (tensor.onGrid b).globalIndices axis) : a.rank = b.rank := by
  have held (grid : Grid) (hgrid : grid.shape = a.shape) : (tensor.onGrid grid).ranges =
      .ok ((Grid.place a.shape grid.rank).map fun coord => ⟨coord, coord + 1⟩) := by
    have hshape : (tensor.onGrid grid).shape = a.shape := hs
    rw [ranges_eq_ok hshape hd hgrid placed.pos placed.words rfl (List.length_map _),
      heldBy_block _ placed.pos]
    rfl
  have hranges : (tensor.onGrid a).ranges = (tensor.onGrid b).ranges := by
    refine mapM_congr fun axis haxis => same axis ?_
    exact hs ▸ List.mem_range.mp haxis
  rw [held a rfl, held b hshape.symm] at hranges
  have injective : Function.Injective fun coord : Nat => (⟨coord, coord + 1⟩ : Interval) :=
    fun _ _ h => congrArg Interval.start h
  exact Grid.eq_of_place_eq placed.rank_lt (hshape ▸ placedToo.rank_lt)
    (List.map_injective_iff.mpr injective (Except.ok.inj hranges))

/-- A share is left as it is, or it takes the layout of the share of the source. -/
theorem shape_of_fillShare {tensor : DistTensor}
    (h : fillShare src (tensor, machine) = .ok () (now, later)) :
    now = tensor ∨ ∃ share, now = tensor.withShare share ∧ share.shape = src.share.shape := by
  change (monadLift src.isShareEmpty >>= _ : DistUpdate Unit) (tensor, machine) = _ at h
  rw [bind_apply] at h
  cases hempty : src.isShareEmpty with
  | error trap =>
    rw [hempty] at h
    cases h
  | ok empty =>
    rw [hempty] at h
    cases empty with
    | true =>
      cases h
      exact .inl rfl
    | false =>
      change (ensure >>= fun _ => onShare (Tensor.copyFrom src.share) : DistUpdate Unit)
        (tensor, machine) = _ at h
      rw [bind_apply, ensure, onShare_apply] at h
      cases hensure : Tensor.ensure (tensor.share, machine) with
      | error cause state =>
        rw [hensure] at h
        cases h
      | ok _ state =>
        simp only [hensure] at h
        rw [onShare_apply] at h
        cases hcopy : Tensor.copyFrom src.share ((tensor.withShare state.1).share, state.2) with
        | error cause next =>
          rw [hcopy] at h
          cases h
        | ok _ next =>
          rw [hcopy] at h
          cases h
          exact .inr ⟨next.1, rfl, (Tensor.layout_of_copyFrom hempty hcopy).1⟩

/-- The part of a copy that a rank does alone gives it its own share of the source, if it has the same rank on
both grids. -/
theorem hasOwnShare_of_copyShare (hshape : dst.grid.shape = src.grid.shape)
    (hrank : dst.grid.rank = src.grid.rank) (pos : ∀ n ∈ dst.grid.shape, 0 < n) (own : src.HasOwnShare)
    (h : copyShare src (dst, machine) = .ok () (now, later)) : now.grid = dst.grid ∧ now.HasOwnShare := by
  rw [copyShare_apply] at h
  split at h
  · cases h
  · cases h
    refine ⟨rfl, ?_⟩
    rw [HasOwnShare, shareShape]
    change (dst.grid.coords >>= _) = _
    rw [Grid.coords_eq_ok pos]
    rfl
  · split at h
    · rw [bind_apply] at h
      cases hresize : resizeWith src.shape src.dimTypes src.distribution (some src.share.strides)
          (dst, machine) with
      | error cause state =>
        rw [hresize] at h
        cases h
      | ok _ state =>
        obtain ⟨laid, grown⟩ := state
        rw [hresize] at h
        obtain ⟨hgrid, hlaid, _, hdistribution, _, _, hshare, _⟩ := layout_of_resizeWith hresize
        obtain rfl | ⟨share, rfl, hsame⟩ := shape_of_fillShare h
        · exact ⟨hgrid, by rw [HasOwnShare, hgrid, hlaid, hdistribution, hshare]⟩
        · refine ⟨hgrid, ?_⟩
          change shareShape laid.grid laid.shape laid.distribution = .ok share.shape
          rw [hgrid, hlaid, hdistribution, hsame, shareShape_congr hshape hrank]
          exact own
    · cases h

/-- A process of two congruent grids holds the same of every axis of every array on both exactly if it has the
same rank on both. If it has, and the share of the source of a copy is what the grid of the source gives it, then
the copy, if it succeeds, leaves the target with the share that the grid of the target gives it. -/
theorem ownShare_of_congruent (congruent : a.isCongruent b = true) (placed : a.IsPlaced)
    (placedToo : b.IsPlaced) :
    (a.rank = b.rank ↔ ∀ tensor : DistTensor, tensor.shape.length = a.shape.length →
      tensor.distribution.length = a.shape.length → (∀ n ∈ tensor.shape, n < wordLimit) →
      ∀ axis < a.shape.length, ∃ indices, (tensor.onGrid a).globalIndices axis = .ok indices ∧
        (tensor.onGrid b).globalIndices axis = .ok indices) ∧
    (a.rank = b.rank → ∀ hash dst src machine now later, dst.grid = a → src.grid = b → src.HasOwnShare →
      (copy hash dst src machine).Ends (.ok () (now, later)) → now.grid = a ∧ now.HasOwnShare) := by
  have hshape : a.shape = b.shape := eq_of_beq (Bool.and_eq_true_iff.mp congruent).1
  refine ⟨⟨fun hrank tensor hlength hdistribution words axis haxis => ?_, fun alike => ?_⟩, ?_⟩
  · have hranges : (tensor.onGrid a).ranges = .ok (heldBy tensor.shape tensor.distribution a.shape a.rank) :=
      ranges_eq_ok rfl rfl rfl placed.pos words hlength hdistribution
    have inside : (List.range (tensor.onGrid a).shape.length)[axis]? = some axis :=
      List.getElem?_range (Nat.lt_of_lt_of_eq haxis hlength.symm)
    obtain ⟨indices, hindices, _⟩ := getElem?_of_mapM hranges inside
    exact ⟨indices, hindices, globalIndices_congr hshape hrank tensor axis ▸ hindices⟩
  · let array : DistTensor := ⟨a.shape, [], a, a.shape.map fun _ => .block, Tensor.blank .f32 .cpu true⟩
    refine rank_eq_of_globalIndices placed placedToo hshape array rfl rfl fun axis haxis => ?_
    obtain ⟨_, hleft, hright⟩ := alike array rfl (List.length_map _) placed.words axis haxis
    exact hleft.trans hright.symm
  · rintro hrank hash dst src machine now later rfl rfl own ends
    obtain ⟨_, herror⟩ | ⟨_, hcopy⟩ := copy_ends ends
    · cases herror
    · exact hasOwnShare_of_copyShare hshape hrank placed.pos own hcopy.symm

/-- The first of two ranks. -/
def first : Grid := ⟨⟨0, [0, 1], true, false⟩, [2]⟩

private theorem exists_copied : ∃ dst src now machine grown later,
    create .f32 second [2] [.scalar] [.replicated] .cpu true .initial = .ok dst machine ∧
      create .f32 second [3] [.any] [.block] .cpu false machine = .ok src grown ∧
      dst.grid = second ∧ src.grid = second ∧ src.HasOwnShare ∧
      (copy CopyTerms.fingerprint dst src grown).Ends (.ok () (now, later)) ∧ now.shape = [3] ∧ now.share.shape = [1] :=
  ⟨_, _, _, _, _, _, rfl, rfl, rfl, rfl, rfl, .done _, rfl, rfl⟩

/-- The second of two ranks copies three numbers over two others, and is left with one number. -/
theorem ownShare_of_congruent_second : second.isCongruent second = true ∧ second.IsPlaced ∧
    ∃ dst src now machine grown later,
      create .f32 second [2] [.scalar] [.replicated] .cpu true .initial = .ok dst machine ∧
      create .f32 second [3] [.any] [.block] .cpu false machine = .ok src grown ∧ src.HasOwnShare ∧
      (copy CopyTerms.fingerprint dst src grown).Ends (.ok () (now, later)) ∧ now.shape = [3] ∧ now.share.shape = [1] ∧
      now.HasOwnShare := by
  have placed : second.IsPlaced := ⟨rfl, by decide⟩
  obtain ⟨_, kept⟩ := ownShare_of_congruent (a := second) (b := second) rfl placed placed
  obtain ⟨dst, src, now, machine, grown, later, hdst, hsrc, hgrid, hgridToo, own, ends, hshape, hshare⟩ :=
    exists_copied
  exact ⟨rfl, placed, dst, src, now, machine, grown, later, hdst, hsrc, own, ends, hshape, hshare,
    (kept rfl _ dst src grown now later hgrid hgridToo own ends).2⟩

/-- Both ranks of a world of two in one process: the grids are congruent, but the process holds other indices on
each. A copy from the second to the first succeeds and leaves the target with one number, where its own grid gives
it two. -/
theorem congruent_of_other_rank :
    first.isCongruent second = true ∧ first.IsPlaced ∧ second.IsPlaced ∧
    ∃ dst src now machine later, create .f32 first [3] [.any] [.block] .cpu false .initial = .ok dst machine ∧
      create .f32 second [3] [.any] [.block] .cpu false machine = .ok src later ∧
      (src.onGrid first).globalIndices 0 = .ok ⟨0, 2⟩ ∧ (src.onGrid second).globalIndices 0 = .ok ⟨2, 3⟩ ∧
      dst.HasOwnShare ∧ src.HasOwnShare ∧ ∃ last, (copy CopyTerms.fingerprint dst src later).Ends (.ok () (now, last)) ∧
        now.grid = first ∧ shareShape first now.shape now.distribution = .ok [2] ∧ now.share.shape = [1] := by
  exact ⟨rfl, ⟨rfl, by decide⟩, ⟨rfl, by decide⟩, _, _, _, _, _, rfl, rfl, rfl, rfl, rfl, rfl, _, .done _,
    rfl, rfl, rfl⟩

end DistTensor

end ArrayEngine
