import ArrayEngine.Proofs.Tensor.Matrices
import ArrayEngine.Proofs.Workspace.Fills
import ArrayEngine.Proofs.Workspace.Packed

/-! Host tensors of a reachable workspace as matrices, to be read and to be changed. A matrix that is changed may
not have columns that overlap, and a single column counts as one that overlaps the next if the stride that nothing
moves along is too short. -/
namespace ArrayEngine.Workspace

variable {workspace : Workspace} {name : String} {tensor : Tensor} {id : BufferId}

section Matrices

variable (reachable : Reachable workspace) (found : workspace.tensors.lookup name = some tensor)
  (sized : 0 < tensor.dtype.size) (held : tensor.buffer? = some id)
  (host : (workspace.machine.buffer id).place = .host)
include reachable found sized held host

/-- A host tensor with elements and memory is no matrix if it has several axes and the faster ones are not packed.
Otherwise it is the matrix of its elements, each at its own entry. A matrix that is kept as a tensor is the matrix that
this tensor is. Its elements are gathered in a list that grows by doubling, so it is taken to have no more than half
the bytes of an allocation. -/
theorem matrices_of_reachable : ∃ packed, tensor.isMatrixPacked = .ok packed ∧
    ((∃ reason, tensor.matrix workspace.machine = .error (.error (.notViewable reason)) workspace.machine) ↔
      2 ≤ tensor.rank ∧ packed = false) ∧
    (¬(2 ≤ tensor.rank ∧ packed = false) → ∃ layout entries,
      tensor.matrix workspace.machine = .ok (layout, entries) workspace.machine ∧
        tensor.Matches workspace.machine layout entries) ∧
    ∀ (dtype : TypeInfo) (view : MatrixView), 0 < dtype.size → 0 < view.rows → 0 < view.cols →
      (∀ row col, row < view.rows → col < view.cols → (view.entry row col).length = dtype.size) →
      2 * (view.rows * view.cols * dtype.size) ≤ maxAllocation →
      ∃ made later entries, Tensor.ofMatrix dtype view workspace.machine = .ok made later ∧
        made.matrix later = .ok (⟨view.rows, view.cols, view.rows⟩, entries) later ∧
        entries.length = view.rows * view.cols ∧
        ∀ row col, row < view.rows → col < view.cols →
          entries[row + view.rows * col]? = some (view.entry row col) := by
  obtain ⟨elements, extent, holds⟩ := reachable.exists_holds_buffer found sized held
  obtain ⟨packed, hpacked, h⟩ := holds.isMatrix_cases
  have round (dtype : TypeInfo) (view : MatrixView) (sized : 0 < dtype.size) (hrows : 0 < view.rows)
      (hcols : 0 < view.cols)
      (whole : ∀ row col, row < view.rows → col < view.cols → (view.entry row col).length = dtype.size)
      (fits : 2 * (view.rows * view.cols * dtype.size) ≤ maxAllocation) :
      ∃ made later entries, Tensor.ofMatrix dtype view workspace.machine = .ok made later ∧
        made.matrix later = .ok (⟨view.rows, view.cols, view.rows⟩, entries) later ∧
        entries.length = view.rows * view.cols ∧
        ∀ row col, row < view.rows → col < view.cols →
          entries[row + view.rows * col]? = some (view.entry row col) := by
    obtain ⟨made, later, hmade, hmatrix⟩ :=
      Tensor.matrix_of_ofMatrix sized hrows hcols whole (by omega) workspace.machine
    exact ⟨made, later, _, hmade, hmatrix, view.length_elements, fun row col => MatrixView.getElem?_elements⟩
  obtain ⟨hrank, hfalse, hview⟩ | ⟨hmatrix, layout, is⟩ := h
  · exact ⟨packed, hpacked, iff_of_true ⟨_, Tensor.matrix_of_error hview _⟩ ⟨hrank, hfalse⟩,
      fun hmatrix => absurd ⟨hrank, hfalse⟩ hmatrix, round⟩
  · obtain ⟨entries, hview, matched⟩ := holds.matches_of_isMatrix is host
    refine ⟨packed, hpacked, iff_of_false ?_ hmatrix, fun _ => ⟨layout, entries, hview, matched⟩, round⟩
    rintro ⟨reason, herror⟩
    cases hview.symm.trans herror

/-- A host tensor that is a matrix, and a change of it. If its columns do not overlap, the change sets an entry and
leaves all others as they are; otherwise it ends in a trap. Several columns do not overlap if different indices have
different offsets. A single column is taken as if another one came after it. -/
theorem mutable_matrices_of_reachable {layout : MatrixLayout} {entries : List Element} {later : Machine}
    (hmatrix : tensor.matrix workspace.machine = .ok (layout, entries) later) :
    (layout.rows ≤ layout.colStride → ∀ row col value, ∃ changed,
      tensor.setMatrix row col value workspace.machine =
          .ok (layout, row < layout.rows && col < layout.cols) changed ∧
        (row < layout.rows → col < layout.cols → value.length = tensor.dtype.size →
          tensor.matrix changed = .ok (layout, entries.set (row + layout.rows * col) value) changed)) ∧
    (layout.colStride < layout.rows → ∀ row col value,
      tensor.setMatrix row col value workspace.machine =
        .error (.trap .matrixBounds) workspace.machine) ∧
    (Layout.HasDistinctOffsets tensor.shape tensor.strides → layout.cols ≠ 1 → layout.rows ≤ layout.colStride) := by
  obtain ⟨elements, extent, holds⟩ := reachable.exists_holds_buffer found sized held
  obtain ⟨_, -, ⟨-, -, herror⟩ | ⟨-, own, is⟩⟩ := holds.isMatrix_cases
  · cases (Tensor.matrix_of_error herror _).symm.trans hmatrix
  obtain ⟨_, hview, -⟩ := holds.matches_of_isMatrix is host
  cases hview.symm.trans hmatrix
  refine ⟨fun apart row col value => ?_, fun overlap row col value => ?_, holds.apart_of_distinct is⟩
  · have hset := holds.setMatrix_apply is host row col value
    rw [if_pos apart] at hset
    refine ⟨_, hset, fun hrow hcol hvalue => ?_⟩
    obtain ⟨changed, hsame, hchanged⟩ := holds.matrix_of_setMatrix is host apart hrow hcol hvalue hview
    injection hsame.symm.trans hset with _ hstate
    exact hstate ▸ hchanged
  · rw [holds.setMatrix_apply is host, if_neg (Nat.not_le.mpr overlap)]

end Matrices

/-- Two columns of two numbers. The axis between rows and columns moves nothing. A row of two numbers comes back
from a tensor. -/
theorem matrices_of_reachable_slab : Reachable oneSlab ∧
    slab.matrix oneSlab.machine =
      .ok (⟨2, 2, 2⟩, [[1, 0, 0, 0], [2, 0, 0, 0], [3, 0, 0, 0], [4, 0, 0, 0]]) oneSlab.machine ∧
    (∃! index, Layout.inShape index [2, 1, 2] = true ∧ Layout.IsEntry [2, 1, 2] index 0 1) ∧
    ∃ made later entries,
      Tensor.ofMatrix .f32 ⟨1, 2, fun _ col => [col.toUInt8, 0, 0, 0]⟩ oneSlab.machine = .ok made later ∧
      made.matrix later = .ok (⟨1, 2, 1⟩, entries) later ∧ entries[1]? = some [1, 0, 0, 0] := by
  obtain ⟨packed, hpacked, -, viewed, round⟩ := matrices_of_reachable reachable_oneSlab
    (rfl : oneSlab.tensors.lookup "a" = some slab) (by decide) rfl rfl
  cases hpacked
  obtain ⟨layout, entries, hmatrix, matched⟩ := viewed nofun
  have hview : slab.matrix oneSlab.machine =
    .ok (⟨2, 2, 2⟩, [[1, 0, 0, 0], [2, 0, 0, 0], [3, 0, 0, 0], [4, 0, 0, 0]]) oneSlab.machine := rfl
  cases hview.symm.trans hmatrix
  obtain ⟨made, later, row, hmade, hrow, _, hentries⟩ := round .f32 ⟨1, 2, fun _ col => [col.toUInt8, 0, 0, 0]⟩
    (by decide) (by decide) (by decide) (fun _ _ _ _ => rfl) (by decide)
  exact ⟨reachable_oneSlab, hview, matched.index 0 (by decide) 1 (by decide), made, later, row, hmade, hrow,
    hentries 0 1 (by decide) (by decide)⟩

/-- One number in very many columns has more bytes as a tensor than can be counted. An element without bytes is in an
allocation that cannot be split into such elements, so the tensor of it is no matrix and not refused as one. -/
theorem matrix_uncounted :
    (∀ machine made later, Tensor.ofMatrix .f32 ⟨1, 2 ^ 62, fun _ _ => [0, 0, 128, 63]⟩ machine ≠ .ok made later) ∧
    ∃ workspace tensor id, Reachable workspace ∧ workspace.tensors.lookup "a" = some tensor ∧ tensor.device = .cpu ∧
      tensor.isEmpty = .ok false ∧ tensor.buffer? = some id ∧ (workspace.machine.buffer id).place = .host ∧
      tensor.matrix workspace.machine = .error (.trap .divideByZero) workspace.machine := by
  refine ⟨fun machine made later h => ?_, ?_⟩
  · let view : MatrixView := ⟨1, 2 ^ 62, fun _ _ => [0, 0, 128, 63]⟩
    have hlength := view.length_elements
    have hnumel : Layout.numel [1, 2 ^ 62] = .ok (view.rows * view.cols) :=
      (Layout.packedStrides_of_two (Nat.two_pow_pos 62) (by decide)).1
    have uncounted : wordLimit ≤ view.elements.length * TypeInfo.f32.size := by
      rw [hlength]
      decide
    cases h.symm.trans (Tensor.ofList_eq_trap (hnumel.trans (congrArg _ hlength.symm)) (by rw [hlength]; decide)
      (Tensor.byteSize_of_uncounted uncounted) machine)
  · have reachable : Reachable initial := .start rfl Catalogue.tame_initial
    exact ⟨_, _, 0, reachable.make (.packed .unit [1] .cpu false) (.of_ok rfl : EndsAt (create "a" _ _) _), rfl, rfl,
      rfl, rfl, rfl, rfl⟩

/-- The last of the columns with a gap between them is set. -/
theorem mutable_matrices_of_reachable_columns : ∃ changed, Reachable twoColumns ∧
    (columns .cpu 0).setMatrix 1 1 [1, 2, 3, 4] twoColumns.machine = .ok (⟨2, 2, 3⟩, true) changed ∧
    (columns .cpu 0).matrix changed =
      .ok (⟨2, 2, 3⟩, [[0, 0, 0, 0], [0, 0, 0, 0], [0, 0, 0, 0], [1, 2, 3, 4]]) changed := by
  have hview : (columns .cpu 0).matrix twoColumns.machine =
    .ok (⟨2, 2, 3⟩, List.replicate 4 [0, 0, 0, 0]) twoColumns.machine := rfl
  obtain ⟨sets, -, apart⟩ := mutable_matrices_of_reachable reachable_twoColumns
    (rfl : twoColumns.tensors.lookup "a" = some (columns .cpu 0)) (by decide) rfl rfl hview
  have distinct : Layout.HasDistinctOffsets [2, 2] [1, 3] := Layout.hasDistinctOffsets_of_nodup (by decide)
  obtain ⟨changed, hset, hchanged⟩ := sets (apart distinct (by decide)) 1 1 [1, 2, 3, 4]
  exact ⟨changed, reachable_twoColumns, hset, hchanged (by decide) (by decide) rfl⟩

/-- Three numbers in one column, where the axis of the columns moves nothing. They can be read as a matrix, and they
are next to each other, but they cannot be changed. -/
theorem single_column_is_refused : ∃ workspace tensor, Reachable workspace ∧
    workspace.tensors.lookup "a" = some tensor ∧ tensor.device = .cpu ∧
    Layout.HasDistinctOffsets tensor.shape tensor.strides ∧ tensor.isPacked = .ok true ∧
    tensor.matrix workspace.machine =
      .ok (⟨3, 1, 1⟩, List.replicate 3 [0, 0, 0, 0]) workspace.machine ∧
    tensor.setMatrix 1 0 [0, 0, 128, 63] workspace.machine = .error (.trap .matrixBounds) workspace.machine := by
  have reachable : Reachable initial := .start rfl Catalogue.tame_initial
  exact ⟨_, _, reachable.make (.layout .f32 [3, 1] [.any, .any] (some [1, 1]) .cpu false)
    (.of_ok rfl : EndsAt (create "a" _ _) _), rfl, rfl, Layout.hasDistinctOffsets_of_nodup (by decide), rfl, rfl, rfl⟩

end ArrayEngine.Workspace
