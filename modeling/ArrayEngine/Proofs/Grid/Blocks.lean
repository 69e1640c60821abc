import ArrayEngine.Proofs.Grid.Shares
import Mathlib.Data.List.Range

/-! The blocks of an axis over all places of a grid axis: one after the other they fill it, and none is longer than
another by more than one index. -/
namespace ArrayEngine.Axis

variable {length procs coord : Nat}

/-- An axis that is split into blocks. -/
def blocked (length procs : Nat) : Axis := ⟨length, .block, procs⟩

theorem stop_blocked (length procs coord : Nat) :
    ((blocked length procs).held coord).stop = ((blocked length procs).held (coord + 1)).start := rfl

theorem start_blocked_zero (length procs : Nat) : ((blocked length procs).held 0).start = 0 := by
  simp [blocked, held]

theorem start_blocked_procs (pos : 0 < procs) : ((blocked length procs).held procs).start = length :=
  blocks_end pos

/-- A block ends after its equal part, and after one index more if it is among the first ones. -/
theorem stop_blocked_eq (length procs coord : Nat) :
    ((blocked length procs).held coord).stop = ((blocked length procs).held coord).start +
      (length / procs + if coord < length % procs then 1 else 0) := by
  change (coord + 1) * (length / procs) + min (coord + 1) (length % procs) =
    coord * (length / procs) + min coord (length % procs) + _
  rw [Nat.succ_mul]
  split <;> omega

theorem length_blocked (length procs coord : Nat) : ((blocked length procs).held coord).length =
    length / procs + if coord < length % procs then 1 else 0 := by
  rw [Interval.length, stop_blocked_eq, Nat.add_sub_cancel_left]

/-- Later blocks are not longer, and shorter by one index at most. -/
theorem length_blocked_le {later : Nat} (h : coord < later) :
    ((blocked length procs).held later).length ≤ ((blocked length procs).held coord).length ∧
      ((blocked length procs).held coord).length ≤ ((blocked length procs).held later).length + 1 := by
  rw [length_blocked, length_blocked]
  split <;> split <;> omega

/-- Only if there are more places than indices are some blocks empty: those after one for each index. -/
theorem blocked_empty_iff (h : coord < procs) :
    ((blocked length procs).held coord).start = ((blocked length procs).held coord).stop ↔
      length < procs ∧ length ≤ coord := by
  rw [stop_blocked_eq, left_eq_add, Nat.add_eq_zero_iff, Nat.div_eq_zero_iff_lt (Nat.zero_lt_of_lt h)]
  constructor
  · rintro ⟨hshort, hrest⟩
    rw [Nat.mod_eq_of_lt hshort] at hrest
    exact ⟨hshort, Nat.le_of_not_lt fun hlt => by simp [hlt] at hrest⟩
  · rintro ⟨hshort, hle⟩
    rw [Nat.mod_eq_of_lt hshort, if_neg (Nat.not_lt.mpr hle)]
    exact ⟨hshort, rfl⟩

/-- At each place the block is told without an overflow. -/
theorem indices_blocked (word : length < wordLimit) (h : coord < procs) :
    Distribution.block.indices length procs coord = .ok ((blocked length procs).held coord) :=
  @indices_eq_ok (blocked length procs) coord word h

/-- The blocks at all places, in turn, are told without an overflow. The first one starts where the axis does, each of
the others where the one before it ends, and the last one ends with the axis. None is longer than one before it, nor
shorter by more than one index, and those without indices are the ones that come after a block for each index. -/
theorem blocks_fill_axis (word : length < wordLimit) (pos : 0 < procs) :
    ∃ blocks, (List.range procs).mapM (Distribution.block.indices length procs) = .ok blocks ∧
      blocks.length = procs ∧
      blocks.head?.map Interval.start = some 0 ∧
      blocks.IsChain (fun block following => block.stop = following.start) ∧
      blocks.getLast?.map Interval.stop = some length ∧
      (∀ block ∈ blocks, block.start ≤ block.stop) ∧
      blocks.Pairwise (fun block later => later.length ≤ block.length ∧ block.length ≤ later.length + 1) ∧
      ∀ coord < procs, ∃ block, blocks[coord]? = some block ∧
        Distribution.block.indices length procs coord = .ok block ∧
        (block.start = block.stop ↔ length < procs ∧ length ≤ coord) := by
  refine ⟨(List.range procs).map (blocked length procs).held, ?_, by simp, ?_, ?_, ?_, ?_, ?_, ?_⟩
  · rw [mapM_congr fun coord hcoord => indices_blocked word (List.mem_range.mp hcoord)]
    exact List.mapM_pure
  · obtain ⟨last, rfl⟩ := Nat.exists_eq_succ_of_ne_zero (Nat.ne_of_gt pos)
    rw [List.range_succ_eq_map]
    simp [start_blocked_zero]
  · rw [List.isChain_map, List.isChain_range]
    intro coord _
    exact stop_blocked length procs coord
  · obtain ⟨last, rfl⟩ := Nat.exists_eq_succ_of_ne_zero (Nat.ne_of_gt pos)
    rw [List.range_succ]
    simp [stop_blocked, start_blocked_procs pos]
  · intro block hblock
    obtain ⟨coord, -, rfl⟩ := List.mem_map.mp hblock
    rw [stop_blocked_eq]
    exact Nat.le_add_right _ _
  · rw [List.pairwise_map]
    exact List.pairwise_lt_range.imp length_blocked_le
  · intro coord hcoord
    refine ⟨_, ?_, indices_blocked word hcoord, blocked_empty_iff hcoord⟩
    simp [hcoord]

/-- The longest axis there is, in two blocks that cannot be equal. -/
theorem blocks_fill_axis_longest : 2 ^ 64 - 1 < wordLimit ∧ ∃ blocks,
    (List.range 2).mapM (Distribution.block.indices (2 ^ 64 - 1) 2) = .ok blocks ∧
      blocks = [⟨0, 2 ^ 63⟩, ⟨2 ^ 63, 2 ^ 64 - 1⟩] ∧
      blocks.IsChain (fun block following => block.stop = following.start) ∧
      blocks.Pairwise (fun block later => later.length ≤ block.length ∧ block.length ≤ later.length + 1) ∧
      ∃ block, blocks[1]? = some block ∧ block.start ≠ block.stop := by
  have word : 2 ^ 64 - 1 < wordLimit := by decide
  obtain ⟨blocks, hblocks, -, -, chain, -, -, lengths, places⟩ := @blocks_fill_axis _ 2 word (by decide)
  obtain ⟨block, hblock, -, empty⟩ := places 1 (by decide)
  exact ⟨word, blocks, hblocks, Except.ok.inj (hblocks.symm.trans rfl), chain, lengths, block, hblock,
    fun h => absurd (empty.mp h).1 (by decide)⟩

/-- Two indices over four places. -/
example : (List.range 4).mapM (Distribution.block.indices 2 4) = .ok [⟨0, 1⟩, ⟨1, 2⟩, ⟨2, 2⟩, ⟨2, 2⟩] := rfl

end ArrayEngine.Axis
