import ArrayEngine.Proofs.Grid.Elements
import ArrayEngine.Proofs.Grid.Lockstep

/-! Copies of distributed tensors made by all ranks of a world: the target stands for the same global array
as the source afterwards. -/
namespace ArrayEngine

namespace DistTensor

variable {dst src : DistTensor} {machine : Machine}

private theorem numel_of_isShareEmpty {tensor : DistTensor} (h : tensor.isShareEmpty = .ok true) :
    tensor.share.numel = .ok 0 := by
  obtain ⟨count, hcount, h⟩ := except_bind_eq_ok.mp h
  rw [hcount, eq_of_beq (Except.ok.inj h)]

/-- The target `now` of a successful copy from `src` to `dst`, on the machine `later` that it ends on. It keeps
its grid. If the source has no elements, the target has no axes. Else it has the layout of the source, a rank
holds the same indices of both, and reads the same elements at them. The source is as it was, like all memory
that the target did not have. -/
structure IsCopy (dst src : DistTensor) (machine : Machine) (now : DistTensor) (later : Machine) : Prop where
  grid : now.grid = dst.grid
  emptied : src.isEmpty = .ok true → now.shape = [] ∧ now.dimTypes = [] ∧ now.distribution = [] ∧
    now.share.shape = [] ∧ now.share.buffer? = none
  laid : src.isEmpty = .ok false → now.shape = src.shape ∧ now.dimTypes = src.dimTypes ∧
    now.distribution = src.distribution ∧ now.share.shape = src.share.shape ∧ now.ranges = src.ranges
  bare : src.isShareEmpty = .ok true → now.share.buffer? = none
  elements : src.isEmpty = .ok false → ∀ index, src.holds index = .ok true →
    now.element? later index = src.element? machine index ∧
    (0 < src.share.dtype.size → (now.element? later index).isSome = true)
  source : ∀ index, src.element? later index = src.element? machine index
  others : ∀ id buffer, dst.share.buffer? ≠ some id →
    machine.buffers[id]? = some buffer → later.buffers[id]? = some buffer

theorem exists_isCopy (dstSound : dst.IsSound machine) (srcSound : src.IsSound machine)
    (hgrid : dst.grid.shape = src.grid.shape) (hrank : dst.grid.rank = src.grid.rank)
    (hdtype : dst.share.dtype = src.share.dtype)
    (apart : ∀ id, dst.share.buffer? = some id → src.share.buffer? ≠ some id)
    (memory : src.isShareEmpty = .ok true ∨ src.share.buffer?.isSome = true) {empty : Bool}
    (counted : src.isEmpty = .ok empty) :
    ∃ now later, copyShare src (dst, machine) = .ok () (now, later) ∧
      IsCopy dst src machine now later := by
  have hasMemory : src.share.HasMemory := memory.imp numel_of_isShareEmpty id
  obtain ⟨elements, hnumel, hzero⟩ := except_bind_eq_ok.mp counted
  obtain ⟨now, later, hcopy, emptied, mirrored, others⟩ :=
    copyShare_eq_ok dstSound srcSound hgrid hrank hdtype apart hnumel hasMemory
  have source (index : List Nat) : src.element? later index = src.element? machine index :=
    element?_of_kept srcSound hasMemory
      (fun id buffer hid hbuffer => others id buffer (fun h => apart id h hid) hbuffer) index
  refine ⟨now, later, hcopy, ?_⟩
  obtain rfl : (elements == 0) = empty := Except.ok.inj hzero
  by_cases hnone : elements = 0
  · have hfull : src.isEmpty ≠ .ok false := by
      rw [counted, hnone]
      nofun
    rw [emptied hnone]
    exact ⟨rfl, fun _ => ⟨rfl, rfl, rfl, rfl, rfl⟩, fun h => absurd h hfull, fun _ => rfl,
      fun h => absurd h hfull, source, others⟩
  · have hbare : src.isEmpty ≠ .ok true := by
      rw [counted, beq_false_of_ne hnone]
      nofun
    obtain ⟨share, rfl, filled⟩ := mirrored hnone
    refine ⟨rfl, fun h => absurd h hbare, fun _ => ⟨rfl, rfl, rfl, filled.laid.shape, ?_⟩,
      fun hshare => ?_, fun _ index held => ?_, source, others⟩
    · exact ranges_congr rfl rfl hgrid hrank
    · rcases filled.filled with ⟨_, hfree⟩ | ⟨_, s, _, hs, _⟩
      · exact hfree
      · obtain ⟨_, _, hcount, pos, _⟩ := srcSound.share.memory s hs
        have hzeroShare := (numel_of_isShareEmpty hshare).symm.trans hcount
        exact absurd (Except.ok.inj hzeroShare) (Nat.ne_of_lt pos)
    · obtain ⟨_, changed, _⟩ := copyShare_cases dstSound srcSound hgrid hrank (.of_ok hcopy)
      have hshare : share.dtype = src.share.dtype := changed.share.dtype.trans hdtype
      have hsame := element?_of_filled srcSound hgrid hrank hshare filled index
      refine ⟨hsame, fun sized => ?_⟩
      rw [hsame]
      refine isSome_element? srcSound hasMemory sized (fun hnil => hnone ?_) held
      rw [hnil] at hnumel
      exact (Except.ok.inj hnumel).symm

end DistTensor

namespace Fleet

open CopyTerms (fingerprint)

variable {hash : CopyTerms → UInt64} {n : Nat} {checks : Bool} {machines : Fin n → Machine} {steps : List (Step n)}
  {logs : Fin n → Log}

private theorem actAll_append {rank : Fin n} (more : List (Step n)) {log later : Log}
    (h : actAll checks rank steps log = .ok later) :
    actAll checks rank (steps ++ more) log = actAll checks rank more later := by
  induction steps generalizing log with
  | nil =>
    cases h
    rfl
  | cons step steps ih =>
    obtain ⟨next, hnext, h⟩ := except_bind_eq_ok.mp h
    rw [List.cons_append, actAll, hnext]
    exact ih h

/-- After any program that all ranks of a world have run with matching arguments, all of them copy from one
tensor to another of the same type on a congruent grid, provided that the share of the source has memory
wherever it has elements and that the elements of its global shape can be counted. Under any schedule of the
program and the copy all ranks end the copy, and with success: what they have then is a copy of the source,
and all else is as before. -/
theorem copies_of_reachable (reachable : Reachable hash checks machines steps logs) {dst src : String}
    (apart : dst ≠ src) {targets sources : Fin n → DistTensor}
    (hdst : ∀ rank, (logs rank).seat.tensors.lookup dst = some (targets rank))
    (hsrc : ∀ rank, (logs rank).seat.tensors.lookup src = some (sources rank))
    (congruent : ∀ rank, (targets rank).grid.isCongruent (sources rank).grid = true)
    (dtypes : ∀ rank, (targets rank).share.dtype = (sources rank).share.dtype)
    (memory : ∀ rank, (sources rank).isShareEmpty = .ok true ∨
      (sources rank).share.buffer?.isSome = true)
    (counted : ∀ rank, ∃ empty, (sources rank).isEmpty = .ok empty)
    {moves : List (World.Move n)} {world : World n _} {history : World.History n}
    (run : World.Run (session hash checks machines (steps ++ [.copy dst src])) moves world history)
    (stay : ∀ rank, World.Move.leave rank ∉ moves) :
    (∀ rank, world.result? rank = none → ∃ other next, world.step other = some next) ∧
    moves.countP World.Move.isAct ≤ n * ((steps.length + 1) * (2 * n + 1)) ∧
    ∀ rank result, world.result? rank = some result → ∃ now later,
      result = .ok ⟨(logs rank).replies ++ [.ok ()],
        Assoc.insert (logs rank).seat.tensors dst now, later⟩ ∧
      (targets rank).IsCopy (sources rank) (logs rank).seat.machine now later := by
  obtain ⟨sound, _⟩ := reachable.sound
  have copied (rank : Fin n) : ∃ now later,
      DistTensor.copyShare (sources rank) (targets rank, (logs rank).seat.machine) = .ok () (now, later) ∧
      (targets rank).IsCopy (sources rank) (logs rank).seat.machine now later := by
    have hcomm : (targets rank).grid.comm = (sources rank).grid.comm :=
      ((sound rank).comm (hdst rank)).trans ((sound rank).comm (hsrc rank)).symm
    obtain ⟨empty, hempty⟩ := counted rank
    exact DistTensor.exists_isCopy ((sound rank).each (hdst rank)) ((sound rank).each (hsrc rank))
      ((Grid.isCongruent_iff hcomm).mp (congruent rank)) (congrArg Comm.rank hcomm) (dtypes rank)
      (fun _ hid => (sound rank).apart apart (hdst rank) (hsrc rank) hid) (memory rank) hempty
  choose now later hcopy isCopy using copied
  have acted (rank : Fin n) :
      actAll checks rank (steps ++ [.copy dst src]) (blank (machines rank)) =
        .ok ⟨(logs rank).replies ++ [.ok ()],
          Assoc.insert (logs rank).seat.tensors dst (now rank), later rank⟩ := by
    rw [actAll_append _ (reachable_iff.mp reachable rank), actAll, Step.act, hdst rank, hsrc rank]
    dsimp only
    rw [if_neg apart, if_pos (congruent rank), hcopy rank]
    rfl
  have settles := settles_session hash acted
  have paced {earlier : List (World.Move n)} {world : World n _} {history : World.History n}
      (h : earlier <+: moves)
      (run : World.Run (session hash checks machines (steps ++ [.copy dst src])) earlier world history) :=
    run.paced_of_settles (fun rank hmem => stay rank (h.subset hmem)) settles
  refine ⟨fun rank busy => run.exists_step_of_paced stay (paced List.prefix_rfl run) busy, ?_,
    fun rank result ended => ?_⟩
  · have bound := run.actions_le_of_paced paced
    have hlength := length_words_le hash checks (steps ++ [.copy dst src]) fun _ => none
    rw [List.length_append] at hlength
    have hall := Nat.mul_le_mul_left n (Nat.mul_le_mul_right (2 * n + 1) hlength)
    exact Nat.le_trans (Nat.le_trans (Nat.le_add_right _ _) bound) hall
  · exact ⟨now rank, later rank, run.result_of_settles stay settles ended, isCopy rank⟩

/-- The type of numbers of four bytes. -/
def numbers : TypeInfo := ⟨0, NumericType.f32.toElementType⟩

/-- Three numbers on two ranks, and another array to copy them to. -/
def thirds : List (Step 2) :=
  [.create "a" numbers [2] [3] [.any] [.block] false,
    .write "a" fun rank => [[0, 0, 128, 63 + rank.val.toUInt8], [0, 0, 64, 64]],
    .create "b" numbers [2] [1] [.scalar] [.replicated] true]

private theorem acted_thirds (rank : Fin 2) : ∃ log target source after,
    actAll true rank thirds (blank .initial) = .ok log ∧
      log.seat.tensors.lookup "b" = some target ∧ log.seat.tensors.lookup "a" = some source ∧
      target.grid.isCongruent source.grid = true ∧ target.share.dtype = source.share.dtype ∧
      source.share.buffer?.isSome = true ∧ source.isEmpty = .ok false ∧
      source.holds [1 + rank.val] = .ok true ∧ source.share.dtype = numbers ∧
      actAll true rank (thirds ++ [.copy "b" "a"]) (blank .initial) = .ok after := by
  match rank with
  | 0 => exact ⟨_, _, _, _, rfl, rfl, rfl, rfl, rfl, rfl, rfl, rfl, rfl, rfl⟩
  | 1 => exact ⟨_, _, _, _, rfl, rfl, rfl, rfl, rfl, rfl, rfl, rfl, rfl, rfl⟩

/-- Of three numbers on two ranks each rank reads the last one that it holds after the copy. -/
theorem copies_of_reachable_thirds : ∃ (logs : Fin 2 → Log) (sources : Fin 2 → DistTensor)
    (moves : List (World.Move 2)) (world : World 2 _) (history : World.History 2),
    Reachable fingerprint true (fun _ => .initial) thirds logs ∧
    (∀ rank, (logs rank).seat.tensors.lookup "a" = some (sources rank)) ∧
    World.Run (session fingerprint true (fun _ => .initial) (thirds ++ [.copy "b" "a"])) moves world history ∧
    ∀ rank, ∃ now later, world.result? rank = some (.ok ⟨(logs rank).replies ++ [.ok ()],
        Assoc.insert (logs rank).seat.tensors "b" now, later⟩) ∧
      now.shape = (sources rank).shape ∧
      now.element? later [1 + rank.val] =
        (sources rank).element? (logs rank).seat.machine [1 + rank.val] ∧
      (now.element? later [1 + rank.val]).isSome = true := by
  choose logs targets sources after acted hdst hsrc congruent dtypes memory full held dtype all
    using acted_thirds
  have reachable : Reachable fingerprint true (fun _ => .initial) thirds logs := reachable_iff.mpr acted
  obtain ⟨moves, world, history, run, stay, ended⟩ := reachable_iff.mpr all
  obtain ⟨_, _, copied⟩ := copies_of_reachable reachable (by decide) hdst hsrc congruent dtypes
    (fun rank => .inr (memory rank)) (fun rank => ⟨false, full rank⟩) run stay
  refine ⟨logs, sources, moves, world, history, reachable, hsrc, run, fun rank => ?_⟩
  obtain ⟨now, later, hresult, isCopy⟩ := copied rank _ (ended rank)
  obtain ⟨hsame, readable⟩ := isCopy.elements (full rank) _ (held rank)
  refine ⟨now, later, (ended rank).trans (congrArg _ hresult), (isCopy.laid (full rank)).1, hsame, ?_⟩
  apply readable
  rw [dtype rank]
  decide

/-- An array without elements whose longer axes have too many positions together to be counted, and another
one on the same grid. -/
def uncounted : List (Step 2) :=
  [.create "b" numbers [2, 1, 1] [2, 1, 1] [.any, .any, .any] [.block, .block, .block] true,
    .create "a" numbers [2, 1, 1] [2 ^ 33, 2 ^ 31, 0] [.any, .any, .any] [.block, .block, .block] true]

private theorem acted_uncounted (rank : Fin 2) : ∃ log target source,
    actAll false rank uncounted (blank .initial) = .ok log ∧
      log.seat.tensors.lookup "b" = some target ∧ log.seat.tensors.lookup "a" = some source ∧
      target.grid.isCongruent source.grid = true ∧ target.share.dtype = source.share.dtype ∧
      source.isShareEmpty = .ok true ∧ source.shape = [2 ^ 33, 2 ^ 31, 0] ∧
      source.isEmpty = .error .multiplyOverflow := by
  match rank with
  | 0 => exact ⟨_, _, _, rfl, rfl, rfl, rfl, rfl, by decide +kernel, rfl, by decide +kernel⟩
  | 1 => exact ⟨_, _, _, rfl, rfl, rfl, rfl, rfl, by decide +kernel, rfl, by decide +kernel⟩

/-- A copy of an array without elements is stopped on every rank if the elements cannot be counted. -/
theorem copy_uncounted :
    ∃ (logs : Fin 2 → Log) (targets sources : Fin 2 → DistTensor) (world : World 2 _)
      (history : World.History 2), Reachable fingerprint false (fun _ => .initial) uncounted logs ∧
      (∀ rank, (logs rank).seat.tensors.lookup "b" = some (targets rank)) ∧
      (∀ rank, (logs rank).seat.tensors.lookup "a" = some (sources rank)) ∧
      (∀ rank, (targets rank).grid.isCongruent (sources rank).grid = true) ∧
      (∀ rank, (targets rank).share.dtype = (sources rank).share.dtype) ∧
      (∀ rank, (sources rank).isShareEmpty = .ok true) ∧
      (∀ rank, (sources rank).shape = [2 ^ 33, 2 ^ 31, 0]) ∧
      World.Run (session fingerprint false (fun _ => .initial) (uncounted ++ [.copy "b" "a"])) [] world history ∧
      ∀ rank, world.result? rank = some (.error .multiplyOverflow) := by
  choose logs targets sources acted hdst hsrc congruent dtypes empty shape uncountable using acted_uncounted
  refine ⟨logs, targets, sources, _, _, reachable_iff.mpr acted, hdst, hsrc, congruent, dtypes, empty,
    shape, .start, fun rank => World.result?_of_task ?_⟩
  have stopped : actAll false rank (uncounted ++ [.copy "b" "a"]) (blank .initial) =
      .error .multiplyOverflow := by
    rw [actAll_append _ (acted rank), actAll, Step.act, hdst rank, hsrc rank]
    dsimp only
    rw [if_neg (by decide), if_pos (congruent rank), DistTensor.copyShare_apply, uncountable rank]
    rfl
  obtain ⟨left, settles, _⟩ :=
    completes_session fingerprint false (fun _ : Fin 2 => .initial) (uncounted ++ [.copy "b" "a"]) rank
  rw [stopped, show words fingerprint false (uncounted ++ [.copy "b" "a"]) (fun _ => none) = [] from rfl] at settles
  rw [World.members_start]
  generalize session fingerprint false (fun _ => .initial) (uncounted ++ [.copy "b" "a"]) rank = program
    at settles ⊢
  cases settles
  rfl

end Fleet

end ArrayEngine
