import ArrayEngine.Grid.Fingerprint
import ArrayEngine.Proofs.Grid.Elements

/-! Distributed tensors on any device, changed in any order: what they know of their layout fits together, and
their share is packed. -/
namespace ArrayEngine

namespace Collective

variable {α β : Type}

/-- What a program may end in, whatever the gatherings give back. -/
inductive Ends : Collective α → α → Prop
  | done (a : α) : Ends (.done a) a
  | gather {value : UInt64} {resume : Except GridError (List UInt64) → Collective α} {a : α}
      (gathered : Except GridError (List UInt64)) : Ends (resume gathered) a → Ends (.gather value resume) a

theorem Ends.of_bind {program : Collective α} {next : α → Collective β} {b : β}
    (h : Ends (program >>= next) b) : ∃ a, Ends program a ∧ Ends (next a) b := by
  induction program with
  | done a => exact ⟨a, .done a, h⟩
  | gather value resume ih =>
    cases h with
    | gather gathered h =>
      obtain ⟨a, ha, hb⟩ := ih gathered h
      exact ⟨a, .gather gathered ha, hb⟩

end Collective

namespace DistTensor

/-- What the distributed tensors of a process come from, each on its machine as it is by then: they are made
on a grid, changed, and copied from each other, on congruent grids in the same place. The other processes may
answer anything. An operation may fail, but no trap stops it. -/
inductive Reached : DistTensor → Prop
  | create {dtype grid shape dimTypes distribution stream isLazy machine tensor later} :
      create dtype grid shape dimTypes distribution stream isLazy machine = .ok tensor later →
      Reached tensor
  | resize {tensor machine now later} (shape dimTypes distribution shareStrides?) : Reached tensor →
      EndsAt (resizeWith shape dimTypes distribution shareStrides? (tensor, machine)) (now, later) →
      Reached now
  | ensure {tensor machine now later} : Reached tensor →
      EndsAt (ensure (tensor, machine)) (now, later) → Reached now
  | empty {tensor} : Reached tensor → Reached tensor.emptied
  | copy {dst src machine now later result hash} : Reached dst → Reached src →
      (dst.grid.isCongruent src.grid = true → dst.grid.rank = src.grid.rank) →
      (copy hash dst src machine).Ends result → EndsAt result (now, later) → Reached now

variable {tensor dst src : DistTensor} {machine : Machine} {state : DistTensor × Machine}

/-- A copy is refused, or each rank does its part of it. -/
theorem copy_ends {hash : CopyTerms → UInt64}
    {result : EStateM.Result (Halt DistError) (DistTensor × Machine) Unit}
    (h : (copy hash dst src machine).Ends result) :
    (∃ cause, result = .error (.error (.grid cause)) (dst, machine)) ∨
      dst.grid.isCongruent src.grid = true ∧ result = copyShare src (dst, machine) := by
  rw [copy] at h
  split at h
  · next congruent =>
    split at h
    · obtain ⟨agreed, _, h⟩ := h.of_bind
      cases agreed <;> cases h
      · exact .inl ⟨_, rfl⟩
      · exact .inr ⟨congruent, rfl⟩
    · cases h
      exact .inr ⟨congruent, rfl⟩
  · cases h
    exact .inl ⟨_, rfl⟩

/-- The layout of a tensor fits together, and its share is its own. -/
structure IsFormed (tensor : DistTensor) : Prop extends IsLaid tensor where
  owned : tensor.share.isView = false
  distributions : tensor.distribution.length = tensor.shape.length
  types : tensor.dimTypes.length = tensor.shape.length

theorem isFormed_emptied (formed : tensor.IsFormed) : tensor.emptied.IsFormed :=
  ⟨isLaid_emptied formed.toIsLaid, rfl, rfl, rfl⟩

theorem IsFormed.of_resizeWith {shape : List Nat} {dimTypes : List DimType}
    {distribution : List Distribution} {shareStrides? : Option (List Nat)}
    (accepts : Accepts tensor.grid.shape shape dimTypes distribution)
    (h : resizeWith shape dimTypes distribution shareStrides? (tensor, machine) = .ok () state)
    (owned : state.1.share.isView = false) : state.1.IsFormed := by
  obtain ⟨_, hshape, htypes, hdist, _⟩ := layout_of_resizeWith h
  refine ⟨.of_resizeWith h, owned, ?_, ?_⟩
  · rw [hshape, hdist, accepts.1]
  · rw [hshape, htypes, accepts.2.2]

/-- A change of the share alone that may fill it from a source of the same layout. -/
theorem IsFormed.of_fillsTo (formed : tensor.IsFormed) (laid : tensor.share.IsLaidAs src.share)
    (fills : FillsTo src (tensor, machine) state) : state.1.IsFormed := by
  refine ⟨formed.toIsLaid.of_fillsTo laid fills, fills.share.changed.owned formed.owned, ?_, ?_⟩
  · rw [fills.same]
    exact formed.distributions
  · rw [fills.same]
    exact formed.types

theorem isFormed_create {dtype : TypeInfo} {grid : Grid} {shape : List Nat} {dimTypes : List DimType}
    {distribution : List Distribution} {stream : Stream} {isLazy : Bool} {later : Machine}
    (h : create dtype grid shape dimTypes distribution stream isLazy machine = .ok tensor later) :
    tensor.IsFormed := by
  obtain ⟨_, _, hcreate⟩ | ⟨share, _, accepts, hcreate, hresize, changed⟩ | ⟨_, hcreate⟩ :=
    create_cases dtype grid shape dimTypes distribution stream isLazy machine
  · cases hcreate.symm.trans h
  · cases hcreate.symm.trans h
    exact .of_resizeWith accepts hresize (changed.owned rfl)
  · cases hcreate.symm.trans h

theorem IsFormed.resized (formed : tensor.IsFormed) {shape : List Nat} {dimTypes : List DimType}
    {distribution : List Distribution} {shareStrides? : Option (List Nat)}
    (ends : EndsAt (resizeWith shape dimTypes distribution shareStrides? (tensor, machine)) state) :
    state.1.IsFormed := by
  obtain rfl | ⟨_, _, accepts, hresize, rfl, changed⟩ := resizeWith_ends formed.owned ends
  · exact formed
  · exact .of_resizeWith accepts hresize (changed.owned formed.owned)

theorem IsFormed.ensured (formed : tensor.IsFormed) (ends : EndsAt (ensure (tensor, machine)) state) :
    state.1.IsFormed := by
  obtain ⟨same, fills⟩ := evolving_onShare (Tensor.evolving_ensure_fillsTo tensor.share) _ _ ends
  exact formed.of_fillsTo ⟨rfl, rfl, rfl⟩ ⟨same, fills⟩

/-- The part of a copy that a rank does alone: the layout is changed first, and after that the share is given
the layout of the source once more. -/
theorem IsFormed.copied (dstFormed : dst.IsFormed) (srcFormed : src.IsFormed)
    (hgrid : dst.grid.shape = src.grid.shape) (hrank : dst.grid.rank = src.grid.rank)
    (ends : EndsAt (copyShare src (dst, machine)) state) : state.1.IsFormed := by
  rw [copyShare_apply] at ends
  split at ends
  · cases ends
  · cases ends
    exact isFormed_emptied dstFormed
  · split at ends
    · rw [bind_apply] at ends
      cases hresize : resizeWith src.shape src.dimTypes src.distribution (some src.share.strides)
          (dst, machine) with
      | error cause next =>
        rw [hresize] at ends
        cases cause with
        | trap trap => cases ends
        | error cause =>
          have ended : EndsAt (resizeWith src.shape src.dimTypes src.distribution
              (some src.share.strides) (dst, machine)) next := by
            rw [hresize]
            exact rfl
          cases ends
          exact dstFormed.resized ended
      | ok _ next =>
        have formed := dstFormed.resized (.of_ok hresize)
        rw [hresize] at ends
        exact formed.of_fillsTo (isLaidAs_of_resizeWith srcFormed.toIsLaid hgrid hrank hresize)
          (evolving_fillShare src _ _ ends)
    · cases ends
      exact dstFormed

/-- Every tensor that is reached fits together. -/
theorem Reached.isFormed (reached : Reached tensor) : tensor.IsFormed := by
  induction reached with
  | create h => exact isFormed_create h
  | resize _ _ _ _ _ ends formed => exact formed.resized ends
  | ensure _ ends formed => exact formed.ensured ends
  | empty _ formed => exact isFormed_emptied formed
  | copy _ _ same h ends dstFormed srcFormed =>
    obtain ⟨_, rfl⟩ | ⟨congruent, rfl⟩ := copy_ends h
    · cases ends
      exact dstFormed
    · have hgrid := eq_of_beq (Bool.and_eq_true_iff.mp congruent).1
      exact dstFormed.copied srcFormed hgrid (same congruent) ends

/-- The axis types and the distribution of a tensor are of as many axes as its shape, and these are as many as
the grid has, or none. The shape of the share is the part of the global shape that this process holds: along
every axis it is as long as the interval of the global indices. The share is packed. -/
theorem layout_of_reached (reached : Reached tensor) :
    tensor.dimTypes.length = tensor.shape.length ∧
    tensor.distribution.length = tensor.shape.length ∧
    (tensor.shape.length = tensor.grid.shape.length ∨ tensor.shape.length = 0) ∧
    shareShape tensor.grid tensor.shape tensor.distribution = .ok tensor.share.shape ∧
    tensor.share.shape.length = tensor.shape.length ∧
    (∀ axis < tensor.shape.length, ∃ interval, tensor.globalIndices axis = .ok interval ∧
      tensor.share.shape[axis]? = some interval.length) ∧
    tensor.share.isPacked = .ok true := by
  have formed := reached.isFormed
  refine ⟨formed.types, formed.distributions, ?_, formed.share, formed.share_le.length_eq, ?_,
    Layout.isPacked_of_packedStrides formed.strides⟩
  · rcases formed.axes with hnil | ⟨_, hgrid⟩
    · exact .inr (List.length_eq_zero_iff.mpr hnil)
    · exact .inl hgrid.symm
  · intro axis haxis
    have hshape : tensor.shape ≠ [] := List.ne_nil_of_length_pos (Nat.zero_lt_of_lt haxis)
    obtain ⟨ranges, hranges, hshare⟩ := formed.toIsLaid.ranges hshape
    obtain ⟨interval, hindices, hinterval⟩ := getElem?_of_mapM hranges (List.getElem?_range haxis)
    refine ⟨interval, hindices, ?_⟩
    rw [hshare, List.getElem?_map, hinterval, Option.map_some]

/-- The second of two ranks. -/
def second : Grid := ⟨⟨1, [0, 1], true, false⟩, [2]⟩

/-- Three numbers on two ranks are copied over two by two others: the second rank is left with one number. -/
theorem layout_of_reached_third : ∃ tensor, Reached tensor ∧ tensor.shape = [3] ∧
    tensor.share.shape = [1] ∧ tensor.globalIndices 0 = .ok ⟨2, 3⟩ ∧ tensor.share.isPacked = .ok true := by
  have hsrc : create .f32 second [3] [.any] [.block] .cpu false .initial = .ok _ _ := rfl
  have hdst : create .f32 second [2] [.scalar] [.replicated] .cpu true .initial = .ok _ _ := rfl
  have copied := @Reached.copy _ _ ⟨[Buffer.zeroed .host 4], [], none, 1, []⟩ _ _ _
    CopyTerms.fingerprint (.create hdst) (.create hsrc) (fun _ => rfl) (.done _) (.of_ok rfl)
  obtain ⟨_, _, _, _, _, _, packed⟩ := layout_of_reached copied
  exact ⟨_, copied, rfl, rfl, rfl, packed⟩

end DistTensor

end ArrayEngine
