import ArrayEngine.Proofs.Grid.Shares
import ArrayEngine.Proofs.Grid.Sound

/-! The part of a distributed copy that each rank does alone: what it makes of the layout, and when the
share holds the elements of the source afterwards. -/
namespace ArrayEngine

namespace Tensor

variable {tensor src : Tensor} {machine later : Machine}

/-- The layouts of two tensors are the same. -/
structure IsLaidAs (tensor src : Tensor) : Prop where
  shape : tensor.shape = src.shape
  strides : tensor.strides = src.strides
  dimTypes : tensor.dimTypes = src.dimTypes

/-- A change that leaves a tensor alone which has the layout of the source already, but for its memory. -/
structure FillsTo (src : Tensor) (before after : Tensor × Machine) : Prop where
  changed : ChangesTo before after
  laid : before.1.IsLaidAs src → after.1.IsLaidAs src

instance (src : Tensor) : Std.Refl (FillsTo src) := ⟨fun _ => ⟨.refl _, id⟩⟩

instance (src : Tensor) : IsTrans (Tensor × Machine) (FillsTo src) :=
  ⟨fun _ _ _ h k => ⟨h.changed.trans k.changed, fun laid => k.laid (h.laid laid)⟩⟩

/-- Work on the machine leaves the layout of a tensor alone. -/
theorem fillsTo_onMachine {src : Tensor} {work : Work TensorError Unit}
    (h : Keeping Machine.Keeps work) : Keeping (FillsTo src) (onMachine work) := by
  intro state
  refine ⟨keeping_onMachine h state, fun laid => ?_⟩
  rw [show (endState (onMachine work) state).1 = state.1 by
    rw [endState, onMachine, zoom]
    cases work state.2 <;> rfl]
  exact laid

theorem evolving_ensure_fillsTo (src : Tensor) : Evolving (FillsTo src) ensure := by
  intro before after ends
  refine ⟨evolving_ensure _ _ ends, fun laid => ?_⟩
  rcases ensure_cases ends with ⟨rfl, _⟩ | ⟨_, _, _, _, _, rfl⟩
  · exact laid
  · exact ⟨laid.shape, laid.strides, laid.dimTypes⟩

theorem evolving_copyFrom_fillsTo (hempty : src.isEmpty = .ok false) :
    Evolving (FillsTo src) (copyFrom src) := by
  have resized : Evolving (FillsTo src) (resize src.shape src.dimTypes (some src.strides)) := by
    intro before after ends
    refine ⟨evolving_resize _ _ _ _ _ ends, fun laid => ?_⟩
    rcases resize_cases ends with rfl | ⟨strides, _, hstrides, hcases⟩
    · exact laid
    · have hsame : strides = src.strides := (stridesFor_some.mp hstrides).2.symm
      rcases hcases with ⟨_, rfl⟩ | ⟨_, rfl⟩ | ⟨_, ends⟩
      · exact ⟨laid.shape, laid.strides, rfl⟩
      · exact ⟨rfl, hsame, rfl⟩
      · exact (evolving_ensure_fillsTo src _ _ ends).laid ⟨rfl, hsame, rfl⟩
  have moved : Evolving (FillsTo src) (moveFrom src) := by
    refine .bind resized fun _ => .bind (evolving_ensure_fillsTo src) fun _ => ?_
    refine .bind (.liftTrap _) fun count => .bind (.liftTrap _) fun size => .get_bind fun state => ?_
    exact .of_keeping (fillsTo_onMachine (.adaptErrors (Machine.keeping_copyBytes _ _ _ _ _)))
  rintro ⟨tensor, machine⟩ after ends
  rw [copyFrom_apply, hempty] at ends
  dsimp only at ends
  split at ends
  · exact moved _ _ ends
  · cases ends
    exact Std.Refl.refl _

end Tensor

namespace DistTensor

variable {dst src : DistTensor} {machine later : Machine} {state : DistTensor × Machine}

/-- The part of a copy that is left when the layout is that of the source. -/
def fillShare (src : DistTensor) : DistUpdate Unit := do
  if ← src.isShareEmpty then pure ()
  else
    ensure
    onShare (Tensor.copyFrom src.share)

theorem copyShare_apply (src dst : DistTensor) (machine : Machine) :
    copyShare src (dst, machine) =
      match src.isEmpty with
      | .error trap => .error (.trap trap) (dst, machine)
      | .ok true => .ok () (dst.emptied, machine)
      | .ok false =>
        if src.share.dtype == dst.share.dtype then
          (resizeWith src.shape src.dimTypes src.distribution (some src.share.strides) >>=
            fun _ => fillShare src) (dst, machine)
        else
          .error (.error (.tensor (.unsupportedConversion src.share.dtype.name dst.share.dtype.name)))
            (dst, machine) := by
  change (monadLift src.isEmpty >>= _ : DistUpdate Unit) (dst, machine) = _
  rw [bind_apply]
  cases src.isEmpty with
  | error trap => rfl
  | ok empty =>
    cases empty with
    | true => rfl
    | false =>
      change (if !(src.share.dtype == dst.share.dtype) then _ else _ : DistUpdate Unit)
        (dst, machine) = _
      cases src.share.dtype == dst.share.dtype <;> rfl

/-- A change of the share alone that may fill it with the elements of the source. -/
structure FillsTo (src : DistTensor) (before after : DistTensor × Machine) : Prop where
  same : after.1 = before.1.withShare after.1.share
  share : Tensor.FillsTo src.share (before.1.share, before.2) (after.1.share, after.2)

instance (src : DistTensor) : Std.Refl (FillsTo src) := ⟨fun _ => ⟨rfl, Std.Refl.refl _⟩⟩

instance (src : DistTensor) : IsTrans (DistTensor × Machine) (FillsTo src) where
  trans _ _ _ h k := by
    refine ⟨?_, IsTrans.trans _ _ _ h.share k.share⟩
    rw [k.same, h.same]
    rfl

theorem evolving_fillShare (src : DistTensor) : Evolving (FillsTo src) (fillShare src) := by
  intro before after ends
  change EndsAt ((monadLift src.isShareEmpty >>= _ : DistUpdate Unit) before) after at ends
  rw [bind_apply] at ends
  cases hempty : src.isShareEmpty with
  | error trap =>
    rw [hempty] at ends
    cases ends
  | ok empty =>
    rw [hempty] at ends
    cases empty with
    | true =>
      cases ends
      exact Std.Refl.refl _
    | false =>
      have lifted {change : Update Unit} (h : Evolving (Tensor.FillsTo src.share) change) :
          Evolving (FillsTo src) (onShare change) := by
        intro before after ends
        obtain ⟨same, share⟩ := evolving_onShare h before after ends
        exact ⟨same, share⟩
      exact (Evolving.bind (lifted (Tensor.evolving_ensure_fillsTo _)) fun _ =>
        lifted (Tensor.evolving_copyFrom_fillsTo hempty)) _ _ ends

/-- The strides of a share are those of every share of its shape. -/
theorem mayKeep_of_isLaid (laid : src.IsLaid) (hgrid : dst.grid.shape = src.grid.shape)
    (hrank : dst.grid.rank = src.grid.rank) (share : List Nat)
    (h : shareShape dst.grid src.shape src.distribution = .ok share) :
    mayKeep share (some src.share.strides) = .ok true := by
  rw [shareShape_congr hgrid hrank, laid.share] at h
  cases h
  exact Layout.isPacked_of_packedStrides laid.strides

/-- A share of the layout of the source has its shape, strides and axis types. -/
theorem isLaidAs_of_resizeWith {shareStrides? : Option (List Nat)} (laid : src.IsLaid)
    (hgrid : dst.grid.shape = src.grid.shape) (hrank : dst.grid.rank = src.grid.rank)
    (h : resizeWith src.shape src.dimTypes src.distribution shareStrides? (dst, machine) =
      .ok () state) : state.1.share.IsLaidAs src.share := by
  obtain ⟨_, _, _, _, _, _, hshare, htypes, hstrides⟩ := layout_of_resizeWith h
  rw [shareShape_congr hgrid hrank, laid.share] at hshare
  have hshape := (Except.ok.inj hshare).symm
  rw [hshape, laid.strides] at hstrides
  exact ⟨hshape, (Except.ok.inj hstrides).symm, htypes.trans laid.dimTypes.symm⟩

/-- Filling a share leaves it the share of its tensor. -/
theorem IsLaid.of_fillsTo {tensor : DistTensor} (h : tensor.IsLaid)
    (laid : tensor.share.IsLaidAs src.share) (fills : FillsTo src (tensor, machine) state) :
    state.1.IsLaid := by
  obtain ⟨now, later⟩ := state
  obtain ⟨same, changed, still⟩ := fills
  obtain ⟨hshape, hstrides, htypes⟩ := still laid
  rw [show now = tensor.withShare now.share from same]
  refine ⟨?_, ?_, ?_, h.axes⟩
  · exact h.share.trans (congrArg _ (laid.shape.trans hshape.symm))
  · change Layout.packedStrides now.share.shape = .ok now.share.strides
    rw [hshape, hstrides, ← laid.shape, ← laid.strides]
    exact h.strides
  · exact (htypes.trans laid.dimTypes.symm).trans h.dimTypes

/-- Filling a share keeps a distributed tensor sound. -/
theorem IsSound.of_fillsTo {tensor : DistTensor} (sound : tensor.IsSound machine)
    (laid : tensor.share.IsLaidAs src.share) (fills : FillsTo src (tensor, machine) state) :
    state.1.IsSound state.2 :=
  ⟨sound.laid.of_fillsTo laid fills, fills.share.changed.sound sound.share,
    fills.share.changed.host sound.host⟩

/-- A source with elements has a layout that every tensor on its grid can take. -/
theorem resizeWith_of_isSound (dstSound : dst.IsSound machine) (srcSound : src.IsSound machine)
    (hgrid : dst.grid.shape = src.grid.shape) (hrank : dst.grid.rank = src.grid.rank)
    (hshape : src.shape ≠ [])
    (ends : EndsAt (resizeWith src.shape src.dimTypes src.distribution (some src.share.strides)
      (dst, machine)) state) :
    ∃ share later, resizeWith src.shape src.dimTypes src.distribution (some src.share.strides)
        (dst, machine) = .ok () state ∧
      state = (dst.relaid src.shape src.dimTypes src.distribution share, later) ∧
      Tensor.ChangesTo (dst.share, machine) (share, later) := by
  obtain ⟨share, later, _, resized⟩ | ⟨refused, _⟩ := resizeWith_cases
    (Tensor.isView_of_onHost dstSound.host) (mayKeep_of_isLaid srcSound.laid hgrid hrank) ends
  · exact ⟨share, later, resized⟩
  · rw [hgrid] at refused
    exact absurd (srcSound.accepts hshape) refused

/-- What the copy makes of the layout does not depend on the share, even where the share is not filled
afterwards. -/
theorem copyShare_cases (dstSound : dst.IsSound machine) (srcSound : src.IsSound machine)
    (hgrid : dst.grid.shape = src.grid.shape) (hrank : dst.grid.rank = src.grid.rank)
    (ends : EndsAt (copyShare src (dst, machine)) state) :
    state.1.IsSound state.2 ∧ ChangesTo (dst, machine) state ∧
      state.1.face = dst.face.copied src.face := by
  rw [copyShare_apply] at ends
  cases hnumel : Layout.numel src.shape with
  | error trap =>
    rw [DistTensor.isEmpty, hnumel] at ends
    cases ends
  | ok elements =>
    have hempty : src.isEmpty = .ok (elements == 0) := by
      rw [DistTensor.isEmpty, hnumel]
      rfl
    rw [hempty] at ends
    by_cases hzero : elements = 0
    · rw [beq_iff_eq.mpr hzero] at ends
      cases ends
      refine ⟨dstSound.emptied, ⟨rfl, Tensor.changesTo_emptied _ _⟩, ?_⟩
      have hnone : Layout.numel src.face.shape = .ok 0 := hnumel.trans (congrArg _ hzero)
      rw [Face.copied, if_pos hnone]
      rfl
    · rw [beq_false_of_ne hzero] at ends
      dsimp only at ends
      have hsome : ¬Layout.numel src.face.shape = .ok 0 :=
        fun h => hzero (Except.ok.inj (hnumel.symm.trans h))
      have hshape : src.shape ≠ [] := by
        intro hnil
        rw [hnil] at hnumel
        exact hzero (Except.ok.inj hnumel).symm
      by_cases htoken : (src.share.dtype == dst.share.dtype) = true
      · have hsame : (src.face.dtype == dst.face.dtype) = true := htoken
        rw [if_pos htoken, bind_apply] at ends
        have resized {next : DistTensor × Machine} (ended : EndsAt (resizeWith src.shape src.dimTypes
            src.distribution (some src.share.strides) (dst, machine)) next) :=
          resizeWith_of_isSound dstSound srcSound hgrid hrank hshape ended
        cases hresize : resizeWith src.shape src.dimTypes src.distribution (some src.share.strides)
            (dst, machine) with
        | error cause next =>
          rw [hresize] at ends resized
          cases cause with
          | trap trap => cases ends
          | error cause =>
            obtain ⟨_, _, hok, _⟩ := resized rfl
            cases hok
        | ok _ next =>
          obtain ⟨share, later, _, rfl, changed⟩ := resized (.of_ok hresize)
          rw [hresize] at ends
          have sound := dstSound.of_resizeWith hresize changed
          have fills := evolving_fillShare src _ _ ends
          have hdtype : state.1.share.dtype = dst.share.dtype :=
            fills.share.changed.dtype.trans changed.dtype
          have laid := isLaidAs_of_resizeWith srcSound.laid hgrid hrank hresize
          refine ⟨sound.of_fillsTo laid fills, ⟨?_, changed.trans fills.share.changed⟩, ?_⟩
          · rw [fills.same]
            rfl
          · rw [Face.copied, if_neg hsome, if_pos hsame, fills.same]
            exact congrArg (Face.mk src.shape src.dimTypes src.distribution dst.grid.shape) hdtype
      · have hother : ¬(src.face.dtype == dst.face.dtype) = true := htoken
        rw [if_neg htoken] at ends
        cases ends
        refine ⟨dstSound, .refl _, ?_⟩
        rw [Face.copied, if_neg hsome, if_neg hother]

/-- A share whose layout is to be filled from the source has the elements of it. -/
structure Filled (src : DistTensor) (share : Tensor) (machine later : Machine) : Prop where
  laid : share.IsLaidAs src.share
  filled : src.share.numel = .ok 0 ∧ share.buffer? = none ∨
    ∃ d s, share.buffer? = some d ∧ src.share.buffer? = some s ∧
      later.hostBytes d = machine.hostBytes s

/-- A buffer that is there before and after. -/
theorem lt_of_buffers {id : BufferId} {buffer : Buffer} (h : machine.buffers[id]? = some buffer) :
    id < machine.buffers.length :=
  (List.getElem?_eq_some_iff.mp h).1

/-- Filling a share that has the layout of the source already. -/
theorem fillShare_eq_ok {now : DistTensor} (sound : now.IsSound machine) (srcSound : src.IsSound machine)
    (laid : now.share.IsLaidAs src.share) (hdtype : now.share.dtype = src.share.dtype)
    (apart : ∀ id, now.share.buffer? = some id → src.share.buffer? ≠ some id)
    (memory : src.share.HasMemory) :
    ∃ share later, fillShare src (now, machine) = .ok () (now.withShare share, later) ∧
      Filled src share machine later ∧
      ∀ id buffer, now.share.buffer? ≠ some id → machine.buffers[id]? = some buffer →
        later.buffers[id]? = some buffer := by
  have hnumel : now.share.numel = src.share.numel := by rw [Tensor.numel, Tensor.numel, laid.shape]
  rcases memory with hzero | hsome
  · refine ⟨now.share, machine, ?_, ⟨laid, .inl ⟨hzero, ?_⟩⟩, fun _ _ _ h => h⟩
    · have hempty : src.isShareEmpty = .ok true := by
        rw [isShareEmpty, Tensor.isEmpty, hzero]
        rfl
      rw [fillShare, bind_apply, hempty]
      rfl
    · cases hid : now.share.buffer? with
      | none => rfl
      | some id =>
        obtain ⟨count, _, hcount, pos, _⟩ := sound.share.memory id hid
        rw [hnumel, hzero] at hcount
        cases hcount
        exact absurd pos (Nat.lt_irrefl 0)
  · obtain ⟨s, hs⟩ := Option.isSome_iff_exists.mp hsome
    obtain ⟨elements, source, hcount, pos, hsource, hsize, _⟩ :=
      Tensor.exists_buffer srcSound.host srcSound.share.toFits hs
    have hbytes : now.share.byteCount = .ok source.size := by
      rw [Tensor.byteCount, Tensor.extent, laid.shape, laid.strides, hdtype]
      exact hsize
    obtain ⟨⟨ready, grown⟩, hensure⟩ := Tensor.ensure_eq_ok sound.host (hnumel.trans hcount)
      fun _ => ⟨source.size, hbytes⟩
    have ends : EndsAt (Tensor.ensure (now.share, machine)) (ready, grown) := .of_ok hensure
    obtain ⟨passes, hasMemory, _⟩ := Tensor.passes_ensure ends
    have extended := Tensor.extends_of_ensure ends
    have readyLaid := (Tensor.evolving_ensure_fillsTo src.share _ _ ends).laid laid
    rcases hasMemory (Tensor.isView_of_onHost sound.host) with hnone | hready
    · rw [Tensor.numel, readyLaid.shape, ← Tensor.numel, hcount] at hnone
      cases hnone
      exact absurd pos (Nat.lt_irrefl 0)
    obtain ⟨d, hd⟩ := Option.isSome_iff_exists.mp hready
    have hne : d ≠ s := by
      rcases passes.buffer d hd with hnew | ⟨hold, _⟩
      · exact fun h => absurd (lt_of_buffers hsource) (Nat.not_lt_of_le (h ▸ hnew))
      · exact fun h => apart d hold (h ▸ hs)
    obtain ⟨later, hcopy, hrest, hsame⟩ := Tensor.copyFrom_eq_ok hne hd hs (passes.host sound.host)
      (srcSound.host.keeps passes.keeps) (passes.fits sound.share.toFits)
      (srcSound.share.toFits.keeps passes.keeps) srcSound.laid.strides (passes.dtype.trans hdtype)
      readyLaid.shape readyLaid.strides readyLaid.dimTypes
    refine ⟨ready, later, ?_, ⟨readyLaid, .inr ⟨d, s, hd, hs, ?_⟩⟩, fun id buffer hid hbuffer => ?_⟩
    · have hempty : src.isShareEmpty = .ok false := Tensor.isEmpty_eq_false hcount pos
      rw [fillShare, bind_apply, hempty]
      change (ensure >>= fun _ => onShare (Tensor.copyFrom src.share) : DistUpdate Unit)
        (now, machine) = _
      rw [bind_apply, ensure, onShare_apply, hensure]
      change onShare (Tensor.copyFrom src.share) (now.withShare ready, grown) = _
      have copied : Tensor.copyFrom src.share ((now.withShare ready).share, grown) =
          .ok () (ready, later) := hcopy
      rw [onShare_apply, copied]
      rfl
    · rw [hsame, Machine.hostBytes, Machine.hostBytes, Machine.buffer_of_getElem? hsource,
        Machine.buffer_of_getElem? (extended s source hsource)]
    · rw [hrest id, extended id buffer hbuffer]
      rintro rfl
      rcases passes.buffer id hd with hnew | ⟨hold, _⟩
      · exact absurd (lt_of_buffers hbuffer) (Nat.not_lt_of_le hnew)
      · exact hid hold

/-- A target of the type of the source takes its layout. -/
theorem resizeWith_eq_ok (dstSound : dst.IsSound machine) (srcSound : src.IsSound machine)
    (hgrid : dst.grid.shape = src.grid.shape) (hrank : dst.grid.rank = src.grid.rank)
    (hdtype : dst.share.dtype = src.share.dtype) (hshape : src.shape ≠ [])
    (memory : src.share.HasMemory) :
    ∃ share later, resizeWith src.shape src.dimTypes src.distribution (some src.share.strides)
        (dst, machine) = .ok () (dst.relaid src.shape src.dimTypes src.distribution share, later) ∧
      machine.Extends later ∧ Tensor.ChangesTo (dst.share, machine) (share, later) := by
  obtain ⟨hdistribution, hrankEq, _⟩ := srcSound.accepts hshape
  have hshare := srcSound.laid.share
  rw [← shareShape_congr hgrid hrank] at hshare
  have htypes : src.dimTypes.length = src.share.shape.length := by
    rw [← srcSound.laid.dimTypes]
    exact srcSound.share.dimTypes
  have hstrides : Tensor.stridesFor src.share.shape none = .ok src.share.strides := by
    rw [Tensor.stridesFor, srcSound.laid.strides]
    rfl
  have counted : ∃ count, Layout.numel src.share.shape = .ok count ∧ (count ≠ 0 →
      ∃ size, (dst.share.relaid src.share.shape src.dimTypes src.share.strides).byteCount = .ok size) := by
    rcases memory with hzero | hsome
    · exact ⟨0, hzero, fun h => absurd rfl h⟩
    · obtain ⟨s, hs⟩ := Option.isSome_iff_exists.mp hsome
      obtain ⟨count, source, hcount, _, _, hsize⟩ := srcSound.share.memory s hs
      refine ⟨count, hcount, fun _ => ⟨source.size, ?_⟩⟩
      rw [← hsize]
      exact congrArg (fun dtype : TypeInfo => do Tensor.byteSize (← src.share.extent) dtype.size) hdtype
  obtain ⟨count, hcount, hbytes⟩ := counted
  obtain ⟨⟨share, later⟩, hresize⟩ := Tensor.resize_eq_ok dstSound.host htypes hstrides hcount hbytes
  refine ⟨share, later, ?_, Tensor.extends_of_resize (.of_ok hresize),
    Tensor.evolving_resize _ _ _ _ _ (.of_ok hresize)⟩
  have haxes : ¬(src.distribution.length ≠ src.shape.length ∨
      dst.grid.shape.length ≠ src.shape.length) := by
    rw [hgrid]
    exact not_or.mpr ⟨not_not_intro hdistribution, not_not_intro hrankEq⟩
  rw [resizeWith_apply, if_neg haxes]
  simp only [hshare, mayKeep, Option.elim, Layout.isPacked_of_packedStrides srcSound.laid.strides,
    hresize]

/-- The share of the source has memory wherever it has elements, and the elements of the global shape can
be counted. Then the copy succeeds. Without elements it empties the target, and else the target has the
layout and the elements of the source; no buffer changes that the target did not have. -/
theorem copyShare_eq_ok {elements : Nat} (dstSound : dst.IsSound machine) (srcSound : src.IsSound machine)
    (hgrid : dst.grid.shape = src.grid.shape) (hrank : dst.grid.rank = src.grid.rank)
    (hdtype : dst.share.dtype = src.share.dtype)
    (apart : ∀ id, dst.share.buffer? = some id → src.share.buffer? ≠ some id)
    (hnumel : Layout.numel src.shape = .ok elements) (memory : src.share.HasMemory) :
    ∃ now later, copyShare src (dst, machine) = .ok () (now, later) ∧
      (elements = 0 → now = dst.emptied) ∧
      (elements ≠ 0 → ∃ share, now = dst.relaid src.shape src.dimTypes src.distribution share ∧
        Filled src share machine later) ∧
      ∀ id buffer, dst.share.buffer? ≠ some id → machine.buffers[id]? = some buffer →
        later.buffers[id]? = some buffer := by
  have hempty : src.isEmpty = .ok (elements == 0) := by
    rw [DistTensor.isEmpty, hnumel]
    rfl
  rw [copyShare_apply, hempty]
  by_cases hzero : elements = 0
  · rw [beq_iff_eq.mpr hzero]
    exact ⟨_, _, rfl, fun _ => rfl, fun h => absurd hzero h, fun _ _ _ h => h⟩
  · rw [beq_false_of_ne hzero]
    have hshape : src.shape ≠ [] := by
      intro hnil
      rw [hnil] at hnumel
      exact hzero (Except.ok.inj hnumel).symm
    have htoken : (src.share.dtype == dst.share.dtype) = true := by
      rw [hdtype]
      exact beq_self_eq_true src.share.dtype.token
    obtain ⟨share, grown, hresize, extended, changed⟩ :=
      resizeWith_eq_ok dstSound srcSound hgrid hrank hdtype hshape memory
    have laid := isLaidAs_of_resizeWith srcSound.laid hgrid hrank hresize
    have srcGrown : src.IsSound grown :=
      ⟨srcSound.laid, srcSound.share.keeps extended.keeps, srcSound.host.keeps extended.keeps⟩
    have fresh {id : BufferId} {buffer : Buffer} (hbuffer : machine.buffers[id]? = some buffer)
        (hid : dst.share.buffer? ≠ some id) : share.buffer? ≠ some id := by
      intro h
      rcases changed.buffer id h with hnew | ⟨hold, _⟩
      · exact absurd (lt_of_buffers hbuffer) (Nat.not_lt_of_le hnew)
      · exact hid hold
    obtain ⟨filled, later, hfill, done, rest⟩ := fillShare_eq_ok
      (dstSound.of_resizeWith hresize changed) srcGrown laid (changed.dtype.trans hdtype)
      (fun id hid hsrc => by
        obtain ⟨_, _, _, _, hbuffer, _⟩ := srcSound.share.memory id hsrc
        exact fresh hbuffer (fun h => apart id h hsrc) hid) memory
    refine ⟨_, later, ?_, fun h => absurd h hzero, fun _ => ⟨filled, rfl, done.laid, ?_⟩,
      fun id buffer hid hbuffer => rest id buffer (fresh hbuffer hid) (extended id buffer hbuffer)⟩
    · dsimp only
      rw [if_pos htoken, bind_apply, hresize]
      exact hfill
    · refine done.filled.imp id fun ⟨d, s, hd, hs, hbytes⟩ => ⟨d, s, hd, hs, ?_⟩
      obtain ⟨_, source, _, _, hsource, _⟩ := srcSound.share.memory s hs
      rw [hbytes, Machine.hostBytes, Machine.hostBytes, Machine.buffer_of_getElem? hsource,
        Machine.buffer_of_getElem? (extended s source hsource)]

end DistTensor

end ArrayEngine
