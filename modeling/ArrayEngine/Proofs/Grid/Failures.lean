import ArrayEngine.Proofs.Grid.Layouts
import ArrayEngine.Proofs.Workspace.Copies

/-! What becomes of the target of a failed copy between distributed tensors: nothing at all, or it has taken the
layout of a source that has no memory. -/
namespace ArrayEngine

/-- A stream of the host takes bytes from the host to any place at once. -/
theorem Machine.copyWithin_from_host {machine : Machine} {src : BufferId}
    (host : (machine.buffer src).place = .host) (dst : BufferId) (srcStream : Stream) (size : Nat) :
    ∃ later, copyWithin dst .cpu src srcStream size machine = .ok () later := by
  rw [copyWithin, get_bind_apply, host]
  cases (machine.buffer dst).place with
  | host =>
    dsimp only
    split <;> exact ⟨_, rfl⟩
  | gpu context => exact ⟨_, rfl⟩

namespace Tensor

variable {dst src : Tensor} {machine : Machine} {state : Tensor × Machine} {cause : TensorError}

theorem IsHosted.extends {tensor : Tensor} {later : Machine} (hosted : tensor.IsHosted machine)
    (fits : tensor.Fits machine) (longer : machine.Extends later) : tensor.IsHosted later := by
  refine ⟨hosted.stream, fun id hid => ?_⟩
  obtain ⟨_, buffer, _, _, hbuffer, _⟩ := fits.memory id hid
  rw [Machine.buffer_of_getElem? (longer id buffer hbuffer), ← Machine.buffer_of_getElem? hbuffer]
  exact hosted.memory id hid

/-- On streams of the host the bytes of a host tensor are there to be copied, unless it has none. -/
theorem bare_of_copyFrom_error (owned : dst.isView = false) (fits : dst.Fits machine)
    (housed : dst.IsHoused machine) (srcFits : src.Fits machine) (srcHoused : src.IsHoused machine)
    (hosted : src.IsHosted machine) (hstream : dst.stream = .cpu) (hdtype : dst.dtype = src.dtype)
    (hempty : src.isEmpty = .ok false)
    (h : copyFrom src (dst, machine) = .error (.error cause) state) :
    cause = .device .nullBuffer ∧ src.buffer? = none ∧ state.1.shape = src.shape ∧
      state.1.strides = src.strides ∧ (∃ id, state.1.buffer? = some id) ∧ state.1.Fits state.2 ∧
      machine.Extends state.2 := by
  have htoken : (dst.dtype == src.dtype) = true := by
    rw [hdtype]
    exact beq_self_eq_true src.dtype.token
  obtain ⟨laid, ready, count, size, hresize, hensure, hcount, hsize, hcopy⟩ :=
    ready_of_copyFrom owned htoken srcFits.dimTypes srcFits.strides hempty (.of_error h)
  replace hcopy := hcopy.symm.trans h
  have longer := (extends_of_resize (.of_ok hresize)).trans (extends_of_ensure (.of_ok hensure))
  have hbytes : size ≠ 0 := by
    rintro rfl
    rw [Machine.copyBytes_zero] at hcopy
    cases hcopy
  cases hid : src.buffer? with
  | some id =>
    -- the source has bytes, and nothing is in the way of a copy of them
    have sized := pos_of_mul_ne_zero hsize hbytes
    obtain ⟨buffer, elements, extent, holds⟩ := exists_holds srcFits srcHoused sized hid
    obtain ⟨d, target, taken, htarget⟩ := holds.ready fits housed hdtype hresize hensure
    obtain rfl := holds.bytes_moved hcount hsize
    have hsource := longer id buffer holds.found
    have hplace : (ready.2.buffer id).place = .host := by
      rw [Machine.buffer_of_getElem? hsource]
      exact hosted.place holds
    have hready : ready.1.stream = .cpu :=
      ((sameStream_of_ensure hensure).trans (sameStream_of_resize hresize)).stream.trans hstream
    obtain ⟨later, hlater⟩ := Machine.copyWithin_from_host hplace d src.stream buffer.size
    obtain ⟨_, _, _, herror⟩ := error_of_onMachine hcopy
    rw [taken.held, hid, hready, Machine.copyBytes_eq_copyWithin holds.size_ne_zero taken.found hsource
      htarget.ge (Nat.le_refl _), hlater] at herror
    cases herror
  | none =>
    rw [hid, onMachine, zoom, onDevice, adaptErrors, Machine.copyBytes_of_none hbytes] at hcopy
    cases hcopy
    obtain ⟨hshape, _, hlaid⟩ := layout_of_resize hresize
    obtain ⟨kshape, _, kstrides⟩ := layout_of_ensure hensure
    obtain ⟨elements, hnumel, pos⟩ := exists_pos_of_isEmpty hempty
    have laidNumel : laid.1.numel = .ok elements := by
      rw [Tensor.numel, hshape]
      exact hnumel
    have passes := (evolving_resize _ _ _ _ _ (.of_ok hresize)).toPasses.trans
      (evolving_ensure _ _ (.of_ok hensure)).toPasses
    exact ⟨rfl, rfl, kshape.trans hshape, kstrides.trans (stridesFor_some.mp hlaid).2.symm,
      exists_id_of_ensure laidNumel pos hensure, passes.fits fits, longer⟩

end Tensor

namespace DistTensor

variable {tensor dst src : DistTensor} {machine : Machine} {state : DistTensor × Machine} {cause : DistError}

/-- A tensor whose share is no view stays as it was if a layout is refused. -/
theorem resizeWith_error_eq {shape : List Nat} {dimTypes : List DimType} {distribution : List Distribution}
    {shareStrides? : Option (List Nat)} (owned : tensor.share.isView = false)
    (h : resizeWith shape dimTypes distribution shareStrides? (tensor, machine) = .error (.error cause) state) :
    state = (tensor, machine) := by
  obtain rfl | ⟨_, _, _, hok, _⟩ := resizeWith_ends owned (.of_error h)
  · rfl
  · cases h.symm.trans hok

/-- The share is resized with the tensor. -/
theorem exists_resize_of_resizeWith {shape : List Nat} {dimTypes : List DimType}
    {distribution : List Distribution} {shareStrides? : Option (List Nat)}
    (h : resizeWith shape dimTypes distribution shareStrides? (tensor, machine) = .ok () state) :
    ∃ share, Tensor.resize share dimTypes none (tensor.share, machine) = .ok () (state.1.share, state.2) := by
  rw [resizeWith_apply] at h
  split at h
  · cases h
  · split at h
    · cases h
    · split at h
      · cases h
      · cases h
      · split at h
        · next hresize =>
          cases h
          exact ⟨_, hresize⟩
        · cases h

/-- A share is filled only where the source has elements, and with memory for it. -/
theorem copyFrom_of_fillShare_error (owned : tensor.share.isView = false)
    (h : fillShare src (tensor, machine) = .error (.error cause) state) :
    src.share.isEmpty = .ok false ∧ ∃ reported ready last,
      Tensor.ensure (tensor.share, machine) = .ok () ready ∧
      Tensor.copyFrom src.share ready = .error (.error reported) last ∧ cause = .tensor reported ∧
      state = (tensor.withShare last.1, last.2) := by
  change (monadLift src.share.isEmpty >>= _ : DistUpdate Unit) (tensor, machine) = _ at h
  rw [bind_apply] at h
  cases hempty : src.share.isEmpty with
  | error trap =>
    rw [hempty] at h
    cases h
  | ok empty =>
    rw [hempty] at h
    cases empty with
    | true => cases h
    | false =>
      change (onShare Tensor.ensure >>= fun _ => onShare (Tensor.copyFrom src.share) : DistUpdate Unit)
        (tensor, machine) = _ at h
      rw [bind_apply, onShare_apply] at h
      cases hensure : Tensor.ensure (tensor.share, machine) with
      | error refused last =>
        rw [hensure] at h
        cases refused with
        | trap trap => cases h
        | error refused => exact absurd hensure (Tensor.ensure_ne_error owned)
      | ok _ ready =>
        rw [hensure] at h
        have hshare : (tensor.withShare ready.1).share = ready.1 := rfl
        change onShare (Tensor.copyFrom src.share) (tensor.withShare ready.1, ready.2) = _ at h
        rw [onShare_apply, hshare] at h
        cases hcopy : Tensor.copyFrom src.share ready with
        | ok _ last =>
          rw [hcopy] at h
          cases h
        | error refused last =>
          rw [hcopy] at h
          cases refused with
          | trap trap => cases h
          | error reported =>
            cases h
            exact ⟨rfl, reported, ready, last, rfl, hcopy, rfl, rfl⟩

/-- A distributed tensor has the layout of another one on its own grid, and memory for a share like that one's. -/
structure IsReadyFor (now dst src : DistTensor) (later : Machine) : Prop where
  grid : now.grid = dst.grid
  shape : now.shape = src.shape
  dimTypes : now.dimTypes = src.dimTypes
  distribution : now.distribution = src.distribution
  shareShape : now.share.shape = src.share.shape
  shareStrides : now.share.strides = src.share.strides
  memory : ∃ id buffer, now.share.buffer? = some id ∧ later.buffers[id]? = some buffer ∧
    now.share.byteCount = .ok buffer.size

/-- A copy without other processes fails before anything is changed, or for want of memory of the source. -/
theorem copyShare_error_cases (owned : dst.share.isView = false) (fits : dst.share.Fits machine)
    (housed : dst.share.IsHoused machine) (srcFits : src.share.Fits machine)
    (srcHoused : src.share.IsHoused machine) (hosted : src.share.IsHosted machine)
    (hstream : dst.share.stream = .cpu)
    (known : (src.share.dtype == dst.share.dtype) = true → src.share.dtype = dst.share.dtype)
    (h : copyShare src (dst, machine) = .error (.error cause) state) :
    state = (dst, machine) ∨
      cause = .tensor (.device .nullBuffer) ∧ src.share.isEmpty = .ok false ∧ src.share.buffer? = none ∧
        state.1.IsReadyFor dst src state.2 ∧ machine.Extends state.2 := by
  rw [copyShare_apply] at h
  split at h
  · cases h
  · cases h
  · split at h
    · next same =>
      rw [bind_apply] at h
      cases hresize : resizeWith src.shape src.dimTypes src.distribution (some src.share.strides) (dst, machine) with
      | error refused last =>
        rw [hresize] at h
        cases h
        exact .inl (resizeWith_error_eq owned hresize)
      | ok _ laid =>
        rw [hresize] at h
        obtain ⟨hgrid, hshape, htypes, hdist, _⟩ := layout_of_resizeWith hresize
        obtain ⟨share, hlaid⟩ := exists_resize_of_resizeWith hresize
        have changed := Tensor.evolving_resize _ _ _ _ _ (.of_ok hlaid)
        obtain ⟨hempty, reported, ready, last, hensure, hcopy, rfl, rfl⟩ :=
          copyFrom_of_fillShare_error (changed.owned owned) h
        have passes := changed.trans (Tensor.evolving_ensure _ _ (.of_ok hensure))
        have longer := (Tensor.extends_of_resize (.of_ok hlaid)).trans (Tensor.extends_of_ensure (.of_ok hensure))
        have hready : ready.1.stream = .cpu :=
          ((Tensor.sameStream_of_ensure hensure).trans (Tensor.sameStream_of_resize hlaid)).stream.trans hstream
        obtain ⟨rfl, bare, kshape, kstrides, ⟨id, hid⟩, kfits, grown⟩ :=
          Tensor.bare_of_copyFrom_error (passes.owned owned) (passes.fits fits) (passes.housed housed)
            (srcFits.keeps passes.keeps) (srcHoused.keeps passes.keeps) (hosted.extends srcFits longer) hready
            (passes.dtype.trans (known same).symm) hempty hcopy
        obtain ⟨_, buffer, _, _, hbuffer, hsize⟩ := kfits.memory id hid
        exact .inr ⟨rfl, hempty, bare, ⟨hgrid, hshape, htypes, hdist, kshape, kstrides,
          id, buffer, hid, hbuffer, hsize⟩, longer.trans grown⟩
    · cases h
      exact .inl rfl

/-- A copy that checks no calls, between distributed tensors of any layouts whose shares are tensors of a
reachable workspace, the one to copy from on the host, both worked on there. The call returns. If it returns an
error, it has changed nothing, neither the target nor any buffer; or the source has elements but no memory for
them, and the target has the layout of the source and memory for it, with all buffers from before as they
were. -/
theorem failed_copies_of_reachable (hash : CopyTerms → UInt64) {workspace : Workspace} (reachable : workspace.Reachable)
    (typed : workspace.IsTyped) {name other : String}
    (hdst : workspace.tensors.lookup name = some dst.share)
    (hsrc : workspace.tensors.lookup other = some src.share) (owned : dst.share.ownership = .exclusive)
    (hstream : dst.share.stream = .cpu) (hosted : src.share.IsHosted workspace.machine)
    (unchecked : src.grid.comm.checks = false) :
    ∃ result, copy hash dst src workspace.machine = .done result ∧
      ∀ cause now later, result = .error (.error cause) (now, later) →
        now = dst ∧ later = workspace.machine ∨
        cause = .tensor (.device .nullBuffer) ∧ src.share.isEmpty = .ok false ∧ src.share.buffer? = none ∧
          now.IsReadyFor dst src later ∧ workspace.machine.Extends later := by
  have sound := reachable.sound
  have isOwn : dst.share.isView = false := by
    rw [Tensor.isView, owned]
    rfl
  by_cases congruent : dst.grid.isCongruent src.grid = true
  · refine ⟨copyShare src (dst, workspace.machine), ?_, fun cause now later h => ?_⟩
    · rw [copy, if_pos congruent, if_neg (by rw [unchecked]; exact Bool.false_ne_true)]
    · exact (copyShare_error_cases isOwn (sound.each hdst).toFits (sound.housed hdst) (sound.each hsrc).toFits
        (sound.housed hsrc) hosted hstream (typed _ _ hsrc |>.eq_of_beq (typed _ _ hdst)) h).imp Prod.mk.inj id
  · refine ⟨_, by rw [copy, if_neg congruent], fun cause now later h => ?_⟩
    cases h
    exact .inl ⟨rfl, rfl⟩

/-- One number on a process on its own. -/
def lone : DistTensor :=
  ⟨[1], [.any], ⟨.single, [1]⟩, [.block], ⟨[1], [.any], [1], .f32, .cpu, .cpu, some 0, .exclusive, false⟩⟩

/-- Two numbers there without memory. Their share was given another axis, with a stride that takes no steps. -/
def bare : DistTensor :=
  ⟨[2], [.channel], ⟨.single, [1]⟩, [.block],
    ⟨[2, 1], [.any, .any], [1, 7], .f32, .cpu, .cpu, none, .exclusive, true⟩⟩

/-- A workspace that holds the shares of both. -/
def shares : Workspace :=
  { Workspace.initial with
    machine := { Machine.initial with buffers := [.zeroed .host 4] }
    tensors := [("s", bare.share), ("d", lone.share)] }

theorem reachable_shares : shares.Reachable := by
  have reachable : Workspace.initial.Reachable := .start rfl Catalogue.tame_initial
  have reachable := reachable.make (.packed .f32 [1] .cpu false) (.of_ok rfl : EndsAt (Workspace.create "d" _ _) _)
  exact reachable.make (.layout .f32 [2, 1] [.any, .any] (some [1, 7]) .cpu true)
    (.of_ok rfl : EndsAt (Workspace.create "s" _ _) _)

theorem isTyped_shares : shares.IsTyped := by
  have all : ∀ entry ∈ shares.tensors, entry.2.dtype = .f32 := by
    simp [shares, bare, lone]
  exact Workspace.isTyped_of_forall fun entry hentry => all entry hentry ▸ TypeTable.known_f32

/-- The number is given up for the layout of the two others, and their share is laid out with the odd stride. -/
theorem failed_copies_of_reachable_bare : ∃ now later, shares.Reachable ∧
    copy CopyTerms.fingerprint lone bare shares.machine =
        .done (.error (.error (.tensor (.device .nullBuffer))) (now, later)) ∧
      now ≠ lone ∧ now.IsReadyFor lone bare later ∧ now.shape = [2] ∧ now.share.strides = [1, 7] ∧
      shares.machine.Extends later := by
  obtain ⟨_, hcopy, outcome⟩ := failed_copies_of_reachable CopyTerms.fingerprint reachable_shares isTyped_shares
    (rfl : shares.tensors.lookup "d" = some lone.share) (rfl : shares.tensors.lookup "s" = some bare.share) rfl rfl
    ⟨rfl, nofun⟩ rfl
  cases hcopy
  have differs {now : DistTensor} (hshape : now.shape = [2]) : now ≠ lone := by
    rintro rfl
    cases hshape
  obtain ⟨same, _⟩ | ⟨_, _, _, ready, longer⟩ := outcome _ _ _ rfl
  · exact absurd same (differs rfl)
  · refine ⟨_, _, reachable_shares, rfl, ?_, ready, rfl, rfl, longer⟩
    exact differs rfl

end DistTensor

end ArrayEngine
