import ArrayEngine.Proofs.Tensor.RoundTrip
import ArrayEngine.Proofs.Workspace.Bounds

/-! The tensors of a reachable workspace on their way from the host to a GPU and back. -/
namespace ArrayEngine

namespace Workspace

variable {workspace : Workspace}

/-- A tensor on the host comes back from a GPU that works as one of the same layout, and all that it reaches
over reads as it did before, gaps included. On a GPU that shares its memory with the host both tensors on the
way are views, and no memory changes at all. On any other one both are copies. The memory of the tensor itself
then only changes by downloads that were on their way to it from the start. -/
theorem round_trips_of_reachable (reachable : Reachable workspace) {name : String} {src : Tensor}
    {id : BufferId} (found : workspace.tensors.lookup name = some src) (hid : src.buffer? = some id)
    (hdevice : src.device = .cpu) (hstream : src.stream = .cpu)
    (host : (workspace.machine.buffer id).place = .host) (sized : 0 < src.dtype.size) {context : ContextId}
    {gpu : Context} (hcontext : workspace.machine.contexts[context]? = some gpu) (present : gpu.lost = false)
    (clean : gpu.failed = false) (stream : Nat) :
    ∃ (extent : Nat) (span : List Element) (away back : Tensor) (middle later : Machine),
      src.extent = .ok extent ∧ span.length = extent ∧
      src.read workspace.machine = .ok span workspace.machine ∧
      src.accessibleOn .gpu (some (.gpu context stream)) workspace.machine = .ok away middle ∧
      away.accessibleOn .cpu none middle = .ok back later ∧
      (back.device = .cpu ∧ back.dtype = src.dtype ∧ back.shape = src.shape ∧ back.dimTypes = src.dimTypes ∧
        back.strides = src.strides) ∧
      back.read later = .ok span later ∧
      (gpu.unified = true → away.isView = true ∧ back.isView = true ∧ away.buffer? = some id ∧
        back.buffer? = some id ∧ later = workspace.machine) ∧
      (gpu.unified = false → away.isView = false ∧ back.isView = false ∧ away.buffer? ≠ some id ∧
        back.buffer? ≠ some id ∧ later.buffers[id]? = (workspace.machine.deliver context).buffers[id]?) ∧
      ((∀ entry ∈ gpu.downloads, entry.target ≠ id) → later.buffers[id]? = workspace.machine.buffers[id]?) := by
  have sound := reachable.sound.each found
  obtain ⟨buffer, elements, extent, holds⟩ :=
    Tensor.exists_holds sound.toFits (reachable.sound.housed found) sized hid
  have hbuffer := holds.found
  rw [Machine.buffer_of_getElem? hbuffer] at host
  cases hunified : gpu.unified with
  | true =>
    obtain ⟨hthere, hback⟩ := holds.round_trip_shared host hdevice hstream hcontext hunified stream
    obtain ⟨span, hlength, hread, hsame⟩ :=
      holds.read_eq host ((src.viewOn .gpu (.gpu context stream)).viewOn .cpu .cpu) workspace.machine rfl rfl
        rfl hid rfl
    exact ⟨extent, span, _, _, _, _, holds.reach, hlength, hread, hthere, hback, ⟨rfl, rfl, rfl, rfl, rfl⟩,
      hsame, fun _ => ⟨rfl, rfl, hid, hid, rfl⟩, nofun, fun _ => rfl⟩
  | false =>
    obtain ⟨middle, later, hthere, hback, hbytes, hrest⟩ :=
      holds.round_trip_apart sound.dimTypes host hdevice hcontext present clean hunified stream
    have hlt : id < workspace.machine.buffers.length := (List.getElem?_eq_some_iff.mp hbuffer).1
    have hdelivered := hrest id hlt
    obtain ⟨span, hlength, hread, hsame⟩ :=
      holds.read_eq host ((src.onStream .cpu).placed (workspace.machine.buffers.length + 1)) later rfl rfl rfl
        rfl hbytes
    refine ⟨extent, span, _, _, middle, later, holds.reach, hlength, hread, hthere, hback,
      ⟨rfl, rfl, rfl, rfl, rfl⟩, hsame, nofun,
      fun _ => ⟨rfl, rfl, ?_, ?_, hdelivered⟩, fun others => ?_⟩
    · exact fun h => Nat.ne_of_gt hlt (Option.some.inj h)
    · exact fun h => Nat.ne_of_gt (Nat.lt_succ_of_lt hlt) (Option.some.inj h)
    · rw [hdelivered, Machine.getElem?_deliver, Machine.context_of_getElem? hcontext, hbuffer, Option.map_some,
        Download.received_of_ne others]

/-- A GPU with memory of its own that has nothing to report. -/
def discrete : Machine := (Machine.initial.contextOf 0 false).2

/-- Five bytes with gaps between them, the gaps filled as well, and a GPU with memory of its own. -/
def numbered : Workspace :=
  { initial with
    machine := { discrete with buffers := [⟨9, .host, [1, 2, 3, 4, 5, 6, 7, 8, 9, 0, 0, 0, 0, 0, 0, 0]⟩] }
    tensors := [("a", gaps .cpu 0)] }

theorem reachable_numbered : Reachable numbered := by
  have reachable : Reachable initial := .start rfl Catalogue.tame_initial
  have reachable := reachable.make (.layout ⟨5, .u8⟩ [5] [.any] (some [2]) .cpu false)
    (.of_ok rfl : EndsAt (create "a" _ _) _)
  exact reachable.outside rfl (Machine.keeps_store _ 0 0 [1, 2, 3, 4, 5, 6, 7, 8, 9]) Catalogue.tame_initial

/-- Nine bytes, which are no whole granules, come back from the GPU with what is in the gaps. -/
theorem round_trips_of_reachable_gaps :
    ∃ away back middle later, Reachable numbered ∧
      (gaps .cpu 0).accessibleOn .gpu (some (.gpu 0 3)) numbered.machine = .ok away middle ∧
      away.accessibleOn .cpu none middle = .ok back later ∧
      back.read later = .ok [[1], [2], [3], [4], [5], [6], [7], [8], [9]] later ∧ back.isView = false ∧
      later.buffers[0]? = numbered.machine.buffers[0]? := by
  obtain ⟨_, span, away, back, middle, later, _, _, hread, hthere, hback, _, hsame, _, hcopies, hkept⟩ :=
    round_trips_of_reachable reachable_numbered (rfl : numbered.tensors.lookup "a" = some (gaps .cpu 0)) rfl rfl
      rfl rfl (by decide) (rfl : numbered.machine.contexts[0]? = some _) rfl rfl 3
  cases hread
  exact ⟨away, back, middle, later, reachable_numbered, hthere, hback, hsame, (hcopies rfl).2.1,
    hkept fun entry hentry => absurd hentry List.not_mem_nil⟩

/-- The copy of a number from the GPU to a tensor on the host is still on its way when that tensor is made
accessible there. It arrives by the wait for the way back: what comes back is what the tensor held at first,
and the tensor itself holds the number by then. -/
theorem round_trip_delivers_earlier_copy :
    ∃ workspace src gpu away back middle later, Reachable workspace ∧
      workspace.tensors.lookup "s" = some src ∧ src.buffer? = some 1 ∧ src.device = .cpu ∧ src.stream = .cpu ∧
      (workspace.machine.buffer 1).place = .host ∧ workspace.machine.contexts[0]? = some gpu ∧
      gpu.unified = false ∧ gpu.lost = false ∧ gpu.failed = false ∧
      src.read workspace.machine = .ok [[0, 0, 0, 0]] workspace.machine ∧
      src.accessibleOn .gpu (some (.gpu 0 0)) workspace.machine = .ok away middle ∧
      away.accessibleOn .cpu none middle = .ok back later ∧
      back.read later = .ok [[0, 0, 0, 0]] later ∧ src.read later = .ok [[7, 0, 0, 0]] later := by
  have reachable : Reachable initial := .start rfl Catalogue.tame_initial
  have reachable : Reachable { initial with machine := discrete } :=
    reachable.outside rfl (.of_buffers_eq rfl) Catalogue.tame_initial
  have reachable := reachable.make (.packed numbers [1] (.gpu 0 0) false)
    (.of_ok rfl : EndsAt (create "g" _ _) _)
  have reachable := @Reachable.change _ _ "g" _ _ reachable rfl (.fill [7, 0, 0, 0]) (.of_ok rfl)
  have reachable := reachable.make (.packed numbers [1] .cpu false)
    (.of_ok rfl : EndsAt (create "s" _ _) _)
  -- no wait follows this copy
  have reachable := @Reachable.change _ _ "s" _ _ reachable rfl (@Changing.copy _ "g" _ rfl) (.of_ok rfl)
  exact ⟨_, _, _, _, _, _, _, reachable, rfl, rfl, rfl, rfl, rfl, rfl, rfl, rfl, rfl, rfl, rfl, rfl, rfl, rfl⟩

end Workspace

end ArrayEngine
