import ArrayEngine.Proofs.Machine.Bounds

/-! Downloads on their way: what every buffer holds once the host has waited for them. -/
namespace ArrayEngine

/-- Bytes moved with their padding. -/
theorem Bytes.take_overwrite_take {size padded : Nat} {data bytes : List UInt8} (hsize : size ≤ padded)
    (hdata : padded ≤ data.length) (hbytes : padded ≤ bytes.length) :
    (overwrite 0 (data.take padded) bytes).take size = data.take size := by
  have hpadded : (data.take padded).length = padded := by rw [List.length_take, Nat.min_eq_left hdata]
  have htaken := congrArg (List.take size) (take_overwrite_zero hpadded hbytes)
  rwa [List.take_take, List.take_take, Nat.min_eq_left hsize] at htaken

/-- What becomes of the bytes of a buffer by some downloads, one after the other. -/
def Download.received (downloads : List Download) (id : BufferId) (bytes : List UInt8) : List UInt8 :=
  downloads.foldl (fun bytes entry =>
    if entry.target = id then Bytes.overwrite 0 entry.data bytes else bytes) bytes

namespace Download

variable {downloads : List Download} {id : BufferId} {bytes data : List UInt8}

theorem received_of_ne (h : ∀ entry ∈ downloads, entry.target ≠ id) : received downloads id bytes = bytes := by
  induction downloads generalizing bytes with
  | nil => rfl
  | cons entry downloads ih =>
    rw [received, List.foldl_cons, if_neg (h entry List.mem_cons_self)]
    exact ih fun other hmem => h other (List.mem_cons_of_mem _ hmem)

theorem length_received (downloads : List Download) (id : BufferId) (bytes : List UInt8) :
    (received downloads id bytes).length = bytes.length := by
  induction downloads generalizing bytes with
  | nil => rfl
  | cons entry downloads ih =>
    rw [received, List.foldl_cons]
    refine (ih _).trans ?_
    split
    · exact Bytes.length_overwrite 0 entry.data bytes
    · rfl

/-- The newest download of a buffer is the one that stays. -/
theorem take_received_concat (hroom : data.length ≤ bytes.length) :
    (received (downloads ++ [⟨id, data⟩]) id bytes).take data.length = data := by
  rw [received, List.foldl_append, List.foldl_cons, List.foldl_nil, if_pos rfl]
  refine Bytes.take_overwrite_zero rfl ?_
  rwa [← received, length_received]

theorem received_concat_of_ne {entry : Download} (h : entry.target ≠ id) :
    received (downloads ++ [entry]) id bytes = received downloads id bytes := by
  rw [received, List.foldl_append, List.foldl_cons, List.foldl_nil, if_neg h]
  rfl

end Download

namespace Machine

variable {machine : Machine} {context : ContextId} {found : Context} {dst src : BufferId}

theorem context_of_getElem? (h : machine.contexts[context]? = some found) :
    machine.context context = found := by
  rw [Machine.context, h, Option.getD_some]

theorem getElem?_withBuffer_self (machine : Machine) (place : Place) (size : Nat) :
    (machine.withBuffer place size).buffers[machine.buffers.length]? = some (.zeroed place size) :=
  List.getElem?_concat_length

/-- Delivery takes every buffer to what it receives. -/
theorem getElem?_deliver (machine : Machine) (context : ContextId) (id : BufferId) :
    (machine.deliver context).buffers[id]? = machine.buffers[id]?.map fun buffer =>
      { buffer with bytes := Download.received (machine.context context).downloads id buffer.bytes } := by
  rw [deliver]
  change ((machine.context context).downloads.foldl
    (fun machine entry => machine.store entry.target 0 entry.data) machine).buffers[id]? = _
  -- on the downloads, whatever the machine is by then
  generalize (machine.context context).downloads = downloads
  induction downloads generalizing machine with
  | nil => exact (congrFun Option.map_id _).symm
  | cons entry downloads ih =>
    rw [List.foldl_cons, ih, store, List.getElem?_modify]
    cases machine.buffers[id]? with
    | none => rfl
    | some buffer =>
      by_cases htarget : entry.target = id <;> simp [htarget, Download.received]

/-- A wait for a context with nothing to report delivers all that is on its way. -/
theorem poll_eq_ok (clean : (machine.context context).failed = false) :
    poll context machine = .ok () (machine.deliver context) := by
  rw [poll, modify_bind_apply, get_bind_apply, failed_deliver, clean]
  rfl

section Copies

variable {target source : Buffer} (htarget : machine.buffers[dst]? = some target)
  (hsource : machine.buffers[src]? = some source)
include htarget hsource

/-- A copy from the host to a GPU that is there, padding and all. -/
theorem copyWithin_upload (hplace : target.place = .gpu context) (host : source.place = .host)
    (present : (machine.context context).lost = false) (stream : Nat) (srcStream : Stream) (size : Nat) :
    copyWithin dst (.gpu context stream) src srcStream size machine =
      .ok () (machine.store dst 0 (source.bytes.take (roundUp copyGranule size))) := by
  have serves : serves (.gpu context stream) context = true := by simp [serves, Stream.context?]
  rw [copyWithin, get_bind_apply, buffer_of_getElem? htarget, buffer_of_getElem? hsource, hplace, host]
  dsimp only
  rw [if_pos serves]
  change EStateM.Result.ok () (machine.submit context _) = _
  rw [submit, present, if_neg Bool.false_ne_true]

/-- A copy from a GPU to the host is on its way. -/
theorem copyWithin_download (host : target.place = .host) (hplace : source.place = .gpu context)
    (dstStream : Stream) (stream size : Nat) :
    copyWithin dst dstStream src (.gpu context stream) size machine =
      .ok () (machine.download context ⟨dst, source.bytes.take size⟩) := by
  have serves : serves (.gpu context stream) context = true := by simp [serves, Stream.context?]
  rw [copyWithin, get_bind_apply, buffer_of_getElem? htarget, buffer_of_getElem? hsource, host, hplace]
  dsimp only
  rw [if_pos serves]
  rfl

end Copies

theorem context_download (h : machine.contexts[context]? = some found) (present : found.lost = false)
    (entry : Download) : (machine.download context entry).context context =
      { found with downloads := found.downloads ++ [entry] } := by
  refine context_of_getElem? ?_
  rw [download, modifyContext, List.getElem?_modify, h]
  simp [present]

section Sent

variable (h : machine.contexts[context]? = some found) (present : found.lost = false)
include h present

theorem getElem?_deliver_download (entry : Download) (id : BufferId) :
    ((machine.download context entry).deliver context).buffers[id]? = machine.buffers[id]?.map fun buffer =>
      { buffer with bytes := Download.received (found.downloads ++ [entry]) id buffer.bytes } := by
  rw [getElem?_deliver, context_download h present]
  rfl

/-- A download is there once the host has waited for it. -/
theorem hostBytes_deliver_download {target : Buffer} {data : List UInt8}
    (htarget : machine.buffers[dst]? = some target) (host : target.place = .host)
    (hdata : data.length = target.size) (hroom : target.size ≤ target.bytes.length) :
    ((machine.download context ⟨dst, data⟩).deliver context).hostBytes dst = .ok data := by
  have hdelivered := getElem?_deliver_download h present ⟨dst, data⟩ dst
  rw [htarget, Option.map_some] at hdelivered
  rw [hostBytes_of_getElem? hdelivered host]
  dsimp only
  rw [← hdata, Download.take_received_concat (Nat.le_trans (Nat.le_of_eq hdata) hroom)]

/-- No other buffer receives anything from it. -/
theorem getElem?_deliver_download_of_ne {entry : Download} {id : BufferId} (hne : entry.target ≠ id) :
    ((machine.download context entry).deliver context).buffers[id]? =
      (machine.deliver context).buffers[id]? := by
  rw [getElem?_deliver_download h present, getElem?_deliver, context_of_getElem? h]
  simp only [Download.received_concat_of_ne hne]

end Sent

end Machine

end ArrayEngine
