import ArrayEngine.Proofs.Machine.Contents
import ArrayEngine.Proofs.Tensor.Change

/-! The elements of host tensors: when a change of layout and a copy succeed, and what is read after
them. -/
namespace ArrayEngine

namespace Tensor

variable {tensor dst src : Tensor} {machine later : Machine} {state : Tensor × Machine}

theorem isView_of_onHost (host : tensor.OnHost machine) : tensor.isView = false := by
  rw [isView, host.ownership]
  rfl

/-- Taking memory succeeds for a tensor of its own if it can be counted how much it takes. -/
theorem ensure_eq_ok {elements : Nat} (host : tensor.OnHost machine)
    (hnumel : tensor.numel = .ok elements) (hbytes : elements ≠ 0 → ∃ size, tensor.byteCount = .ok size) :
    ∃ state, ensure (tensor, machine) = .ok () state := by
  have hensured : tensor.isEnsured = .ok (elements == 0 || tensor.buffer?.isSome) := by
    rw [isEnsured, isEmpty, hnumel]
    rfl
  rw [ensure_apply, hensured]
  cases hdone : elements == 0 || tensor.buffer?.isSome with
  | true => exact ⟨_, rfl⟩
  | false =>
    have hzero : elements ≠ 0 := by simpa using (Bool.or_eq_false_iff.mp hdone).1
    obtain ⟨size, hsize⟩ := hbytes hzero
    simp only [isView_of_onHost host, hsize]
    exact ⟨_, rfl⟩

/-- So does giving it a new layout. -/
theorem resize_eq_ok {shape strides : List Nat} {dimTypes : List DimType}
    {strides? : Option (List Nat)} {elements : Nat} (host : tensor.OnHost machine)
    (htypes : dimTypes.length = shape.length) (hstrides : stridesFor shape strides? = .ok strides)
    (hnumel : Layout.numel shape = .ok elements)
    (hbytes : elements ≠ 0 → ∃ size, (tensor.relaid shape dimTypes strides).byteCount = .ok size) :
    ∃ state, resize shape dimTypes strides? (tensor, machine) = .ok () state := by
  have relaid := passes_relaid tensor machine htypes (length_of_stridesFor hstrides)
  rw [resize_apply, if_neg (not_not_intro htypes), hstrides]
  simp only [isView_of_onHost host, Bool.false_eq_true, if_false]
  split
  · exact ⟨_, rfl⟩
  · exact ensure_eq_ok (relaid.host host) hnumel hbytes

theorem extends_of_ensure (ends : EndsAt (ensure (tensor, machine)) state) :
    machine.Extends state.2 := by
  rcases ensure_cases ends with ⟨rfl, _⟩ | ⟨_, size, _, _, _, rfl⟩
  · exact .refl machine
  · exact Machine.extends_withBuffer machine _ size

theorem extends_of_resize {shape : List Nat} {dimTypes : List DimType} {strides? : Option (List Nat)}
    (ends : EndsAt (resize shape dimTypes strides? (tensor, machine)) state) :
    machine.Extends state.2 := by
  rcases resize_cases ends with rfl | ⟨strides, _, _, ⟨_, rfl⟩ | ⟨_, rfl⟩ | ⟨_, ends⟩⟩
  · exact .refl machine
  · exact .refl machine
  · exact .refl machine
  · exact extends_of_ensure ends

/-- A tensor that has memory keeps it. -/
theorem ensure_self {id : BufferId} (fits : tensor.Fits machine) (hid : tensor.buffer? = some id) :
    ensure (tensor, machine) = .ok () (tensor, machine) := by
  obtain ⟨elements, _, hnumel, _⟩ := fits.memory id hid
  have hensured : tensor.isEnsured = .ok true := by
    rw [isEnsured, isEmpty, hnumel, hid]
    exact congrArg _ (Bool.or_true _)
  rw [ensure_apply, hensured]

theorem resize_self {id : BufferId} (host : tensor.OnHost machine) (fits : tensor.Fits machine)
    (hid : tensor.buffer? = some id) :
    resize tensor.shape tensor.dimTypes (some tensor.strides) (tensor, machine) =
      .ok () (tensor, machine) := by
  have hself : tensor.relaid tensor.shape tensor.dimTypes tensor.strides = tensor := by
    simp [relaid]
  have hstrides : stridesFor tensor.shape (some tensor.strides) = .ok tensor.strides := by
    rw [stridesFor, if_pos fits.strides]
  rw [resize_apply, if_neg (not_not_intro fits.dimTypes), hstrides]
  simp only [isView_of_onHost host, Bool.false_eq_true, if_false, hself]
  split
  · rfl
  · exact ensure_self fits hid

/-- A packed tensor has as many bytes as its elements together. -/
theorem byteCount_of_packed {elements size : Nat}
    (packed : Layout.packedStrides tensor.shape = .ok tensor.strides)
    (hnumel : tensor.numel = .ok elements) (pos : 0 < elements) (h : tensor.byteCount = .ok size) :
    tensor.copyCount = .ok elements ∧ Word.mul elements tensor.dtype.size = .ok size := by
  obtain ⟨extent, hextent, hsize⟩ := byteCount_eq_ok.mp h
  cases hextent.symm.trans (Layout.extent_eq_of_packedStrides packed hnumel pos)
  refine ⟨?_, mul_of_byteSize hsize⟩
  rw [copyCount, isPacked, Layout.isPacked_of_packedStrides packed]
  exact hnumel

/-- A copy from a tensor with elements moves some. -/
theorem pos_of_copyCount {count : Nat} (hempty : tensor.isEmpty = .ok false)
    (h : tensor.copyCount = .ok count) : 0 < count := by
  obtain ⟨elements, hnumel, pos⟩ := exists_pos_of_isEmpty hempty
  obtain ⟨packed, _, h⟩ := except_bind_eq_ok.mp h
  split at h
  · cases hnumel.symm.trans h
    exact pos
  · exact Layout.pos_of_extent hnumel pos h

/-- The bytes that a copy from a tensor with elements moves are not none. -/
theorem size_ne_zero_of_copyCount {count size : Nat} (hempty : tensor.isEmpty = .ok false)
    (sized : 0 < tensor.dtype.size) (hcount : tensor.copyCount = .ok count)
    (hsize : Word.mul count tensor.dtype.size = .ok size) : size ≠ 0 := by
  obtain ⟨rfl, _⟩ := Word.mul_eq_ok.mp hsize
  exact Nat.ne_of_gt (Nat.mul_pos (pos_of_copyCount hempty hcount) sized)

/-- A copy into a tensor that is no view comes to the bytes, unless it traps: by then the tensor has the
layout of the source and memory. -/
theorem ready_of_copyFrom (owned : tensor.isView = false) (htoken : (tensor.dtype == src.dtype) = true)
    (htypes : src.dimTypes.length = src.shape.length) (hstrides : src.strides.length = src.shape.length)
    (hempty : src.isEmpty = .ok false) (ends : EndsAt (copyFrom src (tensor, machine)) state) :
    ∃ laid ready count size,
      resize src.shape src.dimTypes (some src.strides) (tensor, machine) = .ok () laid ∧
      ensure laid = .ok () ready ∧ src.copyCount = .ok count ∧ Word.mul count src.dtype.size = .ok size ∧
      copyFrom src (tensor, machine) =
        onMachine (onDevice (Machine.copyBytes ready.1.buffer? ready.1.stream src.buffer? src.stream size))
          ready := by
  have happly : copyFrom src (tensor, machine) = moveFrom src (tensor, machine) := by
    rw [copyFrom_apply, hempty]
    exact if_pos htoken
  rw [happly] at ends ⊢
  obtain ⟨cause, last, hmove, refused⟩ | moved := moveFrom_cases src (tensor, machine)
  · rw [hmove] at ends
    cases cause with
    | trap trap => cases ends
    | error cause =>
      obtain ⟨_, htrap⟩ | hresize | ⟨laid, hresize, hensure⟩ := refused
      · cases htrap
      · obtain ⟨_, ⟨hrank, _⟩ | ⟨_, hsome, hrank, _⟩⟩ := resize_error_of_owned owned hresize
        · exact absurd htypes hrank
        · cases hsome
          exact absurd hstrides hrank
      · have hlaid := (evolving_resize _ _ _ _ _ (.of_ok hresize)).owned owned
        exact absurd hensure (ensure_ne_error hlaid)
  · exact moved

/-- What copies from a tensor come to that has elements but no memory for them. Elements without bytes need none. -/
def bareReply (src : Tensor) : Except TensorError Unit :=
  if src.dtype.size = 0 then .ok () else .error (.device .nullBuffer)

/-- Such a copy does not fail before the target has the layout of the source. -/
theorem copyFrom_of_bare (owned : tensor.isView = false)
    (htoken : (tensor.dtype == src.dtype) = true) (htypes : src.dimTypes.length = src.shape.length)
    (hstrides : src.strides.length = src.shape.length) (hempty : src.isEmpty = .ok false)
    (bare : src.buffer? = none) (ends : EndsAt (copyFrom src (tensor, machine)) state) :
    copyFrom src (tensor, machine) = told src.bareReply state := by
  obtain ⟨laid, ready, count, size, _, _, hcount, hsize, hcopy⟩ :=
    ready_of_copyFrom owned htoken htypes hstrides hempty ends
  have replied : copyFrom src (tensor, machine) = told src.bareReply ready := by
    rw [hcopy, bare, bareReply]
    by_cases unsized : src.dtype.size = 0
    · obtain ⟨rfl, _⟩ := Word.mul_eq_ok.mp hsize
      rw [if_pos unsized, unsized, Nat.mul_zero]
      rfl
    · have hmoved := size_ne_zero_of_copyCount hempty (Nat.pos_of_ne_zero unsized) hcount hsize
      rw [if_neg unsized, onMachine, zoom, onDevice, adaptErrors, Machine.copyBytes_of_none hmoved]
      rfl
  rw [replied] at ends ⊢
  rw [endsAt_told.mp ends]

/-- The buffer that a host tensor has. -/
theorem exists_buffer {id : BufferId} (host : tensor.OnHost machine) (fits : tensor.Fits machine)
    (hid : tensor.buffer? = some id) :
    ∃ elements buffer, tensor.numel = .ok elements ∧ 0 < elements ∧
      machine.buffers[id]? = some buffer ∧ tensor.byteCount = .ok buffer.size ∧
      buffer.place = .host ∧ buffer.size ≤ buffer.bytes.length := by
  obtain ⟨elements, buffer, hnumel, pos, hbuffer, hsize⟩ := fits.memory id hid
  obtain ⟨same, hsame, hhost⟩ := host.memory id hid
  cases hbuffer.symm.trans hsame
  exact ⟨elements, buffer, hnumel, pos, hbuffer, hsize, hhost⟩

/-- A copy into a tensor of the same layout that has memory of its own: it succeeds, the elements of both
are the same afterwards, and no other buffer is touched. -/
theorem copyFrom_eq_ok {d s : BufferId} (apart : d ≠ s) (hdst : dst.buffer? = some d)
    (hsrc : src.buffer? = some s) (dstHost : dst.OnHost machine) (srcHost : src.OnHost machine)
    (dstFits : dst.Fits machine) (srcFits : src.Fits machine)
    (packed : Layout.packedStrides src.shape = .ok src.strides) (hdtype : dst.dtype = src.dtype)
    (hshape : dst.shape = src.shape) (hstrides : dst.strides = src.strides)
    (htypes : dst.dimTypes = src.dimTypes) :
    ∃ later, copyFrom src (dst, machine) = .ok () (dst, later) ∧
      (∀ id, id ≠ d → later.buffers[id]? = machine.buffers[id]?) ∧
      later.hostBytes d = machine.hostBytes s := by
  obtain ⟨elements, source, hnumel, pos, hsource, hsize, hplace, hroom⟩ := exists_buffer srcHost srcFits hsrc
  obtain ⟨_, target, _, _, htarget, htargetSize, htargetPlace, htargetRoom⟩ :=
    exists_buffer dstHost dstFits hdst
  have hsame : target.size = source.size := by
    rw [byteCount, extent, hshape, hstrides, hdtype] at htargetSize
    exact Except.ok.inj (htargetSize.symm.trans hsize)
  obtain ⟨hcount, hmul⟩ := byteCount_of_packed packed hnumel pos hsize
  obtain ⟨later, hcopy, hrest, hbytes⟩ := Machine.copyBytes_eq_ok apart htarget hsource htargetPlace
    hplace hsame rfl (hsame ▸ htargetRoom) hroom
  refine ⟨later, ?_, hrest, by rw [hbytes, Machine.hostBytes_of_getElem? hsource hplace]⟩
  have hempty := isEmpty_eq_false hnumel pos
  have htoken : (dst.dtype == src.dtype) = true := by
    rw [hdtype]
    exact beq_self_eq_true src.dtype.token
  have hresize := resize_self dstHost dstFits hdst
  rw [hshape, hstrides, htypes] at hresize
  rw [copyFrom_apply, hempty]
  simp only [htoken, if_true]
  rw [moveFrom, bind_apply, hresize]
  change (ensure >>= _ : Update Unit) (dst, machine) = _
  rw [bind_apply, ensure_self dstFits hdst]
  change (monadLift src.copyCount >>= _ : Update Unit) (dst, machine) = _
  rw [bind_apply, hcount]
  change (monadLift (Word.mul elements src.dtype.size) >>= _ : Update Unit) (dst, machine) = _
  rw [bind_apply, hmul]
  change onMachine (onDevice (Machine.copyBytes dst.buffer? dst.stream src.buffer? src.stream source.size))
    (dst, machine) = _
  rw [hdst, hsrc, dstHost.stream, srcHost.stream, onMachine, onDevice, zoom, adaptErrors, hcopy]

private theorem hostBuffer?_eq_ok {id : BufferId} (hempty : tensor.isEmpty = .ok false)
    (hid : tensor.buffer? = some id) (hplace : (machine.buffer id).place = .host) :
    tensor.hostBuffer? machine = .ok (some id) machine := by
  have hdevice : (machine.buffer id).device = .cpu := by
    rw [Buffer.device, hplace]
    rfl
  rw [hostBuffer?, hempty, hid]
  refine bind_eq_ok.mpr ⟨false, machine, rfl, ?_⟩
  refine bind_eq_ok.mpr ⟨machine, machine, rfl, ?_⟩
  rw [hdevice]
  rfl

private theorem readHost_apply {id : BufferId} {bytes : List UInt8} (size : Nat)
    (hbytes : machine.hostBytes id = .ok bytes) : Machine.readHost id size machine =
      match Bytes.split size bytes with
      | .ok held => .ok held machine
      | .error trap => .error (.trap trap) machine := by
  rw [Machine.readHost, get_bind_apply, hbytes]
  dsimp only
  cases Bytes.split size bytes <;> rfl

/-- The elements of a host tensor are in its buffer, which can be read. -/
private theorem hostElements_apply {id : BufferId} {elements : Nat} {bytes : List UInt8}
    (hnumel : tensor.numel = .ok elements) (pos : 0 < elements) (hid : tensor.buffer? = some id)
    (hbytes : machine.hostBytes id = .ok bytes) : tensor.hostBuffer? machine = .ok (some id) machine ∧
      onDevice (Machine.readHost id tensor.dtype.size) machine = match Bytes.split tensor.dtype.size bytes with
        | .ok held => .ok held machine
        | .error trap => .error (.trap trap) machine := by
  have hplace : (machine.buffer id).place = .host := by
    rw [Machine.hostBytes] at hbytes
    split at hbytes
    · next hplace => exact hplace
    · cases hbytes
  refine ⟨hostBuffer?_eq_ok (isEmpty_eq_false hnumel pos) hid hplace, ?_⟩
  rw [onDevice, adaptErrors, readHost_apply tensor.dtype.size hbytes]
  cases Bytes.split tensor.dtype.size bytes <;> rfl

/-- What is read of a host tensor are the elements that its bytes are. -/
theorem read_apply {id : BufferId} {elements extent : Nat} {bytes : List UInt8}
    (hnumel : tensor.numel = .ok elements) (pos : 0 < elements) (hextent : tensor.extent = .ok extent)
    (hid : tensor.buffer? = some id) (hbytes : machine.hostBytes id = .ok bytes) :
    tensor.read machine =
      match Bytes.split tensor.dtype.size bytes >>= span extent with
      | .ok elements => .ok elements machine
      | .error trap => .error (.trap trap) machine := by
  obtain ⟨hbuffer, hread⟩ := hostElements_apply hnumel pos hid hbytes
  rw [read, hextent, ok_bind_apply, bind_apply, hbuffer]
  change (onDevice (Machine.readHost id tensor.dtype.size) >>= _ : Work TensorError _) machine = _
  rw [bind_apply, hread]
  cases Bytes.split tensor.dtype.size bytes with
  | error trap => rfl
  | ok held =>
    change (monadLift (span extent held) : Work TensorError _) machine = match span extent held with
      | .ok elements => _
      | .error trap => _
    cases span extent held <;> rfl

/-- Without elements nothing is read, and no memory is asked for. -/
theorem read_of_numel_eq_zero (h : tensor.numel = .ok 0) : tensor.read machine = .ok [] machine := by
  have hbuffer : tensor.hostBuffer? machine = .ok none machine := by
    rw [hostBuffer?, isEmpty_eq_true_iff.mpr h]
    rfl
  rw [read, extent_of_numel_eq_zero h, ok_bind_apply, bind_apply, hbuffer]
  rfl

/-- What is written to a host tensor takes the place of the elements that its bytes are. -/
theorem write_apply {id : BufferId} {elements extent : Nat} {bytes : List UInt8}
    (hnumel : tensor.numel = .ok elements) (pos : 0 < elements) (hextent : tensor.extent = .ok extent)
    (hid : tensor.buffer? = some id) (hbytes : machine.hostBytes id = .ok bytes)
    {held : List Element}
    (hheld : Bytes.split tensor.dtype.size bytes = .ok held)
    (change : List Element → Except Trap (List Element)) :
    tensor.write change machine =
      match span extent held >>= change with
      | .ok changed => .ok () (machine.store id 0 (changed ++ held.drop extent).flatten)
      | .error trap => .error (.trap trap) machine := by
  obtain ⟨hbuffer, hread⟩ := hostElements_apply hnumel pos hid hbytes
  rw [hheld] at hread
  rw [write, hextent, ok_bind_apply, bind_apply, hbuffer]
  change (onDevice (Machine.readHost id tensor.dtype.size) >>= _ : Work TensorError _) machine = _
  rw [bind_apply, hread]
  dsimp only
  cases span extent held with
  | error trap => rfl
  | ok span =>
    change (monadLift (change span) >>= _ : Work TensorError _) machine = match change span with
      | .ok changed => _
      | .error trap => _
    cases change span with
    | error trap => rfl
    | ok changed =>
      rw [ok_bind_apply, onDevice, adaptErrors, Machine.writeHost, bind_apply,
        readHost_apply tensor.dtype.size hbytes, hheld]
      rfl

/-- A tensor whose buffer is the same on a later machine is found there as before. -/
theorem hostBuffer?_congr (h : ∀ id, tensor.buffer? = some id → later.buffers[id]? = machine.buffers[id]?)
    {found : Option BufferId} {last : Machine} (hfound : tensor.hostBuffer? machine = .ok found last) :
    last = machine ∧ tensor.hostBuffer? later = .ok found later ∧
      ∀ id, found = some id → tensor.buffer? = some id := by
  cases hempty : tensor.isEmpty with
  | error trap =>
    rw [hostBuffer?, hempty] at hfound
    cases hfound
  | ok empty =>
    cases empty with
    | true =>
      rw [hostBuffer?, hempty] at hfound ⊢
      cases hfound
      exact ⟨rfl, rfl, by simp⟩
    | false =>
      cases hid : tensor.buffer? with
      | none =>
        rw [hostBuffer?, hempty, hid] at hfound
        cases hfound
      | some id =>
        have hsame : later.buffer id = machine.buffer id := by
          rw [Machine.buffer, h id hid, Machine.buffer]
        cases hplace : (machine.buffer id).place with
        | host =>
          cases (hostBuffer?_eq_ok hempty hid hplace).symm.trans hfound
          exact ⟨rfl, hostBuffer?_eq_ok hempty hid (hsame ▸ hplace), fun _ h => h⟩
        | gpu context =>
          rw [hostBuffer?, hempty, hid] at hfound
          obtain ⟨_, _, hlift, hrest⟩ := bind_eq_ok.mp hfound
          cases hlift
          obtain ⟨_, _, hget, hrefused⟩ := bind_eq_ok.mp hrest
          cases hget
          rw [Buffer.device, hplace] at hrefused
          cases hrefused

theorem readHost_congr {id : BufferId} (h : later.buffers[id]? = machine.buffers[id]?) {size : Nat}
    {held : List Element} {last : Machine} (hread : Machine.readHost id size machine = .ok held last) :
    last = machine ∧ Machine.readHost id size later = .ok held later := by
  have hbytes : later.hostBytes id = machine.hostBytes id := by
    rw [Machine.hostBytes, Machine.hostBytes, Machine.buffer, Machine.buffer, h]
  rw [Machine.readHost, get_bind_apply] at hread ⊢
  rw [hbytes]
  cases hheld : machine.hostBytes id with
  | error cause =>
    rw [hheld] at hread
    cases hread
  | ok bytes =>
    rw [hheld] at hread
    obtain ⟨hsplit, rfl⟩ := liftTrap_eq_ok.mp hread
    exact ⟨rfl, liftTrap_eq_ok.mpr ⟨hsplit, rfl⟩⟩

/-- It reads as before. -/
theorem read_congr (h : ∀ id, tensor.buffer? = some id → later.buffers[id]? = machine.buffers[id]?)
    {span : List Element} {last : Machine} (hread : tensor.read machine = .ok span last) :
    last = machine ∧ tensor.read later = .ok span later := by
  rw [read] at hread ⊢
  obtain ⟨extent, _, hlift, hrest⟩ := bind_eq_ok.mp hread
  obtain ⟨hextent, rfl⟩ := liftTrap_eq_ok.mp hlift
  obtain ⟨found, _, hfound, hspan⟩ := bind_eq_ok.mp hrest
  obtain ⟨rfl, hthere, hheld⟩ := hostBuffer?_congr h hfound
  rw [hextent, ok_bind_apply, bind_apply, hthere]
  cases found with
  | none =>
    cases hspan
    exact ⟨rfl, rfl⟩
  | some id =>
    obtain ⟨held, _, hbytes, hlast⟩ := bind_eq_ok.mp hspan
    obtain ⟨rfl, hsame⟩ := readHost_congr (h id (hheld id rfl)) (adaptErrors_eq_ok.mp hbytes)
    obtain ⟨hcut, rfl⟩ := liftTrap_eq_ok.mp hlast
    refine ⟨rfl, bind_eq_ok.mpr ⟨held, later, adaptErrors_eq_ok.mpr hsame, ?_⟩⟩
    rw [hcut]
    rfl

/-- The elements are where they are by the shape and the strides. -/
theorem toList_congr {other : Tensor}
    (h : ∀ span, tensor.read machine = .ok span machine → other.read later = .ok span later)
    (hshape : other.shape = tensor.shape) (hstrides : other.strides = tensor.strides) {values : List Element}
    (hlist : tensor.toList machine = .ok values machine) : other.toList later = .ok values later := by
  rw [toList] at hlist ⊢
  obtain ⟨span, last, hread, hlift⟩ := bind_eq_ok.mp hlist
  obtain ⟨hvalues, rfl⟩ := liftTrap_eq_ok.mp hlift
  refine bind_eq_ok.mpr ⟨span, later, h span hread, ?_⟩
  rw [hshape, hstrides, hvalues]
  rfl

/-- What is in a tensor is the same on a later machine: the bytes of its buffer, and all that can be read. -/
structure KeepsContents (tensor : Tensor) (machine later : Machine) : Prop where
  bytes : ∀ id, tensor.buffer? = some id → later.buffers[id]? = machine.buffers[id]?
  read : ∀ span, tensor.read machine = .ok span machine → tensor.read later = .ok span later
  toList : ∀ values, tensor.toList machine = .ok values machine → tensor.toList later = .ok values later

theorem KeepsContents.of_bytes
    (h : ∀ id, tensor.buffer? = some id → later.buffers[id]? = machine.buffers[id]?) :
    tensor.KeepsContents machine later :=
  have hread (span : List Element) (hspan : tensor.read machine = .ok span machine) := (read_congr h hspan).2
  ⟨h, hread, fun _ => toList_congr hread rfl rfl⟩

/-- The element at an index, if it can be read. -/
def element? (tensor : Tensor) (machine : Machine) (index : List Nat) : Option Element :=
  match tensor.get index machine with
  | .ok element _ => some element
  | .error _ _ => none

/-- The element at an index of an array that some bytes are. -/
def peek (shape strides : List Nat) (extent size : Nat) (bytes : List UInt8) (index : List Nat) :
    Option Element :=
  if Layout.inShape index shape then
    match Layout.offset index strides, Bytes.split size bytes >>= span extent with
    | .ok position, .ok elements => elements.toArray[position]?
    | _, _ => none
  else none

theorem element?_apply (tensor : Tensor) (machine : Machine) (index : List Nat) :
    tensor.element? machine index =
      if Layout.inShape index tensor.shape then
        match Layout.offset index tensor.strides, tensor.read machine with
        | .ok position, .ok elements _ => elements.toArray[position]?
        | _, _ => none
      else none := by
  rw [element?, get]
  by_cases inside : Layout.inShape index tensor.shape = true
  · rw [if_pos inside, if_pos inside, bind_apply]
    cases Layout.offset index tensor.strides with
    | error trap => rfl
    | ok position =>
      change (match (tensor.read >>= fun elements => monadLift (fetch elements.toArray position) :
        Work TensorError Element) machine with
        | .ok element _ => some element
        | .error _ _ => none) = _
      rw [bind_apply]
      cases tensor.read machine with
      | error cause later => rfl
      | ok elements later =>
        change (match (monadLift (fetch elements.toArray position) : Work TensorError Element) later with
          | .ok element _ => some element
          | .error _ _ => none) = elements.toArray[position]?
        rw [fetch]
        cases elements.toArray[position]? <;> rfl
  · rw [if_neg inside, if_neg inside]
    rfl

theorem element?_eq_peek {id : BufferId} {elements extent : Nat} {bytes : List UInt8}
    (hnumel : tensor.numel = .ok elements) (pos : 0 < elements) (hextent : tensor.extent = .ok extent)
    (hid : tensor.buffer? = some id) (hbytes : machine.hostBytes id = .ok bytes) (index : List Nat) :
    tensor.element? machine index =
      peek tensor.shape tensor.strides extent tensor.dtype.size bytes index := by
  rw [element?_apply, peek, read_apply hnumel pos hextent hid hbytes]
  split
  · cases Layout.offset index tensor.strides with
    | error trap => rfl
    | ok position =>
      cases Bytes.split tensor.dtype.size bytes >>= span extent <;> rfl
  · rfl

/-- Two tensors of one layout and type over the same bytes have the same elements. -/
theorem element?_congr {other : Tensor} {id otherId : BufferId} (host : tensor.OnHost machine)
    (fits : tensor.Fits machine) (hid : tensor.buffer? = some id) (hother : other.buffer? = some otherId)
    (hshape : other.shape = tensor.shape) (hstrides : other.strides = tensor.strides)
    (hdtype : other.dtype = tensor.dtype)
    (hbytes : later.hostBytes otherId = machine.hostBytes id) (index : List Nat) :
    other.element? later index = tensor.element? machine index := by
  obtain ⟨elements, buffer, hnumel, pos, hbuffer, hsize, hplace, _⟩ := exists_buffer host fits hid
  obtain ⟨extent, hextent, _⟩ := byteCount_eq_ok.mp hsize
  have hhost := Machine.hostBytes_of_getElem? hbuffer hplace
  have hotherNumel : other.numel = .ok elements := by
    rw [numel, hshape]
    exact hnumel
  have hotherExtent : other.extent = .ok extent := by
    rw [Tensor.extent, hshape, hstrides]
    exact hextent
  rw [element?_eq_peek hnumel pos hextent hid hhost,
    element?_eq_peek hotherNumel pos hotherExtent hother (hbytes.trans hhost), hshape, hstrides, hdtype]

/-- Every element of a host tensor with memory can be read. -/
theorem isSome_element? {id : BufferId} {index : List Nat} (host : tensor.OnHost machine)
    (fits : tensor.Fits machine) (hid : tensor.buffer? = some id) (sized : 0 < tensor.dtype.size)
    (inside : Layout.inShape index tensor.shape = true) :
    (tensor.element? machine index).isSome = true := by
  obtain ⟨elements, buffer, hnumel, pos, hbuffer, hsize, hplace, hroom⟩ := exists_buffer host fits hid
  obtain ⟨extent, hextent, hbytes⟩ := byteCount_eq_ok.mp hsize
  obtain ⟨hbytes, _⟩ := byteSize_eq_ok.mp hbytes
  have hlength : (buffer.bytes.take buffer.size).length / tensor.dtype.size = extent := by
    rw [List.length_take, Nat.min_eq_left hroom, ← hbytes, Nat.mul_div_cancel _ sized]
  have hfar : 0 < extent := Layout.pos_of_extent hnumel pos hextent
  obtain ⟨position, hposition, hlt⟩ := Layout.offset_lt_extent hextent hfar inside fits.strides
  rw [element?_eq_peek hnumel pos hextent hid (Machine.hostBytes_of_getElem? hbuffer hplace), peek,
    if_pos inside, hposition, Bytes.split_of_pos sized, except_ok_bind, hlength, span,
    if_pos (by rw [Bytes.length_elements])]
  simp [hlt]

end Tensor

end ArrayEngine
