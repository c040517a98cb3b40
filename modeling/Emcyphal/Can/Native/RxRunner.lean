import Emcyphal.Can.Native.Info
import Emcyphal.Can.Native.Rx
import Emcyphal.Can.Native.Subscriptions
import Emcyphal.Lib.RingBuffer
import Mathlib.Tactic.IntervalCases

/-!
# The receive task of the native driver

`RxRunner::run` of `emcyphal-stm32-native/src/driver.rs`, with the receive FIFOs of `raw.rs` and the
interrupt handler that wakes it.  The loop waits for a frame that is looped back, or for one in a
FIFO, and pushes it to the link.  A frame in a FIFO is looked for after the waker was registered:
the first FIFO is read until there is a frame that can be decoded, and then the second one.

The peripheral and the interrupt handler go on between any two steps of the task.  The handler first
clears the flags of the FIFOs, and then wakes the task.

What the peripheral has stored can be read (`loadFrame_ok`), and only what has passed the empty
service filter may be skipped (`Stored.isSome_or`).
-/

set_option autoImplicit false

namespace Emcyphal.Can.Native

open Rust BitField

def RX_FIFOS_MAX : ℕ := 2

def RX_FIFO_MAX : ℕ := 3

/-- The elements, `RXFnS` and `RXFnA`: the get index, and the fill level. -/
abbrev RxFifo := RingBuffer RxFifoElement RX_FIFO_MAX

/-- Nothing was received yet. -/
def RxFifo.new : RxFifo := ⟨fun _ ↦ ⟨⟨0, 0⟩, .replicate 16 0⟩, ⟨0, by decide⟩, 0, by decide⟩

/-- What the peripheral stores of the frames that have passed a filter: extended data frames, in the
FIFO of the filter. -/
def Stored (r : RxFifoElementHeader) (i : Fin RX_FIFOS_MAX) : Prop :=
  r.xtd = .extendedId ∧ r.rtr = .transmitDataFrame ∧
    match i with
    | ⟨0, _⟩ => r.fidx.toNat < MESSAGE_FILTER_COUNT ∧ ∃ val, Accepts (messageFilter val) r.id
    | ⟨_ + 1, _⟩ =>
      r.fidx.toNat = SERVICE_FILTER_OFFSET ∧ ∃ dest, AcceptsService (serviceFilter dest) r.id

namespace Driver

/-- The waker of the receive task. -/
def rxWaker (d : Driver) : Option Waker := d.info.state.bind State.rxTrigger

/-- What the other runners do. -/
def Op.IsOther : Op → Prop
  | .drop handle => handle ≠ .rxRunner
  | .registerTxWaker _ _ | .wakeTx _ => True
  | _ => False

end Driver

/-! ## The task -/

/-- Where in its loop the task is. -/
inductive RxPhase
  /-- The futures are polled next. -/
  | select
  /-- The waker is registered, and the FIFOs before this one were empty. -/
  | pop (i : ℕ)
  /-- Both futures are pending. -/
  | pending
  | push (frame : Frame)

namespace RxPhase

def isSelecting : RxPhase → Bool
  | select | pending => true
  | _ => false

/-- The number of FIFOs that were found empty since the waker was registered. -/
def searched : RxPhase → Option ℕ
  | pop i => some i
  | pending => some RX_FIFOS_MAX
  | _ => none

/-- The frame that is being pushed. -/
def frame : RxPhase → Option Frame
  | push frame => some frame
  | _ => none

end RxPhase

structure RxSystem where
  driver : Driver
  fifos : Fin RX_FIFOS_MAX → RxFifo
  /-- `IR.RFnN`. -/
  newMessage : Fin RX_FIFOS_MAX → Bool
  /-- The interrupt handler has cleared the flags, and has not woken the task yet. -/
  handling : Bool
  phase : RxPhase

inductive RxOp
  /-- A frame was received.  It is lost if the FIFO is full, as nothing sets the overwrite mode. -/
  | receive (i : Fin RX_FIFOS_MAX) (elem : RxFifoElement)
  /-- `clear_rx_interrupts`. -/
  | clear
  /-- `wake_rx`. -/
  | wake
  /-- The futures are polled, and this frame is looped back. -/
  | poll (w : Waker) (loopBack : Option Frame)
  /-- The task goes on reading the FIFOs. -/
  | advance (now : Instant)
  /-- The link takes the frame. -/
  | pushed
  /-- What the other runners do with the state. -/
  | other (op : Driver.Op)

inductive RxEvent
  | quiet
  | stored (i : Fin RX_FIFOS_MAX) (elem : RxFifoElement)
  /-- There was no room for an element. -/
  | lost (i : Fin RX_FIFOS_MAX) (elem : RxFifoElement)
  | registered
  | loopedBack (frame : Frame)
  /-- An element was read, and decoded to this frame. -/
  | popped (i : Fin RX_FIFOS_MAX) (elem : RxFifoElement) (now : Instant) (frame : Option Frame)
  | pushed (frame : Frame)

namespace RxSystem

/-- The driver has been started, and nothing was received yet. -/
def start : RxSystem := ⟨.started, fun _ ↦ .new, fun _ ↦ false, false, .select⟩

/-- An iteration of the loop in `RxFifo::pop`. -/
def popFrom (timestampOffset : Option (BitVec 16)) (now : Instant) (s : RxSystem)
    (i : Fin RX_FIFOS_MAX) : Exec (RxSystem × RxEvent) :=
  match (s.fifos i).first with
  | none => .ok ({ s with phase := .pop (i + 1) }, .quiet)
  | some idx => do
    let elem := (s.fifos i).cells idx
    let rawFrame ← loadFrame elem
    let frame := rawFrame.map (RxRunner.receive timestampOffset now)
    return ({ s with
      fifos := Function.update s.fifos i ((s.fifos i).release idx)
      phase := match frame with
        | some frame => .push frame
        | none => .pop i }, .popped i elem now frame)

/-- The loop in `pop_rx`. -/
def advance (timestampOffset : Option (BitVec 16)) (now : Instant) (s : RxSystem) :
    Exec (RxSystem × RxEvent) :=
  match s.phase with
  | .pop i =>
    if h : i < RX_FIFOS_MAX then s.popFrom timestampOffset now ⟨i, h⟩
    else .ok ({ s with phase := .pending }, .quiet)
  | _ => .ok (s, .quiet)

def step (timestampOffset : Option (BitVec 16)) (s : RxSystem) :
    RxOp → Exec (RxSystem × RxEvent)
  | .receive i elem =>
    if (s.fifos i).length < RX_FIFO_MAX then .ok ({ s with
      fifos := Function.update s.fifos i ((s.fifos i).push elem)
      newMessage := Function.update s.newMessage i true }, .stored i elem)
    else .ok (s, .lost i elem)
  | .clear => .ok ({ s with newMessage := fun _ ↦ false, handling := true }, .quiet)
  | .wake => do
    let (driver, _) ← s.driver.step .wakeRx
    return ({ s with driver := driver, handling := false }, .quiet)
  | .poll _ (some frame) => .ok ({ s with phase := .push frame }, .loopedBack frame)
  | .poll w none => do
    let (driver, _) ← s.driver.step (.registerRxWaker w)
    return ({ s with driver := driver, phase := .pop 0 }, .registered)
  | .advance now => s.advance timestampOffset now
  | .pushed =>
    match s.phase with
    | .push frame => .ok ({ s with phase := .select }, .pushed frame)
    | _ => .ok (s, .quiet)
  | .other op => do
    let (driver, _) ← s.driver.step op
    return ({ s with driver := driver }, .quiet)

/-- The handler clears the flags and wakes, one after the other.  The others keep what is of this
task. -/
def Valid (s : RxSystem) : RxOp → Prop
  | .receive i elem => Stored elem.header i
  | .clear => s.handling = false
  | .wake => s.handling = true
  | .poll _ _ => s.phase.isSelecting = true
  | .advance _ | .pushed => True
  | .other op => s.driver.Valid op ∧ op.IsOther

end RxSystem

/-! ## The waker in the state -/

namespace Driver

variable {d d' : Driver} {op : Op} {u : Unit}

theorem step_registerRxWaker {w : Waker} (h : d.step (.registerRxWaker w) = .ok (d', u)) :
    d'.handles = d.handles ∧ d'.rxWaker = some w := by
  obtain ⟨info, hinfo, heq⟩ := map_eq_ok.mp h
  obtain ⟨state, -, hstate⟩ := bind_eq_ok.mp hinfo
  cases hstate
  cases heq
  exact ⟨rfl, rfl⟩

theorem step_wakeRx (h : d.step .wakeRx = .ok (d', u)) :
    d'.handles = d.handles ∧ d'.rxWaker = none := by
  cases h
  refine ⟨rfl, ?_⟩
  change (d.info.state.map _).bind State.rxTrigger = none
  cases d.info.state <;> rfl

/-- The others leave the waker alone, as long as the task has a handle. -/
theorem step_other (hhandle : .rxRunner ∈ d.handles) (hother : op.IsOther)
    (hstep : d.step op = .ok (d', u)) (h' : d'.Inv) :
    .rxRunner ∈ d'.handles ∧ d'.rxWaker = d.rxWaker := by
  match op, hother with
  | .drop handle, hne =>
    obtain ⟨info, hinfo, heq⟩ := map_eq_ok.mp hstep
    cases heq
    have hmem : .rxRunner ∈ d.handles.erase handle := Finset.mem_erase.mpr ⟨hne.symm, hhandle⟩
    refine ⟨hmem, ?_⟩
    obtain ⟨state', hstate'⟩ := h'.exists_state hmem
    obtain ⟨state, hstate, hrest⟩ := bind_eq_ok.mp hinfo
    obtain ⟨refCounter, -, hrest⟩ := bind_eq_ok.mp hrest
    split at hrest
    · cases hrest
      cases hstate'
    · cases hrest
      change state.rxTrigger = d.info.state.bind State.rxTrigger
      rw [unwrap_eq_ok.mp hstate]
      rfl
  | .registerTxWaker w unpendMask, _ =>
    obtain ⟨info, hinfo, heq⟩ := map_eq_ok.mp hstep
    obtain ⟨state, hstate, hrest⟩ := bind_eq_ok.mp hinfo
    cases hrest
    cases heq
    refine ⟨hhandle, ?_⟩
    change state.rxTrigger = d.info.state.bind State.rxTrigger
    rw [unwrap_eq_ok.mp hstate]
    rfl
  | .wakeTx pendingMailboxes, _ =>
    cases hstep
    refine ⟨hhandle, ?_⟩
    change (d.info.state.map _).bind State.rxTrigger = d.info.state.bind State.rxTrigger
    cases d.info.state with
    | none => rfl
    | some state =>
      change State.rxTrigger (if _ then _ else _) = _
      split <;> rfl

end Driver

/-! ## Elements -/

/-- There are words for all the chunks. -/
theorem loadWords_ok {data : Vector (BitVec 32) 16} {i : ℕ} {dsts : List (List Byte)}
    (hroom : i + dsts.length ≤ 16) (hle : ∀ dst ∈ dsts, dst.length ≤ 4) :
    ∃ srcs, loadWords data i dsts = .ok srcs ∧ srcs.map List.length = dsts.map List.length := by
  induction dsts generalizing i with
  | nil => exact ⟨[], rfl, rfl⟩
  | cons dst dsts ih =>
    rw [List.length_cons] at hroom
    obtain ⟨srcs, hload, hlength⟩ :=
      @ih (i + 1) (by omega) fun dst hdst ↦ hle dst (List.mem_cons_of_mem _ hdst)
    have hword : data.toList[i]? = some data[i] := by simp
    have hbytes : (toLeBytes data[i]).length = 4 := by simp [toLeBytes]
    have htake : ((toLeBytes data[i]).take dst.length).length = dst.length := by
      rw [List.length_take, hbytes, Nat.min_eq_left (hle dst List.mem_cons_self)]
    refine ⟨(toLeBytes data[i]).take dst.length :: srcs, ?_, ?_⟩
    · rw [loadWords, index_of_getElem? hword, ok_bind,
        sliceTo_of_le (hbytes ▸ hle dst List.mem_cons_self), ok_bind,
        copyFromSlice_of_length htake.symm, ok_bind, hload]
      rfl
    · rw [List.map_cons, List.map_cons, htake, hlength]

/-- A data length code has four bits. -/
theorem toDataLength_ok (r : RxFifoElementHeader) :
    ∃ length value, r.toDataLength = .ok length ∧
      DataLength.new length.len.toNat = some value := by
  have hdlc : r.dlc.toNat < 16 := by
    have hload : (load r.word1 0x0F#32 16).toNat = field r.word1 16 4 :=
      toNat_load (by decide) (by decide)
    have hlt := field_lt r.word1 16 4
    rw [RxFifoElementHeader.dlc, BitVec.toNat_setWidth, hload]
    omega
  rw [RxFifoElementHeader.toDataLength]
  obtain ⟨n, hn⟩ : ∃ n, r.dlc = BitVec.ofNat 8 n ∧ n < 16 := ⟨r.dlc.toNat, by simp, hdlc⟩
  obtain ⟨hn, hlt⟩ := hn
  rw [hn]
  generalize r.fdf = fdf
  cases fdf <;> interval_cases n <;> exact ⟨_, _, rfl, rfl⟩

theorem loadFrame_ok {elem : RxFifoElement} (hxtd : elem.header.xtd = .extendedId)
    (hrtr : elem.header.rtr = .transmitDataFrame) :
    ∃ rawFrame, loadFrame elem = .ok rawFrame ∧ rawFrame.map RawFrame.header =
      if elem.header.fidx.toNat ≠ SERVICE_FILTER_OFFSET then loadMsgFrameHeader elem.header.id
      else loadSrvFrameHeader elem.header.id := by
  rw [loadFrame]
  dsimp only
  rw [assert_pos hxtd, ok_bind, assert_pos hrtr, ok_bind]
  generalize (if elem.header.fidx.toNat ≠ SERVICE_FILTER_OFFSET then
    loadMsgFrameHeader elem.header.id else loadSrvFrameHeader elem.header.id) = header
  cases header with
  | none => exact ⟨none, rfl, rfl⟩
  | some header =>
    obtain ⟨length, value, hlength, hvalue⟩ := toDataLength_ok elem.header
    have hzeros : (Data.newZeros value).bytes.length = value.val := Data.length_newZeros value
    obtain ⟨srcs, hsrcs, hmap⟩ := @loadWords_ok elem.data 0
      (chunks 4 (Data.newZeros value).bytes) (by
        have hle : value.val ≤ 64 := value.le_max
        rw [length_chunks, hzeros]
        omega) fun _ ↦ length_le_of_mem_chunks
    have hflatten : srcs.flatten.length = (Data.newZeros value).bytes.length := by
      rw [List.length_flatten, hmap, ← List.length_flatten, flatten_chunks (by decide)]
    refine ⟨some ⟨header, ⟨srcs.flatten, hflatten ▸ (Data.newZeros value).valid⟩,
      elem.header.rxts⟩, ?_, rfl⟩
    dsimp only
    rw [hlength, ok_bind, hvalue, unwrap_some, ok_bind, hsrcs, ok_bind,
      Data.write_of_length hflatten.symm]
    rfl

/-- A filter is for the subjects of the messages. -/
theorem exists_accepts_iff {canId : BitVec 32} : (∃ val, Accepts (messageFilter val) canId) ↔
    (MessageCanId.fromCanId canId).isSome = true := by
  constructor
  · rintro ⟨val, haccepts⟩
    obtain ⟨id, hid, -⟩ := accepts_messageFilter_iff.mp haccepts
    rw [hid]
    rfl
  · intro hsome
    obtain ⟨id, hid⟩ := Option.isSome_iff_exists.mp hsome
    exact ⟨(some id.subject, none), accepts_messageFilter_iff.mpr ⟨id, hid, .inl rfl⟩⟩

/-- Service frames pass, and what passes the filter that is empty. -/
theorem exists_acceptsService_iff {canId : BitVec 32} :
    (∃ dest, AcceptsService (serviceFilter dest) canId) ↔
      (ServiceCanId.fromCanId canId).isSome = true ∨
        canId &&& SRV_FILTER_MASK = makeSrvFilterPattern none &&& SRV_FILTER_MASK := by
  constructor
  · rintro ⟨_ | node, haccepts⟩
    · rw [AcceptsService, efid1_serviceFilter, efid2_serviceFilter] at haccepts
      exact .inr haccepts.2.2
    · obtain ⟨id, hid, -⟩ := acceptsService_iff.mp haccepts
      rw [hid]
      exact .inl rfl
  · rintro (hsome | hempty)
    · obtain ⟨id, hid⟩ := Option.isSome_iff_exists.mp hsome
      exact ⟨some id.destination, acceptsService_iff.mpr ⟨id, hid, rfl⟩⟩
    · refine ⟨none, eft_serviceFilter _, efec_serviceFilter _, ?_⟩
      rw [efid1_serviceFilter, efid2_serviceFilter]
      exact hempty

/-- Only what has passed the empty service filter may be no frame of the protocol. -/
theorem Stored.isSome_or {elem : RxFifoElement} {i : Fin RX_FIFOS_MAX} (h : Stored elem.header i)
    {rawFrame : Option RawFrame} (hload : loadFrame elem = .ok rawFrame) :
    rawFrame.isSome = true ∨ i.val = 1 ∧ ServiceCanId.fromCanId elem.header.id = none := by
  obtain ⟨hxtd, hrtr, hfilter⟩ := h
  obtain ⟨rawFrame', hload', hheader⟩ := loadFrame_ok hxtd hrtr
  cases hload.symm.trans hload'
  match i, hfilter with
  | ⟨0, _⟩, ⟨hfidx, hval⟩ =>
    obtain ⟨id, hid⟩ := Option.isSome_iff_exists.mp (exists_accepts_iff.mp hval)
    have hne : elem.header.fidx.toNat ≠ SERVICE_FILTER_OFFSET := Nat.ne_of_lt hfidx
    rw [if_pos hne, loadMsgFrameHeader] at hheader
    refine .inl ?_
    rw [← Option.isSome_map, hheader, hid]
    rfl
  | ⟨1, _⟩, ⟨hfidx, _⟩ =>
    rw [if_neg (not_not_intro hfidx), loadSrvFrameHeader] at hheader
    cases hid : ServiceCanId.fromCanId elem.header.id with
    | none => exact .inr ⟨rfl, rfl⟩
    | some id =>
      refine .inl ?_
      rw [← Option.isSome_map, hheader, hid]
      rfl

instance decidableStored (r : RxFifoElementHeader) : (i : Fin RX_FIFOS_MAX) →
    Decidable (Stored r i)
  | ⟨0, _⟩ => decidable_of_iff (r.xtd = .extendedId ∧ r.rtr = .transmitDataFrame ∧
      r.fidx.toNat < MESSAGE_FILTER_COUNT ∧ (MessageCanId.fromCanId r.id).isSome = true)
      (by rw [Stored, exists_accepts_iff])
  | ⟨_ + 1, _⟩ => decidable_of_iff (r.xtd = .extendedId ∧ r.rtr = .transmitDataFrame ∧
      r.fidx.toNat = SERVICE_FILTER_OFFSET ∧ ((ServiceCanId.fromCanId r.id).isSome = true ∨
        r.id &&& SRV_FILTER_MASK = makeSrvFilterPattern none &&& SRV_FILTER_MASK))
      (by rw [Stored, exists_acceptsService_iff])

end Emcyphal.Can.Native
