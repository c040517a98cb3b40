import Emcyphal.Rx.SessionTable

/-!
# The watch

`emcyphal/src/buffer/rx_msg/watch.rs`.  The `Inner` of a `Watch` reassembles the transfers of `SN`
nodes and holds the newest of them.  There are two buffers next to those of the sessions, one for
the transfer that is held and one for the transfer that was popped last; they are exchanged when a
transfer is popped, and a session that completes a newer transfer exchanges its buffer with the
first one.
-/

set_option autoImplicit false

namespace Emcyphal

open Rust

namespace Watch

/-- The transfer that is held.  Its payload is the start of the transfer buffer. -/
structure TransferEntry where
  transferMeta : TransferMeta
  bufferLength : ℕ

structure Inner (SN : ℕ) extends SessionTable SN where
  transfer : Option TransferEntry
  transferMinTimestamp : Instant
  transferBufferIdx : ℕ
  readoutBufferIdx : ℕ
  priorityTrigger : PriorityTrigger

namespace Inner

open SessionTable

variable {SN : ℕ}

def new (SN : ℕ) (dataSpecifier : DataSpecifier) (timeout : Duration) (buffers : List (List Byte)) :
    Exec (Inner SN) := do
  assert (buffers.length = SN + 2)
  let sessions ← IndexQueue.new NodeId Session NODE_ID_MAX SN
  let transferBufferIdx ← unwrap (u8TryFrom SN)
  let readoutBufferIdx ← unwrap (u8TryFrom (SN + 1))
  return {
    dataSpecifier := dataSpecifier
    buffers := buffers
    sessions := sessions
    sessionBufferBase := 0
    transfer := none
    transferMinTimestamp := Instant.MIN
    transferBufferIdx := transferBufferIdx
    readoutBufferIdx := readoutBufferIdx
    timeout := timeout
    priorityTrigger := .new }

/-- Holds a completed transfer, unless a newer one was completed before, and exchanges the buffer of
its session. -/
def holdTransfer (w : Inner SN) (source : NodeId) (priority : Priority) (loopBack : Bool)
    (session : Session) (buffer : List Byte) (transfer : Transfer) : Exec (Inner SN × Session) := do
  if w.transferMinTimestamp ≤ transfer.timestamp then
    let transferMeta : TransferMeta := {
      priority := transfer.priority
      address := some source
      transferId := transfer.id
      timestamp := transfer.timestamp
      loopBack := loopBack }
    let bufferLength := min transfer.length buffer.length
    let swapped := { session with bufferIdx := w.transferBufferIdx }
    let sessions ← w.sessions.set source swapped
    return ({ w with
      sessions := sessions
      transfer := some ⟨transferMeta, bufferLength⟩
      transferMinTimestamp := transfer.timestamp
      transferBufferIdx := session.bufferIdx
      priorityTrigger := w.priorityTrigger.wake (.newEq priority) }, swapped)
  else return (w, session)

/-- What happens to a frame once it was given to the `Gather` of a session. -/
def deliver (w : Inner SN) (source : NodeId) (priority : Priority) (timestamp : Instant)
    (loopBack : Bool) (received : Received) : Exec (Inner SN) := do
  let (w, session) ← match received.transfer with
    | none => pure (w, received.session)
    | some transfer =>
      w.holdTransfer source priority loopBack received.session received.buffer transfer
  return { w with toSessionTable := ← w.toSessionTable.touch source session timestamp }

def pushRegularFrame (w : Inner SN) (source : NodeId) (priority : Priority) (data : Data)
    (timestamp : Instant) (loopBack : Bool) : Exec (Inner SN) := do
  let (table, received) ← w.toSessionTable.reassemble source priority data timestamp
  let w := { w with toSessionTable := table }
  match received with
  | none => return w
  | some received => w.deliver source priority timestamp loopBack received

def pushAnonymousFrame (w : Inner SN) (priority : Priority) (data : Data) (timestamp : Instant)
    (loopBack : Bool) : Exec (Inner SN) :=
  match anonymousPayload data with
  | none => .ok w
  | some (transferId, payload) => do
    if timestamp < w.transferMinTimestamp then return w
    let transferMeta : TransferMeta := {
      priority := priority
      address := none
      transferId := transferId
      timestamp := timestamp
      loopBack := loopBack }
    let buffer ← index w.buffers w.transferBufferIdx
    let bufferLength := min payload.length buffer.length
    let buffers ←
      assign w.buffers w.transferBufferIdx (overwrite buffer 0 (payload.take bufferLength))
    return { w with
      buffers := buffers
      transfer := some ⟨transferMeta, bufferLength⟩
      transferMinTimestamp := timestamp
      priorityTrigger := w.priorityTrigger.wake (.newEq priority) }

/-- The `mtu` argument of the code is not read. -/
def pushFrame (w : Inner SN) (frame : Frame) : Exec (Inner SN) :=
  if frame.header.dataSpec ≠ w.dataSpecifier then .ok w
  else match frame.header.source with
  | some node =>
    w.pushRegularFrame node frame.header.priority frame.data frame.timestamp frame.loopBack
  | none => w.pushAnonymousFrame frame.header.priority frame.data frame.timestamp frame.loopBack

def popReadiness (w : Inner SN) : PrioritySet :=
  w.transfer.elim .NONE fun transfer ↦ .newEq transfer.transferMeta.priority

/-- `none` is `Poll::Pending`. -/
def pollPopReadiness (w : Inner SN) (waker : Waker) (priorityMask : PrioritySet) :
    Option PrioritySet × Inner SN :=
  let priorities := w.popReadiness &&& priorityMask
  if !priorities.isEmpty then (some priorities, w)
  else (none, { w with priorityTrigger := w.priorityTrigger.register waker priorityMask })

def tryPop (w : Inner SN) (priorityMask : PrioritySet) : Exec (Option Item × Inner SN) := do
  if w.transfer.all fun transfer ↦ !priorityMask.contains transfer.transferMeta.priority then
    return (none, w)
  let transfer ← unwrap w.transfer
  let w := { w with
    transfer := none
    transferBufferIdx := w.readoutBufferIdx
    readoutBufferIdx := w.transferBufferIdx }
  let buffer ← index w.buffers w.readoutBufferIdx
  let validBuffer ← sliceTo buffer transfer.bufferLength
  return (some (transfer.transferMeta, validBuffer), w)

/-- An operation as a step that shows what came of it. -/
def step (w : Inner SN) : Op → Exec (Inner SN × Event)
  | .pushFrame frame => do
    let reception ← w.toSessionTable.receive frame
    return (← w.pushFrame frame, .pushed frame reception)
  | .tryPop priorityMask => do
    let (item, w) ← w.tryPop priorityMask
    return (w, .popped priorityMask item)
  | .pollPopReadiness waker priorityMask =>
    let (ready, w) := w.pollPopReadiness waker priorityMask
    .ok (w, .polled priorityMask ready)

end Inner

end Watch

end Emcyphal
