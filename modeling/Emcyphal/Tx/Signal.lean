import Emcyphal.Tx.Outgoing

/-!
# The non-blocking message buffer

`emcyphal/src/buffer/tx_msg/signal.rs`.  Two data buffers are shared by three roles: a pending
transfer, a transfer that is sent already in part, and the scratchpad the next transfer is written
to.  When both buffers are in use by transfers, the scratchpad takes the one of the pending
transfer.

`writeScratchpad` is not a function of the code: it is what the caller of `get_scratchpad` does with
the slice it gets.  The data buffers are given with their contents, which are what an earlier use
has left.
-/

set_option autoImplicit false

namespace Emcyphal.Signal

open Rust

def BUFFER_COUNT : ℕ := 2

structure TransferEntry where
  bufferIdx : ℕ
  scatter : Scatter
  timestamp : Instant
  loopBack : Bool
deriving DecidableEq

structure Inner where
  subject : SubjectId
  buffers : List (List Byte)
  priority : Priority
  pendingTransfer : Option TransferEntry
  fragmentedTransfer : Option TransferEntry
  scratchpadBufferIdx : Option ℕ
  freeBufferIndexes : List ℕ
  emptyWaker : Option Waker
deriving DecidableEq

namespace Inner

def new (subject : SubjectId) (priority : Priority) (buffers : List (List Byte)) : Exec Inner := do
  assert (buffers.length = BUFFER_COUNT)
  return {
    subject := subject
    buffers := buffers
    priority := priority
    pendingTransfer := none
    fragmentedTransfer := none
    scratchpadBufferIdx := none
    freeBufferIndexes := List.range BUFFER_COUNT
    emptyWaker := none }

def isEmpty (r : Inner) : Bool := r.fragmentedTransfer.isNone && r.pendingTransfer.isNone

def popReadiness (r : Inner) : PrioritySet := if !r.isEmpty then .newEq r.priority else .NONE

def pushReadiness (r : Inner) : PrioritySet := .newEq r.priority

/-- `unwrap!(self.free_buffer_indexes.push(idx))`. -/
def pushFree (r : Inner) (idx : ℕ) : Exec Inner :=
  if r.freeBufferIndexes.length < BUFFER_COUNT then
    .ok { r with freeBufferIndexes := r.freeBufferIndexes ++ [idx] }
  else .error .unwrap

/-- The pending transfer becomes the one that is sent, if there is none. -/
def startTransfer (r : Inner) : Inner :=
  if r.fragmentedTransfer.isNone then
    { r with fragmentedTransfer := r.pendingTransfer, pendingTransfer := none }
  else r

/-- After a frame was fetched, the transfer is kept with what is left of it, or its buffer is
freed. -/
def advance (r : Inner) (entry : TransferEntry) (scatter : Scatter) : Exec Inner :=
  if scatter.isExhausted then pushFree { r with fragmentedTransfer := none } entry.bufferIdx
  else .ok { r with fragmentedTransfer := some { entry with scatter := scatter } }

def tryPop (r : Inner) (priorityMask : PrioritySet) (mtu : Mtu) : Exec (Option Frame × Inner) := do
  if !priorityMask.contains r.priority then return (none, r)
  let r := r.startTransfer
  match r.fragmentedTransfer with
  | none => return (none, r)
  | some entry =>
    let buffer ← index r.buffers entry.bufferIdx
    let (data, scatter) ← entry.scatter.fetchFrameData buffer mtu
    let data ← unwrap data
    let frame : Frame := {
      header := ⟨r.priority, .message r.subject, none, none⟩
      data := data
      timestamp := entry.timestamp
      loopBack := entry.loopBack }
    let r ← r.advance entry scatter
    let r := if r.isEmpty then { r with emptyWaker := none } else r
    return (some frame, r)

def pollIsEmpty (r : Inner) (waker : Waker) : Bool × Inner :=
  if r.isEmpty then (true, r) else (false, { r with emptyWaker := some waker })

/-- `none` is `Poll::Pending`. -/
def pollPushReadiness (r : Inner) (_waker : Waker) (priorityMask : PrioritySet) :
    Option PrioritySet × Inner :=
  if priorityMask.contains r.priority then (some (.newEq r.priority), r) else (none, r)

/-- Next to the priorities, the contents of the buffer that can be written to. -/
def getScratchpad (r : Inner) : Exec (Option (PrioritySet × List Byte) × Inner) := do
  let r ← match r.scratchpadBufferIdx with
    | some _ => pure r
    | none =>
      match splitLast r.freeBufferIndexes with
      | some (idx, freeBufferIndexes) =>
        pure { r with scratchpadBufferIdx := some idx, freeBufferIndexes := freeBufferIndexes }
      | none => do
        let entry ← unwrap r.pendingTransfer
        pure { r with scratchpadBufferIdx := some entry.bufferIdx, pendingTransfer := none }
  let idx ← unwrap r.scratchpadBufferIdx
  let buffer ← index r.buffers idx
  return (some (.newEq r.priority, buffer), r)

/-- The caller writes to the scratchpad it was given. -/
def writeScratchpad (r : Inner) (bytes : List Byte) : Inner :=
  match r.scratchpadBufferIdx with
  | some idx => { r with buffers := r.buffers.set idx bytes }
  | none => r

def tryPush (r : Inner) (transferMeta : TransferMeta) (length : ℕ) (crc : TransferCrc) :
    Exec (Except BufferError Unit × Inner) := do
  if transferMeta.address.isSome then return (.error .messageAddressSpecified, r)
  if !r.pushReadiness.contains transferMeta.priority then return (.error .priorityNotReady, r)
  match r.scratchpadBufferIdx with
  | none => return (.error .scratchpadNotInitialized, r)
  | some bufferIdx =>
    let _buffer ← index r.buffers bufferIdx
    let entry : TransferEntry := {
      bufferIdx := bufferIdx
      scatter := .new transferMeta.transferId length crc
      timestamp := transferMeta.timestamp
      loopBack := transferMeta.loopBack }
    let prevTransfer := r.pendingTransfer
    let r := { r with scratchpadBufferIdx := none, pendingTransfer := some entry }
    let r ← match prevTransfer with
      | some prevTransfer => r.pushFree prevTransfer.bufferIdx
      | none => pure r
    return (.ok (), r)

end Inner

end Emcyphal.Signal
