import Emcyphal.Can.Native.Frame
import Emcyphal.Can.Native.Mailbox
import Emcyphal.Endpoint
import Emcyphal.Lib.Machine

/-!
# The transmit task of the native driver

`TxRunner::run` of `emcyphal-stm32-native/src/driver.rs`, and the part of the peripheral that it
works with.  The loop first reads which mailboxes are pending, then takes the events from the FIFO,
and only then waits for the first of four futures.  A frame that waits for the bus is preempted by
cancelling its mailbox, and is put in another one later.

The peripheral goes on between any two accesses to its registers, so a step of the runner reads them
at most once; what it writes afterwards is the same whether the peripheral does something in between
or not.  A mailbox that was requested is sent, with an event, or is cancelled; it stays pending for
a while after that.

Next to the system there is a log of what has happened to the frames, which are numbered in the
order in which they were fetched.  Nothing the runner does depends on it.
-/

set_option autoImplicit false

namespace Emcyphal.Can.Native

open Rust BitField

/-! ## The peripheral -/

structure TxEvent where
  marker : BitVec 8
  timestamp : BitVec 16

/-- Registers and message RAM. -/
structure Peripheral where
  elements : TxMailboxIdx → TxBufferElement
  /-- `TXBRP`. -/
  pending : TxMailboxSet
  /-- The pending mailboxes that `TXBCR` was written for. -/
  cancelling : TxMailboxSet
  /-- The pending mailboxes that have been sent. -/
  sent : TxMailboxSet
  events : List TxEvent

namespace Peripheral

def new : Peripheral := ⟨fun _ ↦ ⟨.resetValue, .replicate 16 0⟩, .NONE, .NONE, .NONE, []⟩

/-- `none` if the mailbox is in use. -/
def add (h : Peripheral) (mailboxIdx : TxMailboxIdx) (frame : Frame) (frameFormat : FrameFormat)
    (marker : BitVec 8) : Exec (Option Peripheral) := do
  if h.pending.contains mailboxIdx then return none
  let elem ← storeTxBuffer (h.elements mailboxIdx) frame frameFormat marker
  return some { h with
    elements := Function.update h.elements mailboxIdx elem
    pending := h.pending.insert mailboxIdx }

/-- Only pending mailboxes are cancelled. -/
def cancel (h : Peripheral) (mailboxes : TxMailboxSet) : Peripheral :=
  { h with cancelling := h.cancelling ||| (h.pending &&& mailboxes) }

/-- The marker that the event of a mailbox will have. -/
def marker (h : Peripheral) (idx : TxMailboxIdx) : BitVec 8 :=
  (load (h.elements idx).header.word1 0xFF#32 24).setWidth 8

/-- A mailbox is sent, and its event is stored. -/
def send (h : Peripheral) (idx : TxMailboxIdx) (timestamp : BitVec 16) : Peripheral :=
  { h with sent := h.sent.insert idx, events := h.events ++ [⟨h.marker idx, timestamp⟩] }

/-- A mailbox is not pending any more. -/
def unpend (h : Peripheral) (idx : TxMailboxIdx) : Peripheral :=
  { h with
    pending := h.pending.remove idx
    cancelling := h.cancelling.remove idx
    sent := h.sent.remove idx }

end Peripheral

/-! ## The loop -/

def makeTimestamp (epoch : Instant) (counter : BitVec 16) : Instant :=
  let offset := BitVec.ofNat 16 epoch - counter
  ⟨epoch.val - offset.toNat, by omega⟩

/-- The variables of `run`. -/
structure TxRunner where
  frames : PriorityMap Frame
  pendingFrames : MailboxPriorityMap
  loopBackPending : PrioritySet

namespace TxRunner

def new : TxRunner := ⟨.new Frame, .new, .NONE⟩

/-- The loop over the events, for one of them, with its mailbox. -/
def complete (timestampOffset : Option (BitVec 16)) (now : Instant) (event : TxEvent)
    (r : TxRunner) : Exec (TxRunner × TxMailboxIdx) := do
  let idx ← unwrap (TxMailboxIdx.new event.marker)
  let (removed, pendingFrames) := r.pendingFrames.removeByMailbox idx
  let priority ← unwrap removed
  let frame ← unwrap (r.frames.values priority)
  if frame.loopBack then
    let timestamp := match timestampOffset with
      | some offset => makeTimestamp now (event.timestamp - offset)
      | none => now
    let frames := r.frames.assign priority { frame with timestamp := timestamp }
    return (⟨frames, pendingFrames, r.loopBackPending.insert priority⟩, idx)
  else
    return (⟨(r.frames.remove priority).2, pendingFrames, r.loopBackPending⟩, idx)

/-- The loop over the mailboxes that are free without an event. -/
def release : List TxMailboxIdx → TxRunner → TxRunner
  | [], r => r
  | idx :: rest, r =>
    release rest { r with pendingFrames := (r.pendingFrames.removeByMailbox idx).2 }

end TxRunner

/-- What an iteration of the loop has found out before it waits. -/
structure Selection where
  freeMailboxes : TxMailboxSet
  occupiedPriorities : PrioritySet
  queuedPriorities : PrioritySet
deriving DecidableEq

/-- How far the future that enqueues a frame is. -/
inductive Enqueue
  | notPolled
  | added (idx : TxMailboxIdx) (priority : Priority)
  | waiting (idx : TxMailboxIdx)
deriving DecidableEq

/-- Where in its loop the runner is. -/
inductive Phase
  | start
  | events (pendingMailboxes completedMailboxes : TxMailboxSet)
  | select (sel : Selection) (enqueue : Enqueue)
deriving DecidableEq

namespace Phase

/-- What the runner waits with.  It does not wait before a future has been polled. -/
def selection : Phase → Option Selection
  | select sel .notPolled | select sel (.waiting _) => some sel
  | _ => none

/-- The mailbox that the runner waits for. -/
def waitsFor : Phase → Option TxMailboxIdx
  | select _ (.waiting idx) => some idx
  | _ => none

end Phase

/-! ## The system -/

/-- What has happened to the frames. -/
structure Log where
  fetched : List Frame
  /-- The number of the frame that was last fetched with a priority. -/
  number : Priority → ℕ
  /-- The number of the frame that was last put in a mailbox. -/
  mailbox : TxMailboxIdx → ℕ
  /-- The frames that were sent. -/
  bus : List ℕ
  /-- The frames whose deadline has passed, with the time at that moment. -/
  dropped : List (ℕ × Instant)

structure System where
  runner : TxRunner
  phase : Phase
  peripheral : Peripheral
  log : Log

inductive Op
  /-- The runner goes on. -/
  | advance (now : Instant)
  /-- The first deadline has passed. -/
  | expire (now : Instant)
  | loopBackSent
  | fetch (frame : Frame)
  /-- The mailbox that the runner waits for is not pending any more. -/
  | unpended
  /-- The peripheral sends a mailbox. -/
  | send (idx : TxMailboxIdx) (timestamp : BitVec 16)
  /-- The peripheral is done with a mailbox. -/
  | unpend (idx : TxMailboxIdx)

namespace System

def new : System := ⟨.new, .start, .new, ⟨[], fun _ ↦ 0, fun _ ↦ 0, [], []⟩⟩

/-- An event is taken from the FIFO, or there is none. -/
def drain (timestampOffset : Option (BitVec 16)) (now : Instant)
    (pendingMailboxes completedMailboxes : TxMailboxSet) (s : System) : Exec System := do
  match s.peripheral.events with
  | event :: events =>
    let (runner, idx) ← s.runner.complete timestampOffset now event
    return { s with
      runner := runner
      phase := .events pendingMailboxes (completedMailboxes.insert idx)
      peripheral := { s.peripheral with events := events } }
  | [] =>
    let freeMailboxes := ~~~pendingMailboxes ||| completedMailboxes
    let runner := s.runner.release (freeMailboxes &&& ~~~completedMailboxes).toList
    let occupiedPriorities := runner.frames.keys
    let queuedPriorities := occupiedPriorities &&& ~~~runner.loopBackPending
    return { s with
      runner := runner
      phase := .select ⟨freeMailboxes, occupiedPriorities, queuedPriorities⟩ .notPolled }

/-- The future that enqueues the first frame is polled. -/
def enqueue (frameFormat : FrameFormat) (sel : Selection) (s : System) : Exec System := do
  match sel.queuedPriorities.first with
  | none => return s
  | some priority =>
    if s.runner.pendingFrames.containsPriority priority then
      let idx ← unwrap (s.runner.pendingFrames.getByPriority priority)
      return { s with phase := .select sel (.waiting idx) }
    else
      let idx ← unwrap sel.freeMailboxes.first
      let frame ← unwrap (s.runner.frames.values priority)
      let added ← s.peripheral.add idx frame frameFormat idx.intoU8
      let peripheral ← unwrap added
      return { s with
        phase := .select sel (.added idx priority)
        peripheral := peripheral.cancel (~~~(.newEq idx))
        log := { s.log with mailbox := Function.update s.log.mailbox idx (s.log.number priority) } }

/-- What it does after the frame was added. -/
def check (sel : Selection) (idx : TxMailboxIdx) (priority : Priority) (s : System) :
    Exec System := do
  assert (s.peripheral.pending ≠ .ALL)
  let pendingFrames ← unwrap (s.runner.pendingFrames.insert idx priority)
  let idx ← unwrap (pendingFrames.getByPriority priority)
  return { s with
    runner := { s.runner with pendingFrames := pendingFrames }
    phase := .select sel (.waiting idx) }

/-- A frame is removed, and its mailbox is cancelled. -/
def dropFrame (now : Instant) (p : Priority) (s : System) : Exec System := do
  let (removed, frames) := s.runner.frames.remove p
  let _ ← unwrap removed
  let (idx, pendingFrames) := s.runner.pendingFrames.removeByPriority p
  let peripheral := match idx with
    | some idx => s.peripheral.cancel (.newEq idx)
    | none => s.peripheral
  return { s with
    runner := { s.runner with frames := frames, pendingFrames := pendingFrames }
    peripheral := peripheral
    log := { s.log with dropped := s.log.dropped ++ [(s.log.number p, now)] } }

/-- The loop over the queued priorities, when a deadline has passed. -/
def dropExpired (now : Instant) : List Priority → System → Exec System
  | [], s => .ok s
  | p :: ps, s => do
    let frame ← unwrap (s.runner.frames.values p)
    if frame.timestamp ≤ now then
      let s ← s.dropFrame now p
      dropExpired now ps s
    else dropExpired now ps s

/-- The frame is kept, unless it is anonymous. -/
def fetched (frame : Frame) (s : System) : Exec System := do
  if frame.header.source.isSome then
    let priority := frame.header.priority
    match s.runner.frames.insert priority frame with
    | (some _, _) => .error .unwrap
    | (none, frames) => return { s with
        runner := { s.runner with frames := frames }
        phase := .start
        log := { s.log with
          fetched := s.log.fetched ++ [frame]
          number := Function.update s.log.number priority s.log.fetched.length } }
  else return { s with phase := .start }

/-- The frame has been sent to the receive task. -/
def loopedBack (s : System) : Exec System := do
  match s.runner.loopBackPending.first with
  | none => return s
  | some priority =>
    let (removed, frames) := s.runner.frames.remove priority
    let _ ← unwrap removed
    return { s with
      runner := { s.runner with
        frames := frames
        loopBackPending := s.runner.loopBackPending.remove priority }
      phase := .start }

variable (frameFormat : FrameFormat) (timestampOffset : Option (BitVec 16))

/-- The runner goes on until it reads a register, or waits. -/
def advance (now : Instant) (s : System) : Exec System :=
  match s.phase with
  | .start => .ok { s with phase := .events s.peripheral.pending .NONE }
  | .events pendingMailboxes completedMailboxes =>
    s.drain timestampOffset now pendingMailboxes completedMailboxes
  | .select sel .notPolled => s.enqueue frameFormat sel
  | .select sel (.added idx priority) => s.check sel idx priority
  | .select _ (.waiting _) => .ok s

def step (s : System) : Op → Exec (System × Unit)
  | .advance now => (·, ()) <$> s.advance frameFormat timestampOffset now
  | .expire now =>
    match s.phase.selection with
    | none => .ok (s, ())
    | some sel => (·, ()) <$> dropExpired now (Priority.all.filter sel.queuedPriorities.contains)
        { s with phase := .start }
  | .loopBackSent => (·, ()) <$> s.loopedBack
  | .fetch frame => (·, ()) <$> s.fetched frame
  | .unpended => .ok ({ s with phase := .start }, ())
  | .send idx timestamp => .ok ({ s with
      peripheral := s.peripheral.send idx timestamp
      log := { s.log with bus := s.log.bus ++ [s.log.mailbox idx] } }, ())
  | .unpend idx => .ok ({ s with peripheral := s.peripheral.unpend idx }, ())

/-- A future of the runner is ready only while the runner waits.  The link has a frame of a priority
that was asked for, and the peripheral sends what was requested and not yet sent. -/
def Valid (s : System) : Op → Prop
  | .advance _ => True
  | .expire now => ∃ sel ∈ s.phase.selection, ∃ p ∈ Priority.all,
      sel.queuedPriorities.contains p = true ∧ ∃ frame ∈ s.runner.frames.values p,
        frame.timestamp ≤ now
  | .loopBackSent => s.phase.selection.isSome = true ∧
      s.runner.loopBackPending.first.isSome = true
  | .fetch frame => ∃ sel ∈ s.phase.selection,
      sel.occupiedPriorities.contains frame.header.priority = false
  | .unpended => ∃ idx ∈ s.phase.waitsFor, s.peripheral.pending.contains idx = false
  | .send idx _ => s.peripheral.pending.contains idx = true ∧ s.peripheral.sent.contains idx = false
  | .unpend idx => s.peripheral.pending.contains idx = true ∧
      (s.peripheral.sent.contains idx = true ∨ s.peripheral.cancelling.contains idx = true)

instance decidableValid (s : System) : (op : Op) → Decidable (s.Valid op)
  | .advance _ => isTrue trivial
  | .expire _ => inferInstanceAs (Decidable (∃ sel ∈ s.phase.selection, _))
  | .loopBackSent => inferInstanceAs (Decidable (_ ∧ _))
  | .fetch _ => inferInstanceAs (Decidable (∃ sel ∈ s.phase.selection, _))
  | .unpended => inferInstanceAs (Decidable (∃ idx ∈ s.phase.waitsFor, _))
  | .send _ _ => inferInstanceAs (Decidable (_ ∧ _))
  | .unpend _ => inferInstanceAs (Decidable (_ ∧ _))

end System

end Emcyphal.Can.Native
