import Emcyphal.Lib.Lanes
import Emcyphal.Tx.Buffer

/-!
# The transmit queue

`emcyphal/src/registry/tx_queue.rs`.  The entries that have something to send are kept in two lists
for each priority: those with a transfer that was sent in part are in `started`, the others in
`finished`.  An entry is in the list of the most urgent priority its buffer reports, and has a mark
that says in which.

An entry is known by its address, and `entries` is the memory with the entries that are registered.
An access through an address that is not registered, which in the code is undefined behaviour,
panics.
-/

set_option autoImplicit false

namespace Emcyphal

open Rust

inductive QueueType
  | started
  | finished
deriving DecidableEq, Repr

abbrev QueueId := Priority × QueueType

namespace TxQueue

/-- The address of an entry, which is what a token holds. -/
abbrev Address := ℕ

structure Entry where
  queueMark : Option QueueId
  started : PrioritySet
  buffer : TxBuffer

def Entry.new (buffer : TxBuffer) : Entry := ⟨none, .NONE, buffer⟩

structure Queues where
  started : Priority → List Address
  startedPriorities : PrioritySet
  finished : Priority → List Address
  finishedPriorities : PrioritySet

namespace Queues

def new : Queues := ⟨fun _ ↦ [], .NONE, fun _ ↦ [], .NONE⟩

def getQueue (r : Queues) : QueueId → List Address
  | (priority, .started) => r.started priority
  | (priority, .finished) => r.finished priority

def setQueue (r : Queues) (queue : List Address) : QueueId → Queues
  | (priority, .started) => { r with started := Function.update r.started priority queue }
  | (priority, .finished) => { r with finished := Function.update r.finished priority queue }

def getFront (r : Queues) (id : QueueId) : Option Address := (r.getQueue id).head?

def setEmptyFlag (r : Queues) : QueueId → Queues
  | (priority, .started) => { r with startedPriorities := r.startedPriorities.remove priority }
  | (priority, .finished) => { r with finishedPriorities := r.finishedPriorities.remove priority }

def clearEmptyFlag (r : Queues) : QueueId → Queues
  | (priority, .started) => { r with startedPriorities := r.startedPriorities.insert priority }
  | (priority, .finished) => { r with finishedPriorities := r.finishedPriorities.insert priority }

/-- Removes the element that the cursor is at.  A cursor at an element that is not linked has
nothing to remove. -/
def remove (r : Queues) (id : QueueId) (address : Address) : Exec Queues := do
  let queue := r.getQueue id
  let _ ← unwrap (queue.find? (· == address))
  let queue := queue.erase address
  let r := r.setQueue queue id
  return if queue.isEmpty then r.setEmptyFlag id else r

def pushBack (r : Queues) (id : QueueId) (address : Address) : Queues :=
  (r.setQueue (r.getQueue id ++ [address]) id).clearEmptyFlag id

end Queues

end TxQueue

open TxQueue

structure TxQueue where
  queues : Queues
  nonEmptyTrigger : PriorityTrigger
  entries : Address → Option Entry

namespace TxQueue

def new : TxQueue := ⟨.new, .new, fun _ ↦ none⟩

def setEntry (r : TxQueue) (address : Address) (entry : Entry) : TxQueue :=
  { r with entries := Function.update r.entries address (some entry) }

/-- `drop_in_place` of the entry. -/
def dropEntry (r : TxQueue) (address : Address) : TxQueue :=
  { r with entries := Function.update r.entries address none }

def dequeue (r : TxQueue) (address : Address) : Exec TxQueue := do
  let entry ← unwrap (r.entries address)
  let r := r.setEntry address { entry with queueMark := none }
  match entry.queueMark with
  | none => return r
  | some id =>
    let queues ← r.queues.remove id address
    return { r with queues := queues }

def moveBack (r : TxQueue) (id : QueueId) (address : Address) : Exec TxQueue := do
  let r ← r.dequeue address
  let entry ← unwrap (r.entries address)
  let r := r.setEntry address { entry with queueMark := some id }
  return { r with queues := r.queues.pushBack id address }

def regUpdateQueuePosition (r : TxQueue) (address : Address) : Exec TxQueue := do
  let entry ← unwrap (r.entries address)
  match entry.buffer.popReadiness.first with
  | some priority =>
    let id := if entry.started.contains priority then (priority, .started) else
      (priority, .finished)
    if entry.queueMark ≠ some id then
      let r ← r.moveBack id address
      return { r with nonEmptyTrigger := r.nonEmptyTrigger.wake (.newEq priority) }
    else return r
  | none => r.dequeue address

def regRegister (r : TxQueue) (address : Address) : Exec TxQueue := r.regUpdateQueuePosition address

def regUnregister (r : TxQueue) (address : Address) : Exec TxQueue := r.dequeue address

def firstQueueId (started finished : PrioritySet) : Option QueueId :=
  match (started ||| finished).first with
  | some priority =>
    let queueType := if started.contains priority then .started else .finished
    some (priority, queueType)
  | none => none

def hubTryPop (r : TxQueue) (priorityMask : PrioritySet) (mtu : Mtu) :
    Exec (Option Frame × TxQueue) := do
  match firstQueueId (r.queues.startedPriorities &&& priorityMask)
    (r.queues.finishedPriorities &&& priorityMask) with
  | none => return (none, r)
  | some (priority, queue) =>
    let address ← unwrap (r.queues.getFront (priority, queue))
    let entry ← unwrap (r.entries address)
    let (res, buffer) ← entry.buffer.tryPop (.newEq priority) mtu
    match res with
    | none =>
      let r ← (r.setEntry address { entry with buffer := buffer }).regUpdateQueuePosition address
      return (none, r)
    | some frame =>
      assert (frame.header.priority = priority)
      assert (frame.data.bytes.length ≤ mtu.toUsize)
      let eot ← unwrap (isEotFrame frame)
      let started := if eot then entry.started.remove priority else entry.started.insert priority
      let r := r.setEntry address { entry with started := started, buffer := buffer }
      -- An element that stays in a `finished` queue is moved back, to pull evenly from all
      -- endpoints.
      let r ← if eot then r.dequeue address else pure r
      let r ← r.regUpdateQueuePosition address
      return (some frame, r)

def hubPollPop (r : TxQueue) (waker : Waker) (priorityMask : PrioritySet) (mtu : Mtu) :
    Exec (Option Frame × TxQueue) := do
  let (frame, r) ← r.hubTryPop priorityMask mtu
  match frame with
  | some frame => return (some frame, r)
  | none =>
    return (none, { r with nonEmptyTrigger := r.nonEmptyTrigger.register waker priorityMask })

end TxQueue

end Emcyphal
