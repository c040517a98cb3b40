import Emcyphal.Registry.RxMsg
import Emcyphal.Tx.Queue.Pop

/-!
# The transmit registries

`emcyphal/src/registry/tx_msg.rs` and `emcyphal/src/registry/tx_resp.rs`.  Both keep their entries
in a transmit queue; the one for messages has a tree of the subjects in addition, which admits one
entry for each.  The rest is the same in both files.

`Registry` is either of them, with the calls of `TxReg` and `DynamicTx` that change it as its
operations.  Writing to a scratchpad is not a call of the registry: it is what its callers do with
the slice they get.
-/

set_option autoImplicit false

namespace Emcyphal

open Rust TxQueue

namespace TxMsg

structure Inner where
  entryTree : List (SubjectId × Address)
  queue : TxQueue

namespace Inner

def new : Inner := ⟨[], .new⟩

def regRegister (r : Inner) (address : Address) (subject : SubjectId) (buffer : TxBuffer) :
    Exec (Except RxMsg.RegistrationError Address × Inner) := do
  if r.entryTree.any fun elem ↦ elem.1 == subject then return (.error .dataSpecifierOccupied, r)
  let (before, after) := Tree.upperBound Prod.fst subject r.entryTree
  let queue ← (r.queue.setEntry address (.new buffer)).regRegister address
  return (.ok address,
    { r with entryTree := before ++ (subject, address) :: after, queue := queue })

def regUnregister (r : Inner) (token : Address) : Exec Inner := do
  let (before, _, after) ← unwrap (Tree.cursorAt (fun elem ↦ elem.2 == token) r.entryTree)
  let queue ← r.queue.regUnregister token
  return { r with entryTree := before ++ after, queue := queue.dropEntry token }

end Inner

end TxMsg

namespace TxResp

structure Inner where
  queue : TxQueue

namespace Inner

def new : Inner := ⟨.new⟩

def regRegister (r : Inner) (address : Address) (buffer : TxBuffer) : Exec (Address × Inner) := do
  let queue ← (r.queue.setEntry address (.new buffer)).regRegister address
  return (address, { r with queue := queue })

def regUnregister (r : Inner) (token : Address) : Exec Inner := do
  let queue ← r.queue.regUnregister token
  return { r with queue := queue.dropEntry token }

end Inner

end TxResp

/-! ## What both registries do with their queue -/

namespace TxQueue

def withBufferMut {α : Type} (r : TxQueue) (address : Address)
    (f : TxBuffer → Exec (α × TxBuffer)) :
    Exec (α × TxQueue) := do
  let entry ← unwrap (r.entries address)
  let (res, buffer) ← f entry.buffer
  return (res, r.setEntry address { entry with buffer := buffer })

def getScratchpad (r : TxQueue) (address : Address) :
    Exec (Option (PrioritySet × List Byte) × TxQueue) :=
  r.withBufferMut address TxBuffer.getScratchpad

/-- The caller writes to the scratchpad it was given. -/
def writeScratchpad (r : TxQueue) (address : Address) (bytes : List Byte) : Exec (Unit × TxQueue) :=
  r.withBufferMut address fun buffer ↦ .ok ((), buffer.writeScratchpad bytes)

def tryPush (r : TxQueue) (address : Address) (transferMeta : TransferMeta) (length : ℕ)
    (crc : TransferCrc) : Exec (Except BufferError Unit × TxQueue) := do
  let (res, r) ← r.withBufferMut address fun buffer ↦ buffer.tryPush transferMeta length crc
  match res with
  | .ok () =>
    let r ← r.regUpdateQueuePosition address
    return (.ok (), r)
  | .error e => return (.error e, r)

/-- `none` is `Poll::Pending`. -/
def pollPop (r : TxQueue) (waker : Waker) (priorityMask : PrioritySet) (mtu : Mtu) :
    Exec (Option Frame × TxQueue) := do
  if priorityMask.isEmpty then return (none, r)
  r.hubPollPop waker priorityMask mtu

end TxQueue

inductive Registry
  | message (inner : TxMsg.Inner)
  | response (inner : TxResp.Inner)

namespace Registry

def queue : Registry → TxQueue
  | message inner => inner.queue
  | response inner => inner.queue

def setQueue : Registry → TxQueue → Registry
  | message inner, queue => message { inner with queue := queue }
  | response inner, queue => response { inner with queue := queue }

inductive Op
  | register (address : Address) (init : TxBuffer.Init)
  | unregister (token : Address)
  | getScratchpad (token : Address)
  | writeScratchpad (token : Address) (bytes : List Byte)
  | tryPush (token : Address) (transferMeta : TransferMeta) (length : ℕ) (crc : TransferCrc)
  | pollPop (waker : Waker) (priorityMask : PrioritySet) (mtu : Mtu)
deriving DecidableEq

/-- What a call returns.  A frame comes with the entry it was taken from. -/
inductive Event
  | registered (res : Except RxMsg.RegistrationError Address)
  | unregistered
  | scratchpad (res : Option (PrioritySet × List Byte))
  | written
  | pushed (res : Except BufferError Unit)
  | popped (res : Option (Address × Frame))
deriving DecidableEq

/-- The type of an entry says which registry it is for: the last two cases do not occur. -/
def register (r : Registry) (address : Address) (init : TxBuffer.Init) :
    Exec (Registry × Event) := do
  let buffer ← TxBuffer.new init
  match r, init with
  | message inner, .signal subject _ _ | message inner, .blocking subject _ _ =>
    let (res, inner) ← inner.regRegister address subject buffer
    return (message inner, .registered res)
  | response inner, .response _ _ =>
    let (token, inner) ← inner.regRegister address buffer
    return (response inner, .registered (.ok token))
  | message _, .response _ _ => .error .unreachable
  | response _, _ => .error .unreachable

def unregister (r : Registry) (token : Address) : Exec Registry :=
  match r with
  | message inner => message <$> inner.regUnregister token
  | response inner => response <$> inner.regUnregister token

def step (r : Registry) : Op → Exec (Registry × Event)
  | .register address init => r.register address init
  | .unregister token => do
    let r ← r.unregister token
    return (r, .unregistered)
  | .getScratchpad token => do
    let (res, queue) ← r.queue.getScratchpad token
    return (r.setQueue queue, .scratchpad res)
  | .writeScratchpad token bytes => do
    let (_, queue) ← r.queue.writeScratchpad token bytes
    return (r.setQueue queue, .written)
  | .tryPush token transferMeta length crc => do
    let (res, queue) ← r.queue.tryPush token transferMeta length crc
    return (r.setQueue queue, .pushed res)
  | .pollPop waker priorityMask mtu => do
    let (frame, queue) ← r.queue.pollPop waker priorityMask mtu
    return (r.setQueue queue,
      .popped ((r.queue.hubFront priorityMask).bind fun address ↦ frame.map fun frame ↦
      (address, frame)))

end Registry

end Emcyphal
