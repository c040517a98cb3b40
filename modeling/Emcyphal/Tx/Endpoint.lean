import Emcyphal.Tx.Buffer

/-!
# The transmit endpoint

`Tx::try_push` in `emcyphal/src/endpoint.rs` takes the scratchpad, checks the priority, writes the
payload to the scratchpad and pushes it.

How a payload is written is up to its type: `Serialize` is a trait of a library, and what the
endpoint relies on is `LawfulSerialize`.  `ByteArray` is one of the types that are used for it.
-/

set_option autoImplicit false

namespace Emcyphal

open Rust

/-- The length of the data buffers for a type. -/
class BufferType (T : Type) where
  bufferLength : ℕ

class Serialize (T : Type) where
  sizeBits : T → ℕ
  /-- What the buffer holds after the payload was written to it. -/
  serializeToBytes : T → List Byte → List Byte

/-- `size_bits().div_ceil(8)`. -/
def Serialize.dataLength {T : Type} [Serialize T] (payload : T) : ℕ := (sizeBits payload + 7) / 8

/-- A payload fits the data buffers of its type, and the bytes that are written are its own. -/
class LawfulSerialize (T : Type) [BufferType T] [Serialize T] : Prop where
  fits : ∀ payload : T, Serialize.dataLength payload ≤ BufferType.bufferLength T
  length : ∀ (payload : T) (buffer : List Byte), buffer.length = BufferType.bufferLength T →
    (Serialize.serializeToBytes payload buffer).length = buffer.length
  determined : ∀ (payload : T) (buffer buffer' : List Byte),
    buffer.length = BufferType.bufferLength T → buffer'.length = BufferType.bufferLength T →
      (Serialize.serializeToBytes payload buffer).take (Serialize.dataLength payload) =
        (Serialize.serializeToBytes payload buffer').take (Serialize.dataLength payload)

namespace DataTypes

/-- `uavcan.primitive.array.Natural8.1.0`. -/
structure ByteArray where
  bytes : List Byte
  length_le : bytes.length ≤ 256

instance : BufferType ByteArray := ⟨258⟩

/-- The length is written in front of the bytes. -/
instance : Serialize ByteArray where
  sizeBits payload := 16 + payload.bytes.length * 8
  serializeToBytes payload buffer :=
    [BitVec.ofNat 8 payload.bytes.length, BitVec.ofNat 8 (payload.bytes.length / 256)] ++
      payload.bytes ++
      buffer.drop (2 + payload.bytes.length)

end DataTypes

namespace Endpoint

structure Transfer (T : Type) where
  transferMeta : TransferMeta
  payload : T

end Endpoint

variable {T : Type} [Serialize T]

/-- `Tx::try_push`. -/
def Tx.tryPush (b : TxBuffer) (transfer : Endpoint.Transfer T) :
    Exec (Except BufferError Unit × TxBuffer) := do
  let (scratchpad, b) ← b.getScratchpad
  match scratchpad with
  | none => return (.error .priorityNotReady, b)
  | some (priorities, buffer) =>
    if !priorities.contains transfer.transferMeta.priority then return (.error .priorityNotReady, b)
    let buffer := Serialize.serializeToBytes transfer.payload buffer
    let length := Serialize.dataLength transfer.payload
    let crc := TransferCrc.default.addBytes (← sliceTo buffer length)
    (b.writeScratchpad buffer).tryPush transfer.transferMeta length crc

namespace TxBuffer

/-- What is done with a buffer: the driver fetches frames, and the endpoint pushes transfers. -/
inductive Call (T : Type)
  | fetch (priorityMask : PrioritySet) (mtu : Mtu)
  | push (transfer : Endpoint.Transfer T)

inductive Reply
  | fetched (frame : Option Frame)
  | pushed (result : Except BufferError Unit)
deriving DecidableEq

def call (b : TxBuffer) : Call T → Exec (TxBuffer × Reply)
  | .fetch priorityMask mtu => do
    let (frame, b) ← b.tryPop priorityMask mtu
    return (b, .fetched frame)
  | .push transfer => do
    let (result, b) ← Tx.tryPush b transfer
    return (b, .pushed result)

end TxBuffer

namespace DataTypes.ByteArray

theorem dataLength_eq (payload : DataTypes.ByteArray) :
    Serialize.dataLength payload = 2 + payload.bytes.length := by
  rw [Serialize.dataLength]
  simp only [Serialize.sizeBits]
  omega

instance : LawfulSerialize DataTypes.ByteArray where
  fits payload := by
    rw [dataLength_eq]
    have h := payload.length_le
    simp only [BufferType.bufferLength]
    omega
  length payload buffer hbuffer := by
    have h := payload.length_le
    simp only [BufferType.bufferLength] at hbuffer
    simp only [Serialize.serializeToBytes, List.length_append, List.length_cons, List.length_nil,
      List.length_drop]
    omega
  determined payload buffer buffer' _ _ := by
    have htake : ∀ xs : List Byte, (Serialize.serializeToBytes payload xs).take
      (2 + payload.bytes.length) =
        [BitVec.ofNat 8 payload.bytes.length, BitVec.ofNat 8 (payload.bytes.length / 256)] ++
          payload.bytes := by
      intro xs
      simp only [Serialize.serializeToBytes]
      exact List.take_left' (by simp; omega)
    rw [dataLength_eq, htake, htake]

end DataTypes.ByteArray

end Emcyphal
