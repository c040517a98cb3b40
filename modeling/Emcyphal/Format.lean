import Emcyphal.Core
import Emcyphal.Lib.ShiftRegister

/-!
# Transfer CRC and tail byte

`emcyphal/src/format.rs`.  Every multi-frame transfer ends with a CRC of its payload, and every
frame ends with a tail byte.

Two facts carry the rest of the development: the CRC of anything followed by its own two bytes is
zero (`addBytes_toBeBytes`), which is what the receiver tests, and a tail byte is read back as it
was written.
-/

set_option autoImplicit false

namespace Emcyphal

/-! ## The CRC of a transfer -/

/-- CRC-16/CCITT-FALSE, most significant bit first. -/
structure TransferCrc where
  val : BitVec 16
deriving DecidableEq

namespace TransferCrc

def LENGTH : ℕ := 2

def INIT_VALUE : BitVec 16 := 0xffff

def POLYNOMIAL : BitVec 16 := 0x1021

def default : TransferCrc := ⟨INIT_VALUE⟩

/-- One iteration of the loop over the bits of a byte. -/
def shift (crc : BitVec 16) : BitVec 16 :=
  if crc &&& 0x8000#16 != 0 then (crc <<< 1) ^^^ POLYNOMIAL else crc <<< 1

def add (crc : TransferCrc) (byte : Byte) : TransferCrc :=
  ⟨shift^[8] (crc.val ^^^ (byte.setWidth 16 <<< 8))⟩

def addBytes (crc : TransferCrc) (bytes : List Byte) : TransferCrc := bytes.foldl add crc

def get (crc : TransferCrc) : BitVec 16 := crc.val

@[simp] theorem addBytes_nil (crc : TransferCrc) : crc.addBytes [] = crc := rfl

theorem addBytes_append (crc : TransferCrc) (xs ys : List Byte) :
    crc.addBytes (xs ++ ys) = (crc.addBytes xs).addBytes ys := List.foldl_append

/-- `u16::to_be_bytes` of the CRC. -/
def toBeBytes (crc : TransferCrc) : List Byte :=
  [(crc.val >>> 8).setWidth 8, crc.val.setWidth 8]

@[simp] theorem length_toBeBytes (crc : TransferCrc) : crc.toBeBytes.length = LENGTH := rfl

theorem shift_eq_step (crc : BitVec 16) : shift crc = ShiftRegister.step POLYNOMIAL crc := by
  have h : (crc &&& 0x8000#16 != 0) = crc.msb := by
    rw [BitVec.msb_eq_getLsbD_last, show 0x8000#16 = BitVec.twoPow 16 15 from rfl,
      BitVec.and_twoPow]
    cases crc.getLsbD 15 <;> rfl
  rw [shift, ShiftRegister.step, h]

theorem add_eq_feed (crc : TransferCrc) (byte : Byte) :
    (crc.add byte).val = ShiftRegister.feed POLYNOMIAL crc.val byte := by
  rw [add, ShiftRegister.feed, funext shift_eq_step]

/-- **The residue is zero**: a CRC followed by its own bytes is what the receiver accepts. -/
theorem addBytes_toBeBytes (crc : TransferCrc) : (crc.addBytes crc.toBeBytes).get = 0 := by
  show ((crc.add ((crc.val >>> 8).setWidth 8)).add (crc.val.setWidth 8)).val = 0
  rw [add_eq_feed, add_eq_feed]
  exact ShiftRegister.feed_feed_self (k := 8) crc.val POLYNOMIAL

end TransferCrc

/-! ## The tail byte of a frame -/

/-- The last byte of a frame. -/
structure TailByte where
  val : Byte
deriving DecidableEq

namespace TailByte

def START_OF_TRANSFER : ℕ := 7

def END_OF_TRANSFER : ℕ := 6

def TOGGLE_BIT : ℕ := 5

def TRANSFER_ID : ℕ := 0

def new (sot eof toggle : Bool) (transferId : TransferId) : TailByte :=
  ⟨((BitVec.ofBool sot).setWidth 8 <<< START_OF_TRANSFER)
    ||| ((BitVec.ofBool eof).setWidth 8 <<< END_OF_TRANSFER)
    ||| ((BitVec.ofBool toggle).setWidth 8 <<< TOGGLE_BIT)
    ||| (TransferId.intoU8 transferId <<< TRANSFER_ID)⟩

def sot (tail : TailByte) : Bool := (tail.val >>> START_OF_TRANSFER) &&& 0x1#8 != 0

def eot (tail : TailByte) : Bool := (tail.val >>> END_OF_TRANSFER) &&& 0x1#8 != 0

def toggle (tail : TailByte) : Bool := (tail.val >>> TOGGLE_BIT) &&& 0x1#8 != 0

def transferId (tail : TailByte) : TransferId :=
  TransferId.fromU8Truncating (tail.val >>> TRANSFER_ID)

variable (s e t : Bool) (id : TransferId)

/-- **A tail byte is read back as it was written.** -/
theorem fields_new : (new s e t id).sot = s ∧ (new s e t id).eot = e ∧
    (new s e t id).toggle = t ∧ (new s e t id).transferId = id := by
  revert s e t id
  decide

@[simp] theorem sot_new : (new s e t id).sot = s := (fields_new s e t id).1

@[simp] theorem eot_new : (new s e t id).eot = e := (fields_new s e t id).2.1

@[simp] theorem toggle_new : (new s e t id).toggle = t := (fields_new s e t id).2.2.1

@[simp] theorem transferId_new : (new s e t id).transferId = id := (fields_new s e t id).2.2.2

/-- The fields determine the tail byte. -/
theorem new_fields (tail : TailByte) : new tail.sot tail.eot tail.toggle tail.transferId =
    tail := by
  have h : ∀ val : Byte, (new (mk val).sot (mk val).eot (mk val).toggle (mk val).transferId).val =
      val := by decide
  obtain ⟨val⟩ := tail
  exact congrArg mk (h val)

end TailByte

/-- Toggle bit value of a start-of-transfer frame. -/
def SOT_TOGGLE_BIT : Bool := true

def PAD_VALUE : Byte := 0

end Emcyphal
