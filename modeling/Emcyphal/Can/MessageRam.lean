import Emcyphal.Lib.BitField
import Emcyphal.Lib.Exec

/-!
# The message RAM

`emcyphal-stm32-native/src/message_ram`.  The elements that the driver shares with the peripheral
are a number of words, which have fields that are read and written one by one.
-/

set_option autoImplicit false

namespace Emcyphal.Can

open Rust BitField

def TX_FIFO_MAX : ℕ := 3

def EXTENDED_FILTER_MAX : ℕ := 8

inductive FilterType
  | rangeFilter
  | dualIdFilter
  | classicFilter
  | filterDisabled
deriving DecidableEq

namespace FilterType

def code : FilterType → BitVec 8
  | rangeFilter => 0b00#8
  | dualIdFilter => 0b01#8
  | classicFilter => 0b10#8
  | filterDisabled => 0b11#8

end FilterType

inductive FilterElementConfig
  | disableFilterElement
  | storeInFifo0
  | storeInFifo1
  | reject
  | setPriority
  | setPriorityAndStoreInFifo0
  | setPriorityAndStoreInFifo1
deriving DecidableEq

namespace FilterElementConfig

def code : FilterElementConfig → BitVec 8
  | disableFilterElement => 0b000#8
  | storeInFifo0 => 0b001#8
  | storeInFifo1 => 0b010#8
  | reject => 0b011#8
  | setPriority => 0b100#8
  | setPriorityAndStoreInFifo0 => 0b101#8
  | setPriorityAndStoreInFifo1 => 0b110#8

end FilterElementConfig

/-! ## Filter elements -/

structure ExtendedFilter where
  word0 : BitVec 32
  word1 : BitVec 32
deriving DecidableEq

namespace ExtendedFilter

def resetValue : ExtendedFilter := ⟨0, 0⟩

variable (r : ExtendedFilter)

def efid1 : BitVec 32 := load r.word0 0x1FFFFFFF#32 0

def efec : BitVec 8 := (load r.word0 0x07#32 29).setWidth 8

def efid2 : BitVec 32 := load r.word1 0x1FFFFFFF#32 0

def eft : BitVec 8 := (load r.word1 0x03#32 30).setWidth 8

def toFilterType : Exec FilterType :=
  match r.eft with
  | 0b00#8 => .ok .rangeFilter
  | 0b01#8 => .ok .dualIdFilter
  | 0b10#8 => .ok .classicFilter
  | 0b11#8 => .ok .filterDisabled
  | _ => .error .unreachable

def setEfid1 (value : BitVec 32) : ExtendedFilter :=
  { r with word0 := store r.word0 0x1FFFFFFF#32 0 value }

def setFilterElementConfig (fec : FilterElementConfig) : ExtendedFilter :=
  { r with word0 := store r.word0 0x07#32 29 (fec.code.setWidth 32) }

def setEfid2 (value : BitVec 32) : ExtendedFilter :=
  { r with word1 := store r.word1 0x1FFFFFFF#32 0 value }

def setFilterType (filter : FilterType) : ExtendedFilter :=
  { r with word1 := store r.word1 0x03#32 30 (filter.code.setWidth 32) }

theorem efid_mask : 0x1FFFFFFF#32 = ones 32 29 := by decide

theorem efec_mask : 0x07#32 = ones 32 3 := by decide

theorem eft_mask : 0x03#32 = ones 32 2 := by decide

end ExtendedFilter

/-! ## Fields of one bit -/

namespace Enums

inductive ErrorStateIndicator
  | errorActive
  | errorPassive
deriving DecidableEq

def ErrorStateIndicator.toBool : ErrorStateIndicator → Bool
  | errorActive => false
  | errorPassive => true

inductive FrameFormat
  | standard
  | fdcan
deriving DecidableEq

inductive IdType
  | standardId
  | extendedId
deriving DecidableEq

def IdType.toBool : IdType → Bool
  | standardId => false
  | extendedId => true

inductive RemoteTransmissionRequest
  | transmitDataFrame
  | transmitRemoteFrame
deriving DecidableEq

def RemoteTransmissionRequest.toBool : RemoteTransmissionRequest → Bool
  | transmitDataFrame => false
  | transmitRemoteFrame => true

inductive EventControl
  | doNotStore
  | store
deriving DecidableEq

def EventControl.toBool : EventControl → Bool
  | doNotStore => false
  | store => true

/-- The message length, generalised over the two formats. -/
inductive DataLength
  | standard (len : BitVec 8)
  | fdcan (len : BitVec 8)
deriving DecidableEq

namespace DataLength

def new (len : BitVec 8) : FrameFormat → Exec DataLength
  | .standard => if len ≤ 8#8 then .ok (standard len) else .error .unreachable
  | .fdcan => if len ≤ 64#8 then .ok (fdcan len) else .error .unreachable

def len : DataLength → BitVec 8
  | standard len | fdcan len => len

end DataLength

end Enums

/-- Bit `k` of a word. -/
def loadBit (x : BitVec 32) (k : ℕ) : Bool := load x 0x01#32 k != 0

def storeBit (x : BitVec 32) (k : ℕ) (value : Bool) : BitVec 32 :=
  store x 0x01#32 k ((BitVec.ofBool value).setWidth 32)

section

variable {x : BitVec 32} {k off n : ℕ}

theorem loadBit_eq : loadBit x k = (field x k 1 == 1) := by
  have hload : (load x 0x01#32 k).toNat = field x k 1 := toNat_load (by decide) (by decide)
  have hlt := field_lt x k 1
  rw [loadBit, Bool.eq_iff_iff, bne_iff_ne, beq_iff_eq, Ne, BitVec.toNat_eq, hload]
  show field x k 1 ≠ 0 ↔ field x k 1 = 1
  omega

theorem field_storeBit (hk : k < 32) (value : Bool) :
    field (storeBit x k value) k 1 = value.toNat := by
  rw [storeBit, field_store (by decide) hk]
  cases value <;> rfl

theorem field_storeBit_of_disjoint {value : Bool} (hk : k < 32)
    (hdisjoint : off + n ≤ k ∨ k + 1 ≤ off) : field (storeBit x k value) off n = field x off n :=
  field_store_of_disjoint (by decide) hk hdisjoint

end

/-! ## Elements of the transmit buffer -/

structure TxBufferElementHeader where
  word0 : BitVec 32
  word1 : BitVec 32
deriving DecidableEq

namespace TxBufferElementHeader

open Enums

def resetValue : TxBufferElementHeader := ⟨0, 0⟩

variable (w : TxBufferElementHeader)

def setErrorIndicator (esi : ErrorStateIndicator) : TxBufferElementHeader :=
  { w with word0 := storeBit w.word0 31 esi.toBool }

def setIdType (idt : IdType) : TxBufferElementHeader :=
  { w with word0 := storeBit w.word0 30 idt.toBool }

def setRtr (rtr : RemoteTransmissionRequest) : TxBufferElementHeader :=
  { w with word0 := storeBit w.word0 29 rtr.toBool }

def setId (value : BitVec 32) : TxBufferElementHeader :=
  { w with word0 := store w.word0 0x1FFFFFFF#32 0 value }

def setMm (value : BitVec 8) : TxBufferElementHeader :=
  { w with word1 := store w.word1 0x7F#32 24 (value.setWidth 32) }

def setEventControl (efc : EventControl) : TxBufferElementHeader :=
  { w with word1 := storeBit w.word1 23 efc.toBool }

def setFdf (value : Bool) : TxBufferElementHeader :=
  { w with word1 := storeBit w.word1 21 value }

def setBrs (value : Bool) : TxBufferElementHeader :=
  { w with word1 := storeBit w.word1 20 value }

def setDlc (value : BitVec 8) : TxBufferElementHeader :=
  { w with word1 := store w.word1 0x0F#32 16 (value.setWidth 32) }

end TxBufferElementHeader

structure TxBufferElement where
  header : TxBufferElementHeader
  data : Vector (BitVec 32) 16

/-! ## Elements of the receive FIFOs -/

structure RxFifoElementHeader where
  word0 : BitVec 32
  word1 : BitVec 32
deriving DecidableEq

namespace RxFifoElementHeader

open Enums

variable (r : RxFifoElementHeader)

def id : BitVec 32 := load r.word0 0x1FFFFFFF#32 0

def rtr : RemoteTransmissionRequest :=
  if loadBit r.word0 29 then .transmitRemoteFrame else .transmitDataFrame

def xtd : IdType := if loadBit r.word0 30 then .extendedId else .standardId

def rxts : BitVec 16 := (load r.word1 0xFFFF#32 0).setWidth 16

def dlc : BitVec 8 := (load r.word1 0x0F#32 16).setWidth 8

def fdf : FrameFormat := if loadBit r.word1 21 then .fdcan else .standard

def fidx : BitVec 8 := (load r.word1 0xFF#32 24).setWidth 8

def toDataLength : Exec DataLength := do
  let dlc := r.dlc
  let len ← match r.fdf with
    | .fdcan =>
      if dlc ≤ 8#8 then .ok dlc else
      match dlc with
      | 9#8 => .ok 12#8
      | 10#8 => .ok 16#8
      | 11#8 => .ok 20#8
      | 12#8 => .ok 24#8
      | 13#8 => .ok 32#8
      | 14#8 => .ok 48#8
      | 15#8 => .ok 64#8
      | _ => .error .unreachable
    | .standard =>
      if dlc ≤ 8#8 then .ok dlc
      else if dlc ≤ 15#8 then .ok 8#8
      else .error .unreachable
  DataLength.new len r.fdf

end RxFifoElementHeader

structure RxFifoElement where
  header : RxFifoElementHeader
  data : Vector (BitVec 32) 16

end Emcyphal.Can
