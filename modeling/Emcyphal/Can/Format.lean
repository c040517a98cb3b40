import Emcyphal.Core
import Emcyphal.Lib.BitField

/-!
# CAN identifiers

`emcyphal-stm32-native/src/format.rs` and `emcyphal-stm32-embassy/src/format.rs`.  Both drivers have
a copy of this file; the second one lacks `decode_msg_filter_pattern`, and has
`decode_can_id_priority` instead.

The bits of an identifier that are not part of a field are fixed: some have to have a value to be
valid, and the others are ignored and set.  A `MessageCanId` and a `ServiceCanId` have them as they
have to be, so that they are read back as they are (`fromCanId_val`).
-/

set_option autoImplicit false

namespace Emcyphal.Can

open Rust BitField

def lsbMask (n : ℕ) : BitVec 32 := if 0 < n then BitVec.allOnes 32 >>> (32 - n) else 0

def CAN_ID_MASK : BitVec 32 := lsbMask 29
def NODE_ID_MASK : BitVec 32 := lsbMask 7
def SUBJECT_ID_MASK : BitVec 32 := lsbMask 13
def SERVICE_ID_MASK : BitVec 32 := lsbMask 9
def PRIORITY_MASK : BitVec 32 := lsbMask 3

def PRIORITY_OFFSET : ℕ := 26
def SOURCE_OFFSET : ℕ := 0
def MSG_SUBJECT_OFFSET : ℕ := 8
def SRV_DESTINATION_OFFSET : ℕ := 7
def SRV_SERVICE_OFFSET : ℕ := 14

def SERVICE_FLAG : BitVec 32 := 1#32 <<< 25
def RES_23_FLAG : BitVec 32 := 1#32 <<< 23
def MSG_ANONYMOUS_FLAG : BitVec 32 := 1#32 <<< 24
def MSG_RES_7_FLAG : BitVec 32 := 1#32 <<< 7
def SRV_REQUEST_FLAG : BitVec 32 := 1#32 <<< 24

def MSG_CHECK_MASK : BitVec 32 := SERVICE_FLAG ||| RES_23_FLAG ||| MSG_RES_7_FLAG
def MSG_CHECK_VALUE : BitVec 32 := 0
def MSG_IGNORE_MASK : BitVec 32 := CAN_ID_MASK &&& ~~~MSG_CHECK_MASK
  &&& ~~~(PRIORITY_MASK <<< PRIORITY_OFFSET) &&& ~~~MSG_ANONYMOUS_FLAG
  &&& ~~~(SUBJECT_ID_MASK <<< MSG_SUBJECT_OFFSET) &&& ~~~(NODE_ID_MASK <<< SOURCE_OFFSET)

def SRV_CHECK_MASK : BitVec 32 := SERVICE_FLAG ||| RES_23_FLAG
def SRV_CHECK_VALUE : BitVec 32 := SERVICE_FLAG
def SRV_IGNORE_MASK : BitVec 32 := CAN_ID_MASK &&& ~~~SRV_CHECK_MASK
  &&& ~~~(PRIORITY_MASK <<< PRIORITY_OFFSET) &&& ~~~SRV_REQUEST_FLAG
  &&& ~~~(SERVICE_ID_MASK <<< SRV_SERVICE_OFFSET)
  &&& ~~~(NODE_ID_MASK <<< SRV_DESTINATION_OFFSET) &&& ~~~(NODE_ID_MASK <<< SOURCE_OFFSET)

/-- The bits that are not part of a field, those above the identifier included. -/
def fixedMask (checkMask ignoreMask : BitVec 32) : BitVec 32 :=
  checkMask ||| ignoreMask ||| ~~~CAN_ID_MASK

/-- The bits have the values they have to have. -/
def Fixed (checkMask checkValue ignoreMask val : BitVec 32) : Prop :=
  val &&& fixedMask checkMask ignoreMask = checkValue ||| ignoreMask

instance decidableFixed (checkMask checkValue ignoreMask val : BitVec 32) :
    Decidable (Fixed checkMask checkValue ignoreMask val) :=
  inferInstanceAs (Decidable (_ = _))

/-! ## The fields -/

section

variable (val : BitVec 32)

def getPriority : Priority := .fromU8Truncating ((val >>> PRIORITY_OFFSET).setWidth 8).toNat

def getNode (offset : ℕ) : NodeId := .fromU8Truncating ((val >>> offset).setWidth 8)

def putPriority (value : Priority) : BitVec 32 :=
  put val PRIORITY_MASK PRIORITY_OFFSET (BitVec.ofNat 32 value.intoU8)

def putNode (offset : ℕ) (value : NodeId) : BitVec 32 :=
  put val NODE_ID_MASK offset (BitVec.ofNat 32 value)

end

variable {val : BitVec 32} {checkMask checkValue ignoreMask : BitVec 32} {offset n k : ℕ}

theorem getPriority_eq : getPriority val = .fromU8Truncating (field val 26 3) := by
  have hbits : ((val >>> 26).setWidth 8 &&& 7#8).toNat = field val 26 3 :=
    toNat_shift_and (by decide) (by decide)
  rw [getPriority, ← hbits, BitVec.toNat_and, Priority.fromU8Truncating, Priority.fromU8Truncating,
    show (7#8).toNat = 2 ^ 3 - 1 from rfl, Nat.and_two_pow_sub_one_eq_mod, Nat.mod_mod_of_dvd _
    (by decide)]
  rfl

theorem getNode_eq : (getNode val offset).val = field val offset 7 :=
  toNat_shift_and (by decide) (by decide)

/-- The value of a field fits. -/
theorem toNat_ofNat_lt (hk : k < 2 ^ n) : (BitVec.ofNat 32 k).toNat < 2 ^ n := by
  rw [BitVec.toNat_ofNat]
  exact (Nat.mod_le _ _).trans_lt hk

theorem field_put_ofNat (hroom : offset + n ≤ 32) (hk : k < 2 ^ n) :
    field (put val (ones 32 n) offset (BitVec.ofNat 32 k)) offset n = k := by
  have hlt : k < 2 ^ 32 := hk.trans_le (Nat.pow_le_pow_right Nat.zero_lt_two (by omega))
  rw [field_put hroom (toNat_ofNat_lt hk), BitVec.toNat_ofNat, Nat.mod_eq_of_lt hlt]

namespace Fixed

/-- A field without fixed bits may be overwritten. -/
theorem put (h : Fixed checkMask checkValue ignoreMask val) (hroom : offset + n ≤ 32)
    (hdisjoint : ones 32 n <<< offset &&& fixedMask checkMask ignoreMask = 0) (hk : k < 2 ^ n) :
    Fixed checkMask checkValue ignoreMask
      (BitField.put val (ones 32 n) offset (BitVec.ofNat 32 k)) :=
  (put_and_of_disjoint hroom (toNat_ofNat_lt hk) hdisjoint).trans h

theorem putFlag (h : Fixed checkMask checkValue ignoreMask val) (hk : k < 32)
    (hdisjoint : (fixedMask checkMask ignoreMask).getLsbD k = false) (value : Bool) :
    Fixed checkMask checkValue ignoreMask (BitField.putFlag val (1#32 <<< k) value) :=
  (putFlag_and_of_disjoint hk hdisjoint).trans h

/-- What is read from a valid identifier. -/
theorem of_check (h : val &&& checkMask = checkValue)
    (hmask : CAN_ID_MASK &&& fixedMask checkMask ignoreMask = checkMask ||| ignoreMask)
    (hignore : ignoreMask &&& fixedMask checkMask ignoreMask = ignoreMask) :
    Fixed checkMask checkValue ignoreMask (val &&& CAN_ID_MASK ||| ignoreMask) := by
  have habsorb : val &&& ignoreMask ||| ignoreMask = ignoreMask := by
    refine BitVec.eq_of_getLsbD_eq fun i _ ↦ ?_
    rw [BitVec.getLsbD_or, BitVec.getLsbD_and]
    cases ignoreMask.getLsbD i <;> simp
  rw [Fixed, BitVec.and_comm, BitVec.and_or_distrib_left, BitVec.and_comm _ ignoreMask, hignore,
    BitVec.and_comm, BitVec.and_assoc, hmask, BitVec.and_or_distrib_left, h, BitVec.or_assoc,
    habsorb]

/-- A valid identifier passes the check. -/
theorem and_checkMask (h : Fixed checkMask checkValue ignoreMask val)
    (hvalue : (checkValue ||| ignoreMask) &&& checkMask = checkValue) :
    val &&& checkMask = checkValue := by
  have hsub : fixedMask checkMask ignoreMask &&& checkMask = checkMask := by
    rw [fixedMask, BitVec.or_assoc, or_and_self_left]
  rw [← hsub, ← BitVec.and_assoc, h, hvalue]

/-- A valid identifier is read as it is. -/
theorem getLsbD_eq (h : Fixed checkMask checkValue ignoreMask val) {i : ℕ}
    (hi : (fixedMask checkMask ignoreMask).getLsbD i = true) :
    val.getLsbD i = (checkValue ||| ignoreMask).getLsbD i := by
  have hbit : (val &&& fixedMask checkMask ignoreMask).getLsbD i = val.getLsbD i := by
    rw [BitVec.getLsbD_and, hi, Bool.and_true]
  rw [← hbit, h]

theorem read_eq (h : Fixed checkMask checkValue ignoreMask val)
    (hvalue : (checkValue ||| ignoreMask) &&& CAN_ID_MASK ||| ignoreMask =
      checkValue ||| ignoreMask)
    (hmask : ~~~fixedMask checkMask ignoreMask &&& CAN_ID_MASK =
      ~~~fixedMask checkMask ignoreMask) :
    val &&& CAN_ID_MASK ||| ignoreMask = val := by
  have hval := eq_fixed_or h
  calc val &&& CAN_ID_MASK ||| ignoreMask
      = (CAN_ID_MASK &&& (checkValue ||| ignoreMask |||
          val &&& ~~~fixedMask checkMask ignoreMask)) ||| ignoreMask := by
        rw [← hval, BitVec.and_comm]
    _ = ((checkValue ||| ignoreMask) &&& CAN_ID_MASK ||| ignoreMask) |||
          val &&& (~~~fixedMask checkMask ignoreMask &&& CAN_ID_MASK) := by
        rw [BitVec.and_or_distrib_left, BitVec.and_comm CAN_ID_MASK, BitVec.and_comm CAN_ID_MASK,
          BitVec.and_assoc val, BitVec.or_assoc, BitVec.or_comm (val &&& _) ignoreMask,
          ← BitVec.or_assoc]
    _ = val := by rw [hvalue, hmask, ← hval]

theorem lt_two_pow (h : Fixed checkMask checkValue ignoreMask val)
    (hvalue : (checkValue ||| ignoreMask) &&& ~~~CAN_ID_MASK = 0) : val.toNat < 2 ^ 29 := by
  have hsub : fixedMask checkMask ignoreMask &&& ~~~CAN_ID_MASK = ~~~CAN_ID_MASK := by
    rw [fixedMask, BitVec.or_comm, or_and_self_left]
  have hzero : val &&& ~~~CAN_ID_MASK = 0 := by
    rw [← hsub, ← BitVec.and_assoc, h, hvalue]
  have hhigh : ∀ i < 32, 29 ≤ i → (~~~CAN_ID_MASK).getLsbD i = true := by decide
  refine Nat.lt_pow_two_of_testBit _ fun i hi ↦ ?_
  show val.getLsbD i = false
  by_cases hlt : i < 32
  · have hbit : (val &&& ~~~CAN_ID_MASK).getLsbD i = false := by
      rw [hzero]
      simp
    rwa [BitVec.getLsbD_and, hhigh i hlt hi, Bool.and_true] at hbit
  · exact BitVec.getLsbD_of_ge val i (not_lt.mp hlt)

end Fixed

/-! ## Messages -/

def MSG_FILTER_MASK : BitVec 32 := MSG_CHECK_MASK ||| SUBJECT_ID_MASK <<< MSG_SUBJECT_OFFSET

def makeMsgFilterPattern : Option SubjectId → BitVec 32
  | some subject => MSG_CHECK_VALUE ||| BitVec.ofNat 32 subject <<< MSG_SUBJECT_OFFSET
  | none => ~~~MSG_FILTER_MASK &&& CAN_ID_MASK

def decodeMsgFilterPattern (pattern : BitVec 32) : Option SubjectId :=
  if pattern &&& ~~~MSG_FILTER_MASK = 0 then
    some (.fromU16Truncating ((pattern >>> MSG_SUBJECT_OFFSET).setWidth 16))
  else none

@[ext]
structure MessageCanId where
  val : BitVec 32
  fixed : Fixed MSG_CHECK_MASK MSG_CHECK_VALUE MSG_IGNORE_MASK val

namespace MessageCanId

def new : MessageCanId := ⟨MSG_CHECK_VALUE ||| MSG_IGNORE_MASK, by decide⟩

def fromCanId (canId : BitVec 32) : Option MessageCanId :=
  if h : canId &&& MSG_CHECK_MASK = MSG_CHECK_VALUE then
    some ⟨canId &&& CAN_ID_MASK ||| MSG_IGNORE_MASK, .of_check h (by decide) (by decide)⟩
  else none

variable (r : MessageCanId)

def priority : Priority := getPriority r.val

def setPriority (value : Priority) : MessageCanId :=
  ⟨putPriority r.val value, r.fixed.put (by decide) (by decide) value.intoU8_lt⟩

def anonymous : Bool := r.val &&& MSG_ANONYMOUS_FLAG != 0

def setAnonymous (value : Bool) : MessageCanId :=
  ⟨putFlag r.val MSG_ANONYMOUS_FLAG value, r.fixed.putFlag (by decide) (by decide) value⟩

def subject : SubjectId := .fromU16Truncating ((r.val >>> MSG_SUBJECT_OFFSET).setWidth 16)

def setSubject (value : SubjectId) : MessageCanId :=
  ⟨put r.val SUBJECT_ID_MASK MSG_SUBJECT_OFFSET (BitVec.ofNat 32 value),
    r.fixed.put (by decide) (by decide) value.isLt⟩

def source : NodeId := getNode r.val SOURCE_OFFSET

def setSource (value : NodeId) : MessageCanId :=
  ⟨putNode r.val SOURCE_OFFSET value, r.fixed.put (by decide) (by decide) value.isLt⟩

theorem fromCanId_val : fromCanId r.val = some r := by
  rw [fromCanId, dif_pos (r.fixed.and_checkMask (by decide))]
  exact congrArg some (MessageCanId.ext (r.fixed.read_eq (by decide) (by decide)))

theorem val_lt : r.val.toNat < 2 ^ 29 := r.fixed.lt_two_pow (by decide)

theorem priority_eq : r.priority = .fromU8Truncating (field r.val 26 3) := getPriority_eq

theorem anonymous_eq : r.anonymous = (field r.val 24 1 == 1) :=
  (and_flag_ne_zero (by decide)).trans (beq_field_one 24).symm

theorem subject_eq : r.subject.val = field r.val 8 13 := toNat_shift_and (by decide) (by decide)

theorem source_eq : r.source.val = field r.val 0 7 := getNode_eq

variable {r} {off n : ℕ}

@[simp] theorem field_setPriority (value : Priority) :
    field (r.setPriority value).val 26 3 = value.intoU8 :=
  field_put_ofNat (by decide) value.intoU8_lt

@[simp] theorem field_setAnonymous (value : Bool) :
    field (r.setAnonymous value).val 24 1 = value.toNat :=
  field_putFlag (by decide)

@[simp] theorem field_setAnonymous_of_disjoint {value : Bool} (h : off + n ≤ 24 ∨ 25 ≤ off) :
    field (r.setAnonymous value).val off n = field r.val off n :=
  field_putFlag_of_disjoint (by decide) h

@[simp] theorem field_setSubject (value : SubjectId) :
    field (r.setSubject value).val 8 13 = value :=
  field_put_ofNat (by decide) value.isLt

@[simp] theorem field_setSubject_of_disjoint {value : SubjectId} (h : off + n ≤ 8 ∨ 21 ≤ off) :
    field (r.setSubject value).val off n = field r.val off n :=
  field_put_of_disjoint (by decide) (toNat_ofNat_lt value.isLt) h

@[simp] theorem field_setSource (value : NodeId) : field (r.setSource value).val 0 7 = value :=
  field_put_ofNat (by decide) value.isLt

@[simp] theorem field_setSource_of_disjoint {value : NodeId} (h : 7 ≤ off) :
    field (r.setSource value).val off n = field r.val off n :=
  field_put_of_disjoint (by decide) (toNat_ofNat_lt value.isLt) (.inr h)

theorem fromCanId_eq_some {canId : BitVec 32} (h : fromCanId canId = some r) :
    canId &&& MSG_CHECK_MASK = 0 ∧ r.val = canId &&& CAN_ID_MASK ||| MSG_IGNORE_MASK := by
  rw [fromCanId] at h
  split at h
  · rename_i hcheck
    cases h
    exact ⟨hcheck, rfl⟩
  · cases h

/-- The subject of a valid identifier. -/
theorem subject_of_fromCanId {canId : BitVec 32} (h : fromCanId canId = some r) :
    r.subject.val = field canId 8 13 := by
  have hcan : ∀ i < 13, CAN_ID_MASK.getLsbD (8 + i) = true ∧
      MSG_IGNORE_MASK.getLsbD (8 + i) = false := by decide
  rw [subject_eq, (fromCanId_eq_some h).2]
  refine field_congr fun i hi ↦ ?_
  rw [BitVec.getLsbD_or, BitVec.getLsbD_and, (hcan i hi).1, (hcan i hi).2, Bool.and_true,
    Bool.or_false]

end MessageCanId

theorem makeMsgFilterPattern_some (subject : SubjectId) :
    makeMsgFilterPattern (some subject) = BitVec.ofNat 32 subject <<< 8 := BitVec.zero_or

theorem makeMsgFilterPattern_and (subject : SubjectId) :
    makeMsgFilterPattern (some subject) &&& MSG_FILTER_MASK =
      makeMsgFilterPattern (some subject) := by
  have hmask : (ones 32 13 <<< 8) &&& MSG_FILTER_MASK = ones 32 13 <<< 8 := by decide
  rw [makeMsgFilterPattern_some, ← shiftLeft_and_ones (n := 13) (by decide)
    (toNat_ofNat_lt subject.isLt), BitVec.and_assoc, hmask]

/-- The identifiers that a pattern is for. -/
theorem and_makeMsgFilterPattern_iff {canId : BitVec 32} {subject : SubjectId} :
    canId &&& MSG_FILTER_MASK = makeMsgFilterPattern (some subject) ↔
      ∃ r, MessageCanId.fromCanId canId = some r ∧ r.subject = subject := by
  have hiff : canId &&& MSG_FILTER_MASK = BitVec.ofNat 32 subject <<< 8 ↔
      canId &&& MSG_CHECK_MASK = 0 ∧ field canId 8 13 = (BitVec.ofNat 32 subject.val).toNat :=
    and_or_ones_eq_iff (n := 13) (by decide) (toNat_ofNat_lt subject.isLt) (by decide)
  rw [makeMsgFilterPattern_some, hiff, BitVec.toNat_ofNat,
    Nat.mod_eq_of_lt (subject.isLt.trans (by decide))]
  constructor
  · rintro ⟨hcheck, hsubject⟩
    refine ⟨_, dif_pos hcheck, Fin.ext ?_⟩
    rw [MessageCanId.subject_of_fromCanId (dif_pos hcheck), hsubject]
  · rintro ⟨r, hr, rfl⟩
    exact ⟨(MessageCanId.fromCanId_eq_some hr).1, (MessageCanId.subject_of_fromCanId hr).symm⟩

/-- No identifier has the pattern of an empty slot. -/
theorem and_makeMsgFilterPattern_none (canId : BitVec 32) :
    canId &&& MSG_FILTER_MASK ≠ makeMsgFilterPattern none := by
  intro h
  have hbit : (canId &&& MSG_FILTER_MASK).getLsbD 0 = true := by
    rw [h]
    decide
  rw [BitVec.getLsbD_and, show MSG_FILTER_MASK.getLsbD 0 = false by decide, Bool.and_false] at hbit
  cases hbit

/-- A pattern says what it was made of. -/
theorem decode_makeMsgFilterPattern (val : Option SubjectId) :
    decodeMsgFilterPattern (makeMsgFilterPattern val) = val := by
  cases val with
  | none => decide
  | some subject =>
    have hsubject : (BitVec.ofNat 32 subject.val).toNat = subject.val := by
      rw [BitVec.toNat_ofNat, Nat.mod_eq_of_lt (subject.isLt.trans (by decide))]
    have hlt : (BitVec.ofNat 32 subject.val).toNat < 2 ^ 13 := by
      rw [hsubject]
      exact subject.isLt
    rw [makeMsgFilterPattern_some, decodeMsgFilterPattern, if_pos]
    · refine congrArg some (Fin.ext ?_)
      have hfield : (SubjectId.fromU16Truncating
          ((BitVec.ofNat 32 subject.val <<< 8 >>> 8).setWidth 16)).val =
            field (BitVec.ofNat 32 subject.val <<< 8) 8 13 :=
        toNat_shift_and (by decide) (by decide)
      exact hfield.trans ((field_shiftLeft (by decide) hlt).trans hsubject)
    · rw [← shiftLeft_and_ones (n := 13) (by decide) hlt, BitVec.and_assoc,
        show ones 32 13 <<< 8 &&& ~~~MSG_FILTER_MASK = 0 by decide]
      exact BitVec.and_zero

/-! ## Services -/

@[ext]
structure ServiceCanId where
  val : BitVec 32
  fixed : Fixed SRV_CHECK_MASK SRV_CHECK_VALUE SRV_IGNORE_MASK val

namespace ServiceCanId

def new : ServiceCanId := ⟨SRV_CHECK_VALUE ||| SRV_IGNORE_MASK, by decide⟩

def fromCanId (canId : BitVec 32) : Option ServiceCanId :=
  if h : canId &&& SRV_CHECK_MASK = SRV_CHECK_VALUE then
    some ⟨canId &&& CAN_ID_MASK ||| SRV_IGNORE_MASK, .of_check h (by decide) (by decide)⟩
  else none

variable (r : ServiceCanId)

def priority : Priority := getPriority r.val

def setPriority (value : Priority) : ServiceCanId :=
  ⟨putPriority r.val value, r.fixed.put (by decide) (by decide) value.intoU8_lt⟩

def request : Bool := r.val &&& SRV_REQUEST_FLAG != 0

def setRequest (value : Bool) : ServiceCanId :=
  ⟨putFlag r.val SRV_REQUEST_FLAG value, r.fixed.putFlag (by decide) (by decide) value⟩

def service : ServiceId := .fromU16Truncating ((r.val >>> SRV_SERVICE_OFFSET).setWidth 16)

def setService (value : ServiceId) : ServiceCanId :=
  ⟨put r.val SERVICE_ID_MASK SRV_SERVICE_OFFSET (BitVec.ofNat 32 value),
    r.fixed.put (by decide) (by decide) value.isLt⟩

def destination : NodeId := getNode r.val SRV_DESTINATION_OFFSET

def setDestination (value : NodeId) : ServiceCanId :=
  ⟨putNode r.val SRV_DESTINATION_OFFSET value, r.fixed.put (by decide) (by decide) value.isLt⟩

def source : NodeId := getNode r.val SOURCE_OFFSET

def setSource (value : NodeId) : ServiceCanId :=
  ⟨putNode r.val SOURCE_OFFSET value, r.fixed.put (by decide) (by decide) value.isLt⟩

theorem fromCanId_val : fromCanId r.val = some r := by
  rw [fromCanId, dif_pos (r.fixed.and_checkMask (by decide))]
  exact congrArg some (ServiceCanId.ext (r.fixed.read_eq (by decide) (by decide)))

theorem val_lt : r.val.toNat < 2 ^ 29 := r.fixed.lt_two_pow (by decide)

theorem priority_eq : r.priority = .fromU8Truncating (field r.val 26 3) := getPriority_eq

theorem request_eq : r.request = (field r.val 24 1 == 1) :=
  (and_flag_ne_zero (by decide)).trans (beq_field_one 24).symm

theorem service_eq : r.service.val = field r.val 14 9 := toNat_shift_and (by decide) (by decide)

theorem destination_eq : r.destination.val = field r.val 7 7 := getNode_eq

theorem source_eq : r.source.val = field r.val 0 7 := getNode_eq

variable {r} {off n : ℕ}

@[simp] theorem field_setPriority (value : Priority) :
    field (r.setPriority value).val 26 3 = value.intoU8 :=
  field_put_ofNat (by decide) value.intoU8_lt

@[simp] theorem field_setRequest (value : Bool) :
    field (r.setRequest value).val 24 1 = value.toNat :=
  field_putFlag (by decide)

@[simp] theorem field_setRequest_of_disjoint {value : Bool} (h : off + n ≤ 24 ∨ 25 ≤ off) :
    field (r.setRequest value).val off n = field r.val off n :=
  field_putFlag_of_disjoint (by decide) h

@[simp] theorem field_setService (value : ServiceId) :
    field (r.setService value).val 14 9 = value :=
  field_put_ofNat (by decide) value.isLt

@[simp] theorem field_setService_of_disjoint {value : ServiceId} (h : off + n ≤ 14 ∨ 23 ≤ off) :
    field (r.setService value).val off n = field r.val off n :=
  field_put_of_disjoint (by decide) (toNat_ofNat_lt value.isLt) h

@[simp] theorem field_setDestination (value : NodeId) :
    field (r.setDestination value).val 7 7 = value :=
  field_put_ofNat (by decide) value.isLt

@[simp] theorem field_setDestination_of_disjoint {value : NodeId} (h : off + n ≤ 7 ∨ 14 ≤ off) :
    field (r.setDestination value).val off n = field r.val off n :=
  field_put_of_disjoint (by decide) (toNat_ofNat_lt value.isLt) h

@[simp] theorem field_setSource (value : NodeId) : field (r.setSource value).val 0 7 = value :=
  field_put_ofNat (by decide) value.isLt

@[simp] theorem field_setSource_of_disjoint {value : NodeId} (h : 7 ≤ off) :
    field (r.setSource value).val off n = field r.val off n :=
  field_put_of_disjoint (by decide) (toNat_ofNat_lt value.isLt) (.inr h)

theorem fromCanId_eq_some {canId : BitVec 32} (h : fromCanId canId = some r) :
    canId &&& SRV_CHECK_MASK = SRV_CHECK_VALUE ∧
      r.val = canId &&& CAN_ID_MASK ||| SRV_IGNORE_MASK := by
  rw [fromCanId] at h
  split at h
  · rename_i hcheck
    cases h
    exact ⟨hcheck, rfl⟩
  · cases h

/-- The destination of a valid identifier. -/
theorem destination_of_fromCanId {canId : BitVec 32} (h : fromCanId canId = some r) :
    r.destination.val = field canId 7 7 := by
  have hcan : ∀ i < 7, CAN_ID_MASK.getLsbD (7 + i) = true ∧
      SRV_IGNORE_MASK.getLsbD (7 + i) = false := by decide
  rw [destination_eq, (fromCanId_eq_some h).2]
  refine field_congr fun i hi ↦ ?_
  rw [BitVec.getLsbD_or, BitVec.getLsbD_and, (hcan i hi).1, (hcan i hi).2, Bool.and_true,
    Bool.or_false]

end ServiceCanId

def SRV_FILTER_MASK : BitVec 32 := SRV_CHECK_MASK ||| NODE_ID_MASK <<< SRV_DESTINATION_OFFSET

def makeSrvFilterPattern : Option NodeId → BitVec 32
  | some node => SRV_CHECK_VALUE ||| BitVec.ofNat 32 node <<< SRV_DESTINATION_OFFSET
  | none => ~~~SRV_CHECK_MASK &&& CAN_ID_MASK

def decodeSrvFilterPattern (pattern : BitVec 32) : Option NodeId :=
  if pattern &&& ~~~SRV_FILTER_MASK = 0 then
    some (.fromU8Truncating ((pattern >>> SRV_DESTINATION_OFFSET).setWidth 8))
  else none

theorem toNat_ofNat_node (node : NodeId) : (BitVec.ofNat 32 node.val).toNat = node.val := by
  rw [BitVec.toNat_ofNat, Nat.mod_eq_of_lt (node.isLt.trans (by decide))]

/-- The identifiers that a pattern is for. -/
theorem and_makeSrvFilterPattern_iff {canId : BitVec 32} {node : NodeId} :
    canId &&& SRV_FILTER_MASK = makeSrvFilterPattern (some node) ↔
      ∃ r, ServiceCanId.fromCanId canId = some r ∧ r.destination = node := by
  have hiff : canId &&& SRV_FILTER_MASK = SRV_CHECK_VALUE ||| BitVec.ofNat 32 node <<< 7 ↔
      canId &&& SRV_CHECK_MASK = SRV_CHECK_VALUE ∧
        field canId 7 7 = (BitVec.ofNat 32 node.val).toNat :=
    and_or_ones_eq_or_iff (n := 7) (by decide) (toNat_ofNat_lt node.isLt) (by decide) (by decide)
  rw [makeSrvFilterPattern, SRV_DESTINATION_OFFSET, hiff, toNat_ofNat_node]
  constructor
  · rintro ⟨hcheck, hnode⟩
    refine ⟨_, dif_pos hcheck, Fin.ext ?_⟩
    rw [ServiceCanId.destination_of_fromCanId (dif_pos hcheck), hnode]
  · rintro ⟨r, hr, rfl⟩
    exact ⟨(ServiceCanId.fromCanId_eq_some hr).1, (ServiceCanId.destination_of_fromCanId hr).symm⟩

/-- The pattern of an empty filter is not for services. -/
theorem fromCanId_of_and_makeSrvFilterPattern_none {canId : BitVec 32}
    (h : canId &&& SRV_FILTER_MASK = makeSrvFilterPattern none &&& SRV_FILTER_MASK) :
    ServiceCanId.fromCanId canId = none := by
  refine dif_neg fun hcheck ↦ ?_
  have hbit : (canId &&& SRV_CHECK_MASK).getLsbD 25 = true := by
    rw [hcheck]
    decide
  have hbit' : (canId &&& SRV_FILTER_MASK).getLsbD 25 = false := by
    rw [h]
    decide
  rw [BitVec.getLsbD_and, show SRV_CHECK_MASK.getLsbD 25 = true by decide, Bool.and_true] at hbit
  rw [BitVec.getLsbD_and, hbit] at hbit'
  exact absurd hbit' (by decide)

/-- A pattern says what it was made of. -/
theorem decode_makeSrvFilterPattern (val : Option NodeId) :
    decodeSrvFilterPattern (makeSrvFilterPattern val) = val := by
  cases val with
  | none => decide
  | some node =>
    revert node
    decide +kernel

def decodeCanIdPriority (canId : BitVec 32) : Priority := getPriority canId

end Emcyphal.Can
