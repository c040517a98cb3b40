import Emcyphal.Can.Format
import Emcyphal.Frame

/-!
# Frame headers

How a header is encoded as a CAN identifier, which the two drivers do with the same code, and
how it is decoded.  The native driver knows from the filter that a frame has passed whether it is a
message (`loadMsgFrameHeader`) or not (`loadSrvFrameHeader`), and the Embassy driver tries both
(`convertRawHeader`).

An identifier is decoded to the header it was made of, and as nothing else (`makeCanId_decodes`).
The priority is in its highest bits (`makeCanId_lt`), so that the more urgent frame wins the
arbitration.
-/

set_option autoImplicit false

namespace Emcyphal.Can

open Rust BitField

/-- Allowed frame format for reception and transmission. -/
inductive FrameFormat
  | classic
  | fd
  | fdBrs
deriving DecidableEq

namespace FrameFormat

/-- The method `fd`. -/
def isFd : FrameFormat → Bool
  | classic => false
  | fd => true
  | fdBrs => true

def bitRateSwitch : FrameFormat → Bool
  | classic => false
  | fd => false
  | fdBrs => true

end FrameFormat

/-- `none` is `InvalidFrameHeader`. -/
def makeCanId (header : Header) : Option (BitVec 32) :=
  match header.dataSpec, header.destination, header.source with
  | .message subject, none, some src =>
    let canId := MessageCanId.new.setPriority header.priority
    let canId := canId.setAnonymous false
    let canId := canId.setSubject subject
    let canId := canId.setSource src
    some canId.val
  | .request service, some dst, some src =>
    let canId := ServiceCanId.new.setPriority header.priority
    let canId := canId.setRequest true
    let canId := canId.setService service
    let canId := canId.setDestination dst
    let canId := canId.setSource src
    some canId.val
  | .response service, some dst, some src =>
    let canId := ServiceCanId.new.setPriority header.priority
    let canId := canId.setRequest false
    let canId := canId.setService service
    let canId := canId.setDestination dst
    let canId := canId.setSource src
    some canId.val
  -- Anonymous frames are not sent.
  | _, _, _ => none

namespace Native

def loadMsgFrameHeader (canId : BitVec 32) : Option Header := do
  let msgId ← MessageCanId.fromCanId canId
  return { priority := msgId.priority
           dataSpec := .message msgId.subject
           source := if msgId.anonymous then none else some msgId.source
           destination := none }

def loadSrvFrameHeader (canId : BitVec 32) : Option Header := do
  let srvId ← ServiceCanId.fromCanId canId
  return { priority := srvId.priority
           dataSpec := if srvId.request then .request srvId.service else .response srvId.service
           source := some srvId.source
           destination := some srvId.destination }

end Native

namespace Embassy

def convertRawHeader (canId : BitVec 32) : Option Header :=
  match MessageCanId.fromCanId canId with
  | some msgId =>
    some { priority := msgId.priority
           dataSpec := .message msgId.subject
           source := if msgId.anonymous then none else some msgId.source
           destination := none }
  | none =>
    match ServiceCanId.fromCanId canId with
    | some srvId =>
      some { priority := srvId.priority
             dataSpec := if srvId.request then .request srvId.service else .response srvId.service
             source := some srvId.source
             destination := some srvId.destination }
    | none => none

end Embassy

/-- Whether the header is that of a message. -/
def isMessage (header : Header) : Bool :=
  match header.dataSpec with
  | .message _ => true
  | .request _ | .response _ => false

/-- The headers that are sent are those of a message with a source and no destination, and those of
a service transfer with both. -/
theorem makeCanId_isSome_iff {header : Header} : (makeCanId header).isSome = true ↔
    header.source.isSome = true ∧ header.destination.isSome = !isMessage header := by
  obtain ⟨priority, dataSpec, source, destination⟩ := header
  cases dataSpec <;> cases source <;> cases destination <;> simp [makeCanId, isMessage]

theorem MessageCanId.service_none (r : MessageCanId) : ServiceCanId.fromCanId r.val = none := by
  have hbit : r.val.getLsbD 25 = false := r.fixed.getLsbD_eq (by decide)
  refine dif_neg fun hcheck ↦ ?_
  have hflag : (r.val &&& SRV_CHECK_MASK).getLsbD 25 = true := by
    rw [hcheck]
    decide
  rw [BitVec.getLsbD_and, hbit, Bool.false_and] at hflag
  cases hflag

theorem ServiceCanId.message_none (r : ServiceCanId) : MessageCanId.fromCanId r.val = none := by
  have hbit : r.val.getLsbD 25 = true := r.fixed.getLsbD_eq (by decide)
  refine dif_neg fun hcheck ↦ ?_
  have hflag : (r.val &&& MSG_CHECK_MASK).getLsbD 25 = false := by
    rw [hcheck]
    decide
  rw [BitVec.getLsbD_and, hbit, Bool.true_and] at hflag
  exact absurd hflag (by decide)

variable {header : Header} {canId : BitVec 32}

/-- The fields of the identifier of a message. -/
theorem MessageCanId.header_eq (priority : Priority) (subject : SubjectId) (src : NodeId)
    {r : MessageCanId} (hr : r =
      (((MessageCanId.new.setPriority priority).setAnonymous false).setSubject subject).setSource
        src) :
    r.anonymous = false ∧
      (⟨priority, .message subject, some src, none⟩ : Header) =
        ⟨r.priority, .message r.subject, some r.source, none⟩ := by
  subst hr
  have hpriority := Priority.fromU8Truncating_intoU8 priority
  simp [priority_eq, anonymous_eq, hpriority, Fin.ext_iff, subject_eq, source_eq]

/-- The fields of the identifier of a service transfer. -/
theorem ServiceCanId.header_eq (priority : Priority) (request : Bool) (service : ServiceId)
    (dst src : NodeId) {r : ServiceCanId} (hr : r =
      ((((ServiceCanId.new.setPriority priority).setRequest request).setService service)
        |>.setDestination dst).setSource src) :
    (⟨priority, if request then .request service else .response service, some src, some dst⟩ :
        Header) =
      ⟨r.priority, if r.request then .request r.service else .response r.service,
        some r.source, some r.destination⟩ := by
  subst hr
  have hpriority := Priority.fromU8Truncating_intoU8 priority
  cases request <;>
    simp [priority_eq, request_eq, hpriority, Fin.ext_iff, service_eq, destination_eq, source_eq]

/-- A header that is sent is that of some valid identifier. -/
theorem makeCanId_cases (h : makeCanId header = some canId) :
    (isMessage header = true ∧ ∃ r : MessageCanId, r.val = canId ∧ r.anonymous = false ∧
      header = ⟨r.priority, .message r.subject, some r.source, none⟩) ∨
    isMessage header = false ∧ ∃ r : ServiceCanId, r.val = canId ∧
      header = ⟨r.priority, if r.request then .request r.service else .response r.service,
        some r.source, some r.destination⟩ := by
  obtain ⟨priority, dataSpec, source, destination⟩ := header
  obtain ⟨hsource, hdestination⟩ := makeCanId_isSome_iff.mp (Option.isSome_of_eq_some h)
  obtain ⟨src, rfl⟩ := Option.isSome_iff_exists.mp hsource
  cases dataSpec with
  | message subject =>
    obtain rfl : destination = none := by simpa [isMessage] using hdestination
    cases h
    exact .inl ⟨rfl, _, rfl, MessageCanId.header_eq priority subject src rfl⟩
  | request service =>
    obtain ⟨dst, rfl⟩ := Option.isSome_iff_exists.mp hdestination
    cases h
    exact .inr ⟨rfl, _, rfl, ServiceCanId.header_eq priority true service dst src rfl⟩
  | response service =>
    obtain ⟨dst, rfl⟩ := Option.isSome_iff_exists.mp hdestination
    cases h
    exact .inr ⟨rfl, _, rfl, ServiceCanId.header_eq priority false service dst src rfl⟩

/-- An identifier has 29 bits, the highest of which are the priority. -/
theorem makeCanId_div (h : makeCanId header = some canId) :
    canId.toNat < 2 ^ 29 ∧ canId.toNat / 2 ^ 26 = header.priority.intoU8 := by
  rcases makeCanId_cases h with ⟨-, r, rfl, -, rfl⟩ | ⟨-, r, rfl, rfl⟩
  · refine ⟨r.val_lt, (div_eq_field (n := 3) r.val_lt).trans ?_⟩
    rw [MessageCanId.priority_eq, Priority.intoU8_fromU8Truncating (field_lt _ _ _)]
  · refine ⟨r.val_lt, (div_eq_field (n := 3) r.val_lt).trans ?_⟩
    rw [ServiceCanId.priority_eq, Priority.intoU8_fromU8Truncating (field_lt _ _ _)]

/-- A frame is decoded to the header it was made of, and is not one of the other kind. -/
theorem makeCanId_decodes (h : makeCanId header = some canId) :
    Embassy.convertRawHeader canId = some header ∧
    Native.loadMsgFrameHeader canId = (if isMessage header then some header else none) ∧
    Native.loadSrvFrameHeader canId = (if isMessage header then none else some header) := by
  rcases makeCanId_cases h with ⟨hkind, r, rfl, hanonymous, hheader⟩ | ⟨hkind, r, rfl, hheader⟩
  · have hsource : (if r.anonymous then none else some r.source) = some r.source := by
      rw [hanonymous]
      rfl
    rw [hkind, if_pos rfl, if_pos rfl, Embassy.convertRawHeader, Native.loadMsgFrameHeader,
      Native.loadSrvFrameHeader, r.fromCanId_val, r.service_none]
    dsimp only
    rw [hsource, ← hheader]
    exact ⟨rfl, congrArg some (by rw [hsource, ← hheader]), rfl⟩
  · rw [hkind, if_neg Bool.false_ne_true, if_neg Bool.false_ne_true, Embassy.convertRawHeader,
      Native.loadMsgFrameHeader, Native.loadSrvFrameHeader, r.fromCanId_val, r.message_none]
    exact ⟨congrArg some hheader.symm, rfl, congrArg some hheader.symm⟩

/-- The more urgent frame has the lower identifier. -/
theorem makeCanId_lt {header' : Header} {canId' : BitVec 32} (h : makeCanId header = some canId)
    (h' : makeCanId header' = some canId')
    (hlt : header.priority.intoU8 < header'.priority.intoU8) : canId < canId' := by
  rw [← (makeCanId_div h).2, ← (makeCanId_div h').2] at hlt
  exact Nat.lt_of_div_lt_div hlt

end Emcyphal.Can
