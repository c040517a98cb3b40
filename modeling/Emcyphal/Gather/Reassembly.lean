import Emcyphal.Gather.Phase
import Emcyphal.Lib.Machine
import Emcyphal.Wire

/-!
# Reassembly of byte strings

What `Gather` is for, without its receive buffer: a `Reassembly` accumulates the bytes themselves,
and delivers a transfer together with its payload.  `Gather` keeps the length and the CRC of these
bytes, and as many of them as fit the buffer.

`step_represents` connects the two: from a state of the code that represents a reassembly, a call of
`pushFrame` delivers the same transfer, leaves as much of the payload at the start of the buffer as
fits, and ends in a state that represents the next reassembly.  It panics only for a single-frame
transfer whose payload length does not fit a `u32`.
-/

set_option autoImplicit false

namespace Emcyphal

open Rust

/-- A call of `pushFrame`, with everything that differs from call to call. -/
structure Call where
  priority : Priority
  data : List Byte
  timestamp : Instant
deriving DecidableEq

namespace Call

/-- The tail byte of the frame, if it is not empty. -/
def tail? (call : Call) : Option TailByte := call.data.getLast?.map TailByte.mk

/-- The payload of the frame. -/
def payload (call : Call) : List Byte := call.data.dropLast

/-- What a frame with this tail byte contributes to a transfer. -/
def segment (call : Call) (tail : TailByte) : Segment :=
  ⟨tail.transferId, call.priority, call.payload, call.timestamp⟩

variable {call : Call} {payload : List Byte} {sot eot toggle : Bool} {tid : TransferId}

theorem tail?_of_frameData (h : call.data = frameData payload sot eot toggle tid) :
    call.tail? = some (TailByte.new sot eot toggle tid) := by
  rw [tail?, h, frameData, List.getLast?_concat, Option.map_some]

theorem payload_of_frameData (h : call.data = frameData payload sot eot toggle tid) :
    call.payload = payload := by
  rw [Call.payload, h, frameData, List.dropLast_concat]

/-- A frame is its payload and its tail byte. -/
theorem data_eq_frameData {tail : TailByte} (h : call.tail? = some tail) :
    call.data = frameData call.payload tail.sot tail.eot tail.toggle tail.transferId := by
  obtain ⟨tailByte, hlast, rfl⟩ := Option.map_eq_some_iff.mp h
  rw [frameData, TailByte.new_fields, Call.payload]
  exact (List.dropLast_append_getLast? _ hlast).symm

end Call

/-- A transfer and its payload. -/
abbrev Delivery := Transfer × List Byte

/-- A call of `pushFrame` as a step on the `Gather` and the buffer it is lent.  Of the buffer the
caller reads what a returned transfer says is there. -/
def Gather.step (timeout : Duration) (s : Gather × List Byte) (call : Call) :
    Exec ((Gather × List Byte) × Option Delivery) := do
  let r ← s.1.pushFrame timeout s.2 call.priority call.data call.timestamp
  return ((r.2.1, r.2.2), r.1.map fun t ↦ (t, r.2.2.take t.length))

/-- The states `pushFrame` can lead to, whatever it is called with. -/
inductive Gather.Reachable : Gather → Prop
  | default : Reachable Gather.default
  | push {g : Gather} {timeout : Duration} {buffer data : List Byte} {priority : Priority}
      {timestamp : Instant} {r : Gather.Outcome} (hg : Reachable g)
      (hr : g.pushFrame timeout buffer priority data timestamp = .ok r) : Reachable r.2.1

/-- The reachable states are those that come from a phase. -/
theorem Gather.Reachable.eq_toGather {g : Gather} (h : g.Reachable) :
    ∃ p : Phase PayloadAccumulator, g = p.toGather := by
  induction h with
  | default => exact ⟨.idle, rfl⟩
  | @push g timeout buffer data priority timestamp r hg hr ih =>
    obtain ⟨p, rfl⟩ := ih
    rw [Phase.pushFrame_toGather] at hr
    cases hp : p.pushData timeout buffer priority data timestamp with
    | error e => rw [hp] at hr; cases hr
    | ok o => rw [hp] at hr; cases hr; exact ⟨o.2.1, rfl⟩

/-! ## The reassembly -/

/-- The state of a reassembly that accumulates the bytes themselves. -/
abbrev Reassembly := Phase (List Byte)

namespace Reassembly

/-- What a frame leads to: a delivery or not, and the next state. -/
abbrev Outcome := Option Delivery × Reassembly

variable (sof : Instant) (tid : TransferId)

/-- The first frame of a multi-frame transfer. -/
def start (r : Reassembly) (segment : Segment) : Reassembly :=
  if (Mtu.tryFrom (segment.payload.length + 1)).isNone then r.stop
  else .running .first segment.timestamp segment.transferId segment.payload

/-- A frame in the middle of a multi-frame transfer. -/
def extend (progress : Progress) (bytes : List Byte) (segment : Segment) : Reassembly :=
  if (Mtu.tryFrom (segment.payload.length + 1)).isNone then .idleLast sof
  else if bytes.length + segment.payload.length < 2 ^ 32 then
    .running progress.next sof tid (bytes ++ segment.payload)
  else .idleLast sof

/-- The bytes of a multi-frame transfer are complete: their length fits, and they end with a CRC
that matches. -/
def IsComplete (bytes : List Byte) : Prop :=
  bytes.length < 2 ^ 32 ∧ TransferCrc.LENGTH ≤ bytes.length ∧
    (TransferCrc.default.addBytes bytes).get = 0

instance (bytes : List Byte) : Decidable (IsComplete bytes) :=
  inferInstanceAs (Decidable (_ ∧ _ ∧ _))

/-- The bytes of a complete transfer without the CRC. -/
def message (bytes : List Byte) : List Byte := bytes.take (bytes.length - TransferCrc.LENGTH)

/-- The last frame of a multi-frame transfer. -/
def finish (bytes : List Byte) (segment : Segment) : Outcome :=
  if segment.payload ≠ [] ∧ IsComplete (bytes ++ segment.payload) then
    (some (⟨tid, segment.priority, sof, (message (bytes ++ segment.payload)).length⟩,
      message (bytes ++ segment.payload)), .assembled sof tid)
  else (none, .idleLast sof)

/-- A frame that starts no transfer, received while a reassembly it belongs to is running. -/
def proceed (progress : Progress) (bytes : List Byte) (tail : TailByte) (segment : Segment) :
    Outcome :=
  if tail.toggle = progress.expected then
    if tail.eot then finish sof tid bytes segment
    else (none, extend sof tid progress bytes segment)
  else if progress = .first ∨ tail.eot = true then (none, .idleLast sof)
  else (none, .running progress sof tid bytes)

/-- The transition for a non-empty frame. -/
def push (r : Reassembly) (timeout : Duration) (tail : TailByte) (segment : Segment) : Outcome :=
  let current := r.isCurrent timeout segment.transferId segment.timestamp
  if r.isAssembled && current then (none, r)
  else if tail.sot then
    if tail.toggle = SOT_TOGGLE_BIT then
      if tail.eot then
        (some (⟨segment.transferId, segment.priority, segment.timestamp, segment.payload.length⟩,
          segment.payload), .assembled segment.timestamp segment.transferId)
      else (none, start r segment)
    else (none, r.stop)
  else match r, current with
  | .running progress sof tid bytes, true => proceed sof tid progress bytes tail segment
  | _, _ => (none, r.stop)

/-- The transition for a frame as it is received. -/
def pushCall (timeout : Duration) (r : Reassembly) (call : Call) : Reassembly × Option Delivery :=
  match call.tail? with
  | none => (r, none)
  | some tail => (r.push timeout tail (call.segment tail)).swap

end Reassembly

/-! ## Phases with another accumulator -/

namespace Phase

variable {α β : Type}

/-- Replaces the accumulator. -/
def map (f : α → β) : Phase α → Phase β
  | idle => idle
  | idleLast sof => idleLast sof
  | running progress sof tid acc => running progress sof tid (f acc)
  | assembled sof tid => assembled sof tid

@[simp] theorem stop_map (f : α → β) (p : Phase α) : (p.map f).stop = p.stop.map f := by
  cases p <;> rfl

@[simp] theorem sof?_map (f : α → β) (p : Phase α) : (p.map f).sof? = p.sof? := by
  cases p <;> rfl

@[simp] theorem isAssembled_map (f : α → β) (p : Phase α) :
    (p.map f).isAssembled = p.isAssembled := by
  cases p <;> rfl

@[simp] theorem isCurrent_map (f : α → β) (p : Phase α) (timeout : Duration) (tid : TransferId)
    (timestamp : Instant) :
    (p.map f).isCurrent timeout tid timestamp = p.isCurrent timeout tid timestamp := by
  cases p <;> rfl

/-- The bytes accumulated so far. -/
def bytes : Phase (List Byte) → List Byte
  | running _ _ _ bytes => bytes
  | _ => []

@[simp] theorem bytes_stop (p : Phase (List Byte)) : p.stop.bytes = [] := by cases p <;> rfl

end Phase

namespace PayloadAccumulator

/-- What the code keeps of the bytes. -/
def of (bytes : List Byte) : PayloadAccumulator :=
  ⟨bytes.length, TransferCrc.default.addBytes bytes⟩

theorem of_nil : of [] = default := rfl

theorem append_of (bytes buffer segment : List Byte) : (of bytes).append buffer segment =
    if bytes.length + segment.length < 2 ^ 32 then
      some (of (bytes ++ segment), overwrite buffer (min buffer.length bytes.length)
        (segment.take (min segment.length (buffer.length - min buffer.length bytes.length))))
    else none := by
  simp only [append, of, u32TryFrom]
  by_cases hsum : bytes.length + segment.length < 2 ^ 32
  · have hlen : segment.length < 2 ^ 32 := by omega
    simp only [hlen, hsum, if_true, Option.bind_eq_bind, Option.bind_some, List.length_append,
      TransferCrc.addBytes_append]
    rfl
  · by_cases hlen : segment.length < 2 ^ 32
    · simp only [hlen, hsum, if_true, if_false, Option.bind_eq_bind, Option.bind_some,
        Option.bind_none]
    · simp only [hlen, hsum, if_false, Option.bind_eq_bind, Option.bind_none]

theorem tryGet_of {bytes : List Byte} (h : bytes.length < 2 ^ 32) : (of bytes).tryGet =
    if Reassembly.IsComplete bytes then some (Reassembly.message bytes).length else none := by
  have hmessage : (Reassembly.message bytes).length = bytes.length - TransferCrc.LENGTH := by
    rw [Reassembly.message, List.length_take]; omega
  have hiff : Reassembly.IsComplete bytes ↔
      TransferCrc.LENGTH ≤ bytes.length ∧ (TransferCrc.default.addBytes bytes).get = 0 :=
    and_iff_right h
  rw [tryGet, hmessage]
  exact (if_congr hiff rfl rfl).symm

end PayloadAccumulator

/-! ## The code reassembles -/

namespace Reassembly

/-- `out` is what the phases leave behind where the reassembly leaves `o`: the same delivery, as far
as the buffer has room for it, and a state that accumulates the same bytes. -/
structure Matches (buffer : List Byte) (out : Phase.Outcome) (o : Outcome) : Prop where
  transfer : out.1 = o.1.map Prod.fst
  phase : out.2.1 = o.2.map PayloadAccumulator.of
  stores : Stores out.2.2 o.2.bytes
  capacity : out.2.2.length = buffer.length
  payload : ∀ d ∈ o.1, out.2.2.take d.1.length = d.2.take buffer.length

/-- Nothing is delivered, and the buffer is left alone. -/
theorem matches_none {buffer : List Byte} {r : Reassembly} (h : Stores buffer r.bytes) :
    Matches buffer (none, r.map PayloadAccumulator.of, buffer) (none, r) :=
  ⟨rfl, rfl, h, rfl, by simp⟩

theorem matches_idleLast (buffer : List Byte) (sof : Instant) :
    Matches buffer (none, .idleLast sof, buffer) (none, .idleLast sof) :=
  matches_none (r := .idleLast sof) (stores_nil buffer)

theorem matches_stop (buffer : List Byte) (r : Reassembly) :
    Matches buffer (none, (r.map PayloadAccumulator.of).stop, buffer) (none, r.stop) := by
  rw [Phase.stop_map]
  exact matches_none (by rw [Phase.bytes_stop]; exact stores_nil buffer)

/-- The length of a buffer that a segment was appended to. -/
theorem length_appended (buffer segment : List Byte) (n : ℕ) :
    (overwrite buffer (min buffer.length n)
      (segment.take (min segment.length (buffer.length - min buffer.length n)))).length =
      buffer.length := by
  apply length_overwrite
  rw [List.length_take]
  omega

variable {buffer : List Byte} {sof : Instant} {tid : TransferId} {segment : Segment}

theorem single_matches (h : segment.payload.length < 2 ^ 32) :
    ∃ out, Phase.single buffer segment = .ok out ∧ Matches buffer out
      (some (⟨segment.transferId, segment.priority, segment.timestamp, segment.payload.length⟩,
        segment.payload), .assembled segment.timestamp segment.transferId) := by
  have hstores := stores_overwrite (stores_nil buffer) segment.payload
  have hlen := length_appended buffer segment.payload 0
  rw [List.nil_append, List.length_nil] at hstores
  simp only [Nat.min_zero, Nat.sub_zero] at hstores hlen
  rw [Phase.single, u32TryFrom, if_pos h, unwrap_some, ok_bind]
  refine ⟨_, rfl, rfl, rfl, stores_nil _, hlen, fun d hd ↦ ?_⟩
  cases hd
  rw [Stores, hlen] at hstores
  exact hstores

theorem start_matches {r : Reassembly} :
    Matches buffer ((r.map PayloadAccumulator.of).start buffer segment)
      (none, start r segment) := by
  rw [Phase.start, start]
  split
  · exact matches_stop buffer r
  · rename_i hmtu
    have hlen : segment.payload.length + 1 = 8 ∨ segment.payload.length + 1 = 64 := by
      rw [← Mtu.tryFrom_isSome, Option.isSome_iff_ne_none]
      simpa using hmtu
    rw [Phase.appendTo, ← PayloadAccumulator.of_nil, PayloadAccumulator.append_of,
      if_pos (by rw [List.length_nil]; omega), List.nil_append]
    refine ⟨rfl, rfl, ?_, length_appended buffer segment.payload 0, by simp⟩
    exact stores_overwrite (stores_nil buffer) segment.payload

variable {bytes : List Byte}

theorem extend_matches {progress : Progress} (h : Stores buffer bytes) :
    Matches buffer (Phase.extend progress sof tid (.of bytes) buffer segment)
      (none, extend sof tid progress bytes segment) := by
  rw [Phase.extend, extend]
  split
  · exact matches_idleLast buffer sof
  · rw [Phase.appendTo, PayloadAccumulator.append_of]
    by_cases hsum : bytes.length + segment.payload.length < 2 ^ 32
    · rw [if_pos hsum, if_pos hsum]
      exact ⟨rfl, rfl, stores_overwrite h segment.payload, length_appended _ _ _, by simp⟩
    · rw [if_neg hsum, if_neg hsum]
      exact matches_idleLast buffer sof

theorem finish_matches (h : Stores buffer bytes) :
    Matches buffer (Phase.finish sof tid (.of bytes) buffer segment)
      (finish sof tid bytes segment) := by
  rw [Phase.finish, finish]
  rcases eq_or_ne segment.payload [] with hnil | hne
  · rw [if_pos (by rw [hnil]; rfl), if_neg fun hc ↦ hc.1 hnil]
    exact matches_idleLast buffer sof
  · rw [if_neg (by rwa [List.isEmpty_iff]), PayloadAccumulator.append_of]
    by_cases hsum : bytes.length + segment.payload.length < 2 ^ 32
    · have hlen : (bytes ++ segment.payload).length < 2 ^ 32 := by rwa [List.length_append]
      rw [if_pos hsum]
      simp only [PayloadAccumulator.tryGet_of hlen]
      by_cases hc : IsComplete (bytes ++ segment.payload)
      · rw [if_pos hc, if_pos ⟨hne, hc⟩]
        refine ⟨rfl, rfl, stores_nil _, length_appended _ _ _, fun d hd ↦ ?_⟩
        cases hd
        have hstores := stores_overwrite h segment.payload
        have htake : (message (bytes ++ segment.payload)).length ≤
            (bytes ++ segment.payload).length := by
          rw [message, List.length_take]; omega
        have hcut := hstores.take_eq htake
        rw [length_appended] at hcut
        rw [hcut, message, List.length_take, Nat.min_eq_left (Nat.sub_le _ _)]
      · rw [if_neg hc, if_neg fun hc' ↦ hc hc'.2]
        exact ⟨rfl, rfl, stores_nil _, length_appended _ _ _, by simp⟩
    · rw [if_neg hsum, if_neg fun hc ↦ hsum (by rw [← List.length_append]; exact hc.2.1)]
      exact matches_idleLast buffer sof

theorem proceed_matches {progress : Progress} {tail : TailByte} (h : Stores buffer bytes) :
    Matches buffer (Phase.proceed progress sof tid (.of bytes) buffer tail segment)
      (proceed sof tid progress bytes tail segment) := by
  rw [Phase.proceed, proceed]
  split
  · split
    · exact finish_matches h
    · exact extend_matches h
  · split
    · exact matches_idleLast buffer sof
    · exact matches_none (r := .running progress sof tid bytes) h

/-- **A frame is processed as the reassembly says**, or it is a single-frame transfer with a payload
too long for a `u32`. -/
theorem push_matches {r : Reassembly} {tail : TailByte} (timeout : Duration)
    (h : Stores buffer r.bytes) :
    (∃ out, (r.map PayloadAccumulator.of).push timeout buffer tail segment = .ok out ∧
        Matches buffer out (r.push timeout tail segment)) ∨
      (r.map PayloadAccumulator.of).push timeout buffer tail segment = .error .unwrap ∧
        2 ^ 32 ≤ segment.payload.length := by
  unfold Phase.push push
  simp only [Phase.isCurrent_map, Phase.isAssembled_map]
  split
  · exact .inl ⟨_, rfl, matches_none h⟩
  split
  · split
    · split
      · rcases Nat.lt_or_ge segment.payload.length (2 ^ 32) with hlen | hlen
        · exact .inl (single_matches hlen)
        · refine .inr ⟨?_, hlen⟩
          rw [Phase.single, u32TryFrom, if_neg (Nat.not_lt.mpr hlen)]
          rfl
      · exact .inl ⟨_, rfl, start_matches⟩
    · exact .inl ⟨_, rfl, matches_stop buffer r⟩
  · cases r with
    | running progress sof tid bytes =>
      cases (Phase.running progress sof tid bytes).isCurrent timeout segment.transferId
        segment.timestamp with
      | true => exact .inl ⟨_, rfl, proceed_matches h⟩
      | false => exact .inl ⟨_, rfl, matches_stop buffer (.running progress sof tid bytes)⟩
    | idle => exact .inl ⟨_, rfl, matches_stop buffer .idle⟩
    | idleLast sof => exact .inl ⟨_, rfl, matches_stop buffer (.idleLast sof)⟩
    | assembled sof tid => exact .inl ⟨_, rfl, matches_stop buffer (.assembled sof tid)⟩

/-- The code is at the reassembly `r`, with a buffer of this capacity. -/
structure Represents (capacity : ℕ) (s : Gather × List Byte) (r : Reassembly) : Prop where
  gather : s.1 = (r.map PayloadAccumulator.of).toGather
  stores : Stores s.2 r.bytes
  capacity : s.2.length = capacity

theorem represents_default (buffer : List Byte) :
    Represents buffer.length (Gather.default, buffer) .idle := ⟨rfl, stores_nil buffer, rfl⟩

/-- What is left of a delivery in a buffer of limited capacity. -/
def truncate (capacity : ℕ) (d : Delivery) : Delivery := (d.1, d.2.take capacity)

/-- A frame with a payload that fits a `u32` is processed as the reassembly says. -/
theorem pushFrame_represents {capacity : ℕ} {s : Gather × List Byte} {r : Reassembly}
    (h : Represents capacity s r) (timeout : Duration) (call : Call) :
    (∃ out, s.1.pushFrame timeout s.2 call.priority call.data call.timestamp = .ok out ∧
        Represents capacity (out.2.1, out.2.2) (r.pushCall timeout call).1 ∧
        (out.1.map fun t ↦ (t, out.2.2.take t.length)) =
          (r.pushCall timeout call).2.map (truncate capacity)) ∨
      s.1.pushFrame timeout s.2 call.priority call.data call.timestamp = .error .unwrap ∧
        2 ^ 32 ≤ call.payload.length := by
  obtain ⟨g, buffer⟩ := s
  obtain ⟨rfl, hstores, hcap⟩ := h
  simp only at hstores hcap ⊢
  rw [Phase.pushFrame_toGather, Phase.pushData, pushCall, Call.tail?]
  rcases List.eq_nil_or_concat' call.data with hnil | ⟨payload, tailByte, hdata⟩
  · rw [hnil]
    exact .inl ⟨(none, (r.map .of).toGather, buffer), rfl, ⟨rfl, hstores, hcap⟩, rfl⟩
  · have hpayload : call.payload = payload := by rw [Call.payload, hdata, List.dropLast_concat]
    have hsegment : call.segment ⟨tailByte⟩ =
        ⟨TailByte.transferId ⟨tailByte⟩, call.priority, payload, call.timestamp⟩ := by
      rw [Call.segment, hpayload]
    rw [hdata, splitLast_concat, List.getLast?_concat]
    simp only [Option.map_some]
    rw [← hsegment]
    rcases @push_matches buffer (call.segment ⟨tailByte⟩) r ⟨tailByte⟩ timeout hstores
      with ⟨out, hpush, hm⟩ | ⟨hpush, hlen⟩
    · rw [hpush]
      refine .inl ⟨Phase.liftOutcome out, rfl,
        ⟨congrArg Phase.toGather hm.phase, hm.stores, hm.capacity.trans hcap⟩, ?_⟩
      rw [Phase.liftOutcome, hm.transfer, Option.map_map]
      refine Option.map_congr fun d hd ↦ ?_
      rw [Function.comp_apply, hm.payload d hd, truncate, ← hcap]
    · rw [hpush]
      exact .inr ⟨rfl, hlen⟩

/-- **The code reassembles**, step by step, and panics only if a payload is too long for a `u32`. -/
theorem step_represents (timeout : Duration) (capacity : ℕ) :
    Simulates (Gather.step timeout) (pushCall timeout) (fun call ↦ call.payload.length < 2 ^ 32)
      (Represents capacity) (Option.map (truncate capacity)) := by
  intro s r call h
  rw [Gather.step]
  rcases pushFrame_represents h timeout call with ⟨out, hpush, hr, hseen⟩ | ⟨hpush, hlen⟩
  · rw [hpush, ok_bind, pure_eq_ok, hseen]
    exact .inl ⟨_, rfl, hr⟩
  · rw [hpush]
    exact .inr ⟨Nat.not_lt.mpr hlen, .unwrap, rfl⟩

end Reassembly

end Emcyphal
