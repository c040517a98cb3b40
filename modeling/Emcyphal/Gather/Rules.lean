import Emcyphal.Gather.Soundness

/-!
# The documented rules of reassembly

The doc comment of `Gather` states twelve rules, and states them for an independent timeout timer,
reassembly process and assembled status of each of the 32 transfer identifiers.  `Rules.step` is
that specification, rule by rule.  `Gather` keeps one state, one transfer identifier and one
timestamp; `pushFrame_refines_rules` says that nobody can tell the difference as long as time does
not run backwards.

The reason is rule 2: a frame resets all other identifiers.  So at most one identifier has something
to remember, and a `Dead` one, whose process is stopped and whose assembled status has expired,
behaves as if it was reset.
-/

set_option autoImplicit false

namespace Emcyphal

open Rust

namespace Rules

/-- The reassembly process of a transfer identifier. -/
structure Process where
  /-- The payloads of its frames. -/
  bytes : List Byte
  /-- The toggle bit of the last frame that contributed. -/
  lastToggle : Bool
  /-- Only the start-of-transfer frame has contributed. -/
  nextToSot : Bool

/-- What is tracked for one transfer identifier. -/
structure Slot where
  /-- When the timeout timer was started. -/
  timer : Option Instant
  process : Option Process
  assembled : Bool

namespace Slot

def reset : Slot := ⟨none, none, false⟩

/-- Stops an unfinished reassembly. -/
def stop (slot : Slot) : Slot := { slot with process := none }

/-- Has the timeout timer not expired yet? -/
def isActive (slot : Slot) (timeout : Duration) (timestamp : Instant) : Bool :=
  slot.timer.any fun t ↦ decide (timestamp ≤ Instant.saturatingAdd t timeout)

/-- Rule 9: a frame with a new toggle bit contributes.  A length has to fit a `u32`. -/
def contribute (slot : Slot) (process : Process) (tail : TailByte) (segment : Segment) : Slot :=
  if (process.bytes ++ segment.payload).length < 2 ^ 32 then
    { slot with process := some ⟨process.bytes ++ segment.payload, tail.toggle, false⟩ }
  else slot.stop

/-- Rule 11: the end of a transfer finishes the process.  It produces a transfer if the payload is
not empty and the CRC matches.  Rule 12: the priority is that of the last frame. -/
def conclude (slot : Slot) (process : Process) (segment : Segment) : Slot × Option Delivery :=
  let bytes := process.bytes ++ segment.payload
  match slot.timer with
  | some sof =>
    if segment.payload ≠ [] ∧ Reassembly.IsComplete bytes then
      ({ slot.stop with assembled := true },
        some (⟨segment.transferId, segment.priority, sof, (Reassembly.message bytes).length⟩,
          Reassembly.message bytes))
    else (slot.stop, none)
  | none => (slot.stop, none)

/-- Rules 5 and 6: a start of transfer with the correct toggle bit restarts the timer.  If it ends
the transfer as well, it produces a transfer, otherwise it starts a new process, of a transfer that
is not assembled. -/
def restart (tail : TailByte) (segment : Segment) : Slot × Option Delivery :=
  if tail.eot then
    (⟨some segment.timestamp, none, true⟩,
      some (⟨segment.transferId, segment.priority, segment.timestamp, segment.payload.length⟩,
        segment.payload))
  else (⟨some segment.timestamp, some ⟨segment.payload, tail.toggle, true⟩, false⟩, none)

/-- The rules for a frame that continues a running process. -/
def advance (slot : Slot) (process : Process) (tail : TailByte) (segment : Segment) :
    Slot × Option Delivery :=
  if tail.toggle ≠ process.lastToggle then
    if tail.eot then slot.conclude process segment -- R11
    else (slot.contribute process tail segment, none) -- R9
  else if process.nextToSot || tail.eot then (slot.stop, none) -- R8, R10
  else (slot, none) -- R9

/-- The rules for a frame with the transfer identifier of the slot. -/
def receive (slot : Slot) (timeout : Duration) (tail : TailByte) (segment : Segment) :
    Slot × Option Delivery :=
  let active := slot.isActive timeout segment.timestamp
  if !tail.eot && (Mtu.tryFrom (segment.payload.length + 1)).isNone then (slot.stop, none) -- R4
  else if tail.sot then
    if tail.toggle ≠ SOT_TOGGLE_BIT then (slot.stop, none) -- R3
    else if active && slot.assembled then (slot, none)
    else restart tail segment -- R5, R6
  else if !active then (slot.stop, none) -- R7
  else match slot.process with
  | none => (slot, none)
  | some process => slot.advance process tail segment

end Slot

/-- What is tracked for all transfer identifiers. -/
abbrev Slots := TransferId → Slot

def init : Slots := fun _ ↦ .reset

/-- The specification machine.  Rule 1: an empty frame is ignored.  Rule 2: a frame resets all other
transfer identifiers. -/
def step (timeout : Duration) (slots : Slots) (call : Call) : Slots × Option Delivery :=
  match call.tail? with
  | none => (slots, none) -- R1
  | some tail =>
    let r := (slots tail.transferId).receive timeout tail (call.segment tail)
    (fun tid ↦ if tid = tail.transferId then r.1 else .reset, r.2) -- R2

/-! ## What one state remembers of 32 slots -/

/-- From `now` on the slot behaves as if it was reset. -/
structure Dead (timeout : Duration) (now : Instant) (slot : Slot) : Prop where
  stopped : slot.process = none
  expired : slot.assembled = true → ∀ t, now ≤ t → slot.isActive timeout t = false

/-- What the slot of `tid` holds when the code is at the reassembly `r`. -/
inductive Agrees (timeout : Duration) (now : Instant) : Reassembly → TransferId → Slot → Prop
  | running {progress : Progress} {sof : Instant} {tid : TransferId} {bytes : List Byte} :
      Agrees timeout now (.running progress sof tid bytes) tid
        ⟨some sof, some ⟨bytes, !progress.expected, decide (progress = .first)⟩, false⟩
  | assembled {sof : Instant} {tid : TransferId} :
      Agrees timeout now (.assembled sof tid) tid ⟨some sof, none, true⟩
  | dead {r : Reassembly} {tid : TransferId} {slot : Slot} (htid : r.tid? ≠ some tid)
      (hdead : Dead timeout now slot) : Agrees timeout now r tid slot

section Agreement

variable {timeout : Duration} {now : Instant} {slot : Slot} {r : Reassembly} {tid : TransferId}

theorem dead_reset : Dead timeout now .reset := ⟨rfl, by simp [Slot.reset]⟩

theorem Dead.mono (h : Dead timeout now slot) {now' : Instant} (hle : now ≤ now') :
    Dead timeout now' slot := ⟨h.stopped, fun ha t ht ↦ h.expired ha t (hle.trans ht)⟩

theorem Dead.stop_eq (h : Dead timeout now slot) : slot.stop = slot := by
  obtain ⟨timer, process, assembled⟩ := slot
  obtain rfl := h.stopped
  rfl

/-- Once expired, a timer stays expired. -/
theorem isActive_eq_false_of_le {t t' : Instant} (h : slot.isActive timeout t = false)
    (hle : t ≤ t') : slot.isActive timeout t' = false := by
  obtain ⟨timer, process, assembled⟩ := slot
  cases timer with
  | none => rfl
  | some sof =>
    simp only [Slot.isActive, Option.any_some, decide_eq_false_iff_not, not_le] at h ⊢
    exact lt_of_lt_of_le h hle

theorem Agrees.mono (h : Agrees timeout now r tid slot) {now' : Instant} (hle : now ≤ now') :
    Agrees timeout now' r tid slot := by
  cases h with
  | running => exact .running
  | assembled => exact .assembled
  | dead htid hdead => exact .dead htid (hdead.mono hle)

theorem agrees_stop (h : Dead timeout now slot) : Agrees timeout now r.stop tid slot :=
  .dead (by simp) h

variable {tail : TailByte} {segment : Segment}

/-- A start of transfer that is not filtered out. -/
theorem agrees_restart (htoggle : tail.toggle = SOT_TOGGLE_BIT) (hsot : tail.sot = true)
    (hnew : (r.isAssembled && r.isCurrent timeout segment.transferId segment.timestamp) = false)
    (hlen : tail.eot = false → (Mtu.tryFrom (segment.payload.length + 1)).isNone = false) :
    (Slot.restart tail segment).2 = (r.push timeout tail segment).1 ∧
      Agrees timeout segment.timestamp (r.push timeout tail segment).2 segment.transferId
        (Slot.restart tail segment).1 := by
  unfold Reassembly.push
  simp only [hnew, hsot, htoggle, if_true, Bool.false_eq_true, if_false, Slot.restart]
  cases heot : tail.eot with
  | true => exact ⟨rfl, .assembled⟩
  | false =>
    rw [Reassembly.start, hlen heot]
    exact ⟨rfl, .running⟩

/-- A frame that is not about the current transfer meets a dead slot. -/
theorem agrees_receive_dead (h : Dead timeout segment.timestamp slot)
    (hcurrent : r.isCurrent timeout segment.transferId segment.timestamp = false)
    (hlen : tail.eot = false → (Mtu.tryFrom (segment.payload.length + 1)).isNone = false) :
    (slot.receive timeout tail segment).2 = (r.push timeout tail segment).1 ∧
      Agrees timeout segment.timestamp (r.push timeout tail segment).2 segment.transferId
        (slot.receive timeout tail segment).1 := by
  have hnew : (r.isAssembled && r.isCurrent timeout segment.transferId segment.timestamp) =
      false := by rw [hcurrent, Bool.and_false]
  have hmtu : (!tail.eot && (Mtu.tryFrom (segment.payload.length + 1)).isNone) = false := by
    cases heot : tail.eot with
    | true => rfl
    | false => rw [hlen heot]; rfl
  have hfilter : (slot.isActive timeout segment.timestamp && slot.assembled) = false := by
    cases ha : slot.assembled with
    | true => rw [h.expired ha _ le_rfl]; rfl
    | false => rw [Bool.and_false]
  rw [Slot.receive, hmtu, hfilter]
  simp only [Bool.false_eq_true, if_false, h.stop_eq, h.stopped]
  by_cases hsot : tail.sot = true
  · by_cases htoggle : tail.toggle = SOT_TOGGLE_BIT
    · rw [if_pos hsot, if_neg (not_not_intro htoggle)]
      exact agrees_restart htoggle hsot hnew hlen
    · unfold Reassembly.push
      simp only [hnew, hsot, htoggle, if_true, Bool.false_eq_true, if_false, ne_eq,
        not_false_eq_true]
      exact ⟨trivial, agrees_stop h⟩
  · have hpush : r.push timeout tail segment = (none, r.stop) := by
      unfold Reassembly.push
      simp only [hsot, hcurrent, Bool.and_false, Bool.false_eq_true, if_false]
    rw [if_neg hsot, hpush, ite_self]
    exact ⟨rfl, agrees_stop h⟩

variable {sof : Instant} {progress : Progress} {bytes : List Byte}

/-- A frame about the transfer that was assembled. -/
theorem agrees_receive_assembled
    (hlen : tail.eot = false → (Mtu.tryFrom (segment.payload.length + 1)).isNone = false) :
    ((Slot.mk (some sof) none true).receive timeout tail segment).2 =
        (Reassembly.push (.assembled sof segment.transferId) timeout tail segment).1 ∧
      Agrees timeout segment.timestamp
        (Reassembly.push (.assembled sof segment.transferId) timeout tail segment).2
        segment.transferId ((Slot.mk (some sof) none true).receive timeout tail segment).1 := by
  set slot : Slot := ⟨some sof, none, true⟩ with hslot
  have hactive : slot.isActive timeout segment.timestamp =
      (Phase.assembled sof segment.transferId : Reassembly).isCurrent timeout segment.transferId
        segment.timestamp := by
    simp only [hslot, Slot.isActive, Option.any_some, Phase.isCurrent, decide_true, Bool.true_and]
  cases hcurrent : slot.isActive timeout segment.timestamp with
  | true =>
    rw [hcurrent] at hactive
    have hpush : Reassembly.push (.assembled sof segment.transferId) timeout tail segment =
        (none, .assembled sof segment.transferId) := by
      unfold Reassembly.push
      rw [← hactive]
      rfl
    have hreceive : slot.receive timeout tail segment = (slot, none) := by
      rw [Slot.receive, hcurrent]
      simp only [hslot, Slot.stop, Bool.and_self, if_true, Bool.not_true, Bool.false_eq_true,
        ite_self]
    rw [hpush, hreceive]
    exact ⟨rfl, .assembled⟩
  | false =>
    have hdead : Dead timeout segment.timestamp slot :=
      ⟨rfl, fun _ t ht ↦ isActive_eq_false_of_le hcurrent ht⟩
    exact agrees_receive_dead hdead (hactive.symm.trans hcurrent) hlen

/-- The process of a running reassembly. -/
def processOf (progress : Progress) (bytes : List Byte) : Process :=
  ⟨bytes, !progress.expected, decide (progress = .first)⟩

/-- A frame of the running transfer that does not start it, within its timeout. -/
theorem agrees_advance
    (hlen : tail.eot = false → (Mtu.tryFrom (segment.payload.length + 1)).isNone = false) :
    let slot : Slot := ⟨some sof, some (processOf progress bytes), false⟩
    (slot.advance (processOf progress bytes) tail segment).2 =
        (Reassembly.proceed sof segment.transferId progress bytes tail segment).1 ∧
      Agrees timeout segment.timestamp
        (Reassembly.proceed sof segment.transferId progress bytes tail segment).2
        segment.transferId (slot.advance (processOf progress bytes) tail segment).1 := by
  intro slot
  have hidle : Agrees timeout segment.timestamp (.idleLast sof) segment.transferId slot.stop :=
    .dead (by simp [Phase.tid?]) ⟨rfl, fun h ↦ absurd h Bool.false_ne_true⟩
  have hbytes : (processOf progress bytes).bytes = bytes := rfl
  rw [Slot.advance, Reassembly.proceed]
  by_cases htoggle : tail.toggle = progress.expected
  · have hnew : tail.toggle ≠ (processOf progress bytes).lastToggle := by
      rw [htoggle]
      exact (Bool.not_ne_self _).symm
    rw [if_pos hnew, if_pos htoggle]
    cases heot : tail.eot with
    | true =>
      simp only [if_true, Slot.conclude, Reassembly.finish, slot, hbytes]
      split_ifs
      · exact ⟨rfl, .assembled⟩
      · exact ⟨rfl, hidle⟩
    | false =>
      simp only [Bool.false_eq_true, if_false, Slot.contribute, Reassembly.extend, hlen heot,
        ← List.length_append, hbytes]
      split_ifs
      · have hrunning := @Agrees.running timeout segment.timestamp progress.next sof
          segment.transferId (bytes ++ segment.payload)
        rw [Progress.expected_next, Bool.not_not, ← htoggle] at hrunning
        refine ⟨trivial, ?_⟩
        cases progress <;> exact hrunning
      · exact ⟨trivial, hidle⟩
  · have hold : tail.toggle = (processOf progress bytes).lastToggle := by
      rw [processOf]
      exact Bool.eq_not_of_ne htoggle
    rw [if_neg (not_not_intro hold), if_neg htoggle]
    simp only [processOf, Bool.or_eq_true, decide_eq_true_eq]
    split_ifs
    · exact ⟨rfl, hidle⟩
    · exact ⟨rfl, .running⟩

/-- A frame with the identifier of the running transfer. -/
theorem agrees_receive_running
    (hlen : tail.eot = false → (Mtu.tryFrom (segment.payload.length + 1)).isNone = false) :
    let slot : Slot := ⟨some sof, some (processOf progress bytes), false⟩
    let r : Reassembly := .running progress sof segment.transferId bytes
    (slot.receive timeout tail segment).2 = (r.push timeout tail segment).1 ∧
      Agrees timeout segment.timestamp (r.push timeout tail segment).2 segment.transferId
        (slot.receive timeout tail segment).1 := by
  intro slot r
  have hmtu : (!tail.eot && (Mtu.tryFrom (segment.payload.length + 1)).isNone) = false := by
    cases heot : tail.eot with
    | true => rfl
    | false => rw [hlen heot]; rfl
  have hidle : Agrees timeout segment.timestamp r.stop segment.transferId slot.stop :=
    .dead (by simp) ⟨rfl, fun h ↦ absurd h Bool.false_ne_true⟩
  have hactive : slot.isActive timeout segment.timestamp =
      r.isCurrent timeout segment.transferId segment.timestamp := by
    simp only [slot, r, Slot.isActive, Option.any_some, Phase.isCurrent, decide_true, Bool.true_and]
  have hnew : (r.isAssembled && r.isCurrent timeout segment.transferId segment.timestamp) = false :=
    Bool.false_and _
  rw [Slot.receive, hmtu, hactive]
  by_cases hsot : tail.sot = true
  · by_cases htoggle : tail.toggle = SOT_TOGGLE_BIT
    · simp only [hsot, htoggle, if_true, Bool.false_eq_true, if_false, ne_eq, not_true_eq_false,
        slot, Bool.and_false]
      exact agrees_restart htoggle hsot hnew hlen
    · unfold Reassembly.push
      simp only [hnew, hsot, htoggle, if_true, Bool.false_eq_true, if_false, ne_eq,
        not_false_eq_true]
      exact ⟨trivial, hidle⟩
  · unfold Reassembly.push
    simp only [hnew, hsot, Bool.false_eq_true, if_false]
    cases r.isCurrent timeout segment.transferId segment.timestamp with
    | true => exact agrees_advance hlen
    | false => exact ⟨rfl, hidle⟩

/-- A frame with the identifier of the slot. -/
theorem Agrees.receive (h : Agrees timeout segment.timestamp r segment.transferId slot)
    (hlen : tail.eot = false → (Mtu.tryFrom (segment.payload.length + 1)).isNone = false) :
    (slot.receive timeout tail segment).2 = (r.push timeout tail segment).1 ∧
      Agrees timeout segment.timestamp (r.push timeout tail segment).2 segment.transferId
        (slot.receive timeout tail segment).1 := by
  cases h with
  | running => exact agrees_receive_running hlen
  | assembled => exact agrees_receive_assembled hlen
  | dead htid hdead =>
    refine agrees_receive_dead hdead (Bool.eq_false_iff.mpr fun hcurrent ↦ htid ?_) hlen
    exact Reassembly.tid?_of_isCurrent hcurrent

/-- After a frame the reassembly is about the transfer of the frame, or about none. -/
theorem transferId_of_pushes {call : Call} {r' : Reassembly} {o : Option Delivery}
    (h : Reassembly.Pushes timeout call r r' o) (htail : call.tail? = some tail)
    (htid : r'.tid? = some tid) : tail.transferId = tid := by
  cases h with
  | skip hsame => exact hsame tid tail htid htail
  | stop => exact absurd (htid.symm.trans (Phase.tid?_stop _)) (by simp)
  | single hdata | first hdata | more hdata | last hdata =>
    cases htid
    exact Reassembly.transferId_of_frameData hdata tail htail

end Agreement

/-- The documented frames that do not end a transfer: empty ones, and those that use a whole MTU. -/
def FullUnlessLast (call : Call) : Prop :=
  ∀ tail ∈ call.tail?, tail.eot = false → call.data.length = 8 ∨ call.data.length = 64

instance (call : Call) : Decidable (FullUnlessLast call) :=
  inferInstanceAs (Decidable (∀ tail ∈ call.tail?, _))

/-- One frame, in the specification and in the reassembly. -/
theorem agrees_step {timeout : Duration} {now : Instant} {r : Reassembly} {slots : Slots}
    {call : Call} (h : ∀ tid, Agrees timeout now r tid (slots tid)) (hnow : now ≤ call.timestamp)
    (hfull : FullUnlessLast call) :
    (step timeout slots call).2 = (r.pushCall timeout call).2 ∧
      ∀ tid, Agrees timeout call.timestamp (r.pushCall timeout call).1 tid
        ((step timeout slots call).1 tid) := by
  have hpushes := Reassembly.pushCall_pushes timeout r call
  rw [step]
  cases htail : call.tail? with
  | none =>
    rw [Reassembly.pushCall, htail]
    exact ⟨rfl, fun tid ↦ (h tid).mono hnow⟩
  | some tail =>
    have hlen : tail.eot = false →
        (Mtu.tryFrom ((call.segment tail).payload.length + 1)).isNone = false := by
      intro heot
      have hdata := congrArg List.length (Call.data_eq_frameData htail)
      rw [frameData, List.length_append, List.length_singleton] at hdata
      have hmtu := hfull tail htail heot
      rw [hdata, ← Mtu.tryFrom_isSome] at hmtu
      rw [← Option.not_isSome, Call.segment, hmtu]
      rfl
    obtain ⟨hout, hown⟩ := ((h tail.transferId).mono hnow).receive hlen
    have hpush : r.pushCall timeout call = (r.push timeout tail (call.segment tail)).swap := by
      rw [Reassembly.pushCall, htail]
    refine ⟨by rw [hpush]; exact hout, fun tid ↦ ?_⟩
    by_cases htid : tid = tail.transferId
    · subst htid
      rw [hpush]
      simp only [if_true]
      exact hown
    · simp only [if_neg htid]
      exact .dead (fun hr' ↦ htid (transferId_of_pushes hpushes htail hr').symm) dead_reset

/-- **One state is as good as 32**: along a run with nondecreasing timestamps the reassembly
delivers what the specification delivers. -/
theorem agrees_run {timeout : Duration} {now : Instant} {r : Reassembly} {slots : Slots}
    (h : ∀ tid, Agrees timeout now r tid (slots tid)) {calls : List Call}
    (hnow : ∀ call ∈ calls, now ≤ call.timestamp)
    (hmono : calls.Pairwise fun c c' ↦ c.timestamp ≤ c'.timestamp)
    (hfull : ∀ call ∈ calls, FullUnlessLast call) :
    (runTotal (step timeout) slots calls).2 =
      (runTotal (Reassembly.pushCall timeout) r calls).2 := by
  induction calls generalizing now r slots with
  | nil => rfl
  | cons call calls ih =>
    obtain ⟨hle, hmono'⟩ := List.pairwise_cons.mp hmono
    obtain ⟨hout, hnext⟩ := agrees_step h (hnow call (by simp)) (hfull call (by simp))
    have hrest := ih hnext hle hmono' fun c hc ↦ hfull c (by simp [hc])
    simp only [runTotal, hout, hrest]

end Rules

namespace Gather

/-- **The code implements the documented rules**: it returns what the specification machine returns,
with the same payload as far as the buffer has room, and it does not panic on payloads whose length
fits a `u32`. -/
theorem pushFrame_refines_rules (timeout : Duration) (buffer : List Byte) (calls : List Call)
    (hmono : calls.Pairwise fun c c' ↦ c.timestamp ≤ c'.timestamp)
    (hfull : ∀ call ∈ calls, Rules.FullUnlessLast call) :
    (∀ s outs, run (step timeout) (Gather.default, buffer) calls = .ok (s, outs) →
      outs = (runTotal (Rules.step timeout) Rules.init calls).2.map
        (Option.map (Reassembly.truncate buffer.length))) ∧
    ((∀ call ∈ calls, call.payload.length < 2 ^ 32) →
      ∃ s outs, run (step timeout) (Gather.default, buffer) calls = .ok (s, outs)) := by
  have hinit : ∀ tid, Rules.Agrees timeout Instant.MIN .idle tid (Rules.init tid) :=
    fun tid ↦ .dead (by simp [Phase.tid?]) Rules.dead_reset
  have hagrees := Rules.agrees_run hinit (fun call _ ↦ Fin.zero_le call.timestamp) hmono hfull
  have hsim := Reassembly.step_represents timeout buffer.length
  refine ⟨fun s outs hrun ↦ ?_, fun hlen ↦ ?_⟩
  · rw [hagrees]
    exact (hsim.run_eq (Reassembly.represents_default buffer) hrun).2
  · obtain ⟨s, hrun, -⟩ := hsim.run_ok (Reassembly.represents_default buffer) hlen
    exact ⟨s, _, hrun⟩

/-- A transfer of two frames whose first frame is repeated. -/
def replica : List Call :=
  [⟨.nominal, [1, 2, 3, 4, 5, 6, 7, 0xa3], 100⟩, ⟨.nominal, [1, 2, 3, 4, 5, 6, 7, 0xa3], 200⟩,
    ⟨.high, [8, 0x47, 0x92, 0x43], 1200⟩]

theorem pushFrame_refines_rules_replica :
    ∃ s, run (step 1000) (Gather.default, List.replicate 6 0xff) replica =
      .ok (s, (runTotal (Rules.step 1000) Rules.init replica).2.map
        (Option.map (Reassembly.truncate 6))) := by
  have hrefines := pushFrame_refines_rules 1000 (List.replicate 6 0xff) replica (by decide)
    (by decide)
  obtain ⟨s, outs, hrun⟩ := hrefines.2 (by decide)
  exact ⟨s, by rw [hrun, hrefines.1 s outs hrun]; rfl⟩

end Gather

end Emcyphal
