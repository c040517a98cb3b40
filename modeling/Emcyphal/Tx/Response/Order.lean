import Emcyphal.Tx.Ledger
import Emcyphal.Tx.Response
import Emcyphal.Tx.Signal.Order

/-!
# Runs of a response buffer

The writer and the driver use a response buffer as they do a message buffer, so the operations are
those of `Signal`.  Each priority is a queue of its own for them, with room for one transfer, and a
`Record` keeps what was pushed and what was fetched at each.  `sends_all` says that nothing is lost
there: the frames are those of all transfers that were accepted, in the order they were.
-/

set_option autoImplicit false

namespace Emcyphal.Response

open Rust
open Signal (Op Event)

namespace ResponseBufferInner

def step (r : ResponseBufferInner) : Op → Exec (ResponseBufferInner × Event)
  | .getScratchpad => do
    let (scratchpad, r) ← r.getScratchpad
    return (r, .scratchpad scratchpad)
  | .writeScratchpad bytes => .ok (r.writeScratchpad bytes, .written)
  | .tryPush transferMeta length crc => do
    let (result, r) ← r.tryPush transferMeta length crc
    return (r, .pushed result)
  | .tryPop priorityMask mtu => do
    let (frame, r) ← r.tryPop priorityMask mtu
    return (r, .popped frame)

/-- The writer has a slice of `n` bytes when it writes, and pushes no more bytes than it has. -/
def Valid (n : ℕ) (r : ResponseBufferInner) : Op → Prop
  | .writeScratchpad bytes => r.scratchpadBufferIdx.isSome = true ∧ bytes.length = n
  | .tryPush _ length _ => length ≤ n
  | .getScratchpad | .tryPop _ _ => True

instance decidableValid (n : ℕ) (r : ResponseBufferInner) : (op : Op) → Decidable (r.Valid n op)
  | .writeScratchpad _ => inferInstanceAs (Decidable (_ ∧ _))
  | .tryPush _ _ _ => inferInstanceAs (Decidable (_ ≤ _))
  | .getScratchpad | .tryPop _ _ => isTrue trivial

end ResponseBufferInner

/-- What the writer and the driver have seen. -/
structure Record where
  /-- The contents of the scratchpad. -/
  scratchpad : List Byte
  /-- The priorities that came with the scratchpad, until it is pushed. -/
  offered : Option PrioritySet
  /-- The transfers that were accepted, with the data they had by then. -/
  pushed : Priority → List Outgoing
  frames : Priority → List Frame

namespace Record

def empty : Record := ⟨[], none, fun _ ↦ [], fun _ ↦ []⟩

def add (m : Record) : Op × Event → Record
  | (.getScratchpad, .scratchpad (some (priorities, bytes))) =>
    { m with scratchpad := bytes, offered := some priorities }
  | (.writeScratchpad bytes, .written) => { m with scratchpad := bytes }
  | (.tryPush transferMeta length crc, .pushed (.ok ())) =>
    { m with
      offered := none
      pushed := Function.update m.pushed transferMeta.priority
        (m.pushed transferMeta.priority ++ [.new transferMeta length crc m.scratchpad]) }
  | (.tryPop _ _, .popped (some frame)) =>
    { m with
      frames := Function.update m.frames frame.header.priority
        (m.frames frame.header.priority ++ [frame]) }
  | _ => m

def of (history : List (Op × Event)) : Record := history.foldl add empty

/-- The frames of a priority are those of all transfers that were accepted at it, one after the
other and each complete, except that the last one may still be on its way. -/
def InOrder (m : Record) (service : ServiceId) (p : Priority) : Prop :=
  ∃ o, InTurn p (.response service) (m.pushed p) (m.frames p) o

end Record

/-- The record is true of the buffer. -/
structure Tracks (service : ServiceId) (n : ℕ) (m : Record) (r : ResponseBufferInner) : Prop where
  inv : r.Inv n
  service_eq : r.service = service
  scratchpad : ∀ bytes ∈ r.scratchpad, bytes = m.scratchpad
  offered : ∀ priorities ∈ m.offered, r.scratchpad ≠ none ∧
    ∀ p, priorities.contains p = true → r.current p = none
  inTurn : ∀ p, InTurn p (.response service) (m.pushed p) (m.frames p) (r.current p)

namespace Tracks

variable {service : ServiceId} {n : ℕ} {m : Record} {r : ResponseBufferInner}

theorem getScratchpad (h : Tracks service n m r) : ∃ r' event,
    r.step .getScratchpad = .ok (r', event) ∧
      Tracks service n (m.add (.getScratchpad, event)) r' := by
  by_cases hfull : ∀ p, r.current p ≠ none
  · exact ⟨r, .scratchpad none,
      by rw [ResponseBufferInner.step, h.inv.getScratchpad_none hfull]; rfl, h⟩
  · push Not at hfull
    obtain ⟨p, hp⟩ := hfull
    obtain ⟨bytes, r', hget, -, hinv, hcurrent, hservice, hscratchpad⟩ := h.inv.getScratchpad hp
    refine ⟨r', .scratchpad (some (r.pushReadiness, bytes)),
      by rw [ResponseBufferInner.step, hget]; rfl, hinv, hservice.trans h.service_eq, ?_, ?_, ?_⟩
    · intro bytes' hbytes'
      rw [hscratchpad] at hbytes'
      exact (Option.some.inj hbytes').symm
    · intro priorities hpriorities
      cases hpriorities
      refine ⟨by rw [hscratchpad]; simp, fun q hq ↦ ?_⟩
      rw [h.inv.pushReadiness, Option.isNone_iff_eq_none] at hq
      rw [hcurrent, hq]
    · rw [hcurrent]
      exact h.inTurn

theorem writeScratchpad (h : Tracks service n m r) {bytes : List Byte} (hbytes : bytes.length = n) :
    Tracks service n { m with scratchpad := bytes } (r.writeScratchpad bytes) := by
  obtain ⟨hinv, hcurrent, hservice, hscratchpad⟩ := h.inv.writeScratchpad hbytes
  refine ⟨hinv, hservice.trans h.service_eq, ?_, fun priorities hpriorities ↦ ?_, ?_⟩
  · intro bytes' hbytes'
    rw [hscratchpad] at hbytes'
    obtain ⟨-, -, rfl⟩ := Option.map_eq_some_iff.mp hbytes'
    rfl
  · obtain ⟨htaken, hfree⟩ := h.offered priorities hpriorities
    rw [hscratchpad, hcurrent]
    exact ⟨by simpa using htaken, hfree⟩
  · rw [hcurrent]
    exact h.inTurn

theorem tryPush (h : Tracks service n m r) {transferMeta : TransferMeta} {length : ℕ}
    (hlength : length ≤ n) (crc : TransferCrc) : ∃ r' event,
    r.step (.tryPush transferMeta length crc) = .ok (r', event) ∧
      Tracks service n (m.add (.tryPush transferMeta length crc, event)) r' := by
  by_cases hnot : transferMeta.address = none ∨ r.current transferMeta.priority ≠ none ∨
      r.scratchpad = none
  · obtain ⟨e, herror⟩ := h.inv.tryPush_error transferMeta hnot length crc
    exact ⟨r, .pushed (.error e), by rw [ResponseBufferInner.step, herror]; rfl, h⟩
  · push Not at hnot
    obtain ⟨haddress, hpriority, hscratchpad⟩ := hnot
    obtain ⟨bytes, hbytes⟩ := Option.ne_none_iff_exists'.mp hscratchpad
    obtain ⟨r', hpush, hinv, hcurrent, hservice, hscratchpad'⟩ :=
      h.inv.tryPush haddress hpriority hbytes hlength crc
    obtain rfl := h.scratchpad bytes hbytes
    refine ⟨r', .pushed (.ok ()), by rw [ResponseBufferInner.step, hpush]; rfl, hinv,
      hservice.trans h.service_eq, ?_, ?_, fun p ↦ ?_⟩
    · intro bytes' hbytes'
      rw [hscratchpad'] at hbytes'
      cases hbytes'
    · intro priorities hpriorities
      cases hpriorities
    · rw [hcurrent]
      have hp := h.inTurn p
      show InTurn p _ (Function.update m.pushed _ _ p) (m.frames p) _
      by_cases hsame : p = transferMeta.priority
      · subst hsame
        rw [Function.update_self, Function.update_self]
        rw [hpriority] at hp
        exact hp.push _
      · rwa [Function.update_of_ne hsame, Function.update_of_ne hsame]

theorem tryPop (h : Tracks service n m r) (mask : PrioritySet) (mtu : Mtu) : ∃ r' event,
    r.step (.tryPop mask mtu) = .ok (r', event) ∧
      Tracks service n (m.add (.tryPop mask mtu, event)) r' := by
  cases hfirst : (r.popReadiness &&& mask).first with
  | none =>
    have hpop := ResponseBufferInner.Inv.tryPop_none hfirst mtu
    exact ⟨r, .popped none, by rw [ResponseBufferInner.step, hpop]; rfl, h⟩
  | some p =>
    have hready := (PrioritySet.first_eq_some_iff.mp hfirst).1
    rw [PrioritySet.contains_and, Bool.and_eq_true, h.inv.popReadiness] at hready
    obtain ⟨o, ho⟩ := Option.isSome_iff_exists.mp hready.1
    obtain ⟨data, rest, hsends⟩ := (h.inv.current p o ho).sends mtu
    obtain ⟨r', hpop, hinv, hcurrent, hservice, hscratchpad⟩ := h.inv.tryPop hfirst ho hsends
    rw [h.service_eq] at hpop
    refine ⟨r', .popped (some (o.frame p (.response service) data)),
      by rw [ResponseBufferInner.step, hpop]; rfl, hinv, hservice.trans h.service_eq, ?_, ?_,
      fun q ↦ ?_⟩
    · rw [hscratchpad]
      exact h.scratchpad
    · intro priorities hpriorities
      obtain ⟨htaken, hfree⟩ := h.offered priorities hpriorities
      refine ⟨by rwa [hscratchpad], fun q hq ↦ ?_⟩
      rw [hcurrent, Function.update_of_ne]
      · exact hfree q hq
      · -- What is sent was not offered.
        rintro rfl
        rw [hfree q hq] at ho
        cases ho
    · rw [hcurrent]
      have hq := h.inTurn q
      show InTurn q _ (m.pushed q) (Function.update m.frames p _ q) _
      by_cases hsame : q = p
      · subst hsame
        rw [Function.update_self, Function.update_self]
        rw [ho] at hq
        exact hq.send hsends
      · rwa [Function.update_of_ne hsame, Function.update_of_ne hsame]

/-- Every operation keeps the record true. -/
theorem step (h : Tracks service n m r) {op : Op} (hop : r.Valid n op) :
    ∃ r' event, r.step op = .ok (r', event) ∧ Tracks service n (m.add (op, event)) r' := by
  cases op with
  | getScratchpad => exact h.getScratchpad
  | writeScratchpad bytes => exact ⟨_, _, rfl, h.writeScratchpad hop.2⟩
  | tryPush transferMeta length crc => exact h.tryPush hop crc
  | tryPop mask mtu => exact h.tryPop mask mtu

/-- What the writer was offered is accepted, and so is what has become free since. -/
theorem accepts (h : Tracks service n m r) {priorities : PrioritySet}
    (hoffered : m.offered = some priorities) :
    (∀ p, priorities.contains p = true → r.pushReadiness.contains p = true) ∧
      ∀ transferMeta length crc, transferMeta.address.isSome = true → length ≤ n →
        r.pushReadiness.contains transferMeta.priority = true →
        ∃ r', r.tryPush transferMeta length crc = .ok (.ok (), r') := by
  obtain ⟨htaken, hfree⟩ := h.offered priorities hoffered
  refine ⟨fun p hp ↦ ?_, fun transferMeta length crc haddress hlength hpriority ↦ ?_⟩
  · rw [h.inv.pushReadiness, hfree p hp]
    rfl
  · rw [h.inv.pushReadiness, Option.isNone_iff_eq_none] at hpriority
    obtain ⟨bytes, hbytes⟩ := Option.ne_none_iff_exists'.mp htaken
    obtain ⟨r', hpush, -⟩ := h.inv.tryPush (Option.isSome_iff_ne_none.mp haddress) hpriority hbytes
      hlength crc
    exact ⟨r', hpush⟩

end Tracks

/-- The record of a new buffer. -/
theorem tracks_new {service : ServiceId} {buffers : List (List Byte)} {n : ℕ}
    (hlength : ∀ b ∈ buffers, b.length = n) {r : ResponseBufferInner}
    (hnew : ResponseBufferInner.new service buffers = .ok r) : Tracks service n .empty r := by
  have hcount : buffers.length = BUFFER_COUNT := by
    by_contra hnot
    rw [ResponseBufferInner.new, assert, if_neg hnot] at hnew
    cases hnew
  obtain ⟨r', hnew', hinv, hservice, hcurrent, hscratchpad⟩ :=
    @ResponseBufferInner.inv_new n service buffers hcount hlength
  cases hnew.symm.trans hnew'
  refine ⟨hinv, hservice, ?_, fun priorities hoffered ↦ ?_, fun p ↦ ?_⟩
  · rw [hscratchpad]
    simp
  · cases hoffered
  · rw [hcurrent]
    exact .idle .nil

/-- **Every response that is accepted is sent once and intact.**  Whatever the writer and the driver
do, no call panics, each data buffer has one role, the frames at each priority are those of all
transfers that were accepted at it, in the order they were, and the writer can push what it was
offered. -/
theorem sends_all {service : ServiceId} {buffers : List (List Byte)} {n : ℕ}
    (hlength : ∀ b ∈ buffers, b.length = n) {r : ResponseBufferInner}
    (hnew : ResponseBufferInner.new service buffers = .ok r) {ops : List Op}
    (hops : Admissible ResponseBufferInner.step (ResponseBufferInner.Valid n) r ops) :
    ∃ t events m, run ResponseBufferInner.step r ops = .ok (t, events) ∧
      m = Record.of (ops.zip events) ∧ t.indexes.Perm (List.range 8) ∧
      (∀ p, m.InOrder service p) ∧ ∀ priorities, m.offered = some priorities →
        (∀ p, priorities.contains p = true → t.pushReadiness.contains p = true) ∧
        ∀ transferMeta length crc, transferMeta.address.isSome = true → length ≤ n →
          t.pushReadiness.contains transferMeta.priority = true →
          ∃ t', t.tryPush transferMeta length crc = .ok (.ok (), t') := by
  obtain ⟨t, events, hrun, ht⟩ := run_of_records Record.add
    (fun m r op (h : Tracks service n m r) hop ↦ h.step hop) (tracks_new hlength hnew) hops
  exact ⟨t, events, _, hrun, rfl, ht.inv.indexes, fun p ↦ ⟨_, ht.inTurn p⟩,
    fun priorities hoffered ↦ ht.accepts hoffered⟩

/-- A response of two frames is sent in part when the next one is pushed at another priority. -/
def overtaking : List Op :=
  [.getScratchpad, .writeScratchpad (List.replicate 9 1),
    .tryPush ⟨.nominal, some 10, 0, 100, false⟩ 9 .default, .tryPop .ALL .classic, .getScratchpad,
    .writeScratchpad (List.replicate 9 2), .tryPush ⟨.high, some 11, 1, 100, false⟩ 1 .default,
    .tryPop .ALL .classic, .getScratchpad]

theorem sends_all_overtaking : ∃ r,
    ResponseBufferInner.new 3 (List.replicate 8 (List.replicate 9 0)) = .ok r ∧
    ∃ t events m, run ResponseBufferInner.step r overtaking = .ok (t, events) ∧
      m = Record.of (overtaking.zip events) ∧ t.indexes.Perm (List.range 8) ∧
      (∀ p, m.InOrder 3 p) ∧ ∀ priorities, m.offered = some priorities →
        (∀ p, priorities.contains p = true → t.pushReadiness.contains p = true) ∧
        ∀ transferMeta length crc, transferMeta.address.isSome = true → length ≤ 9 →
          t.pushReadiness.contains transferMeta.priority = true →
          ∃ t', t.tryPush transferMeta length crc = .ok (.ok (), t') :=
  ⟨_, rfl, @sends_all 3 (List.replicate 8 (List.replicate 9 0)) 9 (by decide) _ rfl overtaking
    (by decide)⟩

end Emcyphal.Response
