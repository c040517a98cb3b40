import Emcyphal.Gather.Reassembly

/-!
# Frames that are repeated, and frames of a bad size

A CAN frame may be delivered twice in a row.  The second time it is ignored, whatever the first one
has done: a phase that a frame has led to `Absorbs` this frame.  A frame that was accumulated has
a repeated toggle bit the second time, or starts the same reassembly again, which stores the same
bytes at the same place.

The reason why a repeated toggle bit is harmless is that such a frame is skipped before anything of
it is looked at.  This includes its length: rule 4 of the doc comment says that a frame that does
not end its transfer and has a data length different from a valid MTU stops the reassembly, and
`accumulate_first`, `accumulate_odd` and `accumulate_even` do so, but a frame that repeats the
toggle bit of the one before never gets there.
-/

set_option autoImplicit false

namespace Emcyphal

open Rust

/-- Appending a segment a second time. -/
theorem PayloadAccumulator.append_again {acc acc' : PayloadAccumulator}
    {buffer buffer' segment : List Byte}
    (h : acc.append buffer segment = some (acc', buffer')) :
    acc.append buffer' segment = some (acc', buffer') := by
  simp only [append, Option.bind_eq_bind, Option.bind_eq_some_iff] at h ⊢
  obtain ⟨len, hlen, newLength, hnew, hret⟩ := h
  obtain ⟨rfl, rfl⟩ := Prod.mk.inj (Option.some.inj hret)
  have hroom : min buffer.length acc.length + (segment.take (min segment.length
      (buffer.length - min buffer.length acc.length))).length ≤ buffer.length := by
    rw [List.length_take]
    omega
  refine ⟨len, hlen, newLength, hnew, ?_⟩
  rw [length_overwrite hroom, overwrite_overwrite hroom]
  rfl

namespace Phase

variable {p p' : Phase PayloadAccumulator} {timeout : Duration} {buffer buffer' : List Byte}
  {tail : TailByte} {segment : Segment} {t : Option Transfer}

/-! ## Repeated frames -/

/-- The frame changes nothing. -/
def Absorbs (p : Phase PayloadAccumulator) (timeout : Duration) (buffer : List Byte)
    (tail : TailByte) (segment : Segment) : Prop :=
  p.push timeout buffer tail segment = .ok (none, p, buffer)

@[simp] theorem stop_stop (p : Phase PayloadAccumulator) : p.stop.stop = p.stop := by
  cases p <;> rfl

@[simp] theorem isCurrent_stop (p : Phase PayloadAccumulator) (tid : TransferId)
    (timestamp : Instant) : p.stop.isCurrent timeout tid timestamp = false := by
  cases p <;> rfl

/-- A transfer that is assembled already. -/
theorem absorbs_assembled {sof : Instant} {tid : TransferId}
    (h : (assembled sof tid : Phase PayloadAccumulator).isCurrent timeout segment.transferId
      segment.timestamp = true) : (assembled sof tid).Absorbs timeout buffer tail segment := by
  unfold Absorbs push
  rw [h]
  rfl

/-- A frame that starts nothing, when nothing is going on. -/
theorem absorbs_stop (h : tail.sot = true → tail.toggle = SOT_TOGGLE_BIT →
    tail.eot = false ∧ (Mtu.tryFrom (segment.payload.length + 1)).isNone = true) :
    p.stop.Absorbs timeout buffer tail segment := by
  unfold Absorbs push
  simp only [isCurrent_stop, Bool.and_false, Bool.false_eq_true, if_false, stop_stop]
  split
  · rename_i hsot
    split
    · rename_i htoggle
      obtain ⟨heot, hmtu⟩ := h hsot htoggle
      rw [heot, start, if_pos hmtu, stop_stop]
      rfl
    · rfl
  · cases p <;> rfl

/-- The first frame of the running reassembly. -/
theorem absorbs_started {acc : PayloadAccumulator} (hsot : tail.sot = true)
    (htoggle : tail.toggle = SOT_TOGGLE_BIT) (heot : tail.eot = false)
    (hmtu : (Mtu.tryFrom (segment.payload.length + 1)).isNone = false)
    (hacc : PayloadAccumulator.default.append buffer segment.payload = some (acc, buffer)) :
    (running .first segment.timestamp segment.transferId acc).Absorbs timeout buffer tail
      segment := by
  unfold Absorbs push
  simp only [isAssembled, Bool.false_and, Bool.false_eq_true, if_false, hsot, htoggle, heot,
    if_true, start, hmtu, appendTo, hacc]

/-- A frame that repeats the toggle bit of the one before. -/
theorem absorbs_repeated {progress : Progress} {sof : Instant} {tid : TransferId}
    {acc : PayloadAccumulator} (hsot : tail.sot = false) (heot : tail.eot = false)
    (hprogress : progress ≠ .first) (htoggle : tail.toggle ≠ progress.expected)
    (hcurrent : (running progress sof tid acc).isCurrent timeout segment.transferId
      segment.timestamp = true) :
    (running progress sof tid acc).Absorbs timeout buffer tail segment := by
  unfold Absorbs push
  simp only [isAssembled, Bool.false_and, Bool.false_eq_true, if_false, hsot, hcurrent, proceed,
    htoggle, hprogress, heot, or_self]

theorem absorbs_idleLast {sof : Instant} (hsot : tail.sot = false) :
    (idleLast sof).Absorbs timeout buffer tail segment :=
  @absorbs_stop (idleLast sof) timeout buffer tail segment fun h ↦
    absurd (h.symm.trans hsot) (by decide)

theorem next_ne_first (progress : Progress) : progress.next ≠ .first := by
  cases progress <;> decide

/-- A frame that belongs to the running reassembly is absorbed by the phase it leads to. -/
theorem proceed_absorbs {progress : Progress} {sof : Instant} {acc : PayloadAccumulator}
    (hsot : tail.sot = false)
    (hts : decide (segment.timestamp ≤ Instant.saturatingAdd sof timeout) = true)
    (h : proceed progress sof segment.transferId acc buffer tail segment = (t, p', buffer')) :
    p'.Absorbs timeout buffer' tail segment := by
  rw [proceed] at h
  split at h
  · rename_i htoggle
    split at h
    · rw [finish] at h
      split at h
      · cases h
        exact absorbs_idleLast hsot
      · split at h
        · cases h
          exact absorbs_idleLast hsot
        · split at h
          · cases h
            exact absorbs_idleLast hsot
          · cases h
            exact absorbs_assembled (by simp only [isCurrent, hts, decide_true, Bool.and_self])
    · rename_i heot
      rw [extend] at h
      split at h
      · cases h
        exact absorbs_idleLast hsot
      · rw [appendTo] at h
        split at h
        · cases h
          exact absorbs_idleLast hsot
        · cases h
          refine absorbs_repeated hsot (Bool.eq_false_iff.mpr heot) (next_ne_first progress) ?_
            (by simp only [isCurrent, hts, decide_true, Bool.and_self])
          rw [htoggle, Progress.expected_next]
          exact (Bool.not_ne_self _).symm
  · rename_i htoggle
    split at h
    · cases h
      exact absorbs_idleLast hsot
    · rename_i hrest
      obtain ⟨hprogress, heot⟩ := not_or.mp hrest
      cases h
      exact absorbs_repeated hsot (Bool.eq_false_iff.mpr heot) hprogress htoggle
        (by simp only [isCurrent, hts, decide_true, Bool.and_self])

/-- A start of transfer is absorbed by the phase it leads to. -/
theorem start_absorbs (hsot : tail.sot = true) (htoggle : tail.toggle = SOT_TOGGLE_BIT)
    (heot : tail.eot = false) (h : p.start buffer segment = (t, p', buffer')) :
    p'.Absorbs timeout buffer' tail segment := by
  rw [start] at h
  split at h
  · rename_i hmtu
    cases h
    exact absorbs_stop fun _ _ ↦ ⟨heot, hmtu⟩
  · rename_i hmtu
    rw [appendTo] at h
    split at h
    · -- only a payload of 2 ^ 32 bytes could not be appended
      rename_i hnone
      have hlen : segment.payload.length + 1 = 8 ∨ segment.payload.length + 1 = 64 := by
        rw [← Mtu.tryFrom_isSome, Option.isSome_iff_ne_none]
        simpa using hmtu
      have hfit : u32TryFrom segment.payload.length = some segment.payload.length :=
        if_pos (by omega)
      simp [PayloadAccumulator.append, PayloadAccumulator.default, hfit] at hnone
    · rename_i hacc
      cases h
      exact absorbs_started hsot htoggle heot (Bool.eq_false_iff.mpr hmtu)
        (PayloadAccumulator.append_again hacc)

/-- **A frame is absorbed by the phase it leads to.** -/
theorem push_absorbs (h : p.push timeout buffer tail segment = .ok (t, p', buffer')) :
    p'.Absorbs timeout buffer' tail segment := by
  unfold push at h
  dsimp only at h
  split at h
  · rename_i hdup
    cases h
    unfold Absorbs push
    rw [if_pos hdup]
  split at h
  · rename_i hsot
    split at h
    · rename_i htoggle
      split at h
      · rw [single] at h
        obtain ⟨length, -, hret⟩ := bind_eq_ok.mp h
        cases hret
        refine absorbs_assembled ?_
        simp only [isCurrent, decide_true, Bool.true_and, decide_eq_true_eq]
        exact Instant.le_saturatingAdd.mpr (Nat.le_add_right _ _)
      · rename_i heot
        exact start_absorbs hsot htoggle (Bool.eq_false_iff.mpr heot) (Except.ok.inj h)
    · rename_i htoggle
      cases h
      exact absorbs_stop fun _ h' ↦ absurd h' htoggle
  · rename_i hsot
    have hsot' := Bool.eq_false_iff.mpr hsot
    split at h
    · rename_i hcurrent
      obtain ⟨htid, hts⟩ := Bool.and_eq_true_iff.mp hcurrent
      obtain rfl := of_decide_eq_true htid
      exact proceed_absorbs hsot' hts (Except.ok.inj h)
    · cases h
      exact absorbs_stop fun h' ↦ absurd h' hsot

/-- Only a frame of `2 ^ 32` bytes could make the code panic. -/
theorem push_ok (p : Phase PayloadAccumulator) (timeout : Duration) (buffer : List Byte)
    (tail : TailByte) (segment : Segment) (hlen : segment.payload.length < 2 ^ 32) :
    ∃ o, p.push timeout buffer tail segment = .ok o := by
  unfold push
  dsimp only
  split
  · exact ⟨_, rfl⟩
  split
  · split
    · split
      · rw [single, u32TryFrom, if_pos hlen]
        exact ⟨_, rfl⟩
      · exact ⟨_, rfl⟩
    · exact ⟨_, rfl⟩
  · split <;> exact ⟨_, rfl⟩

end Phase

namespace Gather

/-- **Receiving a frame twice is the same as receiving it once**: the second time nothing is
returned, and the state and the buffer stay as they are. -/
theorem pushFrame_twice {g : Gather} (hg : g.Reachable) (timeout : Duration) (buffer : List Byte)
    (priority : Priority) (data : List Byte) (timestamp : Instant) :
    (∀ t g' buffer', g.pushFrame timeout buffer priority data timestamp = .ok (t, g', buffer') →
      g'.pushFrame timeout buffer' priority data timestamp = .ok (none, g', buffer')) ∧
    (data.length ≤ 2 ^ 32 →
      ∃ o, g.pushFrame timeout buffer priority data timestamp = .ok o) := by
  obtain ⟨p, rfl⟩ := hg.eq_toGather
  rw [Phase.pushFrame_toGather, Phase.pushData]
  cases hdata : splitLast data with
  | none =>
    refine ⟨fun t g' buffer' h ↦ ?_, fun _ ↦ ⟨_, rfl⟩⟩
    cases h
    rw [Phase.pushFrame_toGather, Phase.pushData, hdata]
    rfl
  | some r =>
    obtain ⟨tailByte, payload⟩ := r
    refine ⟨fun t g' buffer' h ↦ ?_, fun hlen ↦ ?_⟩
    · obtain ⟨⟨t₁, p₁, buffer₁⟩, hpush, hlift⟩ := map_eq_ok.mp h
      cases hlift
      have habsorbs := Phase.push_absorbs hpush
      rw [Phase.pushFrame_toGather, Phase.pushData, hdata]
      exact congrArg (Except.map Phase.liftOutcome) habsorbs
    · have hpayload : payload.length < 2 ^ 32 := by
        rw [eq_concat_of_splitLast hdata, List.length_append, List.length_singleton] at hlen
        omega
      obtain ⟨o, hpush⟩ := p.push_ok timeout buffer ⟨tailByte⟩
        ⟨TailByte.transferId ⟨tailByte⟩, priority, payload, timestamp⟩ hpayload
      exact ⟨_, congrArg (Except.map Phase.liftOutcome) hpush⟩

/-- A start of transfer that comes twice. -/
theorem pushFrame_twice_start : ∃ g buffer,
    default.pushFrame 1000 [0, 0, 0] .nominal [1, 2, 3, 4, 5, 6, 7, 0xa3] 100 =
      .ok (none, g, buffer) ∧
    g.pushFrame 1000 buffer .nominal [1, 2, 3, 4, 5, 6, 7, 0xa3] 100 =
      .ok (none, g, buffer) := by
  have htwice := (pushFrame_twice .default 1000 [0, 0, 0] .nominal
    [1, 2, 3, 4, 5, 6, 7, 0xa3] 100).1
  exact ⟨_, _, rfl, htwice _ _ _ rfl⟩

/-! ## Frames of a bad size -/

/-- A reassembly is in progress. -/
def IsAccumulating (g : Gather) : Prop :=
  g.state = .accumulatedFirst ∨ g.state = .accumulatedOdd ∨ g.state = .accumulatedEven

instance (g : Gather) : Decidable g.IsAccumulating := inferInstanceAs (Decidable (_ ∨ _ ∨ _))

/-- A frame, given by its tail byte and its time, that does not start a transfer and comes within
the timeout, and whose toggle bit is that of the last frame of at least two that were
accumulated. -/
def RepeatsToggle (g : Gather) (timeout : Duration) (tail : TailByte) (timestamp : Instant) :
    Prop :=
  tail.sot = false ∧
    (g.state = .accumulatedOdd ∧ tail.toggle = !SOT_TOGGLE_BIT ∨
      g.state = .accumulatedEven ∧ tail.toggle = SOT_TOGGLE_BIT) ∧
    ∀ sof ∈ g.sofTimestamp, timestamp ≤ Instant.saturatingAdd sof timeout

instance (g : Gather) (timeout : Duration) (tail : TailByte) (timestamp : Instant) :
    Decidable (g.RepeatsToggle timeout tail timestamp) := inferInstanceAs (Decidable (_ ∧ _ ∧ _))

/-- A call of `pushFrame`, with all of its arguments. -/
structure Push where
  timeout : Duration
  buffer : List Byte
  call : Call

/-- A call of `pushFrame` as a step on the `Gather` alone. -/
def pushStep (g : Gather) (push : Push) : Exec (Gather × Option Transfer) := do
  let r ← g.pushFrame push.timeout push.buffer push.call.priority push.call.data
    push.call.timestamp
  return (r.2.1, r.1)

/-- The frame does not start a transfer. -/
def Push.NonSot (push : Push) : Prop := ∀ tail ∈ push.call.tail?, tail.sot = false

instance (push : Push) : Decidable push.NonSot :=
  inferInstanceAs (Decidable (∀ tail ∈ push.call.tail?, _))

end Gather

namespace Phase

variable {p p' : Phase PayloadAccumulator} {timeout : Duration} {buffer : List Byte}
  {tail : TailByte} {segment : Segment}

def isRunning : Phase PayloadAccumulator → Bool
  | running _ _ _ _ => true
  | _ => false

theorem isAccumulating_toGather (p : Phase PayloadAccumulator) :
    p.toGather.IsAccumulating ↔ p.isRunning = true := by
  cases p with
  | running progress => cases progress <;> simp [toGather, Gather.IsAccumulating, isRunning]
  | _ => simp [toGather, Gather.IsAccumulating, isRunning]

@[simp] theorem isRunning_stop (p : Phase PayloadAccumulator) : p.stop.isRunning = false := by
  cases p <;> rfl

/-- Without a start of transfer nothing begins. -/
theorem push_of_not_running (hp : p.isRunning = false) (hsot : tail.sot = false) :
    ∃ p', p.push timeout buffer tail segment = .ok (none, p', buffer) ∧ p'.isRunning = false := by
  unfold push
  dsimp only
  split
  · exact ⟨p, rfl, hp⟩
  rw [if_neg (Bool.eq_false_iff.mp hsot)]
  split
  · cases hp
  · exact ⟨_, rfl, isRunning_stop _⟩

/-- A frame of a bad size that does not end the running transfer. -/
theorem push_bad_size {progress : Progress} {sof : Instant} {acc : PayloadAccumulator}
    (heot : tail.eot = false) (hmtu : (Mtu.tryFrom (segment.payload.length + 1)).isNone = true) :
    ∃ p', (running progress sof segment.transferId acc).push timeout buffer tail segment =
        .ok (none, p', buffer) ∧
      (p'.isRunning = true ↔ tail.sot = false ∧ (progress ≠ .first ∧
        tail.toggle ≠ progress.expected) ∧
        segment.timestamp ≤ Instant.saturatingAdd sof timeout) := by
  unfold push
  simp only [isAssembled, Bool.false_and, Bool.false_eq_true, if_false, isCurrent, decide_true,
    Bool.true_and, heot, start, hmtu, if_true]
  split
  · rename_i hsot
    refine ⟨_, ite_self _, ?_⟩
    simp [hsot]
  · rename_i hsot
    by_cases hts : segment.timestamp ≤ Instant.saturatingAdd sof timeout
    · simp only [hts, decide_true, proceed, heot, extend, hmtu, if_true, Bool.false_eq_true,
        if_false, or_false, hsot, true_and, and_true]
      split
      · rename_i htoggle
        exact ⟨_, rfl, by simp [isRunning, htoggle]⟩
      · rename_i htoggle
        split
        · rename_i hprogress
          exact ⟨_, rfl, by simp [isRunning, hprogress]⟩
        · rename_i hprogress
          exact ⟨_, rfl, by simp [isRunning, hprogress, htoggle]⟩
    · simp only [hts, decide_false]
      exact ⟨_, rfl, by simp⟩

/-- The frames after that find nothing to continue. -/
theorem run_of_not_running (hp : p.isRunning = false) {pushes : List Gather.Push}
    (hsot : ∀ push ∈ pushes, push.NonSot) :
    ∃ p' : Phase PayloadAccumulator, run Gather.pushStep p.toGather pushes =
        .ok (p'.toGather, pushes.map fun _ ↦ none) ∧ p'.isRunning = false := by
  induction pushes generalizing p with
  | nil => exact ⟨p, rfl, hp⟩
  | cons push pushes ih =>
    have hstep : ∃ p₁ : Phase PayloadAccumulator,
        Gather.pushStep p.toGather push = .ok (p₁.toGather, none) ∧ p₁.isRunning = false := by
      rw [Gather.pushStep, pushFrame_toGather, pushData]
      cases hdata : splitLast push.call.data with
      | none => exact ⟨p, rfl, hp⟩
      | some r =>
        obtain ⟨tailByte, payload⟩ := r
        have htail : push.call.tail? = some ⟨tailByte⟩ := by
          rw [Call.tail?, eq_concat_of_splitLast hdata, List.getLast?_concat, Option.map_some]
        obtain ⟨p₁, hpush, hp₁⟩ := @push_of_not_running p push.timeout push.buffer ⟨tailByte⟩
          ⟨TailByte.transferId ⟨tailByte⟩, push.call.priority, payload, push.call.timestamp⟩ hp
          (hsot push List.mem_cons_self ⟨tailByte⟩ htail)
        refine ⟨p₁, ?_, hp₁⟩
        simp only [hpush]
        rfl
    obtain ⟨p₁, hpush, hp₁⟩ := hstep
    obtain ⟨p', hrun, hp'⟩ := ih hp₁ fun push' h ↦ hsot push' (List.mem_cons_of_mem push h)
    exact ⟨p', run_cons_eq_ok.mpr ⟨_, _, _, hpush, hrun, rfl⟩, hp'⟩

end Phase

namespace Gather

/-- The toggle bit of the last frame, in the phase. -/
theorem repeatsToggle_toGather {progress : Progress} {sof : Instant} {tid : TransferId}
    {acc : PayloadAccumulator} {timeout : Duration} {tail : TailByte} {timestamp : Instant} :
    (Phase.running progress sof tid acc).toGather.RepeatsToggle timeout tail timestamp ↔
      tail.sot = false ∧ (progress ≠ .first ∧ tail.toggle ≠ progress.expected) ∧
        timestamp ≤ Instant.saturatingAdd sof timeout := by
  cases progress <;> simp [RepeatsToggle, Phase.toGather, Progress.expected, Bool.eq_not]

/-- **A badly sized frame in the middle of a transfer aborts its reassembly if it does not repeat
the toggle bit.**  Then no frame but a start of transfer leads to a transfer afterwards. -/
theorem aborts_iff {g : Gather} (hg : g.Reachable) {tid : TransferId} (hacc : g.IsAccumulating)
    (htid : g.transferId = some tid) (timeout : Duration) (buffer : List Byte)
    (priority : Priority) (payload : List Byte) {tail : TailByte} (timestamp : Instant)
    (heot : tail.eot = false) (htail : tail.transferId = tid)
    (hlen : payload.length + 1 ≠ 8 ∧ payload.length + 1 ≠ 64) :
    ∃ g', g.pushFrame timeout buffer priority (payload ++ [tail.val]) timestamp =
        .ok (none, g', buffer) ∧
      ((¬ g'.IsAccumulating ∧ ∀ pushes : List Push, (∀ push ∈ pushes, push.NonSot) →
        ∃ g'', run pushStep g' pushes = .ok (g'', pushes.map fun _ ↦ none)) ↔
      ¬ g.RepeatsToggle timeout tail timestamp) := by
  obtain ⟨p, rfl⟩ := hg.eq_toGather
  have hmtu : (Mtu.tryFrom (payload.length + 1)).isNone = true := by
    rw [← Option.not_isSome, Bool.not_eq_true', Bool.eq_false_iff, ne_eq, Mtu.tryFrom_isSome]
    exact not_or.mpr hlen
  cases p with
  | running progress sof tid' acc =>
    obtain rfl : tid' = tail.transferId := by
      rw [htail]
      cases progress <;> exact Option.some.inj htid
    obtain ⟨p', hpush, hp'⟩ := @Phase.push_bad_size timeout buffer tail
      ⟨tail.transferId, priority, payload, timestamp⟩ progress sof acc heot hmtu
    refine ⟨p'.toGather, ?_, ?_⟩
    · rw [Phase.pushFrame_toGather, Phase.pushData, splitLast_concat]
      exact congrArg (Except.map Phase.liftOutcome) hpush
    · rw [Phase.isAccumulating_toGather, repeatsToggle_toGather, hp']
      refine ⟨fun h ↦ h.1, fun h ↦ ⟨h, fun pushes hsot ↦ ?_⟩⟩
      have hstopped : p'.isRunning = false := Bool.eq_false_iff.mpr fun h' ↦ h (hp'.mp h')
      obtain ⟨p'', hrun, -⟩ := Phase.run_of_not_running hstopped hsot
      exact ⟨p''.toGather, hrun⟩
  | _ => exact absurd ((Phase.isAccumulating_toGather _).mp hacc) Bool.false_ne_true

/-- The first two frames of a transfer of three frames. -/
def halfway : Gather :=
  ⟨.accumulatedOdd, some 100, some 3,
    ⟨14, TransferCrc.default.addBytes [1, 2, 3, 4, 5, 6, 7, 8, 9, 10, 11, 12, 13, 14]⟩⟩

theorem reachable_halfway : halfway.Reachable := by
  let started : Gather := ⟨.accumulatedFirst, some 100, some 3,
    ⟨7, TransferCrc.default.addBytes [1, 2, 3, 4, 5, 6, 7]⟩⟩
  have hfirst : default.pushFrame 1000 [] .nominal [1, 2, 3, 4, 5, 6, 7, 0xa3] 100 =
      .ok (none, started, []) := by decide +kernel
  have hsecond : started.pushFrame 1000 [] .nominal [8, 9, 10, 11, 12, 13, 14, 0x03] 200 =
      .ok (none, halfway, []) := by decide +kernel
  exact .push (.push .default hfirst) hsecond

/-- A frame of four bytes after it, with the next toggle bit. -/
theorem aborts_iff_new_toggle : ∃ g', halfway.pushFrame 1000 [0] .nominal [1, 2, 3, 0x23] 300 =
    .ok (none, g', [0]) ∧ ¬ g'.IsAccumulating := by
  obtain ⟨g', hpush, hiff⟩ := @aborts_iff halfway reachable_halfway 3 (by decide) rfl 1000 [0]
    .nominal [1, 2, 3] ⟨0x23⟩ 300 (by decide) (by decide) (by decide)
  exact ⟨g', hpush, (hiff.mpr (by decide)).1⟩

/-- With the toggle bit of the frame before it is skipped, and the transfer is completed. -/
theorem repeated_toggle_not_aborted : halfway.Reachable ∧ halfway.IsAccumulating ∧
    halfway.transferId = some 3 ∧
    halfway.pushFrame 1000 [0] .nominal [1, 2, 3, 0x03] 300 = .ok (none, halfway, [0]) ∧
    halfway.pushFrame 1000 [0] .nominal [0x32, 0xf8, 0x63] 400 =
      .ok (some ⟨3, .nominal, 100, 14⟩, ⟨.assembled, some 100, some 3, .default⟩, [0]) :=
  ⟨reachable_halfway, by decide, rfl, by decide +kernel, by decide +kernel⟩

end Gather

end Emcyphal
