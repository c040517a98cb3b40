import Emcyphal.Rx.Fifo
import Emcyphal.Rx.Newest

/-!
# The frames that panic

Both receive buffers can be built without any slot for a session.  A frame that needs one then makes
them panic: `try_start_new_session` finds all buffers handed out, and looks for the session to evict
in a queue that is empty.  No other frame panics, whatever was received before.
-/

set_option autoImplicit false

namespace Emcyphal

open Rust SessionTable

variable {SN TN capacity : ℕ}

namespace RxPriorityFifoInner

theorem pushFrame_ok_iff {r : RxPriorityFifoInner SN TN} {l : List Tracked}
    {b : Backlog Priority TransferEntry} (hSN : SN ≤ IndexQueue.NO_ENTRY) (hTN : 1 ≤ TN)
    (h : r.Represents capacity l b) (frame : Frame) :
    (∃ r', r.pushFrame frame = .ok r') ↔ 1 ≤ SN ∨ ¬ NeedsSession r.dataSpecifier frame := by
  refine ⟨fun ⟨r', hr'⟩ ↦ ?_, fun hop ↦ ?_⟩
  · rcases Nat.eq_zero_or_pos SN with rfl | hpos
    · refine .inr fun hneeds ↦ ?_
      cases hr'.symm.trans (pushFrame_panics h hneeds)
    · exact .inl hpos
  · obtain ⟨r', _, _, _, -, hpush, -⟩ := pushFrame_represents hSN hTN h frame hop
    exact ⟨r', hpush⟩

end RxPriorityFifoInner

namespace Watch.Inner

theorem pushFrame_ok_iff {w : Inner SN} {l : List Tracked} {n : Newest Item}
    (hSN : SN ≤ IndexQueue.NO_ENTRY) (h : w.Represents capacity l n) (frame : Frame) :
    (∃ w', w.pushFrame frame = .ok w') ↔ 1 ≤ SN ∨ ¬ NeedsSession w.dataSpecifier frame := by
  refine ⟨fun ⟨w', hw'⟩ ↦ ?_, fun hop ↦ ?_⟩
  · rcases Nat.eq_zero_or_pos SN with rfl | hpos
    · refine .inr fun hneeds ↦ ?_
      cases hw'.symm.trans (pushFrame_panics h hneeds)
    · exact .inl hpos
  · obtain ⟨w', _, _, -, hpush, -⟩ := pushFrame_represents hSN h frame hop
    exact ⟨w', hpush⟩

end Watch.Inner

/-- **Exactly which frames panic.**  A run from a new buffer completes if and only if there are
slots for sessions or none of its frames needs one, and in every state that a run leads to the same
decides for one more frame. -/
theorem frames_complete_iff {SN' capacity' : ℕ} {fifoBuffers watchBuffers : List (List Byte)}
    (hf : RxPriorityFifoInner.Sized SN TN capacity fifoBuffers)
    (hw : Watch.Inner.Sized SN' capacity' watchBuffers) (dataSpecifier : DataSpecifier)
    (timeout : Duration) (ops : List Op) (frame : Frame) :
    (∃ r₀, RxPriorityFifoInner.new SN TN dataSpecifier timeout fifoBuffers = .ok r₀ ∧
      ((∃ r events, run RxPriorityFifoInner.step r₀ ops = .ok (r, events)) ↔
        ∀ op ∈ ops, 1 ≤ SN ∨ ¬ op.NeedsSession dataSpecifier) ∧
      ∀ r events, run RxPriorityFifoInner.step r₀ ops = .ok (r, events) →
        ((∃ r', r.pushFrame frame = .ok r') ↔ 1 ≤ SN ∨ ¬ NeedsSession dataSpecifier frame)) ∧
    ∃ w₀, Watch.Inner.new SN' dataSpecifier timeout watchBuffers = .ok w₀ ∧
      ((∃ w events, run Watch.Inner.step w₀ ops = .ok (w, events)) ↔
        ∀ op ∈ ops, 1 ≤ SN' ∨ ¬ op.NeedsSession dataSpecifier) ∧
      ∀ w events, run Watch.Inner.step w₀ ops = .ok (w, events) →
        ((∃ w', w.pushFrame frame = .ok w') ↔ 1 ≤ SN' ∨ ¬ NeedsSession dataSpecifier frame) := by
  obtain ⟨r₀, hnewf, hr₀⟩ := hf.new_reaches dataSpecifier timeout
  obtain ⟨w₀, hneww, hw₀⟩ := hw.new_reaches dataSpecifier timeout
  refine ⟨⟨r₀, hnewf, RxPriorityFifoInner.run_ok_iff hf ⟨_, _, _, hr₀⟩, fun r events hrun ↦ ?_⟩,
    w₀, hneww, Watch.Inner.run_ok_iff hw ⟨_, _, hw₀⟩, fun w events hrun ↦ ?_⟩
  · obtain ⟨l, b, hr⟩ := RxPriorityFifoInner.reaches_of_run hf hnewf hrun
    rw [← hr.dataSpecifier]
    exact RxPriorityFifoInner.pushFrame_ok_iff hf.le_noEntry hf.transfers.1 hr.represents frame
  · obtain ⟨⟨l, hw'⟩, -⟩ := Watch.Inner.reaches_of_run hw hneww hrun
    rw [← hw'.dataSpecifier]
    exact Watch.Inner.pushFrame_ok_iff hw.le_noEntry hw'.represents frame

theorem frames_complete_iff_one_session :
    (∃ r₀, RxPriorityFifoInner.new 1 1 (.message subject0) 2000 [[0], [0], [0]] = .ok r₀ ∧
      ∃ r events, run RxPriorityFifoInner.step r₀ [.pushFrame (singleFrame 1)] = .ok (r, events)) ∧
    ∃ w₀, Watch.Inner.new 1 (.message subject0) 2000 [[0], [0], [0]] = .ok w₀ ∧
      ∃ w events, run Watch.Inner.step w₀ [.pushFrame (singleFrame 1)] = .ok (w, events) := by
  obtain ⟨⟨r₀, hnewf, hifff, -⟩, w₀, hneww, hiffw, -⟩ := frames_complete_iff
    (⟨by decide, by decide, rfl, by decide⟩ : RxPriorityFifoInner.Sized 1 1 1 [[0], [0], [0]])
    (⟨by decide, rfl, by decide⟩ : Watch.Inner.Sized 1 1 [[0], [0], [0]])
    (.message subject0) 2000 [.pushFrame (singleFrame 1)] (singleFrame 1)
  exact ⟨⟨r₀, hnewf, hifff.mpr fun op hop ↦ .inl le_rfl⟩,
    w₀, hneww, hiffw.mpr fun op hop ↦ .inl le_rfl⟩

/-- Without a slot for a session, which both constructors allow, a new buffer panics. -/
theorem singleFrame_panics :
    RxPriorityFifoInner.Sized 0 1 1 [[0], [0]] ∧ Watch.Inner.Sized 0 1 [[0], [0]] ∧
    (∃ r₀, RxPriorityFifoInner.new 0 1 (.message subject0) 2000 [[0], [0]] = .ok r₀ ∧
      r₀.pushFrame (singleFrame 1) = .error .unwrap) ∧
    ∃ w₀, Watch.Inner.new 0 (.message subject0) 2000 [[0], [0]] = .ok w₀ ∧
      w₀.pushFrame (singleFrame 1) = .error .unwrap :=
  ⟨⟨by decide, by decide, rfl, by decide⟩, ⟨by decide, rfl, by decide⟩, ⟨_, rfl, rfl⟩, _, rfl, rfl⟩

end Emcyphal
