import Emcyphal.Rx.Wakeup
import Emcyphal.Tx.Buffer.Wakeup

/-!
# Endpoints are woken

A publisher waits at a transmit buffer, a subscriber at a receive buffer, and a responder at one of
each.  What was shown of the buffers is collected here for all of them, from their construction on.
-/

set_option autoImplicit false

namespace Emcyphal

open Rust

/-- **Endpoints never miss a wake-up**, whichever buffer they wait at. -/
theorem wakeups_not_missed :
    (∀ init : TxBuffer.Init, init.Fits → ∃ b, TxBuffer.new init = .ok b ∧
      NoMissedWakeup TxBuffer.step TxBuffer.wakers TxBuffer.Valid TxBuffer.pushPoll
        TxBuffer.Accepts b ∧
      NoMissedWakeup TxBuffer.step TxBuffer.wakers TxBuffer.Valid TxBuffer.emptyPoll
        (fun _ b ↦ b.isEmpty = true) b) ∧
    (∀ (SN TN capacity : ℕ) (buffers : List (List Byte)) (dataSpecifier : DataSpecifier)
        (timeout : Duration), RxPriorityFifoInner.Sized SN TN capacity buffers →
      ∃ r, RxPriorityFifoInner.new SN TN dataSpecifier timeout buffers = .ok r ∧
        NoMissedWakeup RxPriorityFifoInner.step (fun r ↦ [r.priorityTrigger.waker])
          (fun _ op ↦ 1 ≤ SN ∨ ¬ op.NeedsSession dataSpecifier) readyPoll
          (fun mask r ↦ (r.popReadiness &&& mask).isEmpty = false) r) ∧
    (∀ (SN capacity : ℕ) (buffers : List (List Byte)) (dataSpecifier : DataSpecifier)
        (timeout : Duration), Watch.Inner.Sized SN capacity buffers →
      ∃ r, Watch.Inner.new SN dataSpecifier timeout buffers = .ok r ∧
        NoMissedWakeup Watch.Inner.step (fun r ↦ [r.priorityTrigger.waker])
          (fun _ op ↦ 1 ≤ SN ∨ ¬ op.NeedsSession dataSpecifier) readyPoll
          (fun mask r ↦ (r.popReadiness &&& mask).isEmpty = false) r) := by
  refine ⟨?_, ?_, ?_⟩
  · intro init hfits
    obtain ⟨b, hnew, hb, -⟩ := TxBuffer.inv_new hfits
    exact ⟨b, hnew, TxBuffer.push_noMissedWakeup hb, TxBuffer.empty_noMissedWakeup hb⟩
  · intro SN TN capacity buffers dataSpecifier timeout hsized
    obtain ⟨r, hnew, hr⟩ := hsized.new_reaches dataSpecifier timeout
    exact ⟨r, hnew, RxPriorityFifoInner.noMissedWakeup hsized.le_noEntry hsized.transfers.1
      hr.represents hr.dataSpecifier⟩
  · intro SN capacity buffers dataSpecifier timeout hsized
    obtain ⟨r, hnew, hr⟩ := hsized.new_reaches dataSpecifier timeout
    exact ⟨r, hnew, Watch.Inner.noMissedWakeup hsized.le_noEntry hr.represents hr.dataSpecifier⟩

set_option maxRecDepth 2000 in
/-- A publisher waits for its buffer while a transfer of two frames is sent, and a subscriber for
a transfer of another priority than the one that comes. -/
theorem wakeups_not_missed_examples :
    (∃ b b' events, TxBuffer.new (.blocking SessionTable.subject0 .low (.replicate 12 0)) = .ok b ∧
      run (heard TxBuffer.step TxBuffer.wakers) b [.getScratchpad,
        .tryPush ⟨.low, none, 0, 100, false⟩ 12 .default, .pollPushReadiness 7 (.newEq .low),
        .tryPop (.newEq .low) .classic] = .ok (b', events) ∧
      ¬ b'.Accepts (.newEq .low)) ∧
    (∃ r r' events,
      RxPriorityFifoInner.new 1 1 (.message SessionTable.subject0) 2000 [[0], [0], [0]] = .ok r ∧
      run (heard RxPriorityFifoInner.step fun r ↦ [r.priorityTrigger.waker]) r
        [.pollPopReadiness 7 (.newEq .high), .pushFrame (SessionTable.singleFrame 1)] =
        .ok (r', events) ∧
      ¬ (r'.popReadiness &&& .newEq .high).isEmpty = false) ∧
    (∃ r r' events,
      Watch.Inner.new 1 (.message SessionTable.subject0) 2000 [[0], [0], [0]] = .ok r ∧
      run (heard Watch.Inner.step fun r ↦ [r.priorityTrigger.waker]) r
        [.pollPopReadiness 7 (.newEq .high), .pushFrame (SessionTable.singleFrame 1)] =
        .ok (r', events) ∧
      ¬ (r'.popReadiness &&& .newEq .high).isEmpty = false) := by
  obtain ⟨htx, hfifo, hwatch⟩ := wakeups_not_missed
  refine ⟨?_, ?_, ?_⟩
  · obtain ⟨b, hnew, hpush, -⟩ :=
      htx (.blocking SessionTable.subject0 .low (.replicate 12 0)) trivial
    have hnew' := hnew
    cases hnew
    obtain ⟨b', events, hrun, h⟩ := hpush [.getScratchpad,
      .tryPush ⟨.low, none, 0, 100, false⟩ 12 .default, .pollPushReadiness 7 (.newEq .low),
      .tryPop (.newEq .low) .classic] (by decide)
    have hrun' := hrun
    cases hrun
    exact ⟨_, _, _, hnew', hrun', h 7 (.newEq .low) rfl⟩
  · obtain ⟨r, hnew, hready⟩ := hfifo 1 1 1 [[0], [0], [0]] (.message SessionTable.subject0) 2000
      ⟨by decide, by decide, rfl, by decide⟩
    have hnew' := hnew
    cases hnew
    obtain ⟨r', events, hrun, h⟩ := hready
      [.pollPopReadiness 7 (.newEq .high), .pushFrame (SessionTable.singleFrame 1)]
      (.of_forall (fun _ _ ↦ .inl le_rfl) _ _)
    have hrun' := hrun
    cases hrun
    exact ⟨_, _, _, hnew', hrun', h 7 (.newEq .high) rfl⟩
  · obtain ⟨r, hnew, hready⟩ := hwatch 1 1 [[0], [0], [0]] (.message SessionTable.subject0) 2000
      ⟨by decide, rfl, by decide⟩
    have hnew' := hnew
    cases hnew
    obtain ⟨r', events, hrun, h⟩ := hready
      [.pollPopReadiness 7 (.newEq .high), .pushFrame (SessionTable.singleFrame 1)]
      (.of_forall (fun _ _ ↦ .inl le_rfl) _ _)
    have hrun' := hrun
    cases hrun
    exact ⟨_, _, _, hnew', hrun', h 7 (.newEq .high) rfl⟩

end Emcyphal
