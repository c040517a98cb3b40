import Emcyphal.Lib.Wakeup
import Emcyphal.Trigger
import Emcyphal.Tx.Node

/-!
# The transmit task is woken

The task that feeds the driver polls the node for frames of some priorities.  When the poll is
pending, its waker is registered with both registries, and the task sleeps until one of them wakes
it.  A registry only does so when an entry is put into another list, and only if the task waits for
the priority of that list.

That this is enough is an invariant of each queue (`Quiet`): as long as a waker is registered,
nothing is queued at a priority that it waits for.  `Alerts` is what all changes of a queue have in
common: what becomes queued wakes whoever waits for it.
-/

set_option autoImplicit false

namespace Emcyphal

open Rust TxQueue

namespace TxQueue

/-- What becomes queued wakes whoever waits for it. -/
structure Alerts (r r' : TxQueue) : Prop where
  filter : r'.nonEmptyTrigger.filter = r.nonEmptyTrigger.filter
  waker : ∀ w, r'.nonEmptyTrigger.waker = some w → r.nonEmptyTrigger.waker = some w
  queued : ∀ p, r'.nonEmptyTrigger.waker ≠ none → r.nonEmptyTrigger.filter.contains p = true →
    r'.Queued p → r.Queued p

/-- Nothing is queued that the registered waker waits for. -/
def Quiet (r : TxQueue) : Prop :=
  r.nonEmptyTrigger.waker ≠ none → ∀ p, r.nonEmptyTrigger.filter.contains p = true → ¬ r.Queued p

variable {r r' r'' : TxQueue} {a : Address} {e : Entry}

theorem Alerts.trans (h : r.Alerts r') (h' : r'.Alerts r'') : r.Alerts r'' where
  filter := h'.filter.trans h.filter
  waker w hw := h.waker w (h'.waker w hw)
  queued p hw hp hqueued := by
    obtain ⟨w, hw'⟩ := Option.ne_none_iff_exists'.mp hw
    have hqueued' := h'.queued p hw (by rwa [h.filter]) hqueued
    exact h.queued p (by rw [h'.waker w hw']; simp) hp hqueued'

theorem Alerts.of_queued (htrigger : r'.nonEmptyTrigger = r.nonEmptyTrigger)
    (hqueued : ∀ p, r'.Queued p → r.Queued p) : r.Alerts r' where
  filter := congrArg PriorityTrigger.filter htrigger
  waker _ hw := htrigger ▸ hw
  queued p _ _ h := hqueued p h

theorem Quiet.of_alerts (hquiet : r.Quiet) (h : r.Alerts r') : r'.Quiet := by
  intro hw p hp hqueued
  obtain ⟨w, hw'⟩ := Option.ne_none_iff_exists'.mp hw
  rw [h.filter] at hp
  exact hquiet (by rw [h.waker w hw']; simp) p hp (h.queued p hw hp hqueued)

/-- A queue with the same lists, up to those that became shorter. -/
theorem queued_of_getQueue (h : ∀ id, r'.queues.getQueue id ⊆ r.queues.getQueue id) (p : Priority)
    (hqueued : r'.Queued p) : r.Queued p := by
  have hne : ∀ id, r'.queues.getQueue id ≠ [] → r.queues.getQueue id ≠ [] := fun id hid hnil ↦
    hid (List.eq_nil_of_subset_nil (hnil ▸ h id))
  exact hqueued.imp (hne (p, .started)) (hne (p, .finished))

theorem Queues.remove_subset {q q' : Queues} {id : QueueId} (h : q.remove id a = .ok q')
    (k : QueueId) : q'.getQueue k ⊆ q.getQueue k := by
  obtain ⟨-, -, h⟩ := bind_eq_ok.mp h
  have hqueue : q'.getQueue = Function.update q.getQueue id ((q.getQueue id).erase a) := by
    cases h
    split
    · rw [getQueue_setEmptyFlag, getQueue_setQueue]
    · rw [getQueue_setQueue]
  rw [hqueue]
  by_cases hk : k = id
  · subst hk
    rw [Function.update_self]
    exact List.erase_subset
  · rw [Function.update_of_ne hk]
    exact List.Subset.refl _

theorem nonEmptyTrigger_dequeue (h : r.dequeue a = .ok r') :
    r'.nonEmptyTrigger = r.nonEmptyTrigger := by
  obtain ⟨e, -, h⟩ := bind_eq_ok.mp h
  dsimp only at h
  split at h
  · cases h
    rfl
  · obtain ⟨queues, -, h⟩ := bind_eq_ok.mp h
    cases h
    rfl

theorem queued_dequeue (h : r.dequeue a = .ok r') {p : Priority} (hqueued : r'.Queued p) :
    r.Queued p := by
  obtain ⟨e, -, h⟩ := bind_eq_ok.mp h
  dsimp only at h
  split at h
  · cases h
    exact hqueued
  · obtain ⟨queues, hremove, h⟩ := bind_eq_ok.mp h
    cases h
    exact queued_of_getQueue (Queues.remove_subset hremove) p hqueued

theorem alerts_dequeue (h : r.dequeue a = .ok r') : r.Alerts r' :=
  .of_queued (nonEmptyTrigger_dequeue h) fun _ ↦ queued_dequeue h

theorem nonEmptyTrigger_moveBack {id : QueueId} (h : r.moveBack id a = .ok r') :
    r'.nonEmptyTrigger = r.nonEmptyTrigger := by
  obtain ⟨r₁, hdequeue, h⟩ := bind_eq_ok.mp h
  obtain ⟨e, -, h⟩ := bind_eq_ok.mp h
  cases h
  show r₁.nonEmptyTrigger = r.nonEmptyTrigger
  exact nonEmptyTrigger_dequeue hdequeue

/-- Something may become queued at one priority only. -/
theorem queued_moveBack {id : QueueId} (h : r.moveBack id a = .ok r') {p : Priority}
    (hp : p ≠ id.1) (hqueued : r'.Queued p) : r.Queued p := by
  obtain ⟨r₁, hdequeue, h⟩ := bind_eq_ok.mp h
  obtain ⟨e, -, h⟩ := bind_eq_ok.mp h
  cases h
  refine queued_dequeue hdequeue ?_
  have hqueue : (r₁.queues.pushBack id a).getQueue =
      Function.update r₁.queues.getQueue id (r₁.queues.getQueue id ++ [a]) := by
    rw [Queues.pushBack, Queues.getQueue_clearEmptyFlag, Queues.getQueue_setQueue]
  have hother : ∀ k, (r₁.queues.pushBack id a).getQueue (p, k) = r₁.queues.getQueue (p, k) := by
    intro k
    rw [hqueue, Function.update_of_ne]
    rintro rfl
    exact hp rfl
  refine hqueued.imp (fun hne ↦ ?_) (fun hne ↦ ?_)
  · rw [← show _ = r₁.queues.started p from hother .started]
    exact hne
  · rw [← show _ = r₁.queues.finished p from hother .finished]
    exact hne

/-- An entry that is put into another list wakes whoever waits for the priority of that list. -/
theorem alerts_regUpdateQueuePosition (h : r.regUpdateQueuePosition a = .ok r') : r.Alerts r' := by
  obtain ⟨e, -, h⟩ := bind_eq_ok.mp h
  dsimp only at h
  split at h
  · rename_i priority hfirst
    generalize hid : (if e.started.contains priority then (priority, QueueType.started)
      else (priority, .finished)) = id at h
    have hpriority : id.1 = priority := by
      rw [← hid]
      split <;> rfl
    split at h
    · obtain ⟨r₁, hmove, h⟩ := bind_eq_ok.mp h
      cases h
      have htrigger := nonEmptyTrigger_moveBack hmove
      refine ⟨?_, fun w hw ↦ ?_, fun p hw hp hqueued ↦ ?_⟩
      · rw [PriorityTrigger.filter_wake, htrigger]
      · rw [← htrigger]
        exact PriorityTrigger.waker_of_wake hw
      · refine queued_moveBack hmove ?_ hqueued
        rw [hpriority]
        rintro rfl
        exact hw (PriorityTrigger.wake_newEq (by rwa [htrigger]))
    · cases h
      exact .of_queued rfl fun _ hqueued ↦ hqueued
  · exact alerts_dequeue h

theorem alerts_setEntry (r : TxQueue) (a : Address) (e : Entry) : r.Alerts (r.setEntry a e) :=
  .of_queued rfl fun _ hqueued ↦ hqueued

theorem alerts_dropEntry (r : TxQueue) (a : Address) : r.Alerts (r.dropEntry a) :=
  .of_queued rfl fun _ hqueued ↦ hqueued

theorem Alerts.refl (r : TxQueue) : r.Alerts r := .of_queued rfl fun _ hqueued ↦ hqueued

theorem alerts_withBufferMut {α : Type} {f : TxBuffer → Exec (α × TxBuffer)} {res : α}
    (h : r.withBufferMut a f = .ok (res, r')) : r.Alerts r' := by
  obtain ⟨e, -, h⟩ := bind_eq_ok.mp h
  obtain ⟨⟨res', buffer⟩, -, h⟩ := bind_eq_ok.mp h
  cases h
  exact alerts_setEntry r a _

theorem alerts_tryPush {m : TransferMeta} {length : ℕ} {crc : TransferCrc}
    {res : Except BufferError Unit} (h : r.tryPush a m length crc = .ok (res, r')) :
    r.Alerts r' := by
  obtain ⟨⟨res', r₁⟩, hpush, h⟩ := bind_eq_ok.mp h
  dsimp only at h
  split at h
  · obtain ⟨r₂, hupdate, h⟩ := bind_eq_ok.mp h
    cases h
    exact (alerts_withBufferMut hpush).trans (alerts_regUpdateQueuePosition hupdate)
  · cases h
    exact alerts_withBufferMut hpush

theorem alerts_hubTryPop {mask : PrioritySet} {mtu : Mtu} {frame : Option Frame}
    (h : r.hubTryPop mask mtu = .ok (frame, r')) : r.Alerts r' := by
  rw [hubTryPop] at h
  split at h
  · cases h
    exact .refl r
  · rename_i priority queue hid
    obtain ⟨a, -, h⟩ := bind_eq_ok.mp h
    obtain ⟨e, -, h⟩ := bind_eq_ok.mp h
    obtain ⟨⟨res, buffer⟩, -, h⟩ := bind_eq_ok.mp h
    dsimp only at h
    split at h
    · obtain ⟨r₁, hupdate, h⟩ := bind_eq_ok.mp h
      cases h
      exact (alerts_setEntry r a _).trans (alerts_regUpdateQueuePosition hupdate)
    · rename_i frame'
      obtain ⟨-, -, h⟩ := bind_eq_ok.mp h
      obtain ⟨-, -, h⟩ := bind_eq_ok.mp h
      obtain ⟨eot, -, h⟩ := bind_eq_ok.mp h
      split at h
      · obtain ⟨r₁, hdequeue, h⟩ := bind_eq_ok.mp h
        obtain ⟨r₂, hupdate, h⟩ := bind_eq_ok.mp h
        cases h
        exact ((alerts_setEntry r a _).trans (alerts_dequeue hdequeue)).trans
          (alerts_regUpdateQueuePosition hupdate)
      · rw [pure_eq_ok, ok_bind] at h
        obtain ⟨r₁, hupdate, h⟩ := bind_eq_ok.mp h
        cases h
        exact (alerts_setEntry r a _).trans (alerts_regUpdateQueuePosition hupdate)

/-- A poll that is pending registers the waker, and there is nothing that it would have found. -/
theorem Quiet.pollPop (hq : r.Inv) (hquiet : r.Quiet) {waker : Waker} {mask : PrioritySet}
    {mtu : Mtu} {frame : Option Frame} (h : r.pollPop waker mask mtu = .ok (frame, r')) :
    r'.Quiet ∧ (frame = none → r'.nonEmptyTrigger =
      if mask.isEmpty then r.nonEmptyTrigger else ⟨some waker, mask⟩) := by
  have hcases := hq.pollPop waker mask mtu
  rw [h] at hcases
  rw [TxQueue.pollPop] at h
  split at h
  · rename_i hempty
    cases h
    exact ⟨hquiet, fun _ ↦ (if_pos hempty).symm⟩
  · rename_i hnonempty
    obtain ⟨⟨frame', r₁⟩, hpop, h⟩ := bind_eq_ok.mp h
    have halerts := alerts_hubTryPop hpop
    dsimp only at h
    split at h
    · cases h
      refine ⟨hquiet.of_alerts halerts, fun hnone ↦ ?_⟩
      cases hnone
    · cases h
      refine ⟨fun _ p hp hqueued ↦ ?_, fun _ ↦ (if_neg hnonempty).symm⟩
      rcases hcases with ⟨r₂, heq, -, -, hqueues, -, hnone⟩ | ⟨p', a, frame, eot, r₂, heq, -⟩
      · cases heq
        refine hnone p hp ?_
        rwa [Queued, ← hqueues]
      · cases heq

/-- A waker that is not woken stays registered. -/
theorem Alerts.trigger (h : r.Alerts r') {waker : Waker} {mask : PrioritySet}
    (htrigger : r.nonEmptyTrigger = ⟨some waker, mask⟩) (hwaker : r'.nonEmptyTrigger.waker ≠ none) :
    r'.nonEmptyTrigger = ⟨some waker, mask⟩ := by
  obtain ⟨waker', hwaker'⟩ := Option.ne_none_iff_exists'.mp hwaker
  have hsame := h.waker waker' hwaker'
  have hfilter := h.filter
  rw [htrigger] at hsame hfilter
  cases hsame
  change PriorityTrigger.mk r'.nonEmptyTrigger.waker r'.nonEmptyTrigger.filter = _
  rw [hwaker', hfilter]

end TxQueue

namespace Registry

variable {r r' : Registry} {op : Op} {event : Event}

theorem alerts_registerMessage {inner : TxMsg.Inner} {a : Address} {subject : SubjectId}
    {buffer : TxBuffer}
    (h : (inner.regRegister a subject buffer >>= fun x ↦
      pure (message x.2, Event.registered x.1) : Exec (Registry × Event)) = .ok (r', event)) :
    inner.queue.Alerts r'.queue := by
  obtain ⟨⟨res, inner'⟩, hregister, h⟩ := bind_eq_ok.mp h
  cases h
  rw [TxMsg.Inner.regRegister] at hregister
  split at hregister
  · cases hregister
    exact .refl _
  · obtain ⟨queue, hupdate, hregister⟩ := bind_eq_ok.mp hregister
    cases hregister
    exact (alerts_setEntry _ a _).trans (alerts_regUpdateQueuePosition hupdate)

theorem alerts_register {a : Address} {init : TxBuffer.Init}
    (h : r.register a init = .ok (r', event)) : r.queue.Alerts r'.queue := by
  obtain ⟨buffer, -, h⟩ := bind_eq_ok.mp h
  split at h
  · exact alerts_registerMessage h
  · exact alerts_registerMessage h
  · obtain ⟨⟨token, inner'⟩, hregister, h⟩ := bind_eq_ok.mp h
    obtain ⟨queue, hupdate, hregister⟩ := bind_eq_ok.mp hregister
    cases hregister
    cases h
    exact (alerts_setEntry _ a _).trans (alerts_regUpdateQueuePosition hupdate)
  · cases h
  · cases h

theorem alerts_unregister {a : Address} (h : r.unregister a = .ok r') :
    r.queue.Alerts r'.queue := by
  cases r with
  | message inner =>
    obtain ⟨inner', hunregister, h⟩ := map_eq_ok.mp h
    obtain ⟨⟨before, x, after⟩, -, hunregister⟩ := bind_eq_ok.mp hunregister
    obtain ⟨queue, hdequeue, hunregister⟩ := bind_eq_ok.mp hunregister
    cases hunregister
    cases h
    exact (alerts_dequeue hdequeue).trans (alerts_dropEntry queue a)
  | response inner =>
    obtain ⟨inner', hunregister, h⟩ := map_eq_ok.mp h
    obtain ⟨queue, hdequeue, hunregister⟩ := bind_eq_ok.mp hunregister
    cases hunregister
    cases h
    exact (alerts_dequeue hdequeue).trans (alerts_dropEntry queue a)

/-- The calls of the endpoints. -/
theorem alerts_step (hop : CoreNode.IsEndpoint op) (h : r.step op = .ok (r', event)) :
    r.queue.Alerts r'.queue := by
  cases op with
  | register address init => exact alerts_register h
  | unregister token =>
    obtain ⟨r₁, hunregister, h⟩ := bind_eq_ok.mp h
    cases h
    exact alerts_unregister hunregister
  | getScratchpad token =>
    obtain ⟨⟨res, queue⟩, hget, h⟩ := bind_eq_ok.mp h
    cases h
    rw [queue_setQueue]
    exact alerts_withBufferMut hget
  | writeScratchpad token bytes =>
    obtain ⟨⟨res, queue⟩, hwrite, h⟩ := bind_eq_ok.mp h
    cases h
    rw [queue_setQueue]
    exact alerts_withBufferMut hwrite
  | tryPush token m length crc =>
    obtain ⟨⟨res, queue⟩, hpush, h⟩ := bind_eq_ok.mp h
    cases h
    rw [queue_setQueue]
    exact alerts_tryPush hpush
  | pollPop => exact hop.elim

end Registry

namespace CoreNode

/-- The slots with the waker of the task. -/
def wakers (n : CoreNode) : List (Option Waker) :=
  [n.txMsg.queue.nonEmptyTrigger.waker, n.txResp.queue.nonEmptyTrigger.waker]

/-- The polls of the task.  A poll for no priorities registers nothing. -/
def transmitPoll : Op → Event → Option (Option (Waker × PrioritySet))
  | .pollPop waker mask _, .popped none => if mask.isEmpty then none else some (some (waker, mask))
  | .pollPop _ _ _, .popped (some _) => some none
  | _, _ => none

/-- Nothing is queued that a registered waker waits for. -/
structure Quiet (n : CoreNode) : Prop where
  txMsg : n.txMsg.queue.Quiet
  txResp : n.txResp.queue.Quiet

/-- The waker is registered with both registries. -/
structure Waits (waker : Waker) (mask : PrioritySet) (n : CoreNode) : Prop where
  txMsg : n.txMsg.queue.nonEmptyTrigger = ⟨some waker, mask⟩
  txResp : n.txResp.queue.nonEmptyTrigger = ⟨some waker, mask⟩

variable {n n' : CoreNode} {op : Op} {event : Event} {waker : Waker} {mask : PrioritySet}

/-- Whoever waits has nothing to fetch. -/
theorem Waits.not_reports (h : n.Waits waker mask) (hinv : n.Inv) (hquiet : n.Quiet)
    (p : Priority) :
    ¬ Reports n.txMsg.queue mask p ∧ ¬ Reports n.txResp.queue mask p := by
  constructor
  · rw [reports_iff hinv.txMsg.queue]
    rintro ⟨hp, hqueued⟩
    exact hquiet.txMsg (by rw [h.txMsg]; exact Option.some_ne_none _) p (by rwa [h.txMsg]) hqueued
  · rw [reports_iff hinv.txResp.queue]
    rintro ⟨hp, hqueued⟩
    exact hquiet.txResp (by rw [h.txResp]; exact Option.some_ne_none _) p (by rwa [h.txResp])
      hqueued

/-- A poll leaves whoever waits registered, if it is for no priorities. -/
theorem Quiet.pollPop (h : n.Quiet) (hinv : n.Inv) {mtu : Mtu} {frame : Option Frame}
    (hpop : n.pollPop waker mask mtu = .ok (frame, n')) : n'.Quiet ∧ (frame = none →
      if mask.isEmpty then ∀ w m, n.Waits w m → n'.Waits w m else n'.Waits waker mask) := by
  obtain ⟨⟨frame₁, q₁⟩, hpop₁, hpop⟩ := bind_eq_ok.mp hpop
  obtain ⟨hquiet₁, htrigger₁⟩ := h.txMsg.pollPop hinv.txMsg.queue hpop₁
  rw [← Registry.queue_setQueue n.txMsg q₁] at hquiet₁ htrigger₁
  dsimp only at hpop
  split at hpop
  · cases hpop
    exact ⟨⟨hquiet₁, h.txResp⟩, nofun⟩
  · obtain ⟨⟨frame₂, q₂⟩, hpop₂, hpop⟩ := bind_eq_ok.mp hpop
    obtain ⟨hquiet₂, htrigger₂⟩ := h.txResp.pollPop hinv.txResp.queue hpop₂
    rw [← Registry.queue_setQueue n.txResp q₂] at hquiet₂ htrigger₂
    dsimp only at hpop
    split at hpop
    · cases hpop
      exact ⟨⟨hquiet₁, hquiet₂⟩, nofun⟩
    · cases hpop
      refine ⟨⟨hquiet₁, hquiet₂⟩, fun _ ↦ ?_⟩
      have hmsg := htrigger₁ rfl
      have hresp := htrigger₂ rfl
      split
      · rename_i hempty
        rw [if_pos hempty] at hmsg hresp
        exact fun w m hw ↦ ⟨hmsg.trans hw.txMsg, hresp.trans hw.txResp⟩
      · rename_i hnonempty
        rw [if_neg hnonempty] at hmsg hresp
        exact ⟨hmsg, hresp⟩

/-- A step of the node keeps the waker registered, unless it wakes it. -/
theorem Quiet.step (h : n.Quiet) (hinv : n.Inv) (hop : n.Valid op)
    (hstep : n.step op = .ok (n', event)) : n'.Quiet ∧
      (∀ w m, transmitPoll op event = some (some (w, m)) → n'.Waits w m) ∧
      (transmitPoll op event = none → ∀ w m, n.Waits w m → w ∉ woken n.wakers n'.wakers →
        n'.Waits w m) := by
  cases op with
  | message op =>
    obtain ⟨⟨r, event'⟩, hr, hstep⟩ := bind_eq_ok.mp hstep
    cases hstep
    have halerts := Registry.alerts_step hop.2 hr
    refine ⟨⟨h.txMsg.of_alerts halerts, h.txResp⟩, nofun, fun _ w m hw hnot ↦ ⟨?_, hw.txResp⟩⟩
    refine halerts.trigger hw.txMsg fun hnone ↦ hnot (mem_woken_of_getElem? (i := 0) ?_ ?_)
    · exact congrArg (some ∘ PriorityTrigger.waker) hw.txMsg
    · exact congrArg some hnone
  | response op =>
    obtain ⟨⟨r, event'⟩, hr, hstep⟩ := bind_eq_ok.mp hstep
    cases hstep
    have halerts := Registry.alerts_step hop.2 hr
    refine ⟨⟨h.txMsg, h.txResp.of_alerts halerts⟩, nofun, fun _ w m hw hnot ↦ ⟨hw.txMsg, ?_⟩⟩
    refine halerts.trigger hw.txResp fun hnone ↦ hnot (mem_woken_of_getElem? (i := 1) ?_ ?_)
    · exact congrArg (some ∘ PriorityTrigger.waker) hw.txResp
    · exact congrArg some hnone
  | pollPop waker mask mtu =>
    obtain ⟨⟨frame, n₁⟩, hpop, hstep⟩ := bind_eq_ok.mp hstep
    cases hstep
    obtain ⟨hquiet, hwaits⟩ := h.pollPop hinv hpop
    cases frame with
    | some frame => exact ⟨hquiet, nofun, nofun⟩
    | none =>
      have hn' := hwaits rfl
      split at hn'
      · rename_i hempty
        have hpoll : transmitPoll (.pollPop waker mask mtu) (.popped none) = none := if_pos hempty
        rw [hpoll]
        exact ⟨hquiet, nofun, fun _ w m hw _ ↦ hn' w m hw⟩
      · rename_i hnonempty
        have hpoll : transmitPoll (.pollPop waker mask mtu) (.popped none) =
          some (some (waker, mask)) := if_neg hnonempty
        rw [hpoll]
        refine ⟨hquiet, fun w m heq ↦ ?_, nofun⟩
        cases heq
        exact hn'

/-- **The transmit task does not miss a wake-up.**  As long as the last poll is pending and its
waker was not woken since, no buffer has something ready that the poll was for. -/
theorem transmit_task_woken (address : NodeId) :
    NoMissedWakeup step wakers Valid transmitPoll
      (fun mask n ↦ ∃ p, Reports n.txMsg.queue mask p ∨ Reports n.txResp.queue mask p)
      (new address) := by
  refine .of_waits (fun n ↦ n.Inv ∧ n.Quiet) Waits (fun n op hn hop ↦ ?_)
    (fun w mask n hn hw ⟨p, hp⟩ ↦ ?_)
    ⟨inv_new address, fun hwaker ↦ absurd rfl hwaker, fun hwaker ↦ absurd rfl hwaker⟩
  · obtain ⟨n', event, hstep, hn'⟩ := hn.1.step hop
    obtain ⟨hquiet, hpending, hkeeps⟩ := hn.2.step hn.1 hop hstep
    exact ⟨n', event, hstep, ⟨hn', hquiet⟩, hpending, hkeeps⟩
  · obtain ⟨hmsg, hresp⟩ := hw.not_reports hn.1 hn.2 p
    exact hp.elim hmsg hresp

/-- A message of another priority is pushed while the task sleeps, which a message of its priority
wakes. -/
theorem transmit_task_woken_other_priority :
    (∃ n events, run (heard step wakers) (new 1)
        [.message (.register 1 (.blocking 5 .low [0])), .pollPop 7 (.newEq .high) .classic,
          .message (.getScratchpad 1),
          .message (.tryPush 1 ⟨.low, none, 0, 100, false⟩ 1 .default)] = .ok (n, events) ∧
      ([Op.message (.register 1 (.blocking 5 .low [0])), .pollPop 7 (.newEq .high) .classic,
          .message (.getScratchpad 1),
          .message (.tryPush 1 ⟨.low, none, 0, 100, false⟩ 1 .default)].zip events).foldl
        (asleep transmitPoll) none = some (7, .newEq .high) ∧
      ¬ ∃ p, Reports n.txMsg.queue (.newEq .high) p ∨ Reports n.txResp.queue (.newEq .high) p) ∧
    ∃ n events, run (heard step wakers) (new 1)
        [.message (.register 1 (.blocking 5 .high [0])), .pollPop 7 (.newEq .high) .classic,
          .message (.getScratchpad 1),
          .message (.tryPush 1 ⟨.high, none, 0, 100, false⟩ 1 .default)] = .ok (n, events) ∧
      ([Op.message (.register 1 (.blocking 5 .high [0])), .pollPop 7 (.newEq .high) .classic,
          .message (.getScratchpad 1),
          .message (.tryPush 1 ⟨.high, none, 0, 100, false⟩ 1 .default)].zip events).foldl
        (asleep transmitPoll) none = none := by
  refine ⟨?_, _, _, rfl, rfl⟩
  obtain ⟨n, events, hrun, h⟩ := transmit_task_woken 1
    [.message (.register 1 (.blocking 5 .low [0])), .pollPop 7 (.newEq .high) .classic,
      .message (.getScratchpad 1),
      .message (.tryPush 1 ⟨.low, none, 0, 100, false⟩ 1 .default)] (by decide)
  have hrun' := hrun
  cases hrun
  exact ⟨_, _, hrun', rfl, h 7 (.newEq .high) rfl⟩

end CoreNode

end Emcyphal
