import Emcyphal.Lib.Wakeup
import Emcyphal.Rx.Fifo
import Emcyphal.Rx.Newest
import Emcyphal.Trigger

/-!
# The endpoint of a receive buffer is woken

An endpoint waits until its buffer has a transfer of some priority.  A frame that completes a
transfer wakes the endpoint with the priority of the transfer.  That is enough also when another
transfer has to go for the new one, since nothing becomes ready by that.
-/

set_option autoImplicit false

namespace Emcyphal

open Rust PriorityTrigger

/-- The polls of the endpoint. -/
def readyPoll : Op → Event → Option (Option (Waker × PrioritySet))
  | .pollPopReadiness waker priorityMask, .polled _ ready =>
    some (if ready.isNone then some (waker, priorityMask) else none)
  | _, _ => none

theorem eq_of_readyPoll {op : Op} {event : Event} {w : Waker} {mask : PrioritySet}
    (h : readyPoll op event = some (some (w, mask))) :
    op = .pollPopReadiness w mask ∧ ∃ mask', event = .polled mask' none := by
  cases op with
  | pollPopReadiness waker priorityMask =>
    cases event with
    | polled mask' ready =>
      cases ready with
      | none =>
        cases h
        exact ⟨rfl, mask', rfl⟩
      | some ready => cases h
    | pushed | popped => cases h
  | pushFrame | tryPop => cases h

/-- **The rule for receive buffers**: a poll that is pending waits, and everything else that a
buffer does alerts who waits. -/
theorem noMissedWakeup_of_alerts {σ : Type} {step : σ → Op → Exec (σ × Event)}
    {valid : σ → Op → Prop} {trigger : σ → PriorityTrigger} {ready : σ → PrioritySet}
    (Inv : σ → Prop)
    (hstep : ∀ s op, Inv s → valid s op → ∃ s' event, step s op = .ok (s', event) ∧ Inv s' ∧
      (∀ w mask, readyPoll op event = some (some (w, mask)) →
        (trigger s').Waits (ready s') w mask) ∧
      (readyPoll op event = none → (trigger s).Alerts (trigger s') (ready s) (ready s')))
    {s₀ : σ} (hs₀ : Inv s₀) :
    NoMissedWakeup step (fun s ↦ [(trigger s).waker]) valid readyPoll
      (fun mask s ↦ (ready s &&& mask).isEmpty = false) s₀ := by
  refine .of_waits Inv (fun w mask s ↦ (trigger s).Waits (ready s) w mask) (fun s op hs hop ↦ ?_)
    (fun w mask s _ h ↦ ?_) hs₀
  · obtain ⟨s', event, hstep', hs', hpending, halerts⟩ := hstep s op hs hop
    refine ⟨s', event, hstep', hs', hpending, fun hpoll w mask h hw ↦ ?_⟩
    refine h.of_alerts (halerts hpoll) fun hnone ↦ hw ?_
    have hslot : (trigger s).waker = some w := congrArg PriorityTrigger.waker h.trigger
    exact mem_woken_of_getElem? (i := 0) (congrArg some hslot) (congrArg some hnone)
  · rw [h.isEmpty]
    exact Bool.noConfusion

/-! ## The priority FIFO -/

namespace TransferQueue

variable {N : ℕ} {q q' q'' : TransferQueue N} {b : Backlog Priority TransferEntry}
  {p p' : Priority} {entry : TransferEntry}

/-- Only the priority of the new transfer can become ready. -/
theorem ready_of_push (h : q.Represents b) (hN : 1 ≤ N) {idx : ℕ}
    (halloc : q.allocateBuffer p = .ok (some idx, q')) (hpush : q'.push p' entry = .ok (some q''))
    {c : Priority} (hc : q''.priorities.contains c = true) :
    c = p' ∨ q.priorities.contains c = true := by
  rcases allocateBuffer_represents h hN p with
    ⟨-, halloc'⟩ | ⟨idx', b', q₁, hroom, halloc', hq', htotal, -⟩
  · cases halloc.symm.trans halloc'
  · cases halloc.symm.trans halloc'
    obtain ⟨q₂, hpush', hq'', -⟩ := push_represents hq' htotal p' entry
    cases hpush.symm.trans hpush'
    rw [priorities, PriorityQueue.contains_priorities hq''.queue] at hc
    rw [priorities, PriorityQueue.contains_priorities h.queue]
    obtain ⟨x, hx⟩ := List.exists_mem_of_ne_nil _ hc
    by_cases hcp : c = p'
    · exact .inl hcp
    · rw [Backlog.append, Function.update_of_ne hcp] at hx
      exact .inr (List.ne_nil_of_mem (Backlog.mem_of_makeRoom hroom hx))

theorem allocateBuffer_eq_none (h : q.Represents b) (hN : 1 ≤ N)
    (halloc : q.allocateBuffer p = .ok (none, q')) : q' = q := by
  rcases allocateBuffer_represents h hN p with ⟨-, halloc'⟩ | ⟨idx, b', q₁, -, halloc', -⟩
  · cases halloc.symm.trans halloc'
    rfl
  · cases halloc.symm.trans halloc'

/-- Nothing becomes ready by a pop. -/
theorem ready_of_pop (h : q.Represents b) {mask : PrioritySet}
    {popped : Option (Priority × TransferEntry)} (hpop : q.pop mask = .ok (popped, q'))
    {c : Priority} (hc : q'.priorities.contains c = true) : q.priorities.contains c = true := by
  rcases pop_represents h mask with ⟨-, hpop'⟩ | ⟨c', entry, rest, q₁, -, -, hpop', hq', -⟩
  · cases hpop.symm.trans hpop'
    exact hc
  · cases hpop.symm.trans hpop'
    rw [priorities, PriorityQueue.contains_priorities hq'] at hc
    rw [priorities, PriorityQueue.contains_priorities h.queue]
    obtain ⟨x, hx⟩ := List.exists_mem_of_ne_nil _ hc
    exact List.ne_nil_of_mem (Backlog.mem_of_dropOldest hx)

end TransferQueue

namespace RxPriorityFifoInner

open SessionTable

variable {SN TN : ℕ} {r r' : RxPriorityFifoInner SN TN} {capacity : ℕ} {l : List Tracked}
  {b : Backlog Priority TransferEntry} {priority : Priority} {w : Waker} {mask : PrioritySet}

/-- What becomes ready wakes the endpoint. -/
abbrev Alerts (r r' : RxPriorityFifoInner SN TN) : Prop :=
  PriorityTrigger.Alerts r.priorityTrigger r'.priorityTrigger r.popReadiness r'.popReadiness

theorem Alerts.refl (r : RxPriorityFifoInner SN TN) : r.Alerts r := .of_subset fun _ ↦ id

theorem alerts_enqueueTransfer (hTN : 1 ≤ TN) (h : r.transfers.Represents b) {source : NodeId}
    {loopBack : Bool} {session session' : Session} {buffer : List Byte} {transfer : Transfer}
    (henqueue : r.enqueueTransfer source priority loopBack session buffer transfer =
      .ok (r', session')) : r.Alerts r' := by
  obtain ⟨⟨idx, transfers⟩, halloc, henqueue⟩ := bind_eq_ok.mp henqueue
  dsimp only at henqueue
  split at henqueue
  · cases henqueue
    obtain rfl := TransferQueue.allocateBuffer_eq_none h hTN halloc
    exact .refl _
  · obtain ⟨sessions, -, henqueue⟩ := bind_eq_ok.mp henqueue
    obtain ⟨pushed, hpush, henqueue⟩ := bind_eq_ok.mp henqueue
    obtain ⟨transfers', hunwrap, henqueue⟩ := bind_eq_ok.mp henqueue
    cases unwrap_eq_ok.mp hunwrap
    cases henqueue
    exact .of_wake fun c hc ↦ TransferQueue.ready_of_push h hTN halloc hpush hc

theorem alerts_deliver (hTN : 1 ≤ TN) (h : r.transfers.Represents b) {source : NodeId}
    {timestamp : Instant} {loopBack : Bool} {received : Received}
    (hdeliver : r.deliver source priority timestamp loopBack received = .ok r') : r.Alerts r' := by
  rw [deliver] at hdeliver
  cases htransfer : received.transfer with
  | none =>
    rw [htransfer] at hdeliver
    dsimp only [pure_eq_ok, ok_bind] at hdeliver
    obtain ⟨table, -, hdeliver⟩ := bind_eq_ok.mp hdeliver
    cases hdeliver
    exact .refl r
  | some transfer =>
    rw [htransfer] at hdeliver
    obtain ⟨⟨r₁, session⟩, henqueue, hdeliver⟩ := bind_eq_ok.mp hdeliver
    have halerts := alerts_enqueueTransfer hTN h henqueue
    obtain ⟨table, -, hdeliver⟩ := bind_eq_ok.mp hdeliver
    cases hdeliver
    exact halerts

theorem alerts_pushAnonymousFrame (hTN : 1 ≤ TN) (h : r.transfers.Represents b) {data : Data}
    {timestamp : Instant} {loopBack : Bool}
    (hpush : r.pushAnonymousFrame priority data timestamp loopBack = .ok r') : r.Alerts r' := by
  rw [pushAnonymousFrame] at hpush
  split at hpush
  · cases hpush
    exact .refl r
  · obtain ⟨⟨idx, transfers⟩, halloc, hpush⟩ := bind_eq_ok.mp hpush
    dsimp only at hpush
    split at hpush
    · cases hpush
      obtain rfl := TransferQueue.allocateBuffer_eq_none h hTN halloc
      exact .refl _
    · obtain ⟨buffer, -, hpush⟩ := bind_eq_ok.mp hpush
      obtain ⟨buffers, -, hpush⟩ := bind_eq_ok.mp hpush
      obtain ⟨pushed, hqueue, hpush⟩ := bind_eq_ok.mp hpush
      obtain ⟨transfers', hunwrap, hpush⟩ := bind_eq_ok.mp hpush
      cases unwrap_eq_ok.mp hunwrap
      cases hpush
      exact .of_wake fun c hc ↦ TransferQueue.ready_of_push h hTN halloc hqueue hc

theorem alerts_pushFrame (hTN : 1 ≤ TN) (h : r.transfers.Represents b) {frame : Frame}
    (hpush : r.pushFrame frame = .ok r') : r.Alerts r' := by
  rw [pushFrame] at hpush
  split at hpush
  · cases hpush
    exact .refl r
  split at hpush
  · obtain ⟨⟨table, received⟩, -, hpush⟩ := bind_eq_ok.mp hpush
    dsimp only at hpush
    split at hpush
    · cases hpush
      exact .refl _
    · exact alerts_deliver (r := { r with toSessionTable := table }) hTN h hpush
  · exact alerts_pushAnonymousFrame hTN h hpush

theorem alerts_tryPop (h : r.transfers.Represents b) {item : Option Item}
    (hpop : r.tryPop mask = .ok (item, r')) : r.Alerts r' := by
  obtain ⟨⟨popped, transfers⟩, hqueue, hpop⟩ := bind_eq_ok.mp hpop
  have hready := fun c ↦ TransferQueue.ready_of_pop h hqueue (c := c)
  dsimp only at hpop
  split at hpop
  · cases hpop
    exact .of_subset hready
  · obtain ⟨freed, hfree, hpop⟩ := bind_eq_ok.mp hpop
    obtain ⟨buffer, -, hpop⟩ := bind_eq_ok.mp hpop
    obtain ⟨validBuffer, -, hpop⟩ := bind_eq_ok.mp hpop
    cases hpop
    rw [unwrap_eq_ok, TransferQueue.freeBuffer] at hfree
    split at hfree
    · cases hfree
      exact .of_subset hready
    · cases hfree

/-- A poll that is pending waits. -/
theorem waits_of_pending (h : (r.pollPopReadiness w mask).1 = none) :
    (r.pollPopReadiness w mask).2.priorityTrigger.Waits
      (r.pollPopReadiness w mask).2.popReadiness w mask := by
  rw [pollPopReadiness] at h ⊢
  split at h
  · cases h
  · rename_i hready
    rw [if_neg hready]
    have hempty : (r.popReadiness &&& mask).isEmpty = true := by simpa using hready
    exact waits_register r.priorityTrigger hempty

theorem step_pollPopReadiness (r : RxPriorityFifoInner SN TN) (w : Waker) (mask : PrioritySet) :
    r.step (.pollPopReadiness w mask) =
      .ok ((r.pollPopReadiness w mask).2, .polled mask (r.pollPopReadiness w mask).1) := rfl

theorem alerts_step (hTN : 1 ≤ TN) (h : r.transfers.Represents b) {op : Op} {event : Event}
    (hstep : r.step op = .ok (r', event)) (hpoll : readyPoll op event = none) : r.Alerts r' := by
  cases op with
  | pushFrame frame =>
    obtain ⟨reception, -, hstep⟩ := bind_eq_ok.mp hstep
    obtain ⟨r₁, hpush, hstep⟩ := bind_eq_ok.mp hstep
    cases hstep
    exact alerts_pushFrame hTN h hpush
  | tryPop mask =>
    obtain ⟨⟨item, r₁⟩, hpop, hstep⟩ := bind_eq_ok.mp hstep
    cases hstep
    exact alerts_tryPop h hpop
  | pollPopReadiness waker mask =>
    cases hstep
    cases hpoll

/-- **An endpoint that waits for a transfer is woken.** -/
theorem noMissedWakeup {dataSpecifier : DataSpecifier} (hSN : SN ≤ IndexQueue.NO_ENTRY)
    (hTN : 1 ≤ TN) (h : r.Represents capacity l b) (hspec : r.dataSpecifier = dataSpecifier) :
    NoMissedWakeup step (fun r ↦ [r.priorityTrigger.waker])
      (fun _ op ↦ 1 ≤ SN ∨ ¬ op.NeedsSession dataSpecifier) readyPoll
      (fun mask r ↦ (r.popReadiness &&& mask).isEmpty = false) r := by
  refine noMissedWakeup_of_alerts
    (fun r ↦ r.dataSpecifier = dataSpecifier ∧ ∃ l b, r.Represents capacity l b)
    (fun s op ⟨hspec', l', b', hs⟩ hop ↦ ?_) ⟨hspec, l, b, h⟩
  obtain ⟨s', event, l'', b'', hstep, hstepped⟩ :=
    step_represents hSN hTN hs op (hspec'.symm ▸ hop)
  refine ⟨s', event, hstep, ⟨hstepped.dataSpecifier.trans hspec', l'', b'', hstepped.represents⟩,
    fun w mask hpoll ↦ ?_, alerts_step hTN hs.queue hstep⟩
  obtain ⟨rfl, mask', rfl⟩ := eq_of_readyPoll hpoll
  rw [step_pollPopReadiness, Except.ok.injEq, Prod.mk.injEq, Event.polled.injEq] at hstep
  obtain ⟨rfl, -, hready⟩ := hstep
  exact waits_of_pending hready

end RxPriorityFifoInner

/-! ## The watch -/

namespace Watch.Inner

open SessionTable

variable {SN : ℕ} {r r' : Inner SN} {capacity : ℕ} {l : List Tracked} {n : Newest Item}
  {priority : Priority} {w : Waker} {mask : PrioritySet}

/-- What becomes ready wakes the endpoint. -/
abbrev Alerts (r r' : Inner SN) : Prop :=
  PriorityTrigger.Alerts r.priorityTrigger r'.priorityTrigger r.popReadiness r'.popReadiness

theorem Alerts.refl (r : Inner SN) : r.Alerts r := .of_subset fun _ ↦ id

/-- The transfer that is held has the priority that the endpoint is woken with. -/
theorem alerts_hold (h : r'.popReadiness = .newEq priority)
    (htrigger : r'.priorityTrigger = r.priorityTrigger.wake (.newEq priority)) : r.Alerts r' := by
  rw [Alerts, htrigger]
  refine .of_wake fun c hc ↦ .inl ?_
  rw [h, PrioritySet.contains_newEq, decide_eq_true_iff] at hc
  exact hc.symm

theorem alerts_deliver {source : NodeId} {timestamp : Instant} {loopBack : Bool}
    {received : Received}
    (hpriority : ∀ t, received.transfer = some t → t.priority = priority)
    (hdeliver : r.deliver source priority timestamp loopBack received = .ok r') : r.Alerts r' := by
  rw [deliver] at hdeliver
  cases htransfer : received.transfer with
  | none =>
    rw [htransfer] at hdeliver
    dsimp only [pure_eq_ok, ok_bind] at hdeliver
    obtain ⟨table, -, hdeliver⟩ := bind_eq_ok.mp hdeliver
    cases hdeliver
    exact .refl r
  | some transfer =>
    rw [htransfer] at hdeliver
    obtain ⟨⟨r₁, session⟩, hhold, hdeliver⟩ := bind_eq_ok.mp hdeliver
    obtain ⟨table, -, hdeliver⟩ := bind_eq_ok.mp hdeliver
    cases hdeliver
    rw [holdTransfer] at hhold
    split at hhold
    · obtain ⟨sessions, -, hhold⟩ := bind_eq_ok.mp hhold
      cases hhold
      exact alerts_hold (congrArg PrioritySet.newEq (hpriority transfer htransfer)) rfl
    · cases hhold
      exact .refl r

theorem alerts_pushAnonymousFrame {data : Data} {timestamp : Instant} {loopBack : Bool}
    (hpush : r.pushAnonymousFrame priority data timestamp loopBack = .ok r') : r.Alerts r' := by
  rw [pushAnonymousFrame] at hpush
  split at hpush
  · cases hpush
    exact .refl r
  split at hpush
  · cases hpush
    exact .refl r
  obtain ⟨buffer, -, hpush⟩ := bind_eq_ok.mp hpush
  obtain ⟨buffers, -, hpush⟩ := bind_eq_ok.mp hpush
  cases hpush
  exact alerts_hold rfl rfl

theorem alerts_pushFrame (hSN : SN ≤ IndexQueue.NO_ENTRY) (h : r.Represents capacity l n)
    {frame : Frame} (hstart : 1 ≤ SN ∨ ¬ NeedsSession r.dataSpecifier frame)
    (hpush : r.pushFrame frame = .ok r') : r.Alerts r' := by
  rw [pushFrame] at hpush
  split at hpush
  · cases hpush
    exact .refl r
  rename_i hspec
  split at hpush
  · rename_i source hsource
    have hsot : 1 ≤ SN ∨ sot frame.data = false := hstart.imp_right fun hnot ↦
      Bool.eq_false_iff.mpr fun hsot ↦ hnot ⟨not_not.mp hspec, by rw [hsource]; rfl, hsot⟩
    rw [pushRegularFrame] at hpush
    obtain ⟨t, l', -, -, -, -, hcase⟩ := reassemble_shares hSN h.shares source hsot
    rcases hcase with ⟨-, hreassemble, -⟩ |
      ⟨as, e, bs, buffer, transfer, -, -, hreassemble, -, -, -, htransfer⟩
    · rw [hreassemble] at hpush
      cases hpush
      exact .refl _
    · rw [hreassemble] at hpush
      exact alerts_deliver (r := { r with toSessionTable := t })
        (fun t ht ↦ (htransfer t ht).2) hpush
  · exact alerts_pushAnonymousFrame hpush

theorem alerts_tryPop {item : Option Item} (hpop : r.tryPop mask = .ok (item, r')) :
    r.Alerts r' := by
  rw [tryPop] at hpop
  split at hpop
  · cases hpop
    exact .refl r
  · obtain ⟨transfer, -, hpop⟩ := bind_eq_ok.mp hpop
    obtain ⟨buffer, -, hpop⟩ := bind_eq_ok.mp hpop
    obtain ⟨validBuffer, -, hpop⟩ := bind_eq_ok.mp hpop
    cases hpop
    refine .of_subset fun c hc ↦ ?_
    change PrioritySet.NONE.contains c = true at hc
    rw [PrioritySet.contains_NONE] at hc
    cases hc

/-- A poll that is pending waits. -/
theorem waits_of_pending (h : (r.pollPopReadiness w mask).1 = none) :
    (r.pollPopReadiness w mask).2.priorityTrigger.Waits
      (r.pollPopReadiness w mask).2.popReadiness w mask := by
  rw [pollPopReadiness] at h ⊢
  split at h
  · cases h
  · rename_i hready
    rw [if_neg hready]
    have hempty : (r.popReadiness &&& mask).isEmpty = true := by simpa using hready
    exact waits_register r.priorityTrigger hempty

theorem step_pollPopReadiness (r : Inner SN) (w : Waker) (mask : PrioritySet) :
    r.step (.pollPopReadiness w mask) =
      .ok ((r.pollPopReadiness w mask).2, .polled mask (r.pollPopReadiness w mask).1) := rfl

theorem alerts_step (hSN : SN ≤ IndexQueue.NO_ENTRY) (h : r.Represents capacity l n) {op : Op}
    (hop : 1 ≤ SN ∨ ¬ op.NeedsSession r.dataSpecifier) {event : Event}
    (hstep : r.step op = .ok (r', event)) (hpoll : readyPoll op event = none) : r.Alerts r' := by
  cases op with
  | pushFrame frame =>
    obtain ⟨reception, -, hstep⟩ := bind_eq_ok.mp hstep
    obtain ⟨r₁, hpush, hstep⟩ := bind_eq_ok.mp hstep
    cases hstep
    exact alerts_pushFrame hSN h hop hpush
  | tryPop mask =>
    obtain ⟨⟨item, r₁⟩, hpop, hstep⟩ := bind_eq_ok.mp hstep
    cases hstep
    exact alerts_tryPop hpop
  | pollPopReadiness waker mask =>
    cases hstep
    cases hpoll

/-- **An endpoint that waits for a transfer is woken.** -/
theorem noMissedWakeup {dataSpecifier : DataSpecifier} (hSN : SN ≤ IndexQueue.NO_ENTRY)
    (h : r.Represents capacity l n) (hspec : r.dataSpecifier = dataSpecifier) :
    NoMissedWakeup step (fun r ↦ [r.priorityTrigger.waker])
      (fun _ op ↦ 1 ≤ SN ∨ ¬ op.NeedsSession dataSpecifier) readyPoll
      (fun mask r ↦ (r.popReadiness &&& mask).isEmpty = false) r := by
  refine noMissedWakeup_of_alerts
    (fun r ↦ r.dataSpecifier = dataSpecifier ∧ ∃ l n, r.Represents capacity l n)
    (fun s op ⟨hspec', l', n', hs⟩ hop ↦ ?_) ⟨hspec, l, n, h⟩
  rw [← hspec'] at hop
  obtain ⟨s', event, l'', hstep, hstepped⟩ := step_represents hSN hs op hop
  refine ⟨s', event, hstep, ⟨hstepped.dataSpecifier.trans hspec', l'', _, hstepped.represents⟩,
    fun w mask hpoll ↦ ?_, alerts_step hSN hs hop hstep⟩
  obtain ⟨rfl, mask', rfl⟩ := eq_of_readyPoll hpoll
  rw [step_pollPopReadiness, Except.ok.injEq, Prod.mk.injEq, Event.polled.injEq] at hstep
  obtain ⟨rfl, -, hready⟩ := hstep
  exact waits_of_pending hready

end Watch.Inner

end Emcyphal
