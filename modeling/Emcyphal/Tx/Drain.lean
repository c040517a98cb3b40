import Emcyphal.Lib.Lives
import Emcyphal.Tx.Mailbox
import Emcyphal.Tx.Node
import Mathlib.Algebra.BigOperators.Group.Finset.Basic
import Mathlib.Algebra.Order.BigOperators.Group.Finset
import Mathlib.Algebra.Order.BigOperators.Group.List
import Mathlib.Data.List.ReduceOption

/-!
# A node sends all that it has

Each frame that is fetched leaves less to send (`TxQueue.Popped.remaining_lt`), and a poll at all
priorities returns a frame as long as there is anything left.  So a driver that goes on polling gets
everything, whatever other polls there are in between: afterwards all buffers are empty, and no poll
finds another frame (`CoreNode.drains`).
-/

set_option autoImplicit false

namespace Emcyphal

open Rust

namespace Outgoing

variable {o : Outgoing}

theorem Ready.remaining_pos (h : o.Ready) : 0 < o.remaining := by
  obtain ⟨data, rest, hsends⟩ := h.sends .classic
  exact Nat.zero_lt_of_lt hsends.remaining_lt

theorem remaining_map_trim (next : Option Outgoing) :
    (next.map trim).map remaining = next.map remaining := by
  rw [Option.map_map]
  rfl

end Outgoing

/-! ## Buffers -/

namespace Mailbox

/-- The bytes that are left to send. -/
def remaining : Mailbox → ℕ
  | signal _ _ current pending =>
    (current.map Outgoing.remaining).getD 0 + (pending.map Outgoing.remaining).getD 0
  | blocking _ _ current => (current.map Outgoing.remaining).getD 0
  | response _ current =>
    (Priority.all.map fun p ↦ ((current p).map Outgoing.remaining).getD 0).sum

/-- Each frame leaves less. -/
theorem remaining_update_lt {service : ServiceId} {current : Priority → Option Outgoing}
    {p : Priority} {o : Outgoing} {rest : Option Outgoing} (ho : current p = some o)
    (hlt : (rest.map Outgoing.remaining).getD 0 < o.remaining) :
    (response service (Function.update current p rest)).remaining <
      (response service current).remaining := by
  have hlt : ((Function.update current p rest p).map Outgoing.remaining).getD 0 <
      ((current p).map Outgoing.remaining).getD 0 := by
    rwa [Function.update_self, ho, Option.map_some, Option.getD_some]
  refine List.sum_lt_sum _ _ (fun q _ ↦ ?_) ⟨p, p.mem_all, hlt⟩
  by_cases hq : q = p
  · subst hq
    exact hlt.le
  · rw [Function.update_of_ne hq]

end Mailbox

namespace TxBuffer

variable {b b' : TxBuffer} {n : ℕ} {p : Priority} {o : Outgoing}

def remaining (b : TxBuffer) : ℕ := b.mailbox.remaining

theorem remaining_signal (r : Signal.Inner) : (signal r).remaining = r.outbox.remaining := by
  rw [remaining, mailbox, Signal.Outbox.mailbox, Mailbox.remaining, Outgoing.remaining_map_trim,
    Outgoing.remaining_map_trim]
  rfl

theorem remaining_blocking (r : Blocking.Inner) :
    (blocking r).remaining = (r.current.map Outgoing.remaining).getD 0 := by
  rw [remaining, mailbox, Mailbox.remaining, Outgoing.remaining_map_trim]

theorem remaining_response (r : Response.ResponseBufferInner) :
    (response r).remaining = (Mailbox.response r.service r.current).remaining := by
  simp only [remaining, mailbox, Mailbox.remaining, Outgoing.remaining_map_trim]

/-- There is a next transfer at the priority that is reported first. -/
theorem Inv.next_of_first (h : b.Inv n) (hfirst : b.popReadiness.first = some p) :
    ∃ o, b.next p = some o := by
  have hready := (PrioritySet.first_eq_some_iff.mp hfirst).1
  rw [h.popReadiness] at hready
  exact Option.isSome_iff_exists.mp hready

/-- What is next is left. -/
theorem le_remaining (hnext : b.next p = some o) : o.remaining ≤ b.remaining := by
  cases b with
  | signal r =>
    rw [next] at hnext
    split at hnext
    · rw [remaining_signal, Signal.Outbox.remaining]
      rcases Option.or_eq_some_iff.mp hnext with hcurrent | ⟨-, hpending⟩
      · rw [hcurrent, Option.map_some, Option.getD_some]
        exact Nat.le_add_right ..
      · rw [hpending, Option.map_some, Option.getD_some]
        exact Nat.le_add_left ..
    · cases hnext
  | blocking r =>
    rw [next] at hnext
    split at hnext
    · rw [remaining_blocking, hnext, Option.map_some, Option.getD_some]
    · cases hnext
  | response r =>
    rw [next] at hnext
    rw [remaining_response, Mailbox.remaining]
    refine List.le_sum_of_mem (List.mem_map.mpr ⟨p, p.mem_all, ?_⟩)
    rw [hnext, Option.map_some, Option.getD_some]

/-- **Each frame that is fetched leaves less to send.** -/
theorem Inv.tryPop_remaining (h : b.Inv n) (hnext : b.next p = some o) {mtu : Mtu} {frame : Frame}
    (hpop : b.tryPop (.newEq p) mtu = .ok (some frame, b')) : b'.remaining < b.remaining := by
  obtain ⟨data, rest, hs⟩ := (h.ready hnext).sends mtu
  cases b with
  | signal r =>
    rw [next] at hnext
    split at hnext
    · rename_i hp
      obtain ⟨r', hpop', -, houtbox⟩ :=
        Signal.Inner.Inv.tryPop h (show (PrioritySet.newEq p).contains r.priority = true by
          simp [hp]) hnext hs
      rw [TxBuffer.tryPop, hpop'] at hpop
      cases hpop
      rw [remaining_signal, houtbox, remaining_signal]
      exact Signal.Outbox.remaining_sent hnext hs
    · cases hnext
  | blocking r =>
    rw [next] at hnext
    split at hnext
    · rename_i hp
      obtain ⟨r', hpop', -, hcurrent, -⟩ :=
        Blocking.Inner.Inv.tryPop h (show (PrioritySet.newEq p).contains r.priority = true by
          simp [hp]) hnext hs
      rw [TxBuffer.tryPop, hpop'] at hpop
      cases hpop
      rw [remaining_blocking, hcurrent, remaining_blocking, hnext]
      exact hs.remaining_lt
    · cases hnext
  | response r =>
    have hfirst : (r.popReadiness &&& .newEq p).first = some p := by
      refine newEq_mask ?_
      rw [Response.ResponseBufferInner.Inv.popReadiness h]
      exact congrArg Option.isSome hnext
    obtain ⟨r', hpop', -, hcurrent, hservice, -⟩ :=
      Response.ResponseBufferInner.Inv.tryPop h hfirst hnext hs
    rw [TxBuffer.tryPop, hpop'] at hpop
    cases hpop
    rw [remaining_response, hcurrent, hservice, remaining_response]
    exact Mailbox.remaining_update_lt hnext hs.remaining_lt

/-- A buffer that reports nothing is empty. -/
theorem isEmpty_of_popReadiness (hnone : b.popReadiness.first = none) : b.isEmpty = true := by
  have hfalse := PrioritySet.first_eq_none_iff.mp hnone
  cases b with
  | signal r =>
    rw [isEmpty]
    by_contra hsome
    have hcontains := hfalse r.priority
    rw [popReadiness, Signal.Inner.popReadiness, if_pos (by simpa using hsome)] at hcontains
    simp at hcontains
  | blocking r =>
    rw [isEmpty, Blocking.Inner.isEmpty, Option.isNone_iff_eq_none]
    by_contra hsome
    have hcontains := hfalse r.priority
    rw [popReadiness, Blocking.Inner.popReadiness, if_pos (Option.isSome_iff_ne_none.mpr hsome)]
      at hcontains
    simp at hcontains
  | response r => exact PrioritySet.isEmpty_iff.mpr hfalse

end TxBuffer

/-! ## The queue -/

namespace TxQueue

variable {r r' : TxQueue} {a : Address} {e : Entry} {p : Priority} {frame : Frame} {eot : Bool}
  {mtu : Mtu}

/-- The entries that are in one of the lists. -/
def waiting (r : TxQueue) : Finset Address :=
  (Priority.all.flatMap fun p ↦ r.queues.started p ++ r.queues.finished p).toFinset

/-- The bytes that an entry has left to send. -/
def remainingOf (r : TxQueue) (a : Address) : ℕ :=
  ((r.entries a).map fun e ↦ e.buffer.remaining).getD 0

def remaining (r : TxQueue) : ℕ := ∑ a ∈ r.waiting, r.remainingOf a

theorem Consistent.mem_waiting (h : r.Consistent) : a ∈ r.waiting ↔ (r.mark a).isSome = true := by
  have hmem : a ∈ r.waiting ↔ ∃ id, a ∈ r.queues.getQueue id := by
    simp only [waiting, List.mem_toFinset, List.mem_flatMap, List.mem_append]
    constructor
    · rintro ⟨p, -, hstarted | hfinished⟩
      · exact ⟨(p, .started), hstarted⟩
      · exact ⟨(p, .finished), hfinished⟩
    · rintro ⟨⟨p, _ | _⟩, hid⟩
      · exact ⟨p, p.mem_all, .inl hid⟩
      · exact ⟨p, p.mem_all, .inr hid⟩
  rw [hmem, Option.isSome_iff_exists]
  exact exists_congr fun id ↦ h.linked.mem id a

/-- What is left depends on the entries only. -/
theorem remaining_congr (h : r.Consistent) (h' : r'.Consistent) (heq : r'.entries = r.entries) :
    r'.remaining = r.remaining := by
  have hwaiting : r'.waiting = r.waiting := by
    ext a
    rw [h.mem_waiting, h'.mem_waiting, mark, mark, heq]
  rw [remaining, remaining, hwaiting]
  refine Finset.sum_congr rfl fun a _ ↦ ?_
  rw [remainingOf, remainingOf, heq]

/-- An entry that is in a list has something to send. -/
theorem Inv.remainingOf_pos (h : r.Inv) (ha : a ∈ r.waiting) : 0 < r.remainingOf a := by
  obtain ⟨⟨p, k⟩, hmark⟩ := Option.isSome_iff_exists.mp (h.toConsistent.mem_waiting.mp ha)
  obtain ⟨e, he, hqueueMark⟩ := Option.bind_eq_some_iff.mp hmark
  obtain ⟨q, hfirst, -⟩ := Option.map_eq_some_iff.mp ((h.place a e he).symm.trans hqueueMark)
  obtain ⟨n, hbuffer⟩ := h.buffer a e he
  obtain ⟨o, ho⟩ := hbuffer.next_of_first hfirst
  rw [remainingOf, he, Option.map_some, Option.getD_some]
  exact (hbuffer.ready ho).remaining_pos.trans_le (TxBuffer.le_remaining ho)

/-- **Each frame that is fetched leaves less to send.**  The entry it is from stays in a list or
leaves it, and the others stay where they are. -/
theorem Popped.remaining_lt (hp : r.Popped p mtu a frame eot r') (h : r.Inv) (h' : r'.Inv) :
    r'.remaining < r.remaining := by
  obtain ⟨e, buffer, he, hfirst, hpop, mark, hentries⟩ := hp.buffer
  obtain ⟨n, hbuffer⟩ := h.buffer a e he
  obtain ⟨o, ho⟩ := hbuffer.next_of_first hfirst
  have hsame : ∀ b, b ≠ a → r'.entries b = r.entries b := fun b hb ↦ by
    rw [hentries, Function.update_of_ne hb]
  have ha : a ∈ r.waiting := by
    rw [h.toConsistent.mem_waiting, h.mark_eq he, Entry.place, hfirst]
    rfl
  have hsubset : r'.waiting ⊆ r.waiting := by
    intro b hb
    by_cases hba : b = a
    · rwa [hba]
    · have hmark : r'.mark b = r.mark b := by rw [TxQueue.mark, TxQueue.mark, hsame b hba]
      rwa [h'.toConsistent.mem_waiting, hmark, ← h.toConsistent.mem_waiting] at hb
  have hlt : r'.remainingOf a < r.remainingOf a := by
    rw [remainingOf, remainingOf, hentries, Function.update_self, he]
    exact hbuffer.tryPop_remaining ho hpop
  calc r'.remaining ≤ ∑ b ∈ r.waiting, r'.remainingOf b :=
        Finset.sum_le_sum_of_subset hsubset
    _ < r.remaining := by
      refine Finset.sum_lt_sum (fun b _ ↦ ?_) ⟨a, ha, hlt⟩
      by_cases hba : b = a
      · exact hba ▸ hlt.le
      · rw [remainingOf, remainingOf, hsame b hba]

/-- Nothing is left exactly if nothing is queued. -/
theorem Inv.remaining_eq_zero (h : r.Inv) : r.remaining = 0 ↔ ∀ p, ¬ r.Queued p := by
  rw [remaining, Finset.sum_eq_zero_iff]
  constructor
  · intro hzero p hqueued
    have hmem : ∃ a, a ∈ r.waiting := by
      simp only [waiting, List.mem_toFinset, List.mem_flatMap, List.mem_append]
      rcases hqueued with hne | hne
      · obtain ⟨a, ha⟩ := List.exists_mem_of_ne_nil _ hne
        exact ⟨a, p, p.mem_all, .inl ha⟩
      · obtain ⟨a, ha⟩ := List.exists_mem_of_ne_nil _ hne
        exact ⟨a, p, p.mem_all, .inr ha⟩
    obtain ⟨a, ha⟩ := hmem
    exact (h.remainingOf_pos ha).ne' (hzero a ha)
  · intro hnone a ha
    simp only [waiting, List.mem_toFinset, List.mem_flatMap, List.mem_append] at ha
    obtain ⟨p, -, hstarted | hfinished⟩ := ha
    · exact absurd (.inl (List.ne_nil_of_mem hstarted)) (hnone p)
    · exact absurd (.inr (List.ne_nil_of_mem hfinished)) (hnone p)

/-- If nothing is left, no buffer reports anything. -/
theorem Inv.popReadiness_of_remaining (h : r.Inv) (hzero : r.remaining = 0)
    (he : r.entries a = some e) : e.buffer.popReadiness.first = none := by
  have hmark : r.mark a = none := by
    refine Option.not_isSome_iff_eq_none.mp fun hsome ↦ ?_
    have ha := h.toConsistent.mem_waiting.mpr hsome
    exact (h.remainingOf_pos ha).ne' (Finset.sum_eq_zero_iff.mp hzero a ha)
  rwa [h.mark_eq he, Entry.place, Option.map_eq_none_iff] at hmark

end TxQueue

/-! ## The node -/

namespace CoreNode

/-- The bytes that are left to send. -/
def remaining (n : CoreNode) : ℕ := n.txMsg.queue.remaining + n.txResp.queue.remaining

variable {n : CoreNode}

/-- A poll of a registry leaves less, or there is nothing at a priority of the mask. -/
theorem poll_remaining {r : Registry} (hr : r.Inv) (waker : Waker) (mask : PrioritySet)
    (mtu : Mtu) :
    (∃ q, r.queue.pollPop waker mask mtu = .ok (none, q) ∧ (r.setQueue q).Inv ∧
      q.remaining = r.queue.remaining ∧ (mask = .ALL → r.queue.remaining = 0)) ∨
    ∃ frame q, r.queue.pollPop waker mask mtu = .ok (some frame, q) ∧ (r.setQueue q).Inv ∧
      q.remaining < r.queue.remaining := by
  rcases hr.queue.pollPop waker mask mtu with ⟨q, hpop, hq, hstarted, -, hentries, hnone⟩ |
    ⟨p, a, frame, eot, q, hpop, hq, -, hpopped, -⟩
  · refine .inl ⟨q, hpop, hr.setQueue hq fun a ↦ by rw [hstarted],
      TxQueue.remaining_congr hr.queue.toConsistent hq.toConsistent hentries, ?_⟩
    rintro rfl
    exact hr.queue.remaining_eq_zero.mpr fun p ↦ hnone p (by cases p <;> decide)
  · exact .inr ⟨frame, q, hpop, hr.setQueue hq (Registry.Popped.isSome hpopped),
      hpopped.remaining_lt hr.queue hq⟩

/-- **A poll that returns a frame leaves less to send**, and one at all priorities returns a frame
if anything is left. -/
theorem Inv.pollPop_remaining (h : n.Inv) (waker : Waker) (mask : PrioritySet) (mtu : Mtu) :
    ∃ frame n', n.pollPop waker mask mtu = .ok (frame, n') ∧ n'.Inv ∧
      n'.remaining + frame.toList.length ≤ n.remaining ∧
      (mask = .ALL → n'.remaining ≤ n.remaining - 1) := by
  rw [CoreNode.pollPop]
  rcases poll_remaining h.txMsg waker mask mtu with ⟨q, hpop, hq, hsame, hzero⟩ |
    ⟨frame, q, hpop, hq, hlt⟩
  · rcases poll_remaining h.txResp waker mask mtu with ⟨q', hpop', hq', hsame', hzero'⟩ |
      ⟨frame, q', hpop', hq', hlt'⟩
    · refine ⟨none, ⟨n.address, n.txMsg.setQueue q, n.txResp.setQueue q'⟩,
        by rw [hpop, ok_bind]; dsimp only; rw [hpop']; rfl, ⟨hq, hq'⟩, ?_, fun hall ↦ ?_⟩
      all_goals
        rw [remaining, remaining, Registry.queue_setQueue, Registry.queue_setQueue, hsame, hsame']
      · exact Nat.le_refl _
      · rw [hzero hall, hzero' hall]
    · have hleft : remaining ⟨n.address, n.txMsg.setQueue q, n.txResp.setQueue q'⟩ <
          n.remaining := by
        rw [remaining, remaining, Registry.queue_setQueue, Registry.queue_setQueue, hsame]
        exact Nat.add_lt_add_left hlt' _
      exact ⟨some (n.setSource frame), ⟨n.address, n.txMsg.setQueue q, n.txResp.setQueue q'⟩,
        by rw [hpop, ok_bind]; dsimp only; rw [hpop']; rfl, ⟨hq, hq'⟩, hleft,
        fun _ ↦ Nat.le_sub_one_of_lt hleft⟩
  · have hleft : remaining ⟨n.address, n.txMsg.setQueue q, n.txResp⟩ < n.remaining := by
      rw [remaining, remaining, Registry.queue_setQueue]
      exact Nat.add_lt_add_right hlt _
    exact ⟨some (n.setSource frame), ⟨n.address, n.txMsg.setQueue q, n.txResp⟩, by rw [hpop]; rfl,
      ⟨hq, h.txResp⟩, hleft, fun _ ↦ Nat.le_sub_one_of_lt hleft⟩

/-- The driver polls the node a number of times. -/
theorem Inv.polls (h : n.Inv) (polls : List (Waker × PrioritySet × Mtu)) :
    ∃ (n' : CoreNode) (frames : List (Option Frame)),
      run CoreNode.step n (polls.map fun x ↦ Op.pollPop x.1 x.2.1 x.2.2) =
        .ok (n', frames.map Event.popped) ∧ n'.Inv ∧
      n'.remaining + frames.reduceOption.length ≤ n.remaining ∧
      n'.remaining ≤ n.remaining - polls.countP fun x ↦ x.2.1 = .ALL := by
  induction polls generalizing n with
  | nil => exact ⟨n, [], rfl, h, Nat.le_refl _, Nat.le_refl _⟩
  | cons x polls ih =>
    obtain ⟨frame, n₁, hpop, hn₁, hframe, hall⟩ := h.pollPop_remaining x.1 x.2.1 x.2.2
    obtain ⟨n', frames, hrun, hn', hframes, hleft⟩ := ih hn₁
    have hstep : n.step (.pollPop x.1 x.2.1 x.2.2) = .ok (n₁, .popped frame) := by
      rw [CoreNode.step, hpop]
      rfl
    refine ⟨n', frame :: frames, run_cons_eq_ok.mpr ⟨n₁, _, _, hstep, hrun, rfl⟩, hn', ?_, ?_⟩
    · have hlength : (frame :: frames).reduceOption.length =
          frame.toList.length + frames.reduceOption.length := by
        cases frame <;> simp [Nat.add_comm]
      omega
    · rw [List.countP_cons]
      by_cases hx : x.2.1 = .ALL
      · have hless := hall hx
        rw [if_pos (decide_eq_true hx)]
        omega
      · rw [if_neg (by simpa using hx)]
        omega

/-- If nothing is left, no poll returns a frame. -/
theorem Inv.pollPop_none (h : n.Inv) (hzero : n.remaining = 0) (waker : Waker)
    (mask : PrioritySet) (mtu : Mtu) : ∃ n', n.pollPop waker mask mtu = .ok (none, n') := by
  obtain ⟨frame, n', hpop, -, hframe, -⟩ := h.pollPop_remaining waker mask mtu
  cases frame with
  | none => exact ⟨n', hpop⟩
  | some frame =>
    rw [Option.toList_some, List.length_singleton] at hframe
    omega

/-- **A node sends all that it has.**  Whatever its endpoints and the driver have done, the driver
gets a bounded number of frames from it.  Once it has polled for all priorities as often as there
are bytes left to send, with other polls in between, the buffers of all endpoints are empty, and no
poll returns another frame until something is pushed. -/
theorem drains (address : NodeId) {ops : List Op}
    (hops : Admissible step Valid (new address) ops) :
    ∃ n events, run step (new address) ops = .ok (n, events) ∧
      ∀ polls : List (Waker × PrioritySet × Mtu), ∃ (n' : CoreNode) (frames : List (Option Frame)),
        run step n (polls.map fun x ↦ Op.pollPop x.1 x.2.1 x.2.2) =
            .ok (n', frames.map Event.popped) ∧
          frames.reduceOption.length ≤ n.remaining ∧
          (n.remaining ≤ polls.countP (fun x ↦ x.2.1 = .ALL) →
            (∀ r ∈ [n'.txMsg, n'.txResp], ∀ a e, r.queue.entries a = some e →
              e.buffer.isEmpty = true) ∧
            ∀ waker mask mtu, ∃ n'', n'.pollPop waker mask mtu = .ok (none, n'')) := by
  obtain ⟨n, events, hrun, h⟩ := run_of_admissible (fun _ _ hs hop ↦ Inv.step hs hop)
    (inv_new address) hops
  refine ⟨n, events, hrun, fun polls ↦ ?_⟩
  obtain ⟨n', frames, hpolls, h', hframes, hleft⟩ := h.polls polls
  refine ⟨n', frames, hpolls, by omega, fun henough ↦ ?_⟩
  have hzero : n'.remaining = 0 := by omega
  obtain ⟨hmsg, hresp⟩ := Nat.add_eq_zero_iff.mp hzero
  refine ⟨fun r hr a e he ↦ ?_, fun waker mask mtu ↦ h'.pollPop_none hzero waker mask mtu⟩
  rcases List.mem_pair.mp hr with rfl | rfl
  · exact TxBuffer.isEmpty_of_popReadiness (h'.txMsg.queue.popReadiness_of_remaining hmsg he)
  · exact TxBuffer.isEmpty_of_popReadiness (h'.txResp.queue.popReadiness_of_remaining hresp he)

/-- Two endpoints, with a transfer of twelve bytes and one of two. -/
def twoTransfers : List Op := [
  .message (.register 1 (.blocking (.fromU16Truncating 5) .low
    [1, 2, 3, 4, 5, 6, 7, 8, 9, 10, 11, 12])),
  .message (.register 2 (.blocking (.fromU16Truncating 6) .high [13, 14])),
  .message (.getScratchpad 1), .message (.tryPush 1 ⟨.low, none, 0, 100, false⟩ 12 .default),
  .message (.getScratchpad 2), .message (.tryPush 2 ⟨.high, none, 0, 100, true⟩ 2 .default)]

/-- The driver polls for all priorities, with polls for none of them in between. -/
def twoPolls : List (Waker × PrioritySet × Mtu) :=
  (List.replicate 20 [(0, .ALL, .classic), (1, .NONE, .classic)]).flatten

/-- Both transfers are fetched, the one of two frames as well. -/
theorem drains_two_subjects : ∃ n events,
    run step (new 1) twoTransfers = .ok (n, events) ∧
    ∃ (n' : CoreNode) (frames : List (Option Frame)),
      run step n (twoPolls.map fun x ↦ Op.pollPop x.1 x.2.1 x.2.2) =
        .ok (n', frames.map Event.popped) ∧
      ∀ a e, n'.txMsg.queue.entries a = some e → e.buffer.isEmpty = true := by
  obtain ⟨n, events, hrun, h⟩ := drains 1 (by decide : Admissible step Valid (new 1) twoTransfers)
  have hcheck : (do
      let x ← run step (new 1) twoTransfers
      pure (decide (x.1.remaining ≤ twoPolls.countP fun x ↦ x.2.1 = .ALL)) : Exec Bool) =
        .ok true := by decide +kernel
  rw [hrun, ok_bind] at hcheck
  have henough := of_decide_eq_true (Except.ok.inj hcheck)
  obtain ⟨n', frames, hpolls, -, hempty⟩ := h twoPolls
  exact ⟨n, events, hrun, n', frames, hpolls, (hempty henough).1 n'.txMsg List.mem_cons_self⟩

end CoreNode

end Emcyphal
