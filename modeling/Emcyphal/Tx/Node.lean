import Emcyphal.Lib.Machine
import Emcyphal.Tx.Registry.Changes

/-!
# The transmit side of a node

`emcyphal/src/node/core_node.rs` and `emcyphal/src/node/minimal_node.rs`, where `poll_pop` is the
same.  A node has a registry for messages and one for responses, and the driver fetches frames from
both through one call.  That call is documented to return the frame with the highest matching
priority (`link::Tx::pop`), but it asks the registry for messages first, and the other one only if
it has nothing.

The rest of the node, which is about frames that are received, is left out.
-/

set_option autoImplicit false

namespace Emcyphal

open Rust TxQueue

/-- A `CoreNode` or a `NodeState`. -/
structure CoreNode where
  address : NodeId
  txMsg : Registry
  txResp : Registry

namespace CoreNode

def new (address : NodeId) : CoreNode := ⟨address, .message .new, .response .new⟩

/-- `frame.header.source = Some(self.address)`. -/
def setSource (n : CoreNode) (frame : Frame) : Frame :=
  { frame with header := { frame.header with source := some n.address } }

/-- `none` is `Poll::Pending`. -/
def pollPop (n : CoreNode) (waker : Waker) (priorityMask : PrioritySet) (mtu : Mtu) :
    Exec (Option Frame × CoreNode) := do
  let (frame, queue) ← n.txMsg.queue.pollPop waker priorityMask mtu
  let n := { n with txMsg := n.txMsg.setQueue queue }
  match frame with
  | some frame => return (some (n.setSource frame), n)
  | none =>
    let (frame, queue) ← n.txResp.queue.pollPop waker priorityMask mtu
    let n := { n with txResp := n.txResp.setQueue queue }
    match frame with
    | some frame => return (some (n.setSource frame), n)
    | none => return (none, n)

/-- The endpoints call the registries, and the driver polls the node. -/
inductive Op
  | message (op : Registry.Op)
  | response (op : Registry.Op)
  | pollPop (waker : Waker) (priorityMask : PrioritySet) (mtu : Mtu)
deriving DecidableEq

inductive Event
  | message (event : Registry.Event)
  | response (event : Registry.Event)
  | popped (frame : Option Frame)
deriving DecidableEq

def step (n : CoreNode) : Op → Exec (CoreNode × Event)
  | .message op => do
    let (txMsg, event) ← n.txMsg.step op
    return ({ n with txMsg := txMsg }, .message event)
  | .response op => do
    let (txResp, event) ← n.txResp.step op
    return ({ n with txResp := txResp }, .response event)
  | .pollPop waker priorityMask mtu => do
    let (frame, n) ← n.pollPop waker priorityMask mtu
    return (n, .popped frame)

/-- An endpoint does not poll the registry. -/
def IsEndpoint : Registry.Op → Prop
  | .pollPop _ _ _ => False
  | _ => True

instance : (op : Registry.Op) → Decidable (IsEndpoint op)
  | .pollPop _ _ _ => isFalse id
  | .register _ _ | .unregister _ | .getScratchpad _ | .writeScratchpad _ _ | .tryPush _ _ _ _ =>
    isTrue trivial

def Valid (n : CoreNode) : Op → Prop
  | .message op => n.txMsg.Valid op ∧ IsEndpoint op
  | .response op => n.txResp.Valid op ∧ IsEndpoint op
  | .pollPop _ _ _ => True

instance (n : CoreNode) : (op : Op) → Decidable (n.Valid op)
  | .message _ | .response _ => inferInstanceAs (Decidable (_ ∧ _))
  | .pollPop _ _ _ => isTrue trivial

/-- What holds of a node in every state. -/
structure Inv (n : CoreNode) : Prop where
  txMsg : n.txMsg.Inv
  txResp : n.txResp.Inv

/-- There is a registered buffer whose most urgent ready priority is this one, and in the mask. -/
def Reports (q : TxQueue) (mask : PrioritySet) (p : Priority) : Prop :=
  mask.contains p = true ∧ ∃ a e, q.entries a = some e ∧ e.buffer.popReadiness.first = some p

/-- A message is ready, but a response is more urgent than all messages. -/
def Inverted (n : CoreNode) (mask : PrioritySet) : Prop :=
  (∃ p, Reports n.txMsg.queue mask p) ∧
    ∃ p, Reports n.txResp.queue mask p ∧ ∀ p', Reports n.txMsg.queue mask p' → p < p'

variable {n : CoreNode} {q : TxQueue} {mask : PrioritySet}

/-- What is queued is what is reported. -/
theorem reports_iff (hq : q.Inv) {p : Priority} :
    Reports q mask p ↔ mask.contains p = true ∧ q.Queued p := by
  refine and_congr_right fun _ ↦ ⟨?_, ?_⟩
  · rintro ⟨a, e, he, hfirst⟩
    have hmark := hq.mark_eq he
    rw [Entry.place, hfirst, Option.map_some] at hmark
    have hmem := (hq.linked.mem _ a).mpr hmark
    split at hmem
    · exact .inl (List.ne_nil_of_mem hmem)
    · exact .inr (List.ne_nil_of_mem hmem)
  · intro hqueued
    have hfront : ∃ k a, (q.queues.getQueue (p, k)).head? = some a := by
      rcases hqueued with hne | hne
      · exact ⟨.started, Option.ne_none_iff_exists'.mp (mt List.head?_eq_none_iff.mp hne)⟩
      · exact ⟨.finished, Option.ne_none_iff_exists'.mp (mt List.head?_eq_none_iff.mp hne)⟩
    obtain ⟨k, a, hfront⟩ := hfront
    obtain ⟨e, -, -, he, -, -, hfirst, -⟩ := hq.of_front hfront
    exact ⟨a, e, he, hfirst⟩

/-- A poll of a registry returns a frame of the most urgent priority that is reported. -/
theorem poll_cases {r : Registry} (hr : r.Inv) (waker : Waker) (mask : PrioritySet) (mtu : Mtu) :
    (∃ q, r.queue.pollPop waker mask mtu = .ok (none, q) ∧ (r.setQueue q).Inv ∧
      ∀ p, ¬ Reports r.queue mask p) ∨
    ∃ frame q, r.queue.pollPop waker mask mtu = .ok (some frame, q) ∧ (r.setQueue q).Inv ∧
      Reports r.queue mask frame.header.priority ∧
      ∀ p, Reports r.queue mask p → frame.header.priority ≤ p := by
  rcases hr.queue.pollPop waker mask mtu with ⟨q, hpop, hq, hstarted, -, -, hnone⟩ |
    ⟨p, a, frame, eot, q, hpop, hq, -, hpopped, hmask, hqueued, hmin⟩
  · exact .inl ⟨q, hpop, hr.setQueue hq fun a ↦ by rw [hstarted],
      fun p hp ↦ hnone p hp.1 ((reports_iff hr.queue).mp hp).2⟩
  · refine .inr ⟨frame, q, hpop, hr.setQueue hq (Registry.Popped.isSome hpopped), ?_, fun p hp ↦ ?_⟩
    · rw [hpopped.priority, reports_iff hr.queue]
      exact ⟨hmask, hqueued⟩
    · rw [hpopped.priority]
      exact hmin p hp.1 ((reports_iff hr.queue).mp hp).2

/-- What a poll of the node returns. -/
theorem Inv.pollPop (h : n.Inv) (waker : Waker) (mask : PrioritySet) (mtu : Mtu) :
    ∃ frame n', n.pollPop waker mask mtu = .ok (frame, n') ∧ n'.Inv ∧
      ((∃ f ∈ frame, Reports n.txMsg.queue mask f.header.priority ∧
        ∀ p, Reports n.txMsg.queue mask p → f.header.priority ≤ p) ∨
      (∃ f ∈ frame, (∀ p, ¬ Reports n.txMsg.queue mask p) ∧
        Reports n.txResp.queue mask f.header.priority ∧
        ∀ p, Reports n.txResp.queue mask p → f.header.priority ≤ p) ∨
      frame = none ∧ ∀ p, ¬ Reports n.txMsg.queue mask p ∧ ¬ Reports n.txResp.queue mask p) := by
  rw [CoreNode.pollPop]
  rcases poll_cases h.txMsg waker mask mtu with ⟨q, hpop, hq, hnone⟩ | ⟨frame, q, hpop, hq,
    hreports, hmin⟩
  · rcases poll_cases h.txResp waker mask mtu with
      ⟨q', hpop', hq', hnone'⟩ | ⟨frame, q', hpop', hq', hreports', hmin'⟩
    · exact ⟨none, ⟨n.address, n.txMsg.setQueue q, n.txResp.setQueue q'⟩,
        by rw [hpop, ok_bind]; dsimp only; rw [hpop']; rfl, ⟨hq, hq'⟩,
        .inr (.inr ⟨rfl, fun p ↦ ⟨hnone p, hnone' p⟩⟩)⟩
    · exact ⟨some (n.setSource frame), ⟨n.address, n.txMsg.setQueue q, n.txResp.setQueue q'⟩,
        by rw [hpop, ok_bind]; dsimp only; rw [hpop']; rfl, ⟨hq, hq'⟩,
        .inr (.inl ⟨_, rfl, hnone, hreports', hmin'⟩)⟩
  · exact ⟨some (n.setSource frame), ⟨n.address, n.txMsg.setQueue q, n.txResp⟩, by rw [hpop]; rfl,
      ⟨hq, h.txResp⟩, .inl ⟨_, rfl, hreports, hmin⟩⟩

theorem inv_new (address : NodeId) : (new address).Inv :=
  ⟨Registry.inv_message, Registry.inv_response⟩

theorem Inv.step (h : n.Inv) {op : Op} (hop : n.Valid op) :
    ∃ n' event, n.step op = .ok (n', event) ∧ n'.Inv := by
  cases op with
  | message op =>
    obtain ⟨r, event, hstep, hr, -⟩ := h.txMsg.step hop.1
    exact ⟨{ n with txMsg := r }, .message event, by rw [CoreNode.step, hstep]; rfl, hr, h.txResp⟩
  | response op =>
    obtain ⟨r, event, hstep, hr, -⟩ := h.txResp.step hop.1
    exact ⟨{ n with txResp := r }, .response event, by rw [CoreNode.step, hstep]; rfl, h.txMsg, hr⟩
  | pollPop waker mask mtu =>
    obtain ⟨frame, n', hpop, hn', -⟩ := h.pollPop waker mask mtu
    exact ⟨n', _, by rw [CoreNode.step, hpop]; rfl, hn'⟩

/-- **A node hands out the most urgent frame** exactly if no response is more urgent than all
messages that are ready. -/
theorem pops_most_urgent_iff (address : NodeId) {ops : List Op}
    (hops : Admissible step Valid (new address) ops) :
    ∃ n events, run step (new address) ops = .ok (n, events) ∧
      ∀ waker mask mtu, (∀ frame n', n.pollPop waker mask mtu = .ok (some frame, n') →
          mask.contains frame.header.priority = true ∧
          ¬ ∃ p, (Reports n.txMsg.queue mask p ∨ Reports n.txResp.queue mask p) ∧
            p < frame.header.priority) ↔
        ¬ n.Inverted mask := by
  obtain ⟨n, events, hrun, h⟩ := run_of_admissible (fun s op hs hop ↦ Inv.step hs hop)
    (inv_new address) hops
  refine ⟨n, events, hrun, fun waker mask mtu ↦ ?_⟩
  obtain ⟨frame, n', hpop, -, hcases⟩ := h.pollPop waker mask mtu
  constructor
  · rintro hgood ⟨⟨p, hp⟩, p', hp', hless⟩
    rcases hcases with ⟨f, hf, hreports, -⟩ | ⟨f, -, hnone, -⟩ | ⟨-, hnone⟩
    · cases hf
      exact (hgood f n' hpop).2 ⟨p', .inr hp', hless _ hreports⟩
    · exact hnone p hp
    · exact (hnone p).1 hp
  · intro hnot frame' n'' hpop'
    cases hpop.symm.trans hpop'
    rcases hcases with ⟨f, hf, hreports, hmin⟩ | ⟨f, hf, hnone, hreports, hmin⟩ | ⟨hf, -⟩
    · cases hf
      refine ⟨hreports.1, ?_⟩
      rintro ⟨p, hp | hp, hlt⟩
      · exact absurd (hmin p hp) (not_le.mpr hlt)
      · exact hnot ⟨⟨_, hreports⟩, p, hp, fun p' hp' ↦ hlt.trans_le (hmin p' hp')⟩
    · cases hf
      refine ⟨hreports.1, ?_⟩
      rintro ⟨p, hp | hp, hlt⟩
      · exact hnone p hp
      · exact absurd (hmin p hp) (not_le.mpr hlt)
    · cases hf

theorem pops_most_urgent_iff_one_message : ∃ n events,
    run step (new 1) [.message (.register 1 (.blocking 5 .low [0])), .message (.getScratchpad 1),
      .message (.tryPush 1 ⟨.low, none, 0, 100, false⟩ 1 .default)] = .ok (n, events) ∧
    ∀ waker mask mtu, (∀ frame n', n.pollPop waker mask mtu = .ok (some frame, n') →
        mask.contains frame.header.priority = true ∧
        ¬ ∃ p, (Reports n.txMsg.queue mask p ∨ Reports n.txResp.queue mask p) ∧
          p < frame.header.priority) ↔
      ¬ n.Inverted mask :=
  pops_most_urgent_iff 1 (by decide)

/-- A message of priority low is handed out while a response of priority high is ready. -/
theorem pops_less_urgent : ∃ n events n' frame,
    run step (new 1) [.message (.register 1 (.blocking 5 .low [0])), .message (.getScratchpad 1),
      .message (.tryPush 1 ⟨.low, none, 0, 100, false⟩ 1 .default),
      .response (.register 2 (.response 3 (List.replicate 8 [0]))), .response (.getScratchpad 2),
      .response (.tryPush 2 ⟨.high, some 10, 0, 100, false⟩ 1 .default)] = .ok (n, events) ∧
    n.pollPop 0 .ALL .classic = .ok (some frame, n') ∧ frame.header.priority = .low ∧
    (n.txResp.queue.entries 2).map (fun e ↦ e.buffer.popReadiness.first) = some (some .high) :=
  ⟨_, _, _, _, rfl, rfl, rfl, rfl⟩

end CoreNode

end Emcyphal
