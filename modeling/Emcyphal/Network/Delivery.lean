import Emcyphal.Network.Publishers
import Emcyphal.Network.Subscribers

/-!
# From the publishers of a node to the subscribers of another one

Two nodes and the link between them.  The frames that the sender hands out are on the link until
the receiver gets them, in the same order.  In between, the publishers push messages, the endpoints
of the receiver pop transfers, and a push to the receiver goes from entry to entry.

What a subscriber has got is always the start of what its publisher has sent (`Inv`), so that it
returns the messages it has got all frames of, in order, each of them once (`delivers_in_order`).
-/

set_option autoImplicit false

namespace Emcyphal

open Rust

structure Network (ι : Type) (SN TN : ι → ℕ) where
  sender : PublisherNode ι
  /-- The frames on the link, the oldest one first. -/
  link : List Frame
  receiver : SubscriberNode ι SN TN

namespace Network

variable {ι : Type} {SN TN : ι → ℕ} {T : ι → Type}

inductive Op (T : ι → Type)
  | sender (op : PublisherNode.Op T)
  /-- The next frame is received, at this time. -/
  | receive (timestamp : Instant)
  | receiver (op : SubscriberNode.Op ι)

inductive Event (T : ι → Type)
  | sender (event : PublisherNode.Event T)
  | receiver (event : SubscriberNode.Event ι)
  /-- There was nothing on the link. -/
  | idle

/-- The frame as the driver of the receiver hands it on. -/
def receivedAt (timestamp : Instant) (frame : Frame) : Frame :=
  { frame with timestamp := timestamp, loopBack := false }

/-- The frame that a poll of the sender has returned. -/
def frame? : PublisherNode.Event T → Option Frame
  | .popped frame => frame
  | _ => none

section Step

variable [DecidableEq ι] [∀ i, Serialize (T i)]

def step (topic : ι → Topic) (owners : Owners ι) (n : Network ι SN TN) :
    Op T → Exec (Network ι SN TN × Event T)
  | .sender op => do
    let (sender, event) ← n.sender.step topic op
    return ({ n with sender := sender, link := n.link ++ (frame? event).toList }, .sender event)
  | .receive timestamp =>
    match n.link with
    | [] => .ok (n, .idle)
    | frame :: link => do
      let (receiver, event) ← n.receiver.pushStart (receivedAt timestamp frame)
      return ({ n with link := link, receiver := receiver }, .receiver event)
  | .receiver op => do
    let (receiver, event) ← n.receiver.step owners op
    return ({ n with receiver := receiver }, .receiver event)

/-- The receiver gets no other frames, and the next one when it is done with the last one. -/
def Valid [∀ i, BufferType (T i)] (topic : ι → Topic) (n : Network ι SN TN) : Op T → Prop
  | .sender op => n.sender.Valid topic op
  | .receive _ => n.receiver.pushing.isNone = true
  | .receiver (.pushStart _) => False
  | .receiver op => n.receiver.Valid op

instance [∀ i, BufferType (T i)] (topic : ι → Topic) (n : Network ι SN TN) :
    (op : Op T) → Decidable (n.Valid topic op)
  | .sender op => inferInstanceAs (Decidable (n.sender.Valid topic op))
  | .receive _ => inferInstanceAs (Decidable (_ = true))
  | .receiver (.pushStart _) => isFalse id
  | .receiver .pushNext => inferInstanceAs (Decidable (n.receiver.Valid .pushNext))
  | .receiver (.endpoint i op) => inferInstanceAs (Decidable (n.receiver.Valid (.endpoint i op)))

end Step

/-! ## What both nodes have seen -/

def sent (events : List (Event T)) : List (PublisherNode.Event T) :=
  events.filterMap fun
    | .sender event => some event
    | _ => none

def received (events : List (Event T)) : List (SubscriberNode.Event ι) :=
  events.filterMap fun
    | .receiver event => some event
    | _ => none

theorem sent_append (events : List (Event T)) (event : Event T) :
    sent (events ++ [event]) = sent events ++ sent [event] := List.filterMap_append

theorem received_append (events : List (Event T)) (event : Event T) :
    received (events ++ [event]) = received events ++ received [event] := List.filterMap_append

/-- The same frame, at another time. -/
structure Carried (f g : Frame) : Prop where
  header : g.header = f.header
  data : g.data = f.data

/-- The invariant of a run: both nodes are as they have to be, and what the sender has handed out is
what was pushed to the receiver, and what is on the link. -/
structure Inv [DecidableEq ι] [∀ i, BufferType (T i)] [∀ i, Serialize (T i)] (topic : ι → Topic)
    (address : NodeId) (owners : Owners ι) (r₀ : (i : ι) → RxPriorityFifoInner (SN i) (TN i))
    (events : List (Event T)) (n : Network ι SN TN) : Prop where
  sender : n.sender.Inv topic address (sent events)
  receiver : n.receiver.Inv owners (fun i ↦ (topic i).subject) r₀ (received events)
  link : ∀ d, ∃ arrived, PublisherNode.popped d (sent events) =
      arrived ++ n.link.filter (fun frame ↦ frame.header.dataSpec = d) ∧
    List.Forall₂ Carried arrived (SubscriberNode.pushed d (received events))

section Runs

variable [DecidableEq ι] [∀ i, BufferType (T i)] [∀ i, Serialize (T i)] {topic : ι → Topic}
  {address : NodeId} {owners : Owners ι} {r₀ : (i : ι) → RxPriorityFifoInner (SN i) (TN i)}
  {events : List (Event T)} {n : Network ι SN TN}

omit [DecidableEq ι] [∀ i, BufferType (T i)] [∀ i, Serialize (T i)] in
/-- What the sender hands out is on the link. -/
theorem popped_frame? (d : DataSpecifier) (event : PublisherNode.Event T) :
    PublisherNode.popped d [event] =
      (frame? event).toList.filter fun frame ↦ frame.header.dataSpec = d := by
  cases event with
  | created | pushed => rfl
  | popped frame =>
    cases frame with
    | none => rfl
    | some frame =>
      by_cases h : frame.header.dataSpec = d
      · simp [PublisherNode.popped, frame?, h]
      · simp [PublisherNode.popped, frame?, h]

variable [∀ i, LawfulSerialize (T i)] (hsubject : Function.Injective fun i ↦ (topic i).subject)

include hsubject

/-- The sender does something. -/
theorem Inv.sends (h : n.Inv topic address owners r₀ events) {op : PublisherNode.Op T}
    (hop : n.sender.Valid topic op) : ∃ n' event, n.step topic owners (.sender op) =
      .ok (n', event) ∧ n'.Inv topic address owners r₀ (events ++ [event]) := by
  obtain ⟨sender, event, hstep, hsender⟩ := h.sender.step hsubject hop
  have hsent : sent (events ++ [.sender event]) = sent events ++ [event] := sent_append ..
  have hreceived : received (events ++ [.sender event]) = received events := by
    rw [received_append]
    exact List.append_nil _
  refine ⟨⟨sender, n.link ++ (frame? event).toList, n.receiver⟩, .sender event, ?_,
    hsent ▸ hsender, hreceived ▸ h.receiver, fun d ↦ ?_⟩
  · rw [step, hstep]
    rfl
  · obtain ⟨arrived, hpopped, hcarried⟩ := h.link d
    refine ⟨arrived, ?_, hreceived ▸ hcarried⟩
    rw [hsent, PublisherNode.popped_append, hpopped, popped_frame?, List.append_assoc,
      List.filter_append]

variable {capacity : ι → ℕ} {timeout : ι → Duration} {buffers : ι → List (List Byte)}
  (hsized : ∀ i, RxPriorityFifoInner.Sized (SN i) (TN i) (capacity i) (buffers i))
  (hSN : ∀ i, 1 ≤ SN i)
  (hnew : ∀ i, RxPriorityFifoInner.new (SN i) (TN i) (.message (topic i).subject) (timeout i)
    (buffers i) = .ok (r₀ i))

include hsized hSN hnew

/-- **What was received is the start of what was sent**, whatever is done next. -/
theorem Inv.step (h : n.Inv topic address owners r₀ events) {op : Op T} (hop : n.Valid topic op) :
    ∃ n' event, n.step topic owners op = .ok (n', event) ∧
      n'.Inv topic address owners r₀ (events ++ [event]) := by
  have hreceives : ∀ event : SubscriberNode.Event ι,
      sent (events ++ [(.receiver event : Event T)]) = sent events ∧
        received (events ++ [(.receiver event : Event T)]) = received events ++ [event] := by
    intro event
    rw [sent_append, received_append]
    exact ⟨List.append_nil _, rfl⟩
  cases op with
  | sender op => exact h.sends hsubject hop
  | receive timestamp =>
    cases hlink : n.link with
    | nil =>
      refine ⟨n, .idle, by rw [Network.step, hlink], ?_⟩
      have hidle : sent (events ++ [(.idle : Event T)]) = sent events ∧
          received (events ++ [(.idle : Event T)]) = received events := by
        rw [sent_append, received_append]
        exact ⟨List.append_nil _, List.append_nil _⟩
      exact ⟨hidle.1 ▸ h.sender, hidle.2 ▸ h.receiver, by rw [hidle.1, hidle.2]; exact h.link⟩
    | cons frame link =>
      obtain ⟨receiver, started, hstart, hreceiver⟩ :=
        h.receiver.pushStart (Option.isNone_iff_eq_none.mp hop) (receivedAt timestamp frame)
      obtain ⟨hsent, hreceived⟩ := hreceives (.started (receivedAt timestamp frame) started)
      refine ⟨⟨n.sender, link, receiver⟩, .receiver (.started (receivedAt timestamp frame) started),
        ?_, hsent ▸ h.sender, hreceived ▸ hreceiver, fun d ↦ ?_⟩
      · rw [Network.step, hlink]
        dsimp only
        rw [hstart]
        rfl
      · obtain ⟨arrived, hpopped, hcarried⟩ := h.link d
        rw [hlink] at hpopped
        rw [hsent, hreceived, SubscriberNode.pushed_started, hpopped]
        by_cases hd : frame.header.dataSpec = d
        · refine ⟨arrived ++ [frame], by simp [hd], ?_⟩
          rw [if_pos ⟨hd, rfl⟩]
          exact List.rel_append hcarried (.cons ⟨rfl, rfl⟩ .nil)
        · refine ⟨arrived, by simp [hd], ?_⟩
          rwa [if_neg fun heq ↦ hd heq.1, List.append_nil]
  | receiver op =>
    have hstarts : ∀ frame, op ≠ .pushStart frame := by
      rintro frame rfl
      exact hop
    have hvalid : n.receiver.Valid op := by
      cases op with
      | pushStart frame => exact absurd rfl (hstarts frame)
      | pushNext | endpoint => exact hop
    obtain ⟨receiver, event, hstep, hreceiver⟩ := h.receiver.step hsized hSN hnew hvalid
    obtain ⟨hsent, hreceived⟩ := hreceives event
    refine ⟨⟨n.sender, n.link, receiver⟩, .receiver event, ?_, hsent ▸ h.sender,
      hreceived ▸ hreceiver, fun d ↦ ?_⟩
    · rw [Network.step, hstep]
      rfl
    · rw [hsent, hreceived,
        SubscriberNode.pushed_of_not_started _ (SubscriberNode.not_started hstarts hstep)]
      exact h.link d

omit [∀ i, LawfulSerialize (T i)] hsubject hsized hSN hnew in
/-- What a subscriber has got is the start of what its publisher has sent. -/
theorem Inv.streams (h : n.Inv topic address owners r₀ events) (i : ι) :
    ∃ (transfers : List Outgoing) (c : Cursor) (transit : List Frame),
      transfers.map Outgoing.buffer = PublisherNode.payloads i (sent events) ∧
      Numbered transfers Publisher.idOf ∧
      PublisherNode.popped (.message (topic i).subject) (sent events) =
        (c.all ++ transit).map n.sender.node.setSource ∧
      (n.link = [] → n.receiver.pushing = none → transit = []) ∧
      c.Within transfers (topic i).priority (.message (topic i).subject) ∧
      List.Forall₂ (Arrives address) c.all
        (arrivals (SubscriberNode.history i (received events))) ∧
      Streams address transfers (topic i).priority (.message (topic i).subject)
        (arrivals (SubscriberNode.history i (received events))) c := by
  obtain ⟨frames, next, ⟨transfers, c₁, hpayloads, hids, -, hpath⟩, hframes, -⟩ :=
    h.sender.publishes i
  obtain ⟨held, done, hdelivered⟩ := h.receiver.delivered
  obtain ⟨arrived, hpopped, hcarried⟩ := h.link (.message (topic i).subject)
  rw [hdelivered.arrives i] at hcarried
  obtain ⟨arrived, pushing, rfl, hcarried, hpushing⟩ := forall₂_append_right hcarried
  rw [List.append_assoc] at hpopped
  obtain ⟨got, transit, rfl, rfl, htransit⟩ :=
    List.map_eq_append_iff.mp (hframes.symm.trans hpopped)
  obtain ⟨c, hgot, -⟩ := hpath.split
  obtain ⟨hwithin, hall⟩ := (Cursor.within_start _ _).path hgot
  obtain rfl : c.all = got := hall
  have harrives : List.Forall₂ (Arrives address) c.all
      (arrivals (SubscriberNode.history i (received events))) := by
    refine (List.forall₂_map_left_iff.mp hcarried).imp fun f g hfg ↦ ⟨?_, hfg.data⟩
    rw [hfg.header, CoreNode.setSource, h.sender.address]
  refine ⟨transfers, c, transit, hpayloads, hids, hframes, fun hlink hidle ↦ ?_, hwithin, harrives,
    _, hgot, harrives⟩
  rw [hidle] at hpushing
  obtain rfl := List.forall₂_nil_right_iff.mp hpushing
  rw [hlink] at htransit
  exact List.map_eq_nil_iff.mp htransit

end Runs

/-- **Messages are delivered in order, without loss or duplication.**  A node has publishers on
different subjects, and another node has an active subscriber to each of them, with slots for
sessions.  The publishers push messages, the driver polls the first node for frames, with any masks,
the frames are pushed to the second node in the same order, and its endpoints pop transfers, all in
any order.  Then the transfers that a subscriber has popped, and those it will pop next, are the
messages whose frames were all delivered to it, in the order they were pushed, each with its payload
and zeros.

It is needed that the frames of each message are delivered within the timeout after its first one,
that the transfers that were not popped yet never are more than there are slots for, and that the
payloads fit the buffers of the subscriber.  No slice of a 32-bit target is longer than `2 ^ 31`. -/
theorem delivers_in_order [DecidableEq ι] [∀ i, BufferType (T i)] [∀ i, Serialize (T i)]
    [∀ i, LawfulSerialize (T i)] {topic : ι → Topic}
    (hsubject : Function.Injective fun i ↦ (topic i).subject) (address : NodeId)
    (owners : Owners ι) (subjectSlotCount : ℕ) {before : List RxMsg.Op}
    (hbefore : Admissible RxMsg.System.step RxMsg.System.Valid
      (RxMsg.System.new subjectSlotCount) before)
    {s : RxMsg.System} {log : List RxMsg.Event}
    (hregistry : run RxMsg.System.step (RxMsg.System.new subjectSlotCount) before = .ok (s, log))
    (hregistered : ∀ i, ∃ e ∈ s.inner.activeEntryTree,
      e.address = owners.address i ∧ e.subject = (topic i).subject)
    {capacity : ι → ℕ} {timeout : ι → Duration} {buffers : ι → List (List Byte)}
    (hsized : ∀ i, RxPriorityFifoInner.Sized (SN i) (TN i) (capacity i) (buffers i))
    (hSN : ∀ i, 1 ≤ SN i) (hcapacity : ∀ i, capacity i < 2 ^ 31)
    {r₀ : (i : ι) → RxPriorityFifoInner (SN i) (TN i)}
    (hnew : ∀ i, RxPriorityFifoInner.new (SN i) (TN i) (.message (topic i).subject) (timeout i)
      (buffers i) = .ok (r₀ i))
    {ops : List (Op T)}
    (hops : Admissible (step topic owners) (Valid topic) ⟨.new address, [], ⟨s.inner, none, r₀⟩⟩
      ops) :
    ∃ n events, run (step topic owners) ⟨.new address, [], ⟨s.inner, none, r₀⟩⟩ ops =
        .ok (n, events) ∧
      ∀ i, Timely (timeout i) (arrivals (SubscriberNode.history i (received events))) →
        HasRoom (TN i) (SubscriberNode.history i (received events)) →
        (∀ payload ∈ PublisherNode.payloads i (sent events), payload.length ≤ capacity i) →
        ∃ (transfers : List Outgoing) (c : Cursor) (transit : List Frame) (queued : List Item),
          transfers.map Outgoing.buffer = PublisherNode.payloads i (sent events) ∧
          c.Within transfers (topic i).priority (.message (topic i).subject) ∧
          PublisherNode.popped (.message (topic i).subject) (sent events) =
            (c.all ++ transit).map n.sender.node.setSource ∧
          (n.link = [] → n.receiver.pushing = none → transit = []) ∧
          List.Forall₂ (Arrives address) c.all
            (arrivals (SubscriberNode.history i (received events))) ∧
          List.Forall₂ Carries (transfers.take c.done.length)
            (taken (SubscriberNode.history i (received events)) ++ queued) ∧
          ∀ mask : PrioritySet, mask.contains (topic i).priority = true →
            ∃ r, (n.receiver.subscribers i).tryPop mask = .ok (queued.head?, r) := by
  obtain ⟨s', log', hregistry', hinv⟩ := RxMsg.System.inv_of_run hbefore
  cases hregistry.symm.trans hregistry'
  have hstart : Inv topic address owners r₀ ([] : List (Event T))
      (⟨.new address, [], ⟨s.inner, none, r₀⟩⟩ : Network ι SN TN) := by
    refine ⟨PublisherNode.inv_new topic address, ⟨hregistered, fun i ↦ ⟨[], rfl⟩, s.held, [], hinv,
      by simp, fun i ↦ rfl⟩, fun d ↦ ⟨[], rfl, .nil⟩⟩
  have hstep : ∀ (events : List (Event T)) (n : Network ι SN TN) (op : Op T),
      n.Inv topic address owners r₀ events → n.Valid topic op → ∃ n' event,
        n.step topic owners op = .ok (n', event) ∧
          n'.Inv topic address owners r₀ (events ++ [event]) :=
    fun events n op h hop ↦ h.step hsubject hsized hSN hnew hop
  obtain ⟨n, events, hrun, h⟩ := run_of_outputs hstep hstart hops
  refine ⟨n, events, hrun, fun i htimely hroom hfits ↦ ?_⟩
  obtain ⟨transfers, c, transit, hpayloads, hids, hpopped, htransit, hwithin, harrives, hstreams⟩ :=
    h.streams i
  have hnext : ∀ k, Publisher.idOf k ≠ Publisher.idOf (k + 1) := by
    intro k heq
    rw [Publisher.idOf_eq_iff (Nat.le_succ k)] at heq
    omega
  have hbuffers : ∀ o ∈ transfers, o.buffer.length ≤ capacity i := fun o ho ↦
    hfits _ (hpayloads ▸ List.mem_map_of_mem ho)
  obtain ⟨fifoOps, hfifo⟩ := h.receiver.runs i
  obtain ⟨queued, hqueued, hnextPop⟩ := RxPriorityFifoInner.receives_in_order hids hnext hbuffers
    (hcapacity i) (hsized i) (hnew i) hfifo hstreams htimely hroom
  exact ⟨transfers, c, transit, queued, hpayloads, hwithin, hpopped, htransit, harrives, hqueued,
    hnextPop⟩

/-! ## Two subjects -/

def twoTopics : Bool → Topic
  | false => ⟨.fromU16Truncating 5, .nominal, 100, false⟩
  | true => ⟨.fromU16Truncating 6, .high, 100, false⟩

def twoOwners : Owners Bool where
  address i := if i then 2 else 1
  owner
    | 1 => some false
    | 2 => some true
    | _ => none
  owner_eq_some a i := by rcases a with _ | _ | _ | a <;> cases i <;> simp

/-- A subscriber to each of them is active. -/
def twoActive : List RxMsg.Op :=
  [.register 1 (twoTopics false).subject, .register 2 (twoTopics true).subject, .poll 0, .poll 0]

def twoBuffers : List (List Byte) := .replicate 3 (.replicate 16 0)

def twoNodes : Exec (Network Bool (fun _ ↦ 1) fun _ ↦ 1) := do
  let x ← run RxMsg.System.step (.new 2) twoActive
  let r₁ ← RxPriorityFifoInner.new 1 1 (.message (twoTopics false).subject) 100 twoBuffers
  let r₂ ← RxPriorityFifoInner.new 1 1 (.message (twoTopics true).subject) 100 twoBuffers
  return ⟨.new (.fromU8Truncating 7), [], ⟨x.1.inner, none, fun i ↦ bif i then r₂ else r₁⟩⟩

theorem twoNodes_ok : ∃ (s : RxMsg.System) (log : List RxMsg.Event)
    (r : (i : Bool) → RxPriorityFifoInner 1 1),
    run RxMsg.System.step (.new 2) twoActive = .ok (s, log) ∧
      (∀ i, ∃ e ∈ s.inner.activeEntryTree,
        e.address = twoOwners.address i ∧ e.subject = (twoTopics i).subject) ∧
      (∀ i, RxPriorityFifoInner.new 1 1 (.message (twoTopics i).subject) 100 twoBuffers =
        .ok (r i)) ∧
      twoNodes = .ok ⟨.new (.fromU8Truncating 7), [], ⟨s.inner, none, r⟩⟩ := by
  obtain ⟨s, log, hregistry⟩ : ∃ s log, run RxMsg.System.step (.new 2) twoActive =
    .ok (s, log) := ⟨_, _, rfl⟩
  have hsubscriber : ∀ i, ∃ r, RxPriorityFifoInner.new 1 1 (.message (twoTopics i).subject) 100
      twoBuffers = .ok r := by
    intro i
    cases i <;> exact ⟨_, rfl⟩
  obtain ⟨r₁, hr₁⟩ := hsubscriber false
  obtain ⟨r₂, hr₂⟩ := hsubscriber true
  refine ⟨s, log, fun i ↦ bif i then r₂ else r₁, hregistry, ?_, ?_, ?_⟩
  · cases hregistry
    decide
  · rintro (_ | _)
    · exact hr₁
    · exact hr₂
  · rw [twoNodes, hregistry, ok_bind, hr₁, ok_bind, hr₂, ok_bind]
    rfl

theorem twoTopics_injective : Function.Injective fun i ↦ (twoTopics i).subject := by decide

theorem twoBuffers_sized : RxPriorityFifoInner.Sized 1 1 16 twoBuffers :=
  ⟨by decide, by decide, by decide, by decide⟩

def longMessage : DataTypes.ByteArray :=
  ⟨[21, 22, 23, 24, 25, 26, 27, 28, 29, 30], by decide⟩

def shortMessage : DataTypes.ByteArray := ⟨[31, 32], by decide⟩

/-- Both publishers push a message.  The one of two frames is interrupted by the more urgent one. -/
def twoMessages : List (Op fun _ : Bool ↦ DataTypes.ByteArray) :=
  [.sender (.create false 1 (.replicate 258 0)), .sender (.create true 2 (.replicate 258 0)),
    .sender (.tryPush false longMessage 0), .sender (.pollPop 0 .ALL .classic),
    .sender (.tryPush true shortMessage 0)]

def twoDeliveries : List (Op fun _ : Bool ↦ DataTypes.ByteArray) :=
  [.sender (.pollPop 0 .ALL .classic), .sender (.pollPop 0 .ALL .classic), .receive 10,
    .receiver .pushNext, .receive 20, .receiver .pushNext, .receive 30, .receiver .pushNext,
    .receiver (.endpoint false (.tryPop .ALL))]

/-- The length of an array is in front of it. -/
def twoPayloads : Bool → List Byte
  | false => [10, 0] ++ longMessage.bytes
  | true => [2, 0] ++ shortMessage.bytes

/-- What the theorems need of a run: nothing comes late, there is room, and the payloads fit. -/
def twoReceived (events : List (Event fun _ : Bool ↦ DataTypes.ByteArray)) (i : Bool) : Prop :=
  (∀ first ∈ arrivals (SubscriberNode.history i (received events)),
      ∀ frame ∈ arrivals (SubscriberNode.history i (received events)),
        frame.timestamp ≤ Instant.saturatingAdd first.timestamp 100) ∧
    (arrivals (SubscriberNode.history i (received events))).countP (isEotFrame · = some true) ≤ 1 ∧
    PublisherNode.payloads i (sent events) = [twoPayloads i]

instance (events : List (Event fun _ : Bool ↦ DataTypes.ByteArray)) (i : Bool) :
    Decidable (twoReceived events i) := inferInstanceAs (Decidable (_ ∧ _ ∧ _))

/-- Both messages are received, and the longer one was popped. -/
theorem delivers_in_order_two_subjects :
    ∃ (n₀ n : Network Bool (fun _ ↦ 1) fun _ ↦ 1)
      (events : List (Event fun _ : Bool ↦ DataTypes.ByteArray)),
      twoNodes = .ok n₀ ∧
      run (step twoTopics twoOwners) n₀ (twoMessages ++ twoDeliveries) = .ok (n, events) ∧
      (taken (SubscriberNode.history false (received events))).length = 1 ∧
      ∀ i, ∃ (transfers : List Outgoing) (k : ℕ) (queued : List Item),
        transfers.map Outgoing.buffer = [twoPayloads i] ∧ List.Forall₂ Carries (transfers.take k)
          (taken (SubscriberNode.history i (received events)) ++ queued) := by
  obtain ⟨s, log, r, hregistry, hregistered, hnew, hnodes⟩ := twoNodes_ok
  have hcheck : (do
      let n₀ ← twoNodes
      let x ← run (step twoTopics twoOwners) n₀ (twoMessages ++ twoDeliveries)
      pure (decide (Admissible (step twoTopics twoOwners) (Valid twoTopics) n₀
          (twoMessages ++ twoDeliveries) ∧
        (taken (SubscriberNode.history false (received x.2))).length = 1 ∧
        ∀ i, twoReceived x.2 i)) : Exec Bool) = .ok true := by
    decide +kernel
  rw [hnodes, ok_bind] at hcheck
  obtain ⟨x, hx, hall⟩ := bind_eq_ok.mp hcheck
  obtain ⟨hops, htaken, hreceived⟩ := of_decide_eq_true (Except.ok.inj hall)
  obtain ⟨n, events, hrun, h⟩ := delivers_in_order twoTopics_injective _ twoOwners 2
    (by decide) hregistry hregistered (fun _ ↦ twoBuffers_sized) (fun _ ↦ Nat.le_refl 1)
    (fun _ ↦ by decide) hnew hops
  cases hx.symm.trans hrun
  refine ⟨_, n, events, hnodes, hrun, htaken, fun i ↦ ?_⟩
  obtain ⟨htimely, hroom, hpayload⟩ := hreceived i
  obtain ⟨transfers, c, -, queued, hpayloads, -, -, -, -, hcarries, -⟩ := h i
    (timely_of_forall htimely) (hasRoom_of_countP_le hroom)
    (by rw [hpayload]; cases i <;> decide)
  exact ⟨transfers, c.done.length, queued, hpayloads.trans hpayload, hcarries⟩

end Network

end Emcyphal
