import Emcyphal.Lib.Work
import Emcyphal.Network.Delivery
import Emcyphal.Tx.Drain

/-!
# All messages are delivered

The drivers of two nodes fetch, carry and push frames as long as there are any.  Each frame that is
fetched leaves the sender less to send, each frame that is received leaves less on the link, and
each entry that it is pushed to is one less to come (`Network.backlog`).  So whatever the drivers
do, and in whatever order, they are done after a bounded number of steps that do something.  And
when they are done, every subscriber has got every message of its publisher
(`Network.delivers_all`).
-/

set_option autoImplicit false

namespace Emcyphal

open Rust

/-! ## The sender -/

namespace PublisherNode

variable {ι : Type} {T : ι → Type} [DecidableEq ι] [∀ i, BufferType (T i)] [∀ i, Serialize (T i)]
  {topic : ι → Topic} {address : NodeId} {events : List (Event T)} {n : PublisherNode ι}

/-- A publisher of a node that has nothing left to send has sent all of its messages. -/
theorem Inv.sent_all (h : n.Inv topic address events) (hzero : n.node.remaining = 0) (i : ι) :
    ∃ frames, (topic i).Sent (payloads i events) frames none ∧
      popped (.message (topic i).subject) events = frames.map n.node.setSource := by
  obtain ⟨frames, next, hsent, hframes, hholds⟩ := h.publishes i
  suffices hnone : next = none by
    subst hnone
    exact ⟨frames, hsent, hframes⟩
  generalize hpublisher : n.publishers i = publisher at hholds
  cases hholds with
  | absent => rfl
  | present he hinv hmailbox =>
    have hreadiness := h.node.txMsg.queue.popReadiness_of_remaining
      (Nat.add_eq_zero_iff.mp hzero).1 he
    rw [TxBuffer.popReadiness_blocking hmailbox] at hreadiness
    by_contra hsome
    rw [if_pos (Option.isSome_iff_ne_none.mpr hsome)] at hreadiness
    have hcontains := PrioritySet.first_eq_none_iff.mp hreadiness (topic i).priority
    simp at hcontains

end PublisherNode

/-! ## The frames -/

/-- As many transfers end in the frames that arrive as in those that were sent. -/
theorem countP_eot_of_arrives {source : NodeId} {sent received : List Frame}
    (h : List.Forall₂ (Arrives source) sent received) :
    received.countP (isEotFrame · = some true) = sent.countP (isEotFrame · = some true) := by
  induction h with
  | nil => rfl
  | cons harrives _ ih =>
    rw [List.countP_cons, List.countP_cons, ih, isEotFrame, isEotFrame, harrives.data]

theorem forall₂_arrives_setSource {n : CoreNode} (frames : List Frame) :
    List.Forall₂ (Arrives n.address) frames (frames.map n.setSource) :=
  List.forall₂_map_right_iff.mpr (List.forall₂_same.mpr fun _ _ ↦ ⟨rfl, rfl⟩)

/-! ## The receiver -/

namespace RxMsg

variable {r r' : RegularInner}

namespace RegularInner

/-- The number of entries from the next one of the delivery on. -/
def entriesLeft (r : RegularInner) : ℕ :=
  match r.nextPushPtr with
  | none => 0
  | some next => (r.activeEntryTree.dropWhile fun entry ↦ entry.address != next).length

theorem entriesLeft_le (r : RegularInner) : r.entriesLeft ≤ r.activeEntryTree.length := by
  rw [entriesLeft]
  split
  · exact Nat.zero_le _
  · exact (List.dropWhile_sublist _).length_le

theorem entriesLeft_eq {as bs : List Entry} {e : Entry}
    (hnodup : ((as ++ e :: bs).map Entry.address).Nodup) (hA : r.activeEntryTree = as ++ e :: bs)
    (hnext : r.nextPushPtr = some e.address) : r.entriesLeft = bs.length + 1 := by
  have hne : ∀ x ∈ as, (x.address != e.address) = true := by
    rw [List.map_append, List.map_cons, List.nodup_middle] at hnodup
    intro x hx
    refine bne_iff_ne.mpr fun heq ↦ (List.nodup_cons.mp hnodup).1 ?_
    exact List.mem_append_left _ (heq ▸ List.mem_map_of_mem hx)
  rw [entriesLeft, hnext]
  dsimp only
  rw [hA, List.dropWhile_append_of_pos hne, List.dropWhile_cons_of_neg (by simp), List.length_cons]

end RegularInner

open RegularInner in
/-- One entry less is left. -/
theorem PushesNext.entriesLeft_lt {entry : Option Address} {more : Bool}
    (hp : PushesNext r entry more r') (hnodup : (r.activeEntryTree.map Entry.address).Nodup)
    (hmore : more = true) : r'.entriesLeft < r.entriesLeft := by
  cases hp with
  | idle => cases hmore
  | @next as bs e hA hnext =>
    obtain ⟨a, ha⟩ := Option.isSome_iff_exists.mp hmore
    obtain ⟨x, hx, rfl⟩ := Option.map_eq_some_iff.mp ha
    obtain ⟨rest, rfl⟩ := List.head?_eq_some_iff.mp (Option.filter_eq_some_iff.mp hx).1
    have hA' : r.activeEntryTree = (as ++ [e]) ++ x :: rest := by rw [hA]; simp
    rw [entriesLeft_eq (hA ▸ hnodup) hA hnext,
      entriesLeft_eq (r := { r with nextPushPtr := followUp (x :: rest) }) (hA' ▸ hnodup) hA' ha]
    simp

end RxMsg

namespace SubscriberNode

variable {ι : Type} {SN TN : ι → ℕ} [DecidableEq ι] {owners : Owners ι} {held : Finset SubjectId}
  {n n' : SubscriberNode ι SN TN} {event : Event ι}

/-- The steps that are left until the push of the frame has returned. -/
def left (n : SubscriberNode ι SN TN) : ℕ :=
  match n.pushing with
  | none => 0
  | some _ => n.registry.entriesLeft + 1

omit [DecidableEq ι] in
/-- A push may go to all entries. -/
theorem left_pushStart (h : RxMsg.System.Inv ⟨n.registry, held⟩) (hidle : n.pushing = none)
    {frame : Frame} (hstart : n.pushStart frame = .ok (n', event)) :
    n'.registry.activeEntryTree = n.registry.activeEntryTree ∧
      n'.left ≤ n.registry.activeEntryTree.length + 1 := by
  rw [pushStart] at hstart
  split at hstart
  · rename_i subject _ _
    obtain ⟨started, r, hr, hp⟩ := h.startsPush subject
    have htree : r.activeEntryTree = n.registry.activeEntryTree := by cases hp <;> rfl
    rw [hr] at hstart
    cases hstart
    refine ⟨htree, ?_⟩
    rw [left]
    split
    · exact Nat.zero_le _
    · exact Nat.succ_le_succ (htree ▸ r.entriesLeft_le)
  · cases hstart
    rw [left, hidle]
    exact ⟨rfl, Nat.zero_le _⟩

theorem left_buffer {i : ι} {op : Emcyphal.Op} (hbuffer : n.buffer i op = .ok (n', event)) :
    n'.registry = n.registry ∧ n'.left = n.left ∧
      ∃ e, event = .buffer i e ∧ e.frame? = op.frame? := by
  obtain ⟨⟨r, e⟩, hstep, hrest⟩ := bind_eq_ok.mp hbuffer
  cases hrest
  exact ⟨rfl, rfl, e, rfl, RxPriorityFifoInner.step_frame? hstep⟩

/-- Each step of a push leaves less. -/
theorem left_pushNext (h : RxMsg.System.Inv ⟨n.registry, held⟩) (hpushing : n.pushing.isSome = true)
    (hnext : n.pushNext owners = .ok (n', event)) :
    n'.registry.activeEntryTree = n.registry.activeEntryTree ∧ n'.left < n.left := by
  obtain ⟨frame, hframe⟩ := Option.isSome_iff_exists.mp hpushing
  obtain ⟨entry, more, r, hr, hp⟩ := h.pushesNext
  have htree : r.activeEntryTree = n.registry.activeEntryTree := by cases hp <;> rfl
  have hleft : left ⟨r, if more then some frame else none, n.subscribers⟩ < n.left := by
    rw [left, left, hframe]
    cases hmore : more with
    | false => exact Nat.succ_pos _
    | true => exact Nat.succ_lt_succ (hp.entriesLeft_lt h.nodup_active hmore)
  rw [pushNext, hframe] at hnext
  dsimp only at hnext
  rw [hr, ok_bind] at hnext
  split at hnext
  · cases hnext
    exact ⟨htree, hleft⟩
  · obtain ⟨hregistry, hsame, -⟩ := left_buffer hnext
    exact ⟨hregistry ▸ htree, hsame ▸ hleft⟩

end SubscriberNode

/-! ## The network -/

namespace Network

variable {ι : Type} {SN TN : ι → ℕ} {T : ι → Type}

/-- The publishers push nothing. -/
def Op.Quiet : Op T → Prop
  | .sender (.pollPop _ _ _) | .receive _ | .receiver _ => True
  | .sender _ => False

instance : (op : Op T) → Decidable op.Quiet
  | .sender (.pollPop _ _ _) | .receive _ | .receiver _ => isTrue trivial
  | .sender (.create _ _ _) | .sender (.tryPush _ _ _) => isFalse id

/-- The step is one of a driver or of a subscriber. -/
def Drives [DecidableEq ι] [∀ i, BufferType (T i)] [∀ i, Serialize (T i)] (topic : ι → Topic)
    (n : Network ι SN TN) (op : Op T) : Prop := n.Valid topic op ∧ op.Quiet

instance [DecidableEq ι] [∀ i, BufferType (T i)] [∀ i, Serialize (T i)] (topic : ι → Topic)
    (n : Network ι SN TN) (op : Op T) : Decidable (n.Drives topic op) :=
  inferInstanceAs (Decidable (_ ∧ _))

/-- A frame was fetched, received or pushed to an entry. -/
def Event.moves : Event T → Bool
  | .sender (.popped frame) => frame.isSome
  | .receiver (.started _ _) | .receiver .passed => true
  | .receiver (.buffer _ event) => event.frame?.isSome
  | _ => false

/-- More than the steps that the drivers can still take.  A byte that is left to send may become a
frame, and a frame that is received goes to all entries. -/
def backlog (n : Network ι SN TN) : ℕ :=
  (n.receiver.registry.activeEntryTree.length + 3) * n.sender.node.remaining +
    (n.receiver.registry.activeEntryTree.length + 2) * n.link.length + n.receiver.left

/-- There is nothing left to fetch, to receive and to push. -/
structure AtRest (n : Network ι SN TN) : Prop where
  sender : n.sender.node.remaining = 0
  link : n.link = []
  receiver : n.receiver.pushing = none

section Steps

variable [DecidableEq ι] [∀ i, BufferType (T i)] [∀ i, Serialize (T i)] {topic : ι → Topic}
  {address : NodeId} {owners : Owners ι} {r₀ : (i : ι) → RxPriorityFifoInner (SN i) (TN i)}
  {events : List (Event T)} {n n' : Network ι SN TN} {event : Event T}

/-- **Each step of the drivers that does something leaves less to do.** -/
theorem Inv.backlog_step (h : n.Inv topic address owners r₀ events) {op : Op T}
    (hop : n.Valid topic op) (hquiet : op.Quiet)
    (hstep : n.step topic owners op = .ok (n', event)) :
    n'.backlog + (if event.moves then 1 else 0) ≤ n.backlog := by
  obtain ⟨held, done, hdelivered⟩ := h.receiver.delivered
  cases op with
  | sender op =>
    cases op with
    | create | tryPush => cases hquiet
    | pollPop waker mask mtu =>
      obtain ⟨frame, node, hpop, -, hleft, -⟩ := h.sender.node.pollPop_remaining waker mask mtu
      rw [Network.step, PublisherNode.step, hpop] at hstep
      cases hstep
      cases frame with
      | none =>
        have hmul := Nat.mul_le_mul_left (n.receiver.registry.activeEntryTree.length + 3) hleft
        simpa [backlog, Event.moves, frame?] using hmul
      | some frame =>
        have hmul := Nat.mul_le_mul_left (n.receiver.registry.activeEntryTree.length + 3) hleft
        simp only [backlog, Event.moves, frame?, Option.toList_some, List.length_append,
          List.length_singleton, Nat.mul_add, Option.isSome_some] at hmul ⊢
        rw [if_pos trivial]
        omega
  | receive timestamp =>
    cases hlink : n.link with
    | nil =>
      rw [Network.step, hlink] at hstep
      cases hstep
      exact Nat.le_refl _
    | cons frame link =>
      rw [Network.step, hlink] at hstep
      obtain ⟨⟨receiver, started⟩, hstart, hrest⟩ := bind_eq_ok.mp hstep
      cases hrest
      obtain ⟨htree, hleft⟩ := SubscriberNode.left_pushStart hdelivered.inv
        (Option.isNone_iff_eq_none.mp hop) hstart
      have hone : (if (Event.receiver started : Event T).moves then 1 else 0) ≤ 1 := by
        split <;> omega
      rw [backlog, backlog, hlink, htree, List.length_cons, Nat.mul_succ]
      dsimp only
      omega
  | receiver op =>
    obtain ⟨⟨receiver, e⟩, hreceiver, hrest⟩ := bind_eq_ok.mp hstep
    cases hrest
    cases op with
    | pushStart frame => cases hop
    | pushNext =>
      obtain ⟨htree, hleft⟩ := SubscriberNode.left_pushNext hdelivered.inv hop hreceiver
      have hone : (if (Event.receiver e : Event T).moves then 1 else 0) ≤ 1 := by
        split <;> omega
      rw [backlog, backlog, htree]
      dsimp only
      omega
    | endpoint i op =>
      obtain ⟨hregistry, hleft, event, rfl, hframe⟩ := SubscriberNode.left_buffer hreceiver
      have hnone : event.frame? = none := hframe.trans (Option.isNone_iff_eq_none.mp hop)
      rw [backlog, backlog, hregistry, hleft]
      simp [Event.moves, hnone]

variable [∀ i, LawfulSerialize (T i)] (hsubject : Function.Injective fun i ↦ (topic i).subject)
  {capacity : ι → ℕ} {timeout : ι → Duration} {buffers : ι → List (List Byte)}
  (hsized : ∀ i, RxPriorityFifoInner.Sized (SN i) (TN i) (capacity i) (buffers i))
  (hSN : ∀ i, 1 ≤ SN i)
  (hnew : ∀ i, RxPriorityFifoInner.new (SN i) (TN i) (.message (topic i).subject) (timeout i)
    (buffers i) = .ok (r₀ i))

include hsubject hsized hSN hnew

/-- As long as there is something left, one of the drivers can do something. -/
theorem Inv.goes_on (h : n.Inv topic address owners r₀ events) (hbusy : ¬ n.AtRest) :
    ∃ (op : Op T) (n' : Network ι SN TN) (event : Event T), n.Drives topic op ∧
      n.step topic owners op = .ok (n', event) ∧
      n'.Inv topic address owners r₀ (events ++ [event]) ∧ n'.backlog < n.backlog := by
  suffices hop : ∃ op : Op T, n.Valid topic op ∧ op.Quiet ∧
      ∀ n' event, n.step topic owners op = .ok (n', event) → event.moves = true ∨
        n'.backlog < n.backlog by
    obtain ⟨op, hvalid, hquiet, hmoves⟩ := hop
    obtain ⟨n', event, hstep, h'⟩ := h.step hsubject hsized hSN hnew hvalid
    refine ⟨op, n', event, ⟨hvalid, hquiet⟩, hstep, h', ?_⟩
    rcases hmoves n' event hstep with hmoves | hless
    · have hless := h.backlog_step hvalid hquiet hstep
      rwa [if_pos hmoves] at hless
    · exact hless
  obtain ⟨held, done, hdelivered⟩ := h.receiver.delivered
  cases hpushing : n.receiver.pushing with
  | some frame =>
    have hvalid : n.Valid topic (.receiver .pushNext : Op T) := Option.isSome_iff_exists.mpr
      ⟨frame, hpushing⟩
    refine ⟨.receiver .pushNext, hvalid, trivial, fun n' event hstep ↦ .inr ?_⟩
    obtain ⟨⟨receiver, e⟩, hreceiver, hrest⟩ := bind_eq_ok.mp hstep
    cases hrest
    obtain ⟨htree, hleft⟩ := SubscriberNode.left_pushNext hdelivered.inv hvalid hreceiver
    rw [backlog, backlog, htree]
    dsimp only
    omega
  | none =>
    cases hlink : n.link with
    | cons frame link =>
      refine ⟨.receive 0, Option.isNone_iff_eq_none.mpr hpushing, trivial, fun n' event hstep ↦ ?_⟩
      rw [Network.step, hlink] at hstep
      obtain ⟨⟨receiver, started⟩, hstart, hrest⟩ := bind_eq_ok.mp hstep
      cases hrest
      obtain ⟨n'', started', hstart', -⟩ := h.receiver.pushStart hpushing (receivedAt 0 frame)
      cases hstart.symm.trans hstart'
      exact .inl rfl
    | nil =>
      refine ⟨.sender (.pollPop 0 .ALL .classic), trivial, trivial, fun n' event hstep ↦ ?_⟩
      obtain ⟨frame, node, hpop, -, -, hall⟩ := h.sender.node.pollPop_remaining 0 .ALL .classic
      have hpos : n.sender.node.remaining ≠ 0 := fun hzero ↦ hbusy ⟨hzero, hlink, hpushing⟩
      have hless : node.remaining < n.sender.node.remaining := by
        have hone := hall rfl
        omega
      rw [Network.step, PublisherNode.step, hpop] at hstep
      cases hstep
      cases frame with
      | some frame => exact .inl rfl
      | none =>
        have hmul := Nat.mul_lt_mul_of_pos_left hless
          (Nat.succ_pos (n.receiver.registry.activeEntryTree.length + 2))
        exact .inr (by simpa [backlog, frame?] using hmul)

omit [∀ i, LawfulSerialize (T i)] hsubject hSN in
/-- **At rest, a subscriber has got all messages of its publisher.** -/
theorem Inv.complete (h : n.Inv topic address owners r₀ events) (hrest : n.AtRest) {i : ι}
    (hcapacity : capacity i < 2 ^ 31)
    (htimely : Timely (timeout i) (arrivals (SubscriberNode.history i (received events))))
    (hroom : HasRoom (TN i) (SubscriberNode.history i (received events)))
    (hfits : ∀ payload ∈ PublisherNode.payloads i (sent events), payload.length ≤ capacity i) :
    ∃ queued : List Item,
      List.Forall₂ (fun payload item ↦ ∃ k, item.2 = payload ++ List.replicate k 0)
        (PublisherNode.payloads i (sent events))
        (taken (SubscriberNode.history i (received events)) ++ queued) ∧
      ∀ mask : PrioritySet, mask.contains (topic i).priority = true →
        ∃ r, (n.receiver.subscribers i).tryPop mask = .ok (queued.head?, r) := by
  obtain ⟨transfers, c, transit, hpayloads, hids, hpopped, htransit, -, harrives, hstreams⟩ :=
    h.streams i
  obtain ⟨frames, ⟨transfers', c', hpayloads', -, hidle, hpath⟩, hframes⟩ :=
    h.sender.sent_all hrest.sender i
  -- Both count the transfers by the frames that end them.
  have hdone : c.done.length = transfers.length := by
    have hall : c.all.map n.sender.node.setSource = frames.map n.sender.node.setSource := by
      rw [← hframes, hpopped, htransit hrest.link hrest.receiver, List.append_nil]
    have hsent : c'.done.length = transfers'.length := by
      cases hidle with
      | idle hlength => exact hlength
    calc c.done.length
        = (c.all.map n.sender.node.setSource).countP (isEotFrame · = some true) := by
          rw [← hstreams.count_eot, countP_eot_of_arrives harrives,
            countP_eot_of_arrives (forall₂_arrives_setSource c.all)]
      _ = c'.done.length := by
          rw [hall]
          exact Streams.count_eot ⟨frames, hpath, forall₂_arrives_setSource frames⟩
      _ = transfers.length := by
          rw [hsent, ← List.length_map (f := Outgoing.buffer), hpayloads', ← hpayloads,
            List.length_map]
  have hnext : ∀ k, Publisher.idOf k ≠ Publisher.idOf (k + 1) := by
    intro k heq
    rw [Publisher.idOf_eq_iff (Nat.le_succ k)] at heq
    omega
  have hbuffers : ∀ o ∈ transfers, o.buffer.length ≤ capacity i := fun o ho ↦
    hfits _ (hpayloads ▸ List.mem_map_of_mem ho)
  obtain ⟨fifoOps, hfifo⟩ := h.receiver.runs i
  obtain ⟨queued, hqueued, hnextPop⟩ := RxPriorityFifoInner.receives_in_order hids hnext hbuffers
    hcapacity (hsized i) (hnew i) hfifo hstreams htimely hroom
  refine ⟨queued, ?_, hnextPop⟩
  rw [hdone, List.take_length] at hqueued
  rw [← hpayloads, List.forall₂_map_left_iff]
  exact hqueued

end Steps

/-- **All messages are delivered.**  After any run of the two nodes (as in `delivers_in_order`) the
publishers push nothing more.  Then whatever the drivers do, and in whatever order, and whenever
the subscribers pop, a bounded number of steps does something.  The drivers can always get to where
there is nothing left to fetch, to receive and to push.  And there, the transfers that a subscriber
has popped, and those it will pop next, are all messages of its publisher, in the order they were
pushed, each of them once, with its payload and zeros. -/
theorem delivers_all [DecidableEq ι] [∀ i, BufferType (T i)] [∀ i, Serialize (T i)]
    [∀ i, LawfulSerialize (T i)] {topic : ι → Topic}
    (hsubject : Function.Injective fun i ↦ (topic i).subject) (address : NodeId)
    (owners : Owners ι) (subjectSlotCount : ℕ) {before : List RxMsg.Op}
    (hbefore : Admissible RxMsg.System.step RxMsg.System.Valid
      (RxMsg.System.new subjectSlotCount) before)
    {s : RxMsg.System} {log : List RxMsg.Event}
    (hregistry : run RxMsg.System.step (RxMsg.System.new subjectSlotCount) before = .ok (s, log))
    (hregistered : ∀ i, ∃ e ∈ s.inner.activeEntryTree,
      e.address = owners.address i ∧ e.subject = (topic i).subject)
    {capacity : ι → ℕ} {timeout : ι → Duration} {buffers : ι → List (List Byte)}
    (hsized : ∀ i, RxPriorityFifoInner.Sized (SN i) (TN i) (capacity i) (buffers i))
    (hSN : ∀ i, 1 ≤ SN i) (hcapacity : ∀ i, capacity i < 2 ^ 31)
    {r₀ : (i : ι) → RxPriorityFifoInner (SN i) (TN i)}
    (hnew : ∀ i, RxPriorityFifoInner.new (SN i) (TN i) (.message (topic i).subject) (timeout i)
      (buffers i) = .ok (r₀ i))
    {ops : List (Op T)}
    (hops : Admissible (step topic owners) (Valid topic) ⟨.new address, [], ⟨s.inner, none, r₀⟩⟩
      ops) :
    ∃ n events, run (step topic owners) ⟨.new address, [], ⟨s.inner, none, r₀⟩⟩ ops =
        .ok (n, events) ∧
      ∀ later : List (Op T),
        Admissible (step topic owners) (Drives topic) n later →
        ∃ n' events', run (step topic owners) n later = .ok (n', events') ∧
          events'.countP Event.moves ≤ n.backlog ∧
          (∃ (rest : List (Op T)) (n'' : Network ι SN TN) (events'' : List (Event T)),
            Admissible (step topic owners) (Drives topic) n' rest ∧
            run (step topic owners) n' rest = .ok (n'', events'') ∧ n''.AtRest) ∧
          (n'.AtRest → ∀ i,
            Timely (timeout i)
              (arrivals (SubscriberNode.history i (received (events ++ events')))) →
            HasRoom (TN i) (SubscriberNode.history i (received (events ++ events'))) →
            (∀ payload ∈ PublisherNode.payloads i (sent (events ++ events')),
              payload.length ≤ capacity i) →
            ∃ queued : List Item,
              List.Forall₂ (fun payload item ↦ ∃ k, item.2 = payload ++ List.replicate k 0)
                (PublisherNode.payloads i (sent (events ++ events')))
                (taken (SubscriberNode.history i (received (events ++ events'))) ++ queued) ∧
              ∀ mask : PrioritySet, mask.contains (topic i).priority = true →
                ∃ r, (n'.receiver.subscribers i).tryPop mask = .ok (queued.head?, r)) := by
  obtain ⟨s', log', hregistry', hinv⟩ := RxMsg.System.inv_of_run hbefore
  cases hregistry.symm.trans hregistry'
  have hstart : Inv topic address owners r₀ ([] : List (Event T))
      (⟨.new address, [], ⟨s.inner, none, r₀⟩⟩ : Network ι SN TN) :=
    ⟨PublisherNode.inv_new topic address, ⟨hregistered, fun i ↦ ⟨[], rfl⟩, s.held, [], hinv,
      by simp, fun i ↦ rfl⟩, fun d ↦ ⟨[], rfl, .nil⟩⟩
  obtain ⟨n, events, hrun, h⟩ := run_of_outputs
    (fun _ _ _ h hop ↦ h.step hsubject hsized hSN hnew hop) hstart hops
  refine ⟨n, events, hrun, fun later hlater ↦ ?_⟩
  have hwork : ∀ (events' : List (Event T)) (n' : Network ι SN TN) (op : Op T),
      n'.Inv topic address owners r₀ (events ++ events') → n'.Drives topic op →
      ∃ n'' event, n'.step topic owners op = .ok (n'', event) ∧
        n''.Inv topic address owners r₀ (events ++ (events' ++ [event])) ∧
        n''.backlog + (if event.moves then 1 else 0) ≤ n'.backlog := by
    rintro events' n' op h' ⟨hvalid, hquiet⟩
    obtain ⟨n'', event, hstep, h''⟩ := h'.step hsubject hsized hSN hnew hvalid
    exact ⟨n'', event, hstep, List.append_assoc .. ▸ h'', h'.backlog_step hvalid hquiet hstep⟩
  obtain ⟨n', events', hrun', hlast, hless⟩ := run_of_work hwork (by rwa [List.append_nil]) hlater
  have h' : n'.Inv topic address owners r₀ (events ++ events') := hlast
  refine ⟨n', events', hrun', by omega, ?_, fun hrest i htimely hroom hfits ↦
    h'.complete hsized hnew hrest (hcapacity i) htimely hroom hfits⟩
  have hgoes : ∀ (events : List (Event T)) (n : Network ι SN TN),
      n.Inv topic address owners r₀ events → ¬ n.AtRest →
      ∃ (op : Op T) (n' : Network ι SN TN) (event : Event T), n.Drives topic op ∧
        n.step topic owners op = .ok (n', event) ∧
        n'.Inv topic address owners r₀ (events ++ [event]) ∧ n'.backlog < n.backlog :=
    fun events n h hbusy ↦ h.goes_on hsubject hsized hSN hnew hbusy
  obtain ⟨rest, n'', events'', hvalid, hrun'', -, hrest⟩ := exists_rest hgoes _ h'
  exact ⟨rest, n'', events'', hvalid, hrun'', hrest⟩

/-- Both messages are delivered after the last push. -/
theorem delivers_all_two_subjects :
    ∃ (n₀ n n' : Network Bool (fun _ ↦ 1) fun _ ↦ 1)
      (events events' : List (Event fun _ : Bool ↦ DataTypes.ByteArray)),
      twoNodes = .ok n₀ ∧
      run (step twoTopics twoOwners) n₀ twoMessages = .ok (n, events) ∧
      run (step twoTopics twoOwners) n twoDeliveries = .ok (n', events') ∧
      n'.AtRest ∧ ∀ i, ∃ queued : List Item,
        List.Forall₂ (fun payload item ↦ ∃ k, item.2 = payload ++ List.replicate k 0)
          [twoPayloads i]
          (taken (SubscriberNode.history i (received (events ++ events'))) ++ queued) := by
  obtain ⟨s, log, r, hregistry, hregistered, hnew, hnodes⟩ := twoNodes_ok
  have hcheck : (do
      let n₀ ← twoNodes
      let x ← run (step twoTopics twoOwners) n₀ twoMessages
      let y ← run (step twoTopics twoOwners) x.1 twoDeliveries
      pure (decide (Admissible (step twoTopics twoOwners) (Valid twoTopics) n₀ twoMessages ∧
        Admissible (step twoTopics twoOwners) (Drives twoTopics) x.1 twoDeliveries ∧
        (∀ i, twoReceived (x.2 ++ y.2) i) ∧ y.1.sender.node.remaining = 0 ∧
        y.1.link.isEmpty = true ∧ y.1.receiver.pushing.isNone = true)) : Exec Bool) = .ok true := by
    decide +kernel
  rw [hnodes, ok_bind] at hcheck
  obtain ⟨x, hx, hcheck⟩ := bind_eq_ok.mp hcheck
  obtain ⟨y, hy, hall⟩ := bind_eq_ok.mp hcheck
  obtain ⟨hops, hlater, hreceived, hzero, hlink, hpushing⟩ :=
    of_decide_eq_true (Except.ok.inj hall)
  obtain ⟨n, events, hrun, h⟩ := delivers_all twoTopics_injective _ twoOwners 2
    (by decide) hregistry hregistered (fun _ ↦ twoBuffers_sized) (fun _ ↦ Nat.le_refl 1)
    (fun _ ↦ by decide) hnew hops
  cases hx.symm.trans hrun
  obtain ⟨n', events', hrun', -, -, hcomplete⟩ := h _ hlater
  cases hy.symm.trans hrun'
  have hrest : n'.AtRest :=
    ⟨hzero, List.isEmpty_iff.mp hlink, Option.isNone_iff_eq_none.mp hpushing⟩
  refine ⟨_, n, n', events, events', hnodes, hrun, hrun', hrest, fun i ↦ ?_⟩
  obtain ⟨htimely, hroom, hpayload⟩ := hreceived i
  obtain ⟨queued, hqueued, -⟩ := hcomplete hrest i (timely_of_forall htimely)
    (hasRoom_of_countP_le hroom) (by rw [hpayload]; cases i <;> decide)
  rw [hpayload] at hqueued
  exact ⟨queued, hqueued⟩

end Network

end Emcyphal
