import Emcyphal.Socket.Publisher
import Emcyphal.Tx.Node
import Emcyphal.Tx.Registry.Acts
import Emcyphal.Tx.Stream

/-!
# The publishers of a node

The transmit side of `CoreNode` with its publishers.  A publisher registers a blocking buffer for
its subject and pushes messages to it, and the driver polls the node for frames, which come from
whatever publisher is next.

The frames of one subject are nevertheless a stream of the messages of its publisher
(`Inv.step`): the transmit queue decides when a publisher goes on, and not with what.
-/

set_option autoImplicit false

namespace Emcyphal

open Rust

/-- The payload as it is sent. -/
def Serialize.payload {T : Type} [BufferType T] [Serialize T] (data : T) : List Byte :=
  (serializeToBytes data (List.replicate (BufferType.bufferLength T) 0)).take (dataLength data)

/-- `Tx::try_push` of an endpoint whose buffer is in the queue. -/
def TxQueue.pushTransfer {T : Type} [Serialize T] (r : TxQueue) (address : Address)
    (transfer : Endpoint.Transfer T) : Exec (Except BufferError Unit × TxQueue) := do
  let (scratchpad, r) ← r.getScratchpad address
  match scratchpad with
  | none => return (.error .priorityNotReady, r)
  | some (priorities, buffer) =>
    if !priorities.contains transfer.transferMeta.priority then return (.error .priorityNotReady, r)
    let buffer := Serialize.serializeToBytes transfer.payload buffer
    let length := Serialize.dataLength transfer.payload
    let crc := TransferCrc.default.addBytes (← sliceTo buffer length)
    let (_, r) ← r.writeScratchpad address buffer
    r.tryPush address transfer.transferMeta length crc

/-- What a publisher is created with, apart from its buffer. -/
structure Topic where
  subject : SubjectId
  priority : Priority
  timeout : Duration
  loopBack : Bool
deriving DecidableEq

/-- A `Publisher` whose endpoint is in the registry of a node. -/
structure NodePublisher where
  token : TxQueue.Address
  priority : Priority
  timeout : Duration
  loopBack : Bool
  transferId : TransferId

/-- A node, as far as its publishers are concerned. -/
structure PublisherNode (ι : Type) where
  node : CoreNode
  publishers : ι → Option NodePublisher

namespace NodePublisher

/-- The transfer of a message that is pushed at `now`. -/
def transfer {T : Type} (p : NodePublisher) (data : T) (now : Instant) : Endpoint.Transfer T where
  transferMeta := {
    priority := p.priority
    address := none
    transferId := p.transferId
    timestamp := Instant.saturatingAdd now p.timeout
    loopBack := p.loopBack }
  payload := data

end NodePublisher

namespace PublisherNode

variable {ι : Type} {T : ι → Type}

inductive Op (T : ι → Type)
  | create (i : ι) (address : TxQueue.Address) (buffer : List Byte)
  | tryPush (i : ι) (data : T i) (now : Instant)
  /-- The driver polls the node for a frame. -/
  | pollPop (waker : Waker) (priorityMask : PrioritySet) (mtu : Mtu)

inductive Event (T : ι → Type)
  | created (i : ι) (result : Except RxMsg.RegistrationError TxQueue.Address)
  | pushed (i : ι) (data : T i) (now : Instant) (result : Except MessageError Unit)
  | popped (frame : Option Frame)

def new (address : NodeId) : PublisherNode ι := ⟨.new address, fun _ ↦ none⟩

section Step

variable [DecidableEq ι]

/-- `Publisher::create`. -/
def create (topic : ι → Topic) (n : PublisherNode ι) (i : ι) (address : TxQueue.Address)
    (buffer : List Byte) : Exec (PublisherNode ι × Event T) := do
  let (txMsg, event) ← n.node.txMsg.register address
    (.blocking (topic i).subject (topic i).priority buffer)
  match event with
  | .registered (.ok token) =>
    let publisher : NodePublisher := {
      token := token
      priority := (topic i).priority
      timeout := (topic i).timeout
      loopBack := (topic i).loopBack
      transferId := .SESSION_START }
    return (⟨{ n.node with txMsg := txMsg }, Function.update n.publishers i (some publisher)⟩,
      .created i (.ok token))
  | .registered (.error e) => return ({ n with node := { n.node with txMsg := txMsg } },
      .created i (.error e))
  | _ => .error .unreachable

variable [∀ i, Serialize (T i)]

/-- `Publisher::try_push`. -/
def tryPush (n : PublisherNode ι) (i : ι) (data : T i) (now : Instant) :
    Exec (Except MessageError Unit × PublisherNode ι) := do
  let publisher ← unwrap (n.publishers i)
  let (result, queue) ← n.node.txMsg.queue.pushTransfer publisher.token
    (publisher.transfer data now)
  let node := { n.node with txMsg := n.node.txMsg.setQueue queue }
  match result with
  | .ok () =>
    let publisher := { publisher with transferId := publisher.transferId.next }
    return (.ok (), ⟨node, Function.update n.publishers i (some publisher)⟩)
  | .error .priorityNotReady => return (.error .notReady, { n with node := node })
  | .error _ => .error .unreachable

def step (topic : ι → Topic) (n : PublisherNode ι) : Op T → Exec (PublisherNode ι × Event T)
  | .create i address buffer => n.create topic i address buffer
  | .tryPush i data now => do
    let (result, n) ← n.tryPush i data now
    return (n, .pushed i data now result)
  | .pollPop waker priorityMask mtu => do
    let (frame, node) ← n.node.pollPop waker priorityMask mtu
    return ({ n with node := node }, .popped frame)

/-- A publisher is created once, with a buffer for its type, before it is used. -/
def Valid [∀ i, BufferType (T i)] (topic : ι → Topic) (n : PublisherNode ι) : Op T → Prop
  | .create i address buffer => (n.publishers i).isNone = true ∧
      buffer.length = BufferType.bufferLength (T i) ∧ n.node.txMsg.Valid
        (.register address (.blocking (topic i).subject (topic i).priority buffer))
  | .tryPush i _ _ => (n.publishers i).isSome = true
  | .pollPop _ _ _ => True

instance [∀ i, BufferType (T i)] (topic : ι → Topic) (n : PublisherNode ι) :
    (op : Op T) → Decidable (n.Valid topic op)
  | .create _ _ _ => inferInstanceAs (Decidable (_ ∧ _ ∧ _))
  | .tryPush _ _ _ => inferInstanceAs (Decidable (_ = true))
  | .pollPop _ _ _ => isTrue trivial

end Step

/-! ## Histories -/

/-- The frames with this data specifier that the driver got. -/
def popped (d : DataSpecifier) (events : List (Event T)) : List Frame :=
  events.filterMap fun
    | .popped (some frame) => if frame.header.dataSpec = d then some frame else none
    | _ => none

/-- The payloads of the messages that a publisher has accepted. -/
def payloads [DecidableEq ι] [∀ i, BufferType (T i)] [∀ i, Serialize (T i)] (i : ι)
    (events : List (Event T)) : List (List Byte) :=
  events.filterMap fun
    | .pushed j data _ (.ok ()) => if j = i then some (Serialize.payload data) else none
    | _ => none

end PublisherNode

/-! ## A blocking buffer -/

namespace TxBuffer

variable {T : Type} [BufferType T] [Serialize T] [LawfulSerialize T] {b b' : TxBuffer}
  {subject : SubjectId} {p : Priority} {next : Option Outgoing}

variable (T) in
/-- A frame is of the transfer that is left to send, and the rest of it is left then. -/
theorem tryPop_blocking (h : b.Inv (BufferType.bufferLength T))
    (hmailbox : b.mailbox = .blocking subject p next) {mask : PrioritySet} {mtu : Mtu}
    {frame : Frame}
    (hpop : b.tryPop mask mtu = .ok (some frame, b')) :
    ∃ o data rest, next = some o ∧ o.Sends mtu data rest ∧
      frame = o.frame p (.message subject) data ∧ b'.Inv (BufferType.bufferLength T) ∧
      b'.mailbox = .blocking subject p rest := by
  have hholds : b.mailbox.Holds subject p none next := hmailbox ▸ .pending next
  by_cases hnone : mask.contains p = false ∨ next = none
  · obtain ⟨b₁, hpop₁, -⟩ := tryPop_of_mailbox T h (hholds.fetch_none hnone mtu)
    cases hpop.symm.trans hpop₁
  · push Not at hnone
    obtain ⟨o, rfl⟩ := Option.ne_none_iff_exists'.mp hnone.2
    obtain ⟨data, rest, hsends⟩ := (hholds.ready h o rfl).sends mtu
    have hfetch : b.mailbox.fetch mask mtu =
        (.blocking subject p rest, some (o.frame p (.message subject) data)) := by
      rw [hmailbox, Mailbox.fetch, if_pos (by simpa using hnone.1), hsends.nextFrame]
    obtain ⟨b₁, hpop₁, hinv, hmailbox₁⟩ := tryPop_of_mailbox T h hfetch
    cases hpop.symm.trans hpop₁
    exact ⟨o, data, rest, rfl, hsends, rfl, hinv, hmailbox₁⟩

omit [BufferType T] [Serialize T] [LawfulSerialize T] in
/-- What a blocking buffer reports. -/
theorem popReadiness_blocking (h : b.mailbox = .blocking subject p next) :
    b.popReadiness = if next.isSome then .newEq p else .NONE := by
  cases b with
  | signal | response => cases h
  | blocking r =>
    injection h with _ hpriority hnext
    rw [popReadiness, Blocking.Inner.popReadiness_eq, ← hpriority, ← hnext, Option.isSome_map]

/-- A transfer is accepted if there is none that is left to send. -/
theorem tryPush_blocking (h : b.Inv (BufferType.bufferLength T))
    (hmailbox : b.mailbox = .blocking subject p next) {t : Endpoint.Transfer T}
    (hpriority : t.transferMeta.priority = p) (haddress : t.transferMeta.address = none) :
    ∃ b', b'.Inv (BufferType.bufferLength T) ∧
      ((next = none ∧ Tx.tryPush b t = .ok (.ok (), b') ∧
        b'.mailbox = .blocking subject p (some t.outgoing)) ∨
      Tx.tryPush b t = .ok (.error .priorityNotReady, b') ∧ b'.mailbox = b.mailbox) := by
  cases next with
  | none =>
    have hpush : b.mailbox.push t = _ :=
      hmailbox ▸ Mailbox.push_blocking_ok rfl hpriority haddress
    obtain ⟨b', htry, hinv, hmailbox'⟩ := tryPush_of_mailbox h hpush
    exact ⟨b', hinv, .inl ⟨rfl, htry, hmailbox'⟩⟩
  | some o =>
    have hpush : b.mailbox.push t = _ := hmailbox ▸ Mailbox.push_blocking_notReady (.inl rfl)
    obtain ⟨b', htry, hinv, hmailbox'⟩ := tryPush_of_mailbox h hpush
    exact ⟨b', hinv, .inr ⟨htry, hmailbox'⟩⟩

end TxBuffer

namespace TxQueue

variable {T : Type} [Serialize T] {r r' : TxQueue} {a : Address} {e : Entry} {b : TxBuffer}
  {t : Endpoint.Transfer T}

theorem setEntry_setEntry (r : TxQueue) (a : Address) (e e' : Entry) :
    (r.setEntry a e).setEntry a e' = r.setEntry a e' := by
  rw [setEntry, setEntry, setEntry]
  simp

/-- The transfer is pushed to the buffer of the entry, which then moves to where it has to be. -/
theorem pushTransfer_of_tryPush (he : r.entries a = some e) {res : Except BufferError Unit}
    (hpush : Tx.tryPush e.buffer t = .ok (res, b))
    (hr : (res = .ok () ∧
        (r.setEntry a { e with buffer := b }).regUpdateQueuePosition a = .ok r') ∨
      (∃ err, res = .error err) ∧ r' = r.setEntry a { e with buffer := b }) :
    r.pushTransfer a t = .ok (res, r') := by
  obtain ⟨⟨scratchpad, b₁⟩, hget, hrest⟩ := bind_eq_ok.mp hpush
  have hget' : r.getScratchpad a = .ok (scratchpad, r.setEntry a { e with buffer := b₁ }) :=
    Registry.withBufferMut_eq_ok.mpr ⟨e, b₁, he, hget, rfl⟩
  have hrefuse : ∀ {err : BufferError}, (.ok (.error err, b₁) : Exec _) = .ok (res, b) →
      (.ok (.error err, r.setEntry a { e with buffer := b₁ }) : Exec _) = .ok (res, r') := by
    intro err heq
    cases heq
    rcases hr with ⟨hok, -⟩ | ⟨-, rfl⟩
    · cases hok
    · rfl
  rw [pushTransfer, hget', ok_bind]
  cases scratchpad with
  | none => exact hrefuse hrest
  | some s =>
    obtain ⟨priorities, buffer⟩ := s
    dsimp only at hrest ⊢
    split at hrest
    · rename_i hnot
      rw [if_pos hnot]
      exact hrefuse hrest
    · rename_i hcontains
      rw [if_neg hcontains]
      obtain ⟨data, hslice, hrest⟩ := bind_eq_ok.mp hrest
      rw [hslice, ok_bind]
      set b₂ := b₁.writeScratchpad (Serialize.serializeToBytes t.payload buffer) with hb₂
      have hwrite : (r.setEntry a { e with buffer := b₁ }).writeScratchpad a
          (Serialize.serializeToBytes t.payload buffer) =
            .ok ((), r.setEntry a { e with buffer := b₂ }) :=
        Registry.withBufferMut_eq_ok.mpr ⟨_, b₂, Function.update_self .., rfl,
          (setEntry_setEntry ..).symm⟩
      have htry : (r.setEntry a { e with buffer := b₂ }).withBufferMut a
          (fun buffer ↦ buffer.tryPush t.transferMeta (Serialize.dataLength t.payload)
            (TransferCrc.default.addBytes data)) =
              .ok (res, r.setEntry a { e with buffer := b }) :=
        Registry.withBufferMut_eq_ok.mpr ⟨_, b, Function.update_self .., hrest,
          (setEntry_setEntry ..).symm⟩
      rw [hwrite, ok_bind]
      dsimp only
      rw [tryPush, htry, ok_bind]
      rcases hr with ⟨rfl, hupdate⟩ | ⟨⟨err, rfl⟩, rfl⟩
      · dsimp only
        rw [hupdate]
        rfl
      · rfl

end TxQueue

/-! ## What a publisher has sent -/

theorem Endpoint.Transfer.whole_outgoing {T : Type} [BufferType T] [Serialize T]
    [LawfulSerialize T] (t : Endpoint.Transfer T) :
    t.outgoing.Whole t.transferMeta.transferId := by
  have hlength : (Serialize.payload t.payload).length = Serialize.dataLength t.payload := by
    rw [Serialize.payload, List.length_take, LawfulSerialize.length _ _ (List.length_replicate),
      List.length_replicate]
    exact Nat.min_eq_left (LawfulSerialize.fits t.payload)
  rw [Outgoing.Whole, show t.outgoing.buffer.length = _ from hlength]
  rfl

namespace Topic

variable (topic : Topic)

/-- The frames are those of messages with these payloads, up to the transfer that is left. -/
def Sent (payloads : List (List Byte)) (frames : List Frame) (next : Option Outgoing) : Prop :=
  ∃ transfers c, transfers.map Outgoing.buffer = payloads ∧ Numbered transfers Publisher.idOf ∧
    Cursor.Sending transfers topic.priority (.message topic.subject) next c ∧
    Path (Cursor.Step transfers topic.priority (.message topic.subject)) .start frames c

/-- The publisher has a blocking buffer in the queue, with the transfer that is left.  One that is
not created yet has nothing to send. -/
inductive Holds (n : ℕ) (queue : TxQueue) (count : ℕ) : Option NodePublisher → Option Outgoing →
    Prop
  | absent (hcount : count = 0) : Holds n queue count none none
  | present {token : TxQueue.Address} {e : TxQueue.Entry} {next : Option Outgoing}
      (he : queue.entries token = some e) (hinv : e.buffer.Inv n)
      (hmailbox : e.buffer.mailbox = .blocking topic.subject topic.priority next) :
      Holds n queue count (some ⟨token, topic.priority, topic.timeout, topic.loopBack,
        Publisher.idOf count⟩) next

variable {topic} {payloads : List (List Byte)} {frames : List Frame}

theorem sent_new : topic.Sent [] [] none :=
  ⟨[], .start, rfl, by simp [Numbered], .idle rfl, .nil _⟩

/-- Another message is pushed. -/
theorem Sent.push (h : topic.Sent payloads frames none) {o : Outgoing}
    (ho : o.Whole (Publisher.idOf payloads.length)) :
    topic.Sent (payloads ++ [o.buffer]) frames (some o) := by
  obtain ⟨transfers, c, rfl, hids, hsending, hpath⟩ := h
  refine ⟨transfers ++ [o], c, List.map_append .., fun n o' ho' ↦ ?_, hsending.push o,
    hpath.mono fun _ _ _ hstep ↦ hstep.append [o]⟩
  rcases Nat.lt_or_ge n transfers.length with hlt | hge
  · rw [List.getElem?_append_left hlt] at ho'
    exact hids n o' ho'
  · rw [List.getElem?_append_right hge, List.getElem?_singleton] at ho'
    split at ho'
    · rename_i hn
      cases ho'
      rwa [List.length_map, ← Nat.le_antisymm (Nat.le_of_sub_eq_zero hn) hge] at ho
    · cases ho'

/-- The next frame is fetched. -/
theorem Sent.send {o : Outgoing} (h : topic.Sent payloads frames (some o)) {mtu : Mtu} {data : Data}
    {rest : Option Outgoing} (hsends : o.Sends mtu data rest) :
    topic.Sent payloads (frames ++ [o.frame topic.priority (.message topic.subject) data])
      rest := by
  obtain ⟨transfers, c, hpayloads, hids, hsending, hpath⟩ := h
  obtain ⟨c', hstep, hsending'⟩ := hsending.send hsends
  exact ⟨transfers, c', hpayloads, hids, hsending', hpath.concat hstep⟩

/-- Another entry has changed. -/
theorem Holds.congr {n : ℕ} {queue queue' : TxQueue} {count : ℕ} {p : Option NodePublisher}
    {next : Option Outgoing} (h : topic.Holds n queue count p next)
    (hsame : ∀ a e, queue.entries a = some e →
      e.buffer.mailbox = .blocking topic.subject topic.priority next → queue'.entries a = some e) :
    topic.Holds n queue' count p next := by
  cases h with
  | absent hcount => exact .absent hcount
  | present he hinv hmailbox => exact .present (hsame _ _ he hmailbox) hinv hmailbox

end Topic

namespace PublisherNode

variable {ι : Type} {T : ι → Type} [∀ i, BufferType (T i)] [∀ i, Serialize (T i)] [DecidableEq ι]

/-- What has become of a publisher. -/
def Publishes (topic : ι → Topic) (events : List (Event T)) (n : PublisherNode ι) (i : ι) : Prop :=
  ∃ frames next, (topic i).Sent (payloads i events) frames next ∧
    popped (.message (topic i).subject) events = frames.map n.node.setSource ∧
    (topic i).Holds (BufferType.bufferLength (T i)) n.node.txMsg.queue (payloads i events).length
      (n.publishers i) next

/-- The invariant of a run: each publisher has sent its messages one after the other, and all
entries are of publishers. -/
structure Inv (topic : ι → Topic) (address : NodeId) (events : List (Event T))
    (n : PublisherNode ι) : Prop where
  node : n.node.Inv
  address : n.node.address = address
  responses : ∀ a, n.node.txResp.queue.entries a = none
  owned : ∀ a e, n.node.txMsg.queue.entries a = some e →
    ∃ i p, n.publishers i = some p ∧ p.token = a
  publishes : ∀ i, n.Publishes topic events i

variable {topic : ι → Topic} {address : NodeId} {events : List (Event T)} {n : PublisherNode ι}
  {d : DataSpecifier}

omit [∀ i, BufferType (T i)] [∀ i, Serialize (T i)] [DecidableEq ι] in
theorem popped_append (events : List (Event T)) (event : Event T) :
    popped d (events ++ [event]) = popped d events ++ popped d [event] := List.filterMap_append

theorem payloads_append (events : List (Event T)) (event : Event T) (i : ι) :
    payloads i (events ++ [event]) = payloads i events ++ payloads i [event] :=
  List.filterMap_append

omit [∀ i, BufferType (T i)] [∀ i, Serialize (T i)] [DecidableEq ι] in
/-- The entry of one publisher is not that of another one. -/
theorem entries_of_ne (hsubject : Function.Injective fun i ↦ (topic i).subject) {i j : ι}
    (hij : i ≠ j) {queue queue' : TxQueue} {a : TxQueue.Address} {e : TxQueue.Entry}
    {x : Option TxQueue.Entry} {next : Option Outgoing} (he : queue.entries a = some e)
    (hmailbox : e.buffer.mailbox = .blocking (topic i).subject (topic i).priority next)
    (hentries : queue'.entries = Function.update queue.entries a x) {a' : TxQueue.Address}
    {e' : TxQueue.Entry} {next' : Option Outgoing} (he' : queue.entries a' = some e')
    (hmailbox' : e'.buffer.mailbox = .blocking (topic j).subject (topic j).priority next') :
    queue'.entries a' = some e' := by
  have hne : a' ≠ a := by
    rintro rfl
    cases he.symm.trans he'
    injection hmailbox.symm.trans hmailbox' with heq
    exact hij (hsubject heq)
  rw [hentries, Function.update_of_ne hne, he']

/-- A step that is about something else. -/
theorem Publishes.keep {i : ι} (h : n.Publishes topic events i) {n' : PublisherNode ι}
    (hpublisher : n'.publishers i = n.publishers i) (haddress : n'.node.address = n.node.address)
    (hkept : ∀ a e next, n.node.txMsg.queue.entries a = some e →
      e.buffer.mailbox = .blocking (topic i).subject (topic i).priority next →
      n'.node.txMsg.queue.entries a = some e)
    {event : Event T} (hpayloads : payloads i [event] = [])
    (hpopped : popped (.message (topic i).subject) [event] = []) :
    n'.Publishes topic (events ++ [event]) i := by
  obtain ⟨frames, next, hsent, hframes, hholds⟩ := h
  have hsource : n'.node.setSource = n.node.setSource := by
    funext frame
    rw [CoreNode.setSource, CoreNode.setSource, haddress]
  rw [Publishes, payloads_append, popped_append, hpayloads, hpopped, List.append_nil,
    List.append_nil, hsource, hpublisher]
  exact ⟨frames, next, hsent, hframes, hholds.congr fun a e ↦ hkept a e next⟩

/-- A step is about one publisher, and the entries of the others stay. -/
theorem Inv.change (h : n.Inv topic address events) {i : ι} {r : Registry} (hr : r.Inv)
    {publishers : ι → Option NodePublisher} {p : NodePublisher} {e : TxQueue.Entry}
    {event : Event T} (hp : publishers i = some p)
    (hentries : r.queue.entries = Function.update n.node.txMsg.queue.entries p.token (some e))
    (hothers : ∀ j, j ≠ i → publishers j = n.publishers j ∧ payloads j [event] = [] ∧
      popped (.message (topic j).subject) [event] = [])
    (hown : ∀ p', n.publishers i = some p' → p'.token = p.token)
    (hkept : ∀ j, j ≠ i → ∀ a e next, n.node.txMsg.queue.entries a = some e →
      e.buffer.mailbox = .blocking (topic j).subject (topic j).priority next →
      r.queue.entries a = some e)
    (hi : Publishes topic (events ++ [event]) ⟨{ n.node with txMsg := r }, publishers⟩ i) :
    Inv topic address (events ++ [event]) ⟨{ n.node with txMsg := r }, publishers⟩ := by
  refine ⟨⟨hr, h.node.txResp⟩, h.address, h.responses, fun a e' he' ↦ ?_, fun j ↦ ?_⟩
  · by_cases ha : a = p.token
    · exact ⟨i, p, hp, ha.symm⟩
    · dsimp only at he'
      rw [hentries, Function.update_of_ne ha] at he'
      obtain ⟨j, p', hp', rfl⟩ := h.owned a e' he'
      have hj : j ≠ i := by
        rintro rfl
        exact ha (hown p' hp')
      exact ⟨j, p', (hothers j hj).1.trans hp', rfl⟩
  · by_cases hj : j = i
    · subst hj
      exact hi
    · obtain ⟨hsame, hpayloads, hpopped⟩ := hothers j hj
      refine (h.publishes j).keep ?_ ?_ ?_ hpayloads hpopped
      · exact hsame
      · rfl
      · exact hkept j hj

/-! ## The operations -/

theorem inv_new (topic : ι → Topic) (address : NodeId) :
    Inv topic address ([] : List (Event T)) (new address) := by
  refine ⟨CoreNode.inv_new address, rfl, fun _ ↦ rfl, fun a e he ↦ ?_,
    fun i ↦ ⟨[], none, Topic.sent_new, rfl, .absent rfl⟩⟩
  cases he

/-- A publisher is created, unless its subject is taken. -/
theorem Inv.create (h : n.Inv topic address events) {i : ι} {a : TxQueue.Address}
    {buffer : List Byte} (hnone : (n.publishers i).isNone = true)
    (hlength : buffer.length = BufferType.bufferLength (T i))
    (hvalid : n.node.txMsg.Valid
      (.register a (.blocking (topic i).subject (topic i).priority buffer))) :
    ∃ n' event, n.create topic i a buffer = .ok (n', (event : Event T)) ∧
      n'.Inv topic address (events ++ [event]) := by
  obtain ⟨r, event, hregister, hr, -⟩ := h.node.txMsg.register hvalid
  rcases Registry.register_cases hregister with ⟨rfl, err, rfl⟩ | ⟨b, hnew, rfl, hqueue⟩
  · refine ⟨n, .created i (.error err), by rw [PublisherNode.create, hregister]; rfl, h.node,
      h.address, h.responses, h.owned, fun j ↦ ?_⟩
    exact (h.publishes j).keep rfl rfl (fun _ _ _ he _ ↦ he) (by simp [payloads])
      (by simp [popped])
  · cases hnew
    have hfree : n.node.txMsg.queue.entries a = none := hvalid.1
    have hbuffer := Blocking.Inner.inv_new (topic i).subject (topic i).priority buffer
    rw [hlength] at hbuffer
    set b : TxBuffer := .blocking (.new (topic i).subject (topic i).priority buffer) with hb
    have hmark : (TxQueue.Entry.new b).queueMark = n.node.txMsg.queue.mark a := by
      rw [TxQueue.mark, hfree]
      rfl
    have hinv : b.Inv (BufferType.bufferLength (T i)) := hbuffer
    obtain ⟨q, hq, -, hentries, -⟩ := h.node.txMsg.queue.refresh hmark ⟨_, hinv⟩
    cases hq.symm.trans hqueue
    have hpublishes := h.publishes i
    rw [Publishes, Option.isNone_iff_eq_none.mp hnone] at hpublishes
    obtain ⟨frames, next, hsent, hframes, hholds⟩ := hpublishes
    have hcount : (payloads i events).length = 0 ∧ next = none := by
      cases hholds with
      | absent hcount => exact ⟨hcount, rfl⟩
    obtain ⟨hcount, rfl⟩ := hcount
    have hpayloads : ∀ j, payloads j ([.created i (.ok a)] : List (Event T)) = [] := by
      simp [payloads]
    have hpopped : ∀ d, popped d ([.created i (.ok a)] : List (Event T)) = [] := by simp [popped]
    refine ⟨⟨{ n.node with txMsg := r }, Function.update n.publishers i (some ⟨a,
      (topic i).priority, (topic i).timeout, (topic i).loopBack, .SESSION_START⟩)⟩,
      .created i (.ok a), by rw [PublisherNode.create, hregister]; rfl, ?_⟩
    refine h.change hr (Function.update_self ..) hentries (fun j hj ↦ ?_) (fun p' hp' ↦ ?_)
      (fun j hj a' e next he _ ↦ ?_) ⟨frames, none, ?_, ?_, ?_⟩
    · exact ⟨Function.update_of_ne hj .., hpayloads j, hpopped _⟩
    · cases (Option.isNone_iff_eq_none.mp hnone).symm.trans hp'
    · have hne : a' ≠ a := by
        rintro rfl
        cases hfree.symm.trans he
      rw [hentries, Function.update_of_ne hne, he]
    · rwa [payloads_append, hpayloads, List.append_nil]
    · rw [popped_append, hpopped, List.append_nil, hframes]
      rfl
    · rw [payloads_append, hpayloads, List.append_nil, hcount]
      dsimp only
      rw [Function.update_self]
      exact .present (by rw [hentries, Function.update_self]) hinv rfl

/-- What is left unchanged by an update that keeps which priorities are started. -/
theorem setQueue_inv (h : n.Inv topic address events) {q : TxQueue} (hq : q.Inv)
    (hstarted : q.startedOf = n.node.txMsg.queue.startedOf) :
    (n.node.txMsg.setQueue q).Inv :=
  h.node.txMsg.setQueue hq fun a ↦ by rw [hstarted]

variable [∀ i, LawfulSerialize (T i)] (hsubject : Function.Injective fun i ↦ (topic i).subject)

include hsubject

/-- A publisher pushes a message. -/
theorem Inv.tryPush (h : n.Inv topic address events) {i : ι}
    (hsome : (n.publishers i).isSome = true) (data : T i) (now : Instant) :
    ∃ n' result, n.tryPush i data now = .ok (result, n') ∧
      n'.Inv topic address (events ++ [.pushed i data now result]) := by
  obtain ⟨frames, next, hsent, hframes, hholds⟩ := h.publishes i
  generalize hpublisher : n.publishers i = publisher at hholds hsome
  cases hholds with
  | absent => cases hsome
  | @present token e next he hinv hmailbox =>
    set p : NodePublisher := ⟨token, (topic i).priority, (topic i).timeout, (topic i).loopBack,
      Publisher.idOf (payloads i events).length⟩ with hp
    have hpopped : ∀ d result, popped d ([.pushed i data now result] : List (Event T)) = [] := by
      simp [popped]
    have hpayloads : ∀ j result, j ≠ i →
        payloads j ([.pushed i data now result] : List (Event T)) = [] := by
      intro j result hj
      rcases result with _ | ⟨⟩ <;> simp [payloads, Ne.symm hj]
    obtain ⟨b', hinv', ⟨rfl, hpush, hmailbox'⟩ | ⟨hpush, hmailbox'⟩⟩ :=
      TxBuffer.tryPush_blocking hinv hmailbox (t := p.transfer data now) rfl rfl
    · obtain ⟨q, hupdate, hq, hentries, -⟩ := h.node.txMsg.queue.refresh (a := token)
        (x := { e with buffer := b' }) (TxQueue.mark_of_entry he).symm ⟨_, hinv'⟩
      have hok : payloads i ([.pushed i data now (.ok ())] : List (Event T)) =
          [Serialize.payload data] := by
        simp [payloads]
      have htransfer := TxQueue.pushTransfer_of_tryPush he hpush (.inl ⟨rfl, hupdate⟩)
      refine ⟨⟨{ n.node with txMsg := n.node.txMsg.setQueue q }, Function.update n.publishers i
        (some { p with transferId := p.transferId.next })⟩, .ok (), ?_, ?_⟩
      · rw [PublisherNode.tryPush, hpublisher, unwrap_some, ok_bind, htransfer]
        rfl
      · have hqueue := setQueue_inv h hq (TxQueue.startedOf_same he hentries rfl)
        refine h.change hqueue (Function.update_self ..)
          (by rw [Registry.queue_setQueue]; exact hentries) (fun j hj ↦ ?_) (fun p' hp' ↦ ?_)
          (fun j hj a e' next' he' hmailbox₁ ↦ ?_)
          ⟨frames, some (p.transfer data now).outgoing, ?_, ?_, ?_⟩
        · exact ⟨Function.update_of_ne hj .., hpayloads j _ hj, hpopped ..⟩
        · cases hpublisher.symm.trans hp'
          rfl
        · rw [Registry.queue_setQueue]
          exact entries_of_ne hsubject (Ne.symm hj) he hmailbox hentries he' hmailbox₁
        · rw [payloads_append, hok]
          exact hsent.push (p.transfer data now).whole_outgoing
        · rw [popped_append, hpopped, List.append_nil, hframes]
          rfl
        · rw [payloads_append, hok, List.length_append, List.length_singleton]
          dsimp only
          rw [Function.update_self, Registry.queue_setQueue, hp, Publisher.next_idOf]
          exact .present (by rw [hentries, Function.update_self]) hinv' hmailbox'
    · obtain ⟨hq, hstarted⟩ := h.node.txMsg.queue.setBuffer he hinv'
        (by rw [TxBuffer.popReadiness_blocking (hmailbox'.trans hmailbox),
          TxBuffer.popReadiness_blocking hmailbox])
      have htransfer := TxQueue.pushTransfer_of_tryPush he hpush (.inr ⟨⟨_, rfl⟩, rfl⟩)
      have hentries := TxQueue.entries_setEntry n.node.txMsg.queue token { e with buffer := b' }
      have hnone : payloads i ([.pushed i data now (.error .notReady)] : List (Event T)) = [] := by
        simp [payloads]
      refine ⟨⟨{ n.node with txMsg := n.node.txMsg.setQueue (n.node.txMsg.queue.setEntry token
        { e with buffer := b' }) }, n.publishers⟩, .error .notReady, ?_, ?_⟩
      · rw [PublisherNode.tryPush, hpublisher, unwrap_some, ok_bind, htransfer]
        rfl
      · refine h.change (setQueue_inv h hq hstarted) hpublisher
          (by rw [Registry.queue_setQueue]; exact hentries) (fun j hj ↦ ?_) (fun p' hp' ↦ ?_)
          (fun j hj a e' next' he' hmailbox₁ ↦ ?_) ⟨frames, next, ?_, ?_, ?_⟩
        · exact ⟨rfl, hpayloads j _ hj, hpopped ..⟩
        · cases hpublisher.symm.trans hp'
          rfl
        · rw [Registry.queue_setQueue]
          exact entries_of_ne hsubject (Ne.symm hj) he hmailbox hentries he' hmailbox₁
        · rwa [payloads_append, hnone, List.append_nil]
        · rw [popped_append, hpopped, List.append_nil, hframes]
          rfl
        · rw [payloads_append, hnone, List.append_nil]
          dsimp only
          rw [hpublisher, Registry.queue_setQueue]
          exact .present (by rw [hentries, Function.update_self]) hinv' (hmailbox'.trans hmailbox)

omit [∀ i, LawfulSerialize (T i)] hsubject in
/-- No endpoint has registered for responses. -/
theorem Inv.pollPop_response (h : n.Inv topic address events) (waker : Waker) (mask : PrioritySet)
    (mtu : Mtu) : ∃ q, n.node.txResp.queue.pollPop waker mask mtu = .ok (none, q) ∧
      (n.node.txResp.setQueue q).Inv ∧ q.entries = n.node.txResp.queue.entries := by
  rcases h.node.txResp.queue.pollPop waker mask mtu with ⟨q, hpop, hq, hstarted, -, hentries, -⟩ |
    ⟨p, a, frame, eot, q, -, -, -, hpopped, -⟩
  · exact ⟨q, hpop, h.node.txResp.setQueue hq fun a ↦ by rw [hstarted], hentries⟩
  · obtain ⟨e, b, he, -⟩ := hpopped.buffer
    cases (h.responses a).symm.trans he

/-- The driver polls the node. -/
theorem Inv.pollPop (h : n.Inv topic address events) (waker : Waker) (mask : PrioritySet)
    (mtu : Mtu) : ∃ frame node, n.node.pollPop waker mask mtu = .ok (frame, node) ∧
      Inv topic address (events ++ [.popped frame]) { n with node := node } := by
  rcases h.node.txMsg.queue.pollPop waker mask mtu with ⟨q, hpop, hq, hstarted, -, hentries, -⟩ |
    ⟨p, a, frame, eot, q, hpop, hq, -, hpopped, -⟩
  · obtain ⟨q', hpop', hq', hentries'⟩ := h.pollPop_response waker mask mtu
    refine ⟨none, ⟨n.node.address, n.node.txMsg.setQueue q, n.node.txResp.setQueue q'⟩, ?_,
      ⟨⟨setQueue_inv h hq hstarted, hq'⟩, h.address, ?_, ?_, fun i ↦ ?_⟩⟩
    · rw [CoreNode.pollPop, hpop, ok_bind]
      dsimp only
      rw [hpop']
      rfl
    · intro a
      rw [Registry.queue_setQueue, hentries']
      exact h.responses a
    · intro a e he
      rw [Registry.queue_setQueue, hentries] at he
      exact h.owned a e he
    · refine (h.publishes i).keep ?_ ?_ ?_ (by simp [payloads]) (by simp [popped])
      · rfl
      · rfl
      · intro a e next he _
        rw [Registry.queue_setQueue, hentries, he]
  · obtain ⟨e, b, he, -, hfetch, mark, hentries⟩ := hpopped.buffer
    obtain ⟨i, publisher, hpublisher, rfl⟩ := h.owned a e he
    obtain ⟨frames, next, hsent, hframes, hholds⟩ := h.publishes i
    rw [hpublisher] at hholds
    cases hholds with
    | @present _ e₁ _ he₁ hinv hmailbox =>
      cases he.symm.trans he₁
      obtain ⟨o, data, rest, rfl, hsends, rfl, hinv', hmailbox'⟩ :=
        TxBuffer.tryPop_blocking (T i) hinv hmailbox hfetch
      set sent := o.frame (topic i).priority (.message (topic i).subject) data with hframe
      have hpayloads : ∀ j, payloads j ([.popped (some (n.node.setSource sent))] :
          List (Event T)) = [] := by simp [payloads]
      have hown : popped (.message (topic i).subject) ([.popped (some (n.node.setSource sent))] :
          List (Event T)) = [n.node.setSource sent] := by
        simp [popped, hframe, CoreNode.setSource, Outgoing.frame]
      refine ⟨some (n.node.setSource sent), { n.node with txMsg := n.node.txMsg.setQueue q },
        by rw [CoreNode.pollPop, hpop]; rfl,
        h.change (h.node.txMsg.setQueue hq (Registry.Popped.isSome hpopped)) hpublisher
          (by rw [Registry.queue_setQueue]; exact hentries) (fun j hj ↦ ?_) (fun p' hp' ↦ ?_)
          (fun j hj a e' next' he' hmailbox₁ ↦ ?_)
          ⟨frames ++ [sent], rest, ?_, ?_, ?_⟩⟩
      · have hne : (topic i).subject ≠ (topic j).subject := fun heq ↦ hj (hsubject heq).symm
        refine ⟨rfl, hpayloads j, ?_⟩
        simp [popped, hframe, CoreNode.setSource, Outgoing.frame, hne]
      · cases hpublisher.symm.trans hp'
        rfl
      · rw [Registry.queue_setQueue]
        exact entries_of_ne hsubject (Ne.symm hj) he hmailbox hentries he' hmailbox₁
      · rw [payloads_append, hpayloads, List.append_nil]
        exact hsent.send hsends
      · rw [popped_append, hown, hframes, List.map_append]
        rfl
      · rw [payloads_append, hpayloads, List.append_nil]
        dsimp only
        rw [hpublisher, Registry.queue_setQueue]
        exact .present (by rw [hentries, Function.update_self]) hinv' hmailbox'

/-- **The frames of a subject stay a stream of the messages of its publisher**, whatever is done
next. -/
theorem Inv.step (h : n.Inv topic address events) {op : Op T} (hop : n.Valid topic op) :
    ∃ n' event, n.step topic op = .ok (n', event) ∧ n'.Inv topic address (events ++ [event]) := by
  cases op with
  | create i a buffer => exact h.create hop.1 hop.2.1 hop.2.2
  | tryPush i data now =>
    obtain ⟨n', result, htry, hn'⟩ := h.tryPush hsubject hop data now
    exact ⟨n', _, by rw [PublisherNode.step, htry]; rfl, hn'⟩
  | pollPop waker mask mtu =>
    obtain ⟨frame, node, hpop, hn'⟩ := h.pollPop hsubject waker mask mtu
    exact ⟨{ n with node := node }, _, by rw [PublisherNode.step, hpop]; rfl, hn'⟩

end PublisherNode

end Emcyphal
