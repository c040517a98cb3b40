import Emcyphal.Gather.RoundTrip
import Emcyphal.Rx.Fifo
import Emcyphal.Tx.Stream

/-!
# The priority FIFO and one sender

A subscriber that gets the frames of one publisher, in the order they were sent, returns the
messages in that order, each of them once (`receives_in_order`).  It may have got the frames of a
message only in part; the frames it has got are a place in the stream of the sender (`Streams`).

For the reassembly, the transfer that is being received is one with another id than the last one,
whatever happened before (`Reassembly.Reads`).
-/

set_option autoImplicit false

namespace Emcyphal

open Rust SessionTable

/-! ## One transfer after another -/

namespace Reassembly

variable {timeout : Duration} {tid : TransferId} {calls : List Call} {call : Call} {r : Reassembly}

/-- The calls were pushed in a state that is not about a transfer with this id, and have delivered
nothing. -/
def Reads (timeout : Duration) (tid : TransferId) (calls : List Call) (r : Reassembly) : Prop :=
  ∃ r₀ : Reassembly, r₀.tid? ≠ some tid ∧
    runTotal (pushCall timeout) r₀ calls = (r, List.replicate calls.length none)

theorem Reads.start (timeout : Duration) (h : r.tid? ≠ some tid) : Reads timeout tid [] r :=
  ⟨r, h, rfl⟩

/-- Only the last frame of a transfer delivers it. -/
theorem pushCall_of_not_eot (h : call.tail?.map TailByte.eot = some false) :
    (r.pushCall timeout call).2 = none := by
  have hp := pushCall_pushes timeout r call
  generalize (r.pushCall timeout call).1 = r', (r.pushCall timeout call).2 = o at hp ⊢
  cases hp with
  | skip | stop | first | more => rfl
  | single hdata | last hdata =>
    rw [Call.tail?_of_frameData hdata, Option.map_some, TailByte.eot_new] at h
    cases h

/-- What is delivered is the transfer that the state is about. -/
theorem pushCall_tid? {d : Delivery} (h : (r.pushCall timeout call).2 = some d) :
    (r.pushCall timeout call).1.tid? = some d.1.id := by
  have hp := pushCall_pushes timeout r call
  generalize (r.pushCall timeout call).1 = r' at hp ⊢
  rw [h] at hp
  cases hp with
  | single | last => rfl

/-- A frame that does not end the transfer. -/
theorem Reads.more (h : Reads timeout tid calls r)
    (heot : call.tail?.map TailByte.eot = some false) :
    Reads timeout tid (calls ++ [call]) (r.pushCall timeout call).1 := by
  obtain ⟨r₀, hnew, hrun⟩ := h
  refine ⟨r₀, hnew, ?_⟩
  rw [runTotal_concat, hrun, pushCall_of_not_eot heot, List.length_append, List.length_singleton,
    List.replicate_succ']

/-- **The frame that ends the transfer delivers it.** -/
theorem Reads.last (h : Reads timeout tid calls r) {text : List Byte}
    (hencodes : Encodes tid ((calls ++ [call]).map Call.data) text)
    (hlength : text.length + 2 < 2 ^ 32)
    (htimely : ∀ first rest, calls ++ [call] = first :: rest →
      ∀ c ∈ rest, c.timestamp ≤ Instant.saturatingAdd first.timestamp timeout) :
    ∃ sof, (r.pushCall timeout call).2 =
      some (⟨tid, call.priority, sof, text.length⟩, text) := by
  obtain ⟨r₀, hnew, hrun⟩ := h
  obtain ⟨first, rest, hcalls⟩ := List.exists_cons_of_ne_nil (List.concat_ne_nil call calls)
  have hfresh : (r₀.isAssembled && r₀.isCurrent timeout tid first.timestamp) = false := by
    rw [Bool.and_eq_false_iff]
    exact .inr (Bool.eq_false_iff.mpr fun hcurrent ↦ hnew (tid?_of_isCurrent hcurrent))
  have hlast : (first :: rest).getLast? = some call := by
    rw [← hcalls, List.getLast?_concat]
  have hdelivers := delivers_encodes hencodes hlength (congrArg _ hcalls.symm) hlast
    (htimely first rest hcalls) hfresh
  rw [Delivers, ← hcalls, runTotal_concat, hrun] at hdelivers
  exact ⟨first.timestamp, List.singleton_inj.mp (List.append_inj_right' hdelivers rfl)⟩

end Reassembly

/-! ## The session of the sender -/

/-- The sender has the only session, or none yet. -/
inductive Solo (source : NodeId) : List Tracked → Reassembly → Prop
  | none : Solo source [] .idle
  | one {e : Tracked} (h : e.node = source) : Solo source [e] e.state

namespace Solo

variable {SN capacity : ℕ} {timeout : Duration} {source : NodeId} {l l' : List Tracked}
  {r : Reassembly}

/-- The first frame starts the session, which is there from then on. -/
theorem admits (h : Solo source l r) {sot : Bool} {timestamp : Instant}
    (ha : Admits SN timeout source sot timestamp l l') (hstart : l = [] → sot = true) :
    ∃ e, l' = [e] ∧ e.node = source ∧ e.state = r := by
  cases h with
  | none =>
    cases ha with
    | tracked hmem => cases hmem
    | notStart hsot => cases hsot.symm.trans (hstart rfl)
    | start _ _ hs =>
      cases hs with
      | fresh => exact ⟨_, rfl, rfl, rfl⟩
  | @one e he =>
    cases ha with
    | tracked | notStart => exact ⟨e, rfl, he, rfl⟩
    | start hnew => exact absurd (he ▸ List.mem_singleton_self _) hnew

/-- A frame of the sender is given to the reassembly of its session. -/
theorem handles (h : Solo source l r) {d : DataSpecifier} {frame : Frame} {reception : Reception}
    (hh : Handles SN capacity d timeout frame l l' reception) (hspec : frame.header.dataSpec = d)
    (hsource : frame.header.source = some source) (hstart : l = [] → sot frame.data = true) :
    reception = .regular source (callOf frame)
        ((r.pushCall timeout (callOf frame)).2.map (Reassembly.truncate capacity)) ∧
      Solo source l' (r.pushCall timeout (callOf frame)).1 ∧ l' ≠ [] := by
  cases hh with
  | foreign hne => exact absurd hspec hne
  | anonymous hnone => cases hnone.symm.trans hsource
  | dropped hsome ha hnot =>
    cases hsome.symm.trans hsource
    obtain ⟨e, rfl, he, -⟩ := h.admits ha hstart
    exact absurd (he ▸ List.mem_singleton_self _) hnot
  | @regular as bs e e' _ hsome ha he he' hstate =>
    cases hsome.symm.trans hsource
    obtain ⟨e₁, heq, -, hr⟩ := h.admits ha hstart
    obtain ⟨rfl, rfl, rfl⟩ : as = [] ∧ e = e₁ ∧ bs = [] := by
      rcases List.append_eq_singleton_iff.mp heq with ⟨has, hcons⟩ | ⟨-, hnil⟩
      · exact ⟨has, List.cons_eq_cons.mp hcons⟩
      · cases hnil
    rw [hr] at hstate ⊢
    have hrequeue : requeue frame.timestamp [] [] e' = [e'] := ite_self _
    rw [hrequeue, ← hstate]
    exact ⟨rfl, .one he', List.cons_ne_nil _ _⟩

end Solo

/-! ## What a receiver gets, and what it returns -/

def Event.frame? : Event → Option Frame
  | .pushed frame _ => some frame
  | _ => none

def Op.frame? : Op → Option Frame
  | .pushFrame frame => some frame
  | _ => none

def Event.item? : Event → Option Item
  | .popped _ item => item
  | _ => none

/-- The frames that were pushed. -/
def arrivals (events : List Event) : List Frame := events.filterMap Event.frame?

/-- The transfers that were popped. -/
def taken (events : List Event) : List Item := events.filterMap Event.item?

/-- A frame of the source as it is received, at another time. -/
structure Arrives (source : NodeId) (sent received : Frame) : Prop where
  header : received.header = { sent.header with source := some source }
  data : received.data = sent.data

/-- The frames that follow a start of transfer, up to the next one, are received within the timeout
after it. -/
def Timely (timeout : Duration) (frames : List Frame) : Prop :=
  ∀ before first others after, frames = before ++ first :: others ++ after →
    isSotFrame first = some true → (∀ frame ∈ others, isSotFrame frame = some false) →
    ∀ frame ∈ others, frame.timestamp ≤ Instant.saturatingAdd first.timestamp timeout

/-- The transfers that were received and not popped yet never were more than these. -/
def HasRoom (TN : ℕ) (events : List Event) : Prop :=
  ∀ before after, events = before ++ after →
    (arrivals before).countP (isEotFrame · = some true) ≤ (taken before).length + TN

/-- The frames are those of the sender up to this place in its stream. -/
def Streams (source : NodeId) (transfers : List Outgoing) (p : Priority) (d : DataSpecifier)
    (frames : List Frame) (c : Cursor) : Prop :=
  ∃ sent, Path (Cursor.Step transfers p d) .start sent c ∧
    List.Forall₂ (Arrives source) sent frames

theorem Timely.of_append {timeout : Duration} {frames later : List Frame}
    (h : Timely timeout (frames ++ later)) : Timely timeout frames :=
  fun before first others after heq ↦ h before first others (after ++ later) (by rw [heq]; simp)

theorem HasRoom.of_append {TN : ℕ} {events later : List Event} (h : HasRoom TN (events ++ later)) :
    HasRoom TN events :=
  fun before after heq ↦ h before (after ++ later) (by rw [heq, List.append_assoc])

/-- Nothing comes late if every frame is received within the timeout after every other one. -/
theorem timely_of_forall {timeout : Duration} {frames : List Frame}
    (h : ∀ first ∈ frames, ∀ frame ∈ frames,
      frame.timestamp ≤ Instant.saturatingAdd first.timestamp timeout) : Timely timeout frames := by
  rintro before first others after rfl - - frame hframe
  exact h first (by simp) frame (by simp [hframe])

/-- There is room if there is a place for each transfer. -/
theorem hasRoom_of_countP_le {TN : ℕ} {events : List Event}
    (h : (arrivals events).countP (isEotFrame · = some true) ≤ TN) : HasRoom TN events := by
  rintro before after rfl
  rw [arrivals, List.filterMap_append, List.countP_append] at h
  rw [arrivals]
  omega

namespace Streams

variable {source : NodeId} {transfers : List Outgoing} {p : Priority} {d : DataSpecifier}
  {frames : List Frame} {c c' : Cursor} {g : Frame}

theorem of_concat (h : Streams source transfers p d (frames ++ [g]) c') : ∃ c f,
    Streams source transfers p d frames c ∧ Cursor.Step transfers p d c f c' ∧
      Arrives source f g := by
  obtain ⟨sent, hpath, harrives⟩ := h
  obtain ⟨sent, last, rfl, hsent, hlast⟩ := forall₂_append_right harrives
  obtain ⟨f, rest, hf, hrest, rfl⟩ := List.forall₂_cons_right_iff.mp hlast
  obtain rfl := List.forall₂_nil_right_iff.mp hrest
  obtain ⟨c, hinit, hstep⟩ := hpath.of_concat
  exact ⟨c, f, ⟨sent, hinit, hsent⟩, hstep, hf⟩

/-- Each transfer that was received completely has brought one frame that ends it. -/
theorem count_eot (h : Streams source transfers p d frames c) :
    frames.countP (isEotFrame · = some true) = c.done.length := by
  induction frames using List.reverseRecOn generalizing c with
  | nil =>
    obtain ⟨sent, hpath, harrives⟩ := h
    obtain rfl := List.forall₂_nil_right_iff.mp harrives
    cases hpath with
    | nil => rfl
  | append_singleton frames g ih =>
    obtain ⟨c₀, f, hinit, hstep, harrives⟩ := h.of_concat
    have heot : isEotFrame g = some (decide (c.frames = [])) := by
      rw [isEotFrame, harrives.data]
      exact hstep.eot
    rw [List.countP_append, ih hinit, List.countP_singleton, heot]
    cases hstep with
    | more => simp
    | last => simp

end Streams

/-- The first of the frames starts a transfer, and the others go on with it. -/
def Opens : List Frame → Prop
  | [] => True
  | first :: others => isSotFrame first = some true ∧ ∀ f ∈ others, isSotFrame f = some false

theorem Opens.concat {frames : List Frame} (h : Opens frames) {g : Frame}
    (hg : isSotFrame g = some (decide (frames = []))) : Opens (frames ++ [g]) := by
  cases frames with
  | nil => exact ⟨hg, by simp⟩
  | cons first others =>
    refine ⟨h.1, fun f hf ↦ ?_⟩
    rcases List.mem_append.mp hf with hf | hf
    · exact h.2 f hf
    · rw [List.mem_singleton.mp hf]
      exact hg

/-! ## In order, without loss or duplication -/

/-- The transfer as it is returned: its data, and zeros. -/
def Carries (o : Outgoing) (item : Item) : Prop := ∃ n, item.2 = o.buffer ++ List.replicate n 0

/-- The session has received these frames of the transfer with the id, and no others after it. -/
structure InSession (timeout : Duration) (source : NodeId) (tid : TransferId) (frames : List Frame)
    (l : List Tracked) (c : Cursor) : Prop where
  reads : ∃ r before current, Solo source l r ∧ frames = before ++ current ∧
    List.Forall₂ (Arrives source) c.frames current ∧ Opens current ∧
      Reassembly.Reads timeout tid (current.map callOf) r
  fresh : l = [] → c.frames = []

section Push

variable {SN capacity : ℕ} {timeout : Duration} {source : NodeId} {l l' : List Tracked}
  {transfers : List Outgoing} {p : Priority} {d : DataSpecifier} {ids : ℕ → TransferId}
  {frames : List Frame} {c c' : Cursor} {f g : Frame} {r : Reassembly} {tid : TransferId}

theorem eot_callOf (frame : Frame) : (callOf frame).tail?.map TailByte.eot = isEotFrame frame :=
  Option.map_map ..

theorem data_of_arrives {sent received : List Frame}
    (h : List.Forall₂ (Arrives source) sent received) :
    (received.map callOf).map Call.data = sent.map fun f ↦ f.data.bytes := by
  induction h with
  | nil => rfl
  | cons hfirst _ ih =>
    rw [List.map_cons, List.map_cons, List.map_cons, ih, callOf, hfirst.data]

/-- A receive buffer that is large enough cuts off nothing but zeros. -/
theorem carries_truncate {o : Outgoing} (hfits : o.buffer.length ≤ capacity) (pad : ℕ)
    (transferMeta : TransferMeta) :
    Carries o (transferMeta, (o.buffer ++ List.replicate pad PAD_VALUE).take capacity) := by
  refine ⟨min (capacity - o.buffer.length) pad, ?_⟩
  rw [List.take_append, List.take_of_length_le hfits, List.take_replicate]
  rfl

theorem sot_of_isSotFrame (h : isSotFrame g = some true) : sot g.data = true := by
  obtain ⟨byte, hbyte, hsot⟩ := Option.map_eq_some_iff.mp h
  rw [sot, hbyte]
  exact hsot

theorem Timely.calls {before current : List Frame} (h : Timely timeout (before ++ current))
    (hopens : Opens current) {first : Call} {rest : List Call}
    (heq : current.map callOf = first :: rest) :
    ∀ call ∈ rest, call.timestamp ≤ Instant.saturatingAdd first.timestamp timeout := by
  obtain ⟨f, others, rfl, rfl, rfl⟩ := List.map_eq_cons_iff.mp heq
  intro call hcall
  obtain ⟨frame, hframe, rfl⟩ := List.mem_map.mp hcall
  exact h before f others [] (List.append_nil _).symm hopens.1 hopens.2 frame hframe

theorem InSession.start (h : Solo source l r) (hnew : r.tid? ≠ some tid)
    (frames : List Frame) {c : Cursor} (hc : c.frames = []) :
    InSession timeout source tid frames l c :=
  ⟨⟨r, frames, [], h, (List.append_nil _).symm, by rw [hc]; exact .nil, trivial,
    .start timeout hnew⟩, fun _ ↦ hc⟩

/-- **A frame is received.**  It completes a transfer if it is the last one of it, and the session
is ready for the next transfer then. -/
theorem InSession.push (h : InSession timeout source (ids c.done.length) frames l c)
    (hstep : Cursor.Step transfers p d c f c') (hg : Arrives source f g)
    (hids : Numbered transfers ids) (hnext : ∀ n, ids n ≠ ids (n + 1))
    (hfits : ∀ o ∈ transfers, o.buffer.length ≤ capacity) (hcapacity : capacity < 2 ^ 31)
    (htimely : Timely timeout (frames ++ [g])) {reception : Reception}
    (hh : Handles SN capacity d timeout g l l' reception) :
    InSession timeout source (ids c'.done.length) (frames ++ [g]) l' c' ∧
      ((c'.done.length = c.done.length ∧ reception.completed capacity g = none) ∨
      ∃ o item, transfers[c.done.length]? = some o ∧ c'.done.length = c.done.length + 1 ∧
        reception.completed capacity g = some item ∧ item.1.priority = p ∧ Carries o item) := by
  obtain ⟨⟨r, before, current, hsolo, hframes, harrives, hopens, hreads⟩, hfresh⟩ := h
  have hsot : isSotFrame g = some (decide (current = [])) := by
    have hempty : c.frames = [] ↔ current = [] := by
      rw [← List.length_eq_zero_iff, harrives.length_eq, List.length_eq_zero_iff]
    rw [isSotFrame, hg.data, ← decide_eq_decide.mpr hempty]
    exact hstep.sot hids
  have hstart : l = [] → sot g.data = true := by
    intro hl
    have hnil := harrives
    rw [hfresh hl, List.forall₂_nil_left_iff] at hnil
    exact sot_of_isSotFrame (hsot.trans (congrArg some (decide_eq_true hnil)))
  have harrives' : List.Forall₂ (Arrives source) (c.frames ++ [f]) (current ++ [g]) :=
    List.rel_append harrives (.cons hg .nil)
  have hopens' : Opens (current ++ [g]) := hopens.concat hsot
  have hframes' : frames ++ [g] = before ++ (current ++ [g]) := by
    rw [hframes, List.append_assoc]
  have hheader : f.header.priority = p ∧ f.header.dataSpec = d := by
    cases hstep <;> exact ⟨rfl, rfl⟩
  have heot : (callOf g).tail?.map TailByte.eot = some (decide (c'.frames = [])) := by
    rw [eot_callOf, isEotFrame, hg.data]
    exact hstep.eot
  obtain ⟨rfl, hsolo', hl'⟩ := hsolo.handles hh (by rw [hg.header]; exact hheader.2)
    (by rw [hg.header]) hstart
  cases hstep with
  | @more done sent o s s' mtu data ho hyields hfetched hleft =>
    rw [decide_eq_false (List.concat_ne_nil _ _)] at heot
    have hreads' := hreads.more heot
    rw [← List.map_singleton, ← List.map_append] at hreads'
    refine ⟨⟨⟨_, before, current ++ [g], hsolo', hframes', harrives', hopens', hreads'⟩,
      fun hnil ↦ absurd hnil hl'⟩, .inl ⟨rfl, ?_⟩⟩
    rw [Reassembly.pushCall_of_not_eot heot]
    rfl
  | @last done sent o s s' mtu data ho hyields hfetched hdone =>
    have hcomplete : o.Complete p d (sent ++ [o.frame p d data]) :=
      ⟨_, hyields.snoc hfetched, hdone⟩
    obtain ⟨pad, hpad, hencodes⟩ := hcomplete.encodes (hids _ _ ho)
    have hbuffer := hfits o (List.mem_of_getElem? ho)
    rw [← data_of_arrives harrives', List.map_append] at hencodes
    obtain ⟨sof, hdelivery⟩ := hreads.last hencodes
      (by rw [List.length_append, List.length_replicate]; omega) fun first rest heq ↦ by
        rw [← List.map_singleton, ← List.map_append] at heq
        exact (hframes' ▸ htimely).calls hopens' heq
    have hlength : (done ++ [sent ++ [o.frame p d data]]).length = done.length + 1 := by simp
    refine ⟨.start hsolo' ?_ _ rfl, .inr ⟨o, (⟨p, some source, ids done.length, sof, g.loopBack⟩,
      (o.buffer ++ List.replicate pad PAD_VALUE).take capacity), ho, hlength, ?_, rfl,
      carries_truncate hbuffer pad _⟩⟩
    · rw [Reassembly.pushCall_tid? hdelivery, hlength]
      exact fun heq ↦ hnext _ (Option.some.inj heq)
    · rw [hdelivery, Reception.completed, callOf, hg.header]
      rfl

end Push

/-! ## Runs of the receiver -/

theorem arrivals_pushed (events : List Event) (frame : Frame) (reception : Reception) :
    arrivals (events ++ [.pushed frame reception]) = arrivals events ++ [frame] := by
  rw [arrivals, List.filterMap_append]
  rfl

theorem arrivals_of_frame?_none (events : List Event) {event : Event} (h : event.frame? = none) :
    arrivals (events ++ [event]) = arrivals events := by
  rw [arrivals, List.filterMap_append, List.filterMap_cons_none h, List.filterMap_nil,
    List.append_nil, arrivals]

theorem taken_append (events : List Event) (event : Event) :
    taken (events ++ [event]) = taken events ++ event.item?.toList := by
  rw [taken, List.filterMap_append, taken]
  cases h : event.item? with
  | none => rw [List.filterMap_cons_none h, List.filterMap_nil, Option.toList_none]
  | some item => rw [List.filterMap_cons_some h, List.filterMap_nil, Option.toList_some]

theorem taken_of_item?_none (events : List Event) {event : Event} (h : event.item? = none) :
    taken (events ++ [event]) = taken events := by
  rw [taken_append, h, Option.toList_none, List.append_nil]

namespace RxPriorityFifoInner

section Stream

variable {SN TN capacity : ℕ} {timeout : Duration} {source : NodeId} {transfers : List Outgoing}
  {p : Priority} {d : DataSpecifier} {ids : ℕ → TransferId} {c c' : Cursor}
  {events : List Event} {l l' : List Tracked} {b b' : Backlog Priority TransferEntry}
  {r r' : RxPriorityFifoInner SN TN}

theorem step_frame? {op : Op} {event : Event} (h : r.step op = .ok (r', event)) :
    event.frame? = op.frame? := by
  cases op with
  | pushFrame frame =>
    obtain ⟨reception, -, h⟩ := bind_eq_ok.mp h
    obtain ⟨r, -, h⟩ := bind_eq_ok.mp h
    cases h
    rfl
  | tryPop mask =>
    obtain ⟨popped, -, h⟩ := bind_eq_ok.mp h
    cases h
    rfl
  | pollPopReadiness waker mask =>
    cases h
    rfl

/-- The queue has the transfers that were received completely and not popped yet. -/
def Queues (transfers : List Outgoing) (p : Priority) (n : ℕ) (items : List Item)
    (contents : Backlog Priority Item) : Prop :=
  ∃ queued, contents = .single p queued ∧
    List.Forall₂ Carries (transfers.take n) (items ++ queued)

theorem Queues.push {n : ℕ} {items : List Item} {contents : Backlog Priority Item}
    (h : Queues transfers p n items contents) {o : Outgoing} (ho : transfers[n]? = some o)
    (hroom : n + 1 ≤ items.length + TN) {item : Item} (hpriority : item.1.priority = p)
    (hcarries : Carries o item) :
    Queues transfers p (n + 1) items (accept TN contents (some item)) := by
  obtain ⟨queued, rfl, hall⟩ := h
  have hlength := hall.length_eq
  rw [List.length_take, List.length_append,
    Nat.min_eq_left (List.getElem?_eq_some_iff.mp ho).1.le] at hlength
  refine ⟨queued ++ [item], ?_, ?_⟩
  · rw [accept, Option.elim_some, hpriority, Backlog.push_single (by omega)]
  · rw [List.take_add_one, ho, ← List.append_assoc]
    exact List.rel_append hall (.cons hcarries .nil)

theorem Queues.pop {n : ℕ} {items : List Item} {contents : Backlog Priority Item}
    (h : Queues transfers p n items contents) (mask : Priority → Bool) :
    Queues transfers p n (items ++ ((contents.pop mask).1.map Prod.snd).toList)
      (contents.pop mask).2 := by
  obtain ⟨queued, rfl, hall⟩ := h
  by_cases hnone : mask p = false ∨ queued = []
  · rw [Backlog.pop_single_none hnone]
    exact ⟨queued, rfl, by simpa using hall⟩
  · obtain ⟨hmask, hne⟩ := not_or.mp hnone
    obtain ⟨item, rest, rfl⟩ := List.exists_cons_of_ne_nil hne
    rw [Backlog.pop_single_cons (by simpa using hmask)]
    exact ⟨rest, rfl, by simpa using hall⟩

/-- What the receiver has of the stream of the sender. -/
structure Hears (timeout : Duration) (source : NodeId) (transfers : List Outgoing) (p : Priority)
    (ids : ℕ → TransferId) (events : List Event) (l : List Tracked)
    (contents : Backlog Priority Item) (c : Cursor) : Prop where
  session : InSession timeout source (ids c.done.length) (arrivals events) l c
  queue : Queues transfers p c.done.length (taken events) contents

/-- A receiver that got the frames of the sender in time, and had room for what they complete, has
heard all of them. -/
def Listens (capacity : ℕ) (timeout : Duration) (source : NodeId) (transfers : List Outgoing)
    (p : Priority) (d : DataSpecifier) (ids : ℕ → TransferId) (events : List Event)
    (r : RxPriorityFifoInner SN TN) : Prop :=
  ∃ l b, r.Reaches capacity d timeout events l b ∧
    ∀ c, Streams source transfers p d (arrivals events) c → Timely timeout (arrivals events) →
      HasRoom TN events → Hears timeout source transfers p ids events l (r.contents b) c

variable (hids : Numbered transfers ids) (hnext : ∀ n, ids n ≠ ids (n + 1))
  (hfits : ∀ o ∈ transfers, o.buffer.length ≤ capacity) (hcapacity : capacity < 2 ^ 31)

include hids hnext hfits hcapacity

theorem Hears.push {frame : Frame} {reception : Reception} {contents : Backlog Priority Item}
    {f : Frame} (h : Hears timeout source transfers p ids events l contents c)
    (hstep : Cursor.Step transfers p d c f c') (harrives : Arrives source f frame)
    (htimely : Timely timeout (arrivals events ++ [frame]))
    (hroom : c'.done.length ≤ (taken events).length + TN)
    (hh : Handles SN capacity d timeout frame l l' reception) :
    Hears timeout source transfers p ids (events ++ [.pushed frame reception]) l'
      (accept TN contents (reception.completed capacity frame)) c' := by
  obtain ⟨hsession, hcase⟩ :=
    h.session.push hstep harrives hids hnext hfits hcapacity htimely hh
  refine ⟨by rwa [arrivals_pushed], ?_⟩
  rw [taken_of_item?_none _ rfl]
  rcases hcase with ⟨hlength, hnone⟩ | ⟨o, item, ho, hlength, hsome, hpriority, hcarries⟩
  · rw [hlength, hnone]
    exact h.queue
  · rw [hlength, hsome]
    exact h.queue.push ho (hlength ▸ hroom) hpriority hcarries

/-- **One operation of the receiver.** -/
theorem Listens.stepped {event : Event}
    (h : Listens capacity timeout source transfers p d ids events r)
    (hstepped : ∀ l b, r.Represents capacity l b →
      ∃ l' b', Stepped r r' capacity event l l' b b') :
    Listens capacity timeout source transfers p d ids (events ++ [event]) r' := by
  obtain ⟨l, b, hr, hhears⟩ := h
  obtain ⟨l', b', hs⟩ := hstepped l b hr.represents
  refine ⟨l', b', hs.reaches hr, fun c hstreams htimely hroom ↦ ?_⟩
  have hhandles := hs.handles
  rw [hr.dataSpecifier, hr.timeout] at hhandles
  rw [hs.contents]
  cases event with
  | pushed frame reception =>
    rw [arrivals_pushed] at hstreams htimely
    obtain ⟨c₀, f, hinit, hstep, harrives⟩ := hstreams.of_concat
    have hdone : c.done.length ≤ (taken events).length + TN := by
      have hcount := hroom (events ++ [.pushed frame reception]) [] (List.append_nil _).symm
      rwa [arrivals_pushed, hstreams.count_eot, taken_of_item?_none _ rfl] at hcount
    exact (hhears c₀ hinit htimely.of_append hroom.of_append).push hids hnext hfits hcapacity
      hstep harrives htimely hdone hhandles
  | popped mask item =>
    rw [arrivals_of_frame?_none _ rfl] at hstreams htimely
    obtain ⟨hsession, hqueue⟩ := hhears c hstreams htimely hroom.of_append
    obtain rfl : l' = l := hhandles
    refine ⟨by rwa [arrivals_of_frame?_none _ rfl], ?_⟩
    rw [taken_append, Event.item?, hs.answers mask item rfl]
    exact hqueue.pop mask.contains
  | polled mask ready =>
    rw [arrivals_of_frame?_none _ rfl] at hstreams htimely
    obtain ⟨hsession, hqueue⟩ := hhears c hstreams htimely hroom.of_append
    obtain rfl : l' = l := hhandles
    exact ⟨by rwa [arrivals_of_frame?_none _ rfl], by rwa [taken_of_item?_none _ rfl]⟩

omit hids hnext hfits hcapacity in
/-- A new receiver has heard nothing yet. -/
theorem listens_new (hr : r.Reaches capacity d timeout [] [] fun _ ↦ []) :
    Listens capacity timeout source transfers p d ids [] r := by
  refine ⟨[], _, hr, fun c hstreams _ _ ↦ ?_⟩
  obtain ⟨sent, hpath, harrives⟩ := hstreams
  obtain rfl := List.forall₂_nil_right_iff.mp harrives
  cases hpath with
  | nil =>
    refine ⟨⟨⟨.idle, [], [], .none, rfl, .nil, trivial, .start timeout (by simp [Phase.tid?])⟩,
      fun _ ↦ rfl⟩, [], ?_, .nil⟩
    rw [hr.contents, Backlog.single_nil]
    rfl

/-- **A receiver that gets the frames of one sender returns its messages**: those that it got all
frames of, in the order they were sent, each of them once and with its data.  It needs the frames of
a message in time, and room for the messages that were not popped yet. -/
theorem receives_in_order {buffers : List (List Byte)} (h : Sized SN TN capacity buffers)
    {r₀ : RxPriorityFifoInner SN TN} (hnew : new SN TN d timeout buffers = .ok r₀) {ops : List Op}
    (hrun : run step r₀ ops = .ok (r, events))
    (hstreams : Streams source transfers p d (arrivals events) c)
    (htimely : Timely timeout (arrivals events)) (hroom : HasRoom TN events) :
    ∃ queued, List.Forall₂ Carries (transfers.take c.done.length) (taken events ++ queued) ∧
      ∀ mask : PrioritySet, mask.contains p = true → ∃ r', r.tryPop mask =
        .ok (queued.head?, r') := by
  obtain ⟨r₀', hnew', hr₀⟩ := h.new_reaches d timeout
  cases hnew.symm.trans hnew'
  have htraces : Traces step fun events (r : RxPriorityFifoInner SN TN) ↦
      Listens capacity timeout source transfers p d ids events r :=
    fun events r op r' event hr hstep ↦ hr.stepped hids hnext hfits hcapacity fun l b hlb ↦
      stepped_of_ok h.le_noEntry h.transfers.1 hlb hstep
  obtain ⟨l, b, hr, hhears⟩ := run_of_traces htraces (listens_new hr₀) hrun
  obtain ⟨queued, hqueued, hall⟩ := (hhears c hstreams htimely hroom).queue
  refine ⟨queued, hall, fun mask hmask ↦ ?_⟩
  obtain ⟨r', b', hpop, -⟩ := tryPop_represents hr.represents mask
  refine ⟨r', ?_⟩
  rw [hpop, hqueued]
  cases queued with
  | nil => rw [Backlog.pop_single_none (.inr rfl)]; rfl
  | cons item rest => rw [Backlog.pop_single_cons hmask]; rfl

end Stream

end RxPriorityFifoInner

end Emcyphal
