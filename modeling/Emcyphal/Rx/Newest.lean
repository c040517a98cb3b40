import Emcyphal.Lib.Newest
import Emcyphal.Rx.Shares
import Emcyphal.Rx.Watch

/-!
# The watch holds the newest transfer

`Watch.Inner.Represents` relates the watch to a register for the newest of the transfers it has
completed, a `Newest` whose key is the timestamp.  The code remembers the newest timestamp only;
that is enough to decide which transfers are accepted.
-/

set_option autoImplicit false

namespace Emcyphal

open Rust

/-- When a transfer was started. -/
def Item.timestamp (item : Item) : Instant := item.1.timestamp

namespace Watch.Inner

open SessionTable

variable {SN : ℕ}

/-- The transfer that is held, as a pop would return it. -/
def held (w : Inner SN) : Option Item :=
  w.transfer.map fun entry ↦
    (entry.transferMeta, (w.buffers[w.transferBufferIdx]?.getD []).take entry.bufferLength)

/-- The buffers that do not belong to a session. -/
def rest (w : Inner SN) : List ℕ := [w.transferBufferIdx, w.readoutBufferIdx]

/-- The watch has these sessions, and holds the newest of these transfers. -/
structure Represents (w : Inner SN) (capacity : ℕ) (l : List Tracked) (n : Newest Item) : Prop where
  shares : w.toSessionTable.Shares capacity l w.rest
  fits : ∀ entry, w.transfer = some entry → entry.bufferLength ≤ capacity
  held : w.held = n.held
  bound : ∀ x ∈ n.seen, Item.timestamp x ≤ w.transferMinTimestamp
  attained : w.transferMinTimestamp = Instant.MIN ∨
    ∃ x ∈ n.seen, Item.timestamp x = w.transferMinTimestamp

/-- The configuration and the transfer that was popped last stay. -/
abbrev Undisturbed (w w' : Inner SN) : Prop :=
  SessionTable.Undisturbed w.toSessionTable w'.toSessionTable w.readoutBufferIdx w'.readoutBufferIdx

variable {w : Inner SN} {capacity : ℕ} {l as bs : List Tracked} {e : Tracked} {n : Newest Item}
  {item : Item}

theorem new_represents (hSN : SN ≤ 128) (dataSpecifier : DataSpecifier) (timeout : Duration)
    {buffers : List (List Byte)} (hlen : buffers.length = SN + 2)
    (hcap : ∀ buffer ∈ buffers, buffer.length = capacity) :
    ∃ w, new SN dataSpecifier timeout buffers = .ok w ∧ w.Represents capacity [] (.empty Item) ∧
      w.dataSpecifier = dataSpecifier ∧ w.timeout = timeout := by
  obtain ⟨sessions, hsessions, hlists⟩ : ∃ q : IndexQueue NodeId Session NODE_ID_MAX SN, _ :=
    IndexQueue.new_represents (by omega)
  have htransfer : u8TryFrom SN = some SN := if_pos (by omega)
  have hreadout : u8TryFrom (SN + 1) = some (SN + 1) := if_pos (by omega)
  have hshares := new_shares (d := dataSpecifier) (t := timeout) hlists hcap (by omega)
  rw [hlen, Nat.add_sub_cancel_left] at hshares
  refine ⟨⟨⟨dataSpecifier, buffers, sessions, 0, timeout⟩, none, Instant.MIN, SN, SN + 1, .new⟩, ?_,
    ⟨hshares, by simp, rfl, by simp [Newest.empty], .inl rfl⟩, rfl, rfl⟩
  rw [new, assert_pos hlen, ok_bind, hsessions, ok_bind, htransfer, unwrap_some, ok_bind, hreadout,
    unwrap_some]
  rfl

/-! ## A transfer is offered -/

/-- The newest timestamp tells whether a transfer is accepted. -/
theorem Represents.accepts_iff (h : w.Represents capacity l n) (item : Item) :
    (∀ x ∈ n.seen, Item.timestamp x ≤ Item.timestamp item) ↔
      w.transferMinTimestamp ≤ Item.timestamp item :=
  Newest.forall_seen_iff h.bound h.attained (Nat.zero_le _)

/-- A transfer that is not accepted changes nothing. -/
theorem Represents.reject (h : w.Represents capacity l n)
    (hold : ¬ w.transferMinTimestamp ≤ Item.timestamp item) :
    w.Represents capacity l (n.offer Item.timestamp item) where
  shares := h.shares
  fits := h.fits
  held := by rw [Newest.offer, if_neg (mt (h.accepts_iff item).mp hold), h.held]
  bound x hx := (List.mem_append.mp hx).elim (h.bound x) fun hx ↦
    List.mem_singleton.mp hx ▸ (not_le.mp hold).le
  attained := h.attained.imp_right fun ⟨x, hx, heq⟩ ↦ ⟨x, List.mem_append_left _ hx, heq⟩

/-- A transfer that is accepted replaces the one that was held. -/
theorem Represents.accept (h : w.Represents capacity l n)
    (hnew : w.transferMinTimestamp ≤ Item.timestamp item) {w' : Inner SN} {l' : List Tracked}
    (hshares : w'.toSessionTable.Shares capacity l' w'.rest)
    (hfits : ∀ entry, w'.transfer = some entry → entry.bufferLength ≤ capacity)
    (hheld : w'.held = some item) (hmin : w'.transferMinTimestamp = Item.timestamp item) :
    w'.Represents capacity l' (n.offer Item.timestamp item) where
  shares := hshares
  fits := hfits
  held := by rw [Newest.offer, if_pos ((h.accepts_iff item).mpr hnew), hheld]
  bound x hx := hmin ▸ (List.mem_append.mp hx).elim (fun hx ↦ (h.bound x hx).trans hnew) fun hx ↦
    List.mem_singleton.mp hx ▸ le_rfl
  attained := .inr ⟨item, by simp [Newest.offer], hmin.symm⟩

/-- **A completed transfer is held if it is the newest**, and its session goes on with the buffer of
the transfer that was held before. -/
theorem holdTransfer_represents (hSN : SN ≤ IndexQueue.NO_ENTRY)
    (h : w.Represents capacity (as ++ e :: bs) n) (hbytes : e.state.bytes = [])
    {priority : Priority} (loopBack : Bool) {buffer : List Byte}
    (hbuffer : w.buffers[e.bufferIdx]? = some buffer) {transfer : Transfer}
    (hpriority : transfer.priority = priority) :
    ∃ w' e', w.holdTransfer e.node priority loopBack e.session buffer transfer =
        .ok (w', e'.session) ∧
      e'.node = e.node ∧ e'.state = e.state ∧
      w'.Represents capacity (as ++ e' :: bs) (n.offer Item.timestamp
        (⟨priority, some e.node, transfer.id, transfer.timestamp, loopBack⟩,
          buffer.take transfer.length)) ∧
      w.Undisturbed w' := by
  have hcap : buffer.length = capacity :=
    h.shares.tracks.capacity buffer (List.mem_of_getElem? hbuffer)
  set item : Item := (⟨priority, some e.node, transfer.id, transfer.timestamp, loopBack⟩,
    buffer.take transfer.length) with hitem
  rw [holdTransfer, hpriority]
  by_cases hnew : w.transferMinTimestamp ≤ item.timestamp
  · obtain ⟨sessions, hset, hshares⟩ := Shares.swap hSN h.shares hbytes
    rw [show transfer.timestamp = item.timestamp from rfl, if_pos hnew]
    dsimp only
    rw [hset, ok_bind]
    refine ⟨_, { e with bufferIdx := w.transferBufferIdx }, rfl, rfl, rfl, ?_, ⟨rfl, rfl, rfl, rfl⟩⟩
    refine h.accept hnew hshares ?_ ?_ rfl
    · rintro _ ⟨⟩
      exact hcap ▸ Nat.min_le_right _ _
    · rw [held]
      simp only [Option.map_some, show e.session.bufferIdx = e.bufferIdx from rfl, hbuffer,
        Option.getD_some, take_min_length]
      rfl
  · rw [show transfer.timestamp = item.timestamp from rfl, if_neg hnew]
    exact ⟨w, e, rfl, rfl, rfl, h.reject hnew, .refl _ _⟩

/-! ## A frame is received -/

/-- The register after a frame has completed a transfer, or none. -/
def offered (n : Newest Item) (item : Option Item) : Newest Item :=
  item.elim n fun item ↦ n.offer Item.timestamp item

/-- What a frame does to the watch. -/
structure Pushed (w w' : Inner SN) (capacity : ℕ) (frame : Frame) (l l' : List Tracked)
    (n : Newest Item) (reception : Reception) : Prop where
  represents : w'.Represents capacity l' (offered n (reception.completed capacity frame))
  undisturbed : w.Undisturbed w'
  handles : Handles SN capacity w.dataSpecifier w.timeout frame l l' reception

/-- The sessions have changed, and with them none but their own buffers. -/
theorem Represents.table (h : w.Represents capacity l n) {t : SessionTable SN} {l' : List Tracked}
    (ht : t.Shares capacity l' w.rest) (hframe : ∀ i ∈ w.rest, t.buffers[i]? = w.buffers[i]?)
    (hspec : t.dataSpecifier = w.dataSpecifier) (htimeout : t.timeout = w.timeout) :
    Represents { w with toSessionTable := t } capacity l' n ∧
      w.Undisturbed { w with toSessionTable := t } :=
  ⟨⟨ht, h.fits, by
    rw [← h.held, Inner.held, Inner.held, hframe w.transferBufferIdx (by simp [rest])],
    h.bound, h.attained⟩, ⟨hspec, htimeout, rfl, hframe _ (by simp [rest])⟩⟩

theorem Represents.touch (hSN : SN ≤ IndexQueue.NO_ENTRY)
    (h : w.Represents capacity (as ++ e :: bs) n) (timestamp : Instant) :
    ∃ t, w.toSessionTable.touch e.node e.session timestamp = .ok t ∧
      Represents { w with toSessionTable := t } capacity (requeue timestamp as bs e) n ∧
      w.Undisturbed { w with toSessionTable := t } := by
  obtain ⟨q, htouch, hshares⟩ := touch_shares hSN h.shares timestamp
  exact ⟨_, htouch, h.table hshares (fun _ _ ↦ rfl) rfl rfl⟩

theorem deliver_represents (hSN : SN ≤ IndexQueue.NO_ENTRY)
    (h : w.Represents capacity (as ++ e :: bs) n) {priority : Priority} (timestamp : Instant)
    (loopBack : Bool) {buffer : List Byte} (hbuffer : w.buffers[e.bufferIdx]? = some buffer)
    {transfer : Option Transfer}
    (htransfer : ∀ t, transfer = some t → e.state.bytes = [] ∧ t.priority = priority) :
    ∃ w' e', w.deliver e.node priority timestamp loopBack ⟨e.session, buffer, transfer⟩ = .ok w' ∧
      e'.node = e.node ∧ e'.state = e.state ∧ w.Undisturbed w' ∧
      w'.Represents capacity (requeue timestamp as bs e') (offered n (transfer.map fun t ↦
        (⟨priority, some e.node, t.id, t.timestamp, loopBack⟩, buffer.take t.length))) := by
  rw [deliver]
  cases transfer with
  | none =>
    obtain ⟨t, htouch, h', hu⟩ := h.touch hSN timestamp
    refine ⟨_, e, ?_, rfl, rfl, hu, h'⟩
    simp only [htouch, ok_bind, pure_eq_ok]
  | some transfer =>
    obtain ⟨hbytes, hpriority⟩ := htransfer transfer rfl
    obtain ⟨w₁, e', hhold, hnode, hstate, h₁, hu₁⟩ :=
      holdTransfer_represents hSN h hbytes loopBack hbuffer hpriority
    obtain ⟨t, htouch, h', hu⟩ := h₁.touch hSN timestamp
    refine ⟨_, e', ?_, hnode, hstate, hu₁.trans hu, h'⟩
    rw [hnode] at htouch
    simp only [hhold, ok_bind, htouch]
    rfl

theorem pushRegularFrame_represents (hSN : SN ≤ IndexQueue.NO_ENTRY)
    (h : w.Represents capacity l n) {frame : Frame}
    (hspec : frame.header.dataSpec = w.dataSpecifier) {source : NodeId}
    (hsource : frame.header.source = some source) (hstart : 1 ≤ SN ∨ sot frame.data = false) :
    ∃ w' l' reception, w.toSessionTable.receive frame = .ok reception ∧
      w.pushFrame frame = .ok w' ∧ Pushed w w' capacity frame l l' n reception := by
  obtain ⟨t, l', hadmits, ht, ht', hframe, hcase⟩ := reassemble_shares hSN h.shares source hstart
  have hpush : w.pushFrame frame = w.pushRegularFrame source frame.header.priority frame.data
      frame.timestamp frame.loopBack := by
    rw [pushFrame, if_neg (not_not.mpr hspec), hsource]
  rw [hpush, pushRegularFrame]
  rcases hcase with ⟨hnot, hreassemble, hshares⟩ |
    ⟨as, e, bs, buffer, transfer, rfl, rfl, hreassemble, hshares, hbuffer, hseen, htransfer⟩
  · have hreceive := receive_of_reassemble hspec hsource hreassemble
    obtain ⟨h', hu⟩ := h.table hshares hframe ht ht'
    rw [hreassemble]
    exact ⟨_, l', .ignored, hreceive, rfl, h', hu, .dropped hsource hadmits hnot⟩
  · have hreceive := receive_of_reassemble hspec hsource hreassemble
    rw [Option.elim_some, hseen] at hreceive
    obtain ⟨h₁, hu₁⟩ := h.table hshares hframe ht ht'
    obtain ⟨w', e', hdeliver, hnode, hstate, hu, h'⟩ :=
      deliver_represents hSN h₁ frame.timestamp frame.loopBack hbuffer htransfer
    refine ⟨w', _, _, hreceive, ?_, ?_, hu₁.trans hu, .regular hsource hadmits rfl hnode hstate⟩
    · rw [hreassemble, ok_bind]
      exact hdeliver
    · rw [Reception.completed, ← hseen, Option.map_map]
      refine Eq.mp (congrArg (fun o ↦ w'.Represents capacity _ (offered n o))
        (Option.map_congr fun tr htr ↦ ?_)) h'
      rw [Function.comp_apply, ← (htransfer tr htr).2]
      rfl

theorem pushAnonymousFrame_represents (h : w.Represents capacity l n) {frame : Frame}
    (hspec : frame.header.dataSpec = w.dataSpecifier) (hsource : frame.header.source = none) :
    ∃ w' reception, w.toSessionTable.receive frame = .ok reception ∧
      w.pushFrame frame = .ok w' ∧ Pushed w w' capacity frame l l n reception := by
  have hreceive := receive_of_anonymous hspec hsource
  have hpush : w.pushFrame frame = w.pushAnonymousFrame frame.header.priority frame.data
      frame.timestamp frame.loopBack := by
    rw [pushFrame, if_neg (not_not.mpr hspec), hsource]
  rw [hpush, pushAnonymousFrame]
  cases hpayload : anonymousPayload frame.data with
  | none =>
    rw [hpayload] at hreceive
    exact ⟨w, _, hreceive, rfl, h, .refl _ _, .anonymous hsource (by simp)⟩
  | some p =>
    obtain ⟨transferId, payload⟩ := p
    rw [hpayload] at hreceive
    dsimp only
    set item : Item :=
      (⟨frame.header.priority, none, transferId, frame.timestamp, frame.loopBack⟩,
        payload.take capacity) with hitem
    by_cases hnew : w.transferMinTimestamp ≤ frame.timestamp
    · have hlt : w.transferBufferIdx < w.buffers.length := h.shares.lt_length (by simp [rest])
      have hne : w.transferBufferIdx ≠ w.readoutBufferIdx := fun heq ↦ by
        have hnodup := h.shares.nodup.of_append_right
        rw [rest, heq] at hnodup
        simp at hnodup
      have hbuffer := List.getElem?_eq_getElem hlt
      set buffer := w.buffers[w.transferBufferIdx] with hdef
      have hcap : buffer.length = capacity :=
        h.shares.tracks.capacity buffer (List.getElem_mem hlt)
      obtain ⟨hlength, htake⟩ := overwrite_take_min buffer payload
      rw [if_neg (not_lt.mpr hnew), index_of_getElem? hbuffer, ok_bind, assign_of_lt hlt, ok_bind]
      refine ⟨_, _, hreceive, rfl, h.accept
        (show _ ≤ item.timestamp from hnew)
        (h.shares.setBuffer (by simp [rest]) (hlength.trans hcap))
        ?_ ?_ rfl, ⟨rfl, rfl, rfl, List.getElem?_set_ne hne⟩, .anonymous hsource (by simp)⟩
      · rintro _ ⟨⟩
        exact hcap ▸ Nat.min_le_right _ _
      · rw [held]
        simp only [Option.map_some, List.getElem?_set_self hlt, Option.getD_some, htake]
        rw [hcap]
    · rw [if_pos (not_le.mp hnew)]
      exact ⟨w, _, hreceive, rfl, h.reject (show ¬ _ ≤ item.timestamp from hnew),
        .refl _ _, .anonymous hsource (by simp)⟩

/-- **A frame does not panic, and reaches the sessions and the register**, if there are slots for
sessions or the frame needs none. -/
theorem pushFrame_represents (hSN : SN ≤ IndexQueue.NO_ENTRY) (h : w.Represents capacity l n)
    (frame : Frame) (hstart : 1 ≤ SN ∨ ¬ NeedsSession w.dataSpecifier frame) :
    ∃ w' l' reception, w.toSessionTable.receive frame = .ok reception ∧
      w.pushFrame frame = .ok w' ∧ Pushed w w' capacity frame l l' n reception := by
  by_cases hspec : frame.header.dataSpec = w.dataSpecifier
  · cases hsource : frame.header.source with
    | none =>
      obtain ⟨w', reception, hreceive, hpush, hpushed⟩ :=
        pushAnonymousFrame_represents h hspec hsource
      exact ⟨w', l, reception, hreceive, hpush, hpushed⟩
    | some source =>
      refine pushRegularFrame_represents hSN h hspec hsource (hstart.imp_right fun hnot ↦ ?_)
      exact Bool.eq_false_iff.mpr fun hsot ↦ hnot ⟨hspec, by rw [hsource]; rfl, hsot⟩
  · exact ⟨w, l, .ignored, receive_of_foreign hspec, if_pos hspec, h, .refl _ _, .foreign hspec⟩

/-- Without any slot for a session, a frame that needs one panics. -/
theorem pushFrame_panics {w : Inner 0} (h : w.Represents capacity l n) {frame : Frame}
    (hneeds : NeedsSession w.dataSpecifier frame) : w.pushFrame frame = .error .unwrap := by
  obtain ⟨hspec, hsource, hsot⟩ := hneeds
  obtain ⟨source, hsource⟩ := Option.isSome_iff_exists.mp hsource
  rw [pushFrame, if_neg (not_not.mpr hspec), hsource]
  dsimp only
  rw [pushRegularFrame, reassemble, ensureSession_panics h.shares.tracks hsot]
  rfl

/-! ## The transfer is popped -/

/-- The priority of a transfer is selected. -/
def selects (mask : PrioritySet) (item : Item) : Bool := mask.contains item.1.priority

/-- **A transfer is popped as from the register**, and its buffer is the readout buffer from then
on. -/
theorem tryPop_represents (h : w.Represents capacity l n) (mask : PrioritySet) :
    ∃ w', w.tryPop mask = .ok ((n.take (selects mask)).1, w') ∧
      w'.Represents capacity l (n.take (selects mask)).2 ∧
      w'.dataSpecifier = w.dataSpecifier ∧ w'.timeout = w.timeout ∧
      ((n.take (selects mask)).1 = none → w' = w) ∧
      ∀ item, (n.take (selects mask)).1 = some item →
        (w'.buffers[w'.readoutBufferIdx]?.getD []).take item.2.length = item.2 := by
  rw [tryPop, Newest.take, ← h.held, held]
  cases htransfer : w.transfer with
  | none => exact ⟨w, rfl, h, rfl, rfl, fun _ ↦ rfl, by simp⟩
  | some entry =>
    have hlt : w.transferBufferIdx < w.buffers.length := h.shares.lt_length (by simp [rest])
    have hbuffer := List.getElem?_eq_getElem hlt
    set buffer := w.buffers[w.transferBufferIdx] with hdef
    have hfit : entry.bufferLength ≤ buffer.length := by
      rw [h.shares.tracks.capacity buffer (List.getElem_mem hlt)]
      exact h.fits entry htransfer
    rw [Option.all_some, Option.map_some, hbuffer, Option.getD_some]
    dsimp only
    rw [show selects mask (entry.transferMeta, buffer.take entry.bufferLength) =
      mask.contains entry.transferMeta.priority from rfl]
    cases hmask : mask.contains entry.transferMeta.priority with
    | false => exact ⟨w, rfl, h, rfl, rfl, fun _ ↦ rfl, by simp⟩
    | true =>
      rw [unwrap_some]
      simp only [Bool.not_true, Bool.false_eq_true, if_false, if_true, pure_eq_ok, ok_bind]
      rw [index_of_getElem? hbuffer, ok_bind, sliceTo_of_le hfit, ok_bind]
      refine ⟨_, rfl, ⟨h.shares.perm (List.Perm.swap _ _ _), by simp, rfl, h.bound, h.attained⟩,
        rfl, rfl, by simp, ?_⟩
      rintro _ ⟨⟩
      dsimp only
      rw [hbuffer, Option.getD_some, List.length_take, take_min_length]

/-! ## Runs -/

/-- The register after an operation. -/
def next (capacity : ℕ) (n : Newest Item) : Event → Newest Item
  | .pushed frame reception => offered n (reception.completed capacity frame)
  | .popped mask _ => (n.take (selects mask)).2
  | .polled _ _ => n

/-- The register after a history: the transfers in the order of their completion are offered to
it. -/
def after (capacity : ℕ) (events : List Event) : Newest Item :=
  events.foldl (next capacity) (.empty Item)

theorem after_concat (capacity : ℕ) (events : List Event) (event : Event) :
    after capacity (events ++ [event]) = next capacity (after capacity events) event := by
  rw [after, List.foldl_append]
  rfl

/-- What an operation does to the watch. -/
structure Stepped (w w' : Inner SN) (capacity : ℕ) (event : Event) (l l' : List Tracked)
    (n : Newest Item) : Prop where
  represents : w'.Represents capacity l' (next capacity n event)
  dataSpecifier : w'.dataSpecifier = w.dataSpecifier
  timeout : w'.timeout = w.timeout
  handles : HandlesEvent SN capacity w.dataSpecifier w.timeout l l' event
  answers : ∀ mask item, event = .popped mask item → item = (n.take (selects mask)).1
  /-- Only a pop that returns a transfer changes what was popped before. -/
  undisturbed : (∀ mask item, event ≠ .popped mask (some item)) → w.Undisturbed w'

/-- **Every operation keeps the invariant**, and it panics only if a session is needed and there are
no slots for sessions. -/
theorem step_represents (hSN : SN ≤ IndexQueue.NO_ENTRY) (h : w.Represents capacity l n) (op : Op)
    (hop : 1 ≤ SN ∨ ¬ op.NeedsSession w.dataSpecifier) :
    ∃ w' event l', w.step op = .ok (w', event) ∧ Stepped w w' capacity event l l' n := by
  cases op with
  | pushFrame frame =>
    obtain ⟨w', l', reception, hreceive, hpush, hp⟩ := pushFrame_represents hSN h frame hop
    refine ⟨w', .pushed frame reception, l', ?_, hp.represents, hp.undisturbed.dataSpecifier,
      hp.undisturbed.timeout, hp.handles, by simp, fun _ ↦ hp.undisturbed⟩
    rw [step, hreceive, ok_bind, hpush]
    rfl
  | tryPop mask =>
    obtain ⟨w', hpop, h', hspec, htimeout, hnone, -⟩ := tryPop_represents h mask
    refine ⟨w', .popped mask (n.take (selects mask)).1, l, ?_, h', hspec, htimeout, rfl, ?_,
      fun hevent ↦ ?_⟩
    · rw [step, hpop]
      rfl
    · rintro _ _ ⟨⟩
      rfl
    · cases hpopped : (n.take (selects mask)).1 with
      | none => exact hnone hpopped ▸ .refl _ _
      | some item => exact absurd (by rw [hpopped]) (hevent mask item)
  | pollPopReadiness waker mask =>
    rw [step, pollPopReadiness]
    dsimp only
    split
    · exact ⟨w, .polled mask _, l, rfl, h, rfl, rfl, rfl, by simp, fun _ ↦ .refl _ _⟩
    · exact ⟨_, .polled mask none, l, rfl, ⟨h.shares, h.fits, h.held, h.bound, h.attained⟩, rfl,
        rfl, rfl, by simp, fun _ ↦ ⟨rfl, rfl, rfl, rfl⟩⟩

theorem step_panics {w : Inner 0} (h : w.Represents capacity l n) {op : Op}
    (hop : op.NeedsSession w.dataSpecifier) : ∃ e, w.step op = .error e := by
  cases op with
  | pushFrame frame =>
    rw [step, pushFrame_panics h hop]
    cases w.toSessionTable.receive frame with
    | error e => exact ⟨e, rfl⟩
    | ok reception => exact ⟨.unwrap, rfl⟩
  | tryPop mask => exact hop.elim
  | pollPopReadiness waker mask => exact hop.elim

/-- An operation that does not panic. -/
theorem stepped_of_ok (hSN : SN ≤ IndexQueue.NO_ENTRY) (h : w.Represents capacity l n) {op : Op}
    {w' : Inner SN} {event : Event} (hstep : w.step op = .ok (w', event)) :
    ∃ l', Stepped w w' capacity event l l' n := by
  have hop : 1 ≤ SN ∨ ¬ op.NeedsSession w.dataSpecifier := by
    rcases Nat.eq_zero_or_pos SN with rfl | hpos
    · refine .inr fun hneeds ↦ ?_
      obtain ⟨e, he⟩ := step_panics h hneeds
      cases hstep.symm.trans he
    · exact .inl hpos
  obtain ⟨w₁, event₁, l', hstep', hs⟩ := step_represents hSN h op hop
  cases hstep.symm.trans hstep'
  exact ⟨l', hs⟩

/-- The invariant of a run: the watch holds what the history says. -/
structure Reaches (w : Inner SN) (capacity : ℕ) (dataSpecifier : DataSpecifier) (timeout : Duration)
    (events : List Event) (l : List Tracked) : Prop where
  represents : w.Represents capacity l (after capacity events)
  dataSpecifier : w.dataSpecifier = dataSpecifier
  timeout : w.timeout = timeout

theorem Stepped.reaches {w' : Inner SN} {event : Event} {l' : List Tracked} {events : List Event}
    (hs : Stepped w w' capacity event l l' (after capacity events)) {dataSpecifier : DataSpecifier}
    {timeout : Duration} (h : w.Reaches capacity dataSpecifier timeout events l) :
    w'.Reaches capacity dataSpecifier timeout (events ++ [event]) l' :=
  ⟨by rw [after_concat]; exact hs.represents, hs.dataSpecifier.trans h.dataSpecifier,
    hs.timeout.trans h.timeout⟩

/-- The sizes that the code accepts, and the buffers it is given. -/
structure Sized (SN capacity : ℕ) (buffers : List (List Byte)) : Prop where
  sessions : SN ≤ 128
  length : buffers.length = SN + 2
  capacity : ∀ buffer ∈ buffers, buffer.length = capacity

variable {buffers : List (List Byte)} {dataSpecifier : DataSpecifier} {timeout : Duration}

theorem Sized.le_noEntry (h : Sized SN capacity buffers) : SN ≤ IndexQueue.NO_ENTRY :=
  h.sessions.trans (by decide)

theorem Sized.new_reaches (h : Sized SN capacity buffers) (dataSpecifier : DataSpecifier)
    (timeout : Duration) : ∃ w, new SN dataSpecifier timeout buffers = .ok w ∧
      w.Reaches capacity dataSpecifier timeout [] [] := by
  obtain ⟨w, hnew, hw, hspec, htimeout⟩ :=
    new_represents h.sessions dataSpecifier timeout h.length h.capacity
  exact ⟨w, hnew, hw, hspec, htimeout⟩

/-- **A run completes** if no session is needed or there are slots for sessions, and only then. -/
theorem run_ok_iff (h : Sized SN capacity buffers)
    (hw : ∃ events l, w.Reaches capacity dataSpecifier timeout events l) {ops : List Op} :
    (∃ w' events, run step w ops = .ok (w', events)) ↔
      ∀ op ∈ ops, 1 ≤ SN ∨ ¬ op.NeedsSession dataSpecifier := by
  have hpreserves : Preserves step (fun op ↦ 1 ≤ SN ∨ ¬ op.NeedsSession dataSpecifier)
      fun w : Inner SN ↦ ∃ events l, w.Reaches capacity dataSpecifier timeout events l := by
    rintro w op ⟨events, l, hw⟩ hop
    obtain ⟨w', event, l', hstep, hs⟩ :=
      step_represents h.le_noEntry hw.represents op (hw.dataSpecifier.symm ▸ hop)
    exact ⟨w', event, hstep, _, l', hs.reaches hw⟩
  refine Rust.run_ok_iff hpreserves ?_ hw
  rintro w op ⟨events, l, hw⟩ hop
  obtain ⟨hSN, hneeds⟩ := not_or.mp hop
  obtain rfl : SN = 0 := by omega
  exact step_panics hw.represents (hw.dataSpecifier.symm ▸ not_not.mp hneeds)

/-- **A run does not panic** if there are slots for sessions. -/
theorem run_ok (h : Sized SN capacity buffers) (hpos : 1 ≤ SN)
    (hw : w.Reaches capacity dataSpecifier timeout [] l) (ops : List Op) :
    ∃ w' events, run step w ops = .ok (w', events) :=
  (run_ok_iff h ⟨_, l, hw⟩).mpr fun _ _ ↦ .inl hpos

/-- What a pop returns after a history. -/
def answer (capacity : ℕ) (events : List Event) (mask : PrioritySet) : Option Item :=
  ((after capacity events).take (selects mask)).1

/-- **What is reached by a run** from a new watch. -/
theorem reaches_of_run (h : Sized SN capacity buffers)
    (hnew : new SN dataSpecifier timeout buffers = .ok w) {ops : List Op} {w' : Inner SN}
    {events : List Event} (hrun : run step w ops = .ok (w', events)) :
    (∃ l, w'.Reaches capacity dataSpecifier timeout events l) ∧
    Answers (answer capacity) events := by
  obtain ⟨w₀, hnew', hw⟩ := h.new_reaches dataSpecifier timeout
  cases hnew.symm.trans hnew'
  have htraces : Traces step fun events (w : Inner SN) ↦
      (∃ l, w.Reaches capacity dataSpecifier timeout events l) ∧
        Answers (answer capacity) events := by
    rintro events w op w' event ⟨⟨l, hw⟩, hanswers⟩ hstep
    obtain ⟨l', hs⟩ := stepped_of_ok h.le_noEntry hw.represents hstep
    exact ⟨⟨l', hs.reaches hw⟩, hanswers.concat hs.answers⟩
  exact run_of_traces htraces ⟨⟨_, hw⟩, answers_nil _⟩ hrun

/-- Until a transfer is popped, the transfer that was popped last stays as it is. -/
theorem undisturbed_of_run (h : Sized SN capacity buffers) (hw : w.Represents capacity l n)
    {ops : List Op} {w' : Inner SN} {events : List Event}
    (hrun : run step w ops = .ok (w', events))
    (hnone : ∀ mask item, .popped mask (some item) ∉ events) : w.Undisturbed w' := by
  have htraces : Traces step fun events (w' : Inner SN) ↦
      (∃ l n, w'.Represents capacity l n) ∧
        ((∀ mask item, .popped mask (some item) ∉ events) → w.Undisturbed w') := by
    rintro events w₁ op w₂ event ⟨⟨l, n, hw₁⟩, hu⟩ hstep
    obtain ⟨l', hs⟩ := stepped_of_ok h.le_noEntry hw₁ hstep
    refine ⟨⟨l', _, hs.represents⟩, fun hnone ↦ ?_⟩
    refine (hu fun mask item hmem ↦ hnone mask item (List.mem_append_left _ hmem)).trans ?_
    exact hs.undisturbed fun mask item heq ↦ hnone mask item (by simp [heq])
  exact (run_of_traces htraces ⟨⟨l, n, hw⟩, fun _ ↦ .refl _ _⟩ hrun).2 hnone

/-- The transfers that were popped. -/
def popped (events : List Event) : List Item :=
  events.filterMap fun
    | .popped _ item => item
    | _ => none

/-- Transfers are popped in the order of their timestamps. -/
theorem popped_ordered {events : List Event} (h : Answers (answer capacity) events) :
    (popped events).Pairwise (fun x y ↦ Item.timestamp x ≤ Item.timestamp y) ∧
      (∀ x ∈ popped events, x ∈ (after capacity events).seen) ∧
      (after capacity events).Valid Item.timestamp := by
  induction events using List.reverseRecOn with
  | nil => exact ⟨.nil, by simp [popped], Newest.valid_empty⟩
  | append_singleton events event ih =>
    obtain ⟨hinit, hevent⟩ := h.of_concat
    obtain ⟨hpairwise, hseen, hvalid⟩ := ih hinit
    rw [after_concat, popped, List.filterMap_append]
    cases event with
    | pushed frame reception =>
      simp only [List.filterMap_cons_none, List.filterMap_nil, List.append_nil]
      refine ⟨hpairwise, fun x hx ↦ ?_, ?_⟩
      · rw [next, offered]
        cases reception.completed capacity frame with
        | none => exact hseen x hx
        | some item => exact List.mem_append_left _ (hseen x hx)
      · rw [next, offered]
        cases reception.completed capacity frame with
        | none => exact hvalid
        | some item => exact hvalid.offer item
    | popped mask item =>
      have hitem := hevent mask item rfl
      rw [answer] at hitem
      rcases (after capacity events).take_cases (selects mask) with heq | ⟨a, hheld, -, heq⟩
      · rw [heq] at hitem
        rw [hitem, next, heq, List.filterMap_cons_none rfl, List.filterMap_nil, List.append_nil]
        exact ⟨hpairwise, hseen, hvalid⟩
      · rw [heq] at hitem
        obtain ⟨hmem, hle⟩ := hvalid a hheld
        rw [hitem, next]
        refine ⟨?_, ?_, hvalid.take _⟩
        · refine List.pairwise_append.mpr ⟨hpairwise, by simp, fun x hx y hy ↦ ?_⟩
          obtain rfl : y = a := by simpa using hy
          exact hle x (hseen x hx)
        · intro x hx
          rw [heq]
          rcases List.mem_append.mp hx with hx | hx
          · exact hseen x hx
          · obtain rfl : x = a := by simpa using hx
            exact hmem
    | polled mask ready =>
      rw [next, List.filterMap_cons_none rfl, List.filterMap_nil, List.append_nil]
      exact ⟨hpairwise, hseen, hvalid⟩

/-- **The watch holds the newest transfer.**  Whatever is received and popped, nothing panics, and
each pop returns what a register for the newest of the completed transfers returns; so the
timestamps of what is popped do not decrease.  Every buffer has exactly one owner: a session, the
range of those not handed out yet, the transfer that is held or the readout.  What was popped stays
in the readout buffer until the next transfer is popped. -/
theorem newest_wins (h : Sized SN capacity buffers) (hpos : 1 ≤ SN) (dataSpecifier : DataSpecifier)
    (timeout : Duration) (ops : List Op) :
    ∃ w₀ w events, new SN dataSpecifier timeout buffers = .ok w₀ ∧
      run step w₀ ops = .ok (w, events) ∧
      Answers (answer capacity) events ∧
      (popped events).Pairwise (fun x y ↦ Item.timestamp x ≤ Item.timestamp y) ∧
      (∃ l, Lists w.sessions l ∧
        (l.map Tracked.bufferIdx ++ List.range' w.sessionBufferBase (SN - w.sessionBufferBase) ++
          [w.transferBufferIdx, w.readoutBufferIdx]).Perm (List.range (SN + 2))) ∧
      ∀ mask item w₁, w.tryPop mask = .ok (some item, w₁) → ∀ ops' w₂ events',
        run step w₁ ops' = .ok (w₂, events') → (∀ mask item, .popped mask (some item) ∉ events') →
        w₂.readoutBufferIdx = w₁.readoutBufferIdx ∧
          (w₂.buffers[w₁.readoutBufferIdx]?.getD []).take item.2.length = item.2 := by
  obtain ⟨w₀, hnew, hw₀⟩ := h.new_reaches dataSpecifier timeout
  obtain ⟨w, events, hrun⟩ := run_ok h hpos hw₀ ops
  obtain ⟨⟨l, hw⟩, hanswers⟩ := reaches_of_run h hnew hrun
  refine ⟨w₀, w, events, hnew, hrun, hanswers, (popped_ordered hanswers).1,
    ⟨l, hw.represents.shares.tracks.lists, ?_⟩, ?_⟩
  · rw [hw.represents.shares.tracks.base]
    have howners := hw.represents.shares.owners
    rwa [hw.represents.shares.length, owned, rest] at howners
  · intro mask item w₁ hpop ops' w₂ events' hrun' hnone
    obtain ⟨w₁', hpop', h₁, -, -, -, hbytes⟩ := tryPop_represents hw.represents mask
    obtain ⟨hitem, rfl⟩ := Prod.mk.inj (Except.ok.inj (hpop.symm.trans hpop'))
    have hu := undisturbed_of_run h h₁ hrun' hnone
    exact ⟨hu.readoutBufferIdx, by rw [hu.readout]; exact hbytes _ hitem.symm⟩

theorem newest_wins_one_session :
    ∃ w₀ w events, new 1 (.message subject0) 2000 [[0], [0], [0]] = .ok w₀ ∧
      run step w₀ [.pushFrame (singleFrame 1), .tryPop .ALL] = .ok (w, events) ∧
      Answers (answer 1) events ∧
      (popped events).Pairwise fun x y ↦ Item.timestamp x ≤ Item.timestamp y := by
  obtain ⟨w₀, w, events, hnew, hrun, hanswers, hordered, -⟩ :=
    newest_wins (⟨by decide, rfl, by decide⟩ : Sized 1 1 [[0], [0], [0]]) le_rfl
      (.message subject0) 2000 [.pushFrame (singleFrame 1), .tryPop .ALL]
  exact ⟨w₀, w, events, hnew, hrun, hanswers, hordered⟩

end Watch.Inner

end Emcyphal
