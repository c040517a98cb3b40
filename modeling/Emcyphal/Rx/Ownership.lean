import Emcyphal.Rx.Shares
import Emcyphal.Rx.TransferQueue

/-!
# Who owns which buffer

`RxPriorityFifoInner.Represents` is the invariant of the priority FIFO: its sessions, its queue, and
the ownership of its buffers.  Each operation is described once, by what it does to the sessions and
to the `contents` of the queue, that are the transfers as `try_pop` would return them:
`pushFrame_represents` and `tryPop_represents`.
-/

set_option autoImplicit false

namespace Emcyphal

open Rust

/-- The transfer an entry of the queue stands for. -/
def itemOf (buffers : List (List Byte)) (priority : Priority) (entry : TransferEntry) : Item :=
  (⟨priority, entry.source, entry.transferId, entry.timestamp, entry.loopBack⟩,
    (buffers[entry.bufferIdx]?.getD []).take entry.bufferLength)

namespace RxPriorityFifoInner

open SessionTable

variable {SN TN : ℕ}

/-- The buffers that do not belong to a session. -/
def rest (r : RxPriorityFifoInner SN TN) (b : Backlog Priority TransferEntry) : List ℕ :=
  r.transfers.indexes b ++ [r.readoutBufferIdx]

/-- The receiver has these sessions and these entries in its queue. -/
structure Represents (r : RxPriorityFifoInner SN TN) (capacity : ℕ) (l : List Tracked)
    (b : Backlog Priority TransferEntry) : Prop where
  shares : r.toSessionTable.Shares capacity l (r.rest b)
  queue : r.transfers.Represents b
  fits : ∀ c, ∀ entry ∈ b c, entry.bufferLength ≤ capacity

/-- The transfers in the queue. -/
def contents (r : RxPriorityFifoInner SN TN) (b : Backlog Priority TransferEntry) :
    Backlog Priority Item := b.map (itemOf r.buffers)

/-- The configuration and the transfer that was popped last stay. -/
abbrev Undisturbed (r r' : RxPriorityFifoInner SN TN) : Prop :=
  SessionTable.Undisturbed r.toSessionTable r'.toSessionTable r.readoutBufferIdx r'.readoutBufferIdx

variable {r : RxPriorityFifoInner SN TN} {capacity : ℕ} {l as bs : List Tracked} {e : Tracked}
  {b : Backlog Priority TransferEntry}

theorem Represents.length (h : r.Represents capacity l b) : r.buffers.length = SN + TN + 1 := by
  rw [h.shares.length, rest, TransferQueue.indexes, List.length_append, List.length_append,
    List.length_map, h.queue.total, List.length_singleton, Nat.add_assoc]

/-- The entries of the queue own their buffers. -/
theorem mem_indexes {c : Priority} {entry : TransferEntry} (h : entry ∈ b c)
    (q : TransferQueue TN) : entry.bufferIdx ∈ q.indexes b :=
  List.mem_append_left _ (List.mem_map_of_mem (Backlog.mem_entries.mpr ⟨c, h⟩))

/-- Only the buffers of the entries matter for what is in the queue. -/
theorem map_itemOf_congr {buffers buffers' : List (List Byte)}
    (h : ∀ c, ∀ entry ∈ b c, buffers'[entry.bufferIdx]? = buffers[entry.bufferIdx]?) :
    b.map (itemOf buffers') = b.map (itemOf buffers) :=
  funext fun c ↦ List.map_congr_left fun entry hentry ↦ by rw [itemOf, itemOf, h c entry hentry]

theorem new_represents (hSN : SN ≤ 128) (hTN : TN ≤ 127) (dataSpecifier : DataSpecifier)
    (timeout : Duration) {buffers : List (List Byte)} (hlen : buffers.length = SN + TN + 1)
    (hcap : ∀ buffer ∈ buffers, buffer.length = capacity) :
    ∃ r, new SN TN dataSpecifier timeout buffers = .ok r ∧
      r.Represents capacity [] (fun _ ↦ []) ∧ r.dataSpecifier = dataSpecifier ∧
      r.timeout = timeout := by
  obtain ⟨sessions, hsessions, hlists⟩ : ∃ q : IndexQueue NodeId Session NODE_ID_MAX SN, _ :=
    IndexQueue.new_represents (by omega)
  obtain ⟨transfers, htransfers, hq, hindexes⟩ :=
    TransferQueue.new_represents (show SN + TN ≤ 256 by omega) (by omega)
  have hbase : u8TryFrom SN = some SN := if_pos (by omega)
  have hreadout : u8TryFrom (SN + TN) = some (SN + TN) := if_pos (by omega)
  have hshares := new_shares (d := dataSpecifier) (t := timeout) hlists hcap (by omega)
  refine ⟨⟨⟨dataSpecifier, buffers, sessions, 0, timeout⟩, transfers, SN + TN, .new⟩, ?_,
    ⟨?_, hq, by simp⟩, rfl, rfl⟩
  · rw [new, assert_pos hlen, ok_bind, hsessions, ok_bind, hbase, unwrap_some, ok_bind, htransfers,
      ok_bind, unwrap_some, ok_bind, hreadout, unwrap_some]
    rfl
  · rw [hlen, Nat.add_assoc, Nat.add_sub_cancel_left, List.range'_concat, Nat.one_mul] at hshares
    rw [rest, hindexes]
    exact hshares

/-! ## A transfer is queued -/

/-- **A completed transfer is queued as the backlog says**, and its session goes on with the buffer
that was allocated. -/
theorem enqueueTransfer_represents (hSN : SN ≤ IndexQueue.NO_ENTRY) (hTN : 1 ≤ TN)
    (h : r.Represents capacity (as ++ e :: bs) b) (hbytes : e.state.bytes = [])
    {priority : Priority} (loopBack : Bool) {buffer : List Byte}
    (hbuffer : r.buffers[e.bufferIdx]? = some buffer) {transfer : Transfer}
    (hpriority : transfer.priority = priority) :
    ∃ r' e' b', r.enqueueTransfer e.node priority loopBack e.session buffer transfer =
        .ok (r', e'.session) ∧
      e'.node = e.node ∧ e'.state = e.state ∧ r'.Represents capacity (as ++ e' :: bs) b' ∧
      r'.contents b' = (r.contents b).push TN priority
        (⟨priority, some e.node, transfer.id, transfer.timestamp, loopBack⟩,
          buffer.take transfer.length) ∧
      r.Undisturbed r' := by
  have hcap : buffer.length = capacity :=
    h.shares.tracks.capacity buffer (List.mem_of_getElem? hbuffer)
  rw [enqueueTransfer, hpriority]
  rcases TransferQueue.allocateBuffer_represents h.queue hTN priority with
    ⟨hroom, halloc⟩ | ⟨idx, b', q', hroom, halloc, hq', htotal, hperm⟩
  · rw [halloc]
    exact ⟨r, e, b, rfl, rfl, rfl, h, (Backlog.push_of_none hroom _).symm, .refl _ _⟩
  · obtain ⟨sessions, hset, hshares⟩ := (h.shares.perm (hperm.append_right _)).swap hSN hbytes
    obtain ⟨transfers, hpush, hqueue, hfree⟩ := TransferQueue.push_represents hq' htotal priority
      ⟨some e.node, transfer.id, transfer.timestamp, loopBack, min transfer.length buffer.length,
        e.bufferIdx⟩
    have hindexes := TransferQueue.indexes_append_perm hfree b' priority
      ⟨some e.node, transfer.id, transfer.timestamp, loopBack, min transfer.length buffer.length,
        e.bufferIdx⟩
    rw [halloc, ok_bind]
    dsimp only
    rw [hset, ok_bind, show e.session.bufferIdx = e.bufferIdx from rfl, hpush, ok_bind, unwrap_some,
      ok_bind]
    refine ⟨_, { e with bufferIdx := idx }, _, rfl, rfl, rfl,
      ⟨hshares.perm (hindexes.append_right _), hqueue, ?_⟩, ?_, ⟨rfl, rfl, rfl, rfl⟩⟩
    · intro c entry hentry
      rcases Backlog.mem_append hentry with rfl | hentry
      · exact hcap ▸ Nat.min_le_right _ _
      · exact h.fits c entry (Backlog.mem_of_makeRoom hroom hentry)
    · rw [contents, contents, Backlog.push_of_some hroom, Backlog.map_append]
      simp only [itemOf, hbuffer, Option.getD_some, take_min_length]

/-! ## A frame is received -/

/-- The queue after a frame has completed a transfer, or none. -/
def accept (TN : ℕ) (b : Backlog Priority Item) (item : Option Item) : Backlog Priority Item :=
  item.elim b fun item ↦ b.push TN item.1.priority item

/-- What a frame does to the receiver. -/
structure Pushed (r r' : RxPriorityFifoInner SN TN) (capacity : ℕ) (frame : Frame)
    (l l' : List Tracked) (b b' : Backlog Priority TransferEntry) (reception : Reception) : Prop
    where
  represents : r'.Represents capacity l' b'
  undisturbed : r.Undisturbed r'
  handles : Handles SN capacity r.dataSpecifier r.timeout frame l l' reception
  contents : r'.contents b' = accept TN (r.contents b) (reception.completed capacity frame)

/-- The sessions have changed, and with them none but their own buffers. -/
theorem Represents.table (h : r.Represents capacity l b) {t : SessionTable SN} {l' : List Tracked}
    (ht : t.Shares capacity l' (r.rest b)) (hframe : ∀ i ∈ r.rest b, t.buffers[i]? = r.buffers[i]?)
    (hspec : t.dataSpecifier = r.dataSpecifier) (htimeout : t.timeout = r.timeout) :
    Represents { r with toSessionTable := t } capacity l' b ∧
      r.Undisturbed { r with toSessionTable := t } ∧
      contents { r with toSessionTable := t } b = r.contents b :=
  ⟨⟨ht, h.queue, h.fits⟩, ⟨hspec, htimeout, rfl, hframe _ (by simp [rest])⟩,
    map_itemOf_congr fun _ _ hentry ↦ hframe _ (List.mem_append_left _ (mem_indexes hentry _))⟩

theorem Represents.touch (hSN : SN ≤ IndexQueue.NO_ENTRY)
    (h : r.Represents capacity (as ++ e :: bs) b) (timestamp : Instant) :
    ∃ t, r.toSessionTable.touch e.node e.session timestamp = .ok t ∧
      Represents { r with toSessionTable := t } capacity (requeue timestamp as bs e) b ∧
      r.Undisturbed { r with toSessionTable := t } ∧
      contents { r with toSessionTable := t } b = r.contents b := by
  obtain ⟨q, htouch, hshares⟩ := touch_shares hSN h.shares timestamp
  exact ⟨_, htouch, h.table hshares (fun _ _ ↦ rfl) rfl rfl⟩

theorem deliver_represents (hSN : SN ≤ IndexQueue.NO_ENTRY) (hTN : 1 ≤ TN)
    (h : r.Represents capacity (as ++ e :: bs) b) {priority : Priority} (timestamp : Instant)
    (loopBack : Bool) {buffer : List Byte} (hbuffer : r.buffers[e.bufferIdx]? = some buffer)
    {transfer : Option Transfer}
    (htransfer : ∀ t, transfer = some t → e.state.bytes = [] ∧ t.priority = priority) :
    ∃ r' e' b', r.deliver e.node priority timestamp loopBack ⟨e.session, buffer, transfer⟩ =
        .ok r' ∧
      e'.node = e.node ∧ e'.state = e.state ∧
      r'.Represents capacity (requeue timestamp as bs e') b' ∧ r.Undisturbed r' ∧
      r'.contents b' = accept TN (r.contents b) (transfer.map fun t ↦
        (⟨priority, some e.node, t.id, t.timestamp, loopBack⟩, buffer.take t.length)) := by
  rw [deliver]
  cases transfer with
  | none =>
    obtain ⟨t, htouch, h', hu, hc⟩ := h.touch hSN timestamp
    refine ⟨_, e, b, ?_, rfl, rfl, h', hu, hc⟩
    simp only [htouch, ok_bind, pure_eq_ok]
  | some transfer =>
    obtain ⟨hbytes, hpriority⟩ := htransfer transfer rfl
    obtain ⟨r₁, e', b', henqueue, hnode, hstate, h₁, hc₁, hu₁⟩ :=
      enqueueTransfer_represents hSN hTN h hbytes loopBack hbuffer hpriority
    obtain ⟨t, htouch, h', hu, hc⟩ := h₁.touch hSN timestamp
    refine ⟨_, e', b', ?_, hnode, hstate, h', hu₁.trans hu, hc.trans hc₁⟩
    rw [hnode] at htouch
    simp only [henqueue, ok_bind, htouch]
    rfl

theorem pushRegularFrame_represents (hSN : SN ≤ IndexQueue.NO_ENTRY) (hTN : 1 ≤ TN)
    (h : r.Represents capacity l b) {frame : Frame}
    (hspec : frame.header.dataSpec = r.dataSpecifier) {source : NodeId}
    (hsource : frame.header.source = some source) (hstart : 1 ≤ SN ∨ sot frame.data = false) :
    ∃ r' l' b' reception, r.toSessionTable.receive frame = .ok reception ∧
      r.pushFrame frame = .ok r' ∧ Pushed r r' capacity frame l l' b b' reception := by
  obtain ⟨t, l', hadmits, ht, ht', hframe, hcase⟩ := reassemble_shares hSN h.shares source hstart
  have hpush : r.pushFrame frame = r.pushRegularFrame source frame.header.priority frame.data
      frame.timestamp frame.loopBack := by
    rw [pushFrame, if_neg (not_not.mpr hspec), hsource]
  rw [hpush, pushRegularFrame]
  rcases hcase with ⟨hnot, hreassemble, hshares⟩ |
    ⟨as, e, bs, buffer, transfer, rfl, rfl, hreassemble, hshares, hbuffer, hseen, htransfer⟩
  · have hreceive := receive_of_reassemble hspec hsource hreassemble
    obtain ⟨h', hu, hc⟩ := h.table hshares hframe ht ht'
    rw [hreassemble]
    exact ⟨_, l', b, .ignored, hreceive, rfl, h', hu, .dropped hsource hadmits hnot, hc⟩
  · have hreceive := receive_of_reassemble hspec hsource hreassemble
    rw [Option.elim_some, hseen] at hreceive
    obtain ⟨h₁, hu₁, hc₁⟩ := h.table hshares hframe ht ht'
    obtain ⟨r', e', b', hdeliver, hnode, hstate, h', hu, hc⟩ :=
      deliver_represents hSN hTN h₁ frame.timestamp frame.loopBack hbuffer htransfer
    refine ⟨r', _, b', _, hreceive, ?_, h', hu₁.trans hu,
      .regular hsource hadmits rfl hnode hstate, ?_⟩
    · rw [hreassemble, ok_bind]
      exact hdeliver
    · rw [hc, hc₁, Reception.completed, ← hseen, Option.map_map]
      refine congrArg (accept TN _) (Option.map_congr fun tr htr ↦ ?_)
      rw [Function.comp_apply, ← (htransfer tr htr).2]
      rfl

theorem pushAnonymousFrame_represents (hTN : 1 ≤ TN) (h : r.Represents capacity l b) {frame : Frame}
    (hspec : frame.header.dataSpec = r.dataSpecifier) (hsource : frame.header.source = none) :
    ∃ r' b' reception, r.toSessionTable.receive frame = .ok reception ∧
      r.pushFrame frame = .ok r' ∧ Pushed r r' capacity frame l l b b' reception := by
  have hreceive := receive_of_anonymous hspec hsource
  have hpush : r.pushFrame frame = r.pushAnonymousFrame frame.header.priority frame.data
      frame.timestamp frame.loopBack := by
    rw [pushFrame, if_neg (not_not.mpr hspec), hsource]
  rw [hpush, pushAnonymousFrame]
  cases hpayload : anonymousPayload frame.data with
  | none =>
    rw [hpayload] at hreceive
    exact ⟨r, b, _, hreceive, rfl, h, .refl _ _, .anonymous hsource (by simp), rfl⟩
  | some p =>
    obtain ⟨transferId, payload⟩ := p
    rw [hpayload] at hreceive
    dsimp only
    rcases TransferQueue.allocateBuffer_represents h.queue hTN frame.header.priority with
      ⟨hroom, halloc⟩ | ⟨idx, b', q', hroom, halloc, hq', htotal, hperm⟩
    · rw [halloc]
      exact ⟨r, b, _, hreceive, rfl, h, .refl _ _, .anonymous hsource (by simp),
        (Backlog.push_of_none hroom _).symm⟩
    · have hshares := h.shares.perm (hperm.append_right _)
      obtain ⟨hfresh, -⟩ := List.nodup_cons.mp hshares.nodup.of_append_right
      have hlt : idx < r.buffers.length := hshares.lt_length (by simp)
      have hbuffer := List.getElem?_eq_getElem hlt
      set buffer := r.buffers[idx] with hdef
      have hcap : buffer.length = capacity :=
        h.shares.tracks.capacity buffer (List.getElem_mem hlt)
      obtain ⟨hlength, htake⟩ := overwrite_take_min buffer payload
      obtain ⟨transfers, hpush, hqueue, hfree⟩ := TransferQueue.push_represents hq' htotal
        frame.header.priority ⟨none, transferId, frame.timestamp, frame.loopBack,
          min payload.length buffer.length, idx⟩
      have hindexes := TransferQueue.indexes_append_perm hfree b' frame.header.priority
        ⟨none, transferId, frame.timestamp, frame.loopBack, min payload.length buffer.length, idx⟩
      rw [halloc, ok_bind]
      dsimp only
      rw [index_of_getElem? hbuffer, ok_bind, assign_of_lt hlt, ok_bind, hpush,
        ok_bind, unwrap_some, ok_bind]
      refine ⟨_, _, _, hreceive, rfl,
        ⟨(hshares.setBuffer List.mem_cons_self (hlength.trans hcap)).perm (hindexes.append_right _),
          hqueue, ?_⟩, ⟨rfl, rfl, rfl, ?_⟩, .anonymous hsource (by simp), ?_⟩
      · intro c entry hentry
        rcases Backlog.mem_append hentry with rfl | hentry
        · exact hcap ▸ Nat.min_le_right _ _
        · exact h.fits c entry (Backlog.mem_of_makeRoom hroom hentry)
      · refine List.getElem?_set_ne fun (heq : idx = r.readoutBufferIdx) ↦ hfresh ?_
        exact List.mem_append_right _ (heq ▸ List.mem_singleton_self _)
      · -- the entries that are left do not have the buffer that was allocated
        have hkept : b'.map (itemOf (r.buffers.set idx
            (overwrite buffer 0 (payload.take (min payload.length buffer.length))))) =
            b'.map (itemOf r.buffers) := by
          refine map_itemOf_congr fun c entry hentry ↦ List.getElem?_set_ne ?_
          exact fun (heq : idx = entry.bufferIdx) ↦
            hfresh (List.mem_append_left _ (heq ▸ mem_indexes hentry q'))
        refine Eq.trans ?_ (Backlog.push_of_some hroom _).symm
        rw [contents, Backlog.map_append]
        dsimp only
        rw [hkept, itemOf, List.getElem?_set_self hlt, Option.getD_some, htake, hcap]

/-- **A frame does not panic, and reaches the sessions and the queue**, if there are slots for
sessions or the frame needs none. -/
theorem pushFrame_represents (hSN : SN ≤ IndexQueue.NO_ENTRY) (hTN : 1 ≤ TN)
    (h : r.Represents capacity l b) (frame : Frame)
    (hstart : 1 ≤ SN ∨ ¬ NeedsSession r.dataSpecifier frame) :
    ∃ r' l' b' reception, r.toSessionTable.receive frame = .ok reception ∧
      r.pushFrame frame = .ok r' ∧ Pushed r r' capacity frame l l' b b' reception := by
  by_cases hspec : frame.header.dataSpec = r.dataSpecifier
  · cases hsource : frame.header.source with
    | none =>
      obtain ⟨r', b', reception, hreceive, hpush, hpushed⟩ :=
        pushAnonymousFrame_represents hTN h hspec hsource
      exact ⟨r', l, b', reception, hreceive, hpush, hpushed⟩
    | some source =>
      refine pushRegularFrame_represents hSN hTN h hspec hsource (hstart.imp_right fun hnot ↦ ?_)
      exact Bool.eq_false_iff.mpr fun hsot ↦ hnot ⟨hspec, by rw [hsource]; rfl, hsot⟩
  · exact ⟨r, l, b, .ignored, receive_of_foreign hspec, if_pos hspec, h, .refl _ _, .foreign hspec,
      rfl⟩

/-- Without any slot for a session, a frame that needs one panics. -/
theorem pushFrame_panics {r : RxPriorityFifoInner 0 TN} (h : r.Represents capacity l b)
    {frame : Frame} (hneeds : NeedsSession r.dataSpecifier frame) :
    r.pushFrame frame = .error .unwrap := by
  obtain ⟨hspec, hsource, hsot⟩ := hneeds
  obtain ⟨source, hsource⟩ := Option.isSome_iff_exists.mp hsource
  rw [pushFrame, if_neg (not_not.mpr hspec), hsource]
  dsimp only
  rw [pushRegularFrame, reassemble, ensureSession_panics h.shares.tracks hsot]
  rfl

/-! ## A transfer is popped -/

/-- **A transfer is popped as from the backlog**, and its buffer is the readout buffer from then
on. -/
theorem tryPop_represents (h : r.Represents capacity l b) (mask : PrioritySet) :
    ∃ r' b', r.tryPop mask = .ok (((r.contents b).pop mask.contains).1.map Prod.snd, r') ∧
      r'.Represents capacity l b' ∧ r'.contents b' = ((r.contents b).pop mask.contains).2 ∧
      r'.dataSpecifier = r.dataSpecifier ∧ r'.timeout = r.timeout ∧
      (((r.contents b).pop mask.contains).1 = none → r' = r) ∧
      ∀ c item, ((r.contents b).pop mask.contains).1 = some (c, item) →
        (r'.buffers[r'.readoutBufferIdx]?.getD []).take item.2.length = item.2 := by
  rw [tryPop]
  rcases TransferQueue.pop_represents h.queue mask with ⟨hc, hpop⟩ |
    ⟨c, entry, rest, q', hc, hv, hpop, hq', hfree⟩
  · have hnone : (r.contents b).pop mask.contains = (none, r.contents b) :=
      Backlog.pop_of_none ((Backlog.smallest_map _ b _).trans hc)
    rw [hpop, hnone]
    exact ⟨r, b, rfl, h, rfl, rfl, rfl, fun _ ↦ rfl, by simp⟩
  · have hcons : (r.contents b) c = itemOf r.buffers c entry :: rest.map (itemOf r.buffers c) := by
      rw [contents, Backlog.map, hv, List.map_cons]
    have hsome : (r.contents b).pop mask.contains =
        (some (c, itemOf r.buffers c entry), (r.contents b).dropOldest c) :=
      Backlog.pop_of_cons ((Backlog.smallest_map _ b _).trans hc) hcons
    have hperm := Backlog.entries_perm_of_cons hv
    have htotal := h.queue.total
    rw [hperm.length_eq, List.length_cons] at htotal
    have hentry : entry ∈ b c := hv ▸ List.mem_cons_self
    have hlt : entry.bufferIdx < r.buffers.length := h.shares.lt_length
      (List.mem_append_right _ (List.mem_append_left _ (mem_indexes hentry _)))
    have hbuffer := List.getElem?_eq_getElem hlt
    set buffer := r.buffers[entry.bufferIdx] with hdef
    have hfit : entry.bufferLength ≤ buffer.length := by
      rw [h.shares.tracks.capacity buffer (List.getElem_mem hlt)]
      exact h.fits c entry hentry
    have hitem : itemOf r.buffers c entry = (⟨c, entry.source, entry.transferId, entry.timestamp,
        entry.loopBack⟩, buffer.take entry.bufferLength) := by
      rw [itemOf, hbuffer, Option.getD_some]
    rw [hsome, hpop, ok_bind]
    dsimp only
    rw [TransferQueue.freeBuffer, if_pos (by rw [hfree]; omega), unwrap_some, ok_bind,
      index_of_getElem? hbuffer, ok_bind, sliceTo_of_le hfit, ok_bind]
    refine ⟨{ r with
        transfers := ⟨q'.queue, q'.freeBuffers ++ [r.readoutBufferIdx]⟩
        readoutBufferIdx := entry.bufferIdx },
      b.dropOldest c, by rw [hitem]; rfl, ⟨h.shares.perm ?_, ⟨hq', ?_⟩, ?_⟩, ?_, rfl, rfl, by simp,
      ?_⟩
    · refine (List.perm_append_singleton _ _).trans ?_
      rw [RxPriorityFifoInner.rest, TransferQueue.indexes, TransferQueue.indexes, hfree,
        ← List.append_assoc]
      exact (((hperm.map TransferEntry.bufferIdx).append_right _).append_right _).symm
    · rw [List.length_append, List.length_singleton, hfree]
      omega
    · exact fun c entry hentry ↦ h.fits c entry (Backlog.mem_of_dropOldest hentry)
    · exact Backlog.map_dropOldest _ b c
    · rintro _ _ ⟨⟩
      rw [hitem]
      dsimp only
      rw [hbuffer, Option.getD_some, List.length_take, take_min_length]

end RxPriorityFifoInner

end Emcyphal
