import Emcyphal.Tx.Buffer.Begun
import Emcyphal.Tx.Registry.Changes

/-!
# What a step of a transmit registry does to an entry

A step is about one entry at most.  `Becomes` is what it does to that entry, which a call of its
buffer determines, and `Acts` adds what happens in the lists: the entry stays where it is, or goes
to the end of a list, and the others keep their order.
-/

set_option autoImplicit false

namespace Emcyphal

open Rust TxQueue

namespace Registry

/-- The entry at the address before and after a step. -/
inductive Becomes (a : Address) : Op → Event → Option Entry → Option Entry → Prop
  | register {init : TxBuffer.Init} {mark : Option QueueId} {b : TxBuffer} (hfits : init.Fits)
      (hnew : TxBuffer.new init = .ok b) :
      Becomes a (.register a init) (.registered (.ok a)) none (some ⟨mark, .NONE, b⟩)
  | unregister {e : Entry} : Becomes a (.unregister a) .unregistered (some e) none
  | scratchpad {e : Entry} {mark : Option QueueId} {b : TxBuffer}
      {res : Option (PrioritySet × List Byte)} (hget : e.buffer.getScratchpad = .ok (res, b)) :
      Becomes a (.getScratchpad a) (.scratchpad res) (some e) (some ⟨mark, e.started, b⟩)
  | write {e : Entry} {mark : Option QueueId} {bytes : List Byte}
      (hbytes : bytes.length = e.buffer.capacity) :
      Becomes a (.writeScratchpad a bytes) .written (some e)
        (some ⟨mark, e.started, e.buffer.writeScratchpad bytes⟩)
  | push {e : Entry} {mark : Option QueueId} {b : TxBuffer} {m : TransferMeta} {length : ℕ}
      {crc : TransferCrc} {res : Except BufferError Unit} (hlength : length ≤ e.buffer.capacity)
      (hpush : e.buffer.tryPush m length crc = .ok (res, b)) :
      Becomes a (.tryPush a m length crc) (.pushed res) (some e) (some ⟨mark, e.started, b⟩)
  | pop {e : Entry} {mark : Option QueueId} {b : TxBuffer} {waker : Waker} {mask : PrioritySet}
      {mtu : Mtu} {p : Priority} {frame : Frame} {eot : Bool}
      (hfirst : e.buffer.popReadiness.first = some p)
      (hpop : e.buffer.tryPop (.newEq p) mtu = .ok (some frame, b))
      (heot : isEotFrame frame = some eot) :
      Becomes a (.pollPop waker mask mtu) (.popped (some (a, frame))) (some e)
        (some ⟨mark, if eot then e.started.remove p else e.started.insert p, b⟩)

/-- The step is about the entry at the address. -/
structure Acts (q : TxQueue) (op : Op) (q' : TxQueue) (event : Event) (a : Address) : Prop where
  entry : Becomes a op event (q.entries a) (q'.entries a)
  others : ∀ b, b ≠ a → q'.entries b = q.entries b
  lanes : q'.queues.getQueue = q.queues.getQueue ∨
    q'.queues.getQueue = Lanes.place q.queues.getQueue a (q'.mark a)
  /-- Without a fetch, the entry only moves to another list. -/
  stays : (∀ x, event ≠ .popped (some x)) → q'.mark a = q.mark a →
    q'.queues.getQueue = q.queues.getQueue
  /-- A frame is from the entry in front, which is queued anew after the last one. -/
  front : ∀ frame, event = .popped (some (a, frame)) →
    (q.serving frame.header.priority).head? = some a ∧ (isEotFrame frame = some true →
      q'.queues.getQueue = Lanes.place q.queues.getQueue a (q'.mark a))

/-- The step is about no entry. -/
structure Idles (q q' : TxQueue) (event : Event) : Prop where
  entries : q'.entries = q.entries
  queues : q'.queues = q.queues
  none_popped : ∀ x, event ≠ .popped (some x)

variable {q q' : TxQueue} {op : Op} {event : Event} {a : Address} {e : Entry}

theorem acts_of_entries {x : Option Entry} (hentries : q'.entries = Function.update q.entries a x)
    (hentry : Becomes a op event (q.entries a) x)
    (hlanes : q'.queues.getQueue = if q.mark a = x.bind Entry.queueMark then q.queues.getQueue else
      Lanes.place q.queues.getQueue a (x.bind Entry.queueMark))
    (hnot : ∀ x, event ≠ .popped (some x)) : Acts q op q' event a where
  entry := by rwa [hentries, Function.update_self]
  others b hb := by rw [hentries, Function.update_of_ne hb]
  lanes := by
    rw [mark, hentries, Function.update_self]
    split at hlanes
    · exact .inl hlanes
    · exact .inr hlanes
  stays _ hmark := by
    rw [mark, hentries, Function.update_self] at hmark
    rw [hlanes, if_pos hmark.symm]
  front frame hframe := absurd hframe (hnot _)

/-! ## The calls of the registry -/

theorem withBufferMut_eq_ok {α : Type} {f : TxBuffer → Exec (α × TxBuffer)} {res : α} :
    q.withBufferMut a f = .ok (res, q') ↔ ∃ e b, q.entries a = some e ∧
      f e.buffer = .ok (res, b) ∧ q' = q.setEntry a { e with buffer := b } := by
  rw [withBufferMut, bind_eq_ok]
  constructor
  · rintro ⟨e, he, hrest⟩
    obtain ⟨⟨res', b⟩, hf, hq⟩ := bind_eq_ok.mp hrest
    cases hq
    exact ⟨e, b, unwrap_eq_ok.mp he, hf, rfl⟩
  · rintro ⟨e, b, he, hf, rfl⟩
    exact ⟨e, unwrap_eq_ok.mpr he, bind_eq_ok.mpr ⟨(res, b), hf, rfl⟩⟩

/-- Only the buffer of the entry changes. -/
theorem acts_of_setEntry {b : TxBuffer} (he : q.entries a = some e)
    (hentry : Becomes a op event (some e) (some ⟨e.queueMark, e.started, b⟩))
    (hnot : ∀ x, event ≠ .popped (some x)) :
    Acts q op (q.setEntry a { e with buffer := b }) event a := by
  refine acts_of_entries (entries_setEntry ..) ?_ ?_ hnot
  · rw [he]
    exact hentry
  · exact (if_pos (mark_of_entry he)).symm

/-- A registration puts the new entry where it has to be. -/
theorem register_cases {r r' : Registry} {init : TxBuffer.Init}
    (h : r.register a init = .ok (r', event)) :
    (r' = r ∧ ∃ e, event = .registered (.error e)) ∨
    ∃ b, TxBuffer.new init = .ok b ∧ event = .registered (.ok a) ∧
      (r.queue.setEntry a (.new b)).regRegister a = .ok r'.queue := by
  obtain ⟨b, hnew, hrest⟩ := bind_eq_ok.mp h
  have hmessage : ∀ (inner inner' : TxMsg.Inner) (subject : SubjectId)
      (res : Except RxMsg.RegistrationError Address),
      inner.regRegister a subject b = .ok (res, inner') →
      (message inner' = message inner ∧ ∃ e, res = .error e) ∨
        res = .ok a ∧ (inner.queue.setEntry a (.new b)).regRegister a = .ok inner'.queue := by
    intro inner inner' subject res hreg
    rw [TxMsg.Inner.regRegister] at hreg
    split at hreg
    · cases hreg
      exact .inl ⟨rfl, _, rfl⟩
    · obtain ⟨queue, hqueue, hq⟩ := bind_eq_ok.mp hreg
      cases hq
      exact .inr ⟨rfl, hqueue⟩
  cases r with
  | message inner =>
    cases init with
    | signal subject priority buffers | blocking subject priority buffer =>
      obtain ⟨⟨res, inner'⟩, hreg, hr⟩ := bind_eq_ok.mp hrest
      cases hr
      rcases hmessage inner inner' subject res hreg with ⟨hsame, e, rfl⟩ | ⟨rfl, hqueue⟩
      · exact .inl ⟨hsame, e, rfl⟩
      · exact .inr ⟨b, hnew, rfl, hqueue⟩
    | response service buffers => cases hrest
  | response inner =>
    cases init with
    | signal subject priority buffers => cases hrest
    | blocking subject priority buffer => cases hrest
    | response service buffers =>
      obtain ⟨⟨token, inner'⟩, hreg, hr⟩ := bind_eq_ok.mp hrest
      cases hr
      obtain ⟨queue, hqueue, hq⟩ := bind_eq_ok.mp hreg
      cases hq
      exact .inr ⟨b, hnew, rfl, hqueue⟩

theorem unregister_cases {r r' : Registry} (h : r.unregister a = .ok r') :
    ∃ q, r.queue.regUnregister a = .ok q ∧ r'.queue = q.dropEntry a := by
  cases r with
  | message inner =>
    obtain ⟨inner', hinner, rfl⟩ := map_eq_ok.mp h
    obtain ⟨⟨before, elem, after⟩, -, hrest⟩ := bind_eq_ok.mp hinner
    obtain ⟨q, hq, hr⟩ := bind_eq_ok.mp hrest
    cases hr
    exact ⟨q, hq, rfl⟩
  | response inner =>
    obtain ⟨inner', hinner, rfl⟩ := map_eq_ok.mp h
    obtain ⟨q, hq, hr⟩ := bind_eq_ok.mp hinner
    cases hr
    exact ⟨q, hq, rfl⟩

/-- A frame is from the entry in front of a list, which is taken out of the list after the last
frame of a transfer. -/
theorem hubTryPop_cases {mask : PrioritySet} {mtu : Mtu} {frame : Frame}
    (h : q.hubTryPop mask mtu = .ok (some frame, q')) : ∃ id a e b eot q₁,
      firstQueueId (q.queues.startedPriorities &&& mask) (q.queues.finishedPriorities &&& mask) =
        some id ∧
      (q.queues.getQueue id).head? = some a ∧ q.entries a = some e ∧
      e.buffer.tryPop (.newEq id.1) mtu = .ok (some frame, b) ∧ frame.header.priority = id.1 ∧
      isEotFrame frame = some eot ∧
      (if eot then (q.setEntry a ⟨e.queueMark, e.started.remove id.1, b⟩).dequeue a
        else .ok (q.setEntry a ⟨e.queueMark, e.started.insert id.1, b⟩)) = .ok q₁ ∧
      q₁.regUpdateQueuePosition a = .ok q' := by
  rw [TxQueue.hubTryPop] at h
  split at h
  · cases h
  · rename_i p k hid
    obtain ⟨a, hfront, hrest⟩ := bind_eq_ok.mp h
    obtain ⟨e, he, hrest⟩ := bind_eq_ok.mp hrest
    obtain ⟨⟨res, b⟩, hpop, hrest⟩ := bind_eq_ok.mp hrest
    cases res with
    | none =>
      obtain ⟨q₁, -, hq⟩ := bind_eq_ok.mp hrest
      cases hq
    | some frame' =>
      obtain ⟨_, hpriority, hrest⟩ := bind_eq_ok.mp hrest
      obtain ⟨_, -, hrest⟩ := bind_eq_ok.mp hrest
      obtain ⟨eot, heot, hrest⟩ := bind_eq_ok.mp hrest
      have hqueue : ∃ q₁, (if eot then (q.setEntry a ⟨e.queueMark, e.started.remove p, b⟩).dequeue a
          else .ok (q.setEntry a ⟨e.queueMark, e.started.insert p, b⟩)) = .ok q₁ ∧
          q₁.regUpdateQueuePosition a = .ok q' ∧ frame' = frame := by
        cases eot with
        | true | false =>
          obtain ⟨q₁, hdequeue, hrest⟩ := bind_eq_ok.mp hrest
          obtain ⟨q₂, hupdate, hq⟩ := bind_eq_ok.mp hrest
          cases hq
          exact ⟨q₁, hdequeue, hupdate, rfl⟩
      obtain ⟨q₁, hdequeue, hupdate, rfl⟩ := hqueue
      exact ⟨(p, k), a, e, b, eot, q₁, hid, unwrap_eq_ok.mp hfront, unwrap_eq_ok.mp he, hpop,
        assert_eq_ok.mp hpriority, unwrap_eq_ok.mp heot, hdequeue, hupdate⟩

/-- A poll fetches, or there is nothing to fetch, and it changes no entry. -/
theorem pollPop_cases (hq : q.Inv) {waker : Waker} {mask : PrioritySet} {mtu : Mtu}
    {res : Option Frame} (h : q.pollPop waker mask mtu = .ok (res, q')) :
    (res = none ∧ q'.entries = q.entries ∧ q'.queues = q.queues) ∨
    ∃ frame, res = some frame ∧ q.hubTryPop mask mtu = .ok (some frame, q') := by
  rcases hq.pollPop waker mask mtu with
    ⟨q₁, hpop, -, -, hqueues, hentries, -⟩ | ⟨p, a, frame, eot, q₁, hpop, -, -, -, -, -, -⟩
  · cases h.symm.trans hpop
    exact .inl ⟨rfl, hentries, hqueues⟩
  · cases h.symm.trans hpop
    refine .inr ⟨frame, rfl, ?_⟩
    rw [TxQueue.pollPop] at h
    split at h
    · cases h
    · obtain ⟨⟨frame', q₂⟩, hpop', hrest⟩ := bind_eq_ok.mp h
      cases frame' with
      | none => cases hrest
      | some frame' =>
        cases hrest
        exact hpop'

theorem acts_pop (hq : q.Inv) {waker : Waker} {mask : PrioritySet} {mtu : Mtu} {frame : Frame}
    (h : q.hubTryPop mask mtu = .ok (some frame, q')) : ∃ a, q.hubFront mask = some a ∧
      Acts q (.pollPop waker mask mtu) q' (.popped (some (a, frame))) a := by
  obtain ⟨id, a, e, b, eot, q₁, hid, hfront, he, hpop, hpriority, heot, hdequeue, hupdate⟩ :=
    hubTryPop_cases h
  obtain ⟨e', n, o, he', hmark, -, hfirst, hbuffer, ho⟩ :=
    hq.of_front (p := id.1) (k := id.2) hfront
  cases he.symm.trans he'
  have hb : ∃ n, b.Inv n := by
    obtain ⟨data, rest, hs⟩ := (hbuffer.ready ho).sends mtu
    obtain ⟨b', hpop', hb', -, -⟩ := hbuffer.tryPop ho hs
    cases hpop.symm.trans hpop'
    exact ⟨n, hb'⟩
  have hserving : q.serving id.1 = q.queues.getQueue id := by
    rcases hq.firstQueueId_cases mask with ⟨hnone, -⟩ | ⟨p, k, hid', -, -, -, hk⟩
    · cases hid.symm.trans hnone
    · cases hid.symm.trans hid'
      rw [serving, hk]
      split <;> rfl
  set x : Entry := ⟨e.queueMark, if eot then e.started.remove id.1 else e.started.insert id.1, b⟩
    with hx
  have hxmark : x.queueMark = q.mark a := (mark_of_entry he).symm
  -- Where the entry goes: the queues after both kinds of frames.
  obtain ⟨hentries, hlanes, hlast⟩ : q'.entries = Function.update q.entries a
      (some { x with queueMark := x.place }) ∧
      (q'.queues.getQueue = q.queues.getQueue ∨
        q'.queues.getQueue = Lanes.place q.queues.getQueue a x.place) ∧
      (eot = true → q'.queues.getQueue = Lanes.place q.queues.getQueue a x.place) := by
    cases eot with
    | true =>
      obtain ⟨q₂, q₃, hdequeue', hupdate', -, hentries, hqueue⟩ := hq.requeue hxmark hb
      cases hdequeue.symm.trans hdequeue'
      cases hupdate.symm.trans hupdate'
      exact ⟨hentries, .inr hqueue, fun _ ↦ hqueue⟩
    | false =>
      obtain ⟨q₂, hupdate', -, hentries, hqueue⟩ := hq.refresh hxmark hb
      cases hdequeue
      cases hupdate.symm.trans hupdate'
      refine ⟨hentries, ?_, fun hnot ↦ by cases hnot⟩
      split at hqueue
      · exact .inl hqueue
      · exact .inr hqueue
  have hmark' : q'.mark a = x.place := by
    rw [mark, hentries, Function.update_self]
    rfl
  refine ⟨a, ?_, ⟨?_, fun b hb ↦ ?_, ?_, fun hnot ↦ absurd rfl (hnot _), fun frame' hframe ↦ ?_⟩⟩
  · rw [hubFront, hid]
    exact hfront
  · rw [he, hentries, Function.update_self]
    exact .pop hfirst hpop heot
  · rw [hentries, Function.update_of_ne hb]
  · rwa [hmark']
  · cases hframe
    rw [hpriority, hserving, hmark']
    refine ⟨hfront, fun hend ↦ hlast ?_⟩
    exact Option.some_injective _ (heot.symm.trans hend)

/-- **A step is about one entry at most**, and this is what it does. -/
theorem Inv.acts {r r' : Registry} (h : r.Inv) (hop : r.Valid op)
    (hstep : r.step op = .ok (r', event)) :
    Idles r.queue r'.queue event ∨ ∃ a, Acts r.queue op r'.queue event a := by
  cases op with
  | register a init =>
    rcases register_cases hstep with ⟨rfl, e, rfl⟩ | ⟨b, hnew, rfl, hreg⟩
    · exact .inl ⟨rfl, rfl, fun x hx ↦ by cases hx⟩
    · obtain ⟨hfree, hfits, -⟩ := hop
      obtain ⟨b', hnew', hb, -⟩ := TxBuffer.inv_new hfits
      cases hnew.symm.trans hnew'
      have hmark : (Entry.new b).queueMark = r.queue.mark a := by
        rw [mark, hfree]
        rfl
      obtain ⟨q', hupdate, -, hentries, hqueue⟩ := h.queue.refresh hmark ⟨_, hb⟩
      cases hreg.symm.trans hupdate
      refine .inr ⟨a, acts_of_entries hentries ?_ hqueue fun x hx ↦ by cases hx⟩
      rw [hfree]
      exact .register hfits hnew
  | unregister a =>
    obtain ⟨r₁, hunregister, hr⟩ := bind_eq_ok.mp hstep
    cases hr
    obtain ⟨q₁, hq₁, hqueue⟩ := unregister_cases hunregister
    obtain ⟨e, he⟩ := Option.isSome_iff_exists.mp hop
    obtain ⟨q₂, hdequeue, -, hentries, hlanes⟩ := h.queue.drop he
    cases hq₁.symm.trans hdequeue
    refine .inr ⟨a, ?_⟩
    rw [hqueue]
    refine acts_of_entries hentries ?_ ?_ fun x hx ↦ by cases hx
    · rw [he]
      exact .unregister
    · rw [queues_dropEntry, hlanes]
      split
      · rename_i hnone
        exact h.queue.linked.place_of_none hnone
      · rfl
  | getScratchpad a =>
    obtain ⟨⟨res, q₁⟩, hget, hr⟩ := bind_eq_ok.mp hstep
    cases hr
    obtain ⟨e, b, he, hget', rfl⟩ := withBufferMut_eq_ok.mp hget
    rw [queue_setQueue]
    exact .inr ⟨a, acts_of_setEntry he (.scratchpad hget') fun x hx ↦ by cases hx⟩
  | writeScratchpad a bytes =>
    obtain ⟨⟨res, q₁⟩, hwrite, hr⟩ := bind_eq_ok.mp hstep
    cases hr
    obtain ⟨e, b, he, hb, rfl⟩ := withBufferMut_eq_ok.mp hwrite
    cases hb
    obtain ⟨e', he', hbytes⟩ := hop
    cases he.symm.trans he'
    rw [queue_setQueue]
    exact .inr ⟨a, acts_of_setEntry he (.write hbytes) fun x hx ↦ by cases hx⟩
  | tryPush a m length crc =>
    obtain ⟨⟨res, q₁⟩, hpush, hr⟩ := bind_eq_ok.mp hstep
    cases hr
    rw [queue_setQueue]
    obtain ⟨⟨res', q₂⟩, hbuffer, hrest⟩ := bind_eq_ok.mp hpush
    obtain ⟨e, b, he, hb, rfl⟩ := withBufferMut_eq_ok.mp hbuffer
    obtain ⟨e', he', hlength⟩ := hop
    cases he.symm.trans he'
    refine .inr ⟨a, ?_⟩
    cases res' with
    | error err =>
      cases hrest
      exact acts_of_setEntry he (.push hlength hb) fun x hx ↦ by cases hx
    | ok u =>
      obtain ⟨q₃, hupdate, hq⟩ := bind_eq_ok.mp hrest
      cases hq
      obtain ⟨n, hinv⟩ := h.queue.buffer a e he
      have hb' : ∃ n, b.Inv n := by
        rcases hinv.tryPush m (hinv.capacity_eq ▸ hlength) crc with
          ⟨err, herr⟩ | ⟨b', hpush', hb', -⟩
        · cases hb.symm.trans herr
        · cases hb.symm.trans hpush'
          exact ⟨n, hb'⟩
      obtain ⟨q₄, hupdate', -, hentries, hqueue⟩ := h.queue.refresh (a := a)
        (x := { e with buffer := b }) (mark_of_entry he).symm hb'
      cases hupdate.symm.trans hupdate'
      refine acts_of_entries hentries ?_ hqueue fun x hx ↦ by cases hx
      rw [he]
      exact .push hlength hb
  | pollPop waker mask mtu =>
    obtain ⟨⟨res, q₁⟩, hpop, hr⟩ := bind_eq_ok.mp hstep
    cases hr
    rw [queue_setQueue]
    rcases pollPop_cases h.queue hpop with ⟨rfl, hentries, hqueues⟩ | ⟨frame, rfl, htry⟩
    · refine .inl ⟨hentries, hqueues, fun x hx ↦ ?_⟩
      cases hfront : r.queue.hubFront mask <;> rw [hfront] at hx <;> cases hx
    · obtain ⟨a, hfront, hacts⟩ := acts_pop h.queue htry
      rw [hfront]
      exact .inr ⟨a, hacts⟩

end Registry

end Emcyphal
