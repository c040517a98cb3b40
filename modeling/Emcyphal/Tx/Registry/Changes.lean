import Emcyphal.Tx.Registry

/-!
# What a step of a transmit registry changes

`Valid` is what the callers of a registry take care of: an entry is registered only once, and a
token is of an entry that is registered.  Then no step panics, and `Changes` is all that later
proofs have to know about it: which transfers are under way (`startedOf`), and who is first in the
lists.
-/

set_option autoImplicit false

namespace Emcyphal

open Rust TxQueue

namespace TxQueue

/-- The priorities with a transfer that the entry has sent in part. -/
def startedOf (r : TxQueue) (a : Address) : Option PrioritySet := (r.entries a).map Entry.started

/-- Other entries that are first in a list remain there. -/
def Fronts (r : TxQueue) (a : Address) (r' : TxQueue) : Prop :=
  ∀ b id, b ≠ a → (r.queues.getQueue id).head? = some b → (r'.queues.getQueue id).head? = some b

variable {r r' : TxQueue} {a : Address} {e : Entry}

theorem fronts_place {m : Option QueueId}
    (h : r'.queues.getQueue = Lanes.place r.queues.getQueue a m) : r.Fronts a r' := by
  intro b id hb hhead
  rw [h]
  exact Lanes.head?_place hhead hb m

theorem startedOf_update {x : Option Entry} (h : r'.entries = Function.update r.entries a x) :
    r'.startedOf = Function.update r.startedOf a (x.map Entry.started) := by
  funext b
  rw [startedOf, h]
  by_cases hb : b = a
  · subst hb
    rw [Function.update_self, Function.update_self]
  · rw [Function.update_of_ne hb, Function.update_of_ne hb]
    rfl

theorem startedOf_same {x : Entry} (he : r.entries a = some e)
    (h : r'.entries = Function.update r.entries a (some x)) (hstarted : x.started = e.started) :
    r'.startedOf = r.startedOf := by
  rw [startedOf_update h, Option.map_some, hstarted]
  refine Function.update_eq_self_iff.mpr ?_
  rw [startedOf, he]
  rfl

end TxQueue

namespace Registry

def Accepts : Registry → TxBuffer.Init → Prop
  | message _, .signal _ _ _ | message _, .blocking _ _ _ | response _, .response _ _ => True
  | message _, .response _ _ | response _, .signal _ _ _ | response _, .blocking _ _ _ => False

instance : (r : Registry) → (init : TxBuffer.Init) → Decidable (r.Accepts init)
  | message _, .signal _ _ _ | message _, .blocking _ _ _ | response _, .response _ _ =>
    isTrue trivial
  | message _, .response _ _ | response _, .signal _ _ _ | response _, .blocking _ _ _ => isFalse id

/-- What the callers take care of. -/
def Valid (r : Registry) : Op → Prop
  | .register address init => r.queue.entries address = none ∧ init.Fits ∧ r.Accepts init
  | .unregister token | .getScratchpad token => (r.queue.entries token).isSome = true
  | .writeScratchpad token bytes => ∃ e ∈ r.queue.entries token, bytes.length = e.buffer.capacity
  | .tryPush token _ length _ => ∃ e ∈ r.queue.entries token, length ≤ e.buffer.capacity
  | .pollPop _ _ _ => True

instance decidableValid (r : Registry) : (op : Op) → Decidable (r.Valid op)
  | .register _ _ => inferInstanceAs (Decidable (_ ∧ _ ∧ _))
  | .unregister _ | .getScratchpad _ => inferInstanceAs (Decidable (_ = true))
  | .writeScratchpad token bytes =>
    inferInstanceAs (Decidable (∃ e ∈ r.queue.entries token, bytes.length = e.buffer.capacity))
  | .tryPush token _ length _ =>
    inferInstanceAs (Decidable (∃ e ∈ r.queue.entries token, length ≤ e.buffer.capacity))
  | .pollPop _ _ _ => isTrue trivial

/-- The tree of a message registry is of the entries that are registered. -/
def Indexed : Registry → Prop
  | message inner => (inner.entryTree.map Prod.snd).Nodup ∧
      ∀ a, a ∈ inner.entryTree.map Prod.snd ↔ (inner.queue.entries a).isSome = true
  | response _ => True

/-- What holds of a registry in every state. -/
structure Inv (r : Registry) : Prop where
  queue : r.queue.Inv
  indexed : r.Indexed

/-- What a step changes about the queue. -/
inductive Changes (q : TxQueue) : Op → TxQueue → Event → Prop
  | register {a : Address} {init : TxBuffer.Init} {q' : TxQueue} (hfree : q.entries a = none)
      (hstarted : q'.startedOf = Function.update q.startedOf a (some .NONE))
      (hfronts : q.Fronts a q') :
      Changes q (.register a init) q' (.registered (.ok a))
  | reject {a : Address} {init : TxBuffer.Init} {e : RxMsg.RegistrationError} :
      Changes q (.register a init) q (.registered (.error e))
  | unregister {a : Address} {q' : TxQueue}
    (hstarted : q'.startedOf = Function.update q.startedOf a none)
      (hfronts : q.Fronts a q') : Changes q (.unregister a) q' .unregistered
  | scratchpad {a : Address} {q' : TxQueue} {res : Option (PrioritySet × List Byte)}
      (hstarted : q'.startedOf = q.startedOf) (hqueues : q'.queues = q.queues) :
      Changes q (.getScratchpad a) q' (.scratchpad res)
  | write {a : Address} {q' : TxQueue} {bytes : List Byte}
      (hstarted : q'.startedOf = q.startedOf) (hqueues : q'.queues = q.queues) :
      Changes q (.writeScratchpad a bytes) q' .written
  | refuse {a : Address} {q' : TxQueue} {m : TransferMeta} {length : ℕ} {crc : TransferCrc}
    {e : BufferError}
      (hstarted : q'.startedOf = q.startedOf) (hqueues : q'.queues = q.queues) :
      Changes q (.tryPush a m length crc) q' (.pushed (.error e))
  | push {a : Address} {q' : TxQueue} {m : TransferMeta} {length : ℕ} {crc : TransferCrc}
      (hstarted : q'.startedOf = q.startedOf) (hfronts : q.Fronts a q')
      (hown : ∀ id : QueueId, (q.queues.getQueue id).head? = some a → id.1 ≤ m.priority →
        (q'.queues.getQueue id).head? = some a) :
      Changes q (.tryPush a m length crc) q' (.pushed (.ok ()))
  | pending {waker : Waker} {mask : PrioritySet} {mtu : Mtu} {q' : TxQueue}
      (hstarted : q'.startedOf = q.startedOf) (hqueues : q'.queues = q.queues) :
      Changes q (.pollPop waker mask mtu) q' (.popped none)
  | pop {waker : Waker} {mask : PrioritySet} {mtu : Mtu} {q' : TxQueue} {p : Priority} {a : Address}
      {frame : Frame} {eot : Bool} (hpopped : q.Popped p mtu a frame eot q') :
      Changes q (.pollPop waker mask mtu) q' (.popped (some (a, frame)))

end Registry

/-! ## The operations on the queue -/

namespace TxQueue.Inv

variable {r r' : TxQueue} {a : Address} {e : Entry} {n : ℕ}

/-- A change of the buffer that does not concern what it reports. -/
theorem setBuffer (h : r.Inv) (he : r.entries a = some e) {b : TxBuffer} (hb : b.Inv n)
    (hready : b.popReadiness = e.buffer.popReadiness) : (r.setEntry a { e with buffer := b }).Inv ∧
      (r.setEntry a { e with buffer := b }).startedOf = r.startedOf := by
  have hmark : e.queueMark = r.mark a := (mark_of_entry he).symm
  have hplace : Entry.place { e with buffer := b } = e.place := by
    rw [Entry.place, Entry.place]
    dsimp only
    rw [hready]
  set e' : Entry := { e with buffer := b } with he'
  refine ⟨(h.toConsistent.setEntry (x := e') hmark).inv_update h (a := a) (x := e') ⟨n, hb⟩ ?_,
    startedOf_same (x := e') he rfl rfl⟩
  rw [entries_setEntry, hplace, ← h.place a e he]

/-- What a buffer reports depends on the transfers it has. -/
theorem popReadiness_congr {b b' : TxBuffer} (hb : b.Inv n) (hb' : b'.Inv n)
    (hnext : b'.next = b.next) :
    b'.popReadiness = b.popReadiness :=
  PrioritySet.ext_contains fun p ↦ by rw [hb.popReadiness, hb'.popReadiness, hnext]

theorem getScratchpad (h : r.Inv) (he : r.entries a = some e) : ∃ res r',
    r.getScratchpad a = .ok (res, r') ∧ r'.Inv ∧ r'.startedOf = r.startedOf ∧ r'.queues =
      r.queues := by
  obtain ⟨n, hbuffer⟩ := h.buffer a e he
  obtain ⟨res, b, hget, hb, hnext, -⟩ := hbuffer.getScratchpad
  obtain ⟨hinv, hstarted⟩ := h.setBuffer he hb (popReadiness_congr hbuffer hb hnext)
  refine ⟨res, _, ?_, hinv, hstarted, rfl⟩
  rw [TxQueue.getScratchpad, withBufferMut, he, unwrap_some, ok_bind, hget]
  rfl

theorem writeScratchpad (h : r.Inv) (he : r.entries a = some e) {bytes : List Byte}
    (hbytes : bytes.length = e.buffer.capacity) : ∃ r',
      r.writeScratchpad a bytes = .ok ((), r') ∧ r'.Inv ∧ r'.startedOf = r.startedOf ∧
      r'.queues = r.queues := by
  obtain ⟨n, hbuffer⟩ := h.buffer a e he
  rw [hbuffer.capacity_eq] at hbytes
  obtain ⟨hb, hnext⟩ := hbuffer.writeScratchpad hbytes
  obtain ⟨hinv, hstarted⟩ := h.setBuffer he hb (popReadiness_congr hbuffer hb hnext)
  refine ⟨_, ?_, hinv, hstarted, rfl⟩
  rw [TxQueue.writeScratchpad, withBufferMut, he]
  rfl

/-- A push that adds a less urgent transfer leaves the place of the entry alone. -/
theorem place_pushed {b b' : TxBuffer} {p : Priority} (hb : b.Inv n) (hb' : b'.Inv n)
    {mark : Option QueueId} {started : PrioritySet} {q : QueueId}
    (hplace : Entry.place ⟨mark, started, b⟩ = some q) (hle : q.1 ≤ p)
    (hp : (b'.next p).isSome = true) (hothers : ∀ q, q ≠ p → b'.next q = b.next q) :
    Entry.place ⟨mark, started, b'⟩ = some q := by
  obtain ⟨p', hfirst, hid⟩ := Option.map_eq_some_iff.mp hplace
  dsimp only at hfirst hid
  have hp' : p' = q.1 := congrArg Prod.fst hid
  rw [hp'] at hfirst
  have hnext : (b'.next q.1).isSome = true := by
    by_cases hq : q.1 = p
    · rwa [hq]
    · rw [hothers _ hq, ← hb.popReadiness]
      exact (PrioritySet.first_eq_some_iff.mp hfirst).1
  have hfirst' : b'.popReadiness.first = some q.1 := by
    rw [PrioritySet.first_eq_some_iff] at hfirst ⊢
    refine ⟨by rw [hb'.popReadiness, hnext], fun q' hq' ↦ ?_⟩
    by_cases hqp : q' = p
    · rw [hqp]
      exact hle
    · rw [hb'.popReadiness, hothers q' hqp, ← hb.popReadiness] at hq'
      exact hfirst.2 q' hq'
  rw [Entry.place]
  dsimp only
  rw [hfirst', Option.map_some, ← hp', hid]

/-- The entry is where it has to be after a push. -/
theorem tryPush (h : r.Inv) (he : r.entries a = some e) {m : TransferMeta} {length : ℕ}
    (hlength : length ≤ e.buffer.capacity) (crc : TransferCrc) :
    (∃ err r', r.tryPush a m length crc = .ok (.error err, r') ∧ r'.Inv ∧
      r'.startedOf = r.startedOf ∧ r'.queues = r.queues) ∨
    ∃ r', r.tryPush a m length crc = .ok (.ok (), r') ∧ r'.Inv ∧ r'.startedOf = r.startedOf ∧
      r.Fronts a r' ∧ ∀ id : QueueId, (r.queues.getQueue id).head? = some a → id.1 ≤ m.priority →
        (r'.queues.getQueue id).head? = some a := by
  obtain ⟨n, hbuffer⟩ := h.buffer a e he
  rw [hbuffer.capacity_eq] at hlength
  rw [TxQueue.tryPush, withBufferMut, he, unwrap_some, ok_bind]
  rcases hbuffer.tryPush m hlength crc with
    ⟨err, herr⟩ | ⟨b, hpush, hb, hnext, hothers⟩
  · obtain ⟨hinv, hstarted⟩ := h.setBuffer he hbuffer rfl
    refine .inl ⟨err, _, ?_, hinv, hstarted, rfl⟩
    rw [herr]
    rfl
  · set e' : Entry := { e with buffer := b } with he'
    obtain ⟨r', hupdate, hr', hentries, hqueue⟩ :=
      h.refresh (a := a) (x := e') (mark_of_entry he).symm ⟨n, hb⟩
    refine .inr ⟨r', ?_, hr', startedOf_same he hentries rfl, ?_, ?_⟩
    · rw [hpush, ok_bind]
      dsimp only
      rw [pure_eq_ok, ok_bind]
      dsimp only
      rw [hupdate]
      rfl
    · by_cases hsame : r.mark a = e'.place
      · rw [if_pos hsame] at hqueue
        intro b id _ hhead
        rwa [hqueue]
      · rw [if_neg hsame] at hqueue
        exact fronts_place hqueue
    · intro id hhead hle
      obtain ⟨e₁, n₁, o, he₁, -, hplace, -⟩ := h.of_front (p := id.1) (k := id.2) hhead
      cases he₁.symm.trans he
      have hsame : r.mark a = e'.place := by
        rw [h.mark_eq he]
        exact hplace.trans (place_pushed hbuffer hb hplace hle hnext hothers).symm
      rwa [hqueue, if_pos hsame]

/-- The frame is of the entry that is in front. -/
theorem pollPop (h : r.Inv) (waker : Waker) (mask : PrioritySet) (mtu : Mtu) :
    (∃ r', r.pollPop waker mask mtu = .ok (none, r') ∧ r'.Inv ∧ r'.startedOf = r.startedOf ∧
      r'.queues = r.queues ∧ r'.entries = r.entries ∧ ∀ p, mask.contains p = true → ¬ r.Queued p) ∨
    ∃ p a frame eot r', r.pollPop waker mask mtu = .ok (some frame, r') ∧ r'.Inv ∧
      r.hubFront mask = some a ∧ r.Popped p mtu a frame eot r' ∧ mask.contains p = true ∧
        r.Queued p ∧
      ∀ q, mask.contains q = true → r.Queued q → p ≤ q := by
  by_cases hnone : ∀ p, mask.contains p = true → ¬ r.Queued p
  · refine .inl ?_
    rw [TxQueue.pollPop]
    split
    · exact ⟨r, rfl, h, rfl, rfl, rfl, hnone⟩
    · rw [hubPollPop, h.hubTryPop_none hnone]
      exact ⟨_, rfl, ⟨⟨h.linked, h.cached⟩, h.place, h.buffer⟩, rfl, rfl, rfl, hnone⟩
  · push Not at hnone
    obtain ⟨q, hq, hqueued⟩ := hnone
    obtain ⟨p, a, frame, eot, r', hpop, hr', hmask, hqueuedp, hmin, hfront, hpopped⟩ :=
      h.hubTryPop hq hqueued mtu
    refine .inr ⟨p, a, frame, eot, r', ?_, hr', hfront, hpopped, hmask, hqueuedp, hmin⟩
    have hnonempty : ¬ mask.isEmpty = true := by
      rw [PrioritySet.isEmpty_iff]
      intro hempty
      rw [hempty q] at hq
      cases hq
    rw [TxQueue.pollPop, if_neg hnonempty, hubPollPop, hpop]
    rfl

/-- An entry is registered. -/
theorem register (h : r.Inv) (ha : r.entries a = none) {b : TxBuffer} (hb : b.Inv n) : ∃ r',
    (r.setEntry a (.new b)).regRegister a = .ok r' ∧ r'.Inv ∧
      r'.startedOf = Function.update r.startedOf a (some .NONE) ∧ r.Fronts a r' := by
  have hmark : (Entry.new b).queueMark = r.mark a := by
    rw [mark, ha]
    rfl
  obtain ⟨r', hupdate, hr', hentries, hqueue⟩ := h.refresh hmark ⟨n, hb⟩
  refine ⟨r', hupdate, hr', startedOf_update hentries, ?_⟩
  by_cases hsame : r.mark a = (Entry.new b).place
  · rw [if_pos hsame] at hqueue
    intro b id _ hhead
    rwa [hqueue]
  · rw [if_neg hsame] at hqueue
    exact fronts_place hqueue

/-- An entry is unregistered. -/
theorem unregister (h : r.Inv) (he : r.entries a = some e) : ∃ r', r.regUnregister a = .ok r' ∧
    (r'.dropEntry a).Inv ∧ (r'.dropEntry a).startedOf = Function.update r.startedOf a none ∧
      r.Fronts a (r'.dropEntry a) := by
  obtain ⟨r', hdequeue, hr', hentries, hqueue⟩ := h.drop he
  exact ⟨r', hdequeue, hr', startedOf_update hentries, fronts_place hqueue⟩

end TxQueue.Inv

namespace Registry

variable {r : Registry} {a : Address}

@[simp] theorem queue_setQueue (r : Registry) (q : TxQueue) : (r.setQueue q).queue = q := by
  cases r <;> rfl

theorem isSome_entries (q : TxQueue) (a : Address) : (q.entries a).isSome =
    (q.startedOf a).isSome :=
  Option.isSome_map.symm

/-- The tree stays as it is as long as the same entries are registered. -/
theorem Indexed.setQueue (h : r.Indexed) {q : TxQueue}
    (hsame : ∀ a, (q.startedOf a).isSome = (r.queue.startedOf a).isSome) :
    (r.setQueue q).Indexed := by
  cases r with
  | message inner =>
    refine ⟨h.1, fun a ↦ ?_⟩
    dsimp only
    rw [isSome_entries, hsame, ← isSome_entries]
    exact h.2 a
  | response inner => trivial

theorem Inv.setQueue (h : r.Inv) {q : TxQueue} (hq : q.Inv)
    (hsame : ∀ a, (q.startedOf a).isSome = (r.queue.startedOf a).isSome) : (r.setQueue q).Inv :=
  ⟨by rwa [queue_setQueue], h.indexed.setQueue hsame⟩

theorem perm_insert (as bs : List (SubjectId × Address)) (x : SubjectId × Address) :
    ((as ++ x :: bs).map Prod.snd).Perm (x.2 :: (as ++ bs).map Prod.snd) :=
  (List.perm_middle).map Prod.snd

/-- The tree of a registry after an insertion. -/
theorem regRegister_message (inner : TxMsg.Inner) {q : TxQueue} {b : TxBuffer} (subject : SubjectId)
    (hq : (inner.queue.setEntry a (.new b)).regRegister a = .ok q) :
    inner.regRegister a subject b = .ok (.error .dataSpecifierOccupied, inner) ∨
    ∃ as bs, inner.entryTree = as ++ bs ∧
      inner.regRegister a subject b = .ok (.ok a, ⟨as ++ (subject, a) :: bs, q⟩) := by
  rw [TxMsg.Inner.regRegister]
  split
  · exact .inl rfl
  · refine .inr ⟨_, _, (List.takeWhile_append_dropWhile
      (p := fun x : SubjectId × Address ↦ decide (x.1 ≤ subject)) (l := inner.entryTree)).symm, ?_⟩
    rw [hq]
    rfl

/-- A registration either fails because of the subject, or adds the entry. -/
theorem Inv.register (h : r.Inv) {init : TxBuffer.Init} (hop : r.Valid (.register a init)) :
    ∃ r' event, r.register a init = .ok (r', event) ∧ r'.Inv ∧
      Changes r.queue (.register a init) r'.queue event := by
  obtain ⟨hfree, hfits, haccepts⟩ := hop
  obtain ⟨b, hnew, hb, -⟩ := TxBuffer.inv_new hfits
  obtain ⟨q, hregister, hq, hstarted, hfronts⟩ := h.queue.register hfree hb
  have hchanges : Changes r.queue (.register a init) q (.registered (.ok a)) :=
    .register hfree hstarted hfronts
  rw [Registry.register, hnew, ok_bind]
  cases r with
  | response inner =>
    cases init with
    | response service buffers =>
      refine ⟨.response ⟨q⟩, .registered (.ok a), ?_, ⟨hq, trivial⟩, hchanges⟩
      have hqueue : (inner.queue.setEntry a (.new b)).regRegister a = .ok q := hregister
      dsimp only
      rw [TxResp.Inner.regRegister, hqueue]
      rfl
    | signal => cases haccepts
    | blocking => cases haccepts
  | message inner =>
    have hmessage : ∀ subject, ∃ r' event, (inner.regRegister a subject b >>= fun x ↦
          pure (message x.2, Event.registered x.1) : Exec (Registry × Event)) = .ok (r', event) ∧
        r'.Inv ∧ Changes inner.queue (.register a init) r'.queue event := by
      intro subject
      rcases regRegister_message inner subject hregister with heq | ⟨as, bs, htree, heq⟩
      · exact ⟨_, _, by rw [heq]; rfl, h, .reject⟩
      · refine ⟨.message ⟨as ++ (subject, a) :: bs, q⟩, _, by rw [heq]; rfl, ⟨hq, ?_⟩, hchanges⟩
        obtain ⟨hnodup, hmem⟩ := h.indexed
        rw [htree] at hnodup hmem
        have hperm := perm_insert as bs (subject, a)
        have hnew : a ∉ (as ++ bs).map Prod.snd := by
          rw [hmem]
          intro hsome
          rw [show inner.queue.entries a = none from hfree] at hsome
          cases hsome
        refine ⟨hperm.nodup_iff.mpr (List.nodup_cons.mpr ⟨hnew, hnodup⟩), fun c ↦ ?_⟩
        rw [hperm.mem_iff, List.mem_cons, hmem, isSome_entries, isSome_entries, hstarted]
        by_cases hc : c = a
        · subst hc
          simp
        · rw [Function.update_of_ne hc]
          simp [hc]
          rfl
    cases init with
    | signal subject _ _ => exact hmessage subject
    | blocking subject _ _ => exact hmessage subject
    | response => cases haccepts

theorem Inv.unregister (h : r.Inv) (hop : r.Valid (.unregister a)) :
    ∃ r', r.unregister a = .ok r' ∧ r'.Inv ∧
      Changes r.queue (.unregister a) r'.queue .unregistered := by
  obtain ⟨e, he⟩ := Option.isSome_iff_exists.mp hop
  obtain ⟨q, hunregister, hq, hstarted, hfronts⟩ := h.queue.unregister he
  have hchanges : Changes r.queue (.unregister a) (q.dropEntry a) .unregistered :=
    .unregister hstarted hfronts
  cases r with
  | response inner =>
    have hqueue : inner.queue.regUnregister a = .ok q := hunregister
    refine ⟨.response ⟨q.dropEntry a⟩, ?_, ⟨hq, trivial⟩, hchanges⟩
    rw [Registry.unregister, TxResp.Inner.regUnregister, hqueue]
    rfl
  | message inner =>
    have hqueue : inner.queue.regUnregister a = .ok q := hunregister
    obtain ⟨hnodup, hmem⟩ := h.indexed
    obtain ⟨⟨s, a'⟩, hx, ha⟩ := List.mem_map.mp ((hmem a).mpr hop)
    dsimp only at ha
    subst ha
    obtain ⟨as, bs, htree⟩ := List.append_of_mem hx
    rw [htree] at hnodup hmem
    have hperm := perm_insert as bs (s, a')
    obtain ⟨hnot, hnodup'⟩ := List.nodup_cons.mp (hperm.nodup_iff.mp hnodup)
    have hcursor : Tree.cursorAt (fun elem ↦ elem.2 == a') inner.entryTree =
      some (as, (s, a'), bs) := by
      rw [htree]
      refine Tree.cursorAt_append (fun x hxas ↦ ?_) (beq_self_eq_true a')
      rw [beq_eq_false_iff_ne]
      rintro rfl
      exact hnot (List.mem_map.mpr ⟨x, List.mem_append_left bs hxas, rfl⟩)
    refine ⟨.message ⟨as ++ bs, q.dropEntry a'⟩, ?_, ⟨hq, hnodup', fun c ↦ ?_⟩, hchanges⟩
    · rw [Registry.unregister, TxMsg.Inner.regUnregister, hcursor]
      dsimp only [unwrap_some, ok_bind]
      rw [hqueue]
      rfl
    · rw [isSome_entries, hstarted]
      by_cases hc : c = a'
      · subst hc
        rw [Function.update_self]
        exact iff_of_false hnot (by simp)
      · rw [Function.update_of_ne hc]
        have hmemc := hmem c
        rw [hperm.mem_iff, List.mem_cons, isSome_entries] at hmemc
        exact ⟨fun h ↦ hmemc.mp (.inr h), fun h ↦ (hmemc.mpr h).resolve_left hc⟩

theorem Popped.isSome {q q' : TxQueue} {p : Priority} {mtu : Mtu} {frame : Frame} {eot : Bool}
    (h : q.Popped p mtu a frame eot q') (b : Address) :
    (q'.startedOf b).isSome = (q.startedOf b).isSome := by
  obtain ⟨e, buffer, he, -, -, mark, hentries⟩ := h.buffer
  rw [startedOf_update hentries]
  by_cases hb : b = a
  · subst hb
    rw [Function.update_self, startedOf, he]
    rfl
  · rw [Function.update_of_ne hb]

/-- **No step panics**, and what it changes is known. -/
theorem Inv.step (h : r.Inv) {op : Op} (hop : r.Valid op) : ∃ r' event,
    r.step op = .ok (r', event) ∧ r'.Inv ∧ Changes r.queue op r'.queue event := by
  cases op with
  | register address init => exact h.register hop
  | unregister token =>
    obtain ⟨r', hunregister, hr', hchanges⟩ := h.unregister hop
    exact ⟨r', _, by rw [Registry.step, hunregister]; rfl, hr', hchanges⟩
  | getScratchpad token =>
    obtain ⟨e, he⟩ := Option.isSome_iff_exists.mp hop
    obtain ⟨res, q, hget, hq, hstarted, hqueues⟩ := h.queue.getScratchpad he
    refine ⟨r.setQueue q, .scratchpad res, by rw [Registry.step, hget]; rfl,
      h.setQueue hq fun a ↦ by rw [hstarted], ?_⟩
    rw [queue_setQueue]
    exact .scratchpad hstarted hqueues
  | writeScratchpad token bytes =>
    obtain ⟨e, he, hbytes⟩ := hop
    obtain ⟨q, hwrite, hq, hstarted, hqueues⟩ := h.queue.writeScratchpad he hbytes
    refine ⟨r.setQueue q, .written, by rw [Registry.step, hwrite]; rfl,
      h.setQueue hq fun a ↦ by rw [hstarted], ?_⟩
    rw [queue_setQueue]
    exact .write hstarted hqueues
  | tryPush token m length crc =>
    obtain ⟨e, he, hlength⟩ := hop
    rcases h.queue.tryPush he (m := m) hlength crc with
      ⟨err, q, hpush, hq, hstarted, hqueues⟩ | ⟨q, hpush, hq, hstarted, hfronts, hown⟩
    · refine ⟨r.setQueue q, .pushed (.error err), by rw [Registry.step, hpush]; rfl,
        h.setQueue hq fun a ↦ by rw [hstarted], ?_⟩
      rw [queue_setQueue]
      exact .refuse hstarted hqueues
    · refine ⟨r.setQueue q, .pushed (.ok ()), by rw [Registry.step, hpush]; rfl,
        h.setQueue hq fun a ↦ by rw [hstarted], ?_⟩
      rw [queue_setQueue]
      exact .push hstarted hfronts hown
  | pollPop waker mask mtu =>
    rcases h.queue.pollPop waker mask mtu with
      ⟨q, hpop, hq, hstarted, hqueues, -⟩ | ⟨p, a, frame, eot, q, hpop, hq, hfront, hpopped, -⟩
    · refine ⟨r.setQueue q, .popped none, ?_, h.setQueue hq fun a ↦ by rw [hstarted], ?_⟩
      · rw [Registry.step, hpop, ok_bind]
        cases r.queue.hubFront mask <;> rfl
      · rw [queue_setQueue]
        exact .pending hstarted hqueues
    · refine ⟨r.setQueue q, .popped (some (a, frame)), ?_, h.setQueue hq (Popped.isSome hpopped),
        ?_⟩
      · rw [Registry.step, hpop, hfront]
        rfl
      · rw [queue_setQueue]
        exact .pop hpopped

theorem inv_message : (message .new).Inv :=
  ⟨inv_new, List.nodup_nil, fun a ↦ by simp [TxMsg.Inner.new, TxQueue.new]⟩

theorem inv_response : (response .new).Inv := ⟨inv_new, trivial⟩

end Registry

end Emcyphal
