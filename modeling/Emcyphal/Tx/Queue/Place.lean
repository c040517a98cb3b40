import Emcyphal.Tx.Queue

/-!
# The place of an entry in the transmit queue

Where an entry has to be queued is a function of what is stored in it (`Entry.place`), and every
operation of the queue puts the one entry it is about there.  `Inv` says that all entries are where
they have to be, and that the cached sets of priorities are those of the lists that are not empty.
-/

set_option autoImplicit false

namespace Emcyphal.TxQueue

open Rust

/-- The list that the entry has to be in. -/
def Entry.place (e : Entry) : Option QueueId :=
  e.buffer.popReadiness.first.map fun priority ↦
    (priority, if e.started.contains priority then .started else .finished)

namespace Queues

/-- The cached emptiness of a list. -/
def flag (r : Queues) : QueueId → Bool
  | (priority, .started) => r.startedPriorities.contains priority
  | (priority, .finished) => r.finishedPriorities.contains priority

variable (r : Queues) (queue : List Address) (id : QueueId)

@[simp] theorem getQueue_setQueue :
    (r.setQueue queue id).getQueue = Function.update r.getQueue id queue := by
  obtain ⟨p, _ | _⟩ := id <;> funext ⟨q, t⟩ <;> cases t <;> by_cases hq : q = p <;>
    simp [getQueue, setQueue, hq]

@[simp] theorem getQueue_setEmptyFlag : (r.setEmptyFlag id).getQueue = r.getQueue := by
  obtain ⟨p, _ | _⟩ := id <;> funext ⟨q, t⟩ <;> cases t <;> rfl

@[simp] theorem getQueue_clearEmptyFlag : (r.clearEmptyFlag id).getQueue = r.getQueue := by
  obtain ⟨p, _ | _⟩ := id <;> funext ⟨q, t⟩ <;> cases t <;> rfl

@[simp] theorem flag_setQueue : (r.setQueue queue id).flag = r.flag := by
  obtain ⟨p, _ | _⟩ := id <;> funext ⟨q, t⟩ <;> cases t <;> rfl

@[simp] theorem flag_setEmptyFlag : (r.setEmptyFlag id).flag = Function.update r.flag id false := by
  obtain ⟨p, _ | _⟩ := id <;> funext ⟨q, t⟩ <;> cases t <;> by_cases hq : q = p <;>
    simp [flag, setEmptyFlag, hq, Ne.symm]

@[simp] theorem flag_clearEmptyFlag : (r.clearEmptyFlag id).flag =
    Function.update r.flag id true := by
  obtain ⟨p, _ | _⟩ := id <;> funext ⟨q, t⟩ <;> cases t <;> by_cases hq : q = p <;>
    simp [flag, clearEmptyFlag, hq, Ne.symm]

/-- The cached sets are those of the lists that are not empty. -/
def Cached (r : Queues) : Prop := ∀ id, r.flag id = !(r.getQueue id).isEmpty

variable {r queue id}

theorem cached_new : new.Cached := by
  rintro ⟨p, _ | _⟩ <;> simp [new, getQueue, flag]

theorem cached_update {r' : Queues} (h : r.Cached)
    (hqueue : r'.getQueue = Function.update r.getQueue id queue)
    (hflag : r'.flag = Function.update r.flag id !queue.isEmpty) : r'.Cached := by
  intro k
  rw [hflag, hqueue]
  by_cases hk : k = id
  · subst hk
    rw [Function.update_self, Function.update_self]
  · rw [Function.update_of_ne hk, Function.update_of_ne hk]
    exact h k

theorem Cached.remove (h : r.Cached) {a : Address} (ha : a ∈ r.getQueue id) : ∃ r',
    r.remove id a = .ok r' ∧ r'.Cached ∧
      r'.getQueue = Function.update r.getQueue id ((r.getQueue id).erase a) := by
  obtain ⟨x, hfind⟩ := Option.isSome_iff_exists.mp
    (List.find?_isSome (p := (· == a)).mpr ⟨a, ha, beq_self_eq_true a⟩)
  have hid : r.flag id = true := by
    rw [h id]
    simpa using List.ne_nil_of_mem ha
  rw [Queues.remove, hfind]
  dsimp only [unwrap_some, ok_bind, pure_eq_ok]
  refine ⟨_, rfl, ?_⟩
  split
  · rename_i hempty
    refine ⟨cached_update h (by rw [getQueue_setEmptyFlag, getQueue_setQueue]) ?_,
      by rw [getQueue_setEmptyFlag, getQueue_setQueue]⟩
    rw [flag_setEmptyFlag, flag_setQueue, hempty]
    rfl
  · rename_i hleft
    refine ⟨cached_update h (getQueue_setQueue ..) ?_, getQueue_setQueue ..⟩
    rw [flag_setQueue, Bool.eq_false_iff.mpr hleft, Bool.not_false, ← hid, Function.update_eq_self]

theorem Cached.pushBack (h : r.Cached) (id : QueueId) (a : Address) : (r.pushBack id a).Cached ∧
    (r.pushBack id a).getQueue = Function.update r.getQueue id (r.getQueue id ++ [a]) := by
  have hqueue : (r.pushBack id a).getQueue = Function.update r.getQueue id
    (r.getQueue id ++ [a]) := by
    rw [Queues.pushBack, getQueue_clearEmptyFlag, getQueue_setQueue]
  refine ⟨cached_update h hqueue ?_, hqueue⟩
  have hne : (r.getQueue id ++ [a]).isEmpty = false := by cases r.getQueue id <;> rfl
  rw [Queues.pushBack, flag_clearEmptyFlag, flag_setQueue, hne]
  rfl

end Queues

/-- The mark of the entry at an address. -/
def mark (r : TxQueue) (address : Address) : Option QueueId := (r.entries address).bind
    Entry.queueMark

/-- The lists, the marks and the cached sets agree. -/
structure Consistent (r : TxQueue) : Prop where
  linked : Lanes.Linked r.queues.getQueue r.mark
  cached : r.queues.Cached

variable {r : TxQueue} {a : Address} {e : Entry} {id : QueueId}

@[simp] theorem queues_setEntry (r : TxQueue) (a : Address) (e : Entry) :
    (r.setEntry a e).queues = r.queues := rfl

@[simp] theorem entries_setEntry (r : TxQueue) (a : Address) (e : Entry) :
    (r.setEntry a e).entries = Function.update r.entries a (some e) := rfl

@[simp] theorem queues_dropEntry (r : TxQueue) (a : Address) : (r.dropEntry a).queues = r.queues :=
  rfl

@[simp] theorem entries_dropEntry (r : TxQueue) (a : Address) :
    (r.dropEntry a).entries = Function.update r.entries a none := rfl

theorem mark_setEntry (r : TxQueue) (a : Address) (e : Entry) :
    (r.setEntry a e).mark = Function.update r.mark a e.queueMark := by
  funext b
  rw [mark, setEntry]
  by_cases hb : b = a
  · subst hb
    simp
  · simp [Function.update_of_ne hb, mark]

theorem mark_dropEntry (r : TxQueue) (a : Address) :
    (r.dropEntry a).mark = Function.update r.mark a none := by
  funext b
  rw [mark, dropEntry]
  by_cases hb : b = a
  · subst hb
    simp
  · simp [Function.update_of_ne hb, mark]

theorem mark_of_entry (he : r.entries a = some e) : r.mark a = e.queueMark := by
  rw [mark, he]
  rfl

theorem consistent_new : new.Consistent where
  linked := by
    refine ⟨fun id a ↦ ?_, fun id ↦ ?_⟩
    · obtain ⟨p, _ | _⟩ := id <;> simp [new, Queues.new, Queues.getQueue, mark]
    · obtain ⟨p, _ | _⟩ := id <;> exact List.nodup_nil
  cached := Queues.cached_new

namespace Consistent

/-- Only the mark of an entry matters. -/
theorem setEntry (h : r.Consistent) {x : Entry} (hmark : x.queueMark = r.mark a) :
    (r.setEntry a x).Consistent := by
  refine ⟨?_, h.cached⟩
  rw [mark_setEntry, hmark, Function.update_eq_self]
  exact h.linked

/-- The entry is taken out of its list. -/
theorem dequeue (h : r.Consistent) (he : r.entries a = some e) : ∃ r', r.dequeue a = .ok r' ∧
    r'.Consistent ∧ r'.entries = Function.update r.entries a (some { e with queueMark := none }) ∧
    r'.queues.getQueue = Lanes.place r.queues.getQueue a none := by
  rw [TxQueue.dequeue, he, unwrap_some, ok_bind]
  cases hmark : e.queueMark with
  | none =>
    refine ⟨r.setEntry a { e with queueMark := none }, rfl, h.setEntry ?_, rfl, ?_⟩
    · rw [mark_of_entry he, hmark]
    · exact (h.linked.place_of_none (by rw [mark_of_entry he, hmark])).symm
  | some id =>
    have hmem : a ∈ r.queues.getQueue id :=
      (h.linked.mem id a).mpr (by rw [mark_of_entry he, hmark])
    obtain ⟨queues, hremove, hcached, hqueue⟩ := h.cached.remove hmem
    have hlanes := h.linked.place_none ((mark_of_entry he).trans hmark)
    refine ⟨{ r.setEntry a { e with queueMark := none } with queues := queues }, ?_, ⟨?_, hcached⟩,
      rfl, hqueue.trans hlanes.symm⟩
    · dsimp only
      rw [queues_setEntry, hremove]
      rfl
    · have hlinked := h.linked.place a none
      rw [hlanes, ← hqueue] at hlinked
      have hmark' := mark_setEntry r a { e with queueMark := none }
      rw [← hmark'] at hlinked
      exact hlinked

/-- The entry is moved to the end of a list. -/
theorem moveBack (h : r.Consistent) (he : r.entries a = some e) (id : QueueId) : ∃ r',
    r.moveBack id a = .ok r' ∧ r'.Consistent ∧
      r'.entries = Function.update r.entries a (some { e with queueMark := some id }) ∧
      r'.queues.getQueue = Lanes.place r.queues.getQueue a (some id) := by
  obtain ⟨r₁, hdequeue, hr₁, hentries, hqueue⟩ := h.dequeue he
  have he₁ : r₁.entries a = some { e with queueMark := none } := by rw [hentries,
    Function.update_self]
  obtain ⟨hcached, hpush⟩ := hr₁.cached.pushBack id a
  have hlanes := hr₁.linked.place_some (mark_of_entry he₁) id
  rw [TxQueue.moveBack, hdequeue, ok_bind, he₁, unwrap_some, ok_bind]
  refine ⟨_, rfl, ⟨?_, hcached⟩, ?_, ?_⟩
  · have hlinked := hr₁.linked.place a (some id)
    rw [hlanes, ← hpush] at hlinked
    have hmark := mark_setEntry r₁ a { e with queueMark := some id }
    rw [← hmark] at hlinked
    exact hlinked
  · rw [entries_setEntry, hentries, Function.update_idem]
  · refine hpush.trans (hlanes.symm.trans ?_)
    rw [hqueue, Lanes.place_place h.linked.nodup]

/-- The entry is where it has to be. -/
theorem regUpdateQueuePosition (h : r.Consistent) (he : r.entries a = some e) : ∃ r',
    r.regUpdateQueuePosition a = .ok r' ∧ r'.Consistent ∧
      r'.entries = Function.update r.entries a (some { e with queueMark := e.place }) ∧
      r'.queues.getQueue =
        if e.queueMark = e.place then r.queues.getQueue else Lanes.place r.queues.getQueue
          a e.place := by
  rw [TxQueue.regUpdateQueuePosition, he, unwrap_some, ok_bind]
  cases hfirst : e.buffer.popReadiness.first with
  | none =>
    have hplace : e.place = none := by rw [Entry.place, hfirst]; rfl
    obtain ⟨r', hdequeue, hr', hentries, hqueue⟩ := h.dequeue he
    refine ⟨r', hdequeue, hr', by rw [hplace]; exact hentries, ?_⟩
    rw [hqueue, hplace]
    split
    · rename_i hmark
      exact h.linked.place_of_none ((mark_of_entry he).trans hmark)
    · rfl
  | some p =>
    dsimp only
    have hplace : e.place =
        some (if e.started.contains p then (p, .started) else (p, .finished)) := by
      rw [Entry.place, hfirst, Option.map_some]
      split <;> rfl
    rw [hplace]
    generalize (if e.started.contains p then (p, QueueType.started) else (p, QueueType.finished)) =
      id
    by_cases hmark : e.queueMark = some id
    · refine ⟨r, by rw [if_neg (not_not_intro hmark)]; rfl, h, ?_, by rw [if_pos hmark]⟩
      rw [← hmark, ← he, Function.update_eq_self]
    · obtain ⟨r', hmove, hr', hentries, hqueue⟩ := h.moveBack he id
      rw [if_pos hmark, hmove, ok_bind]
      refine ⟨_, rfl, ⟨hr'.linked, hr'.cached⟩, hentries, ?_⟩
      rw [if_neg hmark]
      exact hqueue

end Consistent

end Emcyphal.TxQueue
