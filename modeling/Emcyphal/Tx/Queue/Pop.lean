import Emcyphal.Tx.Queue.Place

/-!
# Fetching from the transmit queue

What the operations of the queue do when all entries are where they have to be (`Inv`): afterwards
they are again.  A fetch finds a frame of the most urgent priority of the mask that anything is
queued at (`Inv.hubTryPop`), and no assertion on the way fails.
-/

set_option autoImplicit false

namespace Emcyphal.TxQueue

open Rust

/-- What holds of the queue in every state. -/
structure Inv (r : TxQueue) : Prop extends Consistent r where
  place : ∀ a e, r.entries a = some e → e.queueMark = e.place
  buffer : ∀ a e, r.entries a = some e → ∃ n, e.buffer.Inv n

/-- Something is queued at the priority. -/
def Queued (r : TxQueue) (p : Priority) : Prop := r.queues.started p ≠ [] ∨ r.queues.finished p ≠ []

/-- The list that a fetch at the priority is from. -/
def serving (r : TxQueue) (p : Priority) : List Address :=
  if r.queues.started p = [] then r.queues.finished p else r.queues.started p

/-- The entry that a fetch is from. -/
def hubFront (r : TxQueue) (priorityMask : PrioritySet) : Option Address :=
  (firstQueueId (r.queues.startedPriorities &&& priorityMask)
    (r.queues.finishedPriorities &&& priorityMask)).bind r.queues.getFront

variable {r : TxQueue} {a : Address} {e : Entry} {p : Priority} {k : QueueType} {mask : PrioritySet}

theorem inv_new : new.Inv :=
  ⟨consistent_new, fun a e he ↦ by simp [new] at he, fun a e he ↦ by simp [new] at he⟩

/-! ## One entry is put where it has to be -/

theorem Consistent.inv_update {r' : TxQueue} (h' : r'.Consistent) (h : r.Inv) {x : Entry}
    (hbuffer : ∃ n, x.buffer.Inv n) (hentries : r'.entries =
      Function.update r.entries a (some { x with queueMark := x.place })) : r'.Inv := by
  refine ⟨h', fun b e hb ↦ ?_, fun b e hb ↦ ?_⟩
  all_goals
    rw [hentries] at hb
    by_cases hab : b = a
    · subst hab
      rw [Function.update_self] at hb
      cases hb
      first | rfl | exact hbuffer
    · rw [Function.update_of_ne hab] at hb
      first | exact h.place b e hb | exact h.buffer b e hb

theorem Inv.mark_eq (h : r.Inv) (he : r.entries a = some e) : r.mark a = e.place :=
  (mark_of_entry he).trans (h.place a e he)

/-- The entry has changed, and moves if its place has. -/
theorem Inv.refresh (h : r.Inv) {x : Entry} (hmark : x.queueMark = r.mark a)
    (hbuffer : ∃ n, x.buffer.Inv n) : ∃ r',
      (r.setEntry a x).regUpdateQueuePosition a = .ok r' ∧ r'.Inv ∧
      r'.entries = Function.update r.entries a (some { x with queueMark := x.place }) ∧
      r'.queues.getQueue =
        if r.mark a = x.place then r.queues.getQueue else Lanes.place r.queues.getQueue
          a x.place := by
  obtain ⟨r', hupdate, hr', hentries, hqueue⟩ :=
    (h.toConsistent.setEntry hmark).regUpdateQueuePosition (a := a) (e := x) (by simp)
  rw [entries_setEntry, Function.update_idem] at hentries
  rw [queues_setEntry, hmark] at hqueue
  exact ⟨r', hupdate, hr'.inv_update h hbuffer hentries, hentries, hqueue⟩

/-- The entry has changed, and is queued anew. -/
theorem Inv.requeue (h : r.Inv) {x : Entry} (hmark : x.queueMark = r.mark a)
    (hbuffer : ∃ n, x.buffer.Inv n) : ∃ r₁ r',
      (r.setEntry a x).dequeue a = .ok r₁ ∧ r₁.regUpdateQueuePosition a = .ok r' ∧ r'.Inv ∧
      r'.entries = Function.update r.entries a (some { x with queueMark := x.place }) ∧
      r'.queues.getQueue = Lanes.place r.queues.getQueue a x.place := by
  obtain ⟨r₁, hdequeue, hr₁, hentries₁, hqueue₁⟩ :=
    (h.toConsistent.setEntry hmark).dequeue (a := a) (e := x) (by simp)
  rw [entries_setEntry, Function.update_idem] at hentries₁
  rw [queues_setEntry] at hqueue₁
  obtain ⟨r', hupdate, hr', hentries, hqueue⟩ :=
    hr₁.regUpdateQueuePosition (a := a) (by rw [hentries₁, Function.update_self])
  have hplace : Entry.place { x with queueMark := none } = x.place := rfl
  rw [hentries₁, Function.update_idem] at hentries
  refine ⟨r₁, r', hdequeue, hupdate, hr'.inv_update h hbuffer hentries, hentries, ?_⟩
  rw [hqueue, hplace, hqueue₁, Lanes.place_place h.linked.nodup]
  split
  · rename_i hnone
    rw [← hnone]
  · rfl

/-- The entry is taken out, and gone. -/
theorem Inv.drop (h : r.Inv) (he : r.entries a = some e) : ∃ r', r.dequeue a = .ok r' ∧
    (r'.dropEntry a).Inv ∧ (r'.dropEntry a).entries = Function.update r.entries a none ∧
    r'.queues.getQueue = Lanes.place r.queues.getQueue a none := by
  obtain ⟨r', hdequeue, hr', hentries, hqueue⟩ := h.toConsistent.dequeue he
  have hdrop : (r'.dropEntry a).entries = Function.update r.entries a none := by
    rw [entries_dropEntry, hentries, Function.update_idem]
  have hold : ∀ b e', (r'.dropEntry a).entries b = some e' → r.entries b = some e' := by
    intro b e' hb
    rw [hdrop] at hb
    by_cases hab : b = a
    · subst hab
      simp at hb
    · rwa [Function.update_of_ne hab] at hb
  refine ⟨r', hdequeue, ⟨⟨?_, hr'.cached⟩, fun b e' hb ↦ h.place b e' (hold b e' hb),
    fun b e' hb ↦ h.buffer b e' (hold b e' hb)⟩, hdrop, hqueue⟩
  have hmark : r'.mark a = none := by
    rw [mark, hentries, Function.update_self]
    rfl
  rw [mark_dropEntry, ← hmark, Function.update_eq_self]
  exact hr'.linked

/-! ## The fetch -/

theorem Queues.Cached.started {q : Queues} (h : q.Cached) (p : Priority) :
    q.startedPriorities.contains p = true ↔ q.started p ≠ [] := by
  rw [show q.startedPriorities.contains p = !(q.started p).isEmpty from h (p, .started)]
  simp

theorem Queues.Cached.finished {q : Queues} (h : q.Cached) (p : Priority) :
    q.finishedPriorities.contains p = true ↔ q.finished p ≠ [] := by
  rw [show q.finishedPriorities.contains p = !(q.finished p).isEmpty from h (p, .finished)]
  simp

/-- Which list is found. -/
theorem Consistent.firstQueueId_cases (h : r.Consistent) (mask : PrioritySet) :
    (firstQueueId (r.queues.startedPriorities &&& mask) (r.queues.finishedPriorities &&& mask) =
    none ∧
      ∀ p, mask.contains p = true → ¬ r.Queued p) ∨
    ∃ p k, firstQueueId (r.queues.startedPriorities &&& mask)
      (r.queues.finishedPriorities &&& mask) =
        some (p, k) ∧ mask.contains p = true ∧ r.Queued p ∧
      (∀ q, mask.contains q = true → r.Queued q → p ≤ q) ∧
      k = (if r.queues.started p = [] then .finished else .started) := by
  have hcontains : ∀ p, ((r.queues.startedPriorities &&& mask) |||
      (r.queues.finishedPriorities &&& mask)).contains p = true ↔ mask.contains p = true ∧
      r.Queued p := by
    intro p
    rw [PrioritySet.contains_or, PrioritySet.contains_and, PrioritySet.contains_and,
      Bool.or_eq_true,
      Bool.and_eq_true, Bool.and_eq_true, h.cached.started, h.cached.finished, Queued]
    tauto
  rw [firstQueueId]
  cases hfirst : ((r.queues.startedPriorities &&& mask) |||
      (r.queues.finishedPriorities &&& mask)).first with
  | none =>
    refine .inl ⟨rfl, fun p hp hqueued ↦ ?_⟩
    have hnot := PrioritySet.first_eq_none_iff.mp hfirst p
    rw [(hcontains p).mpr ⟨hp, hqueued⟩] at hnot
    cases hnot
  | some p =>
    rw [PrioritySet.first_eq_some_iff] at hfirst
    obtain ⟨hp, hmin⟩ := hfirst
    obtain ⟨hmask, hqueued⟩ := (hcontains p).mp hp
    refine .inr ⟨p, _, rfl, hmask, hqueued, fun q hq hqueued' ↦ hmin q ((hcontains q).mpr ⟨hq,
      hqueued'⟩), ?_⟩
    have hstarted := h.cached.started p
    rw [PrioritySet.contains_and, hmask, Bool.and_true]
    by_cases hnil : r.queues.started p = []
    · rw [if_pos hnil, if_neg (by rw [hstarted]; exact not_not_intro hnil)]
    · rw [if_neg hnil, if_pos (hstarted.mpr hnil)]

/-- What a fetch does: a frame is taken from the front of the list that is served, and the entry
moves to where it has to be. -/
structure Popped (r : TxQueue) (p : Priority) (mtu : Mtu) (a : Address) (frame : Frame) (eot : Bool)
    (r' : TxQueue) : Prop where
  front : (r.serving p).head? = some a
  buffer : ∃ e buffer, r.entries a = some e ∧ e.buffer.popReadiness.first = some p ∧
    e.buffer.tryPop (.newEq p) mtu = .ok (some frame, buffer) ∧
    ∃ mark, r'.entries = Function.update r.entries a
      (some ⟨mark, if eot then e.started.remove p else e.started.insert p, buffer⟩)
  priority : frame.header.priority = p
  ends : isEotFrame frame = some eot
  /-- A transfer that goes on is the next one to be served. -/
  served : eot = false → (r'.queues.started p).head? = some a
  /-- Entries that are first in a list remain there. -/
  others : ∀ b id, b ≠ a → (r.queues.getQueue id).head? = some b → (r'.queues.getQueue id).head? =
    some b

theorem Inv.hubTryPop_none (h : r.Inv) (hnone : ∀ p, mask.contains p = true → ¬ r.Queued p)
    (mtu : Mtu) :
    r.hubTryPop mask mtu = .ok (none, r) := by
  rcases h.firstQueueId_cases mask with ⟨hid, -⟩ | ⟨p, k, -, hmask, hqueued, -⟩
  · rw [TxQueue.hubTryPop, hid]
    rfl
  · exact absurd hqueued (hnone p hmask)

/-- An entry that a list has in front has to be in that list. -/
theorem Inv.of_front (h : r.Inv) (hfront : (r.queues.getQueue (p, k)).head? = some a) : ∃ e n o,
    r.entries a = some e ∧ e.queueMark = some (p, k) ∧ e.place = some (p, k) ∧
    e.buffer.popReadiness.first = some p ∧ e.buffer.Inv n ∧ e.buffer.next p = some o := by
  obtain ⟨rest, hrest⟩ := List.head?_eq_some_iff.mp hfront
  have hmark : r.mark a = some (p, k) :=
    (h.linked.mem (p, k) a).mp (by rw [hrest]; exact List.mem_cons_self)
  obtain ⟨e, he, hqueueMark⟩ := Option.bind_eq_some_iff.mp hmark
  have hplace : e.place = some (p, k) := (h.place a e he).symm.trans hqueueMark
  obtain ⟨p', hfirst, hid⟩ := Option.map_eq_some_iff.mp hplace
  obtain ⟨n, hbuffer⟩ := h.buffer a e he
  cases (Prod.mk.injEq _ _ _ _).mp hid |>.1
  have hready := (PrioritySet.first_eq_some_iff.mp hfirst).1
  rw [hbuffer.popReadiness] at hready
  obtain ⟨o, ho⟩ := Option.isSome_iff_exists.mp hready
  exact ⟨e, n, o, he, hqueueMark, hplace, hfirst, hbuffer, ho⟩

theorem Entry.place_started {e : Entry} (hfirst : e.buffer.popReadiness.first = some p)
    (hstarted : e.started.contains p = true) : e.place = some (p, .started) := by
  rw [Entry.place, hfirst, Option.map_some, if_pos hstarted]

/-- The transfer was not the last thing to be said: its priority stays the most urgent one. -/
theorem first_of_others {b b' : TxBuffer} {n : ℕ} (hb : b.Inv n) (hb' : b'.Inv n)
    (hfirst : b.popReadiness.first = some p) (hnext : (b'.next p).isSome = true)
    (hothers : ∀ q, q ≠ p → b'.next q = b.next q) : b'.popReadiness.first = some p := by
  rw [PrioritySet.first_eq_some_iff] at hfirst ⊢
  refine ⟨by rw [hb'.popReadiness, hnext], fun q hq ↦ ?_⟩
  by_cases hqp : q = p
  · exact hqp.ge
  · rw [hb'.popReadiness, hothers q hqp, ← hb.popReadiness] at hq
    exact hfirst.2 q hq

/-- A fetch from the front of a list. -/
theorem Inv.hubTryPop_front (h : r.Inv) (hid : firstQueueId (r.queues.startedPriorities &&& mask)
      (r.queues.finishedPriorities &&& mask) = some (p, k))
    (hk : k = if r.queues.started p = [] then .finished else .started)
    (hfront : (r.queues.getQueue (p, k)).head? = some a) (mtu : Mtu) :
    ∃ frame eot r', r.hubTryPop mask mtu = .ok (some frame, r') ∧ r'.Inv ∧
      r.Popped p mtu a frame eot r' := by
  have hserving : r.serving p = r.queues.getQueue (p, k) := by
    rw [serving, hk]
    split <;> rfl
  obtain ⟨e, n, o, he, hqueueMark, hplace, hfirst, hbuffer, ho⟩ := h.of_front hfront
  obtain ⟨data, rest, hs⟩ := (hbuffer.ready ho).sends mtu
  obtain ⟨buffer, hpop, hbuffer', hrest, hothers⟩ := hbuffer.tryPop ho hs
  have hmark : r.mark a = some (p, k) := (mark_of_entry he).trans hqueueMark
  rw [TxQueue.hubTryPop, hid]
  dsimp only
  rw [Queues.getFront, hfront, unwrap_some, ok_bind, he, unwrap_some, ok_bind, hpop, ok_bind]
  dsimp only
  have hpriority : (o.frame p e.buffer.dataSpec data).header.priority = p := rfl
  have hlength : (o.frame p e.buffer.dataSpec data).data.bytes.length ≤ mtu.toUsize := hs.length_le
  rw [assert_pos hpriority, ok_bind, assert_pos hlength, ok_bind, hs.eot, unwrap_some, ok_bind]
  cases rest with
  | none =>
    obtain ⟨r₁, r', hdequeue, hupdate, hr', hentries, hqueue⟩ :=
      h.requeue (a := a) (x := ⟨e.queueMark, e.started.remove p, buffer⟩)
        (hqueueMark.trans hmark.symm) ⟨n, hbuffer'⟩
    refine ⟨o.frame p e.buffer.dataSpec data, true, r', ?_, hr', ⟨by rw [hserving, hfront],
      ⟨e, buffer, he, hfirst, hpop, _, hentries⟩, hpriority, hs.eot, nofun, fun b id hb hhead ↦ ?_⟩⟩
    · simp only [Option.isNone_none, ↓reduceIte]
      rw [hdequeue, ok_bind, hupdate]
      rfl
    · rw [hqueue]
      exact Lanes.head?_place hhead hb _
  | some o' =>
    obtain ⟨r', hupdate, hr', hentries, hqueue⟩ :=
      h.refresh (a := a) (x := ⟨e.queueMark, e.started.insert p, buffer⟩)
        (hqueueMark.trans hmark.symm) ⟨n, hbuffer'⟩
    have hfirst' : buffer.popReadiness.first = some p :=
      first_of_others hbuffer hbuffer' hfirst (by rw [hrest rfl]; rfl) hothers
    rw [hmark, Entry.place_started (e := ⟨e.queueMark, e.started.insert p, buffer⟩)
      hfirst' (by simp)]
      at hqueue
    refine ⟨o.frame p e.buffer.dataSpec data, false, r', ?_, hr', ⟨by rw [hserving, hfront],
      ⟨e, buffer, he, hfirst, hpop, _, hentries⟩, hpriority, hs.eot, fun _ ↦ ?_,
      fun b id hb hhead ↦ ?_⟩⟩
    · simp only [Option.isNone_some, Bool.false_eq_true, ↓reduceIte]
      rw [pure_eq_ok, ok_bind, hupdate]
      rfl
    · rw [show r'.queues.started p = r'.queues.getQueue (p, .started) from rfl, hqueue]
      split
      · rename_i hsame
        cases hsame
        exact hfront
      · -- The entry was not started, and no other one is.
        rename_i hmoved
        have hnil : r.queues.started p = [] := by
          by_contra hne
          rw [hk, if_neg hne] at hmoved
          exact hmoved rfl
        rw [Lanes.place, show r.queues.getQueue (p, .started) = [] from hnil]
        simp
    · rw [hqueue]
      split
      · exact hhead
      · exact Lanes.head?_place hhead hb _

/-- **A fetch returns a frame of the most urgent priority that is queued in the mask.** -/
theorem Inv.hubTryPop (h : r.Inv) {q : Priority} (hq : mask.contains q = true)
    (hqueued : r.Queued q) (mtu : Mtu) : ∃ p a frame eot r', r.hubTryPop mask mtu =
    .ok (some frame, r') ∧ r'.Inv ∧
      mask.contains p = true ∧ r.Queued p ∧ (∀ q, mask.contains q = true → r.Queued q → p ≤ q) ∧
      r.hubFront mask = some a ∧ r.Popped p mtu a frame eot r' := by
  rcases h.firstQueueId_cases mask with ⟨-, hnone⟩ | ⟨p, k, hid, hmask, hqueuedp, hmin, hk⟩
  · exact absurd hqueued (hnone q hq)
  obtain ⟨a, hfront⟩ : ∃ a, (r.queues.getQueue (p, k)).head? = some a := by
    refine Option.ne_none_iff_exists'.mp (mt List.head?_eq_none_iff.mp ?_)
    rw [hk]
    split
    · rename_i hnil
      exact hqueuedp.resolve_left (not_not_intro hnil)
    · assumption
  obtain ⟨frame, eot, r', hpop, hr', hpopped⟩ := h.hubTryPop_front hid hk hfront mtu
  refine ⟨p, a, frame, eot, r', hpop, hr', hmask, hqueuedp, hmin, ?_, hpopped⟩
  rw [hubFront, hid]
  exact hfront

end Emcyphal.TxQueue
