import Emcyphal.Lib.Backlog
import Emcyphal.Rx.PriorityFifo

/-!
# The transfer queue as a backlog

A `TransferQueue` is a `Backlog` of entries, bounded by the number of its buffers: each of the `N`
buffers is either free or belongs to an entry.  Allocating a buffer is `Backlog.makeRoom`, and what
is allocated is a free buffer or that of the entry that had to go.
-/

set_option autoImplicit false

namespace Emcyphal

open Rust

instance : Enumeration Priority := ⟨Priority.all, Priority.mem_all, Priority.pairwise_all⟩

namespace PriorityQueue

variable {V : Type} {N : ℕ} {q : PriorityQueue V N} {b : Backlog Priority V}

theorem contains_priorities (h : q.Represents b) (p : Priority) :
    q.priorities.contains p = true ↔ b p ≠ [] := by
  obtain ⟨lists, h⟩ := h
  exact h.ready p

theorem maxPriority_eq (h : q.Represents b) : q.maxPriority = b.largest := by
  refine Option.ext fun p ↦ ?_
  rw [maxPriority, PrioritySet.last_eq_some_iff, Backlog.largest_eq_some_iff]
  simp only [← contains_priorities h, priorities]

/-- The most urgent of the priorities that are ready and selected. -/
theorem first_eq (h : q.Represents b) (mask : PrioritySet) :
    (q.priorities &&& mask).first = b.smallest mask.contains := by
  refine Option.ext fun p ↦ ?_
  rw [PrioritySet.first_eq_some_iff, Backlog.smallest_eq_some_iff]
  simp only [PrioritySet.contains_and, Bool.and_eq_true, contains_priorities h, and_imp]
  exact and_congr and_comm ⟨fun h d hm hd ↦ h d hd hm, fun h d hd hm ↦ h d hm hd⟩

theorem pop_backlog (h : q.Represents b) {c : Priority} (hc : b c ≠ []) :
    ∃ v rest q', b c = v :: rest ∧ q.pop c = .ok (some v, q') ∧ q'.Represents (b.dropOldest c) := by
  obtain ⟨v, rest, hv⟩ := List.exists_cons_of_ne_nil hc
  obtain ⟨q', hpop, hq'⟩ := pop_represents h hv
  exact ⟨v, rest, q', hv, hpop, Backlog.dropOldest_of_cons hv ▸ hq'⟩

end PriorityQueue

namespace TransferQueue

variable {N : ℕ} {q : TransferQueue N} {b : Backlog Priority TransferEntry}

/-- The entries and the free buffers are `N` together. -/
structure Represents (q : TransferQueue N) (b : Backlog Priority TransferEntry) : Prop where
  queue : q.queue.Represents b
  total : b.entries.length + q.freeBuffers.length = N

/-- The buffers of the queue. -/
def indexes (q : TransferQueue N) (b : Backlog Priority TransferEntry) : List ℕ :=
  b.entries.map TransferEntry.bufferIdx ++ q.freeBuffers

theorem indexes_append_perm {q q' : TransferQueue N} (h : q'.freeBuffers = q.freeBuffers)
    (b : Backlog Priority TransferEntry) (priority : Priority) (entry : TransferEntry) :
    (q'.indexes (b.append priority entry)).Perm (entry.bufferIdx :: q.indexes b) := by
  rw [indexes, indexes, h]
  exact ((b.entries_append_perm priority entry).map TransferEntry.bufferIdx).append_right _

theorem new_represents {bufferIndexBase : ℕ} (hbase : bufferIndexBase + N ≤ 256)
    (hN : 9 + N ≤ 256) : ∃ q, new N bufferIndexBase = .ok (some q) ∧
      q.Represents (fun _ ↦ []) ∧ q.indexes (fun _ ↦ []) = List.range' bufferIndexBase N := by
  obtain ⟨queue, hnew, hqueue⟩ := PriorityQueue.new_represents (V := TransferEntry) hN
  have hindexes : ((List.range N).mapM fun i ↦ do
      unwrap (u8TryFrom (bufferIndexBase + (← unwrap (u8TryFrom i))))) =
        (.ok ((List.range N).map (bufferIndexBase + ·)) : Exec (List ℕ)) := by
    refine mapM_eq_ok fun i hi ↦ ?_
    have hi := List.mem_range.mp hi
    rw [u8TryFrom, if_pos (by omega), unwrap_some, ok_bind, u8TryFrom, if_pos (by omega),
      unwrap_some]
  refine ⟨⟨queue, (List.range N).map (bufferIndexBase + ·)⟩, ?_, ⟨hqueue, ?_⟩, ?_⟩
  · rw [new, if_neg (by omega), hindexes]
    simp only [ok_bind, hnew, pure_eq_ok]
  · simp
  · rw [indexes, Backlog.entries_empty, List.map_nil, List.nil_append, List.range'_eq_map_range]

/-- **A buffer is allocated as the backlog makes room**: one that is free, or the buffer of the
entry that is dropped. -/
theorem allocateBuffer_represents (h : q.Represents b) (hN : 1 ≤ N) (priority : Priority) :
    (b.makeRoom N priority = none ∧ q.allocateBuffer priority = .ok (none, q)) ∨
      ∃ idx b' q', b.makeRoom N priority = some b' ∧
        q.allocateBuffer priority = .ok (some idx, q') ∧ q'.queue.Represents b' ∧
        b'.entries.length + q'.freeBuffers.length + 1 = N ∧
        (idx :: q'.indexes b').Perm (q.indexes b) := by
  have htotal := h.total
  rw [allocateBuffer, Backlog.makeRoom]
  rcases List.eq_nil_or_concat' q.freeBuffers with hnil | ⟨freeBuffers, idx, hfree⟩
  · rw [hnil, splitLast_nil]
    rw [hnil, List.length_nil] at htotal
    obtain ⟨m, hm⟩ := Backlog.exists_largest (b := b) fun hnil ↦ by
      rw [hnil, List.length_nil] at htotal
      omega
    rw [if_neg (by omega), PriorityQueue.maxPriority_eq h.queue, hm]
    simp only [unwrap_some, ok_bind, Option.bind_some]
    split
    · obtain ⟨entry, rest, queue, hv, hpop, hqueue⟩ :=
        PriorityQueue.pop_backlog h.queue (Backlog.largest_eq_some_iff.mp hm).1
      have hperm := Backlog.entries_perm_of_cons hv
      refine .inr ⟨entry.bufferIdx, _, { q with queue := queue }, rfl, ?_, hqueue, ?_, ?_⟩
      · simp only [hpop, ok_bind, unwrap_some, pure_eq_ok, hnil]
      · have hlen := hperm.length_eq
        rw [List.length_cons] at hlen
        simp only [hnil, List.length_nil]
        omega
      · rw [indexes, indexes]
        exact ((hperm.map TransferEntry.bufferIdx).symm).append_right q.freeBuffers
    · exact .inl ⟨rfl, rfl⟩
  · rw [hfree, List.length_append, List.length_singleton] at htotal
    rw [hfree, splitLast_concat, if_pos (by omega)]
    refine .inr ⟨idx, b, { q with freeBuffers := freeBuffers }, rfl, rfl, h.queue, ?_, ?_⟩
    · simp only
      omega
    · rw [indexes, indexes, hfree, ← List.append_assoc]
      exact (List.perm_append_singleton idx _).symm

theorem push_represents (h : q.queue.Represents b)
    (htotal : b.entries.length + q.freeBuffers.length + 1 = N) (priority : Priority)
    (entry : TransferEntry) : ∃ q', q.push priority entry = .ok (some q') ∧
      q'.Represents (b.append priority entry) ∧ q'.freeBuffers = q.freeBuffers := by
  have hroom : b.entries.length < N := by omega
  obtain ⟨queue, hpush, hqueue⟩ := PriorityQueue.push_represents h hroom priority entry
  refine ⟨{ q with queue := queue }, ?_, ⟨hqueue, ?_⟩, rfl⟩
  · rw [push, hpush]
    rfl
  · rw [(b.entries_append_perm priority entry).length_eq, List.length_cons]
    simp only
    omega

theorem pop_represents (h : q.Represents b) (priorityMask : PrioritySet) :
    (b.smallest priorityMask.contains = none ∧ q.pop priorityMask = .ok (none, q)) ∨
      ∃ c entry rest q', b.smallest priorityMask.contains = some c ∧ b c = entry :: rest ∧
        q.pop priorityMask = .ok (some (c, entry), q') ∧
        q'.queue.Represents (b.dropOldest c) ∧ q'.freeBuffers = q.freeBuffers := by
  rw [pop, PriorityQueue.first_eq h.queue]
  cases hc : b.smallest priorityMask.contains with
  | none => exact .inl ⟨rfl, rfl⟩
  | some c =>
    obtain ⟨entry, rest, queue, hv, hpop, hqueue⟩ :=
      PriorityQueue.pop_backlog h.queue (Backlog.smallest_eq_some_iff.mp hc).1.2
    refine .inr ⟨c, entry, rest, { q with queue := queue }, rfl, hv, ?_, hqueue, rfl⟩
    simp only [hpop, ok_bind, unwrap_some, pure_eq_ok]

end TransferQueue

end Emcyphal
