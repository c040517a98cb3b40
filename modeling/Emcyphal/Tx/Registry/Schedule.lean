import Emcyphal.Lib.Machine
import Emcyphal.Tx.Registry.Changes

/-!
# The transmit scheduler never strands a buffer

The place of an entry in the queue is a cached summary of what its buffer reports and of what it has
sent before.  `Scheduled` is what the cache has to say, with the second part read off the record of
the run, and `Fetches` what a fetch does then.  Both hold in every state that a registry gets to.
-/

set_option autoImplicit false

namespace Emcyphal.Registry

open Rust TxQueue

/-- For each entry and priority, whether the last frame that was emitted ended a transfer. -/
def record (last : Address → Priority → Option Bool) : Op × Event → Address → Priority → Option Bool
  | (.register _ _, .registered (.ok address)) => Function.update last address fun _ ↦ none
  | (_, .popped (some (address, frame))) =>
    Function.update last address (Function.update (last address) frame.header.priority
      (isEotFrame frame))
  | _ => last

def lastEot (log : List (Op × Event)) : Address → Priority → Option Bool :=
  log.foldl record fun _ _ ↦ none

/-- The entries are where they have to be. -/
structure Scheduled (q : TxQueue) (last : Address → Priority → Option Bool) : Prop where
  /-- An entry is in a list if the list is of the most urgent priority its buffer reports, and of
  the started entries if and only if the last frame it emitted at the priority was not the end. -/
  queued : ∀ a id, a ∈ q.queues.getQueue id ↔ ∃ e, q.entries a = some e ∧
    e.buffer.popReadiness.first = some id.1 ∧ (id.2 = .started ↔ last a id.1 = some false)
  once : ∀ id, (q.queues.getQueue id).Nodup
  startedPriorities : ∀ p, q.queues.startedPriorities.contains p = true ↔ q.queues.started p ≠ []
  finishedPriorities : ∀ p, q.queues.finishedPriorities.contains p = true ↔ q.queues.finished p ≠ []

/-- A fetch finds nothing if nothing is queued at a priority in the mask.  Otherwise it returns the
frame that the entry in front of the most urgent list has at the priority; started entries come
first. -/
def Fetches (q : TxQueue) (mask : PrioritySet) (mtu : Mtu) : Prop :=
  ((∀ p, mask.contains p = true → ¬ q.Queued p) ∧ q.hubTryPop mask mtu = .ok (none, q)) ∨
  ∃ p a e frame buffer q', mask.contains p = true ∧ q.Queued p ∧
    (∀ p', mask.contains p' = true → q.Queued p' → p ≤ p') ∧
    (if q.queues.started p ≠ [] then q.queues.started p else q.queues.finished p).head? = some a ∧
    q.entries a = some e ∧ e.buffer.tryPop (.newEq p) mtu = .ok (some frame, buffer) ∧
    frame.header.priority = p ∧ q.hubTryPop mask mtu = .ok (some frame, q')

/-- The record agrees with what the entries know about themselves. -/
def Tracks (last : Address → Priority → Option Bool) (q : TxQueue) : Prop :=
  ∀ a s, q.startedOf a = some s → ∀ p, s.contains p = true ↔ last a p = some false

variable {q q' : TxQueue} {last : Address → Priority → Option Bool} {op : Op} {event : Event}

/-- A frame is recorded with its entry. -/
theorem Tracks.pop (h : Tracks last q) {p : Priority} {mtu : Mtu} {a : Address} {frame : Frame}
    {eot : Bool} (hp : q.Popped p mtu a frame eot q') : Tracks
      (Function.update last a (Function.update (last a) frame.header.priority (isEotFrame frame)))
      q' := by
  obtain ⟨e, buffer, he, -, -, mark, hentries⟩ := hp.buffer
  rw [hp.priority, hp.ends]
  intro b s hb p'
  rw [startedOf_update hentries] at hb
  by_cases hab : b = a
  · subst hab
    rw [Function.update_self] at hb ⊢
    cases hb
    have hold := h b e.started (by rw [startedOf, he]; rfl) p'
    by_cases hp' : p' = p
    · subst hp'
      rw [Function.update_self]
      cases eot <;> simp
    · rw [Function.update_of_ne hp', ← hold]
      cases eot <;> simp [Ne.symm hp']
  · rw [Function.update_of_ne hab] at hb ⊢
    exact h b s hb p'

theorem Tracks.step (h : Tracks last q) (hc : Changes q op q' event) :
    Tracks (record last (op, event)) q' := by
  cases hc with
  | @register a init q' hfree hstarted hfronts =>
    intro b s hb p
    rw [hstarted] at hb
    rw [record]
    by_cases hab : b = a
    · subst hab
      rw [Function.update_self] at hb ⊢
      cases hb
      simp
    · rw [Function.update_of_ne hab] at hb ⊢
      exact h b s hb p
  | reject => exact h
  | @unregister a q' hstarted hfronts =>
    intro b s hb
    rw [hstarted] at hb
    by_cases hab : b = a
    · subst hab
      rw [Function.update_self] at hb
      cases hb
    · rw [Function.update_of_ne hab] at hb
      exact h b s hb
  | scratchpad hstarted => exact fun b s hb ↦ h b s (hstarted ▸ hb)
  | write hstarted => exact fun b s hb ↦ h b s (hstarted ▸ hb)
  | refuse hstarted => exact fun b s hb ↦ h b s (hstarted ▸ hb)
  | push hstarted => exact fun b s hb ↦ h b s (hstarted ▸ hb)
  | pending hstarted => exact fun b s hb ↦ h b s (hstarted ▸ hb)
  | pop hpopped => exact h.pop hpopped

theorem Tracks.scheduled (h : Tracks last q) (hq : q.Inv) : Scheduled q last where
  queued a id := by
    rw [hq.linked.mem, mark, Option.bind_eq_some_iff]
    refine exists_congr fun e ↦ and_congr_right fun he ↦ ?_
    have hlast := h a e.started (by rw [startedOf, he]; rfl) id.1
    rw [hq.place a e he, Entry.place, Option.map_eq_some_iff, ← hlast]
    constructor
    · rintro ⟨p, hfirst, rfl⟩
      refine ⟨hfirst, ?_⟩
      cases e.started.contains p <;> simp
    · rintro ⟨hfirst, hid⟩
      refine ⟨id.1, hfirst, ?_⟩
      obtain ⟨p, k⟩ := id
      dsimp only at hid ⊢
      cases hcontains : e.started.contains p <;> cases k <;> simp_all
  once := hq.linked.nodup
  startedPriorities := hq.cached.started
  finishedPriorities := hq.cached.finished

theorem fetches (hq : q.Inv) (mask : PrioritySet) (mtu : Mtu) : Fetches q mask mtu := by
  by_cases hnone : ∀ p, mask.contains p = true → ¬ q.Queued p
  · exact .inl ⟨hnone, hq.hubTryPop_none hnone mtu⟩
  · push Not at hnone
    obtain ⟨p₀, hp₀, hqueued₀⟩ := hnone
    obtain ⟨p, a, frame, eot, q', hpop, -, hmask, hqueued, hmin, -, hpopped⟩ :=
      hq.hubTryPop hp₀ hqueued₀ mtu
    obtain ⟨e, buffer, he, -, htryPop, -⟩ := hpopped.buffer
    refine .inr ⟨p, a, e, frame, buffer, q', hmask, hqueued, hmin, ?_, he, htryPop,
      hpopped.priority, hpop⟩
    rw [← hpopped.front, serving]
    split <;> simp_all

/-- **The transmit scheduler never strands a buffer.** -/
theorem never_strands {r : Registry} (hr : r = .message .new ∨ r = .response .new) {ops : List Op}
    (hops : Admissible step Valid r ops) :
    ∃ r' events, run step r ops = .ok (r', events) ∧ Scheduled r'.queue (lastEot (ops.zip events)) ∧
      ∀ mask mtu, Fetches r'.queue mask mtu := by
  have hinv : r.Inv := by
    rcases hr with rfl | rfl
    · exact inv_message
    · exact inv_response
  have htracks : Tracks (fun _ _ ↦ none) r.queue := by
    intro a s hs
    rcases hr with rfl | rfl <;> cases hs
  have hstep : ∀ (last : Address → Priority → Option Bool) (s : Registry) (op : Op),
      s.Inv ∧ Tracks last s.queue → s.Valid op → ∃ s' event, s.step op = .ok (s', event) ∧
        (s'.Inv ∧ Tracks (record last (op, event)) s'.queue) := by
    rintro last s op ⟨hs, hlast⟩ hop
    obtain ⟨s', event, hstep, hs', hchanges⟩ := hs.step hop
    exact ⟨s', event, hstep, hs', hlast.step hchanges⟩
  obtain ⟨r', events, hrun, hinv', htracks'⟩ := run_of_records record hstep ⟨hinv, htracks⟩ hops
  exact ⟨r', events, hrun, htracks'.scheduled hinv'.queue, fetches hinv'.queue⟩

theorem never_strands_one_entry : ∃ r' events, run step (.message .new)
      [.register 1 (.blocking 5 .nominal [0, 0]), .getScratchpad 1, .writeScratchpad 1 [7, 8],
        .tryPush 1 ⟨.nominal, none, 0, 100, false⟩ 2 .default, .pollPop 0 (.newEq .high) .classic] =
          .ok (r', events) ∧
      ∀ mask mtu, Fetches r'.queue mask mtu := by
  obtain ⟨r', events, hrun, -, h⟩ := never_strands (.inl rfl) (by decide :
    Admissible step Valid (.message .new)
      [.register 1 (.blocking 5 .nominal [0, 0]), .getScratchpad 1, .writeScratchpad 1 [7, 8],
        .tryPush 1 ⟨.nominal, none, 0, 100, false⟩ 2 .default, .pollPop 0 (.newEq .high) .classic])
  exact ⟨r', events, hrun, h⟩

end Emcyphal.Registry
