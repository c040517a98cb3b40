import Emcyphal.Lib.Machine
import Emcyphal.Tx.Registry.Acts

/-!
# Publishers of equal priority take turns

An entry that has emitted the first frame of a transfer is behind every entry that waits at the
priority, or in the list of those that are served first, which it leaves for the end of the other
one.  So it does not get to start another transfer before one that waits (`Waits`), and only a fetch
from the waiting entry ends the wait.
-/

set_option autoImplicit false

namespace Emcyphal.Registry

open Rust TxQueue

/-- A message buffer of the priority is registered at the address. -/
def Publishes (q : TxQueue) (a : Address) (p : Priority) : Prop :=
  ∃ e ∈ q.entries a, e.buffer.priority = some p

/-- The buffer at the address has something to send. -/
def Ready (q : TxQueue) (a : Address) : Prop :=
  ∃ e ∈ q.entries a, e.buffer.popReadiness.isEmpty = false

/-- The queue is consistent, and knows which transfers were sent in part. -/
structure Sound (q : TxQueue) : Prop extends q.Inv where
  aligned : ∀ a e, q.entries a = some e → e.buffer.Aligned e.started

/-- The entry waits to start a transfer, and the other one is not in front of it. -/
def Waits (q : TxQueue) (a b : Address) (p : Priority) : Prop :=
  Lanes.Ahead (q.queues.getQueue (p, .finished)) a b

variable {q q' : TxQueue} {op : Op} {event : Event} {a b c : Address} {p : Priority} {e x : Entry}

/-! ## What a step keeps -/

/-- The entry stays, with its priority. -/
theorem Becomes.aligned (h : Becomes a op event (some e) (some x)) {n : ℕ} (hb : e.buffer.Inv n)
    (ha : e.buffer.Aligned e.started) :
    x.buffer.Aligned x.started ∧ x.buffer.priority = e.buffer.priority := by
  cases h with
  | scratchpad hget => exact ha.getScratchpad hb hget
  | write hbytes => exact ha.writeScratchpad hb (hbytes.trans hb.capacity_eq)
  | push hlength hpush =>
    obtain ⟨haligned, hpriority, -⟩ := ha.tryPush hb (hb.capacity_eq ▸ hlength) hpush
    exact ⟨haligned, hpriority⟩
  | pop hfirst hpop heot =>
    exact (ha.tryPop hb (PrioritySet.first_eq_some_iff.mp hfirst).1 hpop).2.2 _ heot

theorem Sound.acts (h : Sound q) (hq' : q'.Inv) (hacts : Acts q op q' event a) : Sound q' := by
  refine ⟨hq', fun b x hx ↦ ?_⟩
  by_cases hb : b = a
  · subst hb
    have hentry := hacts.entry
    rw [hx] at hentry
    cases he : q.entries b with
    | none =>
      rw [he] at hentry
      cases hentry with
      | register hfits hnew => exact .new hfits hnew
    | some e =>
      rw [he] at hentry
      obtain ⟨n, hinv⟩ := h.buffer b e he
      exact (hentry.aligned hinv (h.aligned b e he)).1
  · rw [hacts.others b hb] at hx
    exact h.aligned b x hx

theorem Idles.sound (hidles : Idles q q' event) (h : Sound q) (hq' : q'.Inv) : Sound q' :=
  ⟨hq', fun b x hx ↦ h.aligned b x (hidles.entries ▸ hx)⟩

theorem Publishes.acts (h : Publishes q b p) (hq : Sound q) (hacts : Acts q op q' event a)
    (hstays : op ≠ .unregister b) : Publishes q' b p := by
  obtain ⟨e, he, hp⟩ := h
  by_cases hb : b = a
  · subst hb
    have hentry := hacts.entry
    rw [he] at hentry
    obtain ⟨n, hinv⟩ := hq.buffer b e he
    cases hx : q'.entries b with
    | none =>
      rw [hx] at hentry
      cases hentry
      exact absurd rfl hstays
    | some x =>
      rw [hx] at hentry
      exact ⟨x, hx, (hentry.aligned hinv (hq.aligned b e he)).2.trans hp⟩
  · exact ⟨e, by rw [hacts.others b hb]; exact he, hp⟩

/-- What is not a fetch leaves the entry with something to send. -/
theorem Becomes.keeps (h : Becomes a op event (some e) (some x)) {n : ℕ} (hb : e.buffer.Inv n)
    (ha : e.buffer.Aligned e.started) (hnot : ∀ y, event ≠ .popped (some y)) :
    x.started = e.started ∧
      ∀ p, (e.buffer.next p).isSome = true → (x.buffer.next p).isSome = true := by
  cases h with
  | scratchpad hget =>
    obtain ⟨res, b, hget', -, hnext, -⟩ := hb.getScratchpad
    cases hget.symm.trans hget'
    exact ⟨rfl, fun p hp ↦ by rwa [hnext]⟩
  | write hbytes =>
    have hnext := (hb.writeScratchpad (hbytes.trans hb.capacity_eq)).2
    exact ⟨rfl, fun p hp ↦ by rwa [hnext]⟩
  | push hlength hpush =>
    obtain ⟨-, -, hsome⟩ := ha.tryPush hb (hb.capacity_eq ▸ hlength) hpush
    exact ⟨rfl, hsome⟩
  | pop hfirst hpop heot => exact absurd rfl (hnot _)

theorem Idles.publishes (hidles : Idles q q' event) (h : Publishes q b p) : Publishes q' b p := by
  rwa [Publishes, hidles.entries]

/-! ## Where an entry of the priority is -/

theorem place_of_next {n : ℕ} (hb : e.buffer.Inv n) (hp : e.buffer.priority = some p)
    (hnext : (e.buffer.next p).isSome = true) :
    e.place = some (p, if e.started.contains p then .started else .finished) := by
  have hfirst : e.buffer.popReadiness.first = some p := by
    rw [PrioritySet.first_eq_some_iff, hb.popReadiness]
    refine ⟨hnext, fun q hq ↦ ?_⟩
    rw [hb.popReadiness] at hq
    obtain ⟨o, ho⟩ := Option.isSome_iff_exists.mp hq
    exact (TxBuffer.priority_of_next hp ho).ge
  rw [Entry.place, hfirst]
  rfl

/-- An entry that is ready is in a list of its priority. -/
theorem place_of_ready {n : ℕ} (hb : e.buffer.Inv n) (hp : e.buffer.priority = some p)
    (hready : e.buffer.popReadiness.isEmpty = false) :
    e.place = some (p, if e.started.contains p then .started else .finished) := by
  rw [← Bool.not_eq_true, PrioritySet.isEmpty_iff] at hready
  push Not at hready
  obtain ⟨q, hq⟩ := hready
  rw [Bool.ne_false_iff, hb.popReadiness] at hq
  obtain ⟨o, ho⟩ := Option.isSome_iff_exists.mp hq
  refine place_of_next hb hp ?_
  rw [← TxBuffer.priority_of_next hp ho, ho]
  rfl

theorem Entry.of_place {e : Entry} {k : QueueType} (hplace : e.place = some (p, k)) :
    e.buffer.popReadiness.first = some p ∧ (k = .started ↔ e.started.contains p = true) := by
  obtain ⟨q, hfirst, hid⟩ := Option.map_eq_some_iff.mp hplace
  obtain ⟨rfl, rfl⟩ := (Prod.mk.injEq _ _ _ _).mp hid
  refine ⟨hfirst, ?_⟩
  cases e.started.contains q <;> simp

/-- The entry that a list has is of the list. -/
theorem Sound.of_mem (h : Sound q) {k : QueueType} (ha : a ∈ q.queues.getQueue (p, k)) :
    ∃ e n, q.entries a = some e ∧ e.buffer.Inv n ∧ e.buffer.Aligned e.started ∧
      e.buffer.popReadiness.first = some p ∧ (k = .started ↔ e.started.contains p = true) := by
  obtain ⟨e, he, hmark⟩ := Option.bind_eq_some_iff.mp ((h.linked.mem (p, k) a).mp ha)
  obtain ⟨n, hb⟩ := h.buffer a e he
  obtain ⟨hfirst, hk⟩ := Entry.of_place ((h.place a e he).symm.trans hmark)
  exact ⟨e, n, he, hb, h.aligned a e he, hfirst, hk⟩

/-- The entry that a frame is from. -/
theorem Becomes.of_popped {e₀ x₀ : Option Entry} {frame : Frame}
    (h : Becomes c op (.popped (some (a, frame))) e₀ x₀) :
    c = a ∧ ∃ e x p mtu eot, e₀ = some e ∧ x₀ = some x ∧ e.buffer.popReadiness.first = some p ∧
      e.buffer.tryPop (.newEq p) mtu = .ok (some frame, x.buffer) ∧
      isEotFrame frame = some eot ∧
      x.started = if eot then e.started.remove p else e.started.insert p := by
  cases h with
  | pop hfirst hpop heot => exact ⟨rfl, _, _, _, _, _, rfl, rfl, hfirst, hpop, heot, rfl⟩

/-- **An entry that starts a transfer was in front of those that wait**, with no other transfer
under way. -/
theorem front_of_sot (h : Sound q) {waker : Waker} {mask : PrioritySet} {mtu : Mtu} {frame : Frame}
    (hp : Publishes q a p)
    (hacts : Acts q (.pollPop waker mask mtu) q' (.popped (some (a, frame))) c)
    (hsot : isSotFrame frame = some true) : c = a ∧ q.queues.started p = [] ∧
      (q.queues.getQueue (p, .finished)).head? = some a := by
  obtain ⟨e, he, hpriority⟩ := hp
  obtain ⟨n, hb⟩ := h.buffer a e he
  have hfront := hacts.front frame
  obtain ⟨rfl, e', x, p', mtu, eot, he', -, hfirst, hpop, -, -⟩ := hacts.entry.of_popped
  cases he.symm.trans he'
  obtain rfl : p' = p := by
    have hready := (PrioritySet.first_eq_some_iff.mp hfirst).1
    rw [hb.popReadiness] at hready
    obtain ⟨o, ho⟩ := Option.isSome_iff_exists.mp hready
    exact TxBuffer.priority_of_next hpriority ho
  obtain ⟨hheader, hsot', -⟩ :=
    (h.aligned c e he).tryPop hb (PrioritySet.first_eq_some_iff.mp hfirst).1 hpop
  have hnot : e.started.contains p' = false := by
    rw [hsot'] at hsot
    simpa using hsot
  obtain ⟨hhead, -⟩ := hfront rfl
  rw [hheader, serving] at hhead
  have hnil : q.queues.started p' = [] := by
    by_contra hne
    rw [if_neg hne] at hhead
    obtain ⟨e', -, he', -, -, -, hk⟩ :=
      h.of_mem (p := p') (k := .started) (List.mem_of_head? hhead)
    cases he.symm.trans he'
    rw [hk.mp rfl] at hnot
    cases hnot
  rw [if_pos hnil] at hhead
  exact ⟨rfl, hnil, hhead⟩

/-! ## Waiting -/

theorem Waits.place (h : Waits q a b p) (hq : Sound q) (hp : Publishes q a p) :
    ∃ e n, q.entries a = some e ∧ e.buffer.Inv n ∧ e.buffer.Aligned e.started ∧
      e.buffer.priority = some p ∧ e.buffer.popReadiness.first = some p ∧
      e.started.contains p = false := by
  obtain ⟨e, n, he, hb, haligned, hfirst, hk⟩ := hq.of_mem h.mem
  obtain ⟨e', he', hpriority⟩ := hp
  cases he.symm.trans he'
  refine ⟨e, n, he, hb, haligned, hpriority, hfirst, ?_⟩
  rw [← Bool.not_eq_true, ← hk]
  exact QueueType.noConfusion

/-- **An entry waits until it emits the first frame of a transfer.** -/
theorem Waits.acts (h : Waits q a b p) (hq : Sound q) (hq' : q'.Inv) (hp : Publishes q a p)
    (hacts : Acts q op q' event c) (hstays : op ≠ .unregister a) :
    Waits q' a b p ∨ ∃ frame, event = .popped (some (a, frame)) ∧ isSotFrame frame = some true := by
  by_cases hc : c = a
  · subst hc
    obtain ⟨e, n, he, hb, haligned, hpriority, hfirst, hnot⟩ := h.place hq hp
    have hready := (PrioritySet.first_eq_some_iff.mp hfirst).1
    have hentry := hacts.entry
    rw [he] at hentry
    by_cases hpopped : ∃ frame, event = .popped (some (c, frame))
    · obtain ⟨frame, rfl⟩ := hpopped
      obtain ⟨-, e', x, p', mtu, eot, he', -, hfirst', hpop, -, -⟩ := hentry.of_popped
      cases he'
      cases hfirst.symm.trans hfirst'
      obtain ⟨-, hsot, -⟩ := haligned.tryPop hb hready hpop
      rw [hnot] at hsot
      exact .inr ⟨frame, rfl, hsot⟩
    · -- The entry is as ready as before, so that it does not move.
      refine .inl ?_
      have hnone : ∀ y, event ≠ .popped (some y) := by
        rintro ⟨d, frame⟩ rfl
        obtain ⟨rfl, -⟩ := hentry.of_popped
        exact hpopped ⟨frame, rfl⟩
      cases hx : q'.entries c with
      | none =>
        rw [hx] at hentry
        cases hentry
        exact absurd rfl hstays
      | some x =>
        rw [hx] at hentry
        obtain ⟨hstarted, hkeeps⟩ := hentry.keeps hb haligned hnone
        obtain ⟨-, hpriority'⟩ := hentry.aligned hb haligned
        obtain ⟨n', hb'⟩ := hq'.buffer c x hx
        rw [hb.popReadiness] at hready
        have hplace := place_of_next hb' (hpriority'.trans hpriority) (hkeeps p hready)
        have hmark : q'.mark c = q.mark c := by
          rw [hq'.mark_eq hx, hplace, (hq.linked.mem _ c).mp h.mem, hstarted, hnot]
          rfl
        rw [Waits, hacts.stays hnone hmark]
        exact h
  · refine .inl ?_
    rw [Waits]
    rcases hacts.lanes with hsame | hmoved
    · rw [hsame]
      exact h
    · rw [hmoved]
      exact Lanes.Ahead.place h hc _

/-- An entry that starts a transfer is behind those that are ready by then. -/
theorem waits_of_sot (hq : Sound q) (hq' : q'.Inv) {waker : Waker} {mask : PrioritySet} {mtu : Mtu}
    {frame : Frame} (ha : Publishes q a p) (hb : Publishes q b p) (hne : b ≠ a)
    (hacts : Acts q (.pollPop waker mask mtu) q' (.popped (some (a, frame))) c)
    (hsot : isSotFrame frame = some true) (hready : Ready q' b) : Waits q' b a p := by
  obtain ⟨rfl, hnil, hfront⟩ := front_of_sot hq ha hacts hsot
  -- The other entry waited already.
  have hmem : b ∈ q.queues.getQueue (p, .finished) := by
    obtain ⟨e, he, hpriority⟩ := hb
    obtain ⟨e', he', hready⟩ := hready
    rw [hacts.others b hne] at he'
    cases he.symm.trans he'
    obtain ⟨n, hinv⟩ := hq.buffer b e he
    have hplace := place_of_ready hinv hpriority hready
    rw [hq.linked.mem, hq.mark_eq he, hplace]
    split
    · rename_i hstarted
      rw [if_pos hstarted, ← hq.mark_eq he, ← hq.linked.mem] at hplace
      have hin : b ∈ q.queues.started p := hplace
      rw [hnil] at hin
      cases hin
    · rfl
  have hmoved : ∀ m, q'.queues.getQueue = Lanes.place q.queues.getQueue c m → Waits q' b c p := by
    intro m hlanes
    rw [Waits, hlanes]
    exact Lanes.ahead_place (hq.linked.nodup _) hmem hne m
  obtain ⟨e, n, he, hinv, haligned, hfirst, -⟩ := hq.of_mem (List.mem_of_head? hfront)
  obtain ⟨-, e', x, p', mtu', eot, he', hx, hfirst', -, heot, hstarted⟩ := hacts.entry.of_popped
  cases he.symm.trans he'
  cases hfirst.symm.trans hfirst'
  cases eot with
  | true => exact hmoved _ ((hacts.front frame rfl).2 heot)
  | false =>
    rcases hacts.lanes with hsame | hlanes
    · -- The entry would still wait, but it has a transfer under way.
      have hstill : c ∈ q'.queues.getQueue (p, .finished) := by
        rw [hsame]
        exact List.mem_of_head? hfront
      obtain ⟨x', hx', hmark⟩ := Option.bind_eq_some_iff.mp ((hq'.linked.mem _ c).mp hstill)
      cases hx.symm.trans hx'
      obtain ⟨-, hk⟩ := Entry.of_place ((hq'.place c x hx).symm.trans hmark)
      rw [hstarted] at hk
      simp at hk
    · exact hmoved _ hlanes

/-! ## Runs -/

theorem sound_new : Sound .new := ⟨inv_new, fun a e he ↦ by cases he⟩

variable {r r' : Registry}

theorem Inv.sound (h : r.Inv) (hq : Sound r.queue) (hop : r.Valid op)
    (hstep : r.step op = .ok (r', event)) : r'.Inv ∧ Sound r'.queue := by
  obtain ⟨s, event', hstep', hs, -⟩ := h.step hop
  cases hstep.symm.trans hstep'
  rcases h.acts hop hstep with hidles | ⟨c, hacts⟩
  · exact ⟨hs, hidles.sound hq hs.queue⟩
  · exact ⟨hs, hq.acts hs.queue hacts⟩

/-- The entry still waits after a run, or it has started a transfer in between. -/
theorem waits_of_run (hr : r.Inv) (hq : Sound r.queue) (ha : Publishes r.queue a p)
    (hb : Publishes r.queue b p) (hwaits : Waits r.queue b a p) {ops : List Op}
    {events : List Event} (hops : Admissible step Valid r ops)
    (hrun : run step r ops = .ok (r', events))
    (hstays : ∀ op ∈ ops, op ≠ .unregister a ∧ op ≠ .unregister b) :
    (∃ frame, .popped (some (b, frame)) ∈ events ∧ isSotFrame frame = some true) ∨
      r'.Inv ∧ Sound r'.queue ∧ Publishes r'.queue a p ∧ Waits r'.queue b a p := by
  induction ops generalizing r events with
  | nil =>
    cases hrun
    exact .inr ⟨hr, hq, ha, hwaits⟩
  | cons op ops ih =>
    obtain ⟨hop, hrest⟩ := hops
    obtain ⟨s, event, events', hstep, hrun', rfl⟩ := run_cons_eq_ok.mp hrun
    rw [hstep] at hrest
    obtain ⟨hs, hs'⟩ := hr.sound hq hop hstep
    obtain ⟨hstaysa, hstaysb⟩ := hstays op List.mem_cons_self
    obtain ⟨ha', hb', hnext⟩ : Publishes s.queue a p ∧ Publishes s.queue b p ∧
        (Waits s.queue b a p ∨
          ∃ frame, event = .popped (some (b, frame)) ∧ isSotFrame frame = some true) := by
      rcases hr.acts hop hstep with hidles | ⟨c, hacts⟩
      · refine ⟨hidles.publishes ha, hidles.publishes hb, .inl ?_⟩
        rwa [Waits, hidles.queues]
      · exact ⟨ha.acts hq hacts hstaysa, hb.acts hq hacts hstaysb,
          hwaits.acts hq hs.queue hb hacts hstaysb⟩
    rcases hnext with hwaits' | ⟨frame, rfl, hsot⟩
    · rcases ih hs hs' ha' hb' hwaits' hrest hrun'
        (fun op hop ↦ hstays op (List.mem_cons_of_mem _ hop)) with ⟨frame, hmem, hsot⟩ | hend
      · exact .inl ⟨frame, List.mem_cons_of_mem _ hmem, hsot⟩
      · exact .inr hend
    · exact .inl ⟨frame, List.mem_cons_self, hsot⟩

/-- **Publishers of equal priority share the bus fairly**: between two first frames of an entry
there is one of every other entry of the priority that is ready.  (An entry that is ready stays so
until a frame is fetched from it.) -/
theorem fair {before between : List Op} {r₁ r₂ r₃ r₄ : Registry} {events₁ events₃ : List Event}
    (hbefore : Admissible step Valid (.message .new) before)
    (hrun₁ : run step (.message .new) before = .ok (r₁, events₁))
    {waker waker' : Waker} {mask mask' : PrioritySet} {mtu mtu' : Mtu} {frame frame' : Frame}
    (ha : Publishes r₁.queue a p) (hb : Publishes r₁.queue b p) (hne : b ≠ a)
    (hfirst : r₁.step (.pollPop waker mask mtu) = .ok (r₂, .popped (some (a, frame))))
    (hsot : isSotFrame frame = some true) (hready : Ready r₂.queue b)
    (hbetween : Admissible step Valid r₂ between) (hrun₃ : run step r₂ between = .ok (r₃, events₃))
    (hstays : ∀ op ∈ between, op ≠ .unregister a ∧ op ≠ .unregister b)
    (hsecond : r₃.step (.pollPop waker' mask' mtu') = .ok (r₄, .popped (some (a, frame'))))
    (hsot' : isSotFrame frame' = some true) :
    ∃ frame'', .popped (some (b, frame'')) ∈ events₃ ∧ isSotFrame frame'' = some true := by
  obtain ⟨h₁, hs₁⟩ : r₁.Inv ∧ Sound r₁.queue :=
    @inv_of_run _ _ _ _ _ (fun r ↦ r.Inv ∧ Sound r.queue)
      (fun s op s' event hs hop hstep ↦ hs.1.sound hs.2 hop hstep) _ _ ⟨inv_message, sound_new⟩
      _ hbefore _ hrun₁
  have hvalid₁ : r₁.Valid (.pollPop waker mask mtu) := trivial
  have hvalid₃ : r₃.Valid (.pollPop waker' mask' mtu') := trivial
  obtain ⟨h₂, hs₂⟩ := h₁.sound hs₁ hvalid₁ hfirst
  rcases h₁.acts hvalid₁ hfirst with hidles | ⟨c, hacts⟩
  · exact absurd rfl (hidles.none_popped (a, frame))
  have hwaits := waits_of_sot hs₁ h₂.queue ha hb hne hacts hsot hready
  have ha₂ := ha.acts hs₁ hacts Op.noConfusion
  have hb₂ := hb.acts hs₁ hacts Op.noConfusion
  rcases waits_of_run h₂ hs₂ ha₂ hb₂ hwaits hbetween hrun₃ hstays with
    hemitted | ⟨h₃, hs₃, ha₃, hwaits₃⟩
  · exact hemitted
  · -- The second frame would be from the entry in front of those that wait.
    rcases h₃.acts hvalid₃ hsecond with hidles | ⟨c', hacts'⟩
    · exact absurd rfl (hidles.none_popped (a, frame'))
    · obtain ⟨-, -, hfront⟩ := front_of_sot hs₃ ha₃ hacts' hsot'
      exact absurd hfront (hwaits₃.head?_ne hne)

theorem fair_two_entries : ∃ r₁ r₂ r₃ r₄ events₁ events₃ frame frame',
    run step (.message .new) [.register 1 (.signal 5 .nominal [[0], [0]]),
        .register 2 (.blocking 6 .nominal (List.replicate 16 0)), .getScratchpad 1,
        .tryPush 1 ⟨.nominal, none, 0, 100, false⟩ 1 .default, .getScratchpad 2,
        .tryPush 2 ⟨.nominal, none, 0, 100, false⟩ 16 .default] = .ok (r₁, events₁) ∧
    r₁.step (.pollPop 0 .ALL .classic) = .ok (r₂, .popped (some (1, frame))) ∧
    run step r₂ [.getScratchpad 1, .tryPush 1 ⟨.nominal, none, 1, 100, false⟩ 1 .default,
      .pollPop 0 .ALL .classic, .pollPop 0 .ALL .classic, .pollPop 0 .ALL .classic] =
        .ok (r₃, events₃) ∧
    r₃.step (.pollPop 0 .ALL .classic) = .ok (r₄, .popped (some (1, frame'))) ∧
    ∃ frame'', .popped (some (2, frame'')) ∈ events₃ ∧ isSotFrame frame'' = some true := by
  refine ⟨_, _, _, _, _, _, _, _, rfl, rfl, rfl, rfl, ?_⟩
  exact @fair 1 2 .nominal [.register 1 (.signal 5 .nominal [[0], [0]]),
      .register 2 (.blocking 6 .nominal (List.replicate 16 0)), .getScratchpad 1,
      .tryPush 1 ⟨.nominal, none, 0, 100, false⟩ 1 .default, .getScratchpad 2,
      .tryPush 2 ⟨.nominal, none, 0, 100, false⟩ 16 .default]
    [.getScratchpad 1, .tryPush 1 ⟨.nominal, none, 1, 100, false⟩ 1 .default,
      .pollPop 0 .ALL .classic, .pollPop 0 .ALL .classic, .pollPop 0 .ALL .classic] _ _ _ _ _ _
    (by decide) rfl 0 0 .ALL .ALL .classic .classic _ _ ⟨_, rfl, rfl⟩ ⟨_, rfl, rfl⟩ (by decide) rfl
    (by decide) ⟨_, rfl, by decide⟩ (by decide) rfl (by decide) rfl (by decide)

end Emcyphal.Registry
