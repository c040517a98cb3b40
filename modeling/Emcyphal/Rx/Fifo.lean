import Emcyphal.Rx.Ownership

/-!
# Runs of the priority FIFO

`step_represents` collects what one operation does, and the theorems at the end are about all runs
from a new receiver: `buffers_owned` says that no buffer is ever lost or shared, `tryPop_refines`
that the receiver is the backlog of the transfers it has completed.
-/

set_option autoImplicit false

namespace Emcyphal

open Rust

namespace RxPriorityFifoInner

open SessionTable

variable {SN TN : ℕ} {r : RxPriorityFifoInner SN TN} {capacity : ℕ} {l : List Tracked}
  {b : Backlog Priority TransferEntry}

/-- The queue after an operation. -/
def next (TN capacity : ℕ) (b : Backlog Priority Item) : Event → Backlog Priority Item
  | .pushed frame reception => accept TN b (reception.completed capacity frame)
  | .popped mask _ => (b.pop mask.contains).2
  | .polled _ _ => b

/-- The queue after a history: the transfers in the order of their completion are pushed to a
backlog of `TN` elements, and popped from it. -/
def after (TN capacity : ℕ) (events : List Event) : Backlog Priority Item :=
  events.foldl (next TN capacity) fun _ ↦ []

theorem after_concat (TN capacity : ℕ) (events : List Event) (event : Event) :
    after TN capacity (events ++ [event]) = next TN capacity (after TN capacity events) event := by
  rw [after, List.foldl_append]
  rfl

/-- What an operation does to the receiver. -/
structure Stepped (r r' : RxPriorityFifoInner SN TN) (capacity : ℕ) (event : Event)
    (l l' : List Tracked) (b b' : Backlog Priority TransferEntry) : Prop where
  represents : r'.Represents capacity l' b'
  dataSpecifier : r'.dataSpecifier = r.dataSpecifier
  timeout : r'.timeout = r.timeout
  contents : r'.contents b' = next TN capacity (r.contents b) event
  handles : HandlesEvent SN capacity r.dataSpecifier r.timeout l l' event
  answers : ∀ mask item, event = .popped mask item →
    item = ((r.contents b).pop mask.contains).1.map Prod.snd
  /-- Only a pop that returns a transfer changes what was popped before. -/
  undisturbed : (∀ mask item, event ≠ .popped mask (some item)) → r.Undisturbed r'

/-- **Every operation keeps the invariant**, and it panics only if a session is needed and there are
no slots for sessions. -/
theorem step_represents (hSN : SN ≤ IndexQueue.NO_ENTRY) (hTN : 1 ≤ TN)
    (h : r.Represents capacity l b) (op : Op)
    (hop : 1 ≤ SN ∨ ¬ op.NeedsSession r.dataSpecifier) :
    ∃ r' event l' b', r.step op = .ok (r', event) ∧ Stepped r r' capacity event l l' b b' := by
  cases op with
  | pushFrame frame =>
    obtain ⟨r', l', b', reception, hreceive, hpush, hp⟩ := pushFrame_represents hSN hTN h frame hop
    refine ⟨r', .pushed frame reception, l', b', ?_, hp.represents, hp.undisturbed.dataSpecifier,
      hp.undisturbed.timeout, hp.contents, hp.handles, by simp, fun _ ↦ hp.undisturbed⟩
    rw [step, hreceive, ok_bind, hpush]
    rfl
  | tryPop mask =>
    obtain ⟨r', b', hpop, h', hc, hspec, htimeout, hnone, -⟩ := tryPop_represents h mask
    refine ⟨r', .popped mask (((r.contents b).pop mask.contains).1.map Prod.snd), l, b',
      ?_, h', hspec, htimeout, hc, rfl, ?_, fun hevent ↦ ?_⟩
    · rw [step, hpop]
      rfl
    · rintro _ _ ⟨⟩
      rfl
    · cases hpopped : ((r.contents b).pop mask.contains).1 with
      | none => exact hnone hpopped ▸ .refl _ _
      | some p => exact absurd (by rw [hpopped]; rfl) (hevent mask p.2)
  | pollPopReadiness waker mask =>
    rw [step, pollPopReadiness]
    dsimp only
    split
    · exact ⟨r, .polled mask _, l, b, rfl, h, rfl, rfl, rfl, rfl, by simp, fun _ ↦ .refl _ _⟩
    · exact ⟨_, .polled mask none, l, b, rfl, ⟨h.shares, h.queue, h.fits⟩, rfl,
        rfl, rfl, rfl, by simp, fun _ ↦ ⟨rfl, rfl, rfl, rfl⟩⟩

theorem step_panics {r : RxPriorityFifoInner 0 TN} (h : r.Represents capacity l b) {op : Op}
    (hop : op.NeedsSession r.dataSpecifier) : ∃ e, r.step op = .error e := by
  cases op with
  | pushFrame frame =>
    rw [step, pushFrame_panics h hop]
    cases r.toSessionTable.receive frame with
    | error e => exact ⟨e, rfl⟩
    | ok reception => exact ⟨.unwrap, rfl⟩
  | tryPop mask => exact hop.elim
  | pollPopReadiness waker mask => exact hop.elim

/-- An operation that does not panic. -/
theorem stepped_of_ok (hSN : SN ≤ IndexQueue.NO_ENTRY) (hTN : 1 ≤ TN)
    (h : r.Represents capacity l b) {op : Op} {r' : RxPriorityFifoInner SN TN} {event : Event}
    (hstep : r.step op = .ok (r', event)) :
    ∃ l' b', Stepped r r' capacity event l l' b b' := by
  have hop : 1 ≤ SN ∨ ¬ op.NeedsSession r.dataSpecifier := by
    rcases Nat.eq_zero_or_pos SN with rfl | hpos
    · refine .inr fun hneeds ↦ ?_
      obtain ⟨e, he⟩ := step_panics h hneeds
      cases hstep.symm.trans he
    · exact .inl hpos
  obtain ⟨r₁, event₁, l', b', hstep', hs⟩ := step_represents hSN hTN h op hop
  cases hstep.symm.trans hstep'
  exact ⟨l', b', hs⟩

/-! ## Runs -/

/-- The invariant of a run: what is in the queue is what the history says. -/
structure Reaches (r : RxPriorityFifoInner SN TN) (capacity : ℕ) (dataSpecifier : DataSpecifier)
    (timeout : Duration) (events : List Event) (l : List Tracked)
    (b : Backlog Priority TransferEntry) : Prop where
  represents : r.Represents capacity l b
  dataSpecifier : r.dataSpecifier = dataSpecifier
  timeout : r.timeout = timeout
  contents : r.contents b = after TN capacity events

theorem Stepped.reaches {r' : RxPriorityFifoInner SN TN} {event : Event} {l' : List Tracked}
    {b' : Backlog Priority TransferEntry} (hs : Stepped r r' capacity event l l' b b')
    {dataSpecifier : DataSpecifier} {timeout : Duration} {events : List Event}
    (h : r.Reaches capacity dataSpecifier timeout events l b) :
    r'.Reaches capacity dataSpecifier timeout (events ++ [event]) l' b' :=
  ⟨hs.represents, hs.dataSpecifier.trans h.dataSpecifier, hs.timeout.trans h.timeout, by
    rw [hs.contents, h.contents, after_concat]⟩

/-- The sizes that the code accepts, and the buffers it is given. -/
structure Sized (SN TN capacity : ℕ) (buffers : List (List Byte)) : Prop where
  sessions : SN ≤ 128
  transfers : 1 ≤ TN ∧ TN ≤ 127
  length : buffers.length = SN + TN + 1
  capacity : ∀ buffer ∈ buffers, buffer.length = capacity

variable {buffers : List (List Byte)} {dataSpecifier : DataSpecifier} {timeout : Duration}

theorem Sized.le_noEntry (h : Sized SN TN capacity buffers) : SN ≤ IndexQueue.NO_ENTRY :=
  h.sessions.trans (by decide)

theorem Sized.new_reaches (h : Sized SN TN capacity buffers) (dataSpecifier : DataSpecifier)
    (timeout : Duration) : ∃ r, new SN TN dataSpecifier timeout buffers = .ok r ∧
      r.Reaches capacity dataSpecifier timeout [] [] fun _ ↦ [] := by
  obtain ⟨r, hnew, hr, hspec, htimeout⟩ :=
    new_represents h.sessions h.transfers.2 dataSpecifier timeout h.length h.capacity
  refine ⟨r, hnew, hr, hspec, htimeout, funext fun c ↦ ?_⟩
  rfl

/-- **A run completes** if no session is needed or there are slots for sessions, and only then. -/
theorem run_ok_iff (h : Sized SN TN capacity buffers)
    (hr : ∃ events l b, r.Reaches capacity dataSpecifier timeout events l b) {ops : List Op} :
    (∃ r' events, run step r ops = .ok (r', events)) ↔
      ∀ op ∈ ops, 1 ≤ SN ∨ ¬ op.NeedsSession dataSpecifier := by
  have hpreserves : Preserves step (fun op ↦ 1 ≤ SN ∨ ¬ op.NeedsSession dataSpecifier)
      fun r : RxPriorityFifoInner SN TN ↦
        ∃ events l b, r.Reaches capacity dataSpecifier timeout events l b := by
    rintro r op ⟨events, l, b, hr⟩ hop
    obtain ⟨r', event, l', b', hstep, hs⟩ :=
      step_represents h.le_noEntry h.transfers.1 hr.represents op (hr.dataSpecifier.symm ▸ hop)
    exact ⟨r', event, hstep, _, l', b', hs.reaches hr⟩
  refine Rust.run_ok_iff hpreserves ?_ hr
  rintro r op ⟨events, l, b, hr⟩ hop
  obtain ⟨hSN, hneeds⟩ := not_or.mp hop
  obtain rfl : SN = 0 := by omega
  exact step_panics hr.represents (hr.dataSpecifier.symm ▸ not_not.mp hneeds)

/-- **A run does not panic** if there are slots for sessions. -/
theorem run_ok (h : Sized SN TN capacity buffers) (hpos : 1 ≤ SN)
    (hr : r.Reaches capacity dataSpecifier timeout [] l b) (ops : List Op) :
    ∃ r' events, run step r ops = .ok (r', events) :=
  (run_ok_iff h ⟨_, l, b, hr⟩).mpr fun _ _ ↦ .inl hpos

/-- **What is reached by a run** from a new receiver. -/
theorem reaches_of_run (h : Sized SN TN capacity buffers)
    (hnew : new SN TN dataSpecifier timeout buffers = .ok r) {ops : List Op}
    {r' : RxPriorityFifoInner SN TN} {events : List Event}
    (hrun : run step r ops = .ok (r', events)) :
    ∃ l b, r'.Reaches capacity dataSpecifier timeout events l b := by
  obtain ⟨r₀, hnew', hr⟩ := h.new_reaches dataSpecifier timeout
  cases hnew.symm.trans hnew'
  have htraces : Traces step fun events (r : RxPriorityFifoInner SN TN) ↦
      ∃ l b, r.Reaches capacity dataSpecifier timeout events l b := by
    rintro events r op r' event ⟨l, b, hr⟩ hstep
    obtain ⟨l', b', hs⟩ := stepped_of_ok h.le_noEntry h.transfers.1 hr.represents hstep
    exact ⟨l', b', hs.reaches hr⟩
  exact run_of_traces htraces ⟨_, _, hr⟩ hrun

/-- Until a transfer is popped, the transfer that was popped last stays as it is. -/
theorem undisturbed_of_run (h : Sized SN TN capacity buffers) (hr : r.Represents capacity l b)
    {ops : List Op} {r' : RxPriorityFifoInner SN TN} {events : List Event}
    (hrun : run step r ops = .ok (r', events))
    (hnone : ∀ mask item, .popped mask (some item) ∉ events) : r.Undisturbed r' := by
  have htraces : Traces step fun events (r' : RxPriorityFifoInner SN TN) ↦
      (∃ l b, r'.Represents capacity l b) ∧
        ((∀ mask item, .popped mask (some item) ∉ events) → r.Undisturbed r') := by
    rintro events r₁ op r₂ event ⟨⟨l, b, hr₁⟩, hu⟩ hstep
    obtain ⟨l', b', hs⟩ := stepped_of_ok h.le_noEntry h.transfers.1 hr₁ hstep
    refine ⟨⟨l', b', hs.represents⟩, fun hnone ↦ ?_⟩
    refine (hu fun mask item hmem ↦ hnone mask item (List.mem_append_left _ hmem)).trans ?_
    exact hs.undisturbed fun mask item heq ↦ hnone mask item (by simp [heq])
  exact (run_of_traces htraces ⟨⟨l, b, hr⟩, fun _ ↦ .refl _ _⟩ hrun).2 hnone

/-- **No buffer is lost or shared.**  Whatever is received and popped, nothing panics, and every
buffer has exactly one owner: a session, the range of those not handed out yet, an entry of the
queue, the free list or the readout.  What was popped stays in the readout buffer until the next
transfer is popped. -/
theorem buffers_owned (h : Sized SN TN capacity buffers) (hpos : 1 ≤ SN)
    (dataSpecifier : DataSpecifier) (timeout : Duration) (ops : List Op) :
    ∃ r₀ r events, new SN TN dataSpecifier timeout buffers = .ok r₀ ∧
      run step r₀ ops = .ok (r, events) ∧
      (∃ l, ∃ b : Backlog Priority TransferEntry,
        Lists r.sessions l ∧ r.transfers.queue.Represents b ∧
        (l.map Tracked.bufferIdx ++ List.range' r.sessionBufferBase (SN - r.sessionBufferBase) ++
          b.entries.map TransferEntry.bufferIdx ++ r.transfers.freeBuffers ++
          [r.readoutBufferIdx]).Perm (List.range (SN + TN + 1))) ∧
      ∀ mask item r₁, r.tryPop mask = .ok (some item, r₁) → ∀ ops' r₂ events',
        run step r₁ ops' = .ok (r₂, events') → (∀ mask item, .popped mask (some item) ∉ events') →
        r₂.readoutBufferIdx = r₁.readoutBufferIdx ∧
          (r₂.buffers[r₁.readoutBufferIdx]?.getD []).take item.2.length = item.2 := by
  obtain ⟨r₀, hnew, hr₀⟩ := h.new_reaches dataSpecifier timeout
  obtain ⟨r, events, hrun⟩ := run_ok h hpos hr₀ ops
  obtain ⟨l, b, hr⟩ := reaches_of_run h hnew hrun
  refine ⟨r₀, r, events, hnew, hrun, ⟨l, b, hr.represents.shares.tracks.lists,
    hr.represents.queue.queue, ?_⟩,
    ?_⟩
  · rw [hr.represents.shares.tracks.base]
    have howners := hr.represents.shares.owners
    rw [owned, rest, TransferQueue.indexes, hr.represents.length] at howners
    simpa only [List.append_assoc] using howners
  · intro mask item r₁ hpop ops' r₂ events' hrun' hnone
    obtain ⟨r₁', b₁, hpop', h₁, -, -, -, -, hbytes⟩ := tryPop_represents hr.represents mask
    obtain ⟨hitem, rfl⟩ := Prod.mk.inj (Except.ok.inj (hpop.symm.trans hpop'))
    obtain ⟨⟨c, item'⟩, hpopped, rfl⟩ := Option.map_eq_some_iff.mp hitem.symm
    have hu := undisturbed_of_run h h₁ hrun' hnone
    exact ⟨hu.readoutBufferIdx, by rw [hu.readout]; exact hbytes c _ hpopped⟩

theorem buffers_owned_one_session :
    ∃ r₀ r events, new 1 1 (.message subject0) 2000 [[0], [0], [0]] = .ok r₀ ∧
      run step r₀ [.pushFrame (singleFrame 1), .tryPop .ALL] = .ok (r, events) ∧
      ∃ l, ∃ b : Backlog Priority TransferEntry,
        Lists r.sessions l ∧ r.transfers.queue.Represents b ∧
        (l.map Tracked.bufferIdx ++ List.range' r.sessionBufferBase (1 - r.sessionBufferBase) ++
          b.entries.map TransferEntry.bufferIdx ++ r.transfers.freeBuffers ++
          [r.readoutBufferIdx]).Perm [0, 1, 2] := by
  obtain ⟨r₀, r, events, hnew, hrun, howned, -⟩ :=
    buffers_owned (⟨by decide, by decide, rfl, by decide⟩ : Sized 1 1 1 [[0], [0], [0]]) le_rfl
      (.message subject0) 2000 [.pushFrame (singleFrame 1), .tryPop .ALL]
  exact ⟨r₀, r, events, hnew, hrun, howned⟩

/-- What a pop returns after a history. -/
def answer (TN capacity : ℕ) (events : List Event) (mask : PrioritySet) : Option Item :=
  ((after TN capacity events).pop mask.contains).1.map Prod.snd

/-- **The receiver is a bounded priority queue of the transfers it completes.**  Each pop of a
history returns what the backlog of the history before it returns, and the priorities that are ready
are those with a transfer in the backlog. -/
theorem tryPop_refines (h : Sized SN TN capacity buffers) (hpos : 1 ≤ SN)
    (dataSpecifier : DataSpecifier) (timeout : Duration) (ops : List Op) :
    ∃ r₀ r events, new SN TN dataSpecifier timeout buffers = .ok r₀ ∧
      run step r₀ ops = .ok (r, events) ∧
      Answers (answer TN capacity) events ∧
      ∀ p, r.popReadiness.contains p = true ↔ after TN capacity events p ≠ [] := by
  obtain ⟨r₀, hnew, hr₀⟩ := h.new_reaches dataSpecifier timeout
  obtain ⟨r, events, hrun⟩ := run_ok h hpos hr₀ ops
  have htraces : Traces step fun events (r : RxPriorityFifoInner SN TN) ↦
      (∃ l b, r.Reaches capacity dataSpecifier timeout events l b) ∧
        Answers (answer TN capacity) events := by
    rintro events r op r' event ⟨⟨l, b, hr⟩, hanswers⟩ hstep
    obtain ⟨l', b', hs⟩ := stepped_of_ok h.le_noEntry h.transfers.1 hr.represents hstep
    exact ⟨⟨l', b', hs.reaches hr⟩, hanswers.concat fun mask item heq ↦ by
      rw [answer, ← hr.contents, ← hs.answers mask item heq]⟩
  obtain ⟨⟨l, b, hr⟩, hanswers⟩ := run_of_traces htraces ⟨⟨_, _, hr₀⟩, answers_nil _⟩ hrun
  refine ⟨r₀, r, events, hnew, hrun, hanswers, fun p ↦ ?_⟩
  rw [popReadiness, TransferQueue.priorities, PriorityQueue.contains_priorities
    hr.represents.queue.queue, ← hr.contents, contents, Backlog.map, ne_eq, ne_eq,
    List.map_eq_nil_iff]

theorem tryPop_refines_one_session :
    ∃ r₀ r events, new 1 1 (.message subject0) 2000 [[0], [0], [0]] = .ok r₀ ∧
      run step r₀ [.pushFrame (singleFrame 1), .tryPop .ALL] = .ok (r, events) ∧
      Answers (answer 1 1) events ∧
      ∀ p, r.popReadiness.contains p = true ↔ after 1 1 events p ≠ [] :=
  tryPop_refines ⟨by decide, by decide, rfl, by decide⟩ le_rfl (.message subject0) 2000 _

end RxPriorityFifoInner

end Emcyphal
