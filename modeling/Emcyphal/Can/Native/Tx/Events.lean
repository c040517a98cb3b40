import Emcyphal.Can.Native.Tx.Bookkeeping

/-!
# The events of the transmit task

When the deadline of a frame has passed, its mailbox is cancelled and forgotten at once.  But the
mailbox may have been sent already, or may be sent before it is cancelled.  Then its event belongs
to no mailbox that is recorded, and the task panics (`event_not_recorded`).

This is the only way.  In a run in which no frame is both sent and dropped, each event belongs to a
mailbox that is recorded (`events_recorded`).
-/

set_option autoImplicit false

namespace Emcyphal.Can.Native

open Rust BitField

/-- A frame is not sent after it was dropped, and not dropped after it was sent. -/
def System.Fair (s : System) : Op → Prop
  | .expire now => ∀ p ∈ Priority.all, s.log.number p ∈ s.log.bus →
      ∀ frame ∈ s.runner.frames.values p, s.runner.loopBackPending.contains p = true ∨
        now < frame.timestamp
  | .send idx _ => ∀ entry ∈ s.log.dropped, entry.1 ≠ s.log.mailbox idx
  | _ => True

instance System.decidableFair (s : System) : (op : Op) → Decidable (s.Fair op)
  | .expire _ => inferInstanceAs (Decidable (∀ p ∈ Priority.all, _))
  | .send _ _ => inferInstanceAs (Decidable (∀ entry ∈ s.log.dropped, _))
  | .advance _ | .loopBackSent | .fetch _ | .unpended | .unpend _ => isTrue trivial

/-! ## What an event belongs to -/

/-- The mailboxes that have an event, or will have one, are recorded. -/
structure Tracked (recorded : MailboxPriorityMap) (h : Peripheral) (log : Log) : Prop where
  hasEvent : ∀ m, h.HasEvent m → ∃ p, recorded.forward m = some p
  requested : ∀ m, h.Requested m → (∃ p, recorded.forward m = some p) ∨
    ∃ now, (log.mailbox m, now) ∈ log.dropped

namespace Tracked

variable {recorded recorded' : MailboxPriorityMap} {h h' : Peripheral} {log : Log}

theorem new : Tracked .new .new ⟨[], fun _ ↦ 0, fun _ ↦ 0, [], []⟩ := by
  constructor <;> simp [Peripheral.new, Peripheral.HasEvent, Peripheral.Requested]

/-- An entry is needed only for a mailbox that has an event, or will have one. -/
theorem mono (ht : Tracked recorded h log)
    (hforward : ∀ m, h'.HasEvent m ∨ h'.Requested m → recorded'.forward m = recorded.forward m)
    (hevent : ∀ m, h'.HasEvent m → h.HasEvent m)
    (hrequested : ∀ m, h'.Requested m → h.Requested m) : Tracked recorded' h' log where
  hasEvent := fun m hm ↦ by
    rw [hforward m (.inl hm)]
    exact ht.hasEvent m (hevent m hm)
  requested := fun m hm ↦ by
    rw [hforward m (.inr hm)]
    exact ht.requested m (hrequested m hm)

theorem send {m : TxMailboxIdx} (ht : Tracked recorded h log) (hm : h.Requested m)
    (hmarker : h.marker m = m.intoU8) (hfair : ∀ entry ∈ log.dropped, entry.1 ≠ log.mailbox m)
    (timestamp : BitVec 16) :
    Tracked recorded (h.send m timestamp) { log with bus := log.bus ++ [log.mailbox m] } where
  hasEvent := fun m' hm' ↦ by
    rw [Peripheral.HasEvent, Peripheral.send, List.map_append, List.mem_append, List.map_singleton,
      List.mem_singleton, hmarker] at hm'
    rcases hm' with hm' | hm'
    · exact ht.hasEvent m' hm'
    · rw [TxMailboxIdx.intoU8_injective hm']
      refine (ht.requested m hm).resolve_right ?_
      rintro ⟨now, hmem⟩
      exact hfair _ hmem rfl
  requested := fun m' hm' ↦ by
    have hsent := hm'.2
    simp only [Peripheral.send, TxMailboxSet.contains_insert, Bool.or_eq_false_iff] at hsent
    exact ht.requested m' ⟨hm'.1, hsent.1⟩

theorem add {m : TxMailboxIdx} {p : Priority} {n : ℕ} {elem : TxBufferElement}
    (ht : Tracked recorded h log) :
    Tracked (recorded.extend m p)
      { h with
        elements := Function.update h.elements m elem
        pending := h.pending.insert m }
      { log with mailbox := Function.update log.mailbox m n } where
  hasEvent := fun m' hm' ↦ by
    rw [MailboxPriorityMap.extend_forward]
    split
    · exact ⟨p, rfl⟩
    · exact ht.hasEvent m' hm'
  requested := fun m' hm' ↦ by
    rw [MailboxPriorityMap.extend_forward]
    split
    · exact .inl ⟨p, rfl⟩
    · rename_i hne
      have hpending := hm'.1
      simp only [TxMailboxSet.contains_insert, Ne.symm hne, decide_false, Bool.or_false] at hpending
      dsimp only
      rw [Function.update_of_ne hne]
      exact ht.requested m' ⟨hpending, hm'.2⟩

/-- A frame is dropped that was not sent. -/
theorem drop {frames : PriorityMap Frame} {loopBack : PrioritySet} {p : Priority}
    (ht : Tracked recorded h log) (ho : Owns recorded frames loopBack h log)
    (hp : log.number p ∉ log.bus) (now : Instant) :
    Tracked (recorded.removeByPriority p).2 h
      { log with dropped := log.dropped ++ [(log.number p, now)] } where
  hasEvent := fun m hm ↦ by
    obtain ⟨q, hq⟩ := ht.hasEvent m hm
    refine ⟨q, ho.bijective.removeByPriority_forward.mpr ⟨hq, ?_⟩⟩
    rintro rfl
    obtain ⟨-, -, hin⟩ := ho.forward m q hq
    exact hp (hin.number ▸ (ho.hasEvent m hm).2)
  requested := fun m hm ↦ by
    rcases ht.requested m hm with ⟨q, hq⟩ | ⟨now', hmem⟩
    · by_cases heq : q = p
      · subst heq
        obtain ⟨-, -, hin⟩ := ho.forward m q hq
        exact .inr ⟨now, hin.number ▸ List.mem_append_right _ (List.mem_singleton_self _)⟩
      · exact .inl ⟨q, ho.bijective.removeByPriority_forward.mpr ⟨hq, heq⟩⟩
    · exact .inr ⟨now', List.mem_append_left _ hmem⟩

end Tracked

/-! ## Steps -/

def System.EventsTracked (s : System) : Prop := Tracked s.recorded s.peripheral s.log

theorem TxRunner.release_forward {ms : List TxMailboxIdx} {r : TxRunner} {m : TxMailboxIdx}
    (hm : m ∉ ms) : (r.release ms).pendingFrames.forward m = r.pendingFrames.forward m := by
  induction ms generalizing r with
  | nil => rfl
  | cons idx ms ih =>
    obtain ⟨hne, hm⟩ := not_or.mp (mt List.mem_cons.mpr hm)
    rw [release, ih hm]
    exact MailboxPriorityMap.removeByMailbox_forward_of_ne hne

theorem Inv.drain_tracked {s s' : System} {timestampOffset : Option (BitVec 16)} {now : Instant}
    {pendingMailboxes completedMailboxes : TxMailboxSet} (hi : Inv s) (ht : s.EventsTracked)
    (hphase : s.phase = .events pendingMailboxes completedMailboxes)
    (hs' : s.drain timestampOffset now pendingMailboxes completedMailboxes = .ok s') :
    s'.EventsTracked := by
  obtain ⟨runner, phase, h, log⟩ := s
  obtain rfl := hphase
  obtain ⟨ho, hall, hsub, hcompleted⟩ := hi
  rw [System.EventsTracked] at ht
  dsimp only [System.recorded] at *
  rw [System.drain] at hs'
  split at hs'
  · rename_i event events hevents
    obtain ⟨⟨r, idx⟩, hr, hs'⟩ := bind_eq_ok.mp hs'
    cases hs'
    obtain ⟨p, frame, hidx, hforward, hframe, hpending, -⟩ := TxRunner.complete_eq_ok hr
    obtain ⟨m, hm, hevent, hpopped, -⟩ := ho.toCarries.pop hevents
    rw [hm, TxMailboxIdx.new_intoU8] at hidx
    obtain rfl := Option.some.inj hidx
    refine ht.mono (fun m' hm' ↦ ?_) (fun m' hm' ↦ ?_) (fun m' hm' ↦ hm')
    · have hne : m' ≠ m := by
        rintro rfl
        exact hm'.elim hpopped (ho.hasEvent m' hevent).1
      rw [System.recorded]
      dsimp only
      rw [hpending]
      exact MailboxPriorityMap.removeByMailbox_forward_of_ne hne
    · rw [Peripheral.HasEvent, hevents]
      exact List.mem_cons_of_mem _ hm'
  · rename_i hevents
    cases hs'
    refine ht.mono (fun m' hm' ↦ ?_) (fun m' hm' ↦ hm') (fun m' hm' ↦ hm')
    refine TxRunner.release_forward fun hmem ↦ ?_
    rw [TxMailboxSet.mem_toList] at hmem
    rcases hm' with hm' | hm'
    · rw [Peripheral.HasEvent, hevents] at hm'
      cases hm'
    · have hin := hsub m' hm'.1
      simp [hin] at hmem

theorem System.enqueue_tracked {frameFormat : FrameFormat} {s s' : System} {sel : Selection}
    (ht : s.EventsTracked) (hphase : s.phase = .select sel .notPolled)
    (hs' : s.enqueue frameFormat sel = .ok s') : s'.EventsTracked := by
  obtain ⟨runner, phase, h, log⟩ := s
  obtain rfl := hphase
  rw [System.enqueue] at hs'
  split at hs'
  · cases hs'
    exact ht
  · split at hs'
    · obtain ⟨idx, -, hs'⟩ := bind_eq_ok.mp hs'
      cases hs'
      exact ht
    · obtain ⟨idx, -, hs'⟩ := bind_eq_ok.mp hs'
      obtain ⟨frame, -, hs'⟩ := bind_eq_ok.mp hs'
      obtain ⟨added, hadded, hs'⟩ := bind_eq_ok.mp hs'
      obtain ⟨h', hh', hs'⟩ := bind_eq_ok.mp hs'
      rw [unwrap_eq_ok] at hh'
      subst hh'
      cases hs'
      obtain ⟨-, elem, -, rfl⟩ := Peripheral.add_eq_ok hadded
      exact { (Tracked.add ht : Tracked _ { h with
        elements := Function.update h.elements idx elem
        pending := h.pending.insert idx } _) with }

theorem Inv.dropFrame_tracked {now : Instant} {p : Priority} {s s' : System} (hi : Inv s)
    (ht : s.EventsTracked) (hphase : s.phase = .start) (hp : s.log.number p ∉ s.log.bus)
    (hs' : s.dropFrame now p = .ok s') : s'.EventsTracked := by
  obtain ⟨hphase', hrunner, hperipheral, hlog⟩ := System.dropFrame_eq_ok hs'
  obtain ⟨runner, phase, h, log⟩ := s
  obtain ⟨runner', phase', h', log'⟩ := s'
  obtain rfl := hphase
  obtain rfl := hphase'
  obtain rfl := hrunner
  obtain rfl := hlog
  have hdropped := ht.drop hi.owns hp now
  dsimp only [System.recorded] at *
  rcases hperipheral with rfl | ⟨idx, rfl⟩
  · exact hdropped
  · exact { hdropped with }

/-! ## Runs -/

theorem Inv.advance_tracked {frameFormat : FrameFormat} {timestampOffset : Option (BitVec 16)}
    {now : Instant} {s s' : System} (hi : Inv s) (ht : s.EventsTracked)
    (hs' : s.advance frameFormat timestampOffset now = .ok s') : s'.EventsTracked := by
  rw [System.advance] at hs'
  split at hs'
  · rename_i hphase
    cases hs'
    obtain ⟨runner, phase, h, log⟩ := s
    obtain rfl := hphase
    exact ht
  · rename_i hphase
    exact hi.drain_tracked ht hphase hs'
  · rename_i hphase
    exact System.enqueue_tracked ht hphase hs'
  · rename_i hphase
    obtain ⟨runner, phase, h, log⟩ := s
    obtain rfl := hphase
    obtain ⟨u, -, hs'⟩ := bind_eq_ok.mp hs'
    obtain ⟨pendingFrames, hpending, hs'⟩ := bind_eq_ok.mp hs'
    obtain ⟨idx', -, hs'⟩ := bind_eq_ok.mp hs'
    rw [unwrap_eq_ok] at hpending
    obtain rfl := MailboxPriorityMap.insert_eq_some hpending
    cases hs'
    exact ht
  · cases hs'
    exact ht

theorem Inv.step_tracked {frameFormat : FrameFormat} {timestampOffset : Option (BitVec 16)}
    {s s' : System} {op : Op} {u : Unit} (hi : Inv s) (ht : s.EventsTracked) (hop : s.Valid op)
    (hfair : s.Fair op) (hs' : s.step frameFormat timestampOffset op = .ok (s', u)) :
    s'.EventsTracked := by
  have hrecorded : ∀ sel, s.phase.selection = some sel →
      Tracked s.runner.pendingFrames s.peripheral s.log := fun sel hsel ↦
    System.recorded_of_selection hsel ▸ ht
  cases op with
  | advance now =>
    obtain ⟨s'', hadvance, heq⟩ := map_eq_ok.mp hs'
    cases heq
    exact hi.advance_tracked ht hadvance
  | expire now =>
    obtain ⟨sel, hsel, -⟩ := hop
    rw [System.step, hsel] at hs'
    obtain ⟨s'', hdrop, heq⟩ := map_eq_ok.mp hs'
    cases heq
    obtain ⟨hselects, hall⟩ := hi.stage.selects hsel
    have ho := hi.owns
    rw [System.recorded_of_selection hsel] at ho
    have hi' : Inv { s with phase := .start } := ⟨ho, hall⟩
    refine (System.dropExpired_keeps (fun s' ↦ Inv s' ∧ s'.EventsTracked ∧ s'.phase = .start ∧
      s'.runner.loopBackPending = s.runner.loopBackPending ∧ s'.log.number = s.log.number ∧
      s'.log.bus = s.log.bus ∧ ∀ q frame, s'.runner.frames.values q = some frame →
        s.runner.frames.values q = some frame) ?_
      ⟨hi', hrecorded sel hsel, rfl, rfl, rfl, rfl, fun _ _ ↦ id⟩ hdrop).2.1
    rintro s₁ s₂ p frame hp ⟨hi₁, ht₁, hphase, hl, hnumber, hbus, hframes⟩ hframe hle hdrop
    have hp' := (hselects.queued_iff.mp (List.mem_filter.mp hp).2).2
    have hunsent : s₁.log.number p ∉ s₁.log.bus := by
      rw [hnumber, hbus]
      intro hcontra
      rcases hfair p (Priority.mem_all p) hcontra frame (hframes p frame hframe) with hp | hlt
      · cases hp'.symm.trans hp
      · exact hlt.not_ge hle
    obtain ⟨hphase', hrunner, -, hlog⟩ := System.dropFrame_eq_ok hdrop
    refine ⟨hi₁.dropFrame hphase (hl ▸ hp') hframe hle hdrop,
      hi₁.dropFrame_tracked ht₁ hphase hunsent hdrop, hphase'.trans hphase, ?_, ?_, ?_, ?_⟩
    · rw [hrunner]
      exact hl
    · rw [hlog]
      exact hnumber
    · rw [hlog]
      exact hbus
    · intro q frame' hq
      rw [hrunner] at hq
      refine hframes q frame' ?_
      by_cases heq : q = p
      · rw [heq, PriorityMap.remove] at hq
        dsimp only at hq
        rw [Function.update_self] at hq
        cases hq
      · rw [PriorityMap.remove] at hq
        dsimp only at hq
        rwa [Function.update_of_ne heq] at hq
  | loopBackSent =>
    obtain ⟨sel, hsel⟩ := Option.isSome_iff_exists.mp hop.1
    obtain ⟨s'', hlooped, heq⟩ := map_eq_ok.mp hs'
    cases heq
    rw [System.loopedBack] at hlooped
    split at hlooped
    · cases hlooped
      exact ht
    · obtain ⟨removed, -, hlooped⟩ := bind_eq_ok.mp hlooped
      cases hlooped
      exact hrecorded sel hsel
  | fetch frame =>
    obtain ⟨sel, hsel, -⟩ := hop
    obtain ⟨s'', hfetched, heq⟩ := map_eq_ok.mp hs'
    cases heq
    rw [System.fetched] at hfetched
    split at hfetched
    · dsimp only [PriorityMap.insert] at hfetched
      split at hfetched
      · cases hfetched
      · cases hfetched
        exact { hrecorded sel hsel with }
    · cases hfetched
      exact hrecorded sel hsel
  | unpended =>
    cases hs'
    obtain ⟨idx, hidx, -⟩ := hop
    obtain ⟨sel, hsel⟩ := Phase.selection_of_waitsFor hidx
    exact hrecorded sel hsel
  | send idx timestamp =>
    cases hs'
    exact Tracked.send ht hop (hi.owns.marker idx hop.1) hfair timestamp
  | unpend idx =>
    cases hs'
    exact Tracked.mono ht (fun _ _ ↦ rfl) (fun _ hm ↦ hm) fun _ ↦ Peripheral.requested_unpend

/-- An event of a recorded mailbox is taken without a panic. -/
theorem TxRunner.complete_of_forward {timestampOffset : Option (BitVec 16)} {now : Instant}
    {event : TxEvent} {r : TxRunner} {idx : TxMailboxIdx} {p : Priority} {frame : Frame}
    (hidx : TxMailboxIdx.new event.marker = some idx)
    (hforward : r.pendingFrames.forward idx = some p) (hframe : r.frames.values p = some frame) :
    ∃ r', r.complete timestampOffset now event = .ok (r', idx) := by
  unfold TxRunner.complete
  rw [hidx, unwrap_some, ok_bind, MailboxPriorityMap.removeByMailbox, hforward]
  dsimp only
  rw [unwrap_some, ok_bind, hframe, unwrap_some, ok_bind]
  split
  · exact ⟨_, rfl⟩
  · exact ⟨_, rfl⟩

/-- **An event belongs to a mailbox that is recorded**, in a run in which no frame is both sent and
dropped: when it is taken, its marker is a mailbox of `pending_frames`, whose priority is one of
`frames`, and nothing panics. -/
theorem events_recorded (frameFormat : FrameFormat) (timestampOffset : Option (BitVec 16))
    (ops : List Op)
    (hops : Admissible (System.step frameFormat timestampOffset)
      (fun s op ↦ s.Valid op ∧ s.Fair op) .new ops)
    {s : System} {us : List Unit}
    (hrun : run (System.step frameFormat timestampOffset) .new ops = .ok (s, us))
    {pendingMailboxes completedMailboxes : TxMailboxSet}
    (hphase : s.phase = .events pendingMailboxes completedMailboxes) {event : TxEvent}
    {events : List TxEvent} (hevents : s.peripheral.events = event :: events) (now : Instant) :
    ∃ idx p frame, TxMailboxIdx.new event.marker = some idx ∧
      s.runner.pendingFrames.forward idx = some p ∧ s.runner.frames.values p = some frame ∧
      ∃ s', s.step frameFormat timestampOffset (.advance now) = .ok (s', ()) := by
  have hkeeps : ∀ s op s' u, Inv s ∧ s.EventsTracked → s.Valid op ∧ s.Fair op →
      s.step frameFormat timestampOffset op = .ok (s', u) → Inv s' ∧ s'.EventsTracked := by
    rintro s op s' u ⟨hi, ht⟩ ⟨hop, hfair⟩ hs'
    exact ⟨hi.step hop hs', hi.step_tracked ht hop hfair hs'⟩
  obtain ⟨hi, ht⟩ := inv_of_run hkeeps ⟨inv_new, .new⟩ hops hrun
  obtain ⟨runner, phase, h, log⟩ := s
  obtain rfl := hphase
  have ho := hi.owns
  rw [System.EventsTracked] at ht
  dsimp only [System.recorded] at *
  obtain ⟨m, hm, hevent, -, -⟩ := ho.toCarries.pop hevents
  obtain ⟨p, hp⟩ := ht.hasEvent m hevent
  obtain ⟨frame, hframe⟩ := Option.isSome_iff_exists.mp (ho.forward m p hp).1
  have hidx : TxMailboxIdx.new event.marker = some m := by rw [hm, TxMailboxIdx.new_intoU8]
  obtain ⟨r', hr'⟩ := @TxRunner.complete_of_forward timestampOffset now _ _ _ _ _ hidx hp hframe
  refine ⟨m, p, frame, hidx, hp, hframe,
    ⟨r', .events pendingMailboxes (completedMailboxes.insert m), { h with events := events }, log⟩,
    ?_⟩
  rw [System.step, System.advance]
  dsimp only
  rw [System.drain, hevents]
  dsimp only
  rw [hr']
  rfl

/-- A frame is sent in time, and its event is taken. -/
theorem events_recorded_sent : ∃ s us p frame,
    run (System.step .classic none) .new
      [.advance 0, .advance 0,
        .fetch ⟨⟨.low, .message 7, some 1, none⟩, ⟨[1], by decide⟩, 50, false⟩,
        .advance 1, .advance 1, .advance 1, .advance 1, .send 0 7, .unpend 0, .unpended,
        .advance 2] = .ok (s, us) ∧
    s.runner.pendingFrames.forward 0 = some p ∧ s.runner.frames.values p = some frame ∧
    ∃ s', s.step .classic none (.advance 2) = .ok (s', ()) := by
  obtain ⟨s, us, hrun⟩ : ∃ s us, run (System.step .classic none) .new
      [.advance 0, .advance 0,
        .fetch ⟨⟨.low, .message 7, some 1, none⟩, ⟨[1], by decide⟩, 50, false⟩,
        .advance 1, .advance 1, .advance 1, .advance 1, .send 0 7, .unpend 0, .unpended,
        .advance 2] = .ok (s, us) := ⟨_, _, rfl⟩
  have hs : s.phase = .events .NONE .NONE ∧ s.peripheral.events = [⟨0, 7⟩] := by
    cases hrun
    exact ⟨rfl, rfl⟩
  obtain ⟨idx, p, frame, hidx, hp, hframe, hstep⟩ :=
    events_recorded .classic none _ (by decide +kernel) hrun hs.1 hs.2 2
  obtain rfl : 0 = idx := Option.some.inj hidx
  exact ⟨s, us, p, frame, hrun, hp, hframe, hstep⟩

/-- A mailbox is sent after its deadline, before it is cancelled. -/
theorem event_not_recorded : ∃ s us pendingMailboxes completedMailboxes event,
    Admissible (System.step .classic none) System.Valid .new
      [.advance 0, .advance 0,
        .fetch ⟨⟨.low, .message 7, some 1, none⟩, ⟨[1], by decide⟩, 50, false⟩,
        .advance 1, .advance 1, .advance 1, .advance 1, .expire 50, .send 0 7, .advance 51] ∧
    run (System.step .classic none) .new
      [.advance 0, .advance 0,
        .fetch ⟨⟨.low, .message 7, some 1, none⟩, ⟨[1], by decide⟩, 50, false⟩,
        .advance 1, .advance 1, .advance 1, .advance 1, .expire 50, .send 0 7, .advance 51] =
      .ok (s, us) ∧
    s.phase = .events pendingMailboxes completedMailboxes ∧ s.peripheral.events = [event] ∧
    TxMailboxIdx.new event.marker = some 0 ∧ s.runner.pendingFrames.forward 0 = none ∧
    s.step .classic none (.advance 51) = .error .unwrap :=
  ⟨_, _, _, _, _, by decide +kernel, rfl, rfl, rfl, rfl, rfl, rfl⟩

end Emcyphal.Can.Native
