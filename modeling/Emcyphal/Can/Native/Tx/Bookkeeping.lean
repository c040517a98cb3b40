import Emcyphal.Can.Native.Tx.Ownership

/-!
# The bookkeeping of the transmit task

`Stage` is what the runner knows of the mailboxes at each place of its loop.  A mailbox that was not
pending when the loop began is not pending until a frame is added, and an event of a mailbox is
there before the mailbox stops pending.  So once the FIFO is empty, a mailbox that was not pending
has no event, and its frame was not sent (`Owns.release`).

With this the runner never sends a frame twice (`sends_at_most_once`).
-/

set_option autoImplicit false

namespace Emcyphal.Can.Native

open Rust BitField

/-! ## Stages -/

/-- A mailbox that has nothing to do with a frame any more. -/
structure Free (pendingFrames : MailboxPriorityMap) (h : Peripheral) (m : TxMailboxIdx) : Prop where
  forward : pendingFrames.forward m = none
  hasEvent : ¬ h.HasEvent m
  requested : ¬ h.Requested m

/-- What an iteration has found out is still so. -/
structure Selects (sel : Selection) (frames : PriorityMap Frame) (loopBack : PrioritySet) :
    Prop where
  free : sel.freeMailboxes ≠ .NONE
  occupied : sel.occupiedPriorities = frames.keys
  queued : sel.queuedPriorities = frames.keys &&& ~~~loopBack

/-- What is queued is held, and is not to be looped back. -/
theorem Selects.queued_iff {sel : Selection} {frames : PriorityMap Frame} {loopBack : PrioritySet}
    (hs : Selects sel frames loopBack) {p : Priority} :
    sel.queuedPriorities.contains p = true ↔
      frames.keys.contains p = true ∧ loopBack.contains p = false := by
  rw [hs.queued, PrioritySet.contains_and, PrioritySet.contains_not, Bool.and_eq_true,
    Bool.not_eq_true']

/-- What the runner knows of the mailboxes. -/
def Stage (pendingFrames : MailboxPriorityMap) (frames : PriorityMap Frame) (loopBack : PrioritySet)
    (h : Peripheral) : Phase → Prop
  | .start => h.pending ≠ .ALL
  | .events pendingMailboxes completedMailboxes => pendingMailboxes ≠ .ALL ∧
      (∀ m, h.pending.contains m = true → pendingMailboxes.contains m = true) ∧
      ∀ m, completedMailboxes.contains m = true → Free pendingFrames h m
  | .select sel .notPolled => Selects sel frames loopBack ∧ h.pending ≠ .ALL ∧
      ∀ m, sel.freeMailboxes.contains m = true → Free pendingFrames h m
  | .select sel (.added idx _) => Selects sel frames loopBack ∧ pendingFrames.Bijective ∧
      pendingFrames.forward idx = none
  | .select sel (.waiting _) => Selects sel frames loopBack ∧ h.pending ≠ .ALL

namespace Stage

variable {pendingFrames : MailboxPriorityMap} {frames : PriorityMap Frame} {loopBack : PrioritySet}
  {h h' : Peripheral} {phase : Phase}

/-- The peripheral does not take away what the runner knows. -/
theorem mono (hs : Stage pendingFrames frames loopBack h phase)
    (hpending : ∀ m, h'.pending.contains m = true → h.pending.contains m = true)
    (hfree : ∀ m, Free pendingFrames h m → Free pendingFrames h' m) :
    Stage pendingFrames frames loopBack h' phase := by
  have hne : h.pending ≠ .ALL → h'.pending ≠ .ALL := by
    intro hall
    obtain ⟨m, hm⟩ := TxMailboxSet.ne_ALL_iff.mp hall
    refine TxMailboxSet.ne_ALL_iff.mpr ⟨m, Bool.eq_false_iff.mpr fun hm' ↦ ?_⟩
    rw [hpending m hm'] at hm
    cases hm
  match phase, hs with
  | .start, hs => exact hne hs
  | .events _ _, ⟨hall, hsub, hcompleted⟩ =>
    exact ⟨hall, fun m hm ↦ hsub m (hpending m hm), fun m hm ↦ hfree m (hcompleted m hm)⟩
  | .select _ .notPolled, ⟨hsel, hall, hmailboxes⟩ =>
    exact ⟨hsel, hne hall, fun m hm ↦ hfree m (hmailboxes m hm)⟩
  | .select _ (.added _ _), hs => exact hs
  | .select _ (.waiting _), ⟨hsel, hall⟩ => exact ⟨hsel, hne hall⟩

theorem selects {sel : Selection} (hs : Stage pendingFrames frames loopBack h phase)
    (hphase : phase.selection = some sel) :
    Selects sel frames loopBack ∧ h.pending ≠ .ALL := by
  match phase, hphase with
  | .select _ .notPolled, rfl => exact ⟨hs.1, hs.2.1⟩
  | .select _ (.waiting _), rfl => exact hs

end Stage

namespace System

/-- The mailboxes that are recorded, or are about to be. -/
def recorded (s : System) : MailboxPriorityMap :=
  match s.phase with
  | .select _ (.added idx priority) => s.runner.pendingFrames.extend idx priority
  | _ => s.runner.pendingFrames

theorem recorded_of_selection {s : System} {sel : Selection}
    (h : s.phase.selection = some sel) : s.recorded = s.runner.pendingFrames := by
  obtain ⟨runner, phase, peripheral, log⟩ := s
  match phase, h with
  | .select _ .notPolled, _ => rfl
  | .select _ (.waiting _), _ => rfl

end System

theorem Phase.selection_of_waitsFor {phase : Phase} {idx : TxMailboxIdx}
    (h : phase.waitsFor = some idx) : ∃ sel, phase.selection = some sel :=
  match phase, h with
  | .select sel (.waiting _), _ => ⟨sel, rfl⟩

structure Inv (s : System) : Prop where
  owns : Owns s.recorded s.runner.frames s.runner.loopBackPending s.peripheral s.log
  stage : Stage s.runner.pendingFrames s.runner.frames s.runner.loopBackPending s.peripheral s.phase

theorem inv_new : Inv .new where
  owns := .new
  stage := by
    show TxMailboxSet.NONE ≠ .ALL
    decide

/-! ## Events -/

/-- What an event does to the variables. -/
theorem TxRunner.complete_eq_ok {timestampOffset : Option (BitVec 16)} {now : Instant}
    {event : TxEvent} {r r' : TxRunner} {idx : TxMailboxIdx}
    (h : r.complete timestampOffset now event = .ok (r', idx)) :
    ∃ p frame, TxMailboxIdx.new event.marker = some idx ∧
      r.pendingFrames.forward idx = some p ∧ r.frames.values p = some frame ∧
      r'.pendingFrames = (r.pendingFrames.removeByMailbox idx).2 ∧
      ((∃ frame', r'.frames = r.frames.assign p frame') ∧
          r'.loopBackPending = r.loopBackPending.insert p ∨
        r'.frames = (r.frames.remove p).2 ∧ r'.loopBackPending = r.loopBackPending) := by
  unfold TxRunner.complete at h
  obtain ⟨idx', hidx, h⟩ := bind_eq_ok.mp h
  obtain ⟨p, hp, h⟩ := bind_eq_ok.mp h
  obtain ⟨frame, hframe, h⟩ := bind_eq_ok.mp h
  rw [unwrap_eq_ok] at hidx hp hframe
  have hforward : r.pendingFrames.forward idx' = some p := by
    split at hp
    · cases hp
    · rename_i hentry
      rwa [hentry]
  split at h
  · cases h
    exact ⟨p, frame, hidx, hforward, hframe, rfl, .inl ⟨⟨_, rfl⟩, rfl⟩⟩
  · cases h
    exact ⟨p, frame, hidx, hforward, hframe, rfl, .inr ⟨rfl, rfl⟩⟩

theorem Inv.popEvent {s : System} {timestampOffset : Option (BitVec 16)} {now : Instant}
    {event : TxEvent} {events : List TxEvent} {r : TxRunner} {idx : TxMailboxIdx}
    {pendingMailboxes completedMailboxes : TxMailboxSet} (hi : Inv s)
    (hphase : s.phase = .events pendingMailboxes completedMailboxes)
    (hevents : s.peripheral.events = event :: events)
    (hr : s.runner.complete timestampOffset now event = .ok (r, idx)) :
    Inv { s with
      runner := r
      phase := .events pendingMailboxes (completedMailboxes.insert idx)
      peripheral := { s.peripheral with events := events } } := by
  obtain ⟨p, frame, hidx, hforward, hframe, hpending, hcases⟩ := TxRunner.complete_eq_ok hr
  obtain ⟨runner, phase, h, log⟩ := s
  obtain rfl := hphase
  obtain ⟨ho, hall, hsub, hcompleted⟩ := hi
  dsimp only [System.recorded] at *
  obtain ⟨m, hm, hevent, hpopped, -⟩ := ho.toCarries.pop hevents
  rw [hm, TxMailboxIdx.new_intoU8] at hidx
  obtain rfl := Option.some.inj hidx
  obtain ⟨hp, hl, hin⟩ := ho.forward m p hforward
  have hbus : log.number p ∈ log.bus := hin.number ▸ (ho.hasEvent m hevent).2
  have hsettled : Owns (runner.pendingFrames.removeByPriority p).2 r.frames r.loopBackPending h
      log := by
    rcases hcases with ⟨⟨frame', hframes⟩, hloopBack⟩ | ⟨hframes, hloopBack⟩
    · refine ho.settle hp ?_ (fun q hq ↦ ?_) (fun q hq ↦ ?_) (.inl ⟨?_, ?_, hbus⟩) (.inl hbus)
      · rw [hframes]
        exact ho.consistent.assign ((ho.consistent p).trans hp) frame'
      · rw [hframes]
        exact Function.update_of_ne hq ..
      · rw [hloopBack, PrioritySet.contains_insert]
        simp [Ne.symm hq]
      · rw [hloopBack, PrioritySet.contains_insert]
        simp
      · rw [hframes, PriorityMap.assign]
        dsimp only
        rw [Function.update_self]
        rfl
    · refine ho.settle hp ?_ (fun q hq ↦ ?_) (fun q hq ↦ ?_) (.inr ⟨?_, ?_⟩) (.inl hbus)
      · rw [hframes]
        exact ho.consistent.remove p
      · rw [hframes]
        exact Function.update_of_ne hq ..
      · rw [hloopBack]
      · rwa [hloopBack]
      · rw [hframes]
        exact Function.update_self ..
  have hremoved : r.pendingFrames = (runner.pendingFrames.removeByPriority p).2 := by
    rw [hpending, ho.bijective.removeByMailbox_of_some hforward]
  have hnone : ∀ m', runner.pendingFrames.forward m' = none ∨ m' = m →
      r.pendingFrames.forward m' = none := by
    intro m' hm'
    refine Option.eq_none_iff_forall_ne_some.mpr fun q hq ↦ ?_
    rw [hremoved, ho.bijective.removeByPriority_forward] at hq
    rcases hm' with hm' | rfl
    · cases hm'.symm.trans hq.1
    · exact hq.2 (Option.some.inj (hq.1.symm.trans hforward))
  rw [← hremoved] at hsettled
  refine ⟨hsettled.pop hevents hm (hnone m (.inr rfl)), hall, hsub, fun m' hm' ↦ ?_⟩
  rw [TxMailboxSet.contains_insert, Bool.or_eq_true, decide_eq_true_eq] at hm'
  rcases hm' with hm' | rfl
  · have hfree := hcompleted m' hm'
    refine ⟨hnone m' (.inl hfree.forward), fun hcontra ↦ hfree.hasEvent ?_, hfree.requested⟩
    rw [Peripheral.HasEvent, hevents]
    exact List.mem_cons_of_mem _ hcontra
  · exact ⟨hnone m (.inr rfl), hpopped, (ho.hasEvent m hevent).1⟩

/-- The entries of mailboxes that have nothing to do with a frame are removed. -/
theorem Owns.releaseAll {r : TxRunner} {h : Peripheral} {log : Log} {ms : List TxMailboxIdx}
    (ho : Owns r.pendingFrames r.frames r.loopBackPending h log)
    (hms : ∀ m ∈ ms, h.pending.contains m = false ∧ ¬ h.HasEvent m) :
    ∃ pendingFrames, r.release ms = { r with pendingFrames := pendingFrames } ∧
      Owns pendingFrames r.frames r.loopBackPending h log ∧
      ∀ m, m ∈ ms ∨ r.pendingFrames.forward m = none → pendingFrames.forward m = none := by
  induction ms generalizing r with
  | nil => exact ⟨r.pendingFrames, rfl, ho, fun m hm ↦ hm.resolve_left List.not_mem_nil⟩
  | cons m ms ih =>
    obtain ⟨hm, hms⟩ := List.forall_mem_cons.mp hms
    obtain ⟨pendingFrames, hrelease, ho', hnone⟩ :=
      @ih { r with pendingFrames := (r.pendingFrames.removeByMailbox m).2 } (ho.release hm.1 hm.2)
        hms
    refine ⟨pendingFrames, hrelease, ho', fun m' hm' ↦ hnone m' ?_⟩
    have hkeeps := ho.bijective.removeByMailbox_forward m m'
    rcases hm' with hm' | hm'
    · exact (List.mem_cons.mp hm').symm.imp_right fun heq ↦ hkeeps (.inl heq)
    · exact .inr (hkeeps (.inr hm'))

theorem Inv.select {s : System} {pendingMailboxes completedMailboxes : TxMailboxSet} (hi : Inv s)
    (hphase : s.phase = .events pendingMailboxes completedMailboxes)
    (hevents : s.peripheral.events = []) {timestampOffset : Option (BitVec 16)} {now : Instant} :
    ∃ s', s.drain timestampOffset now pendingMailboxes completedMailboxes = .ok s' ∧ Inv s' := by
  obtain ⟨runner, phase, h, log⟩ := s
  obtain rfl := hphase
  obtain ⟨ho, hall, hsub, hcompleted⟩ := hi
  dsimp only [System.recorded] at *
  have hevent : ∀ m, ¬ h.HasEvent m := by simp [Peripheral.HasEvent, hevents]
  have hunpended : ∀ m, pendingMailboxes.contains m = false → h.pending.contains m = false :=
    fun m hm ↦ Bool.eq_false_iff.mpr fun hcontra ↦ by
      rw [hsub m hcontra] at hm
      cases hm
  have hfree : ∀ m, (~~~pendingMailboxes ||| completedMailboxes).contains m = true ↔
      pendingMailboxes.contains m = false ∨ completedMailboxes.contains m = true := by simp
  obtain ⟨pendingFrames, hrelease, ho', hnone⟩ := @Owns.releaseAll _ _ _
    ((~~~pendingMailboxes ||| completedMailboxes) &&& ~~~completedMailboxes).toList ho fun m hm ↦ by
      rw [TxMailboxSet.mem_toList, TxMailboxSet.contains_and, Bool.and_eq_true, hfree] at hm
      refine ⟨hunpended m (hm.1.resolve_right fun hcontra ↦ ?_), hevent m⟩
      simp [hcontra] at hm
  refine ⟨_, by rw [System.drain, hevents]; rfl, ?_⟩
  rw [hrelease]
  refine ⟨ho', ⟨⟨?_, rfl, rfl⟩, ?_, fun m hm ↦ ?_⟩⟩
  · obtain ⟨m, hm⟩ := TxMailboxSet.ne_ALL_iff.mp hall
    intro hcontra
    have hmem := (hfree m).mpr (.inl hm)
    dsimp only at hcontra
    rw [hcontra, TxMailboxSet.contains_NONE] at hmem
    cases hmem
  · obtain ⟨m, hm⟩ := TxMailboxSet.ne_ALL_iff.mp hall
    exact TxMailboxSet.ne_ALL_iff.mpr ⟨m, hunpended m hm⟩
  · by_cases hcomplete : completedMailboxes.contains m = true
    · have hm' := hcompleted m hcomplete
      exact ⟨hnone m (.inr hm'.forward), hevent m, hm'.requested⟩
    · have hpending := ((hfree m).mp hm).resolve_right hcomplete
      refine ⟨hnone m (.inl ?_), hevent m, fun hcontra ↦ ?_⟩
      · rw [TxMailboxSet.mem_toList, TxMailboxSet.contains_and, TxMailboxSet.contains_not, hm]
        simp [Bool.eq_false_iff.mpr hcomplete]
      · cases hcontra.1.symm.trans (hunpended m hpending)

/-! ## Mailboxes -/

theorem Inv.enqueue {frameFormat : FrameFormat} {s s' : System} {sel : Selection} (hi : Inv s)
    (hphase : s.phase = .select sel .notPolled) (hs' : s.enqueue frameFormat sel = .ok s') :
    Inv s' := by
  obtain ⟨runner, phase, h, log⟩ := s
  obtain rfl := hphase
  rw [System.enqueue] at hs'
  split at hs'
  · cases hs'
    exact hi
  · rename_i p hfirst
    obtain ⟨ho, hsel, hall, hfree⟩ := hi
    dsimp only [System.recorded] at *
    split at hs'
    · obtain ⟨idx, -, hs'⟩ := bind_eq_ok.mp hs'
      cases hs'
      exact ⟨ho, hsel, hall⟩
    · rename_i hcontains
      obtain ⟨idx, hidx, hs'⟩ := bind_eq_ok.mp hs'
      obtain ⟨frame, hframe, hs'⟩ := bind_eq_ok.mp hs'
      obtain ⟨added, hadded, hs'⟩ := bind_eq_ok.mp hs'
      obtain ⟨h', hh', hs'⟩ := bind_eq_ok.mp hs'
      rw [unwrap_eq_ok] at hidx hframe hh'
      subst hh'
      cases hs'
      obtain ⟨hpending, elem, hmarker, rfl⟩ := Peripheral.add_eq_ok hadded
      have hbackward : runner.pendingFrames.backward p = none := by
        simpa [MailboxPriorityMap.containsPriority, MailboxPriorityMap.getByPriority]
          using hcontains
      have hqueued := hsel.queued_iff.mp (PrioritySet.first_eq_some_iff.mp hfirst).1
      have hidx' := hfree idx (TxMailboxSet.contains_of_first hidx)
      have howns := ho.add hpending hidx'.hasEvent hidx'.forward hmarker
        ((ho.consistent p).symm.trans hqueued.1) hqueued.2 hbackward
      exact ⟨howns.cancel _, hsel, ho.bijective, hidx'.forward⟩

theorem Inv.check {s s' : System} {sel : Selection} {idx : TxMailboxIdx} {priority : Priority}
    (hi : Inv s) (hphase : s.phase = .select sel (.added idx priority))
    (hs' : s.check sel idx priority = .ok s') : Inv s' := by
  obtain ⟨runner, phase, h, log⟩ := s
  obtain rfl := hphase
  rw [System.check] at hs'
  obtain ⟨u, hassert, hs'⟩ := bind_eq_ok.mp hs'
  obtain ⟨pendingFrames, hpending, hs'⟩ := bind_eq_ok.mp hs'
  obtain ⟨idx', -, hs'⟩ := bind_eq_ok.mp hs'
  rw [unwrap_eq_ok] at hpending
  obtain rfl := MailboxPriorityMap.insert_eq_some hpending
  cases hs'
  exact ⟨hi.owns, hi.stage.1, assert_eq_ok.mp hassert⟩

/-! ## Branches -/

/-- What each turn of the loop keeps, the loop keeps. -/
theorem System.dropExpired_keeps {now : Instant} {ps : List Priority} (keeps : System → Prop)
    (hstep : ∀ s s' p frame, p ∈ ps → keeps s → s.runner.frames.values p = some frame →
      frame.timestamp ≤ now → s.dropFrame now p = .ok s' → keeps s') {s s' : System} (hs : keeps s)
    (hs' : System.dropExpired now ps s = .ok s') : keeps s' := by
  induction ps generalizing s with
  | nil =>
    cases hs'
    exact hs
  | cons p ps ih =>
    rw [System.dropExpired] at hs'
    obtain ⟨frame, hframe, hs'⟩ := bind_eq_ok.mp hs'
    have hrest := @ih fun s s' q frame hq ↦ hstep s s' q frame (List.mem_cons_of_mem p hq)
    split at hs'
    · rename_i hle
      obtain ⟨s₁, hdrop, hs'⟩ := bind_eq_ok.mp hs'
      exact hrest (hstep s s₁ p frame List.mem_cons_self hs (unwrap_eq_ok.mp hframe) hle hdrop) hs'
    · exact hrest hs hs'

/-- What is different after a frame was dropped. -/
theorem System.dropFrame_eq_ok {now : Instant} {p : Priority} {s s' : System}
    (h : s.dropFrame now p = .ok s') :
    s'.phase = s.phase ∧
    s'.runner = { s.runner with
      frames := (s.runner.frames.remove p).2
      pendingFrames := (s.runner.pendingFrames.removeByPriority p).2 } ∧
    (s'.peripheral = s.peripheral ∨ ∃ idx, s'.peripheral = s.peripheral.cancel (.newEq idx)) ∧
    s'.log = { s.log with dropped := s.log.dropped ++ [(s.log.number p, now)] } := by
  rw [System.dropFrame] at h
  obtain ⟨removed, -, h⟩ := bind_eq_ok.mp h
  rcases hpair : s.runner.pendingFrames.removeByPriority p with ⟨idx, pendingFrames⟩
  rw [hpair] at h
  cases h
  refine ⟨rfl, rfl, ?_, rfl⟩
  cases idx with
  | none => exact .inl rfl
  | some idx => exact .inr ⟨idx, rfl⟩

theorem Inv.dropFrame {now : Instant} {p : Priority} {frame : Frame} {s s' : System} (hi : Inv s)
    (hphase : s.phase = .start) (hl : s.runner.loopBackPending.contains p = false)
    (hframe : s.runner.frames.values p = some frame) (hle : frame.timestamp ≤ now)
    (hs' : s.dropFrame now p = .ok s') : Inv s' := by
  obtain ⟨hphase', hrunner, hperipheral, hlog⟩ := System.dropFrame_eq_ok hs'
  obtain ⟨runner, phase, h, log⟩ := s
  obtain ⟨runner', phase', h', log'⟩ := s'
  obtain rfl := hphase
  obtain rfl := hphase'
  obtain rfl := hrunner
  obtain rfl := hlog
  obtain ⟨ho, hall⟩ := hi
  dsimp only [System.recorded] at *
  have hsome : (runner.frames.values p).isSome = true := by rw [hframe]; rfl
  have hsettled := (ho.drop (log.number p, now)).settle hsome (ho.consistent.remove p)
    (fun q hq ↦ Function.update_of_ne hq ..) (fun _ _ ↦ rfl)
    (.inr ⟨hl, Function.update_self ..⟩) <| .inr fun frame' hframe' ↦ by
      cases (ho.held p frame hframe hl).symm.trans hframe'
      exact ⟨now, List.mem_append_right _ (List.mem_singleton_self _), hle⟩
  rcases hperipheral with rfl | ⟨idx, rfl⟩
  · exact ⟨hsettled, hall⟩
  · exact ⟨hsettled.cancel _, hall⟩

theorem Inv.fetched {s s' : System} {sel : Selection} {frame : Frame} (hi : Inv s)
    (hphase : s.phase.selection = some sel) (hs' : s.fetched frame = .ok s') : Inv s' := by
  obtain ⟨hsel, hall⟩ := hi.stage.selects hphase
  have ho := hi.owns
  rw [System.recorded_of_selection hphase] at ho
  rw [System.fetched] at hs'
  split at hs'
  · dsimp only [PriorityMap.insert] at hs'
    split at hs'
    · cases hs'
    · rename_i old frames hinsert
      obtain ⟨hnone, rfl⟩ := Prod.mk.inj hinsert
      cases hs'
      exact ⟨ho.fetch hnone, hall⟩
  · cases hs'
    exact ⟨ho, hall⟩

theorem Inv.loopedBack {s s' : System} {sel : Selection} (hi : Inv s)
    (hphase : s.phase.selection = some sel) (hs' : s.loopedBack = .ok s') : Inv s' := by
  obtain ⟨-, hall⟩ := hi.stage.selects hphase
  have ho := hi.owns
  rw [System.recorded_of_selection hphase] at ho
  rw [System.loopedBack] at hs'
  split at hs'
  · cases hs'
    exact hi
  · rename_i p hfirst
    obtain ⟨removed, hremoved, hs'⟩ := bind_eq_ok.mp hs'
    cases hs'
    have hl := (PrioritySet.first_eq_some_iff.mp hfirst).1
    obtain ⟨hp, hbus⟩ := ho.looped p hl
    have hbackward : s.runner.pendingFrames.backward p = none := by
      refine Option.eq_none_iff_forall_ne_some.mpr fun m hm ↦ ?_
      obtain ⟨-, hnot, -⟩ := ho.forward m p ((ho.bijective m p).mpr hm)
      cases hl.symm.trans hnot
    have hsettled : Owns (s.runner.pendingFrames.removeByPriority p).2 (s.runner.frames.remove p).2
        (s.runner.loopBackPending.remove p) s.peripheral s.log :=
      ho.settle hp (ho.consistent.remove p) (fun q hq ↦ Function.update_of_ne hq ..)
        (fun q hq ↦ by simp [Ne.symm hq]) (.inr ⟨by simp, Function.update_self ..⟩) (.inl hbus)
    rw [MailboxPriorityMap.removeByPriority_of_none hbackward] at hsettled
    exact ⟨hsettled, hall⟩

/-! ## The peripheral -/

theorem Inv.send {s : System} {idx : TxMailboxIdx} (hi : Inv s)
    (hidx : s.peripheral.Requested idx) (timestamp : BitVec 16) :
    Inv { s with
      peripheral := s.peripheral.send idx timestamp
      log := { s.log with bus := s.log.bus ++ [s.log.mailbox idx] } } where
  owns := hi.owns.send hidx timestamp
  stage := hi.stage.mono (fun _ hm ↦ hm) fun m hm ↦ by
    have hne : m ≠ idx := fun heq ↦ hm.requested (heq ▸ hidx)
    refine ⟨hm.forward, fun hcontra ↦ ?_, fun hcontra ↦ hm.requested ⟨hcontra.1, ?_⟩⟩
    · rw [Peripheral.HasEvent, Peripheral.send, List.map_append, List.mem_append,
        List.map_singleton, List.mem_singleton, hi.owns.marker idx hidx.1] at hcontra
      exact hcontra.elim hm.hasEvent fun heq ↦ hne (TxMailboxIdx.intoU8_injective heq)
    · have hsent := hcontra.2
      simpa [Peripheral.send, Ne.symm hne] using hsent

theorem Inv.unpend {s : System} (hi : Inv s) (idx : TxMailboxIdx) :
    Inv { s with peripheral := s.peripheral.unpend idx } where
  owns := hi.owns.unpend idx
  stage := by
    refine hi.stage.mono (fun m hm ↦ (Peripheral.pending_unpend hm).1) fun m hm ↦ ?_
    exact ⟨hm.forward, hm.hasEvent,
      fun hcontra ↦ hm.requested (Peripheral.requested_unpend hcontra)⟩

/-! ## Runs -/

theorem Inv.advance {frameFormat : FrameFormat} {timestampOffset : Option (BitVec 16)}
    {now : Instant} {s s' : System} (hi : Inv s)
    (hs' : s.advance frameFormat timestampOffset now = .ok s') : Inv s' := by
  rw [System.advance] at hs'
  split at hs'
  · rename_i hphase
    cases hs'
    obtain ⟨runner, phase, h, log⟩ := s
    obtain rfl := hphase
    exact ⟨hi.owns, hi.stage, fun m hm ↦ hm, by simp⟩
  · rename_i hphase
    cases hevents : s.peripheral.events with
    | nil =>
      obtain ⟨s'', hdrain, hi'⟩ := hi.select hphase hevents
      cases hs'.symm.trans hdrain
      exact hi'
    | cons event events =>
      rw [System.drain, hevents] at hs'
      obtain ⟨⟨runner, idx⟩, hr, hs'⟩ := bind_eq_ok.mp hs'
      cases hs'
      exact hi.popEvent hphase hevents hr
  · rename_i hphase
    exact hi.enqueue hphase hs'
  · rename_i hphase
    exact hi.check hphase hs'
  · cases hs'
    exact hi

theorem Inv.step {frameFormat : FrameFormat} {timestampOffset : Option (BitVec 16)} {s s' : System}
    {op : Op} {u : Unit} (hi : Inv s) (hop : s.Valid op)
    (hs' : s.step frameFormat timestampOffset op = .ok (s', u)) : Inv s' := by
  cases op with
  | advance now =>
    obtain ⟨s'', hadvance, heq⟩ := map_eq_ok.mp hs'
    cases heq
    exact hi.advance hadvance
  | expire now =>
    obtain ⟨sel, hsel, -⟩ := hop
    rw [System.step, hsel] at hs'
    obtain ⟨s'', hdrop, heq⟩ := map_eq_ok.mp hs'
    cases heq
    obtain ⟨hselects, hall⟩ := hi.stage.selects hsel
    have ho := hi.owns
    rw [System.recorded_of_selection hsel] at ho
    have hi' : Inv { s with phase := .start } := ⟨ho, hall⟩
    refine (System.dropExpired_keeps (fun s' ↦ Inv s' ∧ s'.phase = .start ∧
      s'.runner.loopBackPending = s.runner.loopBackPending) ?_ ⟨hi', rfl, rfl⟩ hdrop).1
    rintro s₁ s₂ p frame hp ⟨hi₁, hphase, hsame⟩ hframe hle hdrop
    obtain ⟨hphase', hrunner, -, -⟩ := System.dropFrame_eq_ok hdrop
    refine ⟨hi₁.dropFrame hphase ?_ hframe hle hdrop, hphase'.trans hphase, ?_⟩
    · rw [hsame]
      exact (hselects.queued_iff.mp (List.mem_filter.mp hp).2).2
    · rw [hrunner]
      exact hsame
  | loopBackSent =>
    obtain ⟨sel, hsel⟩ := Option.isSome_iff_exists.mp hop.1
    obtain ⟨s'', hlooped, heq⟩ := map_eq_ok.mp hs'
    cases heq
    exact hi.loopedBack hsel hlooped
  | fetch frame =>
    obtain ⟨sel, hsel, -⟩ := hop
    obtain ⟨s'', hfetched, heq⟩ := map_eq_ok.mp hs'
    cases heq
    exact hi.fetched hsel hfetched
  | unpended =>
    cases hs'
    obtain ⟨idx, hidx, -⟩ := hop
    obtain ⟨sel, hsel⟩ := Phase.selection_of_waitsFor hidx
    have ho := hi.owns
    rw [System.recorded_of_selection hsel] at ho
    exact ⟨ho, (hi.stage.selects hsel).2⟩
  | send idx timestamp =>
    cases hs'
    exact hi.send hop timestamp
  | unpend idx =>
    cases hs'
    exact hi.unpend idx

/-- What is recorded already is a part of what is recorded next. -/
theorem Inv.pendingFrames {s : System} (hi : Inv s) : s.runner.pendingFrames.Bijective ∧
    ∀ m p, s.runner.pendingFrames.forward m = some p → s.recorded.forward m = some p := by
  obtain ⟨runner, phase, h, log⟩ := s
  match phase, hi with
  | .start, hi => exact ⟨hi.owns.bijective, fun _ _ ↦ id⟩
  | .events _ _, hi => exact ⟨hi.owns.bijective, fun _ _ ↦ id⟩
  | .select _ .notPolled, hi => exact ⟨hi.owns.bijective, fun _ _ ↦ id⟩
  | .select _ (.waiting _), hi => exact ⟨hi.owns.bijective, fun _ _ ↦ id⟩
  | .select _ (.added idx p), hi =>
    obtain ⟨-, hbijective, hnone⟩ := hi.stage
    refine ⟨hbijective, fun m q hm ↦ ?_⟩
    have hne : m ≠ idx := by
      rintro rfl
      cases hnone.symm.trans hm
    rwa [System.recorded, MailboxPriorityMap.extend_forward, if_neg hne]

theorem Inv.freeMailboxes {s : System} {sel : Selection} {enqueue : Enqueue} (hi : Inv s)
    (hphase : s.phase = .select sel enqueue) : sel.freeMailboxes ≠ .NONE := by
  have hstage := hi.stage
  rw [hphase] at hstage
  cases enqueue with
  | notPolled => exact hstage.1.free
  | added idx p => exact hstage.1.free
  | waiting idx => exact hstage.1.free

/-- **A frame is sent at most once, and is dropped only late.**  In a run without a panic, a frame
that was sent is not in a mailbox that is still to be sent, no frame is in two mailboxes, and each
frame that was fetched is still held, unless it was sent or its deadline had passed.  The mailboxes
that are recorded belong to frames that are to be sent, and one is free when a frame is added. -/
theorem sends_at_most_once (frameFormat : FrameFormat) (timestampOffset : Option (BitVec 16))
    (ops : List Op)
    (hops : Admissible (System.step frameFormat timestampOffset) System.Valid .new ops)
    {s : System} {us : List Unit}
    (hrun : run (System.step frameFormat timestampOffset) .new ops = .ok (s, us)) :
    s.log.bus.Nodup ∧
    (∀ m, s.peripheral.Requested m → s.log.mailbox m ∉ s.log.bus) ∧
    (∀ m m', s.peripheral.pending.contains m = true → s.peripheral.pending.contains m' = true →
      s.log.mailbox m = s.log.mailbox m' → m = m') ∧
    (∀ n frame, s.log.fetched[n]? = some frame → Accounted s.runner.frames s.log n frame) ∧
    (∀ p frame, s.runner.frames.values p = some frame →
      s.runner.loopBackPending.contains p = false →
      s.log.fetched[s.log.number p]? = some frame) ∧
    s.runner.pendingFrames.Bijective ∧
    (∀ m p, s.runner.pendingFrames.forward m = some p → s.runner.frames.keys.contains p = true ∧
      s.runner.loopBackPending.contains p = false) ∧
    ∀ sel enqueue, s.phase = .select sel enqueue → sel.freeMailboxes ≠ .NONE := by
  have hi : Inv s := inv_of_run (fun _ _ _ _ hi hop hs' ↦ hi.step hop hs') inv_new hops hrun
  have ho := hi.owns
  obtain ⟨hbijective, hforward⟩ := hi.pendingFrames
  refine ⟨ho.nodup_bus, ho.requested, ho.distinct, ho.accounted, ho.held, hbijective,
    fun m p hm ↦ ?_, fun sel enqueue hphase ↦ hi.freeMailboxes hphase⟩
  obtain ⟨hp, hl, -⟩ := ho.forward m p (hforward m p hm)
  exact ⟨(ho.consistent p).trans hp, hl⟩

/-- A frame is preempted, and put in the same mailbox again. -/
theorem sends_at_most_once_preempted : ∃ s us,
    run (System.step .classic none) .new
      [.advance 0, .advance 0,
        .fetch ⟨⟨.low, .message 7, some 1, none⟩, ⟨[1], by decide⟩, 50, false⟩,
        .advance 1, .advance 1, .advance 1, .advance 1,
        .fetch ⟨⟨.high, .message 8, some 1, none⟩, ⟨[2], by decide⟩, 60, false⟩,
        .advance 2, .advance 2, .advance 2, .unpend 0, .advance 2, .send 1 7, .unpend 1, .unpended,
        .advance 3, .advance 3, .advance 3, .advance 3, .advance 3, .send 0 9] = .ok (s, us) ∧
    s.log.bus = [1, 0] ∧ s.log.bus.Nodup ∧
    (∀ n frame, s.log.fetched[n]? = some frame → Accounted s.runner.frames s.log n frame) ∧
    s.runner.pendingFrames.forward 0 = some .low ∧ s.runner.frames.keys.contains .low = true := by
  obtain ⟨s, us, hrun⟩ : ∃ s us, run (System.step .classic none) .new
      [.advance 0, .advance 0,
        .fetch ⟨⟨.low, .message 7, some 1, none⟩, ⟨[1], by decide⟩, 50, false⟩,
        .advance 1, .advance 1, .advance 1, .advance 1,
        .fetch ⟨⟨.high, .message 8, some 1, none⟩, ⟨[2], by decide⟩, 60, false⟩,
        .advance 2, .advance 2, .advance 2, .unpend 0, .advance 2, .send 1 7, .unpend 1, .unpended,
        .advance 3, .advance 3, .advance 3, .advance 3, .advance 3, .send 0 9] = .ok (s, us) :=
    ⟨_, _, rfl⟩
  obtain ⟨hnodup, -, -, haccounted, -, -, hforward, -⟩ :=
    sends_at_most_once .classic none _ (by decide +kernel) hrun
  have hbus : s.log.bus = [1, 0] ∧ s.runner.pendingFrames.forward 0 = some .low := by
    cases hrun
    exact ⟨rfl, rfl⟩
  exact ⟨s, us, hrun, hbus.1, hnodup, haccounted, hbus.2, (hforward 0 .low hbus.2).1⟩

end Emcyphal.Can.Native
