import Emcyphal.Can.Native.RxRunner
import Emcyphal.Lib.Wakeup

/-!
# What the receive task passes on

The task reads each FIFO in order, and nothing of it is skipped or read twice
(`passes_on_what_is_stored`).  It does not sleep on a frame, unless the interrupt handler is still
to come (`rx_no_missed_wakeup`).  Both are shown of single steps (`Inv.step`): they keep an
invariant of the state, what the events so far add up to, and what the task remembers while it
waits.
-/

set_option autoImplicit false

namespace Emcyphal.Can.Native

open Rust

namespace RxSystem

/-! ## What the task keeps -/

/-- What was stored in a FIFO. -/
def arrivals (i : Fin RX_FIFOS_MAX) (events : List RxEvent) : List RxFifoElement :=
  events.filterMap fun
    | .stored j elem => if j = i then some elem else none
    | _ => none

/-- What was read from a FIFO. -/
def removals (i : Fin RX_FIFOS_MAX) (events : List RxEvent) : List RxFifoElement :=
  events.filterMap fun
    | .popped j elem _ _ => if j = i then some elem else none
    | _ => none

/-- The frames that the task has got. -/
def taken (events : List RxEvent) : List Frame :=
  events.filterMap fun
    | .loopedBack frame => some frame
    | .popped _ _ _ frame => frame
    | _ => none

/-- The frames that the link has got. -/
def pushed (events : List RxEvent) : List Frame :=
  events.filterMap fun
    | .pushed frame => some frame
    | _ => none

/-- What an operation may show. -/
def Shows : RxOp → RxEvent → Prop
  | .receive i elem, e => e = .stored i elem ∨ e = .lost i elem
  | .poll _ none, e => e = .registered
  | .poll _ (some frame), e => e = .loopedBack frame
  | .advance now, e => e = .quiet ∨ ∃ i elem frame, e = .popped i elem now frame
  | .pushed, e => e = .quiet ∨ ∃ frame, e = .pushed frame
  | .clear, e | .wake, e | .other _, e => e = .quiet

variable {i : Fin RX_FIFOS_MAX} {events : List RxEvent} {e : RxEvent} {s s' : RxSystem}
  {timestampOffset : Option (BitVec 16)} {w : Waker}

@[simp] theorem arrivals_append (events' : List RxEvent) :
    arrivals i (events ++ events') = arrivals i events ++ arrivals i events' :=
  List.filterMap_append

@[simp] theorem removals_append (events' : List RxEvent) :
    removals i (events ++ events') = removals i events ++ removals i events' :=
  List.filterMap_append

@[simp] theorem taken_append (events' : List RxEvent) :
    taken (events ++ events') = taken events ++ taken events' := List.filterMap_append

@[simp] theorem pushed_append (events' : List RxEvent) :
    pushed (events ++ events') = pushed events ++ pushed events' := List.filterMap_append

/-- What an element is decoded to.  It is skipped only if it is no frame of the protocol, which no
message is. -/
def Decoded (timestampOffset : Option (BitVec 16)) (i : Fin RX_FIFOS_MAX) (elem : RxFifoElement)
    (now : Instant) (frame : Option Frame) : Prop :=
  ∃ rawFrame, loadFrame elem = .ok rawFrame ∧
    frame = rawFrame.map (RxRunner.receive timestampOffset now) ∧
    (frame.isSome = true ∨ i.val = 1 ∧ ServiceCanId.fromCanId elem.header.id = none)

/-- The task has a handle, and the elements can be read. -/
structure Inv (s : RxSystem) : Prop where
  driver : s.driver.Inv
  handle : .rxRunner ∈ s.driver.handles
  stored : ∀ i, ∀ elem ∈ (s.fifos i).toList, Stored elem.header i

/-- A frame is lost only if its FIFO was full. -/
def LostIfFull (events : List RxEvent) : Prop :=
  ∀ before i elem after, events = before ++ .lost i elem :: after →
    (arrivals i before).length = (removals i before).length + RX_FIFO_MAX

theorem LostIfFull.concat (h : LostIfFull events) (he : ∀ i elem, e = .lost i elem →
    (arrivals i events).length = (removals i events).length + RX_FIFO_MAX) :
    LostIfFull (events ++ [e]) := by
  intro before i elem after heq
  rcases List.eq_nil_or_concat' after with rfl | ⟨after, last, rfl⟩
  · obtain ⟨rfl, hlast⟩ := List.append_inj' heq rfl
    exact he i elem (List.singleton_inj.mp hlast)
  · rw [← List.cons_append, ← List.append_assoc] at heq
    exact h before i elem after (List.append_inj' heq rfl).1

/-- What was read and what is in the FIFOs is what was stored, and what was pushed is what was
got. -/
structure Tracks (timestampOffset : Option (BitVec 16)) (events : List RxEvent) (s : RxSystem) :
    Prop where
  fifos : ∀ i, arrivals i events = removals i events ++ (s.fifos i).toList
  passed : taken events = pushed events ++ s.phase.frame.toList
  decoded : ∀ i elem now frame, .popped i elem now frame ∈ events →
    Decoded timestampOffset i elem now frame
  lost : LostIfFull events

/-- The task sleeps with this waker, or is about to: a FIFO that it has found empty is so still, or
the handler is to come. -/
structure Waits (w : Waker) (s : RxSystem) : Prop where
  waker : s.driver.rxWaker = some w
  searched : ∃ k, s.phase.searched = some k ∧ ∀ i, i.val < k → (s.fifos i).toList ≠ [] →
    s.handling = true ∨ s.newMessage i = true

/-- The polls of the task: it waits, until it gets a frame. -/
def selectPoll : RxOp → RxEvent → Option (Option (Waker × Unit))
  | .poll w _, .registered => some (some (w, ()))
  | _, .loopedBack _ => some none
  | _, .popped _ _ _ (some _) => some none
  | _, _ => none

def wakers (s : RxSystem) : List (Option Waker) := [s.driver.rxWaker]

/-- What a step keeps. -/
structure Next (timestampOffset : Option (BitVec 16)) (s : RxSystem) (op : RxOp) (s' : RxSystem)
    (e : RxEvent) : Prop where
  inv : Inv s'
  tracks : ∀ events, s.Tracks timestampOffset events → s'.Tracks timestampOffset (events ++ [e])
  pending : ∀ w q, selectPoll op e = some (some (w, q)) → s'.Waits w
  waits : selectPoll op e = none → ∀ w, s.Waits w → w ∉ woken s.wakers s'.wakers → s'.Waits w

/-- What has to be right of a new event. -/
def Sound (timestampOffset : Option (BitVec 16)) (s : RxSystem) : RxEvent → Prop
  | .popped i elem now frame => Decoded timestampOffset i elem now frame
  | .lost i _ => (s.fifos i).length = RX_FIFO_MAX
  | _ => True

/-- What is stored is put behind what is in its FIFO, and what is read was in front.  What is got is
pushed after what is held already. -/
theorem Tracks.concat (h : s.Tracks timestampOffset events)
    (hfifos : ∀ i, (s.fifos i).toList ++ arrivals i [e] = removals i [e] ++ (s'.fifos i).toList)
    (hframes : s.phase.frame.toList ++ taken [e] = pushed [e] ++ s'.phase.frame.toList)
    (hsound : s.Sound timestampOffset e) : s'.Tracks timestampOffset (events ++ [e]) := by
  refine ⟨fun i ↦ ?_, ?_, fun i elem now frame hmem ↦ ?_, h.lost.concat fun i elem he ↦ ?_⟩
  · rw [arrivals_append, removals_append, h.fifos, List.append_assoc, hfifos, List.append_assoc]
  · rw [taken_append, pushed_append, h.passed, List.append_assoc, hframes, List.append_assoc]
  · rcases List.mem_append.mp hmem with hmem | hmem
    · exact h.decoded i elem now frame hmem
    · obtain rfl := List.mem_singleton.mp hmem
      exact hsound
  · subst he
    have hfull : (s.fifos i).length = RX_FIFO_MAX := hsound
    rw [h.fifos, List.length_append, RingBuffer.length_toList, hfull]

/-- Nothing is stored, read or pushed. -/
theorem Next.of_quiet {op : RxOp} (hinv : s'.Inv) (hfifos : s'.fifos = s.fifos)
    (hframe : s'.phase.frame = s.phase.frame)
    (hwaits : ∀ w, s.Waits w → w ∉ woken s.wakers s'.wakers → s'.Waits w) :
    Next timestampOffset s op s' .quiet := by
  have hpoll : selectPoll op .quiet = none := by cases op <;> rfl
  refine ⟨hinv, fun events ht ↦ ht.concat (fun i ↦ ?_) ?_ trivial, fun w q hw ↦ ?_,
    fun _ ↦ hwaits⟩
  · rw [hfifos]
    exact List.append_nil _
  · rw [hframe]
    exact List.append_nil _
  · cases hpoll.symm.trans hw

theorem Next.refl {op : RxOp} (h : s.Inv) : Next timestampOffset s op s .quiet :=
  .of_quiet h rfl rfl fun _ hw _ ↦ hw

/-- The waker is not woken. -/
theorem Waits.keep (h : s.Waits w) (hwaker : s'.driver.rxWaker = s.driver.rxWaker)
    (hphase : s'.phase = s.phase) (hfifos : ∀ i, s'.handling = true ∨ s'.newMessage i = true ∨
      (s'.fifos i).toList = (s.fifos i).toList ∧ (s.handling = true → s'.handling = true) ∧
        s'.newMessage i = s.newMessage i) : s'.Waits w := by
  obtain ⟨k, hk, hsearched⟩ := h.searched
  refine ⟨hwaker.trans h.waker, k, hphase ▸ hk, fun i hi hne ↦ ?_⟩
  rcases hfifos i with hhandling | hnew | ⟨hsame, hhandling, hnew⟩
  · exact .inl hhandling
  · exact .inr hnew
  · rw [hnew]
    exact (hsearched i hi (hsame ▸ hne)).imp_left hhandling

theorem Waits.of_phase (h : s.Waits w) {k : ℕ} (hphase : s.phase.searched = some k) :
    ∀ i, i.val < k → (s.fifos i).toList ≠ [] → s.handling = true ∨ s.newMessage i = true := by
  obtain ⟨k', hk', hsearched⟩ := h.searched
  cases hphase.symm.trans hk'
  exact hsearched

/-! ## The steps -/

theorem Inv.receive (h : s.Inv) {elem : RxFifoElement} (hop : Stored elem.header i) :
    ∃ s' e, s.step timestampOffset (.receive i elem) = .ok (s', e) ∧
      Next timestampOffset s (.receive i elem) s' e := by
  rw [RxSystem.step]
  split
  · rename_i hroom
    have hfifo : ∀ j, ((Function.update s.fifos i ((s.fifos i).push elem)) j).toList =
        (s.fifos j).toList ++ if i = j then [elem] else [] := by
      intro j
      by_cases hij : i = j
      · subst hij
        rw [Function.update_self, RingBuffer.toList_push hroom, if_pos rfl]
      · rw [Function.update_of_ne (Ne.symm hij), if_neg hij, List.append_nil]
    refine ⟨_, _, rfl, ⟨h.driver, h.handle, fun j elem' hmem ↦ ?_⟩,
      fun events ht ↦ ht.concat (fun j ↦ ?_) (List.append_nil _) trivial, nofun,
      fun _ w hw _ ↦ hw.keep rfl rfl fun j ↦ ?_⟩
    · rw [hfifo, List.mem_append] at hmem
      rcases hmem with hmem | hmem
      · exact h.stored j elem' hmem
      · split at hmem
        · rename_i hij
          cases List.mem_singleton.mp hmem
          exact hij ▸ hop
        · cases hmem
    · rw [hfifo]
      by_cases hij : i = j <;> simp [arrivals, removals, hij]
    · by_cases hij : j = i
      · subst hij
        exact .inr (.inl (Function.update_self ..))
      · refine .inr (.inr ⟨?_, id, Function.update_of_ne hij ..⟩)
        exact congrArg RingBuffer.toList (Function.update_of_ne hij ..)
  · rename_i hfull
    have hlength := (s.fifos i).length_le
    refine ⟨_, _, rfl, h, fun events ht ↦ ht.concat (fun j ↦ List.append_nil _)
      (List.append_nil _) ?_, nofun, fun _ w hw _ ↦ hw⟩
    change (s.fifos i).length = RX_FIFO_MAX
    omega

theorem frame_of_isSelecting {p : RxPhase} (h : p.isSelecting = true) : p.frame = none := by
  cases p <;> first | rfl | cases h

theorem Inv.poll (h : s.Inv) (hop : s.phase.isSelecting = true) (w : Waker)
    (loopBack : Option Frame) :
    ∃ s' e, s.step timestampOffset (.poll w loopBack) = .ok (s', e) ∧
      Next timestampOffset s (.poll w loopBack) s' e := by
  have hframe := frame_of_isSelecting hop
  cases loopBack with
  | some frame =>
    refine ⟨_, _, rfl, ⟨h.driver, h.handle, h.stored⟩, fun events ht ↦
      ht.concat (fun _ ↦ List.append_nil _) ?_ trivial, nofun, nofun⟩
    rw [hframe]
    rfl
  | none =>
    have hvalid : s.driver.Valid (.registerRxWaker w) := h.handle
    obtain ⟨driver, u, hstep, hdriver⟩ := h.driver.step hvalid
    obtain ⟨hhandles, hwaker⟩ := Driver.step_registerRxWaker hstep
    refine ⟨{ s with driver := driver, phase := .pop 0 }, .registered, ?_,
      ⟨hdriver, hhandles ▸ h.handle, h.stored⟩,
      fun events ht ↦ ht.concat (fun _ ↦ List.append_nil _) ?_ trivial, ?_, nofun⟩
    · rw [RxSystem.step, hstep]
      rfl
    · rw [hframe]
      rfl
    · rintro w' q hpoll
      cases hpoll
      exact ⟨hwaker, 0, rfl, fun i hi ↦ absurd hi (Nat.not_lt_zero _)⟩

/-- The first element in a FIFO is read, and given back. -/
theorem toList_release {idx : Fin RX_FIFO_MAX} (hfirst : (s.fifos i).first = some idx)
    (j : Fin RX_FIFOS_MAX) :
    (s.fifos j).toList = (if i = j then [(s.fifos i).cells idx] else []) ++
      ((Function.update s.fifos i ((s.fifos i).release idx)) j).toList := by
  by_cases hij : i = j
  · subst hij
    rw [if_pos rfl, Function.update_self]
    exact RingBuffer.toList_of_first hfirst
  · rw [if_neg hij, Function.update_of_ne (Ne.symm hij), List.nil_append]

theorem Inv.popFrom (h : s.Inv) (hphase : s.phase = .pop i) (now : Instant) :
    ∃ s' e, s.popFrom timestampOffset now i = .ok (s', e) ∧
      Next timestampOffset s (.advance now) s' e := by
  have hframe : s.phase.frame = none := by rw [hphase]; rfl
  rw [RxSystem.popFrom]
  cases hfirst : (s.fifos i).first with
  | none =>
    have hempty := RingBuffer.first_eq_none_iff.mp hfirst
    refine ⟨_, _, rfl, ?_⟩
    refine .of_quiet ⟨h.driver, h.handle, h.stored⟩ rfl hframe.symm fun w hw _ ↦ ?_
    refine ⟨hw.waker, i + 1, rfl, fun j hj hne ↦ ?_⟩
    rcases Nat.lt_succ_iff_lt_or_eq.mp hj with hlt | heq
    · exact hw.of_phase (by rw [hphase]; rfl) j hlt hne
    · rw [Fin.ext heq] at hne
      exact absurd hempty hne
  | some idx =>
    have hlist := RingBuffer.toList_of_first hfirst
    have hstored : Stored ((s.fifos i).cells idx).header i :=
      h.stored i _ (hlist ▸ List.mem_cons_self)
    obtain ⟨rawFrame, hload, -⟩ := loadFrame_ok hstored.1 hstored.2.1
    have hdecoded : Decoded timestampOffset i ((s.fifos i).cells idx) now
        (rawFrame.map (RxRunner.receive timestampOffset now)) :=
      ⟨rawFrame, hload, rfl, by rw [Option.isSome_map]; exact hstored.isSome_or hload⟩
    dsimp only
    rw [hload, ok_bind]
    generalize rawFrame.map (RxRunner.receive timestampOffset now) = frame at hdecoded ⊢
    have hfifos := toList_release hfirst
    refine ⟨_, _, rfl, ⟨h.driver, h.handle, fun j elem hmem ↦ h.stored j elem ?_⟩,
      fun events ht ↦ ht.concat (fun j ↦ ?_) ?_ hdecoded, ?_, fun hpoll w hw _ ↦ ?_⟩
    · rw [hfifos]
      exact List.mem_append_right _ hmem
    · rw [hfifos]
      by_cases hij : i = j <;> simp [arrivals, removals, hij]
    · rw [hframe]
      cases frame <;> rfl
    · cases frame <;> nofun
    · cases frame with
      | some frame => cases hpoll
      | none =>
        refine ⟨hw.waker, i, rfl, fun j hj hne ↦ hw.of_phase (by rw [hphase]; rfl) j hj ?_⟩
        rw [hfifos]
        exact List.append_ne_nil_of_right_ne_nil _ hne

theorem Inv.step (h : s.Inv) {op : RxOp} (hop : s.Valid op) :
    ∃ s' e, s.step timestampOffset op = .ok (s', e) ∧ Next timestampOffset s op s' e := by
  cases op with
  | receive i elem => exact h.receive hop
  | clear =>
    refine ⟨_, _, rfl, ?_⟩
    refine .of_quiet ⟨h.driver, h.handle, h.stored⟩ rfl rfl fun w hw _ ↦ ?_
    exact hw.keep rfl rfl fun _ ↦ .inl rfl
  | wake =>
    have hvalid : s.driver.Valid .wakeRx := trivial
    obtain ⟨driver, u, hstep, hdriver⟩ := h.driver.step hvalid
    obtain ⟨hhandles, hwaker⟩ := Driver.step_wakeRx hstep
    refine ⟨{ s with driver := driver, handling := false }, .quiet, ?_, ?_⟩
    · rw [RxSystem.step, hstep]
      rfl
    · refine .of_quiet ⟨hdriver, hhandles ▸ h.handle, h.stored⟩ rfl rfl fun w hw hnot ↦ ?_
      refine absurd (mem_woken_of_getElem? (i := 0) ?_ ?_) hnot
      · exact congrArg some hw.waker
      · exact congrArg some hwaker
  | poll w loopBack => exact h.poll hop w loopBack
  | advance now =>
    rw [RxSystem.step, RxSystem.advance]
    split
    · rename_i i hphase
      split
      · rename_i hi
        exact h.popFrom (i := ⟨i, hi⟩) hphase now
      · rename_i hi
        have hframe : s.phase.frame = none := by rw [hphase]; rfl
        refine ⟨_, _, rfl, ?_⟩
        refine .of_quiet ⟨h.driver, h.handle, h.stored⟩ rfl hframe.symm fun w hw _ ↦ ?_
        refine ⟨hw.waker, RX_FIFOS_MAX, rfl, fun j hj hne ↦ ?_⟩
        exact hw.of_phase (by rw [hphase]; rfl) j (hj.trans_le (Nat.not_lt.mp hi)) hne
    · exact ⟨_, _, rfl, .refl h⟩
  | pushed =>
    rw [RxSystem.step]
    split
    · rename_i frame hphase
      refine ⟨_, _, rfl, ⟨h.driver, h.handle, h.stored⟩, fun events ht ↦
        ht.concat (fun _ ↦ List.append_nil _) ?_ trivial, nofun, fun _ w hw _ ↦ ?_⟩
      · rw [hphase]
        rfl
      · obtain ⟨k, hk, -⟩ := hw.searched
        rw [hphase] at hk
        cases hk
    · exact ⟨_, _, rfl, .refl h⟩
  | other op =>
    obtain ⟨hvalid, hother⟩ := hop
    obtain ⟨driver, u, hstep, hdriver⟩ := h.driver.step hvalid
    obtain ⟨hhandle, hwaker⟩ := Driver.step_other h.handle hother hstep hdriver
    refine ⟨{ s with driver := driver }, .quiet, ?_, ?_⟩
    · rw [RxSystem.step, hstep]
      rfl
    · refine .of_quiet ⟨hdriver, hhandle, h.stored⟩ rfl rfl fun w hw _ ↦ ?_
      exact hw.keep hwaker rfl fun _ ↦ .inr (.inr ⟨rfl, id, rfl⟩)

theorem shows_of_step {op : RxOp} (hstep : s.step timestampOffset op = .ok (s', e)) :
    Shows op e := by
  cases op with
  | receive i elem =>
    rw [RxSystem.step] at hstep
    split at hstep
    · cases hstep
      exact .inl rfl
    · cases hstep
      exact .inr rfl
  | poll w loopBack =>
    cases loopBack with
    | some frame =>
      cases hstep
      rfl
    | none =>
      obtain ⟨x, -, heq⟩ := bind_eq_ok.mp hstep
      cases heq
      rfl
  | advance now =>
    rw [RxSystem.step, RxSystem.advance] at hstep
    split at hstep
    · split at hstep
      · rw [RxSystem.popFrom] at hstep
        split at hstep
        · cases hstep
          exact .inl rfl
        · obtain ⟨rawFrame, -, heq⟩ := bind_eq_ok.mp hstep
          cases heq
          exact .inr ⟨_, _, _, rfl⟩
      · cases hstep
        exact .inl rfl
    · cases hstep
      exact .inl rfl
  | pushed =>
    rw [RxSystem.step] at hstep
    split at hstep
    · cases hstep
      exact .inr ⟨_, rfl⟩
    · cases hstep
      exact .inl rfl
  | clear =>
    cases hstep
    rfl
  | wake | other =>
    obtain ⟨x, -, heq⟩ := bind_eq_ok.mp hstep
    cases heq
    rfl

/-! ## Runs -/

instance decidableIsOther : (op : Driver.Op) → Decidable op.IsOther
  | .drop _ => inferInstanceAs (Decidable (_ ≠ _))
  | .registerTxWaker _ _ | .wakeTx _ => isTrue trivial
  | .new | .start | .registerRxWaker _ | .wakeRx => isFalse not_false

theorem inv_start : start.Inv where
  driver := Driver.inv_started
  handle := by decide
  stored := by
    intro i elem hmem
    exact absurd hmem List.not_mem_nil

theorem tracks_start : start.Tracks timestampOffset [] where
  fifos _ := rfl
  passed := rfl
  decoded _ _ _ _ hmem := absurd hmem List.not_mem_nil
  lost before i elem after heq := absurd heq.symm (by simp)

instance decidableValid (s : RxSystem) : (op : RxOp) → Decidable (s.Valid op)
  | .receive i elem => decidableStored elem.header i
  | .clear | .wake | .poll _ _ => inferInstanceAs (Decidable (_ = _))
  | .advance _ | .pushed => isTrue trivial
  | .other _ => inferInstanceAs (Decidable (_ ∧ _))

/-- **The receive task passes on what is stored.**  Frames are received in any order, before and
after and in between the steps of the task, while the interrupt handler, the loop-back and the other
runners do what they do.  Then nothing panics.  A frame is lost only if its FIFO is full.  What was
read from a FIFO is the first part of what was stored in it, in its order, and the rest is in the
FIFO still.  An element that was read is decoded, and is skipped only if it is no frame of the
protocol, which a message never is.  What is decoded or looped back is pushed to the link, in that
order, and only the last of these frames may not have been taken yet. -/
theorem passes_on_what_is_stored {ops : List RxOp}
    (hops : Admissible (RxSystem.step timestampOffset) Valid start ops) :
    ∃ s events, run (RxSystem.step timestampOffset) start ops = .ok (s, events) ∧
      List.Forall₂ Shows ops events ∧ LostIfFull events ∧
      (∀ i, arrivals i events = removals i events ++ (s.fifos i).toList) ∧
      taken events = pushed events ++ s.phase.frame.toList ∧
      ∀ i elem now frame, .popped i elem now frame ∈ events →
        Decoded timestampOffset i elem now frame := by
  have hstep : ∀ (events : List RxEvent) (s : RxSystem) (op : RxOp),
      (s.Inv ∧ s.Tracks timestampOffset events) → s.Valid op →
      ∃ s' e, s.step timestampOffset op = .ok (s', e) ∧
        (s'.Inv ∧ s'.Tracks timestampOffset (events ++ [e])) := by
    intro events s op h hop
    obtain ⟨s', e, hstep, hnext⟩ := h.1.step hop
    exact ⟨s', e, hstep, hnext.inv, hnext.tracks events h.2⟩
  obtain ⟨s, events, hrun, -, ht⟩ := run_of_outputs hstep ⟨inv_start, tracks_start⟩ hops
  have hshows : List.Forall₂ Shows ops events := by
    refine forall₂_of_run (fun s op s' e hstep ↦ ?_) hrun
    exact shows_of_step hstep
  exact ⟨s, events, hrun, hshows, ht.lost, ht.fifos, ht.passed, ht.decoded⟩

instance instNeZeroRxFifos : NeZero RX_FIFOS_MAX := ⟨by decide⟩

/-- A message of three bytes, and what is no service frame, but has passed the empty filter. -/
def message : RxFifoElement := ⟨⟨0x50600709, 0x02030064⟩, .replicate 16 0xE1020304⟩
def noFrame : RxFifoElement := ⟨⟨0x5D7FFFFF, 0x07030065⟩, .replicate 16 0xE1020304⟩

/-- Both FIFOs have an element. -/
def receptions : List RxOp := [.poll 1 none, .receive 1 noFrame, .advance 200, .clear,
  .advance 210, .receive 0 message, .advance 220, .advance 230, .wake, .poll 1 none, .advance 240,
  .receive 0 message, .pushed]

/-- The element that is no frame is skipped, and a message is passed on. -/
theorem passes_on_what_is_stored_skip : ∃ s events,
    run (RxSystem.step (some 9)) start receptions = .ok (s, events) ∧
      arrivals 0 events = removals 0 events ++ (s.fifos 0).toList ∧
      arrivals 1 events = removals 1 events ++ (s.fifos 1).toList ∧
      (removals 0 events).length = 1 ∧ (removals 1 events).length = 1 ∧
      (s.fifos 0).toList.length = 1 ∧
      (pushed events).map (fun frame ↦ frame.data.bytes) = [[4, 3, 2]] := by
  obtain ⟨s, events, hrun, -, -, hfifos, -, -⟩ :=
    @passes_on_what_is_stored (some 9) receptions (by decide +kernel)
  have hcheck : (run (RxSystem.step (some 9)) start receptions).toOption.map (fun x ↦
      ((removals 0 x.2).length, (removals 1 x.2).length, (x.1.fifos 0).toList.length,
        (pushed x.2).map fun frame ↦ frame.data.bytes)) = some (1, 1, 1, [[4, 3, 2]]) := by
    decide +kernel
  rw [hrun] at hcheck
  have h := Option.some.inj hcheck
  simp only [Prod.mk.injEq] at h
  exact ⟨s, events, hrun, hfifos 0, hfifos 1, h.1, h.2.1, h.2.2.1, h.2.2.2⟩

end RxSystem

end Emcyphal.Can.Native
