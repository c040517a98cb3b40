import Emcyphal.Can.Native.Tx.Bookkeeping

/-!
# What becomes of a frame

A frame that was fetched is sent or dropped, and one that was sent is looped back if it asks for it.
The runner holds it until then: while it waits for the bus, while its event is in the FIFO, and
while it waits for the receive task.  `Outcomes` is what holds of the frames in between, and of what
was seen of them.

So no frame is looped back twice, or without having been sent, and none that asks for it is missed
(`loops_back_what_was_sent`).
-/

set_option autoImplicit false

namespace Emcyphal.Can.Native

open Rust BitField

/-! ## What is seen -/

/-- The time of a transmission, if its event is taken at `now`.  Without a counter it is not known,
and the task takes the time of the event. -/
def eventTime (timestampOffset : Option (BitVec 16)) (now : Instant) (timestamp : BitVec 16) :
    Instant :=
  match timestampOffset with
  | some offset => makeTimestamp now (timestamp - offset)
  | none => now

/-- What is seen of the frame with a number. -/
inductive Seen
  | sent (number : ℕ) (timestamp : BitVec 16)
  /-- The event of its transmission was taken. -/
  | taken (number : ℕ) (now : Instant)
  | loopedBack (number : ℕ) (frame : Frame)

namespace System

def seen (s : System) : Op → Option Seen
  | .advance now =>
    match s.phase, s.peripheral.events with
    | .events _ _, event :: _ =>
      (TxMailboxIdx.new event.marker).map fun idx ↦ .taken (s.log.mailbox idx) now
    | _, _ => none
  | .loopBackSent => s.runner.loopBackPending.first.bind fun p ↦
      (s.runner.frames.values p).map fun frame ↦ .loopedBack (s.log.number p) frame
  | .send idx timestamp => some (.sent (s.log.mailbox idx) timestamp)
  | _ => none

/-- The system, with what is seen of its steps. -/
def observe (frameFormat : FrameFormat) (timestampOffset : Option (BitVec 16)) (s : System)
    (op : Op) : Exec (System × Option Seen) := do
  let (s', _) ← s.step frameFormat timestampOffset op
  return (s', s.seen op)

end System

/-- The transmissions, with their timestamps. -/
def transmissions (seen : List (Option Seen)) : List (ℕ × BitVec 16) :=
  seen.filterMap fun
    | some (.sent number timestamp) => some (number, timestamp)
    | _ => none

/-- The frames whose event was taken, with the time at that moment. -/
def completions (seen : List (Option Seen)) : List (ℕ × Instant) :=
  seen.filterMap fun
    | some (.taken number now) => some (number, now)
    | _ => none

/-- The frames that the receive task was sent. -/
def loopBacks (seen : List (Option Seen)) : List (ℕ × Frame) :=
  seen.filterMap fun
    | some (.loopedBack number frame) => some (number, frame)
    | _ => none

/-! ## Outcomes -/

/-- The frame is the one with the number as it was sent, with the time of its transmission. -/
def LoopedBack (timestampOffset : Option (BitVec 16)) (sent : List (ℕ × BitVec 16))
    (taken : List (ℕ × Instant)) (log : Log) (n : ℕ) (frame : Frame) : Prop :=
  ∃ fetched timestamp now, log.fetched[n]? = some fetched ∧ fetched.loopBack = true ∧
    (n, timestamp) ∈ sent ∧ (n, now) ∈ taken ∧
    frame = { fetched with timestamp := eventTime timestampOffset now timestamp }

theorem LoopedBack.mono {timestampOffset : Option (BitVec 16)} {sent sent' : List (ℕ × BitVec 16)}
    {taken taken' : List (ℕ × Instant)} {log log' : Log} {n : ℕ} {frame : Frame}
    (h : LoopedBack timestampOffset sent taken log n frame) (hsent : sent ⊆ sent')
    (htaken : taken ⊆ taken')
    (hfetched : ∀ fetched, log.fetched[n]? = some fetched → log'.fetched[n]? = some fetched) :
    LoopedBack timestampOffset sent' taken' log' n frame := by
  obtain ⟨fetched, timestamp, now, hn, hflag, hsend, htake, heq⟩ := h
  exact ⟨fetched, timestamp, now, hfetched fetched hn, hflag, hsent hsend, htaken htake, heq⟩

/-- What became of the frames in a log.  Some of them were sent, the events of some were taken, and
some were looped back. -/
structure Outcomes (timestampOffset : Option (BitVec 16)) (sent : List (ℕ × BitVec 16))
    (taken : List (ℕ × Instant)) (looped : List (ℕ × Frame)) (frames : PriorityMap Frame)
    (loopBack : PrioritySet) (h : Peripheral) (log : Log) : Prop where
  bus : sent.map Prod.fst = log.bus
  events : ∀ event ∈ h.events, ∀ m : TxMailboxIdx, event.marker = m.intoU8 →
    (log.mailbox m, event.timestamp) ∈ sent
  waiting : ∀ p frame, frames.values p = some frame → loopBack.contains p = true →
    LoopedBack timestampOffset sent taken log (log.number p) frame
  whole : ∀ x ∈ looped, x.1 ∈ log.bus ∧ LoopedBack timestampOffset sent taken log x.1 x.2
  nodup_looped : (looped.map Prod.fst).Nodup
  nodup_dropped : (log.dropped.map Prod.fst).Nodup
  late : ∀ x ∈ log.dropped, ∃ frame, log.fetched[x.1]? = some frame ∧ frame.timestamp ≤ x.2
  held : ∀ p, (frames.values p).isSome = true → log.number p ∉ looped.map Prod.fst ∧
    log.number p ∉ log.dropped.map Prod.fst
  complete : ∀ n ∈ log.bus, ∀ frame, log.fetched[n]? = some frame → frame.loopBack = true →
    n ∈ looped.map Prod.fst ∨ (∃ p, (frames.values p).isSome = true ∧ log.number p = n) ∨
      n ∈ log.dropped.map Prod.fst

namespace Outcomes

variable {timestampOffset : Option (BitVec 16)} {sent : List (ℕ × BitVec 16)}
  {taken : List (ℕ × Instant)} {looped : List (ℕ × Frame)} {frames frames' : PriorityMap Frame}
  {loopBack loopBack' : PrioritySet} {h h' : Peripheral} {log : Log} {p : Priority}
  {recorded : MailboxPriorityMap}

theorem new : Outcomes timestampOffset [] [] [] (.new Frame) .NONE .new
    ⟨[], fun _ ↦ 0, fun _ ↦ 0, [], []⟩ := by
  constructor <;> simp [PriorityMap.new, Peripheral.new]

/-- Some events are gone, and a mailbox without an event is written. -/
theorem mono (ho : Outcomes timestampOffset sent taken looped frames loopBack h log)
    (hevents : ∀ event ∈ h'.events, event ∈ h.events) {mailbox : TxMailboxIdx → ℕ}
    (hmailbox : ∀ m, h'.HasEvent m → mailbox m = log.mailbox m) :
    Outcomes timestampOffset sent taken looped frames loopBack h'
      { log with mailbox := mailbox } where
  __ := ho
  events := fun event hevent m hm ↦ by
    dsimp only
    rw [hmailbox m (List.mem_map.mpr ⟨event, hevent, hm⟩)]
    exact ho.events event (hevents event hevent) m hm

/-- A mailbox is sent. -/
theorem send (ho : Outcomes timestampOffset sent taken looped frames loopBack h log)
    (howns : Owns recorded frames loopBack h log) {m : TxMailboxIdx} (hm : h.Requested m)
    (timestamp : BitVec 16) :
    Outcomes timestampOffset (sent ++ [(log.mailbox m, timestamp)]) taken looped frames loopBack
      (h.send m timestamp) { log with bus := log.bus ++ [log.mailbox m] } where
  bus := by rw [List.map_append, ho.bus]; rfl
  events := fun event hevent m' hm' ↦ by
    rcases List.mem_append.mp hevent with hevent | hevent
    · exact List.mem_append_left _ (ho.events event hevent m' hm')
    · obtain rfl := List.mem_singleton.mp hevent
      rw [howns.marker m hm.1] at hm'
      rw [TxMailboxIdx.intoU8_injective hm']
      exact List.mem_append_right _ (List.mem_singleton_self _)
  waiting := fun p frame hframe hl ↦
    (ho.waiting p frame hframe hl).mono (List.subset_append_left _ _) (List.Subset.refl _)
      fun _ ↦ id
  whole := fun x hx ↦ by
    obtain ⟨hbus, hlooped⟩ := ho.whole x hx
    exact ⟨List.mem_append_left _ hbus,
      hlooped.mono (List.subset_append_left _ _) (List.Subset.refl _) fun _ ↦ id⟩
  nodup_looped := ho.nodup_looped
  nodup_dropped := ho.nodup_dropped
  late := ho.late
  held := ho.held
  complete := fun n hn frame hframe hflag ↦ by
    rcases List.mem_append.mp hn with hn | hn
    · exact ho.complete n hn frame hframe hflag
    · obtain rfl := List.mem_singleton.mp hn
      -- It was requested, so that it was not sent before.
      rcases howns.accounted _ frame hframe with hheld | hbus | ⟨now, hdropped, -⟩
      · exact .inr (.inl hheld)
      · exact absurd hbus (howns.requested m hm)
      · exact .inr (.inr (List.mem_map.mpr ⟨_, hdropped, rfl⟩))

/-- The event of a frame that is to be looped back is taken. -/
theorem take (ho : Outcomes timestampOffset sent taken looped frames loopBack h log)
    {frame : Frame} (hframe : frames.values p = some frame) {now : Instant} {frame' : Frame}
    (hlooped : LoopedBack timestampOffset sent (taken ++ [(log.number p, now)]) log (log.number p)
      frame') :
    Outcomes timestampOffset sent (taken ++ [(log.number p, now)]) looped (frames.assign p frame')
      (loopBack.insert p) h log := by
  have hmono : ∀ {n frame}, LoopedBack timestampOffset sent taken log n frame →
      LoopedBack timestampOffset sent (taken ++ [(log.number p, now)]) log n frame := fun hl ↦
    hl.mono (List.Subset.refl _) (List.subset_append_left _ _) fun _ ↦ id
  have hsome : ∀ q, ((frames.assign p frame').values q).isSome = (frames.values q).isSome := by
    intro q
    by_cases hq : q = p
    · subst hq
      rw [PriorityMap.assign, hframe]
      simp
    · rw [PriorityMap.assign]
      dsimp only
      rw [Function.update_of_ne hq]
  refine ⟨ho.bus, ho.events, fun q frame'' hq hl ↦ ?_, fun x hx ↦ ⟨(ho.whole x hx).1,
    hmono (ho.whole x hx).2⟩, ho.nodup_looped, ho.nodup_dropped, ho.late, fun q hq ↦ ?_,
    fun n hn frame'' hn' hflag ↦ ?_⟩
  · rw [PriorityMap.assign] at hq
    dsimp only at hq
    by_cases heq : q = p
    · subst heq
      rw [Function.update_self] at hq
      cases hq
      exact hlooped
    · rw [Function.update_of_ne heq] at hq
      rw [PrioritySet.contains_insert] at hl
      exact hmono (ho.waiting q frame'' hq (by simpa [Ne.symm heq] using hl))
  · rw [hsome] at hq
    exact ho.held q hq
  · simp only [hsome]
    exact ho.complete n hn frame'' hn' hflag

/-- Another event is taken. -/
theorem mono_taken (ho : Outcomes timestampOffset sent taken looped frames loopBack h log)
    (more : List (ℕ × Instant)) :
    Outcomes timestampOffset sent (taken ++ more) looped frames loopBack h log where
  __ := ho
  waiting := fun p frame hframe hl ↦ (ho.waiting p frame hframe hl).mono (List.Subset.refl _)
    (List.subset_append_left _ _) fun _ ↦ id
  whole := fun x hx ↦ ⟨(ho.whole x hx).1, (ho.whole x hx).2.mono (List.Subset.refl _)
    (List.subset_append_left _ _) fun _ ↦ id⟩

/-- A frame is not held any more: it was looped back, or dropped, or there was nothing to do. -/
theorem leave (ho : Outcomes timestampOffset sent taken looped frames loopBack h log)
    (howns : Owns recorded frames loopBack h log) (hp : (frames.values p).isSome = true)
    (hframes : frames' = (frames.remove p).2)
    (hloopBack : ∀ q, q ≠ p → loopBack'.contains q = loopBack.contains q)
    (looped? : Option Frame) (dropped? : Option Instant)
    (hlooped : ∀ frame ∈ looped?, log.number p ∈ log.bus ∧
      LoopedBack timestampOffset sent taken log (log.number p) frame)
    (hlate : ∀ now ∈ dropped?, ∃ frame, log.fetched[log.number p]? = some frame ∧
      frame.timestamp ≤ now)
    (hdone : looped?.isSome = true ∨ dropped?.isSome = true ∨
      ∀ frame, log.fetched[log.number p]? = some frame → frame.loopBack = false) :
    Outcomes timestampOffset sent taken
      (looped ++ looped?.toList.map fun frame ↦ (log.number p, frame)) frames' loopBack' h
      { log with
        dropped := log.dropped ++ dropped?.toList.map fun now ↦ (log.number p, now) } := by
  subst hframes
  have hvalues : ∀ q frame, (frames.remove p).2.values q = some frame →
      q ≠ p ∧ frames.values q = some frame := by
    intro q frame hq
    rw [PriorityMap.remove] at hq
    dsimp only at hq
    by_cases heq : q = p
    · rw [heq, Function.update_self] at hq
      cases hq
    · exact ⟨heq, by rwa [Function.update_of_ne heq] at hq⟩
  have hheld : ∀ q, q ≠ p → (frames.values q).isSome = true →
      ((frames.remove p).2.values q).isSome = true := by
    intro q hq hsome
    rw [PriorityMap.remove]
    dsimp only
    rwa [Function.update_of_ne hq]
  obtain ⟨hfresh, hfreshDropped⟩ := ho.held p hp
  have hadded : ∀ {α : Type} (x? : Option α) (n : ℕ),
      n ∈ (x?.toList.map fun x ↦ (log.number p, x)).map Prod.fst ↔
        x?.isSome = true ∧ n = log.number p := by
    intro α x? n
    cases x? <;> simp
  have hnodup : ∀ {α : Type} (xs : List (ℕ × α)) (x? : Option α),
      (xs.map Prod.fst).Nodup → log.number p ∉ xs.map Prod.fst →
      ((xs ++ x?.toList.map fun x ↦ (log.number p, x)).map Prod.fst).Nodup := by
    intro α xs x? hxs hnot
    rw [List.map_append]
    refine List.Nodup.append hxs (by cases x? <;> simp) fun n hn hn' ↦ ?_
    obtain ⟨-, rfl⟩ := (hadded x? n).mp hn'
    exact hnot hn
  refine ⟨ho.bus, ho.events, fun q frame hq hl ↦ ?_, fun x hx ↦ ?_, hnodup _ _ ho.nodup_looped
    hfresh, hnodup _ _ ho.nodup_dropped hfreshDropped, fun x hx ↦ ?_, fun q hq ↦ ?_,
    fun n hn frame hframe hflag ↦ ?_⟩
  · obtain ⟨hne, hq⟩ := hvalues q frame hq
    exact ho.waiting q frame hq (by rwa [hloopBack q hne] at hl)
  · rcases List.mem_append.mp hx with hx | hx
    · exact ho.whole x hx
    · obtain ⟨frame, hframe, rfl⟩ := List.mem_map.mp hx
      exact hlooped frame (Option.mem_toList.mp hframe)
  · rcases List.mem_append.mp hx with hx | hx
    · exact ho.late x hx
    · obtain ⟨now, hnow, rfl⟩ := List.mem_map.mp hx
      exact hlate now (Option.mem_toList.mp hnow)
  · obtain ⟨frame, hq⟩ := Option.isSome_iff_exists.mp hq
    obtain ⟨hne, hq⟩ := hvalues q frame hq
    have hsome : (frames.values q).isSome = true := by rw [hq]; rfl
    have hnumber : log.number q ≠ log.number p := fun heq ↦ hne (howns.number_inj q p hsome hp heq)
    obtain ⟨hlooped', hdropped'⟩ := ho.held q hsome
    refine ⟨?_, ?_⟩
    · rw [List.map_append, List.mem_append, hadded]
      exact fun hor ↦ hor.elim hlooped' fun heq ↦ hnumber heq.2
    · rw [List.map_append, List.mem_append, hadded]
      exact fun hor ↦ hor.elim hdropped' fun heq ↦ hnumber heq.2
  · rw [List.map_append, List.map_append, List.mem_append, List.mem_append, hadded, hadded]
    rcases ho.complete n hn frame hframe hflag with hlooped' | ⟨q, hq, rfl⟩ | hdropped'
    · exact .inl (.inl hlooped')
    · by_cases heq : q = p
      · subst heq
        rcases hdone with hsome | hsome | hnot
        · exact .inl (.inr ⟨hsome, rfl⟩)
        · exact .inr (.inr (.inr ⟨hsome, rfl⟩))
        · cases hflag.symm.trans (hnot frame hframe)
      · exact .inr (.inl ⟨q, hheld q heq hq, rfl⟩)
    · exact .inr (.inr (.inl hdropped'))

/-- Another frame is fetched. -/
theorem fetch (ho : Outcomes timestampOffset sent taken looped frames loopBack h log)
    (howns : Owns recorded frames loopBack h log) (hnone : frames.values p = none) (frame : Frame) :
    Outcomes timestampOffset sent taken looped (frames.insert p frame).2 loopBack h
      { log with
        fetched := log.fetched ++ [frame]
        number := Function.update log.number p log.fetched.length } := by
  have hne : ∀ q, (frames.values q).isSome = true → q ≠ p := by
    rintro q hq rfl
    rw [hnone] at hq
    cases hq
  have hnumber : ∀ q, q ≠ p → Function.update log.number p log.fetched.length q = log.number q :=
    fun q hq ↦ Function.update_of_ne hq ..
  have hvalues : ∀ q, q ≠ p → (frames.insert p frame).2.values q = frames.values q :=
    fun q hq ↦ Function.update_of_ne hq ..
  have hfetched : ∀ n < log.fetched.length, (log.fetched ++ [frame])[n]? = log.fetched[n]? :=
    fun n hn ↦ List.getElem?_append_left hn
  have hlooped : ∀ {n frame'}, LoopedBack timestampOffset sent taken log n frame' →
      n < log.fetched.length := by
    rintro n frame' ⟨fetched, -, -, hn, -⟩
    exact (List.getElem?_eq_some_iff.mp hn).1
  have hmono : ∀ {n frame'}, LoopedBack timestampOffset sent taken log n frame' →
      LoopedBack timestampOffset sent taken { log with
        fetched := log.fetched ++ [frame]
        number := Function.update log.number p log.fetched.length } n frame' := fun hl ↦
    hl.mono (List.Subset.refl _) (List.Subset.refl _) fun fetched hn ↦
      (hfetched _ (hlooped hl)).trans hn
  refine ⟨ho.bus, ho.events, fun q frame' hq hl ↦ ?_,
    fun x hx ↦ ⟨(ho.whole x hx).1, hmono (ho.whole x hx).2⟩, ho.nodup_looped, ho.nodup_dropped,
    fun x hx ↦ ?_, fun q hq ↦ ?_, fun n hn frame' hn' hflag ↦ ?_⟩
  · have hqp := hne q (howns.looped q hl).1
    rw [hvalues q hqp] at hq
    dsimp only
    rw [hnumber q hqp]
    exact hmono (ho.waiting q frame' hq hl)
  · obtain ⟨frame', hx', hle⟩ := ho.late x hx
    exact ⟨frame', (hfetched _ (List.getElem?_eq_some_iff.mp hx').1).trans hx', hle⟩
  · dsimp only
    by_cases hqp : q = p
    · subst hqp
      rw [Function.update_self]
      refine ⟨fun hmem ↦ ?_, fun hmem ↦ ?_⟩
      · obtain ⟨x, hx, heq⟩ := List.mem_map.mp hmem
        exact (hlooped (ho.whole x hx).2).ne heq
      · obtain ⟨x, hx, heq⟩ := List.mem_map.mp hmem
        obtain ⟨frame', hx', -⟩ := ho.late x hx
        exact (List.getElem?_eq_some_iff.mp hx').1.ne heq
    · rw [hnumber q hqp]
      exact ho.held q (by rwa [hvalues q hqp] at hq)
  · dsimp only at hn' ⊢
    rw [hfetched n (howns.bus_lt n hn)] at hn'
    refine (ho.complete n hn frame' hn' hflag).imp_right (Or.imp_left ?_)
    rintro ⟨q, hq, rfl⟩
    exact ⟨q, by rwa [hvalues q (hne q hq)], hnumber q (hne q hq)⟩

end Outcomes

/-! ## Steps -/

/-- What an event does to its frame. -/
theorem TxRunner.complete_frames {timestampOffset : Option (BitVec 16)} {now : Instant}
    {event : TxEvent} {r r' : TxRunner} {idx : TxMailboxIdx}
    (h : r.complete timestampOffset now event = .ok (r', idx)) :
    ∃ p frame, TxMailboxIdx.new event.marker = some idx ∧
      r.pendingFrames.forward idx = some p ∧ r.frames.values p = some frame ∧
      (frame.loopBack = true ∧ r'.loopBackPending = r.loopBackPending.insert p ∧
          r'.frames = r.frames.assign p
            { frame with timestamp := eventTime timestampOffset now event.timestamp } ∨
        frame.loopBack = false ∧ r'.loopBackPending = r.loopBackPending ∧
          r'.frames = (r.frames.remove p).2) := by
  unfold TxRunner.complete at h
  obtain ⟨idx', hidx, h⟩ := bind_eq_ok.mp h
  obtain ⟨p, hp, h⟩ := bind_eq_ok.mp h
  obtain ⟨frame, hframe, h⟩ := bind_eq_ok.mp h
  rw [unwrap_eq_ok] at hidx hp hframe
  have hforward : r.pendingFrames.forward idx' = some p := by
    split at hp
    · cases hp
    · rename_i hentry
      rwa [hentry]
  split at h
  · rename_i hflag
    cases h
    exact ⟨p, frame, hidx, hforward, hframe, .inl ⟨hflag, rfl, rfl⟩⟩
  · rename_i hflag
    cases h
    exact ⟨p, frame, hidx, hforward, hframe, .inr ⟨Bool.eq_false_iff.mpr hflag, rfl, rfl⟩⟩

theorem TxRunner.release_frames (ms : List TxMailboxIdx) (r : TxRunner) :
    (r.release ms).frames = r.frames ∧ (r.release ms).loopBackPending = r.loopBackPending := by
  induction ms generalizing r with
  | nil => exact ⟨rfl, rfl⟩
  | cons m ms ih => exact ih _

/-- What was seen of the frames is what became of them. -/
def System.Resolves (timestampOffset : Option (BitVec 16)) (s : System)
    (seen : List (Option Seen)) : Prop :=
  Outcomes timestampOffset (transmissions seen) (completions seen) (loopBacks seen)
    s.runner.frames s.runner.loopBackPending s.peripheral s.log

section Steps

variable {frameFormat : FrameFormat} {timestampOffset : Option (BitVec 16)} {s s' : System}
  {seen : List (Option Seen)} {u : Unit}

theorem transmissions_append (seen : List (Option Seen)) (x : Option Seen) :
    transmissions (seen ++ [x]) = transmissions seen ++ transmissions [x] := List.filterMap_append

theorem completions_append (seen : List (Option Seen)) (x : Option Seen) :
    completions (seen ++ [x]) = completions seen ++ completions [x] := List.filterMap_append

theorem loopBacks_append (seen : List (Option Seen)) (x : Option Seen) :
    loopBacks (seen ++ [x]) = loopBacks seen ++ loopBacks [x] := List.filterMap_append

/-- Nothing is seen. -/
theorem resolves_concat_none : s.Resolves timestampOffset (seen ++ [none]) ↔
    s.Resolves timestampOffset seen := by
  rw [System.Resolves, transmissions_append, completions_append, loopBacks_append]
  change Outcomes _ (_ ++ []) (_ ++ []) (_ ++ []) _ _ _ _ ↔ _
  rw [List.append_nil, List.append_nil, List.append_nil]
  rfl

/-- An event is taken. -/
theorem Inv.resolves_take (hi : Inv s) (hr : s.Resolves timestampOffset seen)
    {pendingMailboxes completedMailboxes : TxMailboxSet}
    (hphase : s.phase = .events pendingMailboxes completedMailboxes) {event : TxEvent}
    {events : List TxEvent} (hevents : s.peripheral.events = event :: events) {now : Instant}
    (hs' : s.drain timestampOffset now pendingMailboxes completedMailboxes = .ok s') :
    s'.Resolves timestampOffset (seen ++ [s.seen (.advance now)]) := by
  obtain ⟨runner, phase, h, log⟩ := s
  obtain rfl := hphase
  have ho := hi.owns
  rw [System.Resolves] at hr
  dsimp only [System.recorded] at *
  rw [System.drain, hevents] at hs'
  obtain ⟨⟨r, idx⟩, hcomplete, hs'⟩ := bind_eq_ok.mp hs'
  cases hs'
  obtain ⟨m, hm, hevent, -, -⟩ := ho.toCarries.pop hevents
  obtain ⟨p, frame, hidx, hforward, hframe, hcases⟩ := TxRunner.complete_frames hcomplete
  rw [hm, TxMailboxIdx.new_intoU8] at hidx
  obtain rfl := Option.some.inj hidx
  obtain ⟨hp, hl, hin⟩ := ho.forward m p hforward
  have hseen : System.seen ⟨runner, .events pendingMailboxes completedMailboxes, h, log⟩
      (.advance now) = some (.taken (log.number p) now) := by
    rw [System.seen]
    dsimp only
    rw [hevents]
    dsimp only
    rw [hm, TxMailboxIdx.new_intoU8, Option.map_some, hin.number]
  have hpopped : ∀ e ∈ events, e ∈ h.events := fun e he ↦ hevents ▸ List.mem_cons_of_mem _ he
  rw [hseen, System.Resolves, transmissions_append, completions_append, loopBacks_append]
  change Outcomes _ (transmissions seen ++ []) (completions seen ++ [(log.number p, now)])
    (loopBacks seen ++ []) r.frames r.loopBackPending { h with events := events } log
  rw [List.append_nil, List.append_nil]
  have hfetched := ho.held p frame hframe hl
  have htaken : (log.number p, event.timestamp) ∈ transmissions seen := by
    rw [← hin.number]
    exact hr.events event (hevents ▸ List.mem_cons_self) m hm
  rcases hcases with ⟨hflag, hloopBack, hframes⟩ | ⟨hflag, hloopBack, hframes⟩
  · rw [hloopBack, hframes]
    exact (hr.take hframe ⟨frame, event.timestamp, now, hfetched, hflag, htaken,
      List.mem_append_right _ (List.mem_singleton_self _), rfl⟩).mono hpopped fun _ _ ↦ rfl
  · rw [hloopBack]
    have hleave := (hr.mono_taken [(log.number p, now)]).leave ho hp hframes (fun _ _ ↦ rfl) none
      none (by simp) (by simp) (.inr (.inr fun frame' hframe' ↦ by
        cases hfetched.symm.trans hframe'
        exact hflag))
    simp only [Option.toList_none, List.map_nil, List.append_nil] at hleave
    exact hleave.mono hpopped fun _ _ ↦ rfl

/-- The runner goes on. -/
theorem Inv.resolves_advance (hi : Inv s) (hr : s.Resolves timestampOffset seen) {now : Instant}
    (hs' : s.advance frameFormat timestampOffset now = .ok s') :
    s'.Resolves timestampOffset (seen ++ [s.seen (.advance now)]) := by
  obtain ⟨runner, phase, h, log⟩ := s
  match phase, hi, hr, hs' with
  | .start, hi, hr, hs' =>
    cases hs'
    exact resolves_concat_none.mpr hr
  | .events pendingMailboxes completedMailboxes, hi, hr, hs' =>
    cases hevents : h.events with
    | cons event events => exact hi.resolves_take hr rfl hevents hs'
    | nil =>
      rw [System.advance] at hs'
      dsimp only at hs'
      rw [System.drain, hevents] at hs'
      cases hs'
      rw [System.seen]
      dsimp only
      rw [hevents]
      refine resolves_concat_none.mpr ?_
      rw [System.Resolves]
      dsimp only
      rw [(TxRunner.release_frames _ _).1, (TxRunner.release_frames _ _).2]
      exact hr
  | .select sel .notPolled, hi, hr, hs' =>
    refine resolves_concat_none.mpr ?_
    change System.enqueue frameFormat sel _ = _ at hs'
    rw [System.enqueue] at hs'
    split at hs'
    · cases hs'
      exact hr
    · split at hs'
      · obtain ⟨idx, -, hs'⟩ := bind_eq_ok.mp hs'
        cases hs'
        exact hr
      · obtain ⟨idx, hidx, hs'⟩ := bind_eq_ok.mp hs'
        obtain ⟨frame, -, hs'⟩ := bind_eq_ok.mp hs'
        obtain ⟨added, hadded, hs'⟩ := bind_eq_ok.mp hs'
        obtain ⟨h', hh', hs'⟩ := bind_eq_ok.mp hs'
        rw [unwrap_eq_ok] at hidx hh'
        subst hh'
        cases hs'
        obtain ⟨-, elem, -, rfl⟩ := Peripheral.add_eq_ok hadded
        have hfree := hi.stage.2.2 idx (TxMailboxSet.contains_of_first hidx)
        refine Outcomes.mono hr ?_ ?_
        · exact fun event hevent ↦ hevent
        · intro m hm
          refine Function.update_of_ne ?_ ..
          rintro rfl
          exact hfree.hasEvent hm
  | .select sel (.added idx priority), hi, hr, hs' =>
    refine resolves_concat_none.mpr ?_
    obtain ⟨u, -, hs'⟩ := bind_eq_ok.mp hs'
    obtain ⟨pendingFrames, -, hs'⟩ := bind_eq_ok.mp hs'
    obtain ⟨idx', -, hs'⟩ := bind_eq_ok.mp hs'
    cases hs'
    exact hr
  | .select sel (.waiting idx), hi, hr, hs' =>
    cases hs'
    exact resolves_concat_none.mpr hr

/-- A frame is dropped. -/
theorem Inv.resolves_dropFrame (hi : Inv s) (hr : s.Resolves timestampOffset seen)
    {now : Instant} {p : Priority} {frame : Frame}
    (hl : s.runner.loopBackPending.contains p = false)
    (hframe : s.runner.frames.values p = some frame) (hle : frame.timestamp ≤ now)
    (hs' : s.dropFrame now p = .ok s') : s'.Resolves timestampOffset seen := by
  obtain ⟨-, hrunner, hperipheral, hlog⟩ := System.dropFrame_eq_ok hs'
  have ho := hi.owns
  have hsome : (s.runner.frames.values p).isSome = true := by rw [hframe]; rfl
  have hleave := Outcomes.leave hr ho hsome rfl (fun _ _ ↦ rfl) none (some now) (by simp)
    (fun now' hnow ↦ ⟨frame, ho.held p frame hframe hl, Option.mem_some.mp hnow ▸ hle⟩)
    (.inr (.inl rfl))
  have hevents : s'.peripheral.events = s.peripheral.events := by
    rcases hperipheral with heq | ⟨idx, heq⟩
    · rw [heq]
    · rw [heq]
      rfl
  rw [System.Resolves, hrunner, hlog]
  simp only [Option.toList_none, List.map_nil, List.append_nil, Option.toList_some,
    List.map_cons] at hleave
  exact hleave.mono (fun e he ↦ hevents ▸ he) fun _ _ ↦ rfl

/-- A frame is looped back. -/
theorem Inv.resolves_loopedBack (hi : Inv s) (hr : s.Resolves timestampOffset seen)
    (hpending : s.runner.loopBackPending.first.isSome = true) (hs' : s.loopedBack = .ok s') :
    s'.Resolves timestampOffset (seen ++ [s.seen .loopBackSent]) := by
  obtain ⟨p, hfirst⟩ := Option.isSome_iff_exists.mp hpending
  have ho := hi.owns
  obtain ⟨hsome, hbus⟩ := ho.looped p (PrioritySet.first_eq_some_iff.mp hfirst).1
  obtain ⟨frame, hframe⟩ := Option.isSome_iff_exists.mp hsome
  have hseen : s.seen .loopBackSent = some (.loopedBack (s.log.number p) frame) := by
    rw [System.seen, hfirst, Option.bind_some, hframe]
    rfl
  rw [System.loopedBack, hfirst] at hs'
  obtain ⟨removed, -, hs'⟩ := bind_eq_ok.mp hs'
  cases hs'
  have hleave := Outcomes.leave hr ho hsome rfl
    (fun q hq ↦ show (s.runner.loopBackPending.remove p).contains q = _ by simp [Ne.symm hq])
    (some frame) none
    (fun frame' hframe' ↦ by
      cases hframe'
      exact ⟨hbus, hr.waiting p frame hframe (PrioritySet.first_eq_some_iff.mp hfirst).1⟩)
    (by simp) (.inl rfl)
  rw [hseen, System.Resolves, transmissions_append, completions_append, loopBacks_append]
  change Outcomes _ (transmissions seen ++ []) (completions seen ++ []) (loopBacks seen ++
    [(s.log.number p, frame)]) _ _ _ _
  simp only [Option.toList_none, List.map_nil, List.append_nil, Option.toList_some,
    List.map_cons] at hleave ⊢
  exact hleave

/-- **What was seen of the frames is what became of them**, whatever is done next. -/
theorem Inv.resolves_step (hi : Inv s) (hr : s.Resolves timestampOffset seen) {op : Op}
    (hop : s.Valid op) (hs' : s.step frameFormat timestampOffset op = .ok (s', u)) :
    s'.Resolves timestampOffset (seen ++ [s.seen op]) := by
  cases op with
  | advance now =>
    obtain ⟨s'', hadvance, heq⟩ := map_eq_ok.mp hs'
    cases heq
    exact hi.resolves_advance hr hadvance
  | expire now =>
    obtain ⟨sel, hsel, -⟩ := hop
    rw [System.step, hsel] at hs'
    obtain ⟨s'', hdrop, heq⟩ := map_eq_ok.mp hs'
    cases heq
    obtain ⟨hselects, hall⟩ := hi.stage.selects hsel
    have ho := hi.owns
    rw [System.recorded_of_selection hsel] at ho
    have hi' : Inv { s with phase := .start } := ⟨ho, hall⟩
    refine resolves_concat_none.mpr (System.dropExpired_keeps (fun s' ↦ Inv s' ∧
      s'.Resolves timestampOffset seen ∧ s'.phase = .start ∧
      s'.runner.loopBackPending = s.runner.loopBackPending) ?_ ⟨hi', hr, rfl, rfl⟩ hdrop).2.1
    rintro s₁ s₂ p frame hp ⟨hi₁, hr₁, hphase, hsame⟩ hframe hle hdrop
    obtain ⟨hphase', hrunner, -, -⟩ := System.dropFrame_eq_ok hdrop
    have hl : s₁.runner.loopBackPending.contains p = false := by
      rw [hsame]
      exact (hselects.queued_iff.mp (List.mem_filter.mp hp).2).2
    refine ⟨hi₁.dropFrame hphase hl hframe hle hdrop,
      hi₁.resolves_dropFrame hr₁ hl hframe hle hdrop, hphase'.trans hphase, ?_⟩
    rw [hrunner]
    exact hsame
  | loopBackSent =>
    obtain ⟨s'', hlooped, heq⟩ := map_eq_ok.mp hs'
    cases heq
    exact hi.resolves_loopedBack hr hop.2 hlooped
  | fetch frame =>
    obtain ⟨s'', hfetched, heq⟩ := map_eq_ok.mp hs'
    cases heq
    refine resolves_concat_none.mpr ?_
    rw [System.fetched] at hfetched
    split at hfetched
    · dsimp only [PriorityMap.insert] at hfetched
      split at hfetched
      · cases hfetched
      · rename_i frames hinsert
        obtain ⟨hnone, rfl⟩ := Prod.mk.inj hinsert
        cases hfetched
        exact Outcomes.fetch hr hi.owns hnone frame
    · cases hfetched
      exact hr
  | unpended =>
    cases hs'
    exact resolves_concat_none.mpr hr
  | send idx timestamp =>
    cases hs'
    rw [System.Resolves, transmissions_append, completions_append, loopBacks_append]
    change Outcomes _ (transmissions seen ++ [(s.log.mailbox idx, timestamp)])
      (completions seen ++ []) (loopBacks seen ++ []) _ _ _ _
    rw [List.append_nil, List.append_nil]
    exact Outcomes.send hr hi.owns hop timestamp
  | unpend idx =>
    cases hs'
    exact resolves_concat_none.mpr { hr with }

end Steps

/-- **A frame that asks for it is looped back exactly if it was sent.**  In a run without a panic,
each frame that was looped back is one that asked for it and was sent, as it was fetched but for its
timestamp, and none is looped back twice.  The timestamp is the time of the transmission by the
counter, or the time its event is taken, if there is no counter (`eventTime`).  A frame that asks
for it and was sent is looped back, or the runner holds it still, or its deadline had passed.  Once
the runner holds none, each frame has been sent or dropped. -/
theorem loops_back_what_was_sent (frameFormat : FrameFormat)
    (timestampOffset : Option (BitVec 16)) (ops : List Op)
    (hops : Admissible (System.observe frameFormat timestampOffset) System.Valid .new ops)
    {s : System} {seen : List (Option Seen)}
    (hrun : run (System.observe frameFormat timestampOffset) .new ops = .ok (s, seen)) :
    s.log.bus = (transmissions seen).map Prod.fst ∧
    ((loopBacks seen).map Prod.fst).Nodup ∧
    (∀ n frame, (n, frame) ∈ loopBacks seen →
      LoopedBack timestampOffset (transmissions seen) (completions seen) s.log n frame) ∧
    (∀ n ∈ s.log.bus, ∀ frame, s.log.fetched[n]? = some frame → frame.loopBack = true →
      n ∈ (loopBacks seen).map Prod.fst ∨
        (∃ p, s.runner.frames.keys.contains p = true ∧ s.log.number p = n) ∨
        ∃ now, (n, now) ∈ s.log.dropped ∧ frame.timestamp ≤ now) ∧
    (s.log.dropped.map Prod.fst).Nodup ∧
    (s.runner.frames.keys = .NONE → ∀ n frame, s.log.fetched[n]? = some frame →
      n ∈ s.log.bus ∨ ∃ now, (n, now) ∈ s.log.dropped ∧ frame.timestamp ≤ now) := by
  have hkeeps : ∀ seen s op s' x, Inv s ∧ s.Resolves timestampOffset seen → s.Valid op →
      s.observe frameFormat timestampOffset op = .ok (s', x) →
      Inv s' ∧ s'.Resolves timestampOffset (seen ++ [x]) := by
    rintro seen s op s' x ⟨hi, hr⟩ hop hs'
    obtain ⟨⟨s'', u⟩, hstep, heq⟩ := bind_eq_ok.mp hs'
    cases heq
    exact ⟨hi.step hop hstep, hi.resolves_step hr hop hstep⟩
  obtain ⟨hi, hr⟩ := inv_of_outputs hkeeps ⟨inv_new, .new⟩ hops hrun
  have hdropped : ∀ n frame, s.log.fetched[n]? = some frame → n ∈ s.log.dropped.map Prod.fst →
      ∃ now, (n, now) ∈ s.log.dropped ∧ frame.timestamp ≤ now := by
    intro n frame hframe hmem
    obtain ⟨x, hx, rfl⟩ := List.mem_map.mp hmem
    obtain ⟨frame', hframe', hle⟩ := hr.late x hx
    cases hframe.symm.trans hframe'
    exact ⟨x.2, hx, hle⟩
  have hheld : ∀ p, s.runner.frames.keys.contains p = (s.runner.frames.values p).isSome :=
    hi.owns.consistent
  refine ⟨hr.bus.symm, hr.nodup_looped, fun n frame hmem ↦ (hr.whole _ hmem).2,
    fun n hn frame hframe hflag ↦ ?_, hr.nodup_dropped, fun hnone n frame hframe ↦ ?_⟩
  · simp only [hheld]
    exact (hr.complete n hn frame hframe hflag).imp_right (Or.imp_right (hdropped n frame hframe))
  · rcases hi.owns.accounted n frame hframe with ⟨p, hp, -⟩ | hsettled
    · rw [← hheld, hnone] at hp
      simp at hp
    · exact hsettled

/-- A frame is sent, and looped back. -/
theorem loops_back_what_was_sent_one_frame : ∃ s seen frame timestamp now,
    run (System.observe .classic (some 2)) .new
      [.advance 0, .advance 0,
        .fetch ⟨⟨.low, .message 7, some 1, none⟩, ⟨[90], by decide⟩, 50, true⟩,
        .advance 1, .advance 1, .advance 1, .advance 1, .send 0 7, .unpend 0, .unpended,
        .advance 8, .advance 10, .advance 10, .loopBackSent] = .ok (s, seen) ∧
    loopBacks seen = [(0, frame)] ∧ (0, timestamp) ∈ transmissions seen ∧
    (0, now) ∈ completions seen ∧ frame.loopBack = true ∧
    frame.timestamp = eventTime (some 2) now timestamp := by
  obtain ⟨s, seen, hrun⟩ : ∃ s seen, run (System.observe .classic (some 2)) .new
      [.advance 0, .advance 0,
        .fetch ⟨⟨.low, .message 7, some 1, none⟩, ⟨[90], by decide⟩, 50, true⟩,
        .advance 1, .advance 1, .advance 1, .advance 1, .send 0 7, .unpend 0, .unpended,
        .advance 8, .advance 10, .advance 10, .loopBackSent] = .ok (s, seen) := ⟨_, _, rfl⟩
  obtain ⟨-, -, hlooped, -⟩ :=
    loops_back_what_was_sent .classic (some 2) _ (by decide +kernel) hrun
  have hone : ∃ frame, loopBacks seen = [(0, frame)] := by
    cases hrun
    exact ⟨_, rfl⟩
  obtain ⟨frame, hone⟩ := hone
  obtain ⟨fetched, timestamp, now, -, hflag, hsent, htaken, rfl⟩ :=
    hlooped 0 frame (hone ▸ List.mem_singleton_self _)
  exact ⟨s, seen, _, timestamp, now, hrun, hone, hsent, htaken, hflag, rfl⟩

end Emcyphal.Can.Native
