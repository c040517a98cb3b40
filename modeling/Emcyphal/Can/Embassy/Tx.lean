import Emcyphal.Can.Header
import Emcyphal.Can.Embassy.PriorityDeque
import Emcyphal.Lib.Line
import Emcyphal.Lib.Machine

/-!
# The transmit queues of the Embassy driver

`TxRunner` of `emcyphal-stm32-embassy/src/driver.rs`.  The runner fetches a frame of a priority only
while it holds none of that priority, but may hold several: `write_fd` may give a frame back that
the peripheral had accepted, which is put in front of those that wait.  There is one deadline for
each priority, which is that of the frame that was fetched last, if it waits.

An iteration of the loop is one branch of its `select3`, with the time at which it looks at the
deadlines, the frame that it fetches, or what `write_fd` returns; a frame that the peripheral holds
is sent at any other moment.  The runner and the peripheral are a `System`.  The types of the HAL
have the fields that matter here: what is known of a frame is its identifier, format and data.

The frames of a priority are a `Line` (`queues_consistent`).
-/

set_option autoImplicit false

namespace Emcyphal.Can.Embassy

open Rust BitField

/-! ## Frames of the HAL -/

structure FdFrame where
  id : BitVec 32
  fdcan : Bool
  bitRateSwitch : Bool
  data : Data
deriving DecidableEq

/-- `ExtendedId::new`. -/
def extendedIdNew (raw : BitVec 32) : Option (BitVec 32) :=
  if raw.toNat ≤ 0x1FFFFFFF then some raw else none

/-- `none` is `InvalidFrameHeader`. -/
def makeRawFrame (frame : Frame) (format : FrameFormat) : Exec (Option FdFrame) := do
  match makeCanId frame.header with
  | none => return none
  | some canId =>
    let id ← unwrap (extendedIdNew canId)
    return some (if format.isFd then ⟨id, true, format.bitRateSwitch, frame.data⟩
      else ⟨id, false, false, frame.data⟩)

/-- All frames are extended. -/
def rawFramePriority (frame : FdFrame) : Option Priority := some (decodeCanIdPriority frame.id)

/-! ## The loop -/

def TX_FIFO_DEPTH : ℕ := 3

def PREEMPTION_DEPTH : ℕ := TX_FIFO_DEPTH + 1

/-- The variables of `run`. -/
structure TxRunner where
  frames : PriorityDeque FdFrame PREEMPTION_DEPTH
  deadlines : PriorityArray Instant

namespace TxRunner

def new : TxRunner := ⟨.new, fun _ ↦ .MAX⟩

/-- The loop over the priorities, with the frames that are dropped. -/
def expire (now : Instant) : List Priority → TxRunner → Exec (TxRunner × List (Priority × FdFrame))
  | [], r => .ok (r, [])
  | p :: ps, r => do
    if r.deadlines p < now then
      let deadlines := Function.update r.deadlines p .MAX
      let (frame, frames) := r.frames.popBack p
      let frame ← unwrap frame
      let res ← expire now ps ⟨frames, deadlines⟩
      return (res.1, (p, frame) :: res.2)
    else expire now ps r

/-- The frame is queued, unless it is anonymous. -/
def fetched (r : TxRunner) (frame : Frame) (format : FrameFormat) :
    Exec (TxRunner × Option FdFrame) := do
  if frame.header.source.isSome then
    let priority := frame.header.priority
    let rawFrame ← makeRawFrame frame format
    let rawFrame ← unwrap rawFrame
    let (res, frames) := r.frames.pushBack priority rawFrame
    unwrap res
    return (⟨frames, Function.update r.deadlines priority frame.timestamp⟩, some rawFrame)
  else return (r, none)

/-- `write_fd` has returned. -/
def delivered (r : TxRunner) (deliveredPriority : Priority) (preemptedFrame : Option FdFrame) :
    Exec TxRunner := do
  let (res, frames) := r.frames.popFront deliveredPriority
  let _ ← unwrap res
  let deadlines := if !frames.priorities.contains deliveredPriority then
    Function.update r.deadlines deliveredPriority .MAX else r.deadlines
  match preemptedFrame with
  | none => return ⟨frames, deadlines⟩
  | some frame =>
    let priority ← unwrap (rawFramePriority frame)
    let (res, frames) := frames.pushFront priority frame
    unwrap res
    return ⟨frames, deadlines⟩

end TxRunner

/-! ## The system -/

/-- The priority of a frame. -/
def priorityOf (frame : FdFrame) : Priority := decodeCanIdPriority frame.id

/-- The last element that is selected, and the others. -/
def takeLast {α : Type} (p : α → Bool) : List α → Option (α × List α)
  | [] => none
  | a :: l =>
    match takeLast p l with
    | some (b, rest) => some (b, a :: rest)
    | none => if p a then some (a, l) else none

/-- The runner, and the frames that the peripheral has accepted and not sent, in this order. -/
structure System where
  runner : TxRunner
  hardware : List FdFrame

inductive Op
  | deadline (now : Instant)
  | fetch (frame : Frame)
  /-- `write_fd` returns the last frame of a priority that the peripheral has accepted. -/
  | write (preempted : Option Priority)
  /-- The frame at an index is sent. -/
  | complete (idx : ℕ)

inductive Event
  | expired (frames : List (Priority × FdFrame))
  | fetched (rawFrame : Option FdFrame)
  /-- There is no frame to write. -/
  | pending
  | handed (frame : FdFrame) (preempted : Option FdFrame)
  | completed (frame : FdFrame)

namespace System

def new : System := ⟨.new, []⟩

def step (format : FrameFormat) (s : System) : Op → Exec (System × Event)
  | .deadline now => do
    let (runner, frames) ← s.runner.expire now Priority.all
    return ({ s with runner := runner }, .expired frames)
  | .fetch frame => do
    let (runner, rawFrame) ← s.runner.fetched frame format
    return ({ s with runner := runner }, .fetched rawFrame)
  | .write preempted => do
    match s.runner.frames.priorities.first with
    | none => return (s, .pending)
    | some priority =>
      let frame ← unwrap (s.runner.frames.front priority)
      match preempted.bind fun p ↦ takeLast (fun frame ↦ priorityOf frame == p) s.hardware with
      | none =>
        let runner ← s.runner.delivered priority none
        return (⟨runner, s.hardware ++ [frame]⟩, .handed frame none)
      | some (preempted, rest) =>
        let runner ← s.runner.delivered priority (some preempted)
        return (⟨runner, rest ++ [frame]⟩, .handed frame (some preempted))
  | .complete idx => do
    let frame ← index s.hardware idx
    return ({ s with hardware := s.hardware.eraseIdx idx }, .completed frame)

/-- What the link and the peripheral do.  A frame is of a priority that was asked for, and has a
valid header if it has a source.  The peripheral accepts as many frames as it can hold, and returns
one of a lower priority. -/
def Valid (s : System) : Op → Prop
  | .deadline _ => True
  | .fetch frame => s.runner.frames.priorities.contains frame.header.priority = false ∧
      (frame.header.source.isSome = true → (makeCanId frame.header).isSome = true)
  | .write none => s.runner.frames.priorities.first.isSome = true ∧
      s.hardware.length < TX_FIFO_DEPTH
  | .write (some p) => (∃ q ∈ s.runner.frames.priorities.first, q.intoU8 < p.intoU8) ∧
      ∃ frame ∈ s.hardware, priorityOf frame = p
  | .complete idx => idx < s.hardware.length

instance decidableValid (s : System) : (op : Op) → Decidable (s.Valid op)
  | .deadline _ => isTrue trivial
  | .fetch _ => inferInstanceAs (Decidable (_ ∧ _))
  | .write none => inferInstanceAs (Decidable (_ ∧ _))
  | .write (some _) => inferInstanceAs (Decidable (_ ∧ _))
  | .complete _ => inferInstanceAs (Decidable (_ < _))

end System

/-! ## What happens to the frames of a priority -/

/-- A frame that was fetched. -/
structure Entry where
  raw : FdFrame
  deadline : Instant

abbrev FrameEvent := LineEvent Entry FdFrame Instant

/-- The deadline of a frame has passed. -/
def Late (now : Instant) (e : Entry) : Prop := e.deadline < now

/-- A step, as the frames of a priority see it. -/
def frameEvents (p : Priority) : Op × Event → List FrameEvent
  | (.deadline now, .expired frames) =>
    (frames.filter fun x ↦ x.1 == p).map fun x ↦ .dropped x.2 now
  | (.fetch frame, .fetched (some rawFrame)) =>
    if frame.header.priority = p then [.arrived ⟨rawFrame, frame.timestamp⟩] else []
  | (_, .handed frame preempted) =>
    (if priorityOf frame = p then [.handed frame] else []) ++
      (preempted.toList.filter fun frame ↦ priorityOf frame == p).map .returned
  | (_, .completed frame) => if priorityOf frame = p then [.finished frame] else []
  | _ => []

/-- The state of a line.  The frames that the runner holds wait, those of the peripheral were handed
over, and a deadline is that of the frame that arrived last and waits. -/
structure Tracks (p : Priority) (l : Line Entry) (queue hardware : List FdFrame)
    (deadline : Instant) : Prop where
  waiting : queue = l.waiting.map Entry.raw
  handed : hardware = l.handed.map Entry.raw
  room : hardware.length + queue.length ≤ PREEMPTION_DEPTH
  deadline : deadline ≠ .MAX → ∃ e, l.arrived.getLast? = some e ∧ l.waiting.getLast? = some e ∧
    e.deadline = deadline
  priority : ∀ frame ∈ queue, priorityOf frame = p

namespace Tracks

variable {p : Priority} {l : Line Entry} {queue hardware : List FdFrame} {deadline : Instant}

theorem empty (p : Priority) : Tracks p .empty [] [] .MAX where
  waiting := rfl
  handed := rfl
  room := Nat.zero_le _
  deadline := fun h ↦ absurd rfl h
  priority := by simp

theorem arrive (h : Tracks p l [] hardware deadline) (hroom : hardware.length < PREEMPTION_DEPTH)
    {e : Entry} (he : priorityOf e.raw = p) :
    ∃ l', Line.Step Entry.raw Late l (.arrived e) l' ∧
      Tracks p l' [e.raw] hardware e.deadline := by
  obtain ⟨as, hs, ws⟩ := l
  have hws : ws = [] := List.map_eq_nil_iff.mp h.waiting.symm
  subst hws
  exact ⟨_, .arrive e, rfl, h.handed, hroom, fun _ ↦ ⟨e, List.getLast?_concat, rfl, rfl⟩,
    List.forall_mem_singleton.mpr he⟩

theorem hand {frame : FdFrame} (h : Tracks p l (frame :: queue) hardware deadline) :
    ∃ l', Line.Step Entry.raw Late l (.handed frame) l' ∧
      Tracks p l' queue (hardware ++ [frame]) (if queue = [] then .MAX else deadline) := by
  obtain ⟨as, hs, ws⟩ := l
  obtain ⟨e, ws, rfl, rfl, rfl⟩ := List.map_eq_cons_iff.mp h.waiting.symm
  refine ⟨_, .hand e, rfl, ?_, ?_, ?_, fun frame hmem ↦ h.priority frame (.tail _ hmem)⟩
  · rw [h.handed, List.map_append]
    rfl
  · have hroom := h.room
    rw [List.length_cons] at hroom
    rw [List.length_append, List.length_singleton]
    omega
  · split
    · exact fun hne ↦ absurd rfl hne
    · rename_i hne
      intro hdeadline
      obtain ⟨e', harrived, hwaiting, he'⟩ := h.deadline hdeadline
      have hws : ws ≠ [] := fun hnil ↦ hne (by rw [hnil]; rfl)
      rw [List.getLast?_cons_of_ne_nil hws] at hwaiting
      exact ⟨e', harrived, hwaiting, he'⟩

theorem giveBack {frame : FdFrame} (h : Tracks p l queue (hardware ++ [frame]) deadline)
    (hframe : priorityOf frame = p) : ∃ l', Line.Step Entry.raw Late l (.returned frame) l' ∧
      Tracks p l' (frame :: queue) hardware deadline := by
  obtain ⟨as, hs, ws⟩ := l
  obtain ⟨hs, last, rfl, rfl, hlast⟩ := List.map_eq_append_iff.mp h.handed.symm
  obtain ⟨e, rfl, rfl⟩ := List.map_eq_singleton_iff.mp hlast
  have hroom := h.room
  rw [List.length_append, List.length_singleton] at hroom
  refine ⟨_, .giveBack e, congrArg (e.raw :: ·) h.waiting, rfl, ?_, fun hdeadline ↦ ?_,
    List.forall_mem_cons.mpr ⟨hframe, h.priority⟩⟩
  · rw [List.length_cons]
    omega
  · obtain ⟨e', harrived, hwaiting, he'⟩ := h.deadline hdeadline
    have hws : ws ≠ [] := fun hnil ↦ by
      dsimp only at hwaiting
      rw [hnil] at hwaiting
      cases hwaiting
    exact ⟨e', harrived, (List.getLast?_cons_of_ne_nil hws).trans hwaiting, he'⟩

theorem finish {frame : FdFrame} {hardware' : List FdFrame}
    (h : Tracks p l queue (hardware ++ frame :: hardware') deadline) :
    ∃ l', Line.Step Entry.raw Late l (.finished frame) l' ∧
      Tracks p l' queue (hardware ++ hardware') deadline := by
  obtain ⟨as, hs, ws⟩ := l
  obtain ⟨hs, rest, rfl, rfl, hrest⟩ := List.map_eq_append_iff.mp h.handed.symm
  obtain ⟨e, hs', rfl, rfl, rfl⟩ := List.map_eq_cons_iff.mp hrest
  have hroom := h.room
  rw [List.length_append, List.length_cons] at hroom
  refine ⟨_, .finish e, h.waiting, (List.map_append ..).symm, ?_, h.deadline, h.priority⟩
  rw [List.length_append]
  omega

theorem drop {now : Instant} (h : Tracks p l queue hardware deadline) (hnow : deadline < now) :
    ∃ frame rest l', queue = rest ++ [frame] ∧
      Line.Step Entry.raw Late l (.dropped frame now) l' ∧ Tracks p l' rest hardware .MAX := by
  obtain ⟨as, hs, ws⟩ := l
  obtain ⟨e, harrived, hwaiting, rfl⟩ :=
    h.deadline fun hmax ↦ absurd (hmax ▸ hnow) (not_lt.mpr (Instant.le_MAX now))
  obtain ⟨as, rfl⟩ := List.getLast?_eq_some_iff.mp harrived
  obtain ⟨ws, rfl⟩ := List.getLast?_eq_some_iff.mp hwaiting
  have hqueue : queue = ws.map Entry.raw ++ [e.raw] := h.waiting.trans (List.map_append ..)
  have hroom := h.room
  rw [hqueue, List.length_append] at hroom
  refine ⟨e.raw, ws.map Entry.raw, _, hqueue, .drop hnow, rfl, h.handed, by omega,
    fun hne ↦ absurd rfl hne, fun frame hmem ↦ h.priority frame ?_⟩
  rw [hqueue]
  exact List.mem_append_left _ hmem

end Tracks

/-! ## Steps -/

theorem takeLast_isSome {α : Type} {p : α → Bool} {l : List α} (h : ∃ a ∈ l, p a = true) :
    (takeLast p l).isSome = true := by
  induction l with
  | nil => simp at h
  | cons a l ih =>
    rw [takeLast]
    cases hlast : takeLast p l with
    | some _ => rfl
    | none =>
      obtain ⟨b, hb, hpb⟩ := h
      rcases List.mem_cons.mp hb with rfl | hb
      · dsimp only
        rw [if_pos hpb]
        rfl
      · rw [hlast] at ih
        cases ih ⟨b, hb, hpb⟩

theorem takeLast_eq_some {α : Type} {p : α → Bool} {l rest : List α} {b : α}
    (h : takeLast p l = some (b, rest)) : ∃ l₁ l₂, l = l₁ ++ b :: l₂ ∧ rest = l₁ ++ l₂ ∧
      p b = true ∧ ∀ a ∈ l₂, p a = false := by
  induction l generalizing rest with
  | nil => cases h
  | cons a l ih =>
    rw [takeLast] at h
    split at h
    · rename_i c rest' hlast
      cases h
      obtain ⟨l₁, l₂, rfl, rfl, hb, hl₂⟩ := ih hlast
      exact ⟨a :: l₁, l₂, rfl, rfl, hb, hl₂⟩
    · rename_i hnone
      split at h
      · rename_i ha
        cases h
        refine ⟨[], l, rfl, rfl, ha, fun c hc ↦ Bool.eq_false_iff.mpr fun hpc ↦ ?_⟩
        have hsome := takeLast_isSome ⟨c, hc, hpc⟩
        rw [hnone] at hsome
        cases hsome
      · cases h

/-- A frame is made of a valid header, and has its priority. -/
theorem makeRawFrame_eq {frame : Frame} (h : (makeCanId frame.header).isSome = true)
    (format : FrameFormat) : ∃ rawFrame, makeRawFrame frame format = .ok (some rawFrame) ∧
      priorityOf rawFrame = frame.header.priority := by
  obtain ⟨canId, hcanId⟩ := Option.isSome_iff_exists.mp h
  have hid : extendedIdNew canId = some canId :=
    if_pos (Nat.le_of_lt_succ (makeCanId_div hcanId).1)
  have hpriority : decodeCanIdPriority canId = frame.header.priority := by
    rcases makeCanId_cases hcanId with ⟨-, r, rfl, -, hheader⟩ | ⟨-, r, rfl, hheader⟩
    · rw [hheader]
      rfl
    · rw [hheader]
      rfl
  rw [makeRawFrame, hcanId]
  dsimp only
  rw [hid, unwrap_some, ok_bind]
  refine ⟨_, rfl, ?_⟩
  split <;> exact hpriority

/-- The lines of all priorities. -/
structure Inv (lines : Priority → Line Entry) (s : System) : Prop where
  consistent : s.runner.frames.Consistent
  tracks : ∀ p, Tracks p (lines p) (s.runner.frames.queues p)
    (s.hardware.filter fun frame ↦ priorityOf frame == p) (s.runner.deadlines p)

variable {lines : Priority → Line Entry} {s : System} {r : TxRunner} {hardware : List FdFrame}
  {format : FrameFormat} {p : Priority}

theorem inv_new : Inv (fun _ ↦ .empty) .new := ⟨PriorityDeque.consistent_new, Tracks.empty⟩

/-- The frames of one priority have changed. -/
theorem Inv.update (h : Inv lines ⟨r, hardware⟩) {frames : PriorityDeque FdFrame PREEMPTION_DEPTH}
    {l : Line Entry} {queue hardware' : List FdFrame} {deadline : Instant}
    (hconsistent : frames.Consistent) (hqueues : frames.queues =
      Function.update r.frames.queues p queue)
    (hother : ∀ q ≠ p, (hardware'.filter fun frame ↦ priorityOf frame == q) =
      hardware.filter fun frame ↦ priorityOf frame == q)
    (htracks : Tracks p l queue (hardware'.filter fun frame ↦ priorityOf frame == p) deadline) :
    Inv (Function.update lines p l)
      ⟨⟨frames, Function.update r.deadlines p deadline⟩, hardware'⟩ := by
  refine ⟨hconsistent, fun q ↦ ?_⟩
  dsimp only
  rw [hqueues]
  by_cases hq : q = p
  · subst hq
    rw [Function.update_self, Function.update_self, Function.update_self]
    exact htracks
  · rw [Function.update_of_ne hq, Function.update_of_ne hq, Function.update_of_ne hq, hother q hq]
    exact h.tracks q

theorem runs_update {l : Line Entry} {e : FrameEvent}
    (h : Line.Step Entry.raw Late (lines p) e l) (q : Priority) :
    Line.Runs Entry.raw Late (lines q) (if p = q then [e] else [])
      (Function.update lines p l q) := by
  by_cases hq : p = q
  · subst hq
    rw [if_pos rfl, Function.update_self]
    exact h.runs
  · rw [if_neg hq, Function.update_of_ne (Ne.symm hq)]
    exact .nil _

theorem Inv.expire (h : Inv lines ⟨r, hardware⟩) (now : Instant) (ps : List Priority) :
    ∃ r' dropped lines', r.expire now ps = .ok (r', dropped) ∧ Inv lines' ⟨r', hardware⟩ ∧
      ∀ p, Line.Runs Entry.raw Late (lines p)
        ((dropped.filter fun x ↦ x.1 == p).map fun x ↦ .dropped x.2 now) (lines' p) := by
  induction ps generalizing r lines with
  | nil => exact ⟨r, [], lines, rfl, h, fun p ↦ .nil _⟩
  | cons p ps ih =>
    by_cases hlate : r.deadlines p < now
    · obtain ⟨frame, rest, l, hqueue, hstep, htracks⟩ := (h.tracks p).drop hlate
      have hinv := h.update (h.consistent.removed p rest fun hnil ↦ by
        rw [hqueue] at hnil
        simp at hnil) rfl (fun _ _ ↦ rfl) htracks
      obtain ⟨r', dropped, lines', hexpire, hinv', hruns⟩ := ih hinv
      refine ⟨r', (p, frame) :: dropped, lines', ?_, hinv', fun q ↦ ?_⟩
      · rw [TxRunner.expire, if_pos hlate, PriorityDeque.popBack_concat hqueue]
        dsimp only
        rw [unwrap_some, ok_bind, hexpire]
        rfl
      · have hfirst := (runs_update hstep q).trans (hruns q)
        rw [List.filter_cons]
        by_cases hq : p = q
        · simpa [hq] using hfirst
        · simpa [hq] using hfirst
    · obtain ⟨r', dropped, lines', hexpire, hinv', hruns⟩ := ih h
      refine ⟨r', dropped, lines', ?_, hinv', hruns⟩
      rw [TxRunner.expire, if_neg hlate, hexpire]

/-- The first frame of a priority is written. -/
theorem Inv.written (h : Inv lines ⟨r, hardware⟩) {frame : FdFrame} {rest : List FdFrame}
    (hqueue : r.frames.queues p = frame :: rest) :
    ∃ r' l, r.delivered p none = .ok r' ∧
      (∀ preempted, r.delivered p (some preempted) = (do
        let (res, frames) := r'.frames.pushFront (priorityOf preempted) preempted
        unwrap res
        return ⟨frames, r'.deadlines⟩)) ∧
      r'.frames.queues = Function.update r.frames.queues p rest ∧
      Line.Step Entry.raw Late (lines p) (.handed frame) l ∧
      Inv (Function.update lines p l) ⟨r', hardware ++ [frame]⟩ := by
  have htracks := h.tracks p
  rw [hqueue] at htracks
  have hframe : priorityOf frame = p := htracks.priority frame List.mem_cons_self
  obtain ⟨l, hstep, htracks'⟩ := htracks.hand
  have hconsistent : (r.frames.removed p rest).Consistent :=
    h.consistent.removed p rest fun hnil ↦ by
      rw [hqueue] at hnil
      cases hnil
  have hdeadlines : (if (!(r.frames.removed p rest).priorities.contains p) = true then
      Function.update r.deadlines p .MAX else r.deadlines) =
        Function.update r.deadlines p (if rest = [] then .MAX else r.deadlines p) := by
    have hcontains := hconsistent p
    rw [PriorityDeque.removed] at hcontains ⊢
    dsimp only at hcontains ⊢
    rw [Function.update_self] at hcontains
    by_cases hrest : rest = []
    · rw [if_pos hrest, Bool.eq_false_iff.mpr fun hc ↦ hcontains.mp hc hrest]
      rfl
    · rw [if_neg hrest, hcontains.mpr hrest, Function.update_eq_self]
      rfl
  refine ⟨⟨r.frames.removed p rest, Function.update r.deadlines p
    (if rest = [] then .MAX else r.deadlines p)⟩, l, ?_, fun preempted ↦ ?_, rfl, hstep,
    h.update hconsistent rfl (fun q hq ↦ ?_) ?_⟩
  · rw [TxRunner.delivered, PriorityDeque.popFront_cons hqueue]
    dsimp only
    rw [unwrap_some, ok_bind, hdeadlines]
    rfl
  · rw [TxRunner.delivered, PriorityDeque.popFront_cons hqueue]
    dsimp only
    rw [unwrap_some, ok_bind, hdeadlines]
    rfl
  · have hne : (priorityOf frame == q) = false := by
      rw [hframe]
      exact beq_false_of_ne (Ne.symm hq)
    simp [hne]
  · have hfilter : ((hardware ++ [frame]).filter fun frame ↦ priorityOf frame == p) =
        (hardware.filter fun frame ↦ priorityOf frame == p) ++ [frame] := by
      simp [hframe]
    rw [hfilter]
    exact htracks'

/-- A frame is given back that was accepted before one of another priority. -/
theorem Inv.returned {before after : List FdFrame} {frame preempted : FdFrame}
    (h : Inv lines ⟨r, (before ++ preempted :: after) ++ [frame]⟩)
    (hlast : ∀ other ∈ after, (priorityOf other == priorityOf preempted) = false)
    (hframe : priorityOf frame ≠ priorityOf preempted) :
    ∃ frames l, r.frames.pushFront (priorityOf preempted) preempted = (some (), frames) ∧
      Line.Step Entry.raw Late (lines (priorityOf preempted)) (.returned preempted) l ∧
      Inv (Function.update lines (priorityOf preempted) l)
        ⟨⟨frames, r.deadlines⟩, (before ++ after) ++ [frame]⟩ := by
  have hframe' : (priorityOf frame == priorityOf preempted) = false := beq_false_of_ne hframe
  have hafter : (after.filter fun other ↦ priorityOf other == priorityOf preempted) = [] :=
    List.filter_eq_nil_iff.mpr fun other hother ↦ by simp [hlast other hother]
  have htracks := h.tracks (priorityOf preempted)
  have hfilter : (((before ++ preempted :: after) ++ [frame]).filter fun other ↦
      priorityOf other == priorityOf preempted) =
        (before.filter fun other ↦ priorityOf other == priorityOf preempted) ++ [preempted] := by
    simp [hafter, hframe']
  have hfilter' : (((before ++ after) ++ [frame]).filter fun other ↦
      priorityOf other == priorityOf preempted) =
        before.filter fun other ↦ priorityOf other == priorityOf preempted := by
    simp [hafter, hframe']
  dsimp only at htracks
  rw [hfilter] at htracks
  obtain ⟨l, hstep, htracks'⟩ := htracks.giveBack rfl
  have hroom : (r.frames.queues (priorityOf preempted)).length < PREEMPTION_DEPTH := by
    have hroom := htracks.room
    rw [List.length_append, List.length_singleton] at hroom
    omega
  refine ⟨_, l, PriorityDeque.pushFront_of_lt hroom, hstep, ?_⟩
  have hinv := h.update (h.consistent.extended (priorityOf preempted) (List.cons_ne_nil preempted
    (r.frames.queues (priorityOf preempted)))) rfl (fun q hq ↦ ?_) (hfilter' ▸ htracks')
  · rwa [Function.update_eq_self] at hinv
  · have hne : (priorityOf preempted == q) = false := beq_false_of_ne (Ne.symm hq)
    simp [hne]

/-! ## Branches -/

theorem Inv.deadline (h : Inv lines s) (now : Instant) :
    ∃ s' event lines', s.step format (.deadline now) = .ok (s', event) ∧ Inv lines' s' ∧
      s'.hardware = s.hardware ∧
      ∀ p, Line.Runs Entry.raw Late (lines p) (frameEvents p (.deadline now, event))
        (lines' p) := by
  obtain ⟨r', dropped, lines', hexpire, hinv, hruns⟩ := Inv.expire h now Priority.all
  exact ⟨⟨r', s.hardware⟩, .expired dropped, lines', by rw [System.step, hexpire]; rfl, hinv, rfl,
    hruns⟩

theorem Inv.fetch (h : Inv lines s) (hdepth : s.hardware.length ≤ TX_FIFO_DEPTH) {frame : Frame}
    (hvalid : s.Valid (.fetch frame)) :
    ∃ s' event lines', s.step format (.fetch frame) = .ok (s', event) ∧ Inv lines' s' ∧
      s'.hardware = s.hardware ∧
      ∀ p, Line.Runs Entry.raw Late (lines p) (frameEvents p (.fetch frame, event)) (lines' p) := by
  obtain ⟨hfree, hheader⟩ := hvalid
  by_cases hsource : frame.header.source.isSome = true
  · obtain ⟨rawFrame, hraw, hpriority⟩ := makeRawFrame_eq (hheader hsource) format
    have hqueue : s.runner.frames.queues frame.header.priority = [] := by
      by_contra hne
      rw [(h.consistent _).mpr hne] at hfree
      cases hfree
    have htracks := h.tracks frame.header.priority
    rw [hqueue] at htracks
    have hroom : (s.hardware.filter fun other ↦
        priorityOf other == frame.header.priority).length < PREEMPTION_DEPTH :=
      Nat.lt_succ_of_le ((List.length_filter_le _ _).trans hdepth)
    obtain ⟨l, hstep, htracks'⟩ :=
      @htracks.arrive _ _ _ _ hroom ⟨rawFrame, frame.timestamp⟩ hpriority
    have hpush : s.runner.frames.pushBack frame.header.priority rawFrame =
        (some (), s.runner.frames.extended frame.header.priority [rawFrame]) := by
      rw [PriorityDeque.pushBack_of_lt (by rw [hqueue]; decide), hqueue]
      rfl
    refine ⟨⟨⟨_, _⟩, s.hardware⟩, .fetched (some rawFrame), _, ?_,
      h.update (h.consistent.extended _ (List.cons_ne_nil rawFrame [])) rfl (fun _ _ ↦ rfl)
        htracks', rfl, runs_update hstep⟩
    rw [System.step, TxRunner.fetched, if_pos hsource, hraw, ok_bind, unwrap_some, ok_bind, hpush]
    rfl
  · refine ⟨s, .fetched none, lines, ?_, h, rfl, fun p ↦ .nil _⟩
    rw [System.step, TxRunner.fetched, if_neg hsource]
    rfl

theorem Inv.write (h : Inv lines s) (hdepth : s.hardware.length ≤ TX_FIFO_DEPTH)
    {preempted : Option Priority} (hvalid : s.Valid (.write preempted)) :
    ∃ s' event lines', s.step format (.write preempted) = .ok (s', event) ∧ Inv lines' s' ∧
      s'.hardware.length ≤ TX_FIFO_DEPTH ∧
      ∀ p, Line.Runs Entry.raw Late (lines p) (frameEvents p (.write preempted, event))
        (lines' p) := by
  have hfirst : ∃ p, s.runner.frames.priorities.first = some p := by
    cases preempted with
    | none => exact Option.isSome_iff_exists.mp hvalid.1
    | some q => exact hvalid.1.imp fun _ ↦ And.left
  obtain ⟨p, hp⟩ := hfirst
  have hne := (h.consistent p).mp (PrioritySet.first_eq_some_iff.mp hp).1
  obtain ⟨frame, rest, hqueue⟩ := List.exists_cons_of_ne_nil hne
  obtain ⟨r', l, hnone, hsome, hqueues, hstep, hinv⟩ := Inv.written h hqueue
  have hframe : priorityOf frame = p :=
    (h.tracks p).priority frame (hqueue ▸ List.mem_cons_self)
  have hfront : s.runner.frames.front p = some frame := by
    rw [PriorityDeque.front, hqueue]
    rfl
  cases preempted with
  | none =>
    refine ⟨_, .handed frame none, _, ?_, hinv, ?_, fun q ↦ ?_⟩
    · rw [System.step, hp]
      dsimp only
      rw [hfront, unwrap_some, ok_bind]
      dsimp only [Option.bind_none]
      rw [hnone]
      rfl
    · rw [List.length_append]
      exact hvalid.2
    · have hrun := runs_update hstep q
      rw [frameEvents, hframe]
      simpa using hrun
  | some q =>
    obtain ⟨⟨p', hp', hlt⟩, other, hother, hq⟩ := hvalid
    cases hp.symm.trans hp'
    have hexists : ∃ frame ∈ s.hardware, (priorityOf frame == q) = true :=
      ⟨other, hother, beq_iff_eq.mpr hq⟩
    obtain ⟨⟨b, hardware⟩, htake⟩ := Option.isSome_iff_exists.mp (takeLast_isSome hexists)
    obtain ⟨before, after, hsplit, rfl, hb, hafter⟩ := takeLast_eq_some htake
    obtain rfl : priorityOf b = q := beq_iff_eq.mp hb
    have hpq : priorityOf frame ≠ priorityOf b := by
      rw [hframe]
      exact fun heq ↦ absurd hlt (heq ▸ lt_irrefl _)
    rw [hsplit] at hinv
    obtain ⟨frames, l', hpush, hstep', hinv'⟩ := Inv.returned hinv hafter hpq
    refine ⟨_, .handed frame (some b), _, ?_, hinv', ?_, fun q ↦ ?_⟩
    · rw [System.step, hp]
      dsimp only
      rw [hfront, unwrap_some, ok_bind]
      dsimp only [Option.bind_some]
      rw [htake]
      dsimp only
      rw [hsome, hpush]
      rfl
    · have hlength := hdepth
      rw [hsplit] at hlength
      simp only [List.length_append, List.length_cons] at hlength ⊢
      omega
    · have hrun := (runs_update hstep q).trans (runs_update hstep' q)
      rw [frameEvents, hframe]
      by_cases hq : priorityOf b = q
      · simpa [hq] using hrun
      · simpa [hq] using hrun

theorem Inv.complete (h : Inv lines s) {idx : ℕ} (hvalid : s.Valid (.complete idx)) :
    ∃ s' event lines', s.step format (.complete idx) = .ok (s', event) ∧ Inv lines' s' ∧
      s'.hardware.length ≤ s.hardware.length ∧
      ∀ p, Line.Runs Entry.raw Late (lines p) (frameEvents p (.complete idx, event))
        (lines' p) := by
  obtain ⟨frame, hget⟩ : ∃ frame, s.hardware[idx]? = some frame :=
    ⟨_, List.getElem?_eq_getElem hvalid⟩
  obtain ⟨hlt, hframe⟩ := List.getElem?_eq_some_iff.mp hget
  have hsplit : s.hardware = s.hardware.take idx ++ frame :: s.hardware.drop (idx + 1) := by
    rw [← hframe, ← List.drop_eq_getElem_cons hlt, List.take_append_drop]
  have herase := List.eraseIdx_eq_take_drop_succ s.hardware idx
  set before := s.hardware.take idx
  set after := s.hardware.drop (idx + 1)
  have htracks := h.tracks (priorityOf frame)
  have hfilter : (s.hardware.filter fun other ↦ priorityOf other == priorityOf frame) =
      (before.filter fun other ↦ priorityOf other == priorityOf frame) ++
        frame :: after.filter fun other ↦ priorityOf other == priorityOf frame := by
    rw [hsplit]
    simp
  rw [hfilter] at htracks
  obtain ⟨l, hstep, htracks'⟩ := htracks.finish
  rw [← List.filter_append] at htracks'
  have hinv := h.update h.consistent (Function.update_eq_self _ _).symm (fun q hq ↦ ?_) htracks'
  · rw [Function.update_eq_self, ← herase] at hinv
    refine ⟨_, .completed frame, _, ?_, hinv, ?_, runs_update hstep⟩
    · rw [System.step, index_of_getElem? hget]
      rfl
    · rw [List.length_eraseIdx]
      split <;> omega
  · have hne : (priorityOf frame == q) = false := beq_false_of_ne (Ne.symm hq)
    rw [hsplit]
    simp [hne]

/-! ## Runs -/

theorem Inv.step (h : Inv lines s) (hdepth : s.hardware.length ≤ TX_FIFO_DEPTH) {op : Op}
    (hop : s.Valid op) :
    ∃ s' event lines', s.step format op = .ok (s', event) ∧ Inv lines' s' ∧
      s'.hardware.length ≤ TX_FIFO_DEPTH ∧
      ∀ p, Line.Runs Entry.raw Late (lines p) (frameEvents p (op, event)) (lines' p) := by
  cases op with
  | deadline now =>
    obtain ⟨s', event, lines', hstep, hinv, hsame, hruns⟩ := h.deadline now
    exact ⟨s', event, lines', hstep, hinv, by rwa [hsame], hruns⟩
  | fetch frame =>
    obtain ⟨s', event, lines', hstep, hinv, hsame, hruns⟩ := h.fetch hdepth hop
    exact ⟨s', event, lines', hstep, hinv, by rwa [hsame], hruns⟩
  | write preempted => exact h.write hdepth hop
  | complete idx =>
    obtain ⟨s', event, lines', hstep, hinv, hle, hruns⟩ := h.complete hop
    exact ⟨s', event, lines', hstep, hinv, hle.trans hdepth, hruns⟩

/-- What the frames of the priorities have seen. -/
def record (m : Priority → List FrameEvent) (x : Op × Event) : Priority → List FrameEvent :=
  fun p ↦ m p ++ frameEvents p x

theorem foldl_record (history : List (Op × Event)) (m : Priority → List FrameEvent) (p : Priority) :
    history.foldl record m p = m p ++ history.flatMap (frameEvents p) := by
  induction history generalizing m with
  | nil => simp
  | cons x history ih =>
    rw [List.foldl_cons, ih, List.flatMap_cons, record, List.append_assoc]

/-- **The queues stay consistent.**  No `unwrap` fails, whatever the link and the peripheral do, and
the frames of a priority are a line: they are handed over in the order they were fetched, one that
is returned is in front again, and one that is dropped is the last that was fetched, which is the
one that the deadline is of. -/
theorem queues_consistent (format : FrameFormat) (ops : List Op)
    (hops : Admissible (System.step format) System.Valid .new ops) :
    ∃ s events, run (System.step format) .new ops = .ok (s, events) ∧ ∀ p, ∃ l : Line Entry,
      Line.Runs Entry.raw Late .empty ((ops.zip events).flatMap (frameEvents p)) l ∧
      (l.handed ++ l.waiting).Sublist l.arrived ∧
      Tracks p l (s.runner.frames.queues p)
        (s.hardware.filter fun frame ↦ priorityOf frame == p) (s.runner.deadlines p) := by
  have hkeeps : ∀ (m : Priority → List FrameEvent) (s : System) (op : Op),
      (∃ lines, (∀ p, Line.Runs Entry.raw Late .empty (m p) (lines p)) ∧ Inv lines s ∧
        s.hardware.length ≤ TX_FIFO_DEPTH) → s.Valid op →
      ∃ s' event, s.step format op = .ok (s', event) ∧
        ∃ lines, (∀ p, Line.Runs Entry.raw Late .empty (record m (op, event) p) (lines p)) ∧
          Inv lines s' ∧ s'.hardware.length ≤ TX_FIFO_DEPTH := by
    rintro m s op ⟨lines, hruns, hinv, hdepth⟩ hop
    obtain ⟨s', event, lines', hstep, hinv', hdepth', hruns'⟩ := hinv.step hdepth hop
    exact ⟨s', event, hstep, lines', fun p ↦ (hruns p).trans (hruns' p), hinv', hdepth'⟩
  obtain ⟨s, events, hrun, lines, hruns, hinv, -⟩ := run_of_records record hkeeps
    ⟨fun _ ↦ .empty, fun _ ↦ .nil _, inv_new, Nat.zero_le _⟩ hops
  refine ⟨s, events, hrun, fun p ↦ ⟨lines p, ?_, ?_, hinv.tracks p⟩⟩
  · have hp := hruns p
    rwa [foldl_record, List.nil_append] at hp
  · exact (hruns p).sublist (.refl _)

/-- A frame is returned while a later one waits, which is dropped at its deadline. -/
theorem queues_consistent_preempted : ∃ s events,
    run (System.step .classic) .new
      [.fetch ⟨⟨.low, .message 7, some 1, none⟩, ⟨[1], by decide⟩, 10, false⟩, .write none,
        .fetch ⟨⟨.low, .message 7, some 1, none⟩, ⟨[2], by decide⟩, 20, false⟩,
        .fetch ⟨⟨.high, .message 8, some 1, none⟩, ⟨[3], by decide⟩, 30, false⟩,
        .write (some .low), .deadline 25] = .ok (s, events) ∧
    ∃ l : Line Entry, l.waiting.map (fun e ↦ e.raw.data.bytes) = [[1]] ∧
      Tracks .low l (s.runner.frames.queues .low)
        (s.hardware.filter fun frame ↦ priorityOf frame == .low) (s.runner.deadlines .low) := by
  obtain ⟨s, events, hrun, h⟩ := queues_consistent .classic
      [.fetch ⟨⟨.low, .message 7, some 1, none⟩, ⟨[1], by decide⟩, 10, false⟩, .write none,
        .fetch ⟨⟨.low, .message 7, some 1, none⟩, ⟨[2], by decide⟩, 20, false⟩,
        .fetch ⟨⟨.high, .message 8, some 1, none⟩, ⟨[3], by decide⟩, 30, false⟩,
        .write (some .low), .deadline 25] (by decide)
  obtain ⟨l, -, -, htracks⟩ := h .low
  have hlow : (s.runner.frames.queues .low).map (fun frame ↦ frame.data.bytes) = [[1]] := by
    cases hrun
    rfl
  refine ⟨s, events, hrun, l, ?_, htracks⟩
  rw [htracks.waiting, List.map_map] at hlow
  exact hlow

end Emcyphal.Can.Embassy
