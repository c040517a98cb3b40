import Emcyphal.Gather

/-!
# The phases of a reassembly

`Phase` is the state machine of `Gather` with the optional fields resolved, and `Phase.push` its
transition, arranged by what happens to a frame instead of by state and tail byte: a duplicate of an
assembled transfer is skipped, a start of transfer (re)starts, anything else has to continue the
running reassembly.

`pushFrame_toGather` is the only place where the table of `Gather.pushFrame` is taken apart.
-/

set_option autoImplicit false

namespace Emcyphal

open Rust

/-- How far a running reassembly has come: only its first frame, or a further one, by parity. -/
inductive Progress
  | first
  | odd
  | even
deriving DecidableEq

namespace Progress

/-- The toggle bit of the next new frame. -/
def expected : Progress → Bool
  | first | even => !SOT_TOGGLE_BIT
  | odd => SOT_TOGGLE_BIT

/-- The progress once that frame is accumulated. -/
def next : Progress → Progress
  | first | even => odd
  | odd => even

@[simp] theorem expected_next (p : Progress) : p.next.expected = !p.expected := by
  cases p <;> rfl

end Progress

/-- The state of a reassembly that accumulates what it receives in an `α`. -/
inductive Phase (α : Type)
  /-- No transfer was ever started. -/
  | idle
  /-- Nothing is going on; the last transfer was started at `sof`. -/
  | idleLast (sof : Instant)
  /-- A multi-frame transfer is being accumulated. -/
  | running (progress : Progress) (sof : Instant) (tid : TransferId) (acc : α)
  /-- The last transfer was delivered; its duplicates are filtered out. -/
  | assembled (sof : Instant) (tid : TransferId)
deriving DecidableEq

namespace Phase

variable {α β : Type}

/-- The state of the code. -/
def toGather : Phase PayloadAccumulator → Gather
  | idle => ⟨.idle, none, none, .default⟩
  | idleLast sof => ⟨.idleLastTransfer, some sof, none, .default⟩
  | running .first sof tid acc => ⟨.accumulatedFirst, some sof, some tid, acc⟩
  | running .odd sof tid acc => ⟨.accumulatedOdd, some sof, some tid, acc⟩
  | running .even sof tid acc => ⟨.accumulatedEven, some sof, some tid, acc⟩
  | assembled sof tid => ⟨.assembled, some sof, some tid, .default⟩

/-- When the last transfer was started. -/
def sof? : Phase α → Option Instant
  | idle => none
  | idleLast sof | running _ sof _ _ | assembled sof _ => some sof

/-- The transfer the phase is about. -/
def tid? : Phase α → Option TransferId
  | idle | idleLast _ => none
  | running _ _ tid _ | assembled _ tid => some tid

/-- The phase once the assembly is stopped. -/
def stop : Phase α → Phase α
  | idle => idle
  | idleLast sof | running _ sof _ _ | assembled sof _ => idleLast sof

@[simp] theorem tid?_stop (p : Phase α) : p.stop.tid? = none := by cases p <;> rfl

@[simp] theorem sof?_stop (p : Phase α) : p.stop.sof? = p.sof? := by cases p <;> rfl

/-- Is this the transfer the phase is about, within its timeout? -/
def isCurrent (p : Phase α) (timeout : Duration) (tid : TransferId) (timestamp : Instant) : Bool :=
  match p with
  | idle | idleLast _ => false
  | running _ sof tid' _ | assembled sof tid' =>
    decide (tid = tid') && decide (timestamp ≤ Instant.saturatingAdd sof timeout)

def isAssembled : Phase α → Bool
  | assembled _ _ => true
  | _ => false

/-- What a frame leaves behind: a transfer or not, the new phase and the buffer. -/
abbrev Outcome := Option Transfer × Phase PayloadAccumulator × List Byte

/-- A transfer of a single frame. -/
def single (buffer : List Byte) (segment : Segment) : Exec Outcome := do
  let length ← unwrap (u32TryFrom segment.payload.length)
  return (some ⟨segment.transferId, segment.priority, segment.timestamp, length⟩,
    assembled segment.timestamp segment.transferId,
    overwrite buffer 0 (segment.payload.take (min segment.payload.length buffer.length)))

/-- Appends a segment and goes to the phase `next`, or gives up. -/
def appendTo (next : PayloadAccumulator → Phase PayloadAccumulator) (sof : Instant)
    (acc : PayloadAccumulator) (buffer : List Byte) (segment : Segment) : Outcome :=
  match acc.append buffer segment.payload with
  | none => (none, idleLast sof, buffer)
  | some (acc, buffer) => (none, next acc, buffer)

/-- The first frame of a multi-frame transfer. -/
def start (p : Phase PayloadAccumulator) (buffer : List Byte) (segment : Segment) : Outcome :=
  if (Mtu.tryFrom (segment.payload.length + 1)).isNone then (none, p.stop, buffer)
  else appendTo (running .first segment.timestamp segment.transferId) segment.timestamp .default
    buffer segment

/-- A frame in the middle of a multi-frame transfer. -/
def extend (progress : Progress) (sof : Instant) (tid : TransferId) (acc : PayloadAccumulator)
    (buffer : List Byte) (segment : Segment) : Outcome :=
  if (Mtu.tryFrom (segment.payload.length + 1)).isNone then (none, idleLast sof, buffer)
  else appendTo (running progress.next sof tid) sof acc buffer segment

/-- The last frame of a multi-frame transfer. -/
def finish (sof : Instant) (tid : TransferId) (acc : PayloadAccumulator) (buffer : List Byte)
    (segment : Segment) : Outcome :=
  if segment.payload.isEmpty then (none, idleLast sof, buffer)
  else match acc.append buffer segment.payload with
  | none => (none, idleLast sof, buffer)
  | some (acc, buffer) =>
    match acc.tryGet with
    | none => (none, idleLast sof, buffer)
    | some length => (some ⟨tid, segment.priority, sof, length⟩, assembled sof tid, buffer)

/-- A frame that starts no transfer, received while a reassembly it belongs to is running. -/
def proceed (progress : Progress) (sof : Instant) (tid : TransferId) (acc : PayloadAccumulator)
    (buffer : List Byte) (tail : TailByte) (segment : Segment) : Outcome :=
  if tail.toggle = progress.expected then
    if tail.eot then finish sof tid acc buffer segment
    else extend progress sof tid acc buffer segment
  else if progress = .first ∨ tail.eot = true then (none, idleLast sof, buffer)
  else (none, running progress sof tid acc, buffer)

/-- The transition of the reassembly for a non-empty frame. -/
def push (p : Phase PayloadAccumulator) (timeout : Duration) (buffer : List Byte) (tail : TailByte)
    (segment : Segment) : Exec Outcome :=
  let current := p.isCurrent timeout segment.transferId segment.timestamp
  if p.isAssembled && current then .ok (none, p, buffer)
  else if tail.sot then
    if tail.toggle = SOT_TOGGLE_BIT then
      if tail.eot then single buffer segment else .ok (p.start buffer segment)
    else .ok (none, p.stop, buffer)
  else match p, current with
  | running progress sof tid acc, true => .ok (proceed progress sof tid acc buffer tail segment)
  | _, _ => .ok (none, p.stop, buffer)

/-- The transition for a frame as it is received. -/
def pushData (p : Phase PayloadAccumulator) (timeout : Duration) (buffer : List Byte)
    (priority : Priority) (data : List Byte) (timestamp : Instant) : Exec Outcome :=
  match splitLast data with
  | none => .ok (none, p, buffer)
  | some (tailByte, payload) =>
    p.push timeout buffer ⟨tailByte⟩
      ⟨TailByte.transferId ⟨tailByte⟩, priority, payload, timestamp⟩

/-! ## The phases describe the code -/

/-- The outcome of the code that a phase outcome stands for. -/
def liftOutcome (o : Outcome) : Gather.Outcome := (o.1, o.2.1.toGather, o.2.2)

theorem lastTransferTimestamp_toGather (p : Phase PayloadAccumulator) :
    p.toGather.lastTransferTimestamp = .ok p.sof? := by
  cases p with
  | running progress sof tid acc => cases progress <;> rfl
  | _ => rfl

theorem tidMatch_toGather (p : Phase PayloadAccumulator) (timeout : Duration) (tid : TransferId)
    (timestamp : Instant) :
    p.toGather.tidMatch timeout tid timestamp = .ok (p.isCurrent timeout tid timestamp) := by
  have h : ∀ tid' : TransferId, ∀ b : Bool,
      (if tid = tid' then (.ok b : Exec Bool) else .ok false) = .ok (decide (tid = tid') && b) := by
    intro tid' b
    by_cases ht : tid = tid' <;> simp [ht]
  cases p with
  | running progress sof tid' acc => cases progress <;> exact h tid' _
  | assembled sof tid' => exact h tid' _
  | _ => rfl

theorem stopAssembly_toGather (p : Phase PayloadAccumulator) (buffer : List Byte) :
    p.toGather.stopAssembly buffer = liftOutcome (none, p.stop, buffer) := by
  cases p with
  | running progress sof tid acc => cases progress <;> rfl
  | _ => rfl

theorem singleFrameAssembly_eq (g : Gather) (buffer : List Byte) (segment : Segment) :
    g.singleFrameAssembly buffer segment = (single buffer segment).map liftOutcome := by
  rw [Gather.singleFrameAssembly, single]
  cases u32TryFrom segment.payload.length <;> rfl

theorem appendOrStop_toGather {next : PayloadAccumulator → Phase PayloadAccumulator} {sof : Instant}
    {acc : PayloadAccumulator} (buffer : List Byte) (segment : Segment)
    {g : Gather} (hg : ∀ acc', { g with acc := acc' } = (next acc').toGather)
    (hacc : g.acc = acc) (hsof : g.sofTimestamp = some sof) :
    g.appendOrStop buffer segment = liftOutcome (appendTo next sof acc buffer segment) := by
  rw [Gather.appendOrStop, appendTo, hacc]
  cases acc.append buffer segment.payload with
  | none => simp only [Gather.stopAssembly, hsof, Option.isSome_some, if_true]; rfl
  | some r => simp only [hg]; rfl

theorem accumulateFirst_toGather (p : Phase PayloadAccumulator) (buffer : List Byte)
    (segment : Segment) :
    p.toGather.accumulateFirst buffer segment = liftOutcome (p.start buffer segment) := by
  rw [Gather.accumulateFirst, start]
  split
  · exact stopAssembly_toGather p buffer
  · exact appendOrStop_toGather buffer segment (fun _ ↦ rfl) rfl rfl

variable {sof : Instant} {tid : TransferId} {acc : PayloadAccumulator}

theorem accumulateOdd_toGather {progress : Progress} (h : progress ≠ .odd) (buffer : List Byte)
    (segment : Segment) : (running progress sof tid acc).toGather.accumulateOdd buffer segment =
      liftOutcome (extend progress sof tid acc buffer segment) := by
  rw [Gather.accumulateOdd, extend]
  split
  · exact stopAssembly_toGather _ buffer
  · cases progress with
    | odd => exact absurd rfl h
    | _ => exact appendOrStop_toGather buffer segment (fun _ ↦ rfl) rfl rfl

theorem accumulateEven_toGather (buffer : List Byte) (segment : Segment) :
    (running .odd sof tid acc).toGather.accumulateEven buffer segment =
      liftOutcome (extend .odd sof tid acc buffer segment) := by
  rw [Gather.accumulateEven, extend]
  split
  · exact stopAssembly_toGather _ buffer
  · exact appendOrStop_toGather buffer segment (fun _ ↦ rfl) rfl rfl

theorem finishAssembly_toGather (progress : Progress) (buffer : List Byte) (segment : Segment) :
    (running progress sof tid acc).toGather.finishAssembly buffer segment =
      .ok (liftOutcome (finish sof tid acc buffer segment)) := by
  have hacc : (running progress sof tid acc).toGather.acc = acc := by cases progress <;> rfl
  have htid : (running progress sof tid acc).toGather.transferId = some tid := by
    cases progress <;> rfl
  have hsof : (running progress sof tid acc).toGather.sofTimestamp = some sof := by
    cases progress <;> rfl
  rw [Gather.finishAssembly, finish, hacc]
  split
  · exact congrArg Except.ok (stopAssembly_toGather _ buffer)
  · cases acc.append buffer segment.payload with
    | none => exact congrArg Except.ok (stopAssembly_toGather _ buffer)
    | some r =>
      simp only
      cases r.1.tryGet with
      | none => simp only [Gather.stopAssembly, hsof, Option.isSome_some, if_true]; rfl
      | some length => simp only [htid, hsof, unwrap_some, ok_bind]; rfl

/-- **The code runs the phases**: on a state that comes from a phase, `pushFrame` does what the
phase says, and panics exactly when the phase does. -/
theorem pushFrame_toGather (p : Phase PayloadAccumulator) (timeout : Duration) (buffer : List Byte)
    (priority : Priority) (data : List Byte) (timestamp : Instant) :
    p.toGather.pushFrame timeout buffer priority data timestamp =
      (p.pushData timeout buffer priority data timestamp).map liftOutcome := by
  rw [Gather.pushFrame, pushData]
  cases splitLast data with
  | none => rfl
  | some r =>
    obtain ⟨tailByte, payload⟩ := r
    simp only [tidMatch_toGather, ok_bind, push, proceed]
    generalize TailByte.mk tailByte = tail
    generalize p.isCurrent timeout tail.transferId timestamp = current
    generalize tail.transferId = tid
    generalize tail.sot = sot
    generalize tail.eot = eot
    generalize tail.toggle = toggle
    -- the table of the code, row by row: the phase gives the state, the tail byte the rest
    cases p with
    | running progress sof tid' acc =>
      cases progress <;> cases sot <;> cases eot <;> cases toggle <;> cases current <;>
        first
        | exact congrArg Except.ok (stopAssembly_toGather _ _)
        | exact singleFrameAssembly_eq _ _ _
        | exact congrArg Except.ok (accumulateFirst_toGather _ _ _)
        | exact congrArg Except.ok (accumulateOdd_toGather (by decide) _ _)
        | exact congrArg Except.ok (accumulateEven_toGather _ _)
        | exact finishAssembly_toGather _ _ _
        | rfl
    | _ =>
      cases sot <;> cases eot <;> cases toggle <;> cases current <;>
        first
        | rfl
        | exact congrArg Except.ok (stopAssembly_toGather _ _)
        | exact singleFrameAssembly_eq _ _ _
        | exact congrArg Except.ok (accumulateFirst_toGather _ _ _)

end Phase

end Emcyphal
