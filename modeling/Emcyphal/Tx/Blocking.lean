import Emcyphal.Tx.Outgoing

/-!
# The blocking message buffer

`emcyphal/src/buffer/tx_msg/blocking.rs`.  There is one data buffer, and no transfer is accepted
before the previous one is sent.  `writeScratchpad` is what the caller of `get_scratchpad` does.
-/

set_option autoImplicit false

namespace Emcyphal.Blocking

open Rust

structure TransferEntry where
  scatter : Scatter
  deadline : Instant
  loopBack : Bool
deriving DecidableEq

structure Inner where
  subject : SubjectId
  priority : Priority
  buffer : List Byte
  pendingTransfer : Option TransferEntry
  scratchpadProvided : Bool
  nonFullTrigger : Option Waker
  emptyTrigger : Option Waker
deriving DecidableEq

namespace Inner

def new (subject : SubjectId) (priority : Priority) (buffer : List Byte) : Inner where
  subject := subject
  priority := priority
  buffer := buffer
  pendingTransfer := none
  scratchpadProvided := false
  nonFullTrigger := none
  emptyTrigger := none

def popReadiness (r : Inner) : PrioritySet :=
  if r.pendingTransfer.isSome then .newEq r.priority else .NONE

/-- After a frame was fetched, the transfer is kept with what is left of it, or it is gone. -/
def advance (r : Inner) (entry : TransferEntry) (scatter : Scatter) : Inner :=
  if scatter.isExhausted then
    { r with pendingTransfer := none, nonFullTrigger := none, emptyTrigger := none }
  else { r with pendingTransfer := some { entry with scatter := scatter } }

def tryPop (r : Inner) (priorityMask : PrioritySet) (mtu : Mtu) : Exec (Option Frame × Inner) := do
  if (r.popReadiness &&& priorityMask).isEmpty then return (none, r)
  let entry ← unwrap r.pendingTransfer
  let (data, scatter) ← entry.scatter.fetchFrameData r.buffer mtu
  let data ← unwrap data
  let frame : Frame := {
    header := ⟨r.priority, .message r.subject, none, none⟩
    data := data
    timestamp := entry.deadline
    loopBack := entry.loopBack }
  return (some frame, r.advance entry scatter)

def isEmpty (r : Inner) : Bool := r.pendingTransfer.isNone

def pollIsEmpty (r : Inner) (waker : Waker) : Bool × Inner :=
  if r.isEmpty then (true, r) else (false, { r with emptyTrigger := some waker })

def pushReadiness (r : Inner) : PrioritySet :=
  if r.pendingTransfer.isNone then .newEq r.priority else .NONE

/-- `none` is `Poll::Pending`. -/
def pollPushReadiness (r : Inner) (waker : Waker) (priorityMask : PrioritySet) :
    Option PrioritySet × Inner :=
  if priorityMask.contains r.priority then
    if r.pendingTransfer.isNone then (some (.newEq r.priority), r)
    else (none, { r with nonFullTrigger := some waker })
  else (none, r)

/-- Next to the priorities, the contents of the buffer that can be written to. -/
def getScratchpad (r : Inner) : Exec (Option (PrioritySet × List Byte) × Inner) := do
  let priorities := r.pushReadiness
  if priorities.isEmpty then return (none, r)
  let r := { r with scratchpadProvided := true }
  assert r.pendingTransfer.isNone
  return (some (priorities, r.buffer), r)

/-- The caller writes to the scratchpad it was given. -/
def writeScratchpad (r : Inner) (bytes : List Byte) : Inner :=
  if r.scratchpadProvided then { r with buffer := bytes } else r

def tryPush (r : Inner) (transferMeta : TransferMeta) (length : ℕ) (crc : TransferCrc) :
    Exec (Except BufferError Unit × Inner) := do
  if transferMeta.address.isSome then return (.error .messageAddressSpecified, r)
  if !r.pushReadiness.contains transferMeta.priority then return (.error .priorityNotReady, r)
  if !r.scratchpadProvided then return (.error .scratchpadNotInitialized, r)
  let entry : TransferEntry := {
    scatter := .new transferMeta.transferId length crc
    deadline := transferMeta.timestamp
    loopBack := transferMeta.loopBack }
  let prev := r.pendingTransfer
  let r := { r with scratchpadProvided := false, pendingTransfer := some entry }
  assert (prev.isNone = true)
  return (.ok (), r)

/-! ## What it does -/

/-- What the entry stands for. -/
def outgoing (r : Inner) (entry : TransferEntry) : Outgoing :=
  ⟨entry.scatter, entry.deadline, entry.loopBack, none, r.buffer⟩

/-- The transfer that is being sent. -/
def current (r : Inner) : Option Outgoing := r.pendingTransfer.map r.outgoing

/-- What holds of a buffer for data of length `n` in every state. -/
structure Inv (r : Inner) (n : ℕ) : Prop where
  length : r.buffer.length = n
  current : ∀ o ∈ r.current, o.Ready
  /-- The scratchpad is not in use by a transfer. -/
  scratchpad : r.scratchpadProvided = true → r.pendingTransfer = none

variable {r : Inner} {n : ℕ}

theorem inv_new (subject : SubjectId) (priority : Priority) (buffer : List Byte) :
    (new subject priority buffer).Inv buffer.length :=
  ⟨rfl, by simp [current, new], fun _ ↦ rfl⟩

/-- What never changes. -/
def header (r : Inner) : SubjectId × Priority := (r.subject, r.priority)

theorem header_advance (r : Inner) (entry : TransferEntry) (s : Scatter) :
    (r.advance entry s).header = r.header := by
  rw [advance]
  split <;> rfl

theorem current_eq_none : r.current = none ↔ r.pendingTransfer = none := Option.map_eq_none_iff

theorem popReadiness_eq : r.popReadiness = if r.current.isSome then .newEq r.priority
    else .NONE := by
  simp [popReadiness, current]

theorem pushReadiness_eq : r.pushReadiness = if r.current.isNone then .newEq r.priority
    else .NONE := by
  simp [pushReadiness, current]

namespace Inv

/-- A frame is fetched from the transfer. -/
theorem advance (h : r.Inv n) {entry : TransferEntry} (hentry : r.pendingTransfer = some entry)
    {mtu : Mtu} {data : Data} {rest : Option Outgoing}
    (hs : (r.outgoing entry).Sends mtu data rest) :
    ∃ s, entry.scatter.fetchFrameData r.buffer mtu = .ok (some data, s) ∧
      (r.advance entry s).Inv n ∧ (r.advance entry s).current = rest ∧
      (r.advance entry s).scratchpadProvided = r.scratchpadProvided := by
  have hprovided : r.scratchpadProvided = true → False := by
    intro hprovided
    have hnone := h.scratchpad hprovided
    rw [hentry] at hnone
    cases hnone
  cases hs with
  | more hfetched hleft =>
    rename_i s
    have hadvance : r.advance entry s =
        { r with pendingTransfer := some { entry with scatter := s } } := by
      rw [Inner.advance, hleft]
      rfl
    refine ⟨s, hfetched.eq, ?_⟩
    rw [hadvance]
    refine ⟨⟨h.length, ?_, fun hprov ↦ (hprovided hprov).elim⟩, rfl, rfl⟩
    intro o ho
    cases ho
    exact hfetched.ready hleft
  | last hfetched hdone =>
    rename_i s
    refine ⟨s, hfetched.eq, ?_⟩
    rw [Inner.advance, if_pos hdone]
    exact ⟨⟨h.length, by simp [Inner.current], fun _ ↦ rfl⟩, rfl, rfl⟩

/-- **A fetch returns the next frame.** -/
theorem tryPop (h : r.Inv n) {mask : PrioritySet} (hmask : mask.contains r.priority = true)
    {o : Outgoing} (hcurrent : r.current = some o) {mtu : Mtu} {data : Data}
    {rest : Option Outgoing} (hs : o.Sends mtu data rest) : ∃ r',
      r.tryPop mask mtu = .ok (some (o.frame r.priority (.message r.subject) data), r') ∧ r'.Inv n ∧
      r'.current = rest ∧ r'.header = r.header ∧ r'.scratchpadProvided = r.scratchpadProvided := by
  obtain ⟨entry, hentry, rfl⟩ := Option.map_eq_some_iff.mp hcurrent
  have hready : (r.popReadiness &&& mask).isEmpty = false := by
    rw [← Bool.not_eq_true, PrioritySet.isEmpty_iff]
    intro hempty
    have hnot := hempty r.priority
    rw [popReadiness_eq, hcurrent] at hnot
    simp [hmask] at hnot
  obtain ⟨s, hfetch, hinv, hrest, hprovided⟩ := h.advance hentry hs
  refine ⟨r.advance entry s, ?_, hinv, hrest, header_advance .., hprovided⟩
  rw [Inner.tryPop, hready, hentry]
  dsimp only
  rw [unwrap_some]
  dsimp only [ok_bind]
  rw [hfetch]
  rfl

/-- Otherwise there is nothing to fetch, and nothing happens. -/
theorem tryPop_none {mask : PrioritySet}
    (hnone : mask.contains r.priority = false ∨ r.current = none) (mtu : Mtu) :
    r.tryPop mask mtu = .ok (none, r) := by
  have hempty : (r.popReadiness &&& mask).isEmpty = true := by
    rw [PrioritySet.isEmpty_iff]
    intro p
    rw [PrioritySet.contains_and, popReadiness_eq]
    rcases hnone with hmask | hcurrent
    · split
      · by_cases hp : r.priority = p
        · subst hp
          rw [hmask, Bool.and_false]
        · simp [hp]
      · simp
    · simp [hcurrent]
  rw [Inner.tryPop, hempty]
  rfl

/-- The scratchpad is provided as long as no transfer is being sent. -/
theorem getScratchpad (h : r.Inv n) : ∃ r',
    r.getScratchpad = .ok (if r.current.isNone then some (.newEq r.priority, r.buffer) else none,
      r') ∧
      r'.Inv n ∧ r'.current = r.current ∧ r'.header = r.header ∧ r'.buffer = r.buffer ∧
      r'.scratchpadProvided = (r.scratchpadProvided || r.current.isNone) := by
  cases hpending : r.pendingTransfer with
  | none =>
    have hcurrent : r.current = none := current_eq_none.mpr hpending
    refine ⟨{ r with scratchpadProvided := true }, ?_, ⟨h.length, h.current, fun _ ↦ hpending⟩, rfl,
      rfl, rfl, by simp [hcurrent]⟩
    rw [Inner.getScratchpad, pushReadiness_eq, hcurrent]
    simp [hpending, PrioritySet.isEmpty_iff]
  | some entry =>
    have hcurrent : r.current.isNone = false := by simp [Inner.current, hpending]
    refine ⟨r, ?_, h, rfl, rfl, rfl, by simp [hcurrent]⟩
    rw [Inner.getScratchpad, pushReadiness_eq, hcurrent]
    rfl

theorem writeScratchpad (h : r.Inv n) {bytes : List Byte} (hbytes : bytes.length = n) :
    (r.writeScratchpad bytes).Inv n ∧ (r.writeScratchpad bytes).current = r.current ∧
      (r.writeScratchpad bytes).header = r.header ∧
      (r.writeScratchpad bytes).scratchpadProvided = r.scratchpadProvided ∧
      (r.writeScratchpad bytes).buffer = if r.scratchpadProvided then bytes else r.buffer := by
  rw [Inner.writeScratchpad]
  split
  · rename_i hprovided
    have hnone := h.scratchpad hprovided
    exact ⟨⟨hbytes, by simp [Inner.current, hnone], fun _ ↦ hnone⟩, by simp [Inner.current, hnone],
      rfl, rfl, rfl⟩
  · exact ⟨h, rfl, rfl, rfl, rfl⟩

/-- A transfer is pushed. -/
theorem tryPush (h : r.Inv n) {transferMeta : TransferMeta} {length : ℕ}
    (haddress : transferMeta.address = none) (hpriority : transferMeta.priority = r.priority)
    (hprovided : r.scratchpadProvided = true) (hlength : length ≤ n) (crc : TransferCrc) : ∃ r',
      r.tryPush transferMeta length crc = .ok (.ok (), r') ∧ r'.Inv n ∧
      r'.current = some (.new transferMeta length crc r.buffer) ∧ r'.header = r.header ∧
      r'.scratchpadProvided = false := by
  have hnone := h.scratchpad hprovided
  have hready : (Outgoing.new transferMeta length crc r.buffer).Ready :=
    Outgoing.ready_new (by rw [h.length]; exact hlength)
  have hnew : Outgoing.mk (.new transferMeta.transferId length crc) transferMeta.timestamp
      transferMeta.loopBack none r.buffer = .new transferMeta length crc r.buffer := by
    rw [Outgoing.new, haddress]
  refine ⟨{ r with
    scratchpadProvided := false
    pendingTransfer := some
      ⟨.new transferMeta.transferId length crc, transferMeta.timestamp, transferMeta.loopBack⟩ },
    ?_, ⟨h.length, ?_, fun hprov ↦ by cases hprov⟩, congrArg some hnew, rfl, rfl⟩
  · rw [Inner.tryPush, pushReadiness_eq, current_eq_none.mpr hnone]
    simp [haddress, hpriority, hprovided, hnone]
  · intro o ho
    cases ho
    rw [← hnew] at hready
    exact hready

/-- Otherwise nothing happens. -/
theorem tryPush_error (transferMeta : TransferMeta)
    (hnot : transferMeta.address ≠ none ∨ transferMeta.priority ≠ r.priority ∨
      r.pendingTransfer ≠ none ∨ r.scratchpadProvided = false) (length : ℕ) (crc : TransferCrc) :
    ∃ e, r.tryPush transferMeta length crc = .ok (.error e, r) := by
  rw [Inner.tryPush]
  by_cases haddress : transferMeta.address.isSome = true
  · exact ⟨_, by rw [if_pos haddress]; rfl⟩
  rw [if_neg haddress]
  by_cases hready : r.pushReadiness.contains transferMeta.priority = true
  · have hprovided : r.scratchpadProvided = false := by
      rw [pushReadiness] at hready
      split at hready
      · rename_i hnone
        simp only [PrioritySet.contains_newEq, decide_eq_true_eq] at hready
        simp_all
      · simp at hready
    exact ⟨_, by rw [hready, hprovided]; rfl⟩
  · exact ⟨_, by rw [if_pos (by simpa using hready)]; rfl⟩

end Inv

end Inner

end Emcyphal.Blocking
