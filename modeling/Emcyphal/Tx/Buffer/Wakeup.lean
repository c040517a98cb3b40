import Emcyphal.Lib.Wakeup
import Emcyphal.Trigger
import Emcyphal.Tx.Buffer

/-!
# The endpoint of a transmit buffer is woken

An endpoint waits until its buffer accepts a transfer of some priority, or until all transfers are
sent.  Nothing but a fetch brings that about, and each buffer wakes the endpoint from there.  Taking
the scratchpad of a non-blocking buffer gives up a transfer, but not the last one.

The non-blocking buffer always accepts a transfer of its priority, so it has no slot for who waits
for that, and a message buffer never accepts a transfer of another priority.
-/

set_option autoImplicit false

namespace Emcyphal

open Rust PriorityTrigger

/-! ## What wakes the endpoint -/

namespace Signal.Inner

variable {r r' : Inner}

/-- The slots, and what the endpoint can wait for, are as before or further away. -/
structure Settled (r r' : Inner) : Prop where
  priority : r'.priority = r.priority
  emptyWaker : r'.emptyWaker = r.emptyWaker
  isEmpty : r.isEmpty = false → r'.isEmpty = false

theorem Settled.refl (r : Inner) : r.Settled r := ⟨rfl, rfl, id⟩

theorem settled_startTransfer (r : Inner) : r.Settled r.startTransfer := by
  rw [startTransfer]
  split
  · rename_i hnone
    refine ⟨rfl, rfl, fun h ↦ ?_⟩
    rw [isEmpty, hnone, Bool.true_and] at h
    rw [isEmpty, h, Bool.false_and]
  · exact .refl r

theorem header_advance {entry : TransferEntry} {scatter : Scatter}
    (h : r.advance entry scatter = .ok r') :
    r'.priority = r.priority ∧ r'.emptyWaker = r.emptyWaker := by
  rw [advance] at h
  split at h
  · rw [pushFree] at h
    split at h
    · cases h
      exact ⟨rfl, rfl⟩
    · cases h
  · cases h
    exact ⟨rfl, rfl⟩

/-- A fetch that leaves nothing wakes who waits for that. -/
theorem tryPop_wakes {mask : PrioritySet} {mtu : Mtu} {frame : Option Frame}
    (h : r.tryPop mask mtu = .ok (frame, r')) :
    r'.priority = r.priority ∧ (r'.emptyWaker = none ∨ r.Settled r') := by
  rw [tryPop] at h
  split at h
  · cases h
    exact ⟨rfl, .inr (.refl r)⟩
  · have hstart := settled_startTransfer r
    dsimp only at h
    split at h
    · cases h
      exact ⟨hstart.priority, .inr hstart⟩
    · rename_i entry hentry
      obtain ⟨buffer, -, h⟩ := bind_eq_ok.mp h
      obtain ⟨⟨data, scatter⟩, -, h⟩ := bind_eq_ok.mp h
      obtain ⟨data', -, h⟩ := bind_eq_ok.mp h
      obtain ⟨r₁, hadvance, h⟩ := bind_eq_ok.mp h
      obtain ⟨hpriority, hwaker⟩ := header_advance hadvance
      cases h
      split
      · exact ⟨hpriority.trans hstart.priority, .inl rfl⟩
      · rename_i hnonempty
        exact ⟨hpriority.trans hstart.priority, .inr ⟨hpriority.trans hstart.priority,
          hwaker.trans hstart.emptyWaker, fun _ ↦ by simpa using hnonempty⟩⟩

/-- The scratchpad takes the buffer of a transfer only if another one is being sent. -/
theorem settled_getScratchpad {n : ℕ} (hr : r.Inv n) {res : Option (PrioritySet × List Byte)}
    (h : r.getScratchpad = .ok (res, r')) : r.Settled r' := by
  have hprovide : ∀ r₁ : Inner, (do
      let idx ← unwrap r₁.scratchpadBufferIdx
      let buffer ← index r₁.buffers idx
      pure (some (PrioritySet.newEq r₁.priority, buffer), r₁)) = Except.ok (res, r') → r' = r₁ := by
    intro r₁ h
    obtain ⟨idx, -, h⟩ := bind_eq_ok.mp h
    obtain ⟨buffer, -, h⟩ := bind_eq_ok.mp h
    cases h
    rfl
  rw [getScratchpad] at h
  dsimp only at h
  split at h
  · rw [pure_eq_ok, ok_bind] at h
    exact hprovide r h ▸ .refl r
  · rename_i hscratchpad
    split at h
    · rw [pure_eq_ok, ok_bind] at h
      exact hprovide _ h ▸ ⟨rfl, rfl, id⟩
    · rename_i hfree
      obtain ⟨entry, -, h⟩ := bind_eq_ok.mp h
      rw [pure_eq_ok, ok_bind] at h
      rw [hprovide _ h]
      refine ⟨rfl, rfl, fun _ ↦ ?_⟩
      have hnil : r.freeBufferIndexes = [] := by
        rwa [splitLast, Option.map_eq_none_iff, List.getLast?_eq_none_iff] at hfree
      have hroles := hr.roles
      rw [hnil, hscratchpad] at hroles
      cases hfragmented : r.fragmentedTransfer with
      | some entry' => rfl
      | none =>
        rw [hfragmented] at hroles
        have hle : r.pendingTransfer.toList.length ≤ 1 := Option.length_toList_le
        simp at hroles
        omega

theorem settled_writeScratchpad (r : Inner) (bytes : List Byte) :
    r.Settled (r.writeScratchpad bytes) := by
  rw [writeScratchpad]
  split
  · exact ⟨rfl, rfl, id⟩
  · exact .refl r

theorem settled_tryPush {m : TransferMeta} {length : ℕ} {crc : TransferCrc}
    {res : Except BufferError Unit} (h : r.tryPush m length crc = .ok (res, r')) :
    r.Settled r' := by
  rw [tryPush] at h
  split at h
  · cases h
    exact .refl r
  split at h
  · cases h
    exact .refl r
  split at h
  · cases h
    exact .refl r
  obtain ⟨buffer, -, h⟩ := bind_eq_ok.mp h
  dsimp only at h
  split at h
  · obtain ⟨r₁, hfree, h⟩ := bind_eq_ok.mp h
    cases h
    rw [pushFree] at hfree
    split at hfree
    · cases hfree
      exact ⟨rfl, rfl, fun _ ↦ Bool.and_false _⟩
    · cases hfree
  · cases h
    exact ⟨rfl, rfl, fun _ ↦ Bool.and_false _⟩

end Signal.Inner

namespace Blocking.Inner

variable {r r' : Inner}

/-- The slots, and what the endpoint can wait for, are as before or further away. -/
structure Settled (r r' : Inner) : Prop where
  priority : r'.priority = r.priority
  nonFullTrigger : r'.nonFullTrigger = r.nonFullTrigger
  emptyTrigger : r'.emptyTrigger = r.emptyTrigger
  isEmpty : r.isEmpty = false → r'.isEmpty = false

theorem Settled.refl (r : Inner) : r.Settled r := ⟨rfl, rfl, rfl, id⟩

/-- A fetch that leaves nothing wakes who waits for that, or for the transfer to be gone. -/
theorem tryPop_wakes {mask : PrioritySet} {mtu : Mtu} {frame : Option Frame}
    (h : r.tryPop mask mtu = .ok (frame, r')) :
    r'.priority = r.priority ∧ (r'.nonFullTrigger = none ∧ r'.emptyTrigger = none ∨
      r.Settled r') := by
  rw [tryPop] at h
  split at h
  · cases h
    exact ⟨rfl, .inr (.refl r)⟩
  · obtain ⟨entry, -, h⟩ := bind_eq_ok.mp h
    obtain ⟨⟨data, scatter⟩, -, h⟩ := bind_eq_ok.mp h
    obtain ⟨data', -, h⟩ := bind_eq_ok.mp h
    cases h
    rw [advance]
    split
    · exact ⟨rfl, .inl ⟨rfl, rfl⟩⟩
    · exact ⟨rfl, .inr ⟨rfl, rfl, rfl, fun _ ↦ rfl⟩⟩

theorem settled_getScratchpad {res : Option (PrioritySet × List Byte)}
    (h : r.getScratchpad = .ok (res, r')) : r.Settled r' := by
  rw [getScratchpad] at h
  split at h
  · cases h
    exact .refl r
  · obtain ⟨-, -, h⟩ := bind_eq_ok.mp h
    cases h
    exact ⟨rfl, rfl, rfl, id⟩

theorem settled_writeScratchpad (r : Inner) (bytes : List Byte) :
    r.Settled (r.writeScratchpad bytes) := by
  rw [writeScratchpad]
  split
  · exact ⟨rfl, rfl, rfl, id⟩
  · exact .refl r

theorem settled_tryPush {m : TransferMeta} {length : ℕ} {crc : TransferCrc}
    {res : Except BufferError Unit} (h : r.tryPush m length crc = .ok (res, r')) :
    r.Settled r' := by
  rw [tryPush] at h
  split at h
  · cases h
    exact .refl r
  split at h
  · cases h
    exact .refl r
  split at h
  · cases h
    exact .refl r
  obtain ⟨-, -, h⟩ := bind_eq_ok.mp h
  cases h
  exact ⟨rfl, rfl, rfl, fun _ ↦ rfl⟩

end Blocking.Inner

namespace Response.ResponseBufferInner

variable {r r' : ResponseBufferInner}

/-- The slots, and what the endpoint can wait for, are as before or further away. -/
structure Settled (r r' : ResponseBufferInner) : Prop where
  nonFullTrigger : r'.nonFullTrigger = r.nonFullTrigger
  emptyTrigger : r'.emptyTrigger = r.emptyTrigger
  keys : ∀ p, r.transfers.set.contains p = true → r'.transfers.set.contains p = true

theorem Settled.refl (r : ResponseBufferInner) : r.Settled r := ⟨rfl, rfl, fun _ ↦ id⟩

theorem Settled.alerts (h : r.Settled r') :
    Alerts r.nonFullTrigger r'.nonFullTrigger r.pushReadiness r'.pushReadiness := by
  rw [h.nonFullTrigger]
  refine .of_subset fun p hp ↦ ?_
  rw [pushReadiness, PrioritySet.contains_not, Bool.not_eq_true', Bool.eq_false_iff] at hp ⊢
  exact mt (h.keys p) hp

theorem Settled.isEmpty (h : r.Settled r') (hr : r.isEmpty = false) : r'.isEmpty = false := by
  rw [ResponseBufferInner.isEmpty, PriorityMap.isEmpty, Bool.eq_false_iff, Ne,
    PrioritySet.isEmpty_iff] at hr ⊢
  exact fun hempty ↦ hr fun p ↦ Bool.eq_false_iff.mpr fun hp ↦
    Bool.eq_false_iff.mp (hempty p) (h.keys p hp)

/-- What is left of a transfer.  If nothing is, who waits for its priority is woken. -/
theorem alerts_advance {p : Priority} {entry : TransferEntry} {scatter : Scatter}
    (h : r.advance p entry scatter = .ok r') :
    Alerts r.nonFullTrigger r'.nonFullTrigger r.pushReadiness r'.pushReadiness ∧
      r'.emptyTrigger = r.emptyTrigger := by
  rw [advance] at h
  split at h
  · split at h
    · cases h
      refine ⟨.of_wake fun q hq ↦ ?_, rfl⟩
      simp only [pushReadiness, PriorityMap.keys, PriorityMap.remove, PrioritySet.contains_not,
        PrioritySet.contains_remove, Bool.not_eq_true'] at hq ⊢
      by_cases hp : q = p
      · exact .inl hp
      · exact .inr (by simpa [Ne.symm hp] using hq)
    · cases h
  · cases h
    exact ⟨.of_subset fun _ ↦ id, rfl⟩

/-- A fetch that leaves no transfer of a priority wakes who waits for that, and one that leaves
nothing wakes who waits for that. -/
theorem tryPop_wakes {mask : PrioritySet} {mtu : Mtu} {frame : Option Frame}
    (h : r.tryPop mask mtu = .ok (frame, r')) :
    Alerts r.nonFullTrigger r'.nonFullTrigger r.pushReadiness r'.pushReadiness ∧
      (r'.emptyTrigger = none ∨
        r'.emptyTrigger = r.emptyTrigger ∧ (r.isEmpty = false → r'.isEmpty = false)) := by
  rw [tryPop] at h
  split at h
  · cases h
    exact ⟨.of_subset fun _ ↦ id, .inr ⟨rfl, id⟩⟩
  · obtain ⟨entry, -, h⟩ := bind_eq_ok.mp h
    obtain ⟨buffer, -, h⟩ := bind_eq_ok.mp h
    obtain ⟨⟨data, scatter⟩, -, h⟩ := bind_eq_ok.mp h
    obtain ⟨data', -, h⟩ := bind_eq_ok.mp h
    obtain ⟨r₁, hadvance, h⟩ := bind_eq_ok.mp h
    obtain ⟨halerts, hempty⟩ := alerts_advance hadvance
    cases h
    split
    · exact ⟨halerts, .inl rfl⟩
    · rename_i hnonempty
      exact ⟨halerts, .inr ⟨hempty, fun _ ↦ by rwa [isEmpty, ← Bool.not_eq_true]⟩⟩

theorem settled_getScratchpad {res : Option (PrioritySet × List Byte)}
    (h : r.getScratchpad = .ok (res, r')) : r.Settled r' := by
  rw [getScratchpad] at h
  split at h
  · cases h
    exact .refl r
  have hprovide : ∀ r₁ : ResponseBufferInner, (do
      let idx ← unwrap r₁.scratchpadBufferIdx
      let buffer ← index r₁.buffers idx
      pure (some (r.pushReadiness, buffer), r₁)) = Except.ok (res, r') → r' = r₁ := by
    intro r₁ h
    obtain ⟨idx, -, h⟩ := bind_eq_ok.mp h
    obtain ⟨buffer, -, h⟩ := bind_eq_ok.mp h
    cases h
    rfl
  dsimp only at h
  split at h
  · rw [pure_eq_ok, ok_bind] at h
    exact hprovide r h ▸ .refl r
  · obtain ⟨⟨idx, freeBufferIdx⟩, -, h⟩ := bind_eq_ok.mp h
    rw [pure_eq_ok, ok_bind] at h
    exact hprovide _ h ▸ ⟨rfl, rfl, fun _ ↦ id⟩

theorem settled_writeScratchpad (r : ResponseBufferInner) (bytes : List Byte) :
    r.Settled (r.writeScratchpad bytes) := by
  rw [writeScratchpad]
  split
  · exact ⟨rfl, rfl, fun _ ↦ id⟩
  · exact .refl r

theorem settled_tryPush {m : TransferMeta} {length : ℕ} {crc : TransferCrc}
    {res : Except BufferError Unit} (h : r.tryPush m length crc = .ok (res, r')) :
    r.Settled r' := by
  rw [tryPush] at h
  split at h
  · cases h
    exact .refl r
  split at h
  · cases h
    exact .refl r
  split at h
  · cases h
    exact .refl r
  obtain ⟨buffer, -, h⟩ := bind_eq_ok.mp h
  obtain ⟨-, -, h⟩ := bind_eq_ok.mp h
  cases h
  refine ⟨rfl, rfl, fun p hp ↦ ?_⟩
  rw [PrioritySet.contains_insert, hp, Bool.true_or]

end Response.ResponseBufferInner

/-! ## The endpoint -/

namespace TxBuffer

/-- The calls of the endpoint and of the driver that change the buffer. -/
inductive Op
  | tryPop (priorityMask : PrioritySet) (mtu : Mtu)
  | pollIsEmpty (waker : Waker)
  | pollPushReadiness (waker : Waker) (priorityMask : PrioritySet)
  | getScratchpad
  | writeScratchpad (bytes : List Byte)
  | tryPush (transferMeta : TransferMeta) (length : ℕ) (crc : TransferCrc)
deriving DecidableEq

/-- What a call returns. -/
inductive Event
  | popped (frame : Option Frame)
  | emptied (empty : Bool)
  /-- The priorities that are ready, or `none` if the poll is pending. -/
  | polled (ready : Option PrioritySet)
  | scratchpad (res : Option (PrioritySet × List Byte))
  | written
  | pushed (res : Except BufferError Unit)
deriving DecidableEq

def step (b : TxBuffer) : Op → Exec (TxBuffer × Event)
  | .tryPop priorityMask mtu => do
    let (frame, b) ← b.tryPop priorityMask mtu
    return (b, .popped frame)
  | .pollIsEmpty waker => .ok ((b.pollIsEmpty waker).2, .emptied (b.pollIsEmpty waker).1)
  | .pollPushReadiness waker priorityMask =>
    .ok ((b.pollPushReadiness waker priorityMask).2,
      .polled (b.pollPushReadiness waker priorityMask).1)
  | .getScratchpad => do
    let (res, b) ← b.getScratchpad
    return (b, .scratchpad res)
  | .writeScratchpad bytes => .ok (b.writeScratchpad bytes, .written)
  | .tryPush transferMeta length crc => do
    let (res, b) ← b.tryPush transferMeta length crc
    return (b, .pushed res)

/-- A slice is written as a whole, and a transfer is not longer than the slice it was written
to. -/
def Valid (b : TxBuffer) : Op → Prop
  | .writeScratchpad bytes => bytes.length = b.capacity
  | .tryPush _ length _ => length ≤ b.capacity
  | .tryPop _ _ | .pollIsEmpty _ | .pollPushReadiness _ _ | .getScratchpad => True

instance decidableOpValid (b : TxBuffer) : (op : Op) → Decidable (b.Valid op)
  | .writeScratchpad _ => inferInstanceAs (Decidable (_ = _))
  | .tryPush _ _ _ => inferInstanceAs (Decidable (_ ≤ _))
  | .tryPop _ _ | .pollIsEmpty _ | .pollPushReadiness _ _ | .getScratchpad => isTrue trivial

/-- The slots that wakers are registered with. -/
def wakers : TxBuffer → List (Option Waker)
  | signal r => [r.emptyWaker]
  | blocking r => [r.nonFullTrigger, r.emptyTrigger]
  | response r => [r.nonFullTrigger.waker, r.emptyTrigger]

/-- The polls for a priority to push to. -/
def pushPoll : Op → Event → Option (Option (Waker × PrioritySet))
  | .pollPushReadiness waker priorityMask, .polled ready =>
    some (if ready.isNone then some (waker, priorityMask) else none)
  | _, _ => none

/-- The polls for all transfers to be sent. -/
def emptyPoll : Op → Event → Option (Option (Waker × Unit))
  | .pollIsEmpty waker, .emptied empty => some (if empty then none else some (waker, ()))
  | _, _ => none

/-- A transfer of one of the priorities is accepted. -/
def Accepts (priorityMask : PrioritySet) (b : TxBuffer) : Prop :=
  (b.pushReadiness &&& priorityMask).isEmpty = false

/-- None of the priorities is ready, and when one will be, the waker is woken. -/
def PushWaits (w : Waker) (mask : PrioritySet) : TxBuffer → Prop
  | signal r => mask.contains r.priority = false
  | blocking r =>
    mask.contains r.priority = true → r.nonFullTrigger = some w ∧ r.isEmpty = false
  | response r => r.nonFullTrigger.Waits r.pushReadiness w mask

/-- There is something to send, and when that has changed, the waker is woken. -/
def EmptyWaits (w : Waker) : TxBuffer → Prop
  | signal r => r.emptyWaker = some w ∧ r.isEmpty = false
  | blocking r => r.emptyTrigger = some w ∧ r.isEmpty = false
  | response r => r.emptyTrigger = some w ∧ r.isEmpty = false

variable {b b' : TxBuffer} {n : ℕ} {w : Waker} {mask : PrioritySet}

theorem PushWaits.not_accepts (h : b.PushWaits w mask) : ¬ b.Accepts mask := by
  have hforeign : ∀ {p : Priority}, mask.contains p = false →
      (PrioritySet.newEq p &&& mask).isEmpty = true := by
    intro p hp
    rw [PrioritySet.isEmpty_iff]
    intro q
    by_cases hq : p = q
    · subst hq
      rw [PrioritySet.contains_and, hp, Bool.and_false]
    · simp [hq]
  rw [Accepts, Bool.not_eq_false]
  cases b with
  | signal r => exact hforeign h
  | blocking r =>
    rw [pushReadiness, Blocking.Inner.pushReadiness]
    cases hp : mask.contains r.priority with
    | false =>
      split
      · exact hforeign hp
      · simp [PrioritySet.isEmpty_iff]
    | true =>
      have hpending := (h hp).2
      rw [Blocking.Inner.isEmpty] at hpending
      rw [if_neg (by rw [hpending]; exact Bool.false_ne_true)]
      simp [PrioritySet.isEmpty_iff]
  | response r => exact Waits.isEmpty h

theorem EmptyWaits.not_isEmpty (h : b.EmptyWaits w) : b.isEmpty = false := by
  cases b with
  | signal r | blocking r | response r => exact h.2

/-! ## One call -/

/-- The slots, and what the endpoint can wait for, are as before or further away. -/
def Settled : TxBuffer → TxBuffer → Prop
  | signal r, signal r' => r.Settled r'
  | blocking r, blocking r' => r.Settled r'
  | response r, response r' => r.Settled r'
  | _, _ => False

theorem settled_getScratchpad (hb : b.Inv n) {res : Option (PrioritySet × List Byte)}
    (h : b.getScratchpad = .ok (res, b')) : b.Settled b' := by
  cases b with
  | signal r =>
    obtain ⟨⟨res', r'⟩, hget, heq⟩ := map_eq_ok.mp h
    cases heq
    exact Signal.Inner.settled_getScratchpad hb hget
  | blocking r =>
    obtain ⟨⟨res', r'⟩, hget, heq⟩ := map_eq_ok.mp h
    cases heq
    exact Blocking.Inner.settled_getScratchpad hget
  | response r =>
    obtain ⟨⟨res', r'⟩, hget, heq⟩ := map_eq_ok.mp h
    cases heq
    exact Response.ResponseBufferInner.settled_getScratchpad hget

theorem settled_writeScratchpad (b : TxBuffer) (bytes : List Byte) :
    b.Settled (b.writeScratchpad bytes) := by
  cases b with
  | signal r => exact r.settled_writeScratchpad bytes
  | blocking r => exact r.settled_writeScratchpad bytes
  | response r => exact r.settled_writeScratchpad bytes

theorem settled_tryPush {m : TransferMeta} {length : ℕ} {crc : TransferCrc}
    {res : Except BufferError Unit} (h : b.tryPush m length crc = .ok (res, b')) :
    b.Settled b' := by
  cases b with
  | signal r =>
    obtain ⟨⟨res', r'⟩, hpush, heq⟩ := map_eq_ok.mp h
    cases heq
    exact Signal.Inner.settled_tryPush hpush
  | blocking r =>
    obtain ⟨⟨res', r'⟩, hpush, heq⟩ := map_eq_ok.mp h
    cases heq
    exact Blocking.Inner.settled_tryPush hpush
  | response r =>
    obtain ⟨⟨res', r'⟩, hpush, heq⟩ := map_eq_ok.mp h
    cases heq
    exact Response.ResponseBufferInner.settled_tryPush hpush

theorem PushWaits.of_settled (h : b.PushWaits w mask) (hs : b.Settled b') :
    b'.PushWaits w mask := by
  cases b with
  | signal r =>
    cases b' with
    | signal r' => exact (congrArg mask.contains hs.priority).trans h
    | blocking r' | response r' => exact hs.elim
  | blocking r =>
    cases b' with
    | blocking r' =>
      intro hp
      rw [hs.priority] at hp
      exact ⟨hs.nonFullTrigger.trans (h hp).1, hs.isEmpty (h hp).2⟩
    | signal r' | response r' => exact hs.elim
  | response r =>
    cases b' with
    | response r' =>
      have htrigger := hs.nonFullTrigger
      refine Waits.of_alerts h hs.alerts ?_
      rw [htrigger, h.trigger]
      exact Option.some_ne_none w
    | signal r' | blocking r' => exact hs.elim

theorem EmptyWaits.of_settled (h : b.EmptyWaits w) (hs : b.Settled b') : b'.EmptyWaits w := by
  cases b with
  | signal r =>
    cases b' with
    | signal r' => exact ⟨hs.emptyWaker.trans h.1, hs.isEmpty h.2⟩
    | blocking r' | response r' => exact hs.elim
  | blocking r =>
    cases b' with
    | blocking r' => exact ⟨hs.emptyTrigger.trans h.1, hs.isEmpty h.2⟩
    | signal r' | response r' => exact hs.elim
  | response r =>
    cases b' with
    | response r' => exact ⟨hs.emptyTrigger.trans h.1, hs.isEmpty h.2⟩
    | signal r' | blocking r' => exact hs.elim

theorem PushWaits.tryPop (h : b.PushWaits w mask) {mask' : PrioritySet} {mtu : Mtu}
    {frame : Option Frame} (hpop : b.tryPop mask' mtu = .ok (frame, b'))
    (hw : w ∉ woken b.wakers b'.wakers) : b'.PushWaits w mask := by
  cases b with
  | signal r =>
    obtain ⟨⟨frame', r'⟩, hfetch, heq⟩ := map_eq_ok.mp hpop
    cases heq
    exact (congrArg mask.contains (Signal.Inner.tryPop_wakes hfetch).1).trans h
  | blocking r =>
    obtain ⟨⟨frame', r'⟩, hfetch, heq⟩ := map_eq_ok.mp hpop
    cases heq
    obtain ⟨hpriority, hcase⟩ := Blocking.Inner.tryPop_wakes hfetch
    intro hp
    change mask.contains r'.priority = true at hp
    rw [hpriority] at hp
    obtain ⟨hslot, hpending⟩ := h hp
    rcases hcase with ⟨hnone, -⟩ | hs
    · exact absurd (mem_woken_of_getElem? (i := 0) (congrArg some hslot) (congrArg some hnone)) hw
    · exact ⟨hs.nonFullTrigger.trans hslot, hs.isEmpty hpending⟩
  | response r =>
    obtain ⟨⟨frame', r'⟩, hfetch, heq⟩ := map_eq_ok.mp hpop
    cases heq
    have hslot : r.nonFullTrigger.waker = some w := congrArg PriorityTrigger.waker h.trigger
    refine Waits.of_alerts h (Response.ResponseBufferInner.tryPop_wakes hfetch).1 fun hnone ↦ ?_
    exact absurd (mem_woken_of_getElem? (i := 0) (congrArg some hslot) (congrArg some hnone)) hw

theorem EmptyWaits.tryPop (h : b.EmptyWaits w) {mask : PrioritySet} {mtu : Mtu}
    {frame : Option Frame} (hpop : b.tryPop mask mtu = .ok (frame, b'))
    (hw : w ∉ woken b.wakers b'.wakers) : b'.EmptyWaits w := by
  cases b with
  | signal r =>
    obtain ⟨⟨frame', r'⟩, hfetch, heq⟩ := map_eq_ok.mp hpop
    cases heq
    rcases (Signal.Inner.tryPop_wakes hfetch).2 with hnone | hs
    · exact absurd (mem_woken_of_getElem? (i := 0) (congrArg some h.1) (congrArg some hnone)) hw
    · exact ⟨hs.emptyWaker.trans h.1, hs.isEmpty h.2⟩
  | blocking r =>
    obtain ⟨⟨frame', r'⟩, hfetch, heq⟩ := map_eq_ok.mp hpop
    cases heq
    rcases (Blocking.Inner.tryPop_wakes hfetch).2 with ⟨-, hnone⟩ | hs
    · exact absurd (mem_woken_of_getElem? (i := 1) (congrArg some h.1) (congrArg some hnone)) hw
    · exact ⟨hs.emptyTrigger.trans h.1, hs.isEmpty h.2⟩
  | response r =>
    obtain ⟨⟨frame', r'⟩, hfetch, heq⟩ := map_eq_ok.mp hpop
    cases heq
    rcases (Response.ResponseBufferInner.tryPop_wakes hfetch).2 with hnone | ⟨hsame, hempty⟩
    · exact absurd (mem_woken_of_getElem? (i := 1) (congrArg some h.1) (congrArg some hnone)) hw
    · exact ⟨hsame.trans h.1, hempty h.2⟩

/-- A poll that is pending registers the waker, if the priority can become ready at all. -/
theorem pushWaits_of_pending (h : (b.pollPushReadiness w mask).1 = none) :
    (b.pollPushReadiness w mask).2.PushWaits w mask := by
  cases b with
  | signal r =>
    rw [pollPushReadiness, Signal.Inner.pollPushReadiness] at h ⊢
    split at h
    · cases h
    · rename_i hp
      rw [if_neg hp]
      exact Bool.eq_false_iff.mpr hp
  | blocking r =>
    rw [pollPushReadiness, Blocking.Inner.pollPushReadiness] at h ⊢
    split at h
    · rename_i hp
      rw [if_pos hp]
      split at h
      · cases h
      · rename_i hpending
        rw [if_neg hpending]
        exact fun _ ↦ ⟨rfl, Bool.eq_false_iff.mpr hpending⟩
    · rename_i hp
      rw [if_neg hp]
      exact fun hp' ↦ absurd hp' hp
  | response r =>
    rw [pollPushReadiness, Response.ResponseBufferInner.pollPushReadiness] at h ⊢
    split at h
    · cases h
    · rename_i hready
      rw [if_neg hready]
      have hempty : (r.pushReadiness &&& mask).isEmpty = true := by simpa using hready
      exact waits_register r.nonFullTrigger hempty

theorem emptyWaits_of_pending (h : (b.pollIsEmpty w).1 = false) :
    (b.pollIsEmpty w).2.EmptyWaits w := by
  cases b with
  | signal r =>
    rw [pollIsEmpty, Signal.Inner.pollIsEmpty] at h ⊢
    split at h
    · cases h
    · rename_i hempty
      rw [if_neg hempty]
      exact ⟨rfl, Bool.eq_false_iff.mpr hempty⟩
  | blocking r =>
    rw [pollIsEmpty, Blocking.Inner.pollIsEmpty] at h ⊢
    split at h
    · cases h
    · rename_i hempty
      rw [if_neg hempty]
      exact ⟨rfl, Bool.eq_false_iff.mpr hempty⟩
  | response r =>
    rw [pollIsEmpty, Response.ResponseBufferInner.pollIsEmpty] at h ⊢
    split at h
    · cases h
    · rename_i hempty
      rw [if_neg hempty]
      exact ⟨rfl, Bool.eq_false_iff.mpr hempty⟩

/-- The two polls have a slot each. -/
theorem PushWaits.pollIsEmpty (h : b.PushWaits w mask) (w' : Waker) :
    (b.pollIsEmpty w').2.PushWaits w mask := by
  cases b with
  | signal r =>
    rw [TxBuffer.pollIsEmpty, Signal.Inner.pollIsEmpty]
    split
    · exact h
    · exact h
  | blocking r =>
    rw [TxBuffer.pollIsEmpty, Blocking.Inner.pollIsEmpty]
    split
    · exact h
    · exact h
  | response r =>
    rw [TxBuffer.pollIsEmpty, Response.ResponseBufferInner.pollIsEmpty]
    split
    · exact h
    · exact h

theorem EmptyWaits.pollPushReadiness (h : b.EmptyWaits w) (w' : Waker) (mask : PrioritySet) :
    (b.pollPushReadiness w' mask).2.EmptyWaits w := by
  cases b with
  | signal r =>
    rw [TxBuffer.pollPushReadiness, Signal.Inner.pollPushReadiness]
    split
    · exact h
    · exact h
  | blocking r =>
    rw [TxBuffer.pollPushReadiness, Blocking.Inner.pollPushReadiness]
    split
    · split
      · exact h
      · exact h
    · exact h
  | response r =>
    rw [TxBuffer.pollPushReadiness, Response.ResponseBufferInner.pollPushReadiness]
    split
    · exact h
    · exact h

/-! ## Runs -/

namespace Inv

theorem tryPop_mask (h : b.Inv n) (mask : PrioritySet) (mtu : Mtu) :
    ∃ frame b', b.tryPop mask mtu = .ok (frame, b') ∧ b'.Inv n := by
  cases b with
  | signal r =>
    by_cases hnone : mask.contains r.priority = false ∨ r.outbox.next = none
    · have hpop := Signal.Inner.Inv.tryPop_none h hnone mtu
      exact ⟨none, .signal r, by rw [TxBuffer.tryPop, hpop]; rfl, h⟩
    · rw [not_or, Bool.not_eq_false] at hnone
      obtain ⟨o, ho⟩ := Option.ne_none_iff_exists'.mp hnone.2
      have hready : o.Ready := h.ready (p := r.priority) (by rw [next, if_pos rfl, ho])
      obtain ⟨data, rest, hs⟩ := hready.sends mtu
      obtain ⟨r', hpop, hr', -⟩ := Signal.Inner.Inv.tryPop h hnone.1 ho hs
      exact ⟨_, .signal r', by rw [TxBuffer.tryPop, hpop]; rfl, hr'⟩
  | blocking r =>
    by_cases hnone : mask.contains r.priority = false ∨ r.current = none
    · have hpop := Blocking.Inner.Inv.tryPop_none hnone mtu
      exact ⟨none, .blocking r, by rw [TxBuffer.tryPop, hpop]; rfl, h⟩
    · rw [not_or, Bool.not_eq_false] at hnone
      obtain ⟨o, ho⟩ := Option.ne_none_iff_exists'.mp hnone.2
      obtain ⟨data, rest, hs⟩ := Outgoing.Ready.sends (Blocking.Inner.Inv.current h o ho) mtu
      obtain ⟨r', hpop, hr', -⟩ := Blocking.Inner.Inv.tryPop h hnone.1 ho hs
      exact ⟨_, .blocking r', by rw [TxBuffer.tryPop, hpop]; rfl, hr'⟩
  | response r =>
    cases hfirst : (r.popReadiness &&& mask).first with
    | none =>
      have hpop := Response.ResponseBufferInner.Inv.tryPop_none hfirst mtu
      exact ⟨none, .response r, by rw [TxBuffer.tryPop, hpop]; rfl, h⟩
    | some p =>
      have hp := (PrioritySet.first_eq_some_iff.mp hfirst).1
      rw [PrioritySet.contains_and, Response.ResponseBufferInner.Inv.popReadiness h,
        Bool.and_eq_true] at hp
      obtain ⟨o, ho⟩ := Option.isSome_iff_exists.mp hp.1
      obtain ⟨data, rest, hs⟩ := (h.ready ho).sends mtu
      obtain ⟨r', hpop, hr', -⟩ := Response.ResponseBufferInner.Inv.tryPop h hfirst ho hs
      exact ⟨_, .response r', by rw [TxBuffer.tryPop, hpop]; rfl, hr'⟩

theorem pollIsEmpty (h : b.Inv n) (w : Waker) : (b.pollIsEmpty w).2.Inv n := by
  cases b with
  | signal r =>
    rw [TxBuffer.pollIsEmpty, Signal.Inner.pollIsEmpty]
    split
    · exact h
    · exact ⟨h.count, h.length, h.indexes, h.current, h.pending⟩
  | blocking r =>
    rw [TxBuffer.pollIsEmpty, Blocking.Inner.pollIsEmpty]
    split
    · exact h
    · exact ⟨h.length, h.current, h.scratchpad⟩
  | response r =>
    rw [TxBuffer.pollIsEmpty, Response.ResponseBufferInner.pollIsEmpty]
    split
    · exact h
    · exact ⟨h.count, h.length, h.consistent, h.indexes, h.current⟩

theorem pollPushReadiness (h : b.Inv n) (w : Waker) (mask : PrioritySet) :
    (b.pollPushReadiness w mask).2.Inv n := by
  cases b with
  | signal r =>
    rw [TxBuffer.pollPushReadiness, Signal.Inner.pollPushReadiness]
    split
    · exact h
    · exact h
  | blocking r =>
    rw [TxBuffer.pollPushReadiness, Blocking.Inner.pollPushReadiness]
    split
    · split
      · exact h
      · exact ⟨h.length, h.current, h.scratchpad⟩
    · exact h
  | response r =>
    rw [TxBuffer.pollPushReadiness, Response.ResponseBufferInner.pollPushReadiness]
    split
    · exact h
    · exact ⟨h.count, h.length, h.consistent, h.indexes, h.current⟩

/-- No call panics. -/
theorem step (h : b.Inv n) {op : Op} (hop : b.Valid op) :
    ∃ b' event, b.step op = .ok (b', event) ∧ b'.Inv n := by
  cases op with
  | tryPop mask mtu =>
    obtain ⟨frame, b', hpop, hb'⟩ := h.tryPop_mask mask mtu
    exact ⟨b', .popped frame, by rw [TxBuffer.step, hpop]; rfl, hb'⟩
  | pollIsEmpty w => exact ⟨_, _, rfl, h.pollIsEmpty w⟩
  | pollPushReadiness w mask => exact ⟨_, _, rfl, h.pollPushReadiness w mask⟩
  | getScratchpad =>
    obtain ⟨res, b', hget, hb', -⟩ := h.getScratchpad
    exact ⟨b', .scratchpad res, by rw [TxBuffer.step, hget]; rfl, hb'⟩
  | writeScratchpad bytes => exact ⟨_, _, rfl, (h.writeScratchpad (hop.trans h.capacity_eq)).1⟩
  | tryPush m length crc =>
    have hlength : length ≤ n := h.capacity_eq ▸ hop
    rcases h.tryPush m hlength crc with ⟨e, hpush⟩ | ⟨b', hpush, hb', -⟩
    · exact ⟨b, .pushed (.error e), by rw [TxBuffer.step, hpush]; rfl, h⟩
    · exact ⟨b', .pushed (.ok ()), by rw [TxBuffer.step, hpush]; rfl, hb'⟩

end Inv

/-- What a call other than a fetch and the polls does to the slots. -/
theorem PushWaits.step (h : b.PushWaits w mask) (hb : b.Inv n) {op : Op} {event : Event}
    (hstep : b.step op = .ok (b', event)) (hpoll : pushPoll op event = none)
    (hw : w ∉ woken b.wakers b'.wakers) : b'.PushWaits w mask := by
  cases op with
  | tryPop mask' mtu =>
    obtain ⟨⟨frame, b₁⟩, hpop, hstep⟩ := bind_eq_ok.mp hstep
    cases hstep
    exact h.tryPop hpop hw
  | pollIsEmpty w' =>
    cases hstep
    exact h.pollIsEmpty w'
  | pollPushReadiness w' mask' =>
    cases hstep
    cases hpoll
  | getScratchpad =>
    obtain ⟨⟨res, b₁⟩, hget, hstep⟩ := bind_eq_ok.mp hstep
    cases hstep
    exact h.of_settled (settled_getScratchpad hb hget)
  | writeScratchpad bytes =>
    cases hstep
    exact h.of_settled (settled_writeScratchpad b bytes)
  | tryPush m length crc =>
    obtain ⟨⟨res, b₁⟩, hpush, hstep⟩ := bind_eq_ok.mp hstep
    cases hstep
    exact h.of_settled (settled_tryPush hpush)

theorem EmptyWaits.step (h : b.EmptyWaits w) (hb : b.Inv n) {op : Op} {event : Event}
    (hstep : b.step op = .ok (b', event)) (hpoll : emptyPoll op event = none)
    (hw : w ∉ woken b.wakers b'.wakers) : b'.EmptyWaits w := by
  cases op with
  | tryPop mask' mtu =>
    obtain ⟨⟨frame, b₁⟩, hpop, hstep⟩ := bind_eq_ok.mp hstep
    cases hstep
    exact h.tryPop hpop hw
  | pollIsEmpty w' =>
    cases hstep
    cases hpoll
  | pollPushReadiness w' mask' =>
    cases hstep
    exact h.pollPushReadiness w' mask'
  | getScratchpad =>
    obtain ⟨⟨res, b₁⟩, hget, hstep⟩ := bind_eq_ok.mp hstep
    cases hstep
    exact h.of_settled (settled_getScratchpad hb hget)
  | writeScratchpad bytes =>
    cases hstep
    exact h.of_settled (settled_writeScratchpad b bytes)
  | tryPush m length crc =>
    obtain ⟨⟨res, b₁⟩, hpush, hstep⟩ := bind_eq_ok.mp hstep
    cases hstep
    exact h.of_settled (settled_tryPush hpush)

/-- **An endpoint that waits to push is woken.** -/
theorem push_noMissedWakeup (hb : b.Inv n) :
    NoMissedWakeup step wakers Valid pushPoll Accepts b := by
  refine .of_waits (fun b ↦ b.Inv n) PushWaits (fun s op hs hop ↦ ?_)
    (fun w q s _ h ↦ h.not_accepts) hb
  obtain ⟨s', event, hstep, hs'⟩ := hs.step hop
  refine ⟨s', event, hstep, hs', fun w q hpoll ↦ ?_, fun hpoll w q h ↦ h.step hs hstep hpoll⟩
  cases op with
  | pollPushReadiness w' mask =>
    cases hstep
    cases hready : (s.pollPushReadiness w' mask).1 with
    | some ready =>
      rw [pushPoll, hready] at hpoll
      cases hpoll
    | none =>
      rw [pushPoll, hready] at hpoll
      cases hpoll
      exact pushWaits_of_pending hready
  | tryPop | pollIsEmpty | getScratchpad | writeScratchpad | tryPush => cases hpoll

/-- **An endpoint that waits for everything to be sent is woken.** -/
theorem empty_noMissedWakeup (hb : b.Inv n) :
    NoMissedWakeup step wakers Valid emptyPoll (fun _ b ↦ b.isEmpty = true) b := by
  refine .of_waits (fun b ↦ b.Inv n) (fun w _ ↦ EmptyWaits w) (fun s op hs hop ↦ ?_)
    (fun w _ s _ h ↦ by rw [h.not_isEmpty]; exact Bool.false_ne_true) hb
  obtain ⟨s', event, hstep, hs'⟩ := hs.step hop
  refine ⟨s', event, hstep, hs', fun w q hpoll ↦ ?_, fun hpoll w q h ↦ h.step hs hstep hpoll⟩
  cases op with
  | pollIsEmpty w' =>
    cases hstep
    cases hempty : (s.pollIsEmpty w').1 with
    | true =>
      rw [emptyPoll, hempty] at hpoll
      cases hpoll
    | false =>
      rw [emptyPoll, hempty] at hpoll
      cases hpoll
      exact emptyWaits_of_pending hempty
  | tryPop | pollPushReadiness | getScratchpad | writeScratchpad | tryPush => cases hpoll

end TxBuffer

end Emcyphal
