import Emcyphal.Tx.Blocking
import Emcyphal.Tx.Response
import Emcyphal.Tx.Signal.Outbox

/-!
# The transmit buffers as the registries see them

The registries use a buffer through the trait `DynamicTxBuffer`, of which there are three
implementations.  What the registries rely on is here for all of them: a fetch at a priority the
buffer reports returns a frame of the priority, and nothing but a fetch or a successful push changes
what it reports.
-/

set_option autoImplicit false

namespace Emcyphal

open Rust

/-- `dyn DynamicTxBuffer`. -/
inductive TxBuffer
  | signal (inner : Signal.Inner)
  | blocking (inner : Blocking.Inner)
  | response (inner : Response.ResponseBufferInner)

namespace TxBuffer

/-- The arguments of `SealedBuffer::init`, and what the data buffers hold by then. -/
inductive Init
  | signal (subject : SubjectId) (priority : Priority) (buffers : List (List Byte))
  | blocking (subject : SubjectId) (priority : Priority) (buffer : List Byte)
  | response (service : ServiceId) (buffers : List (List Byte))
deriving DecidableEq

/-- The buffers are as many as the type has, and all of one length. -/
def Init.Fits : Init → Prop
  | signal _ _ buffers =>
    buffers.length = Signal.BUFFER_COUNT ∧ ∀ b ∈ buffers, b.length = (buffers.headD []).length
  | blocking _ _ _ => True
  | response _ buffers =>
    buffers.length = Response.BUFFER_COUNT ∧ ∀ b ∈ buffers, b.length = (buffers.headD []).length

instance : (init : Init) → Decidable init.Fits
  | .signal _ _ _ => inferInstanceAs (Decidable (_ ∧ _))
  | .blocking _ _ _ => inferInstanceAs (Decidable True)
  | .response _ _ => inferInstanceAs (Decidable (_ ∧ _))

/-- The length of the data buffers. -/
def Init.bufferLength : Init → ℕ
  | signal _ _ buffers => (buffers.headD []).length
  | blocking _ _ buffer => buffer.length
  | response _ buffers => (buffers.headD []).length

def new : Init → Exec TxBuffer
  | .signal subject priority buffers => signal <$> Signal.Inner.new subject priority buffers
  | .blocking subject priority buffer => .ok (blocking (.new subject priority buffer))
  | .response service buffers => response <$> Response.ResponseBufferInner.new service buffers

def popReadiness : TxBuffer → PrioritySet
  | signal r => r.popReadiness
  | blocking r => r.popReadiness
  | response r => r.popReadiness

def tryPop (b : TxBuffer) (priorityMask : PrioritySet) (mtu : Mtu) :
    Exec (Option Frame × TxBuffer) :=
  match b with
  | signal r => Prod.map id signal <$> r.tryPop priorityMask mtu
  | blocking r => Prod.map id blocking <$> r.tryPop priorityMask mtu
  | response r => Prod.map id response <$> r.tryPop priorityMask mtu

def isEmpty : TxBuffer → Bool
  | signal r => r.isEmpty
  | blocking r => r.isEmpty
  | response r => r.isEmpty

def pollIsEmpty (b : TxBuffer) (waker : Waker) : Bool × TxBuffer :=
  match b with
  | signal r => Prod.map id signal (r.pollIsEmpty waker)
  | blocking r => Prod.map id blocking (r.pollIsEmpty waker)
  | response r => Prod.map id response (r.pollIsEmpty waker)

def pushReadiness : TxBuffer → PrioritySet
  | signal r => r.pushReadiness
  | blocking r => r.pushReadiness
  | response r => r.pushReadiness

/-- `none` is `Poll::Pending`. -/
def pollPushReadiness (b : TxBuffer) (waker : Waker) (priorityMask : PrioritySet) :
    Option PrioritySet × TxBuffer :=
  match b with
  | signal r => Prod.map id signal (r.pollPushReadiness waker priorityMask)
  | blocking r => Prod.map id blocking (r.pollPushReadiness waker priorityMask)
  | response r => Prod.map id response (r.pollPushReadiness waker priorityMask)

def getScratchpad (b : TxBuffer) : Exec (Option (PrioritySet × List Byte) × TxBuffer) :=
  match b with
  | signal r => Prod.map id signal <$> r.getScratchpad
  | blocking r => Prod.map id blocking <$> r.getScratchpad
  | response r => Prod.map id response <$> r.getScratchpad

/-- The caller writes to the scratchpad it was given. -/
def writeScratchpad (b : TxBuffer) (bytes : List Byte) : TxBuffer :=
  match b with
  | signal r => signal (r.writeScratchpad bytes)
  | blocking r => blocking (r.writeScratchpad bytes)
  | response r => response (r.writeScratchpad bytes)

def tryPush (b : TxBuffer) (transferMeta : TransferMeta) (length : ℕ) (crc : TransferCrc) :
    Exec (Except BufferError Unit × TxBuffer) :=
  match b with
  | signal r => Prod.map id signal <$> r.tryPush transferMeta length crc
  | blocking r => Prod.map id blocking <$> r.tryPush transferMeta length crc
  | response r => Prod.map id response <$> r.tryPush transferMeta length crc

/-- The length of the data buffers. -/
def capacity : TxBuffer → ℕ
  | signal r => (r.buffers.headD []).length
  | blocking r => r.buffer.length
  | response r => (r.buffers.headD []).length

/-- What holds of a buffer for data of length `n` in every state. -/
def Inv (b : TxBuffer) (n : ℕ) : Prop :=
  match b with
  | signal r => r.Inv n
  | blocking r => r.Inv n
  | response r => r.Inv n

/-- The transfer that the next frame of a priority is of. -/
def next (b : TxBuffer) (p : Priority) : Option Outgoing :=
  match b with
  | signal r => if r.priority = p then r.outbox.next else none
  | blocking r => if r.priority = p then r.current else none
  | response r => r.current p

def dataSpec : TxBuffer → DataSpecifier
  | signal r => .message r.subject
  | blocking r => .message r.subject
  | response r => .response r.service

variable {b : TxBuffer} {n : ℕ} {p : Priority}

theorem length_headD {buffers : List (List Byte)} (hcount : 0 < buffers.length)
    (hlength : ∀ buffer ∈ buffers, buffer.length = n) : (buffers.headD []).length = n := by
  cases buffers with
  | nil => cases hcount
  | cons buffer rest => exact hlength buffer List.mem_cons_self

/-- A new buffer has nothing to send. -/
theorem inv_new {init : Init} (h : init.Fits) : ∃ b, new init = .ok b ∧ b.Inv init.bufferLength ∧
    b.next = fun _ ↦ none := by
  cases init with
  | signal subject priority buffers =>
    obtain ⟨r, hnew, hinv, houtbox⟩ := Signal.Inner.inv_new subject priority h.1 h.2
    refine ⟨.signal r, by rw [new, hnew]; rfl, hinv, ?_⟩
    funext p
    rw [next, houtbox]
    exact ite_self none
  | blocking subject priority buffer =>
    refine ⟨_, rfl, Blocking.Inner.inv_new subject priority buffer, ?_⟩
    funext p
    exact ite_self none
  | response service buffers =>
    obtain ⟨r, hnew, hinv, -, hcurrent, -⟩ :=
      Response.ResponseBufferInner.inv_new h.1 h.2
    exact ⟨.response r, by rw [new, hnew]; rfl, hinv, hcurrent⟩

namespace Inv

theorem capacity_eq (h : b.Inv n) : b.capacity = n := by
  cases b with
  | signal r => exact length_headD (by rw [h.count]; decide) h.length
  | blocking r => exact h.length
  | response r => exact length_headD (by rw [h.count]; decide) h.length

/-- The buffer reports the priorities it has transfers for. -/
theorem popReadiness (h : b.Inv n) (p : Priority) : b.popReadiness.contains p =
    (b.next p).isSome := by
  cases b with
  | signal r =>
    rw [TxBuffer.popReadiness, TxBuffer.next, Signal.Inner.popReadiness_eq]
    by_cases hp : r.priority = p
    · cases r.outbox.next <;> simp [hp]
    · cases r.outbox.next <;> simp [hp]
  | blocking r =>
    rw [TxBuffer.popReadiness, TxBuffer.next, Blocking.Inner.popReadiness_eq]
    by_cases hp : r.priority = p
    · cases r.current <;> simp [hp]
    · cases r.current <;> simp [hp]
  | response r => exact Response.ResponseBufferInner.Inv.popReadiness h p

/-- There is something left to send of the next transfer. -/
theorem ready (h : b.Inv n) {o : Outgoing} (hnext : b.next p = some o) : o.Ready := by
  cases b with
  | signal r =>
    rw [TxBuffer.next] at hnext
    split at hnext
    · rcases Option.or_eq_some_iff.mp hnext with hcurrent | ⟨-, hpending⟩
      · exact Signal.Inner.Inv.current h o hcurrent
      · exact Signal.Inner.Inv.pending h o hpending
    · cases hnext
  | blocking r =>
    rw [TxBuffer.next] at hnext
    split at hnext
    · exact Blocking.Inner.Inv.current h o hnext
    · cases hnext
  | response r => exact Response.ResponseBufferInner.Inv.current h p o hnext

theorem newEq_mask {s : PrioritySet} (hp : s.contains p = true) :
    (s &&& .newEq p).first = some p := by
  rw [PrioritySet.first_eq_some_iff]
  refine ⟨by simp [hp], fun q hq ↦ ?_⟩
  simp only [PrioritySet.contains_and, PrioritySet.contains_newEq, Bool.and_eq_true,
    decide_eq_true_eq] at hq
  exact hq.2.le

/-- **A fetch at a priority that is reported returns a frame of the priority.** -/
theorem tryPop (h : b.Inv n) {o : Outgoing} (hnext : b.next p = some o) {mtu : Mtu} {data : Data}
    {rest : Option Outgoing} (hs : o.Sends mtu data rest) :
    ∃ b', b.tryPop (.newEq p) mtu = .ok (some (o.frame p b.dataSpec data), b') ∧ b'.Inv n ∧
      (rest.isSome = true → b'.next p = rest) ∧ (∀ q, q ≠ p → b'.next q = b.next q) := by
  cases b with
  | signal r =>
    rw [TxBuffer.next] at hnext
    split at hnext
    · rename_i hp
      obtain ⟨r', hpop, hinv, houtbox⟩ :=
        Signal.Inner.Inv.tryPop h (show (PrioritySet.newEq p).contains r.priority =
          true by simp [hp]) hnext hs
      have hp' : r'.priority = p := (congrArg Signal.Outbox.priority houtbox).trans hp
      refine ⟨.signal r', ?_, hinv, fun hrest ↦ ?_, fun q hq ↦ ?_⟩
      · rw [TxBuffer.tryPop, hpop, hp]
        rfl
      · rw [TxBuffer.next, if_pos hp', houtbox, Signal.Outbox.next, Signal.Outbox.sent]
        exact Option.or_of_isSome hrest
      · rw [TxBuffer.next, TxBuffer.next, if_neg (by rw [hp']; exact hq.symm),
          if_neg (by rw [hp]; exact hq.symm)]
    · cases hnext
  | blocking r =>
    rw [TxBuffer.next] at hnext
    split at hnext
    · rename_i hp
      obtain ⟨r', hpop, hinv, hcurrent, hheader, -⟩ :=
        Blocking.Inner.Inv.tryPop h (show (PrioritySet.newEq p).contains r.priority =
          true by simp [hp]) hnext hs
      have hp' : r'.priority = p := (congrArg Prod.snd hheader).trans hp
      refine ⟨.blocking r', ?_, hinv, fun _ ↦ ?_, fun q hq ↦ ?_⟩
      · rw [TxBuffer.tryPop, hpop, hp]
        rfl
      · rw [TxBuffer.next, if_pos hp', hcurrent]
      · rw [TxBuffer.next, TxBuffer.next, if_neg (by rw [hp']; exact hq.symm),
          if_neg (by rw [hp]; exact hq.symm)]
    · cases hnext
  | response r =>
    have hfirst : (r.popReadiness &&& .newEq p).first = some p := by
      refine newEq_mask ?_
      rw [Response.ResponseBufferInner.Inv.popReadiness h]
      exact (congrArg Option.isSome hnext).trans rfl
    obtain ⟨r', hpop, hinv, hcurrent, -⟩ := Response.ResponseBufferInner.Inv.tryPop h hfirst hnext
      hs
    refine ⟨.response r', ?_, hinv, fun _ ↦ ?_, fun q hq ↦ ?_⟩
    · rw [TxBuffer.tryPop, hpop]
      rfl
    · rw [TxBuffer.next, hcurrent, Function.update_self]
    · rw [TxBuffer.next, TxBuffer.next, hcurrent, Function.update_of_ne hq]

/-- The scratchpad is not the data of the next frame. -/
theorem getScratchpad (h : b.Inv n) : ∃ res b', b.getScratchpad = .ok (res, b') ∧ b'.Inv n ∧
    b'.next = b.next ∧ ∀ s ∈ res, s.2.length = n := by
  cases b with
  | signal r =>
    obtain ⟨buffer, r', hget, hlen, hinv, houtbox, -⟩ := Signal.Inner.Inv.getScratchpad h
    refine ⟨_, .signal r', by rw [TxBuffer.getScratchpad, hget]; rfl, hinv, ?_, ?_⟩
    · have hpriority : r'.priority = r.priority := by
        have hp := congrArg Signal.Outbox.priority houtbox
        rwa [Signal.Outbox.priority_taken] at hp
      funext p
      rw [TxBuffer.next, TxBuffer.next, hpriority, houtbox, Signal.Outbox.next_taken]
    · intro s hs
      cases hs
      exact hlen
  | blocking r =>
    obtain ⟨r', hget, hinv, hcurrent, hheader, -⟩ := Blocking.Inner.Inv.getScratchpad h
    refine ⟨_, .blocking r', by rw [TxBuffer.getScratchpad, hget]; rfl, hinv, ?_, ?_⟩
    · have hpriority : r'.priority = r.priority := congrArg Prod.snd hheader
      funext p
      rw [TxBuffer.next, TxBuffer.next, hpriority, hcurrent]
    · intro s hs
      split at hs
      · cases hs
        exact h.length
      · cases hs
  | response r =>
    by_cases hfull : ∀ p, r.current p ≠ none
    · have hget := Response.ResponseBufferInner.Inv.getScratchpad_none h hfull
      exact ⟨none, .response r, by rw [TxBuffer.getScratchpad, hget]; rfl, h, rfl, nofun⟩
    · push Not at hfull
      obtain ⟨p, hp⟩ := hfull
      obtain ⟨buffer, r', hget, hlen, hinv, hcurrent, -⟩ :=
        Response.ResponseBufferInner.Inv.getScratchpad h hp
      refine ⟨_, .response r', by rw [TxBuffer.getScratchpad, hget]; rfl, hinv, hcurrent, ?_⟩
      intro s hs
      cases hs
      exact hlen

theorem writeScratchpad (h : b.Inv n) {bytes : List Byte} (hbytes : bytes.length = n) :
    (b.writeScratchpad bytes).Inv n ∧ (b.writeScratchpad bytes).next = b.next := by
  cases b with
  | signal r =>
    obtain ⟨hinv, houtbox⟩ := Signal.Inner.Inv.writeScratchpad h hbytes
    refine ⟨hinv, ?_⟩
    have hpriority : (r.writeScratchpad bytes).priority = r.priority :=
      congrArg Signal.Outbox.priority houtbox
    funext p
    rw [TxBuffer.writeScratchpad, TxBuffer.next, TxBuffer.next, hpriority, houtbox]
    rfl
  | blocking r =>
    obtain ⟨hinv, hcurrent, hheader, -⟩ := Blocking.Inner.Inv.writeScratchpad h hbytes
    refine ⟨hinv, ?_⟩
    have hpriority : (r.writeScratchpad bytes).priority = r.priority := congrArg Prod.snd hheader
    funext p
    rw [TxBuffer.writeScratchpad, TxBuffer.next, TxBuffer.next, hpriority, hcurrent]
  | response r =>
    obtain ⟨hinv, hcurrent, -⟩ := Response.ResponseBufferInner.Inv.writeScratchpad h hbytes
    exact ⟨hinv, hcurrent⟩

/-- A push adds a transfer of its priority, or it fails and nothing happens. -/
theorem tryPush (h : b.Inv n) (transferMeta : TransferMeta) {length : ℕ} (hlength : length ≤ n)
    (crc : TransferCrc) :
    (∃ e, b.tryPush transferMeta length crc = .ok (.error e, b)) ∨
    (∃ b', b.tryPush transferMeta length crc = .ok (.ok (), b') ∧ b'.Inv n ∧
      (b'.next transferMeta.priority).isSome = true ∧
      ∀ q, q ≠ transferMeta.priority → b'.next q = b.next q) := by
  cases b with
  | signal r =>
    by_cases hok : transferMeta.address = none ∧ transferMeta.priority = r.priority ∧
        r.outbox.scratchpad ≠ none
    · obtain ⟨buffer, hbuffer⟩ := Option.ne_none_iff_exists'.mp hok.2.2
      obtain ⟨r', hpush, hinv, houtbox⟩ := Signal.Inner.Inv.tryPush h hok.1 hok.2.1 hbuffer hlength
        crc
      have hp' : r'.priority = transferMeta.priority :=
        (congrArg Signal.Outbox.priority houtbox).trans hok.2.1.symm
      refine .inr ⟨.signal r', by rw [TxBuffer.tryPush, hpush]; rfl, hinv, ?_, fun q hq ↦ ?_⟩
      · rw [TxBuffer.next, if_pos hp', houtbox]
        simp [Signal.Outbox.next, Signal.Outbox.pushed]
      · rw [TxBuffer.next, TxBuffer.next, if_neg (by rw [hp']; exact hq.symm),
          if_neg (by rw [← hok.2.1]; exact hq.symm)]
    · obtain ⟨e, herror⟩ := Signal.Inner.Inv.tryPush_error (r := r) transferMeta
        (by tauto) length crc
      exact .inl ⟨e, by rw [TxBuffer.tryPush, herror]; rfl⟩
  | blocking r =>
    by_cases hok : transferMeta.address = none ∧ transferMeta.priority = r.priority ∧
        r.pendingTransfer = none ∧ r.scratchpadProvided = true
    · obtain ⟨r', hpush, hinv, hcurrent, hheader, -⟩ :=
        Blocking.Inner.Inv.tryPush h hok.1 hok.2.1 hok.2.2.2 hlength crc
      have hp' : r'.priority = transferMeta.priority :=
        (congrArg Prod.snd hheader).trans hok.2.1.symm
      refine .inr ⟨.blocking r', by rw [TxBuffer.tryPush, hpush]; rfl, hinv, ?_, fun q hq ↦ ?_⟩
      · rw [TxBuffer.next, if_pos hp', hcurrent]
        rfl
      · rw [TxBuffer.next, TxBuffer.next, if_neg (by rw [hp']; exact hq.symm),
          if_neg (by rw [← hok.2.1]; exact hq.symm)]
    · obtain ⟨e, herror⟩ := Blocking.Inner.Inv.tryPush_error (r := r) transferMeta
        (by simp only [← Bool.not_eq_true]; tauto) length crc
      exact .inl ⟨e, by rw [TxBuffer.tryPush, herror]; rfl⟩
  | response r =>
    by_cases hok : transferMeta.address ≠ none ∧ r.current transferMeta.priority = none ∧
        r.scratchpad ≠ none
    · obtain ⟨buffer, hbuffer⟩ := Option.ne_none_iff_exists'.mp hok.2.2
      obtain ⟨r', hpush, hinv, hcurrent, -⟩ :=
        Response.ResponseBufferInner.Inv.tryPush h hok.1 hok.2.1 hbuffer hlength crc
      refine .inr ⟨.response r', by rw [TxBuffer.tryPush, hpush]; rfl, hinv, ?_, fun q hq ↦ ?_⟩
      · rw [TxBuffer.next, hcurrent, Function.update_self]
        rfl
      · rw [TxBuffer.next, TxBuffer.next, hcurrent, Function.update_of_ne hq]
    · obtain ⟨e, herror⟩ := Response.ResponseBufferInner.Inv.tryPush_error h transferMeta
        (by tauto) length crc
      exact .inl ⟨e, by rw [TxBuffer.tryPush, herror]; rfl⟩

end Inv

end TxBuffer

end Emcyphal
