import Emcyphal.Tx.Mailbox

/-!
# A push that fails

A transfer is refused because of its priority or its address, but by then the endpoint has taken the
scratchpad and may have written to it.  Nothing of that is seen later (`unchanged_iff`), with one
exception: a signal that is sending one transfer while another is pending takes the buffer of the
pending one for its scratchpad, and does not give it back.
-/

set_option autoImplicit false

namespace Emcyphal

open Rust

variable {T : Type} [BufferType T] [Serialize T]

namespace Mailbox

/-- A signal that sends a transfer gives up the one that is pending. -/
def taken : Mailbox → Mailbox
  | signal subject p current pending => signal subject p current
    (if current.isSome then none else pending)
  | blocking subject p current => blocking subject p current
  | response service current => response service current

/-- A push that is refused does nothing but to take the scratchpad. -/
theorem push_error {m : Mailbox} {t : Endpoint.Transfer T} {e : BufferError}
    (h : (m.push t).2 = .error e) : (m.push t).1 = m.taken := by
  cases m with
  | signal subject p current pending =>
    by_cases hpriority : t.transferMeta.priority = p
    · by_cases haddress : t.transferMeta.address = none
      · rw [push_signal_ok hpriority haddress] at h
        cases h
      · rw [push_signal_address hpriority haddress, taken]
    · rw [push_signal_notReady hpriority, taken]
  | blocking subject p current =>
    by_cases hready : current.isSome = true ∨ t.transferMeta.priority ≠ p
    · rw [push_blocking_notReady hready, taken]
    · push Not at hready
      have hcurrent : current = none := by simpa using hready.1
      by_cases haddress : t.transferMeta.address = none
      · rw [push_blocking_ok hcurrent hready.2 haddress] at h
        cases h
      · rw [push_blocking_address hcurrent hready.2 haddress, taken]
  | response service current =>
    by_cases hready : current t.transferMeta.priority = none
    · by_cases haddress : t.transferMeta.address = none
      · rw [push_response_address hready haddress, taken]
      · rw [push_response_ok hready haddress] at h
        cases h
    · rw [push_response_notReady hready, taken]

omit [BufferType T] [Serialize T] in
theorem fetch_signal_some (subject : SubjectId) (p : Priority) {current pending : Option Outgoing}
    {o : Outgoing} (hnext : current.or pending = some o) {mtu : Mtu} {data : Data}
    {rest : Option Outgoing} (hsends : o.Sends mtu data rest) :
    (signal subject p current pending).fetch (.newEq p) mtu =
      (signal subject p rest (if current.isSome then pending else none),
        some (o.frame p (.message subject) data)) := by
  rw [fetch, if_pos (by simp), hnext, hsends.nextFrame]

/-- A pending transfer is sent after the one that is being sent: fetching shows if it is there.  The
induction is on the bytes that are left of the first. -/
theorem pending_shows (subject : SubjectId) (p : Priority) {o o' : Outgoing} (ho : o.Ready)
    (ho' : o'.Ready) :
    ∃ calls : List (TxBuffer.Call T),
      (runTotal step (signal subject p (some o) (some o')) calls).2 ≠
        (runTotal step (signal subject p (some o) none) calls).2 := by
  induction hn : o.remaining using Nat.strong_induction_on generalizing o with
  | _ n ih =>
    obtain ⟨data, rest, hsends⟩ := ho.sends .classic
    have hor : (some o).or (some o') = some o := rfl
    have hor' : (some o).or none = some o := rfl
    have hfetch := fetch_signal_some subject p hor hsends
    have hfetch' := fetch_signal_some subject p hor' hsends
    cases rest with
    | none =>
      -- the next frame is one of the pending transfer
      obtain ⟨data', rest', hsends'⟩ := ho'.sends .classic
      have hor'' : none.or (some o') = some o' := rfl
      have hnext := fetch_signal_some subject p hor'' hsends'
      refine ⟨[.fetch (.newEq p) .classic, .fetch (.newEq p) .classic], ?_⟩
      simp only [runTotal, step, hfetch, hfetch', Option.isSome_some, if_true, hnext]
      simp [fetch, Outgoing.nextFrame]
    | some o₁ =>
      have hlt := hsends.remaining_lt
      rw [Option.map_some, Option.getD_some, hn] at hlt
      obtain ⟨calls, hcalls⟩ := ih _ hlt (hsends.ready o₁ rfl) rfl
      refine ⟨.fetch (.newEq p) .classic :: calls, ?_⟩
      simp only [runTotal, step, hfetch, hfetch', Option.isSome_some, if_true]
      simpa using hcalls

end Mailbox

namespace TxBuffer

/-- Whatever is called, the two buffers return the same. -/
def SameBehaviour (T : Type) [Serialize T] (b b' : TxBuffer) : Prop :=
  ∀ later : List (Call T), ∃ c c' replies,
    run call b later = .ok (c, replies) ∧ run call b' later = .ok (c', replies)

/-- The buffer sends one transfer while another one is pending. -/
def TwoTransfers : TxBuffer → Prop
  | signal r => r.fragmentedTransfer.isSome = true ∧ r.pendingTransfer.isSome = true
  | blocking _ | response _ => False

instance : (b : TxBuffer) → Decidable b.TwoTransfers
  | signal _ => inferInstanceAs (Decidable (_ ∧ _))
  | blocking _ | response _ => isFalse id

/-- Without two transfers, there is nothing to give up. -/
theorem taken_mailbox {b : TxBuffer} (h : ¬ b.TwoTransfers) : b.mailbox.taken = b.mailbox := by
  cases b with
  | signal r =>
    rw [mailbox, Signal.Outbox.mailbox, Mailbox.taken, Signal.Inner.outbox]
    rw [TwoTransfers] at h
    cases hcurrent : r.fragmentedTransfer with
    | none => rfl
    | some _ =>
      cases hpending : r.pendingTransfer with
      | none => rfl
      | some _ => simp [hcurrent, hpending] at h
  | blocking r => rfl
  | response r => rfl

/-- With two, the one that is given up is missed. -/
theorem taken_shows {b : TxBuffer} {n : ℕ} (hinv : b.Inv n) (h : b.TwoTransfers) : ∃ calls :
    List (Call T),
    (runTotal Mailbox.step b.mailbox calls).2 ≠
    (runTotal Mailbox.step b.mailbox.taken calls).2 := by
  cases b with
  | signal r =>
    obtain ⟨entry, hentry⟩ := Option.isSome_iff_exists.mp h.1
    obtain ⟨entry', hentry'⟩ := Option.isSome_iff_exists.mp h.2
    have hcurrent : r.outbox.current = some (r.outgoing entry) := by
      rw [Signal.Inner.outbox, hentry, Option.map_some]
    have hpending : r.outbox.pending = some (r.outgoing entry') := by
      rw [Signal.Inner.outbox, hentry', Option.map_some]
    rw [mailbox, Signal.Outbox.mailbox, Mailbox.taken, hcurrent, hpending]
    exact Mailbox.pending_shows _ _ (Signal.Inner.Inv.current hinv _ hcurrent).trim
      (Signal.Inner.Inv.pending hinv _ hpending).trim
  | blocking r => exact h.elim
  | response r => exact h.elim

variable [LawfulSerialize T]

/-- What calls return depends on the mailbox. -/
theorem run_eq {b : TxBuffer} (h : b.Inv (BufferType.bufferLength T)) (calls : List (Call T)) :
    ∃ c, run call b calls = .ok (c, (runTotal Mailbox.step b.mailbox calls).2) ∧
      c.Inv (BufferType.bufferLength T) := by
  obtain ⟨c, hrun, hc, -⟩ := simulates.run_ok ⟨h, rfl⟩
    (show ∀ i ∈ calls, True from fun _ _ ↦ trivial)
  rw [List.map_id] at hrun
  exact ⟨c, hrun, hc⟩

theorem sameBehaviour_iff {b b' : TxBuffer} (h : b.Inv (BufferType.bufferLength T))
    (h' : b'.Inv (BufferType.bufferLength T)) : SameBehaviour T b b' ↔ ∀ later : List (Call T),
      (runTotal Mailbox.step b.mailbox later).2 = (runTotal Mailbox.step b'.mailbox later).2 := by
  refine forall_congr' fun later ↦ ?_
  obtain ⟨c, hrun, -⟩ := run_eq h later
  obtain ⟨c', hrun', -⟩ := run_eq h' later
  constructor
  · rintro ⟨_, _, replies, hreplies, hreplies'⟩
    cases hrun.symm.trans hreplies
    exact (congrArg Prod.snd (Except.ok.inj (hrun'.symm.trans hreplies'))).symm
  · intro heq
    exact ⟨c, c', _, hrun, heq ▸ hrun'⟩

/-- **A push that fails changes nothing, unless the buffer has two transfers.**  A transfer is
refused in a state that calls have led to.  Then all calls that follow return what they would have
returned without it, if the buffer is not a signal that sends one transfer while another is pending,
and only then. -/
theorem unchanged_iff {init : Init} (hfits : init.Fits)
    (hlength : init.bufferLength = BufferType.bufferLength T) {b₀ b b' : TxBuffer}
    (hnew : new init = .ok b₀) {calls : List (Call T)} {replies : List Reply}
    (hrun : run call b₀ calls = .ok (b, replies)) {t : Endpoint.Transfer T} {e : BufferError}
    (hpush : b.call (.push t) = .ok (b', .pushed (.error e))) :
    SameBehaviour T b b' ↔ ¬ b.TwoTransfers := by
  have h : b.Inv (BufferType.bufferLength T) := by
    obtain ⟨b₁, hnew₁, hinv, -⟩ := inv_new hfits
    cases hnew.symm.trans hnew₁
    rw [hlength] at hinv
    obtain ⟨c, hrun', hc⟩ := run_eq hinv calls
    cases hrun.symm.trans hrun'
    exact hc
  obtain ⟨hinv, hmailbox⟩ : b'.Inv (BufferType.bufferLength T) ∧ b'.mailbox = b.mailbox.taken := by
    rcases simulates b b.mailbox (.push t) ⟨h, rfl⟩ with ⟨c, hc, hinv, hmailbox⟩ | ⟨hnot, -⟩
    · have heq := hpush.symm.trans hc
      injection heq with heq
      injection heq with hb' hreply
      injection hreply with hresult
      subst hb'
      exact ⟨hinv, hmailbox.trans (Mailbox.push_error hresult.symm)⟩
    · exact absurd trivial hnot
  rw [sameBehaviour_iff h hinv, hmailbox]
  constructor
  · intro hsame htwo
    obtain ⟨calls, hcalls⟩ := taken_shows (T := T) h htwo
    exact hcalls (hsame calls)
  · intro hone later
    rw [taken_mailbox hone]

/-- A transfer of eight bytes, which are more than a frame of Classic CAN has. -/
def long (p : Priority) (transferId : TransferId) : Endpoint.Transfer DataTypes.ByteArray :=
  ⟨⟨p, none, transferId, 100, false⟩, ⟨List.replicate 6 7, by decide⟩⟩

set_option maxRecDepth 10000 in
theorem unchanged_iff_wrong_priority : ∃ b b' replies,
    run call (blocking (.new 5 .nominal (List.replicate 258 0))) [.push (long .nominal 0)] =
      .ok (b, replies) ∧
    b.call (.push (long .high 1)) = .ok (b', .pushed (.error .priorityNotReady)) ∧
    (SameBehaviour DataTypes.ByteArray b b' ↔ ¬ b.TwoTransfers) :=
  ⟨_, _, _, rfl, rfl, @unchanged_iff DataTypes.ByteArray _ _ _ (.blocking 5 .nominal
    (List.replicate 258 0))
    trivial (by decide) _ _ _ rfl [.push (long .nominal 0)] _ rfl (long .high 1) _ rfl⟩

def Reply.isFrame : Reply → Bool
  | .fetched frame => frame.isSome
  | .pushed _ => false

set_option maxRecDepth 10000 in
/-- One transfer is sent and one is pending when a third is refused.  The one that was pending is
lost. -/
theorem refused_push_loses : ∃ b₀ b b' replies,
    new (.signal 5 .nominal (List.replicate 2 (List.replicate 258 0))) = .ok b₀ ∧
    run call b₀ [.push (long .nominal 0), .fetch .ALL .classic, .push (long .nominal 1)] =
      .ok (b, replies) ∧
    b.call (.push (long .high 2)) = .ok (b', .pushed (.error .priorityNotReady)) ∧
    ¬ SameBehaviour DataTypes.ByteArray b b' := by
  refine ⟨_, _, _, _, rfl, rfl, rfl, fun hsame ↦ ?_⟩
  obtain ⟨c, c', replies, hrun, hrun'⟩ := hsame [.fetch .ALL .classic, .fetch .ALL .classic]
  have hframes := congrArg (Except.map fun r ↦ r.2.map Reply.isFrame) hrun
  have hframes' := congrArg (Except.map fun r ↦ r.2.map Reply.isFrame) hrun'
  have hsent : Except.ok [true, true] = Except.ok (replies.map Reply.isFrame) := hframes
  have hsent' : Except.ok [true, false] = Except.ok (replies.map Reply.isFrame) := hframes'
  cases hsent.trans hsent'.symm

end TxBuffer

end Emcyphal
