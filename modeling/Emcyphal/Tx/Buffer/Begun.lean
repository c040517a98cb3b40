import Emcyphal.Tx.Buffer

/-!
# Which transfers of a buffer were sent in part

A registry keeps a set of the priorities that an entry has sent a transfer of in part, which is what
`Aligned` says: a priority is in the set if and only if the next frame of the priority is not the
first one of its transfer.  A transfer that is pushed is never sent in part, nor is the one that a
non-blocking buffer has pending, so nothing but a fetch has to change the set.
-/

set_option autoImplicit false

namespace Emcyphal.TxBuffer

open Rust

/-- The priority of a message buffer.  A response buffer has transfers of all priorities. -/
def priority : TxBuffer → Option Priority
  | signal r => some r.priority
  | blocking r => some r.priority
  | response _ => none

/-- The next frame of the priority is not the first one of its transfer. -/
def Begun (b : TxBuffer) (p : Priority) : Prop := ∃ o, b.next p = some o ∧ o.scatter.offset ≠ 0

/-- The transfer that is pending behind the next one was not sent in part. -/
def Unsent : TxBuffer → Prop
  | signal r => ∀ o ∈ r.outbox.pending, o.scatter.offset = 0
  | blocking _ | response _ => True

/-- These are the priorities with a transfer that was sent in part. -/
structure Aligned (b : TxBuffer) (started : PrioritySet) : Prop where
  unsent : b.Unsent
  started : ∀ p, started.contains p = true ↔ b.Begun p

variable {b b' : TxBuffer} {n : ℕ} {p : Priority} {s : PrioritySet}

/-- A message buffer has transfers of its priority only. -/
theorem priority_of_next {o : Outgoing} (hp : b.priority = some p) {q : Priority}
    (hnext : b.next q = some o) : q = p := by
  cases b with
  | signal r | blocking r =>
    cases hp
    rw [next] at hnext
    split at hnext
    · rename_i hq
      exact hq.symm
    · cases hnext
  | response r => cases hp

theorem begun_congr (h : b'.next p = b.next p) : b'.Begun p ↔ b.Begun p := by rw [Begun, Begun, h]

theorem not_begun_of_none (h : b.next p = none) : ¬ b.Begun p := by
  rintro ⟨o, ho, -⟩
  cases h.symm.trans ho

theorem not_begun_of_zero {o : Outgoing} (h : b.next p = some o) (hzero : o.scatter.offset = 0) :
    ¬ b.Begun p := by
  rintro ⟨o', ho', hne⟩
  cases h.symm.trans ho'
  exact hne hzero

namespace Aligned

theorem congr (h : b.Aligned s) (hnext : b'.next = b.next) (hunsent : b'.Unsent) :
    b'.Aligned s :=
  ⟨hunsent, fun p ↦ (h.started p).trans (begun_congr (by rw [hnext])).symm⟩

/-- A new buffer has sent nothing. -/
theorem new {init : Init} (hfits : init.Fits) (hnew : TxBuffer.new init = .ok b) :
    b.Aligned .NONE := by
  obtain ⟨b', hnew', -, hnext⟩ := inv_new hfits
  cases hnew.symm.trans hnew'
  refine ⟨?_, fun p ↦ ?_⟩
  · cases b with
    | signal r =>
      have hnone : r.outbox.next = none := by
        have h := congrFun hnext r.priority
        rwa [next, if_pos rfl] at h
      intro o ho
      rw [(Option.or_eq_none_iff.mp hnone).2] at ho
      cases ho
    | blocking r | response r => trivial
  · rw [PrioritySet.contains_NONE]
    exact iff_of_false Bool.false_ne_true (not_begun_of_none (congrFun hnext p))

/-! ## What is not a fetch leaves the set alone -/

theorem getScratchpad (h : b.Aligned s) (hb : b.Inv n) {res : Option (PrioritySet × List Byte)}
    (hget : b.getScratchpad = .ok (res, b')) : b'.Aligned s ∧ b'.priority = b.priority := by
  obtain ⟨res', b'', hget', -, hnext, -⟩ := hb.getScratchpad
  cases hget.symm.trans hget'
  suffices b'.Unsent ∧ b'.priority = b.priority from ⟨h.congr hnext this.1, this.2⟩
  cases b with
  | signal r =>
    obtain ⟨buffer, r', hget', -, -, houtbox, -⟩ := Signal.Inner.Inv.getScratchpad hb
    rw [TxBuffer.getScratchpad, hget'] at hget
    cases hget
    have hpriority := congrArg Signal.Outbox.priority houtbox
    rw [Signal.Outbox.priority_taken] at hpriority
    refine ⟨fun o ho ↦ ?_, congrArg some hpriority⟩
    rw [houtbox, Signal.Inner.Inv.pending_taken hb] at ho
    split at ho
    · cases ho
    · exact h.unsent o ho
  | blocking r =>
    obtain ⟨r', hget', -, -, hheader, -⟩ := Blocking.Inner.Inv.getScratchpad hb
    rw [TxBuffer.getScratchpad, hget'] at hget
    cases hget
    exact ⟨trivial, congrArg some (congrArg Prod.snd hheader)⟩
  | response r =>
    rw [TxBuffer.getScratchpad] at hget
    obtain ⟨⟨res, r'⟩, -, hr⟩ := map_eq_ok.mp hget
    cases hr
    exact ⟨trivial, rfl⟩

theorem writeScratchpad (h : b.Aligned s) (hb : b.Inv n) {bytes : List Byte}
    (hbytes : bytes.length = n) :
    (b.writeScratchpad bytes).Aligned s ∧ (b.writeScratchpad bytes).priority = b.priority := by
  suffices (b.writeScratchpad bytes).Unsent ∧ (b.writeScratchpad bytes).priority = b.priority from
    ⟨h.congr (hb.writeScratchpad hbytes).2 this.1, this.2⟩
  cases b with
  | signal r =>
    obtain ⟨-, houtbox⟩ := Signal.Inner.Inv.writeScratchpad hb hbytes
    refine ⟨fun o ho ↦ ?_, congrArg some (congrArg Signal.Outbox.priority houtbox)⟩
    rw [houtbox] at ho
    exact h.unsent o ho
  | blocking r =>
    obtain ⟨-, -, hheader, -⟩ := Blocking.Inner.Inv.writeScratchpad hb hbytes
    exact ⟨trivial, congrArg some (congrArg Prod.snd hheader)⟩
  | response r => exact ⟨trivial, rfl⟩

/-- A transfer that is pushed is new, or behind the one that is sent. -/
theorem push_cases (h : b.Aligned s) (hb : b.Inv n) {m : TransferMeta} {length : ℕ}
    (hlength : length ≤ n) {crc : TransferCrc} (hpush : b.tryPush m length crc = .ok (.ok (), b')) :
    b'.Unsent ∧ b'.priority = b.priority ∧
      (b'.next m.priority = b.next m.priority ∨
        (∃ o, b'.next m.priority = some o ∧ o.scatter.offset = 0) ∧ ¬ b.Begun m.priority) := by
  cases b with
  | signal r =>
    by_cases hok : m.address = none ∧ m.priority = r.priority ∧ r.outbox.scratchpad ≠ none
    · obtain ⟨buffer, hbuffer⟩ := Option.ne_none_iff_exists'.mp hok.2.2
      obtain ⟨r', hpush', -, houtbox⟩ :=
        Signal.Inner.Inv.tryPush hb hok.1 hok.2.1 hbuffer hlength crc
      rw [TxBuffer.tryPush, hpush'] at hpush
      cases hpush
      have hp : r'.priority = r.priority := congrArg Signal.Outbox.priority houtbox
      refine ⟨fun o ho ↦ ?_, congrArg some hp, ?_⟩
      · rw [houtbox] at ho
        cases ho
        rfl
      · rw [next, next, if_pos (hp.trans hok.2.1.symm), if_pos hok.2.1.symm, houtbox]
        cases hcurrent : r.outbox.current with
        | some o => exact .inl (by simp [Signal.Outbox.next, Signal.Outbox.pushed, hcurrent])
        | none =>
          refine .inr ⟨⟨.new m length crc buffer, ?_, rfl⟩, ?_⟩
          · simp [Signal.Outbox.next, Signal.Outbox.pushed, hcurrent]
          rintro ⟨o, ho, hne⟩
          rw [next, if_pos hok.2.1.symm, Signal.Outbox.next, hcurrent, Option.none_or] at ho
          exact hne (h.unsent o ho)
    · obtain ⟨e, herror⟩ := Signal.Inner.Inv.tryPush_error (r := r) m (by tauto) length crc
      rw [TxBuffer.tryPush, herror] at hpush
      cases hpush
  | blocking r =>
    by_cases hok : m.address = none ∧ m.priority = r.priority ∧
        r.pendingTransfer = none ∧ r.scratchpadProvided = true
    · obtain ⟨r', hpush', -, hcurrent, hheader, -⟩ :=
        Blocking.Inner.Inv.tryPush hb hok.1 hok.2.1 hok.2.2.2 hlength crc
      rw [TxBuffer.tryPush, hpush'] at hpush
      cases hpush
      have hp : r'.priority = r.priority := congrArg Prod.snd hheader
      refine ⟨trivial, congrArg some hp,
        .inr ⟨⟨.new m length crc r.buffer, ?_, rfl⟩, not_begun_of_none ?_⟩⟩
      · rw [next, if_pos (hp.trans hok.2.1.symm), hcurrent]
      · rw [next, if_pos hok.2.1.symm]
        exact Blocking.Inner.current_eq_none.mpr hok.2.2.1
    · obtain ⟨e, herror⟩ := Blocking.Inner.Inv.tryPush_error (r := r) m
        (by simp only [← Bool.not_eq_true]; tauto) length crc
      rw [TxBuffer.tryPush, herror] at hpush
      cases hpush
  | response r =>
    by_cases hok : m.address ≠ none ∧ r.current m.priority = none ∧ r.scratchpad ≠ none
    · obtain ⟨buffer, hbuffer⟩ := Option.ne_none_iff_exists'.mp hok.2.2
      obtain ⟨r', hpush', -, hcurrent, -⟩ :=
        Response.ResponseBufferInner.Inv.tryPush hb hok.1 hok.2.1 hbuffer hlength crc
      rw [TxBuffer.tryPush, hpush'] at hpush
      cases hpush
      refine ⟨trivial, rfl,
        .inr ⟨⟨.new m length crc buffer, ?_, rfl⟩, not_begun_of_none hok.2.1⟩⟩
      rw [next, hcurrent, Function.update_self]
    · obtain ⟨e, herror⟩ := Response.ResponseBufferInner.Inv.tryPush_error hb m (by tauto)
        length crc
      rw [TxBuffer.tryPush, herror] at hpush
      cases hpush

theorem tryPush (h : b.Aligned s) (hb : b.Inv n) {m : TransferMeta} {length : ℕ}
    (hlength : length ≤ n) {crc : TransferCrc} {res : Except BufferError Unit}
    (hpush : b.tryPush m length crc = .ok (res, b')) :
    b'.Aligned s ∧ b'.priority = b.priority ∧
      ∀ p, (b.next p).isSome = true → (b'.next p).isSome = true := by
  rcases hb.tryPush m hlength crc with ⟨e, herror⟩ | ⟨b'', hpush', -, hsome, hothers⟩
  · cases hpush.symm.trans herror
    exact ⟨h, rfl, fun p hp ↦ hp⟩
  · cases hpush.symm.trans hpush'
    obtain ⟨hunsent, hpriority, hown⟩ := h.push_cases hb hlength hpush
    refine ⟨⟨hunsent, fun p ↦ (h.started p).trans ?_⟩, hpriority, fun p hp ↦ ?_⟩
    · by_cases hp : p = m.priority
      · subst hp
        rcases hown with hsame | ⟨⟨o, ho, hzero⟩, hnot⟩
        · exact (begun_congr hsame).symm
        · exact iff_of_false hnot (not_begun_of_zero ho hzero)
      · exact (begun_congr (hothers p hp)).symm
    · by_cases hm : p = m.priority
      · rwa [hm]
      · rwa [hothers p hm]

/-! ## A fetch -/

/-- What a fetch leaves of the priority was sent in part, unless the transfer has ended. -/
theorem begun_of_sent (h : b.Aligned s) (hb : b.Inv n) {o : Outgoing} (hnext : b.next p = some o)
    {mtu : Mtu} {data : Data} {rest : Option Outgoing} (hs : o.Sends mtu data rest)
    {frame : Option Frame} (hpop : b.tryPop (.newEq p) mtu = .ok (frame, b')) :
    b'.Unsent ∧ b'.priority = b.priority ∧ (rest = none → ¬ b'.Begun p) := by
  cases b with
  | signal r =>
    rw [next] at hnext
    split at hnext
    · rename_i hp
      obtain ⟨r', hpop', -, houtbox⟩ := Signal.Inner.Inv.tryPop hb
        (show (PrioritySet.newEq p).contains r.priority = true by simp [hp]) hnext hs
      rw [TxBuffer.tryPop, hpop'] at hpop
      cases hpop
      have hpriority : r'.priority = r.priority := congrArg Signal.Outbox.priority houtbox
      have hunsent : ∀ o ∈ r'.outbox.pending, o.scatter.offset = 0 := by
        intro o ho
        rw [houtbox, Signal.Outbox.sent] at ho
        split at ho
        · exact h.unsent o ho
        · cases ho
      refine ⟨hunsent, congrArg some hpriority, ?_⟩
      rintro rfl ⟨o', ho', hne⟩
      rw [next, if_pos (hpriority.trans hp), Signal.Outbox.next,
        show r'.outbox.current = none from congrArg Signal.Outbox.current houtbox,
        Option.none_or] at ho'
      exact hne (hunsent o' ho')
    · cases hnext
  | blocking r =>
    rw [next] at hnext
    split at hnext
    · rename_i hp
      obtain ⟨r', hpop', -, hcurrent, hheader, -⟩ := Blocking.Inner.Inv.tryPop hb
        (show (PrioritySet.newEq p).contains r.priority = true by simp [hp]) hnext hs
      rw [TxBuffer.tryPop, hpop'] at hpop
      cases hpop
      have hpriority : r'.priority = r.priority := congrArg Prod.snd hheader
      refine ⟨trivial, congrArg some hpriority, fun hnone ↦ not_begun_of_none ?_⟩
      rw [next, if_pos (hpriority.trans hp), hcurrent, hnone]
    · cases hnext
  | response r =>
    have hfirst : (r.popReadiness &&& .newEq p).first = some p := by
      refine Inv.newEq_mask ?_
      rw [Response.ResponseBufferInner.Inv.popReadiness hb]
      exact (congrArg Option.isSome hnext).trans rfl
    obtain ⟨r', hpop', -, hcurrent, -⟩ :=
      Response.ResponseBufferInner.Inv.tryPop hb hfirst hnext hs
    rw [TxBuffer.tryPop, hpop'] at hpop
    cases hpop
    refine ⟨trivial, rfl, fun hnone ↦ not_begun_of_none ?_⟩
    rw [next, hcurrent, Function.update_self, hnone]

/-- **A frame starts a transfer if and only if the priority is not in the set**, and the set is
changed as the end of the transfer says. -/
theorem tryPop (h : b.Aligned s) (hb : b.Inv n) (hfirst : b.popReadiness.contains p = true)
    {mtu : Mtu} {frame : Frame} (hpop : b.tryPop (.newEq p) mtu = .ok (some frame, b')) :
    frame.header.priority = p ∧ isSotFrame frame = some (!s.contains p) ∧
      ∀ eot, isEotFrame frame = some eot →
        b'.Aligned (if eot then s.remove p else s.insert p) ∧ b'.priority = b.priority := by
  rw [hb.popReadiness] at hfirst
  obtain ⟨o, ho⟩ := Option.isSome_iff_exists.mp hfirst
  have hready := hb.ready ho
  obtain ⟨data, rest, hs⟩ := hready.sends mtu
  obtain ⟨b'', hpop', -, hrest, hothers⟩ := hb.tryPop ho hs
  cases hpop.symm.trans hpop'
  obtain ⟨hunsent, hpriority, hended⟩ := h.begun_of_sent hb ho hs hpop
  refine ⟨rfl, ?_, fun eot heot ↦ ⟨⟨hunsent, fun q ↦ ?_⟩, hpriority⟩⟩
  · rw [hs.sot hready, Option.some_inj]
    have hstarted := h.started p
    by_cases hzero : o.scatter.offset = 0
    · have hnot := mt hstarted.mp (not_begun_of_zero ho hzero)
      rw [Bool.not_eq_true] at hnot
      rw [hnot, decide_eq_true hzero]
      rfl
    · rw [hstarted.mpr ⟨o, ho, hzero⟩, decide_eq_false hzero]
      rfl
  · cases hs.eot.symm.trans heot
    by_cases hq : q = p
    · subst hq
      cases rest with
      | none =>
        simp only [Option.isNone_none, ↓reduceIte, PrioritySet.contains_remove]
        exact iff_of_false (by simp) (hended rfl)
      | some o' =>
        simp only [Option.isNone_some, Bool.false_eq_true, ↓reduceIte,
          PrioritySet.contains_insert]
        exact iff_of_true (by simp) ⟨o', hrest rfl, hs.offset_ne_zero o' rfl⟩
    · rw [begun_congr (hothers q hq), ← h.started q]
      cases rest <;> simp [Ne.symm hq]

end Aligned

end Emcyphal.TxBuffer
