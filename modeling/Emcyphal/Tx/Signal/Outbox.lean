import Emcyphal.Tx.Signal
import Mathlib.Data.List.Perm.Basic
import Mathlib.Data.List.Range

/-!
# What a non-blocking buffer stands for

`Outbox` is the buffer without its indexes: the transfer that is being sent, the one that is
pending, and the contents of the scratchpad.  The operations of the buffer are those of the outbox,
as long as the two indexes are shared by the roles without overlap (`Inv.indexes`).  In particular
no `unwrap` fails, and a scratchpad that is written to is never the data of a transfer.
-/

set_option autoImplicit false

namespace Emcyphal.Signal

open Rust

@[ext]
structure Outbox where
  subject : SubjectId
  priority : Priority
  /-- The transfer that is being sent. -/
  current : Option Outgoing
  pending : Option Outgoing
  scratchpad : Option (List Byte)

namespace Outbox

/-- The transfer that the next frame is of. -/
def next (b : Outbox) : Option Outgoing := b.current.or b.pending

/-- A frame was fetched, and this is what is left of its transfer. -/
def sent (b : Outbox) (rest : Option Outgoing) : Outbox :=
  { b with current := rest, pending := if b.current.isSome then b.pending else none }

/-- The bytes that are left to send. -/
def remaining (b : Outbox) : ℕ :=
  (b.current.map Outgoing.remaining).getD 0 + (b.pending.map Outgoing.remaining).getD 0

/-- Each frame leaves less. -/
theorem remaining_sent {b : Outbox} {o : Outgoing} (hnext : b.next = some o) {mtu : Mtu}
    {data : Data} {rest : Option Outgoing} (hs : o.Sends mtu data rest) : (b.sent rest).remaining <
    b.remaining := by
  have hlt := hs.remaining_lt
  rw [remaining, remaining, sent]
  rw [next] at hnext
  cases hcurrent : b.current with
  | some o' =>
    rw [hcurrent] at hnext
    cases hnext
    simp only [Option.isSome_some, if_true, Option.map_some, Option.getD_some]
    omega
  | none =>
    rw [hcurrent] at hnext
    rw [Option.none_or] at hnext
    simp only [hnext, Option.isSome_none, Bool.false_eq_true, if_false, Option.map_none,
      Option.map_some, Option.getD_none, Option.getD_some]
    omega

/-- The scratchpad was taken, with these contents.  The pending transfer is given up if another one
is being sent. -/
def taken (b : Outbox) (buffer : List Byte) : Outbox :=
  if b.scratchpad.isSome then b
  else { b with
    scratchpad := some buffer
    pending := if b.current.isSome then none else b.pending }

theorem taken_of_some {b : Outbox} {buffer : List Byte} (h : b.scratchpad = some buffer) :
    b.taken buffer = b := by
  rw [taken, if_pos (by rw [h]; rfl)]

theorem taken_of_free {b : Outbox} (h : b.scratchpad = none)
    (hfree : b.current.isSome = true → b.pending = none) (buffer : List Byte) :
    b.taken buffer = { b with scratchpad := some buffer } := by
  rw [taken, if_neg (by simp [h])]
  split
  · rename_i hcurrent
    rw [hfree hcurrent]
  · rfl

theorem taken_of_full {b : Outbox} (h : b.scratchpad = none) (hcurrent : b.current.isSome = true)
    (buffer : List Byte) : b.taken buffer =
    { b with scratchpad := some buffer, pending := none } := by
  rw [taken, if_neg (by simp [h]), if_pos hcurrent]

theorem priority_taken (b : Outbox) (buffer : List Byte) : (b.taken buffer).priority =
    b.priority := by
  rw [taken]
  split <;> rfl

theorem subject_taken (b : Outbox) (buffer : List Byte) : (b.taken buffer).subject = b.subject := by
  rw [taken]
  split <;> rfl

theorem current_taken (b : Outbox) (buffer : List Byte) : (b.taken buffer).current = b.current := by
  rw [taken]
  split <;> rfl

/-- The next frame stays the same. -/
theorem next_taken (b : Outbox) (buffer : List Byte) : (b.taken buffer).next = b.next := by
  rw [taken, next, next]
  split
  · rfl
  · cases b.current <;> rfl

/-- The scratchpad was written to. -/
def written (b : Outbox) (bytes : List Byte) : Outbox :=
  { b with scratchpad := b.scratchpad.map fun _ ↦ bytes }

/-- The scratchpad has become the pending transfer. -/
def pushed (b : Outbox) (transfer : Outgoing) : Outbox :=
  { b with pending := some transfer, scratchpad := none }

end Outbox

/-- The scratchpad becomes the pending transfer. -/
theorem perm_push (as free : List ℕ) (i : ℕ) :
    ([i] ++ (as ++ ([] ++ free))).Perm (as ++ ([i] ++ free)) := by
  rw [List.nil_append, List.singleton_append]
  exact List.perm_middle.symm

/-- It replaces another one, whose buffer is free then. -/
theorem perm_replace (as free : List ℕ) (i j : ℕ) :
    ([i] ++ (as ++ ([] ++ (free ++ [j])))).Perm ([j] ++ (as ++ ([i] ++ free))) := by
  refine (perm_push as (free ++ [j]) i).trans ?_
  rw [← List.append_assoc, ← List.append_assoc, ← List.append_assoc as]
  exact List.perm_append_comm

namespace Inner

/-- The contents of a data buffer. -/
def bufferAt (r : Inner) (idx : ℕ) : List Byte := r.buffers.getD idx []

/-- What an entry stands for. -/
def outgoing (r : Inner) (entry : TransferEntry) : Outgoing :=
  ⟨entry.scatter, entry.timestamp, entry.loopBack, none, r.bufferAt entry.bufferIdx⟩

def outbox (r : Inner) : Outbox where
  subject := r.subject
  priority := r.priority
  current := r.fragmentedTransfer.map r.outgoing
  pending := r.pendingTransfer.map r.outgoing
  scratchpad := r.scratchpadBufferIdx.map r.bufferAt

/-- The indexes in all roles. -/
def indexes (r : Inner) : List ℕ :=
  (r.pendingTransfer.map TransferEntry.bufferIdx).toList ++
    ((r.fragmentedTransfer.map TransferEntry.bufferIdx).toList ++
      (r.scratchpadBufferIdx.toList ++ r.freeBufferIndexes))

/-- What holds of a buffer for data of length `n` in every state. -/
structure Inv (r : Inner) (n : ℕ) : Prop where
  count : r.buffers.length = BUFFER_COUNT
  length : ∀ b ∈ r.buffers, b.length = n
  /-- Each data buffer has exactly one role. -/
  indexes : r.indexes.Perm (List.range BUFFER_COUNT)
  current : ∀ o ∈ r.outbox.current, o.Ready
  pending : ∀ o ∈ r.outbox.pending, o.Ready

variable {r : Inner} {n : ℕ}

theorem inv_new (subject : SubjectId) (priority : Priority) {buffers : List (List Byte)}
    (hcount : buffers.length = BUFFER_COUNT) (hlength : ∀ b ∈ buffers, b.length = n) :
    ∃ r, new subject priority buffers = .ok r ∧ r.Inv n ∧ r.outbox =
      ⟨subject, priority, none, none, none⟩ :=
  ⟨_, by rw [new, assert_pos hcount]; rfl,
    ⟨hcount, hlength, .rfl, by simp [outbox], by simp [outbox]⟩, rfl⟩

theorem popReadiness_eq (r : Inner) :
    r.popReadiness = if r.outbox.next.isSome then .newEq r.priority else .NONE := by
  rw [popReadiness, isEmpty, Outbox.next, outbox]
  cases r.fragmentedTransfer <;> cases r.pendingTransfer <;> rfl

namespace Inv

theorem mem_indexes (h : r.Inv n) {idx : ℕ} (hidx : idx ∈ r.indexes) :
    r.buffers[idx]? = some (r.bufferAt idx) ∧ (r.bufferAt idx).length = n := by
  have hlt : idx < r.buffers.length := by
    rw [h.count]
    exact List.mem_range.mp (h.indexes.mem_iff.mp hidx)
  have hget := List.getElem?_eq_getElem hlt
  have hat : r.bufferAt idx = r.buffers[idx] := by simp [bufferAt, hlt]
  exact ⟨by rw [hat, hget], by rw [hat]; exact h.length _ (List.getElem_mem hlt)⟩

theorem nodup (h : r.Inv n) : r.indexes.Nodup := h.indexes.nodup_iff.mpr List.nodup_range

theorem length_indexes (h : r.Inv n) : r.indexes.length = BUFFER_COUNT := by
  rw [h.indexes.length_eq, List.length_range]

/-- An index is freed when its transfer is gone: there is room for it. -/
theorem pushFree_eq (h : r.Inv n) {r' : Inner} {idx : ℕ}
    (hfree : r'.freeBufferIndexes.length + 1 ≤ r.indexes.length) :
    r'.pushFree idx = .ok { r' with freeBufferIndexes := r'.freeBufferIndexes ++ [idx] } := by
  rw [pushFree, if_pos]
  rw [h.length_indexes] at hfree
  exact hfree

theorem startTransfer (h : r.Inv n) : r.startTransfer.Inv n ∧
    r.startTransfer.outbox = { r.outbox with
      current := r.outbox.next
      pending := if r.outbox.current.isSome then r.outbox.pending else none } := by
  obtain ⟨hcount, hlength, hindexes, hcurrent, hpending⟩ := h
  rw [Inner.startTransfer]
  cases hfragmented : r.fragmentedTransfer with
  | none =>
    refine ⟨⟨hcount, hlength, ?_, hpending, by simp [outbox]⟩, ?_⟩
    · rw [Inner.indexes, hfragmented] at hindexes
      exact hindexes
    · simp only [outbox, Outbox.next, hfragmented, Option.isNone_none, if_true, Option.map_none,
        Option.none_or, Option.isSome_none, Bool.false_eq_true, if_false]
      rfl
  | some entry =>
    refine ⟨⟨hcount, hlength, hindexes, hcurrent, hpending⟩, ?_⟩
    simp [outbox, Outbox.next, hfragmented]

/-- A frame is fetched from the transfer that is being sent. -/
theorem fragment (h : r.Inv n) {entry : TransferEntry} (hentry : r.fragmentedTransfer = some entry)
    {mtu : Mtu} {data : Data} {rest : Option Outgoing}
    (hs : (r.outgoing entry).Sends mtu data rest) :
    ∃ s r', entry.scatter.fetchFrameData (r.bufferAt entry.bufferIdx) mtu = .ok (some data, s) ∧
      r.advance entry s = .ok r' ∧ r'.Inv n ∧ r'.outbox = { r.outbox with current := rest } := by
  obtain ⟨hcount, hlength, hindexes, hcurrent, hpending⟩ := id h
  cases hs with
  | more hfetched hleft =>
    rename_i s
    refine ⟨s, { r with fragmentedTransfer := some { entry with scatter := s } }, hfetched.eq,
      by rw [advance, hleft]; rfl, ⟨hcount, hlength, ?_, ?_, hpending⟩, rfl⟩
    · rw [Inner.indexes, hentry] at hindexes
      exact hindexes
    · intro o ho
      cases ho
      exact hfetched.ready hleft
  | last hfetched hdone =>
    rename_i s
    have hroom : r.freeBufferIndexes.length + 1 ≤ r.indexes.length := by
      rw [Inner.indexes, hentry]
      simp
      omega
    refine ⟨s, { r with
      fragmentedTransfer := none
      freeBufferIndexes := r.freeBufferIndexes ++ [entry.bufferIdx] }, hfetched.eq, ?_, ?_, rfl⟩
    · rw [advance, if_pos hdone]
      exact h.pushFree_eq hroom
    refine ⟨hcount, hlength, ?_, by simp [outbox], hpending⟩
    rw [Inner.indexes, hentry] at hindexes
    refine List.Perm.trans ?_ hindexes
    rw [Inner.indexes]
    refine List.Perm.append_left _ ?_
    dsimp only [Option.map_none, Option.map_some, Option.toList_none, Option.toList_some]
    rw [List.nil_append, ← List.append_assoc]
    exact List.perm_append_comm

/-- **A fetch returns the next frame.** -/
theorem tryPop (h : r.Inv n) {mask : PrioritySet} (hmask : mask.contains r.priority = true)
    {o : Outgoing} (hnext : r.outbox.next = some o) {mtu : Mtu} {data : Data}
    {rest : Option Outgoing} (hs : o.Sends mtu data rest) : ∃ r',
      r.tryPop mask mtu = .ok (some (o.frame r.priority (.message r.subject) data), r') ∧
      r'.Inv n ∧ r'.outbox = r.outbox.sent rest := by
  obtain ⟨hinv, houtbox⟩ := h.startTransfer
  have hcurrent : r.startTransfer.outbox.current = some o := by rw [houtbox, hnext]
  obtain ⟨entry, hentry, rfl⟩ := Option.map_eq_some_iff.mp hcurrent
  obtain ⟨s, r', hfetch, hr', hinv', houtbox'⟩ := hinv.fragment hentry hs
  have hidx : entry.bufferIdx ∈ r.startTransfer.indexes := by simp [Inner.indexes, hentry]
  have hheader : r.startTransfer.subject = r.subject ∧ r.startTransfer.priority = r.priority := by
    rw [Inner.startTransfer]
    split <;> exact ⟨rfl, rfl⟩
  refine ⟨if r'.isEmpty then { r' with emptyWaker := none } else r', ?_, ?_, ?_⟩
  · rw [Inner.tryPop, hmask]
    dsimp only
    rw [hentry]
    dsimp only
    rw [index_of_getElem? (hinv.mem_indexes hidx).1, ok_bind, hfetch, ok_bind]
    dsimp only
    rw [unwrap_some, ok_bind, hr', ok_bind, hheader.1, hheader.2]
    rfl
  · split
    · exact ⟨hinv'.count, hinv'.length, hinv'.indexes, hinv'.current, hinv'.pending⟩
    · exact hinv'
  · have hsent : r'.outbox = r.outbox.sent rest := by rw [houtbox', houtbox, Outbox.sent]
    split
    · exact hsent
    · exact hsent

/-- Otherwise there is nothing to fetch, and nothing happens. -/
theorem tryPop_none (h : r.Inv n) {mask : PrioritySet}
    (hnone : mask.contains r.priority = false ∨ r.outbox.next = none) (mtu : Mtu) :
    r.tryPop mask mtu = .ok (none, r) := by
  rw [Inner.tryPop]
  cases hmask : mask.contains r.priority with
  | false => rfl
  | true =>
    have hnext := Option.or_eq_none_iff.mp (hnone.resolve_left (by simp [hmask]))
    have hfragmented : r.fragmentedTransfer = none := Option.map_eq_none_iff.mp hnext.1
    have hpending : r.pendingTransfer = none := Option.map_eq_none_iff.mp hnext.2
    have hstart : r.startTransfer = r := by
      rw [Inner.startTransfer, hfragmented, hpending]
      cases r
      simp_all
    rw [hstart]
    dsimp only
    rw [hfragmented]
    rfl

/-- The number of buffers in each role. -/
theorem roles (h : r.Inv n) : r.pendingTransfer.toList.length +
    (r.fragmentedTransfer.toList.length +
    (r.scratchpadBufferIdx.toList.length + r.freeBufferIndexes.length)) = 2 := by
  have hlen := h.length_indexes
  rw [Inner.indexes] at hlen
  simp only [List.length_append] at hlen
  rw [← show BUFFER_COUNT = 2 from rfl, ← hlen]
  cases r.pendingTransfer <;> cases r.fragmentedTransfer <;> rfl

/-- With the scratchpad taken, a transfer that is being sent leaves no buffer for another one. -/
theorem pending_taken (h : r.Inv n) (buffer : List Byte) : (r.outbox.taken buffer).pending =
    if r.outbox.current.isSome then none else r.outbox.pending := by
  rw [Outbox.taken]
  split
  · rename_i hscratchpad
    split
    · rename_i hcurrent
      have hroles := h.roles
      simp only [outbox, Option.isSome_map] at hscratchpad hcurrent
      obtain ⟨_, hs⟩ := Option.isSome_iff_exists.mp hscratchpad
      obtain ⟨_, hc⟩ := Option.isSome_iff_exists.mp hcurrent
      cases hp : r.pendingTransfer with
      | none => simp [outbox, hp]
      | some _ =>
        simp [hs, hc, hp] at hroles
        omega
    · rfl
  · rfl

/-- **The scratchpad can always be taken.** -/
theorem getScratchpad (h : r.Inv n) : ∃ buffer r',
    r.getScratchpad = .ok (some (.newEq r.priority, buffer), r') ∧ buffer.length = n ∧ r'.Inv n ∧
      r'.outbox = r.outbox.taken buffer ∧ r'.outbox.scratchpad = some buffer := by
  cases hscratchpad : r.scratchpadBufferIdx with
  | some idx =>
    have hidx : idx ∈ r.indexes := by simp [Inner.indexes, hscratchpad]
    obtain ⟨hget, hlen⟩ := h.mem_indexes hidx
    refine ⟨r.bufferAt idx, r, ?_, hlen, h, ?_, ?_⟩
    · rw [Inner.getScratchpad, hscratchpad]
      dsimp only
      rw [pure_eq_ok, ok_bind, hscratchpad, unwrap_some, ok_bind, index_of_getElem? hget]
      rfl
    · exact (Outbox.taken_of_some (by simp [outbox, hscratchpad])).symm
    · simp [outbox, hscratchpad]
  | none =>
    have hnone : r.outbox.scratchpad = none := by simp [outbox, hscratchpad]
    have hroles := h.roles
    obtain ⟨hcount, hlength, hindexes, hcurrent, hpending⟩ := id h
    rw [Inner.indexes, hscratchpad] at hindexes
    rw [hscratchpad] at hroles
    cases hfree : splitLast r.freeBufferIndexes with
    | some c =>
      obtain ⟨idx, rest⟩ := c
      have hconcat := eq_concat_of_splitLast hfree
      have hidx : idx ∈ r.indexes := by simp [Inner.indexes, hconcat]
      obtain ⟨hget, hlen⟩ := h.mem_indexes hidx
      refine ⟨r.bufferAt idx, { r with scratchpadBufferIdx := some idx, freeBufferIndexes := rest },
        ?_, hlen, ⟨hcount, hlength, ?_, hcurrent, hpending⟩, ?_, rfl⟩
      · rw [Inner.getScratchpad, hscratchpad]
        dsimp only
        rw [hfree]
        dsimp only
        rw [pure_eq_ok, ok_bind]
        dsimp only
        rw [unwrap_some, ok_bind, index_of_getElem? hget]
        rfl
      · refine List.Perm.trans ?_ hindexes
        rw [hconcat]
        refine List.Perm.append_left _ (List.Perm.append_left _ ?_)
        exact (List.perm_append_singleton idx rest).symm
      · -- A free buffer leaves room for one transfer only.
        refine (Outbox.taken_of_free hnone (fun hsome ↦ ?_) _).symm
        rw [hconcat] at hroles
        cases hf : r.fragmentedTransfer with
        | none => simp [outbox, hf] at hsome
        | some _ =>
          cases hp : r.pendingTransfer with
          | none => simp [outbox, hp]
          | some _ =>
            simp [hf, hp] at hroles
            omega
    | none =>
      have hnil : r.freeBufferIndexes = [] := by
        rwa [splitLast, Option.map_eq_none_iff, List.getLast?_eq_none_iff] at hfree
      rw [hnil] at hroles hindexes
      obtain ⟨entry, hp⟩ : ∃ entry, r.pendingTransfer = some entry := by
        cases hp : r.pendingTransfer with
        | some entry => exact ⟨entry, rfl⟩
        | none => cases hf : r.fragmentedTransfer <;> simp [hp, hf] at hroles
      have hf : r.outbox.current.isSome = true := by
        cases hf : r.fragmentedTransfer with
        | some _ => simp [outbox, hf]
        | none => simp [hp, hf] at hroles
      have hidx : entry.bufferIdx ∈ r.indexes := by simp [Inner.indexes, hp]
      obtain ⟨hget, hlen⟩ := h.mem_indexes hidx
      refine ⟨r.bufferAt entry.bufferIdx,
        { r with scratchpadBufferIdx := some entry.bufferIdx, pendingTransfer := none },
        ?_, hlen, ⟨hcount, hlength, ?_, hcurrent, by simp [outbox]⟩,
        (Outbox.taken_of_full hnone hf _).symm, rfl⟩
      · rw [Inner.getScratchpad, hscratchpad]
        dsimp only
        rw [hfree, hp]
        dsimp only
        rw [unwrap_some, ok_bind, pure_eq_ok, ok_bind]
        dsimp only
        rw [unwrap_some, ok_bind, index_of_getElem? hget]
        rfl
      · rw [hp] at hindexes
        refine List.Perm.trans ?_ hindexes
        rw [Inner.indexes, hnil]
        simp

/-- The scratchpad is not the data of any transfer. -/
theorem outgoing_write (h : r.Inv n) {idx : ℕ} (hidx : r.scratchpadBufferIdx = some idx)
    {entry : TransferEntry}
    (hentry : r.pendingTransfer = some entry ∨ r.fragmentedTransfer = some entry)
    (bytes : List Byte) : (r.writeScratchpad bytes).outgoing entry = r.outgoing entry := by
  have hne : entry.bufferIdx ≠ idx := by
    have hnodup := h.nodup
    rw [Inner.indexes, hidx] at hnodup
    rintro rfl
    rcases hentry with hentry | hentry <;> simp [hentry, List.nodup_append] at hnodup
  rw [Inner.writeScratchpad, hidx, outgoing, outgoing, bufferAt, bufferAt,
    List.getD_eq_getElem?_getD, List.getD_eq_getElem?_getD, List.getElem?_set_ne hne.symm]

theorem writeScratchpad (h : r.Inv n) {bytes : List Byte} (hbytes : bytes.length = n) :
    (r.writeScratchpad bytes).Inv n ∧ (r.writeScratchpad bytes).outbox =
    r.outbox.written bytes := by
  cases hidx : r.scratchpadBufferIdx with
  | none =>
    have hsame : r.writeScratchpad bytes = r := by rw [Inner.writeScratchpad, hidx]
    rw [hsame]
    refine ⟨h, ?_⟩
    simp [outbox, Outbox.written, hidx]
  | some idx =>
    have hlt : idx < r.buffers.length := by
      rw [h.count]
      exact List.mem_range.mp (h.indexes.mem_iff.mp (by simp [Inner.indexes, hidx]))
    have hwrite : r.writeScratchpad bytes = { r with buffers := r.buffers.set idx bytes } := by
      rw [Inner.writeScratchpad, hidx]
    have houtbox : (r.writeScratchpad bytes).outbox = r.outbox.written bytes := by
      have hcurrent : r.fragmentedTransfer.map (r.writeScratchpad bytes).outgoing =
        r.outbox.current :=
        Option.map_congr fun entry hentry ↦ h.outgoing_write hidx (.inr hentry) bytes
      have hpending : r.pendingTransfer.map (r.writeScratchpad bytes).outgoing = r.outbox.pending :=
        Option.map_congr fun entry hentry ↦ h.outgoing_write hidx (.inl hentry) bytes
      rw [hwrite] at hcurrent hpending ⊢
      refine Outbox.ext rfl rfl hcurrent hpending ?_
      simp [outbox, Outbox.written, hidx, bufferAt, hlt]
    obtain ⟨hcount, hall, hindexes, hcurrent, hpending⟩ := h
    refine ⟨⟨?_, fun b hb ↦ ?_, ?_, ?_, ?_⟩, houtbox⟩
    · rw [hwrite]
      simpa using hcount
    · rw [hwrite] at hb
      rcases List.mem_or_eq_of_mem_set hb with hb | rfl
      · exact hall b hb
      · exact hbytes
    · rw [hwrite]
      exact hindexes
    · rw [houtbox]
      exact hcurrent
    · rw [houtbox]
      exact hpending

/-- A transfer is pushed. -/
theorem tryPush (h : r.Inv n) {transferMeta : TransferMeta} {length : ℕ} {buffer : List Byte}
    (haddress : transferMeta.address = none) (hpriority : transferMeta.priority = r.priority)
    (hscratchpad : r.outbox.scratchpad = some buffer) (hlength : length ≤ n) (crc : TransferCrc) :
    ∃ r',
      r.tryPush transferMeta length crc = .ok (.ok (), r') ∧ r'.Inv n ∧
      r'.outbox = r.outbox.pushed (.new transferMeta length crc buffer) := by
  obtain ⟨idx, hidx, rfl⟩ := Option.map_eq_some_iff.mp hscratchpad
  have hroles := h.roles
  obtain ⟨hcount, hall, hindexes, hcurrent, hpending⟩ := id h
  obtain ⟨hget, hlen⟩ := h.mem_indexes (show idx ∈ r.indexes by simp [Inner.indexes, hidx])
  have hnew : Outgoing.mk (.new transferMeta.transferId length crc) transferMeta.timestamp
      transferMeta.loopBack none (r.bufferAt idx) = .new transferMeta length crc
        (r.bufferAt idx) := by
    rw [Outgoing.new, haddress]
  have hready : (Outgoing.new transferMeta length crc (r.bufferAt idx)).Ready :=
    Outgoing.ready_new (by rw [hlen]; exact hlength)
  have hpush : r.pushReadiness.contains transferMeta.priority = true := by
    simp [Inner.pushReadiness, hpriority]
  rw [Inner.indexes, hidx] at hindexes
  rw [hidx] at hroles
  set entry : TransferEntry :=
    ⟨idx, .new transferMeta.transferId length crc, transferMeta.timestamp, transferMeta.loopBack⟩
    with hentry
  cases hp : r.pendingTransfer with
  | none =>
    refine ⟨{ r with scratchpadBufferIdx := none, pendingTransfer := some entry }, ?_,
      ⟨hcount, hall, ?_, hcurrent, ?_⟩, ?_⟩
    · rw [Inner.tryPush, haddress, hpush, hidx]
      dsimp only
      rw [index_of_getElem? hget, ok_bind, hp]
      rfl
    · rw [hp] at hindexes
      refine List.Perm.trans ?_ hindexes
      rw [Inner.indexes]
      exact perm_push _ _ _
    · intro o ho
      cases ho
      rw [← hnew] at hready
      exact hready
    · rw [Outbox.pushed, ← hnew]
      rfl
  | some prev =>
    have hroom : r.freeBufferIndexes.length + 1 ≤ r.indexes.length := by
      rw [hp] at hroles
      rw [h.length_indexes, BUFFER_COUNT]
      simp at hroles
      omega
    refine ⟨{ r with
      scratchpadBufferIdx := none
      pendingTransfer := some entry
      freeBufferIndexes := r.freeBufferIndexes ++ [prev.bufferIdx] }, ?_,
      ⟨hcount, hall, ?_, hcurrent, ?_⟩, ?_⟩
    · rw [Inner.tryPush, haddress, hpush, hidx]
      dsimp only
      rw [index_of_getElem? hget, ok_bind, hp]
      dsimp only
      rw [h.pushFree_eq]
      · rfl
      · exact hroom
    · rw [hp] at hindexes
      exact (perm_replace _ _ _ _).trans hindexes
    · intro o ho
      cases ho
      rw [← hnew] at hready
      exact hready
    · rw [Outbox.pushed, ← hnew]
      rfl

/-- Otherwise nothing happens. -/
theorem tryPush_error (transferMeta : TransferMeta)
    (hnot : transferMeta.address ≠ none ∨ transferMeta.priority ≠ r.priority ∨
    r.outbox.scratchpad = none)
    (length : ℕ) (crc : TransferCrc) : ∃ e, r.tryPush transferMeta length crc =
    .ok (.error e, r) := by
  rw [Inner.tryPush]
  by_cases haddress : transferMeta.address.isSome = true
  · exact ⟨_, by rw [if_pos haddress]; rfl⟩
  rw [if_neg haddress]
  by_cases hready : r.pushReadiness.contains transferMeta.priority = true
  · have hnone : r.scratchpadBufferIdx = none := by
      rcases hnot with hnot | hnot | hnot
      · exact absurd (Option.isSome_iff_ne_none.mpr hnot) haddress
      · rw [Inner.pushReadiness, PrioritySet.contains_newEq, decide_eq_true_eq] at hready
        exact absurd hready.symm hnot
      · exact Option.map_eq_none_iff.mp hnot
    exact ⟨_, by rw [hready, hnone]; rfl⟩
  · exact ⟨_, by rw [if_pos (by simpa using hready)]; rfl⟩

end Inv

end Inner

end Emcyphal.Signal
