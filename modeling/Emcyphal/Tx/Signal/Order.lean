import Emcyphal.Tx.Ledger
import Emcyphal.Tx.Signal.Outbox

/-!
# Runs of a non-blocking buffer

The writer takes the scratchpad, writes to it and pushes, and the driver fetches frames, in any
order.  A `Record` keeps what the two see: the transfers that were pushed, with the contents the
scratchpad had by then, and the frames that were fetched.  `never_tears` says that the frames are
those of some of the transfers, one after the other and each complete, except that the last one may
still be on its way.
-/

set_option autoImplicit false

namespace Emcyphal.Signal

open Rust

inductive Op
  | getScratchpad
  /-- The writer fills the slice it was given. -/
  | writeScratchpad (bytes : List Byte)
  | tryPush (transferMeta : TransferMeta) (length : ℕ) (crc : TransferCrc)
  | tryPop (priorityMask : PrioritySet) (mtu : Mtu)

/-- What an operation returns. -/
inductive Event
  | scratchpad (scratchpad : Option (PrioritySet × List Byte))
  | written
  | pushed (result : Except BufferError Unit)
  | popped (frame : Option Frame)
deriving DecidableEq

namespace Inner

def step (r : Inner) : Op → Exec (Inner × Event)
  | .getScratchpad => do
    let (scratchpad, r) ← r.getScratchpad
    return (r, .scratchpad scratchpad)
  | .writeScratchpad bytes => .ok (r.writeScratchpad bytes, .written)
  | .tryPush transferMeta length crc => do
    let (result, r) ← r.tryPush transferMeta length crc
    return (r, .pushed result)
  | .tryPop priorityMask mtu => do
    let (frame, r) ← r.tryPop priorityMask mtu
    return (r, .popped frame)

/-- The writer has a slice of `n` bytes when it writes, and pushes no more bytes than it has. -/
def Valid (n : ℕ) (r : Inner) : Op → Prop
  | .writeScratchpad bytes => r.scratchpadBufferIdx.isSome = true ∧ bytes.length = n
  | .tryPush _ length _ => length ≤ n
  | .getScratchpad | .tryPop _ _ => True

instance (n : ℕ) (r : Inner) : (op : Op) → Decidable (r.Valid n op)
  | .writeScratchpad _ => inferInstanceAs (Decidable (_ ∧ _))
  | .tryPush _ _ _ => inferInstanceAs (Decidable (_ ≤ _))
  | .getScratchpad | .tryPop _ _ => isTrue trivial

end Inner

/-- What the writer and the driver have seen. -/
structure Record where
  /-- The contents of the scratchpad. -/
  scratchpad : List Byte
  /-- The transfers that were pushed, with the data they had by then. -/
  pushed : List Outgoing
  frames : List Frame
  /-- A transfer was pushed, and the scratchpad was not taken since. -/
  settled : Bool

namespace Record

def empty : Record := ⟨[], [], [], false⟩

def add (m : Record) : Op × Event → Record
  | (.getScratchpad, .scratchpad (some (_, bytes))) =>
    { m with scratchpad := bytes, settled := false }
  | (.writeScratchpad bytes, .written) => { m with scratchpad := bytes }
  | (.tryPush transferMeta length crc, .pushed (.ok ())) =>
    { m with pushed := m.pushed ++ [.new transferMeta length crc m.scratchpad], settled := true }
  | (.tryPop _ _, .popped (some frame)) => { m with frames := m.frames ++ [frame] }
  | _ => m

def of (history : List (Op × Event)) : Record := history.foldl add empty

/-- The frames are those of some of the transfers, in the order they were pushed, each of which is
complete except for the last one. -/
def InOrder (m : Record) (priority : Priority) (dataSpec : DataSpecifier) : Prop :=
  ∃ sent, Emitted m.pushed priority dataSpec sent ∧ m.frames = sent.flatMap Prod.snd

/-- And the last one is the transfer that was pushed last, which is complete. -/
def Ends (m : Record) (priority : Priority) (dataSpec : DataSpecifier) : Prop :=
  ∃ sent o frames, Emitted m.pushed priority dataSpec sent ∧ m.frames = sent.flatMap Prod.snd ∧
    m.pushed.getLast? = some o ∧ o.Complete priority dataSpec frames ∧
    sent.getLast? = some (m.pushed.length - 1, frames)

end Record

/-- The record is true of the buffer. -/
structure Tracks (subject : SubjectId) (priority : Priority) (n : ℕ) (m : Record) (r : Inner) :
    Prop where
  inv : r.Inv n
  subject_eq : r.subject = subject
  priority_eq : r.priority = priority
  scratchpad : ∀ bytes ∈ r.outbox.scratchpad, bytes = m.scratchpad
  accounts : ∃ l, Accounts m.pushed priority (.message subject) l r.outbox.current
    r.outbox.pending ∧
    l.parts = m.frames ∧ (m.settled = true → l.indexes.getLast?.map (· + 1) = some m.pushed.length)

namespace Tracks

variable {subject : SubjectId} {priority : Priority} {n : ℕ} {m : Record} {r : Inner}

/-- The header of the buffer is that of its outbox. -/
theorem header {r' : Inner} {b : Outbox} (h : Tracks subject priority n m r) (hb : r'.outbox = b)
    (hsubject : b.subject = r.outbox.subject) (hpriority : b.priority = r.outbox.priority) :
    r'.subject = subject ∧ r'.priority = priority :=
  ⟨(congrArg Outbox.subject hb).trans (hsubject.trans h.subject_eq),
    (congrArg Outbox.priority hb).trans (hpriority.trans h.priority_eq)⟩

theorem getScratchpad (h : Tracks subject priority n m r) : ∃ bytes r',
    r.step .getScratchpad = .ok (r', .scratchpad (some (.newEq priority, bytes))) ∧
      Tracks subject priority n { m with scratchpad := bytes, settled := false } r' := by
  obtain ⟨bytes, r', hget, -, hinv, houtbox, hscratchpad⟩ := h.inv.getScratchpad
  have hheader := h.header houtbox (Outbox.subject_taken _ _) (Outbox.priority_taken _ _)
  refine ⟨bytes, r', ?_, hinv, hheader.1, hheader.2, ?_, ?_⟩
  · rw [Inner.step, hget, ok_bind, h.priority_eq]
    rfl
  · intro bytes' hbytes'
    rw [hscratchpad] at hbytes'
    exact (Option.some.inj hbytes').symm
  · obtain ⟨l, hl, hparts, -⟩ := h.accounts
    rw [houtbox, Outbox.taken]
    split
    · exact ⟨l, hl, hparts, by simp⟩
    · dsimp only
      split
      · exact ⟨l.forget, hl.forget, hparts, by simp⟩
      · exact ⟨l, hl, hparts, by simp⟩

theorem writeScratchpad (h : Tracks subject priority n m r) {bytes : List Byte}
    (hbytes : bytes.length = n) :
    Tracks subject priority n { m with scratchpad := bytes } (r.writeScratchpad bytes) := by
  obtain ⟨hinv, houtbox⟩ := h.inv.writeScratchpad hbytes
  have hheader := h.header houtbox rfl rfl
  refine ⟨hinv, hheader.1, hheader.2, ?_, ?_⟩
  · intro bytes' hbytes'
    rw [houtbox, Outbox.written] at hbytes'
    obtain ⟨-, -, rfl⟩ := Option.map_eq_some_iff.mp hbytes'
    rfl
  · rw [houtbox]
    exact h.accounts

theorem tryPush (h : Tracks subject priority n m r) {transferMeta : TransferMeta} {length : ℕ}
    (hlength : length ≤ n) (crc : TransferCrc) :
    (∃ e, r.step (.tryPush transferMeta length crc) = .ok (r, .pushed (.error e))) ∨
    ∃ r', r.step (.tryPush transferMeta length crc) = .ok (r', .pushed (.ok ())) ∧
      Tracks subject priority n { m with
        pushed := m.pushed ++ [.new transferMeta length crc m.scratchpad], settled := true }
        r' := by
  by_cases hok : transferMeta.address = none ∧ transferMeta.priority = r.priority ∧
      r.outbox.scratchpad ≠ none
  · obtain ⟨bytes, hbytes⟩ := Option.ne_none_iff_exists'.mp hok.2.2
    obtain ⟨r', hpush, hinv, houtbox⟩ := h.inv.tryPush hok.1 hok.2.1 hbytes hlength crc
    have hheader := h.header houtbox rfl rfl
    obtain rfl := h.scratchpad bytes hbytes
    refine .inr ⟨r', ?_, hinv, hheader.1, hheader.2, ?_, ?_⟩
    · rw [Inner.step, hpush]
      rfl
    · rw [houtbox]
      nofun
    · obtain ⟨l, hl, hparts, -⟩ := h.accounts
      refine ⟨l.push m.pushed.length, ?_, hparts, fun _ ↦ ?_⟩
      · rw [houtbox]
        exact hl.push _
      · rw [Ledger.indexes_push, List.getLast?_concat]
        simp
  · obtain ⟨e, herror⟩ := Inner.Inv.tryPush_error (r := r) transferMeta (by tauto) length crc
    exact .inl ⟨e, by rw [Inner.step, herror]; rfl⟩

/-- A fetch of a frame, if there is one. -/
theorem tryPop (h : Tracks subject priority n m r) {mask : PrioritySet}
    (hmask : mask.contains priority = true) {o : Outgoing} (hnext : r.outbox.next = some o)
    (mtu : Mtu) :
    ∃ frame r' data rest, r.step (.tryPop mask mtu) = .ok (r', .popped (some frame)) ∧
      o.Sends mtu data rest ∧ r'.outbox = r.outbox.sent rest ∧
      Tracks subject priority n { m with frames := m.frames ++ [frame] } r' := by
  have hready : o.Ready := by
    rcases Option.or_eq_some_iff.mp hnext with hcurrent | ⟨-, hpending⟩
    · exact h.inv.current o hcurrent
    · exact h.inv.pending o hpending
  obtain ⟨data, rest, hsends⟩ := hready.sends mtu
  rw [← h.priority_eq] at hmask
  obtain ⟨r', hpop, hinv, houtbox⟩ := h.inv.tryPop hmask hnext hsends
  have hheader := h.header houtbox rfl rfl
  refine ⟨o.frame priority (.message subject) data, r', data, rest, ?_, hsends, houtbox, hinv,
    hheader.1, hheader.2, ?_, ?_⟩
  · rw [Inner.step, hpop, h.priority_eq, h.subject_eq]
    rfl
  · rw [houtbox]
    exact h.scratchpad
  · obtain ⟨l, hl, hparts, hsettled⟩ := h.accounts
    obtain ⟨hl', hparts'⟩ := hl.send hnext hsends
    refine ⟨_, ?_, hparts'.trans (congrArg (· ++ _) hparts), fun hm ↦ ?_⟩
    · rw [houtbox]
      exact hl'
    · rw [Ledger.indexes_send, Ledger.indexes_start]
      exact hsettled hm

theorem tryPop_none (h : Tracks subject priority n m r) (mask : PrioritySet)
    (hnone : mask.contains priority = false ∨ r.outbox.next = none) (mtu : Mtu) :
    r.step (.tryPop mask mtu) = .ok (r, .popped none) := by
  rw [← h.priority_eq] at hnone
  rw [Inner.step, h.inv.tryPop_none hnone]
  rfl

/-- Every operation keeps the record true. -/
theorem step (h : Tracks subject priority n m r) {op : Op} (hop : r.Valid n op) :
    ∃ r' event, r.step op = .ok (r', event) ∧ Tracks subject priority n (m.add (op, event)) r' := by
  cases op with
  | getScratchpad =>
    obtain ⟨bytes, r', hstep, h'⟩ := h.getScratchpad
    exact ⟨r', _, hstep, h'⟩
  | writeScratchpad bytes => exact ⟨_, _, rfl, h.writeScratchpad hop.2⟩
  | tryPush transferMeta length crc =>
    rcases h.tryPush hop crc with ⟨e, hstep⟩ | ⟨r', hstep, h'⟩
    · exact ⟨r, _, hstep, h⟩
    · exact ⟨r', _, hstep, h'⟩
  | tryPop mask mtu =>
    by_cases hnone : mask.contains priority = false ∨ r.outbox.next = none
    · exact ⟨r, _, h.tryPop_none mask hnone mtu, h⟩
    · push Not at hnone
      obtain ⟨o, ho⟩ := Option.ne_none_iff_exists'.mp hnone.2
      obtain ⟨frame, r', -, -, hstep, -, -, h'⟩ := h.tryPop (by simpa using hnone.1) ho mtu
      exact ⟨r', _, hstep, h'⟩

/-- Popping at the priority of the buffer ends, and leaves nothing to send.  The induction is on the
bytes that are left. -/
theorem drain (h : Tracks subject priority n m r) (mtus : ℕ → Mtu) : ∃ frames t,
    run Inner.step r
        ((List.range (frames.length + 1)).map fun i ↦ .tryPop (.newEq priority) (mtus i)) =
      .ok (t, (frames.map fun frame ↦ .popped (some frame)) ++ [.popped none]) ∧
    t.outbox.next = none ∧ Tracks subject priority n { m with frames := m.frames ++ frames } t := by
  induction hk : r.outbox.remaining using Nat.strong_induction_on generalizing m r mtus with
  | _ k ih =>
    cases hnext : r.outbox.next with
    | none =>
      have hstep := h.tryPop_none (.newEq priority) (.inr hnext) (mtus 0)
      refine ⟨[], r, run_cons_eq_ok.mpr ⟨r, _, [], hstep, rfl, rfl⟩, hnext, ?_⟩
      rw [List.append_nil]
      exact h
    | some o =>
      obtain ⟨frame, r', data, rest, hstep, hsends, houtbox, h'⟩ :=
        h.tryPop (show (PrioritySet.newEq priority).contains priority = true by simp) hnext (mtus 0)
      have hlt : r'.outbox.remaining < k := by
        rw [houtbox, ← hk]
        exact Outbox.remaining_sent hnext hsends
      obtain ⟨frames, t, hrun, hdone, ht⟩ := ih _ hlt h' (fun i ↦ mtus (i + 1)) rfl
      refine ⟨frame :: frames, t, ?_, hdone, ?_⟩
      · rw [List.length_cons, List.range_succ_eq_map, List.map_cons, List.map_map]
        exact run_cons_eq_ok.mpr ⟨r', _, _, hstep, hrun, rfl⟩
      · rw [List.append_cons]
        exact ht

end Tracks

/-- The record of a new buffer. -/
theorem tracks_new {subject : SubjectId} {priority : Priority} {buffers : List (List Byte)} {n : ℕ}
    (hlength : ∀ b ∈ buffers, b.length = n) {r : Inner}
    (hnew : Inner.new subject priority buffers = .ok r) :
    Tracks subject priority n .empty r := by
  have hcount : buffers.length = BUFFER_COUNT := by
    by_contra hnot
    rw [Inner.new, assert, if_neg hnot] at hnew
    cases hnew
  obtain ⟨r', hnew', hinv, houtbox⟩ := Inner.inv_new subject priority hcount hlength
  cases hnew.symm.trans hnew'
  refine ⟨hinv, congrArg Outbox.subject houtbox, congrArg Outbox.priority houtbox, ?_, .empty,
    ?_, rfl, fun h ↦ by cases h⟩
  · rw [houtbox]
    simp
  · rw [houtbox]
    exact Accounts.empty ..

/-- **Transfers are neither torn nor reordered.**  Whatever the writer and the driver do, no call
panics, each data buffer has one role, and the frames are those of some of the transfers in the
order they were pushed, each of which is complete except for the last one.  If the scratchpad is not
taken after the last push, what is left to fetch is finite, and ends with the last frame of the
transfer that was pushed last. -/
theorem never_tears {subject : SubjectId} {priority : Priority} {buffers : List (List Byte)} {n : ℕ}
    (hlength : ∀ b ∈ buffers, b.length = n) {r : Inner}
    (hnew : Inner.new subject priority buffers = .ok r) {ops : List Op}
    (hops : Admissible Inner.step (Inner.Valid n) r ops) :
    ∃ t events m, run Inner.step r ops = .ok (t, events) ∧ m = Record.of (ops.zip events) ∧
      t.indexes.Perm [0, 1] ∧ m.InOrder priority (.message subject) ∧
      (m.settled = true → ∀ mtus : ℕ → Mtu, ∃ frames t',
        run Inner.step t
            ((List.range (frames.length + 1)).map fun i ↦ .tryPop (.newEq priority) (mtus i)) =
          .ok (t', (frames.map fun frame ↦ .popped (some frame)) ++ [.popped none]) ∧
        { m with frames := m.frames ++ frames }.Ends priority (.message subject)) := by
  obtain ⟨t, events, hrun, ht⟩ := run_of_records Record.add
    (fun m r op (h : Tracks subject priority n m r) hop ↦ h.step hop) (tracks_new hlength hnew) hops
  refine ⟨t, events, _, hrun, rfl, ht.inv.indexes, ?_, fun hsettled mtus ↦ ?_⟩
  · obtain ⟨l, hl, hparts, -⟩ := ht.accounts
    exact ⟨l.sent, hl.emitted, hparts.symm⟩
  · obtain ⟨frames, t', hdrain, hdone, ht'⟩ := ht.drain mtus
    obtain ⟨l, hl, hparts, hlast⟩ := ht'.accounts
    refine ⟨frames, t', hdrain, l.sent, ?_⟩
    obtain ⟨hcurrent, hpending⟩ := Option.or_eq_none_iff.mp hdone
    rw [hcurrent, hpending] at hl
    obtain ⟨o, last, ho, hcomplete, hsent⟩ := hl.emitted_last (hlast hsettled)
    exact ⟨o, last, hl.emitted, hparts.symm, ho, hcomplete, hsent⟩

/-- The first transfer is sent in part when the second is pushed, which the third replaces. -/
def replacing : List Op :=
  [.getScratchpad, .writeScratchpad (List.replicate 9 1), .tryPush ⟨.nominal, none, 0, 100,
    false⟩ 9 .default, .tryPop .ALL .classic, .getScratchpad, .writeScratchpad (List.replicate 9 2),
    .tryPush ⟨.nominal, none, 1, 100, false⟩ 9 .default, .getScratchpad,
    .writeScratchpad (List.replicate 9 3), .tryPush ⟨.nominal, none, 2, 100, false⟩ 1 .default]

theorem never_tears_replacing : ∃ r,
    Inner.new 100 .nominal (List.replicate 2 (List.replicate 9 0)) = .ok r ∧
    ∃ t events m, run Inner.step r replacing = .ok (t, events) ∧
      m = Record.of (replacing.zip events) ∧
      t.indexes.Perm [0, 1] ∧ m.InOrder .nominal (.message 100) ∧
      (m.settled = true → ∀ mtus : ℕ → Mtu, ∃ frames t',
        run Inner.step t
            ((List.range (frames.length + 1)).map fun i ↦ .tryPop (.newEq .nominal) (mtus i)) =
          .ok (t', (frames.map fun frame ↦ .popped (some frame)) ++ [.popped none]) ∧
        { m with frames := m.frames ++ frames }.Ends .nominal (.message 100)) :=
  ⟨_, rfl, @never_tears 100 .nominal (List.replicate 2 (List.replicate 9 0)) 9 (by decide)
    _ rfl replacing
    (by decide)⟩

end Emcyphal.Signal
