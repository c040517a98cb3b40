import Emcyphal.Tx.Outgoing
import Mathlib.Data.List.Range

/-!
# The response buffer

`emcyphal/src/buffer/tx_resp/blocking.rs`.  The buffer keeps a transfer for each priority, and
shares eight data buffers among them and the scratchpad.  `writeScratchpad` is what the caller of
`get_scratchpad` does.
-/

set_option autoImplicit false

namespace Emcyphal.Response

open Rust

def BUFFER_COUNT : ℕ := 1 + Priority.MAX.intoU8

structure TransferEntry where
  address : NodeId
  scatter : Scatter
  deadline : Instant
  loopBack : Bool
  bufferIdx : ℕ
deriving DecidableEq

structure ResponseBufferInner where
  service : ServiceId
  buffers : List (List Byte)
  scratchpadBufferIdx : Option ℕ
  freeBufferIdx : List ℕ
  transfers : PriorityMap TransferEntry
  nonFullTrigger : PriorityTrigger
  emptyTrigger : Option Waker

namespace ResponseBufferInner

def new (service : ServiceId) (buffers : List (List Byte)) : Exec ResponseBufferInner := do
  assert (buffers.length = BUFFER_COUNT)
  return {
    service := service
    buffers := buffers
    scratchpadBufferIdx := none
    freeBufferIdx := List.range BUFFER_COUNT
    transfers := .new TransferEntry
    nonFullTrigger := .new
    emptyTrigger := none }

def popReadiness (r : ResponseBufferInner) : PrioritySet := r.transfers.keys

def isEmpty (r : ResponseBufferInner) : Bool := r.transfers.isEmpty

/-- After a frame was fetched, the transfer is kept with what is left of it, or its buffer is
freed. -/
def advance (r : ResponseBufferInner) (priority : Priority) (entry : TransferEntry)
    (scatter : Scatter) :
    Exec ResponseBufferInner :=
  if scatter.isExhausted then
    if r.freeBufferIdx.length < BUFFER_COUNT then
      .ok { r with
        freeBufferIdx := r.freeBufferIdx ++ [entry.bufferIdx]
        transfers := (r.transfers.remove priority).2
        nonFullTrigger := r.nonFullTrigger.wake (.newEq priority) }
    else .error .unwrap
  else .ok { r with transfers := r.transfers.assign priority { entry with scatter := scatter } }

def tryPop (r : ResponseBufferInner) (priorityMask : PrioritySet) (mtu : Mtu) :
    Exec (Option Frame × ResponseBufferInner) := do
  match (r.transfers.keys &&& priorityMask).first with
  | none => return (none, r)
  | some priority =>
    let entry ← unwrap (r.transfers.values priority)
    let buffer ← index r.buffers entry.bufferIdx
    let (data, scatter) ← entry.scatter.fetchFrameData buffer mtu
    let data ← unwrap data
    let frame : Frame := {
      header := ⟨priority, .response r.service, none, some entry.address⟩
      data := data
      timestamp := entry.deadline
      loopBack := entry.loopBack }
    let r ← r.advance priority entry scatter
    let r := if r.transfers.isEmpty then { r with emptyTrigger := none } else r
    return (some frame, r)

def pollIsEmpty (r : ResponseBufferInner) (waker : Waker) : Bool × ResponseBufferInner :=
  if r.isEmpty then (true, r) else (false, { r with emptyTrigger := some waker })

def pushReadiness (r : ResponseBufferInner) : PrioritySet := ~~~r.transfers.keys

def pollPushReadiness (r : ResponseBufferInner) (waker : Waker) (priorityMask : PrioritySet) :
    Option PrioritySet × ResponseBufferInner :=
  let priorities := r.pushReadiness &&& priorityMask
  if !priorities.isEmpty then (some priorities, r)
  else (none, { r with nonFullTrigger := r.nonFullTrigger.register waker priorityMask })

/-- Next to the priorities, the contents of the buffer that can be written to. -/
def getScratchpad (r : ResponseBufferInner) :
    Exec (Option (PrioritySet × List Byte) × ResponseBufferInner) := do
  let priorities := r.pushReadiness
  if priorities.isEmpty then return (none, r)
  let r ← match r.scratchpadBufferIdx with
    | some _ => pure r
    | none => do
      let (idx, freeBufferIdx) ← unwrap (splitLast r.freeBufferIdx)
      pure { r with scratchpadBufferIdx := some idx, freeBufferIdx := freeBufferIdx }
  let idx ← unwrap r.scratchpadBufferIdx
  let buffer ← index r.buffers idx
  return (some (priorities, buffer), r)

/-- The caller writes to the scratchpad it was given. -/
def writeScratchpad (r : ResponseBufferInner) (bytes : List Byte) : ResponseBufferInner :=
  match r.scratchpadBufferIdx with
  | some idx => { r with buffers := r.buffers.set idx bytes }
  | none => r

def tryPush (r : ResponseBufferInner) (transferMeta : TransferMeta) (length : ℕ)
    (crc : TransferCrc) :
    Exec (Except BufferError Unit × ResponseBufferInner) := do
  match transferMeta.address with
  | none => return (.error .serviceAddressNotSpecified, r)
  | some address =>
    if !r.pushReadiness.contains transferMeta.priority then return (.error .priorityNotReady, r)
    match r.scratchpadBufferIdx with
    | none => return (.error .scratchpadNotInitialized, r)
    | some bufferIdx =>
      let _buffer ← index r.buffers bufferIdx
      let entry : TransferEntry := {
        address := address
        scatter := .new transferMeta.transferId length crc
        deadline := transferMeta.timestamp
        loopBack := transferMeta.loopBack
        bufferIdx := bufferIdx }
      let (prev, transfers) := r.transfers.insert transferMeta.priority entry
      let r := { r with scratchpadBufferIdx := none, transfers := transfers }
      assert (prev.isNone = true)
      return (.ok (), r)

/-! ## What it stands for -/

/-- The contents of a data buffer. -/
def bufferAt (r : ResponseBufferInner) (idx : ℕ) : List Byte := r.buffers.getD idx []

/-- What an entry stands for. -/
def outgoing (r : ResponseBufferInner) (entry : TransferEntry) : Outgoing :=
  ⟨entry.scatter, entry.deadline, entry.loopBack, some entry.address, r.bufferAt entry.bufferIdx⟩

/-- The transfer that is being sent at each priority. -/
def current (r : ResponseBufferInner) (priority : Priority) : Option Outgoing :=
  (r.transfers.values priority).map r.outgoing

/-- The contents of the scratchpad. -/
def scratchpad (r : ResponseBufferInner) : Option (List Byte) :=
  r.scratchpadBufferIdx.map r.bufferAt

/-- The indexes in all roles. -/
def indexes (r : ResponseBufferInner) : List ℕ :=
  r.transfers.entries.map TransferEntry.bufferIdx ++
    (r.scratchpadBufferIdx.toList ++ r.freeBufferIdx)

/-- What holds of a buffer for data of length `n` in every state. -/
structure Inv (r : ResponseBufferInner) (n : ℕ) : Prop where
  count : r.buffers.length = BUFFER_COUNT
  length : ∀ b ∈ r.buffers, b.length = n
  consistent : r.transfers.Consistent
  /-- Each data buffer has exactly one role. -/
  indexes : r.indexes.Perm (List.range BUFFER_COUNT)
  current : ∀ p, ∀ o ∈ r.current p, o.Ready

variable {r : ResponseBufferInner} {n : ℕ}

theorem inv_new {service : ServiceId} {buffers : List (List Byte)}
    (hcount : buffers.length = BUFFER_COUNT) (hlength : ∀ b ∈ buffers, b.length = n) :
    ∃ r, new service buffers = .ok r ∧ r.Inv n ∧ r.service = service ∧ r.current = (fun _ ↦ none) ∧
      r.scratchpad = none := by
  have hnew : new service buffers = .ok ⟨service, buffers, none, List.range BUFFER_COUNT, .new _,
    .new, none⟩ := by
    rw [new, assert_pos hcount]
    rfl
  refine ⟨_, hnew, ⟨hcount, hlength, PriorityMap.consistent_new, ?_, ?_⟩, rfl, rfl, rfl⟩
  · have hentries : (PriorityMap.new TransferEntry).entries = [] := rfl
    rw [indexes, hentries]
    exact .rfl
  · intro p o ho
    simp [current, PriorityMap.new] at ho

namespace Inv

theorem popReadiness (h : r.Inv n) (p : Priority) :
    r.popReadiness.contains p = (r.current p).isSome := by
  rw [ResponseBufferInner.popReadiness, ResponseBufferInner.current, Option.isSome_map]
  exact h.consistent p

theorem pushReadiness (h : r.Inv n) (p : Priority) :
    r.pushReadiness.contains p = (r.current p).isNone := by
  have hpop := h.popReadiness p
  rw [ResponseBufferInner.popReadiness] at hpop
  rw [ResponseBufferInner.pushReadiness, PrioritySet.contains_not, hpop, Option.not_isSome]

theorem mem_indexes (h : r.Inv n) {idx : ℕ} (hidx : idx ∈ r.indexes) :
    r.buffers[idx]? = some (r.bufferAt idx) ∧ (r.bufferAt idx).length = n := by
  have hlt : idx < r.buffers.length := by
    rw [h.count]
    exact List.mem_range.mp (h.indexes.mem_iff.mp hidx)
  have hget := List.getElem?_eq_getElem hlt
  have hat : r.bufferAt idx = r.buffers[idx] := by simp [bufferAt, hlt]
  exact ⟨by rw [hat, hget], by rw [hat]; exact h.length _ (List.getElem_mem hlt)⟩

theorem length_indexes (h : r.Inv n) : r.indexes.length = BUFFER_COUNT := by
  rw [h.indexes.length_eq, List.length_range]

theorem mem_entry {p : Priority} {entry : TransferEntry}
    (hentry : r.transfers.values p = some entry) :
    entry.bufferIdx ∈ r.indexes := by
  refine List.mem_append_left _ (List.mem_map_of_mem ?_)
  exact List.mem_filterMap.mpr ⟨p, Priority.mem_all p, hentry⟩

/-- The roles of the data buffers, with the one of a priority apart. -/
theorem indexes_update {r' : ResponseBufferInner} {p : Priority} {entry : Option TransferEntry}
    (hvalues : r'.transfers.values = Function.update r.transfers.values p entry) :
    r'.indexes.Perm ((entry.map TransferEntry.bufferIdx).toList ++
      (((Priority.all.erase p).filterMap r.transfers.values).map TransferEntry.bufferIdx ++
        (r'.scratchpadBufferIdx.toList ++ r'.freeBufferIdx))) := by
  have hmap := (PriorityMap.entries_update r.transfers.values p entry).map TransferEntry.bufferIdx
  rw [List.map_append] at hmap
  rw [ResponseBufferInner.indexes, PriorityMap.entries, hvalues]
  refine (hmap.append_right _).trans (List.Perm.of_eq ?_)
  cases entry <;> simp

theorem indexes_split (r : ResponseBufferInner) (p : Priority) :
    r.indexes.Perm (((r.transfers.values p).map TransferEntry.bufferIdx).toList ++
      (((Priority.all.erase p).filterMap r.transfers.values).map TransferEntry.bufferIdx ++
        (r.scratchpadBufferIdx.toList ++ r.freeBufferIdx))) :=
  indexes_update (Function.update_eq_self p _).symm

/-- The transfers other than the one of a priority keep what they stand for. -/
theorem current_update {r' : ResponseBufferInner} {p : Priority} {entry : Option TransferEntry}
    (hvalues : r'.transfers.values = Function.update r.transfers.values p entry)
    (hbuffers : r'.buffers = r.buffers) :
    r'.current = Function.update r.current p (entry.map r.outgoing) := by
  have houtgoing : r'.outgoing = r.outgoing := by
    funext e
    rw [outgoing, outgoing, bufferAt, bufferAt, hbuffers]
  funext q
  rw [ResponseBufferInner.current, hvalues, houtgoing]
  by_cases hq : q = p
  · subst hq
    rw [Function.update_self, Function.update_self]
  · rw [Function.update_of_ne hq, Function.update_of_ne hq]
    rfl

theorem ready_update (h : r.Inv n) (p : Priority) {rest : Option Outgoing}
    (hrest : ∀ o ∈ rest, o.Ready) :
    ∀ q, ∀ o ∈ Function.update r.current p rest q, o.Ready := by
  intro q
  by_cases hq : q = p
  · subst hq
    rwa [Function.update_self]
  · rw [Function.update_of_ne hq]
    exact h.current q

/-- A frame is fetched from the transfer of a priority. -/
theorem advance (h : r.Inv n) {p : Priority} {entry : TransferEntry}
    (hentry : r.transfers.values p = some entry) {mtu : Mtu} {data : Data} {rest : Option Outgoing}
    (hs : (r.outgoing entry).Sends mtu data rest) :
    ∃ s r', entry.scatter.fetchFrameData (r.bufferAt entry.bufferIdx) mtu = .ok (some data, s) ∧
      r.advance p entry s = .ok r' ∧ r'.Inv n ∧ r'.current = Function.update r.current p rest ∧
      r'.service = r.service ∧ r'.scratchpad = r.scratchpad := by
  have hcontains : r.transfers.set.contains p = true := by rw [h.consistent p, hentry]; rfl
  have hsplit := indexes_split r p
  rw [hentry] at hsplit
  have hready := h.ready_update p hs.ready
  cases hs with
  | more hfetched hleft =>
    rename_i s
    set r' : ResponseBufferInner :=
      { r with transfers := r.transfers.assign p { entry with scatter := s } } with hr'
    have hvalues : r'.transfers.values =
        Function.update r.transfers.values p (some { entry with scatter := s }) := rfl
    have hcurrent := current_update hvalues rfl
    refine ⟨s, r', hfetched.eq, by rw [ResponseBufferInner.advance, hleft]; rfl, ⟨h.count, h.length,
      h.consistent.assign hcontains _, ?_, ?_⟩, hcurrent, rfl, rfl⟩
    · exact (indexes_update hvalues).trans (hsplit.symm.trans h.indexes)
    · rw [hcurrent]
      exact hready
  | last hfetched hdone =>
    rename_i s
    have hroom : r.freeBufferIdx.length < BUFFER_COUNT := by
      have hlen := hsplit.length_eq
      rw [h.length_indexes] at hlen
      simp only [List.length_append, Option.map_some, Option.toList_some,
        List.length_singleton] at hlen
      omega
    set r' : ResponseBufferInner := { r with
      freeBufferIdx := r.freeBufferIdx ++ [entry.bufferIdx]
      transfers := (r.transfers.remove p).2
      nonFullTrigger := r.nonFullTrigger.wake (.newEq p) } with hr'
    have hvalues : r'.transfers.values = Function.update r.transfers.values p none := rfl
    have hcurrent : r'.current = Function.update r.current p none := current_update hvalues rfl
    refine ⟨s, r', hfetched.eq, by rw [ResponseBufferInner.advance, if_pos hdone, if_pos hroom],
      ⟨h.count, h.length, h.consistent.remove p, ?_, ?_⟩, hcurrent, rfl, rfl⟩
    · refine (indexes_update hvalues).trans (List.Perm.trans ?_ (hsplit.symm.trans h.indexes))
      refine List.perm_iff_count.mpr fun a ↦ ?_
      simp only [List.count_append, hr', Option.map_none, Option.map_some, Option.toList_none,
        Option.toList_some, List.count_nil]
      omega
    · rw [hcurrent]
      exact hready

/-- **A fetch returns the next frame of the most urgent transfer in the mask.** -/
theorem tryPop (h : r.Inv n) {mask : PrioritySet} {p : Priority}
    (hfirst : (r.popReadiness &&& mask).first = some p) {o : Outgoing}
    (hcurrent : r.current p = some o) {mtu : Mtu} {data : Data} {rest : Option Outgoing}
    (hs : o.Sends mtu data rest) : ∃ r',
      r.tryPop mask mtu = .ok (some (o.frame p (.response r.service) data), r') ∧ r'.Inv n ∧
      r'.current = Function.update r.current p rest ∧ r'.service = r.service ∧
      r'.scratchpad = r.scratchpad := by
  obtain ⟨entry, hentry, rfl⟩ := Option.map_eq_some_iff.mp hcurrent
  obtain ⟨s, r', hfetch, hr', hinv, hcurrent', hservice, hscratchpad⟩ := h.advance hentry hs
  refine ⟨if r'.transfers.isEmpty then { r' with emptyTrigger := none } else r', ?_, ?_⟩
  · rw [ResponseBufferInner.tryPop, show r.transfers.keys = r.popReadiness from rfl, hfirst]
    dsimp only
    rw [hentry, unwrap_some, ok_bind, index_of_getElem? (h.mem_indexes (mem_entry hentry)).1,
      ok_bind, hfetch, ok_bind]
    dsimp only
    rw [unwrap_some, ok_bind, hr', ok_bind]
    rfl
  · split
    · exact ⟨⟨hinv.count, hinv.length, hinv.consistent, hinv.indexes, hinv.current⟩,
        hcurrent', hservice, hscratchpad⟩
    · exact ⟨hinv, hcurrent', hservice, hscratchpad⟩

/-- Otherwise there is nothing to fetch, and nothing happens. -/
theorem tryPop_none {mask : PrioritySet} (hnone : (r.popReadiness &&& mask).first = none)
    (mtu : Mtu) :
    r.tryPop mask mtu = .ok (none, r) := by
  rw [ResponseBufferInner.tryPop, show r.transfers.keys = r.popReadiness from rfl, hnone]
  rfl

/-- Without a transfer of one priority, there is a buffer for the scratchpad. -/
theorem exists_free (h : r.Inv n) {p : Priority} (hp : r.current p = none)
    (hscratchpad : r.scratchpadBufferIdx = none) :
    ∃ idx rest, splitLast r.freeBufferIdx = some (idx, rest) ∧ r.freeBufferIdx = rest ++ [idx] := by
  cases hfree : splitLast r.freeBufferIdx with
  | some c => exact ⟨c.1, c.2, rfl, eq_concat_of_splitLast hfree⟩
  | none =>
    have hnil : r.freeBufferIdx = [] := by
      rwa [splitLast, Option.map_eq_none_iff, List.getLast?_eq_none_iff] at hfree
    have hvalue : r.transfers.values p = none := Option.map_eq_none_iff.mp hp
    have hlen := (indexes_split r p).length_eq
    rw [h.length_indexes, hvalue, hnil, hscratchpad] at hlen
    have hothers := List.length_filterMap_le r.transfers.values (Priority.all.erase p)
    rw [List.length_erase_of_mem (Priority.mem_all p)] at hothers
    simp [BUFFER_COUNT, Priority.MAX, Priority.intoU8, Priority.all] at hlen hothers
    omega

/-- The scratchpad is provided as long as there is a priority to push to. -/
theorem getScratchpad (h : r.Inv n) {p : Priority} (hp : r.current p = none) : ∃ buffer r',
    r.getScratchpad = .ok (some (r.pushReadiness, buffer), r') ∧ buffer.length = n ∧ r'.Inv n ∧
      r'.current = r.current ∧ r'.service = r.service ∧ r'.scratchpad = some buffer := by
  have hready : r.pushReadiness.isEmpty = false := by
    rw [← Bool.not_eq_true, PrioritySet.isEmpty_iff]
    intro hempty
    have hnot := hempty p
    rw [h.pushReadiness, hp] at hnot
    cases hnot
  cases hscratchpad : r.scratchpadBufferIdx with
  | some idx =>
    have hidx : idx ∈ r.indexes := by simp [ResponseBufferInner.indexes, hscratchpad]
    obtain ⟨hget, hlen⟩ := h.mem_indexes hidx
    refine ⟨r.bufferAt idx, r, ?_, hlen, h, rfl, rfl, ?_⟩
    · rw [ResponseBufferInner.getScratchpad, hready, hscratchpad]
      dsimp only [pure_eq_ok, ok_bind]
      rw [hscratchpad, unwrap_some, ok_bind, index_of_getElem? hget]
      rfl
    · rw [scratchpad, hscratchpad]
      rfl
  | none =>
    obtain ⟨idx, rest, hsplit, hconcat⟩ := h.exists_free hp hscratchpad
    have hidx : idx ∈ r.indexes := by simp [ResponseBufferInner.indexes, hconcat]
    obtain ⟨hget, hlen⟩ := h.mem_indexes hidx
    refine ⟨r.bufferAt idx, { r with scratchpadBufferIdx := some idx, freeBufferIdx := rest }, ?_,
      hlen, ⟨h.count, h.length, h.consistent, ?_, h.current⟩, rfl, rfl, rfl⟩
    · rw [ResponseBufferInner.getScratchpad, hready, hscratchpad]
      dsimp only
      rw [hsplit, unwrap_some]
      dsimp only [pure_eq_ok, ok_bind]
      rw [if_neg Bool.false_ne_true, unwrap_some, ok_bind, index_of_getElem? hget]
      rfl
    · refine List.Perm.trans ?_ h.indexes
      rw [ResponseBufferInner.indexes, ResponseBufferInner.indexes, hconcat, hscratchpad]
      exact List.Perm.append_left _ (List.perm_append_singleton idx rest).symm

/-- Otherwise nothing happens. -/
theorem getScratchpad_none (h : r.Inv n) (hfull : ∀ p, r.current p ≠ none) :
    r.getScratchpad = .ok (none, r) := by
  have hready : r.pushReadiness.isEmpty = true := by
    rw [PrioritySet.isEmpty_iff]
    intro p
    rw [h.pushReadiness, ← Option.not_isSome, Option.isSome_iff_ne_none.mpr (hfull p)]
    rfl
  rw [ResponseBufferInner.getScratchpad, hready]
  rfl

theorem writeScratchpad (h : r.Inv n) {bytes : List Byte} (hbytes : bytes.length = n) :
    (r.writeScratchpad bytes).Inv n ∧ (r.writeScratchpad bytes).current = r.current ∧
      (r.writeScratchpad bytes).service = r.service ∧
      (r.writeScratchpad bytes).scratchpad = r.scratchpad.map fun _ ↦ bytes := by
  cases hscratchpad : r.scratchpadBufferIdx with
  | none =>
    have hsame : r.writeScratchpad bytes = r := by rw [ResponseBufferInner.writeScratchpad,
      hscratchpad]
    rw [hsame]
    exact ⟨h, rfl, rfl, by simp [scratchpad, hscratchpad]⟩
  | some idx =>
    have hlt : idx < r.buffers.length := by
      rw [h.count]
      exact List.mem_range.mp (h.indexes.mem_iff.mp (by simp [ResponseBufferInner.indexes,
        hscratchpad]))
    have hwrite : r.writeScratchpad bytes = { r with buffers := r.buffers.set idx bytes } := by
      rw [ResponseBufferInner.writeScratchpad, hscratchpad]
    have hcurrent : (r.writeScratchpad bytes).current = r.current := by
      funext p
      rw [hwrite]
      refine Option.map_congr fun entry hentry ↦ ?_
      -- The scratchpad is not the data of a transfer.
      have hne : idx ≠ entry.bufferIdx := by
        have hnodup := h.indexes.nodup_iff.mpr List.nodup_range
        rw [(indexes_split r p).nodup_iff, hentry, hscratchpad] at hnodup
        rintro rfl
        simp at hnodup
      rw [outgoing, outgoing, bufferAt, bufferAt, List.getD_eq_getElem?_getD,
        List.getD_eq_getElem?_getD, List.getElem?_set_ne hne]
    have hready : ∀ p, ∀ o ∈ (r.writeScratchpad bytes).current p, o.Ready := by
      rw [hcurrent]
      exact h.current
    refine ⟨?_, hcurrent, ?_, ?_⟩
    · rw [hwrite] at hready ⊢
      refine ⟨by simpa using h.count, fun b hb ↦ ?_, h.consistent, h.indexes, hready⟩
      rcases List.mem_or_eq_of_mem_set hb with hb | rfl
      · exact h.length b hb
      · exact hbytes
    · rw [hwrite]
    · rw [hwrite]
      simp [scratchpad, hscratchpad, bufferAt, hlt]

/-- A transfer is pushed. -/
theorem tryPush (h : r.Inv n) {transferMeta : TransferMeta} {length : ℕ} {buffer : List Byte}
    (haddress : transferMeta.address ≠ none) (hpriority : r.current transferMeta.priority = none)
    (hscratchpad : r.scratchpad = some buffer) (hlength : length ≤ n) (crc : TransferCrc) : ∃ r',
      r.tryPush transferMeta length crc = .ok (.ok (), r') ∧ r'.Inv n ∧
      r'.current = Function.update r.current transferMeta.priority
        (some (.new transferMeta length crc buffer)) ∧
      r'.service = r.service ∧ r'.scratchpad = none := by
  obtain ⟨address, haddress⟩ := Option.ne_none_iff_exists'.mp haddress
  obtain ⟨idx, hidx, rfl⟩ := Option.map_eq_some_iff.mp hscratchpad
  have hvalue : r.transfers.values transferMeta.priority = none :=
    Option.map_eq_none_iff.mp hpriority
  obtain ⟨hget, hlen⟩ := h.mem_indexes (show idx ∈ r.indexes by simp [ResponseBufferInner.indexes,
    hidx])
  have hready : (Outgoing.new transferMeta length crc (r.bufferAt idx)).Ready :=
    Outgoing.ready_new (by rw [hlen]; exact hlength)
  have hpush : r.pushReadiness.contains transferMeta.priority = true := by
    rw [h.pushReadiness, hpriority]
    rfl
  set entry : TransferEntry := ⟨address, .new transferMeta.transferId length crc,
    transferMeta.timestamp, transferMeta.loopBack, idx⟩ with hentry
  have hnew : r.outgoing entry = .new transferMeta length crc (r.bufferAt idx) := by
    rw [outgoing, Outgoing.new, haddress]
  set r' : ResponseBufferInner := { r with
    scratchpadBufferIdx := none
    transfers := (r.transfers.insert transferMeta.priority entry).2 } with hr'
  have hvalues : r'.transfers.values =
      Function.update r.transfers.values transferMeta.priority (some entry) := rfl
  have hcurrent : r'.current = Function.update r.current transferMeta.priority
      (some (.new transferMeta length crc (r.bufferAt idx))) := by
    rw [current_update hvalues rfl, Option.map_some, hnew]
  refine ⟨r', ?_, ⟨h.count, h.length, h.consistent.insert _ _, ?_, ?_⟩, hcurrent, rfl, rfl⟩
  · rw [ResponseBufferInner.tryPush, haddress]
    dsimp only
    rw [hpush, hidx]
    dsimp only
    rw [index_of_getElem? hget, ok_bind, PriorityMap.insert, hvalue]
    rfl
  · refine (indexes_update hvalues).trans (List.Perm.trans ?_ h.indexes)
    refine List.Perm.trans ?_ (indexes_split r transferMeta.priority).symm
    rw [hvalue, hidx]
    refine List.perm_iff_count.mpr fun a ↦ ?_
    simp only [List.count_append, hr', hentry, Option.map_none, Option.map_some, Option.toList_none,
      Option.toList_some, List.count_nil]
    omega
  · rw [hcurrent]
    refine h.ready_update _ fun o ho ↦ ?_
    cases ho
    exact hready

/-- Otherwise nothing happens. -/
theorem tryPush_error (h : r.Inv n) (transferMeta : TransferMeta)
    (hnot : transferMeta.address = none ∨ r.current transferMeta.priority ≠ none ∨
    r.scratchpad = none)
    (length : ℕ) (crc : TransferCrc) : ∃ e, r.tryPush transferMeta length crc =
    .ok (.error e, r) := by
  rw [ResponseBufferInner.tryPush]
  cases haddress : transferMeta.address with
  | none => exact ⟨_, rfl⟩
  | some address =>
    dsimp only
    by_cases hready : r.pushReadiness.contains transferMeta.priority = true
    · rw [h.pushReadiness, Option.isNone_iff_eq_none] at hready
      have hnone : r.scratchpadBufferIdx = none := by
        rcases hnot with hnot | hnot | hnot
        · rw [haddress] at hnot
          cases hnot
        · exact absurd hready hnot
        · exact Option.map_eq_none_iff.mp hnot
      refine ⟨.scratchpadNotInitialized, ?_⟩
      rw [if_neg (by simp [h.pushReadiness, hready]), hnone]
      rfl
    · exact ⟨_, by rw [if_pos (by simpa using hready)]; rfl⟩

end Inv

end ResponseBufferInner

end Emcyphal.Response
