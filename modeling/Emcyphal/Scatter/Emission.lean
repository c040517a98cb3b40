import Emcyphal.Lib.Machine
import Emcyphal.Scatter
import Emcyphal.Wire

/-!
# What a `Scatter` emits

Calling `fetchFrameData` until it returns `None`, with an MTU chosen anew for each call, terminates,
never panics and yields the frames of a transfer.  `Segmented` says which frames: each one is full
until what is left fits, and the last one is as short as possible.
-/

set_option autoImplicit false

namespace Emcyphal

open Rust

namespace Scatter

/-- A call of `fetchFrameData` as a step on the `Scatter`. -/
def fetch (buffer : List Byte) (s : Scatter) (mtu : Mtu) : Exec (Scatter × Option Data) := do
  let r ← s.fetchFrameData buffer mtu
  return (r.2, r.1)

/-- `frames` is what the calls with the MTUs `mtus 0`, `mtus 1`, … return until the first `None`. -/
def Emits (buffer : List Byte) (s : Scatter) (mtus : ℕ → Mtu) (frames : List Data) : Prop :=
  ∃ s', run (fetch buffer) s ((List.range (frames.length + 1)).map mtus) =
    .ok (s', frames.map some ++ [none])

/-- The calls as somebody sees them who also asks `is_exhausted` after each of them. -/
def observe (buffer : List Byte) (s : Scatter) (mtu : Mtu) :
    Exec (Scatter × (Option Data × Bool)) := do
  let r ← s.fetchFrameData buffer mtu
  return (r.2, (r.1, r.2.isExhausted))

/-- The end-of-transfer bit of a frame. -/
def isEot (data : Data) : Bool := data.bytes.getLast?.any fun byte ↦ TailByte.eot ⟨byte⟩

/-- The calls return `frames`, and the `Scatter` is exhausted after those that end a transfer. -/
def Observes (buffer : List Byte) (s : Scatter) (mtus : ℕ → Mtu) (frames : List Data) : Prop :=
  ∃ s', run (observe buffer) s ((List.range (frames.length + 1)).map mtus) =
    .ok (s', frames.map (fun frame ↦ (some frame, isEot frame)) ++ [(none, true)])

theorem Observes.emits {s : Scatter} {buffer : List Byte} {mtus : ℕ → Mtu} {frames : List Data}
    (h : Observes buffer s mtus frames) : Emits buffer s mtus frames := by
  obtain ⟨s', hrun⟩ := h
  refine ⟨s', ?_⟩
  rw [@run_map_out _ _ _ _ (fetch buffer) Prod.fst (observe buffer), hrun]
  · simp only [Except.map, Prod.map_apply, id_eq, List.map_append, List.map_map,
      List.map_singleton]
    rfl
  · intro s mtu
    rw [fetch, observe]
    cases s.fetchFrameData buffer mtu <;> rfl

theorem observes_nil {s : Scatter} (buffer : List Byte) (mtus : ℕ → Mtu)
    (h : s.offset = s.dataLength + CRC_LENGTH) : Observes buffer s mtus [] := by
  refine ⟨s, run_cons_eq_ok.mpr ⟨s, (none, true), [], ?_, rfl, rfl⟩⟩
  have hexhausted : s.isExhausted = true := beq_iff_eq.mpr h
  rw [observe, fetchFrameData_none buffer _ h, ok_bind, pure_eq_ok, hexhausted]

theorem observes_cons {s s' : Scatter} {buffer : List Byte} {mtus : ℕ → Mtu} {frame : Data}
    {frames : List Data} (h : s.fetchFrameData buffer (mtus 0) = .ok (some frame, s'))
    (heot : s'.isExhausted = isEot frame)
    (hrest : Observes buffer s' (fun n ↦ mtus (n + 1)) frames) :
    Observes buffer s mtus (frame :: frames) := by
  obtain ⟨t, ht⟩ := hrest
  refine ⟨t, ?_⟩
  rw [List.length_cons, List.range_succ_eq_map, List.map_cons, List.map_map]
  refine run_cons_eq_ok.mpr ⟨s', (some frame, isEot frame), _, ?_, ht, rfl⟩
  rw [observe, h, ok_bind, pure_eq_ok, heot]

/-- The first `None` is where both lists end. -/
theorem eq_of_map_some_append_none {α : Type} {xs ys : List α} {rest : List (Option α)}
    (h : ys.map some ++ [none] = xs.map some ++ none :: rest) : xs = ys := by
  induction xs generalizing ys with
  | nil =>
    cases ys with
    | nil => rfl
    | cons y ys => simp at h
  | cons x xs ih =>
    cases ys with
    | nil => simp at h
    | cons y ys =>
      simp only [List.map_cons, List.cons_append, List.cons.injEq, Option.some.injEq] at h
      rw [h.1, ih h.2]

/-- The frames are determined by the MTUs. -/
theorem Emits.unique {s : Scatter} {buffer : List Byte} {mtus : ℕ → Mtu}
    {frames frames' : List Data} (h : Emits buffer s mtus frames)
    (h' : Emits buffer s mtus frames') : frames = frames' := by
  wlog hle : frames.length ≤ frames'.length generalizing frames frames'
  · exact (this h' h (Nat.le_of_not_le hle)).symm
  obtain ⟨t, ht⟩ := h
  obtain ⟨t', ht'⟩ := h'
  have hrange : List.range (frames'.length + 1) = List.range (frames.length + 1) ++
      (List.range (frames'.length - frames.length)).map (frames.length + 1 + ·) := by
    rw [← List.range_add]
    congr 1
    omega
  rw [hrange, List.map_append, run_append_eq_ok] at ht'
  obtain ⟨t₁, os₁, os₂, h₁, -, heq⟩ := ht'
  cases ht.symm.trans h₁
  rw [List.append_assoc] at heq
  exact eq_of_map_some_append_none heq

theorem paddedStream_zero (s : Scatter) (buffer : List Byte) :
    s.paddedStream buffer 0 = s.stream buffer := by
  rw [paddedStream, List.replicate_zero, List.append_nil, TransferCrc.addBytes_nil, stream]

theorem length_paddedStream {s : Scatter} {buffer : List Byte} (hb : s.dataLength ≤ buffer.length)
    (pad : ℕ) : (s.paddedStream buffer pad).length = s.dataLength + pad + CRC_LENGTH := by
  simp only [paddedStream, List.length_append, List.length_take, List.length_replicate,
    TransferCrc.length_toBeBytes, Nat.min_eq_left hb, CRC_LENGTH]

/-- Padding that comes later does not change the bytes of a full frame. -/
theorem take_stream_append_drop {s : Scatter} {buffer : List Byte}
    (hb : s.dataLength ≤ buffer.length) {pad m : ℕ} (h : pad = 0 ∨ s.offset + m ≤ s.dataLength) :
    ((s.stream buffer).drop s.offset).take m ++ (s.paddedStream buffer pad).drop (s.offset + m) =
      (s.paddedStream buffer pad).drop s.offset := by
  have htake : ((s.stream buffer).drop s.offset).take m =
      ((s.paddedStream buffer pad).drop s.offset).take m := by
    rcases h with rfl | h
    · rw [paddedStream_zero]
    · have hlen : (buffer.take s.dataLength).length = s.dataLength := by
        rw [List.length_take, Nat.min_eq_left hb]
      have hlen' : m ≤ ((buffer.take s.dataLength).drop s.offset).length := by
        rw [List.length_drop, hlen]; omega
      rw [stream, paddedStream, List.append_assoc, List.drop_append_of_le_length (by omega),
        List.drop_append_of_le_length (by omega), List.take_append_of_le_length hlen',
        List.take_append_of_le_length hlen']
  rw [htake, ← List.drop_drop, List.take_append_drop]

/-! ## The segments of a transfer -/

/-- The frames for what is left of a transfer, `left` bytes without the padding.  Each of them is
full, until what is left fits; the last one is as short as possible. -/
inductive Segmented (tid : TransferId) :
    Bool → Bool → (ℕ → Mtu) → ℕ → List Data → List Byte → Prop
  | last {sot toggle : Bool} {mtus : ℕ → Mtu} {left : ℕ} {frame : Data} {payload : List Byte}
      (hfit : left + TAIL_LENGTH ≤ (mtus 0).toUsize)
      (hlen : frame.bytes.length = DataLength.ceil (left + TAIL_LENGTH))
      (hbytes : frame.bytes = frameData payload sot true toggle tid) :
      Segmented tid sot toggle mtus left [frame] payload
  | more {sot toggle : Bool} {mtus : ℕ → Mtu} {left : ℕ} {frame : Data} {frames : List Data}
      {payload rest : List Byte} (hfit : (mtus 0).toUsize < left + TAIL_LENGTH)
      (hlen : frame.bytes.length = (mtus 0).toUsize)
      (hbytes : frame.bytes = frameData payload sot false toggle tid)
      (hrest : Segmented tid false (!toggle) (fun n ↦ mtus (n + 1)) (left - payload.length) frames
        rest) : Segmented tid sot toggle mtus left (frame :: frames) (payload ++ rest)

theorem length_of_frameData {frame : Data} {payload : List Byte} {sot eot toggle : Bool}
    {tid : TransferId} (h : frame.bytes = frameData payload sot eot toggle tid) :
    frame.bytes.length = payload.length + TAIL_LENGTH := by
  rw [h, frameData, List.length_append]
  rfl

theorem isEot_of_frameData {frame : Data} {payload : List Byte} {sot eot toggle : Bool}
    {tid : TransferId} (h : frame.bytes = frameData payload sot eot toggle tid) :
    isEot frame = eot := by
  rw [isEot, h, frameData, List.getLast?_concat, Option.any_some, TailByte.eot_new]

/-- All but the first frame of a transfer are on the wire what they should be. -/
theorem Segmented.continues {tid : TransferId} {toggle : Bool} {mtus : ℕ → Mtu} {left : ℕ}
    {frames : List Data} {bytes : List Byte} (h : Segmented tid false toggle mtus left frames bytes)
    (hleft : 0 < left) : Continues tid toggle (frames.map Data.bytes) bytes := by
  generalize hsot : false = sot at h
  induction h with
  | @last sot toggle mtus left frame payload hfit hlen hbytes =>
    subst hsot
    have hle := DataLength.le_ceil (left + TAIL_LENGTH)
    rw [← hlen, length_of_frameData hbytes] at hle
    rw [List.map_singleton, hbytes]
    exact .last (List.ne_nil_of_length_pos (by omega))
  | @more sot toggle mtus left frame frames payload rest hfit hlen hbytes hrest ih =>
    subst hsot
    have hmtu := (mtus 0).toUsize_eq
    have htail : TAIL_LENGTH = 1 := rfl
    have hpayload := length_of_frameData hbytes
    rw [List.map_cons, hbytes]
    exact .more (by omega) (ih (by omega) rfl)

/-- The frames after the first one.  The induction is on what is left to send; padding, if there is
any, is in the last frame, and then no CRC byte was sent before it. -/
theorem observes_segmented {s : Scatter} {buffer : List Byte} (hb : s.dataLength ≤ buffer.length)
    (hoff : s.offset ≠ 0) (hs : s.offset < s.dataLength + CRC_LENGTH) (mtus : ℕ → Mtu) :
    ∃ frames pad, Observes buffer s mtus frames ∧ pad ≤ 15 ∧ (pad = 0 ∨ s.offset ≤ s.dataLength) ∧
      Segmented s.transferId false s.toggleBit mtus (s.dataLength + CRC_LENGTH - s.offset) frames
        ((s.paddedStream buffer pad).drop s.offset) := by
  induction hn : s.dataLength + CRC_LENGTH - s.offset using Nat.strong_induction_on
    generalizing s mtus with
  | _ n ih =>
    have htail : TAIL_LENGTH = 1 := rfl
    have hcrc : CRC_LENGTH = 2 := rfl
    have hmtu := (mtus 0).toUsize_eq
    rcases Nat.lt_or_ge ((mtus 0).toUsize - TAIL_LENGTH) (s.dataLength + CRC_LENGTH - s.offset)
      with hres | hres
    · -- a full frame, and then the rest by induction
      obtain ⟨frame, hfetch, hlen, hbytes⟩ :=
        fetchFrameData_full hb (fun h ↦ absurd h hoff) hs.le hres
      set s' : Scatter := { s with
        offset := s.offset + ((mtus 0).toUsize - TAIL_LENGTH), toggleBit := !s.toggleBit } with hs'
      have hoff' : s'.offset = s.offset + ((mtus 0).toUsize - TAIL_LENGTH) := rfl
      have hdata' : s'.dataLength = s.dataLength := rfl
      obtain ⟨frames, pad, hobserves, hpad, hpad', hsegmented⟩ :=
        ih (s'.dataLength + CRC_LENGTH - s'.offset) (by omega) (s := s') hb (by omega) (by omega)
          (fun n ↦ mtus (n + 1)) rfl
      have hlen' : (((s.stream buffer).drop s.offset).take
          ((mtus 0).toUsize - TAIL_LENGTH)).length = (mtus 0).toUsize - TAIL_LENGTH := by
        rw [List.length_take, List.length_drop, ← paddedStream_zero, length_paddedStream hb]
        omega
      have hexhausted : s'.isExhausted = isEot frame := by
        rw [isEot_of_frameData hbytes, isExhausted, hoff', hdata', beq_eq_false_iff_ne]
        omega
      refine ⟨frame :: frames, pad, observes_cons hfetch hexhausted hobserves, hpad, by omega, ?_⟩
      rw [← take_stream_append_drop hb (m := (mtus 0).toUsize - TAIL_LENGTH) (by omega)]
      rw [decide_eq_false hoff] at hbytes
      refine Segmented.more (by omega) hlen hbytes ?_
      have hleft : s.dataLength + CRC_LENGTH - s.offset - ((mtus 0).toUsize - TAIL_LENGTH) =
          s'.dataLength + CRC_LENGTH - s'.offset := by omega
      rw [hlen', ← hn, hleft]
      exact hsegmented
    · obtain ⟨frame, pad, hfetch, hpad, hpad', hlen, hbytes⟩ := fetchFrameData_last hb hoff hs hres
      have hexhausted := (isEot_of_frameData hbytes).symm
      refine ⟨[frame], pad, observes_cons hfetch ?_ (observes_nil _ _ rfl), hpad, hpad', ?_⟩
      · rw [← hexhausted, isExhausted]
        exact beq_self_eq_true _
      · exact Segmented.last (by omega) (by rw [hlen, hn]) hbytes

/-- **The frames of a whole transfer**, for a CRC that is that of the data or not. -/
theorem observes_new (tid : TransferId) {buffer : List Byte} {length : ℕ}
    (hlength : length ≤ buffer.length) (crc : TransferCrc) (mtus : ℕ → Mtu) :
    ∃ frames pad, Observes buffer (new tid length crc) mtus frames ∧ pad ≤ 15 ∧
      (length + TAIL_LENGTH ≤ (mtus 0).toUsize ∧ frames.length = 1 ∧
        Segmented tid true SOT_TOGGLE_BIT mtus length frames
          (buffer.take length ++ List.replicate pad PAD_VALUE) ∨
      (mtus 0).toUsize < length + TAIL_LENGTH ∧
        Segmented tid true SOT_TOGGLE_BIT mtus (length + CRC_LENGTH) frames
          ((new tid length crc).paddedStream buffer pad)) := by
  set s := new tid length crc with hs
  have htail : TAIL_LENGTH = 1 := rfl
  have hcrc : CRC_LENGTH = 2 := rfl
  have hmtu := (mtus 0).toUsize_eq
  have hdata : s.dataLength = length := rfl
  have hoff : s.offset = 0 := rfl
  rcases Nat.lt_or_ge ((mtus 0).toUsize - TAIL_LENGTH) length with hfit | hfit
  · obtain ⟨frame, hfetch, hlen, hbytes⟩ := fetchFrameData_full (s := s) hlength
      (fun _ ↦ hfit) (Nat.zero_le _) (Nat.lt_of_lt_of_le hfit (Nat.le_add_right _ _))
    set s' : Scatter := { s with
      offset := s.offset + ((mtus 0).toUsize - TAIL_LENGTH), toggleBit := !s.toggleBit } with hs'
    have hoff' : s'.offset = (mtus 0).toUsize - TAIL_LENGTH := Nat.zero_add _
    have hdata' : s'.dataLength = length := rfl
    obtain ⟨frames, pad, hobserves, hpad, hpad', hsegmented⟩ :=
      observes_segmented (s := s') hlength (by omega) (by omega) fun n ↦ mtus (n + 1)
    have hlen' : ((s.stream buffer).take ((mtus 0).toUsize - TAIL_LENGTH)).length =
        (mtus 0).toUsize - TAIL_LENGTH := by
      rw [List.length_take, ← paddedStream_zero, length_paddedStream hlength]
      omega
    have hexhausted : s'.isExhausted = isEot frame := by
      rw [isEot_of_frameData hbytes, isExhausted, hoff', hdata', beq_eq_false_iff_ne]
      omega
    have hcat := take_stream_append_drop (s := s) hlength
      (show pad = 0 ∨ s.offset + ((mtus 0).toUsize - TAIL_LENGTH) ≤ s.dataLength by omega)
    rw [hoff, Nat.zero_add, List.drop_zero, List.drop_zero] at hcat
    rw [hoff, List.drop_zero] at hbytes
    refine ⟨frame :: frames, pad, observes_cons hfetch hexhausted hobserves, hpad,
      .inr ⟨by omega, ?_⟩⟩
    rw [← hcat]
    refine Segmented.more (by omega) hlen hbytes ?_
    rw [hlen', show length + CRC_LENGTH - ((mtus 0).toUsize - TAIL_LENGTH) =
      s'.dataLength + CRC_LENGTH - s'.offset by omega, ← hoff']
    exact hsegmented
  · obtain ⟨frame, pad, hfetch, hpad, hlen, hbytes⟩ :=
      fetchFrameData_single (s := s) hlength rfl hfit
    refine ⟨[frame], pad, observes_cons hfetch ?_ (observes_nil _ _ rfl), hpad,
      .inl ⟨by omega, rfl, Segmented.last (by omega) hlen hbytes⟩⟩
    rw [isEot_of_frameData hbytes, isExhausted]
    exact beq_self_eq_true _

/-- **A `Scatter` emits a transfer.**  Whatever the MTUs, the calls end after finitely many frames,
which encode the data followed by at most 15 bytes of padding. -/
theorem emits_encodes (tid : TransferId) (d : List Byte) (mtus : ℕ → Mtu) :
    ∃ frames pad,
      Emits d (Scatter.new tid d.length (TransferCrc.default.addBytes d)) mtus frames ∧ pad ≤ 15 ∧
        Encodes tid (frames.map Data.bytes) (d ++ List.replicate pad PAD_VALUE) := by
  obtain ⟨frames, pad, hobserves, hpad, h⟩ :=
    observes_new tid (le_refl d.length) (TransferCrc.default.addBytes d) mtus
  refine ⟨frames, pad, hobserves.emits, hpad, ?_⟩
  have htail : TAIL_LENGTH = 1 := rfl
  have hcrc : CRC_LENGTH = 2 := rfl
  have hmtu := (mtus 0).toUsize_eq
  rcases h with ⟨-, hone, hsegmented⟩ | ⟨hlong, hsegmented⟩
  · rw [List.take_length] at hsegmented
    generalize d ++ List.replicate pad PAD_VALUE = bytes at hsegmented ⊢
    cases hsegmented with
    | last hfit hlen hbytes =>
      rw [List.map_singleton, hbytes]
      exact .single
    | more hfit hlen hbytes hrest => cases hrest <;> simp at hone
  · have hcat : (new tid d.length (TransferCrc.default.addBytes d)).paddedStream d pad =
        d ++ List.replicate pad PAD_VALUE ++
          ((TransferCrc.default.addBytes d).addBytes (List.replicate pad PAD_VALUE)).toBeBytes := by
      rw [paddedStream]
      exact congrArg (· ++ _ ++ _) List.take_length
    generalize (new tid d.length (TransferCrc.default.addBytes d)).paddedStream d pad = bytes at *
    cases hsegmented with
    | last hfit => omega
    | @more _ _ _ _ frame frames payload rest hfit hlen hbytes hrest =>
      have hpayload := length_of_frameData hbytes
      rw [List.map_cons, hbytes]
      refine Encodes.multi (by omega) (hrest.continues (by omega)) hcat
        (TransferCrc.length_toBeBytes _) ?_
      rw [← TransferCrc.addBytes_append, TransferCrc.addBytes_append]
      exact TransferCrc.addBytes_toBeBytes _

end Scatter

end Emcyphal
