import Emcyphal.Format
import Emcyphal.Frame

/-!
# Segmentation of a transfer

`emcyphal/src/buffer/scatter.rs`.  A `Scatter` walks over a payload and its CRC: `offset` counts
the bytes sent so far, with the two CRC bytes at the end.  A transfer that fits a single frame
carries no CRC.  Otherwise each frame takes as much as its MTU allows, and the last one is padded
to a CAN-FD length, which has to happen before the first CRC byte goes out.

`fetchFullSegment_eq`, `fetchPaddedSegment_eq` and `fetchSingleSegment_eq` say what each of the
three ways to fill a frame writes; `fetchFrameData` is only ever used through the lemmas about it at
the end.
-/

set_option autoImplicit false

namespace Emcyphal

open Rust

structure Scatter where
  transferId : TransferId
  toggleBit : Bool
  dataLength : ℕ
  offset : ℕ
  crc : TransferCrc
deriving DecidableEq

namespace Scatter

def CRC_LENGTH : ℕ := TransferCrc.LENGTH

def TAIL_LENGTH : ℕ := 1

def new (transferId : TransferId) (dataLength : ℕ) (crc : TransferCrc) : Scatter where
  transferId := transferId
  toggleBit := SOT_TOGGLE_BIT
  dataLength := dataLength
  offset := 0
  crc := crc

def isExhausted (s : Scatter) : Bool := s.offset == s.dataLength + CRC_LENGTH

/-- Fills `payload`, the part of a frame in front of its tail byte, with the whole buffer. -/
def fetchSingleSegment (s : Scatter) (buffer payload : List Byte) :
    Exec (List Byte × Scatter) := do
  let payloadData ← sliceTo payload s.dataLength
  let payloadPad ← sliceFrom payload s.dataLength
  let payloadData ← copyFromSlice payloadData (← sliceTo buffer s.dataLength)
  -- a single frame transfer does not need a CRC, mark it as sent
  return (payloadData ++ payloadPad.map fun _ ↦ PAD_VALUE,
    { s with offset := s.dataLength + CRC_LENGTH })

/-- Fits the most of the residual data and of the CRC. -/
def fetchFullSegment (s : Scatter) (buffer payload : List Byte) :
    Exec (List Byte × Scatter) := do
  let residualLength ← sub (s.dataLength + CRC_LENGTH) s.offset
  assert (residualLength ≥ payload.length)
  let residualData ← slice buffer (min s.offset s.dataLength) s.dataLength
  let split := min residualData.length payload.length
  let payloadData ← copyFromSlice (payload.take split) (← sliceTo residualData split)
  let crcOffset := max s.offset s.dataLength - s.dataLength
  let residualCrc ← sliceFrom s.crc.toBeBytes crcOffset
  let payloadCrc := payload.drop split
  let payloadCrc ← copyFromSlice payloadCrc (← sliceTo residualCrc payloadCrc.length)
  return (payloadData ++ payloadCrc, { s with offset := s.offset + payload.length })

def fetchPaddedSegment (s : Scatter) (buffer payload : List Byte) :
    Exec (List Byte × Scatter) := do
  -- padding can not be inserted once the CRC has started
  assert (s.offset ≤ s.dataLength)
  let residualData ← slice buffer s.offset s.dataLength
  let (payloadDataPad, _) ← unwrap (splitLastChunk CRC_LENGTH payload)
  let payloadData ← sliceTo payloadDataPad residualData.length
  let payloadPad := (← sliceFrom payloadDataPad residualData.length).map fun _ ↦ PAD_VALUE
  let payloadData ← copyFromSlice payloadData residualData
  let payloadCrc := (s.crc.addBytes payloadPad).toBeBytes
  return (payloadData ++ payloadPad ++ payloadCrc,
    { s with offset := s.offset + (payloadData.length + payloadCrc.length) })

def fetchFrameData (s : Scatter) (buffer : List Byte) (mtu : Mtu) :
    Exec (Option Data × Scatter) := do
  let maxPayloadLength := mtu.toUsize - TAIL_LENGTH
  -- single frame transfer
  if s.offset = 0 ∧ s.dataLength ≤ maxPayloadLength then
    let frameLength ← unwrap (DataLength.newCeil (s.dataLength + TAIL_LENGTH))
    let frameData := Data.newZeros frameLength
    let (_, payload) ← unwrap (splitLast frameData.bytes)
    let (payload, s) ← s.fetchSingleSegment buffer payload
    let frameData ← frameData.write
      (payload ++ [(TailByte.new true true SOT_TOGGLE_BIT s.transferId).val])
    return (some frameData, s)
  let residualLength ← sub (s.dataLength + CRC_LENGTH) s.offset
  if residualLength = 0 then
    return (none, s)
  let frameLength ← unwrap
    (DataLength.newCeil (min residualLength maxPayloadLength + TAIL_LENGTH))
  let frameData := Data.newZeros frameLength
  let (_, payload) ← unwrap (splitLast frameData.bytes)
  let sot := decide (s.offset = 0)
  let (payload, s) ←
    if residualLength ≥ payload.length then s.fetchFullSegment buffer payload
    else do
      assert (s.offset ≤ s.dataLength)
      s.fetchPaddedSegment buffer payload
  let tail := TailByte.new sot (decide (s.offset = s.dataLength + CRC_LENGTH)) s.toggleBit
    s.transferId
  let frameData ← frameData.write (payload ++ [tail.val])
  return (some frameData, { s with toggleBit := !s.toggleBit })

/-! ## What the three ways to fill a frame write -/

/-- The bytes a transfer that is never padded sends: its payload, then the CRC. -/
def stream (s : Scatter) (buffer : List Byte) : List Byte :=
  buffer.take s.dataLength ++ s.crc.toBeBytes

theorem fetchSingleSegment_eq {s : Scatter} {buffer payload : List Byte}
    (hb : s.dataLength ≤ buffer.length) (hp : s.dataLength ≤ payload.length) :
    s.fetchSingleSegment buffer payload = .ok
      (buffer.take s.dataLength ++ List.replicate (payload.length - s.dataLength) PAD_VALUE,
        { s with offset := s.dataLength + CRC_LENGTH }) := by
  have hlen : (payload.take s.dataLength).length = (buffer.take s.dataLength).length := by
    simp only [List.length_take]
    omega
  simp only [fetchSingleSegment, sliceTo_of_le hp, sliceFrom_of_le hp, sliceTo_of_le hb, ok_bind,
    copyFromSlice_of_length hlen, pure_eq_ok, List.map_const', List.length_drop]

theorem fetchFullSegment_eq {s : Scatter} {buffer payload : List Byte}
    (hb : s.dataLength ≤ buffer.length) (hs : s.offset ≤ s.dataLength + CRC_LENGTH)
    (hp : payload.length ≤ s.dataLength + CRC_LENGTH - s.offset) :
    s.fetchFullSegment buffer payload = .ok
      (((s.stream buffer).drop s.offset).take payload.length,
        { s with offset := s.offset + payload.length }) := by
  have hcrc : CRC_LENGTH = 2 := rfl
  have hbytes : s.crc.toBeBytes.length = 2 := rfl
  have hdata : ((buffer.take s.dataLength).drop (min s.offset s.dataLength)).length =
      s.dataLength - s.offset := by
    simp only [List.length_drop, List.length_take]
    omega
  have hdrop : (buffer.take s.dataLength).drop (min s.offset s.dataLength) =
      (buffer.take s.dataLength).drop s.offset := by
    rcases Nat.le_total s.offset s.dataLength with h | h
    · rw [Nat.min_eq_left h]
    · rw [Nat.min_eq_right h, List.drop_eq_nil_of_le (by simp), List.drop_eq_nil_of_le]
      simp only [List.length_take]
      omega
  have hoff : max s.offset s.dataLength - s.dataLength = s.offset - s.dataLength := by omega
  have hstream : ((s.stream buffer).drop s.offset).take payload.length =
      ((buffer.take s.dataLength).drop s.offset).take (min (s.dataLength - s.offset) payload.length)
        ++ (s.crc.toBeBytes.drop (s.offset - s.dataLength)).take
          (payload.length - min (s.dataLength - s.offset) payload.length) := by
    have hlen : ((buffer.take s.dataLength).drop s.offset).length = s.dataLength - s.offset := by
      rw [← hdrop, hdata]
    rw [stream, List.drop_append, List.take_append, List.length_take, Nat.min_eq_left hb, hlen]
    congr 1
    · rw [List.take_eq_take_iff, hlen]
      omega
    · congr 1
      omega
  rw [fetchFullSegment, sub_of_le hs, ok_bind, assert_pos hp, ok_bind,
    slice_of_le (Nat.min_le_right _ _) hb, ok_bind]
  simp only [hdata, hoff]
  rw [sliceTo_of_le (by rw [hdata]; omega), ok_bind, copyFromSlice_of_length, ok_bind,
    sliceFrom_of_le (by rw [hbytes]; omega), ok_bind, sliceTo_of_le, ok_bind,
    copyFromSlice_of_length, ok_bind, hdrop, hstream, List.length_drop, pure_eq_ok]
  all_goals simp only [List.length_drop, List.length_take, hdata, hbytes]
  all_goals omega

theorem fetchPaddedSegment_eq {s : Scatter} {buffer payload : List Byte}
    (hb : s.dataLength ≤ buffer.length) (hs : s.offset ≤ s.dataLength)
    (hp : s.dataLength + CRC_LENGTH - s.offset ≤ payload.length) :
    s.fetchPaddedSegment buffer payload = .ok
      ((buffer.take s.dataLength).drop s.offset ++
          List.replicate (payload.length - (s.dataLength + CRC_LENGTH - s.offset)) PAD_VALUE ++
          (s.crc.addBytes (List.replicate
            (payload.length - (s.dataLength + CRC_LENGTH - s.offset)) PAD_VALUE)).toBeBytes,
        { s with offset := s.dataLength + CRC_LENGTH }) := by
  have hcrc : CRC_LENGTH = 2 := rfl
  have hdata : ((buffer.take s.dataLength).drop s.offset).length = s.dataLength - s.offset := by
    simp only [List.length_drop, List.length_take]
    omega
  have hsplit : splitLastChunk CRC_LENGTH payload = some
      (payload.take (payload.length - CRC_LENGTH), payload.drop (payload.length - CRC_LENGTH)) :=
    if_pos (by omega)
  have hroom : s.dataLength - s.offset ≤ (payload.take (payload.length - CRC_LENGTH)).length := by
    simp only [List.length_take]
    omega
  have hpad : ((payload.take (payload.length - CRC_LENGTH)).drop (s.dataLength - s.offset)).length =
      payload.length - (s.dataLength + CRC_LENGTH - s.offset) := by
    simp only [List.length_drop, List.length_take]
    omega
  rw [fetchPaddedSegment, assert_pos hs, ok_bind, slice_of_le hs hb, ok_bind, hsplit, unwrap_some,
    ok_bind]
  simp only [hdata, List.map_const', sliceTo_of_le hroom, sliceFrom_of_le hroom, ok_bind, hpad]
  rw [copyFromSlice_of_length, ok_bind, pure_eq_ok, hdata, TransferCrc.length_toBeBytes,
    show s.offset + (s.dataLength - s.offset + TransferCrc.LENGTH) = s.dataLength + CRC_LENGTH by
      rw [show TransferCrc.LENGTH = 2 from rfl]; omega]
  rw [hdata, List.length_take, Nat.min_eq_left hroom]

/-! ## One frame -/

/-- The whole transfer fits the first frame. -/
theorem fetchFrameData_single {s : Scatter} {buffer : List Byte} {mtu : Mtu}
    (hb : s.dataLength ≤ buffer.length) (hoff : s.offset = 0)
    (hfit : s.dataLength ≤ mtu.toUsize - TAIL_LENGTH) :
    ∃ frame pad, s.fetchFrameData buffer mtu =
        .ok (some frame, { s with offset := s.dataLength + CRC_LENGTH }) ∧ pad ≤ 15 ∧
      frame.bytes.length = DataLength.ceil (s.dataLength + TAIL_LENGTH) ∧
      frame.bytes = buffer.take s.dataLength ++ List.replicate
        pad PAD_VALUE ++
        [(TailByte.new true true SOT_TOGGLE_BIT s.transferId).val] := by
  have htail : TAIL_LENGTH = 1 := rfl
  have hmtu := mtu.toUsize_eq
  have hmax : s.dataLength + TAIL_LENGTH ≤ DataLength.MAX := by
    rw [DataLength.MAX]; omega
  have hle := DataLength.le_ceil (s.dataLength + TAIL_LENGTH)
  have hpad := DataLength.ceil_le (s.dataLength + TAIL_LENGTH)
  set n := DataLength.ceil (s.dataLength + TAIL_LENGTH) with hn
  have hroom : s.dataLength ≤ (List.replicate (n - 1) (0 : Byte)).length := by
    rw [List.length_replicate]; omega
  refine ⟨⟨buffer.take s.dataLength ++ List.replicate (n - 1 - s.dataLength) PAD_VALUE ++
    [(TailByte.new true true SOT_TOGGLE_BIT s.transferId).val], ?_⟩, n - 1 - s.dataLength, ?_,
    by omega, ?_, rfl⟩
  · have hlen := DataLength.ceil_valid hmax
    rw [← hn] at hlen
    have hlen' : n = s.dataLength + (n - 1 - s.dataLength) + 1 := by omega
    rw [hlen'] at hlen
    simpa only [List.length_append, List.length_take, Nat.min_eq_left hb, List.length_replicate,
      List.length_singleton] using hlen
  · rw [fetchFrameData, if_pos ⟨hoff, hfit⟩, DataLength.newCeil_of_le hmax, unwrap_some, ok_bind]
    simp only [← hn]
    rw [Data.splitLast_newZeros (by simp only; omega), unwrap_some, ok_bind]
    simp only
    rw [fetchSingleSegment_eq hb hroom, ok_bind]
    simp only [List.length_replicate]
    rw [Data.write_newZeros, ok_bind, pure_eq_ok]
    simp only [List.length_append, List.length_take, Nat.min_eq_left hb, List.length_replicate]
    omega
  · simp only [List.length_append, List.length_take, Nat.min_eq_left hb, List.length_replicate,
      List.length_singleton]
    omega

/-- Everything has been sent. -/
theorem fetchFrameData_none {s : Scatter} (buffer : List Byte) (mtu : Mtu)
    (hoff : s.offset = s.dataLength + CRC_LENGTH) :
    s.fetchFrameData buffer mtu = .ok (none, s) := by
  have hcrc : CRC_LENGTH = 2 := rfl
  rw [fetchFrameData, if_neg (by omega), sub_of_le (by omega), ok_bind, if_pos (by omega),
    pure_eq_ok]

/-- More is left than fits a frame: the frame is filled to its MTU. -/
theorem fetchFrameData_full {s : Scatter} {buffer : List Byte} {mtu : Mtu}
    (hb : s.dataLength ≤ buffer.length)
    (hmulti : s.offset = 0 → mtu.toUsize - TAIL_LENGTH < s.dataLength)
    (hs : s.offset ≤ s.dataLength + CRC_LENGTH)
    (hres : mtu.toUsize - TAIL_LENGTH < s.dataLength + CRC_LENGTH - s.offset) :
    ∃ frame, s.fetchFrameData buffer mtu = .ok (some frame,
        { s with offset := s.offset + (mtu.toUsize - TAIL_LENGTH), toggleBit := !s.toggleBit }) ∧
      frame.bytes.length = mtu.toUsize ∧ frame.bytes = ((s.stream buffer).drop s.offset).take
        (mtu.toUsize - TAIL_LENGTH) ++
        [(TailByte.new (decide (s.offset = 0)) false s.toggleBit s.transferId).val] := by
  have htail : TAIL_LENGTH = 1 := rfl
  have hmtu := mtu.toUsize_eq
  have hpos : 1 ≤ mtu.toUsize := by omega
  have hmin : min (s.dataLength + CRC_LENGTH - s.offset) (mtu.toUsize - TAIL_LENGTH) + TAIL_LENGTH =
      mtu.toUsize := by omega
  have hmax : mtu.toUsize ≤ DataLength.MAX := by
    rw [DataLength.MAX]; omega
  have hceil : DataLength.ceil mtu.toUsize = mtu.toUsize := by cases mtu <;> rfl
  have hroom : (List.replicate (mtu.toUsize - 1) (0 : Byte)).length ≤
      s.dataLength + CRC_LENGTH - s.offset := by
    rw [List.length_replicate]; omega
  have hsent : (((s.stream buffer).drop s.offset).take (mtu.toUsize - TAIL_LENGTH)).length =
      mtu.toUsize - TAIL_LENGTH := by
    have hcrc : s.crc.toBeBytes.length = CRC_LENGTH := rfl
    simp only [List.length_take, List.length_drop, stream, List.length_append, hcrc]
    omega
  refine ⟨⟨((s.stream buffer).drop s.offset).take (mtu.toUsize - TAIL_LENGTH) ++
    [(TailByte.new (decide (s.offset = 0)) false s.toggleBit s.transferId).val], ?_⟩, ?_, ?_, rfl⟩
  · rw [List.length_append, hsent, List.length_singleton, htail, Nat.sub_add_cancel (by omega)]
    cases mtu <;> decide
  · rw [fetchFrameData, if_neg fun h ↦ absurd h.2 (Nat.not_le.mpr (hmulti h.1)), sub_of_le hs,
      ok_bind, if_neg (by omega), hmin,
      DataLength.newCeil_of_le hmax, unwrap_some, ok_bind]
    simp only [hceil]
    rw [Data.splitLast_newZeros (by simp only; omega), unwrap_some, ok_bind]
    simp only
    rw [if_pos hroom, fetchFullSegment_eq hb hs hroom, ok_bind]
    have hnot : ¬ s.offset + (mtu.toUsize - TAIL_LENGTH) = s.dataLength + CRC_LENGTH := by omega
    simp only [List.length_replicate, htail] at hsent hnot ⊢
    rw [decide_eq_false hnot, Data.write_newZeros, ok_bind, pure_eq_ok]
    rw [hsent, Nat.sub_add_cancel hpos]
  · rw [List.length_append, hsent, List.length_singleton]
    omega

/-- The payload of a multi-frame transfer padded with `pad` zeros, and the CRC of both. -/
def paddedStream (s : Scatter) (buffer : List Byte) (pad : ℕ) : List Byte :=
  buffer.take s.dataLength ++ List.replicate pad PAD_VALUE ++
    (s.crc.addBytes (List.replicate pad PAD_VALUE)).toBeBytes

/-- What is left fits a frame: the transfer ends, with padding only in front of the CRC. -/
theorem fetchFrameData_last {s : Scatter} {buffer : List Byte} {mtu : Mtu}
    (hb : s.dataLength ≤ buffer.length) (hoff : s.offset ≠ 0)
    (hs : s.offset < s.dataLength + CRC_LENGTH)
    (hres : s.dataLength + CRC_LENGTH - s.offset ≤ mtu.toUsize - TAIL_LENGTH) :
    ∃ frame pad, s.fetchFrameData buffer mtu = .ok (some frame,
        { s with offset := s.dataLength + CRC_LENGTH, toggleBit := !s.toggleBit }) ∧
      pad ≤ 15 ∧ (pad = 0 ∨ s.offset ≤ s.dataLength) ∧ frame.bytes.length =
        DataLength.ceil (s.dataLength + CRC_LENGTH - s.offset + TAIL_LENGTH) ∧
      frame.bytes = (s.paddedStream buffer pad).drop s.offset ++
        [(TailByte.new false true s.toggleBit s.transferId).val] := by
  have htail : TAIL_LENGTH = 1 := rfl
  have hcrc : CRC_LENGTH = 2 := rfl
  have hmtu := mtu.toUsize_eq
  have hmin : min (s.dataLength + CRC_LENGTH - s.offset) (mtu.toUsize - TAIL_LENGTH) =
      s.dataLength + CRC_LENGTH - s.offset := Nat.min_eq_left hres
  set residual := s.dataLength + CRC_LENGTH - s.offset with hresidual
  have hmax : residual + TAIL_LENGTH ≤ DataLength.MAX := by
    rw [DataLength.MAX]; omega
  have hle := DataLength.le_ceil (residual + TAIL_LENGTH)
  have hpad := DataLength.ceil_le (residual + TAIL_LENGTH)
  have hsmall := @DataLength.ceil_of_le_eight (residual + TAIL_LENGTH)
  have hvalid := DataLength.ceil_valid hmax
  set n := DataLength.ceil (residual + TAIL_LENGTH) with hn
  have hone : 1 ≤ n := by omega
  have hpadded : n - 1 - residual = 0 ∨ s.offset ≤ s.dataLength := by omega
  have hlen : ((s.paddedStream buffer (n - 1 - residual)).drop s.offset).length = n - 1 := by
    simp only [paddedStream, List.length_drop, List.length_append, List.length_take,
      List.length_replicate, TransferCrc.length_toBeBytes, Nat.min_eq_left hb]
    rw [show TransferCrc.LENGTH = 2 from rfl]
    omega
  have hroom : (List.replicate (n - 1) (0 : Byte)).length = n - 1 := List.length_replicate
  have hfull : n - 1 - residual = 0 → s.fetchFullSegment buffer (List.replicate (n - 1) 0) =
      .ok ((s.paddedStream buffer (n - 1 - residual)).drop s.offset,
        { s with offset := s.dataLength + CRC_LENGTH }) := by
    intro hzero
    rw [fetchFullSegment_eq hb hs.le (by omega), hzero, hroom, paddedStream, List.replicate_zero,
      List.append_nil, TransferCrc.addBytes_nil, ← stream, List.take_of_length_le,
      show s.offset + (n - 1) = s.dataLength + CRC_LENGTH by omega]
    simp only [stream, List.length_drop, List.length_append, List.length_take,
      TransferCrc.length_toBeBytes, Nat.min_eq_left hb]
    rw [show TransferCrc.LENGTH = 2 from rfl]
    omega
  have hpart : s.offset ≤ s.dataLength → s.fetchPaddedSegment buffer (List.replicate (n - 1) 0) =
      .ok ((s.paddedStream buffer (n - 1 - residual)).drop s.offset,
        { s with offset := s.dataLength + CRC_LENGTH }) := by
    intro hdata
    rw [fetchPaddedSegment_eq hb hdata (by omega), hroom, paddedStream, List.append_assoc,
      List.append_assoc, List.drop_append_of_le_length]
    rw [List.length_take, Nat.min_eq_left hb]
    exact hdata
  refine ⟨⟨(s.paddedStream buffer (n - 1 - residual)).drop s.offset ++
    [(TailByte.new false true s.toggleBit s.transferId).val], ?_⟩, n - 1 - residual, ?_, by omega,
    hpadded, ?_, rfl⟩
  · rwa [List.length_append, hlen, List.length_singleton, Nat.sub_add_cancel (by omega)]
  · rw [fetchFrameData, if_neg fun h ↦ hoff h.1, sub_of_le hs.le, ok_bind, ← hresidual,
      if_neg (by omega), hmin, DataLength.newCeil_of_le hmax, unwrap_some, ok_bind]
    simp only [← hn]
    rw [Data.splitLast_newZeros (by simp only; omega), unwrap_some, ok_bind]
    simp only
    rcases Nat.eq_zero_or_pos (n - 1 - residual) with hzero | hpos
    · rw [if_pos (by omega), hfull hzero, ok_bind]
      simp only [decide_true, decide_eq_false hoff]
      rw [Data.write_newZeros, ok_bind, pure_eq_ok]
      rw [hlen, Nat.sub_add_cancel hone]
    · have hdata : s.offset ≤ s.dataLength := by omega
      rw [if_neg (by omega), assert_pos hdata, ok_bind, hpart hdata, ok_bind]
      simp only [decide_true, decide_eq_false hoff]
      rw [Data.write_newZeros, ok_bind, pure_eq_ok]
      rw [hlen, Nat.sub_add_cancel hone]
  · rw [List.length_append, hlen, List.length_singleton]
    omega

/-! ## What they read -/

theorem slice_take {xs : List Byte} {n lo hi : ℕ} (hhi : hi ≤ n) (hn : n ≤ xs.length) :
    slice (xs.take n) lo hi = slice xs lo hi := by
  have hlen : (xs.take n).length = n := by rw [List.length_take, Nat.min_eq_left hn]
  rw [slice, slice, hlen, List.take_take, Nat.min_eq_left hhi]
  by_cases hlo : lo ≤ hi
  · rw [if_pos ⟨hlo, hhi⟩, if_pos ⟨hlo, hhi.trans hn⟩]
  · rw [if_neg fun h ↦ hlo h.1, if_neg fun h ↦ hlo h.1]

theorem fetchSingleSegment_take (s : Scatter) {buffer : List Byte}
    (hb : s.dataLength ≤ buffer.length) (payload : List Byte) :
    s.fetchSingleSegment (buffer.take s.dataLength) payload =
      s.fetchSingleSegment buffer payload := by
  have hlen : (buffer.take s.dataLength).length = s.dataLength := by
    rw [List.length_take, Nat.min_eq_left hb]
  rw [fetchSingleSegment, fetchSingleSegment, sliceTo_of_le hlen.ge, sliceTo_of_le hb,
    List.take_take, Nat.min_self]

theorem fetchFullSegment_take (s : Scatter) {buffer : List Byte} (hb : s.dataLength ≤ buffer.length)
    (payload : List Byte) :
    s.fetchFullSegment (buffer.take s.dataLength) payload = s.fetchFullSegment buffer payload := by
  rw [fetchFullSegment, fetchFullSegment, slice_take le_rfl hb]

theorem fetchPaddedSegment_take (s : Scatter) {buffer : List Byte}
    (hb : s.dataLength ≤ buffer.length) (payload : List Byte) :
    s.fetchPaddedSegment (buffer.take s.dataLength) payload =
      s.fetchPaddedSegment buffer payload := by
  rw [fetchPaddedSegment, fetchPaddedSegment, slice_take le_rfl hb]

/-- Only the data of the transfer is read. -/
theorem fetchFrameData_take (s : Scatter) {buffer : List Byte} (hb : s.dataLength ≤ buffer.length)
    (mtu : Mtu) : s.fetchFrameData (buffer.take s.dataLength) mtu =
    s.fetchFrameData buffer mtu := by
  simp only [fetchFrameData, s.fetchSingleSegment_take hb, s.fetchFullSegment_take hb,
    s.fetchPaddedSegment_take hb]

end Scatter

end Emcyphal
