import Mathlib.Tactic.FinCases
import Mathlib.Tactic.IntervalCases
import Emcyphal.Can.Header
import Emcyphal.Can.Native.Filter
import Emcyphal.Lib.Words

/-!
# The frames of the native driver

How a frame is written to an element of the transmit buffer, and how a frame that was received is
read from an element of a FIFO (`emcyphal-stm32-native/src/raw.rs`).

The elements are not the same, but they have the identifier, the data length code, the format and
the data words in common.  `Received` says that the peripheral has passed these on, and has stored
the frame because of a filter of its kind.  Then the frame that is read is the one that was written
(`frame_round_trip`).
-/

set_option autoImplicit false

namespace Emcyphal.Can.Native

open Rust BitField

def makeDlc (value : DataLength) : Exec (BitVec 8) :=
  if value.val ≤ 8 then .ok (BitVec.ofNat 8 value.val) else
  match value.val with
  | 12 => .ok 9#8
  | 16 => .ok 10#8
  | 20 => .ok 11#8
  | 24 => .ok 12#8
  | 32 => .ok 13#8
  | 48 => .ok 14#8
  | 64 => .ok 15#8
  | _ => .error .unreachable

/-! ## Data words -/

/-- The bytes of a chunk in an array of zeros. -/
def padChunk (src : List Byte) : Exec (List Byte) := do
  let bytes := List.replicate 4 (0 : Byte)
  let head ← sliceTo bytes src.length
  let head ← copyFromSlice head src
  return head ++ bytes.drop src.length

/-- The loop over the chunks, from the one with index `i` on. -/
def storeWords : ℕ → List (List Byte) → Vector (BitVec 32) 16 → Exec (Vector (BitVec 32) 16)
  | _, [], data => .ok data
  | i, src :: rest, data => do
    let bytes ← padChunk src
    if h : i < 16 then storeWords (i + 1) rest (data.set i (fromLeBytes 32 bytes))
    else .error .index

/-- The loop over the chunks, from the one with index `i` on: what they are overwritten with. -/
def loadWords (data : Vector (BitVec 32) 16) : ℕ → List (List Byte) → Exec (List (List Byte))
  | _, [] => .ok []
  | i, dst :: rest => do
    let word ← index data.toList i
    let src ← sliceTo (toLeBytes word) dst.length
    let dst ← copyFromSlice dst src
    let rest ← loadWords data (i + 1) rest
    return dst :: rest

/-! ## Frames -/

def storeTxBuffer (elem : TxBufferElement) (frame : Frame) (frameFormat : FrameFormat)
    (marker : BitVec 8) : Exec TxBufferElement := do
  let canId ← unwrap (makeCanId frame.header)
  assert (frameFormat.isFd = true ∨ frame.data.bytes.length ≤ 8)
  let dlc ← makeDlc frame.data.length
  let w := TxBufferElementHeader.resetValue.setErrorIndicator .errorActive
  let w := w.setIdType .extendedId
  let w := w.setRtr .transmitDataFrame
  let w := w.setId canId
  let w := w.setMm marker
  let w := w.setEventControl .store
  let w := w.setFdf frameFormat.isFd
  let w := w.setBrs frameFormat.bitRateSwitch
  let w := w.setDlc dlc
  let data ← storeWords 0 (chunks 4 frame.data.bytes) elem.data
  return ⟨w, data⟩

structure RawFrame where
  header : Header
  data : Data
  timestamp : BitVec 16
deriving DecidableEq

def loadFrame (elem : RxFifoElement) : Exec (Option RawFrame) := do
  let rawHeader := elem.header
  assert (rawHeader.xtd = .extendedId)
  assert (rawHeader.rtr = .transmitDataFrame)
  let canId := rawHeader.id
  let timestamp := rawHeader.rxts
  let header :=
    if rawHeader.fidx.toNat ≠ SERVICE_FILTER_OFFSET then loadMsgFrameHeader canId
    else loadSrvFrameHeader canId
  match header with
  | none => return none
  | some header =>
    let length ← rawHeader.toDataLength
    let dataLength ← unwrap (DataLength.new length.len.toNat)
    let data := Data.newZeros dataLength
    let bytes ← loadWords elem.data 0 (chunks 4 data.bytes)
    let data ← data.write bytes.flatten
    return some ⟨header, data, timestamp⟩

/-- The filters that the frames of a kind have passed. -/
def FilterOf : Bool → ℕ → Prop
  | true, idx => MESSAGE_FILTER_OFFSET ≤ idx ∧ idx < MESSAGE_FILTER_OFFSET + MESSAGE_FILTER_COUNT
  | false, idx => idx = SERVICE_FILTER_OFFSET

instance decidableFilterOf (idx : ℕ) : (message : Bool) → Decidable (FilterOf message idx)
  | true => inferInstanceAs (Decidable (_ ∧ _))
  | false => inferInstanceAs (Decidable (idx = SERVICE_FILTER_OFFSET))

/-- The frame in an element was sent and received, and is stored in another one. -/
structure Received (message : Bool) (words : ℕ) (tx : TxBufferElement) (rx : RxFifoElement) :
    Prop where
  id : field rx.header.word0 0 29 = field tx.header.word0 0 29
  rtr : field rx.header.word0 29 1 = 0
  xtd : field rx.header.word0 30 1 = 1
  dlc : field rx.header.word1 16 4 = field tx.header.word1 16 4
  fdf : field rx.header.word1 21 1 = field tx.header.word1 21 1
  fidx : FilterOf message (field rx.header.word1 24 7)
  anmf : field rx.header.word1 31 1 = 0
  data : ∀ k < words, rx.data[k]? = tx.data[k]?

/-! ## Data words -/

/-- The word of a chunk. -/
def wordOf (src : List Byte) : BitVec 32 :=
  fromLeBytes 32 (src ++ List.replicate (4 - src.length) 0)

theorem padChunk_eq {src : List Byte} (h : src.length ≤ 4) :
    padChunk src = .ok (src ++ List.replicate (4 - src.length) 0) := by
  rw [padChunk, sliceTo_of_le (by simpa using h), ok_bind,
    copyFromSlice_of_length (by simpa using h), ok_bind, List.drop_replicate]
  rfl

/-- The words that are stored. -/
theorem storeWords_eq {srcs : List (List Byte)} {i : ℕ} {data : Vector (BitVec 32) 16}
    (hroom : i + srcs.length ≤ 16) (hle : ∀ src ∈ srcs, src.length ≤ 4) :
    ∃ data', storeWords i srcs data = .ok data' ∧ (∀ k < i, data'[k]? = data[k]?) ∧
      ∀ k src, srcs[k]? = some src → data'[i + k]? = some (wordOf src) := by
  induction srcs generalizing i data with
  | nil => exact ⟨data, rfl, fun _ _ ↦ rfl, fun k src h ↦ by simp at h⟩
  | cons src rest ih =>
    rw [List.length_cons] at hroom
    have hi : i < 16 := by omega
    obtain ⟨data', hstore, hbefore, hwords⟩ := @ih (i + 1) (data.set i (wordOf src)) (by omega)
      fun s hs ↦ hle s (List.mem_cons_of_mem _ hs)
    refine ⟨data', ?_, fun k hk ↦ ?_, fun k s hs ↦ ?_⟩
    · rw [storeWords, padChunk_eq (hle src List.mem_cons_self), ok_bind, dif_pos hi]
      exact hstore
    · rw [hbefore k (hk.trans (Nat.lt_succ_self i)), Vector.getElem?_set_ne hi (by omega)]
    · cases k with
      | zero =>
        cases hs
        rw [Nat.add_zero, hbefore i (Nat.lt_succ_self i), Vector.getElem?_set_self hi]
      | succ k =>
        rw [← hwords k s hs]
        congr 1
        omega

/-- The chunks that the words were made of. -/
theorem loadWords_eq {srcs dsts : List (List Byte)} {i : ℕ} {data : Vector (BitVec 32) 16}
    (hwords : ∀ k src, srcs[k]? = some src → data[i + k]? = some (wordOf src))
    (hle : ∀ src ∈ srcs, src.length ≤ 4) (hlength : dsts.map List.length = srcs.map List.length) :
    loadWords data i dsts = .ok srcs := by
  induction srcs generalizing i dsts with
  | nil =>
    rw [List.map_nil, List.map_eq_nil_iff] at hlength
    rw [hlength, loadWords]
  | cons src srcs ih =>
    cases dsts with
    | nil => cases hlength
    | cons dst dsts =>
      rw [List.map_cons, List.map_cons, List.cons.injEq] at hlength
      obtain ⟨hdst, hlength⟩ := hlength
      have hsrc := hle src List.mem_cons_self
      have hword : data.toList[i]? = some (wordOf src) := by
        simpa using hwords 0 src rfl
      have hbytes : toLeBytes (wordOf src) = src ++ List.replicate (4 - src.length) 0 :=
        toLeBytes_fromLeBytes (by simp; omega)
      have hwords' : ∀ k s, srcs[k]? = some s → data[i + 1 + k]? = some (wordOf s) := by
        intro k s hs
        rw [← hwords (k + 1) s hs]
        congr 1
        omega
      have hrest := ih hwords' (fun s hs ↦ hle s (List.mem_cons_of_mem _ hs)) hlength
      rw [loadWords, index_of_getElem? hword, ok_bind, hbytes, hdst, sliceTo_of_le (by simp),
        ok_bind, List.take_left, copyFromSlice_of_length hdst, ok_bind, hrest]
      rfl

/-! ## Data lengths -/

theorem makeDlc_eq (value : DataLength) : ∃ dlc, makeDlc value = .ok dlc ∧ dlc.toNat < 16 := by
  obtain ⟨n, hn⟩ := value
  fin_cases hn <;> exact ⟨_, rfl, by decide⟩

/-- A data length code is that of a length. -/
theorem toDataLength_eq {r : RxFifoElementHeader} {value : DataLength} {fd : Bool}
    (hdlc : makeDlc value = .ok r.dlc) (hfdf : r.fdf = if fd = true then .fdcan else .standard)
    (hfit : fd = true ∨ value.val ≤ 8) :
    ∃ length, r.toDataLength = .ok length ∧ length.len.toNat = value.val := by
  obtain ⟨n, hn⟩ := value
  rw [RxFifoElementHeader.toDataLength, hfdf]
  generalize r.dlc = dlc at *
  cases fd with
  | true => fin_cases hn <;> cases hdlc <;> exact ⟨_, rfl, rfl⟩
  | false =>
    have hshort : n ≤ 8 := hfit.resolve_left Bool.false_ne_true
    interval_cases n <;> cases hdlc <;> exact ⟨_, rfl, rfl⟩

/-! ## Header words -/

/-- The header words that are written. -/
def txHeader (canId : BitVec 32) (frameFormat : FrameFormat) (marker dlc : BitVec 8) :
    TxBufferElementHeader :=
  ((((((((TxBufferElementHeader.resetValue.setErrorIndicator .errorActive).setIdType
    .extendedId).setRtr .transmitDataFrame).setId canId).setMm marker).setEventControl
      .store).setFdf frameFormat.isFd).setBrs frameFormat.bitRateSwitch).setDlc dlc

section

variable {canId : BitVec 32} {frameFormat : FrameFormat} {marker dlc : BitVec 8}

theorem id_txHeader (h : canId.toNat < 2 ^ 29) :
    field (txHeader canId frameFormat marker dlc).word0 0 29 = canId.toNat := by
  have hid : field (txHeader canId frameFormat marker dlc).word0 0 29 = canId.toNat % 2 ^ 29 :=
    field_store (by decide) (by decide)
  rw [hid, Nat.mod_eq_of_lt h]

theorem dlc_txHeader (h : dlc.toNat < 16) :
    field (txHeader canId frameFormat marker dlc).word1 16 4 = dlc.toNat := by
  have hdlc : field (txHeader canId frameFormat marker dlc).word1 16 4 =
      (dlc.setWidth 32).toNat % 2 ^ 4 := field_store (by decide) (by decide)
  rw [hdlc, BitVec.toNat_setWidth]
  omega

theorem fdf_txHeader :
    field (txHeader canId frameFormat marker dlc).word1 21 1 = frameFormat.isFd.toNat :=
  (field_store_of_disjoint (n := 4) (by decide) (by decide) (by decide)).trans <|
    (field_storeBit_of_disjoint (by decide) (by decide)).trans (field_storeBit (by decide) _)

/-- The marker is above the other fields of its word. -/
theorem field_txHeader {off n : ℕ} (hoff : 24 ≤ off) :
    field (txHeader canId frameFormat marker dlc).word1 off n =
      field (store 0#32 0x7F#32 24 (marker.setWidth 32)) off n :=
  (field_store_of_disjoint (n := 4) (by decide) (by decide) (by omega)).trans <|
    (field_storeBit_of_disjoint (by decide) (by omega)).trans <|
    (field_storeBit_of_disjoint (by decide) (by omega)).trans <|
    (field_storeBit_of_disjoint (by decide) (by omega))

theorem marker_txHeader (h : marker.toNat < 128) :
    (load (txHeader canId frameFormat marker dlc).word1 0xFF#32 24).setWidth 8 = marker := by
  have hload : (load (txHeader canId frameFormat marker dlc).word1 0xFF#32 24).toNat =
      field (txHeader canId frameFormat marker dlc).word1 24 8 :=
    toNat_load (by decide) (by decide)
  have hlow : field (txHeader canId frameFormat marker dlc).word1 24 7 =
      (marker.setWidth 32).toNat % 2 ^ 7 :=
    (field_txHeader le_rfl).trans (field_store (by decide) (by decide))
  have hhigh : field (txHeader canId frameFormat marker dlc).word1 31 1 = 0 :=
    (field_txHeader (by decide)).trans
      (field_store_of_disjoint (n := 7) (by decide) (by decide) (by decide))
  rw [field_eq] at hlow hhigh
  rw [BitVec.toNat_setWidth] at hlow
  refine BitVec.eq_of_toNat_eq ?_
  rw [BitVec.toNat_setWidth, hload, field_eq]
  omega

/-- The header words of an element that is written. -/
theorem header_storeTxBuffer {elem tx : TxBufferElement} {frame : Frame}
    (h : storeTxBuffer elem frame frameFormat marker = .ok tx) :
    ∃ canId dlc, tx.header = txHeader canId frameFormat marker dlc := by
  rw [storeTxBuffer, bind_eq_ok] at h
  obtain ⟨canId, -, h⟩ := h
  obtain ⟨-, -, h⟩ := bind_eq_ok.mp h
  obtain ⟨dlc, -, h⟩ := bind_eq_ok.mp h
  obtain ⟨data, -, h⟩ := bind_eq_ok.mp h
  cases h
  exact ⟨canId, dlc, rfl⟩

end

namespace Received

variable {message : Bool} {words : ℕ} {canId : BitVec 32} {frameFormat : FrameFormat}
  {marker dlc : BitVec 8} {data : Vector (BitVec 32) 16} {rx : RxFifoElement}

theorem header_id (h : Received message words ⟨txHeader canId frameFormat marker dlc, data⟩ rx)
    (hcanId : canId.toNat < 2 ^ 29) : rx.header.id = canId := by
  refine BitVec.eq_of_toNat_eq ?_
  rw [RxFifoElementHeader.id, toNat_load ExtendedFilter.efid_mask (by decide), h.id,
    id_txHeader hcanId]

theorem header_dlc (h : Received message words ⟨txHeader canId frameFormat marker dlc, data⟩ rx)
    (hdlc : dlc.toNat < 16) : rx.header.dlc = dlc := by
  have hload : (load rx.header.word1 0x0F#32 16).toNat = field rx.header.word1 16 4 :=
    toNat_load (by decide) (by decide)
  refine BitVec.eq_of_toNat_eq ?_
  rw [RxFifoElementHeader.dlc, BitVec.toNat_setWidth, hload, h.dlc, dlc_txHeader hdlc]
  omega

theorem header_fdf (h : Received message words ⟨txHeader canId frameFormat marker dlc, data⟩ rx) :
    rx.header.fdf = if frameFormat.isFd = true then .fdcan else .standard := by
  rw [RxFifoElementHeader.fdf, loadBit_eq, h.fdf, fdf_txHeader]
  cases frameFormat <;> rfl

theorem header_xtd {tx : TxBufferElement} (h : Received message words tx rx) :
    rx.header.xtd = .extendedId := by
  rw [RxFifoElementHeader.xtd, loadBit_eq, h.xtd]
  rfl

theorem header_rtr {tx : TxBufferElement} (h : Received message words tx rx) :
    rx.header.rtr = .transmitDataFrame := by
  rw [RxFifoElementHeader.rtr, loadBit_eq, h.rtr]
  rfl

theorem header_fidx {tx : TxBufferElement} (h : Received message words tx rx) :
    rx.header.fidx.toNat ≠ SERVICE_FILTER_OFFSET ↔ message = true := by
  have hload : (load rx.header.word1 0xFF#32 24).toNat = field rx.header.word1 24 8 :=
    toNat_load (by decide) (by decide)
  have hfidx : rx.header.fidx.toNat = field rx.header.word1 24 7 := by
    have hanmf := h.anmf
    rw [field_eq] at hanmf
    rw [RxFifoElementHeader.fidx, BitVec.toNat_setWidth, hload, field_eq, field_eq]
    omega
  have hfilter := h.fidx
  rw [hfidx]
  cases message with
  | true => exact iff_of_true hfilter.2.ne rfl
  | false => exact iff_of_false (not_not.mpr hfilter) Bool.false_ne_true

end Received

/-- **A frame is decoded to what it was encoded from.**  The identifier says the header, to the
decoder of its kind only, and orders the frames by their priority; the element that is received says
the data as well. -/
theorem frame_round_trip {header : Header} {canId : BitVec 32} (h : makeCanId header = some canId) :
    canId.toNat < 2 ^ 29 ∧ Embassy.convertRawHeader canId = some header ∧
    loadMsgFrameHeader canId = (if isMessage header then some header else none) ∧
    loadSrvFrameHeader canId = (if isMessage header then none else some header) ∧
    (∀ (data : Data) (timestamp : Instant) (loopBack : Bool) (frameFormat : FrameFormat)
        (marker : BitVec 8) (elem : TxBufferElement),
      frameFormat.isFd = true ∨ data.bytes.length ≤ 8 →
      ∃ tx, storeTxBuffer elem ⟨header, data, timestamp, loopBack⟩ frameFormat marker = .ok tx ∧
        ∀ rx, Received (isMessage header) (chunks 4 data.bytes).length tx rx →
          loadFrame rx = .ok (some ⟨header, data, rx.header.rxts⟩)) ∧
    ∀ header' canId', makeCanId header' = some canId' →
      header.priority.intoU8 < header'.priority.intoU8 → canId < canId' := by
  obtain ⟨hconvert, hmsg, hsrv⟩ := makeCanId_decodes h
  refine ⟨(makeCanId_div h).1, hconvert, hmsg, hsrv, ?_, fun _ _ h' hlt ↦ makeCanId_lt h h' hlt⟩
  intro data timestamp loopBack frameFormat marker elem hfit
  obtain ⟨dlc, hdlc, hdlc_lt⟩ := makeDlc_eq data.length
  have hchunks : ∀ src ∈ chunks 4 data.bytes, src.length ≤ 4 := fun _ ↦ length_le_of_mem_chunks
  have hroom : 0 + (chunks 4 data.bytes).length ≤ 16 := by
    have hle := data.length_le
    rw [length_chunks]
    omega
  obtain ⟨words, hstore, -, hwords⟩ := @storeWords_eq _ 0 elem.data hroom hchunks
  refine ⟨⟨txHeader canId frameFormat marker dlc, words⟩, ?_, fun rx hrx ↦ ?_⟩
  · rw [storeTxBuffer, h, unwrap_some, ok_bind, assert_pos hfit, ok_bind, hdlc, ok_bind, hstore]
    rfl
  · have hid := hrx.header_id (makeCanId_div h).1
    have hheader : (if rx.header.fidx.toNat ≠ SERVICE_FILTER_OFFSET then
        loadMsgFrameHeader rx.header.id else loadSrvFrameHeader rx.header.id) = some header := by
      rw [hid, hmsg, hsrv]
      by_cases hkind : isMessage header = true
      · rw [if_pos (hrx.header_fidx.mpr hkind), if_pos hkind]
      · rw [if_neg (mt hrx.header_fidx.mp hkind), if_neg hkind]
    have hlen : ∃ length, rx.header.toDataLength = .ok length ∧
        length.len.toNat = data.length.val := by
      refine toDataLength_eq ?_ hrx.header_fdf hfit
      rw [hrx.header_dlc hdlc_lt, hdlc]
    obtain ⟨length, htoDataLength, hlength⟩ := hlen
    have hload : loadWords rx.data 0 (chunks 4 (Data.newZeros data.length).bytes) =
        .ok (chunks 4 data.bytes) := by
      refine loadWords_eq (fun k src hk ↦ ?_) hchunks
        (map_length_chunks (Data.length_newZeros data.length))
      rw [Nat.zero_add, hrx.data k (List.getElem?_eq_some_iff.mp hk).1, ← hwords k src hk,
        Nat.zero_add]
    rw [loadFrame]
    dsimp only
    rw [assert_pos hrx.header_xtd, ok_bind, assert_pos hrx.header_rtr, ok_bind, hheader]
    dsimp only
    rw [htoDataLength, ok_bind, hlength, DataLength.new_val, unwrap_some, ok_bind, hload, ok_bind,
      flatten_chunks (by decide), Data.write_of_length (Data.length_newZeros data.length)]
    rfl

/-- A response that ends in the middle of a word. -/
theorem frame_round_trip_response : ∃ canId,
    makeCanId ⟨.fast, .response 430, some 42, some 7⟩ = some canId ∧
      Embassy.convertRawHeader canId = some ⟨.fast, .response 430, some 42, some 7⟩ ∧
      ∃ tx, storeTxBuffer ⟨⟨0, 0⟩, .replicate 16 0⟩ ⟨⟨.fast, .response 430, some 42, some 7⟩,
          ⟨[1, 2, 3, 4, 5, 0xE0], by decide⟩, 0, false⟩ .classic 1 = .ok tx ∧
        loadFrame ⟨⟨tx.header.word0, 7#32 <<< 24 ||| 6#32 <<< 16⟩, tx.data⟩ =
          .ok (some ⟨⟨.fast, .response 430, some 42, some 7⟩,
            ⟨[1, 2, 3, 4, 5, 0xE0], by decide⟩, 0⟩) := by
  obtain ⟨canId, hcanId⟩ : ∃ canId, makeCanId ⟨.fast, .response 430, some 42, some 7⟩ =
    some canId := ⟨_, rfl⟩
  obtain ⟨-, hconvert, -, -, hframe, -⟩ := frame_round_trip hcanId
  obtain ⟨tx, hstore, hload⟩ := hframe ⟨[1, 2, 3, 4, 5, 0xE0], by decide⟩ 0 false .classic 1
    ⟨⟨0, 0⟩, .replicate 16 0⟩ (.inr (by decide))
  have hreceived : Received false 2 tx
      ⟨⟨tx.header.word0, 7#32 <<< 24 ||| 6#32 <<< 16⟩, tx.data⟩ := by
    cases hstore
    exact ⟨rfl, by decide, by decide, by decide, by decide, by decide, by decide, fun _ _ ↦ rfl⟩
  have hrxts : load (7#32 <<< 24 ||| 6#32 <<< 16) 0xFFFF#32 0 = 0 := by decide
  have hloaded := hload _ hreceived
  rw [RxFifoElementHeader.rxts, hrxts] at hloaded
  exact ⟨canId, hcanId, hconvert, tx, hstore, hloaded⟩

end Emcyphal.Can.Native
