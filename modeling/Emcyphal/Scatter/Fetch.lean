import Emcyphal.Scatter

/-!
# One fetch of a `Scatter`

What a transmit buffer has to know about a transfer it has not sent completely: the next fetch
returns a frame, which is no longer than the MTU and ends the transfer exactly if nothing is left
afterwards.
-/

set_option autoImplicit false

namespace Emcyphal

open Rust

/-- The end-of-transfer bit in the last byte of a frame. -/
def isEotFrame (frame : Frame) : Option Bool := frame.data.bytes.getLast?.map fun byte ↦
    TailByte.eot ⟨byte⟩

/-- The start-of-transfer bit in the last byte of a frame. -/
def isSotFrame (frame : Frame) : Option Bool := frame.data.bytes.getLast?.map fun byte ↦
    TailByte.sot ⟨byte⟩

namespace Scatter

/-- The data of the transfer is in a buffer of the length, and some of it is left to send. -/
structure Ready (s : Scatter) (length : ℕ) : Prop where
  fits : s.dataLength ≤ length
  left : s.offset < s.dataLength + CRC_LENGTH

theorem ready_new {transferId : TransferId} {dataLength length : ℕ} {crc : TransferCrc}
    (h : dataLength ≤ length) : (new transferId dataLength crc).Ready length :=
  ⟨h, Nat.zero_lt_succ _⟩

/-- What a fetch from `s` does to it, and the data it returns. -/
structure Fetched (s : Scatter) (buffer : List Byte) (mtu : Mtu) (data : Data) (s' : Scatter) :
    Prop where
  eq : s.fetchFrameData buffer mtu = .ok (some data, s')
  length : data.bytes.length ≤ mtu.toUsize
  /-- The frame ends the transfer if nothing is left. -/
  eot : data.bytes.getLast?.map (fun byte ↦ TailByte.eot ⟨byte⟩) = some s'.isExhausted
  /-- Otherwise there is a next frame. -/
  ready : s'.isExhausted = false → s'.Ready buffer.length
  offset : s.offset < s'.offset
  bound : s'.offset ≤ s.dataLength + CRC_LENGTH
  dataLength : s'.dataLength = s.dataLength
  transferId : s'.transferId = s.transferId
  /-- The frame carries the id of the transfer. -/
  tid : data.bytes.getLast?.map (fun byte ↦ TailByte.transferId ⟨byte⟩) = some s.transferId

theorem eot_concat (payload : List Byte) (sot eot toggle : Bool) (transferId : TransferId) :
    (payload ++ [(TailByte.new sot eot toggle transferId).val]).getLast?.map
      (fun byte ↦ TailByte.eot ⟨byte⟩) = some eot := by
  rw [List.getLast?_concat]
  exact congrArg some (TailByte.eot_new ..)

theorem transferId_concat (payload : List Byte) (sot eot toggle : Bool) (transferId : TransferId) :
    (payload ++ [(TailByte.new sot eot toggle transferId).val]).getLast?.map
      (fun byte ↦ TailByte.transferId ⟨byte⟩) = some transferId := by
  rw [List.getLast?_concat]
  exact congrArg some (TailByte.transferId_new ..)

/-- The frame is the last one. -/
theorem Ready.fetched_last {s s' : Scatter} {buffer payload : List Byte} {mtu : Mtu} {data : Data}
    {sot toggle : Bool} (h : s.Ready buffer.length)
    (heq : s.fetchFrameData buffer mtu = .ok (some data, s'))
    (hlen : data.bytes.length ≤ mtu.toUsize)
    (hbytes : data.bytes = payload ++ [(TailByte.new sot true toggle s.transferId).val])
    (hoffset : s'.offset = s.dataLength + CRC_LENGTH) (hdata : s'.dataLength = s.dataLength)
    (hid : s'.transferId = s.transferId) : s.Fetched buffer mtu data s' := by
  have hexhausted : s'.isExhausted = true := by
    rw [isExhausted, hoffset, hdata]
    exact beq_self_eq_true _
  refine ⟨heq, hlen, ?_, fun hnot ↦ ?_, ?_, hoffset.le, hdata, hid, ?_⟩
  · rw [hbytes, eot_concat, hexhausted]
  · rw [hexhausted] at hnot
    cases hnot
  · rw [hoffset]
    exact h.left
  · rw [hbytes, transferId_concat]

/-- The frame is full, and more frames follow. -/
theorem Ready.fetched_full {s : Scatter} {buffer : List Byte} {mtu : Mtu}
    (h : s.Ready buffer.length) (hmulti : s.offset = 0 → mtu.toUsize - TAIL_LENGTH < s.dataLength)
    (hres : mtu.toUsize - TAIL_LENGTH < s.dataLength + CRC_LENGTH - s.offset) :
    ∃ data s', s.Fetched buffer mtu data s' := by
  have htail : TAIL_LENGTH = 1 := rfl
  have hmtu := mtu.toUsize_eq
  have hleft := h.left
  obtain ⟨data, heq, hlen, hbytes⟩ := fetchFrameData_full h.fits hmulti hleft.le hres
  refine ⟨data, _, heq, hlen.le, ?_, fun _ ↦ ⟨h.fits, ?_⟩, ?_, ?_, rfl, rfl, ?_⟩
  · rw [hbytes, eot_concat, isExhausted]
    exact congrArg some (beq_eq_false_iff_ne.mpr (by dsimp only; omega)).symm
  rotate_right
  · rw [hbytes, transferId_concat]
  all_goals dsimp only; omega

/-- **A transfer that is not sent completely has a next frame.** -/
theorem Ready.fetch {s : Scatter} {buffer : List Byte} (h : s.Ready buffer.length) (mtu : Mtu) :
    ∃ data s', s.Fetched buffer mtu data s' := by
  have hcrc : CRC_LENGTH = 2 := rfl
  have htail : TAIL_LENGTH = 1 := rfl
  have hmtu := mtu.toUsize_eq
  have hleft := h.left
  by_cases hzero : s.offset = 0
  · rcases Nat.lt_or_ge (mtu.toUsize - TAIL_LENGTH) s.dataLength with hlong | hfit
    · exact h.fetched_full (fun _ ↦ hlong) (by omega)
    · obtain ⟨data, pad, heq, -, hlen, hbytes⟩ := fetchFrameData_single h.fits hzero hfit
      have hle : data.bytes.length ≤ mtu.toUsize :=
        hlen.le.trans (DataLength.ceil_le_mtu (by omega))
      exact ⟨data, _, h.fetched_last heq hle hbytes rfl rfl rfl⟩
  · rcases Nat.lt_or_ge (mtu.toUsize - TAIL_LENGTH) (s.dataLength + CRC_LENGTH - s.offset) with
      hlong | hfit
    · exact h.fetched_full (fun h ↦ absurd h hzero) hlong
    · obtain ⟨data, pad, heq, -, -, hlen, hbytes⟩ := fetchFrameData_last h.fits hzero hleft hfit
      have hle : data.bytes.length ≤ mtu.toUsize :=
        hlen.le.trans (DataLength.ceil_le_mtu (by omega))
      exact ⟨data, _, h.fetched_last heq hle hbytes rfl rfl rfl⟩

theorem sot_concat (payload : List Byte) (sot eot toggle : Bool) (transferId : TransferId) :
    (payload ++ [(TailByte.new sot eot toggle transferId).val]).getLast?.map
      (fun byte ↦ TailByte.sot ⟨byte⟩) = some sot := by
  rw [List.getLast?_concat]
  exact congrArg some (TailByte.sot_new ..)

/-- The first frame is the one that starts the transfer. -/
theorem Fetched.sot {s s' : Scatter} {buffer : List Byte} {mtu : Mtu} {data : Data}
    (h : s.Fetched buffer mtu data s') (hready : s.Ready buffer.length) :
    data.bytes.getLast?.map (fun byte ↦ TailByte.sot ⟨byte⟩) = some (decide (s.offset = 0)) := by
  have hleft := hready.left
  by_cases hzero : s.offset = 0
  · rcases Nat.lt_or_ge (mtu.toUsize - TAIL_LENGTH) s.dataLength with hlong | hfit
    · obtain ⟨frame, heq, -, hbytes⟩ := fetchFrameData_full hready.fits (fun _ ↦ hlong) hleft.le
        (by omega)
      cases h.eq.symm.trans heq
      rw [hbytes, sot_concat]
    · obtain ⟨frame, pad, heq, -, -, hbytes⟩ := fetchFrameData_single hready.fits hzero hfit
      cases h.eq.symm.trans heq
      rw [hbytes, sot_concat, decide_eq_true hzero]
  · rcases Nat.lt_or_ge (mtu.toUsize - TAIL_LENGTH) (s.dataLength + CRC_LENGTH - s.offset) with
      hlong | hfit
    · obtain ⟨frame, heq, -, hbytes⟩ := fetchFrameData_full hready.fits
        (fun h ↦ absurd h hzero) hleft.le hlong
      cases h.eq.symm.trans heq
      rw [hbytes, sot_concat]
    · obtain ⟨frame, pad, heq, -, -, -, hbytes⟩ :=
        fetchFrameData_last hready.fits hzero hleft hfit
      cases h.eq.symm.trans heq
      rw [hbytes, sot_concat, decide_eq_false hzero]

end Scatter

end Emcyphal
