import Emcyphal.Can.Native.Tx
import Mathlib.Tactic.Ring

/-!
# Timestamps of the native driver

The receive task of `emcyphal-stm32-native/src/driver.rs`.  The peripheral stamps a frame with a
counter of 16 bits.  `start` samples the clock and the counter once, and from the offset between
them and the time of the readout the task finds out when the frame was received.

Everything but the last subtraction of `make_timestamp` is modulo `2 ^ 16`, where the phase of the
counter and the sampling time cancel (`offset_eq`).  What is left is the age of the frame, which is
exact if it is less than `2 ^ 16`.
-/

set_option autoImplicit false

namespace Emcyphal.Can.Native

/-! ## Sampling the counter -/

inductive TimestampSource
  | System
  | Internal
  | ExternalTIM3
deriving DecidableEq

/-- The counter registers. -/
structure Counters where
  tscv : BitVec 32
  cnt : BitVec 32

namespace Counters

def internalTimestampCounter (r : Counters) : BitVec 16 := r.tscv.setWidth 16

def externalTimestampCounter (r : Counters) : BitVec 16 := r.cnt.setWidth 16

end Counters

/-- `timestamp_offset` in `start`, for the clock and the registers it has sampled. -/
def timestampOffset (source : TimestampSource) (instant : Instant) (control : Counters) :
    Option (BitVec 16) :=
  match source with
  | .System => none
  | .Internal => some (control.internalTimestampCounter - BitVec.ofNat 16 instant)
  | .ExternalTIM3 => some (control.externalTimestampCounter - BitVec.ofNat 16 instant)

/-- The loop of `RxRunner::run`, for a frame from the peripheral. -/
def RxRunner.receive (timestampOffset : Option (BitVec 16)) (now : Instant) (rawFrame : RawFrame) :
    Frame :=
  let timestamp := match timestampOffset with
    | some offset => makeTimestamp now (rawFrame.timestamp - offset)
    | none => now
  { header := rawFrame.header
    data := rawFrame.data
    timestamp := timestamp
    loopBack := false }

/-! ## The counter and the clock -/

/-- What the counter reads at a tick.  It runs at the tick rate, and was at `k` at tick `0`. -/
def counterAt (k tick : ℕ) : BitVec 16 := BitVec.ofNat 16 (tick + k)

/-- The counter that a source stands for reads `value`. -/
def Reads (control : Counters) (value : BitVec 16) : TimestampSource → Prop
  | .System => False
  | .Internal => control.internalTimestampCounter = value
  | .ExternalTIM3 => control.externalTimestampCounter = value

instance decidableReads (control : Counters) (value : BitVec 16) :
    (source : TimestampSource) → Decidable (Reads control value source)
  | .System => inferInstanceAs (Decidable False)
  | .Internal => inferInstanceAs (Decidable (control.internalTimestampCounter = value))
  | .ExternalTIM3 => inferInstanceAs (Decidable (control.externalTimestampCounter = value))

theorem timestampOffset_of_reads {source : TimestampSource} {control : Counters}
    {value : BitVec 16} (h : Reads control value source) (instant : Instant) :
    timestampOffset source instant control = some (value - BitVec.ofNat 16 instant) := by
  cases source with
  | System => exact h.elim
  | Internal => rw [← (show control.internalTimestampCounter = value from h), timestampOffset]
  | ExternalTIM3 => rw [← (show control.externalTimestampCounter = value from h), timestampOffset]

/-- The phase and the sampling time cancel. -/
theorem offset_eq (k s d t age : ℕ) :
    BitVec.ofNat 16 (t + age) - (counterAt k t - (counterAt k (s + d) - BitVec.ofNat 16 s)) =
      BitVec.ofNat 16 (age + d) := by
  simp only [counterAt, BitVec.ofNat_add]
  ring

/-- The age of a frame is what is subtracted from the time of the readout. -/
theorem makeTimestamp_counterAt {k s d : ℕ} {T E : Instant} (hTE : T ≤ E)
    (hage : E.val - T.val + d ≤ 65535) :
    (makeTimestamp E (counterAt k T - (counterAt k (s + d) - BitVec.ofNat 16 s))).val =
      T.val - d := by
  have hle : T.val ≤ E.val := hTE
  have hage' : E.val - T.val + d < 2 ^ 16 := by omega
  have hoff := offset_eq k s d T.val (E.val - T.val)
  rw [Nat.add_sub_cancel' hle] at hoff
  have hval : (BitVec.ofNat 16 (E.val - T.val + d)).toNat = E.val - T.val + d := by
    rw [BitVec.toNat_ofNat, Nat.mod_eq_of_lt hage']
  simp only [makeTimestamp, hoff, hval]
  omega

section

variable {source : TimestampSource} {control : Counters} {k d : ℕ} {s T E : Instant}

/-- **Hardware timestamps are extended exactly.**  The time that is made from the counter at tick
`T` is `T`, if the readout is less than `2 ^ 16` ticks later.  A counter that was sampled `d` ticks
after the clock makes it `d` ticks too early. -/
theorem timestamp_extended {offset : BitVec 16}
    (hoffset : timestampOffset source s control = some offset)
    (hcontrol : Reads control (counterAt k (s + d)) source) (hTE : T ≤ E)
    (hage : E.val - T.val + d ≤ 65535) :
    (d = 0 → makeTimestamp E (counterAt k T - offset) = T) ∧
      (makeTimestamp E (counterAt k T - offset)).val = T.val - d := by
  rw [timestampOffset_of_reads hcontrol] at hoffset
  obtain rfl := Option.some.inj hoffset
  have h := makeTimestamp_counterAt (k := k) (s := s) hTE hage
  refine ⟨fun hd ↦ Fin.ext ?_, h⟩
  rw [h, hd, Nat.sub_zero]

/-- A counter that wraps between the sampling, the reception and the readout. -/
theorem timestamp_extended_wrap :
    (2 = 0 → makeTimestamp 131080 (counterAt 7 (131060 : Instant).val - 9#16) = 131060) ∧
      (makeTimestamp 131080 (counterAt 7 (131060 : Instant).val - 9#16)).val =
        (131060 : Instant).val - 2 :=
  @timestamp_extended .ExternalTIM3 ⟨0, 3⟩ 7 2 65530 131060 131080 9#16 (by decide)
    (by decide) (by decide) (by decide)

end

end Emcyphal.Can.Native
