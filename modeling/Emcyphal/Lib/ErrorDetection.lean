import Emcyphal.Lib.ShiftRegister
import Mathlib.Algebra.Ring.Parity
import Mathlib.Data.List.Basic
import Mathlib.Data.List.GetD

/-!
# What a shift register detects

A shift register is linear, so what it makes of two messages differs by what it makes of their
difference, starting empty.  A difference goes unnoticed if it leaves the register empty.

Two kinds of differences never do.  As long as the generator polynomial has its constant term, a
step loses nothing, so a difference no longer than the register is still there when it has been
shifted in, and stays (`burst_detected`).  If the polynomial has an even number of terms, counting
the one that is not in the register, the parity of the register is the parity of what was shifted in
(`parity_shiftIn`), so a difference in an odd number of bits does not vanish (`odd_detected`).
-/

set_option autoImplicit false

namespace ShiftRegister

variable {w : ℕ} (poly : BitVec w)

/-! ## Linearity -/

theorem step_xor (x y : BitVec w) : step poly (x ^^^ y) = step poly x ^^^ step poly y := by
  have hcancel : ∀ a b : BitVec w, a ^^^ b = (a ^^^ poly) ^^^ (b ^^^ poly) := by
    intro a b
    rw [BitVec.xor_assoc, BitVec.xor_comm b poly, ← BitVec.xor_assoc poly poly b, BitVec.xor_self,
      BitVec.zero_xor]
  rw [step, step, step, BitVec.msb_xor, BitVec.shiftLeft_xor_distrib]
  cases x.msb <;> cases y.msb
  · rfl
  · exact BitVec.xor_assoc _ _ _
  · show (x <<< 1 ^^^ y <<< 1) ^^^ poly = (x <<< 1 ^^^ poly) ^^^ y <<< 1
    rw [BitVec.xor_assoc, BitVec.xor_comm (y <<< 1), BitVec.xor_assoc]
  · exact hcancel _ _

@[simp] theorem step_zero : step poly 0#w = 0#w := by
  rw [step, BitVec.msb_zero, if_neg Bool.false_ne_true, BitVec.zero_shiftLeft]

/-- A polynomial with its constant term: nothing is lost in a step. -/
theorem step_eq_zero (h : poly.getLsbD 0 = true) {x : BitVec w}
    (hx : step poly x = 0#w) : x = 0#w := by
  have hbit : ∀ i, (step poly x).getLsbD i = false := fun i ↦ by rw [hx, BitVec.getLsbD_zero]
  have hmsb : x.msb = false := by
    by_contra htrue
    have h₀ := hbit 0
    rw [step, if_pos (Bool.eq_true_of_not_eq_false htrue), BitVec.getLsbD_xor, h,
      BitVec.getLsbD_shiftLeft] at h₀
    simp at h₀
  rw [step_of_msb_eq_false poly hmsb] at hbit
  refine BitVec.eq_of_getLsbD_eq fun i hi ↦ ?_
  rw [BitVec.getLsbD_zero]
  rcases Nat.lt_or_ge (i + 1) w with hlt | hge
  · have hnext := hbit (i + 1)
    rw [BitVec.getLsbD_shiftLeft] at hnext
    simpa [hlt] using hnext
  · rwa [BitVec.msb_eq_getLsbD_last, show w - 1 = i by omega] at hmsb

theorem iterate_step_eq_zero (h : poly.getLsbD 0 = true) {n : ℕ} {x : BitVec w}
    (hx : (step poly)^[n] x = 0#w) : x = 0#w := by
  induction n with
  | zero => exact hx
  | succ n ih =>
    rw [Function.iterate_succ_apply'] at hx
    exact ih (step_eq_zero poly h hx)

/-! ## Shifting in one bit after the other -/

/-- A bit at the top of the register. -/
def topBit (w : ℕ) (b : Bool) : BitVec w := if b then BitVec.twoPow w (w - 1) else 0#w

theorem topBit_xor (a b : Bool) : topBit w (a ^^ b) = topBit w a ^^^ topBit w b := by
  cases a <;> cases b <;> simp [topBit]

/-- The bits go in, first come first served. -/
def shiftIn (x : BitVec w) (bits : List Bool) : BitVec w :=
  bits.foldl (fun x b ↦ step poly (x ^^^ topBit w b)) x

@[simp] theorem shiftIn_nil (x : BitVec w) : shiftIn poly x [] = x := rfl

theorem shiftIn_append (x : BitVec w) (as bs : List Bool) :
    shiftIn poly x (as ++ bs) = shiftIn poly (shiftIn poly x as) bs := List.foldl_append

/-- **Linearity**: the results differ by what the difference of the messages leads to. -/
theorem shiftIn_xor (x y : BitVec w) {as bs : List Bool} (h : as.length = bs.length) :
    shiftIn poly (x ^^^ y) (List.zipWith xor as bs) = shiftIn poly x as ^^^ shiftIn poly y bs := by
  induction as generalizing x y bs with
  | nil =>
    rw [List.length_eq_zero_iff.mp h.symm]
    rfl
  | cons a as ih =>
    cases bs with
    | nil => cases h
    | cons b bs =>
      have hfirst : step poly (x ^^^ y ^^^ topBit w (a ^^ b)) =
          step poly (x ^^^ topBit w a) ^^^ step poly (y ^^^ topBit w b) := by
        rw [← step_xor, topBit_xor]
        congr 1
        rw [BitVec.xor_assoc, BitVec.xor_assoc, ← BitVec.xor_assoc y, BitVec.xor_comm y,
          BitVec.xor_assoc]
      rw [List.zipWith_cons_cons]
      show shiftIn poly (step poly (x ^^^ y ^^^ topBit w (a ^^ b))) _ = _
      rw [hfirst, ih _ _ (Nat.succ.inj h)]
      rfl

/-- Zeros do nothing to an empty register. -/
theorem shiftIn_zeros (n : ℕ) : shiftIn poly 0#w (List.replicate n false) = 0#w := by
  induction n with
  | zero => rfl
  | succ n ih =>
    show shiftIn poly (step poly (0#w ^^^ topBit w false)) (List.replicate n false) = 0#w
    rw [topBit, if_neg Bool.false_ne_true, BitVec.xor_zero, step_zero, ih]

/-- Zeros are plain steps. -/
theorem shiftIn_replicate_false (x : BitVec w) (n : ℕ) :
    shiftIn poly x (List.replicate n false) = (step poly)^[n] x := by
  induction n generalizing x with
  | zero => rfl
  | succ n ih =>
    show shiftIn poly (step poly (x ^^^ topBit w false)) (List.replicate n false) = _
    rw [topBit, if_neg Bool.false_ne_true, BitVec.xor_zero, ih, Function.iterate_succ_apply]

/-- Bits at the top of the register. -/
def top (w : ℕ) : List Bool → BitVec w
  | [] => 0#w
  | b :: bs => topBit w b ^^^ (top w bs >>> 1)

theorem getLsbD_top (bits : List Bool) {i : ℕ} (hi : i < w) :
    (top w bits).getLsbD i = bits.getD (w - 1 - i) false := by
  induction bits generalizing i with
  | nil => simp [top]
  | cons b bs ih =>
    have hbit : (topBit w b).getLsbD i = (b && decide (w - 1 = i)) := by
      cases b with
      | false => simp [topBit]
      | true =>
        rw [topBit, if_pos rfl, BitVec.getLsbD_twoPow]
        simp [show w - 1 < w by omega]
    rw [top, BitVec.getLsbD_xor, hbit, BitVec.getLsbD_ushiftRight]
    rcases Nat.lt_or_ge (1 + i) w with hlt | hge
    · rw [ih hlt, decide_eq_false (by omega), Bool.and_false, Bool.false_xor,
        show w - 1 - i = w - 1 - (1 + i) + 1 by omega, List.getD_cons_succ]
    · rw [BitVec.getLsbD_of_ge _ _ hge, decide_eq_true (by omega),
        show w - 1 - i = 0 by omega, List.getD_cons_zero, Bool.and_true, Bool.xor_false]

/-- As many bits as the register has can be put in at once. -/
theorem shiftIn_eq_iterate (x : BitVec w) {bits : List Bool} (h : bits.length ≤ w) :
    shiftIn poly x bits = (step poly)^[bits.length] (x ^^^ top w bits) := by
  induction bits generalizing x with
  | nil => rw [top, BitVec.xor_zero]; rfl
  | cons b bs ih =>
    rw [List.length_cons] at h
    have hshift : step poly (top w bs >>> 1) = top w bs := by
      have hclear : (top w bs >>> 1).msb = false := by
        rw [BitVec.msb_eq_getLsbD_last, BitVec.getLsbD_ushiftRight]
        exact BitVec.getLsbD_of_ge _ _ (by omega)
      rw [step_of_msb_eq_false poly hclear]
      refine BitVec.eq_of_getLsbD_eq fun i hi ↦ ?_
      rw [BitVec.getLsbD_shiftLeft, BitVec.getLsbD_ushiftRight]
      rcases Nat.eq_zero_or_pos i with rfl | hpos
      · -- the bits do not reach down to the end
        have hzero : (top w bs).getLsbD 0 = false := by
          rw [getLsbD_top bs hi, List.getD_eq_default _ _ (by omega)]
        simp [hzero]
      · simp [hi, show ¬ i < 1 by omega, show 1 + (i - 1) = i by omega]
    show shiftIn poly (step poly (x ^^^ topBit w b)) bs = _
    rw [ih _ (by omega), List.length_cons, Function.iterate_succ_apply, top, ← BitVec.xor_assoc,
      step_xor poly _ (top w bs >>> 1), hshift]

/-- The bits of a word, the most significant one first. -/
def bitsOf {k : ℕ} (b : BitVec k) : List Bool := (List.range k).map fun i ↦ b.getMsbD i

@[simp] theorem length_bitsOf {k : ℕ} (b : BitVec k) : (bitsOf b).length = k := by
  rw [bitsOf, List.length_map, List.length_range]

/-- A word is shifted in bit by bit. -/
theorem feed_eq_shiftIn {k : ℕ} (hk : k ≤ w) (x : BitVec w) (b : BitVec k) :
    feed poly x b = shiftIn poly x (bitsOf b) := by
  rw [shiftIn_eq_iterate poly x (by rw [length_bitsOf]; exact hk), length_bitsOf, feed]
  congr 2
  refine BitVec.eq_of_getLsbD_eq fun i hi ↦ ?_
  rw [getLsbD_top _ hi, BitVec.getLsbD_shiftLeft, BitVec.getLsbD_setWidth, bitsOf]
  rcases Nat.lt_or_ge i (w - k) with hlow | hhigh
  · rw [List.getD_eq_default _ _ (by rw [List.length_map, List.length_range]; omega)]
    simp [hlow]
  · have hindex : w - 1 - i < k := by omega
    rw [List.getD_eq_getElem _ _ (by rw [List.length_map, List.length_range]; exact hindex),
      List.getElem_map, List.getElem_range, BitVec.getMsbD_eq_getLsbD]
    simp [hi, hindex, show ¬ i < w - k by omega, show i - (w - k) < w by omega,
      show k - 1 - (w - 1 - i) = i - (w - k) by omega]

/-! ## What is detected -/

/-- **Bursts are detected**: a difference that is not longer than the register does not vanish. -/
theorem burst_detected (h : poly.getLsbD 0 = true) {burst : List Bool} (hlen : burst.length ≤ w)
    {before after : ℕ}
    (hzero : shiftIn poly 0#w
      (List.replicate before false ++ burst ++ List.replicate after false) = 0#w) :
    ∀ b ∈ burst, b = false := by
  rw [shiftIn_append, shiftIn_append, shiftIn_zeros, shiftIn_replicate_false] at hzero
  have hburst := iterate_step_eq_zero poly h hzero
  rw [shiftIn_eq_iterate poly 0#w hlen, BitVec.zero_xor] at hburst
  have htop := iterate_step_eq_zero poly h hburst
  intro b hb
  obtain ⟨i, hi, rfl⟩ := List.mem_iff_getElem.mp hb
  have hbit := @getLsbD_top w burst (w - 1 - i) (by omega)
  rw [htop, BitVec.getLsbD_zero, show w - 1 - (w - 1 - i) = i by omega,
    List.getD_eq_getElem _ _ hi] at hbit
  exact hbit.symm

/-- Whether an odd number of the lowest `n` bits are set. -/
def parityBelow (x : BitVec w) : ℕ → Bool
  | 0 => false
  | n + 1 => parityBelow x n ^^ x.getLsbD n

/-- Whether an odd number of bits are set. -/
def parity (x : BitVec w) : Bool := parityBelow x w

theorem parityBelow_xor (x y : BitVec w) (n : ℕ) :
    parityBelow (x ^^^ y) n = (parityBelow x n ^^ parityBelow y n) := by
  induction n with
  | zero => rfl
  | succ n ih =>
    rw [parityBelow, parityBelow, parityBelow, ih, BitVec.getLsbD_xor]
    cases parityBelow x n <;> cases parityBelow y n <;> simp

theorem parity_xor (x y : BitVec w) : parity (x ^^^ y) = (parity x ^^ parity y) :=
  parityBelow_xor x y w

theorem parity_zero : parity 0#w = false := by
  have hall : ∀ n, parityBelow 0#w n = false := by
    intro n
    induction n with
    | zero => rfl
    | succ n ih => rw [parityBelow, ih, BitVec.getLsbD_zero]; rfl
  exact hall w

theorem parityBelow_shiftLeft (x : BitVec w) {n : ℕ} (hn : n + 1 ≤ w) :
    parityBelow (x <<< 1) (n + 1) = parityBelow x n := by
  induction n with
  | zero => simp [parityBelow]
  | succ n ih =>
    rw [parityBelow, ih (by omega), parityBelow, BitVec.getLsbD_shiftLeft]
    simp [show n + 1 < w by omega]

/-- The bit that falls out is missing. -/
theorem parity_shiftLeft (x : BitVec w) : parity (x <<< 1) = (parity x ^^ x.msb) := by
  cases w with
  | zero => simp [parity, parityBelow, BitVec.msb_eq_getLsbD_last]
  | succ n =>
    rw [parity, parityBelow_shiftLeft x le_rfl, parity, parityBelow, BitVec.msb_eq_getLsbD_last,
      Nat.add_sub_cancel]
    cases parityBelow x n <;> simp

/-- A polynomial that, with its leading term, has an even number of terms keeps the parity. -/
theorem parity_step (h : parity poly = true) (x : BitVec w) : parity (step poly x) = parity x := by
  rw [step]
  split
  · rename_i hmsb
    rw [parity_xor, parity_shiftLeft, hmsb, h]
    simp
  · rename_i hmsb
    rw [parity_shiftLeft, Bool.eq_false_iff.mpr hmsb, Bool.xor_false]

theorem parity_topBit (hw : 0 < w) (b : Bool) : parity (topBit w b) = b := by
  cases b with
  | false => exact parity_zero
  | true =>
    have hbelow : ∀ n, n < w → parityBelow (BitVec.twoPow w (w - 1)) n = false := by
      intro n hn
      induction n with
      | zero => rfl
      | succ n ih =>
        have hne : w - 1 ≠ n := by omega
        rw [parityBelow, ih (by omega), BitVec.getLsbD_twoPow]
        simp [hne]
    obtain ⟨n, rfl⟩ := Nat.exists_eq_succ_of_ne_zero hw.ne'
    rw [topBit, if_pos rfl, parity, parityBelow, hbelow n (Nat.lt_succ_self n),
      BitVec.getLsbD_twoPow]
    simp

/-- The parity of the register is that of what was shifted in. -/
theorem parity_shiftIn (h : parity poly = true) (hw : 0 < w) (x : BitVec w) (bits : List Bool) :
    parity (shiftIn poly x bits) = (parity x ^^ decide (Odd (bits.count true))) := by
  induction bits generalizing x with
  | nil => simp
  | cons b bs ih =>
    show parity (shiftIn poly (step poly (x ^^^ topBit w b)) bs) = _
    rw [ih, parity_step poly h, parity_xor, parity_topBit hw, List.count_cons]
    cases b with
    | false => simp
    | true =>
      have hodd : decide (Odd (bs.count true + 1)) = !decide (Odd (bs.count true)) := by
        rw [← decide_not, decide_eq_decide]
        exact Nat.odd_add_one
      simp only [beq_self_eq_true, if_true, hodd]
      cases parity x <;> cases decide (Odd (bs.count true)) <;> rfl

/-- **An odd number of errors is detected.** -/
theorem odd_detected (h : parity poly = true) (hw : 0 < w) {bits : List Bool}
    (hodd : Odd (bits.count true)) : shiftIn poly 0#w bits ≠ 0#w := by
  intro hzero
  have hparity := parity_shiftIn poly h hw 0#w bits
  rw [hzero, parity_zero, decide_eq_true hodd] at hparity
  exact absurd hparity (by simp)

end ShiftRegister
