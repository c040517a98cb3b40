import Mathlib.Data.BitVec
import Mathlib.Logic.Function.Iterate

/-!
# Linear feedback shift registers

The register of a cyclic redundancy check of width `w`: it moves left by one bit, and whenever a bit
falls out at the top the generator polynomial `poly` is added in.

What a receiver relies on is the *residue*: feed the register its own content, most significant bits
first, and it runs empty.  The reason is `iterate_step_of_top_clear`: as long as nothing but zeros
falls out, the register is a plain shift.
-/

set_option autoImplicit false

namespace ShiftRegister

variable {w : ℕ} (poly : BitVec w)

/-- One shift of the register. -/
def step (x : BitVec w) : BitVec w := if x.msb then (x <<< 1) ^^^ poly else x <<< 1

theorem step_of_msb_eq_false {x : BitVec w} (h : x.msb = false) : step poly x = x <<< 1 := by
  rw [step, h, if_neg (by decide)]

/-- While the top `n` bits are clear, `n` shifts of the register are shifts. -/
theorem iterate_step_of_top_clear {n : ℕ} {x : BitVec w}
    (h : ∀ i, w ≤ i + n → x.getLsbD i = false) : (step poly)^[n] x = x <<< n := by
  induction n generalizing x with
  | zero => simp
  | succ n ih =>
    have hmsb : x.msb = false := by
      rw [BitVec.msb_eq_getLsbD_last]
      exact h (w - 1) (by omega)
    rw [Function.iterate_succ_apply, step_of_msb_eq_false poly hmsb, ih, ← BitVec.shiftLeft_add,
      Nat.add_comm 1 n]
    intro i hi
    rw [BitVec.getLsbD_shiftLeft]
    rcases Nat.eq_zero_or_pos i with rfl | hpos
    · simp
    · rw [h (i - 1) (by omega), Bool.and_false]

/-- Add `b` at the top of the register and shift it in. -/
def feed {k : ℕ} (x : BitVec w) (b : BitVec k) : BitVec w :=
  (step poly)^[k] (x ^^^ (b.setWidth w <<< (w - k)))

/-- **Residue.**  Feeding the register the top half of itself and then the bottom half leaves it
empty. -/
theorem feed_feed_self {k : ℕ} (x : BitVec (k + k)) (q : BitVec (k + k)) :
    feed q (feed q x ((x >>> k).setWidth k)) (x.setWidth k) = 0 := by
  have htop : ∀ i, k + k ≤ i + k →
      (x ^^^ (((x >>> k).setWidth k).setWidth (k + k) <<< (k + k - k))).getLsbD i = false := by
    intro i hi
    rcases Nat.lt_or_ge i (k + k) with hik | hik
    · have h1 : i - k < k := by omega
      have h2 : k + (i - k) = i := by omega
      simp [hik, h1, h2, show ¬ i < k by omega]
    · exact BitVec.getLsbD_of_ge _ _ hik
  have hfirst : feed q x ((x >>> k).setWidth k) = x <<< k := by
    rw [feed, iterate_step_of_top_clear q htop]
    refine BitVec.eq_of_getLsbD_eq fun i hi ↦ ?_
    simp only [BitVec.getLsbD_shiftLeft, BitVec.getLsbD_xor, hi, decide_true, Bool.true_and]
    rcases Nat.lt_or_ge i k with hik | hik
    · simp [hik]
    · simp [show i - k < k by omega, show i - k < k + k by omega]
  have hempty : x <<< k ^^^ ((x.setWidth k).setWidth (k + k) <<< (k + k - k)) = 0 := by
    refine BitVec.eq_of_getLsbD_eq fun i hi ↦ ?_
    simp only [BitVec.getLsbD_xor, BitVec.getLsbD_shiftLeft, hi, decide_true, Bool.true_and,
      Nat.add_sub_cancel, BitVec.getLsbD_setWidth]
    rcases Nat.lt_or_ge i k with hik | hik
    · simp [hik]
    · simp [show i - k < k by omega, show i - k < k + k by omega]
  rw [hfirst, feed, hempty, iterate_step_of_top_clear q (by simp)]
  simp

end ShiftRegister
