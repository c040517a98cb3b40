import Mathlib.Algebra.Group.End
import Mathlib.Data.List.Nodup
import Mathlib.Logic.Equiv.Basic

/-!
# Circular doubly linked lists

Nodes that are linked into rings, each with a successor and a predecessor, are a permutation: the
successor is `σ` and the predecessor is its inverse.  A node that is not linked is a ring of its
own.  Unlinking a node and linking it next to another one are products with a transposition.

A ring is read off from one of its nodes, its head: `Path σ h xs h` says that following the
successors from `h` one meets `xs` and then `h` again.  `path_unbind`, `path_insertAfter` and
`path_insertBefore` say what the operations do to the list read off from a head, and `path_congr`
that they do nothing to the other rings.
-/

set_option autoImplicit false

namespace Rust.Rings

open Equiv

universe u

variable {ι : Type u}

/-- Following the successors from `a`, one meets `xs` and then `b`. -/
def Path (σ : Perm ι) : ι → List ι → ι → Prop
  | a, [], b => σ a = b
  | a, x :: xs, b => σ a = x ∧ Path σ x xs b

variable {σ τ : Perm ι} {a b c h x : ι} {xs ys : List ι}

@[simp] theorem path_nil : Path σ a [] b ↔ σ a = b := Iff.rfl

@[simp] theorem path_cons : Path σ a (x :: xs) b ↔ σ a = x ∧ Path σ x xs b := Iff.rfl

theorem path_append : Path σ a (xs ++ x :: ys) b ↔ Path σ a xs x ∧ Path σ x ys b := by
  induction xs generalizing a with
  | nil => simp
  | cons y xs ih => rw [List.cons_append, path_cons, path_cons, ih, and_assoc]

/-- A path only depends on the successors of its nodes. -/
theorem path_congr (hp : Path σ a xs b) (hτ : ∀ y ∈ a :: xs, τ y = σ y) : Path τ a xs b := by
  induction xs generalizing a with
  | nil => exact (hτ a (by simp)).trans hp
  | cons x xs ih =>
    obtain ⟨hx, hp⟩ := hp
    exact ⟨(hτ a (by simp)).trans hx, ih hp fun y hy ↦ hτ y (List.mem_cons_of_mem a hy)⟩

/-- Redirecting the last link of a path. -/
theorem path_redirect (hp : Path σ a xs b) (hb : b ∉ xs) (hτ : ∀ y ∈ a :: xs, σ y ≠ b → τ y = σ y)
    (hc : ∀ y, σ y = b → τ y = c) : Path τ a xs c := by
  induction xs generalizing a with
  | nil => exact hc a hp
  | cons x xs ih =>
    obtain ⟨hx, hp⟩ := hp
    obtain ⟨hbx, hb⟩ := not_or.mp (mt List.mem_cons.mpr hb)
    have hne : σ a ≠ b := by rw [hx]; exact fun h ↦ hbx h.symm
    exact ⟨(hτ a (by simp) hne).trans hx, ih hp hb fun y hy ↦ hτ y (List.mem_cons_of_mem a hy)⟩

/-- A ring is closed under successors. -/
theorem Path.next_mem (hp : Path σ a xs b) {y : ι} (hy : y ∈ a :: xs) : σ y ∈ xs ∨ σ y = b := by
  induction xs generalizing a with
  | nil =>
    rw [List.mem_singleton] at hy
    exact .inr (hy ▸ hp)
  | cons x xs ih =>
    obtain ⟨hx, hp⟩ := hp
    rcases List.mem_cons.mp hy with rfl | hy
    · exact .inl (hx ▸ List.mem_cons_self)
    · exact (ih hp hy).imp_left (List.mem_cons_of_mem x)

/-- The first node after the head. -/
theorem Path.next_eq (hp : Path σ a xs b) : σ a = xs.head?.getD b := by
  cases xs with
  | nil => exact hp
  | cons x xs => exact hp.1

/-- The last node before the head. -/
theorem Path.prev_eq (hp : Path σ a xs b) : σ.symm b = xs.getLast?.getD a := by
  rcases List.eq_nil_or_concat' xs with rfl | ⟨ys, y, rfl⟩
  · rw [List.getLast?_nil, Option.getD_none, σ.symm_apply_eq]
    exact hp.symm
  · rw [List.getLast?_concat, Option.getD_some, σ.symm_apply_eq]
    exact (path_append.mp hp).2.symm

variable [DecidableEq ι]

/-- Unlinks a node. -/
def unbind (σ : Perm ι) (x : ι) : Perm ι := σ * swap x (σ.symm x)

/-- Links a node behind another one. -/
def insertAfter (σ : Perm ι) (x h : ι) : Perm ι := unbind σ x * swap x h

/-- Links a node in front of another one. -/
def insertBefore (σ : Perm ι) (x h : ι) : Perm ι :=
  unbind σ x * swap x ((unbind σ x).symm h)

theorem unbind_apply (σ : Perm ι) (x y : ι) :
    unbind σ x y = if y = x then x else if y = σ.symm x then σ x else σ y := by
  rw [unbind, Perm.mul_apply, swap_apply_def]
  split_ifs with h h'
  · rw [σ.apply_symm_apply]
  · rfl
  · rfl

theorem mul_swap_symm (σ : Perm ι) (x c y : ι) : (σ * swap x c).symm y =
    if y = σ x then c else if y = σ c then x else σ.symm y := by
  rw [Perm.mul_def, symm_trans_apply, symm_swap, swap_apply_def]
  simp only [σ.symm_apply_eq]

theorem unbind_symm_apply (σ : Perm ι) (x y : ι) : (unbind σ x).symm y =
    if y = σ x then σ.symm x else if y = x then x else σ.symm y := by
  rw [unbind, mul_swap_symm, σ.apply_symm_apply]

@[simp] theorem unbind_self (σ : Perm ι) (x : ι) : unbind σ x x = x := by
  rw [unbind_apply, if_pos rfl]

/-- Unlinking a node of a ring. -/
theorem path_unbind (hp : Path σ h (xs ++ x :: ys) h) (hnodup : (h :: (xs ++ x :: ys)).Nodup) :
    Path (unbind σ x) h (xs ++ ys) h := by
  obtain ⟨hhead, htail⟩ := List.nodup_cons.mp hnodup
  obtain ⟨hxs, hxys, hdisj⟩ := List.nodup_append'.mp htail
  obtain ⟨hx, hys⟩ := List.nodup_cons.mp hxys
  have hhx : h ≠ x := fun he ↦ hhead (by simp [he])
  have hxxs : x ∉ xs := fun he ↦ hdisj he List.mem_cons_self
  obtain ⟨hfirst, hsecond⟩ := path_append.mp hp
  -- the link in front of `x` is the only one that changes, apart from that of `x`
  have hback : Path (unbind σ x) h xs (σ x) := by
    refine path_redirect hfirst hxxs (fun y hy hne ↦ ?_) fun y hy ↦ ?_
    · have hyx : y ≠ x := by
        rintro rfl
        rcases List.mem_cons.mp hy with he | he
        · exact hhx he.symm
        · exact hxxs he
      rw [unbind_apply, if_neg hyx, if_neg fun he ↦ hne (by rw [he, σ.apply_symm_apply])]
    · have hyx : y ≠ x := by
        rintro rfl
        have hself := hsecond.next_eq
        rw [hy] at hself
        cases ys with
        | nil => exact hhx hself.symm
        | cons z zs => exact hx (by rw [List.head?_cons, Option.getD_some] at hself; simp [hself])
      rw [unbind_apply, if_neg hyx, if_pos (σ.eq_symm_apply.mpr hy)]
  cases ys with
  | nil =>
    rw [List.append_nil]
    rwa [show σ x = h from hsecond] at hback
  | cons y ys =>
    obtain ⟨hy, hrest⟩ := hsecond
    rw [hy] at hback
    refine path_append.mpr ⟨hback, path_congr hrest fun z hz ↦ ?_⟩
    have hzx : z ≠ x := fun he ↦ hx (he ▸ hz)
    have hzp : z ≠ σ.symm x := by
      intro he
      rcases hrest.next_mem hz with hmem | hmem
      · rw [he, σ.apply_symm_apply] at hmem
        exact hx (List.mem_cons_of_mem y hmem)
      · rw [he, σ.apply_symm_apply] at hmem
        exact hhx hmem.symm
    rw [unbind_apply, if_neg hzx, if_neg hzp]

/-- A ring without the node stays as it is. -/
theorem path_unbind_of_not_mem (hp : Path σ h xs h) (hx : x ∉ h :: xs) :
    Path (unbind σ x) h xs h := by
  refine path_congr hp fun y hy ↦ ?_
  have hyx : y ≠ x := fun he ↦ hx (he ▸ hy)
  have hyp : y ≠ σ.symm x := by
    intro he
    have hmem := hp.next_mem hy
    rw [he, σ.apply_symm_apply] at hmem
    rcases hmem with hmem | hmem
    · exact hx (List.mem_cons_of_mem h hmem)
    · exact hx (hmem ▸ List.mem_cons_self)
  rw [unbind_apply, if_neg hyx, if_neg hyp]

/-- Linking a node that is not linked, behind `c`. -/
theorem mul_swap_apply (hx : σ x = x) (y : ι) :
    (σ * swap x c) y = if y = x then σ c else if y = c then x else σ y := by
  rw [Perm.mul_apply, swap_apply_def]
  split_ifs <;> first | rfl | exact hx

theorem mul_swap_symm_apply (hx : σ x = x) (y : ι) : (σ * swap x c).symm y =
    if y = x then c else if y = σ c then x else σ.symm y := by
  rw [mul_swap_symm, hx]

theorem path_mul_swap_of_not_mem (hx : σ x = x) (hp : Path σ h xs h) (hxh : x ∉ h :: xs)
    (hc : c ∉ h :: xs) : Path (σ * swap x c) h xs h := by
  refine path_congr hp fun y hy ↦ ?_
  have hyx : y ≠ x := fun he ↦ hxh (he ▸ hy)
  have hyc : y ≠ c := fun he ↦ hc (he ▸ hy)
  rw [mul_swap_apply hx, if_neg hyx, if_neg hyc]

/-- Linking a node behind the head of a ring. -/
theorem path_mul_swap_head (hx : σ x = x) (hp : Path σ h xs h) (hnodup : (h :: xs).Nodup)
    (hxh : x ∉ h :: xs) : Path (σ * swap x h) h (x :: xs) h := by
  have hne : h ≠ x := fun he ↦ hxh (he ▸ List.mem_cons_self)
  refine ⟨by rw [mul_swap_apply hx, if_neg hne, if_pos rfl], ?_⟩
  cases xs with
  | nil =>
    rw [path_nil, mul_swap_apply hx, if_pos rfl]
    exact hp
  | cons y ys =>
    obtain ⟨hy, hrest⟩ := hp
    refine ⟨by rw [mul_swap_apply hx, if_pos rfl, hy], path_congr hrest fun z hz ↦ ?_⟩
    have hzx : z ≠ x := fun he ↦ hxh (List.mem_cons_of_mem h (he ▸ hz))
    have hzh : z ≠ h := fun he ↦ (List.nodup_cons.mp hnodup).1 (he ▸ hz)
    rw [mul_swap_apply hx, if_neg hzx, if_neg hzh]

/-- Linking a node behind the last one of a ring. -/
theorem path_mul_swap_last (hx : σ x = x) (hp : Path σ h xs h) (hnodup : (h :: xs).Nodup)
    (hxh : x ∉ h :: xs) : Path (σ * swap x (σ.symm h)) h (xs ++ [x]) h := by
  have hhx : h ≠ x := fun he ↦ hxh (he ▸ List.mem_cons_self)
  refine path_append.mpr ⟨path_redirect hp (List.nodup_cons.mp hnodup).1 (fun y hy hne ↦ ?_)
    fun y hy ↦ ?_, ?_⟩
  · have hyx : y ≠ x := fun he ↦ hxh (he ▸ hy)
    have hyc : y ≠ σ.symm h := fun he ↦ hne (by rw [he, σ.apply_symm_apply])
    rw [mul_swap_apply hx, if_neg hyx, if_neg hyc]
  · have hyx : y ≠ x := by
      rintro rfl
      exact hhx (hy.symm.trans hx)
    rw [mul_swap_apply hx, if_neg hyx, if_pos (σ.eq_symm_apply.mpr hy)]
  · rw [path_nil, mul_swap_apply hx, if_pos rfl, σ.apply_symm_apply]

end Rust.Rings
