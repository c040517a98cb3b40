import Emcyphal.Lib.Machine
import Emcyphal.Utils.MultiClassQueue
import Mathlib.GroupTheory.Perm.Cycle.Basic

/-!
# A queue of several classes is a family of deques

Whatever is done to a new `MultiClassQueue`, it shows what one list of entries for each class would
show (`run_deques`).  An entry is in at most one list, and an operation that puts it in a list takes
it out of the one it was in.

The links stay a permutation and its inverse.  Each of its cycles is the ring of one class or has no
class in it, because the ring of a class is closed under the permutation.
-/

set_option autoImplicit false

namespace Emcyphal

open Rust Equiv

namespace MultiClassQueue

variable {C E : ℕ} {σ : Perm (Fin (C + E))} {lists : Fin C → List (Fin E)}
  {q : MultiClassQueue C E}

/-! ## The ends of the lists -/

/-- The class whose list the entry is the first of. -/
def headOf (lists : Fin C → List (Fin E)) (e : Fin E) : Option (Fin C) :=
  (List.finRange C).find? fun c ↦ decide ((lists c).head? = some e)

/-- The class whose list the entry is the last of. -/
def lastOf (lists : Fin C → List (Fin E)) (e : Fin E) : Option (Fin C) :=
  (List.finRange C).find? fun c ↦ decide ((lists c).getLast? = some e)

/-- The only class with a property is the one that is found. -/
theorem find?_finRange {p : Fin C → Bool} {c : Fin C} (hc : p c = true)
    (hunique : ∀ c', p c' = true → c' = c) : (List.finRange C).find? p = some c := by
  cases hfind : (List.finRange C).find? p with
  | none =>
    have hnone := List.find?_eq_none.mp hfind c (List.mem_finRange c)
    exact absurd hc hnone
  | some c' => rw [hunique c' (List.find?_some hfind)]

theorem headOf_eq_some (h : Links σ lists) {c : Fin C} {e : Fin E}
    (hc : (lists c).head? = some e) : headOf lists e = some c := by
  refine find?_finRange (decide_eq_true hc) fun c' hc' ↦ ?_
  exact h.disjoint c' c e (List.mem_of_head? (of_decide_eq_true hc')) (List.mem_of_head? hc)

theorem lastOf_eq_some (h : Links σ lists) {c : Fin C} {e : Fin E}
    (hc : (lists c).getLast? = some e) : lastOf lists e = some c := by
  refine find?_finRange (decide_eq_true hc) fun c' hc' ↦ ?_
  exact h.disjoint c' c e (List.mem_of_getLast? (of_decide_eq_true hc')) (List.mem_of_getLast? hc)

theorem headOf_eq_none {e : Fin E} (h : ∀ c, (lists c).head? ≠ some e) : headOf lists e = none :=
  List.find?_eq_none.mpr fun c _ hc ↦ h c (of_decide_eq_true hc)

theorem lastOf_eq_none {e : Fin E} (h : ∀ c, (lists c).getLast? ≠ some e) :
    lastOf lists e = none :=
  List.find?_eq_none.mpr fun c _ hc ↦ h c (of_decide_eq_true hc)

/-- The node in front of an entry is that of a class if the entry is the first of its list. -/
theorem Links.prev_entry (h : Links σ lists) (e : Fin E) :
    (∃ c, headOf lists e = some c ∧ σ.symm (Fin.natAdd C e) = Fin.castAdd E c) ∨
      headOf lists e = none ∧ ∃ e', σ.symm (Fin.natAdd C e) = Fin.natAdd C e' := by
  by_cases hmem : ∃ c, e ∈ lists c
  · obtain ⟨c, hc⟩ := hmem
    obtain ⟨xs, ys, hsplit⟩ := List.append_of_mem hc
    have hpath := h.path c
    rw [hsplit, List.map_append, List.map_cons, Rings.path_append] at hpath
    have hprev := hpath.1.prev_eq
    rw [List.getLast?_map] at hprev
    rcases List.eq_nil_or_concat' xs with rfl | ⟨xs, x, rfl⟩
    · exact .inl ⟨c, headOf_eq_some h (by rw [hsplit]; rfl), hprev⟩
    · rw [List.getLast?_concat] at hprev
      refine .inr ⟨headOf_eq_none fun c' hc' ↦ ?_, x, hprev⟩
      -- `e` would be the first of its list as well
      obtain rfl := h.disjoint c' c e (List.mem_of_head? hc') hc
      have hnodup := h.nodup c'
      rw [hsplit] at hc' hnodup
      cases xs with
      | nil =>
        obtain rfl := Option.some.inj hc'
        simp at hnodup
      | cons x' xs =>
        obtain rfl := Option.some.inj hc'
        simp at hnodup
  · have hfree : ∀ c, e ∉ lists c := fun c hc ↦ hmem ⟨c, hc⟩
    refine .inr ⟨headOf_eq_none fun c hc ↦ hfree c (List.mem_of_head? hc), e, ?_⟩
    rw [σ.symm_apply_eq, h.unlinked e hfree]

/-- The node behind an entry is that of a class if the entry is the last of its list. -/
theorem Links.next_entry (h : Links σ lists) (e : Fin E) :
    (∃ c, lastOf lists e = some c ∧ σ (Fin.natAdd C e) = Fin.castAdd E c) ∨
      lastOf lists e = none ∧ ∃ e', σ (Fin.natAdd C e) = Fin.natAdd C e' := by
  by_cases hmem : ∃ c, e ∈ lists c
  · obtain ⟨c, hc⟩ := hmem
    obtain ⟨xs, ys, hsplit⟩ := List.append_of_mem hc
    have hpath := h.path c
    rw [hsplit, List.map_append, List.map_cons, Rings.path_append] at hpath
    have hnext := hpath.2.next_eq
    cases ys with
    | nil => exact .inl ⟨c, lastOf_eq_some h (by rw [hsplit, List.getLast?_concat]), hnext⟩
    | cons y ys =>
      refine .inr ⟨lastOf_eq_none fun c' hc' ↦ ?_, y, hnext⟩
      obtain rfl := h.disjoint c' c e (List.mem_of_getLast? hc') hc
      have hnodup := h.nodup c'
      rw [hsplit] at hc' hnodup
      rw [List.getLast?_append_of_ne_nil _ (by simp), List.getLast?_cons_cons] at hc'
      have hlast := List.mem_of_getLast? hc'
      exact (List.nodup_cons.mp (List.nodup_append'.mp hnodup).2.1).1 hlast
  · have hfree : ∀ c, e ∉ lists c := fun c hc ↦ hmem ⟨c, hc⟩
    exact .inr ⟨lastOf_eq_none fun c hc ↦ hfree c (List.mem_of_getLast? hc), e,
      h.unlinked e hfree⟩

theorem isFront_eq (h : Represents q lists) (e : Fin E) :
    q.isFront e = .ok ((headOf lists e).map Fin.val) := by
  obtain ⟨σ, hnodes, hlinks⟩ := h
  have hprev := MultiCycleList.prev_ofLinks σ σ.symm (Fin.natAdd C e)
  rw [isFront, assert_pos e.isLt, ok_bind, hnodes, ← Fin.val_natAdd C e, MultiCycleList.ofPerm,
    hprev, ok_bind, pure_eq_ok]
  rcases hlinks.prev_entry e with ⟨c, hhead, heq⟩ | ⟨hhead, e', heq⟩
  · rw [heq, hhead, Fin.val_castAdd, if_pos c.isLt]
    rfl
  · rw [heq, hhead, Fin.val_natAdd, if_neg (Nat.not_lt.mpr (Nat.le_add_right C e'))]
    rfl

theorem isBack_eq (h : Represents q lists) (e : Fin E) :
    q.isBack e = .ok ((lastOf lists e).map Fin.val) := by
  obtain ⟨σ, hnodes, hlinks⟩ := h
  have hnext := MultiCycleList.next_ofLinks σ σ.symm (Fin.natAdd C e)
  rw [isBack, assert_pos e.isLt, ok_bind, hnodes, ← Fin.val_natAdd C e, MultiCycleList.ofPerm,
    hnext, ok_bind, pure_eq_ok]
  rcases hlinks.next_entry e with ⟨c, hlast, heq⟩ | ⟨hlast, e', heq⟩
  · rw [heq, hlast, Fin.val_castAdd, if_pos c.isLt]
    rfl
  · rw [heq, hlast, Fin.val_natAdd, if_neg (Nat.not_lt.mpr (Nat.le_add_right C e'))]
    rfl

/-! ## Cycles -/

/-- Following the successors one stays in the ring of a class. -/
theorem Links.pow_mem (h : Links σ lists) (c : Fin C) (n : ℕ) :
    (σ ^ n) (Fin.castAdd E c) ∈ Fin.castAdd E c :: (lists c).map (Fin.natAdd C) := by
  induction n with
  | zero => exact List.mem_cons_self
  | succ n ih =>
    rw [pow_succ', Perm.mul_apply]
    rcases (h.path c).next_mem ih with hmem | heq
    · exact List.mem_cons_of_mem _ hmem
    · rw [heq]
      exact List.mem_cons_self

/-- A cycle contains at most one class. -/
theorem Links.class_unique (h : Links σ lists) {c c' : Fin C}
    (hcycle : σ.SameCycle (Fin.castAdd E c) (Fin.castAdd E c')) : c = c' := by
  obtain ⟨n, -, hn⟩ := hcycle.exists_pow_eq'
  have hmem := h.pow_mem c n
  rw [hn, List.mem_cons] at hmem
  rcases hmem with heq | hmem
  · exact (Fin.castAdd_injective C E heq).symm
  · obtain ⟨e, -, he⟩ := List.mem_map.mp hmem
    exact absurd he.symm (castAdd_ne_natAdd c' e)

/-! ## Runs -/

/-- The operations that change a queue. -/
inductive Op (C E : ℕ)
  | remove (entry : Fin E)
  | moveFront (cls : Fin C) (entry : Fin E)
  | moveBack (cls : Fin C) (entry : Fin E)

def step (q : MultiClassQueue C E) : Op C E → Exec (MultiClassQueue C E × Unit)
  | .remove entry => do return (← q.remove entry, ())
  | .moveFront cls entry => do return (← q.moveFront cls entry, ())
  | .moveBack cls entry => do return (← q.moveBack cls entry, ())

/-- What an operation does to the lists. -/
def apply (lists : Fin C → List (Fin E)) : Op C E → Fin C → List (Fin E)
  | .remove entry => erase lists entry
  | .moveFront cls entry =>
    Function.update (erase lists entry) cls (entry :: erase lists entry cls)
  | .moveBack cls entry =>
    Function.update (erase lists entry) cls (erase lists entry cls ++ [entry])

theorem step_represents (h : Represents q lists) (op : Op C E) :
    ∃ q', step q op = .ok (q', ()) ∧ Represents q' (apply lists op) := by
  cases op with
  | remove entry =>
    obtain ⟨q', hremove, hq'⟩ := remove_represents h entry
    exact ⟨q', by rw [step, hremove]; rfl, hq'⟩
  | moveFront cls entry =>
    obtain ⟨q', hmove, hq'⟩ := moveFront_represents h cls entry
    exact ⟨q', by rw [step, hmove]; rfl, hq'⟩
  | moveBack cls entry =>
    obtain ⟨q', hmove, hq'⟩ := moveBack_represents h cls entry
    exact ⟨q', by rw [step, hmove]; rfl, hq'⟩

/-- The queue shows what the lists would show. -/
structure Agrees (q : MultiClassQueue C E) (lists : Fin C → List (Fin E)) : Prop where
  front : ∀ c : Fin C, q.front c = .ok ((lists c).head?.map Fin.val)
  back : ∀ c : Fin C, q.back c = .ok ((lists c).getLast?.map Fin.val)
  isEmpty : ∀ c : Fin C, q.isEmpty c = .ok (lists c).isEmpty
  isFront : ∀ e : Fin E, q.isFront e = .ok ((headOf lists e).map Fin.val)
  isBack : ∀ e : Fin E, q.isBack e = .ok ((lastOf lists e).map Fin.val)
  nodup : ∀ c, (lists c).Nodup
  disjoint : ∀ c c' e, e ∈ lists c → e ∈ lists c' → c = c'
  /-- The links are mutually inverse permutations, with at most one class in a cycle. -/
  links : ∃ σ : Perm (Fin (C + E)), (∀ i : Fin (C + E), q.nodes.next i = .ok (σ i).val) ∧
    (∀ i : Fin (C + E), q.nodes.prev i = .ok (σ.symm i).val) ∧
    ∀ c c', σ.SameCycle (Fin.castAdd E c) (Fin.castAdd E c') → c = c'

theorem Represents.agrees (h : Represents q lists) : Agrees q lists where
  front := front_eq h
  back := back_eq h
  isEmpty := isEmpty_eq h
  isFront := isFront_eq h
  isBack := isBack_eq h
  nodup := h.links.1
  disjoint := h.links.2
  links := by
    obtain ⟨σ, hnodes, hlinks⟩ := h
    refine ⟨σ, fun i ↦ ?_, fun i ↦ ?_, fun c c' ↦ hlinks.class_unique⟩
    · rw [hnodes]
      exact MultiCycleList.next_ofLinks σ σ.symm i
    · rw [hnodes]
      exact MultiCycleList.prev_ofLinks σ σ.symm i

/-- **A `MultiClassQueue` is a family of disjoint deques**, after every sequence of operations. -/
theorem run_deques (h : C + E ≤ 256) (ops : List (Op C E)) :
    ∃ q q' us, new C E = .ok q ∧ run step q ops = .ok (q', us) ∧
      Agrees q' (ops.foldl apply fun _ ↦ []) := by
  obtain ⟨q, hnew, hq⟩ := new_represents h
  have hstep : ∀ (lists : Fin C → List (Fin E)) (q : MultiClassQueue C E) (op : Op C E),
      Represents q lists → True →
        ∃ q' u, step q op = .ok (q', u) ∧ Represents q' (apply lists op) := by
    intro lists q op hq _
    obtain ⟨q', hop, hq'⟩ := step_represents hq op
    exact ⟨q', (), hop, hq'⟩
  obtain ⟨q', us, hrun, hq'⟩ := @run_of_inputs _ _ _ step _ apply (fun _ _ ↦ True)
    (fun lists q ↦ Represents q lists) hstep _ q hq ops (.of_forall (fun _ _ ↦ trivial) q ops)
  exact ⟨q, q', us, hnew, hrun, hq'.agrees⟩

/-- An entry that is put in another class, and one that is put next to itself. -/
theorem run_deques_moves : ∃ q q' us, new 2 3 = .ok q ∧
    run step q [.moveBack 0 1, .moveFront 0 2, .moveFront 0 2, .moveBack 1 1] = .ok (q', us) ∧
    Agrees q' ([.moveBack 0 1, .moveFront 0 2, .moveFront 0 2, .moveBack 1 1].foldl apply
      fun _ ↦ []) :=
  run_deques (by decide) _

end MultiClassQueue

end Emcyphal
