import Mathlib.Data.List.OfFn
import Mathlib.Data.Fin.Basic
import Emcyphal.Lib.Exec
import Emcyphal.Lib.Rings

/-!
# Queues of several classes over one array

`emcyphal/src/utils/multi_class_queue.rs`.  Every class and every entry is a node of one array of
links; the entries of a class are the ring that starts at the node of the class.

`Represents` ties the links to one list of entries for each class, each entry in at most one of
them, and there is one lemma for each operation.
-/

set_option autoImplicit false

namespace Emcyphal

open Rust Equiv

structure Node where
  next : ℕ
  prev : ℕ

/-- `u8::try_from`. -/
def u8TryFrom (n : ℕ) : Option ℕ := if n < 256 then some n else none

/-- `a.checked_sub(b)`. -/
def checkedSub (a b : ℕ) : Option ℕ := if b ≤ a then some (a - b) else none

/-! ## Rings of nodes -/

structure MultiCycleList where
  nodes : List Node

namespace MultiCycleList

/-- A list of `n` nodes, none of them linked. -/
def new (n : ℕ) : Exec MultiCycleList := do
  let nodes ← (List.range n).mapM fun i ↦ do
    let node ← unwrap (u8TryFrom i)
    return (⟨node, node⟩ : Node)
  return ⟨nodes⟩

def next (l : MultiCycleList) (node : ℕ) : Exec ℕ := do return (← index l.nodes node).next

def prev (l : MultiCycleList) (node : ℕ) : Exec ℕ := do return (← index l.nodes node).prev

/-- `self.nodes[node].next = value`. -/
def setNext (l : MultiCycleList) (node value : ℕ) : Exec MultiCycleList := do
  let n ← index l.nodes node
  return ⟨← assign l.nodes node { n with next := value }⟩

/-- `self.nodes[node].prev = value`. -/
def setPrev (l : MultiCycleList) (node value : ℕ) : Exec MultiCycleList := do
  let n ← index l.nodes node
  return ⟨← assign l.nodes node { n with prev := value }⟩

def unbind (l : MultiCycleList) (node : ℕ) : Exec MultiCycleList := do
  let next ← l.next node
  let prev ← l.prev node
  let l ← l.setPrev node node
  let l ← l.setNext node node
  let l ← l.setPrev next prev
  l.setNext prev next

def moveAfter (l : MultiCycleList) (node prev : ℕ) : Exec MultiCycleList := do
  let l ← l.unbind node
  let next ← l.next prev
  let l ← l.setNext node next
  let l ← l.setPrev node prev
  let l ← l.setPrev next node
  l.setNext prev node

def moveBefore (l : MultiCycleList) (node next : ℕ) : Exec MultiCycleList := do
  let l ← l.unbind node
  let prev ← l.prev next
  let l ← l.setNext node next
  let l ← l.setPrev node prev
  let l ← l.setPrev next node
  l.setNext prev node

/-! ### The links as a permutation -/

variable {n : ℕ}

/-- The list with these links. -/
def ofLinks (next prev : Fin n → Fin n) : MultiCycleList :=
  ⟨List.ofFn fun i ↦ ⟨next i, prev i⟩⟩

variable (f g : Fin n → Fin n) (i j : Fin n)

theorem getElem?_ofLinks : (ofLinks f g).nodes[i.val]? = some ⟨f i, g i⟩ := by
  rw [ofLinks, List.getElem?_ofFn, dif_pos i.isLt]

@[simp] theorem next_ofLinks : (ofLinks f g).next i = .ok (f i).val := by
  rw [next, index_of_getElem? (getElem?_ofLinks f g i), ok_bind, pure_eq_ok]

@[simp] theorem prev_ofLinks : (ofLinks f g).prev i = .ok (g i).val := by
  rw [prev, index_of_getElem? (getElem?_ofLinks f g i), ok_bind, pure_eq_ok]

theorem set_ofFn {α : Type} (h : Fin n → α) (a : α) :
    (List.ofFn h).set i a = List.ofFn (Function.update h i a) := by
  refine List.ext_getElem (by simp) fun k hk hk' ↦ ?_
  have hkn : k < n := by simpa using hk'
  rw [List.getElem_set, List.getElem_ofFn, List.getElem_ofFn, Function.update_apply]
  simp only [Fin.ext_iff, eq_comm]

@[simp] theorem setNext_ofLinks :
    (ofLinks f g).setNext i j = .ok (ofLinks (Function.update f i j) g) := by
  have hlen : i.val < (ofLinks f g).nodes.length := by simp [ofLinks]
  rw [setNext, index_of_getElem? (getElem?_ofLinks f g i), ok_bind, assign_of_lt hlen, ok_bind,
    ofLinks, set_ofFn, pure_eq_ok, ofLinks]
  congr 3
  funext k
  rw [Function.update_apply, Function.update_apply]
  split_ifs with h
  · rw [h]
  · rfl

@[simp] theorem setPrev_ofLinks :
    (ofLinks f g).setPrev i j = .ok (ofLinks f (Function.update g i j)) := by
  have hlen : i.val < (ofLinks f g).nodes.length := by simp [ofLinks]
  rw [setPrev, index_of_getElem? (getElem?_ofLinks f g i), ok_bind, assign_of_lt hlen, ok_bind,
    ofLinks, set_ofFn, pure_eq_ok, ofLinks]
  congr 3
  funext k
  rw [Function.update_apply, Function.update_apply]
  split_ifs with h
  · rw [h]
  · rfl

/-- The list whose links are a permutation and its inverse. -/
def ofPerm (σ : Perm (Fin n)) : MultiCycleList := ofLinks σ σ.symm

theorem new_eq (h : n ≤ 256) : new n = .ok (ofPerm (1 : Perm (Fin n))) := by
  have hnodes : ((List.range n).mapM fun i ↦ do
      let node ← unwrap (u8TryFrom i)
      return (⟨node, node⟩ : Node)) = (.ok ((List.range n).map fun i ↦ ⟨i, i⟩) :
      Exec (List Node)) :=
    mapM_eq_ok fun i hi ↦ by
      rw [u8TryFrom, if_pos (lt_of_lt_of_le (List.mem_range.mp hi) h)]
      rfl
  rw [new, hnodes, ok_bind, pure_eq_ok, ofPerm, ofLinks]
  congr 2
  refine List.ext_getElem (by simp) fun k hk hk' ↦ ?_
  rw [List.getElem_map, List.getElem_range, List.getElem_ofFn]
  rfl

variable (σ : Perm (Fin n))

theorem unbind_ofPerm : (ofPerm σ).unbind i = .ok (ofPerm (Rings.unbind σ i)) := by
  simp only [unbind, ofPerm, next_ofLinks, prev_ofLinks, setPrev_ofLinks, setNext_ofLinks, ok_bind]
  congr 2
  · funext k
    simp only [Function.update_apply, Rings.unbind_apply]
    grind [Equiv.apply_symm_apply, Equiv.symm_apply_apply]
  · funext k
    simp only [Function.update_apply, Rings.unbind_symm_apply]

theorem moveAfter_ofPerm (h : i ≠ j) :
    (ofPerm σ).moveAfter i j = .ok (ofPerm (Rings.insertAfter σ i j)) := by
  rw [moveAfter, unbind_ofPerm, ok_bind, Rings.insertAfter]
  have hi := Rings.unbind_self σ i
  generalize Rings.unbind σ i = τ at hi
  have hne : τ j ≠ i := fun he ↦ h (τ.injective (hi.trans he.symm))
  simp only [ofPerm, next_ofLinks, setPrev_ofLinks, setNext_ofLinks, ok_bind]
  congr 2
  · funext k
    simp only [Function.update_apply, Rings.mul_swap_apply hi]
    grind [Equiv.apply_symm_apply, Equiv.symm_apply_apply]
  · funext k
    simp only [Function.update_apply, Rings.mul_swap_symm_apply hi]
    grind [Equiv.apply_symm_apply, Equiv.symm_apply_apply]

theorem moveBefore_ofPerm (h : i ≠ j) :
    (ofPerm σ).moveBefore i j = .ok (ofPerm (Rings.insertBefore σ i j)) := by
  rw [moveBefore, unbind_ofPerm, ok_bind, Rings.insertBefore]
  have hi := Rings.unbind_self σ i
  generalize Rings.unbind σ i = τ at hi
  have hne : τ.symm j ≠ i := fun he ↦ h (by rw [← hi, ← he, τ.apply_symm_apply])
  simp only [ofPerm, prev_ofLinks, setPrev_ofLinks, setNext_ofLinks, ok_bind]
  congr 2
  · funext k
    simp only [Function.update_apply, Rings.mul_swap_apply hi]
    grind [Equiv.apply_symm_apply, Equiv.symm_apply_apply]
  · funext k
    simp only [Function.update_apply, Rings.mul_swap_symm_apply hi]
    grind [Equiv.apply_symm_apply, Equiv.symm_apply_apply]

end MultiCycleList

/-! ## Queues -/

structure MultiClassQueue (CLASS_COUNT ENTRY_COUNT : ℕ) where
  nodes : MultiCycleList

namespace MultiClassQueue

variable {C E : ℕ}

def new (C E : ℕ) : Exec (MultiClassQueue C E) := do return ⟨← MultiCycleList.new (C + E)⟩

def front (q : MultiClassQueue C E) (cls : ℕ) : Exec (Option ℕ) := do
  assert (cls < C)
  return checkedSub (← q.nodes.next cls) C

def back (q : MultiClassQueue C E) (cls : ℕ) : Exec (Option ℕ) := do
  assert (cls < C)
  return checkedSub (← q.nodes.prev cls) C

def isEmpty (q : MultiClassQueue C E) (cls : ℕ) : Exec Bool := do
  assert (cls < C)
  return (← q.front cls).isNone

def isFront (q : MultiClassQueue C E) (entry : ℕ) : Exec (Option ℕ) := do
  assert (entry < E)
  let prev ← q.nodes.prev (C + entry)
  return if prev < C then some prev else none

def isBack (q : MultiClassQueue C E) (entry : ℕ) : Exec (Option ℕ) := do
  assert (entry < E)
  let next ← q.nodes.next (C + entry)
  return if next < C then some next else none

def remove (q : MultiClassQueue C E) (entry : ℕ) : Exec (MultiClassQueue C E) := do
  assert (entry < E)
  return ⟨← q.nodes.unbind (C + entry)⟩

def moveFront (q : MultiClassQueue C E) (cls entry : ℕ) : Exec (MultiClassQueue C E) := do
  assert (cls < C)
  assert (entry < E)
  return ⟨← q.nodes.moveAfter (C + entry) cls⟩

def moveBack (q : MultiClassQueue C E) (cls entry : ℕ) : Exec (MultiClassQueue C E) := do
  assert (cls < C)
  assert (entry < E)
  return ⟨← q.nodes.moveBefore (C + entry) cls⟩

/-! ### One list for each class -/

/-- The links `σ` hold these lists: the ring of a class is its list, and an entry in no list is not
linked. -/
structure Links (σ : Perm (Fin (C + E))) (lists : Fin C → List (Fin E)) : Prop where
  path : ∀ c, Rings.Path σ (Fin.castAdd E c) ((lists c).map (Fin.natAdd C)) (Fin.castAdd E c)
  nodup : ∀ c, (lists c).Nodup
  disjoint : ∀ c c' e, e ∈ lists c → e ∈ lists c' → c = c'
  unlinked : ∀ e, (∀ c, e ∉ lists c) → σ (Fin.natAdd C e) = Fin.natAdd C e

/-- What a queue holds. -/
def Represents (q : MultiClassQueue C E) (lists : Fin C → List (Fin E)) : Prop :=
  ∃ σ, q.nodes = .ofPerm σ ∧ Links σ lists

/-- The lists once an entry is removed. -/
def erase (lists : Fin C → List (Fin E)) (e : Fin E) : Fin C → List (Fin E) :=
  fun c ↦ (lists c).erase e

variable {σ : Perm (Fin (C + E))} {lists : Fin C → List (Fin E)} {q : MultiClassQueue C E}

theorem castAdd_ne_natAdd (c : Fin C) (e : Fin E) : Fin.castAdd E c ≠ Fin.natAdd C e := by
  intro h
  have := congrArg Fin.val h
  simp only [Fin.val_castAdd, Fin.val_natAdd] at this
  omega

theorem natAdd_mem {c : Fin C} {e : Fin E} {l : List (Fin E)} :
    Fin.natAdd C e ∈ Fin.castAdd E c :: l.map (Fin.natAdd C) ↔ e ∈ l := by
  rw [List.mem_cons, List.mem_map_of_injective (Fin.natAdd_injective E C)]
  exact or_iff_right (castAdd_ne_natAdd c e).symm

theorem Links.ring_nodup (h : Links σ lists) (c : Fin C) :
    (Fin.castAdd E c :: (lists c).map (Fin.natAdd C)).Nodup := by
  refine List.nodup_cons.mpr ⟨fun hmem ↦ ?_, (h.nodup c).map (Fin.natAdd_injective E C)⟩
  obtain ⟨e, -, he⟩ := List.mem_map.mp hmem
  exact castAdd_ne_natAdd c e he.symm

theorem links_one : Links (1 : Perm (Fin (C + E))) fun _ ↦ [] :=
  ⟨fun _ ↦ rfl, fun _ ↦ List.nodup_nil, by simp, fun _ _ ↦ rfl⟩

theorem not_mem_erase (h : Links σ lists) (e : Fin E) (c : Fin C) : e ∉ erase lists e c :=
  fun he ↦ ((h.nodup c).mem_erase_iff.mp he).1 rfl

/-- Removing an entry. -/
theorem Links.unbind (h : Links σ lists) (e : Fin E) :
    Links (Rings.unbind σ (Fin.natAdd C e)) (erase lists e) where
  path c := by
    by_cases he : e ∈ lists c
    · obtain ⟨xs, ys, hsplit⟩ := List.append_of_mem he
      have hpath := h.path c
      have hnodup := h.ring_nodup c
      have hxs : e ∉ xs := by
        have hc := h.nodup c
        rw [hsplit, List.nodup_append'] at hc
        exact fun hmem ↦ hc.2.2 hmem List.mem_cons_self
      rw [hsplit, List.map_append, List.map_cons] at hpath hnodup
      rw [erase, hsplit, List.erase_append_right _ hxs, List.erase_cons_head, List.map_append]
      exact Rings.path_unbind hpath hnodup
    · rw [erase, List.erase_of_not_mem he]
      exact Rings.path_unbind_of_not_mem (h.path c) (mt natAdd_mem.mp he)
  nodup c := (h.nodup c).erase e
  disjoint c c' e' he he' := h.disjoint c c' e' (List.mem_of_mem_erase he)
    (List.mem_of_mem_erase he')
  unlinked e' he' := by
    by_cases hee : e' = e
    · rw [hee, Rings.unbind_self]
    · have hfree : ∀ c, e' ∉ lists c := fun c hc ↦
        he' c ((h.nodup c).mem_erase_iff.mpr ⟨hee, hc⟩)
      have hfix := h.unlinked e' hfree
      rw [Rings.unbind_apply, if_neg fun heq ↦ hee (Fin.natAdd_injective E C heq), hfix]
      refine if_neg fun heq ↦ hee (Fin.natAdd_injective E C ?_)
      rw [← hfix, heq, σ.apply_symm_apply]

/-- Where an entry is linked that was in no list before. -/
theorem Links.insert (h : Links σ lists) {e : Fin E} (he : ∀ c, e ∉ lists c) (c : Fin C)
    {l : List (Fin E)} {p : Fin (C + E)} (hl : l.Perm (e :: lists c))
    (hp : p ∈ Fin.castAdd E c :: (lists c).map (Fin.natAdd C))
    (hpath : Rings.Path (σ * swap (Fin.natAdd C e) p) (Fin.castAdd E c) (l.map (Fin.natAdd C))
      (Fin.castAdd E c)) :
    Links (σ * swap (Fin.natAdd C e) p) (Function.update lists c l) := by
  have hfix := h.unlinked e he
  have hother : ∀ c' ≠ c, p ∉ Fin.castAdd E c' :: (lists c').map (Fin.natAdd C) := by
    intro c' hc' hmem
    rcases List.mem_cons.mp hp with rfl | hp
    · rcases List.mem_cons.mp hmem with heq | hmem
      · exact hc' (Fin.castAdd_injective C E heq).symm
      · obtain ⟨e', -, heq⟩ := List.mem_map.mp hmem
        exact castAdd_ne_natAdd c e' heq.symm
    · obtain ⟨e', he', rfl⟩ := List.mem_map.mp hp
      exact hc' (h.disjoint c' c e' (natAdd_mem.mp hmem) he')
  refine ⟨fun c' ↦ ?_, fun c' ↦ ?_, fun c₁ c₂ e' h₁ h₂ ↦ ?_, fun e' he' ↦ ?_⟩
  · by_cases hc : c' = c
    · subst hc
      rwa [Function.update_self]
    · rw [Function.update_of_ne hc]
      exact Rings.path_mul_swap_of_not_mem hfix (h.path c') (mt natAdd_mem.mp (he c'))
        (hother c' hc)
  · by_cases hc : c' = c
    · subst hc
      rw [Function.update_self, hl.nodup_iff]
      exact List.nodup_cons.mpr ⟨he c', h.nodup c'⟩
    · rw [Function.update_of_ne hc]
      exact h.nodup c'
  · have hmem : ∀ c' e', e' ∈ Function.update lists c l c' → e' ∈ lists c' ∨ e' = e ∧ c' = c := by
      intro c' e' hm
      by_cases hc : c' = c
      · subst hc
        rw [Function.update_self, hl.mem_iff, List.mem_cons] at hm
        exact hm.symm.imp_right fun heq ↦ ⟨heq, rfl⟩
      · rw [Function.update_of_ne hc] at hm
        exact .inl hm
    rcases hmem c₁ e' h₁ with h₁ | ⟨rfl, rfl⟩ <;> rcases hmem c₂ e' h₂ with h₂ | ⟨h₂, h₂'⟩
    · exact h.disjoint c₁ c₂ e' h₁ h₂
    · exact absurd (h₂ ▸ h₁) (he c₁)
    · exact absurd h₂ (he c₂)
    · exact h₂'.symm
  · have hne : e' ≠ e := by
      rintro rfl
      refine he' c ?_
      rw [Function.update_self, hl.mem_iff]
      exact List.mem_cons_self
    have hfree : ∀ c', e' ∉ lists c' := by
      intro c' hm
      refine he' c' ?_
      by_cases hc : c' = c
      · subst hc
        rw [Function.update_self, hl.mem_iff]
        exact List.mem_cons_of_mem e hm
      · rwa [Function.update_of_ne hc]
    rw [Rings.mul_swap_apply hfix, if_neg fun heq ↦ hne (Fin.natAdd_injective E C heq),
      h.unlinked e' hfree]
    refine if_neg fun heq ↦ ?_
    rw [← heq] at hp
    exact hfree c (natAdd_mem.mp hp)

/-! ### The operations -/

theorem checkedSub_natAdd (e : Fin E) : checkedSub (Fin.natAdd C e).val C = some e.val := by
  rw [Fin.val_natAdd, checkedSub, if_pos (Nat.le_add_right C e), Nat.add_sub_cancel_left]

theorem checkedSub_castAdd (c : Fin C) : checkedSub (Fin.castAdd E c).val C = none :=
  if_neg (Nat.not_le.mpr c.isLt)

theorem new_represents (h : C + E ≤ 256) :
    ∃ q : MultiClassQueue C E, new C E = .ok q ∧ Represents q fun _ ↦ [] := by
  rw [new, MultiCycleList.new_eq h]
  exact ⟨_, rfl, 1, rfl, links_one⟩

theorem front_eq (h : Represents q lists) (c : Fin C) :
    q.front c = .ok ((lists c).head?.map Fin.val) := by
  obtain ⟨σ, hnodes, hlinks⟩ := h
  have hnext := MultiCycleList.next_ofLinks σ σ.symm (Fin.castAdd E c)
  rw [Fin.val_castAdd, (hlinks.path c).next_eq] at hnext
  rw [front, assert_pos c.isLt, ok_bind, hnodes, MultiCycleList.ofPerm, hnext, ok_bind, pure_eq_ok]
  cases lists c with
  | nil => exact congrArg Except.ok (checkedSub_castAdd c)
  | cons e l => exact congrArg Except.ok (checkedSub_natAdd e)

theorem back_eq (h : Represents q lists) (c : Fin C) :
    q.back c = .ok ((lists c).getLast?.map Fin.val) := by
  obtain ⟨σ, hnodes, hlinks⟩ := h
  have hprev := MultiCycleList.prev_ofLinks σ σ.symm (Fin.castAdd E c)
  rw [Fin.val_castAdd, (hlinks.path c).prev_eq, List.getLast?_map] at hprev
  rw [back, assert_pos c.isLt, ok_bind, hnodes, MultiCycleList.ofPerm, hprev, ok_bind, pure_eq_ok]
  cases (lists c).getLast? with
  | none => exact congrArg Except.ok (checkedSub_castAdd c)
  | some e => exact congrArg Except.ok (checkedSub_natAdd e)

theorem isEmpty_eq (h : Represents q lists) (c : Fin C) :
    q.isEmpty c = .ok (lists c).isEmpty := by
  rw [isEmpty, assert_pos c.isLt, ok_bind, front_eq h, ok_bind, pure_eq_ok]
  cases lists c <;> rfl

theorem remove_represents (h : Represents q lists) (e : Fin E) :
    ∃ q', q.remove e = .ok q' ∧ Represents q' (erase lists e) := by
  obtain ⟨σ, hnodes, hlinks⟩ := h
  rw [remove, assert_pos e.isLt, ok_bind, hnodes, ← Fin.val_natAdd C e,
    MultiCycleList.unbind_ofPerm, ok_bind]
  exact ⟨_, rfl, _, rfl, hlinks.unbind e⟩

theorem moveFront_represents (h : Represents q lists) (c : Fin C) (e : Fin E) :
    ∃ q', q.moveFront c e = .ok q' ∧
      Represents q' (Function.update (erase lists e) c (e :: erase lists e c)) := by
  obtain ⟨σ, hnodes, hlinks⟩ := h
  have hfree := not_mem_erase hlinks e
  have hlinks := hlinks.unbind e
  rw [moveFront, assert_pos c.isLt, ok_bind, assert_pos e.isLt, ok_bind, hnodes,
    ← Fin.val_natAdd C e, ← Fin.val_castAdd E c,
    MultiCycleList.moveAfter_ofPerm _ _ _ (castAdd_ne_natAdd c e).symm, ok_bind]
  refine ⟨_, rfl, _, rfl, hlinks.insert hfree c (List.Perm.refl _) List.mem_cons_self ?_⟩
  exact Rings.path_mul_swap_head (hlinks.unlinked e hfree) (hlinks.path c) (hlinks.ring_nodup c)
    (mt natAdd_mem.mp (hfree c))

theorem moveBack_represents (h : Represents q lists) (c : Fin C) (e : Fin E) :
    ∃ q', q.moveBack c e = .ok q' ∧
      Represents q' (Function.update (erase lists e) c (erase lists e c ++ [e])) := by
  obtain ⟨σ, hnodes, hlinks⟩ := h
  have hfree := not_mem_erase hlinks e
  have hlinks := hlinks.unbind e
  rw [moveBack, assert_pos c.isLt, ok_bind, assert_pos e.isLt, ok_bind, hnodes,
    ← Fin.val_natAdd C e, ← Fin.val_castAdd E c,
    MultiCycleList.moveBefore_ofPerm _ _ _ (castAdd_ne_natAdd c e).symm, ok_bind]
  refine ⟨_, rfl, _, rfl, hlinks.insert hfree c (List.perm_append_singleton _ _) ?_ ?_⟩
  · have hlast := (hlinks.path c).prev_eq
    rw [hlast]
    cases hcase : ((erase lists e c).map (Fin.natAdd C)).getLast? with
    | none => exact List.mem_cons_self
    | some x => exact List.mem_cons_of_mem _ (List.mem_of_getLast? hcase)
  · rw [List.map_append]
    exact Rings.path_mul_swap_last (hlinks.unlinked e hfree) (hlinks.path c)
      (hlinks.ring_nodup c) (mt natAdd_mem.mp (hfree c))

/-- Moving all entries to one class, one after the other. -/
theorem fill_represents (h : Represents q fun _ ↦ []) (hE : E ≤ 256) (c : Fin C) :
    ∃ q', (List.range E).foldlM (fun q i ↦ do
        let entry ← unwrap (u8TryFrom i)
        q.moveBack c.val entry) q = .ok q' ∧
      Represents q' (Function.update (fun _ ↦ []) c (List.finRange E)) := by
  have hstep : ∀ k ≤ E, ∃ q', (List.range k).foldlM (fun q i ↦ do
        let entry ← unwrap (u8TryFrom i)
        q.moveBack c.val entry) q = .ok q' ∧
      Represents q' (Function.update (fun _ ↦ []) c ((List.finRange E).take k)) := by
    intro k hk
    induction k with
    | zero => exact ⟨q, rfl, by simpa using h⟩
    | succ k ih =>
      obtain ⟨q', hfold, hq'⟩ := ih (Nat.le_of_succ_le hk)
      obtain ⟨q'', hmove, hq''⟩ := moveBack_represents hq' c ⟨k, hk⟩
      refine ⟨q'', ?_, ?_⟩
      · rw [List.range_succ, List.foldlM_append, hfold, ok_bind, List.foldlM_cons, u8TryFrom,
          if_pos (Nat.lt_of_lt_of_le hk hE), unwrap_some, ok_bind, hmove]
        rfl
      · have herase : erase (Function.update (fun _ ↦ []) c ((List.finRange E).take k)) ⟨k, hk⟩ =
            Function.update (fun _ ↦ []) c ((List.finRange E).take k) := by
          funext c'
          refine List.erase_of_not_mem fun hmem ↦ ?_
          by_cases hc : c' = c
          · subst hc
            rw [Function.update_self] at hmem
            obtain ⟨i, hi, heq⟩ := List.mem_iff_getElem.mp hmem
            rw [List.getElem_take, List.getElem_finRange] at heq
            have := congrArg Fin.val heq
            simp only [List.length_take, Fin.val_cast] at this hi
            omega
          · rw [Function.update_of_ne hc] at hmem
            exact List.not_mem_nil hmem
        rw [herase, Function.update_self, Function.update_idem] at hq''
        rwa [List.take_add_one, List.getElem?_eq_getElem (by rw [List.length_finRange]; exact hk),
          List.getElem_finRange]
  have hall := hstep E le_rfl
  rwa [List.take_of_length_le (by simp)] at hall

/-- No entry is in two lists, nor twice in one. -/
theorem Represents.links (h : Represents q lists) :
    (∀ c, (lists c).Nodup) ∧ ∀ c c' e, e ∈ lists c → e ∈ lists c' → c = c' := by
  obtain ⟨σ, -, hlinks⟩ := h
  exact ⟨hlinks.nodup, hlinks.disjoint⟩

/-- Removing an entry does not change the lists that do not hold it. -/
theorem Represents.erase_of_ne (h : Represents q lists) {c c' : Fin C} {e : Fin E}
    (he : e ∈ lists c) (hc : c' ≠ c) : erase lists e c' = lists c' :=
  List.erase_of_not_mem fun he' ↦ hc (h.links.2 c' c e he' he)

theorem erase_of_eq_cons {c : Fin C} {e : Fin E} {rest : List (Fin E)} (h : lists c = e :: rest) :
    erase lists e c = rest := by
  rw [erase, h, List.erase_cons_head]

end MultiClassQueue

end Emcyphal
