import Emcyphal.Lib.Tree
import Mathlib.Data.Set.Insert

/-!
# Walks over a list that changes

The elements of one key are visited one after another, in a list that is sorted by key, and between
two visits other elements come and go.  `Walk` cuts the list before the element that is visited
next: what was visited is before the cut, and what is still owed is after it.  Every change keeps a
cut, so that no element is visited twice and none that stays is missed.
-/

set_option autoImplicit false

universe v w

namespace Rust.Tree

variable {ι : Type w} {κ : Type v} {as bs as' bs' xs : List (ι × κ)} {e e' : ι × κ} {i : ι} {k : κ}
  {cur : Option ι} {visited owed : Set ι}

/-- No other element has the label. -/
theorem fst_ne (hnodup : ((as ++ e :: bs).map Prod.fst).Nodup) :
    (∀ x ∈ as, x.1 ≠ e.1) ∧ ∀ x ∈ bs, x.1 ≠ e.1 := by
  rw [List.map_append, List.map_cons] at hnodup
  obtain ⟨-, hbs, has⟩ := List.nodup_append.mp hnodup
  refine ⟨fun x hx ↦ has _ (List.mem_map_of_mem hx) _ (by simp), fun x hx heq ↦ ?_⟩
  exact (List.nodup_cons.mp hbs).1 (heq ▸ List.mem_map_of_mem hx)

/-- An element is in one place only. -/
theorem split_unique [DecidableEq ι] (hnodup : ((as ++ e :: bs).map Prod.fst).Nodup)
    (heq : as ++ e :: bs = as' ++ e' :: bs') (he : e.1 = e'.1) : as = as' ∧ e = e' ∧ bs = bs' := by
  have hcursor : ∀ {ls rs : List (ι × κ)} {x : ι × κ}, ((ls ++ x :: rs).map Prod.fst).Nodup →
      cursorAt (fun y ↦ y.1 == x.1) (ls ++ x :: rs) = some (ls, x, rs) :=
    fun hls ↦ cursorAt_append (fun y hy ↦ by simpa using (fst_ne hls).1 y hy) (by simp)
  have h := hcursor hnodup
  rw [heq] at hnodup h
  rw [he, hcursor hnodup] at h
  simpa [eq_comm] using h

/-- The label of the first element, if it has the key. -/
def nextOf [DecidableEq κ] (k : κ) (xs : List (ι × κ)) : Option ι :=
  (xs.head?.filter fun x ↦ decide (x.2 = k)).map Prod.fst

/-- What the walk has visited is before the element it is at, and what it has to visit is not.  A
walk that is over has visited everything. -/
inductive Walk (k : κ) : List (ι × κ) → Option ι → Set ι → Set ι → Prop
  | ended {xs : List (ι × κ)} {visited owed : Set ι} (hvisited : ∀ j ∈ visited, ∃ x ∈ xs, x.1 = j)
      (howed : owed ⊆ visited) : Walk k xs none visited owed
  | at {as bs : List (ι × κ)} {i : ι} {visited owed : Set ι}
      (hvisited : ∀ j ∈ visited, ∃ x ∈ as, x.1 = j)
      (howed : ∀ j ∈ owed, j ∈ visited ∨ (j, k) ∈ (i, k) :: bs) :
      Walk k (as ++ (i, k) :: bs) (some i) visited owed

/-- A walk starts at the first element with the key. -/
theorem Walk.start (has : ∀ x ∈ as, x.2 ≠ k) (bs : List (ι × κ)) :
    Walk k (as ++ (i, k) :: bs) (some i) ∅ {j | (j, k) ∈ as ++ (i, k) :: bs} := by
  refine .at (by simp) fun j hj ↦ .inr ?_
  exact (List.mem_append.mp hj).resolve_left fun hmem ↦ has _ hmem rfl

theorem Walk.missing (hxs : ∀ x ∈ xs, x.2 ≠ k) : Walk k xs none ∅ {j | (j, k) ∈ xs} :=
  .ended (by simp) fun _ hj ↦ absurd rfl (hxs _ hj)

/-- A walk that is over has visited all that it owes. -/
theorem Walk.subset (h : Walk k xs none visited owed) : owed ⊆ visited := by
  cases h with
  | ended _ howed => exact howed

/-- Less can be owed. -/
theorem Walk.mono (h : Walk k xs cur visited owed) {owed' : Set ι} (hsub : owed' ⊆ owed) :
    Walk k xs cur visited owed' := by
  rcases h with ⟨hvisited, howed⟩ | ⟨hvisited, howed⟩
  · exact .ended hvisited (hsub.trans howed)
  · exact .at hvisited fun j hj ↦ howed j (hsub hj)

/-- An element can be forgotten. -/
theorem Walk.forget (h : Walk k xs cur visited owed) (i : ι) :
    Walk k xs cur (visited \ {i}) (owed \ {i}) := by
  rcases h with ⟨hvisited, howed⟩ | ⟨hvisited, howed⟩
  · exact .ended (fun j hj ↦ hvisited j hj.1) fun j hj ↦ ⟨howed hj.1, hj.2⟩
  · exact .at (fun j hj ↦ hvisited j hj.1) fun j hj ↦ (howed j hj.1).imp_left fun hmem ↦
      ⟨hmem, hj.2⟩

theorem Walk.insert (h : Walk k (as ++ bs) cur visited owed) (e : ι × κ) :
    Walk k (as ++ e :: bs) cur visited owed := by
  generalize hxs : as ++ bs = xs at h
  rcases h with ⟨hvisited, howed⟩ | ⟨hvisited, howed⟩
  · refine .ended (fun j hj ↦ ?_) howed
    obtain ⟨x, hx, heq⟩ := hvisited j hj
    rw [← hxs, List.mem_append] at hx
    exact ⟨x, by simpa using hx.imp_right .inr, heq⟩
  · -- The new element is before the one the walk is at, or after it.
    rcases List.append_eq_append_iff.mp hxs with ⟨mid, rfl, rfl⟩ | ⟨mid, rfl, hmid⟩
    · rw [← List.cons_append, ← List.append_assoc]
      refine .at (fun j hj ↦ ?_) howed
      obtain ⟨x, hx, heq⟩ := hvisited j hj
      rw [List.mem_append] at hx
      exact ⟨x, by simpa using hx.imp_right .inr, heq⟩
    · rcases List.cons_eq_append_iff.mp hmid with ⟨rfl, rfl⟩ | ⟨mid, rfl, rfl⟩
      · rw [List.append_nil, List.append_cons]
        refine .at (fun j hj ↦ ?_) howed
        obtain ⟨x, hx, heq⟩ := hvisited j hj
        exact ⟨x, List.mem_append_left _ hx, heq⟩
      · rw [List.append_assoc, List.cons_append]
        refine .at hvisited fun j hj ↦ (howed j hj).imp_right fun hmem ↦ ?_
        simp only [List.mem_cons, List.mem_append] at hmem ⊢
        tauto

variable [LinearOrder κ]

/-- A walk goes on with the next element, or it is over. -/
theorem Walk.next (hsorted : ((i, k) :: bs).Pairwise fun x y ↦ x.2 ≤ y.2)
    (hvisited : ∀ j ∈ visited, ∃ x ∈ as, x.1 = j) (howed : ∀ j ∈ owed, j ∈ visited ∨ (j, k) ∈ bs) :
    Walk k (as ++ bs) (nextOf k bs) visited owed := by
  obtain ⟨hle, hbs⟩ := List.pairwise_cons.mp hsorted
  cases bs with
  | nil =>
    refine .ended (fun j hj ↦ ?_) fun j hj ↦ (howed j hj).resolve_right (by simp)
    obtain ⟨x, hx, heq⟩ := hvisited j hj
    exact ⟨x, List.mem_append_left _ hx, heq⟩
  | cons y rest =>
    obtain ⟨j, k'⟩ := y
    by_cases hk : k' = k
    · subst hk
      have hnext : nextOf k' ((j, k') :: rest) = some j := by simp [nextOf]
      rw [hnext]
      exact .at hvisited howed
    · have hnext : nextOf k ((j, k') :: rest) = none := by simp [nextOf, hk]
      have hlt : k < k' := lt_of_le_of_ne (hle (j, k') (by simp)) (Ne.symm hk)
      rw [hnext]
      refine .ended (fun l hl ↦ ?_) fun l hl ↦ (howed l hl).resolve_right fun hmem ↦ ?_
      · obtain ⟨x, hx, heq⟩ := hvisited l hl
        exact ⟨x, List.mem_append_left _ hx, heq⟩
      · rcases List.mem_cons.mp hmem with heq | hmem
        · exact hk (congrArg Prod.snd heq).symm
        · exact absurd ((List.pairwise_cons.mp hbs).1 _ hmem) (not_le.mpr hlt)

variable [DecidableEq ι]

/-- An element is visited for the first time, and it has the key. -/
theorem Walk.visit (h : Walk k (as ++ e :: bs) (some e.1) visited owed)
    (hnodup : ((as ++ e :: bs).map Prod.fst).Nodup)
    (hsorted : (as ++ e :: bs).Pairwise fun x y ↦ x.2 ≤ y.2) :
    e.2 = k ∧ e.1 ∉ visited ∧
      Walk k (as ++ e :: bs) (nextOf e.2 bs) (Insert.insert e.1 visited) owed := by
  generalize hxs : as ++ e :: bs = xs at h
  generalize hcur : some e.1 = cur at h
  rcases h with _ | ⟨hvisited, howed⟩
  · cases hcur
  · obtain ⟨rfl, rfl, rfl⟩ := split_unique hnodup hxs (Option.some.inj hcur)
    refine ⟨rfl, fun hmem ↦ ?_, ?_⟩
    · obtain ⟨x, hx, heq⟩ := hvisited _ hmem
      exact (fst_ne hnodup).1 x hx heq
    · rw [List.append_cons]
      refine .next (List.pairwise_append.mp hsorted).2.1 (fun j hj ↦ ?_) fun j hj ↦ ?_
      · rcases hj with rfl | hj
        · exact ⟨_, List.mem_append_right _ (List.mem_singleton_self _), rfl⟩
        · obtain ⟨x, hx, heq⟩ := hvisited j hj
          exact ⟨x, List.mem_append_left _ hx, heq⟩
      · rcases howed j hj with hj | hj
        · exact .inl (.inr hj)
        · rcases List.mem_cons.mp hj with heq | hj
          · exact .inl (.inl (congrArg Prod.fst heq))
          · exact .inr hj

/-- An element goes, and the walk steps over it if it is at it. -/
theorem Walk.remove (h : Walk k (as ++ e :: bs) cur visited owed)
    (hnodup : ((as ++ e :: bs).map Prod.fst).Nodup)
    (hsorted : (as ++ e :: bs).Pairwise fun x y ↦ x.2 ≤ y.2) :
    Walk k (as ++ bs) (if cur = some e.1 then nextOf e.2 bs else cur) (visited \ {e.1})
      (owed \ {e.1}) := by
  generalize hxs : as ++ e :: bs = xs at h
  rcases h with ⟨hvisited, howed⟩ | @⟨as', bs', i, _, _, hvisited, howed⟩
  · rw [if_neg (by simp)]
    refine .ended (fun j hj ↦ ?_) fun j hj ↦ ⟨howed hj.1, hj.2⟩
    obtain ⟨x, hx, rfl⟩ := hvisited j hj.1
    exact ⟨x, mem_append_of_ne (hxs ▸ hx) fun heq ↦ hj.2 (by rw [heq]; rfl), rfl⟩
  · by_cases hi : i = e.1
    · obtain ⟨rfl, rfl, rfl⟩ := split_unique hnodup hxs hi.symm
      rw [if_pos rfl]
      refine .next (List.pairwise_append.mp hsorted).2.1 (fun j hj ↦ hvisited j hj.1) fun j hj ↦ ?_
      refine (howed j hj.1).imp (fun hmem ↦ ⟨hmem, hj.2⟩) fun hmem ↦ ?_
      exact (List.mem_cons.mp hmem).resolve_left fun heq ↦ hj.2 (congrArg Prod.fst heq)
    · rw [if_neg (by simpa using hi)]
      rcases List.append_eq_append_iff.mp hxs with ⟨mid, rfl, hmid⟩ | ⟨mid, rfl, hmid⟩
      · -- The element that goes is before the one the walk is at.
        rcases List.cons_eq_append_iff.mp hmid with ⟨-, heq⟩ | ⟨mid, rfl, rfl⟩
        · exact absurd (congrArg Prod.fst (List.cons.inj heq).1) hi
        · rw [← List.append_assoc]
          refine .at (fun j hj ↦ ?_) fun j hj ↦ (howed j hj.1).imp_left fun hmem ↦ ⟨hmem, hj.2⟩
          obtain ⟨x, hx, rfl⟩ := hvisited j hj.1
          exact ⟨x, mem_append_of_ne hx fun heq ↦ hj.2 (by rw [heq]; rfl), rfl⟩
      · rcases List.cons_eq_append_iff.mp hmid with ⟨-, heq⟩ | ⟨mid, rfl, rfl⟩
        · exact absurd (congrArg Prod.fst (List.cons.inj heq).1).symm hi
        · rw [List.append_assoc, List.cons_append]
          refine .at (fun j hj ↦ hvisited j hj.1) fun j hj ↦ ?_
          refine (howed j hj.1).imp (fun hmem ↦ ⟨hmem, hj.2⟩) fun hmem ↦ ?_
          rw [← List.cons_append] at hmem ⊢
          exact mem_append_of_ne hmem fun heq ↦ hj.2 (congrArg Prod.fst heq)

end Rust.Tree
