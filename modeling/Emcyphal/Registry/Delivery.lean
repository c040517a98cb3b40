import Emcyphal.Lib.Walk
import Emcyphal.Registry.Converge

/-!
# Delivery of a message

A frame is pushed to one entry at a time, and in between entries are registered, unregistered and
activated.  The delivery is a walk over the active tree: `next_push_ptr` is where it is, and the
entries of the subject that were active at its start are what it owes.
-/

set_option autoImplicit false

namespace Emcyphal.RxMsg

open Rust Tree RegularInner

/-- The addresses the frame was pushed to, after one more step.  One that is unregistered is taken
out, as it may be registered again. -/
def deliver (delivered : List Address) : Op × Event → List Address
  | (.unregister token, _) => delivered.filter (· ≠ token)
  | (_, .pushed (some address) _) => address :: delivered
  | _ => delivered

/-- The registered entries that the frame was pushed to. -/
def delivered (log : List (Op × Event)) : List Address := log.foldl deliver []

variable {s s' : System} {as bs : List Entry} {e : Entry} {subject : SubjectId}

/-- In a sorted tree the entry that follows is the next one of the subject. -/
theorem Layout.followUp_eq (h : Layout (as ++ e :: bs)) :
    followUp bs = nextOf e.subject (slots bs) := by
  cases bs with
  | nil => rfl
  | cons n rest =>
    have hfollows := (List.isChain_cons.mp (List.isChain_append.mp h.follows).2.1).1 n (by simp)
    rcases hfollows with ⟨hlt, hhead⟩ | ⟨heq, htail⟩
    · simp [followUp, nextOf, Entry.slot, Option.filter, hhead, hlt.ne']
    · simp [followUp, nextOf, Entry.slot, Option.filter, htail, heq]

theorem mem_forget (done : List Address) (address : Address) :
    {a | a ∈ done.filter (· ≠ address)} = {a | a ∈ done} \ {address} := by
  ext a
  simp

theorem mem_deliver (done : List Address) (address : Address) :
    {a | a ∈ address :: done} = insert address {a | a ∈ done} := by
  ext a
  simp

/-- What a delivery owes when it starts. -/
theorem owed_eq (entries : List Entry) (subject : SubjectId) :
    {a | ∃ e ∈ entries, e.address = a ∧ e.subject = subject} =
    {a | (a, subject) ∈ slots entries} := by
  ext a
  simp [slots, Entry.slot]

theorem unregistered_eq (token : Address) : {a | Op.unregister token = .unregister a} =
    {token} := by
  ext a
  simp [eq_comm]

/-- What is owed after a step and the steps that follow it. -/
theorem still_owed (owed : Set Address) (op : Op) (ops : List Op) :
    owed \ {a | .unregister a ∈ op :: ops} ⊆
      (owed \ {a | op = .unregister a}) \ {a | .unregister a ∈ ops} := by
  refine fun a ha ↦ ⟨⟨ha.1, fun heq ↦ ha.2 ?_⟩, fun hmem ↦ ha.2 ?_⟩
  · exact List.mem_cons.mpr (.inl heq.symm)
  · exact List.mem_cons_of_mem _ hmem

namespace System

/-- A delivery on the way. -/
structure Delivers (s : System) (subject : SubjectId) (delivered : List Address)
    (owed : Set Address) : Prop where
  inv : s.Inv
  walk : Walk subject (slots s.inner.activeEntryTree) s.inner.nextPushPtr {a | a ∈ delivered} owed

theorem Inv.slots_nodup (h : s.Inv) (hA : s.inner.activeEntryTree = as ++ e :: bs) :
    ((slots as ++ e.slot :: slots bs).map Prod.fst).Nodup := by
  have hnodup := h.nodup_slots
  rwa [hA, slots_append, slots_cons] at hnodup

theorem Inv.slots_sorted (h : s.Inv) (hA : s.inner.activeEntryTree = as ++ e :: bs) :
    (slots as ++ e.slot :: slots bs).Pairwise fun x y ↦ x.2 ≤ y.2 := by
  have hsorted := h.layout.sorted_slots
  rwa [hA, slots_append, slots_cons] at hsorted

/-- A delivery starts at the first entry of the subject, and it owes all of them. -/
theorem Inv.delivers (h : s.Inv) {started : Bool} {r : RegularInner}
    (hp : StartsPush s.inner subject started r) : Delivers ⟨r, s.held⟩ subject []
      {a | ∃ e ∈ s.inner.activeEntryTree, e.address = a ∧ e.subject = subject} := by
  refine ⟨h.of_startsPush hp, ?_⟩
  rw [owed_eq, show {a | a ∈ ([] : List Address)} = ∅ by simp]
  cases hp with
  | @found as bs e hA hhead hsubject =>
    subst hsubject
    dsimp only
    rw [hA, slots_append, slots_cons]
    refine .start (fun x hx ↦ ?_) _
    obtain ⟨y, hy, rfl⟩ := List.mem_map.mp hx
    exact ((hA ▸ h.layout : Layout (as ++ e :: bs)).lt_of_head hhead y hy).ne
  | missing hnot => exact .missing (List.forall_mem_map.mpr hnot)

/-- An entry is removed from the active tree. -/
theorem Delivers.remove {done : List Address} {owed : Set Address}
    (h : s.Delivers subject done owed) (hA : s.inner.activeEntryTree = as ++ e :: bs) :
    Walk subject (slots as ++ slots bs) (s.inner.skipPush e.address bs)
      ({a | a ∈ done} \ {e.address}) (owed \ {e.address}) := by
  have hwalk := h.walk
  rw [hA, slots_append, slots_cons] at hwalk
  rw [skipPush, (hA ▸ h.inv.layout : Layout (as ++ e :: bs)).followUp_eq]
  exact hwalk.remove (h.inv.slots_nodup hA) (h.inv.slots_sorted hA)

/-- The frame is pushed to an entry of its subject, and for the first time. -/
theorem Delivers.push {done : List Address} {owed : Set Address} (h : s.Delivers subject done owed)
    (hA : s.inner.activeEntryTree = as ++ e :: bs) (hnext : s.inner.nextPushPtr = some e.address) :
    e.subject = subject ∧ e.address ∉ done ∧
      Walk subject (slots s.inner.activeEntryTree) (followUp bs)
        {a | a ∈ e.address :: done} owed := by
  have hwalk := h.walk
  rw [hnext, hA, slots_append, slots_cons] at hwalk
  rw [(hA ▸ h.inv.layout : Layout (as ++ e :: bs)).followUp_eq, mem_deliver, hA, slots_append,
    slots_cons]
  exact hwalk.visit (h.inv.slots_nodup hA) (h.inv.slots_sorted hA)

/-- One step of a delivery, or one in between. -/
theorem Delivers.of_steps {done : List Address} {owed : Set Address}
    (h : s.Delivers subject done owed) {op : Op} {event : Event} (hs : Steps s op s' event)
    (hop : ∀ d, op ≠ .pushStart d) :
    s'.Delivers subject (deliver done (op, event)) (owed \ {a | op = .unregister a}) := by
  refine ⟨h.inv.of_steps hs, ?_⟩
  have hwalk := h.walk
  rcases hs with ⟨-, hr⟩ | ⟨he, hr⟩ | hp | hp | hp
  · refine Walk.mono ?_ Set.sdiff_subset
    cases hr with
    | enqueued | full | fresh => exact hwalk
    | active _ hA =>
      rw [hA, slots_append] at hwalk
      dsimp only
      rw [slots_append, slots_cons]
      exact hwalk.insert _
  · rename_i e r
    rw [unregistered_eq, deliver, mem_forget]
    cases hr with
    | head hA =>
      dsimp only [headRemoved]
      rw [slots_append, slots_promote]
      exact h.remove hA
    | tail hA =>
      dsimp only
      rw [slots_append]
      exact h.remove hA
    | inactive => exact hwalk.forget _
  · refine Walk.mono ?_ Set.sdiff_subset
    cases hp with
    | cleanUp | cleanUpLast | pending => exact hwalk
    | activate _ _ _ _ hA =>
      rw [hA, slots_append] at hwalk
      dsimp only
      rw [slots_append, slots_cons]
      exact hwalk.insert _
  · exact absurd rfl (hop _)
  · refine Walk.mono ?_ Set.sdiff_subset
    cases hp with
    | idle => exact hwalk
    | next hA hnext => exact (h.push hA hnext).2.2

/-- A run of a delivery, with whatever is done in between. -/
theorem Delivers.run {done : List Address} {owed : Set Address} (h : s.Delivers subject done owed)
    {ops : List Op} (hops : Admissible System.step System.Valid s ops)
    (hone : ∀ op ∈ ops, ∀ d, op ≠ .pushStart d) :
    ∃ s' events, Rust.run System.step s ops = .ok (s', events) ∧
      s'.Delivers subject ((ops.zip events).foldl deliver done)
        (owed \ {a | .unregister a ∈ ops}) := by
  induction ops generalizing s done owed with
  | nil => exact ⟨s, [], rfl, by simpa using h⟩
  | cons op ops ih =>
    obtain ⟨hop, hrest⟩ := hops
    obtain ⟨s', event, hstep, hs⟩ := h.inv.steps hop
    rw [hstep] at hrest
    obtain ⟨t, events, hrun, ht⟩ :=
      ih (h.of_steps hs (hone op (by simp))) hrest fun op hop ↦ hone op (by simp [hop])
    refine ⟨t, event :: events, run_cons_eq_ok.mpr ⟨s', event, events, hstep, hrun, rfl⟩, ht.inv,
      ht.walk.mono (still_owed owed op ops)⟩

end System

/-- **A frame is delivered once to each subscriber.**  After its delivery has started, entries may
be registered, unregistered and activated between the pushes.  Each push is to an active entry of
the subject that the frame was not pushed to before.  When no more are to come, it was pushed to all
entries of the subject that were active at the start and were not unregistered since. -/
theorem delivers_once (subjectSlotCount : ℕ) {before : List Op}
    (hbefore : Admissible System.step System.Valid (System.new subjectSlotCount) before)
    (subject : SubjectId) :
    ∃ s₀ events₀ s₁ started,
      run System.step (System.new subjectSlotCount) before = .ok (s₀, events₀) ∧
      s₀.step (.pushStart subject) = .ok (s₁, .pushStarted started) ∧
      (started = false → ∀ e ∈ s₀.inner.activeEntryTree, e.subject ≠ subject) ∧
      ∀ ops, Admissible System.step System.Valid s₁ ops → (∀ op ∈ ops, ∀ d, op ≠ .pushStart d) →
        ∃ s events, run System.step s₁ ops = .ok (s, events) ∧
          (∀ a, s.inner.nextPushPtr = some a → ∃ e ∈ s.inner.activeEntryTree, e.address = a) ∧
          ∃ s' entry more, s.step .pushNext = .ok (s', .pushed entry more) ∧
            (∀ a, entry = some a → a ∉ delivered (ops.zip events) ∧
              ∃ e ∈ s.inner.activeEntryTree, e.address = a ∧ e.subject = subject) ∧
            (more = false → ∀ e ∈ s₀.inner.activeEntryTree, e.subject = subject →
              .unregister e.address ∉ ops →
              e.address ∈ delivered (ops.zip events) ∨ entry = some e.address) := by
  obtain ⟨s₀, events₀, hrun₀, h₀⟩ := System.inv_of_run hbefore
  obtain ⟨started, r, heq, hp⟩ := h₀.startsPush subject
  refine ⟨s₀, events₀, ⟨r, s₀.held⟩, started, hrun₀, by rw [System.step, heq]; rfl, ?_, ?_⟩
  · rintro rfl
    cases hp with
    | missing hnot => exact hnot
  · intro ops hops hone
    obtain ⟨s, events, hrun, h⟩ := (h₀.delivers hp).run hops hone
    refine ⟨s, events, hrun, h.inv.nextPush, ?_⟩
    obtain ⟨entry, more, r', heq', hnext⟩ := h.inv.pushesNext
    refine ⟨⟨r', s.held⟩, entry, more, by rw [System.step, heq']; rfl, ?_, ?_⟩
    · rintro a rfl
      cases hnext with
      | next hA hptr =>
        obtain ⟨hsubject, hnew, -⟩ := h.push hA hptr
        exact ⟨hnew, _, hA ▸ by simp, rfl, hsubject⟩
    · intro hmore e he hsubject hstays
      have howed : e.address ∈ {a | ∃ e ∈ s₀.inner.activeEntryTree, e.address = a ∧
          e.subject = subject} \ {a | .unregister a ∈ ops} := ⟨⟨e, he, rfl, hsubject⟩, hstays⟩
      cases hnext with
      | idle hptr => exact .inl ((hptr ▸ h.walk).subset howed)
      | next hA hptr =>
        have hwalk := (h.push hA hptr).2.2
        rw [Option.isNone_iff_eq_none.mp (Option.isSome_eq_false_iff.mp hmore)] at hwalk
        rcases List.mem_cons.mp (hwalk.subset howed) with heq | hmem
        · exact .inr (congrArg some heq.symm)
        · exact .inl hmem

theorem delivers_once_two_entries :
    ∃ s₀ events₀ s₁ started, run System.step (System.new 1)
        [.register 1 5, .register 2 5, .poll 0, .poll 0] = .ok (s₀, events₀) ∧
      s₀.step (.pushStart 5) = .ok (s₁, .pushStarted started) ∧
      ∃ s events, run System.step s₁ [.pushNext, .register 3 5, .unregister 1] = .ok (s, events) ∧
        ∃ s' entry more, s.step .pushNext = .ok (s', .pushed entry more) ∧
          ∀ a, entry = some a → ∃ e ∈ s.inner.activeEntryTree, e.address = a ∧ e.subject = 5 := by
  obtain ⟨s₀, events₀, s₁, started, hrun₀, hstart, -, h⟩ := delivers_once 1 (by decide :
    Admissible System.step System.Valid (System.new 1)
      [.register 1 5, .register 2 5, .poll 0, .poll 0]) 5
  refine ⟨s₀, events₀, s₁, started, hrun₀, hstart, ?_⟩
  cases hrun₀
  cases hstart
  obtain ⟨s, events, hrun, -, s', entry, more, hstep, hpush, -⟩ :=
    h [.pushNext, .register 3 5, .unregister 1] (by decide) (by simp)
  exact ⟨s, events, hrun, s', entry, more, hstep, fun a ha ↦ (hpush a ha).2⟩

end Emcyphal.RxMsg
