import Emcyphal.Registry.Delivery

/-!
# Loop-back subscriptions

`LoopBackInner` of `emcyphal/src/registry/rx_msg.rs` delivers the frames a node sends to itself.
There is no filter to set up, so that its entries need not be activated and are all in one tree.

The delivery is that of `RegularInner`: it stops before an entry that is a head.  But nothing makes
an entry of this tree a head, and when the entry it has come to is unregistered, the delivery goes
on with the next one in any case.  `Overruns` says when it goes on with an entry of another subject.
-/

set_option autoImplicit false

namespace Emcyphal.RxMsg

open Rust Tree

structure LoopBackInner where
  entryTree : List Entry
  nextPushPtr : Option Address
deriving DecidableEq, Repr

namespace LoopBackInner

def default : LoopBackInner := ⟨[], none⟩

/-- The flags of a new entry are not set. -/
def regRegister (r : LoopBackInner) (address : Address) (subject : SubjectId) :
    Except RegistrationError Address × LoopBackInner :=
  let cursor := upperBound Entry.subject subject r.entryTree
  (.ok address, { r with entryTree := cursor.1 ++ ⟨address, subject, false, false⟩ :: cursor.2 })

def regUnregister (r : LoopBackInner) (token : Address) : Exec LoopBackInner := do
  let (before, _, after) ← unwrap (cursorAt (fun entry ↦ entry.address == token) r.entryTree)
  return {
    entryTree := before ++ after
    nextPushPtr :=
      if r.nextPushPtr = some token then after.head?.map Entry.address else r.nextPushPtr }

def hubPushStart (r : LoopBackInner) (subject : SubjectId) : Bool × LoopBackInner :=
  let nextPushPtr := (lowerBound Entry.subject subject r.entryTree).bind fun entry ↦
    if entry.subject = subject then some entry.address else none
  (nextPushPtr.isSome, { r with nextPushPtr := nextPushPtr })

/-- Next to what the code returns, the entry whose buffer the frame is pushed to. -/
def hubPushNext (r : LoopBackInner) : Exec (Option Address × Bool × LoopBackInner) :=
  match r.nextPushPtr with
  | none => .ok (none, false, r)
  | some nextPushPtr => do
    let (_, entry, after) ←
      unwrap (cursorAt (fun entry ↦ entry.address == nextPushPtr) r.entryTree)
    let r := { r with nextPushPtr := RegularInner.followUp after }
    return (some entry.address, r.nextPushPtr.isSome, r)

/-- A poll for filter updates does not come here. -/
def step (r : LoopBackInner) : Op → Exec (LoopBackInner × Event)
  | .register address subject =>
    let (result, r) := r.regRegister address subject
    .ok (r, .registered result)
  | .unregister token => do
    let r ← r.regUnregister token
    return (r, .unregistered)
  | .poll _ => .ok (r, .polled none)
  | .pushStart subject =>
    let (started, r) := r.hubPushStart subject
    .ok (r, .pushStarted started)
  | .pushNext => do
    let (entry, more, r) ← r.hubPushNext
    return (r, .pushed entry more)

/-- The address of a new entry is free, and a token is that of an entry. -/
def Valid (r : LoopBackInner) : Op → Prop
  | .register address _ => ∀ e ∈ r.entryTree, e.address ≠ address
  | .unregister token => ∃ e ∈ r.entryTree, e.address = token
  | _ => True

instance (r : LoopBackInner) : (op : Op) → Decidable (r.Valid op)
  | .register address _ => inferInstanceAs (Decidable (∀ e ∈ r.entryTree, e.address ≠ address))
  | .unregister token => inferInstanceAs (Decidable (∃ e ∈ r.entryTree, e.address = token))
  | .poll _ | .pushStart _ | .pushNext => inferInstanceAs (Decidable True)

/-- The delivery is at an entry, and the next one is of another subject. -/
def AtEnd (r : LoopBackInner) : Prop :=
  ∃ as e bs, r.entryTree = as ++ e :: bs ∧ r.nextPushPtr = some e.address ∧
    ∃ n ∈ bs.head?, n.subject ≠ e.subject

instance (r : LoopBackInner) : Decidable r.AtEnd := by
  unfold AtEnd; infer_instance

/-- The delivery leaves an entry that the next one is not of the subject of. -/
def Overruns (r : LoopBackInner) : Op → Prop
  | .unregister token => r.nextPushPtr = some token ∧ r.AtEnd
  | .pushNext => r.AtEnd
  | _ => False

instance (r : LoopBackInner) : (op : Op) → Decidable (r.Overruns op)
  | .unregister token => inferInstanceAs (Decidable (r.nextPushPtr = some token ∧ r.AtEnd))
  | .pushNext => inferInstanceAs (Decidable r.AtEnd)
  | .register .. | .poll _ | .pushStart _ => inferInstanceAs (Decidable False)

/-- What holds of the registry in every state. -/
structure Inv (r : LoopBackInner) : Prop where
  sorted : r.entryTree.Pairwise fun x y ↦ x.subject ≤ y.subject
  tails : ∀ e ∈ r.entryTree, e.isHead = false
  nodup : (r.entryTree.map Entry.address).Nodup
  nextPush : ∀ address, r.nextPushPtr = some address → ∃ e ∈ r.entryTree, e.address = address

/-- What a step does. -/
inductive Steps (r : LoopBackInner) : Op → LoopBackInner → Event → Prop
  | register {as bs : List Entry} {address : Address} {subject : SubjectId}
      (hnew : ∀ e ∈ r.entryTree, e.address ≠ address) (hT : r.entryTree = as ++ bs)
      (hle : ∀ x ∈ as, x.subject ≤ subject) (hlt : ∀ x ∈ bs, subject < x.subject) :
      Steps r (.register address subject)
        { r with entryTree := as ++ ⟨address, subject, false, false⟩ :: bs }
        (.registered (.ok address))
  | unregister {as bs : List Entry} {e : Entry} (hT : r.entryTree = as ++ e :: bs) :
      Steps r (.unregister e.address)
        ⟨as ++ bs, if r.nextPushPtr = some e.address then bs.head?.map Entry.address
          else r.nextPushPtr⟩ .unregistered
  | poll {waker : Waker} : Steps r (.poll waker) r (.polled none)
  | start {as bs : List Entry} {e : Entry} (hT : r.entryTree = as ++ e :: bs)
      (hlt : ∀ x ∈ as, x.subject < e.subject) :
      Steps r (.pushStart e.subject) { r with nextPushPtr := some e.address } (.pushStarted true)
  | missing {subject : SubjectId} (hnot : ∀ x ∈ r.entryTree, x.subject ≠ subject) :
      Steps r (.pushStart subject) { r with nextPushPtr := none } (.pushStarted false)
  | idle (hnext : r.nextPushPtr = none) : Steps r .pushNext r (.pushed none false)
  | next {as bs : List Entry} {e : Entry} (hT : r.entryTree = as ++ e :: bs)
      (hnext : r.nextPushPtr = some e.address) :
      Steps r .pushNext { r with nextPushPtr := bs.head?.map Entry.address }
        (.pushed (some e.address) (bs.head?.map Entry.address).isSome)

variable {r r' : LoopBackInner} {as bs : List Entry} {e : Entry} {subject : SubjectId}

theorem Inv.default : default.Inv :=
  ⟨.nil, by simp [LoopBackInner.default], by simp [LoopBackInner.default],
    by simp [LoopBackInner.default]⟩

theorem Inv.cursorAt_eq (h : r.Inv) (hT : r.entryTree = as ++ e :: bs) :
    cursorAt (fun x ↦ x.address == e.address) r.entryTree = some (as, e, bs) := by
  have hnodup := h.nodup
  rw [hT] at hnodup ⊢
  exact cursorAt_address hnodup

/-- No entry is a head, so that the delivery goes on with the next one. -/
theorem Inv.followUp_eq (h : r.Inv) (hT : r.entryTree = as ++ e :: bs) :
    RegularInner.followUp bs = bs.head?.map Entry.address := by
  cases bs with
  | nil => rfl
  | cons n rest =>
    have htail := h.tails n (hT ▸ by simp)
    simp [RegularInner.followUp, Option.filter, htail]

/-- **A valid operation does not panic.** -/
theorem Inv.steps (h : r.Inv) {op : Op} (hop : r.Valid op) :
    ∃ r' event, r.step op = .ok (r', event) ∧ Steps r op r' event := by
  cases op with
  | register address subject =>
    obtain ⟨as, bs, hT, heq, hle, hlt⟩ := upperBound_cases h.sorted subject
    refine ⟨_, _, ?_, .register hop hT hle hlt⟩
    rw [step, regRegister, heq]
  | unregister token =>
    obtain ⟨e, he, rfl⟩ := hop
    obtain ⟨as, bs, hT⟩ := List.append_of_mem he
    refine ⟨_, _, ?_, .unregister hT⟩
    rw [step, regUnregister, h.cursorAt_eq hT]
    rfl
  | poll waker => exact ⟨_, _, rfl, .poll⟩
  | pushStart subject =>
    rw [step, hubPushStart]
    rcases lowerBound_cases h.sorted subject with
      ⟨hfind, hlt⟩ | ⟨as, e, bs, hT, hfind, hlt, hge, hle⟩
    · rw [hfind]
      exact ⟨_, _, rfl, .missing fun x hx ↦ (hlt x hx).ne⟩
    · rw [hfind, Option.bind_some]
      by_cases hsubject : e.subject = subject
      · rw [if_pos hsubject]
        subst hsubject
        exact ⟨_, _, rfl, .start hT hlt⟩
      · rw [if_neg hsubject]
        exact ⟨_, _, rfl, .missing (hT ▸ ne_of_lowerBound hlt hle hge hsubject)⟩
  | pushNext =>
    cases hnext : r.nextPushPtr with
    | none =>
      refine ⟨_, _, ?_, .idle hnext⟩
      rw [step, hubPushNext, hnext]
      rfl
    | some address =>
      obtain ⟨e, he, rfl⟩ := h.nextPush address hnext
      obtain ⟨as, bs, hT⟩ := List.append_of_mem he
      refine ⟨_, _, ?_, .next hT hnext⟩
      rw [step, hubPushNext, hnext]
      dsimp only
      rw [h.cursorAt_eq hT, ← h.followUp_eq hT]
      rfl

theorem Inv.of_steps (h : r.Inv) {op : Op} {event : Event} (hs : Steps r op r' event) : r'.Inv := by
  obtain ⟨hsorted, htails, hnodup, hnext⟩ := h
  cases hs with
  | @register as bs address subject hnew hT hle hlt =>
    rw [hT] at hsorted htails hnodup hnew hnext
    refine ⟨sorted_insert hsorted hle hlt, fun x hx ↦ ?_, nodup_insert hnodup hnew, fun a ha ↦ ?_⟩
    · rcases List.mem_append.mp hx with hx | hx
      · exact htails x (List.mem_append_left _ hx)
      · rcases List.mem_cons.mp hx with rfl | hx
        · rfl
        · exact htails x (List.mem_append_right _ hx)
    · obtain ⟨x, hx, heq⟩ := hnext a ha
      exact ⟨x, by simpa using (List.mem_append.mp hx).imp_right .inr, heq⟩
  | @unregister as bs e hT =>
    rw [hT] at hsorted htails hnodup hnext
    refine ⟨sorted_remove hsorted, fun x hx ↦ htails x ?_, nodup_remove hnodup, fun a ha ↦ ?_⟩
    · simpa using (List.mem_append.mp hx).imp_right .inr
    · dsimp only at ha
      split at ha
      · obtain ⟨x, hx, rfl⟩ := Option.map_eq_some_iff.mp ha
        exact ⟨x, List.mem_append_right _ (List.mem_of_mem_head? hx), rfl⟩
      · rename_i hne
        obtain ⟨x, hx, rfl⟩ := hnext a ha
        exact ⟨x, mem_append_of_ne hx fun heq ↦ hne (heq ▸ ha), rfl⟩
  | poll => exact ⟨hsorted, htails, hnodup, hnext⟩
  | start hT => exact ⟨hsorted, htails, hnodup, fun a ha ↦ ⟨_, hT ▸ by simp, Option.some.inj ha⟩⟩
  | missing => exact ⟨hsorted, htails, hnodup, by simp⟩
  | idle => exact ⟨hsorted, htails, hnodup, hnext⟩
  | next hT =>
    refine ⟨hsorted, htails, hnodup, fun a ha ↦ ?_⟩
    obtain ⟨x, hx, rfl⟩ := Option.map_eq_some_iff.mp ha
    exact ⟨x, by simp [hT, List.mem_of_mem_head? hx], rfl⟩

/-! ## Delivery -/

/-- A delivery on the way. -/
structure Delivers (r : LoopBackInner) (subject : SubjectId) (delivered : List Address)
    (owed : Set Address) : Prop where
  inv : r.Inv
  walk : Walk subject (slots r.entryTree) r.nextPushPtr {a | a ∈ delivered} owed

theorem Inv.slots_nodup (h : r.Inv) (hT : r.entryTree = as ++ e :: bs) :
    ((slots as ++ e.slot :: slots bs).map Prod.fst).Nodup := by
  rw [← slots_cons, ← slots_append, map_fst_slots, ← hT]
  exact h.nodup

theorem Inv.slots_sorted (h : r.Inv) (hT : r.entryTree = as ++ e :: bs) :
    (slots as ++ e.slot :: slots bs).Pairwise fun x y ↦ x.2 ≤ y.2 := by
  rw [← slots_cons, ← slots_append, ← hT]
  exact List.pairwise_map.mpr h.sorted

/-- The delivery goes on within the subject if it does not overrun it. -/
theorem head?_eq_nextOf (hsame : ∀ n ∈ bs.head?, n.subject = subject) :
    bs.head?.map Entry.address = nextOf subject (slots bs) := by
  cases bs with
  | nil => rfl
  | cons n rest => simp [nextOf, Entry.slot, Option.filter, hsame n (by simp)]

theorem same_of_not_atEnd (hT : r.entryTree = as ++ e :: bs)
    (hnext : r.nextPushPtr = some e.address) (hend : ¬ r.AtEnd) : ∀ n ∈ bs.head?, n.subject =
    e.subject := by
  by_contra hnot
  push Not at hnot
  exact hend ⟨as, e, bs, hT, hnext, hnot⟩

variable {done : List Address} {owed : Set Address}

/-- The frame is pushed to an entry of its subject, and for the first time. -/
theorem Delivers.push (h : r.Delivers subject done owed) (hT : r.entryTree = as ++ e :: bs)
    (hnext : r.nextPushPtr = some e.address) :
    e.subject = subject ∧ e.address ∉ done ∧ ((∀ n ∈ bs.head?, n.subject = e.subject) →
      Walk subject (slots r.entryTree) (bs.head?.map Entry.address)
      {a | a ∈ e.address :: done} owed) := by
  have hwalk := h.walk
  rw [hnext, hT, slots_append, slots_cons] at hwalk
  obtain ⟨hsubject, hnew, hrest⟩ := hwalk.visit (h.inv.slots_nodup hT) (h.inv.slots_sorted hT)
  refine ⟨hsubject, hnew, fun hsame ↦ ?_⟩
  rw [head?_eq_nextOf hsame, mem_deliver, hT, slots_append, slots_cons]
  exact hrest

theorem Delivers.remove (h : r.Delivers subject done owed) (hT : r.entryTree = as ++ e :: bs)
    (hend : ¬ (r.nextPushPtr = some e.address ∧ r.AtEnd)) :
    Walk subject (slots as ++ slots bs)
      (if r.nextPushPtr = some e.address then bs.head?.map Entry.address else r.nextPushPtr)
      ({a | a ∈ done} \ {e.address}) (owed \ {e.address}) := by
  have hwalk := h.walk
  rw [hT, slots_append, slots_cons] at hwalk
  have hremove := hwalk.remove (h.inv.slots_nodup hT) (h.inv.slots_sorted hT)
  by_cases hnext : r.nextPushPtr = some e.address
  · rw [if_pos hnext, head?_eq_nextOf (same_of_not_atEnd hT hnext fun hat ↦ hend ⟨hnext, hat⟩)]
    rwa [if_pos (by exact hnext)] at hremove
  · rw [if_neg hnext]
    rwa [if_neg (by exact hnext)] at hremove

/-- A delivery starts at the first entry of the subject, and it owes all of them. -/
theorem Inv.delivers (h : r.Inv) {started : Bool}
    (hs : Steps r (.pushStart subject) r' (.pushStarted started)) : r'.Delivers subject []
      {a | ∃ e ∈ r.entryTree, e.address = a ∧ e.subject = subject} := by
  refine ⟨h.of_steps hs, ?_⟩
  rw [owed_eq, show {a | a ∈ ([] : List Address)} = ∅ by simp]
  cases hs with
  | @start as bs e hT hlt =>
    dsimp only
    rw [hT, slots_append, slots_cons]
    exact .start (List.forall_mem_map.mpr fun x hx ↦ (hlt x hx).ne) _
  | missing hnot => exact .missing (List.forall_mem_map.mpr hnot)

/-- One step of a delivery, or one in between. -/
theorem Delivers.of_steps (h : r.Delivers subject done owed) {op : Op} {event : Event}
    (hs : Steps r op r' event) (hop : ∀ d, op ≠ .pushStart d) (hover : ¬ r.Overruns op) :
    r'.Delivers subject (deliver done (op, event)) (owed \ {a | op = .unregister a}) := by
  refine ⟨h.inv.of_steps hs, ?_⟩
  have hwalk := h.walk
  cases hs with
  | register _ hT =>
    rw [hT, slots_append] at hwalk
    dsimp only
    rw [slots_append, slots_cons]
    exact (hwalk.insert _).mono Set.sdiff_subset
  | @unregister as bs e hT =>
    rw [unregistered_eq, deliver, mem_forget]
    dsimp only
    rw [slots_append]
    exact h.remove hT hover
  | poll | idle => exact hwalk.mono Set.sdiff_subset
  | start | missing => exact absurd rfl (hop _)
  | next hT hnext =>
    exact ((h.push hT hnext).2.2 (same_of_not_atEnd hT hnext hover)).mono Set.sdiff_subset

/-- A run of a delivery that does not overrun its subject. -/
theorem Delivers.run (h : r.Delivers subject done owed) {ops : List Op}
    (hops : Admissible step (fun r op ↦ r.Valid op ∧ ¬ r.Overruns op) r ops)
    (hone : ∀ op ∈ ops, ∀ d, op ≠ .pushStart d) :
    ∃ r' events, Rust.run step r ops = .ok (r', events) ∧
      r'.Delivers subject ((ops.zip events).foldl deliver done)
        (owed \ {a | .unregister a ∈ ops}) := by
  induction ops generalizing r done owed with
  | nil => exact ⟨r, [], rfl, by simpa using h⟩
  | cons op ops ih =>
    obtain ⟨⟨hop, hover⟩, hrest⟩ := hops
    obtain ⟨r', event, hstep, hs⟩ := h.inv.steps hop
    rw [hstep] at hrest
    obtain ⟨t, events, hrun, ht⟩ :=
      ih (h.of_steps hs (hone op (by simp)) hover) hrest fun op hop ↦ hone op (by simp [hop])
    refine ⟨t, event :: events, run_cons_eq_ok.mpr ⟨r', event, events, hstep, hrun, rfl⟩, ht.inv,
      ?_⟩
    exact ht.walk.mono (still_owed owed op ops)

/-- **A loop-back frame is delivered once to each subscriber**, if its delivery does not overrun the
subject: each push is to an entry of the subject that the frame was not pushed to before, and when
no more are to come, it was pushed to all entries of the subject that were registered throughout. -/
theorem loop_back_delivers_once {before : List Op} (hbefore : Admissible step Valid default before)
    (subject : SubjectId) :
    ∃ r₀ events₀ r₁ started, Rust.run step default before = .ok (r₀, events₀) ∧
      r₀.step (.pushStart subject) = .ok (r₁, .pushStarted started) ∧
      (started = false → ∀ e ∈ r₀.entryTree, e.subject ≠ subject) ∧
      ∀ ops, Admissible step (fun r op ↦ r.Valid op ∧ ¬ r.Overruns op) r₁ ops →
        (∀ op ∈ ops, ∀ d, op ≠ .pushStart d) →
        ∃ r events, Rust.run step r₁ ops = .ok (r, events) ∧
          ∃ r' entry more, r.step .pushNext = .ok (r', .pushed entry more) ∧
            (∀ a, entry = some a → a ∉ delivered (ops.zip events) ∧
              ∃ e ∈ r.entryTree, e.address = a ∧ e.subject = subject) ∧
            (more = false → ∀ e ∈ r₀.entryTree, e.subject = subject →
              .unregister e.address ∉ ops →
              e.address ∈ delivered (ops.zip events) ∨ entry = some e.address) := by
  obtain ⟨r₀, events₀, hrun₀, h₀⟩ := run_of_admissible (fun r op h hop ↦ by
    obtain ⟨r', event, hstep, hs⟩ := Inv.steps h hop
    exact ⟨r', event, hstep, h.of_steps hs⟩) Inv.default hbefore
  obtain ⟨r₁, event, hstart, hs⟩ := h₀.steps (show r₀.Valid (.pushStart subject) from trivial)
  obtain ⟨started, rfl⟩ : ∃ started, event = .pushStarted started := by
    cases hs <;> exact ⟨_, rfl⟩
  refine ⟨r₀, events₀, r₁, started, hrun₀, hstart, ?_, ?_⟩
  · rintro rfl
    cases hs with
    | missing hnot => exact hnot
  · intro ops hops hone
    obtain ⟨r, events, hrun, h⟩ := (h₀.delivers hs).run hops hone
    refine ⟨r, events, hrun, ?_⟩
    obtain ⟨r', event, hstep, hnext⟩ := h.inv.steps (show r.Valid .pushNext from trivial)
    cases hnext with
    | idle hptr =>
      refine ⟨_, _, _, hstep, by simp, fun _ e he hsubject hstays ↦ .inl ?_⟩
      exact (hptr ▸ h.walk).subset ⟨⟨e, he, rfl, hsubject⟩, hstays⟩
    | next hT hptr =>
      obtain ⟨hsubject, hnew, hrest⟩ := h.push hT hptr
      refine ⟨_, _, _, hstep, ?_, fun hmore e he hsame hstays ↦ ?_⟩
      · intro a ha
        cases ha
        exact ⟨hnew, _, hT ▸ by simp, rfl, hsubject⟩
      · have hnone := Option.map_eq_none_iff.mp
          (Option.isNone_iff_eq_none.mp (Option.isSome_eq_false_iff.mp hmore))
        have hwalk := hrest (by simp [hnone])
        rw [hnone] at hwalk
        rcases List.mem_cons.mp (hwalk.subset ⟨⟨e, he, rfl, hsame⟩, hstays⟩) with heq | hmem
        · exact .inr (congrArg some heq.symm)
        · exact .inl hmem

theorem loop_back_delivers_once_two_entries :
    ∃ r₀ events₀ r₁ started, Rust.run step default [.register 1 5, .register 2 5, .register 3 4] =
        .ok (r₀, events₀) ∧
      r₀.step (.pushStart 5) = .ok (r₁, .pushStarted started) ∧
      ∃ r events, Rust.run step r₁ [.pushNext, .register 4 5, .unregister 1] = .ok (r, events) ∧
        ∃ r' entry more, r.step .pushNext = .ok (r', .pushed entry more) ∧
          ∀ a, entry = some a → ∃ e ∈ r.entryTree, e.address = a ∧ e.subject = 5 := by
  obtain ⟨r₀, events₀, r₁, started, hrun₀, hstart, -, h⟩ := loop_back_delivers_once (by decide :
    Admissible step Valid default [.register 1 5, .register 2 5, .register 3 4]) 5
  refine ⟨r₀, events₀, r₁, started, hrun₀, hstart, ?_⟩
  cases hrun₀
  cases hstart
  obtain ⟨r, events, hrun, r', entry, more, hstep, hpush, -⟩ :=
    h [.pushNext, .register 4 5, .unregister 1] (by decide) (by simp)
  exact ⟨r, events, hrun, r', entry, more, hstep, fun a ha ↦ (hpush a ha).2⟩

/-- A frame of one subject is pushed to the entry of another one. -/
theorem loop_back_overruns :
    Admissible step Valid default [.register 1 5, .register 2 7, .pushStart 5,
      .pushNext, .pushNext] ∧
    ∃ r, Rust.run step default [.register 1 5, .register 2 7, .pushStart 5, .pushNext, .pushNext] =
        .ok (r, [.registered (.ok 1), .registered (.ok 2), .pushStarted true, .pushed (some 1) true,
          .pushed (some 2) false]) ∧ ∃ e ∈ r.entryTree, e.address = 2 ∧ e.subject ≠ 5 :=
  ⟨by decide, _, rfl, by decide⟩

end LoopBackInner

end Emcyphal.RxMsg
