import Emcyphal.Lib.Wakeup
import Emcyphal.Registry.Converge

/-!
# The filter task is woken

The task that programs the filters of the driver polls the registry until the poll is pending, and
then sleeps until its waker is woken.  The waker registration keeps the waker of the last poll until
then.

Some operations leave a filter update to be fetched and do not wake the task: an entry that is
enqueued behind others of its subject, and a head whose clean-up mark moves on to the next entry.
They rely on a wake-up that came before them, which is what `Quiet` says: whoever sleeps has nothing
to fetch, so that there are no others in the queue, and no mark to move.
-/

set_option autoImplicit false

namespace Emcyphal.RxMsg

open Rust

namespace RegularInner

/-- There is no filter update to fetch. -/
structure Idle (r : RegularInner) : Prop where
  cleanUpQueue : r.cleanUpQueue = []
  cleanUpLast : r.cleanUpLast = false
  activationQueue : r.activationQueue = []

/-- There is a filter update to fetch. -/
def HasUpdate (r : RegularInner) : Prop :=
  r.cleanUpQueue ≠ [] ∨ r.cleanUpLast = true ∨ r.activationQueue ≠ []

theorem Idle.not_hasUpdate {r : RegularInner} (h : r.Idle) : ¬ r.HasUpdate := by
  rintro (hC | hlast | hQ)
  · exact hC h.cleanUpQueue
  · cases h.cleanUpLast.symm.trans hlast
  · exact hQ h.activationQueue

/-- Whoever sleeps has nothing to fetch. -/
def Quiet (r : RegularInner) : Prop := r.filterUpdateWaker ≠ none → r.Idle

end RegularInner

/-- The slot with the waker of the task. -/
def System.wakers (s : System) : List (Option Waker) := [s.inner.filterUpdateWaker]

/-- The polls of the task. -/
def filterPoll : Op → Event → Option (Option (Waker × Unit))
  | .poll waker, .polled none => some (some (waker, ()))
  | .poll _, .polled (some _) => some none
  | _, _ => none

variable {s s' : System} {r r' : RegularInner} {e : Entry} {event : Event}

theorem Registers.quiet {address : Address} {subject : SubjectId}
    {result : Except RegistrationError Address} (h : s.Inv) (hquiet : s.inner.Quiet)
    (hregisters : Registers s.inner address subject result r) : r.Quiet := by
  cases hregisters with
  | enqueued hI hmem hle hlt =>
    intro hwaker
    -- The others of the subject are in the activation queue, so that nobody sleeps.
    obtain ⟨x, hx, -⟩ := hmem
    have hqueued : x.address ∈ s.inner.activationQueue := by
      rw [h.activation.mem_iff, hI]
      exact List.mem_map_of_mem (List.mem_append_left _ hx)
    rw [(hquiet hwaker).activationQueue] at hqueued
    cases hqueued
  | active hnot hA hmem hle hlt => exact fun hwaker ↦
      ⟨(hquiet hwaker).cleanUpQueue, (hquiet hwaker).cleanUpLast, (hquiet hwaker).activationQueue⟩
  | full hnot hfree => exact hquiet
  | fresh hnot hfree hI hle hlt => exact fun hwaker ↦ absurd rfl hwaker

theorem Unregisters.quiet (hquiet : s.inner.Quiet) (hunregisters : Unregisters s.inner e r) :
    r.Quiet := by
  cases hunregisters with
  | @head as bs e hA hhead =>
    intro hwaker
    rw [RegularInner.headRemoved] at hwaker ⊢
    dsimp only at hwaker
    cases hcredits : s.inner.credits e bs with
    | true =>
      rw [hcredits, if_pos rfl] at hwaker
      exact absurd rfl hwaker
    | false =>
      rw [hcredits, if_neg Bool.false_ne_true] at hwaker
      obtain ⟨hC, hlast, hQ⟩ := hquiet hwaker
      have hbs : bs.isEmpty = false := by
        cases bs with
        | nil => cases hcredits
        | cons => rfl
      refine ⟨?_, ?_, hQ⟩
      · simp [hC]
      · simp [hlast, hbs]
  | tail hA htail => exact fun hwaker ↦
      ⟨(hquiet hwaker).cleanUpQueue, (hquiet hwaker).cleanUpLast, (hquiet hwaker).activationQueue⟩
  | inactive hI hQ =>
    intro hwaker
    have hnil := (hquiet hwaker).activationQueue
    rw [hQ] at hnil
    simp at hnil

/-- Whoever polls successfully does not sleep before, and whoever polls in vain does afterwards. -/
theorem Polls.quiet {waker : Waker} {result : Option (Except CallAgain FilterUpdate)}
    (hquiet : r.Quiet) (hpolls : Polls r waker result r') : r'.Quiet := by
  cases hpolls with
  | cleanUp hC => exact fun hwaker ↦ absurd (hquiet hwaker).cleanUpQueue (by simp [hC])
  | cleanUpLast hC hlast => exact fun hwaker ↦ absurd (hquiet hwaker).cleanUpLast (by simp [hlast])
  | activate hC hlast hQ => exact fun hwaker ↦ absurd (hquiet hwaker).activationQueue (by simp [hQ])
  | pending hC hlast hQ => exact fun _ ↦ ⟨hC, hlast, hQ⟩

theorem Steps.quiet {op : Op} (h : s.Inv) (hquiet : s.inner.Quiet)
    (hs : Steps s op s' event) : s'.inner.Quiet := by
  cases hs with
  | register hnew hr => exact hr.quiet h hquiet
  | unregister he hr => exact hr.quiet hquiet
  | poll hp => exact hp.quiet hquiet
  | pushStart hp =>
    cases hp with
    | found | missing =>
      exact fun hwaker ↦ ⟨(hquiet hwaker).1, (hquiet hwaker).2, (hquiet hwaker).3⟩
  | pushNext hp =>
    cases hp with
    | idle => exact hquiet
    | next => exact fun hwaker ↦ ⟨(hquiet hwaker).1, (hquiet hwaker).2, (hquiet hwaker).3⟩

/-- Only a poll registers a waker. -/
theorem Steps.waker {op : Op} (hs : Steps s op s' event) (hpoll : filterPoll op event = none) :
    s'.inner.filterUpdateWaker = s.inner.filterUpdateWaker ∨ s'.inner.filterUpdateWaker = none := by
  cases hs with
  | register hnew hr =>
    cases hr with
    | enqueued | active | full => exact .inl rfl
    | fresh => exact .inr rfl
  | unregister he hr =>
    cases hr with
    | head hA hhead =>
      rw [RegularInner.headRemoved]
      dsimp only
      split
      · exact .inr rfl
      · exact .inl rfl
    | tail | inactive => exact .inl rfl
  | poll hp =>
    cases hp with
    | cleanUp | cleanUpLast | activate | pending => cases hpoll
  | pushStart hp => cases hp <;> exact .inl rfl
  | pushNext hp => cases hp <;> exact .inl rfl

/-- A poll that is pending registers its waker. -/
theorem Steps.pending {op : Op} {waker : Waker} {q : Unit} (hs : Steps s op s' event)
    (hpoll : filterPoll op event = some (some (waker, q))) :
    s'.inner.filterUpdateWaker = some waker := by
  cases hs with
  | poll hp =>
    cases hp with
    | cleanUp | cleanUpLast | activate => cases hpoll
    | pending =>
      cases hpoll
      rfl
  | register | unregister | pushStart | pushNext => cases hpoll

/-- **The filter task does not miss a wake-up.**  As long as the last poll is pending and its waker
was not woken since, there is no filter update to fetch. -/
theorem filter_task_woken (subjectSlotCount : ℕ) :
    NoMissedWakeup System.step System.wakers System.Valid filterPoll
      (fun _ s ↦ s.inner.HasUpdate) (System.new subjectSlotCount) := by
  refine .of_waits (fun s ↦ s.Inv ∧ s.inner.Quiet)
    (fun waker _ s ↦ s.inner.filterUpdateWaker = some waker) (fun s op hs hop ↦ ?_)
    (fun waker _ s hs hwaker ↦ ?_)
    ⟨System.Inv.new subjectSlotCount, fun hwaker ↦ absurd rfl hwaker⟩
  · obtain ⟨s', event, hstep, hsteps⟩ := hs.1.steps hop
    refine ⟨s', event, hstep, ⟨hs.1.of_steps hsteps, hsteps.quiet hs.1 hs.2⟩,
      fun waker q hpoll ↦ hsteps.pending hpoll, fun hpoll waker _ hwaker hnot ↦ ?_⟩
    rcases hsteps.waker hpoll with hsame | hnone
    · exact hsame.trans hwaker
    · refine absurd (mem_woken_of_getElem? (i := 0) ?_ ?_) hnot
      · exact congrArg some hwaker
      · exact congrArg some hnone
  · exact (hs.2 (by rw [hwaker]; exact Option.some_ne_none _)).not_hasUpdate

/-- The second entry of a subject is active at once, and the task sleeps on, until there is another
subject. -/
theorem filter_task_woken_two_entries :
    (∃ s events, run (heard System.step System.wakers) (System.new 2)
        [.register 1 5, .poll 7, .poll 7, .register 2 5] = .ok (s, events) ∧
      ([Op.register 1 5, .poll 7, .poll 7, .register 2 5].zip events).foldl (asleep filterPoll)
        none = some (7, ()) ∧ ¬ s.inner.HasUpdate) ∧
    ∃ s events, run (heard System.step System.wakers) (System.new 2)
        [.register 1 5, .poll 7, .poll 7, .register 2 5, .register 3 6] = .ok (s, events) ∧
      ([Op.register 1 5, .poll 7, .poll 7, .register 2 5, .register 3 6].zip events).foldl
        (asleep filterPoll) none = none := by
  refine ⟨?_, _, _, rfl, rfl⟩
  obtain ⟨s, events, hrun, h⟩ := filter_task_woken 2
    [.register 1 5, .poll 7, .poll 7, .register 2 5] (by decide)
  have hrun' := hrun
  cases hrun
  exact ⟨_, _, hrun', rfl, h 7 () rfl⟩

end Emcyphal.RxMsg
