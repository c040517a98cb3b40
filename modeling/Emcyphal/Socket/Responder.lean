import Emcyphal.Lib.Machine
import Emcyphal.Rx.PriorityFifo
import Emcyphal.Tx.Response

/-!
# The wait loop of the responder

`Responder::process_request` in `emcyphal/src/socket.rs` waits until there is a request of a
priority that a response can be pushed at.  It keeps a set of priorities for either side, and as
long as they have nothing in common it waits for more.

A poll of the task comes with what the two buffers report by then, which is all that the loop sees
of them.  `Phase` is where the task waits, and `Turn` what a poll of one of its futures leads to; a
turn of the loop is an `iteration` when the `select` in its body has returned.

The loop passes the priorities it has as masks, where it would have to pass those it has not.  So no
iteration ever adds anything, and if something is reported at once the loop goes on without
suspending.
-/

set_option autoImplicit false

namespace Emcyphal.Responder

open Rust

/-- What the request and the response buffer report when they are polled. -/
structure Readiness where
  req : PrioritySet
  resp : PrioritySet
deriving DecidableEq

/-- What a buffer that reports `readiness` answers to a poll with a mask; `none` is
`Poll::Pending`. -/
def pollReadiness (readiness priorityMask : PrioritySet) : Option PrioritySet :=
  let priorities := readiness &&& priorityMask
  if !priorities.isEmpty then some priorities else none

theorem pollPopReadiness_eq {SN TN : ℕ} (r : RxPriorityFifoInner SN TN) (waker : Waker)
    (mask : PrioritySet) : (r.pollPopReadiness waker mask).1 =
    pollReadiness r.popReadiness mask := by
  rw [RxPriorityFifoInner.pollPopReadiness, pollReadiness]
  split <;> rfl

theorem pollPushReadiness_eq (r : Response.ResponseBufferInner) (waker : Waker)
    (mask : PrioritySet) :
    (r.pollPushReadiness waker mask).1 = pollReadiness r.pushReadiness mask := by
  rw [Response.ResponseBufferInner.pollPushReadiness, pollReadiness]
  split <;> rfl

inductive Either
  | first (priority : PrioritySet)
  | second (priority : PrioritySet)
deriving DecidableEq

/-- `select` polls the first future, and then the second if the first is pending. -/
def select (first second : Option PrioritySet) : Option Either :=
  match first with
  | some priority => some (.first priority)
  | none => second.map .second

/-- The future that the task waits for. -/
inductive Phase
  | waitReq
  | waitResp (reqPriorities : PrioritySet)
  /-- An iteration of the loop, and whether it has suspended the task. -/
  | select (reqPriorities respPriorities : PrioritySet) (suspended : Bool)
  /-- The loop was left. -/
  | fetch (respPriorities : PrioritySet)
deriving DecidableEq

/-- What a poll leads to. -/
inductive Turn
  | suspended
  | ready
  /-- An iteration of the loop is over: whether it has suspended the task, and added a priority. -/
  | iteration (suspended added : Bool)
deriving DecidableEq

/-- `while (req_priorities & resp_priorities).is_empty()`. -/
def Phase.loop (reqPriorities respPriorities : PrioritySet) : Phase :=
  if (reqPriorities &&& respPriorities).isEmpty then .select reqPriorities respPriorities false
  else .fetch respPriorities

/-- The set has a priority that the other one has not. -/
def adds (old new : PrioritySet) : Bool := !(new &&& ~~~old).isEmpty

def Phase.poll (now : Readiness) : Phase → Phase × Turn
  | .waitReq =>
    match pollReadiness now.req .ALL with
    | some reqPriorities => (.waitResp reqPriorities, .ready)
    | none => (.waitReq, .suspended)
  | .waitResp reqPriorities =>
    match pollReadiness now.resp .ALL with
    | some respPriorities => (.loop reqPriorities respPriorities, .ready)
    | none => (.waitResp reqPriorities, .suspended)
  | .select reqPriorities respPriorities suspended =>
    match Responder.select (pollReadiness now.req reqPriorities)
      (pollReadiness now.resp respPriorities) with
    | some (.first priority) =>
      (.loop (reqPriorities ||| priority) respPriorities,
      .iteration suspended (adds reqPriorities priority))
    | some (.second priority) =>
      (.loop reqPriorities (respPriorities ||| priority),
      .iteration suspended (adds respPriorities priority))
    | none => (.select reqPriorities respPriorities true, .suspended)
  | .fetch respPriorities => (.fetch respPriorities, .ready)

def step (phase : Phase) (now : Readiness) : Exec (Phase × Turn) := .ok (phase.poll now)

/-! ## When it spins -/

def Turn.isIteration : Turn → Bool
  | .iteration _ _ => true
  | _ => false

/-- No iteration is over without suspending the task or adding a priority, and at most 16 are over
between two suspensions. -/
def NeverSpins (turns : List Turn) : Prop :=
  .iteration false false ∉ turns ∧
  ∀ as bs cs, turns = as ++ bs ++ cs → .suspended ∉ bs → (bs.filter Turn.isIteration).length ≤ 16

/-- When an iteration starts, neither buffer reports a priority that the loop has already. -/
def StartsIdle (phase : Phase) (now : Readiness) : Prop :=
  match phase with
  | .select reqPriorities respPriorities false =>
    (now.req &&& reqPriorities).isEmpty = true ∧ (now.resp &&& respPriorities).isEmpty = true
  | _ => True

instance : (phase : Phase) → (now : Readiness) → Decidable (StartsIdle phase now)
  | .select _ _ false, _ => inferInstanceAs (Decidable (_ ∧ _))
  | .select _ _ true, _ | .waitReq, _ | .waitResp _, _ | .fetch _, _ => isTrue trivial

theorem pollReadiness_eq_none {readiness mask : PrioritySet} :
    pollReadiness readiness mask = none ↔ (readiness &&& mask).isEmpty = true := by
  rw [pollReadiness]
  cases (readiness &&& mask).isEmpty <;> simp

/-- **A poll reports nothing that the mask does not have**: an iteration adds nothing. -/
theorem adds_pollReadiness {readiness mask p : PrioritySet}
    (h : pollReadiness readiness mask = some p) :
    adds mask p = false := by
  rw [pollReadiness] at h
  split at h
  · cases h
    rw [adds, Bool.not_eq_false', PrioritySet.isEmpty_iff]
    intro q
    simp only [PrioritySet.contains_and, PrioritySet.contains_not]
    cases mask.contains q <;> simp
  · cases h

/-- The turn of a poll in the loop. -/
theorem poll_select (now : Readiness) (req resp : PrioritySet) (suspended : Bool) :
    ((now.req &&& req).isEmpty = true ∧ (now.resp &&& resp).isEmpty = true ∧
      Phase.poll now (.select req resp suspended) = (.select req resp true, .suspended)) ∨
    (¬ ((now.req &&& req).isEmpty = true ∧ (now.resp &&& resp).isEmpty = true) ∧
      ∃ req' resp', Phase.poll now (.select req resp suspended) =
        (.loop req' resp', .iteration suspended false)) := by
  rw [Phase.poll]
  cases hreq : pollReadiness now.req req with
  | some p =>
    refine .inr ⟨fun h ↦ ?_, req ||| p, resp, ?_⟩
    · rw [pollReadiness_eq_none.mpr h.1] at hreq
      cases hreq
    · dsimp only [select]
      rw [adds_pollReadiness hreq]
  | none =>
    rw [pollReadiness_eq_none] at hreq
    cases hresp : pollReadiness now.resp resp with
    | some p =>
      refine .inr ⟨fun h ↦ ?_, req, resp ||| p, ?_⟩
      · rw [pollReadiness_eq_none.mpr h.2] at hresp
        cases hresp
      · dsimp only [select, Option.map_some]
        rw [adds_pollReadiness hresp]
    | none => exact .inl ⟨hreq, pollReadiness_eq_none.mp hresp, rfl⟩

/-- The phase is an iteration that has suspended the task. -/
def Phase.IsSuspended : Phase → Prop
  | .select _ _ true => True
  | _ => False

theorem not_isSuspended_loop (req resp : PrioritySet) : ¬ (Phase.loop req resp).IsSuspended := by
  rw [Phase.loop]
  split <;> exact id

/-- An iteration spins if it does not start idle. -/
theorem spins_iff (phase : Phase) (now : Readiness) :
    (phase.poll now).2 = .iteration false false ↔ ¬ StartsIdle phase now := by
  cases phase with
  | select req resp suspended =>
    rcases poll_select now req resp suspended with ⟨hreq, hresp, hpoll⟩ | ⟨hnot, req', resp', hpoll⟩
    · rw [hpoll]
      cases suspended <;> simp [StartsIdle, hreq, hresp]
    · rw [hpoll]
      cases suspended
      · exact iff_of_true rfl hnot
      · simp [StartsIdle]
  | waitReq =>
    rw [Phase.poll]
    cases pollReadiness now.req .ALL <;> simp [StartsIdle]
  | waitResp req =>
    rw [Phase.poll]
    cases pollReadiness now.resp .ALL <;> simp [StartsIdle]
  | fetch resp => simp [Phase.poll, StartsIdle]

/-- If it starts idle, an iteration is over only in a phase that comes after a suspension. -/
theorem isSuspended_of_isIteration {phase : Phase} {now : Readiness} (hidle : StartsIdle phase now)
    (h : (phase.poll now).2.isIteration = true) : phase.IsSuspended := by
  cases phase with
  | select req resp suspended =>
    cases suspended
    · rcases poll_select now req resp false with ⟨-, -, hpoll⟩ | ⟨hnot, -⟩
      · rw [hpoll] at h
        cases h
      · exact absurd hidle hnot
    · trivial
  | waitReq =>
    rw [Phase.poll] at h
    cases hreq : pollReadiness now.req .ALL <;> rw [hreq] at h <;> cases h
  | waitResp req =>
    rw [Phase.poll] at h
    cases hresp : pollReadiness now.resp .ALL <;> rw [hresp] at h <;> cases h
  | fetch resp => cases h

theorem suspended_of_isSuspended {phase : Phase} {now : Readiness}
    (h : (phase.poll now).1.IsSuspended) : (phase.poll now).2 = .suspended := by
  cases phase with
  | select req resp suspended =>
    rcases poll_select now req resp suspended with ⟨-, -, hpoll⟩ | ⟨-, req', resp', hpoll⟩
    · rw [hpoll]
    · rw [hpoll] at h
      exact absurd h (not_isSuspended_loop req' resp')
  | waitReq =>
    rw [Phase.poll] at h
    cases hreq : pollReadiness now.req .ALL <;> rw [hreq] at h <;> cases h
  | waitResp req =>
    rw [Phase.poll] at h
    cases hresp : pollReadiness now.resp .ALL with
    | none =>
      rw [hresp] at h
      cases h
    | some resp =>
      rw [hresp] at h
      exact absurd h (not_isSuspended_loop req resp)
  | fetch resp => cases h

/-- An iteration comes right after a suspension. -/
def Follows (turn next : Turn) : Prop := next.isIteration = true → turn = .suspended

/-- Between two suspensions, only the first turn can be an iteration. -/
theorem not_isIteration_of_isChain {turn : Turn} {turns : List Turn}
    (h : (turn :: turns).IsChain Follows) (hno : .suspended ∉ turn :: turns) :
    ∀ t ∈ turns, t.isIteration = false := by
  induction turns generalizing turn with
  | nil => nofun
  | cons next turns ih =>
    obtain ⟨hfollows, hrest⟩ := List.isChain_cons_cons.mp h
    have hnext : next.isIteration = false := by
      rw [← Bool.not_eq_true]
      intro hiter
      rw [hfollows hiter] at hno
      exact hno List.mem_cons_self
    exact List.forall_mem_cons.mpr ⟨hnext, ih hrest fun hmem ↦ hno (List.mem_cons_of_mem _ hmem)⟩

theorem length_filter_isIteration_le {turns : List Turn} (h : turns.IsChain Follows)
    (hno : .suspended ∉ turns) : (turns.filter Turn.isIteration).length ≤ 1 := by
  cases turns with
  | nil => exact Nat.zero_le 1
  | cons turn turns =>
    have hrest : turns.filter Turn.isIteration = [] :=
      List.filter_eq_nil_iff.mpr fun t ht ↦ by simp [not_isIteration_of_isChain h hno t ht]
    rw [List.filter_cons]
    split <;> simp [hrest]

/-- The turns of a run. -/
theorem run_turns (phase : Phase) (nows : List Readiness) : ∃ phase' turns,
    run step phase nows = .ok (phase', turns) ∧
    (.iteration false false ∉ turns ↔ Admissible step StartsIdle phase nows) ∧
    (Admissible step StartsIdle phase nows → turns.IsChain Follows ∧
      ∀ t ∈ turns.head?, t.isIteration = true → phase.IsSuspended) := by
  induction nows generalizing phase with
  | nil => exact ⟨phase, [], rfl, by simp [Admissible], fun _ ↦ ⟨.nil, by simp⟩⟩
  | cons now nows ih =>
    obtain ⟨phase', turns, hrun, hspins, hchain⟩ := ih (phase.poll now).1
    have hadmissible : Admissible step StartsIdle phase (now :: nows) ↔
        StartsIdle phase now ∧ Admissible step StartsIdle (phase.poll now).1 nows := Iff.rfl
    refine ⟨phase', (phase.poll now).2 :: turns,
      run_cons_eq_ok.mpr ⟨_, _, _, rfl, hrun, rfl⟩, ?_, fun h ↦ ?_⟩
    · have hfirst := spins_iff phase now
      rw [hadmissible, List.mem_cons, not_or, hspins, eq_comm, hfirst, not_not]
    · obtain ⟨hidle, hrest⟩ := hadmissible.mp h
      obtain ⟨hturns, hhead⟩ := hchain hrest
      refine ⟨List.isChain_cons.mpr ⟨fun t ht hiter ↦ ?_, hturns⟩, fun t ht hiter ↦ ?_⟩
      · exact suspended_of_isSuspended (hhead t ht hiter)
      · cases ht
        exact isSuspended_of_isIteration hidle hiter

/-- **The wait loop does not spin** exactly if neither buffer reports, at the start of any
iteration, a priority that the loop knows already. -/
theorem never_spins_iff (nows : List Readiness) : ∃ phase turns,
    run step .waitReq nows = .ok (phase, turns) ∧
      (NeverSpins turns ↔ Admissible step StartsIdle .waitReq nows) := by
  obtain ⟨phase, turns, hrun, hspins, hchain⟩ := run_turns .waitReq nows
  refine ⟨phase, turns, hrun, fun h ↦ hspins.mp h.1, fun h ↦ ⟨hspins.mpr h, ?_⟩⟩
  intro as bs cs hsplit hno
  have hturns := (hchain h).1
  rw [hsplit] at hturns
  have hbs : bs.IsChain Follows := hturns.left_of_append.right_of_append
  exact (length_filter_isIteration_le hbs hno).trans (by decide)

/-- A request of priority nominal is there, and responses can be pushed at all other priorities. -/
theorem spins_at_once : (run step .waitReq
      (List.replicate 20 ⟨.newEq .nominal, ~~~.newEq .nominal⟩)).map (fun x ↦ x.2.drop 2) =
    .ok (List.replicate 18 (.iteration false false)) := by
  decide

end Emcyphal.Responder
