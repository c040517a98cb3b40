import Emcyphal.Can.Native.Mailbox
import Emcyphal.Endpoint
import Emcyphal.Lib.Machine
import Mathlib.Data.Finset.Card

/-!
# The handles of the native driver

`emcyphal-stm32-native/src/driver.rs`.  The driver and its three runners share a state with the
interrupt handlers.  It is there as long as one of them is: each `InfoRef` counts, and the last one
that is dropped stops the peripheral and frees the state.

A `Driver` is created with one handle.  `start` starts the peripheral, gives a handle to each
runner, and drops its own.  So the peripheral takes part in the traffic as long as there is a
runner, and until then and afterwards it does not (`released_with_last_handle`).
-/

set_option autoImplicit false

namespace Emcyphal.Can.Native

open Rust

/-- The pins are left out, and so is what `raw::Control` refers to. -/
structure State where
  control : Bool
  rxTrigger : Option Waker
  txUnpendMask : TxMailboxSet
  txTrigger : Option Waker
  refCounter : ℕ
deriving DecidableEq

/-- The static of a peripheral, and what its handles write in the peripheral. -/
structure Info where
  state : Option State
  /-- `CCCR.INIT`.  The peripheral takes part in the traffic while this is not set. -/
  init : Bool
  interruptsEnabled : Bool
deriving DecidableEq

namespace Info

def new : Info := ⟨none, true, false⟩

def wakeRx (i : Info) : Info :=
  { i with state := i.state.map fun state ↦ { state with rxTrigger := none } }

def wakeTx (i : Info) (pendingMailboxes : TxMailboxSet) : Info :=
  { i with
    state := i.state.map fun state ↦
      if pendingMailboxes &&& state.txUnpendMask = .NONE then { state with txTrigger := none }
      else state }

/-! ## `InfoRef` -/

/-- `None` if there is a state already. -/
def create (i : Info) : Option Info :=
  match i.state with
  | some _ => none
  | none => some { i with
      state := some {
        control := false
        rxTrigger := none
        txUnpendMask := .ALL
        txTrigger := none
        refCounter := 1 } }

def registerRxWaker (i : Info) (w : Waker) : Exec Info := do
  let state ← unwrap i.state
  return { i with state := some { state with rxTrigger := some w } }

def registerTxWaker (i : Info) (w : Waker) (unpendMask : TxMailboxSet) : Exec Info := do
  let state ← unwrap i.state
  return { i with
    state := some { state with txUnpendMask := unpendMask, txTrigger := some w } }

def setControl (i : Info) : Exec Info := do
  let state ← unwrap i.state
  return { i with state := some { state with control := true } }

/-- The counter has eight bits. -/
def clone (i : Info) : Exec Info := do
  let state ← unwrap i.state
  if state.refCounter + 1 < 2 ^ 8 then
    return { i with state := some { state with refCounter := state.refCounter + 1 } }
  else .error .overflow

def drop (i : Info) : Exec Info := do
  let state ← unwrap i.state
  let refCounter ← sub state.refCounter 1
  if refCounter = 0 then
    return {
      state := none
      init := if state.control then true else i.init
      interruptsEnabled := false }
  else return { i with state := some { state with refCounter := refCounter } }

end Info

/-! ## The driver -/

/-- Who has an `InfoRef`. -/
inductive Handle
  | driver
  | rxFilterRunner
  | rxRunner
  | txRunner
deriving DecidableEq

/-- The runners that `start` returns. -/
def runners : Finset Handle := {.rxFilterRunner, .rxRunner, .txRunner}

/-- The driver of a peripheral, with the handles there are. -/
structure Driver where
  info : Info
  handles : Finset Handle

namespace Driver

inductive Op
  | new
  | start
  | drop (handle : Handle)
  | registerRxWaker (w : Waker)
  | registerTxWaker (w : Waker) (unpendMask : TxMailboxSet)
  /-- The interrupt handlers. -/
  | wakeRx
  | wakeTx (pendingMailboxes : TxMailboxSet)

/-- Nobody has a handle. -/
def idle : Driver := ⟨.new, ∅⟩

/-- `Driver::new`.  The peripheral is reset, and is left in its initialization mode. -/
def create (d : Driver) : Exec Driver := do
  let info ← unwrap d.info.create
  return ⟨{ info with init := true, interruptsEnabled := true }, {.driver}⟩

/-- The peripheral is started, each runner gets a clone, and the driver is dropped. -/
def start (d : Driver) : Exec Driver := do
  let info ← { d.info with init := false }.setControl
  let info ← info.clone
  let info ← info.clone
  let info ← info.clone
  let info ← info.drop
  return ⟨info, runners⟩

/-- A driver that was created and started. -/
def started : Driver where
  info := {
    state := some {
      control := true
      rxTrigger := none
      txUnpendMask := .ALL
      txTrigger := none
      refCounter := 3 }
    init := false
    interruptsEnabled := true }
  handles := runners

def step (d : Driver) : Op → Exec (Driver × Unit)
  | .new => (·, ()) <$> d.create
  | .start => (·, ()) <$> d.start
  | .drop handle => (fun info ↦ (⟨info, d.handles.erase handle⟩, ())) <$> d.info.drop
  | .registerRxWaker w => (fun info ↦ ({ d with info := info }, ())) <$> d.info.registerRxWaker w
  | .registerTxWaker w unpendMask =>
    (fun info ↦ ({ d with info := info }, ())) <$> d.info.registerTxWaker w unpendMask
  | .wakeRx => .ok ({ d with info := d.info.wakeRx }, ())
  | .wakeTx pendingMailboxes => .ok ({ d with info := d.info.wakeTx pendingMailboxes }, ())

/-- A driver borrows the peripheral, and is consumed by `start`.  The runners register wakers, and
whoever there is can be dropped. -/
def Valid (d : Driver) : Op → Prop
  | .new => d.handles = ∅
  | .start => .driver ∈ d.handles
  | .drop handle => handle ∈ d.handles
  | .registerRxWaker _ => .rxRunner ∈ d.handles
  | .registerTxWaker _ _ => .txRunner ∈ d.handles
  | .wakeRx | .wakeTx _ => True

instance decidableValid (d : Driver) : (op : Op) → Decidable (d.Valid op)
  | .new => inferInstanceAs (Decidable (_ = _))
  | .start | .drop _ | .registerRxWaker _ | .registerTxWaker _ _ =>
    inferInstanceAs (Decidable (_ ∈ _))
  | .wakeRx | .wakeTx _ => isTrue trivial

/-- The state counts the handles. -/
structure Inv (d : Driver) : Prop where
  handles : d.handles = {.driver} ∨ d.handles ⊆ runners
  isSome : d.info.state.isSome = true ↔ d.handles ≠ ∅
  refCounter : ∀ state, d.info.state = some state → state.refCounter = d.handles.card ∧
    (state.control = true ↔ .driver ∉ d.handles)
  init : d.info.init = false ↔ d.handles ≠ ∅ ∧ .driver ∉ d.handles
  interrupts : d.info.interruptsEnabled = true ↔ d.handles ≠ ∅

variable {d : Driver} {handle : Handle}

theorem inv_idle : Inv idle where
  handles := .inr (Finset.empty_subset _)
  isSome := by simp [idle, Info.new]
  refCounter := by simp [idle, Info.new]
  init := by simp [idle, Info.new]
  interrupts := by simp [idle, Info.new]

/-- There is a state for who has a handle. -/
theorem Inv.exists_state (h : d.Inv) (hhandle : handle ∈ d.handles) :
    ∃ state, d.info.state = some state :=
  Option.isSome_iff_exists.mp (h.isSome.mpr (Finset.ne_empty_of_mem hhandle))

theorem Inv.create (h : d.Inv) (hnone : d.handles = ∅) :
    ∃ d', d.create = .ok d' ∧ d'.Inv := by
  have hstate : d.info.state = none := by
    rw [← Option.not_isSome_iff_eq_none, h.isSome]
    exact not_not_intro hnone
  refine ⟨_, by rw [Driver.create, Info.create, hstate]; rfl, ?_⟩
  constructor <;> simp

/-- There is one handle before, and three afterwards. -/
theorem Inv.start (h : d.Inv) (hdriver : .driver ∈ d.handles) :
    ∃ d', d.start = .ok d' ∧ d'.Inv := by
  have hhandles : d.handles = {.driver} := h.handles.resolve_right fun hsub ↦
    absurd (hsub hdriver) (by decide)
  obtain ⟨state, hstate⟩ := h.exists_state hdriver
  obtain ⟨hcount, -⟩ := h.refCounter state hstate
  rw [hhandles, Finset.card_singleton] at hcount
  have hinterrupts : d.info.interruptsEnabled = true :=
    h.interrupts.mpr (Finset.ne_empty_of_mem hdriver)
  refine ⟨⟨⟨some { state with control := true, refCounter := 3 }, false, true⟩, runners⟩, ?_, ?_⟩
  · simp [Driver.start, Info.setControl, Info.clone, Info.drop, hstate, hcount, hinterrupts, sub]
  · constructor <;> simp [runners]

theorem create_start : idle.create >>= start = .ok started := rfl

theorem inv_started : Inv started := by
  obtain ⟨d, hcreate, h⟩ := inv_idle.create rfl
  have hstart : d.start = .ok started := by
    rw [← create_start, hcreate]
    rfl
  cases hcreate
  obtain ⟨d', hstart', h'⟩ := h.start (by decide)
  cases hstart.symm.trans hstart'
  exact h'

/-- The state is freed with the last handle. -/
theorem Inv.drop (h : d.Inv) (hhandle : handle ∈ d.handles) :
    ∃ info, d.info.drop = .ok info ∧ Inv ⟨info, d.handles.erase handle⟩ := by
  obtain ⟨state, hstate⟩ := h.exists_state hhandle
  obtain ⟨hcount, hcontrol⟩ := h.refCounter state hstate
  have hcard := Finset.card_erase_of_mem hhandle
  have hpos := Finset.card_pos.mpr ⟨handle, hhandle⟩
  have hne := Finset.ne_empty_of_mem hhandle
  have hhandles : d.handles.erase handle = {.driver} ∨ d.handles.erase handle ⊆ runners := by
    rcases h.handles with hone | hsub
    · rw [hone, Finset.mem_singleton] at hhandle
      refine .inr ?_
      rw [hone, hhandle, Finset.erase_singleton]
      exact Finset.empty_subset _
    · exact .inr ((Finset.erase_subset _ _).trans hsub)
  by_cases hlast : d.handles.card = 1
  · have hempty : d.handles.erase handle = ∅ := by
      rw [← Finset.card_eq_zero, hcard, hlast]
    refine ⟨⟨none, if state.control then true else d.info.init, false⟩, ?_, ?_⟩
    · simp [Info.drop, hstate, hcount, hlast, sub]
    · rw [hempty]
      refine ⟨.inr (Finset.empty_subset _), by simp, by simp, ?_, by simp⟩
      -- A peripheral that was not started is not stopped.
      cases hcases : state.control with
      | true => simp
      | false =>
        have hdriver : .driver ∈ d.handles := by
          by_contra hnot
          rw [hcontrol.mpr hnot] at hcases
          cases hcases
        have hinit : d.info.init ≠ false := fun hinit ↦ (h.init.mp hinit).2 hdriver
        simpa using hinit
  · have hrest : d.handles.erase handle ≠ ∅ := by
      rw [Ne, ← Finset.card_eq_zero, hcard]
      omega
    have hdriver : .driver ∉ d.handles := by
      rcases h.handles with hone | hsub
      · rw [hone, Finset.card_singleton] at hlast
        exact absurd rfl hlast
      · exact fun hmem ↦ absurd (hsub hmem) (by decide)
    have hdriver' : .driver ∉ d.handles.erase handle :=
      fun hmem ↦ hdriver (Finset.mem_of_mem_erase hmem)
    refine ⟨{ d.info with state := some { state with refCounter := d.handles.card - 1 } }, ?_, ?_⟩
    · rw [Info.drop, hstate, unwrap_some, ok_bind, hcount, sub, if_pos (Nat.succ_le_of_lt hpos),
        ok_bind, if_neg (by omega)]
      rfl
    · refine ⟨hhandles, by simpa using hrest, ?_, ?_, ?_⟩
      · rintro _ ⟨⟩
        exact ⟨hcard.symm, by simp [hcontrol, hdriver, hdriver']⟩
      · simp [h.init, hne, hrest, hdriver, hdriver']
      · simp [h.interrupts, hne, hrest]

/-- A waker is registered, or woken. -/
theorem Inv.keep (h : d.Inv) {state' : Option State}
    (hsome : state'.isSome = d.info.state.isSome)
    (hkeeps : ∀ s', state' = some s' → ∃ s, d.info.state = some s ∧ s'.refCounter = s.refCounter ∧
      s'.control = s.control) : Inv { d with info := { d.info with state := state' } } where
  handles := h.handles
  isSome := by rw [← h.isSome, ← hsome]
  refCounter := fun s' hs' ↦ by
    obtain ⟨s, hs, hcount, hcontrol⟩ := hkeeps s' hs'
    rw [hcount, hcontrol]
    exact h.refCounter s hs
  init := h.init
  interrupts := h.interrupts

theorem Inv.step (h : d.Inv) {op : Op} (hop : d.Valid op) :
    ∃ d' u, d.step op = .ok (d', u) ∧ d'.Inv := by
  cases op with
  | new =>
    obtain ⟨d', hcreate, h'⟩ := h.create hop
    exact ⟨d', (), by rw [Driver.step, hcreate]; rfl, h'⟩
  | start =>
    obtain ⟨d', hstart, h'⟩ := h.start hop
    exact ⟨d', (), by rw [Driver.step, hstart]; rfl, h'⟩
  | drop handle =>
    obtain ⟨info, hdrop, h'⟩ := h.drop hop
    exact ⟨_, (), by rw [Driver.step, hdrop]; rfl, h'⟩
  | registerRxWaker w =>
    obtain ⟨state, hstate⟩ := h.exists_state hop
    refine ⟨_, (), by rw [Driver.step, Info.registerRxWaker, hstate]; rfl, h.keep ?_ ?_⟩
    · rw [hstate, Option.isSome_some, Option.isSome_some]
    · rintro _ ⟨⟩
      exact ⟨state, hstate, rfl, rfl⟩
  | registerTxWaker w unpendMask =>
    obtain ⟨state, hstate⟩ := h.exists_state hop
    refine ⟨_, (), by rw [Driver.step, Info.registerTxWaker, hstate]; rfl, h.keep ?_ ?_⟩
    · rw [hstate, Option.isSome_some, Option.isSome_some]
    · rintro _ ⟨⟩
      exact ⟨state, hstate, rfl, rfl⟩
  | wakeRx =>
    refine ⟨_, (), rfl, h.keep Option.isSome_map ?_⟩
    rintro s' hs'
    obtain ⟨s, hs, rfl⟩ := Option.map_eq_some_iff.mp hs'
    exact ⟨s, hs, rfl, rfl⟩
  | wakeTx pendingMailboxes =>
    refine ⟨_, (), rfl, h.keep Option.isSome_map ?_⟩
    rintro s' hs'
    obtain ⟨s, hs, rfl⟩ := Option.map_eq_some_iff.mp hs'
    split
    · exact ⟨s, hs, rfl, rfl⟩
    · exact ⟨s, hs, rfl, rfl⟩

/-- **The state is released with the last handle.**  Drivers are created, started and dropped, and
so are their runners, in any order, and wakers are registered and woken in between.  Then nothing
panics.  There is a state exactly as long as somebody has a handle, and it counts the handles.  The
interrupts are enabled as long, and the peripheral takes part in the traffic exactly as long as
there is a runner. -/
theorem released_with_last_handle {ops : List Op} (hops : Admissible step Valid idle ops) :
    ∃ d us, run step idle ops = .ok (d, us) ∧
      (d.info.state.isSome = true ↔ d.handles ≠ ∅) ∧
      (∀ state, d.info.state = some state → state.refCounter = d.handles.card) ∧
      (d.info.interruptsEnabled = true ↔ d.handles ≠ ∅) ∧
      (d.info.init = false ↔ ∃ handle ∈ d.handles, handle ∈ runners) := by
  obtain ⟨d, us, hrun, h⟩ := run_of_admissible (fun _ _ h hop ↦ h.step hop) inv_idle hops
  refine ⟨d, us, hrun, h.isSome, fun state hstate ↦ (h.refCounter state hstate).1, h.interrupts,
    h.init.trans ⟨fun ⟨hne, hdriver⟩ ↦ ?_, fun ⟨handle, hhandle, hrunner⟩ ↦ ?_⟩⟩
  · obtain ⟨handle, hhandle⟩ := Finset.nonempty_iff_ne_empty.mpr hne
    refine ⟨handle, hhandle, ?_⟩
    rcases h.handles with hone | hsub
    · exact absurd (hone ▸ Finset.mem_singleton_self _) hdriver
    · exact hsub hhandle
  · refine ⟨Finset.ne_empty_of_mem hhandle, fun hdriver ↦ ?_⟩
    rcases h.handles with hone | hsub
    · rw [hone, Finset.mem_singleton] at hhandle
      subst hhandle
      exact absurd hrunner (by decide)
    · exact absurd (hsub hdriver) (by decide)

/-- A driver is started, one of its runners is dropped, and the others after it. -/
theorem released_with_last_handle_restart : ∃ d us,
    run step idle [.new, .start, .registerRxWaker 1, .drop .rxRunner, .wakeRx,
      .drop .rxFilterRunner, .drop .txRunner, .new] = .ok (d, us) ∧ d.handles = {.driver} ∧
      d.info.state.isSome = true ∧ d.info.init = true := by
  obtain ⟨d, us, hrun, hsome, -, -, hinit⟩ := @released_with_last_handle [.new, .start,
    .registerRxWaker 1, .drop .rxRunner, .wakeRx, .drop .rxFilterRunner, .drop .txRunner, .new]
    (by decide)
  have hhandles : d.handles = {.driver} := by
    cases hrun
    rfl
  refine ⟨d, us, hrun, hhandles, hsome.mpr (by rw [hhandles]; simp), ?_⟩
  rw [← Bool.not_eq_false, hinit, hhandles]
  decide

end Driver

end Emcyphal.Can.Native
