import Emcyphal.Frame
import Emcyphal.Lib.Tree
import Emcyphal.Rx.SessionTable

/-!
# The registry of message subscriptions

`emcyphal/src/registry/rx_msg.rs`.  `RegularInner` keeps the registered entries in two trees ordered
by subject.  An entry is registered as inactive and waits in the activation queue; it becomes active
when the driver fetches the filter update that adds its subject.  The first active entry of each
subject is a head.  When the last active entry of a subject is gone, the driver has to remove the
subject from its filters, and as that subject is not stored anywhere any more, the entry to the
right of it is put into the clean-up queue, or `clean_up_last` is set if there is none.

An entry is known by its address.  The trees are sorted lists of entries, and the two lists an entry
can be linked into are lists of addresses.  The buffer of an entry is left out.
-/

set_option autoImplicit false

namespace Emcyphal

open Rust Tree

/-- Receiver filter update request for messages. -/
inductive FilterUpdate
  | addSubject (subject : SubjectId)
  | removeSubjectRange (first last : SubjectId)
deriving DecidableEq, Repr

namespace RxMsg

inductive RegistrationError
  | noSubjectSlotLeft
  | dataSpecifierOccupied
deriving DecidableEq, Repr

/-- The address of an entry, which is what a token holds. -/
abbrev Address := ℕ

structure Entry where
  address : Address
  subject : SubjectId
  isActive : Bool
  isHead : Bool
deriving DecidableEq, Repr

/-- The poll has done something, but there is no filter update to return. -/
inductive CallAgain
  | callAgain
deriving DecidableEq, Repr

structure RegularInner where
  inactiveEntryTree : List Entry
  activeEntryTree : List Entry
  nextPushPtr : Option Address
  cleanUpQueue : List Address
  cleanUpLast : Bool
  activationQueue : List Address
  freeSlotCount : ℕ
  filterUpdateWaker : Option Waker
deriving DecidableEq, Repr

def prevSubject (val : SubjectId) : Option SubjectId :=
  if h : 1 ≤ val.val then some ⟨val.val - 1, by omega⟩ else none

def nextSubject (val : SubjectId) : Option SubjectId :=
  if h : val.val + 1 < 8192 then some ⟨val.val + 1, h⟩ else none

namespace RegularInner

def new (subjectSlotCount : ℕ) : RegularInner where
  inactiveEntryTree := []
  activeEntryTree := []
  nextPushPtr := none
  cleanUpQueue := []
  cleanUpLast := false
  activationQueue := []
  freeSlotCount := subjectSlotCount
  filterUpdateWaker := none

/-- `list_link.is_linked()`.  The same link is used for both lists. -/
def isLinked (r : RegularInner) (address : Address) : Bool :=
  r.cleanUpQueue.contains address || r.activationQueue.contains address

/-- The waker registration keeps the last waker that was registered, until it is woken. -/
def wake (r : RegularInner) : RegularInner := { r with filterUpdateWaker := none }

/-- The entry that an address is of. -/
def entry? (r : RegularInner) (address : Address) : Option Entry :=
  (r.activeEntryTree ++ r.inactiveEntryTree).find? fun entry ↦ entry.address == address

def regRegister (r : RegularInner) (address : Address) (subject : SubjectId) :
    Except RegistrationError Address × RegularInner :=
  let elem : Entry := ⟨address, subject, false, false⟩
  let inactive := upperBound Entry.subject subject r.inactiveEntryTree
  let enqueuedSubject := inactive.1.getLast?.any fun prevEntry ↦ prevEntry.subject == subject
  if enqueuedSubject then
    (.ok address, { r with
      inactiveEntryTree := inactive.1 ++ elem :: inactive.2
      activationQueue := r.activationQueue ++ [address] })
  else
    let active := upperBound Entry.subject subject r.activeEntryTree
    let activeSubject := active.1.getLast?.any fun prevEntry ↦ prevEntry.subject == subject
    if activeSubject then
      (.ok address, { r with
        activeEntryTree := active.1 ++ { elem with isActive := true } :: active.2 })
    else if r.freeSlotCount = 0 then (.error .noSubjectSlotLeft, r)
    else
      (.ok address, wake { r with
        freeSlotCount := r.freeSlotCount - 1
        inactiveEntryTree := inactive.1 ++ elem :: inactive.2
        activationQueue := r.activationQueue ++ [address] })

/-- The entry that follows in a delivery: the next one, if it is of the same subject. -/
def followUp (after : List Entry) : Option Address :=
  (after.head?.filter fun nextEntry ↦ !nextEntry.isHead).map Entry.address

/-- The delivery goes on with the next entry when the one it has come to is removed. -/
def skipPush (r : RegularInner) (address : Address) (after : List Entry) : Option Address :=
  if r.nextPushPtr = some address then followUp after else r.nextPushPtr

def regUnregisterActiveHead (r : RegularInner) (token : Address) : Exec RegularInner := do
  let (before, _, after) ←
    unwrap (cursorAt (fun entry ↦ entry.address == token) r.activeEntryTree)
  let cleanUpMark := r.isLinked token
  let r := { r with
    cleanUpQueue := if cleanUpMark then r.cleanUpQueue.erase token else r.cleanUpQueue
    nextPushPtr := r.skipPush token after }
  match after with
  | nextEntry :: rest =>
    let nextWasHead := nextEntry.isHead
    let r := { r with activeEntryTree := before ++ { nextEntry with isHead := true } :: rest }
    if (cleanUpMark || nextWasHead) && !r.isLinked nextEntry.address then
      return wake { r with
        freeSlotCount := r.freeSlotCount + 1
        cleanUpQueue := r.cleanUpQueue ++ [nextEntry.address] }
    else return r
  | [] =>
    return wake { r with
      activeEntryTree := before
      freeSlotCount := r.freeSlotCount + 1
      cleanUpLast := true }

def regUnregisterActiveTail (r : RegularInner) (token : Address) : Exec RegularInner := do
  let (before, _, after) ←
    unwrap (cursorAt (fun entry ↦ entry.address == token) r.activeEntryTree)
  assert (r.isLinked token = false)
  return { r with
    activeEntryTree := before ++ after
    nextPushPtr := r.skipPush token after }

def regUnregisterInactive (r : RegularInner) (token : Address) : Exec RegularInner := do
  let (before, _, after) ←
    unwrap (cursorAt (fun entry ↦ entry.address == token) r.inactiveEntryTree)
  let (queueBefore, _, queueAfter) ← unwrap
    (cursorAt (fun address ↦ address == token) r.activationQueue)
  return { r with
    inactiveEntryTree := before ++ after
    activationQueue := queueBefore ++ queueAfter }

def regUnregister (r : RegularInner) (token : Address) : Exec RegularInner := do
  let entry ← unwrap (r.entry? token)
  match entry.isActive, entry.isHead with
  | true, true => r.regUnregisterActiveHead token
  | true, false => r.regUnregisterActiveTail token
  | false, false => r.regUnregisterInactive token
  | false, true => .error .unreachable

def hubPushStart (r : RegularInner) (subject : SubjectId) : Exec (Bool × RegularInner) := do
  let nextPushPtr ← match lowerBound Entry.subject subject r.activeEntryTree with
    | none => pure none
    | some entry => do
      assert (entry.isHead = true)
      pure (if entry.subject = subject then some entry.address else none)
  return (nextPushPtr.isSome, { r with nextPushPtr := nextPushPtr })

/-- Next to what the code returns, the entry whose buffer the frame is pushed to. -/
def hubPushNext (r : RegularInner) : Exec (Option Address × Bool × RegularInner) :=
  match r.nextPushPtr with
  | none => .ok (none, false, r)
  | some nextPushPtr => do
    let (_, entry, after) ←
      unwrap (cursorAt (fun entry ↦ entry.address == nextPushPtr) r.activeEntryTree)
    let r := { r with nextPushPtr := followUp after }
    return (some entry.address, r.nextPushPtr.isSome, r)

/-- The start of the range that is removed: the subject after the one of the previous entry. -/
def firstCleanUp (before : List Entry) : Exec SubjectId :=
  match before.getLast? with
  | some prevEntry => unwrap (nextSubject prevEntry.subject)
  | none => .ok 0

def hubPopCleanUpQueue (r : RegularInner) :
    Exec (Option (Except CallAgain FilterUpdate × RegularInner)) :=
  match r.cleanUpQueue with
  | [] => .ok none
  | address :: cleanUpQueue => do
    let (before, entry, _) ←
      unwrap (cursorAt (fun entry ↦ entry.address == address) r.activeEntryTree)
    assert (entry.isHead = true)
    let lastCleanUp ← unwrap (prevSubject entry.subject)
    let firstCleanUp ← firstCleanUp before
    assert (firstCleanUp ≤ lastCleanUp)
    return some (.ok (.removeSubjectRange firstCleanUp lastCleanUp),
      { r with cleanUpQueue := cleanUpQueue })

def hubPopCleanUpLast (r : RegularInner) :
    Exec (Option (Except CallAgain FilterUpdate × RegularInner)) := do
  if r.cleanUpLast then
    let firstCleanUp ← firstCleanUp r.activeEntryTree
    return some (.ok (.removeSubjectRange firstCleanUp SubjectId.MAX),
      { r with cleanUpLast := false })
  else return none

def hubPopRegistrationQueue (r : RegularInner) :
    Exec (Option (Except CallAgain FilterUpdate × RegularInner)) :=
  match r.activationQueue with
  | [] => .ok none
  | address :: activationQueue => do
    let (before, elem, after) ←
      unwrap (cursorAt (fun entry ↦ entry.address == address) r.inactiveEntryTree)
    let active := upperBound Entry.subject elem.subject r.activeEntryTree
    let activeSubject := active.1.getLast?.any fun prevEntry ↦ prevEntry.subject == elem.subject
    let r := { r with
      inactiveEntryTree := before ++ after
      activeEntryTree :=
        active.1 ++ { elem with isActive := true, isHead := !activeSubject } :: active.2
      activationQueue := activationQueue }
    if !activeSubject then return some (.ok (.addSubject elem.subject), r)
    else return some (.error .callAgain, r)

/-- `none` is `Poll::Pending`. -/
def hubPollPopFilterUpdate (r : RegularInner) (waker : Waker) :
    Exec (Option (Except CallAgain FilterUpdate) × RegularInner) := do
  match ← r.hubPopCleanUpQueue with
  | some (val, r) => return (some val, r)
  | none =>
    match ← r.hubPopCleanUpLast with
    | some (val, r) => return (some val, r)
    | none =>
      match ← r.hubPopRegistrationQueue with
      | some (val, r) => return (some val, r)
      | none => return (none, { r with filterUpdateWaker := some waker })

end RegularInner

end RxMsg

end Emcyphal
