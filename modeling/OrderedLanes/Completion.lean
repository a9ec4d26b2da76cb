import OrderedLanes.Outcome
import OrderedLanes.DebugText

/-!
The meeting point of a task and its handle: a slot that is filled once and
emptied at most once. A poll that comes too early leaves a waker behind; filling
the slot wakes the one left last.
-/

namespace OrderedLanes

/-- Whom to tell that a slot was filled. -/
inductive Waker where
  /-- The waker of a caller that blocks on the slot; it has no name, so nobody counts its calls. -/
  | blocked
  /-- A waker whose calls are counted under its name; calling it may panic. -/
  | counted (name : String) (panic : Option Payload)
  deriving DecidableEq, Repr, Inhabited

namespace Waker

/-- A waker that panics with a text if it is faulty. -/
def named (name : String) (faulty : Bool) : Waker :=
  .counted name (if faulty then some (.text "waker panicked") else none)

/-- The name under which its calls are counted. -/
def name? : Waker → Option String
  | .blocked => none
  | .counted name _ => some name

/-- The panic of calling the waker. -/
def panic? : Waker → Option Payload
  | .blocked => none
  | .counted _ panic => panic

@[simp] theorem panic?_blocked : blocked.panic? = none := rfl

end Waker

/-- What became of one outcome so far. -/
inductive Slot (V : Type) where
  /-- Not there yet; the waker of the latest poll waits for it. -/
  | pending (waker : Option Waker)
  /-- There, and not yet handed out. -/
  | ready (outcome : Outcome V)
  /-- Handed out. -/
  | taken

/-- The answer to a poll. -/
inductive Poll (V : Type) where
  | ready (outcome : Outcome V)
  | pending
  /-- The outcome was handed out before; polling again is a misuse. -/
  | misuse

/-- The panic of a poll after the outcome was handed out. -/
def pollMisuse : Payload := .text "TaskHandle polled after completion"

namespace Slot

variable {V : Type}

/-- Nothing delivered and nobody waiting. -/
def fresh : Slot V := .pending none

def isFinished : Slot V → Bool
  | .pending _ => false
  | _ => true

/-- Fill a pending slot; answers the waker to call. A slot filled before stays as it is. -/
def fulfil (s : Slot V) (outcome : Outcome V) : Option Waker × Slot V :=
  match s with
  | .pending waker => (waker, .ready outcome)
  | s => (none, s)

/-- Hand out the outcome if it is there. -/
def take (s : Slot V) : Option (Outcome V) × Slot V :=
  match s with
  | .ready outcome => (some outcome, .taken)
  | s => (none, s)

/-- Hand out the outcome, or leave a waker behind in place of an earlier one. -/
def poll (s : Slot V) (waker : Waker) : Poll V × Slot V :=
  match s with
  | .ready outcome => (.ready outcome, .taken)
  | .pending _ => (.pending, .pending (some waker))
  | .taken => (.misuse, .taken)

@[simp] theorem isFinished_fulfil (s : Slot V) (o : Outcome V) :
    (s.fulfil o).2.isFinished = true := by
  cases s <;> rfl

@[simp] theorem isFinished_take (s : Slot V) : s.take.2.isFinished = s.isFinished := by
  cases s <;> rfl

@[simp] theorem isFinished_poll (s : Slot V) (w : Waker) :
    (s.poll w).2.isFinished = s.isFinished := by
  cases s <;> rfl

@[simp] theorem take_fulfil_fresh (o : Outcome V) :
    ((fresh : Slot V).fulfil o).2.take = (some o, .taken) := rfl

end Slot

/-- A handle: the key and stamp of its submission, and the slot of its outcome. -/
structure Handle (V : Type) where
  key : Key
  stamp : Option Stamp
  slot : Slot V

namespace Handle

variable {V : Type}

def fresh (key : Key) (stamp : Option Stamp) : Handle V := ⟨key, stamp, .fresh⟩

def isFinished (h : Handle V) : Bool := h.slot.isFinished

/-- The debugging form; `keyText` spells the key. -/
def describe (keyText : Key → String) (h : Handle V) : DebugText :=
  .record "TaskHandle"
    [("key", .plain (keyText h.key)),
     ("sequence", .plain (match h.stamp with
        | none => "None"
        | some stamp => s!"Some({stamp.toNat})")),
     ("finished", .flag h.isFinished)]

end Handle

end OrderedLanes
