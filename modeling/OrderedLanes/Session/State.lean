import OrderedLanes.Session.Task

/-!
A session: the lane or dispatcher under a script's hands, and all that the script
can ask about later — handles and completers by name, tasks that came back,
gates that were opened, wakers that were called, and the tasks that started, in
order.
-/

namespace OrderedLanes.Session

/-- What a session works on. -/
inductive Machine (V : Type) where
  | none
  | lane (threadName : String) (l : Lane (Pending V))
  | dispatcher (d : Dispatcher (Pending V))
  /-- The dispatcher was dropped; its lanes go on by themselves. -/
  | dropped (d : Dispatcher (Pending V))

namespace Machine

variable {V : Type}

def laneCount : Machine V → Nat
  | .none => 0
  | .lane .. => 1
  | .dispatcher d | .dropped d => d.laneCount

def lane? : Machine V → Nat → Option (Lane (Pending V))
  | .none, _ => Option.none
  | .lane _ l, i => if i = 0 then some l else Option.none
  | .dispatcher d, i | .dropped d, i => d.lane? i

def setLane : Machine V → Nat → Lane (Pending V) → Machine V
  | .none, _, _ => .none
  | .lane name _, _, l => .lane name l
  | .dispatcher d, i, l => .dispatcher (d.setLane i l)
  | .dropped d, i, l => .dropped (d.setLane i l)

/-- The leading part of the thread names of the machine's workers. -/
def threadName : Machine V → String
  | .none => ""
  | .lane name _ => name
  | .dispatcher d | .dropped d => d.config.threadName

end Machine

/-- A task that started, and where. -/
structure Start where
  thread : String
  origin : Origin
  key : Option Key
  deriving Repr

/-- The thread that a script's own steps run on. -/
def callerThread : String := "caller"

end Session

structure Session (V : Type) where
  machine : Session.Machine V
  counter : KeyCounter
  /-- The keys drawn so far, oldest first. -/
  drawn : List Key
  /-- All handles ever made, by ticket. -/
  handles : Array (Handle (Session.Yield V))
  /-- The handles the script holds, latest first. -/
  held : List (String × Session.Ticket)
  /-- The completers the script holds, latest first. -/
  completers : List (String × Session.Ticket)
  /-- Tasks that came back to the script, by number; a slot is emptied by its use. -/
  returned : Array (Option (Session.Pending V))
  openGates : List String
  starts : Array Session.Start
  /-- How often each named waker was called. -/
  wakes : List (String × Nat)

namespace Session

variable {V : Type}

/-- A session on `machine` in which nothing has happened; keys are drawn from `counter` on. -/
def begin (machine : Machine V) (counter : KeyCounter) : Session V where
  machine := machine
  counter := counter
  drawn := []
  handles := #[]
  held := []
  completers := []
  returned := #[]
  openGates := []
  starts := #[]
  wakes := []

/-- How answers show a key. -/
def label (s : Session V) (key : Key) : KeyLabel :=
  match s.drawn.idxOf? key with
  | some n => .drawn (n + 1)
  | none => .plain key

def keyText (s : Session V) (key : Key) : String := (s.label key).text

def drawKey (s : Session V) : Key × Session V :=
  let (key, counter) := s.counter.draw
  (key, { s with counter, drawn := s.drawn ++ [key] })

def setLane (s : Session V) (i : Nat) (l : Lane (Pending V)) : Session V :=
  { s with machine := s.machine.setLane i l }

def isOpen (s : Session V) (gate : Option String) : Bool :=
  gate.all s.openGates.contains

def openGate (s : Session V) (gate : String) : Session V :=
  { s with openGates := gate :: s.openGates }

/-! ### Handles -/

/-- Make a handle; the ticket is the right to fill its slot. -/
def newHandle (s : Session V) (key : Key) (stamp : Option Stamp) : Ticket × Session V :=
  (s.handles.size, { s with handles := s.handles.push (.fresh key stamp) })

/-- Let the script hold a handle under a name, in place of an earlier one. -/
def hold (s : Session V) (id : String) (t : Ticket) : Session V :=
  { s with held := (id, t) :: s.held.filter (·.1 ≠ id) }

/-- Let go of the handle held under a name. -/
def release (s : Session V) (id : String) : Session V :=
  { s with held := s.held.filter (·.1 ≠ id) }

/-- The handle held under a name. -/
def heldHandle (s : Session V) (id : String) : Option (Ticket × Handle (Yield V)) := do
  let t ← s.held.lookup id
  let h ← s.handles[t]?
  return (t, h)

def setSlot (s : Session V) (t : Ticket) (slot : Slot (Yield V)) : Session V :=
  { s with handles := s.handles.modify t fun h => { h with slot := slot } }

/-! ### Wakers and outcomes -/

/-- Start to count the calls of a named waker. -/
def noteWaker (s : Session V) : Waker → Session V
  | .blocked => s
  | .counted name _ =>
    if (s.wakes.lookup name).isSome then s else { s with wakes := s.wakes ++ [(name, 0)] }

/-- Count a call of a waker. -/
def countWake (s : Session V) : Waker → Session V
  | .blocked => s
  | .counted name _ =>
    { s with wakes := s.wakes.map fun (other, n) => (other, if other = name then n + 1 else n) }

/-- Call a waker; answers its panic. -/
def wake (s : Session V) (w : Waker) : Option Payload × Session V := (w.panic?, s.countWake w)

/-- Fill the slot of a ticket and call the waker left there; answers that waker's panic. -/
def deliver (s : Session V) (t : Ticket) (outcome : Outcome (Yield V)) :
    Option Payload × Session V :=
  match s.handles[t]? with
  | none => (none, s)
  | some h =>
    let (waker, slot) := h.slot.fulfil outcome
    let s := s.setSlot t slot
    match waker with
    | none => (none, s)
    | some w => s.wake w

/-- Drop tasks that never ran, in order; answers the first panic of a waker. -/
def discard (s : Session V) : List (Pending V) → Option Payload × Session V
  | [] => (none, s)
  | p :: rest =>
    let (first, s) := s.deliver p.ticket (.error .cancelled)
    let (later, s) := s.discard rest
    (first.or later, s)

/-! ### Tasks that came back -/

/-- A task that came back, as answers list it. -/
structure Listed where
  number : Nat
  key : KeyLabel
  lane : LaneIndex
  deriving DecidableEq, Repr

/-- Number tasks that came back. -/
def takeBack (s : Session V) : List (Pending V) → List Listed × Session V
  | [] => ([], s)
  | p :: rest =>
    let listed := ⟨s.returned.size, s.label p.key, p.lane⟩
    let (more, s) := { s with returned := s.returned.push (some p) }.takeBack rest
    (listed :: more, s)

/-- Use up the task that came back under a number. -/
def useReturned (s : Session V) (n : Nat) : Option (Pending V) × Session V :=
  ((s.returned[n]?).join, { s with returned := s.returned.setIfInBounds n none })

/-- Log that a task starts. -/
def noteStart (s : Session V) (thread : String) (task : Task V) : Session V :=
  { s with starts := s.starts.push ⟨thread, task.origin, task.key⟩ }

end Session

end OrderedLanes
