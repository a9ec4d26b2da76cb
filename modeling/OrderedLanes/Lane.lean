import OrderedLanes.Event
import OrderedLanes.DebugText

/-!
A lane: one worker that runs the tasks of one queue, in order and one at a time.
The worker takes the head of the queue, looks at the interrupt flag, and either
runs the task or leaves with it. A stopped lane finishes its queue; a halted one
gives the queue back. A panic that escapes from a task is disposed of by the
worker; if that panics as well, the worker is gone and the queue stays.
-/

namespace OrderedLanes

/-- How a lane was told to stop; it never goes back. -/
inductive Stage where
  | running | draining | halted
  deriving DecidableEq, Repr, Inhabited

/-- The number that debugging texts show for a stage. -/
def Stage.code : Stage → Nat
  | .running => 0
  | .draining => 1
  | .halted => 2

/-- What the worker of a lane is doing. -/
inductive Worker (α : Type) where
  /-- Waiting for the queue. -/
  | idle
  /-- A task was taken from the queue and not started. -/
  | holding (task : α)
  | busy (task : α)
  /-- Gone, possibly with a panic. -/
  | exited (panic : Option Payload)
  deriving Repr, Inhabited

structure Lane (α : Type) where
  index : LaneIndex
  stage : Stage
  /-- Tasks may still be queued. -/
  accepting : Bool
  /-- Waiting tasks, the next one first. -/
  queue : List α
  /-- The worker is to start nothing more. -/
  interrupted : Bool
  worker : Worker α
  /-- The worker's end was reported. -/
  joined : Bool
  deriving Repr, Inhabited

namespace Lane

variable {α : Type}

/-- A lane whose worker has just been started. -/
def start (index : LaneIndex) : Lane α where
  index := index
  stage := .running
  accepting := true
  queue := []
  interrupted := false
  worker := .idle
  joined := false

/-- The worker is gone. -/
def isFinished (l : Lane α) : Bool :=
  match l.worker with
  | .exited _ => true
  | _ => false

/-- Number of waiting tasks. -/
def queued (l : Lane α) : Nat := l.queue.length

/-- Queue a task at the end; a closed lane refuses. -/
def enqueue (l : Lane α) (task : α) : Option (Lane α) :=
  if l.accepting then some { l with queue := l.queue ++ [task] } else none

/-- Move the stage. -/
def mark (l : Lane α) (stage : Stage) : Lane α := { l with stage }

/-- Refuse further tasks. -/
def close (l : Lane α) : Lane α := { l with accepting := false }

/-- Let the worker start nothing more. -/
def interrupt (l : Lane α) : Lane α := { l with interrupted := true }

/-- The complaint of whoever stops a lane whose worker is already gone. -/
def exitedEarly (l : Lane α) : Option LaneError :=
  if l.isFinished then some (.workerExited l.index) else none

/-- Close the lane and let its worker finish the queue; only the first stop counts. -/
def stop (l : Lane α) : Logged (Option LaneError × Lane α) :=
  if l.stage = .running then do
    Logged.emit (.laneDraining l.index)
    return (l.exitedEarly, (l.mark .draining).close)
  else return (none, l)

/--
Close the lane, interrupt its worker and take the queue back. Only the first
halt counts, and it complains about a worker already gone only if no stop came
before it.
-/
def halt (l : Lane α) : Logged (List α × Option LaneError × Lane α) :=
  if l.stage = .halted then return ([], none, l)
  else do
    Logged.emit (.laneHalted l.index l.queued)
    return (l.queue, if l.stage = .running then l.exitedEarly else none,
      { (l.mark .halted).interrupt.close with queue := [] })

/--
What becomes known of the end of lane `index`'s worker. The payload of a worker's panic is disposed
of once its message was read; a panic of that takes the place of the report.
-/
def obituary (index : LaneIndex) : Option Payload → Except Payload (Option LaneError)
  | none => .ok none
  | some panic =>
    match panic.disposal with
    | none => .ok (some (.workerPanicked index panic.message))
    | some next => .error next

/-- Report how the worker ended, once it has; every later report is empty. -/
def joinIfExited (l : Lane α) : Except Payload (Option LaneError) × Lane α :=
  match l.worker with
  | .exited panic =>
    if l.joined then (.ok none, l) else (obituary l.index panic, { l with joined := true })
  | _ => (.ok none, l)

/-! ### The worker's steps -/

/--
An idle worker takes the head of the queue. It leaves when the queue is closed
and empty, and waits when it is open and empty.
-/
def receive (l : Lane α) : Option (Lane α) :=
  match l.worker, l.queue with
  | .idle, task :: queue => some { l with queue, worker := .holding task }
  | .idle, [] => if l.accepting then none else some { l with worker := .exited none }
  | _, _ => none

/-- What a worker does with the task it has taken. -/
inductive Decision (α : Type) where
  | run (task : α)
  | abandon (task : α)
  deriving Repr

/--
A worker leaves with a task that it abandons, and drops it; a panic of that drop
is what the worker ends with.
-/
def leave (l : Lane α) (panic : Option Payload) : Lane α := { l with worker := .exited panic }

/-- A worker that has taken a task starts it, or leaves with it if interrupted. -/
def inspect (l : Lane α) : Option (Decision α × Lane α) :=
  match l.worker with
  | .holding task =>
    if l.interrupted then some (.abandon task, l.leave none)
    else some (.run task, { l with worker := .busy task })
  | _ => none

/--
A task has ended, and `escape` is the panic that got out of it. The worker
disposes of the panic and goes on, unless disposing panics in turn.
-/
def conclude (l : Lane α) (escape : Option Payload) : Lane α :=
  match escape.bind Payload.disposal with
  | none => { l with worker := .idle }
  | some panic => { l with worker := .exited (some panic) }

def describe (l : Lane α) : DebugText :=
  .record "Lane"
    [("index", .number l.index), ("state", .number l.stage.code),
     ("queued", .number l.queued), ("finished", .flag l.isFinished)]

@[simp] theorem index_start (i : LaneIndex) : (start i : Lane α).index = i := rfl

@[simp] theorem exitedEarly_mark (l : Lane α) (stage : Stage) :
    (l.mark stage).exitedEarly = l.exitedEarly := rfl

@[simp] theorem queued_mark (l : Lane α) (stage : Stage) : (l.mark stage).queued = l.queued := rfl

@[simp] theorem queued_interrupt (l : Lane α) : l.interrupt.queued = l.queued := rfl

@[simp] theorem queued_close (l : Lane α) : l.close.queued = l.queued := rfl

@[simp] theorem enqueue_of_accepting (l : Lane α) (task : α) (h : l.accepting = true) :
    l.enqueue task = some { l with queue := l.queue ++ [task] } := by
  simp [enqueue, h]

@[simp] theorem enqueue_of_closed (l : Lane α) (task : α) (h : l.accepting = false) :
    l.enqueue task = none := by
  simp [enqueue, h]

theorem value_stop (l : Lane α) : l.stop.value =
    if l.stage = .running then (l.exitedEarly, (l.mark .draining).close)
    else (none, l) := by
  unfold stop; split <;> rfl

theorem value_halt (l : Lane α) : l.halt.value =
    if l.stage = .halted then ([], none, l)
    else (l.queue, if l.stage = .running then l.exitedEarly else none,
      { (l.mark .halted).interrupt.close with queue := [] }) := by
  unfold halt; split <;> rfl

@[simp] theorem index_stop (l : Lane α) : l.stop.value.2.index = l.index := by
  rw [value_stop]; split <;> rfl

@[simp] theorem index_halt (l : Lane α) : l.halt.value.2.2.index = l.index := by
  rw [value_halt]; split <;> rfl

end Lane

end OrderedLanes
