import OrderedLanes.Session.Submission

/-!
Running the tasks of a session. A worker step is one step of one lane's worker:
take a task, look at the interrupt flag, or run a started task whose gate is
open. `settle` lets the workers go on until each of them is gone, waits for its
queue, or waits for a gate.
-/

namespace OrderedLanes.Session

variable {V : Type}

/-- Do what a task does, on the thread of the given name. -/
def perform (s : Session V) (thread : String) :
    Work V → Logged (Ending (Yield V) × Session V)
  | .give v => return (.value (.value v), s)
  | .fail message => return (.failure message, s)
  | .panic payload => return (.panic payload, s)
  | .tellThread => return (.value (.thread thread), s)
  | .submit requests => do
    let (answers, s) ← s.submitAll requests
    return (.value (.answers answers), s)
  | .drawStamp key =>
    match s.machine with
    | .dispatcher d =>
      let (stamp, d) := d.nextStamp key
      return (.value (.stamp stamp), { s with machine := .dispatcher d })
    | _ => return (.value .dropped, s)
  | .stop kind => do
    match ← s.stop kind with
    | (none, s) => return (.value .dropped, s)
    | (some report, s) =>
      let labels := report.pending.map fun p => (s.label p.key, p.lane)
      let (panic, s) := s.discard report.pending
      match panic, kind with
      | some payload, _ => return (.panic payload, s)
      | none, .graceful => return (.value (.errors report.errors), s)
      | none, .forced => return (.value (.recalled labels report.errors), s)

/--
Run a started task to its end and fill its slot. Answers the panic that leaves
the task, be it from the disposal of the task's own panic or from a waker.
-/
def runTask (s : Session V) (thread : String) (p : Pending V) :
    Logged (Option Payload × Session V) := do
  let (ending, s) ← s.perform thread p.task.work
  match ending with
  | .panic payload => Logged.emit (.taskPanicked p.key p.lane payload.message)
  | _ => pure ()
  let (panic, s) := s.deliver p.ticket ending.outcome
  return (ending.escape.or panic, s)

/-- One step of the worker of lane `i`, if it can take one. -/
def workerStep (s : Session V) (i : Nat) : Option (Session V) :=
  match s.machine.lane? i with
  | none => none
  | some l =>
    let thread := Config.laneThread s.machine.threadName l.index
    match l.worker with
    | .idle => l.receive.map (s.setLane i)
    | .holding _ => l.inspect.map fun
      | (.run p, l) => (s.setLane i l).noteStart thread p.task
      | (.abandon p, l) =>
        let (panic, s) := (s.setLane i l).discard [p]
        s.setLane i (l.leave panic)
    | .busy p =>
      if s.isOpen p.task.gate then
        let (escape, s) := (s.runTask thread p).value
        (s.machine.lane? i).map fun l => s.setLane i (l.conclude escape)
      else none
    | .exited _ => none

/-- The first worker step that can be taken. -/
def someStep (s : Session V) : Option (Session V) :=
  (List.range s.machine.laneCount).findSome? s.workerStep

/-- The tasks that a lane has yet to run, counted with all that can come of them. -/
def laneWeight (l : Lane (Pending V)) : Nat :=
  (l.queue.map fun p => p.task.work.weight).foldr (· + ·) 0 +
    match l.worker with
    | .holding p | .busy p => p.task.work.weight
    | _ => 0

/-- A bound on the worker steps that can follow: three for each task, one for each exit. -/
def stepBound (s : Session V) : Nat :=
  3 * ((List.range s.machine.laneCount).map fun i =>
    (s.machine.lane? i).elim 0 laneWeight).foldr (· + ·) 0 + s.machine.laneCount

/-- Take worker steps until none is left, `fuel` at most. -/
def settleWithin : Nat → Session V → Session V
  | 0, s => s
  | fuel + 1, s =>
    match s.someStep with
    | none => s
    | some s => settleWithin fuel s

/--
Once the dispatcher is gone nobody can ask for the queue of a dead worker, and
the tasks in it are dropped.
-/
def dropDeadQueues (s : Session V) : Option Payload × Session V :=
  match s.machine with
  | .dropped d =>
    let dead := d.createdLanes.filter Lane.isFinished
    let lanes := d.lanes.map (Option.map fun l =>
      if l.isFinished then { l with queue := [] } else l)
    { s with machine := .dropped { d with lanes } }.discard (dead.flatMap Lane.queue)
  | _ => (none, s)

/-- Let the workers go on as far as they can. -/
def settle (s : Session V) : Session V := (settleWithin s.stepBound s).dropDeadQueues.2

end OrderedLanes.Session
