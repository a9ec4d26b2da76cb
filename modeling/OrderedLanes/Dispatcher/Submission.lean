import OrderedLanes.Dispatcher.Shutdown

/-!
Submitting a task. A submission looks at the shutdown flag, draws a stamp if it
wants one, resolves its key, gets hold of the key's lane, which is started if it
is missing, and looks at the flag again before it queues the task: a stop that
began in between may have passed over a lane that was not there yet, so a
submission that sees the flag then stops the lane itself and is rejected.
-/

namespace OrderedLanes

/-- The answer to a submission. -/
inductive Admission where
  | accepted (stamp : Option Stamp)
  | refused (error : SubmitError)
  /-- The lane's worker cannot be given its thread name: a panic. -/
  | unnameable
  deriving DecidableEq, Repr

/-- An answer together with the tasks that were thrown away on the way. -/
structure Submitted (α : Type) where
  answer : Admission
  discarded : List α
  deriving Repr

namespace Dispatcher

variable {α : Type}

/-- Get hold of lane `i`. Answers whether it was started for this; `none` if it cannot be. -/
def obtain (d : Dispatcher α) (i : LaneIndex) : Logged (Option (Bool × Dispatcher α)) :=
  match d.lane? i with
  | some _ => return some (false, d)
  | none =>
    if Config.nameable d.config.threadName then
      match d.install (Lane.start i) with
      | some d => do
        Logged.emit (.laneCreated i)
        return some (true, d)
      | none => return some (false, d)
    else return none

/-- Stop a lane met after a stop has begun; what it hands back is thrown away. -/
def retire (d : Dispatcher α) (i : LaneIndex) : Logged (List α × Dispatcher α) :=
  match d.lane? i with
  | none => return ([], d)
  | some l => do
    let (report, l) ← l.shut (if d.shutdownNow then .forced else .graceful)
    report.errors.forM fun e => Logged.emit (.lateLaneFailed i e)
    return (report.pending, d.setLane i l)

/-- The second look at the flag: queue the task on lane `i`, or retire the lane. -/
def commit (d : Dispatcher α) (key : Key) (i : LaneIndex) (stamp : Option Stamp) (task : α) :
    Logged (Submitted α × Dispatcher α) :=
  if d.shutdown then do
    let (discarded, d) ← d.retire i
    Logged.emit (.rejected key (some i))
    return (⟨.refused (.rejected key), discarded⟩, d)
  else
    match (d.lane? i).bind (Lane.enqueue · task) with
    | some l => return (⟨.accepted stamp, []⟩, d.setLane i l)
    | none => do
      Logged.emit (.laneClosed key i)
      return (⟨.refused (.rejected key), [task]⟩, d)

/--
The first look at the flag, and the way to the index of the key's lane: draw a
stamp, if one is wanted, and resolve the key. `none` if a stop has begun.
-/
def enter (d : Dispatcher α) (key : Key) (stamped : Bool) :
    Logged (Option (Option Stamp × LaneIndex) × Dispatcher α) :=
  if d.shutdown then do
    Logged.emit (.rejected key none)
    return (none, d)
  else do
    let (stamp, d) :=
      if stamped then
        let (stamp, d) := d.nextStamp key
        (some stamp, d)
      else (none, d)
    let (i, d) ← d.resolve key
    return (some (stamp, i), d)

/-- Carry a submission on from its lane index. -/
def proceed (d : Dispatcher α) (key : Key) (i : LaneIndex) (stamp : Option Stamp) (task : α) :
    Logged (Submitted α × Dispatcher α) := do
  match ← d.obtain i with
  | none => return (⟨.unnameable, []⟩, d)
  | some (_, d) => d.commit key i stamp task

/--
Submit a task under `key`, stamped or not; `task` builds the queued form from
the lane and the stamp.
-/
def submit (d : Dispatcher α) (key : Key) (stamped : Bool)
    (task : LaneIndex → Option Stamp → α) : Logged (Submitted α × Dispatcher α) := do
  match ← d.enter key stamped with
  | (none, d) => return (⟨.refused (.rejected key), []⟩, d)
  | (some (stamp, i), d) => d.proceed key i stamp (task i stamp)

end Dispatcher

end OrderedLanes
