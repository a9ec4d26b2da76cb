import OrderedLanes.Session.State

/-!
Submissions and stops of a session. A script may make a stop fall into a
submission at one of two moments: on the submission's own thread as soon as it
has started a lane, or on another thread while it evicts a key. The tasks that
such a stop hands back are dropped by the thread that stops; a waker that panics
there cuts a submission off only on its own thread.
-/

namespace OrderedLanes.Session

/-- Where in a submission a stop may fall. -/
inductive Moment where
  /-- A lane was started for the submission, and the second look is to come. -/
  | laneInstalled
  /-- A key is being evicted; the stop gets as far as its flag and goes on afterwards. -/
  | keyEvicted
  deriving DecidableEq, Repr

/-- A stop that falls into a submission. -/
structure Interruption where
  moment : Moment
  kind : StopKind
  deriving DecidableEq, Repr

variable {V : Type}

/-- Stop the session's dispatcher; `none` if there is none. -/
def stop (s : Session V) (kind : StopKind) :
    Logged (Option (StopReport (Pending V)) × Session V) :=
  match s.machine with
  | .dispatcher d => do
    let (report, d) ← d.stop kind
    return (some report, { s with machine := .dispatcher d })
  | _ => return (none, s)

/-- Stop the dispatcher and drop what it hands back; answers the first panic of a waker. -/
def stopDiscarding (s : Session V) (kind : StopKind) : Logged (Option Payload × Session V) := do
  let (report, s) ← s.stop kind
  return s.discard ((report.map StopReport.pending).getD [])

/-- A submission under way: its key, whether it wants a stamp, and the task it is to queue. -/
structure Attempt (V : Type) where
  key : Key
  stamped : Bool
  task : LaneIndex → Option Stamp → Pending V

/-- Whether some key was evicted. -/
def evicted (events : List Event) : Bool :=
  events.any fun
    | .evicted .. => true
    | _ => false

/--
Carry a submission on from its lane index, with a stop right after the start of
its lane. `none` if a waker panicked while the stop's tasks were dropped.
-/
def proceedStopped (s : Session V) (d : Dispatcher (Pending V)) (a : Attempt V) (i : LaneIndex)
    (stamp : Option Stamp) (kind : StopKind) :
    Logged (Option (Submitted (Pending V)) × Session V) := do
  match ← d.obtain i with
  | none => return (some ⟨.unnameable, []⟩, { s with machine := .dispatcher d })
  | some (started, d) =>
    let s := { s with machine := .dispatcher d }
    let (panic, s) ← if started then s.stopDiscarding kind else pure (none, s)
    match panic, s.machine with
    | none, .dispatcher d =>
      let (submitted, d) ← d.commit a.key i stamp (a.task i stamp)
      return (some submitted, { s with machine := .dispatcher d })
    | _, _ => return (none, s)

/-- Submit with nothing in between. -/
def submitAlone (s : Session V) (d : Dispatcher (Pending V)) (a : Attempt V) :
    Logged (Option (Submitted (Pending V)) × Session V) := do
  let (submitted, d) ← d.submit a.key a.stamped a.task
  return (some submitted, { s with machine := .dispatcher d })

/--
Submit with a stop that falls into the submission. A stop that falls on an
eviction ends after the submission, and its events are not the submission's.
-/
def submitStopped (s : Session V) (d : Dispatcher (Pending V)) (a : Attempt V)
    (cut : Interruption) : Logged (Option (Submitted (Pending V)) × Session V) := do
  let entered := d.enter a.key a.stamped
  match ← entered with
  | (none, d) =>
    return (some ⟨.refused (.rejected a.key), []⟩, { s with machine := .dispatcher d })
  | (some (stamp, i), d) =>
    match cut.moment with
    | .laneInstalled => s.proceedStopped d a i stamp cut.kind
    | .keyEvicted =>
      match if evicted entered.events then d.raise cut.kind else none with
      | none =>
        let (submitted, d) ← d.proceed a.key i stamp (a.task i stamp)
        return (some submitted, { s with machine := .dispatcher d })
      | some d =>
        let (submitted, d) ← d.proceed a.key i stamp (a.task i stamp)
        let (report, d) := (d.windDown cut.kind).value
        return (some submitted, ({ s with machine := .dispatcher d }.discard report.pending).2)

/-- Submit a task to the session's dispatcher; an accepted task's handle is held by name. -/
def submit (s : Session V) (r : Request (Work V)) (cut : Option Interruption) :
    Logged (Answer × Session V) :=
  match s.machine with
  | .dispatcher d =>
    let (key, chosen, s) :=
      match r.manner with
      | .plain key | .stamped key => (key, some key, s)
      | .unordered =>
        let (key, s) := s.drawKey
        (key, none, s)
    let ticket := s.handles.size
    let attempt : Attempt V := ⟨key, r.manner.wantsStamp,
      fun lane _ => ⟨key, lane, ticket, ⟨r.origin, chosen, r.gate, r.work⟩⟩⟩
    let tried := cut.elim (s.submitAlone d attempt) (s.submitStopped d attempt)
    match tried.value with
    | (none, s) => ⟨(.panicked, s), tried.events⟩
    | (some submitted, s) =>
      match s.discard submitted.discarded, submitted.answer with
      -- what a lane is drained of goes before the rejection is told
      | (some _, s), _ => ⟨(.panicked, s), tried.events.dropLast⟩
      | (none, s), .unnameable => ⟨(.panicked, s), tried.events⟩
      | (none, s), .refused error => ⟨(.refused (s.label key) error, s), tried.events⟩
      | (none, s), .accepted stamp =>
        let (ticket, s) := s.newHandle key stamp
        let s :=
          match r.origin with
          | .script id => s.hold id ticket
          | .contender .. => s
        ⟨(.accepted (s.label key) stamp, s), tried.events⟩
  | _ => return (.dropped, s)

/-- Submit tasks one after another. -/
def submitAll (s : Session V) : List (Request (Work V)) → Logged (List Answer × Session V)
  | [] => return ([], s)
  | r :: rest => do
    let (answer, s) ← s.submit r none
    let (answers, s) ← s.submitAll rest
    return (answer :: answers, s)

end OrderedLanes.Session
