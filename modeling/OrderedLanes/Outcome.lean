import OrderedLanes.Key

/-!
What becomes of a task. A task's closure ends with a value, a failure or a
panic; a handle delivers an `Outcome`. The two differ where disposing of a
panic's payload panics in turn: the outcome is then lost on the way, the handle
sees a cancelled task, and the second panic escapes to whoever ran the task.
-/

namespace OrderedLanes

/-- What a panic carries. -/
inductive Payload where
  /-- A text, disposed of quietly. -/
  | text (message : String)
  /-- Something that is no text, disposed of quietly. -/
  | other
  /-- No text; it defends itself: disposing of it panics with `next`. -/
  | defended (next : Payload)
  deriving DecidableEq, Repr, Inhabited

namespace Payload

/-- The payload as a text. -/
def message : Payload → String
  | .text m => m
  | _ => "unknown panic payload"

/-- The panic raised by disposing of the payload. -/
def disposal : Payload → Option Payload
  | .text _ | .other => none
  | .defended next => some next

/-- Disposing of it panics with a text. -/
def trap (message : String) : Payload := .defended (.text message)

/-- Disposing of it panics with a trap. -/
def doubleTrap (message : String) : Payload := .defended (.trap message)

end Payload

/-- How a task's closure ends. -/
inductive Ending (V : Type) where
  | value (v : V)
  | failure (message : String)
  | panic (payload : Payload)
  deriving DecidableEq, Repr

/-- Why a handle delivers no value. -/
inductive TaskError where
  | failed (message : String)
  | panicked (message : String)
  | cancelled
  deriving DecidableEq, Repr

namespace TaskError

def message : TaskError → String
  | .failed m => "task failed: " ++ m
  | .panicked m => "task panicked: " ++ m
  | .cancelled => "task was cancelled before it ran"

/-- The task's own error, if it returned one. -/
def failure? : TaskError → Option String
  | .failed m => some m
  | _ => none

def isCancelled : TaskError → Bool
  | .cancelled => true
  | _ => false

end TaskError

/-- What a handle delivers. -/
abbrev Outcome (V : Type) := Except TaskError V

namespace Ending

variable {V : Type}

/--
The outcome a task's ending leaves in its handle. A panic is reported by its
message, unless disposing of the payload panics: then the report is never made.
-/
def outcome : Ending V → Outcome V
  | .value v => .ok v
  | .failure m => .error (.failed m)
  | .panic p =>
    match p.disposal with
    | none => .error (.panicked p.message)
    | some _ => .error .cancelled

/-- The panic that leaves the task although its own panic was captured. -/
def escape : Ending V → Option Payload
  | .panic p => p.disposal
  | _ => none

end Ending

/-- Why a submission was refused. -/
inductive SubmitError where
  | rejected (key : Key)
  | laneSpawn (lane : LaneIndex) (source : String)
  deriving DecidableEq, Repr

def SubmitError.message : SubmitError → String
  | .rejected key => s!"dispatcher is shut down; rejected task for key {key.toNat}"
  | .laneSpawn lane _ => s!"failed to start worker for lane {lane}"

/-- What went wrong with a lane's worker. -/
inductive LaneError where
  | workerExited (lane : LaneIndex)
  | workerPanicked (lane : LaneIndex) (message : String)
  deriving DecidableEq, Repr

def LaneError.message : LaneError → String
  | .workerExited lane => s!"worker for lane {lane} exited before shutdown"
  | .workerPanicked lane m => s!"worker for lane {lane} panicked: {m}"

end OrderedLanes
