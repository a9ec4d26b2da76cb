import OrderedLanes.Completion
import OrderedLanes.Dispatcher.Submission

/-!
Tasks as a script describes them: what they wait for, and what they do once they
go on. A task may work on the dispatcher that runs it, so its description may
hold descriptions of further tasks.
-/

namespace OrderedLanes.Session

/-- How a task is submitted. -/
inductive Manner where
  | plain (key : Key)
  | stamped (key : Key)
  /-- Under a key drawn for the occasion. -/
  | unordered
  deriving DecidableEq, Repr

/-- Whether the submission asks for a stamp. -/
def Manner.wantsStamp : Manner → Bool
  | .stamped _ => true
  | _ => false

/-- The name by which a script speaks of a task. -/
inductive Origin where
  | script (id : String)
  /-- The `turn`-th task of one of several threads that submit at the same time. -/
  | contender (thread turn : Nat)
  deriving DecidableEq, Repr

/-- A task to be submitted; `W` describes what it does. -/
structure Request (W : Type) where
  origin : Origin
  manner : Manner
  /-- The gate that must be open before the task goes on. -/
  gate : Option String
  work : W

/-- What a task does once its gate is open. -/
inductive Work (V : Type) where
  | give (v : V)
  | fail (message : String)
  | panic (payload : Payload)
  /-- Give the name of the running thread. -/
  | tellThread
  /-- Submit further tasks and give the answers. -/
  | submit (requests : List (Request (Work V)))
  /-- Draw a stamp and give it. -/
  | drawStamp (key : Key)
  /-- Stop the dispatcher and give its report; tasks handed back are dropped. -/
  | stop (kind : StopKind)

namespace Work

variable {V : Type}

/-- How many tasks can come of running this one, itself included. -/
def weight : Work V → Nat
  | .submit requests => 1 + (requests.attach.map fun r => r.1.work.weight).foldr (· + ·) 0
  | _ => 1
termination_by w => sizeOf w
decreasing_by
  obtain ⟨r, h⟩ := r
  have := List.sizeOf_lt_of_mem h
  cases r
  simp_all only [Request.mk.sizeOf_spec, Work.submit.sizeOf_spec]
  omega

end Work

/-- A task that was submitted. -/
structure Task (V : Type) where
  origin : Origin
  /-- The key the caller chose, if any. -/
  key : Option Key
  gate : Option String
  work : Work V

/-- Position of a handle among all handles of a session. -/
abbrev Ticket := Nat

/-- A task on its way: it carries the right to fill the slot of its handle. -/
structure Pending (V : Type) where
  key : Key
  lane : LaneIndex
  ticket : Ticket
  task : Task V

/-- The debugging form; `keyText` spells the key. -/
def Pending.describe {V : Type} (keyText : Key → String) (p : Pending V) : DebugText :=
  .partialRecord "PendingTask" [("key", .plain (keyText p.key)), ("lane", .number p.lane)]

/-- A key as answers show it: drawn keys are numbered in the order of their drawing. -/
inductive KeyLabel where
  | plain (key : Key)
  | drawn (number : Nat)
  deriving DecidableEq, Repr

def KeyLabel.text : KeyLabel → String
  | .plain key => toString key.toNat
  | .drawn n => s!"u{n}"

/-- The answer to a submission, as the submitter sees it. -/
inductive Answer where
  | accepted (key : KeyLabel) (stamp : Option Stamp)
  | refused (key : KeyLabel) (error : SubmitError)
  /--
  The submission panicked: its lane's worker cannot be given its thread name, or a
  waker panicked while tasks were thrown away.
  -/
  | panicked
  /-- There is no dispatcher any more. -/
  | dropped
  deriving DecidableEq, Repr

/-- What a task gives. -/
inductive Yield (V : Type) where
  | value (v : V)
  | thread (name : String)
  | answers (answers : List Answer)
  | stamp (stamp : Stamp)
  | errors (errors : List LaneError)
  | recalled (pending : List (KeyLabel × LaneIndex)) (errors : List LaneError)
  | dropped

end OrderedLanes.Session
