import OrderedLanes.Interleaving.Closing

/-!
One lane among any number of callers and its own worker. Callers queue tasks, stop the
lane, halt it and ask how its worker ended. A stop or a halt is a sequence of accesses;
everything else is one access. One act is one access by one party, and the acts come in
any order. What happened is kept beside the lane, oldest first.
-/

namespace OrderedLanes

/-- A stop or a halt of a lane, and how far it has come. -/
structure LaneCall (α : Type) where
  kind : StopKind
  progress : Closing α

/-- What happened at a lane. -/
inductive LaneNews (α : Type) where
  | accepted (task : α)
  /-- The lane was closed, and the caller has its task back. -/
  | refused (task : α)
  /-- The `n`-th call came to the stage, and moved it if that was left to do. -/
  | reached (n : Nat) (kind : StopKind)
  /-- The `n`-th call looked whether the worker is gone. -/
  | looked (n : Nat) (gone : Bool)
  | started (task : α)
  | ended (task : α)
  /-- The worker is gone. -/
  | left (panic : Option Payload)
  /-- A caller asked how the worker ended, and was told or got a panic. -/
  | joined (answer : Except Payload (Option LaneError))

/-- One access by one party. -/
inductive LaneAct (α V : Type) where
  | enqueue (task : α)
  /-- A caller begins to stop or to halt the lane. -/
  | call (kind : StopKind)
  /-- The next access of the `n`-th call. -/
  | advance (n : Nat)
  | receive
  /-- If the worker leaves with its task, dropping the task may panic. -/
  | inspect (panic : Option Payload)
  /-- The running task ends, and a waker that is called then may panic. -/
  | finish (ending : Ending V) (woken : Option Payload)
  | join

/-- Whether the act is one of the worker. -/
def LaneAct.byWorker {α V : Type} : LaneAct α V → Bool
  | .receive | .inspect _ | .finish _ _ => true
  | _ => false

/-- A lane with the calls that stop or halt it, in the order of their beginning. -/
structure LaneWorld (α : Type) where
  lane : Lane α
  calls : List (LaneCall α)
  log : List (LaneNews α)

/-- What an access of the `n`-th call adds to the log. -/
def Closing.news {α : Type} (n : Nat) (l : Lane α) : Closing α → List (LaneNews α)
  | .marking kind => [.reached n kind]
  | .looking _ => [.looked n l.isFinished]
  | _ => []

/-- What an act of the worker adds to the log if it was the last one. -/
def Lane.departure {α : Type} (l : Lane α) : List (LaneNews α) :=
  match l.worker with
  | .exited panic => [.left panic]
  | _ => []

namespace LaneWorld

variable {α V : Type}

/-- A lane that nobody has used. -/
def fresh (index : LaneIndex) : LaneWorld α := ⟨Lane.start index, [], []⟩

def note (w : LaneWorld α) (news : List (LaneNews α)) : LaneWorld α :=
  { w with log := w.log ++ news }

/-- One act; `none` if it is not possible now. -/
def step (w : LaneWorld α) : LaneAct α V → Option (LaneWorld α)
  | .enqueue task =>
    match w.lane.enqueue task with
    | some lane => some ({ w with lane }.note [.accepted task])
    | none => some (w.note [.refused task])
  | .call kind => some { w with calls := w.calls ++ [⟨kind, .marking kind⟩] }
  | .advance n => do
    let ⟨kind, c⟩ ← w.calls[n]?
    match c with
    | .done _ => none
    | c =>
      let (progress, lane) := c.step w.lane
      some ({ w with lane, calls := w.calls.set n ⟨kind, progress⟩ }.note (c.news n w.lane))
  | .receive => do
    let lane ← w.lane.receive
    some ({ w with lane }.note lane.departure)
  | .inspect panic => do
    match ← w.lane.inspect with
    | (.run task, lane) => some ({ w with lane }.note [.started task])
    | (.abandon _, _) => some ({ w with lane := w.lane.leave panic }.note [.left panic])
  | .finish ending woken =>
    match w.lane.worker with
    | .busy task =>
      let lane := w.lane.conclude (ending.escape.or woken)
      some ({ w with lane }.note (.ended task :: lane.departure))
    | _ => none
  | .join =>
    let (answer, lane) := w.lane.joinIfExited
    some ({ w with lane }.note [.joined answer])

/-- A run: one act after another. -/
def run (w : LaneWorld α) (acts : List (LaneAct α V)) : Option (LaneWorld α) :=
  acts.foldlM step w

@[simp] theorem run_nil (w : LaneWorld α) : w.run ([] : List (LaneAct α V)) = some w := rfl

@[simp] theorem run_cons (w : LaneWorld α) (a : LaneAct α V) (acts : List (LaneAct α V)) :
    w.run (a :: acts) = (w.step a).bind (LaneWorld.run · acts) := rfl

@[simp] theorem lane_note (w : LaneWorld α) (news : List (LaneNews α)) :
    (w.note news).lane = w.lane := rfl

@[simp] theorem calls_note (w : LaneWorld α) (news : List (LaneNews α)) :
    (w.note news).calls = w.calls := rfl

@[simp] theorem log_note (w : LaneWorld α) (news : List (LaneNews α)) :
    (w.note news).log = w.log ++ news := rfl

/-- No call is under way. -/
def Settled (w : LaneWorld α) : Prop := ∀ call ∈ w.calls, ∃ report, call.progress = .done report

/-! ### Views of the log -/

/-- The tasks queued, in the order of their queueing. -/
abbrev accepted (log : List (LaneNews α)) : List α :=
  log.filterMap fun
    | .accepted task => some task
    | _ => none

/-- The tasks that the worker started, in the order of their starts. -/
abbrev started (log : List (LaneNews α)) : List α :=
  log.filterMap fun
    | .started task => some task
    | _ => none

/-- The tasks that the worker brought to an end. -/
abbrev ended (log : List (LaneNews α)) : List α :=
  log.filterMap fun
    | .ended task => some task
    | _ => none

/-- The calls that came to the stage, the first one first. -/
abbrev reached (log : List (LaneNews α)) : List (Nat × StopKind) :=
  log.filterMap fun
    | .reached n kind => some (n, kind)
    | _ => none

/-- The looks at the worker, each with the call that took it and what it saw. -/
abbrev looks (log : List (LaneNews α)) : List (Nat × Bool) :=
  log.filterMap fun
    | .looked n gone => some (n, gone)
    | _ => none

/-- How the worker ended. -/
abbrev departures (log : List (LaneNews α)) : List (Option Payload) :=
  log.filterMap fun
    | .left panic => some panic
    | _ => none

/-- The answers to those who asked how the worker ended. -/
abbrev joins (log : List (LaneNews α)) : List (Except Payload (Option LaneError)) :=
  log.filterMap fun
    | .joined answer => some answer
    | _ => none

/-- The first call that came to the stage. -/
def firstCall? (log : List (LaneNews α)) : Option Nat := (reached log).head?.map Prod.fst

/-- The first halt that came to the stage. -/
def firstHalt? (log : List (LaneNews α)) : Option Nat :=
  ((reached log).find? (·.2 = .forced)).map Prod.fst

end LaneWorld

end OrderedLanes
