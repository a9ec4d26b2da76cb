import OrderedLanes.Allocation.Allocator
import OrderedLanes.Lane

/-!
A dispatcher: an allocator and one slot for each lane, filled when the lane is
first needed and never emptied. Two flags tell whether a stop has begun and
whether one was forced.
-/

namespace OrderedLanes

/-- How far a dispatcher has come. -/
inductive Lifecycle where
  | running | shuttingDown | stopped
  deriving DecidableEq, Repr, Inhabited

def Lifecycle.name : Lifecycle → String
  | .running => "Running"
  | .shuttingDown => "ShuttingDown"
  | .stopped => "Stopped"

structure Dispatcher (α : Type) where
  config : Config
  allocator : Allocator
  lanes : List (Option (Lane α))
  /-- Some stop has begun. -/
  shutdown : Bool
  /-- A forced stop has begun. -/
  shutdownNow : Bool
  deriving Inhabited

namespace Dispatcher

variable {α : Type}

/-- A dispatcher without lanes yet, on a machine of the given parallelism. -/
def create (config : Config) (parallelism : Nat) : Except ConfigError (Dispatcher α) := do
  let count := config.laneCount parallelism
  let allocator ← Allocator.withHeadroom count config.maxKeys config.headroom
  return { config, allocator, lanes := List.replicate count none, shutdown := false,
           shutdownNow := false }

def laneCount (d : Dispatcher α) : Nat := d.lanes.length

/-- The lane in a slot, if it was needed before. -/
def lane? (d : Dispatcher α) (i : LaneIndex) : Option (Lane α) := (d.lanes[i]?).join

def setLane (d : Dispatcher α) (i : LaneIndex) (l : Lane α) : Dispatcher α :=
  { d with lanes := d.lanes.set i (some l) }

/-- The lanes needed so far, in slot order. -/
def createdLanes (d : Dispatcher α) : List (Lane α) := d.lanes.filterMap id

def activeLanes (d : Dispatcher α) : Nat := d.createdLanes.length

/-- Every worker that was started is gone. -/
def terminated (d : Dispatcher α) : Bool := d.createdLanes.all Lane.isFinished

def lifecycle (d : Dispatcher α) : Lifecycle :=
  if !d.shutdown then .running
  else if d.shutdownNow || d.terminated then .stopped
  else .shuttingDown

/-- Draw the next stamp of `key`. -/
def nextStamp (d : Dispatcher α) (key : Key) : Stamp × Dispatcher α :=
  let (stamp, allocator) := d.allocator.nextStamp key
  (stamp, { d with allocator })

/-- The lane of `key`, which is assigned to one if it has none. -/
def resolve (d : Dispatcher α) (key : Key) : Logged (LaneIndex × Dispatcher α) := do
  let (lane, allocator) ← d.allocator.resolve key
  return (lane, { d with allocator })

/-- Fill an empty slot; a slot that was filled before keeps its lane. -/
def install (d : Dispatcher α) (l : Lane α) : Option (Dispatcher α) :=
  match d.lane? l.index with
  | some _ => none
  | none => some (d.setLane l.index l)

/-- Report how the workers of a list of slots ended, in order; a panic of one report ends it all. -/
def joinLanes :
    List (Option (Lane α)) → Except Payload (List LaneError) × List (Option (Lane α))
  | [] => (.ok [], [])
  | none :: slots =>
    let (errors, slots) := joinLanes slots
    (errors, none :: slots)
  | some l :: slots =>
    match l.joinIfExited with
    | (.error panic, l) => (.error panic, some l :: slots)
    | (.ok error, l) =>
      let (errors, slots) := joinLanes slots
      (errors.map (error.toList ++ ·), some l :: slots)

/-- Report how workers ended, each of them once. -/
def joinWorkers (d : Dispatcher α) : Except Payload (List LaneError) × Dispatcher α :=
  let (errors, lanes) := joinLanes d.lanes
  (errors, { d with lanes })

def describe (d : Dispatcher α) : DebugText :=
  .record "OrderedDispatcher"
    [("lanes", .number d.laneCount), ("active_lanes", .number d.activeLanes),
     ("state", .plain d.lifecycle.name), ("allocator", d.allocator.describe)]

@[simp] theorem laneCount_setLane (d : Dispatcher α) (i : LaneIndex) (l : Lane α) :
    (d.setLane i l).laneCount = d.laneCount := by
  simp [laneCount, setLane]

@[simp] theorem shutdown_setLane (d : Dispatcher α) (i : LaneIndex) (l : Lane α) :
    (d.setLane i l).shutdown = d.shutdown := rfl

@[simp] theorem shutdown_nextStamp (d : Dispatcher α) (key : Key) :
    (d.nextStamp key).2.shutdown = d.shutdown := rfl

@[simp] theorem shutdown_resolve (d : Dispatcher α) (key : Key) :
    (d.resolve key).value.2.shutdown = d.shutdown := rfl

@[simp] theorem lanes_resolve (d : Dispatcher α) (key : Key) :
    (d.resolve key).value.2.lanes = d.lanes := rfl

theorem setLane_lane? (d : Dispatcher α) (i : LaneIndex) (l : Lane α) (h : d.lane? i = some l) :
    d.setLane i l = d := by
  have there : d.lanes[i]? = some (some l) := by
    simpa [lane?, Option.join_eq_some_iff] using h
  obtain ⟨bound, value⟩ := List.getElem?_eq_some_iff.1 there
  simp [setLane, ← value, List.set_getElem_self]

@[simp] theorem setLane_setLane (d : Dispatcher α) (i : LaneIndex) (l l' : Lane α) :
    (d.setLane i l).setLane i l' = d.setLane i l' := by
  simp [setLane]

theorem install_of_empty (d : Dispatcher α) (l : Lane α) (h : d.lane? l.index = none) :
    d.install l = some (d.setLane l.index l) := by
  simp [install, h]

theorem lane?_setLane (d : Dispatcher α) (i j : LaneIndex) (l : Lane α) (h : i < d.laneCount) :
    (d.setLane i l).lane? j = if i = j then some l else d.lane? j := by
  unfold laneCount at h
  by_cases hij : i = j
  · subst hij; simp [lane?, setLane, h]
  · simp [lane?, setLane, hij]

end Dispatcher

end OrderedLanes
