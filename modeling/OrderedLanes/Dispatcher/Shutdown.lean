import OrderedLanes.Dispatcher.Basic

/-!
Stopping a dispatcher. A graceful stop closes every lane and lets it finish its
queue; a forced stop halts every lane and hands back what never ran, lane by
lane. Either raises its flag first, so a stop that comes second does nothing,
except that a forced stop may follow a graceful one.
-/

namespace OrderedLanes

/-- How a dispatcher is stopped. -/
inductive StopKind where
  | graceful | forced
  deriving DecidableEq, Repr, Inhabited

/-- What a stop hands back. -/
structure StopReport (α : Type) where
  pending : List α
  errors : List LaneError
  deriving Repr, Inhabited

namespace StopReport

variable {α : Type}

def empty : StopReport α := ⟨[], []⟩

/-- One report after another. -/
def append (r s : StopReport α) : StopReport α := ⟨r.pending ++ s.pending, r.errors ++ s.errors⟩

@[simp] theorem empty_append (r : StopReport α) : empty.append r = r := rfl

@[simp] theorem append_empty (r : StopReport α) : r.append empty = r := by
  simp [append, empty]

theorem append_assoc (r s t : StopReport α) :
    (r.append s).append t = r.append (s.append t) := by
  simp [append]

end StopReport

namespace Lane

variable {α : Type}

/-- Stop or halt a lane. -/
def shut (l : Lane α) : StopKind → Logged (StopReport α × Lane α)
  | .graceful => do
    let (error, l) ← l.stop
    return (⟨[], error.toList⟩, l)
  | .forced => do
    let (pending, error, l) ← l.halt
    return (⟨pending, error.toList⟩, l)

end Lane

namespace Dispatcher

variable {α : Type}

/-- Stop or halt the lanes of a list of slots in order. -/
def endLanes (kind : StopKind) :
    List (Option (Lane α)) → Logged (StopReport α × List (Option (Lane α)))
  | [] => return (.empty, [])
  | none :: slots => do
    let (report, slots) ← endLanes kind slots
    return (report, none :: slots)
  | some l :: slots => do
    let (first, l) ← l.shut kind
    let (report, slots) ← endLanes kind slots
    return (first.append report, some l :: slots)

/-- Raise the flag of a stop; `none` if a stop of this kind has nothing left to do. -/
def raise (d : Dispatcher α) : StopKind → Option (Dispatcher α)
  | .graceful => if d.shutdown then none else some { d with shutdown := true }
  | .forced =>
    if d.shutdownNow then none else some { d with shutdown := true, shutdownNow := true }

/-- What a stop does once its flag is raised. -/
def windDown (d : Dispatcher α) (kind : StopKind) : Logged (StopReport α × Dispatcher α) := do
  Logged.emit (match kind with
    | .graceful => .shuttingDown d.activeLanes
    | .forced => .shuttingDownNow d.activeLanes)
  let (report, lanes) ← endLanes kind d.lanes
  if kind = .forced then
    Logged.emit (.collected report.pending.length)
  return (report, { d with lanes, allocator := d.allocator.clear })

/-- Stop the dispatcher. -/
def stop (d : Dispatcher α) (kind : StopKind) : Logged (StopReport α × Dispatcher α) :=
  match d.raise kind with
  | none => return (.empty, d)
  | some d => d.windDown kind

/-- Stop accepting tasks and let every lane finish its queue. -/
def shutdownGracefully (d : Dispatcher α) : Logged (List LaneError × Dispatcher α) := do
  let (report, d) ← d.stop .graceful
  return (report.errors, d)

/-- Give the dispatcher up: its lanes finish their queues unobserved. -/
def drop (d : Dispatcher α) : Logged (Dispatcher α) := do
  let (errors, d) ← d.shutdownGracefully
  errors.forM fun e => Logged.emit (.droppedLaneFailed e)
  return d

end Dispatcher

end OrderedLanes
