import OrderedLanes.Outcome

/-!
Log events. An operation that logs returns a `Logged` value: its result together
with the events it emitted, oldest first.
-/

namespace OrderedLanes

inductive Level where
  | trace | debug | info | warn
  deriving DecidableEq, Repr

/-- Everything that allocation, lanes and dispatchers report. -/
inductive Event where
  /-- The lane counts were found lost and were set back to zero. -/
  | countsLost (lanes : Nat)
  | releaseUnknown (lane : LaneIndex) (lanes : Nat)
  | releaseUnused (lane : LaneIndex)
  | evicted (key : Key) (lane : LaneIndex)
  /-- A submission was refused; `lane` is the lane it had already reached. -/
  | rejected (key : Key) (lane : Option LaneIndex)
  | laneClosed (key : Key) (lane : LaneIndex)
  | laneCreated (lane : LaneIndex)
  | laneRedundant (lane : LaneIndex)
  | laneDraining (lane : LaneIndex)
  | laneHalted (lane : LaneIndex) (drained : Nat)
  | shuttingDown (activeLanes : Nat)
  | shuttingDownNow (activeLanes : Nat)
  | collected (pending : Nat)
  /-- A lane met by a submission after the stop began did not stop cleanly. -/
  | lateLaneFailed (lane : LaneIndex) (error : LaneError)
  /-- A lane did not stop cleanly while its dispatcher was being dropped. -/
  | droppedLaneFailed (error : LaneError)
  | taskPanicked (key : Key) (lane : LaneIndex) (panic : String)
  deriving DecidableEq, Repr

namespace Event

def level : Event → Level
  | .countsLost _ | .releaseUnknown .. | .releaseUnused _ | .lateLaneFailed ..
  | .droppedLaneFailed _ | .taskPanicked .. => .warn
  | .evicted .. | .rejected .. | .laneClosed .. | .laneRedundant _ => .trace
  | .laneCreated _ | .laneDraining _ | .laneHalted .. | .collected _ => .debug
  | .shuttingDown _ | .shuttingDownNow _ => .info

def message : Event → String
  | .countsLost _ => "count index empty; reinitialising all lanes at zero"
  | .releaseUnknown .. => "release for unknown lane ignored"
  | .releaseUnused _ => "release on lane with no assigned keys ignored"
  | .evicted .. => "evicted least recently used key"
  | .rejected .. => "submission rejected"
  | .laneClosed .. => "lane closed; submission rejected"
  | .laneCreated _ => "lane created"
  | .laneRedundant _ => "lost lane creation race; halting redundant worker"
  | .laneDraining _ => "lane draining"
  | .laneHalted .. => "lane halted"
  | .shuttingDown _ => "dispatcher shutting down"
  | .shuttingDownNow _ => "dispatcher shutting down now"
  | .collected _ => "collected unexecuted tasks"
  | .lateLaneFailed .. => "late lane failed to stop cleanly"
  | .droppedLaneFailed _ => "lane failed to stop cleanly"
  | .taskPanicked .. => "task panicked"

/-- The value of one field of an event. -/
inductive Field where
  | count (n : Nat)
  | key (k : Key)
  | text (s : String)
  deriving DecidableEq, Repr

/-- The fields of an event besides its level and message. -/
def fields : Event → List (String × Field)
  | .countsLost lanes => [("lanes", .count lanes)]
  | .releaseUnknown lane lanes => [("lane", .count lane), ("lanes", .count lanes)]
  | .releaseUnused lane | .laneCreated lane | .laneRedundant lane | .laneDraining lane =>
    [("lane", .count lane)]
  | .evicted key lane | .laneClosed key lane => [("key", .key key), ("lane", .count lane)]
  | .rejected key none => [("key", .key key)]
  | .rejected key (some lane) => [("key", .key key), ("lane", .count lane)]
  | .laneHalted lane drained => [("lane", .count lane), ("drained", .count drained)]
  | .shuttingDown active | .shuttingDownNow active => [("active_lanes", .count active)]
  | .collected pending => [("pending", .count pending)]
  | .lateLaneFailed lane error => [("lane", .count lane), ("error", .text error.message)]
  | .droppedLaneFailed error => [("error", .text error.message)]
  | .taskPanicked key lane panic =>
    [("key", .key key), ("lane", .count lane), ("message", .text panic)]

end Event

/-- A result together with the events emitted on the way, oldest first. -/
structure Logged (α : Type) where
  value : α
  events : List Event

namespace Logged

variable {α β : Type}

instance : Monad Logged where
  pure a := ⟨a, []⟩
  bind x f := ⟨(f x.value).value, x.events ++ (f x.value).events⟩

/-- Emit one event. -/
def emit (e : Event) : Logged Unit := ⟨(), [e]⟩

@[simp] theorem value_pure (a : α) : (pure a : Logged α).value = a := rfl
@[simp] theorem events_pure (a : α) : (pure a : Logged α).events = [] := rfl
@[simp] theorem value_bind (x : Logged α) (f : α → Logged β) :
    (x >>= f).value = (f x.value).value := rfl
@[simp] theorem events_bind (x : Logged α) (f : α → Logged β) :
    (x >>= f).events = x.events ++ (f x.value).events := rfl
@[simp] theorem value_map (g : α → β) (x : Logged α) : (g <$> x).value = g x.value := rfl
@[simp] theorem events_map (g : α → β) (x : Logged α) : (g <$> x).events = x.events :=
  List.append_nil _
@[simp] theorem value_emit (e : Event) : (emit e).value = () := rfl
@[simp] theorem events_emit (e : Event) : (emit e).events = [e] := rfl

/-- What follows a logged value matters only at that value. -/
theorem bind_congr_value {x : Logged α} {f g : α → Logged β} (h : f x.value = g x.value) :
    x >>= f = x >>= g := by
  simp [bind, h]

instance : LawfulMonad Logged := LawfulMonad.mk' Logged
  (fun x => by cases x; simp [Functor.map])
  (fun a f => by simp [bind, pure])
  (fun x f g => by simp [bind])

end Logged

end OrderedLanes
