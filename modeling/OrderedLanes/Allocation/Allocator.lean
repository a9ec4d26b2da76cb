import OrderedLanes.Config
import OrderedLanes.Allocation.Loads
import OrderedLanes.Allocation.Recency
import OrderedLanes.Allocation.Stamps

/-!
The allocator assigns keys to lanes. A key keeps its lane while it stays
assigned, a new key goes to the lane that holds the fewest keys, and once more
than `capacity` keys are assigned the least recently resolved one is evicted:
its lane counts one key less and its stamp counter is forgotten. The new key's
lane is chosen before the eviction.
-/

namespace OrderedLanes

structure Allocator where
  lanes : Nat
  maxKeys : UInt32
  /-- How many keys may stay assigned. -/
  capacity : Nat
  recency : Recency
  loads : Loads
  stamps : Stamps
  deriving Inhabited

namespace Allocator

/-- An allocator that keeps up to `maxKeys * headroom` keys assigned. -/
def withHeadroom (lanes : Nat) (maxKeys headroom : UInt32) : Except ConfigError Allocator :=
  if lanes = 0 then .error .noLanes
  else do
    let capacity ← evictionBound maxKeys headroom
    return { lanes, maxKeys, capacity, recency := .empty, loads := .fresh lanes, stamps := .empty }

def create (lanes : Nat) (maxKeys : UInt32) : Except ConfigError Allocator :=
  withHeadroom lanes maxKeys defaultHeadroom

/-- Number of assigned keys. -/
def keyCount (a : Allocator) : Nat := a.recency.size

/-- Evict least recently resolved keys, `fuel` at most, until `capacity` are left. -/
def trim (fuel : Nat) (a : Allocator) : Logged Allocator :=
  match fuel with
  | 0 => return a
  | fuel + 1 =>
    if a.capacity < a.recency.size then
      match a.recency.popOldest with
      | (none, recency) => return { a with recency }
      | (some (key, lane), recency) => do
        let loads ← a.loads.release lane
        Logged.emit (.evicted key lane)
        trim fuel { a with recency, loads, stamps := a.stamps.forget key }
    else return a

/-- The lane of `key`, which is assigned to one if it has none. -/
def resolve (a : Allocator) (key : Key) : Logged (LaneIndex × Allocator) :=
  match a.recency.touch key with
  | (some lane, recency) => return (lane, { a with recency })
  | (none, recency) => do
    let (lane, loads) ← a.loads.acquire
    let recency := (recency.insert key lane).2
    let a ← trim recency.size { a with recency, loads }
    return (lane, a)

/-- Resolve keys one after another. -/
def resolveAll (a : Allocator) : List Key → Logged (List LaneIndex × Allocator)
  | [] => return ([], a)
  | key :: keys => do
    let (lane, a) ← a.resolve key
    let (lanes, a) ← a.resolveAll keys
    return (lane :: lanes, a)

/-- Draw the next stamp of `key`, whether or not it is assigned. -/
def nextStamp (a : Allocator) (key : Key) : Stamp × Allocator :=
  let (stamp, stamps) := a.stamps.draw key
  (stamp, { a with stamps })

/-- The lane of `key`, if it is assigned; the order of use stays. -/
def assignment (a : Allocator) (key : Key) : Option LaneIndex := a.recency.peek key

/-- Forget all assignments, counts and stamps. -/
def clear (a : Allocator) : Allocator :=
  { a with recency := a.recency.clear, loads := a.loads.reset, stamps := a.stamps.clear }

/-- Number of assigned keys by lane. -/
def counts (a : Allocator) : List UInt32 := a.loads.counts.toList

/-- The assigned keys with their lanes, most recently resolved first. -/
def assignments (a : Allocator) : List (Key × LaneIndex) := a.recency.toList

/-- The assigned keys with their lanes in ascending order of keys. -/
def sortedAssignments (a : Allocator) : List (Key × LaneIndex) :=
  a.assignments.mergeSort fun x y => x.1 ≤ y.1

def describe (a : Allocator) : DebugText :=
  .record "FairLaneAllocator"
    [("lanes", .number a.lanes), ("max_keys", .number a.maxKeys.toNat),
     ("capacity", .number a.capacity), ("keys", .number a.keyCount)]

@[simp] theorem assignments_clear (a : Allocator) : a.clear.assignments = [] := rfl
@[simp] theorem keyCount_clear (a : Allocator) : a.clear.keyCount = 0 := by
  simp [clear, keyCount]

end Allocator

end OrderedLanes
