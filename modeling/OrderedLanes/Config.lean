import OrderedLanes.Key

/-!
Options of a dispatcher and the checks made before one is built. The number of
keys that may stay assigned is `maxKeys * headroom`; it must be positive and
below a fixed limit.
-/

namespace OrderedLanes

/-- Multiplier applied to `maxKeys` where none is given. -/
def defaultHeadroom : UInt32 := 2

/-- Bounds on the number of assigned keys stay below this limit. -/
def trackedKeyLimit : Nat := 2147483646

/-- No dispatcher has more lanes than this. -/
def maxLanes : Nat := 100

/-- Key capacity of the default options. -/
def defaultMaxKeys : UInt32 := 1024

/-- Why construction was refused. -/
inductive ConfigError where
  | noLanes
  | noKeyCapacity
  | noHeadroom
  | keyBoundOverflow (maxKeys headroom : UInt32) (limit : Nat)
  deriving DecidableEq, Repr

def ConfigError.message : ConfigError → String
  | .noLanes => "lane count must be positive"
  | .noKeyCapacity => "max_keys must be positive"
  | .noHeadroom => "headroom factor must be positive"
  | .keyBoundOverflow maxKeys headroom limit =>
    s!"max_keys {maxKeys.toNat} with headroom {headroom.toNat} reaches the tracked key limit {limit}"

/-- How many keys may stay assigned; the product is taken without wrapping. -/
def evictionBound (maxKeys headroom : UInt32) : Except ConfigError Nat :=
  if maxKeys = 0 then .error .noKeyCapacity
  else if headroom = 0 then .error .noHeadroom
  else if trackedKeyLimit ≤ maxKeys.toNat * headroom.toNat then
    .error (.keyBoundOverflow maxKeys headroom trackedKeyLimit)
  else .ok (maxKeys.toNat * headroom.toNat)

/-- Options of a dispatcher. -/
structure Config where
  /-- Number of distinct keys expected to be live at a time. -/
  maxKeys : UInt32 := defaultMaxKeys
  /-- Multiplier applied to `maxKeys` before keys are evicted. -/
  headroom : UInt32 := defaultHeadroom
  /-- Cap on the lane count; values above `maxLanes` have no effect. -/
  laneCap : Nat := maxLanes
  /-- Explicit lane count; without one the machine's parallelism decides. -/
  lanes : Option Nat := none
  /-- Lane `i` runs on the thread `threadName-i`. -/
  threadName : String := "keylane-lane"
  deriving DecidableEq, Repr, Inhabited

namespace Config

/-- The lane count on a machine with the given parallelism. -/
def laneCount (c : Config) (parallelism : Nat) : Nat :=
  min (min (c.lanes.getD parallelism) c.laneCap) maxLanes

/-- The lane count where it is the same on every machine. -/
def fixedLaneCount? (c : Config) : Option Nat :=
  if c.lanes.isSome ∨ c.laneCap ≤ 1 then some (c.laneCount 1) else none

theorem laneCount_eq_of_fixedLaneCount? (c : Config) (n parallelism : Nat)
    (positive : 0 < parallelism) (fixed : c.fixedLaneCount? = some n) :
    c.laneCount parallelism = n := by
  unfold fixedLaneCount? at fixed
  split at fixed
  · next h =>
    cases fixed
    unfold laneCount
    cases hl : c.lanes with
    | some k => simp
    | none =>
      have : c.laneCap ≤ 1 := by simpa [hl] using h
      simp only [Option.getD_none]
      omega
  · cases fixed

/-- The thread of lane `i`. -/
def laneThread (threadName : String) (i : LaneIndex) : String := s!"{threadName}-{i}"

/-- A thread can be given a name only if the name holds no NUL character. -/
def nameable (threadName : String) : Bool := !threadName.toList.contains '\x00'

end Config

end OrderedLanes
