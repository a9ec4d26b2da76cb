import OrderedLanes.Event
import OrderedLanes.DebugText

/-!
How many keys each lane holds. The lanes are sorted into buckets by their count,
lowest count first and smallest lane first within a bucket, so the least loaded
lane stands at the front; the same counts are kept by lane beside the buckets.
Counts are 32 bits wide and stop at the top.
-/

namespace OrderedLanes

/-- The lanes that hold the same number of keys, ascending. -/
structure Bucket where
  count : UInt32
  lanes : List LaneIndex
  deriving DecidableEq, Repr, Inhabited

namespace Bucket

/-- Add a lane to an ascending list that may hold it already. -/
def addLane (lane : LaneIndex) : List LaneIndex → List LaneIndex
  | [] => [lane]
  | first :: rest =>
    if lane < first then lane :: first :: rest
    else if lane = first then first :: rest
    else first :: addLane lane rest

/-- Put a lane into the bucket of `count`, which is made if it is missing. -/
def place (count : UInt32) (lane : LaneIndex) : List Bucket → List Bucket
  | [] => [⟨count, [lane]⟩]
  | first :: rest =>
    if count < first.count then ⟨count, [lane]⟩ :: first :: rest
    else if count = first.count then ⟨count, addLane lane first.lanes⟩ :: rest
    else first :: place count lane rest

/-- Take a lane out of the bucket of `count`; a bucket left empty goes. -/
def detach (count : UInt32) (lane : LaneIndex) : List Bucket → List Bucket
  | [] => []
  | first :: rest =>
    if first.count = count then
      match first.lanes.erase lane with
      | [] => rest
      | lanes => ⟨count, lanes⟩ :: rest
    else first :: detach count lane rest

/--
Take the smallest lane out of the lowest bucket. Answers the bucket's count, the
lane and the remaining buckets; without any bucket the answer is lane 0 at count 0.
-/
def takeLowest : List Bucket → UInt32 × LaneIndex × List Bucket
  | [] => (0, 0, [])
  | first :: rest =>
    match first.lanes with
    | [] => (first.count, 0, rest)
    | [lane] => (first.count, lane, rest)
    | lane :: lanes => (first.count, lane, ⟨first.count, lanes⟩ :: rest)

def text (b : Bucket) : String :=
  s!"{b.count.toNat}: \x7b" ++ ", ".intercalate (b.lanes.map toString) ++ "\x7d"

end Bucket

/-- Counts of assigned keys, by lane and by bucket. -/
structure Loads where
  buckets : List Bucket
  counts : Array UInt32
  deriving DecidableEq, Repr, Inhabited

namespace Loads

/-- All of `lanes` lanes at count zero. -/
def fresh (lanes : Nat) : Loads where
  buckets := if lanes = 0 then [] else [⟨0, List.range lanes⟩]
  counts := Array.replicate lanes 0

/-- Put every lane back at count zero. -/
def reset (l : Loads) : Loads := fresh l.counts.size

/-- One more key; the top count stays. -/
def raise (count : UInt32) : UInt32 := if count = 0xffffffff then count else count + 1

/-- Choose the least loaded lane and count one more key for it. -/
def acquire (l : Loads) : Logged (LaneIndex × Loads) := do
  let l ←
    if l.buckets.isEmpty then do
      Logged.emit (.countsLost l.counts.size)
      pure l.reset
    else pure l
  let (lowest, lane, rest) := Bucket.takeLowest l.buckets
  let raised := raise lowest
  return (lane, ⟨Bucket.place raised lane rest, l.counts.setIfInBounds lane raised⟩)

/-- Count one key less for `lane`; ignored for an unknown lane and at count zero. -/
def release (l : Loads) (lane : LaneIndex) : Logged Loads :=
  match l.counts[lane]? with
  | none => do
    Logged.emit (.releaseUnknown lane l.counts.size)
    return l
  | some current =>
    if current = 0 then do
      Logged.emit (.releaseUnused lane)
      return l
    else
      let lowered := current - 1
      return ⟨Bucket.place lowered lane (Bucket.detach current lane l.buckets),
        l.counts.setIfInBounds lane lowered⟩

@[simp] theorem size_counts_fresh (lanes : Nat) : (fresh lanes).counts.size = lanes := by
  simp [fresh]

@[simp] theorem size_counts_reset (l : Loads) : l.reset.counts.size = l.counts.size := by
  simp [reset]

@[simp] theorem size_counts_acquire (l : Loads) :
    l.acquire.value.2.counts.size = l.counts.size := by
  unfold acquire
  by_cases h : l.buckets.isEmpty <;> simp [h]

@[simp] theorem size_counts_release (l : Loads) (lane : LaneIndex) :
    (l.release lane).value.counts.size = l.counts.size := by
  unfold release
  split
  · rfl
  · split <;> simp [pure]

def text (l : Loads) : String :=
  (DebugText.record "CountIndex"
    [("buckets", .plain ("\x7b" ++ ", ".intercalate (l.buckets.map Bucket.text) ++ "\x7d")),
     ("per_lane", .plain
       ("[" ++ ", ".intercalate (l.counts.toList.map (toString ·.toNat)) ++ "]"))]).compact

end Loads

end OrderedLanes
