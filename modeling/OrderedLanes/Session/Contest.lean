import OrderedLanes.Session.Run

/-!
Several threads at once. The reports made here are the same in every
interleaving, so the threads are taken one after another. What the threads
themselves log is not the caller's; a stop that takes part runs on the caller's
own thread.
-/

namespace OrderedLanes

namespace Allocator

/-- The keys `0, 1, …` below `keys`, started at `first` and wrapping around. -/
def rotatedKeys (keys first : Nat) : List Key :=
  (List.range keys).map fun i => UInt32.ofNat ((first + i) % keys)

/--
Each of `threads` threads resolves the keys below `keys` once, in an order of its
own. Answers whether every lane answered is the one still assigned at the end.
-/
def resolveTogether (a : Allocator) (threads keys : Nat) : Bool × Allocator :=
  let orders := (List.range threads).map (rotatedKeys keys)
  let (lanes, a) := (a.resolveAll orders.flatten).value
  ((orders.flatten.zip lanes).all fun (key, lane) => a.assignment key == some lane, a)

/-- Each of `threads` threads draws `each` stamps of `key`; answers all of them in order. -/
def drawTogether (a : Allocator) (threads each : Nat) (key : Key) : List Stamp × Allocator :=
  let (stamps, s) := a.stamps.drawMany key (threads * each)
  (stamps.mergeSort (· ≤ ·), { a with stamps := s })

end Allocator

namespace Session

variable {V : Type}

/-- What became of the tasks of a contest. -/
structure ContestReport where
  /-- Every submission was rejected, or its task was done or cancelled. -/
  accounted : Bool
  /-- Tasks of which anything else became. -/
  other : Nat
  /-- The started tasks of each thread are its first ones, in the order of submission. -/
  ordered : Bool
  /-- As many tasks were started as were done. -/
  ranEqualsDone : Bool
  done : Nat
  cancelled : Nat
  deriving DecidableEq, Repr

/-- The outcomes of handles that are there. -/
def outcomes (s : Session V) (tickets : List Ticket) : List (Outcome (Yield V)) :=
  tickets.filterMap fun t =>
    match s.handles[t]?.map Handle.slot with
    | some (.ready outcome) => some outcome
    | _ => none

/-- The turns of a thread's tasks that started since the start number `since`. -/
def turnsStarted (s : Session V) (since thread : Nat) : List Nat :=
  (s.starts.toList.drop since).filterMap fun start =>
    match start.origin with
    | .contender t turn => if t = thread then some turn else none
    | .script _ => none

/--
Each of `threads` threads submits `each` tasks that give `v`, under `key` or
under its own number, and a stop may follow; the tasks it hands back are dropped.
Answers the panic of a waker called meanwhile by the caller.
-/
def contest (s : Session V) (v : V) (threads each : Nat) (key : Option Key)
    (kind : Option StopKind) : Logged (Option Payload × ContestReport × Session V) := do
  let since := s.starts.size
  let firstTicket := s.handles.size
  let requests := (List.range threads).flatMap fun thread =>
    (List.range each).map fun turn =>
      (⟨.contender thread turn, .plain (key.getD (UInt32.ofNat thread)), none, .give v⟩ :
        Request (Work V))
  let (answers, s) := (s.submitAll requests).value
  let rejected := (answers.filter fun
    | .refused _ (.rejected _) => true
    | _ => false).length
  let s := s.settle
  let (panic, s) ←
    match kind with
    | none => pure (none, s)
    | some kind => s.stopDiscarding kind
  let s := s.settle
  let tickets := (List.range (s.handles.size - firstTicket)).map (firstTicket + ·)
  let outcomes := s.outcomes tickets
  let done := (outcomes.filter fun
    | .ok _ => true
    | _ => false).length
  let cancelled := (outcomes.filter fun
    | .error .cancelled => true
    | _ => false).length
  let turns := (List.range threads).map (s.turnsStarted since)
  return (panic,
    ⟨done + cancelled + rejected == threads * each,
      threads * each - (done + cancelled + rejected),
      turns.all fun t => t == List.range t.length,
      turns.flatten.length == done, done, cancelled⟩, s)

end Session

end OrderedLanes
