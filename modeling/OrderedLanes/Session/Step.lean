import OrderedLanes.Session.Contest

/-!
The steps of a script and their replies. A step acts on the session, then the
workers go on as far as they can; the events of a step are those of the caller's
own thread.
-/

namespace OrderedLanes.Session

variable {V : Type}

/-- One step of a script. -/
inductive Command (V : Type) where
  /-- Wait for the outcome; the gate `opening` is opened meanwhile. -/
  | join (id : String) (opening : Option String)
  /-- Poll until the outcome is there; the gate `opening` is opened meanwhile. -/
  | await (id : String) (opening : Option String)
  /-- Wait for a limited time. -/
  | joinWithin (id : String) (opening : Option String)
  | tryJoin (id : String)
  | poll (id : String) (waker : Waker)
  | finished (id : String)
  | handle (id : String)
  | describeHandle (id : String)
  | dropHandle (id : String)
  | openGate (gate : String)
  /-- Wait for something that the workers do by themselves. -/
  | wait
  | wakes
  | starts
  | runReturned (n : Nat)
  | dropReturned (n : Nat)
  | describeReturned (n : Nat)
  | channel (id : String) (key : Key) (stamp : Option Stamp)
  | complete (id : String) (outcome : Outcome V)
  | dropCompleter (id : String)
  | pend (id : String) (key : Key) (lane : LaneIndex) (stamp : Option Stamp)
      (gate : Option String) (work : Work V)
  | enqueue (id : String) (key : Key) (gate : Option String) (work : Work V)
  | stopLane
  | haltLane
  | laneFinished
  | joinLane
  | queued
  | laneIndex
  | describeLane
  | submit (request : Request (Work V)) (cut : Option Interruption)
  | contest (v : V) (threads each : Nat) (key : Option Key) (kind : Option StopKind)
  | drawStamp (key : Key)
  | stop (kind : StopKind)
  | isShutdown
  | lifecycle
  | terminated
  | joinWorkers
  | lanes
  | config
  | counts
  | assignments
  | assignment (key : Key)
  | resolve (key : Key)
  | clear
  | info
  | describe
  | describeIndented
  | drop

/-- The numbers an allocator tells about itself. -/
structure AllocatorInfo where
  lanes : Nat
  maxKeys : UInt32
  capacity : Nat
  keys : Nat
  deriving DecidableEq, Repr

/-- The answer to a step. -/
inductive Reply (V : Type) where
  | done
  | noHandle
  | noPending
  | noCompleter
  | dropped
  /-- The outcome is not there. -/
  | pending
  /-- The outcome was handed out to an earlier poll. -/
  | alreadyTaken
  | outcome (outcome : Outcome (Yield V))
  | panic (payload : Payload)
  | flag (b : Bool)
  | number (n : Nat)
  | text (s : String)
  | handle (key : KeyLabel) (stamp : Option Stamp)
  | wakes (counts : List (String × Nat))
  /-- The started tasks of each thread, in the order of their starts. -/
  | starts (threads : List (String × List (Option Key × String)))
  | listed (pending : List Listed)
  | closed (pending : List Listed)
  | halted (pending : List Listed) (error : Option LaneError)
  | recalled (pending : List Listed) (errors : List LaneError)
  | laneError (error : Option LaneError)
  | laneErrors (errors : List LaneError)
  | submitted (answer : Answer)
  /-- `kind` is the stop that took part. -/
  | contest (report : ContestReport) (kind : Option StopKind)
  | lifecycle (state : Lifecycle)
  | lanes (count active : Nat)
  | config (config : Config)
  | counts (counts : List UInt32)
  | assignments (assignments : List (KeyLabel × LaneIndex))
  | assignment (lane : Option LaneIndex)
  | info (info : AllocatorInfo)

/-- The reply of a step that may be cut short by the panic of a waker. -/
def replyUnless (panic : Option Payload) (reply : Reply V) : Reply V :=
  panic.elim reply .panic

/-- The reply of a step whose answer is a panic or is told by `reply`. -/
def replyOf {α : Type} (reply : α → Reply V) : Except Payload α → Reply V
  | .ok answer => reply answer
  | .error panic => .panic panic

/-- Take the outcome of a handle and let go of it; an outcome not there yet gives `otherwise`. -/
def takeOutcome (s : Session V) (id : String) (otherwise : Reply V) : Reply V × Session V :=
  match s.heldHandle id with
  | none => (.noHandle, s)
  | some (t, h) =>
    match h.slot.take with
    | (some outcome, slot) => (.outcome outcome, (s.setSlot t slot).release id)
    | (none, _) => (otherwise, s)

/-- Wait for the outcome of a handle; one handed out before is waited for in vain. -/
def joinHandle (s : Session V) (id : String) : Reply V × Session V :=
  s.takeOutcome id .alreadyTaken

/-- Open the gate that is opened during a wait, and let the workers go on. -/
def openDuring (s : Session V) (opening : Option String) : Session V :=
  match opening with
  | none => s
  | some gate => (s.openGate gate).settle

/-- Poll a held handle once. -/
def pollHandle (s : Session V) (id : String) (waker : Waker) : Reply V × Session V :=
  match s.heldHandle id with
  | none => (.noHandle, s)
  | some (t, h) =>
    let (answer, slot) := h.slot.poll waker
    (match answer with
      | .ready outcome => .outcome outcome
      | .pending => .pending
      | .misuse => .panic pollMisuse, s.setSlot t slot)

/-- The first poll of a caller that is going to block: its own waker is left behind. -/
def pollEarly (s : Session V) (id : String) : Session V :=
  match s.heldHandle id with
  | some (t, h) => if h.isFinished then s else s.setSlot t (h.slot.poll .blocked).2
  | none => s

/-- Fill the slot of a completer, which is used up. -/
def useCompleter (s : Session V) (id : String) (outcome : Outcome (Yield V)) :
    Reply V × Session V :=
  match s.completers.lookup id with
  | none => (.noCompleter, s)
  | some t =>
    let s := { s with completers := s.completers.filter (·.1 ≠ id) }
    let (panic, s) := s.deliver t outcome
    (replyUnless panic .done, s)

/-- Make a handle and its completer; a completer of the same name is dropped. -/
def openChannel (s : Session V) (id : String) (key : Key) (stamp : Option Stamp) :
    Reply V × Session V :=
  let (t, s) := s.newHandle key stamp
  let s := s.hold id t
  let (reply, s) := s.useCompleter id (.error .cancelled)
  (match reply with
    | .panic payload => .panic payload
    | _ => .done, { s with completers := (id, t) :: s.completers })

/-- The started tasks that scripts know by name, grouped by thread. -/
def startsByThread (s : Session V) : List (String × List (Option Key × String)) :=
  let named := s.starts.toList.filterMap fun start =>
    match start.origin with
    | .script id => some (start.thread, start.key, id)
    | .contender .. => none
  (named.map (·.1)).eraseDups.map fun thread =>
    (thread, (named.filter (·.1 == thread)).map (·.2))

/-- Run or drop the task that came back under a number. -/
def withReturned (s : Session V) (n : Nat)
    (act : Session V → Pending V → Logged (Option Payload × Session V)) :
    Logged (Reply V × Session V) :=
  match s.useReturned n with
  | (none, s) => return (.noPending, s)
  | (some p, s) => do
    let (panic, s) ← act s p
    return (replyUnless panic .done, s)

/-- A step on the session's lane. -/
def onLane (s : Session V)
    (act : Lane (Pending V) → Logged (Reply V × Lane (Pending V))) :
    Logged (Reply V × Session V) :=
  match s.machine with
  | .lane name l => do
    let (reply, l) ← act l
    return (reply, { s with machine := .lane name l })
  | _ => return (.dropped, s)

/-- A step on the session's dispatcher. -/
def onDispatcher (s : Session V)
    (act : Dispatcher (Pending V) → Logged (Reply V × Dispatcher (Pending V))) :
    Logged (Reply V × Session V) :=
  match s.machine with
  | .dispatcher d => do
    let (reply, d) ← act d
    return (reply, { s with machine := .dispatcher d })
  | _ => return (.dropped, s)

/-- A question to the session's dispatcher. -/
def askDispatcher (s : Session V) (ask : Dispatcher (Pending V) → Reply V) :
    Logged (Reply V × Session V) :=
  s.onDispatcher fun d => return (ask d, d)

/-- A question to the session's lane. -/
def askLane (s : Session V) (ask : Lane (Pending V) → Reply V) : Logged (Reply V × Session V) :=
  s.onLane fun l => return (ask l, l)

/-- Queue a task on the session's lane; a closed lane hands it back. -/
def enqueue (s : Session V) (id : String) (key : Key) (gate : Option String) (work : Work V) :
    Reply V × Session V :=
  match s.machine with
  | .lane name l =>
    let (t, s) := s.newHandle key none
    let s := s.hold id t
    let p : Pending V := ⟨key, l.index, t, ⟨.script id, some key, gate, work⟩⟩
    match l.enqueue p with
    | some l => (.done, { s with machine := .lane name l })
    | none =>
      let (listed, s) := s.takeBack [p]
      (.closed listed, s)
  | _ => (.dropped, s)

/-- Stop the dispatcher; a forced stop lists what came back. -/
def stopStep (s : Session V) (kind : StopKind) : Logged (Reply V × Session V) := do
  match ← s.stop kind with
  | (none, s) => return (.dropped, s)
  | (some report, s) =>
    match kind with
    | .graceful => return (.laneErrors report.errors, s)
    | .forced =>
      let (listed, s) := s.takeBack report.pending
      return (.recalled listed report.errors, s)

/-- Act on one step, before the workers go on. -/
def act (s : Session V) : Command V → Logged (Reply V × Session V)
  | .join id opening => return (s.openDuring opening).joinHandle id
  | .await id opening =>
    match opening with
    | none => return s.joinHandle id
    | some gate =>
      return ((s.pollEarly id).openDuring (some gate)).joinHandle id
  | .joinWithin id opening => return (s.openDuring opening).takeOutcome id .pending
  | .tryJoin id => return s.takeOutcome id .pending
  | .poll id waker =>
    let s := if (s.heldHandle id).isSome then s.noteWaker waker else s
    return s.pollHandle id waker
  | .finished id =>
    return ((s.heldHandle id).elim .noHandle fun h => .flag h.2.isFinished, s)
  | .handle id =>
    return ((s.heldHandle id).elim .noHandle fun h => .handle (s.label h.2.key) h.2.stamp, s)
  | .describeHandle id =>
    return ((s.heldHandle id).elim .noHandle
      fun h => .text (h.2.describe s.keyText).compact, s)
  | .dropHandle id =>
    return ((s.heldHandle id).elim .noHandle fun _ => .done, s.release id)
  | .openGate gate => return (.done, s.openGate gate)
  | .wait => return (.done, s)
  | .wakes => return (.wakes s.wakes, s)
  | .starts => return (.starts s.startsByThread, s)
  | .runReturned n => s.withReturned n fun s p =>
      (s.noteStart callerThread p.task).runTask callerThread p
  | .dropReturned n => s.withReturned n fun s p => return s.discard [p]
  | .describeReturned n =>
    return (((s.returned[n]?).join).elim .noPending
      fun p => .text (p.describe s.keyText).compact, s)
  | .channel id key stamp => return s.openChannel id key stamp
  | .complete id outcome => return s.useCompleter id (outcome.map .value)
  | .dropCompleter id => return s.useCompleter id (.error .cancelled)
  | .pend id key lane stamp gate work =>
    let (t, s) := s.newHandle key stamp
    let s := s.hold id t
    let (listed, s) := s.takeBack [⟨key, lane, t, ⟨.script id, some key, gate, work⟩⟩]
    return (.listed listed, s)
  | .enqueue id key gate work => return s.enqueue id key gate work
  | .stopLane => s.onLane fun l => do
      let (error, l) ← l.stop
      return (.laneError error, l)
  | .haltLane =>
    match s.machine with
    | .lane name l => do
      let (pending, error, l) ← l.halt
      let (listed, s) := { s with machine := .lane name l }.takeBack pending
      return (.halted listed error, s)
    | _ => return (.dropped, s)
  | .laneFinished => s.askLane fun l => .flag l.isFinished
  | .joinLane => s.onLane fun l =>
      let (answer, l) := l.joinIfExited
      return (replyOf .laneError answer, l)
  | .queued => s.askLane fun l => .number l.queued
  | .laneIndex => s.askLane fun l => .number l.index
  | .describeLane => s.askLane fun l => .text l.describe.compact
  | .submit request cut => do
    let (answer, s) ← s.submit request cut
    return (.submitted answer, s)
  | .contest v threads each key kind =>
    match s.machine with
    | .dispatcher _ => do
      let (panic, report, s) ← s.contest v threads each key kind
      return (replyUnless panic (.contest report kind), s)
    | _ => return (.dropped, s)
  | .drawStamp key => s.onDispatcher fun d =>
      let (stamp, d) := d.nextStamp key
      return (.number stamp.toNat, d)
  | .stop kind => s.stopStep kind
  | .isShutdown => s.askDispatcher fun d => .flag d.shutdown
  | .lifecycle => s.askDispatcher fun d => .lifecycle d.lifecycle
  | .terminated => s.askDispatcher fun d => .flag d.terminated
  | .joinWorkers => s.onDispatcher fun d =>
      let (answer, d) := d.joinWorkers
      return (replyOf .laneErrors answer, d)
  | .lanes => s.askDispatcher fun d => .lanes d.laneCount d.activeLanes
  | .config => s.askDispatcher fun d => .config d.config
  | .counts => s.askDispatcher fun d => .counts d.allocator.counts
  | .assignments => s.askDispatcher fun d =>
      .assignments (d.allocator.sortedAssignments.map fun (key, lane) => (s.label key, lane))
  | .assignment key => s.askDispatcher fun d => .assignment (d.allocator.assignment key)
  | .resolve key => s.onDispatcher fun d => do
      let (lane, d) ← d.resolve key
      return (.number lane, d)
  | .clear => s.onDispatcher fun d =>
      return (.done, { d with allocator := d.allocator.clear })
  | .info => s.askDispatcher fun d =>
      .info ⟨d.allocator.lanes, d.allocator.maxKeys, d.allocator.capacity, d.allocator.keyCount⟩
  | .describe => s.askDispatcher fun d => .text d.describe.compact
  | .describeIndented => s.askDispatcher fun d => .text d.describe.indented
  | .drop =>
    match s.machine with
    | .dispatcher d => do
      let d ← d.drop
      let (panic, s) := { s with machine := .dropped d }.dropDeadQueues
      return (replyUnless panic .done, s)
    | .dropped _ => return (.done, s)
    | _ => return (.dropped, s)

/-- Take one step: act on it, then let the workers go on. -/
def step (s : Session V) (c : Command V) : Logged (Reply V × Session V) := do
  let (reply, s) ← s.act c
  return (reply, s.settle)

end OrderedLanes.Session
