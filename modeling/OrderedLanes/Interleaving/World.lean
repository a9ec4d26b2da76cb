import OrderedLanes.Completion
import OrderedLanes.Interleaving.Stopping
import OrderedLanes.Interleaving.Submitting

/-!
A dispatcher among any number of callers and its own workers. One act of the
world is one access by one of them; a run is a list of acts in any order. Running
tasks call the dispatcher like any other caller, so nothing is said about who a
caller is, and a task's ending is chosen by the act that ends it. The world keeps
two records, oldest first: a history of what the dispatcher and its callers did
to tasks, and what became visible through the handles.
-/

namespace OrderedLanes

/-- The number of a submission, which also names its task and its handle. -/
abbrev Ticket := Nat

/-- A task under way. -/
structure Parcel where
  key : Key
  lane : LaneIndex
  ticket : Ticket
  deriving DecidableEq, Repr

/-- Who may halt a lane: a forced stop, or a submission that meets the lane on its way out. -/
inductive Party where
  | stop (n : Nat)
  | submission (t : Ticket)
  deriving DecidableEq, Repr

/-- What happened. -/
inductive Happening (V : Type) where
  /-- A submission looked its key up and found it on a lane. -/
  | resolved (t : Ticket) (key : Key) (lane : LaneIndex)
  | evicted (key : Key) (lane : LaneIndex)
  /-- A stop made the allocator forget all assignments. -/
  | cleared
  /-- The task was queued on a lane. -/
  | accepted (p : Parcel) (lane : LaneIndex)
  | rejected (t : Ticket)
  /-- A stop found its flag down and raised it. -/
  | raised (n : Nat) (kind : StopKind)
  /-- A lane's stage was moved to the last one. -/
  | halted (lane : LaneIndex) (halter : Party)
  /-- A lane's worker took the task from the queue. -/
  | taken (p : Parcel) (lane : LaneIndex)
  /-- The task was started by a lane's worker, or by a caller it had come back to. -/
  | started (p : Parcel) (lane : Option LaneIndex)
  | ended (p : Parcel) (lane : Option LaneIndex) (ending : Ending V)
  /-- An accepted task was thrown away unrun. -/
  | discarded (p : Parcel)
  /-- A stop ended and handed back its report. -/
  | stopped (n : Nat) (report : StopReport Parcel)
  /-- A caller threw away a task that had come back. -/
  | dropped (p : Parcel)

/-- A task starts or ends on a lane. -/
inductive Mark where
  | began (p : Parcel)
  | ended (p : Parcel)
  deriving DecidableEq, Repr

/-- The marks of tasks that run one after the other. -/
def inTurn (ps : List Parcel) : List Mark := ps.flatMap fun p => [.began p, .ended p]

/-- What became visible through a handle, or to the caller of a submission. -/
inductive Notice (V : Type) where
  | woken (t : Ticket) (waker : Waker)
  /-- A caller got the outcome. -/
  | delivered (t : Ticket) (outcome : Outcome V)
  /-- A waker's panic reached the caller of a submission, which threw tasks away. -/
  | unwound (t : Ticket) (panic : Payload)

/-- One access by one party. -/
inductive Act (V : Type) where
  /-- A caller begins to submit a task. -/
  | submit (key : Key) (stamped : Bool)
  /-- A caller draws a key and begins to submit a task under it. -/
  | submitUnordered
  /-- A caller begins a stop. -/
  | stop (kind : StopKind)
  | drawStamp (key : Key)
  /-- The next access of a submission. -/
  | advance (t : Ticket)
  /-- The machine has no thread for the lane that a submission is about to start. -/
  | refuseThread (t : Ticket) (source : String)
  /-- The next access of the `n`-th stop. -/
  | advanceStop (n : Nat)
  | receive (lane : LaneIndex)
  | inspect (lane : LaneIndex)
  | finish (lane : LaneIndex) (ending : Ending V)
  /-- A caller runs a task that came back. -/
  | runReturned (t : Ticket) (ending : Ending V)
  | dropReturned (t : Ticket)
  | poll (t : Ticket) (waker : Waker)
  | take (t : Ticket)

structure World (V : Type) where
  dispatcher : Dispatcher Parcel
  counter : KeyCounter
  submissions : List (Submission Parcel)
  stops : List (Stopping Parcel)
  /-- The slots of all handles, by ticket. -/
  slots : List (Slot V)
  /-- Tasks that callers got back and have neither run nor dropped. -/
  returned : List Parcel
  notices : List (Notice V)
  history : List (Happening V)

namespace World

variable {V : Type}

/-- A world in which nothing has happened. -/
def fresh (d : Dispatcher Parcel) (counter : KeyCounter) : World V :=
  ⟨d, counter, [], [], [], [], [], []⟩

def note (w : World V) (h : Happening V) : World V := { w with history := w.history ++ [h] }

def notice (w : World V) (n : Notice V) : World V := { w with notices := w.notices ++ [n] }

/-- Fill the slot of a task and call the waker left there; answers that waker's panic. -/
def deliver (w : World V) (t : Ticket) (outcome : Outcome V) : Option Payload × World V :=
  match w.slots[t]? with
  | none => (none, w)
  | some slot =>
    let filled := { w with slots := w.slots.set t (slot.fulfil outcome).2 }
    match (slot.fulfil outcome).1 with
    | none => (none, filled)
    | some waker => (waker.panic?, filled.notice (.woken t waker))

/-- Throw an accepted task away; answers the panic of a waker. -/
def discard (w : World V) (p : Parcel) : Option Payload × World V :=
  (w.note (.discarded p)).deliver p.ticket (.error .cancelled)

/-- Throw accepted tasks away, in order; answers the first panic of a waker. -/
def discardAll (w : World V) : List Parcel → Option Payload × World V
  | [] => (none, w)
  | p :: rest =>
    let (first, w) := w.discard p
    let (later, w) := w.discardAll rest
    (first.or later, w)

/-- The caller of a submission gets a panic, if there is one. -/
def unwind (w : World V) (t : Ticket) (panic : Option Payload) : World V :=
  panic.elim w fun payload => w.notice (.unwound t payload)

/-- A task ends: its slot is filled. Answers the panic that leaves the task. -/
def endTask (w : World V) (p : Parcel) (lane : Option LaneIndex) (ending : Ending V) :
    Option Payload × World V :=
  let (panic, w) := (w.note (.ended p lane ending)).deliver p.ticket ending.outcome
  (ending.escape.or panic, w)

/-- Begin a submission; its ticket is its number. -/
def begin (w : World V) (key : Key) (stamped : Bool) : World V :=
  let t := w.submissions.length
  { w with
    submissions := w.submissions ++
      [.start key stamped fun lane _ => { key, lane, ticket := t }]
    slots := w.slots ++ [.fresh] }

/-- The task that a submission is about to queue, and the lane. -/
def queueing? (s : Submission Parcel) : Option (LaneIndex × Parcel) :=
  match s.phase with
  | .queueing stamp lane => some (lane, s.task lane stamp)
  | _ => none

/--
Note how a submission ended, and throw away what it threw away: its own task, which a closed
lane refused and which was never accepted, or the tasks of a lane that it halted. A waker that
panics there unwinds on the caller's thread.
-/
def settle (w : World V) (t : Ticket) (own : Option (LaneIndex × Parcel))
    (submitted : Submitted Parcel) : World V :=
  match submitted.answer, own with
  | .accepted _, some (lane, p) => w.note (.accepted p lane)
  | _, some (_, p) =>
    let (panic, w) := (w.note (.rejected t)).deliver p.ticket (.error .cancelled)
    w.unwind t panic
  | _, none =>
    let (panic, w) := (w.note (.rejected t)).discardAll submitted.discarded
    w.unwind t panic

/-- The keys evicted according to a list of log events. -/
def evictions (events : List Event) : List (Happening V) :=
  events.filterMap fun
    | .evicted key lane => some (.evicted key lane)
    | _ => none

/-- Whether the next access of a closing halts its lane. -/
def halting (d : Dispatcher Parcel) (who : Party) (i : LaneIndex) :
    Closing Parcel → List (Happening V)
  | .marking .forced =>
    if (d.lane? i).any (·.stage ≠ .halted) then [.halted i who] else []
  | _ => []

/-- What an access that takes a submission from `s` to `s'` adds to the history, its end apart. -/
def submissionNews (d : Dispatcher Parcel) (t : Ticket) (s s' : Submission Parcel)
    (events : List Event) : List (Happening V) :=
  match s.phase, s'.phase with
  | .resolving _, .seeking _ lane => .resolved t s.key lane :: evictions events
  | .retiring i c, _ => halting d (.submission t) i c
  | _, _ => []

/-- The next access of a submission that has not ended. -/
def advance (w : World V) (t : Ticket) : Option (World V) := do
  let s ← w.submissions[t]?
  if s.answer?.isSome then none
  else
    let ⟨(s', d), events⟩ := s.step w.dispatcher
    let w' := { w with
      dispatcher := d
      submissions := w.submissions.set t s'
      history := w.history ++ submissionNews w.dispatcher t s s' events }
    return s'.answer?.elim w' (w'.settle t (queueing? s))

/-- A submission that is about to start a lane gets no thread for it. -/
def refuseThread (w : World V) (t : Ticket) (source : String) : Option (World V) := do
  let s ← w.submissions[t]?
  let s ← s.failStart w.dispatcher source
  return { w with submissions := w.submissions.set t s }.note (.rejected t)

/-- What the next access of a stop adds to the history, its end apart. -/
def stopNews (d : Dispatcher Parcel) (n : Nat) : Stopping Parcel → List (Happening V)
  | .raising .graceful => if d.shutdown then [] else [.raised n .graceful]
  | .raising .forced => if d.shutdownNow then [] else [.raised n .forced]
  | .clearing _ _ => [.cleared]
  | .closing _ i c _ => halting d (.stop n) i c
  | _ => []

/-- Note the report of a stop that has ended, and give callers the tasks that came back. -/
def settleStop (w : World V) (n : Nat) (report : StopReport Parcel) : World V :=
  { w with returned := w.returned ++ report.pending }.note (.stopped n report)

/-- The next access of a stop that has not ended. -/
def advanceStop (w : World V) (n : Nat) : Option (World V) := do
  let s ← w.stops[n]?
  if s.report?.isSome then none
  else
    let (s', d) := s.step w.dispatcher
    let w' := { w with
      dispatcher := d
      stops := w.stops.set n s'
      history := w.history ++ stopNews w.dispatcher n s }
    return s'.report?.elim w' (w'.settleStop n)

/-- The worker of a lane takes a task or leaves. -/
def receive (w : World V) (i : LaneIndex) : Option (World V) := do
  let l ← w.dispatcher.lane? i
  let l ← l.receive
  let w := { w with dispatcher := w.dispatcher.setLane i l }
  match l.worker with
  | .holding p => return w.note (.taken p i)
  | _ => return w

/-- The worker of a lane looks at the interrupt flag and starts its task or leaves with it. -/
def inspect (w : World V) (i : LaneIndex) : Option (World V) := do
  let l ← w.dispatcher.lane? i
  match ← l.inspect with
  | (.run p, l) =>
    return { w with dispatcher := w.dispatcher.setLane i l }.note (.started p (some i))
  | (.abandon p, l) =>
    let (panic, w) := w.discard p
    return { w with dispatcher := w.dispatcher.setLane i (l.leave panic) }

/-- The task that the worker of a lane is running ends. -/
def finish (w : World V) (i : LaneIndex) (ending : Ending V) : Option (World V) := do
  let l ← w.dispatcher.lane? i
  match l.worker with
  | .busy p =>
    let (escape, w) := w.endTask p (some i) ending
    return { w with dispatcher := w.dispatcher.setLane i (l.conclude escape) }
  | _ => none

/-- Take a task out of those that came back. -/
def useReturned (w : World V) (t : Ticket) : Option (Parcel × World V) := do
  let p ← w.returned.find? (·.ticket == t)
  return (p, { w with returned := w.returned.erase p })

/-- One act; `none` if it is not possible now. -/
def step (w : World V) : Act V → Option (World V)
  | .submit key stamped => some (w.begin key stamped)
  | .submitUnordered =>
    let (key, counter) := w.counter.draw
    some ({ w with counter }.begin key false)
  | .stop kind => some { w with stops := w.stops ++ [.raising kind] }
  | .drawStamp key => some { w with dispatcher := (w.dispatcher.nextStamp key).2 }
  | .advance t => w.advance t
  | .refuseThread t source => w.refuseThread t source
  | .advanceStop n => w.advanceStop n
  | .receive i => w.receive i
  | .inspect i => w.inspect i
  | .finish i ending => w.finish i ending
  | .runReturned t ending => do
    let (p, w) ← w.useReturned t
    return ((w.note (.started p none)).endTask p none ending).2
  | .dropReturned t => do
    let (p, w) ← w.useReturned t
    return ((w.note (.dropped p)).deliver p.ticket (.error .cancelled)).2
  | .poll t waker => do
    let slot ← w.slots[t]?
    let (answer, slot) := slot.poll waker
    let w := { w with slots := w.slots.set t slot }
    match answer with
    | .ready outcome => return w.notice (.delivered t outcome)
    | _ => return w
  | .take t => do
    let slot ← w.slots[t]?
    let (answer, slot) := slot.take
    let w := { w with slots := w.slots.set t slot }
    match answer with
    | some outcome => return w.notice (.delivered t outcome)
    | none => return w

/-- A run: one act after another. -/
def run (w : World V) (acts : List (Act V)) : Option (World V) := acts.foldlM step w

@[simp] theorem run_nil (w : World V) : w.run [] = some w := rfl

@[simp] theorem run_cons (w : World V) (a : Act V) (acts : List (Act V)) :
    w.run (a :: acts) = (w.step a).bind (World.run · acts) := rfl

@[simp] theorem discardAll_nil (w : World V) : w.discardAll [] = (none, w) := rfl

@[simp] theorem unwind_none (w : World V) (t : Ticket) : w.unwind t none = w := rfl

theorem run_append (w : World V) (acts more : List (Act V)) :
    w.run (acts ++ more) = (w.run acts).bind (World.run · more) := by
  induction acts generalizing w with
  | nil => rfl
  | cons a acts ih => simp [ih, Option.bind_assoc]

/-! ### Views of the history -/

/-- The tasks queued on a lane, in the order of their queueing. -/
abbrev acceptedOn (history : List (Happening V)) (lane : LaneIndex) : List Parcel :=
  history.filterMap fun
    | .accepted p l => if l = lane then some p else none
    | _ => none

/-- The tasks queued, in the order of their queueing. -/
abbrev accepted (history : List (Happening V)) : List Parcel :=
  history.filterMap fun
    | .accepted p _ => some p
    | _ => none

/-- The tasks that the worker of a lane took from its queue, in that order. -/
abbrev takenOn (history : List (Happening V)) (lane : LaneIndex) : List Parcel :=
  history.filterMap fun
    | .taken p l => if l = lane then some p else none
    | _ => none

/-- The tasks started by the worker of a lane, in the order of their starts. -/
abbrev startedOn (history : List (Happening V)) (lane : LaneIndex) : List Parcel :=
  history.filterMap fun
    | .started p (some l) => if l = lane then some p else none
    | _ => none

/-- What the worker of a lane started and brought to an end. -/
abbrev marksOn (history : List (Happening V)) (lane : LaneIndex) : List Mark :=
  history.filterMap fun
    | .started p (some l) => if l = lane then some (.began p) else none
    | .ended p (some l) _ => if l = lane then some (.ended p) else none
    | _ => none

/-- The tasks that ended on a lane's worker. -/
abbrev finished (history : List (Happening V)) : List Parcel :=
  history.filterMap fun
    | .ended p (some _) _ => some p
    | _ => none

abbrev discarded (history : List (Happening V)) : List Parcel :=
  history.filterMap fun
    | .discarded p => some p
    | _ => none

/-- The panics that reached the callers of submissions, each with its submission. -/
abbrev unwound (notices : List (Notice V)) : List (Ticket × Payload) :=
  notices.filterMap fun
    | .unwound t panic => some (t, panic)
    | _ => none

/-- What the caller of a submission gets. -/
inductive Reception where
  | answered (answer : Admission)
  /-- A panic takes the place of the answer. -/
  | unwound (panic : Payload)
  deriving DecidableEq, Repr

/-- What the caller of a submission got, once it has ended. -/
def reception? (w : World V) (t : Ticket) : Option Reception := do
  let s ← w.submissions[t]?
  let submitted ← s.answer?
  return ((unwound w.notices).lookup t).elim (.answered submitted.answer) .unwound

/-- No worker can act, and none is running a task. -/
def Quiet (w : World V) : Prop :=
  ∀ i l, w.dispatcher.lane? i = some l →
    l.receive.isNone ∧ l.inspect.isNone ∧ ∀ p, l.worker ≠ .busy p

end World

end OrderedLanes
