import OrderedLanes.Dispatcher.Submission
import OrderedLanes.Interleaving.Closing

/-!
Submitting a task, one access to the dispatcher at a time. Between two accesses
other submissions, stops and workers may act; in particular two submissions may
both find a lane's slot empty and start a lane each, of which one is installed
and the other halted. Left alone, the accesses add up to `Dispatcher.submit`.
-/

namespace OrderedLanes

/-- What a submission does next. -/
inductive SubmissionPhase (α : Type) where
  /-- Look at the flag before a stamp is drawn. -/
  | entering
  | stamping
  /-- Look at the flag before the key is resolved. -/
  | admitting (stamp : Option Stamp)
  | resolving (stamp : Option Stamp)
  /-- Look whether lane `i` is there. -/
  | seeking (stamp : Option Stamp) (i : LaneIndex)
  /-- Start a lane of its own. -/
  | starting (stamp : Option Stamp) (i : LaneIndex)
  | installing (stamp : Option Stamp) (i : LaneIndex) (own : Lane α)
  /-- Another lane was installed first; halt the own one. -/
  | yielding (stamp : Option Stamp) (i : LaneIndex) (own : Lane α) (c : Closing α)
  /-- Look at the flag a second time. -/
  | rechecking (stamp : Option Stamp) (i : LaneIndex)
  /-- Look which stop has begun. -/
  | choosing (i : LaneIndex)
  | retiring (i : LaneIndex) (c : Closing α)
  | queueing (stamp : Option Stamp) (i : LaneIndex)
  | done (submitted : Submitted α)

/-- A submission on its way. -/
structure Submission (α : Type) where
  key : Key
  /-- The queued form of the task. -/
  task : LaneIndex → Option Stamp → α
  phase : SubmissionPhase α

namespace Submission

variable {α : Type}

/-- A submission that has not looked at anything. -/
def start (key : Key) (stamped : Bool) (task : LaneIndex → Option Stamp → α) : Submission α :=
  ⟨key, task, if stamped then .entering else .admitting none⟩

/-- Go on to a phase. -/
def on (s : Submission α) (phase : SubmissionPhase α) : Submission α := { s with phase }

/-- The answer of a submission that has ended. -/
def answer? (s : Submission α) : Option (Submitted α) :=
  match s.phase with
  | .done submitted => some submitted
  | _ => none

/-- End with a rejection; `discarded` are the tasks thrown away on the way. -/
def reject (s : Submission α) (discarded : List α) : Submission α :=
  s.on (.done ⟨.refused (.rejected s.key), discarded⟩)

/-- The next access. -/
def step (d : Dispatcher α) (s : Submission α) : Logged (Submission α × Dispatcher α) :=
  match s.phase with
  | .entering =>
    if d.shutdown then do
      Logged.emit (.rejected s.key none)
      return (s.reject [], d)
    else return (s.on .stamping, d)
  | .stamping =>
    let (stamp, d) := d.nextStamp s.key
    return (s.on (.admitting (some stamp)), d)
  | .admitting stamp =>
    if d.shutdown then do
      Logged.emit (.rejected s.key none)
      return (s.reject [], d)
    else return (s.on (.resolving stamp), d)
  | .resolving stamp => do
    let (i, d) ← d.resolve s.key
    return (s.on (.seeking stamp i), d)
  | .seeking stamp i =>
    match d.lane? i with
    | some _ => return (s.on (.rechecking stamp i), d)
    | none => return (s.on (.starting stamp i), d)
  | .starting stamp i =>
    if Config.nameable d.config.threadName then
      return (s.on (.installing stamp i (Lane.start i)), d)
    else return (s.on (.done ⟨.unnameable, []⟩), d)
  | .installing stamp i own =>
    match d.install own with
    | some d => do
      Logged.emit (.laneCreated i)
      return (s.on (.rechecking stamp i), d)
    | none => do
      Logged.emit (.laneRedundant i)
      return (s.on (.yielding stamp i own (.marking .forced)), d)
  | .yielding stamp i _ (.done _) => return (s.on (.rechecking stamp i), d)
  | .yielding stamp i own c =>
    let (c, own) := c.step own
    return (s.on (.yielding stamp i own c), d)
  | .rechecking stamp i =>
    return (s.on (if d.shutdown then .choosing i else .queueing stamp i), d)
  | .choosing i =>
    return (s.on (.retiring i (.marking (if d.shutdownNow then .forced else .graceful))), d)
  | .retiring i (.done report) => do
    Logged.emit (.rejected s.key (some i))
    return (s.reject report.pending, d)
  | .retiring i c =>
    match d.lane? i with
    | some l =>
      let (c, l) := c.step l
      return (s.on (.retiring i c), d.setLane i l)
    | none => return (s.reject [], d)
  | .queueing stamp i =>
    match (d.lane? i).bind (Lane.enqueue · (s.task i stamp)) with
    | some l => return (s.on (.done ⟨.accepted stamp, []⟩), d.setLane i l)
    | none => do
      Logged.emit (.laneClosed s.key i)
      return (s.reject [s.task i stamp], d)
  | .done _ => return (s, d)

/-- A submission that is about to start a lane of its own gets no thread for it, and ends. -/
def failStart (s : Submission α) (d : Dispatcher α) (source : String) : Option (Submission α) :=
  match s.phase with
  | .starting _ i =>
    if Config.nameable d.config.threadName then
      some (s.on (.done ⟨.refused (.laneSpawn i source), []⟩))
    else none
  | _ => none

theorem phase_of_answer {s : Submission α} {submitted : Submitted α}
    (ended : s.answer? = some submitted) : s.phase = .done submitted := by
  obtain ⟨key, task, phase⟩ := s
  cases phase <;> cases ended
  rfl

/-- `n` accesses with nobody in between. -/
def steps : Nat → Submission α × Dispatcher α → Logged (Submission α × Dispatcher α)
  | 0, s => return s
  | n + 1, s => do
    let s ← s.1.step s.2
    steps n s

@[simp] theorem steps_succ (n : Nat) (s : Submission α) (d : Dispatcher α) :
    steps (n + 1) (s, d) = (do steps n (← s.step d)) := rfl

@[simp] theorem steps_done (n : Nat) (s : Submission α) (d : Dispatcher α)
    (submitted : Submitted α) (h : s.phase = .done submitted) :
    steps n (s, d) = pure (s, d) := by
  induction n with
  | zero => rfl
  | succ n ih => simp [step, h, ih]

/-- From the second look on, a submission left alone carries on as `Dispatcher.commit`. -/
theorem steps_rechecking (n : Nat) (s : Submission α) (d : Dispatcher α) (stamp : Option Stamp)
    (i : LaneIndex) (running : d.shutdown = false) (h : s.phase = .rechecking stamp i) :
    steps (n + 2) (s, d) =
      (fun r => (s.on (.done r.1), r.2)) <$> d.commit s.key i stamp (s.task i stamp) := by
  cases hq : (d.lane? i).bind (Lane.enqueue · (s.task i stamp)) <;>
    simp [step, h, running, Dispatcher.commit, on, hq, reject]

/-- From the look at a lane's slot on, it carries on as `Dispatcher.proceed`. -/
theorem steps_seeking (n : Nat) (s : Submission α) (d : Dispatcher α) (stamp : Option Stamp)
    (i : LaneIndex) (running : d.shutdown = false) (h : s.phase = .seeking stamp i) :
    steps (n + 5) (s, d) =
      (fun r => (s.on (.done r.1), r.2)) <$> d.proceed s.key i stamp (s.task i stamp) := by
  cases found : d.lane? i with
  | some l =>
    have rest := steps_rechecking (n + 2) (s.on (.rechecking stamp i)) d stamp i running rfl
    simp only [steps_succ, step, h, found, pure_bind] at rest ⊢
    rw [rest]
    simp [Dispatcher.proceed, Dispatcher.obtain, found, on]
  | none =>
    by_cases name : Config.nameable d.config.threadName = true
    · have new : d.install (Lane.start i) = some (d.setLane i (Lane.start i)) :=
        d.install_of_empty (Lane.start i) found
      have rest := steps_rechecking n (s.on (.rechecking stamp i)) (d.setLane i (Lane.start i))
        stamp i running rfl
      have first : steps (n + 5) (s, d) = (do
          Logged.emit (.laneCreated i)
          steps (n + 2) (s.on (.rechecking stamp i), d.setLane i (Lane.start i))) := by
        rw [show n + 5 = (n + 2) + 3 from rfl]
        generalize n + 2 = k
        simp [step, h, found, name, on, new]
      rw [first, rest]
      simp [Dispatcher.proceed, Dispatcher.obtain, found, name, new, on]
    · simp [step, h, found, name, Dispatcher.proceed, Dispatcher.obtain, on]

theorem steps_resolving (n : Nat) (s : Submission α) (d : Dispatcher α) (stamp : Option Stamp)
    (running : d.shutdown = false) (h : s.phase = .resolving stamp) :
    steps (n + 6) (s, d) = (do
      let (i, d) ← d.resolve s.key
      (fun r => (s.on (.done r.1), r.2)) <$> d.proceed s.key i stamp (s.task i stamp)) := by
  simp only [steps_succ (n + 5), step, h, bind_assoc, pure_bind]
  exact Logged.bind_congr_value
    (steps_seeking n (s.on (.seeking stamp (d.resolve s.key).value.1)) _ stamp _
      (by simpa using running) rfl)

theorem steps_admitting (n : Nat) (s : Submission α) (d : Dispatcher α) (stamp : Option Stamp)
    (running : d.shutdown = false) (h : s.phase = .admitting stamp) :
    steps (n + 7) (s, d) = (do
      let (i, d) ← d.resolve s.key
      (fun r => (s.on (.done r.1), r.2)) <$> d.proceed s.key i stamp (s.task i stamp)) := by
  have rest := steps_resolving n (s.on (.resolving stamp)) d stamp running rfl
  simp only [steps_succ (n + 6), step, h, running, Bool.false_eq_true, if_false, pure_bind]
  exact rest

/-- A submission left alone does what `Dispatcher.submit` does. -/
theorem steps_start (d : Dispatcher α) (key : Key) (stamped : Bool)
    (task : LaneIndex → Option Stamp → α) (n : Nat) :
    steps (n + 9) (start key stamped task, d) =
      (fun r => (⟨key, task, .done r.1⟩, r.2)) <$> d.submit key stamped task := by
  cases running : d.shutdown with
  | true =>
    cases stamped <;>
      simp [start, step, running, reject, on, Dispatcher.submit, Dispatcher.enter]
  | false =>
    cases stamped with
    | false =>
      rw [start, steps_admitting (n + 2) _ d none running rfl]
      simp [Dispatcher.submit, Dispatcher.enter, running, on]
    | true =>
      have rest := steps_admitting n ⟨key, task, .admitting (some (d.nextStamp key).1)⟩
        (d.nextStamp key).2 (some (d.nextStamp key).1) running rfl
      simp only [start, steps_succ (n + 8), steps_succ (n + 7), step, running, on]
      simp [Dispatcher.submit, Dispatcher.enter, running, on, rest]

end Submission

end OrderedLanes
