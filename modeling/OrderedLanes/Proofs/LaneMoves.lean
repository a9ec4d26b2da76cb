import OrderedLanes.Interleaving.LaneWorld
import OrderedLanes.Proofs.Queues

/-!
What one act does to a lane among its callers. Every later proof about such a lane goes
by these cases.
-/

namespace OrderedLanes

/-- To ask how a worker ended changes nothing but that the answer was given. -/
theorem Lane.joinIfExited_snd {α : Type} (l : Lane α) :
    l.joinIfExited.2 = { l with joined := l.joined || l.isFinished } := by
  obtain ⟨index, stage, accepting, queue, interrupted, worker, joined⟩ := l
  cases worker <;> cases joined <;> rfl

namespace LaneWorld

variable {α V : Type} {v w w' : LaneWorld α} {a : LaneAct α V} {acts more : List (LaneAct α V)}

/-! Each view of a log is the one of its beginning, and then the one of its end. -/

section

variable (log news : List (LaneNews α))

theorem accepted_append : accepted (log ++ news) = accepted log ++ accepted news :=
  List.filterMap_append

theorem started_append : started (log ++ news) = started log ++ started news :=
  List.filterMap_append

theorem ended_append : ended (log ++ news) = ended log ++ ended news :=
  List.filterMap_append

theorem reached_append : reached (log ++ news) = reached log ++ reached news :=
  List.filterMap_append

theorem looks_append : looks (log ++ news) = looks log ++ looks news :=
  List.filterMap_append

theorem departures_append : departures (log ++ news) = departures log ++ departures news :=
  List.filterMap_append

theorem joins_append : joins (log ++ news) = joins log ++ joins news :=
  List.filterMap_append

end

/-- The next access of call `n`, which is at `c`. -/
def access (w : LaneWorld α) (n : Nat) (kind : StopKind) (c : Closing α) : LaneWorld α :=
  { w with
    lane := (c.step w.lane).2
    calls := w.calls.set n ⟨kind, (c.step w.lane).1⟩ }.note (c.news n w.lane)

section

variable (w : LaneWorld α) (n : Nat) (kind : StopKind) (c : Closing α)

@[simp] theorem lane_access : (w.access n kind c).lane = (c.step w.lane).2 := rfl

@[simp] theorem calls_access :
    (w.access n kind c).calls = w.calls.set n ⟨kind, (c.step w.lane).1⟩ := rfl

@[simp] theorem log_access : (w.access n kind c).log = w.log ++ c.news n w.lane := rfl

end

/-- What one act does. -/
inductive Move (w : LaneWorld α) : LaneAct α V → LaneWorld α → Prop
  | accept (task : α) (accepting : w.lane.accepting = true) : Move w (.enqueue task)
      ({ w with lane := { w.lane with queue := w.lane.queue ++ [task] } }.note [.accepted task])
  | refuse (task : α) (closed : w.lane.accepting = false) :
      Move w (.enqueue task) (w.note [.refused task])
  | begin (kind : StopKind) :
      Move w (.call kind) { w with calls := w.calls ++ [⟨kind, .marking kind⟩] }
  | access (n : Nat) (kind : StopKind) (c : Closing α) (there : w.calls[n]? = some ⟨kind, c⟩)
      (unfinished : ∀ report, c ≠ .done report) : Move w (.advance n) (w.access n kind c)
  | take (task : α) (queue : List α) (idle : w.lane.worker = .idle)
      (next : w.lane.queue = task :: queue) : Move w .receive
      { w with lane := { w.lane with queue, worker := .holding task } }
  | leave (idle : w.lane.worker = .idle) (empty : w.lane.queue = [])
      (closed : w.lane.accepting = false) : Move w .receive
      ({ w with lane := w.lane.leave none }.note [.left none])
  | start (panic : Option Payload) (task : α) (holding : w.lane.worker = .holding task)
      (free : w.lane.interrupted = false) : Move w (.inspect panic)
      ({ w with lane := { w.lane with worker := .busy task } }.note [.started task])
  | abandon (panic : Option Payload) (task : α) (holding : w.lane.worker = .holding task)
      (interrupted : w.lane.interrupted = true) : Move w (.inspect panic)
      ({ w with lane := w.lane.leave panic }.note [.left panic])
  | survive (ending : Ending V) (woken : Option Payload) (task : α)
      (busy : w.lane.worker = .busy task)
      (quiet : (ending.escape.or woken).bind Payload.disposal = none) :
      Move w (.finish ending woken)
      ({ w with lane := { w.lane with worker := .idle } }.note [.ended task])
  | die (ending : Ending V) (woken : Option Payload) (task : α) (panic : Payload)
      (busy : w.lane.worker = .busy task)
      (fatal : (ending.escape.or woken).bind Payload.disposal = some panic) :
      Move w (.finish ending woken)
      ({ w with lane := w.lane.leave (some panic) }.note [.ended task, .left (some panic)])
  | ask : Move w .join
      ({ w with lane := { w.lane with joined := w.lane.joined || w.lane.isFinished } }.note
        [.joined w.lane.joinIfExited.1])

@[simp] theorem note_nil (w : LaneWorld α) : w.note [] = w := by simp [note]

theorem move_of_advance {n : Nat} (act : w.step (.advance n : LaneAct α V) = some w') :
    Move w (.advance n : LaneAct α V) w' := by
  obtain ⟨⟨kind, c⟩, there, act⟩ := Option.bind_eq_some_iff.1 act
  have unfinished : ∀ report, c ≠ .done report := by
    rintro report rfl
    cases act
  have result : w' = w.access n kind c := by
    cases c with
    | done report => cases act
    | _ => exact (Option.some.inj act).symm
  exact result ▸ .access n kind c there unfinished

theorem move_of_receive (act : w.step (.receive : LaneAct α V) = some w') :
    Move w (.receive : LaneAct α V) w' := by
  obtain ⟨lane, received, act⟩ := Option.bind_eq_some_iff.1 act
  obtain rfl := Option.some.inj act
  unfold Lane.receive at received
  split at received
  · next task queue idle next =>
    obtain rfl := Option.some.inj received
    simpa [Lane.departure] using Move.take (V := V) task queue idle next
  · next idle empty =>
    split at received
    · cases received
    · next closed =>
      obtain rfl := Option.some.inj received
      exact .leave idle empty (by simpa using closed)
  · cases received

theorem move_of_inspect {panic : Option Payload}
    (act : w.step (.inspect panic : LaneAct α V) = some w') :
    Move w (.inspect panic : LaneAct α V) w' := by
  obtain ⟨⟨decision, lane⟩, inspected, act⟩ := Option.bind_eq_some_iff.1 act
  unfold Lane.inspect at inspected
  split at inspected
  · next task holding =>
    split at inspected
    · next interrupted =>
      obtain ⟨rfl, rfl⟩ := Prod.mk.inj (Option.some.inj inspected)
      obtain rfl := Option.some.inj act
      exact .abandon panic task holding interrupted
    · next free =>
      obtain ⟨rfl, rfl⟩ := Prod.mk.inj (Option.some.inj inspected)
      obtain rfl := Option.some.inj act
      exact .start panic task holding (by simpa using free)
  · cases inspected

theorem move_of_finish {ending : Ending V} {woken : Option Payload}
    (act : w.step (.finish ending woken) = some w') : Move w (.finish ending woken) w' := by
  simp only [step] at act
  split at act
  · next task busy =>
    obtain rfl := Option.some.inj act
    cases disposed : (ending.escape.or woken).bind Payload.disposal with
    | none =>
      have result := Move.survive ending woken task busy disposed
      simpa [Lane.conclude, disposed, Lane.departure] using result
    | some panic =>
      have result := Move.die ending woken task panic busy disposed
      simpa [Lane.conclude, disposed, Lane.departure, Lane.leave] using result
  · cases act

theorem move_of_step (act : w.step a = some w') : Move w a w' := by
  cases a with
  | enqueue task =>
    cases open' : w.lane.accepting with
    | true =>
      simp only [step, w.lane.enqueue_of_accepting task open'] at act
      exact Option.some.inj act ▸ .accept task open'
    | false =>
      simp only [step, w.lane.enqueue_of_closed task open'] at act
      exact Option.some.inj act ▸ .refuse task open'
  | call kind => exact Option.some.inj act ▸ .begin kind
  | advance n => exact move_of_advance act
  | receive => exact move_of_receive act
  | inspect panic => exact move_of_inspect act
  | finish ending woken => exact move_of_finish act
  | join =>
    have result : w' = { w with lane := w.lane.joinIfExited.2 }.note
        [.joined w.lane.joinIfExited.1] := (Option.some.inj act).symm
    rw [Lane.joinIfExited_snd] at result
    exact result ▸ .ask

/-! ### Runs -/

theorem run_append (w : LaneWorld α) (acts more : List (LaneAct α V)) :
    w.run (acts ++ more) = (w.run acts).bind (LaneWorld.run · more) := by
  induction acts generalizing w with
  | nil => rfl
  | cons a acts ih => simp [ih, Option.bind_assoc]

/-- Two runs, one after the other. -/
theorem run_of_parts {u : LaneWorld α} (first : u.run acts = some v)
    (second : v.run more = some w) : u.run (acts ++ more) = some w := by
  rw [run_append, first, Option.bind_some, second]

/-- What holds at the start of a run and is kept by each of its acts holds at its end. -/
theorem run_induction {P : List (LaneAct α V) → LaneWorld α → Prop} (start : P [] v)
    (keep : ∀ {acts w a w'}, v.run acts = some w → P acts w → Move w a w' → P (acts ++ [a]) w')
    (run : v.run acts = some w) : P acts w := by
  induction acts using List.reverseRecOn generalizing w with
  | nil =>
    obtain rfl := Option.some.inj run
    exact start
  | append_singleton acts a ih =>
    rw [run_append, Option.bind_eq_some_iff] at run
    obtain ⟨u, before, act⟩ := run
    rw [run_cons, Option.bind_eq_some_iff] at act
    obtain ⟨x, act, last⟩ := act
    obtain rfl := Option.some.inj last
    exact keep before (ih before) (move_of_step act)

end LaneWorld

end OrderedLanes
