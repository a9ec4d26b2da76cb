import OrderedLanes.Proofs.LaneCalls

/-!
The worker of a lane among its callers. It starts the tasks in the order of their queueing
and one at a time, starts none once it is interrupted, and has a bounded number of acts left
once the lane is closed. Whoever looks whether it is gone sees what is so at that moment.
-/

namespace OrderedLanes

namespace Worker

variable {α : Type}

/-- The task that was taken from the queue and not started. -/
def taken : Worker α → List α
  | .holding task => [task]
  | _ => []

/-- The task that was started and has not ended. -/
def underway : Worker α → List α
  | .busy task => [task]
  | _ => []

/-- How the worker ended. -/
def departed : Worker α → List (Option Payload)
  | .exited panic => [panic]
  | _ => []

/-- How many acts the worker still has for the task it has, and to leave. -/
def toil : Worker α → Nat
  | .idle => 1
  | .holding _ => 3
  | .busy _ => 2
  | .exited _ => 0

end Worker

/-- How many acts of the worker there are until it has run its queue and left. -/
def Lane.toil {α : Type} (l : Lane α) : Nat := 3 * l.queue.length + l.worker.toil

theorem Lane.Grows.stage_code {α : Type} {l l' : Lane α} (h : l.Grows l') :
    l.stage.code ≤ l'.stage.code := by
  cases before : l.stage with
  | running => exact Nat.zero_le _
  | draining =>
    have after := h.stopped (by simp [before])
    cases now : l'.stage with
    | running => exact absurd now after
    | draining => exact Nat.le_refl _
    | halted => decide
  | halted => exact Nat.le_of_eq (congrArg Stage.code (h.halted before).symm)

namespace LaneWorld

variable {α V : Type} {v w w' : LaneWorld α} {a : LaneAct α V} {acts more : List (LaneAct α V)}
  {index : LaneIndex} {n : Nat} {kind : StopKind} {c : Closing α} {log news : List (LaneNews α)}

/-! ### What a run does not undo -/

theorem Move.grows (m : Move w a w') : w.lane.Grows w'.lane := by
  cases m with
  | access n kind c there unfinished => exact c.grows_step _
  | _ => exact Lane.grows_of_flags rfl rfl rfl

theorem grows_of_run (run : v.run acts = some w) : v.lane.Grows w.lane :=
  run_induction (P := fun _ w => v.lane.Grows w.lane) (.refl _)
    (fun _ before move => before.trans move.grows) run

/-- An interrupted worker starts nothing. -/
theorem Move.unstarted (m : Move w a w') (interrupted : w.lane.interrupted = true) :
    started w'.log = started w.log := by
  cases m with
  | start panic task holding free => simp [interrupted] at free
  | access n kind c there unfinished => cases c <;> simp [Closing.news]
  | _ => simp

theorem unstarted_of_run (interrupted : v.lane.interrupted = true) (run : v.run acts = some w) :
    started w.log = started v.log := by
  refine run_induction (P := fun _ w => started w.log = started v.log) rfl ?_ run
  intro acts w a w' before same move
  exact (move.unstarted ((grows_of_run before).interrupted interrupted)).trans same

/-- A closed lane takes no more tasks. -/
theorem Move.unaccepted (m : Move w a w') (closed : w.lane.accepting = false) :
    accepted w'.log = accepted w.log := by
  cases m with
  | accept task accepting => simp [closed] at accepting
  | access n kind c there unfinished => cases c <;> simp [Closing.news]
  | _ => simp

theorem unaccepted_of_run (closed : v.lane.accepting = false) (run : v.run acts = some w) :
    accepted w.log = accepted v.log := by
  refine run_induction (P := fun _ w => accepted w.log = accepted v.log) rfl ?_ run
  intro acts w a w' before same move
  exact (move.unaccepted ((grows_of_run before).closed closed)).trans same

/-! ### The worker of a closed lane -/

/-- Each act of the worker brings it nearer to its end, and nobody else brings it back. -/
theorem Move.toil (m : Move w a w') (closed : w.lane.accepting = false) :
    a.byWorker.toNat + w'.lane.toil ≤ w.lane.toil := by
  cases m with
  | accept task accepting => simp [closed] at accepting
  | access n kind c there unfinished =>
    have shorter : (c.step w.lane).2.queue.length ≤ w.lane.queue.length := by
      rcases c.queue_step w.lane with same | ⟨error, drained, p, -, -, queue⟩
      · exact Nat.le_of_eq (congrArg List.length same)
      · rw [queue]
        exact Nat.le_succ _
    simp only [LaneAct.byWorker, Bool.toNat_false, lane_access, Lane.toil, c.worker_step]
    omega
  | take task queue idle next =>
    simp only [LaneAct.byWorker, Bool.toNat_true, Lane.toil, Worker.toil, idle, next,
      List.length_cons]
    omega
  | leave idle empty closed =>
    simp [LaneAct.byWorker, Lane.toil, Worker.toil, Lane.leave, idle, empty]
  | start panic task holding free =>
    simp only [LaneAct.byWorker, Bool.toNat_true, lane_note, Lane.toil, Worker.toil, holding]
    omega
  | abandon panic task holding interrupted =>
    simp only [LaneAct.byWorker, Bool.toNat_true, lane_note, Lane.toil, Worker.toil, Lane.leave,
      holding]
    omega
  | survive ending woken task busy quiet =>
    simp only [LaneAct.byWorker, Bool.toNat_true, lane_note, Lane.toil, Worker.toil, busy]
    omega
  | die ending woken task panic busy fatal =>
    simp only [LaneAct.byWorker, Bool.toNat_true, lane_note, Lane.toil, Worker.toil, Lane.leave,
      busy]
    omega
  | _ => simp [LaneAct.byWorker, Lane.toil]

theorem toil_of_run (closed : v.lane.accepting = false) (run : v.run acts = some w) :
    acts.countP LaneAct.byWorker + w.lane.toil ≤ v.lane.toil := by
  refine run_induction (P := fun acts w => acts.countP LaneAct.byWorker + w.lane.toil ≤ v.lane.toil)
    (by simp) ?_ run
  intro acts w a w' before le move
  have step := move.toil ((grows_of_run before).closed closed)
  have count : [a].countP LaneAct.byWorker = a.byWorker.toNat := by
    cases byWorker : a.byWorker <;> simp [byWorker]
  rw [List.countP_append, count]
  omega

/-- When it has no acts left it is gone. -/
theorem worker_of_toil {l : Lane α} (idle : l.toil = 0) : ∃ panic, l.worker = .exited panic := by
  have rest : l.worker.toil = 0 := (Nat.add_eq_zero_iff.1 idle).2
  cases worker : l.worker with
  | exited panic => exact ⟨panic, rfl⟩
  | _ => simp [worker, Worker.toil] at rest

/-- As long as it is there, the worker of a closed lane has something to do. -/
theorem exists_act (V : Type) (closed : w.lane.accepting = false)
    (there : w.lane.isFinished = false) :
    ∃ a : LaneAct α V, a.byWorker = true ∧ (w.step a).isSome := by
  cases worker : w.lane.worker with
  | idle =>
    refine ⟨.receive, rfl, ?_⟩
    cases next : w.lane.queue <;> simp [step, Lane.receive, worker, next, closed]
  | holding task =>
    refine ⟨.inspect none, rfl, ?_⟩
    cases flag : w.lane.interrupted <;> simp [step, Lane.inspect, worker, flag]
  | busy task => exact ⟨.finish (.failure "") none, rfl, by simp [step, worker]⟩
  | exited panic => simp [Lane.isFinished, worker] at there

/-! ### What the worker did -/

/-- The tasks of a lane in turn, and how its worker ended. -/
structure Serving (w : LaneWorld α) : Prop where
  inTurn : firstHalt? w.log = none →
    started w.log ++ w.lane.worker.taken ++ w.lane.queue = accepted w.log
  ended : ended w.log ++ w.lane.worker.underway = started w.log
  departed : departures w.log = w.lane.worker.departed
  spent : firstHalt? w.log = none → w.lane.worker = .exited none →
    w.lane.queue = [] ∧ w.lane.accepting = false

theorem serving_fresh (index : LaneIndex) : Serving (fresh index : LaneWorld α) :=
  ⟨fun _ => rfl, rfl, rfl, fun _ gone => by cases gone⟩

/-- An act that adds what was taken, started and ended where it belongs. -/
theorem Serving.turn {l : Lane α} (h : Serving w) (unreached : reached news = [])
    (inTurn : firstHalt? w.log = none → w.lane.worker.taken ++ w.lane.queue ++ accepted news =
      started news ++ l.worker.taken ++ l.queue)
    (ends : w.lane.worker.underway ++ started news = LaneWorld.ended news ++ l.worker.underway)
    (departs : w.lane.worker.departed ++ departures news = l.worker.departed)
    (spent : firstHalt? w.log = none → l.worker = .exited none →
      l.queue = [] ∧ l.accepting = false) :
    Serving ({ w with lane := l }.note news) := by
  have halt : firstHalt? (w.log ++ news) = firstHalt? w.log := by
    rw [firstHalt?, reached_append, unreached, List.append_nil]
    rfl
  refine ⟨fun none => ?_, ?_, ?_, fun none => spent (halt.symm.trans none)⟩
  · have unhalted : firstHalt? w.log = Option.none := halt.symm.trans none
    calc started (w.log ++ news) ++ l.worker.taken ++ l.queue
        = started w.log ++ (started news ++ l.worker.taken ++ l.queue) := by
          simp only [started_append, List.append_assoc]
      _ = started w.log ++ w.lane.worker.taken ++ w.lane.queue ++ accepted news := by
          simp only [← inTurn unhalted, List.append_assoc]
      _ = accepted (w.log ++ news) := by rw [h.inTurn unhalted, accepted_append]
  · calc LaneWorld.ended (w.log ++ news) ++ l.worker.underway
        = LaneWorld.ended w.log ++ (LaneWorld.ended news ++ l.worker.underway) := by
          rw [ended_append, List.append_assoc]
      _ = LaneWorld.ended w.log ++ w.lane.worker.underway ++ started news := by
          rw [← ends, List.append_assoc]
      _ = started (w.log ++ news) := by rw [h.ended, started_append]
  · rw [log_note, departures_append, h.departed]
    exact departs

/-- An access of a call leaves the worker alone, and the queue unless a halt has come. -/
theorem Serving.access (h : Serving w) (orderly : Orderly w)
    (there : w.calls[n]? = some ⟨kind, c⟩) : Serving (w.access n kind c) := by
  have silent : started (c.news n w.lane) = [] ∧ accepted (c.news n w.lane) = [] ∧
      LaneWorld.ended (c.news n w.lane) = [] ∧ departures (c.news n w.lane) = [] := by
    cases c <;> exact ⟨rfl, rfl, rfl, rfl⟩
  obtain ⟨starts, accepts, ends, leaves⟩ := silent
  have unhalted : firstHalt? (w.access n kind c).log = none → firstHalt? w.log = none := by
    rw [log_access, firstHalt?_append]
    exact fun none => (Option.or_eq_none_iff.1 none).1
  have queue : firstHalt? w.log = none → (c.step w.lane).2.queue = w.lane.queue := by
    intro none
    rcases c.queue_step w.lane with same | ⟨error, drained, p, rfl, -, -⟩
    · exact same
    · obtain ⟨-, halt, -⟩ := orderly.stands n kind _ there
      exact absurd (none.symm.trans halt) (by simp)
  refine ⟨fun none => ?_, ?_, ?_, fun none gone => ?_⟩
  · rw [log_access, started_append, accepted_append, starts, accepts, List.append_nil,
      List.append_nil, lane_access, c.worker_step, queue (unhalted none)]
    exact h.inTurn (unhalted none)
  · rw [log_access, started_append, ended_append, starts, ends, List.append_nil,
      List.append_nil, lane_access, c.worker_step]
    exact h.ended
  · rw [log_access, departures_append, leaves, List.append_nil, lane_access, c.worker_step]
    exact h.departed
  · rw [lane_access, c.worker_step] at gone
    obtain ⟨empty, closed⟩ := h.spent (unhalted none) gone
    exact ⟨(queue (unhalted none)).trans empty, (c.grows_step _).closed closed⟩

theorem Serving.move (h : Serving w) (orderly : Orderly w) (m : Move w a w') : Serving w' := by
  cases m with
  | begin kind => exact ⟨h.inTurn, h.ended, h.departed, h.spent⟩
  | access n kind c there unfinished => exact h.access orderly there
  | accept task accepting =>
    refine h.turn rfl (fun _ => by simp) (by simp) (by simp) fun none gone => ?_
    simp [(h.spent none gone).2] at accepting
  | take task queue idle next =>
    rw [← note_nil { w with lane := { w.lane with queue, worker := .holding task } }]
    exact h.turn rfl (fun _ => by simp [idle, next, Worker.taken])
      (by simp [idle, Worker.underway]) (by simp [idle, Worker.departed])
      (fun _ gone => by cases gone)
  | leave idle empty closed =>
    exact h.turn rfl (fun _ => by simp [idle, Worker.taken, Lane.leave])
      (by simp [idle, Worker.underway, Lane.leave]) (by simp [idle, Worker.departed, Lane.leave])
      (fun _ _ => ⟨empty, closed⟩)
  | start panic task holding free =>
    exact h.turn rfl (fun _ => by simp [holding, Worker.taken])
      (by simp [holding, Worker.underway]) (by simp [holding, Worker.departed])
      (fun _ gone => by cases gone)
  | abandon panic task holding interrupted =>
    -- the task is gone, and only a halt interrupts
    have late := orderly.interrupted interrupted
    exact h.turn rfl (fun none => absurd none late)
      (by simp [holding, Worker.underway, Lane.leave])
      (by simp [holding, Worker.departed, Lane.leave]) (fun none => absurd none late)
  | survive ending woken task busy quiet =>
    exact h.turn rfl (fun _ => by simp [busy, Worker.taken])
      (by simp [busy, Worker.underway]) (by simp [busy, Worker.departed])
      (fun _ gone => by cases gone)
  | die ending woken task panic busy fatal =>
    exact h.turn rfl (fun _ => by simp [busy, Worker.taken, Lane.leave])
      (by simp [busy, Worker.underway, Lane.leave]) (by simp [busy, Worker.departed, Lane.leave])
      (fun _ gone => by cases gone)
  | _ => exact h.turn rfl (fun _ => by simp) (by simp) (by simp) h.spent

theorem serving_of_run (run : (fresh index).run acts = some w) : Serving w :=
  run_induction (P := fun _ w => Serving w) (serving_fresh index)
    (fun before serving move => serving.move (orderly_of_run before) move) run

/-- A worker that has left of itself has run everything, unless a halt has come. -/
theorem Serving.leaving (h : Serving w) (unhalted : firstHalt? w.log = none)
    (gone : w.lane.worker = .exited none) :
    w.lane.queue = [] ∧ LaneWorld.ended w.log = accepted w.log := by
  have empty := (h.spent unhalted gone).1
  have whole := h.inTurn unhalted
  have ended := h.ended
  rw [gone] at whole ended
  exact ⟨empty, by simpa [empty, Worker.taken, Worker.underway, ← ended] using whole⟩

/-! ### What a call saw -/

/-- A call saw the worker gone just if it had left before. -/
def Seen (log : List (LaneNews α)) : Prop :=
  ∀ before n gone after, log = before ++ .looked n gone :: after →
    (gone = true ↔ departures before ≠ [])

theorem Seen.append (h : Seen log) (unlooked : looks news = []) : Seen (log ++ news) := by
  intro before n gone after split
  have here : ∀ earlier, news = earlier ++ .looked n gone :: after → False := by
    intro earlier same
    rw [same, looks_append] at unlooked
    simp at unlooked
  rcases List.append_eq_append_iff.1 split with ⟨earlier, -, same⟩ | ⟨rest, same, split⟩
  · exact (here earlier same).elim
  · cases rest with
    | nil => exact (here [] split.symm).elim
    | cons first rest =>
      obtain ⟨rfl, rfl⟩ := List.cons.inj split
      exact h before n gone rest same

theorem Seen.look {gone : Bool} (h : Seen log) (now : gone = true ↔ departures log ≠ []) :
    Seen (log ++ [.looked n gone]) := by
  intro before m gone' after split
  rcases List.eq_nil_or_concat after with rfl | ⟨rest, last, rfl⟩
  · obtain ⟨rfl, same⟩ := List.append_inj' split rfl
    obtain ⟨-, rfl⟩ := LaneNews.looked.inj (List.cons.inj same).1
    exact now
  · have split : log ++ [.looked n gone] = (before ++ .looked m gone' :: rest) ++ [last] := by
      simpa using split
    exact h before m gone' rest (List.append_inj' split rfl).1

theorem Serving.isFinished (h : Serving w) : w.lane.isFinished = true ↔ departures w.log ≠ [] := by
  rw [h.departed]
  cases worker : w.lane.worker <;> simp [Lane.isFinished, worker, Worker.departed]

theorem Seen.move (h : Seen w.log) (serving : Serving w) (m : Move w a w') : Seen w'.log := by
  cases m with
  | begin kind => exact h
  | take task queue idle next => exact h
  | access n kind c there unfinished =>
    rcases looks_news c n w.lane with ⟨silent, -⟩ | ⟨k, rfl, news⟩
    · exact h.append silent
    · rw [log_access, news]
      exact h.look serving.isFinished
  | _ => exact h.append rfl

theorem seen_of_run (run : (fresh index).run acts = some w) : Seen w.log := by
  refine run_induction (P := fun _ w => Seen w.log) ?_ ?_ run
  · intro before n gone after split
    simp [fresh] at split
  · intro acts w a w' before seen move
    exact seen.move (serving_of_run before) move

end LaneWorld

end OrderedLanes
