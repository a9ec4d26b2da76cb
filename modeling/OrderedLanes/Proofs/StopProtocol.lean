import OrderedLanes.Proofs.LaneService

/-!
How a lane stops. Its stage only moves on; it takes tasks until the first stop or halt
closes it; a stopped lane runs what it holds in turn and its worker leaves only then; a
halted lane starts nothing more; and the one call that finds the worker gone too early is
the first of all. All of this holds between any two accesses of any run.
-/

namespace OrderedLanes

namespace LaneWorld

variable {α V : Type} {v w : LaneWorld α} {acts more : List (LaneAct α V)} {index : LaneIndex}
  {n : Nat} {kind : StopKind} {c : Closing α}

/-- The first stop or halt has returned. -/
def Stopped (w : LaneWorld α) : Prop := ∃ (n : Nat) (kind : StopKind) (report : StopReport α),
  firstCall? w.log = some n ∧ w.calls[n]? = some ⟨kind, .done report⟩

/-- The first halt has returned. -/
def Halted (w : LaneWorld α) : Prop := ∃ (n : Nat) (report : StopReport α),
  firstHalt? w.log = some n ∧ w.calls[n]? = some ⟨.forced, .done report⟩

/-- How a lane and whoever stops it stand, and how they will stand after any further acts. -/
structure StopProtocol (V : Type) (w : LaneWorld α) : Prop where
  stage : ∀ (more : List (LaneAct α V)) (v : LaneWorld α), w.run more = some v →
    w.lane.stage.code ≤ v.lane.stage.code
  /-- Between calls the lane takes tasks just if there was none. -/
  gate : w.Settled → (w.lane.accepting = true ↔ w.calls = [])
  acceptance : ∀ task, w.lane.accepting = true → w.step (.enqueue task : LaneAct α V) =
    some ({ w with lane := { w.lane with queue := w.lane.queue ++ [task] } }.note [.accepted task])
  refusal : ∀ task, w.lane.accepting = false →
    w.step (.enqueue task : LaneAct α V) = some (w.note [.refused task])
  /-- Until a halt comes the tasks are run in the order of their queueing. -/
  inTurn : firstHalt? w.log = none →
    started w.log ++ w.lane.worker.taken ++ w.lane.queue = accepted w.log ∧
      ended w.log ++ w.lane.worker.underway = started w.log
  /-- Unless a task kills it the worker leaves only when all of them were run. -/
  leaving : firstHalt? w.log = none → w.lane.worker = .exited none →
    w.lane.queue = [] ∧ ended w.log = accepted w.log
  stopped : w.Settled → w.calls ≠ [] → w.Stopped
  /-- A stopped worker has so many acts left at most, and can act until it has left. -/
  progress : w.Stopped → ∀ (more : List (LaneAct α V)) (v : LaneWorld α), w.run more = some v →
    accepted v.log = accepted w.log ∧
      more.countP LaneAct.byWorker + v.lane.toil ≤ w.lane.toil ∧
      (v.lane.isFinished = false → ∃ a : LaneAct α V, a.byWorker = true ∧ (v.step a).isSome)
  /-- When it has taken them it has run everything. -/
  finish : w.Stopped → ∀ (more : List (LaneAct α V)) (v : LaneWorld α), w.run more = some v →
    firstHalt? v.log = none → (∀ panic, v.lane.worker ≠ .exited (some panic)) →
      w.lane.toil ≤ more.countP LaneAct.byWorker →
        v.lane.worker = .exited none ∧ ended v.log = accepted w.log
  halted : w.Settled → (∃ call ∈ w.calls, call.kind = .forced) → w.Halted
  silence : w.Halted → ∀ (more : List (LaneAct α V)) (v : LaneWorld α), w.run more = some v →
    started v.log = started w.log
  secondHalt : ∀ (n : Nat) (report : StopReport α), w.calls[n]? = some ⟨.forced, .done report⟩ →
    firstHalt? w.log ≠ some n → report = .empty
  /-- Only the first call complains, and just if the worker had left when it looked. -/
  complaint : ∀ (n : Nat) (kind : StopKind) (report : StopReport α),
    w.calls[n]? = some ⟨kind, .done report⟩ →
      firstCall? w.log ≠ some n ∧ report.errors = [] ∨
      firstCall? w.log = some n ∧ ∃ before gone after,
        w.log = before ++ .looked n gone :: after ∧
          report.errors = if departures before = [] then [] else [.workerExited w.lane.index]
  once : (looks w.log).length ≤ 1
  /-- A call that nothing comes between complains just if it is the first and comes too late. -/
  alone : w.Settled → ∀ kind,
    (w.lane.shut kind).value.1.errors = if w.calls = [] then w.lane.exitedEarly.toList else []

section

variable (h : Orderly w)
include h

/-- A call that has come to an end was at the stage. -/
theorem Orderly.returned {report : StopReport α}
    (there : w.calls[n]? = some ⟨kind, .done report⟩) : w.Over n report :=
  h.stands n kind _ there

theorem Orderly.settled_call (settled : w.Settled) (came : n ∈ called w.log) :
    ∃ kind report, (n, kind) ∈ reached w.log ∧ w.calls[n]? = some ⟨kind, .done report⟩ := by
  obtain ⟨⟨m, kind⟩, noted, rfl⟩ := List.mem_map.1 came
  obtain ⟨c, there⟩ := h.kinds m kind noted
  obtain ⟨report, done⟩ := settled _ (List.mem_of_getElem? there)
  obtain rfl : c = .done report := done
  exact ⟨kind, report, noted, there⟩

theorem Orderly.stopped (settled : w.Settled) (calls : w.calls ≠ []) : w.Stopped := by
  have some : firstCall? w.log ≠ none := by
    obtain ⟨⟨kind, c⟩, there⟩ := List.exists_mem_of_ne_nil _ calls
    obtain ⟨report, done⟩ := settled _ there
    obtain rfl : c = .done report := done
    obtain ⟨n, there⟩ := List.getElem?_of_mem there
    have came := (h.returned there).came
    intro none
    simp [called, firstCall?_eq_none.1 none] at came
  obtain ⟨n, first⟩ := Option.ne_none_iff_exists'.1 some
  obtain ⟨kind, report, -, there⟩ := h.settled_call settled (called_of_firstCall first)
  exact ⟨n, kind, report, first, there⟩

theorem Orderly.closed_of_stopped (stopped : w.Stopped) : w.lane.accepting = false := by
  obtain ⟨n, kind, report, first, there⟩ := stopped
  exact (h.returned there).closed first

theorem Orderly.gate (settled : w.Settled) : w.lane.accepting = true ↔ w.calls = [] := by
  constructor
  · intro accepting
    by_contra calls
    simp [h.closed_of_stopped (h.stopped settled calls)] at accepting
  · exact h.open_of_uncalled

theorem Orderly.halted_of_settled (settled : w.Settled)
    (forced : ∃ call ∈ w.calls, call.kind = .forced) : w.Halted := by
  have some : firstHalt? w.log ≠ none := by
    obtain ⟨⟨kind, c⟩, there, rfl⟩ := forced
    obtain ⟨report, done⟩ := settled _ there
    obtain rfl : c = .done report := done
    obtain ⟨n, there⟩ := List.getElem?_of_mem there
    obtain ⟨kind, report', came, there'⟩ := h.settled_call settled (h.returned there).came
    obtain rfl : kind = .forced := by
      have same := there.symm.trans there'
      simp only [Option.some.injEq, LaneCall.mk.injEq] at same
      exact same.1.symm
    intro none
    have nobody : (reached w.log).find? (·.2 = .forced) = Option.none := by
      simpa only [firstHalt?, Option.map_eq_none_iff] using none
    simpa using List.find?_eq_none.1 nobody _ came
  obtain ⟨n, first⟩ := Option.ne_none_iff_exists'.1 some
  obtain ⟨kind, report, -, there⟩ := h.settled_call settled (called_of_firstHalt first)
  obtain ⟨c, there'⟩ := h.kinds n _ (reached_of_firstHalt first)
  obtain ⟨rfl, -⟩ : kind = .forced ∧ Closing.done report = c := by
    simpa using there.symm.trans there'
  exact ⟨n, report, first, there⟩

theorem Orderly.interrupted_of_halted (halted : w.Halted) : w.lane.interrupted = true := by
  obtain ⟨n, report, first, there⟩ := halted
  exact ((h.returned there).drained first).1

/-- A halt that comes first of all is the first halt. -/
theorem Orderly.firstHalt_of_firstCall (first : firstCall? w.log = some n)
    (there : w.calls[n]? = some ⟨.forced, c⟩) : firstHalt? w.log = some n := by
  obtain ⟨⟨m, kind⟩, head, rfl⟩ := Option.map_eq_some_iff.1 first
  obtain ⟨rest, whole⟩ := List.head?_eq_some_iff.1 head
  obtain ⟨c', there'⟩ := h.kinds m kind (by simp [whole])
  obtain ⟨rfl, -⟩ : kind = .forced ∧ c' = c := by simpa using there'.symm.trans there
  simp [firstHalt?, whole]

/-- A halt that another one came before hands nothing back. -/
theorem Orderly.secondHalt {report : StopReport α}
    (there : w.calls[n]? = some ⟨.forced, .done report⟩) (other : firstHalt? w.log ≠ some n) :
    report = .empty := by
  have returned := h.returned there
  have errors : report.errors = [] :=
    returned.told.there fun gone => other (h.firstHalt_of_firstCall (h.looked n _ gone) there)
  obtain ⟨pending, errors'⟩ := report
  obtain rfl : pending = [] := returned.others other
  obtain rfl : errors' = [] := errors
  rfl

theorem Orderly.complaint (seen : Seen w.log) {report : StopReport α}
    (there : w.calls[n]? = some ⟨kind, .done report⟩) :
    firstCall? w.log ≠ some n ∧ report.errors = [] ∨
      firstCall? w.log = some n ∧ ∃ before gone after,
        w.log = before ++ .looked n gone :: after ∧
          report.errors = if departures before = [] then [] else [.workerExited w.lane.index] := by
  have told := (h.returned there).told
  by_cases first : firstCall? w.log = some n
  · refine .inr ⟨first, ?_⟩
    obtain ⟨gone, looked⟩ := told.looked first
    have noted : .looked n gone ∈ w.log := by
      obtain ⟨e, noted, same⟩ := List.mem_filterMap.1 looked
      cases e <;> cases same
      exact noted
    obtain ⟨before, after, split⟩ := List.append_of_mem noted
    refine ⟨before, gone, after, split, ?_⟩
    have departed := seen before n gone after split
    cases gone with
    | true => rw [if_neg (departed.1 rfl), told.gone looked]
    | false =>
      have unseen : (n, true) ∉ looks w.log := by
        intro other
        have whole : looks w.log = looks before ++ (n, false) :: looks after := by
          rw [split, looks_append]
          rfl
        have once : (looks before).length + ((looks after).length + 1) ≤ 1 := by
          simpa [whole] using h.once
        have none : looks before = [] := List.eq_nil_of_length_eq_zero (by omega)
        have none' : looks after = [] := List.eq_nil_of_length_eq_zero (by omega)
        simp [whole, none, none'] at other
      have stays : departures before = [] := by
        by_contra left
        exact absurd (departed.2 left) (by simp)
      rw [if_pos stays, told.there unseen]
  · exact .inl ⟨first, told.there fun gone => first (h.looked n _ gone)⟩

/-- Left alone, a call that finds the lane running reports the worker's state. -/
theorem Orderly.alone (settled : w.Settled) (kind : StopKind) :
    (w.lane.shut kind).value.1.errors = if w.calls = [] then w.lane.exitedEarly.toList else [] := by
  have running : w.lane.stage = .running ↔ w.calls = [] := by
    rw [h.running]
    refine ⟨fun none => ?_, h.uncalled⟩
    by_contra calls
    obtain ⟨n, kind, report, first, -⟩ := h.stopped settled calls
    exact absurd (none.symm.trans first) (by simp)
  by_cases calls : w.calls = []
  · have stage := running.2 calls
    cases kind <;> simp [Lane.shut, Lane.value_stop, Lane.value_halt, stage, calls]
  · have stage := mt running.1 calls
    cases kind with
    | graceful => simp [Lane.shut, Lane.value_stop, stage, calls]
    | forced => by_cases halted : w.lane.stage = .halted <;>
        simp [Lane.shut, Lane.value_halt, stage, halted, calls]

end

/-- Every lane keeps to the protocol, in every order of queueing, stops, halts and work. -/
theorem stop_protocol (run : (fresh index).run acts = some w) : StopProtocol V w := by
  have orderly := orderly_of_run run
  have serving := serving_of_run run
  have seen := seen_of_run run
  exact {
    stage := fun more v later => (grows_of_run later).stage_code
    gate := orderly.gate
    acceptance := fun task accepting => by
      simp [step, w.lane.enqueue_of_accepting task accepting]
    refusal := fun task closed => by simp [step, w.lane.enqueue_of_closed task closed]
    inTurn := fun unhalted => ⟨serving.inTurn unhalted, serving.ended⟩
    leaving := serving.leaving
    stopped := orderly.stopped
    progress := fun stopped more v later => by
      have closed := orderly.closed_of_stopped stopped
      exact ⟨unaccepted_of_run closed later, toil_of_run closed later,
        exists_act V ((grows_of_run later).closed closed)⟩
    finish := fun stopped more v later unhalted alive enough => by
      have closed := orderly.closed_of_stopped stopped
      have spent := toil_of_run closed later
      obtain ⟨panic, gone⟩ : ∃ panic, v.lane.worker = .exited panic := worker_of_toil (by omega)
      cases panic with
      | some panic => exact absurd gone (alive panic)
      | none =>
        have whole := ((serving_of_run (run_of_parts run later)).leaving unhalted gone).2
        exact ⟨gone, whole.trans (unaccepted_of_run closed later)⟩
    halted := orderly.halted_of_settled
    silence := fun halted more v later =>
      unstarted_of_run (orderly.interrupted_of_halted halted) later
    secondHalt := fun n report there => orderly.secondHalt there
    complaint := fun n kind report there => orderly.complaint seen there
    once := orderly.once
    alone := orderly.alone }

/-- A task kills the worker, a stop comes too late, and a halt takes back what waits. -/
theorem stop_protocol_worker_dead : ∃ (acts : List (LaneAct Nat Unit)) (w : LaneWorld Nat),
    (fresh 0).run acts = some w ∧ StopProtocol Unit w ∧
      w.calls = [⟨.graceful, .done ⟨[], [.workerExited 0]⟩⟩, ⟨.forced, .done ⟨[8], []⟩⟩] := by
  let acts : List (LaneAct Nat Unit) := [.enqueue 7, .receive, .inspect none, .enqueue 8,
    .finish (.panic (.doubleTrap "late")) none, .call .graceful, .advance 0, .advance 0,
    .advance 0, .call .forced, .advance 1, .advance 1, .advance 1, .advance 1, .advance 1]
  have whole : ((fresh 0).run acts).map LaneWorld.calls =
      some [⟨.graceful, .done ⟨[], [.workerExited 0]⟩⟩, ⟨.forced, .done ⟨[8], []⟩⟩] := rfl
  obtain ⟨w, run, calls⟩ := Option.map_eq_some_iff.1 whole
  exact ⟨acts, w, run, stop_protocol run, calls⟩

end LaneWorld

end OrderedLanes
