import OrderedLanes.Proofs.LaneMoves
import OrderedLanes.Session.Step

/-!
A script that works on a lane. Whatever its steps are, what they and the worker do to the
lane is a run: a stop or a halt comes as a whole, and the worker goes on in between. So
what holds after every run of a lane holds after every script on one.
-/

namespace OrderedLanes

/-! ### What leaves the machine of a session alone -/

namespace Session

variable {V : Type} {s : Session V} {name : String} {l : Lane (Pending V)}

section

variable (s : Session V)

@[simp] theorem machine_openGate (gate : String) : (s.openGate gate).machine = s.machine := rfl

@[simp] theorem machine_newHandle (key : Key) (stamp : Option Stamp) :
    (s.newHandle key stamp).2.machine = s.machine := rfl

@[simp] theorem machine_hold (id : String) (t : Ticket) : (s.hold id t).machine = s.machine := rfl

@[simp] theorem machine_release (id : String) : (s.release id).machine = s.machine := rfl

@[simp] theorem machine_setSlot (t : Ticket) (slot : Slot (Yield V)) :
    (s.setSlot t slot).machine = s.machine := rfl

@[simp] theorem machine_countWake (w : Waker) : (s.countWake w).machine = s.machine := by
  cases w <;> rfl

@[simp] theorem machine_noteWaker (w : Waker) : (s.noteWaker w).machine = s.machine := by
  cases w with
  | blocked => rfl
  | counted name panic => rw [noteWaker]; split <;> rfl

@[simp] theorem machine_deliver (t : Ticket) (outcome : Outcome (Yield V)) :
    (s.deliver t outcome).2.machine = s.machine := by
  unfold deliver
  split
  · rfl
  · dsimp only
    split <;> simp [wake]

@[simp] theorem machine_discard (ps : List (Pending V)) :
    (s.discard ps).2.machine = s.machine := by
  induction ps generalizing s with
  | nil => rfl
  | cons p ps ih => simp [discard, ih]

@[simp] theorem machine_takeBack (ps : List (Pending V)) :
    (s.takeBack ps).2.machine = s.machine := by
  induction ps generalizing s with
  | nil => rfl
  | cons p ps ih => simp [takeBack, ih]

theorem returned_takeBack (ps : List (Pending V)) :
    (s.takeBack ps).2.returned = s.returned ++ ps.map some := by
  induction ps generalizing s with
  | nil => simp [takeBack]
  | cons p ps ih => simp [takeBack, ih]

@[simp] theorem machine_takeOutcome (id : String) (otherwise : Reply V) :
    (s.takeOutcome id otherwise).2.machine = s.machine := by
  unfold takeOutcome
  split
  · rfl
  · split <;> rfl

@[simp] theorem machine_pollHandle (id : String) (waker : Waker) :
    (s.pollHandle id waker).2.machine = s.machine := by
  unfold pollHandle
  split <;> rfl

@[simp] theorem machine_pollEarly (id : String) : (s.pollEarly id).machine = s.machine := by
  unfold pollEarly
  split
  · split <;> rfl
  · rfl

@[simp] theorem machine_useCompleter (id : String) (outcome : Outcome (Yield V)) :
    (s.useCompleter id outcome).2.machine = s.machine := by
  unfold useCompleter
  split <;> simp

@[simp] theorem machine_openChannel (id : String) (key : Key) (stamp : Option Stamp) :
    (s.openChannel id key stamp).2.machine = s.machine := by
  simp [openChannel]

/-- What is done to a task that came back is done to a session with the same machine. -/
theorem machine_withReturned (n : Nat)
    {act : Session V → Pending V → Logged (Option Payload × Session V)}
    (keeps : ∀ u p, u.machine = s.machine → (act u p).value.2.machine = s.machine) :
    (s.withReturned n act).value.2.machine = s.machine := by
  unfold withReturned useReturned
  split
  · next same =>
    obtain ⟨-, rfl⟩ := Prod.mk.inj same
    rfl
  · next p u same =>
    obtain ⟨-, rfl⟩ := Prod.mk.inj same
    exact keeps _ p rfl

end

theorem machine_setLane_of_lane (lane : s.machine = .lane name l) (i : Nat)
    (l' : Lane (Pending V)) : (s.setLane i l').machine = .lane name l' := by
  rw [setLane, lane, Machine.setLane]

/-! A session on a lane has no dispatcher that its tasks could work on. -/

theorem submit_of_lane (lane : s.machine = .lane name l) (r : Request (Work V))
    (cut : Option Interruption) : s.submit r cut = pure (.dropped, s) := by
  simp [submit, lane]

theorem stop_of_lane (lane : s.machine = .lane name l) (kind : StopKind) :
    s.stop kind = pure (none, s) := by
  simp [Session.stop, lane]

theorem submitAll_of_lane (lane : s.machine = .lane name l) (rs : List (Request (Work V))) :
    (s.submitAll rs).value.2 = s := by
  induction rs with
  | nil => rfl
  | cons r rs ih => simp [submitAll, submit_of_lane lane, ih]

theorem machine_perform (lane : s.machine = .lane name l) (thread : String) (work : Work V) :
    (s.perform thread work).value.2.machine = s.machine := by
  cases work with
  | submit requests => simp [perform, submitAll_of_lane lane]
  | drawStamp key => simp [perform, lane]
  | stop kind => simp [perform, stop_of_lane lane]
  | _ => rfl

/-- What leaves a task is a panic of its own or one of a waker. -/
theorem runTask_of_lane (lane : s.machine = .lane name l) (thread : String) (p : Pending V) :
    ∃ (ending : Ending (Yield V)) (woken : Option Payload),
      (s.runTask thread p).value.1 = ending.escape.or woken ∧
        (s.runTask thread p).value.2.machine = s.machine := by
  have performed := machine_perform lane thread p.task.work
  simp only [runTask, Logged.value_bind]
  split <;> exact ⟨_, _, rfl, by simpa using performed⟩

theorem dropDeadQueues_of_lane (lane : s.machine = .lane name l) :
    s.dropDeadQueues = (none, s) := by
  simp [dropDeadQueues, lane]

end Session

namespace LaneWorld

variable {α V : Type}

/-! ### Whole calls -/

theorem step_advance {w : LaneWorld α} {n : Nat} {kind : StopKind} {c : Closing α}
    (there : w.calls[n]? = some ⟨kind, c⟩) (unfinished : ∀ report, c ≠ .done report) :
    w.step (.advance n : LaneAct α V) = some (w.access n kind c) := by
  cases c with
  | done report => exact absurd rfl (unfinished report)
  | _ => simp [step, there]; rfl

/-- The latest call goes on by as many accesses as one likes. -/
theorem run_steps (V : Type) (m : Nat) {w : LaneWorld α} {calls : List (LaneCall α)}
    {kind : StopKind} {c : Closing α} (latest : w.calls = calls ++ [⟨kind, c⟩]) :
    ∃ (acts : List (LaneAct α V)) (v : LaneWorld α), w.run acts = some v ∧
      v.lane = (Closing.steps m (c, w.lane)).2 ∧
      v.calls = calls ++ [⟨kind, (Closing.steps m (c, w.lane)).1⟩] := by
  induction m generalizing w c with
  | zero => exact ⟨[], w, rfl, rfl, latest⟩
  | succ m ih =>
    by_cases unfinished : ∀ report, c ≠ .done report
    · have there : w.calls[calls.length]? = some ⟨kind, c⟩ := by simp [latest]
      obtain ⟨acts, v, run, lane, last⟩ := ih (w := w.access calls.length kind c)
        (c := (c.step w.lane).1) (by simp [latest])
      refine ⟨.advance calls.length :: acts, v, ?_, lane, last⟩
      rw [run_cons, step_advance there unfinished]
      exact run
    · obtain ⟨report, rfl⟩ : ∃ report, c = .done report := by simpa using unfinished
      exact ⟨[], w, rfl, by simp, by simpa using latest⟩

/-- A call with nothing in between does what `Lane.shut` does. -/
theorem run_shut (V : Type) (w : LaneWorld α) (kind : StopKind) :
    ∃ (acts : List (LaneAct α V)) (v : LaneWorld α), w.run acts = some v ∧
      v.lane = (w.lane.shut kind).value.2 ∧
      v.calls = w.calls ++ [⟨kind, .done (w.lane.shut kind).value.1⟩] := by
  obtain ⟨acts, v, run, lane, calls⟩ := run_steps V (w.lane.queued + 5)
    (w := { w with calls := w.calls ++ [⟨kind, .marking kind⟩] }) rfl
  rw [Closing.steps_marking _ _ _ (Nat.le_refl _)] at lane calls
  exact ⟨.call kind :: acts, v, run, lane, calls⟩

/-! ### Scripts -/

open Session

variable {s s' : Session V} {w : LaneWorld (Pending V)}

/-- The session works on this lane, and no call is under way. -/
structure Scripted (s : Session V) (w : LaneWorld (Pending V)) : Prop where
  lane : ∃ name, s.machine = .lane name w.lane
  settled : w.Settled

/-- Some run leads to the lane of this session. -/
def Leads (w : LaneWorld (Pending V)) (s : Session V) : Prop :=
  ∃ (acts : List (LaneAct (Pending V) (Yield V))) (v : LaneWorld (Pending V)),
    w.run acts = some v ∧ Scripted s v

theorem Scripted.of_machine (h : Scripted s w) (same : s'.machine = s.machine) :
    Scripted s' w := ⟨same ▸ h.lane, h.settled⟩

theorem Scripted.leads (h : Scripted s w) : w.Leads s := ⟨[], w, rfl, h⟩

theorem Leads.of_machine (h : w.Leads s) (same : s'.machine = s.machine) : w.Leads s' := by
  obtain ⟨acts, v, run, there⟩ := h
  exact ⟨acts, v, run, there.of_machine same⟩

/-- A session that goes on where a run has led. -/
theorem Leads.trans (h : w.Leads s) (next : ∀ v, Scripted s v → v.Leads s') : w.Leads s' := by
  obtain ⟨acts, v, run, there⟩ := h
  obtain ⟨more, u, later, last⟩ := next v there
  exact ⟨acts ++ more, u, run_of_parts run later, last⟩

theorem leave_of_abandon {l l' : Lane α} {task : α}
    (inspected : l.inspect = some (.abandon task, l')) : l' = l.leave none := by
  unfold Lane.inspect at inspected
  split at inspected
  · split at inspected <;> simp_all
  · cases inspected

/-- A step of the session's worker is an act of the lane's. -/
theorem Scripted.workerStep (h : Scripted s w) {i : Nat} (act : s.workerStep i = some s') :
    ∃ (a : LaneAct (Pending V) (Yield V)) (v : LaneWorld (Pending V)),
      a.byWorker = true ∧ w.step a = some v ∧ Scripted s' v := by
  obtain ⟨⟨name, lane⟩, settled⟩ := h
  have shown : ∀ {t : Session V} {l l' : Lane (Pending V)} {news : List (LaneNews (Pending V))},
      t.machine = .lane name l → Scripted (t.setLane i l') ({ w with lane := l' }.note news) :=
    fun there => ⟨⟨name, machine_setLane_of_lane there i _⟩, settled⟩
  unfold Session.workerStep at act
  split at act
  · cases act
  · next l there =>
    obtain rfl : w.lane = l := by
      rw [lane, Machine.lane?] at there
      split at there <;> cases there
      rfl
    dsimp only at act
    split at act
    · obtain ⟨l, received, rfl⟩ := Option.map_eq_some_iff.1 act
      exact ⟨.receive, _, rfl, by simp only [step, received]; rfl, shown lane⟩
    · obtain ⟨⟨decision, l⟩, inspected, rfl⟩ := Option.map_eq_some_iff.1 act
      cases decision with
      | run p =>
        exact ⟨.inspect none, _, rfl, by simp only [step, inspected]; rfl,
          (shown lane).of_machine rfl⟩
      | abandon p =>
        obtain rfl := leave_of_abandon inspected
        refine ⟨.inspect ((s.setLane i (w.lane.leave none)).discard [p]).1, _, rfl,
          by simp only [step, inspected]; rfl, shown (l := w.lane.leave none) ?_⟩
        rw [machine_discard, machine_setLane_of_lane lane]
    · next p busy =>
      split at act
      · obtain ⟨ending, woken, escape, kept⟩ := runTask_of_lane lane
          (Config.laneThread s.machine.threadName w.lane.index) p
        rw [kept, there, escape] at act
        obtain rfl := Option.some.inj act
        exact ⟨.finish ending woken, _, rfl, by simp only [step, busy]; rfl,
          shown (kept.trans lane)⟩
      · cases act
    · cases act

/-- The worker goes on as far as it can. -/
theorem Scripted.settle (h : Scripted s w) : w.Leads s.settle := by
  have within : ∀ (fuel : Nat) {s : Session V} {w : LaneWorld (Pending V)}, Scripted s w →
      w.Leads (s.settleWithin fuel) := by
    intro fuel
    induction fuel with
    | zero => exact fun h => h.leads
    | succ fuel ih =>
      intro s w h
      cases next : s.someStep with
      | none => rw [settleWithin, next]; exact h.leads
      | some s' =>
        obtain ⟨i, -, act⟩ := List.exists_of_findSome?_eq_some next
        obtain ⟨a, v, -, moved, there⟩ := h.workerStep act
        obtain ⟨acts, u, run, last⟩ := ih there
        rw [settleWithin, next]
        exact ⟨a :: acts, u, by rw [run_cons, moved]; exact run, last⟩
  refine (within s.stepBound h).trans fun v there => (there.of_machine ?_).leads
  obtain ⟨name, lane⟩ := there.lane
  rw [Session.settle, dropDeadQueues_of_lane lane]

theorem Scripted.openDuring (h : Scripted s w) (opening : Option String) :
    w.Leads (s.openDuring opening) := by
  cases opening with
  | none => exact h.leads
  | some gate =>
    have opened : Scripted (s.openGate gate) w := h.of_machine rfl
    exact opened.settle

/-- A task that a script queues is accepted or comes back, as the lane decides. -/
theorem Scripted.enqueue (h : Scripted s w) (id : String) (key : Key) (gate : Option String)
    (work : Work V) : ∃ (p : Pending V) (v : LaneWorld (Pending V)),
      w.step (.enqueue p : LaneAct (Pending V) (Yield V)) = some v ∧
        Scripted (s.enqueue id key gate work).2 v ∧
        ((s.enqueue id key gate work).1 = .done ∧ v.log = w.log ++ [.accepted p] ∨
          (∃ listed, (s.enqueue id key gate work).1 = .closed listed) ∧
            v.log = w.log ++ [.refused p]) := by
  obtain ⟨⟨name, lane⟩, settled⟩ := h
  let p : Pending V := ⟨key, w.lane.index, s.handles.size, ⟨.script id, some key, gate, work⟩⟩
  cases queued : w.lane.enqueue p with
  | some l =>
    refine ⟨p, { w with lane := l }.note [.accepted p], by simp only [step, queued], ?_⟩
    have whole : s.enqueue id key gate work = (.done,
        { (s.newHandle key none).2.hold id s.handles.size with machine := .lane name l }) := by
      simp only [Session.enqueue, lane, newHandle]
      rw [show w.lane.enqueue _ = some l from queued]
    rw [whole]
    exact ⟨⟨⟨name, rfl⟩, settled⟩, .inl ⟨rfl, rfl⟩⟩
  | none =>
    refine ⟨p, w.note [.refused p], by simp only [step, queued], ?_⟩
    have whole : s.enqueue id key gate work =
        (.closed (((s.newHandle key none).2.hold id s.handles.size).takeBack [p]).1,
          (((s.newHandle key none).2.hold id s.handles.size).takeBack [p]).2) := by
      simp only [Session.enqueue, lane, newHandle]
      rw [show w.lane.enqueue _ = none from queued]
    rw [whole]
    exact ⟨⟨⟨name, by simpa using lane⟩, settled⟩, .inr ⟨⟨_, rfl⟩, rfl⟩⟩

/-- A session whose lane was stopped or halted in one go. -/
theorem Scripted.shut (h : Scripted s w) {name : String} (kind : StopKind)
    (lane : s'.machine = .lane name (w.lane.shut kind).value.2) :
    ∃ (acts : List (LaneAct (Pending V) (Yield V))) (v : LaneWorld (Pending V)),
      w.run acts = some v ∧ Scripted s' v ∧
        v.calls = w.calls ++ [⟨kind, .done (w.lane.shut kind).value.1⟩] := by
  obtain ⟨acts, v, run, there, calls⟩ := run_shut (Yield V) w kind
  refine ⟨acts, v, run, ⟨⟨name, there ▸ lane⟩, fun call came => ?_⟩, calls⟩
  rw [calls] at came
  rcases List.mem_append.1 came with before | now
  · exact h.settled call before
  · exact ⟨_, congrArg LaneCall.progress (List.mem_singleton.1 now)⟩

/-- A script that stops the lane is told what the call reports. -/
theorem Scripted.stopLane (h : Scripted s w) :
    ∃ (acts : List (LaneAct (Pending V) (Yield V))) (v : LaneWorld (Pending V))
      (error : Option LaneError), w.run acts = some v ∧ Scripted (s.act .stopLane).value.2 v ∧
        (s.act .stopLane).value.1 = .laneError error ∧
        v.calls = w.calls ++ [⟨.graceful, .done ⟨[], error.toList⟩⟩] := by
  obtain ⟨name, lane⟩ := h.lane
  let stopped : Session V := { s with machine := .lane name w.lane.stop.value.2 }
  have whole : (s.act .stopLane).value = (.laneError w.lane.stop.value.1, stopped) := by
    simp [Session.act, onLane, lane, stopped]
  rw [whole]
  have after : stopped.machine = .lane name (w.lane.shut .graceful).value.2 := rfl
  obtain ⟨acts, v, run, there, calls⟩ := h.shut .graceful after
  exact ⟨acts, v, _, run, there, rfl, calls⟩

/-- A script that halts the lane gets the tasks back that the call has taken. -/
theorem Scripted.haltLane (h : Scripted s w) :
    ∃ (acts : List (LaneAct (Pending V) (Yield V))) (v : LaneWorld (Pending V))
      (pending : List (Pending V)) (error : Option LaneError),
      w.run acts = some v ∧ Scripted (s.act .haltLane).value.2 v ∧
        (s.act .haltLane).value.2.returned = s.returned ++ pending.map some ∧
        (∃ listed, (s.act .haltLane).value.1 = .halted listed error) ∧
        v.calls = w.calls ++ [⟨.forced, .done ⟨pending, error.toList⟩⟩] := by
  obtain ⟨name, lane⟩ := h.lane
  let halted : Session V := { s with machine := .lane name w.lane.halt.value.2.2 }
  have whole : (s.act .haltLane).value =
      (.halted (halted.takeBack w.lane.halt.value.1).1 w.lane.halt.value.2.1,
        (halted.takeBack w.lane.halt.value.1).2) := by
    simp [Session.act, lane, halted]
  rw [whole]
  have after : halted.machine = .lane name (w.lane.shut .forced).value.2 := rfl
  obtain ⟨acts, v, run, there, calls⟩ := h.shut .forced after
  exact ⟨acts, v, _, _, run, there.of_machine (machine_takeBack _ _), returned_takeBack _ _,
    ⟨_, rfl⟩, calls⟩

/-- A script that asks how the worker ended is told what the lane answers. -/
theorem Scripted.joinLane (h : Scripted s w) :
    ∃ (v : LaneWorld (Pending V)) (answer : Except Payload (Option LaneError)),
      w.step (.join : LaneAct (Pending V) (Yield V)) = some v ∧
        Scripted (s.act .joinLane).value.2 v ∧
        (s.act .joinLane).value.1 = replyOf .laneError answer ∧
        v.log = w.log ++ [.joined answer] := by
  obtain ⟨name, lane⟩ := h.lane
  have whole : (s.act .joinLane).value = (replyOf .laneError w.lane.joinIfExited.1,
      { s with machine := .lane name w.lane.joinIfExited.2 }) := by
    simp [Session.act, onLane, lane]
  rw [whole]
  exact ⟨{ w with lane := w.lane.joinIfExited.2 }.note [.joined w.lane.joinIfExited.1], _, rfl,
    ⟨⟨name, rfl⟩, h.settled⟩, rfl, rfl⟩

/-- Whatever a step of a script does, some run leads there. -/
theorem Scripted.act (h : Scripted s w) (c : Command V) : w.Leads (s.act c).value.2 := by
  obtain ⟨name, lane⟩ := h.lane
  cases c with
  | enqueue id key gate work =>
    obtain ⟨p, v, act, there, -⟩ := h.enqueue id key gate work
    exact ⟨[.enqueue p], v, by simp [act], there⟩
  | stopLane =>
    obtain ⟨acts, v, error, run, there, -⟩ := h.stopLane
    exact ⟨acts, v, run, there⟩
  | haltLane =>
    obtain ⟨acts, v, pending, error, run, there, -⟩ := h.haltLane
    exact ⟨acts, v, run, there⟩
  | joinLane =>
    obtain ⟨v, error, act, there, -⟩ := h.joinLane
    exact ⟨[.join], v, by simp [act], there⟩
  | join id opening => exact (h.openDuring opening).of_machine (machine_takeOutcome _ _ _)
  | joinWithin id opening => exact (h.openDuring opening).of_machine (machine_takeOutcome _ _ _)
  | await id opening =>
    cases opening with
    | none => exact (h.of_machine (machine_takeOutcome _ _ _)).leads
    | some gate =>
      exact ((h.of_machine (machine_pollEarly _ _)).openDuring _).of_machine
        (machine_takeOutcome _ _ _)
  | poll id waker =>
    refine (h.of_machine ?_).leads
    simp only [Session.act, Logged.value_pure, machine_pollHandle]
    split <;> simp
  | runReturned n =>
    refine (h.of_machine (machine_withReturned s n fun u p same => ?_)).leads
    obtain ⟨ending, woken, -, kept⟩ :=
      runTask_of_lane (s := u.noteStart callerThread p.task) (same.trans lane) callerThread p
    exact kept.trans same
  | dropReturned n =>
    exact (h.of_machine (machine_withReturned s n fun u p same => by simpa using same)).leads
  | _ =>
    refine (h.of_machine ?_).leads
    simp [Session.act, lane, onLane, askLane, onDispatcher, askDispatcher, stopStep,
      stop_of_lane lane, submit_of_lane lane]

theorem Scripted.step (h : Scripted s w) (c : Command V) : w.Leads (s.step c).value.2 :=
  (h.act c).trans fun _ there => there.settle

/-- Every script on a lane leaves the lane where some run of it leads. -/
theorem leads_of_script (name : String) (index : LaneIndex) (counter : KeyCounter)
    (script : List (Command V)) : (fresh index).Leads (script.foldl
      (fun s c => (s.step c).value.2) (begin (.lane name (.start index)) counter)) := by
  induction script using List.reverseRecOn with
  | nil => exact Scripted.leads ⟨⟨name, rfl⟩, by simp [Settled, fresh]⟩
  | append_singleton script c ih =>
    rw [List.foldl_append]
    exact ih.trans fun _ there => there.step c

end LaneWorld

end OrderedLanes
