import OrderedLanes.Proofs.Handles
import OrderedLanes.Proofs.Moves

/-!
Which tasks are cancelled. A handle tells of a cancellation if its task was thrown
away unstarted, and in one case more: the task ran and panicked, and disposing of what
it panicked with panicked as well. Every other task that was started gives its value,
its failure or its panic.
-/

namespace OrderedLanes

namespace World

variable {V : Type} {d : Dispatcher Parcel} {u w w' : World V} {p : Parcel} {i : LaneIndex}

/-! ### After the dispatcher was dropped -/

/-- All calls have come to their ends, and every task is accounted for. -/
structure Parted (w : World V) : Prop where
  ended : w.Ended
  sound : AllSound w.submissions
  kept : w.Kept
  accounted : w.Accounted

theorem Ended.nothingLost (h : w.Ended) : NothingLost w := by
  intro who i c closing _
  cases who with
  | stop n =>
    obtain ⟨s, there, closing⟩ := Option.bind_eq_some_iff.1 closing
    have ended := h.stops n s there
    cases s with
    | done report => cases closing
    | _ => cases ended
  | submission t =>
    obtain ⟨⟨key, task, phase⟩, there, closing⟩ := Option.bind_eq_some_iff.1 closing
    have ended := h.submissions t _ there
    cases phase with
    | done submitted => cases closing
    | _ => cases ended

theorem Ended.of_same (h : w.Ended) (submissions : w'.submissions = w.submissions)
    (stops : w'.stops = w.stops) : w'.Ended :=
  ⟨fun t s there => h.submissions t s (submissions ▸ there),
    fun n s there => h.stops n s (stops ▸ there)⟩

/-- Where all calls have ended no task is accepted and no submission is rejected. -/
theorem Ended.answers (h : w.Ended) (sound : AllSound w.submissions) (e : Effect w w') :
    accepted w'.history = accepted w.history ∧
      ∀ t, .rejected t ∈ w'.history → .rejected t ∈ w.history := by
  constructor
  · rcases e.acceptance with ⟨t, s, stamp, i, there, phase, -, -⟩ | ⟨news, history, none⟩
    · have ended := h.submissions t s there
      simp [Submission.answer?, phase] at ended
    · rw [history, accepted_append, none, List.append_nil]
  · intro t rejected
    obtain ⟨news, history⟩ := e.history
    rcases e.answers sound with ⟨u, s, submitted, there, going, -, -⟩ | same
    · have ended := h.submissions u s there
      simp [going] at ended
    · rw [← history, answered, List.filterMap_append, List.append_right_eq_self] at same
      rw [← history] at rejected
      refine (List.mem_append.1 rejected).resolve_right fun new => ?_
      have told : t ∈ answered news := List.mem_filterMap.2 ⟨_, new, rfl⟩
      rw [answered, same] at told
      cases told

/-- What workers and callers do keeps account of every task. -/
theorem Parted.plain (h : w.Parted) {a : Act V} (late : a.calls = false)
    (act : w.step a = some w') : w'.Parted := by
  have calls := callsRest_of_step late act
  have effect : Effect w.core w'.core := effect_of_step act
  have ended : w.core.Ended := ⟨h.ended.submissions, h.ended.stops⟩
  have sound : AllSound w.core.submissions := h.sound
  obtain ⟨accepted, rejected⟩ := ended.answers sound effect
  have same : World.accepted w'.history = World.accepted w.history := accepted
  refine ⟨h.ended.of_same calls.submissions calls.stops, calls.submissions ▸ h.sound, ?_,
    h.accounted.step h.sound (fun p settled => ?_) act⟩
  · refine ⟨same ▸ h.kept.tickets, ?_, ?_, fun x => ?_, fun x => ?_, fun x => ?_, ?_⟩
    · rw [same, calls.submissions]
      exact h.kept.known
    · rw [same]
      exact fun p listed told => h.kept.answered p listed (rejected _ told)
    · have moved := effect.conserves sound ended.nothingLost x
      have before : w.core.holdings.count x = (World.accepted w.core.history).count x :=
        h.kept.holdings x
      have after : w'.core.holdings.count x = (World.accepted w'.core.history).count x := by omega
      exact after
    · exact effect.startsKept sound (h.kept.starts x)
    · exact effect.returnsKept (h.kept.returns x)
    · obtain ⟨news, history, callers⟩ := effect.callers
      have history : w'.history = w.history ++ news := history
      rw [history, startedByCallers_append, endedByCallers, List.filterMap_append]
      exact congrArg₂ (· ++ ·) h.kept.callers callers
  · exact h.accounted.handles ▸ h.kept.known p (h.kept.accepted_of_settled settled)

/-- So does the drop of a queue. -/
theorem Parted.expire (h : w.Parted) (act : w.expire i = some w') : w'.Parted := by
  simp only [World.expire, Option.bind_eq_bind, Option.bind_eq_some_iff] at act
  obtain ⟨l, lane, act⟩ := act
  split at act
  · next p queue finished left =>
    have same : SlotsOnly
        ({ w with dispatcher := w.dispatcher.setLane i { l with queue } }.note (.discarded p)) w' :=
      Option.some.inj act ▸ slotsOnly_deliver _ _ _
    have history : w'.history = w.history ++ [.discarded p] := same.history
    have accepted : World.accepted w'.history = World.accepted w.history := by simp [history]
    have less : { w with dispatcher := w.dispatcher.setLane i { l with queue } }.Accounted :=
      h.accounted.still rfl rfl rfl rfl
    refine ⟨h.ended.of_same same.submissions same.stops, same.submissions ▸ h.sound, ?_,
      Option.some.inj act ▸ less.discard p⟩
    refine ⟨accepted ▸ h.kept.tickets, ?_, ?_, fun x => ?_, fun x => ?_, fun x => ?_, ?_⟩
    · rw [accepted, same.submissions]
      exact h.kept.known
    · rw [accepted, history]
      simpa using h.kept.answered
    · have moved := count_setLane lane { l with queue } x
      have before : l.tasks = l.worker.task?.toList ++ ([p] ++ queue) := by
        rw [Lane.tasks, left]
        rfl
      have after : Lane.tasks { l with queue } = l.worker.task?.toList ++ queue := rfl
      rw [before, after, List.count_append, List.count_append, List.count_append] at moved
      have kept := conserved_of_balance (x := x) history (by
        rw [same.dispatcher, same.submissions, same.stops]
        simp [World.note]
        omega)
      have all := h.kept.holdings x
      omega
    · refine (h.kept.starts x).lane lane same.dispatcher history ?_
      simp [slotRunning]
    · refine (h.kept.returns x).quiet same.returned history rfl rfl ?_
      rw [handedBack, handedBack, same.stops]
      rfl
    · rw [history, startedByCallers_append, endedByCallers, List.filterMap_append]
      exact congrArg₂ (· ++ ·) h.kept.callers rfl
  · cases act

theorem Parted.run {acts : List (LateAct V)} (h : w.Parted) (run : w.lateRun acts = some w') :
    w'.Parted := by
  induction acts generalizing w with
  | nil =>
    obtain rfl := Option.some.inj run
    exact h
  | cons a acts ih =>
    rw [lateRun_cons, Option.bind_eq_some_iff] at run
    obtain ⟨v, act, rest⟩ := run
    refine ih ?_ rest
    cases a with
    | plain a =>
      simp only [lateStep] at act
      split at act
      · cases act
      · next late => exact h.plain (by simpa using late) act
    | expire i => exact h.expire act

/-- A dispatcher in use, or what it leaves behind once it was stopped and dropped. -/
inductive Lives (d : Dispatcher Parcel) : World V → Prop
  | during {counter : KeyCounter} {acts : List (Act V)} {w : World V}
      (run : (fresh d counter).run acts = some w) : Lives d w
  | after {counter : KeyCounter} {acts : List (Act V)} {late : List (LateAct V)} {u w : World V}
      (run : (fresh d counter).run acts = some u) (ended : u.Ended)
      (down : u.dispatcher.shutdown = true) (rest : u.lateRun late = some w) : Lives d w

theorem Lives.kept (h : Lives d w) (new : d.Fresh) : w.Kept ∧ w.Accounted := by
  cases h with
  | during run =>
    have reached : Reachable d w.core := reachable_of_run run
    exact ⟨(reached.kept new).of_core, accounted_of_run new run⟩
  | after run ended down rest =>
    have reached := reachable_of_run run
    have parted := Parted.run
      ⟨ended, reached.allSound, (reached.kept new).of_core, accounted_of_run new run⟩ rest
    exact ⟨parted.kept, parted.accounted⟩

/-- Left alone, a queue without a worker is dropped in order. -/
theorem lateRun_expire {l : Lane Parcel} (lane : w.dispatcher.lane? i = some l)
    (gone : l.isFinished = true) :
    ∃ w', w.lateRun (List.replicate l.queue.length (.expire i)) = some w' ∧
      w'.history = w.history ++ l.queue.map .discarded ∧
      w'.dispatcher = w.dispatcher.setLane i { l with queue := [] } := by
  generalize left : l.queue = queue
  induction queue generalizing w l with
  | nil =>
    refine ⟨w, rfl, (List.append_nil _).symm, ?_⟩
    rw [← left]
    exact (Dispatcher.setLane_lane? w.dispatcher i l lane).symm
  | cons p queue ih =>
    let v := (({ w with dispatcher := w.dispatcher.setLane i { l with queue } } : World V).discard
      p).2
    have step : w.expire i = some v := by simp [World.expire, lane, gone, left, v]
    have same := slotsOnly_deliver
      ({ w with dispatcher := w.dispatcher.setLane i { l with queue } }.note (.discarded p))
      p.ticket (.error .cancelled)
    have history : v.history = w.history ++ [.discarded p] := same.history
    have dispatcher : v.dispatcher = w.dispatcher.setLane i { l with queue } := same.dispatcher
    have lane' : v.dispatcher.lane? i = some { l with queue } := by
      rw [dispatcher]
      exact Dispatcher.lane?_setLane_self _ lane
    obtain ⟨w', rest, history', dispatcher'⟩ := ih lane' gone rfl
    refine ⟨w', ?_, ?_, ?_⟩
    · simp [List.replicate_succ, lateStep, step, rest]
    · simp [history', history]
    · simp [dispatcher', dispatcher]

/-! ### What handles tell -/

/-- The task was thrown away and never started. -/
def Unrun (w : World V) (p : Parcel) : Prop :=
  p ∉ starts w.history ∧ (.discarded p ∈ w.history ∨ .dropped p ∈ w.history)

/-- The task ran, and disposing of what it panicked with panicked. -/
def Lost (w : World V) (p : Parcel) : Prop :=
  ∃ lane payload, .ended p lane (.panic payload) ∈ w.history ∧ payload.disposal.isSome

end World

/-- What a handle is to tell of a task that ended so. -/
def Ending.report {V : Type} : Ending V → Outcome V
  | .value v => .ok v
  | .failure message => .error (.failed message)
  | .panic payload => .error (.panicked payload.message)

namespace World

variable {V : Type} {d : Dispatcher Parcel} {w : World V} {p : Parcel}

/-- The task ran to its end, and its handle tells how it ended. -/
def Told (w : World V) (p : Parcel) : Prop :=
  ∃ lane ending, .ended p lane ending ∈ w.history ∧ w.Delivers p.ticket ending.report

/-- The outcome is the report, unless the report is lost. -/
theorem outcome_cases (ending : Ending V) : ending.outcome = ending.report ∨
    ending.outcome = .error .cancelled ∧
      ∃ payload, ending = .panic payload ∧ payload.disposal.isSome := by
  cases ending with
  | value v => exact .inl rfl
  | failure message => exact .inl rfl
  | panic payload =>
    cases disposal : payload.disposal with
    | none => exact .inl (by simp [Ending.outcome, Ending.report, disposal])
    | some next => exact .inr ⟨by simp [Ending.outcome, disposal], payload, rfl, by simp [disposal]⟩

theorem mem_dropped {history : List (Happening V)} :
    p ∈ droppedByCallers history ↔ .dropped p ∈ history := by
  simp only [List.mem_filterMap]
  constructor
  · rintro ⟨e, found, same⟩
    cases e <;> cases same
    exact found
  · exact fun found => ⟨_, found, rfl⟩

theorem Kept.unrun (h : w.Kept) (away : .discarded p ∈ w.history ∨ .dropped p ∈ w.history) :
    w.Unrun p := by
  have le := h.count_starts_le p
  have once := List.nodup_iff_count_le_one.1 h.accepted_nodup p
  refine ⟨fun started => ?_, away⟩
  have started := List.count_pos_iff.2 started
  rcases away with discarded | dropped
  · have discarded := List.count_pos_iff.2 (mem_discarded.2 discarded)
    omega
  · have dropped := List.count_pos_iff.2 (mem_dropped.2 dropped)
    omega

/-- A started task is running or has ended. -/
theorem Kept.running_or_ended (h : w.Kept) (started : p ∈ World.starts w.history) :
    (∃ i, w.At p (.running i)) ∨ ∃ lane ending, .ended p lane ending ∈ w.history := by
  have started := List.count_pos_iff.2 started
  have kept : StartsKept w p := h.starts p
  rw [count_starts, ← h.callers] at started
  simp only [StartsKept] at kept
  rcases Nat.eq_zero_or_pos ((w.dispatcher.lanes.flatMap slotRunning).count p) with idle | busy
  · refine .inr ?_
    have ended : p ∈ finished w.history ∨ p ∈ endedByCallers w.history := by
      rw [← List.count_pos_iff, ← List.count_pos_iff]
      omega
    rcases ended with listed | listed
    all_goals
      obtain ⟨e, there, same⟩ := List.mem_filterMap.1 listed
      cases e with
      | ended q lane ending =>
        cases lane <;> cases same
        exact ⟨_, _, there⟩
      | _ => cases same
  · exact .inl (mem_running.1 (List.count_pos_iff.1 busy))

/--
The handle of an accepted task tells of a cancellation just if the task was thrown away
unstarted, or panicked with something that could not be disposed of quietly. Every other task
that was started tells how it ended, unless it is still running.
-/
theorem cancelled_iff_unrun_or_lost {config : Config} {parallelism : Nat}
    (made : Dispatcher.create config parallelism = .ok d) (life : Lives d w)
    (listed : p ∈ accepted w.history) :
    (w.Delivers p.ticket (.error .cancelled) ↔ w.Unrun p ∨ w.Lost p) ∧
      (p ∈ starts w.history → (∃ i, w.At p (.running i)) ∨ w.Lost p ∨ w.Told p) := by
  obtain ⟨kept, accounted⟩ := life.kept (Dispatcher.fresh_of_create made).1
  have settles : ∀ {e}, e ∈ w.history → settles? e = some p → ∀ {o},
      verdict? e = some (p.ticket, o) → w.Delivers p.ticket o :=
    fun there settles _ verdict => kept.delivers accounted there settles verdict
  refine ⟨⟨fun told => ?_, ?_⟩, fun started => ?_⟩
  · obtain ⟨e, there, verdict⟩ := List.mem_filterMap.1 (accounted.told told)
    have settles := kept.settles listed there verdict
    cases e with
    | ended q lane ending =>
      obtain rfl := Option.some.inj settles
      have cancelled : ending.outcome = .error .cancelled :=
        congrArg Prod.snd (Option.some.inj verdict)
      rcases outcome_cases ending with reported | ⟨-, payload, rfl, traps⟩
      · cases ending <;> cases reported.symm.trans cancelled
      · exact .inr ⟨lane, payload, there, traps⟩
    | discarded q =>
      obtain rfl := Option.some.inj settles
      exact .inl (kept.unrun (.inl there))
    | dropped q =>
      obtain rfl := Option.some.inj settles
      exact .inl (kept.unrun (.inr there))
    | _ => cases settles
  · rintro (⟨-, discarded | dropped⟩ | ⟨lane, payload, ended, traps⟩)
    · exact settles discarded rfl rfl
    · exact settles dropped rfl rfl
    · refine settles ended rfl ?_
      obtain ⟨next, disposal⟩ := Option.isSome_iff_exists.1 traps
      simp [verdict?, Ending.outcome, disposal]
  · refine (kept.running_or_ended started).imp_right ?_
    rintro ⟨lane, ending, ended⟩
    have told := settles ended rfl rfl
    rcases outcome_cases ending with reported | ⟨-, payload, rfl, traps⟩
    · exact .inr ⟨lane, ending, ended, reported ▸ told⟩
    · exact .inl ⟨lane, payload, ended, traps⟩

/-- A task kills its worker, and the one behind it is dropped with the dispatcher. -/
theorem cancelled_iff_unrun_or_lost_left_behind : ∃ (d : Dispatcher Parcel)
    (acts : List (Act Unit)) (u w : World Unit), Dispatcher.create (tiny 1 1) 1 = .ok d ∧
      (fresh d ⟨0⟩).run acts = some u ∧ u.lateRun [.expire 0] = some w ∧
      (Lives d w ∧ ⟨1, 0, 0⟩ ∈ accepted w.history ∧ ⟨1, 0, 1⟩ ∈ accepted w.history) ∧
      w.Lost ⟨1, 0, 0⟩ ∧ w.Delivers 0 (.error .cancelled) ∧
      w.Unrun ⟨1, 0, 1⟩ ∧ w.Delivers 1 (.error .cancelled) := by
  obtain ⟨a₁, a₂, one, two⟩ := run_tiny
  have made : Dispatcher.create (tiny 1 1) 1 = .ok (newborn 1 1) := rfl
  have whole : (((oneWaits a₁).lookedUp 1 0 a₂ []).run
      (List.replicate 3 (Act.advance 1) ++ [Act.receive 0, Act.inspect 0,
        Act.finish 0 (.panic (.doubleTrap "late")), Act.stop .graceful] ++
        List.replicate 8 (Act.advanceStop 0))).bind
        (fun u : World Unit => (u.lateRun [.expire 0]).map fun w =>
          (w.history, u.stops.map (·.report?.isSome), u.submissions.map (·.answer?.isSome),
            u.dispatcher.shutdown)) =
      some ([.resolved 0 1 0, .accepted ⟨1, 0, 0⟩ 0, .resolved 1 1 0, .accepted ⟨1, 0, 1⟩ 0,
        .taken ⟨1, 0, 0⟩ 0, .started ⟨1, 0, 0⟩ (some 0),
        .ended ⟨1, 0, 0⟩ (some 0) (.panic (.doubleTrap "late")), .raised 0 .graceful, .cleared,
        .stopped 0 ⟨[], [.workerExited 0]⟩, .discarded ⟨1, 0, 1⟩], [true], [true, true], true) := by
    cbv
  obtain ⟨u, run, seen⟩ := Option.bind_eq_some_iff.1 whole
  obtain ⟨w, late, seen⟩ := Option.map_eq_some_iff.1 seen
  obtain ⟨history, seen⟩ := Prod.mk.inj seen
  obtain ⟨stops, seen⟩ := Prod.mk.inj seen
  obtain ⟨submissions, down⟩ := Prod.mk.inj seen
  have ended : u.Ended := ended_of_map (by simp [submissions]) (by simp [stops])
  have run := run_of_parts one (run_of_parts two run)
  have life : Lives (newborn 1 1) w := .after run ended down late
  have first : ⟨1, 0, 0⟩ ∈ accepted w.history := by simp [history]
  have second : ⟨1, 0, 1⟩ ∈ accepted w.history := by simp [history]
  have lost : w.Lost ⟨1, 0, 0⟩ := ⟨some 0, .doubleTrap "late", by simp [history], rfl⟩
  have unrun : w.Unrun ⟨1, 0, 1⟩ := by simp [Unrun, history]
  exact ⟨_, _, u, w, made, run, late, ⟨life, first, second⟩, lost,
    (cancelled_iff_unrun_or_lost made life first).1.2 (.inr lost), unrun,
    (cancelled_iff_unrun_or_lost made life second).1.2 (.inl unrun)⟩

/-- A task runs, panics with something that panics when disposed of, and counts as cancelled. -/
theorem started_task_cancelled : ∃ (d : Dispatcher Parcel) (acts : List (Act Unit))
    (w : World Unit), Dispatcher.create (tiny 1 1) 1 = .ok d ∧ (fresh d ⟨0⟩).run acts = some w ∧
      ⟨1, 0, 0⟩ ∈ accepted w.history ∧ .started ⟨1, 0, 0⟩ (some 0) ∈ w.history ∧
      .discarded ⟨1, 0, 0⟩ ∉ w.history ∧ .dropped ⟨1, 0, 0⟩ ∉ w.history ∧
      w.Delivers 0 (.error .cancelled) := by
  obtain ⟨a, -, one, -⟩ := run_tiny
  have made : Dispatcher.create (tiny 1 1) 1 = .ok (newborn 1 1) := rfl
  have whole : ((oneWaits a).run [Act.receive 0, Act.inspect 0,
      Act.finish 0 (.panic (.trap "late"))]).map
        (fun w : World Unit => (w.history, w.slots, w.notices)) =
      some ([.resolved 0 1 0, .accepted ⟨1, 0, 0⟩ 0, .taken ⟨1, 0, 0⟩ 0,
        .started ⟨1, 0, 0⟩ (some 0), .ended ⟨1, 0, 0⟩ (some 0) (.panic (.trap "late"))],
        [.ready (.error .cancelled)], []) := by
    cbv
  obtain ⟨w, run, seen⟩ := Option.map_eq_some_iff.1 whole
  obtain ⟨history, seen⟩ := Prod.mk.inj seen
  obtain ⟨slots, notices⟩ := Prod.mk.inj seen
  have cancelled : w.Delivers 0 (.error .cancelled) := .inl (by simp [slots, notices, deliveries])
  exact ⟨_, _, w, made, run_of_parts one run, by simp [history], by simp [history],
    by simp [history], by simp [history], cancelled⟩

end World

end OrderedLanes
