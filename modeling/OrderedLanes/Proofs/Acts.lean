import Mathlib.Data.List.Induction
import OrderedLanes.Proofs.Effects

/-!
Every act has one of the effects: each access of a submission, of a stop and of a
worker is followed once through its definition. Hence a run goes from one
reachable state to another.
-/

namespace OrderedLanes

namespace World

variable {V : Type}

@[simp] theorem core_notice (w : World V) (n : Notice V) : (w.notice n).core = w.core := rfl

@[simp] theorem core_deliver (w : World V) (t : Ticket) (outcome : Outcome V) :
    (w.deliver t outcome).2.core = w.core := by
  unfold deliver
  split
  · rfl
  · dsimp only
    split <;> rfl

theorem core_discard (w : World V) (p : Parcel) :
    (w.discard p).2.core = { w.core with history := w.history ++ [.discarded p] } :=
  core_deliver _ _ _

theorem core_endTask (w : World V) (p : Parcel) (lane : Option LaneIndex) (ending : Ending V) :
    (w.endTask p lane ending).2.core =
      { w.core with history := w.history ++ [.ended p lane ending] } :=
  core_deliver _ _ _

theorem core_discardAll (w : World V) (ps : List Parcel) :
    (w.discardAll ps).2.core =
      { w.core with history := w.history ++ ps.map .discarded } := by
  induction ps generalizing w with
  | nil => simp [core, discardAll]
  | cons p ps ih =>
    have step : (w.discard p).2.history = w.history ++ [.discarded p] :=
      congrArg World.history (core_discard w p)
    rw [discardAll, ih, core_discard, step]
    simp

@[simp] theorem core_unwind (w : World V) (t : Ticket) (panic : Option Payload) :
    (w.unwind t panic).core = w.core := by
  cases panic <;> rfl

/-- A submission that ends without a task in hand throws its spoils away. -/
theorem core_settle_spoils (w : World V) (t : Ticket) (submitted : Submitted Parcel) :
    (w.settle t none submitted).core =
      { w.core with
        history := w.history ++ .rejected t :: submitted.discarded.map .discarded } := by
  have same : w.settle t none submitted =
      ((w.note (.rejected t)).discardAll submitted.discarded).2.unwind t
        ((w.note (.rejected t)).discardAll submitted.discarded).1 := by
    unfold settle
    split <;> trivial
  rw [same, core_unwind, core_discardAll]
  simp [note, core]

theorem core_settle_refused (w : World V) (t : Ticket) (own : Option (LaneIndex × Parcel))
    (submitted : Submitted Parcel) (refused : ∀ stamp, submitted.answer ≠ .accepted stamp)
    (spoils : own = none → submitted.discarded = []) :
    (w.settle t own submitted).core = { w.core with history := w.history ++ [.rejected t] } := by
  cases own with
  | none => rw [core_settle_spoils, spoils rfl]; rfl
  | some own =>
    have same : w.settle t (some own) submitted =
        ((w.note (.rejected t)).deliver own.2.ticket (.error .cancelled)).2.unwind t
          ((w.note (.rejected t)).deliver own.2.ticket (.error .cancelled)).1 := by
      unfold settle
      split <;> simp_all
    rw [same, core_unwind]
    exact core_deliver _ _ _

section Submissions

variable {w w' : World V} {t : Ticket} {s s' : Submission Parcel} {d : Dispatcher Parcel}

/-- Only a submission that has not ended goes on. -/
theorem unfinished_of_advance (act : w.advance t = some w') :
    ∃ s, w.submissions[t]? = some s ∧ s.answer? = none := by
  cases there : w.submissions[t]? with
  | none => simp [advance, there] at act
  | some s =>
    cases ended : s.answer? with
    | none => exact ⟨s, rfl, ended⟩
    | some submitted => simp [advance, there, ended] at act

/-- An access that a submission goes on from. -/
theorem advance_on (there : w.submissions[t]? = some s) (unfinished : s.answer? = none)
    (step : (s.step w.dispatcher).value = (s', d)) (goes : s'.answer? = none) :
    w.advance t = some
      { w with
        dispatcher := d
        submissions := w.submissions.set t s'
        history := w.history ++
          submissionNews w.dispatcher t s s' (s.step w.dispatcher).events } := by
  simp [advance, there, unfinished, step, goes]

/-- An access that a submission ends with. -/
theorem advance_end {submitted : Submitted Parcel} (there : w.submissions[t]? = some s)
    (unfinished : s.answer? = none) (step : (s.step w.dispatcher).value = (s', d))
    (ends : s'.answer? = some submitted) :
    w.advance t = some
      ({ w with
        dispatcher := d
        submissions := w.submissions.set t s'
        history := w.history ++
          submissionNews w.dispatcher t s s' (s.step w.dispatcher).events }.settle t
            (queueing? s) submitted) := by
  simp [advance, there, unfinished, step, ends]

/-- An access that only looks. -/
theorem effect_of_look {phase : SubmissionPhase Parcel} (h : w.advance t = some w')
    (there : w.submissions[t]? = some s) (unfinished : s.answer? = none)
    (looks : Look w.dispatcher s.phase phase) (goes : (s.on phase).answer? = none)
    (step : (s.step w.dispatcher).value = (s.on phase, w.dispatcher)) :
    Effect w.core w'.core := by
  have quiet : submissionNews (V := V) w.dispatcher t s (s.on phase)
      (s.step w.dispatcher).events = [] := by
    obtain ⟨key, task, now⟩ := s
    cases looks <;> simp_all [submissionNews, Submission.on]
  rw [advance_on there unfinished step goes, quiet, List.append_nil] at h
  obtain rfl := Option.some.inj h
  exact .look t s phase there looks

/-- An access that ends with a refusal. -/
theorem effect_of_refusal (submitted : Submitted Parcel) (h : w.advance t = some w')
    (there : w.submissions[t]? = some s) (unfinished : s.answer? = none)
    (refusal : Refusal w.dispatcher s.phase)
    (refused : ∀ stamp, submitted.answer ≠ .accepted stamp)
    (spoils : queueing? s = none → submitted.discarded = [])
    (step : (s.step w.dispatcher).value = (s.on (.done submitted), w.dispatcher)) :
    Effect w.core w'.core := by
  have quiet : submissionNews (V := V) w.dispatcher t s (s.on (.done submitted))
      (s.step w.dispatcher).events = [] := by
    obtain ⟨key, task, now⟩ := s
    cases refusal with
    | retiring i c empty =>
      cases c with
      | marking kind => cases kind <;> simp [submissionNews, halting, empty]
      | _ => rfl
    | _ => rfl
  rw [advance_end there unfinished step rfl, quiet, List.append_nil] at h
  obtain rfl := Option.some.inj h
  rw [core_settle_refused _ _ _ _ refused spoils]
  exact .refuse t s _ there refusal

theorem effect_of_advance (h : w.advance t = some w') : Effect w.core w'.core := by
  cases there : w.submissions[t]? with
  | none => simp [advance, there] at h
  | some s =>
    obtain ⟨key, task, phase⟩ := s
    cases phase with
    | entering =>
      cases flag : w.dispatcher.shutdown with
      | true =>
        exact effect_of_refusal ⟨.refused (.rejected key), []⟩ h there rfl (.entering flag)
          (by simp) (fun _ => rfl) (by simp [Submission.step, Submission.reject, flag])
      | false =>
        exact effect_of_look h there rfl (.enter flag) rfl (by simp [Submission.step, flag])
    | stamping =>
      have quiet : ∀ s' events, w.history ++ submissionNews w.dispatcher t
          ⟨key, task, .stamping⟩ s' events = w.history := fun _ _ => List.append_nil _
      rw [advance_on there rfl rfl rfl, quiet] at h
      obtain rfl := Option.some.inj h
      exact .stamp t _ (some (w.dispatcher.nextStamp key).1) there rfl
    | admitting stamp =>
      cases flag : w.dispatcher.shutdown with
      | true =>
        exact effect_of_refusal ⟨.refused (.rejected key), []⟩ h there rfl (.admitting stamp flag)
          (by simp) (fun _ => rfl) (by simp [Submission.step, Submission.reject, flag])
      | false =>
        exact effect_of_look h there rfl (.proceed stamp flag) rfl (by simp [Submission.step, flag])
    | resolving stamp =>
      rw [advance_on there rfl rfl rfl] at h
      obtain rfl := Option.some.inj h
      have e := Effect.lookUp (w := w.core) t _ stamp there rfl
      simpa [core, submissionNews, Submission.step, Submission.on] using e
    | seeking stamp i =>
      cases lane : w.dispatcher.lane? i with
      | some l =>
        exact effect_of_look h there rfl (.found stamp i l lane) rfl
          (by simp [Submission.step, lane])
      | none =>
        exact effect_of_look h there rfl (.missed stamp i lane) rfl
          (by simp [Submission.step, lane])
    | starting stamp i =>
      cases name : Config.nameable w.dispatcher.config.threadName with
      | true =>
        exact effect_of_look h there rfl (.spawned stamp i) rfl (by simp [Submission.step, name])
      | false =>
        exact effect_of_refusal ⟨.unnameable, []⟩ h there rfl (.starting stamp i) (by simp)
          (fun _ => rfl) (by simp [Submission.step, name])
    | installing stamp i own =>
      cases lane : w.dispatcher.lane? own.index with
      | some l =>
        exact effect_of_look h there rfl (.preempted stamp i own l lane) rfl
          (by simp [Submission.step, Dispatcher.install, lane])
      | none =>
        have step : (Submission.step w.dispatcher ⟨key, task, .installing stamp i own⟩).value =
            (⟨key, task, .rechecking stamp i⟩, w.dispatcher.setLane own.index own) := by
          simp [Submission.step, Dispatcher.install, lane, Submission.on]
        rw [advance_on there rfl step rfl] at h
        obtain rfl := Option.some.inj h
        have e := Effect.install (w := w.core) t _ stamp i own there rfl lane
        simpa [core, submissionNews, Submission.on] using e
    | yielding stamp i own c =>
      cases c with
      | done report => exact effect_of_look h there rfl (.yielded stamp i own report) rfl rfl
      | _ => exact effect_of_look h there rfl (.yields stamp i own _ _ _) rfl rfl
    | rechecking stamp i =>
      cases flag : w.dispatcher.shutdown with
      | true =>
        exact effect_of_look h there rfl (.turn stamp i flag) rfl (by simp [Submission.step, flag])
      | false =>
        exact effect_of_look h there rfl (.pass stamp i flag) rfl (by simp [Submission.step, flag])
    | choosing i =>
      refine effect_of_look h there rfl (.choose i _ fun forced => ?_) rfl rfl
      by_contra unforced
      simp [unforced] at forced
    | retiring i c =>
      by_cases ended : ∃ report, c = .done report
      · obtain ⟨report, rfl⟩ := ended
        rw [advance_end there rfl rfl rfl] at h
        obtain rfl := Option.some.inj h
        have e := Effect.forfeit (w := w.core) t _ i report there rfl
        change Effect w.core (settle _ t none _).core
        rw [core_settle_spoils]
        simpa [core, submissionNews, halting] using e
      · have unfinished : ∀ report, c ≠ .done report := fun report e => ended ⟨report, e⟩
        cases lane : w.dispatcher.lane? i with
        | some l =>
          have step : (Submission.step w.dispatcher ⟨key, task, .retiring i c⟩).value =
              (⟨key, task, .retiring i (c.step l).1⟩, w.dispatcher.setLane i (c.step l).2) := by
            cases c <;> simp_all [Submission.step, Submission.on]
          rw [advance_on there rfl step rfl] at h
          obtain rfl := Option.some.inj h
          exact Effect.retire (w := w.core) t _ i c l there rfl lane unfinished
        | none =>
          refine effect_of_refusal ⟨.refused (.rejected key), []⟩ h there rfl
            (.retiring i c lane) (by simp) (fun _ => rfl) ?_
          cases c <;> simp_all [Submission.step, Submission.reject]
    | queueing stamp i =>
      cases lane : w.dispatcher.lane? i with
      | none =>
        exact effect_of_refusal ⟨.refused (.rejected key), [task i stamp]⟩ h there rfl
          (.queueing stamp i) (by simp) (by simp [queueing?])
          (by simp [Submission.step, Submission.reject, lane])
      | some l =>
        cases accepting : l.accepting with
        | false =>
          exact effect_of_refusal ⟨.refused (.rejected key), [task i stamp]⟩ h there rfl
            (.queueing stamp i) (by simp) (by simp [queueing?])
            (by simp [Submission.step, Submission.reject, lane, accepting])
        | true =>
          have step : (Submission.step w.dispatcher ⟨key, task, .queueing stamp i⟩).value =
              (⟨key, task, .done ⟨.accepted stamp, []⟩⟩,
                w.dispatcher.setLane i { l with queue := l.queue ++ [task i stamp] }) := by
            simp [Submission.step, lane, accepting, Submission.on]
          rw [advance_end there rfl step rfl] at h
          obtain rfl := Option.some.inj h
          have e := Effect.accept (w := w.core) t _ stamp i l there rfl lane accepting
          simpa [core, submissionNews, settle, queueing?, note, Submission.on] using e
    | done submitted => simp [advance, there, Submission.answer?] at h

end Submissions

/-- Only a submission that is about to start a lane of its own finds no thread, and ends with it. -/
theorem refuseThread_cases {w w' : World V} {t : Ticket} {source : String}
    (act : w.refuseThread t source = some w') :
    ∃ s stamp i, w.submissions[t]? = some s ∧ s.phase = .starting stamp i ∧
      w' = { w with
        submissions :=
          w.submissions.set t (s.on (.done ⟨.refused (.laneSpawn i source), []⟩)) }.note
            (.rejected t) := by
  simp only [refuseThread, Option.bind_eq_bind, Option.bind_eq_some_iff] at act
  obtain ⟨s, there, s', fails, act⟩ := act
  obtain rfl := Option.some.inj act
  cases phase : s.phase with
  | starting stamp i =>
    simp only [Submission.failStart, phase, Option.ite_none_right_eq_some,
      Option.some.injEq] at fails
    obtain ⟨-, rfl⟩ := fails
    exact ⟨s, stamp, i, there, phase, rfl⟩
  | _ => simp [Submission.failStart, phase] at fails

theorem effect_of_refuseThread {w w' : World V} {t : Ticket} {source : String}
    (act : w.refuseThread t source = some w') : Effect w.core w'.core := by
  obtain ⟨s, stamp, i, there, phase, rfl⟩ := refuseThread_cases act
  exact .refuse t s _ there (phase ▸ .starting stamp i)

section Stops

variable {w w' : World V} {n : Nat} {s s' : Stopping Parcel} {d : Dispatcher Parcel}

theorem eq_done_of_report {report : StopReport Parcel} (ends : s.report? = some report) :
    s = .done report := by
  cases s <;> cases ends
  rfl

/-- Only a stop that has not ended goes on. -/
theorem unfinished_of_advanceStop (act : w.advanceStop n = some w') :
    ∃ s, w.stops[n]? = some s ∧ s.report? = none := by
  cases there : w.stops[n]? with
  | none => simp [advanceStop, there] at act
  | some s =>
    cases ended : s.report? with
    | none => exact ⟨s, rfl, ended⟩
    | some report => simp [advanceStop, there, ended] at act

/-- An access that a stop goes on from. -/
theorem advanceStop_on {news : List (Happening V)} (there : w.stops[n]? = some s)
    (unfinished : s.report? = none) (step : s.step w.dispatcher = (s', d))
    (goes : s'.report? = none) (noted : stopNews w.dispatcher n s = news) :
    w.advanceStop n = some
      { w with
        dispatcher := d, stops := w.stops.set n s', history := w.history ++ news } := by
  simp [advanceStop, there, unfinished, step, goes, noted]

/-- An access that a stop ends with. -/
theorem advanceStop_end {news : List (Happening V)} {report : StopReport Parcel}
    (there : w.stops[n]? = some s) (unfinished : s.report? = none)
    (step : s.step w.dispatcher = (.done report, d)) (noted : stopNews w.dispatcher n s = news) :
    w.advanceStop n = some
      { w with
        dispatcher := d
        stops := w.stops.set n (.done report)
        returned := w.returned ++ report.pending
        history := w.history ++ news ++ [.stopped n report] } := by
  have ends : (Stopping.done report).report? = some report := rfl
  simp [advanceStop, there, unfinished, step, ends, noted, settleStop, note]

/-- An access of a stop that only looks. -/
theorem effect_of_stopLook (h : w.advanceStop n = some w') (there : w.stops[n]? = some s)
    (unfinished : s.report? = none) (looks : StopLook w.dispatcher s s')
    (goes : s'.report? = none) (step : s.step w.dispatcher = (s', w.dispatcher)) :
    Effect w.core w'.core := by
  have quiet : stopNews (V := V) w.dispatcher n s = [] := by
    cases looks with
    | closed => rfl
    | vanished kind i c report empty =>
      cases c with
      | marking kind => cases kind <;> simp [stopNews, halting, empty]
      | _ => rfl
    | _ => rfl
  rw [advanceStop_on there unfinished step goes quiet, List.append_nil] at h
  obtain rfl := Option.some.inj h
  exact .stopLook n s s' there looks

/-- An access that a stop ends with. -/
theorem effect_of_stopEnd {report : StopReport Parcel} (h : w.advanceStop n = some w')
    (there : w.stops[n]? = some s) (unfinished : s.report? = none)
    (ends : StopEnd w.dispatcher s report)
    (step : s.step w.dispatcher = (.done report, w.dispatcher)) : Effect w.core w'.core := by
  have quiet : stopNews (V := V) w.dispatcher n s = [] := by
    cases ends <;> simp [stopNews, *]
  rw [advanceStop_end there unfinished step quiet, List.append_nil] at h
  obtain rfl := Option.some.inj h
  exact .endStop n s report there ends

theorem effect_of_advanceStop (h : w.advanceStop n = some w') : Effect w.core w'.core := by
  cases there : w.stops[n]? with
  | none => simp [advanceStop, there] at h
  | some s =>
    cases s with
    | raising kind =>
      cases kind with
      | graceful =>
        cases flag : w.dispatcher.shutdown with
        | true =>
          exact effect_of_stopEnd h there rfl (.stopping flag) (by simp [Stopping.step, flag])
        | false =>
          have step : (Stopping.raising .graceful).step w.dispatcher =
              (.visiting .graceful 0 .empty, { w.dispatcher with shutdown := true }) := by
            simp [Stopping.step, flag]
          have noted : stopNews (V := V) w.dispatcher n (.raising .graceful) =
              [.raised n .graceful] := by
            simp [stopNews, flag]
          rw [advanceStop_on there rfl step rfl noted] at h
          obtain rfl := Option.some.inj h
          exact .raiseGraceful n there flag
      | forced =>
        cases flag : w.dispatcher.shutdownNow with
        | true =>
          exact effect_of_stopEnd h there rfl (.forcing flag) (by simp [Stopping.step, flag])
        | false =>
          have step : (Stopping.raising .forced).step w.dispatcher =
              (.following, { w.dispatcher with shutdownNow := true }) := by
            simp [Stopping.step, flag]
          have noted : stopNews (V := V) w.dispatcher n (.raising .forced) =
              [.raised n .forced] := by
            simp [stopNews, flag]
          rw [advanceStop_on there rfl step rfl noted] at h
          obtain rfl := Option.some.inj h
          exact .raiseForced n there flag
    | following =>
      have quiet : stopNews (V := V) w.dispatcher n .following = [] := rfl
      rw [advanceStop_on there rfl rfl rfl quiet, List.append_nil] at h
      obtain rfl := Option.some.inj h
      exact .follow n there
    | clearing kind report =>
      cases kind with
      | graceful =>
        rw [advanceStop_end there rfl rfl rfl, List.append_assoc] at h
        obtain rfl := Option.some.inj h
        exact .clearLast n report there
      | forced =>
        rw [advanceStop_on there rfl rfl rfl rfl] at h
        obtain rfl := Option.some.inj h
        exact .clear n report there
    | visiting kind i report =>
      by_cases bound : i < w.dispatcher.laneCount
      · cases lane : w.dispatcher.lane? i with
        | some l =>
          exact effect_of_stopLook h there rfl (.visit kind i l report lane) rfl
            (by simp [Stopping.step, bound, lane])
        | none =>
          exact effect_of_stopLook h there rfl (.skip kind i report lane) rfl
            (by simp [Stopping.step, bound, lane])
      · have last : w.dispatcher.laneCount ≤ i := Nat.le_of_not_lt bound
        cases kind with
        | graceful =>
          exact effect_of_stopLook h there rfl (.wrapUp i report last) rfl
            (by simp [Stopping.step, bound, Stopping.afterLanes])
        | forced =>
          exact effect_of_stopEnd h there rfl (.visited i report last)
            (by simp [Stopping.step, bound, Stopping.afterLanes])
    | closing kind i c report =>
      by_cases ended : ∃ part, c = .done part
      · obtain ⟨part, rfl⟩ := ended
        exact effect_of_stopLook h there rfl (.closed kind i part report) rfl rfl
      · have unfinished : ∀ part, c ≠ .done part := fun part e => ended ⟨part, e⟩
        cases lane : w.dispatcher.lane? i with
        | some l =>
          have step : (Stopping.closing kind i c report).step w.dispatcher =
              (.closing kind i (c.step l).1 report, w.dispatcher.setLane i (c.step l).2) := by
            cases c <;> simp_all [Stopping.step]
          rw [advanceStop_on there rfl step rfl rfl] at h
          obtain rfl := Option.some.inj h
          exact .shut n kind i c l report there lane unfinished
        | none =>
          refine effect_of_stopLook h there rfl (.vanished kind i c report lane) rfl ?_
          cases c <;> simp_all [Stopping.step]
    | done report => simp [advanceStop, there, Stopping.report?] at h

end Stops

section Workers

variable {w w' : World V} {i : LaneIndex}

theorem core_setLane (w : World V) (i : LaneIndex) (l : Lane Parcel) :
    { w with dispatcher := w.dispatcher.setLane i l }.core =
      { w.core with dispatcher := w.core.dispatcher.setLane i l } := rfl

/-- A worker without a task takes the first of its queue, or leaves a closed lane that is empty. -/
theorem receive_cases (act : w.receive i = some w') :
    ∃ l, w.dispatcher.lane? i = some l ∧ l.worker = .idle ∧
      ((∃ p queue, l.queue = p :: queue ∧ w' = { w with
          dispatcher := w.dispatcher.setLane i { l with queue, worker := .holding p } }.note
            (.taken p i)) ∨
        l.queue = [] ∧ l.accepting = false ∧
          w' = { w with dispatcher := w.dispatcher.setLane i (l.leave none) }) := by
  simp only [receive, Option.bind_eq_bind, Option.bind_eq_some_iff] at act
  obtain ⟨l, lane, l', received, act⟩ := act
  refine ⟨l, lane, ?_⟩
  cases idle : l.worker with
  | idle =>
    cases next : l.queue with
    | cons p queue =>
      obtain rfl : { l with queue, worker := .holding p } = l' := by
        simpa [Lane.receive, idle, next] using received
      exact ⟨rfl, .inl ⟨p, queue, rfl, (Option.some.inj act).symm⟩⟩
    | nil =>
      cases closed : l.accepting with
      | true => simp [Lane.receive, idle, next, closed] at received
      | false =>
        obtain rfl : l.leave none = l' := by
          simpa [Lane.receive, Lane.leave, idle, next, closed] using received
        exact ⟨rfl, .inr ⟨rfl, rfl, (Option.some.inj act).symm⟩⟩
  | _ => simp [Lane.receive, idle] at received

/-- A worker starts the task that it took, or throws it away and leaves the interrupted lane. -/
theorem inspect_cases (act : w.inspect i = some w') :
    ∃ l p, w.dispatcher.lane? i = some l ∧ l.worker = .holding p ∧
      (l.interrupted = false ∧ w' = { w with
          dispatcher := w.dispatcher.setLane i { l with worker := .busy p } }.note
            (.started p (some i)) ∨
        l.interrupted = true ∧ w' = { (w.discard p).2 with
          dispatcher := (w.discard p).2.dispatcher.setLane i (l.leave (w.discard p).1) }) := by
  simp only [inspect, Option.bind_eq_bind, Option.bind_eq_some_iff] at act
  obtain ⟨l, lane, x, inspected, act⟩ := act
  cases holding : l.worker with
  | holding p =>
    cases interrupted : l.interrupted with
    | true =>
      obtain rfl : (.abandon p, l.leave none) = x := by
        simpa [Lane.inspect, holding, interrupted] using inspected
      exact ⟨l, p, lane, holding, .inr ⟨interrupted, (Option.some.inj act).symm⟩⟩
    | false =>
      obtain rfl : (.run p, { l with worker := .busy p }) = x := by
        simpa [Lane.inspect, holding, interrupted] using inspected
      exact ⟨l, p, lane, holding, .inl ⟨interrupted, (Option.some.inj act).symm⟩⟩
  | _ => simp [Lane.inspect, holding] at inspected

/-- A task ends that a worker is running. -/
theorem finish_cases {ending : Ending V} (act : w.finish i ending = some w') :
    ∃ l p, w.dispatcher.lane? i = some l ∧ l.worker = .busy p ∧
      w' = { (w.endTask p (some i) ending).2 with
        dispatcher := (w.endTask p (some i) ending).2.dispatcher.setLane i
          (l.conclude (w.endTask p (some i) ending).1) } := by
  simp only [finish, Option.bind_eq_bind, Option.bind_eq_some_iff] at act
  obtain ⟨l, lane, act⟩ := act
  split at act
  · next p busy => exact ⟨l, p, lane, busy, (Option.some.inj act).symm⟩
  · cases act

theorem effect_of_receive (act : w.receive i = some w') : Effect w.core w'.core := by
  obtain ⟨l, lane, idle, ⟨p, queue, next, rfl⟩ | ⟨empty, closed, rfl⟩⟩ := receive_cases act
  · exact .take i l p queue lane idle next
  · exact .leave i l lane idle empty closed

theorem effect_of_inspect (act : w.inspect i = some w') : Effect w.core w'.core := by
  obtain ⟨l, p, lane, holding, ⟨free, rfl⟩ | ⟨interrupted, rfl⟩⟩ := inspect_cases act
  · exact .start i l p lane holding free
  · rw [core_setLane, core_discard]
    exact .abandon i l p _ lane holding interrupted

theorem effect_of_finish {ending : Ending V} (act : w.finish i ending = some w') :
    Effect w.core w'.core := by
  obtain ⟨l, p, lane, busy, rfl⟩ := finish_cases act
  rw [core_setLane, core_endTask]
  exact .conclude i l p ending _ lane busy

end Workers

section Callers

variable {w w' : World V} {t : Ticket}

/-- A task that came back is used up. -/
theorem useReturned_cases {x : Parcel × World V} (used : w.useReturned t = some x) :
    ∃ p ∈ w.returned, x = (p, { w with returned := w.returned.erase p }) := by
  simp only [useReturned, Option.bind_eq_bind, Option.bind_eq_some_iff] at used
  obtain ⟨p, found, used⟩ := used
  exact ⟨p, List.mem_of_find?_eq_some found, (Option.some.inj used).symm⟩

theorem runReturned_cases {ending : Ending V} (act : w.step (.runReturned t ending) = some w') :
    ∃ p ∈ w.returned, w' = (({ w with returned := w.returned.erase p }.note
      (.started p none)).endTask p none ending).2 := by
  obtain ⟨x, used, act⟩ := Option.bind_eq_some_iff.1 act
  obtain ⟨p, there, rfl⟩ := useReturned_cases used
  exact ⟨p, there, (Option.some.inj act).symm⟩

theorem dropReturned_cases (act : w.step (.dropReturned t) = some w') :
    ∃ p ∈ w.returned, w' = (({ w with returned := w.returned.erase p }.note
      (.dropped p)).deliver p.ticket (.error .cancelled)).2 := by
  obtain ⟨x, used, act⟩ := Option.bind_eq_some_iff.1 act
  obtain ⟨p, there, rfl⟩ := useReturned_cases used
  exact ⟨p, there, (Option.some.inj act).symm⟩

/-- Who polls leaves the slot as the poll does, and takes the outcome if there is one. -/
theorem poll_cases {waker : Waker} (act : w.step (.poll t waker) = some w') :
    ∃ slot, w.slots[t]? = some slot ∧
      ((∃ o, (slot.poll waker).1 = .ready o ∧ w' =
          { w with slots := w.slots.set t (slot.poll waker).2 }.notice (.delivered t o)) ∨
        (∀ o, (slot.poll waker).1 ≠ .ready o) ∧
          w' = { w with slots := w.slots.set t (slot.poll waker).2 }) := by
  simp only [step, Option.bind_eq_bind, Option.bind_eq_some_iff] at act
  obtain ⟨slot, there, act⟩ := act
  refine ⟨slot, there, ?_⟩
  split at act
  · next o ready => exact .inl ⟨o, ready, (Option.some.inj act).symm⟩
  · next other => exact .inr ⟨other, (Option.some.inj act).symm⟩

/-- Who asks without a waker gets the outcome if it is there. -/
theorem take_cases (act : w.step (.take t) = some w') :
    ∃ slot, w.slots[t]? = some slot ∧
      ((∃ o, slot.take.1 = some o ∧ w' =
          { w with slots := w.slots.set t slot.take.2 }.notice (.delivered t o)) ∨
        slot.take.1 = none ∧ w' = { w with slots := w.slots.set t slot.take.2 }) := by
  simp only [step, Option.bind_eq_bind, Option.bind_eq_some_iff] at act
  obtain ⟨slot, there, act⟩ := act
  refine ⟨slot, there, ?_⟩
  split at act
  · next o ready => exact .inl ⟨o, ready, (Option.some.inj act).symm⟩
  · next none => exact .inr ⟨none, (Option.some.inj act).symm⟩

end Callers

/-- What an act does, the handles apart, is one of the effects. -/
theorem effect_of_step {w w' : World V} {a : Act V} (h : w.step a = some w') :
    Effect w.core w'.core := by
  cases a with
  | submit key stamped =>
    obtain rfl := Option.some.inj h
    exact .begin key stamped
  | submitUnordered =>
    obtain rfl := Option.some.inj h
    exact .begin w.counter.draw.1 false
  | stop kind =>
    obtain rfl := Option.some.inj h
    exact .beginStop kind
  | drawStamp key =>
    obtain rfl := Option.some.inj h
    exact .drawStamp key
  | advance t => exact effect_of_advance h
  | refuseThread t source => exact effect_of_refuseThread h
  | advanceStop n => exact effect_of_advanceStop h
  | receive i => exact effect_of_receive h
  | inspect i => exact effect_of_inspect h
  | finish i ending => exact effect_of_finish h
  | runReturned t ending =>
    obtain ⟨p, there, rfl⟩ := runReturned_cases h
    have e := Effect.runReturned (w := w.core) p ending there
    rw [core_endTask]
    simpa [core, note] using e
  | dropReturned t =>
    obtain ⟨p, there, rfl⟩ := dropReturned_cases h
    rw [core_deliver]
    exact .dropReturned p there
  | poll t waker =>
    obtain ⟨slot, there, ⟨o, ready, rfl⟩ | ⟨other, rfl⟩⟩ := poll_cases h <;> exact .rest
  | take t =>
    obtain ⟨slot, there, ⟨o, ready, rfl⟩ | ⟨none, rfl⟩⟩ := take_cases h <;> exact .rest

/-! ### Runs -/

theorem run_snoc (w : World V) (acts : List (Act V)) (a : Act V) :
    w.run (acts ++ [a]) = (w.run acts).bind (World.step · a) := by
  rw [run_append]
  congr 1
  funext v
  rw [run_cons]
  simp

/-- What holds at the start of a run and is kept by each of its acts holds at its end. -/
theorem run_induction {v : World V} {P : List (Act V) → World V → Prop} (start : P [] v)
    (keep : ∀ {acts w a w'}, v.run acts = some w → P acts w → w.step a = some w' →
      P (acts ++ [a]) w')
    {acts : List (Act V)} {w : World V} (run : v.run acts = some w) : P acts w := by
  induction acts using List.reverseRecOn generalizing w with
  | nil =>
    obtain rfl := Option.some.inj run
    exact start
  | append_singleton acts a ih =>
    rw [run_snoc, Option.bind_eq_some_iff] at run
    obtain ⟨u, before, act⟩ := run
    exact keep before (ih before) act

theorem later_of_run {v w : World V} {acts : List (Act V)} (run : v.run acts = some w) :
    Later v.core w.core :=
  run_induction (P := fun _ w => Later v.core w.core) .refl
    (fun _ before act => .step before (effect_of_step act)) run

theorem reachable_of_run {d : Dispatcher Parcel} {counter : KeyCounter} {acts : List (Act V)}
    {w : World V} (run : (fresh d counter).run acts = some w) : Reachable d w.core :=
  (later_of_run run).reachable .start

end World

end OrderedLanes
