import OrderedLanes.Proofs.Tracks

/-!
Every call ends. A submission or a stop that is left alone comes to its end, in
whatever state it is, so that from each state the calls under way lead to one in
which none is left and the workers have done nothing more.
-/

namespace OrderedLanes

namespace Closing

variable {α : Type}

theorem ends_of_step {c : Closing α} {l : Lane α}
    (h : ∃ n report l', steps n (c.step l) = (.done report, l')) :
    ∃ n report l', steps n (c, l) = (.done report, l') := by
  obtain ⟨n, report, l', ends⟩ := h
  exact ⟨n + 1, report, l', ends⟩

/-- A party that is left alone comes to the end of stopping a lane. -/
theorem ends (c : Closing α) (l : Lane α) :
    ∃ n report l', steps n (c, l) = (.done report, l') := by
  have drains : ∀ (l : Lane α) error drained,
      ∃ n report l', steps n (.draining error drained, l) = (.done report, l') :=
    fun l error drained => ⟨_, _, _, steps_draining l error drained _ (Nat.lt_succ_self _)⟩
  cases c with
  | marking kind => exact ⟨_, _, _, steps_marking l kind _ (Nat.le_refl _)⟩
  | looking kind =>
    cases kind with
    | graceful => exact ends_of_step (ends_of_step ⟨0, _, _, rfl⟩)
    | forced => exact ends_of_step (ends_of_step (ends_of_step (drains _ _ _)))
  | interrupting error => exact ends_of_step (ends_of_step (drains _ _ _))
  | sealing kind error =>
    cases kind with
    | graceful => exact ends_of_step ⟨0, _, _, rfl⟩
    | forced => exact ends_of_step (drains _ _ _)
  | draining error drained => exact drains l error drained
  | done report => exact ⟨0, report, l, rfl⟩

end Closing

namespace Submission

variable {α : Type} {d : Dispatcher α} {s : Submission α} {key : Key}
  {task : LaneIndex → Option Stamp → α}

/-- Left alone, the submission comes to its end. -/
def Ends (d : Dispatcher α) (s : Submission α) : Prop :=
  ∃ n, (steps n (s, d)).value.1.answer?.isSome

theorem ends_of_step (h : Ends (s.step d).value.2 (s.step d).value.1) : Ends d s := by
  obtain ⟨n, ends⟩ := h
  exact ⟨n + 1, by rw [steps_succ]; exact ends⟩

theorem ends_done (submitted : Submitted α) : Ends d ⟨key, task, .done submitted⟩ := ⟨0, rfl⟩

theorem ends_retiring (i : LaneIndex) (c : Closing α) : Ends d ⟨key, task, .retiring i c⟩ := by
  cases lane : d.lane? i with
  | none =>
    apply ends_of_step
    cases c <;> simp only [step, lane] <;> exact ends_done _
  | some l =>
    obtain ⟨n, report, l', ends⟩ := c.ends l
    induction n generalizing c l d with
    | zero =>
      obtain rfl : c = .done report := congrArg Prod.fst ends
      exact ends_of_step (ends_done _)
    | succ n ih =>
      by_cases finished : ∃ whole, c = .done whole
      · obtain ⟨whole, rfl⟩ := finished
        exact ends_of_step (ends_done _)
      · have next : (step d ⟨key, task, .retiring i c⟩).value =
            (⟨key, task, .retiring i (c.step l).1⟩, d.setLane i (c.step l).2) := by
          cases c <;> simp_all [step, on]
        apply ends_of_step
        rw [next]
        exact ih (c.step l).1 (c.step l).2 (Dispatcher.lane?_setLane_self _ lane) ends

theorem ends_rechecking (stamp : Option Stamp) (i : LaneIndex) :
    Ends d ⟨key, task, .rechecking stamp i⟩ := by
  apply ends_of_step
  cases up : d.shutdown with
  | true =>
    simp only [step, up, if_true]
    exact ends_of_step (ends_retiring _ _)
  | false =>
    simp only [step, up]
    apply ends_of_step
    cases queued : (d.lane? i).bind (Lane.enqueue · (task i stamp)) <;>
      simp [step, on, queued] <;> exact ends_done _

theorem ends_yielding (stamp : Option Stamp) (i : LaneIndex) (own : Lane α) (c : Closing α) :
    Ends d ⟨key, task, .yielding stamp i own c⟩ := by
  obtain ⟨n, report, l', ends⟩ := c.ends own
  induction n generalizing c own with
  | zero =>
    obtain rfl : c = .done report := congrArg Prod.fst ends
    exact ends_of_step (ends_rechecking stamp i)
  | succ n ih =>
    by_cases finished : ∃ whole, c = .done whole
    · obtain ⟨whole, rfl⟩ := finished
      exact ends_of_step (ends_rechecking stamp i)
    · have next : (step d ⟨key, task, .yielding stamp i own c⟩).value =
          (⟨key, task, .yielding stamp i (c.step own).2 (c.step own).1⟩, d) := by
        cases c <;> simp_all [step, on]
      apply ends_of_step
      rw [next]
      exact ih (c.step own).2 (c.step own).1 ends

theorem ends_installing (stamp : Option Stamp) (i : LaneIndex) (own : Lane α) :
    Ends d ⟨key, task, .installing stamp i own⟩ := by
  apply ends_of_step
  cases installed : d.install own with
  | some d' =>
    simp only [step, installed]
    exact ends_rechecking stamp i
  | none =>
    simp only [step, installed]
    exact ends_yielding stamp i own _

theorem ends_starting (stamp : Option Stamp) (i : LaneIndex) :
    Ends d ⟨key, task, .starting stamp i⟩ := by
  apply ends_of_step
  by_cases name : Config.nameable d.config.threadName = true
  · simp only [step, name, if_true]
    exact ends_installing stamp i _
  · simp only [step, name]
    exact ends_done _

theorem ends_seeking (stamp : Option Stamp) (i : LaneIndex) :
    Ends d ⟨key, task, .seeking stamp i⟩ := by
  apply ends_of_step
  cases lane : d.lane? i with
  | some l =>
    simp only [step, lane]
    exact ends_rechecking stamp i
  | none =>
    simp only [step, lane]
    exact ends_starting stamp i

theorem ends_admitting (stamp : Option Stamp) : Ends d ⟨key, task, .admitting stamp⟩ := by
  apply ends_of_step
  cases up : d.shutdown with
  | true =>
    simp only [step, up, if_true]
    exact ends_done _
  | false =>
    simp only [step, up]
    exact ends_of_step (ends_seeking stamp _)

/-- A submission that is left alone comes to its end. -/
theorem ends (s : Submission α) (d : Dispatcher α) : Ends d s := by
  obtain ⟨key, task, phase⟩ := s
  cases phase with
  | entering =>
    apply ends_of_step
    cases up : d.shutdown with
    | true =>
      simp only [step, up, if_true]
      exact ends_done _
    | false =>
      simp only [step, up]
      exact ends_of_step (ends_admitting _)
  | stamping => exact ends_of_step (ends_admitting _)
  | admitting stamp => exact ends_admitting stamp
  | resolving stamp => exact ends_of_step (ends_seeking stamp _)
  | seeking stamp i => exact ends_seeking stamp i
  | starting stamp i => exact ends_starting stamp i
  | installing stamp i own => exact ends_installing stamp i own
  | yielding stamp i own c => exact ends_yielding stamp i own c
  | rechecking stamp i => exact ends_rechecking stamp i
  | choosing i => exact ends_of_step (ends_retiring i _)
  | retiring i c => exact ends_retiring i c
  | queueing stamp i =>
    apply ends_of_step
    cases queued : (d.lane? i).bind (Lane.enqueue · (task i stamp)) <;>
      simp [step, on, queued] <;> exact ends_done _
  | done submitted => exact ends_done submitted

end Submission

namespace Stopping

variable {α : Type} {d : Dispatcher α}

/-- Left alone, the stop comes to its end. -/
def Ends (d : Dispatcher α) (s : Stopping α) : Prop := ∃ n, (steps n (s, d)).1.report?.isSome

theorem ends_of_steps {s : Stopping α} {m : Nat}
    (h : Ends (steps m (s, d)).2 (steps m (s, d)).1) : Ends d s := by
  obtain ⟨n, ends⟩ := h
  exact ⟨m + n, by rw [steps_add]; exact ends⟩

theorem ends_done (report : StopReport α) : Ends d (.done report) := ⟨0, rfl⟩

theorem ends_afterLanes (kind : StopKind) (report : StopReport α) :
    Ends d (afterLanes report kind) := by
  cases kind with
  | graceful => exact ⟨1, rfl⟩
  | forced => exact ends_done report

theorem ends_visiting (kind : StopKind) (i : LaneIndex) (report : StopReport α) :
    Ends d (.visiting kind i report) := by
  rcases Nat.lt_or_ge d.laneCount i with beyond | within
  · have next : steps 1 (.visiting kind i report, d) = (afterLanes report kind, d) := by
      simp [steps, step, Nat.not_lt_of_lt beyond]
    exact ends_of_steps (m := 1) (by rw [next]; exact ends_afterLanes kind report)
  · have split : d.lanes = d.lanes.take i ++ d.lanes.drop i := (List.take_append_drop _ _).symm
    have before : (d.lanes.take i).length = i := List.length_take_of_le within
    obtain ⟨m, visited⟩ := steps_visiting kind (d.lanes.drop i) (d.lanes.take i) report d split
    rw [before] at visited
    exact ends_of_steps (m := m) (by rw [visited]; exact ends_afterLanes kind _)

theorem ends_closing (kind : StopKind) (i : LaneIndex) (c : Closing α) (report : StopReport α) :
    Ends d (.closing kind i c report) := by
  cases lane : d.lane? i with
  | none =>
    have next : ∃ report', steps 1 (.closing kind i c report, d) =
        (.visiting kind (i + 1) report', d) := by
      cases c <;> simp [steps, step, lane]
    obtain ⟨report', next⟩ := next
    exact ends_of_steps (m := 1) (by rw [next]; exact ends_visiting kind _ _)
  | some l =>
    obtain ⟨n, part, l', ends⟩ := c.ends l
    obtain ⟨m, closed⟩ := steps_closing kind i report part l' n c l d (Dispatcher.lt_of_lane? lane)
      lane ends
    exact ends_of_steps (m := m) (by rw [closed]; exact ends_visiting kind _ _)

/-- A stop that is left alone comes to its end. -/
theorem ends (s : Stopping α) (d : Dispatcher α) : Ends d s := by
  have next : ∀ {s : Stopping α} {d : Dispatcher α}, Ends (s.step d).2 (s.step d).1 → Ends d s :=
    fun h => ends_of_steps (m := 1) h
  have following : ∀ d : Dispatcher α, Ends d .following := fun d =>
    next (next (ends_visiting .forced 0 _))
  cases s with
  | raising kind =>
    apply next
    cases kind with
    | graceful =>
      cases up : d.shutdown <;> simp only [step, up]
      · exact ends_visiting .graceful 0 _
      · exact ends_done _
    | forced =>
      cases up : d.shutdownNow <;> simp only [step, up]
      · exact following _
      · exact ends_done _
  | following => exact following d
  | clearing kind report =>
    cases kind with
    | graceful => exact next (ends_done report)
    | forced => exact next (ends_visiting .forced 0 report)
  | visiting kind i report => exact ends_visiting kind i report
  | closing kind i c report => exact ends_closing kind i c report
  | done report => exact ends_done report

end Stopping

/-! ### In the world -/

namespace World

variable {V : Type} {w : World V}

/-- The world without what is seen through handles and told in the history. -/
def machine (w : World V) : World V := { w.core with history := [], returned := [] }

theorem machine_settle (w : World V) (t : Ticket) (own : Option (LaneIndex × Parcel))
    (submitted : Submitted Parcel) : (w.settle t own submitted).machine = w.machine := by
  have delivers : ∀ (w : World V) (t : Ticket) (outcome : Outcome V),
      (w.deliver t outcome).2.machine = w.machine := fun w t outcome => by
    rw [machine, core_deliver]
    rfl
  have spoils : ∀ (ps : List Parcel) (w : World V),
      (w.discardAll ps).2.machine = w.machine := fun ps w => by
    rw [machine, core_discardAll]
    rfl
  have unwinds : ∀ (w : World V) (panic : Option Payload),
      (w.unwind t panic).machine = w.machine := fun w panic => by
    rw [machine, core_unwind]
    rfl
  unfold settle
  split
  · rfl
  · exact (unwinds _ _).trans (delivers _ _ _)
  · exact (unwinds _ _).trans (spoils _ _)

/-- No call is under way. -/
structure Ended (w : World V) : Prop where
  submissions : ∀ (t : Ticket) (s : Submission Parcel), w.submissions[t]? = some s →
    s.answer?.isSome
  stops : ∀ (n : Nat) (s : Stopping Parcel), w.stops[n]? = some s → s.report?.isSome

theorem ended_of_map {w : World V}
    (submissions : ∀ b ∈ w.submissions.map (·.answer?.isSome), b = true)
    (stops : ∀ b ∈ w.stops.map (·.report?.isSome), b = true) : w.Ended :=
  ⟨fun _ _ there => submissions _ (List.mem_map_of_mem (List.mem_of_getElem? there)),
    fun _ _ there => stops _ (List.mem_map_of_mem (List.mem_of_getElem? there))⟩

theorem exists_advance {t : Ticket} {s : Submission Parcel}
    (there : w.submissions[t]? = some s) (unfinished : s.answer? = none) :
    ∃ v, w.advance t = some v ∧ v.dispatcher = (s.step w.dispatcher).value.2 ∧
      v.submissions = w.submissions.set t (s.step w.dispatcher).value.1 ∧ v.stops = w.stops := by
  cases ended : (s.step w.dispatcher).value.1.answer? with
  | none =>
    have act := advance_on there unfinished rfl ended
    exact ⟨_, act, rfl, rfl, rfl⟩
  | some submitted =>
    have act := advance_end there unfinished rfl ended
    have same := machine_settle { w with
      dispatcher := (s.step w.dispatcher).value.2
      submissions := w.submissions.set t (s.step w.dispatcher).value.1
      history := w.history ++ submissionNews w.dispatcher t s (s.step w.dispatcher).value.1
        (s.step w.dispatcher).events } t (queueing? s) submitted
    have stops := congrArg World.stops same
    exact ⟨_, act, congrArg World.dispatcher same, congrArg World.submissions same, stops⟩

/-- What a submission that goes on does to the calls and to the dispatcher. -/
theorem advance_cases {w' : World V} {t : Ticket} (act : w.advance t = some w') :
    ∃ s, w.submissions[t]? = some s ∧ s.answer? = none ∧
      w'.dispatcher = (s.step w.dispatcher).value.2 ∧
      w'.submissions = w.submissions.set t (s.step w.dispatcher).value.1 ∧
      w'.stops = w.stops := by
  obtain ⟨s, there, going⟩ := unfinished_of_advance act
  obtain ⟨v, same, effects⟩ := exists_advance there going
  obtain rfl := Option.some.inj (act.symm.trans same)
  exact ⟨s, there, going, effects⟩

theorem exists_advanceStop {n : Nat} {s : Stopping Parcel} (there : w.stops[n]? = some s)
    (unfinished : s.report? = none) :
    ∃ v, w.advanceStop n = some v ∧ v.dispatcher = (s.step w.dispatcher).2 ∧
      v.stops = w.stops.set n (s.step w.dispatcher).1 ∧ v.submissions = w.submissions := by
  cases ended : (s.step w.dispatcher).1.report? with
  | none =>
    have act := advanceStop_on there unfinished rfl ended rfl
    exact ⟨_, act, rfl, rfl, rfl⟩
  | some report =>
    have step : s.step w.dispatcher = (.done report, (s.step w.dispatcher).2) :=
      Prod.ext (eq_done_of_report ended) rfl
    have act := advanceStop_end there unfinished step rfl
    exact ⟨_, act, rfl, congrArg (w.stops.set n ·.1) step.symm, rfl⟩

/-- What a stop that goes on does to the calls and to the dispatcher. -/
theorem advanceStop_cases {w' : World V} {n : Nat} (act : w.advanceStop n = some w') :
    ∃ s, w.stops[n]? = some s ∧ s.report? = none ∧
      w'.dispatcher = (s.step w.dispatcher).2 ∧
      w'.stops = w.stops.set n (s.step w.dispatcher).1 ∧ w'.submissions = w.submissions := by
  obtain ⟨s, there, going⟩ := unfinished_of_advanceStop act
  obtain ⟨v, same, effects⟩ := exists_advanceStop there going
  obtain rfl := Option.some.inj (act.symm.trans same)
  exact ⟨s, there, going, effects⟩

/-- Only the calls under way act from one state to another. -/
inductive Proceeds (v : World V) : World V → Prop
  | refl : Proceeds v v
  | advance {w w' : World V} {t : Ticket} (before : Proceeds v w)
      (act : w.advance t = some w') : Proceeds v w'
  | advanceStop {w w' : World V} {n : Nat} (before : Proceeds v w)
      (act : w.advanceStop n = some w') : Proceeds v w'

theorem Proceeds.trans {u v w : World V} (first : Proceeds u v) (rest : Proceeds v w) :
    Proceeds u w := by
  induction rest with
  | refl => exact first
  | advance before act ih => exact .advance ih act
  | advanceStop before act ih => exact .advanceStop ih act

theorem Proceeds.later {v w : World V} (h : Proceeds v w) : Later v.core w.core := by
  induction h with
  | refl => exact .refl
  | advance before act ih => exact .step ih (effect_of_advance act)
  | advanceStop before act ih => exact .step ih (effect_of_advanceStop act)

/-- Without a call under way nothing happens. -/
theorem Ended.eq_of_proceeds {v w : World V} (h : v.Ended) (proceeds : Proceeds v w) : w = v := by
  induction proceeds with
  | refl => rfl
  | advance before act ih =>
    subst ih
    obtain ⟨s, there, going⟩ := unfinished_of_advance act
    simpa [going] using h.submissions _ s there
  | advanceStop before act ih =>
    subst ih
    obtain ⟨s, there, going⟩ := unfinished_of_advanceStop act
    simpa [going] using h.stops _ s there

/-- One submission comes to its end, and no other call moves. -/
theorem exists_submission_ended (w : World V) (t : Ticket) : ∃ w', w.Proceeds w' ∧
    (∀ s, w'.submissions[t]? = some s → s.answer?.isSome) ∧
    (∀ u, u ≠ t → w'.submissions[u]? = w.submissions[u]?) ∧ w'.stops = w.stops := by
  cases there : w.submissions[t]? with
  | none => exact ⟨w, .refl, by simp [there], fun _ _ => rfl, rfl⟩
  | some s =>
    obtain ⟨n, ends⟩ := s.ends w.dispatcher
    induction n generalizing w s with
    | zero =>
      refine ⟨w, .refl, fun r found => ?_, fun _ _ => rfl, rfl⟩
      obtain rfl := Option.some.inj (there.symm.trans found)
      exact ends
    | succ n ih =>
      cases unfinished : s.answer? with
      | some submitted =>
        refine ⟨w, .refl, fun r found => ?_, fun _ _ => rfl, rfl⟩
        obtain rfl := Option.some.inj (there.symm.trans found)
        simp [unfinished]
      | none =>
        obtain ⟨v, act, dispatcher, subs, stops⟩ := exists_advance there unfinished
        have there' : v.submissions[t]? = some (s.step w.dispatcher).value.1 := by
          rw [subs]
          exact getElem?_set_there there _
        obtain ⟨w', rest, done, others, stops'⟩ := ih v _ there' (by rw [dispatcher]; exact ends)
        refine ⟨w', .trans (.advance .refl act) rest, done, fun u apart => ?_, stops'.trans stops⟩
        rw [others u apart, subs, List.getElem?_set_ne (Ne.symm apart)]

/-- So does one stop. -/
theorem exists_stop_ended (w : World V) (n : Nat) : ∃ w', w.Proceeds w' ∧
    (∀ s, w'.stops[n]? = some s → s.report?.isSome) ∧
    (∀ m, m ≠ n → w'.stops[m]? = w.stops[m]?) ∧ w'.submissions = w.submissions := by
  cases there : w.stops[n]? with
  | none => exact ⟨w, .refl, by simp [there], fun _ _ => rfl, rfl⟩
  | some s =>
    obtain ⟨k, ends⟩ := s.ends w.dispatcher
    induction k generalizing w s with
    | zero =>
      refine ⟨w, .refl, fun r found => ?_, fun _ _ => rfl, rfl⟩
      obtain rfl := Option.some.inj (there.symm.trans found)
      exact ends
    | succ k ih =>
      cases unfinished : s.report? with
      | some report =>
        refine ⟨w, .refl, fun r found => ?_, fun _ _ => rfl, rfl⟩
        obtain rfl := Option.some.inj (there.symm.trans found)
        simp [unfinished]
      | none =>
        obtain ⟨v, act, dispatcher, stops, subs⟩ := exists_advanceStop there unfinished
        have there' : v.stops[n]? = some (s.step w.dispatcher).1 := by
          rw [stops]
          exact getElem?_set_there there _
        obtain ⟨w', rest, done, others, subs'⟩ := ih v _ there' (by rw [dispatcher]; exact ends)
        refine ⟨w', .trans (.advanceStop .refl act) rest, done, fun m apart => ?_, subs'.trans subs⟩
        rw [others m apart, stops, List.getElem?_set_ne (Ne.symm apart)]

theorem exists_submissions_ended (w : World V) (k : Nat) : ∃ w', w.Proceeds w' ∧
    (∀ t < k, ∀ s, w'.submissions[t]? = some s → s.answer?.isSome) ∧
    (∀ t, k ≤ t → w'.submissions[t]? = w.submissions[t]?) := by
  induction k with
  | zero => exact ⟨w, .refl, fun t before => absurd before (Nat.not_lt_zero t), fun _ _ => rfl⟩
  | succ k ih =>
    obtain ⟨v, first, done, same⟩ := ih
    obtain ⟨w', rest, ended, others, -⟩ := exists_submission_ended v k
    refine ⟨w', first.trans rest, fun t before s there => ?_, fun t after => ?_⟩
    · rcases Nat.lt_succ_iff_lt_or_eq.1 before with earlier | rfl
      · exact done t earlier s ((others t (Nat.ne_of_lt earlier)).symm.trans there)
      · exact ended s there
    · exact (others t (Nat.ne_of_gt after)).trans (same t (Nat.le_of_succ_le after))

theorem exists_stops_ended (w : World V) (k : Nat) : ∃ w', w.Proceeds w' ∧
    (∀ n < k, ∀ s, w'.stops[n]? = some s → s.report?.isSome) ∧
    (∀ n, k ≤ n → w'.stops[n]? = w.stops[n]?) ∧ w'.submissions = w.submissions := by
  induction k with
  | zero =>
    exact ⟨w, .refl, fun n before => absurd before (Nat.not_lt_zero n), fun _ _ => rfl, rfl⟩
  | succ k ih =>
    obtain ⟨v, first, done, same, subs⟩ := ih
    obtain ⟨w', rest, ended, others, subs'⟩ := exists_stop_ended v k
    refine ⟨w', first.trans rest, fun n before s there => ?_, fun n after => ?_, subs'.trans subs⟩
    · rcases Nat.lt_succ_iff_lt_or_eq.1 before with earlier | rfl
      · exact done n earlier s ((others n (Nat.ne_of_lt earlier)).symm.trans there)
      · exact ended s there
    · exact (others n (Nat.ne_of_gt after)).trans (same n (Nat.le_of_succ_le after))

/-- From each state the calls under way can all come to their ends. -/
theorem exists_ended (w : World V) : ∃ w', w.Proceeds w' ∧ w'.Ended := by
  obtain ⟨v, first, answered, rest⟩ := exists_submissions_ended w w.submissions.length
  obtain ⟨w', later, reported, rest', subs⟩ := exists_stops_ended v v.stops.length
  refine ⟨w', first.trans later, fun t s there => ?_, fun n s there => ?_⟩
  · rw [subs] at there
    rcases Nat.lt_or_ge t w.submissions.length with within | beyond
    · exact answered t within s there
    · rw [rest t beyond, List.getElem?_eq_none beyond] at there
      cases there
  · rcases Nat.lt_or_ge n v.stops.length with within | beyond
    · exact reported n within s there
    · rw [rest' n beyond, List.getElem?_eq_none beyond] at there
      cases there

end World

end OrderedLanes
