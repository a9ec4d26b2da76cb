import OrderedLanes.Proofs.Bindings

/-!
Once a stop has begun somebody will close each lane that is there or still comes.
A lane that runs is met by a stop that has not come by its slot, or by a submission
that is going to look at the flag a second time; a lane whose stage was moved is
closed by the party that moved it.
-/

namespace OrderedLanes

namespace Closing

variable {α : Type} {c : Closing α} {l : Lane α}

/-- The stage was moved, and the queue is still to be closed. -/
def Sealing : Closing α → Prop
  | .looking _ | .interrupting _ | .sealing _ _ => True
  | _ => False

theorem Sealing.step (h : c.Sealing) (l : Lane α) :
    (c.step l).1.Sealing ∨ (c.step l).2.accepting = false := by
  cases c with
  | looking kind => cases kind <;> exact .inl trivial
  | interrupting error => exact .inl trivial
  | sealing kind error => cases kind <;> exact .inr rfl
  | marking kind => cases h
  | draining error drained => cases h
  | done report => cases h

/-- Only a party that begins to stop a lane moves the stage of one that runs. -/
theorem sealing_of_stopped (running : l.stage = .running) (stopped : (c.step l).2.stage ≠ .running) :
    (c.step l).1.Sealing := by
  cases c with
  | marking kind =>
    cases kind with
    | graceful =>
      simp only [Closing.step, running, if_true]
      trivial
    | forced =>
      simp only [Closing.step, running]
      trivial
  | looking kind => cases kind <;> exact absurd running stopped
  | interrupting error => exact absurd running stopped
  | sealing kind error => cases kind <;> exact absurd running stopped
  | draining error drained =>
    simp only [Closing.step] at stopped
    split at stopped <;> exact absurd running stopped
  | done report => exact absurd running stopped

theorem stopped_of_marking (kind : StopKind) (l : Lane α) :
    ((marking kind).step l).2.stage ≠ .running := by
  cases kind with
  | graceful =>
    by_cases running : l.stage = .running
    · simp [Closing.step, running, Lane.mark]
    · simp [Closing.step, running]
  | forced => cases stage : l.stage <;> simp [Closing.step, stage, Lane.mark]

end Closing

/-- The stop has still to come by slot `i`. -/
def Stopping.Ahead {α : Type} (i : LaneIndex) : Stopping α → Prop
  | .clearing .forced _ => True
  | .visiting _ j _ => j ≤ i
  | .closing _ j c _ => j < i ∨ j = i ∧ ∃ kind, c = .marking kind
  | _ => False

/-- The submission has still to look at the flag, or saw it up, and then stops lane `i`. -/
def SubmissionPhase.Ahead {α : Type} (i : LaneIndex) : SubmissionPhase α → Prop
  | .rechecking _ j | .choosing j => j = i
  | .retiring j c => j = i ∧ ∃ kind, c = .marking kind
  | _ => False

namespace World

variable {V : Type} {d : Dispatcher Parcel} {w w' : World V} {i : LaneIndex} {l l' : Lane Parcel}

/-- How lane `i` came to be as it is. -/
inductive LaneMove (w w' : World V) (i : LaneIndex) (l' : Lane Parcel) : Prop
  | installed (t : Ticket) (s : Submission Parcel) (stamp : Option Stamp)
      (there : w'.submissions[t]? = some s) (phase : s.phase = .rechecking stamp i)
      (empty : w.dispatcher.lane? i = none) (new : l' = Lane.start i)
  | kept (l : Lane Parcel) (lane : w.dispatcher.lane? i = some l) (stage : l'.stage = l.stage)
      (interrupted : l'.interrupted = l.interrupted) (accepting : l'.accepting = l.accepting)
  | closed (who : Party) (c : Closing Parcel) (l : Lane Parcel)
      (lane : w.dispatcher.lane? i = some l) (before : w.closing? who = some (i, c))
      (after : w'.closing? who = some (i, (c.step l).1)) (step : l' = (c.step l).2)

theorem laneMove_of_setLane {j : LaneIndex} {l₁ : Lane Parcel}
    (lane : w.dispatcher.lane? j = some l) (lanes : w'.dispatcher = w.dispatcher.setLane j l₁)
    (stage : l₁.stage = l.stage) (interrupted : l₁.interrupted = l.interrupted)
    (accepting : l₁.accepting = l.accepting)
    (lane' : w'.dispatcher.lane? i = some l') : LaneMove w w' i l' := by
  rw [lanes] at lane'
  rcases lane_of_setLane lane' with ⟨rfl, rfl⟩ | same
  · exact .kept l lane stage interrupted accepting
  · exact .kept l' same rfl rfl rfl

theorem laneMove_of_closing {who : Party} {j : LaneIndex} {c : Closing Parcel}
    (lane : w.dispatcher.lane? j = some l) (before : w.closing? who = some (j, c))
    (after : w'.closing? who = some (j, (c.step l).1))
    (lanes : w'.dispatcher = w.dispatcher.setLane j (c.step l).2)
    (lane' : w'.dispatcher.lane? i = some l') : LaneMove w w' i l' := by
  rw [lanes] at lane'
  rcases lane_of_setLane lane' with ⟨rfl, rfl⟩ | same
  · exact .closed who c l lane before after rfl
  · exact .kept l' same rfl rfl rfl

theorem Effect.laneMove (e : Effect w w') (sound : AllSound w.submissions)
    (lane' : w'.dispatcher.lane? i = some l') : LaneMove w w' i l' := by
  cases e with
  | install t s stamp j own there phase empty =>
    obtain rfl : own = Lane.start j := (sound t s there).own stamp j own phase
    have after := getElem?_set_there there (s.on (.rechecking stamp j))
    rcases lane_of_setLane lane' with ⟨rfl, new⟩ | same
    · exact .installed t _ stamp after rfl empty new
    · exact .kept l' same rfl rfl rfl
  | accept t s stamp j l there phase lane accepting =>
    exact laneMove_of_setLane lane rfl rfl rfl rfl lane'
  | retire t s j c l there phase lane unfinished =>
    have after := getElem?_set_there there (s.on (.retiring j (c.step l).1))
    exact laneMove_of_closing lane (closing?_submission.2 ⟨s, there, phase⟩)
      (closing?_submission.2 ⟨_, after, rfl⟩) rfl lane'
  | shut n kind j c l report there lane unfinished =>
    have after := getElem?_set_there there (Stopping.closing kind j (c.step l).1 report)
    exact laneMove_of_closing lane (closing?_stop.2 ⟨kind, report, there⟩)
      (closing?_stop.2 ⟨kind, report, after⟩) rfl lane'
  | take j l p queue lane idle next => exact laneMove_of_setLane lane rfl rfl rfl rfl lane'
  | leave j l lane idle empty closed => exact laneMove_of_setLane lane rfl rfl rfl rfl lane'
  | start j l p lane holding free => exact laneMove_of_setLane lane rfl rfl rfl rfl lane'
  | abandon j l p panic lane holding interrupted =>
    exact laneMove_of_setLane lane rfl rfl rfl rfl lane'
  | conclude j l p ending escape lane busy =>
    have flags : (l.conclude escape).stage = l.stage ∧
        (l.conclude escape).interrupted = l.interrupted ∧
        (l.conclude escape).accepting = l.accepting := by
      unfold Lane.conclude
      split <;> exact ⟨rfl, rfl, rfl⟩
    exact laneMove_of_setLane lane rfl flags.1 flags.2.1 flags.2.2 lane'
  | _ => exact .kept l' lane' rfl rfl rfl

/-- While the common flag is down every lane runs and accepts tasks. -/
theorem Reachable.open_of_down (h : Reachable d w) (new : d.Fresh)
    (down : w.dispatcher.shutdown = false) (lane : w.dispatcher.lane? i = some l) :
    l.stage = .running ∧ l.accepting = true := by
  induction h generalizing l with
  | start => exact absurd (lane.symm.trans (new.lanes i)) (by simp)
  | @step w w' before effect ih =>
    have was := effect.running down
    cases effect.laneMove before.allSound lane with
    | installed t s stamp there phase empty new => rw [new]; exact ⟨rfl, rfl⟩
    | kept l₀ lane₀ stage interrupted accepting =>
      rw [stage, accepting]
      exact ih was lane₀
    | closed who c l₀ lane₀ closing after step =>
      have up := (before.flagged new).closing closing
      simp [was] at up

theorem Reachable.running_of_down (h : Reachable d w) (new : d.Fresh)
    (down : w.dispatcher.shutdown = false) (lane : w.dispatcher.lane? i = some l) :
    l.stage = .running := (h.open_of_down new down lane).1

/-! ### Who is going to close a lane -/

/-- A party has still to come by lane `i`. -/
def Awaited (w : World V) (i : LaneIndex) : Prop :=
  (∃ (n : Nat) (s : Stopping Parcel), w.stops[n]? = some s ∧ s.Ahead i) ∨
    ∃ (t : Ticket) (s : Submission Parcel), w.submissions[t]? = some s ∧ s.phase.Ahead i

/-- A party has moved the stage of lane `i` and has still to close its queue. -/
def Underway (w : World V) (i : LaneIndex) : Prop :=
  ∃ who c, w.closing? who = some (i, c) ∧ c.Sealing

/-- The lane is closed, or a party is going to close it. -/
def Tended (w : World V) (i : LaneIndex) (l : Lane Parcel) : Prop :=
  l.accepting = false ∨ l.stage = .running ∧ w.Awaited i ∨ l.stage ≠ .running ∧ w.Underway i

theorem Underway.step (h : w.Underway i) (e : Effect w w') (lane : w.dispatcher.lane? i = some l)
    (lane' : w'.dispatcher.lane? i = some l') : l'.accepting = false ∨ w'.Underway i := by
  obtain ⟨who, c, closing, sealing⟩ := h
  cases e.next closing with
  | same after => exact .inr ⟨who, c, after, sealing⟩
  | step l₀ lane₀ after lane₁ =>
    obtain rfl := Option.some.inj (lane'.symm.trans lane₁)
    exact (sealing.step l₀).symm.imp_right fun next => ⟨who, _, after, next⟩
  | ended report done =>
    subst done
    cases sealing
  | vanished empty => simp [lane] at empty

/-- A stop that has still to come by a lane that runs keeps on its way to it. -/
theorem Effect.ahead_stop {n : Nat} {s : Stopping Parcel} (e : Effect w w')
    (there : w.stops[n]? = some s) (ahead : s.Ahead i) (lane : w.dispatcher.lane? i = some l)
    (lane' : w'.dispatcher.lane? i = some l') (running' : l'.stage = .running) :
    ∃ s', w'.stops[n]? = some s' ∧ s'.Ahead i := by
  have range : i < w.dispatcher.laneCount := Dispatcher.lt_of_lane? lane
  have goes : ∀ {m r r'}, w.stops[m]? = some r → w'.stops = w.stops.set m r' →
      (r.Ahead i → r'.Ahead i) → ∃ s', w'.stops[n]? = some s' ∧ s'.Ahead i := by
    intro m r r' found stops on
    rw [stops]
    by_cases own : m = n
    · subst own
      obtain rfl := Option.some.inj (found.symm.trans there)
      exact ⟨r', getElem?_set_there there _, on ahead⟩
    · exact ⟨s, (List.getElem?_set_ne own).trans there, ahead⟩
  cases e with
  | beginStop kind =>
    exact ⟨s, getElem?_snoc_there there _, ahead⟩
  | stopLook m r r' found looks =>
    refine goes found rfl fun ahead => ?_
    cases looks with
    | visit kind j l report there =>
      rcases Nat.lt_or_eq_of_le (show j ≤ i from ahead) with before | here
      · exact .inl before
      · exact .inr ⟨here, kind, rfl⟩
    | skip kind j report empty =>
      refine Nat.lt_of_le_of_ne ahead ?_
      rintro rfl
      simp [lane] at empty
    | wrapUp j report last => exact absurd (range.trans_le last) (Nat.not_lt_of_le ahead)
    | closed kind j part report =>
      rcases ahead with before | ⟨-, kind', done⟩
      · exact before
      · cases done
    | vanished kind j c report empty =>
      rcases ahead with before | ⟨rfl, -⟩
      · exact before
      · simp [lane] at empty
  | raiseGraceful m found down => exact goes found rfl fun ahead => ahead.elim
  | raiseForced m found down => exact goes found rfl fun ahead => ahead.elim
  | follow m found => exact goes found rfl fun ahead => ahead.elim
  | clear m report found => exact goes found rfl fun _ => Nat.zero_le i
  | clearLast m report found => exact goes found rfl fun ahead => ahead.elim
  | endStop m r report found ends =>
    refine goes found rfl fun ahead => ?_
    cases ends with
    | stopping up => exact ahead
    | forcing up => exact ahead
    | visited j report last => exact absurd (range.trans_le last) (Nat.not_lt_of_le ahead)
  | shut m kind j c l₀ report found lane₀ unfinished =>
    refine goes found rfl fun ahead => ?_
    rcases ahead with before | ⟨rfl, kind', rfl⟩
    · exact .inl before
    · -- The stop moves the stage of this very lane.
      have moved := Dispatcher.lane?_setLane_self ((Closing.marking kind').step l₀).2 lane₀
      obtain rfl := Option.some.inj (lane'.symm.trans moved)
      exact absurd running' (Closing.stopped_of_marking kind' l₀)
  | _ => exact ⟨s, there, ahead⟩

/-- So does a submission that turns back. -/
theorem Effect.ahead_submission {t : Ticket} {s : Submission Parcel} (e : Effect w w')
    (up : w.dispatcher.shutdown = true) (there : w.submissions[t]? = some s)
    (ahead : s.phase.Ahead i) (lane : w.dispatcher.lane? i = some l)
    (lane' : w'.dispatcher.lane? i = some l') (running' : l'.stage = .running) :
    ∃ s', w'.submissions[t]? = some s' ∧ s'.phase.Ahead i := by
  have goes : ∀ {u r phase}, w.submissions[u]? = some r →
      w'.submissions = w.submissions.set u (r.on phase) → (r.phase.Ahead i → phase.Ahead i) →
      ∃ s', w'.submissions[t]? = some s' ∧ s'.phase.Ahead i := by
    intro u r phase found subs on
    rw [subs]
    by_cases own : u = t
    · subst own
      obtain rfl := Option.some.inj (found.symm.trans there)
      exact ⟨_, getElem?_set_there there _, on ahead⟩
    · exact ⟨s, (List.getElem?_set_ne own).trans there, ahead⟩
  -- The other phases that a submission goes on from are not on the way to a lane.
  have off : ∀ {u r phase now}, w.submissions[u]? = some r → r.phase = now → ¬ now.Ahead i →
      w'.submissions = w.submissions.set u (r.on phase) →
      ∃ s', w'.submissions[t]? = some s' ∧ s'.phase.Ahead i := by
    intro u r phase now found at_ away subs
    subst at_
    exact goes found subs fun ahead => absurd ahead away
  cases e with
  | begin key stamped =>
    exact ⟨s, getElem?_snoc_there there _, ahead⟩
  | look u r phase found looks =>
    refine goes found rfl fun ahead => ?_
    generalize r.phase = now at looks ahead
    cases looks with
    | pass stamp j running => simp [running] at up
    | turn stamp j ending => exact ahead
    | choose j kind forced => exact ⟨ahead, kind, rfl⟩
    | _ => exact ahead.elim
  | stamp u r drawn found phase => exact off found phase id rfl
  | lookUp u r stamp found phase => exact off found phase id rfl
  | refuse u r submitted found refused =>
    refine goes found rfl fun ahead => ?_
    generalize r.phase = now at refused ahead
    cases refused with
    | retiring j c empty =>
      obtain ⟨rfl, -⟩ := ahead
      simp [lane] at empty
    | _ => exact ahead.elim
  | install u r stamp j own found phase empty => exact off found phase id rfl
  | accept u r stamp j l₀ found phase lane₀ accepting => exact off found phase id rfl
  | retire u r j c l₀ found phase lane₀ unfinished =>
    refine goes found rfl fun ahead => ?_
    rw [phase] at ahead
    obtain ⟨rfl, kind, rfl⟩ := ahead
    have moved := Dispatcher.lane?_setLane_self ((Closing.marking kind).step l₀).2 lane₀
    obtain rfl := Option.some.inj (lane'.symm.trans moved)
    exact absurd running' (Closing.stopped_of_marking kind l₀)
  | forfeit u r j report found phase =>
    refine goes found rfl fun ahead => ?_
    rw [phase] at ahead
    obtain ⟨-, kind, done⟩ := ahead
    cases done
  | _ => exact ⟨s, there, ahead⟩

theorem Awaited.step (h : w.Awaited i) (e : Effect w w') (up : w.dispatcher.shutdown = true)
    (lane : w.dispatcher.lane? i = some l) (lane' : w'.dispatcher.lane? i = some l')
    (running' : l'.stage = .running) : w'.Awaited i := by
  rcases h with ⟨n, s, there, ahead⟩ | ⟨t, s, there, ahead⟩
  · obtain ⟨s', there', ahead'⟩ := e.ahead_stop there ahead lane lane' running'
    exact .inl ⟨n, s', there', ahead'⟩
  · obtain ⟨s', there', ahead'⟩ := e.ahead_submission up there ahead lane lane' running'
    exact .inr ⟨t, s', there', ahead'⟩

/-- A stop that raises the common flag will come by all slots. -/
theorem Effect.awaited_of_raised (e : Effect w w') (down : w.dispatcher.shutdown = false)
    (up : w'.dispatcher.shutdown = true) (i : LaneIndex) :
    w'.Awaited i ∧ w'.dispatcher.lane? i = w.dispatcher.lane? i := by
  cases e with
  | raiseGraceful n there low =>
    exact ⟨.inl ⟨n, _, getElem?_set_there there _, Nat.zero_le i⟩, rfl⟩
  | follow n there => exact ⟨.inl ⟨n, _, getElem?_set_there there _, trivial⟩, rfl⟩
  | _ => exact absurd (down.symm.trans up) Bool.false_ne_true

/-- Once a stop has begun every lane is closed, or a party is going to close it. -/
theorem Reachable.tended (h : Reachable d w) (new : d.Fresh) (up : w.dispatcher.shutdown = true)
    (lane : w.dispatcher.lane? i = some l) : w.Tended i l := by
  induction h generalizing l with
  | start => exact absurd (new.running.symm.trans up) Bool.false_ne_true
  | @step w w' before effect ih =>
    cases was : w.dispatcher.shutdown with
    | false =>
      obtain ⟨awaited, same⟩ := effect.awaited_of_raised was up i
      exact .inr (.inl ⟨before.running_of_down new was (same ▸ lane), awaited⟩)
    | true =>
      cases effect.laneMove before.allSound lane with
      | installed t s stamp there phase empty new =>
        refine .inr (.inl ⟨by rw [new]; rfl, .inr ⟨t, s, there, ?_⟩⟩)
        rw [phase]
        exact rfl
      | kept l₀ lane₀ stage interrupted accepting =>
        rcases ih was lane₀ with closed | ⟨running, awaited⟩ | ⟨stopped, underway⟩
        · exact .inl (accepting.trans closed)
        · have running' := stage.trans running
          exact .inr (.inl ⟨running', awaited.step effect was lane₀ lane running'⟩)
        · exact (underway.step effect lane₀ lane).imp_right fun next =>
            .inr ⟨stage ▸ stopped, next⟩
      | closed who c l₀ lane₀ closing after step =>
        have grows := c.grows_step l₀
        rw [← step] at grows
        rcases ih was lane₀ with closed | ⟨running, awaited⟩ | ⟨stopped, underway⟩
        · exact .inl (grows.closed closed)
        · by_cases running' : l.stage = .running
          · exact .inr (.inl ⟨running', awaited.step effect was lane₀ lane running'⟩)
          · have sealing := Closing.sealing_of_stopped running (step ▸ running')
            exact .inr (.inr ⟨running', who, _, after, sealing⟩)
        · exact (underway.step effect lane₀ lane).imp_right fun next =>
            .inr ⟨grows.stopped stopped, next⟩

end World

end OrderedLanes
