import OrderedLanes.Proofs.Custody

/-!
A lane is halted by one party only, and that party takes back what waits there.
From then on the lane is either in the hands of that party or closed and empty.
-/

namespace OrderedLanes

namespace Closing

variable {α : Type}

/-- On the way from halting a lane to having drained it. -/
def Halting : Closing α → Prop
  | .looking .forced | .interrupting _ | .sealing .forced _ | .draining _ _ => True
  | _ => False

/-- Halted the lane: on the way to drain it, or having tasks from it. -/
def Owns (c : Closing α) : Prop := c.Halting ∨ c.gathered ≠ []

theorem owns_step {c : Closing α} {l : Lane α} (h : (c.step l).1.Owns) :
    c.Owns ∨ c = .marking .forced ∧ l.stage ≠ .halted := by
  cases c with
  | marking kind =>
    right
    cases kind with
    | graceful =>
      by_cases stage : l.stage = .running <;>
        simp [step, stage, Owns, Halting, gathered, StopReport.empty] at h
    | forced =>
      refine ⟨rfl, ?_⟩
      intro stage
      simp [step, stage, Owns, Halting, gathered, StopReport.empty] at h
  | looking kind =>
    cases kind with
    | graceful => simp [step, Owns, Halting, gathered] at h
    | forced => exact .inl (.inl trivial)
  | interrupting error => exact .inl (.inl trivial)
  | sealing kind error =>
    cases kind with
    | graceful => simp [step, Owns, Halting, gathered] at h
    | forced => exact .inl (.inl trivial)
  | draining error drained => exact .inl (.inl trivial)
  | done report => exact .inl h

/-- Whoever is on the way goes on, or has just found the queue empty. -/
theorem halting_step {c : Closing α} {l : Lane α} (h : c.Halting) :
    (c.step l).1.Halting ∨ ∃ error drained, c = .draining error drained ∧ l.queue = [] ∧
      (c.step l).2 = l := by
  cases c with
  | marking kind => cases h
  | looking kind =>
    cases kind with
    | graceful => cases h
    | forced => exact .inl trivial
  | interrupting error => exact .inl trivial
  | sealing kind error =>
    cases kind with
    | graceful => cases h
    | forced => exact .inl trivial
  | draining error drained =>
    cases next : l.queue with
    | nil => exact .inr ⟨error, drained, rfl, rfl, by simp only [step, next]⟩
    | cons p queue => left; simp only [step, next]; trivial
  | done report => cases h

theorem stage_step {c : Closing α} {l : Lane α} (h : (c.step l).2.stage = .halted)
    (other : c ≠ .marking .forced ∨ l.stage = .halted) : l.stage = .halted := by
  rcases other with other | halted
  · cases c with
    | marking kind =>
      cases kind with
      | graceful =>
        by_cases stage : l.stage = .running
        · simp [step, stage, Lane.mark] at h
        · simpa [step, stage] using h
      | forced => exact absurd rfl other
    | looking kind => cases kind <;> exact h
    | interrupting error => exact h
    | sealing kind error => cases kind <;> exact h
    | draining error drained =>
      cases next : l.queue <;> simpa [step, next] using h
    | done report => exact h
  · exact halted

/-- The first to halt a lane is on the way to drain it. -/
theorem halting_marking {l : Lane α} (awake : l.stage ≠ .halted) :
    ((marking .forced).step l).1.Halting ∧ ((marking .forced).step l).2.stage = .halted := by
  cases stage : l.stage with
  | running => simp only [step, stage]; exact ⟨trivial, rfl⟩
  | draining => simp only [step, stage]; exact ⟨trivial, rfl⟩
  | halted => exact absurd stage awake

end Closing

/-- Nothing comes to a lane that is closed and empty. -/
theorem Track.Step.stays_empty {i : LaneIndex} {closes : Closing Parcel → Prop} {x y : Track}
    {l l' : Lane Parcel} (step : Track.Step i closes x y) (lane : x.lane = some l)
    (lane' : y.lane = some l') (closed : l.accepting = false) (empty : l.queue = []) :
    l'.queue = [] := by
  cases step with
  | install => cases lane
  | accept l₀ p a t m accepting here =>
    obtain rfl := Option.some.inj lane
    simp [closed] at accepting
  | close l₀ c a t m under =>
    obtain rfl := Option.some.inj lane
    obtain rfl := Option.some.inj lane'
    rcases c.queue_step l₀ with queue | ⟨error, drained, p, -, -, queue⟩
    · rw [queue, empty]
    · simp [empty] at queue
  | take l₀ p queue a t m idle next =>
    obtain rfl := Option.some.inj lane
    simp [empty] at next
  | conclude l₀ p escape a t m busy =>
    obtain rfl := Option.some.inj lane
    obtain rfl := Option.some.inj lane'
    unfold Lane.conclude
    split <;> exact empty
  | _ =>
    obtain rfl := Option.some.inj lane
    obtain rfl := Option.some.inj lane'
    exact empty

namespace World

variable {V : Type} {d : Dispatcher Parcel} {w w' : World V} {i : LaneIndex}

/-- Those who halted a lane. -/
abbrev haltsOn (history : List (Happening V)) (lane : LaneIndex) : List Party :=
  history.filterMap fun
    | .halted l who => if l = lane then some who else none
    | _ => none

theorem haltsOn_append (history news : List (Happening V)) (i : LaneIndex) :
    haltsOn (history ++ news) i = haltsOn history i ++ haltsOn news i :=
  List.filterMap_append

/-- What an act does to the stage of a lane. -/
inductive HaltMove (w w' : World V) (i : LaneIndex) : Prop
  | rest (halts : haltsOn w'.history i = haltsOn w.history i)
      (stage : ∀ l', w'.dispatcher.lane? i = some l' → l'.stage = .halted →
        ∃ l, w.dispatcher.lane? i = some l ∧ l.stage = .halted)
  | halt (who : Party) (l : Lane Parcel) (lane : w.dispatcher.lane? i = some l)
      (awake : l.stage ≠ .halted) (before : w.closing? who = some (i, .marking .forced))
      (halts : haltsOn w'.history i = haltsOn w.history i ++ [who])
      (after : w'.closing? who = some (i, ((Closing.marking .forced).step l).1))
      (lane' : w'.dispatcher.lane? i = some ((Closing.marking .forced).step l).2)

theorem halting_eq (d : Dispatcher Parcel) (who : Party) {i : LaneIndex} {l : Lane Parcel}
    (lane : d.lane? i = some l) (c : Closing Parcel) :
    halting (V := V) d who i c = [.halted i who] ∧ c = .marking .forced ∧ l.stage ≠ .halted ∨
      halting (V := V) d who i c = [] ∧ (c ≠ .marking .forced ∨ l.stage = .halted) := by
  cases c with
  | marking kind =>
    cases kind with
    | graceful => exact .inr ⟨rfl, .inl (by simp)⟩
    | forced =>
      by_cases stage : l.stage = .halted
      · exact .inr ⟨by simp [halting, lane, stage], .inr stage⟩
      · exact .inl ⟨by simp [halting, lane, stage], rfl, stage⟩
  | _ => exact .inr ⟨rfl, .inl (by simp)⟩

theorem stage_setLane {j : LaneIndex} {l l' : Lane Parcel} (lane : d.lane? j = some l)
    (stage : l'.stage = .halted → l.stage = .halted) (i : LaneIndex) :
    ∀ x, (d.setLane j l').lane? i = some x → x.stage = .halted →
      ∃ y, d.lane? i = some y ∧ y.stage = .halted := by
  intro x found halted
  rcases eq_or_ne j i with rfl | other
  · rw [Dispatcher.lane?_setLane_self _ lane] at found
    obtain rfl := Option.some.inj found
    exact ⟨l, lane, stage halted⟩
  · rw [Dispatcher.lane?_setLane_ne _ other] at found
    exact ⟨x, found, halted⟩

theorem haltMove_of_lane {j : LaneIndex} {l l' : Lane Parcel}
    (lane : w.dispatcher.lane? j = some l) (lanes : w'.dispatcher = w.dispatcher.setLane j l')
    (stage : l'.stage = l.stage) (halts : haltsOn w'.history i = haltsOn w.history i) :
    HaltMove w w' i := by
  refine .rest halts ?_
  rw [lanes]
  exact stage_setLane lane (fun halted => stage ▸ halted) i

/-- An access of whoever stops lane `j` halts it, or leaves the stages of all lanes. -/
theorem haltMove_of_closing {who : Party} {j : LaneIndex} {c : Closing Parcel} {l : Lane Parcel}
    (lane : w.dispatcher.lane? j = some l) (before : w.closing? who = some (j, c))
    (after : w'.closing? who = some (j, (c.step l).1))
    (lanes : w'.dispatcher = w.dispatcher.setLane j (c.step l).2)
    (history : w'.history = w.history ++ halting w.dispatcher who j c) (i : LaneIndex) :
    HaltMove w w' i := by
  rcases halting_eq (V := V) w.dispatcher who lane c with ⟨news, rfl, awake⟩ | ⟨news, other⟩
  · rcases eq_or_ne j i with rfl | apart
    · refine .halt who l lane awake before ?_ after ?_
      · rw [history, news, haltsOn_append]
        simp
      · rw [lanes, Dispatcher.lane?_setLane_self _ lane]
    · refine .rest ?_ ?_
      · rw [history, news, haltsOn_append]
        simp [apart]
      · rw [lanes, Dispatcher.lane?_setLane_ne _ apart]
        exact fun x found halted => ⟨x, found, halted⟩
  · refine .rest ?_ ?_
    · rw [history, news, List.append_nil]
    · rw [lanes]
      exact stage_setLane lane (fun h => Closing.stage_step h other) i

theorem Effect.halts (e : Effect w w') (sound : AllSound w.submissions) (i : LaneIndex) :
    HaltMove w w' i := by
  have same : ∀ x, w.dispatcher.lane? i = some x → x.stage = .halted →
      ∃ y, w.dispatcher.lane? i = some y ∧ y.stage = .halted :=
    fun x found halted => ⟨x, found, halted⟩
  cases e with
  | install t s stamp j own there phase empty =>
    obtain rfl : own = Lane.start j := (sound t s there).own stamp j own phase
    refine .rest rfl ?_
    intro x found halted
    rcases eq_or_ne j i with rfl | other
    · by_cases bound : j < w.dispatcher.laneCount
      · rw [Lane.index_start, Dispatcher.lane?_setLane _ _ _ _ bound, if_pos rfl] at found
        obtain rfl := Option.some.inj found
        cases halted
      · simp only [Dispatcher.lane?, Lane.index_start, lane?_setLane_out _ _ bound] at found
        exact ⟨x, found, halted⟩
    · rw [Lane.index_start, Dispatcher.lane?_setLane_ne _ other] at found
      exact ⟨x, found, halted⟩
  | accept t s stamp j l there phase lane accepting =>
    exact haltMove_of_lane lane rfl rfl (by simp)
  | retire t s j c l there phase lane unfinished =>
    have after := List.getElem?_set_self (a := s.on (.retiring j (c.step l).1))
      (List.getElem?_eq_some_iff.1 there).1
    exact haltMove_of_closing lane (closing?_submission.2 ⟨s, there, phase⟩)
      (closing?_submission.2 ⟨_, after, rfl⟩) rfl rfl i
  | shut n kind j c l report there lane unfinished =>
    have after := List.getElem?_set_self (a := Stopping.closing kind j (c.step l).1 report)
      (List.getElem?_eq_some_iff.1 there).1
    exact haltMove_of_closing lane (closing?_stop.2 ⟨kind, report, there⟩)
      (closing?_stop.2 ⟨kind, report, after⟩) rfl rfl i
  | take j l p queue lane idle next => exact haltMove_of_lane lane rfl rfl (by simp)
  | leave j l lane idle empty closed => exact haltMove_of_lane lane rfl rfl rfl
  | start j l p lane holding free => exact haltMove_of_lane lane rfl rfl (by simp)
  | abandon j l p panic lane holding interrupted =>
    exact haltMove_of_lane lane rfl rfl (by simp)
  | conclude j l p ending escape lane busy =>
    refine haltMove_of_lane lane rfl ?_ (by simp)
    unfold Lane.conclude
    split <;> rfl
  | _ => exact .rest (by simp) same

/-- A lane is halted once, by the party that then drains it. -/
structure OneHalter (w : World V) : Prop where
  vacant : ∀ i, w.dispatcher.lane? i = none → haltsOn w.history i = []
  awake : ∀ i l, w.dispatcher.lane? i = some l → l.stage ≠ .halted → haltsOn w.history i = []
  one : ∀ i l, w.dispatcher.lane? i = some l → l.stage = .halted →
    ∃ who, haltsOn w.history i = [who]
  owner : ∀ who i c, w.closing? who = some (i, c) → c.Owns → haltsOn w.history i = [who]
  drained : ∀ i l, w.dispatcher.lane? i = some l → l.stage = .halted →
    (∃ who c, w.closing? who = some (i, c) ∧ c.Halting) ∨
      l.accepting = false ∧ l.interrupted = true ∧ l.queue = []

theorem OneHalter.vacant_step (h : OneHalter w) (e : Effect w w') (sound : AllSound w.submissions)
    (i : LaneIndex) (empty : w'.dispatcher.lane? i = none) : haltsOn w'.history i = [] := by
  cases before : w.dispatcher.lane? i with
  | some l =>
    obtain ⟨l', lane', -⟩ := e.grows sound before
    simp [empty] at lane'
  | none =>
    cases e.halts sound i with
    | rest halts stage => rw [halts, h.vacant i before]
    | halt who l lane => simp [before] at lane

theorem OneHalter.awake_step (h : OneHalter w) (e : Effect w w') (sound : AllSound w.submissions)
    (i : LaneIndex) (l' : Lane Parcel) (lane' : w'.dispatcher.lane? i = some l')
    (awake : l'.stage ≠ .halted) : haltsOn w'.history i = [] := by
  cases e.halts sound i with
  | rest halts stage =>
    rw [halts]
    cases before : w.dispatcher.lane? i with
    | none => exact h.vacant i before
    | some l =>
      refine h.awake i l before fun halted => ?_
      obtain ⟨l'', lane'', grows⟩ := e.grows sound before
      obtain rfl := Option.some.inj (lane'.symm.trans lane'')
      exact awake (grows.halted halted)
  | halt who l lane asleep before halts after lane'' =>
    obtain rfl := Option.some.inj (lane'.symm.trans lane'')
    exact absurd (Closing.halting_marking asleep).2 awake

theorem OneHalter.one_step (h : OneHalter w) (e : Effect w w') (sound : AllSound w.submissions)
    (i : LaneIndex) (l' : Lane Parcel) (lane' : w'.dispatcher.lane? i = some l')
    (halted : l'.stage = .halted) : ∃ who, haltsOn w'.history i = [who] := by
  cases e.halts sound i with
  | rest halts stage =>
    obtain ⟨l, lane, stage⟩ := stage l' lane' halted
    rw [halts]
    exact h.one i l lane stage
  | halt who l lane awake before halts after lane'' =>
    exact ⟨who, by rw [halts, h.awake i l lane awake]; rfl⟩

theorem OneHalter.owner_step (h : OneHalter w) (e : Effect w w') (sound : AllSound w.submissions)
    (who : Party) (i : LaneIndex) (c : Closing Parcel) (closing : w'.closing? who = some (i, c))
    (owns : c.Owns) : haltsOn w'.history i = [who] := by
  have kept : haltsOn w.history i = [who] → haltsOn w'.history i = [who] := by
    intro before
    cases e.halts sound i with
    | rest halts stage => rw [halts, before]
    | halt who' l lane awake => simp [h.awake i l lane awake] at before
  cases e.closing closing with
  | same c before => exact kept (h.owner who i c before owns)
  | fresh kind before =>
    rcases owns with owns | owns <;> simp [Closing.Halting, Closing.gathered] at owns
  | step c l before unfinished lane after history =>
    rcases Closing.owns_step owns with owns | ⟨rfl, awake⟩
    · exact kept (h.owner who i c before owns)
    · rw [history, haltsOn_append, h.awake i l lane awake]
      simp [halting, lane, awake]

theorem OneHalter.drained_step (h : OneHalter w) (before : Reachable d w) (e : Effect w w')
    (i : LaneIndex) (l' : Lane Parcel) (lane' : w'.dispatcher.lane? i = some l')
    (halted : l'.stage = .halted) :
    (∃ who c, w'.closing? who = some (i, c) ∧ c.Halting) ∨
      l'.accepting = false ∧ l'.interrupted = true ∧ l'.queue = [] := by
  cases e.halts before.allSound i with
  | halt who l lane awake closing halts after lane'' =>
    exact .inl ⟨who, _, after, (Closing.halting_marking awake).1⟩
  | rest halts stage =>
    obtain ⟨l, lane, stage⟩ := stage l' lane' halted
    rcases h.drained i l lane stage with ⟨who, c, closing, on⟩ | ⟨closed, interrupted, empty⟩
    · cases e.next closing with
      | same after => exact .inl ⟨who, c, after, on⟩
      | step l₀ lane₀ after lane'' =>
        obtain rfl := Option.some.inj (lane.symm.trans lane₀)
        rcases Closing.halting_step on with on | ⟨error, drained, rfl, empty, same⟩
        · exact .inl ⟨who, _, after, on⟩
        · -- The queue was found empty: the lane is as the drainer left it.
          right
          rcases before.fits closing with ⟨kind, none⟩ | ⟨l₁, lane₁, fits⟩
          · cases none
          · obtain rfl := Option.some.inj (lane.symm.trans lane₁)
            rw [same] at lane''
            obtain rfl := Option.some.inj (lane'.symm.trans lane'')
            exact ⟨fits.2.2, fits.2.1, empty⟩
      | ended report done => subst done; cases on
      | vanished none => simp [none] at lane
    · right
      obtain ⟨l₁, lane₁, grows⟩ := e.grows before.allSound lane
      obtain rfl := Option.some.inj (lane'.symm.trans lane₁)
      refine ⟨grows.closed closed, grows.interrupted interrupted, ?_⟩
      rcases e.track before.allSound i with same | step
      · obtain rfl : l' = l :=
          Option.some.inj (lane'.symm.trans ((congrArg Track.lane same).trans lane))
        exact empty
      · exact step.stays_empty lane lane' closed empty

theorem OneHalter.step (h : OneHalter w) (before : Reachable d w) (e : Effect w w') :
    OneHalter w' :=
  ⟨h.vacant_step e before.allSound, h.awake_step e before.allSound, h.one_step e before.allSound,
    h.owner_step e before.allSound, h.drained_step before e⟩

theorem Reachable.oneHalter (h : Reachable d w) (new : d.Fresh) : OneHalter w := by
  induction h with
  | start =>
    have vacant : ∀ i l, (fresh (V := V) d ⟨0⟩).dispatcher.lane? i ≠ some l := by
      intro i l lane
      exact Option.some_ne_none l (lane.symm.trans (new.lanes i))
    refine ⟨fun i _ => rfl, fun i l lane => absurd lane (vacant i l),
      fun i l lane => absurd lane (vacant i l), ?_, fun i l lane => absurd lane (vacant i l)⟩
    intro who i c closing
    cases who <;> simp [closing?, fresh] at closing
  | step before effect ih => exact ih.step before effect

/-- Whoever is known to have halted a lane is the only one. -/
theorem OneHalter.halts_eq (h : OneHalter w) {who : Party} (halted : who ∈ haltsOn w.history i) :
    haltsOn w.history i = [who] := by
  cases lane : w.dispatcher.lane? i with
  | none => simp [h.vacant i lane] at halted
  | some l =>
    by_cases stage : l.stage = .halted
    · obtain ⟨other, one⟩ := h.one i l lane stage
      rw [one, List.mem_singleton] at halted
      rw [one, halted]
    · simp [h.awake i l lane stage] at halted

end World

end OrderedLanes
