import OrderedLanes.Proofs.Tracks

/-!
Stopping a lane moves its stage, its interrupt flag and its gate one way only, and
each access of whoever stops it finds what the earlier ones left: a lane that is
being drained is halted, interrupted and closed.
-/

namespace OrderedLanes

namespace Lane

variable {α : Type}

/-- What was done to stop a lane is not undone. -/
structure Grows (l l' : Lane α) : Prop where
  stopped : l.stage ≠ .running → l'.stage ≠ .running
  halted : l.stage = .halted → l'.stage = .halted
  interrupted : l.interrupted = true → l'.interrupted = true
  closed : l.accepting = false → l'.accepting = false

theorem Grows.refl (l : Lane α) : l.Grows l := ⟨id, id, id, id⟩

theorem Grows.trans {l₁ l₂ l₃ : Lane α} (h : l₁.Grows l₂) (h' : l₂.Grows l₃) : l₁.Grows l₃ :=
  ⟨h'.stopped ∘ h.stopped, h'.halted ∘ h.halted, h'.interrupted ∘ h.interrupted,
    h'.closed ∘ h.closed⟩

theorem grows_of_flags {l l' : Lane α} (stage : l'.stage = l.stage)
    (interrupted : l'.interrupted = l.interrupted) (accepting : l'.accepting = l.accepting) :
    l.Grows l' :=
  ⟨by rw [stage]; exact id, by rw [stage]; exact id, by rw [interrupted]; exact id,
    by rw [accepting]; exact id⟩

end Lane

namespace Closing

variable {α : Type}

/-- What whoever has come this far has done to the lane. -/
def Fits (l : Lane α) : Closing α → Prop
  | .marking _ => True
  | .looking .graceful => l.stage ≠ .running
  | .looking .forced => l.stage = .halted
  | .interrupting _ => l.stage = .halted
  | .sealing .graceful _ => l.stage ≠ .running
  | .sealing .forced _ => l.stage = .halted ∧ l.interrupted = true
  | .draining _ _ => l.stage = .halted ∧ l.interrupted = true ∧ l.accepting = false
  | .done _ => True

theorem Fits.grows {c : Closing α} {l l' : Lane α} (h : c.Fits l) (g : l.Grows l') :
    c.Fits l' := by
  cases c with
  | marking kind => trivial
  | looking kind =>
    cases kind with
    | graceful => exact g.stopped h
    | forced => exact g.halted h
  | interrupting error => exact g.halted h
  | sealing kind error =>
    cases kind with
    | graceful => exact g.stopped h
    | forced => exact ⟨g.halted h.1, g.interrupted h.2⟩
  | draining error drained => exact ⟨g.halted h.1, g.interrupted h.2.1, g.closed h.2.2⟩
  | done report => trivial

theorem grows_step (c : Closing α) (l : Lane α) : l.Grows (c.step l).2 := by
  cases c with
  | marking kind =>
    cases kind with
    | graceful =>
      by_cases h : l.stage = .running
      · simp only [step, h, if_true]
        exact ⟨fun n => absurd h n, fun n => by simp [h] at n, id, id⟩
      · simp only [step, h, if_false]
        exact .refl l
    | forced =>
      cases h : l.stage <;> simp only [step, h]
      · exact ⟨fun _ => by simp [Lane.mark], fun _ => rfl, id, id⟩
      · exact ⟨fun _ => by simp [Lane.mark], fun _ => rfl, id, id⟩
      · exact .refl l
  | looking kind => cases kind <;> exact .refl l
  | interrupting error => exact ⟨id, id, fun _ => rfl, id⟩
  | sealing kind error => cases kind <;> exact ⟨id, id, id, fun _ => rfl⟩
  | draining error drained =>
    cases h : l.queue <;> simp only [step, h]
    · exact .refl l
    · exact ⟨id, id, id, id⟩
  | done report => exact .refl l

theorem fits_step {c : Closing α} {l : Lane α} (h : c.Fits l) :
    (c.step l).1.Fits (c.step l).2 := by
  cases c with
  | marking kind =>
    cases kind with
    | graceful =>
      by_cases stage : l.stage = .running
      · simp only [step, stage, if_true]
        simp [Fits, Lane.mark]
      · simp only [step, stage, if_false]
        trivial
    | forced => cases stage : l.stage <;> simp only [step, stage] <;> trivial
  | looking kind => cases kind <;> exact h
  | interrupting error => exact ⟨h, rfl⟩
  | sealing kind error =>
    cases kind with
    | graceful => trivial
    | forced => exact ⟨h.1, h.2, rfl⟩
  | draining error drained =>
    cases next : l.queue <;> simp only [step, next]
    · trivial
    · exact h
  | done report => trivial

end Closing

theorem Track.Step.grows {i : LaneIndex} {closes : Closing Parcel → Prop} {t t' : Track}
    {l : Lane Parcel} (step : Track.Step i closes t t') (lane : t.lane = some l) :
    ∃ l', t'.lane = some l' ∧ l.Grows l' := by
  cases step with
  | install => cases lane
  | close l₀ c a t m under =>
    obtain rfl := Option.some.inj lane
    exact ⟨_, rfl, c.grows_step _⟩
  | conclude l₀ p escape a t m busy =>
    obtain rfl := Option.some.inj lane
    refine ⟨_, rfl, ?_⟩
    unfold Lane.conclude
    split <;> exact Lane.grows_of_flags rfl rfl rfl
  | _ =>
    obtain rfl := Option.some.inj lane
    exact ⟨_, rfl, Lane.grows_of_flags rfl rfl rfl⟩

namespace World

variable {V : Type} {d : Dispatcher Parcel} {w w' : World V} {i : LaneIndex}
  {c : Closing Parcel} {l : Lane Parcel} {who : Party}

/-- A lane once installed stays, and what was done to stop it stays done. -/
theorem Effect.grows (e : Effect w w') (sound : AllSound w.submissions)
    (lane : w.dispatcher.lane? i = some l) :
    ∃ l', w'.dispatcher.lane? i = some l' ∧ l.Grows l' := by
  rcases e.track sound i with same | step
  · exact ⟨l, (congrArg Track.lane same).trans lane, .refl l⟩
  · exact step.grows lane

/-- How a party comes to be where it is with stopping a lane. -/
inductive ClosingMove (w w' : World V) (who : Party) (i : LaneIndex) : Closing Parcel → Prop
  | same (c : Closing Parcel) (before : w.closing? who = some (i, c)) : ClosingMove w w' who i c
  | fresh (kind : StopKind) (before : w.closing? who = none) :
      ClosingMove w w' who i (.marking kind)
  | step (c : Closing Parcel) (l : Lane Parcel) (before : w.closing? who = some (i, c))
      (unfinished : ∀ report, c ≠ .done report) (lane : w.dispatcher.lane? i = some l)
      (after : w'.dispatcher.lane? i = some (c.step l).2)
      (history : w'.history = w.history ++ halting w.dispatcher who i c) :
      ClosingMove w w' who i (c.step l).1

theorem closing?_submission {t : Ticket} : w.closing? (.submission t) = some (i, c) ↔
    ∃ s, w.submissions[t]? = some s ∧ s.phase = .retiring i c := by
  simp only [closing?, Option.bind_eq_some_iff]
  refine exists_congr fun s => and_congr_right fun _ => ?_
  unfold Submission.closing?
  split <;> simp_all

theorem closing?_stop {n : Nat} : w.closing? (.stop n) = some (i, c) ↔
    ∃ kind report, w.stops[n]? = some (.closing kind i c report) := by
  simp only [closing?, Option.bind_eq_some_iff]
  constructor
  · rintro ⟨s, there, closing⟩
    cases s <;> cases closing
    exact ⟨_, _, there⟩
  · rintro ⟨kind, report, there⟩
    exact ⟨_, there, rfl⟩

/-- A submission that goes on to a phase that stops nothing is not stopping a lane. -/
theorem closing_set_submission {t u : Ticket} {s : Submission Parcel}
    (h : ∃ r, (w.submissions.set t s)[u]? = some r ∧ r.phase = .retiring i c)
    (idle : s.closing? = none) : w.closing? (.submission u) = some (i, c) := by
  obtain ⟨r, found, retiring⟩ := h
  rcases getElem?_set_cases found with ⟨rfl, rfl⟩ | ⟨-, found⟩
  · simp [Submission.closing?, retiring] at idle
  · exact closing?_submission.2 ⟨r, found, retiring⟩

theorem closing_set_stop {n m : Nat} {s : Stopping Parcel}
    (h : ∃ kind report, (w.stops.set n s)[m]? = some (.closing kind i c report))
    (idle : s.closing? = none) : w.closing? (.stop m) = some (i, c) := by
  obtain ⟨kind, report, found⟩ := h
  rcases getElem?_set_cases found with ⟨-, rfl⟩ | ⟨-, found⟩
  · cases idle
  · exact closing?_stop.2 ⟨kind, report, found⟩

theorem Effect.closing_submission {u : Ticket} (e : Effect w w')
    (h : w'.closing? (.submission u) = some (i, c)) : ClosingMove w w' (.submission u) i c := by
  rw [closing?_submission] at h
  cases e with
  | begin key stamped =>
    obtain ⟨r, found, retiring⟩ := h
    rcases getElem?_snoc_cases found with ⟨-, rfl⟩ | found
    · cases stamped <;> cases retiring
    · exact .same c (closing?_submission.2 ⟨r, found, retiring⟩)
  | look t s phase there looks =>
    obtain ⟨r, found, retiring⟩ := h
    rcases getElem?_set_cases found with ⟨rfl, rfl⟩ | ⟨-, found⟩
    · obtain ⟨key, task, now⟩ := s
      obtain rfl : phase = .retiring i c := retiring
      cases looks with
      | choose i kind => exact .fresh kind (by simp [closing?, there, Submission.closing?])
    · exact .same c (closing?_submission.2 ⟨r, found, retiring⟩)
  | retire t s j c₀ l there phase lane unfinished =>
    obtain ⟨r, found, retiring⟩ := h
    rcases getElem?_set_cases found with ⟨rfl, rfl⟩ | ⟨-, found⟩
    · obtain ⟨rfl, rfl⟩ : j = i ∧ (c₀.step l).1 = c := by simpa [Submission.on] using retiring
      exact .step c₀ l (closing?_submission.2 ⟨s, there, phase⟩) unfinished lane
        (Dispatcher.lane?_setLane_self _ lane) rfl
    · exact .same c (closing?_submission.2 ⟨r, found, retiring⟩)
  | stamp t s drawn there phase => exact .same c (closing_set_submission h rfl)
  | lookUp t s stamp there phase => exact .same c (closing_set_submission h rfl)
  | refuse t s submitted there refused => exact .same c (closing_set_submission h rfl)
  | install t s stamp j own there phase empty =>
    exact .same c (closing_set_submission h rfl)
  | accept t s stamp j l there phase lane accepting =>
    exact .same c (closing_set_submission h rfl)
  | forfeit t s j report there phase => exact .same c (closing_set_submission h rfl)
  | _ => exact .same c (closing?_submission.2 h)

theorem Effect.closing_stop {m : Nat} (e : Effect w w')
    (h : w'.closing? (.stop m) = some (i, c)) : ClosingMove w w' (.stop m) i c := by
  rw [closing?_stop] at h
  cases e with
  | beginStop kind =>
    obtain ⟨kind', report, found⟩ := h
    rcases getElem?_snoc_cases found with ⟨-, e⟩ | found
    · cases e
    · exact .same c (closing?_stop.2 ⟨kind', report, found⟩)
  | stopLook n s s' there looks =>
    obtain ⟨kind, report, found⟩ := h
    rcases getElem?_set_cases found with ⟨rfl, rfl⟩ | ⟨-, found⟩
    · cases looks with
      | visit kind i l report lane =>
        exact .fresh kind (by simp [closing?, there, Stopping.closing?])
    · exact .same c (closing?_stop.2 ⟨kind, report, found⟩)
  | shut n kind j c₀ l report there lane unfinished =>
    obtain ⟨kind', report', found⟩ := h
    rcases getElem?_set_cases found with ⟨rfl, e⟩ | ⟨-, found⟩
    · obtain ⟨-, rfl, rfl, -⟩ : kind' = kind ∧ i = j ∧ c = (c₀.step l).1 ∧ report' = report := by
        simpa using e
      exact .step c₀ l (closing?_stop.2 ⟨kind, report, there⟩) unfinished lane
        (Dispatcher.lane?_setLane_self _ lane) rfl
    · exact .same c (closing?_stop.2 ⟨kind', report', found⟩)
  | raiseGraceful n there down => exact .same c (closing_set_stop h rfl)
  | raiseForced n there down => exact .same c (closing_set_stop h rfl)
  | follow n there => exact .same c (closing_set_stop h rfl)
  | clear n report there => exact .same c (closing_set_stop h rfl)
  | clearLast n report there => exact .same c (closing_set_stop h rfl)
  | endStop n s report there ends => exact .same c (closing_set_stop h rfl)
  | _ => exact .same c (closing?_stop.2 h)

theorem Effect.closing (e : Effect w w') (h : w'.closing? who = some (i, c)) :
    ClosingMove w w' who i c := by
  cases who with
  | stop m => exact e.closing_stop h
  | submission u => exact e.closing_submission h

/-- What becomes of a party that is about to stop a lane. -/
inductive ClosingNext (w w' : World V) (who : Party) (i : LaneIndex) (c : Closing Parcel) : Prop
  | same (after : w'.closing? who = some (i, c))
  | step (l : Lane Parcel) (lane : w.dispatcher.lane? i = some l)
      (after : w'.closing? who = some (i, (c.step l).1))
      (lane' : w'.dispatcher.lane? i = some (c.step l).2)
  | ended (report : StopReport Parcel) (done : c = .done report)
  | vanished (empty : w.dispatcher.lane? i = none)

theorem Effect.next_submission {u : Ticket} (e : Effect w w')
    (h : w.closing? (.submission u) = some (i, c)) : ClosingNext w w' (.submission u) i c := by
  obtain ⟨r, found, retiring⟩ := closing?_submission.1 h
  have other : ∀ {t s s'}, w.submissions[t]? = some s → s.phase ≠ r.phase →
      w'.submissions = w.submissions.set t s' → ClosingNext w w' (.submission u) i c := by
    intro t s s' there apart subs
    refine .same (closing?_submission.2 ⟨r, ?_, retiring⟩)
    rw [subs, List.getElem?_set_ne, found]
    rintro rfl
    obtain rfl := Option.some.inj (there.symm.trans found)
    exact apart rfl
  rw [retiring] at other
  cases e with
  | begin key stamped =>
    refine .same (closing?_submission.2 ⟨r, ?_, retiring⟩)
    exact (List.getElem?_append_left (List.getElem?_eq_some_iff.1 found).1).trans found
  | look t s phase there looks =>
    refine other there ?_ rfl
    intro same
    rw [same] at looks
    cases looks
  | stamp t s drawn there phase => exact other there (by simp [phase]) rfl
  | lookUp t s stamp there phase => exact other there (by simp [phase]) rfl
  | install t s stamp j own there phase empty => exact other there (by simp [phase]) rfl
  | accept t s stamp j l there phase lane accepting => exact other there (by simp [phase]) rfl
  | refuse t s submitted there refused =>
    by_cases same : s.phase = .retiring i c
    · rw [same] at refused
      cases refused with
      | retiring _ _ empty => exact .vanished empty
    · exact other there same rfl
  | retire t s j c₀ l there phase lane unfinished =>
    rcases eq_or_ne t u with rfl | apart
    · obtain rfl := Option.some.inj (there.symm.trans found)
      obtain ⟨rfl, rfl⟩ : j = i ∧ c₀ = c := by simpa [phase] using retiring
      have set := List.getElem?_set_self (a := s.on (.retiring j (c₀.step l).1))
        (List.getElem?_eq_some_iff.1 there).1
      exact .step l lane (closing?_submission.2 ⟨_, set, rfl⟩)
        (Dispatcher.lane?_setLane_self _ lane)
    · refine .same (closing?_submission.2 ⟨r, ?_, retiring⟩)
      exact (List.getElem?_set_ne apart).trans found
  | forfeit t s j report there phase =>
    by_cases same : s.phase = .retiring i c
    · obtain ⟨-, rfl⟩ : j = i ∧ .done report = c := by simpa [phase] using same
      exact .ended report rfl
    · exact other there same rfl
  | _ => exact .same (closing?_submission.2 ⟨r, found, retiring⟩)

theorem Effect.next_stop {m : Nat} (e : Effect w w')
    (h : w.closing? (.stop m) = some (i, c)) : ClosingNext w w' (.stop m) i c := by
  obtain ⟨kind, report, found⟩ := closing?_stop.1 h
  have other : ∀ {n s s'}, w.stops[n]? = some s → s ≠ .closing kind i c report →
      w'.stops = w.stops.set n s' → ClosingNext w w' (.stop m) i c := by
    intro n s s' there apart stops
    refine .same (closing?_stop.2 ⟨kind, report, ?_⟩)
    rw [stops, List.getElem?_set_ne, found]
    rintro rfl
    exact apart (Option.some.inj (there.symm.trans found))
  cases e with
  | beginStop k =>
    refine .same (closing?_stop.2 ⟨kind, report, ?_⟩)
    exact (List.getElem?_append_left (List.getElem?_eq_some_iff.1 found).1).trans found
  | stopLook n s s' there looks =>
    by_cases same : s = .closing kind i c report
    · subst same
      cases looks with
      | closed kind i part report => exact .ended part rfl
      | vanished kind i c report empty => exact .vanished empty
    · exact other there same rfl
  | shut n kind' j c₀ l report' there lane unfinished =>
    rcases eq_or_ne n m with rfl | apart
    · obtain ⟨rfl, rfl, rfl, rfl⟩ : kind' = kind ∧ j = i ∧ c₀ = c ∧ report' = report := by
        simpa using there.symm.trans found
      refine .step l lane (closing?_stop.2 ⟨kind', report', ?_⟩)
        (Dispatcher.lane?_setLane_self _ lane)
      exact List.getElem?_set_self (List.getElem?_eq_some_iff.1 there).1
    · refine .same (closing?_stop.2 ⟨kind, report, ?_⟩)
      exact (List.getElem?_set_ne apart).trans found
  | raiseGraceful n there down => exact other there (by simp) rfl
  | raiseForced n there down => exact other there (by simp) rfl
  | follow n there => exact other there (by simp) rfl
  | clear n report there => exact other there (by simp) rfl
  | clearLast n report there => exact other there (by simp) rfl
  | endStop n s report there ends => exact other there (by rintro rfl; cases ends) rfl
  | _ => exact .same (closing?_stop.2 ⟨kind, report, found⟩)

theorem Effect.next (e : Effect w w') (h : w.closing? who = some (i, c)) :
    ClosingNext w w' who i c := by
  cases who with
  | stop m => exact e.next_stop h
  | submission u => exact e.next_submission h

/-- Whoever has come so far with stopping a lane finds it as it left it. -/
theorem Reachable.fits (h : Reachable d w) (closing : w.closing? who = some (i, c)) :
    (∃ kind, c = .marking kind) ∨ ∃ l, w.dispatcher.lane? i = some l ∧ c.Fits l := by
  induction h generalizing who i c with
  | start => cases who <;> simp [closing?, fresh] at closing
  | step before effect ih =>
    cases effect.closing closing with
    | same c was =>
      refine (ih was).imp_right ?_
      rintro ⟨l, lane, fits⟩
      obtain ⟨l', lane', grows⟩ := effect.grows before.allSound lane
      exact ⟨l', lane', fits.grows grows⟩
    | fresh kind was => exact .inl ⟨kind, rfl⟩
    | step c l was unfinished lane after history =>
      refine .inr ⟨_, after, Closing.fits_step ?_⟩
      rcases ih was with ⟨kind, rfl⟩ | ⟨l', lane', fits⟩
      · trivial
      · obtain rfl := Option.some.inj (lane.symm.trans lane')
        exact fits

end World

end OrderedLanes
