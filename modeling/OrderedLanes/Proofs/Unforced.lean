import OrderedLanes.Proofs.Moves
import OrderedLanes.Proofs.Tending

/-!
Runs without a forced stop. The flag of forced stops stays down, and so every lane
that is stopped is stopped gently: its queue is left to it and its worker is not
told to leave early. A worker that leaves then leaves a lane that is closed and
empty.
-/

namespace OrderedLanes

/-- A lane that is stopped gently keeps its queue and is not interrupted. -/
theorem Closing.Gentle.keeps {α : Type} {c : Closing α} (h : c.Gentle) (l : Lane α) :
    (c.step l).2.queue = l.queue ∧ (c.step l).2.interrupted = l.interrupted := by
  cases c with
  | marking kind =>
    cases kind with
    | graceful => simp only [Closing.step]; split <;> exact ⟨rfl, rfl⟩
    | forced => cases h
  | looking kind =>
    cases kind with
    | graceful => exact ⟨rfl, rfl⟩
    | forced => cases h
  | interrupting error => cases h
  | sealing kind error =>
    cases kind with
    | graceful => exact ⟨rfl, rfl⟩
    | forced => cases h
  | draining error drained => cases h
  | done report => exact ⟨rfl, rfl⟩

namespace World

variable {V : Type} {d : Dispatcher Parcel} {w w' : World V} {i : LaneIndex} {l : Lane Parcel}
  {n : Nat}

/-- While the flag of forced stops is down it was down before. -/
theorem Effect.unforced (e : Effect w w') (down : w'.dispatcher.shutdownNow = false) :
    w.dispatcher.shutdownNow = false := by
  rcases e.forcing with ⟨-, up, -⟩ | ⟨same, -⟩
  · simp [up] at down
  · exact same ▸ down

theorem Reachable.not_raised (h : Reachable d w) (new : d.Fresh)
    (down : w.dispatcher.shutdownNow = false) : .raised n .forced ∉ w.history := by
  intro raised
  rcases h.forcers_eq new with ⟨-, none⟩ | ⟨up, -⟩
  · simpa [none] using mem_forcers.2 raised
  · simp [up] at down

theorem Reachable.gentle_submission (h : Reachable d w) (down : w.dispatcher.shutdownNow = false)
    {t : Ticket} {s : Submission Parcel} {c : Closing Parcel} (there : w.submissions[t]? = some s)
    (phase : s.phase = .retiring i c) : c.Gentle := by
  induction h generalizing s i c with
  | start => simp [fresh] at there
  | @step w w' before effect ih =>
    have was := effect.unforced down
    rcases effect.onward there with same | ⟨key, stamped, -, rfl⟩ | ⟨r, now, there₀, rfl, onward⟩
    · exact ih was same phase
    · cases stamped <;> cases phase
    · obtain rfl : now = .retiring i c := phase
      cases onward with
      | look _ looks =>
        generalize r.phase = before at looks
        cases looks with
        | choose i kind forced =>
          cases kind with
          | graceful => trivial
          | forced => simp [forced rfl] at was
      | retire _ c₀ _ phase₀ step =>
        obtain ⟨l, rfl⟩ := step
        exact (ih was there₀ phase₀).step l

/-- Whoever stops a lane does so gently. -/
theorem Reachable.gentle (h : Reachable d w) (new : d.Fresh)
    (down : w.dispatcher.shutdownNow = false) {who : Party} {c : Closing Parcel}
    (closing : w.closing? who = some (i, c)) : c.Gentle := by
  cases who with
  | stop n =>
    obtain ⟨kind, report, there⟩ := closing?_stop.1 closing
    have marked := h.allMarked n _ there
    cases kind with
    | graceful => exact marked.2
    | forced => exact absurd marked (h.not_raised new down)
  | submission t =>
    obtain ⟨s, there, phase⟩ := closing?_submission.1 closing
    exact h.gentle_submission down there phase

/-- No worker is told to leave early. -/
theorem Reachable.uninterrupted (h : Reachable d w) (new : d.Fresh)
    (down : w.dispatcher.shutdownNow = false) (lane : w.dispatcher.lane? i = some l) :
    l.interrupted = false := by
  induction h generalizing l with
  | start => exact absurd (lane.symm.trans (new.lanes i)) (by simp)
  | @step w w' before effect ih =>
    have was := effect.unforced down
    cases effect.laneMove before.allSound lane with
    | installed t s stamp there phase empty new => rw [new]; rfl
    | kept l₀ lane₀ stage interrupted accepting => exact interrupted.trans (ih was lane₀)
    | closed who c l₀ lane₀ closing after step =>
      rw [step, ((before.gentle new was closing).keeps l₀).2]
      exact ih was lane₀

/-- A stop that has ended left the common flag up. -/
theorem Reachable.shutdown_of_stopped (h : Reachable d w) (new : d.Fresh)
    (down : w.dispatcher.shutdownNow = false) {report : StopReport Parcel}
    (done : w.stops[n]? = some (.done report)) : w.dispatcher.shutdown = true := by
  induction h with
  | start => simp [fresh] at done
  | @step w w' before effect ih =>
    have was := effect.unforced down
    have set : ∀ {m : Nat} {s s' : Stopping Parcel}, w'.stops = w.stops.set m s' →
        w.stops[m]? = some s → s'.report? = none → w'.dispatcher.shutdown = true := by
      intro m s s' stops there going
      rw [stops] at done
      rcases getElem?_set_cases done with ⟨-, rfl⟩ | ⟨-, old⟩
      · cases going
      · exact effect.shutdown (ih was old)
    cases effect with
    | beginStop kind =>
      rcases getElem?_snoc_cases done with ⟨-, same⟩ | old
      · cases same
      · exact ih was old
    | stopLook m s s' there looks => exact set rfl there (report_of_stopLook looks).2
    | raiseGraceful m there low => rfl
    | raiseForced m there low => exact set rfl there rfl
    | follow m there => rfl
    | clear m report there => exact set rfl there rfl
    | shut m kind i c l report there lane unfinished => exact set rfl there rfl
    | clearLast m report there => exact (before.flagged new).stops m _ there trivial
    | endStop m s report there ends =>
      cases ends with
      | stopping up => exact up
      | forcing up => simp [was] at up
      | visited i report last => exact (before.flagged new).stops m _ there trivial
    | _ => exact ih was done

/-- Nothing is waiting at the lane, and nothing will be. -/
structure Emptied (l : Lane Parcel) : Prop where
  closed : l.accepting = false
  empty : l.queue = []

/-- A worker that is gone without a panic has left its lane for good. -/
theorem Reachable.emptied (h : Reachable d w) (new : d.Fresh)
    (down : w.dispatcher.shutdownNow = false) (lane : w.dispatcher.lane? i = some l)
    (gone : l.worker = .exited none) : Emptied l := by
  induction h generalizing l with
  | start => exact absurd (lane.symm.trans (new.lanes i)) (by simp)
  | @step w w' before effect ih =>
    have was := effect.unforced down
    have keep : ∀ {l₀ : Lane Parcel}, w.dispatcher.lane? i = some l₀ → l.worker = l₀.worker →
        (l₀.accepting = false → l.accepting = false) → l.queue = l₀.queue → Emptied l := by
      intro l₀ lane₀ worker closed queue
      have before := ih was lane₀ (worker ▸ gone)
      exact ⟨closed before.closed, queue.trans before.empty⟩
    have stay : w.dispatcher.lane? i = some l → Emptied l := fun same => keep same rfl id rfl
    have close : ∀ {who : Party} {j : LaneIndex} {c : Closing Parcel} {l₀ : Lane Parcel},
        w.closing? who = some (j, c) → w.dispatcher.lane? j = some l₀ →
        w'.dispatcher = w.dispatcher.setLane j (c.step l₀).2 → Emptied l := by
      intro who j c l₀ closing lane₀ lanes
      rw [lanes] at lane
      rcases lane_of_setLane lane with ⟨rfl, rfl⟩ | same
      · exact keep lane₀ (c.worker_step l₀) (c.grows_step l₀).closed
          ((before.gentle new was closing).keeps l₀).1
      · exact stay same
    cases effect with
    | install t s stamp j own there phase empty =>
      obtain rfl := (before.allSound t s there).own stamp j own phase
      rcases lane_of_setLane lane with ⟨-, rfl⟩ | same
      · cases gone
      · exact stay same
    | accept t s stamp j l₀ there phase lane₀ accepting =>
      rcases lane_of_setLane lane with ⟨rfl, rfl⟩ | same
      · simp [(ih was lane₀ gone).closed] at accepting
      · exact stay same
    | retire t s j c l₀ there phase lane₀ unfinished =>
      exact close (closing?_submission.2 ⟨s, there, phase⟩) lane₀ rfl
    | shut n kind j c l₀ report there lane₀ unfinished =>
      exact close (closing?_stop.2 ⟨kind, report, there⟩) lane₀ rfl
    | take j l₀ p queue lane₀ idle next =>
      rcases lane_of_setLane lane with ⟨rfl, rfl⟩ | same
      · cases gone
      · exact stay same
    | leave j l₀ lane₀ idle empty closed =>
      rcases lane_of_setLane lane with ⟨rfl, rfl⟩ | same
      · exact ⟨closed, empty⟩
      · exact stay same
    | start j l₀ p lane₀ holding free =>
      rcases lane_of_setLane lane with ⟨rfl, rfl⟩ | same
      · cases gone
      · exact stay same
    | abandon j l₀ p escape lane₀ holding interrupted =>
      simp [before.uninterrupted new was lane₀] at interrupted
    | conclude j l₀ p ending escape lane₀ busy =>
      rcases lane_of_setLane lane with ⟨rfl, rfl⟩ | same
      · cases disposal : escape.bind Payload.disposal <;> simp [Lane.conclude, disposal] at gone
      · exact stay same
    | _ => exact stay lane

/-! ### Calls -/

theorem Effect.stops_length (e : Effect w w') : w.stops.length ≤ w'.stops.length := by
  cases e <;> simp

theorem Later.stops_length (later : Later w w') : w.stops.length ≤ w'.stops.length := by
  induction later with
  | refl => exact Nat.le_refl _
  | step before effect ih => exact ih.trans effect.stops_length

/-- Only a call of a stop adds one. -/
theorem stops_length_of_step {a : Act V} (act : w.step a = some w')
    (other : ∀ kind, a ≠ .stop kind) : w'.stops.length = w.stops.length := by
  cases move_of_step act with
  | beginStop kind => exact absurd rfl (other kind)
  | begin a key stamped submissions stops => rw [stops]
  | drawStamp key submissions stops => rw [stops]
  | advance t s there going submissions stops => rw [stops]
  | refuseThread t source s stamp i there phase submissions stops => rw [stops]
  | advanceStop n s there submissions stops => rw [stops, List.length_set]
  | rest a same => rw [same.stops]

/-- No forced stop is about to begin, and none has begun. -/
structure Unforced (w : World V) : Prop where
  down : w.dispatcher.shutdownNow = false
  none : .raising .forced ∉ w.stops

theorem Unforced.of_effect (h : Unforced w) (e : Effect w w')
    (calls : w'.stops.length = w.stops.length) : Unforced w' := by
  have set : ∀ {m : Nat} {s : Stopping Parcel}, s ≠ .raising .forced →
      .raising .forced ∉ w.stops.set m s := fun other found =>
    (List.mem_or_eq_of_mem_set found).elim h.none other.symm
  cases e with
  | beginStop kind => simp at calls
  | raiseForced n there down => exact absurd (List.mem_of_getElem? there) h.none
  | stopLook n s s' there looks => exact ⟨h.down, set (by cases looks <;> simp)⟩
  | raiseGraceful n there down => exact ⟨h.down, set (by simp)⟩
  | follow n there => exact ⟨h.down, set (by simp)⟩
  | clear n report there => exact ⟨h.down, set (by simp)⟩
  | clearLast n report there => exact ⟨h.down, set (by simp)⟩
  | endStop n s report there ends => exact ⟨h.down, set (by simp)⟩
  | shut n kind i c l report there lane unfinished => exact ⟨h.down, set (by simp)⟩
  | _ => exact ⟨h.down, h.none⟩

theorem Unforced.step (h : Unforced w) {a : Act V} (act : w.step a = some w')
    (gentle : a ≠ .stop .forced) : Unforced w' := by
  by_cases graceful : a = .stop .graceful
  · subst graceful
    obtain rfl := Option.some.inj act
    exact ⟨h.down, by simp [h.none]⟩
  · have other : ∀ kind, a ≠ .stop kind := by
      rintro (_ | _)
      · exact graceful
      · exact gentle
    have calls : w'.stops.length = w.stops.length := stops_length_of_step act other
    have core : Unforced w.core := ⟨h.down, h.none⟩
    have core' : Unforced w'.core := core.of_effect (effect_of_step act) calls
    exact ⟨core'.down, core'.none⟩

theorem Unforced.run (h : Unforced w) {acts : List (Act V)} (run : w.run acts = some w')
    (gentle : .stop .forced ∉ acts) : Unforced w' := by
  refine run_induction (P := fun acts w => .stop .forced ∉ acts → Unforced w) (fun _ => h) ?_ run
    gentle
  intro acts u a v _ ih act gentle
  rw [List.mem_append, List.mem_singleton, not_or] at gentle
  exact (ih gentle.1).step act (Ne.symm gentle.2)

theorem Unforced.proceeds (h : Unforced w) (proceeds : w.Proceeds w') : Unforced w' := by
  induction proceeds with
  | refl => exact h
  | @advance _ _ t before act ih => exact ih.step (a := .advance t) act (by simp)
  | @advanceStop _ _ n before act ih => exact ih.step (a := .advanceStop n) act (by simp)

end World

end OrderedLanes
