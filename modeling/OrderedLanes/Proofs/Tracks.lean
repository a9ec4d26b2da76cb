import OrderedLanes.Proofs.Submissions

/-!
One lane seen alone: the lane, the tasks that it accepted and its worker took, and
what was started and ended on it. Whatever happens in the world, a lane seen alone
stays as it is or makes one step of its own.
-/

namespace OrderedLanes

/-- A lane and what the history says about it. -/
structure Track where
  lane : Option (Lane Parcel)
  accepted : List Parcel
  taken : List Parcel
  marks : List Mark

/-- What can happen on lane `i`; `closes` are the closings under way there. -/
inductive Track.Step (i : LaneIndex) (closes : Closing Parcel → Prop) : Track → Track → Prop
  | install (a t : List Parcel) (m : List Mark) :
      Step i closes ⟨none, a, t, m⟩ ⟨some (Lane.start i), a, t, m⟩
  | accept (l : Lane Parcel) (p : Parcel) (a t : List Parcel) (m : List Mark)
      (accepting : l.accepting = true) (here : p.lane = i) : Step i closes ⟨some l, a, t, m⟩
        ⟨some { l with queue := l.queue ++ [p] }, a ++ [p], t, m⟩
  | close (l : Lane Parcel) (c : Closing Parcel) (a t : List Parcel) (m : List Mark)
      (under : closes c) : Step i closes ⟨some l, a, t, m⟩ ⟨some (c.step l).2, a, t, m⟩
  | take (l : Lane Parcel) (p : Parcel) (queue a t : List Parcel) (m : List Mark)
      (idle : l.worker = .idle) (next : l.queue = p :: queue) : Step i closes ⟨some l, a, t, m⟩
        ⟨some { l with queue, worker := .holding p }, a, t ++ [p], m⟩
  | leave (l : Lane Parcel) (a t : List Parcel) (m : List Mark) (idle : l.worker = .idle)
      (empty : l.queue = []) (closed : l.accepting = false) :
      Step i closes ⟨some l, a, t, m⟩ ⟨some (l.leave none), a, t, m⟩
  | start (l : Lane Parcel) (p : Parcel) (a t : List Parcel) (m : List Mark)
      (holding : l.worker = .holding p) (free : l.interrupted = false) :
      Step i closes ⟨some l, a, t, m⟩ ⟨some { l with worker := .busy p }, a, t, m ++ [.began p]⟩
  | abandon (l : Lane Parcel) (p : Parcel) (panic : Option Payload) (a t : List Parcel)
      (m : List Mark) (holding : l.worker = .holding p) (interrupted : l.interrupted = true) :
      Step i closes ⟨some l, a, t, m⟩ ⟨some (l.leave panic), a, t, m⟩
  | conclude (l : Lane Parcel) (p : Parcel) (escape : Option Payload) (a t : List Parcel)
      (m : List Mark) (busy : l.worker = .busy p) :
      Step i closes ⟨some l, a, t, m⟩ ⟨some (l.conclude escape), a, t, m ++ [.ended p]⟩

namespace Dispatcher

variable {α : Type} {d : Dispatcher α} {i j : LaneIndex} {l : Lane α}

theorem lt_of_lane? (h : d.lane? i = some l) : i < d.laneCount := by
  by_contra out
  simp [lane?, List.getElem?_eq_none (Nat.le_of_not_lt out)] at h

theorem slot_of_lane? (h : d.lane? i = some l) : d.lanes[i]? = some (some l) := by
  simpa [lane?, Option.join_eq_some_iff] using h

theorem lane?_setLane_self (l' : Lane α) (h : d.lane? i = some l) :
    (d.setLane i l').lane? i = some l' := by
  rw [lane?_setLane d i i l' (lt_of_lane? h), if_pos rfl]

theorem lane?_setLane_ne (l' : Lane α) (h : i ≠ j) : (d.setLane i l').lane? j = d.lane? j := by
  simp [lane?, setLane, List.getElem?_set_ne h]

end Dispatcher

/-- The lane that a submission is about to stop, and how far it has come. -/
def Submission.closing? {α : Type} (s : Submission α) : Option (LaneIndex × Closing α) :=
  match s.phase with
  | .retiring i c => some (i, c)
  | _ => none

/-- The lane that a stop is about to stop, and how far it has come. -/
def Stopping.closing? {α : Type} : Stopping α → Option (LaneIndex × Closing α)
  | .closing _ i c _ => some (i, c)
  | _ => none

namespace World

variable {V : Type} {d : Dispatcher Parcel} {w w' : World V} {i : LaneIndex}

/-- The lane that a party is about to stop, and how far it has come. -/
def closing? (w : World V) : Party → Option (LaneIndex × Closing Parcel)
  | .stop n => w.stops[n]?.bind Stopping.closing?
  | .submission t => w.submissions[t]?.bind Submission.closing?

/-- Lane `i` of a world seen alone. -/
def track (w : World V) (i : LaneIndex) : Track :=
  ⟨w.dispatcher.lane? i, acceptedOn w.history i, takenOn w.history i, marksOn w.history i⟩

/-- Somebody has come so far with stopping lane `i`. -/
def ClosesOn (w : World V) (i : LaneIndex) (c : Closing Parcel) : Prop :=
  ∃ who, w.closing? who = some (i, c)

theorem track_eq {news : List (Happening V)} (lane : w'.dispatcher.lane? i = w.dispatcher.lane? i)
    (history : w'.history = w.history ++ news) (accepted : acceptedOn news i = [])
    (taken : takenOn news i = []) (marks : marksOn news i = []) : track w' i = track w i := by
  simp only [track, lane, history, List.filterMap_append, accepted, taken, marks, List.append_nil]

theorem lane?_setLane_out (d : Dispatcher Parcel) (l : Lane Parcel) (out : ¬ i < d.laneCount) :
    (d.setLane i l).lanes = d.lanes :=
  List.set_eq_of_length_le (Nat.le_of_not_lt out)

/-- A step of lane `j` is one for the lane seen alone, and leaves all others as they are. -/
theorem track_setLane {j : LaneIndex} {l l' : Lane Parcel} {news : List (Happening V)}
    (lane : w.dispatcher.lane? j = some l) (moved : w'.dispatcher = w.dispatcher.setLane j l')
    (history : w'.history = w.history ++ news)
    (elsewhere : j ≠ i → acceptedOn news i = [] ∧ takenOn news i = [] ∧ marksOn news i = [])
    (step : Track.Step j (w.ClosesOn j)
      ⟨some l, acceptedOn w.history j, takenOn w.history j, marksOn w.history j⟩
      ⟨some l', acceptedOn w.history j ++ acceptedOn news j,
        takenOn w.history j ++ takenOn news j, marksOn w.history j ++ marksOn news j⟩) :
    w'.track i = w.track i ∨ Track.Step i (w.ClosesOn i) (w.track i) (w'.track i) := by
  rcases eq_or_ne j i with rfl | other
  · right
    simpa only [World.track, lane, moved, Dispatcher.lane?_setLane_self _ lane, history,
      List.filterMap_append] using step
  · left
    obtain ⟨accepted, taken, marks⟩ := elsewhere other
    exact track_eq (moved ▸ Dispatcher.lane?_setLane_ne _ other) history accepted taken marks

/-- A lane seen alone stays as it is or makes one step. -/
theorem Effect.track (e : Effect w w') (sound : AllSound w.submissions) (i : LaneIndex) :
    w'.track i = w.track i ∨ Track.Step i (w.ClosesOn i) (w.track i) (w'.track i) := by
  cases e with
  | install t s stamp j own there phase empty =>
    obtain rfl : own = Lane.start j := (sound t s there).own stamp j own phase
    rcases eq_or_ne j i with rfl | other
    · by_cases bound : j < w.dispatcher.laneCount
      · right
        simp only [World.track, Lane.index_start, Dispatcher.lane?_setLane _ _ _ _ bound, if_true]
        rw [show w.dispatcher.lane? j = none from empty]
        exact .install _ _ _
      · left
        refine track_eq ?_ (List.append_nil _).symm rfl rfl rfl
        simp only [Dispatcher.lane?, Lane.index_start, lane?_setLane_out _ _ bound]
    · left
      exact track_eq (Dispatcher.lane?_setLane_ne _ other) (List.append_nil _).symm rfl rfl rfl
  | accept t s stamp j l there phase lane accepting =>
    have here : (s.task j stamp).lane = j := by rw [(sound t s there).task]
    refine track_setLane lane rfl rfl (fun other => by simp [other]) ?_
    simpa using .accept l (s.task j stamp) _ _ _ accepting here
  | retire t s j c l there phase lane unfinished =>
    have under : w.ClosesOn j c :=
      ⟨.submission t, by simp [closing?, there, Submission.closing?, phase]⟩
    refine track_setLane lane rfl rfl (fun _ => by simp) ?_
    simpa using .close l c _ _ _ under
  | shut n kind j c l report there lane unfinished =>
    have under : w.ClosesOn j c := ⟨.stop n, by simp [closing?, there, Stopping.closing?]⟩
    refine track_setLane lane rfl rfl (fun _ => by simp) ?_
    simpa using .close l c _ _ _ under
  | take j l p queue lane idle next =>
    refine track_setLane lane rfl rfl (fun other => by simp [other]) ?_
    simpa using .take l p queue _ _ _ idle next
  | leave j l lane idle empty closed =>
    refine track_setLane lane rfl (List.append_nil _).symm (fun _ => ⟨rfl, rfl, rfl⟩) ?_
    simpa using .leave l _ _ _ idle empty closed
  | start j l p lane holding free =>
    refine track_setLane lane rfl rfl (fun other => by simp [other]) ?_
    simpa using .start l p _ _ _ holding free
  | abandon j l p panic lane holding interrupted =>
    refine track_setLane lane rfl rfl (fun _ => ⟨rfl, rfl, rfl⟩) ?_
    simpa using .abandon l p panic _ _ _ holding interrupted
  | conclude j l p ending escape lane busy =>
    refine track_setLane lane rfl rfl (fun other => by simp [other]) ?_
    simpa using .conclude l p escape _ _ _ busy
  | lookUp t s stamp there phase =>
    exact .inl (track_eq rfl rfl (by simp) (by simp) (by simp))
  | forfeit t s j report there phase =>
    exact .inl (track_eq rfl rfl (by simp) (by simp) (by simp))
  | refuse => exact .inl (track_eq rfl rfl rfl rfl rfl)
  | raiseGraceful => exact .inl (track_eq rfl rfl rfl rfl rfl)
  | raiseForced => exact .inl (track_eq rfl rfl rfl rfl rfl)
  | clear => exact .inl (track_eq rfl rfl rfl rfl rfl)
  | clearLast => exact .inl (track_eq rfl rfl rfl rfl rfl)
  | endStop => exact .inl (track_eq rfl rfl rfl rfl rfl)
  | runReturned => exact .inl (track_eq rfl rfl rfl rfl rfl)
  | dropReturned => exact .inl (track_eq rfl rfl rfl rfl rfl)
  | _ => exact .inl rfl

end World

end OrderedLanes
