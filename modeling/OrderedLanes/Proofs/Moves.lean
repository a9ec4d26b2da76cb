import OrderedLanes.Interleaving.Aftermath
import OrderedLanes.Proofs.Finishing

/-!
What one act does to the calls under way and to what they share, told by the act.
A submission and a stop make the next access of their own; what workers do, and what
callers do with handles and with tasks that came back, changes no call and of the
dispatcher at most a lane.
-/

namespace OrderedLanes

namespace World

variable {V : Type} {w w' : World V}

/-- Filling a slot changes nothing else. -/
structure SlotsOnly (w w' : World V) : Prop where
  dispatcher : w'.dispatcher = w.dispatcher
  submissions : w'.submissions = w.submissions
  stops : w'.stops = w.stops
  returned : w'.returned = w.returned
  history : w'.history = w.history

theorem slotsOnly_deliver (w : World V) (t : Ticket) (o : Outcome V) :
    SlotsOnly w (w.deliver t o).2 := by
  unfold deliver
  split
  · exact ⟨rfl, rfl, rfl, rfl, rfl⟩
  · dsimp only
    split <;> exact ⟨rfl, rfl, rfl, rfl, rfl⟩

/-- The calls stay where they are, and of the dispatcher at most lanes change. -/
structure CallsRest (w w' : World V) : Prop where
  submissions : w'.submissions = w.submissions
  stops : w'.stops = w.stops
  dispatcher : ∃ lanes, w'.dispatcher = { w.dispatcher with lanes }

theorem CallsRest.deliver (h : CallsRest w w') (t : Ticket) (o : Outcome V) :
    CallsRest w (w'.deliver t o).2 := by
  obtain ⟨lanes, dispatcher⟩ := h.dispatcher
  have same := slotsOnly_deliver w' t o
  exact ⟨same.submissions.trans h.submissions, same.stops.trans h.stops, lanes,
    same.dispatcher.trans dispatcher⟩

theorem callsRest_of_step {a : Act V} (late : a.calls = false) (act : w.step a = some w') :
    CallsRest w w' := by
  cases a with
  | receive i =>
    obtain ⟨l, -, -, ⟨p, queue, -, rfl⟩ | ⟨-, -, rfl⟩⟩ := receive_cases act <;>
      exact ⟨rfl, rfl, _, rfl⟩
  | inspect i =>
    obtain ⟨l, p, -, -, ⟨-, rfl⟩ | ⟨-, rfl⟩⟩ := inspect_cases act
    · exact ⟨rfl, rfl, _, rfl⟩
    · have same := slotsOnly_deliver (w.note (.discarded p)) p.ticket (.error .cancelled)
      exact ⟨same.submissions, same.stops, _, congrArg (Dispatcher.setLane · i _) same.dispatcher⟩
  | finish i ending =>
    obtain ⟨l, p, -, -, rfl⟩ := finish_cases act
    have same := slotsOnly_deliver (w.note (.ended p (some i) ending)) p.ticket ending.outcome
    exact ⟨same.submissions, same.stops, _, congrArg (Dispatcher.setLane · i _) same.dispatcher⟩
  | runReturned t ending =>
    obtain ⟨p, -, rfl⟩ := runReturned_cases act
    have rest : CallsRest w (({ w with returned := w.returned.erase p }.note
        (.started p none)).note (.ended p none ending)) := ⟨rfl, rfl, _, rfl⟩
    exact rest.deliver _ _
  | dropReturned t =>
    obtain ⟨p, -, rfl⟩ := dropReturned_cases act
    have rest : CallsRest w ({ w with returned := w.returned.erase p }.note (.dropped p)) :=
      ⟨rfl, rfl, _, rfl⟩
    exact rest.deliver _ _
  | poll t waker =>
    obtain ⟨slot, -, ⟨o, -, rfl⟩ | ⟨-, rfl⟩⟩ := poll_cases act <;> exact ⟨rfl, rfl, _, rfl⟩
  | take t =>
    obtain ⟨slot, -, ⟨o, -, rfl⟩ | ⟨-, rfl⟩⟩ := take_cases act <;> exact ⟨rfl, rfl, _, rfl⟩
  | _ => cases late

/-- What an act does to the calls and to what they share, the lanes apart. -/
inductive Move (w w' : World V) : Act V → Prop
  | begin (a : Act V) (key : Key) (stamped : Bool)
      (submissions : w'.submissions = w.submissions ++
        [.start key stamped fun lane _ => ⟨key, lane, w.submissions.length⟩])
      (stops : w'.stops = w.stops) (dispatcher : w'.dispatcher = w.dispatcher) : Move w w' a
  | beginStop (kind : StopKind) (submissions : w'.submissions = w.submissions)
      (stops : w'.stops = w.stops ++ [.raising kind]) (dispatcher : w'.dispatcher = w.dispatcher) :
      Move w w' (.stop kind)
  | drawStamp (key : Key) (submissions : w'.submissions = w.submissions)
      (stops : w'.stops = w.stops) (dispatcher : w'.dispatcher = (w.dispatcher.nextStamp key).2) :
      Move w w' (.drawStamp key)
  | advance (t : Ticket) (s : Submission Parcel) (there : w.submissions[t]? = some s)
      (going : s.answer? = none)
      (submissions : w'.submissions = w.submissions.set t (s.step w.dispatcher).value.1)
      (stops : w'.stops = w.stops) (dispatcher : w'.dispatcher = (s.step w.dispatcher).value.2) :
      Move w w' (.advance t)
  | refuseThread (t : Ticket) (source : String) (s : Submission Parcel) (stamp : Option Stamp)
      (i : LaneIndex) (there : w.submissions[t]? = some s) (phase : s.phase = .starting stamp i)
      (submissions : w'.submissions =
        w.submissions.set t (s.on (.done ⟨.refused (.laneSpawn i source), []⟩)))
      (stops : w'.stops = w.stops) (dispatcher : w'.dispatcher = w.dispatcher) :
      Move w w' (.refuseThread t source)
  | advanceStop (n : Nat) (s : Stopping Parcel) (there : w.stops[n]? = some s)
      (submissions : w'.submissions = w.submissions)
      (stops : w'.stops = w.stops.set n (s.step w.dispatcher).1)
      (dispatcher : w'.dispatcher = (s.step w.dispatcher).2) : Move w w' (.advanceStop n)
  | rest (a : Act V) (same : CallsRest w w') : Move w w' a

theorem move_of_step {a : Act V} (act : w.step a = some w') : Move w w' a := by
  cases late : a.calls with
  | false => exact .rest a (callsRest_of_step late act)
  | true =>
    cases a with
    | submit key stamped =>
      obtain rfl := Option.some.inj act
      exact .begin _ key stamped rfl rfl rfl
    | submitUnordered =>
      obtain rfl := Option.some.inj act
      exact .begin _ _ false rfl rfl rfl
    | stop kind =>
      obtain rfl := Option.some.inj act
      exact .beginStop kind rfl rfl rfl
    | drawStamp key =>
      obtain rfl := Option.some.inj act
      exact .drawStamp key rfl rfl rfl
    | advance t =>
      obtain ⟨s, there, going, dispatcher, submissions, stops⟩ := advance_cases act
      exact .advance t s there going submissions stops dispatcher
    | refuseThread t source =>
      obtain ⟨s, stamp, i, there, phase, rfl⟩ := refuseThread_cases act
      exact .refuseThread t source s stamp i there phase rfl rfl rfl
    | advanceStop n =>
      obtain ⟨s, there, going, dispatcher, stops, submissions⟩ := advanceStop_cases act
      exact .advanceStop n s there submissions stops dispatcher
    | _ => cases late

/--
What holds of every submission goes on to hold if it holds of those that begin, and is kept by an
access and by the want of a thread.
-/
theorem Move.allSubmissions {a : Act V} (m : Move w w' a) {P : Ticket → Submission Parcel → Prop}
    (all : ∀ t s, w.submissions[t]? = some s → P t s)
    (begins : ∀ t key stamped, P t (.start key stamped fun lane _ => ⟨key, lane, t⟩))
    (steps : ∀ t s, P t s → s.answer? = none → P t (s.step w.dispatcher).value.1)
    (fails : ∀ t s stamp i submitted, P t s → s.phase = .starting stamp i →
      P t (s.on (.done submitted))) (t : Ticket) (s : Submission Parcel)
    (there : w'.submissions[t]? = some s) : P t s := by
  have same : w'.submissions = w.submissions → P t s := fun same => all t s (same ▸ there)
  cases m with
  | begin a key stamped submissions stops dispatcher =>
    rw [submissions] at there
    rcases getElem?_snoc_cases there with ⟨rfl, rfl⟩ | old
    · exact begins _ key stamped
    · exact all t s old
  | advance u r found going submissions stops dispatcher =>
    rw [submissions] at there
    rcases getElem?_set_cases there with ⟨rfl, rfl⟩ | ⟨-, old⟩
    · exact steps t r (all t r found) going
    · exact all t s old
  | refuseThread u source r stamp i found phase submissions stops dispatcher =>
    rw [submissions] at there
    rcases getElem?_set_cases there with ⟨rfl, rfl⟩ | ⟨-, old⟩
    · exact fails t r stamp i _ (all t r found) phase
    · exact all t s old
  | beginStop kind submissions => exact same submissions
  | drawStamp key submissions => exact same submissions
  | advanceStop n r found submissions => exact same submissions
  | rest a rest => exact same rest.submissions

end World

end OrderedLanes
