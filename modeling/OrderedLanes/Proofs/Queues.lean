import OrderedLanes.Proofs.Halts

/-!
The queue of a lane. A task joins it at the end when it is accepted and leaves it
at the head, taken by the lane's worker or by whoever drains the lane; nothing
else changes it. What a party has taken back is therefore an in-order part of
what the lane accepted, and all of it if the worker took nothing meanwhile.
-/

namespace OrderedLanes

/-- An access of whoever stops a lane takes nothing, or the head of the queue. -/
theorem Closing.gathers {α : Type} (c : Closing α) (l : Lane α) :
    (c.step l).1.gathered = c.gathered ∧ (c.step l).2.queue = l.queue ∨
      ∃ error drained p, c = .draining error drained ∧
        (c.step l).1.gathered = c.gathered ++ [p] ∧ l.queue = p :: (c.step l).2.queue := by
  rcases c.queue_step l with queue | ⟨error, drained, p, rfl, next, queue⟩
  · refine .inl ⟨?_, queue⟩
    cases c with
    | marking kind => cases kind <;> simp only [step] <;> split <;> rfl
    | looking kind => cases kind <;> rfl
    | interrupting error => rfl
    | sealing kind error => cases kind <;> rfl
    | draining error drained =>
      cases next : l.queue with
      | nil => simp [step, next, gathered]
      | cons p rest => simp [step, next] at queue
    | done report => rfl
  · exact .inr ⟨error, drained, p, rfl, by rw [next]; rfl, queue⟩

/-- One place of a list was changed. -/
theorem elim_set {α β : Type} {l : List α} {n : Nat} {a : α} (g : α → List β)
    (there : l[n]? = some a) (b : α) (m : Nat) :
    (l.set n b)[m]?.elim [] g = if m = n then g b else l[m]?.elim [] g := by
  by_cases same : m = n
  · subst same
    rw [List.getElem?_set_self (List.getElem?_eq_some_iff.1 there).1, if_pos rfl]
    rfl
  · rw [List.getElem?_set_ne (Ne.symm same), if_neg same]

theorem elim_snoc {α β : Type} (l : List α) {a : α} (g : α → List β) (none : g a = []) (m : Nat) :
    (l ++ [a])[m]?.elim [] g = l[m]?.elim [] g := by
  rcases Nat.lt_trichotomy m l.length with before | rfl | after
  · rw [List.getElem?_append_left before]
  · simp [none]
  · rw [List.getElem?_eq_none (by simp; omega), List.getElem?_eq_none (Nat.le_of_lt after)]

namespace Dispatcher

variable {α : Type} {d : Dispatcher α} {j : LaneIndex} {l : Lane α}

/-- The tasks that wait on a lane. -/
def waitingOn (d : Dispatcher α) (i : LaneIndex) : List α := (d.lane? i).elim [] Lane.queue

theorem waitingOn_lane (lane : d.lane? j = some l) : d.waitingOn j = l.queue := by
  rw [waitingOn, lane]
  rfl

theorem waitingOn_setLane (lane : d.lane? j = some l) (l' : Lane α) (i : LaneIndex) :
    (d.setLane j l').waitingOn i = if j = i then l'.queue else d.waitingOn i := by
  by_cases same : j = i
  · subst same
    rw [waitingOn, lane?_setLane_self _ lane, if_pos rfl]
    rfl
  · rw [waitingOn, lane?_setLane_ne _ same, if_neg same]
    rfl

theorem waitingOn_setLane_same (lane : d.lane? j = some l) (l' : Lane α)
    (queue : l'.queue = l.queue) (i : LaneIndex) :
    (d.setLane j l').waitingOn i = d.waitingOn i := by
  rw [waitingOn_setLane lane]
  by_cases same : j = i
  · subst same
    rw [if_pos rfl, queue, waitingOn_lane lane]
  · rw [if_neg same]

end Dispatcher

namespace World

variable {V : Type} {d : Dispatcher Parcel} {w w' : World V} {i : LaneIndex}

/-- The tasks that a party has taken back so far. -/
def gathered (w : World V) : Party → List Parcel
  | .stop n => w.stops[n]?.elim [] Stopping.gathered
  | .submission t => w.submissions[t]?.elim [] Submission.gathered

/-- Nobody takes anything back from lane `i`; a submission may throw away what it has. -/
def Untouched (w w' : World V) (i : LaneIndex) : Prop :=
  ∀ who, w'.gathered who = w.gathered who ∨
    (∃ t, who = .submission t ∧ w'.gathered who = []) ∨
    ∃ p, p.lane ≠ i ∧ w'.gathered who = w.gathered who ++ [p]

theorem untouched_of_submission {t : Ticket} {s s' : Submission Parcel}
    (there : w.submissions[t]? = some s) (stops : w'.stops = w.stops)
    (submissions : w'.submissions = w.submissions.set t s')
    (after : s'.gathered = s.gathered ∨ s'.gathered = []) : Untouched w w' i := by
  intro who
  cases who with
  | stop n => exact .inl (by simp only [gathered, stops])
  | submission u =>
    simp only [gathered, submissions, elim_set _ there]
    by_cases same : u = t
    · subst same
      simp only [if_pos, there, Option.elim_some]
      exact after.imp id fun none => .inl ⟨u, rfl, none⟩
    · exact .inl (if_neg same)

theorem untouched_of_stop {n : Nat} {s s' : Stopping Parcel} (there : w.stops[n]? = some s)
    (submissions : w'.submissions = w.submissions) (stops : w'.stops = w.stops.set n s')
    (after : s'.gathered = s.gathered) : Untouched w w' i := by
  intro who
  cases who with
  | submission t => exact .inl (by simp only [gathered, submissions])
  | stop m =>
    simp only [gathered, stops, elim_set _ there]
    by_cases same : m = n
    · subst same
      simp only [if_pos, there, Option.elim_some]
      exact .inl after
    · exact .inl (if_neg same)

theorem untouched_of_parties (submissions : w'.submissions = w.submissions)
    (stops : w'.stops = w.stops) : Untouched w w' i := by
  intro who
  left
  cases who <;> simp only [gathered, submissions, stops]

/-- What an act does to the queue of lane `i`. -/
inductive QueueMove (w w' : World V) (i : LaneIndex) : Prop
  | rest (waiting : w'.dispatcher.waitingOn i = w.dispatcher.waitingOn i)
      (untouched : Untouched w w' i)
  | joined (p : Parcel) (l : Lane Parcel) (lane : w.dispatcher.lane? i = some l)
      (accepting : l.accepting = true)
      (waiting : w'.dispatcher.waitingOn i = w.dispatcher.waitingOn i ++ [p])
      (accepted : acceptedOn w'.history i = acceptedOn w.history i ++ [p])
      (untouched : Untouched w w' i)
  | taken (p : Parcel) (waiting : w.dispatcher.waitingOn i = p :: w'.dispatcher.waitingOn i)
      (taken : takenOn w'.history i = takenOn w.history i ++ [p]) (untouched : Untouched w w' i)
  | drained (who : Party) (p : Parcel) (error : Option LaneError) (drained : List Parcel)
      (closing : w.closing? who = some (i, .draining error drained)) (here : p.lane = i)
      (waiting : w.dispatcher.waitingOn i = p :: w'.dispatcher.waitingOn i)
      (gathered : w'.gathered who = w.gathered who ++ [p])
      (others : ∀ other, other ≠ who → w'.gathered other = w.gathered other)

/-- The tasks that wait on a lane were accepted there. -/
theorem Reachable.lane_of_waiting (h : Reachable d w) (new : d.Fresh) {l : Lane Parcel}
    (lane : w.dispatcher.lane? i = some l) {p : Parcel} (waiting : p ∈ l.queue) : p.lane = i := by
  have orderly := h.inOrder new lane
  exact orderly.here p (orderly.waiting.subset waiting)

/-- What an access of whoever stops lane `j` does to the queue of lane `i`. -/
theorem queueMove_of_closing {who : Party} {j : LaneIndex} {c : Closing Parcel} {l : Lane Parcel}
    (lane : w.dispatcher.lane? j = some l) (here : ∀ p ∈ l.queue, p.lane = j)
    (before : w.closing? who = some (j, c))
    (lanes : w'.dispatcher = w.dispatcher.setLane j (c.step l).2)
    (others : ∀ other, other ≠ who → w'.gathered other = w.gathered other)
    (kept : (c.step l).1.gathered = c.gathered → w'.gathered who = w.gathered who)
    (adds : ∀ p, (c.step l).1.gathered = c.gathered ++ [p] →
      w'.gathered who = w.gathered who ++ [p]) (i : LaneIndex) : QueueMove w w' i := by
  rcases c.gathers l with ⟨same, queue⟩ | ⟨error, drained, p, rfl, more, queue⟩
  · refine .rest (by rw [lanes, Dispatcher.waitingOn_setLane_same lane _ queue])
      fun other => .inl ?_
    by_cases own : other = who
    · exact own ▸ kept same
    · exact others other own
  · have home : p.lane = j := here p (by rw [queue]; simp)
    rcases eq_or_ne j i with rfl | apart
    · refine .drained who p error drained before home ?_ (adds p more) others
      rw [lanes, Dispatcher.waitingOn_setLane lane, if_pos rfl, Dispatcher.waitingOn_lane lane]
      exact queue
    · refine .rest (by rw [lanes, Dispatcher.waitingOn_setLane lane, if_neg apart])
        fun other => ?_
      by_cases own : other = who
      · exact .inr (.inr ⟨p, home ▸ apart, own ▸ adds p more⟩)
      · exact .inl (others other own)

theorem Effect.queue (e : Effect w w') (before : Reachable d w) (new : d.Fresh) (i : LaneIndex) :
    QueueMove w w' i := by
  cases e with
  | rest => exact .rest rfl (untouched_of_parties rfl rfl)
  | begin key stamped =>
    refine .rest rfl fun who => .inl ?_
    cases who with
    | stop n => rfl
    | submission t => exact elim_snoc _ _ (by cases stamped <;> rfl) t
  | beginStop kind =>
    refine .rest rfl fun who => .inl ?_
    cases who with
    | stop n => exact elim_snoc _ _ rfl n
    | submission t => rfl
  | drawStamp key => exact .rest rfl (untouched_of_parties rfl rfl)
  | look t s phase there looks =>
    exact .rest rfl (untouched_of_submission there rfl rfl (.inl (gathered_of_look looks)))
  | stamp t s drawn there phase =>
    exact .rest rfl (untouched_of_submission there rfl rfl (.inr rfl))
  | lookUp t s stamp there phase =>
    exact .rest rfl (untouched_of_submission there rfl rfl (.inr rfl))
  | refuse t s submitted there refused =>
    exact .rest rfl (untouched_of_submission there rfl rfl (.inr rfl))
  | install t s stamp j own there phase empty =>
    obtain rfl : own = Lane.start j := (before.allSound t s there).own stamp j own phase
    refine .rest ?_ (untouched_of_submission there rfl rfl (.inr rfl))
    simp only [Dispatcher.waitingOn]
    rcases eq_or_ne j i with rfl | other
    · by_cases bound : j < w.dispatcher.laneCount
      · rw [Lane.index_start, Dispatcher.lane?_setLane _ _ _ _ bound, if_pos rfl]
        rw [show w.dispatcher.lane? j = none from empty]
        rfl
      · simp only [Dispatcher.lane?, Lane.index_start, lane?_setLane_out _ _ bound]
    · rw [Lane.index_start, Dispatcher.lane?_setLane_ne _ other]
  | accept t s stamp j l there phase lane accepting =>
    rcases eq_or_ne j i with rfl | apart
    · refine .joined (s.task j stamp) l lane accepting ?_ (by simp)
        (untouched_of_submission there rfl rfl (.inr rfl))
      rw [Dispatcher.waitingOn_setLane lane, if_pos rfl, Dispatcher.waitingOn_lane lane]
    · refine .rest ?_ (untouched_of_submission there rfl rfl (.inr rfl))
      rw [Dispatcher.waitingOn_setLane lane, if_neg apart]
  | retire t s j c l there phase lane unfinished =>
    have was : s.gathered = c.gathered := by simp [Submission.gathered, phase]
    refine queueMove_of_closing lane (fun p => before.lane_of_waiting new lane)
      (closing?_submission.2 ⟨s, there, phase⟩) rfl ?_ ?_ ?_ i
    · intro other apart
      cases other with
      | stop n => rfl
      | submission u =>
        simp only [gathered, elim_set _ there]
        exact if_neg fun same => apart (by rw [same])
    · intro same
      simp only [gathered, elim_set _ there, if_pos, there, Option.elim_some, was]
      exact same
    · intro p more
      simp only [gathered, elim_set _ there, if_pos, there, Option.elim_some, was]
      exact more
  | forfeit t s j report there phase =>
    exact .rest rfl (untouched_of_submission there rfl rfl (.inr rfl))
  | stopLook n s s' there looks =>
    exact .rest rfl (untouched_of_stop there rfl rfl
      (gathered_of_stopLook before.nothingLost there looks))
  | raiseGraceful n there down => exact .rest rfl (untouched_of_stop there rfl rfl rfl)
  | raiseForced n there down => exact .rest rfl (untouched_of_stop there rfl rfl rfl)
  | follow n there => exact .rest rfl (untouched_of_stop there rfl rfl rfl)
  | clear n report there => exact .rest rfl (untouched_of_stop there rfl rfl rfl)
  | clearLast n report there => exact .rest rfl (untouched_of_stop there rfl rfl rfl)
  | endStop n s report there ends =>
    exact .rest rfl (untouched_of_stop there rfl rfl (gathered_of_stopEnd ends))
  | shut n kind j c l report there lane unfinished =>
    refine queueMove_of_closing lane (fun p => before.lane_of_waiting new lane)
      (closing?_stop.2 ⟨kind, report, there⟩) rfl ?_ ?_ ?_ i
    · intro other apart
      cases other with
      | submission t => rfl
      | stop m =>
        simp only [gathered, elim_set _ there]
        exact if_neg fun same => apart (by rw [same])
    · intro same
      simp only [gathered, elim_set _ there, if_pos, there, Option.elim_some, Stopping.gathered,
        same]
    · intro p more
      simp only [gathered, elim_set _ there, if_pos, there, Option.elim_some, Stopping.gathered,
        more, List.append_assoc]
  | take j l p queue lane idle next =>
    rcases eq_or_ne j i with rfl | apart
    · refine .taken p ?_ (by simp) (untouched_of_parties rfl rfl)
      rw [Dispatcher.waitingOn_setLane lane, if_pos rfl, Dispatcher.waitingOn_lane lane]
      exact next
    · refine .rest ?_ (untouched_of_parties rfl rfl)
      rw [Dispatcher.waitingOn_setLane lane, if_neg apart]
  | leave j l lane idle empty closed =>
    exact .rest (Dispatcher.waitingOn_setLane_same lane (l.leave none) rfl i)
      (untouched_of_parties rfl rfl)
  | start j l p lane holding free =>
    exact .rest (Dispatcher.waitingOn_setLane_same lane { l with worker := .busy p } rfl i)
      (untouched_of_parties rfl rfl)
  | abandon j l p panic lane holding interrupted =>
    exact .rest (Dispatcher.waitingOn_setLane_same lane (l.leave panic) rfl i)
      (untouched_of_parties rfl rfl)
  | conclude j l p ending escape lane busy =>
    refine .rest (Dispatcher.waitingOn_setLane_same lane (l.conclude escape) ?_ i)
      (untouched_of_parties rfl rfl)
    unfold Lane.conclude
    split <;> rfl
  | runReturned p ending there => exact .rest rfl (untouched_of_parties rfl rfl)
  | dropReturned p there => exact .rest rfl (untouched_of_parties rfl rfl)

/-! ### What a party takes back -/

/-- The tasks of lane `i` among some tasks. -/
def ofLane (i : LaneIndex) (ps : List Parcel) : List Parcel := ps.filter (·.lane = i)

theorem ofLane_append (i : LaneIndex) (ps qs : List Parcel) :
    ofLane i (ps ++ qs) = ofLane i ps ++ ofLane i qs :=
  List.filter_append ps qs

theorem ofLane_snoc {p : Parcel} (i : LaneIndex) (ps : List Parcel) :
    ofLane i (ps ++ [p]) = if p.lane = i then ofLane i ps ++ [p] else ofLane i ps := by
  rw [ofLane_append]
  by_cases here : p.lane = i <;> simp [ofLane, here]

theorem Untouched.sublist (h : Untouched w w' i) (who : Party) :
    (ofLane i (w'.gathered who)).Sublist (ofLane i (w.gathered who)) := by
  rcases h who with same | ⟨t, -, none⟩ | ⟨p, elsewhere, more⟩
  · exact same ▸ .refl _
  · rw [none]
    exact List.nil_sublist _
  · have kept : ofLane i (w'.gathered who) = ofLane i (w.gathered who) := by
      rw [more, ofLane_snoc, if_neg elsewhere]
    exact kept ▸ .refl _

/-- What a party took back from a lane, and what still waits there, is in the lane's order. -/
theorem Reachable.gathered_sublist (h : Reachable d w) (new : d.Fresh) (who : Party)
    (i : LaneIndex) :
    (ofLane i (w.gathered who) ++ w.dispatcher.waitingOn i).Sublist (acceptedOn w.history i) := by
  induction h with
  | start =>
    have none : (fresh (V := V) d ⟨0⟩).gathered who = [] := by cases who <;> simp [gathered, fresh]
    have idle : d.waitingOn i = [] := by rw [Dispatcher.waitingOn, new.lanes i]; rfl
    rw [none]
    change (ofLane i [] ++ d.waitingOn i).Sublist _
    rw [idle]
    exact .refl _
  | @step w w' before effect ih =>
    have grown := (acceptedOn_grows effect.history i).sublist
    cases effect.queue before new i with
    | rest waiting untouched =>
      rw [waiting]
      exact ((untouched.sublist who).append (.refl _)).trans (ih.trans grown)
    | joined p l lane accepting waiting accepted untouched =>
      rw [waiting, accepted, ← List.append_assoc]
      exact (((untouched.sublist who).append (.refl _)).trans ih).append (.refl _)
    | taken p waiting taken untouched =>
      rw [waiting] at ih
      have shorter := (untouched.sublist who).append (List.sublist_cons_self p
        (w'.dispatcher.waitingOn i))
      exact shorter.trans (ih.trans grown)
    | drained actor p error drained closing here waiting gathered others =>
      rw [waiting] at ih
      by_cases own : who = actor
      · subst own
        rw [gathered, ofLane_snoc, if_pos here, List.append_assoc]
        exact ih.trans grown
      · rw [others who own]
        exact ((List.Sublist.refl _).append (List.sublist_cons_self _ _)).trans (ih.trans grown)

theorem mem_haltsOn {history : List (Happening V)} {who : Party} :
    who ∈ haltsOn history i ↔ .halted i who ∈ history := by
  simp only [List.mem_filterMap]
  constructor
  · rintro ⟨h, found, same⟩
    cases h with
    | halted j halter =>
      by_cases here : j = i
      · subst here
        obtain rfl : halter = who := by simpa using same
        exact found
      · simp [here] at same
    | _ => cases same
  · intro found
    exact ⟨_, found, by simp⟩

/-- A party takes tasks back from lanes only that it halted. -/
theorem Reachable.halted_of_gathered (h : Reachable d w) (new : d.Fresh) {who : Party}
    {p : Parcel} (taken : p ∈ w.gathered who) : .halted p.lane who ∈ w.history := by
  induction h with
  | start => cases who <;> simp [gathered, fresh] at taken
  | @step w w' before effect ih =>
    have grown := effect.history.subset
    have untouched : Untouched w w' p.lane → p ∈ w.gathered who := by
      intro untouched
      rcases untouched who with same | ⟨t, -, none⟩ | ⟨q, elsewhere, more⟩
      · exact same ▸ taken
      · simp [none] at taken
      · rw [more, List.mem_append, List.mem_singleton] at taken
        exact taken.resolve_right fun same => elsewhere (same ▸ rfl)
    cases effect.queue before new p.lane with
    | rest waiting quiet => exact grown (ih (untouched quiet))
    | joined q l lane accepting waiting accepted quiet => exact grown (ih (untouched quiet))
    | taken q waiting taken quiet => exact grown (ih (untouched quiet))
    | drained actor q error drained closing here waiting gathered others =>
      by_cases own : who = actor
      · subst own
        rw [gathered, List.mem_append, List.mem_singleton] at taken
        rcases taken with old | rfl
        · exact grown (ih old)
        · have owner := (before.oneHalter new).owner who p.lane _ closing (.inl trivial)
          exact grown (mem_haltsOn.1 (owner ▸ List.mem_singleton_self who))
      · exact grown (ih (others who own ▸ taken))

theorem Later.grows {v w : World V} (later : Later v w) (h : Reachable d v) {l : Lane Parcel}
    (lane : v.dispatcher.lane? i = some l) :
    ∃ l', w.dispatcher.lane? i = some l' ∧ l.Grows l' := by
  induction later with
  | refl => exact ⟨l, lane, .refl l⟩
  | step before effect ih =>
    obtain ⟨l₁, lane₁, grows₁⟩ := ih
    obtain ⟨l₂, lane₂, grows₂⟩ := effect.grows (before.reachable h).allSound lane₁
    exact ⟨l₂, lane₂, grows₁.trans grows₂⟩

/-- While the worker takes nothing, the stop that halted a closed lane gets all that waits there. -/
theorem Later.drain_whole {v w : World V} (later : Later v w) (h : Reachable d v) (new : d.Fresh)
    {n : Nat} {l : Lane Parcel} (lane : v.dispatcher.lane? i = some l)
    (closed : l.accepting = false) (halted : .halted i (.stop n) ∈ v.history)
    (still : takenOn w.history i = takenOn v.history i) :
    ofLane i (w.gathered (.stop n)) ++ w.dispatcher.waitingOn i =
      ofLane i (v.gathered (.stop n)) ++ v.dispatcher.waitingOn i := by
  induction later with
  | refl => rfl
  | @step w w' before effect ih =>
    have reached := before.reachable h
    have first : takenOn v.history i <+: takenOn w.history i := before.history.filterMap _
    have second : takenOn w.history i <+: takenOn w'.history i := effect.history.filterMap _
    have idle : takenOn w.history i = takenOn v.history i :=
      (first.eq_of_length_le (still ▸ second.length_le)).symm
    have rest := ih idle
    have quiet : Untouched w w' i →
        ofLane i (w'.gathered (.stop n)) = ofLane i (w.gathered (.stop n)) := by
      intro untouched
      rcases untouched (.stop n) with same | ⟨t, other, -⟩ | ⟨p, elsewhere, more⟩
      · rw [same]
      · cases other
      · rw [more, ofLane_snoc, if_neg elsewhere]
    cases effect.queue reached new i with
    | rest waiting untouched => rw [waiting, quiet untouched, rest]
    | joined p l' lane' accepting =>
      obtain ⟨l'', lane'', grows⟩ := before.grows h lane
      obtain rfl := Option.some.inj (lane'.symm.trans lane'')
      simp [grows.closed closed] at accepting
    | taken p waiting taken untouched =>
      rw [taken, idle] at still
      simp at still
    | drained who p error drained closing here waiting gathered others =>
      have only := (reached.oneHalter new).halts_eq (mem_haltsOn.2 (before.history.subset halted))
      have owner := (reached.oneHalter new).owner who i _ closing (.inl trivial)
      obtain rfl : who = .stop n := by simpa [owner] using only
      rw [gathered, ofLane_snoc, if_pos here, ← rest, waiting, List.append_assoc]
      rfl

end World

end OrderedLanes
