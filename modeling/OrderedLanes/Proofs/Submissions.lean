import OrderedLanes.Proofs.Acts

/-!
Submissions on their way: each carries its own task and, where it is about to
install a lane, an untouched one. Once it has looked its key up it keeps to the
lane it found, and once it has ended it stays as it is, so that every accepted task
stands for one submission.
-/

namespace OrderedLanes

/-- What stands in a list after one place was changed. -/
theorem getElem?_set_cases {α : Type} {l : List α} {t u : Nat} {a b : α}
    (h : (l.set t a)[u]? = some b) : u = t ∧ b = a ∨ u ≠ t ∧ l[u]? = some b := by
  rcases eq_or_ne u t with rfl | other
  · rw [List.getElem?_set_self'] at h
    obtain ⟨-, -, rfl⟩ := Option.map_eq_some_iff.1 h
    exact .inl ⟨rfl, rfl⟩
  · rw [List.getElem?_set_ne other.symm] at h
    exact .inr ⟨other, h⟩

theorem getElem?_set_there {α : Type} {l : List α} {t : Nat} {a : α} (there : l[t]? = some a)
    (b : α) : (l.set t b)[t]? = some b :=
  List.getElem?_set_self (List.getElem?_eq_some_iff.1 there).1

/-- What stands in a list after one item was added. -/
theorem getElem?_snoc_cases {α : Type} {l : List α} {u : Nat} {a b : α}
    (h : (l ++ [a])[u]? = some b) : u = l.length ∧ b = a ∨ l[u]? = some b := by
  rcases Nat.lt_trichotomy u l.length with before | rfl | after
  · rw [List.getElem?_append_left before] at h
    exact .inr h
  · simp only [List.getElem?_concat_length, Option.some.injEq] at h
    exact .inl ⟨rfl, h.symm⟩
  · rw [List.getElem?_eq_none (by simp; omega)] at h
    cases h

theorem getElem?_snoc_there {α : Type} {l : List α} {t : Nat} {a : α} (there : l[t]? = some a)
    (b : α) : (l ++ [b])[t]? = some a :=
  (List.getElem?_append_left (List.getElem?_eq_some_iff.1 there).1).trans there

/-- A submission that carries the task of its ticket. -/
structure Submission.Sound (t : Ticket) (s : Submission Parcel) : Prop where
  task : ∀ lane stamp, s.task lane stamp = ⟨s.key, lane, t⟩
  own : ∀ stamp i l, s.phase = .installing stamp i l → l = Lane.start i

/-- The lane that a submission found and has not ended on. -/
def Submission.lane? {α : Type} (s : Submission α) : Option LaneIndex :=
  match s.phase with
  | .seeking _ i | .starting _ i | .installing _ i _ | .yielding _ i _ _ | .rechecking _ i
  | .choosing i | .retiring i _ | .queueing _ i => some i
  | _ => none

namespace World

variable {V : Type} {d : Dispatcher Parcel} {w w' : World V} {t : Ticket}
  {s s' : Submission Parcel} {subs : List (Submission Parcel)}

/-- Every submission carries the task of its ticket. -/
def AllSound (subs : List (Submission Parcel)) : Prop :=
  ∀ t s, subs[t]? = some s → Submission.Sound t s

/-- A submission goes on to a phase without a lane of its own. -/
theorem AllSound.set (h : AllSound subs) (there : subs[t]? = some s)
    (phase : SubmissionPhase Parcel)
    (own : ∀ stamp i l, phase = .installing stamp i l → l = Lane.start i) :
    AllSound (subs.set t (s.on phase)) := by
  intro u r found
  rcases getElem?_set_cases found with ⟨rfl, rfl⟩ | ⟨-, found⟩
  · exact ⟨(h u s there).task, own⟩
  · exact h u r found

theorem Effect.allSound (e : Effect w w') (h : AllSound w.submissions) :
    AllSound w'.submissions := by
  cases e with
  | begin key stamped =>
    intro u r found
    rcases getElem?_snoc_cases found with ⟨rfl, rfl⟩ | found
    · refine ⟨fun _ _ => rfl, ?_⟩
      intro stamp i l phase
      cases stamped <;> cases phase
    · exact h u r found
  | look t s phase there looks =>
    refine h.set there phase ?_
    intro stamp i l own
    generalize s.phase = now at looks
    cases looks <;> cases own
    rfl
  | stamp t s drawn there phase => exact h.set there _ (by simp)
  | lookUp t s stamp there phase => exact h.set there _ (by simp)
  | refuse t s submitted there refused => exact h.set there _ (by simp)
  | install t s stamp i own there phase empty => exact h.set there _ (by simp)
  | accept t s stamp i l there phase lane accepting => exact h.set there _ (by simp)
  | retire t s i c l there phase lane unfinished => exact h.set there _ (by simp)
  | forfeit t s i report there phase => exact h.set there _ (by simp)
  | _ => exact h

theorem Reachable.allSound (h : Reachable d w) : AllSound w.submissions := by
  induction h with
  | start => simp [AllSound, fresh]
  | step before effect ih => exact effect.allSound ih

theorem Effect.history (e : Effect w w') : w.history <+: w'.history := by
  cases e <;> first | exact List.prefix_append _ _ | exact List.prefix_refl _

theorem Later.history {v w : World V} (later : Later v w) : v.history <+: w.history := by
  induction later with
  | refl => exact List.prefix_refl _
  | step before effect ih => exact ih.trans effect.history

/-- A submission that has ended stays as it is. -/
theorem Effect.ended (e : Effect w w') {submitted : Submitted Parcel}
    (there : w.submissions[t]? = some s) (ended : s.phase = .done submitted) :
    w'.submissions[t]? = some s := by
  have other : ∀ {u r s'}, w.submissions[u]? = some r → r.phase ≠ s.phase →
      (w.submissions.set u s')[t]? = some s := by
    intro u r s' found apart
    rw [List.getElem?_set_ne, there]
    rintro rfl
    obtain rfl := Option.some.inj (there.symm.trans found)
    exact apart rfl
  rw [ended] at other
  cases e with
  | begin key stamped =>
    exact (List.getElem?_append_left (List.getElem?_eq_some_iff.1 there).1).trans there
  | look u r phase found looks =>
    refine other found ?_
    intro same
    rw [same] at looks
    cases looks
  | stamp u r drawn found phase => exact other found (by simp [phase])
  | lookUp u r stamp found phase => exact other found (by simp [phase])
  | refuse u r submitted found refused =>
    refine other found ?_
    intro same
    rw [same] at refused
    cases refused
  | install u r stamp i own found phase empty => exact other found (by simp [phase])
  | accept u r stamp i l found phase lane accepting => exact other found (by simp [phase])
  | retire u r i c l found phase lane unfinished => exact other found (by simp [phase])
  | forfeit u r i report found phase => exact other found (by simp [phase])
  | _ => exact there

theorem Later.ended {v : World V} (later : Later v w) {submitted : Submitted Parcel}
    (there : v.submissions[t]? = some s) (ended : s.phase = .done submitted) :
    w.submissions[t]? = some s := by
  induction later with
  | refl => exact there
  | step before effect ih => exact effect.ended ih ended

/-- Every submission with a lane found it by looking its key up. -/
def AllResolved (w : World V) : Prop :=
  ∀ t s i, w.submissions[t]? = some s → s.lane? = some i → .resolved t s.key i ∈ w.history

/-- A submission goes on, to no lane other than the one it has. -/
theorem AllResolved.set (h : AllResolved w) (there : w.submissions[t]? = some s)
    (grows : w.history ⊆ w'.history) (phase : SubmissionPhase Parcel)
    (subs : w'.submissions = w.submissions.set t (s.on phase))
    (keeps : ∀ i, (s.on phase).lane? = some i →
      s.lane? = some i ∨ .resolved t s.key i ∈ w'.history) : AllResolved w' := by
  intro u r i found lane
  rw [subs] at found
  rcases getElem?_set_cases found with ⟨rfl, rfl⟩ | ⟨-, found⟩
  · rcases keeps i lane with same | noted
    · exact grows (h u s i there same)
    · exact noted
  · exact grows (h u r i found lane)

theorem Effect.allResolved (e : Effect w w') (h : AllResolved w) : AllResolved w' := by
  have grows := e.history.subset
  cases e with
  | begin key stamped =>
    intro u r i found lane
    rcases getElem?_snoc_cases found with ⟨-, rfl⟩ | found
    · cases stamped <;> cases lane
    · exact h u r i found lane
  | look t s phase there looks =>
    refine h.set there grows phase rfl ?_
    obtain ⟨key, task, now⟩ := s
    cases looks <;> exact fun i lane => .inl lane
  | stamp t s drawn there phase =>
    exact h.set there grows _ rfl (by simp [Submission.lane?, Submission.on])
  | lookUp t s stamp there phase =>
    refine h.set there grows _ rfl fun i lane => .inr ?_
    obtain rfl := Option.some.inj lane
    simp
  | refuse t s submitted there refused =>
    exact h.set there grows _ rfl (by simp [Submission.lane?, Submission.on])
  | install t s stamp i own there phase empty =>
    refine h.set there grows _ rfl fun j lane => .inl ?_
    simpa [Submission.lane?, phase, Submission.on] using lane
  | accept t s stamp i l there phase lane accepting =>
    exact h.set there grows _ rfl (by simp [Submission.lane?, Submission.on])
  | retire t s i c l there phase lane unfinished =>
    refine h.set there grows _ rfl fun j lane => .inl ?_
    simpa [Submission.lane?, phase, Submission.on] using lane
  | forfeit t s i report there phase =>
    exact h.set there grows _ rfl (by simp [Submission.lane?, Submission.on])
  | _ => exact fun t s i there lane => grows (h t s i there lane)

theorem Reachable.allResolved (h : Reachable d w) : AllResolved w := by
  induction h with
  | start => simp [AllResolved, fresh]
  | step before effect ih => exact effect.allResolved ih

/-- What an accepted task says about its submission. -/
structure Identified (w : World V) (p : Parcel) (i : LaneIndex) : Prop where
  lane : p.lane = i
  resolved : .resolved p.ticket p.key i ∈ w.history
  ended : ∃ s stamp, w.submissions[p.ticket]? = some s ∧ s.phase = .done ⟨.accepted stamp, []⟩

theorem accepted_append (history news : List (Happening V)) :
    accepted (history ++ news) = accepted history ++ accepted news :=
  List.filterMap_append

theorem mem_accepted {history : List (Happening V)} {p : Parcel} :
    p ∈ accepted history ↔ ∃ i, .accepted p i ∈ history := by
  simp only [List.mem_filterMap]
  constructor
  · rintro ⟨h, found, same⟩
    cases h <;> cases same
    exact ⟨_, found⟩
  · rintro ⟨i, found⟩
    exact ⟨_, found, rfl⟩

theorem mem_acceptedOn {history : List (Happening V)} {p : Parcel} {i : LaneIndex} :
    p ∈ acceptedOn history i ↔ .accepted p i ∈ history := by
  simp only [List.mem_filterMap]
  constructor
  · rintro ⟨h, found, same⟩
    cases h with
    | accepted q j =>
      by_cases here : j = i
      · subst here
        obtain rfl : q = p := by simpa using same
        exact found
      · simp [here] at same
    | _ => cases same
  · intro found
    exact ⟨_, found, by simp⟩

theorem acceptedOn_append (history news : List (Happening V)) (i : LaneIndex) :
    acceptedOn (history ++ news) i = acceptedOn history i ++ acceptedOn news i :=
  List.filterMap_append

theorem acceptedOn_grows {history history' : List (Happening V)} (h : history <+: history')
    (i : LaneIndex) : acceptedOn history i <+: acceptedOn history' i :=
  h.filterMap _

/-- A submission ends with the acceptance of its task, or no task is accepted. -/
theorem Effect.acceptance (e : Effect w w') :
    (∃ (t : Ticket) (s : Submission Parcel) (stamp : Option Stamp) (i : LaneIndex),
      w.submissions[t]? = some s ∧ s.phase = .queueing stamp i ∧
      w'.submissions[t]? = some (s.on (.done ⟨.accepted stamp, []⟩)) ∧
      w'.history = w.history ++ [.accepted (s.task i stamp) i]) ∨
    ∃ news, w'.history = w.history ++ news ∧ accepted news = [] := by
  cases e with
  | accept t s stamp i l there phase lane accepting =>
    refine .inl ⟨t, s, stamp, i, there, phase, ?_, rfl⟩
    exact List.getElem?_set_self (List.getElem?_eq_some_iff.1 there).1
  | lookUp => exact .inr ⟨_, rfl, by simp⟩
  | retire => exact .inr ⟨_, rfl, by simp⟩
  | shut => exact .inr ⟨_, rfl, by simp⟩
  | forfeit => exact .inr ⟨_, rfl, by simp⟩
  | _ => first | exact .inr ⟨_, rfl, rfl⟩ | exact .inr ⟨[], (List.append_nil _).symm, rfl⟩

theorem Identified.mono {p : Parcel} {i : LaneIndex} (h : Identified w p i) (e : Effect w w') :
    Identified w' p i := by
  obtain ⟨s, stamp, there, ended⟩ := h.ended
  exact ⟨h.lane, e.history.subset h.resolved, s, stamp, e.ended there ended, ended⟩

theorem Reachable.identified (h : Reachable d w) {p : Parcel} {i : LaneIndex}
    (listed : .accepted p i ∈ w.history) : Identified w p i := by
  induction h with
  | start => simp [fresh] at listed
  | @step w w' before effect ih =>
    rcases effect.acceptance with ⟨t, s, stamp, j, there, phase, ends, noted⟩ | ⟨news, noted, none⟩
    · rw [noted, List.mem_append, List.mem_singleton] at listed
      rcases listed with old | new
      · exact (ih old).mono effect
      · obtain ⟨rfl, rfl⟩ : p = s.task j stamp ∧ i = j := by simpa using new
        rw [(before.allSound t s there).task]
        have found := before.allResolved t s i there (by simp [Submission.lane?, phase])
        exact ⟨rfl, effect.history.subset found, _, stamp, ends, rfl⟩
    · rw [noted, List.mem_append] at listed
      rcases listed with old | new
      · exact (ih old).mono effect
      · have listed := mem_accepted.2 ⟨i, new⟩
        simp [none] at listed

/-- No two accepted tasks have the same ticket. -/
theorem Reachable.tickets_nodup (h : Reachable d w) :
    ((accepted w.history).map Parcel.ticket).Nodup := by
  induction h with
  | start => simp [fresh]
  | @step w w' before effect ih =>
    rcases effect.acceptance with ⟨t, s, stamp, j, there, phase, ends, noted⟩ | ⟨news, noted, none⟩
    · have ticket : (s.task j stamp).ticket = t := by rw [(before.allSound t s there).task]
      have new : t ∉ (accepted w.history).map Parcel.ticket := by
        intro listed
        obtain ⟨p, old, rfl⟩ := List.mem_map.1 listed
        obtain ⟨i, old⟩ := mem_accepted.1 old
        obtain ⟨r, stamp', there', ended⟩ := (before.identified old).ended
        obtain rfl := Option.some.inj (there.symm.trans there')
        rw [phase] at ended
        cases ended
      rw [noted, accepted_append, List.map_append]
      change (_ ++ [(s.task j stamp).ticket]).Nodup
      rw [ticket]
      exact List.nodup_append.2 ⟨ih, by simp, fun a old b last same =>
        new (List.mem_singleton.1 last ▸ same ▸ old)⟩
    · rw [noted, accepted_append, none, List.append_nil]
      exact ih

/-! ### The way of a submission -/

/-- How a submission goes on from `s`. -/
inductive Onward (w w' : World V) (s : Submission Parcel) : SubmissionPhase Parcel → Prop
  | look (phase : SubmissionPhase Parcel) (looks : Look w.dispatcher s.phase phase) :
      Onward w w' s phase
  | stamp (drawn : Option Stamp) (phase : s.phase = .stamping) : Onward w w' s (.admitting drawn)
  | lookUp (stamp : Option Stamp) (phase : s.phase = .resolving stamp)
      (after : w'.dispatcher = (w.dispatcher.resolve s.key).value.2) :
      Onward w w' s (.seeking stamp (w.dispatcher.resolve s.key).value.1)
  | install (stamp : Option Stamp) (i : LaneIndex) (own : Lane Parcel)
      (phase : s.phase = .installing stamp i own)
      (after : w'.dispatcher = w.dispatcher.setLane own.index own) :
      Onward w w' s (.rechecking stamp i)
  | retire (i : LaneIndex) (c c' : Closing Parcel) (phase : s.phase = .retiring i c)
      (step : ∃ l, c' = (c.step l).1) : Onward w w' s (.retiring i c')
  | settled (submitted : Submitted Parcel) : Onward w w' s (.done submitted)

/-- A submission stays as it is, is begun, or goes on. -/
theorem Effect.onward (e : Effect w w') (there' : w'.submissions[t]? = some s') :
    w.submissions[t]? = some s' ∨
      (∃ key stamped, w.submissions[t]? = none ∧
        s' = .start key stamped fun lane _ => ⟨key, lane, t⟩) ∨
      ∃ s phase, w.submissions[t]? = some s ∧ s' = s.on phase ∧ Onward w w' s phase := by
  have goes : ∀ {u r phase}, w.submissions[u]? = some r → Onward w w' r phase →
      w'.submissions = w.submissions.set u (r.on phase) →
      w.submissions[t]? = some s' ∨
        (∃ key stamped, w.submissions[t]? = none ∧
          s' = .start key stamped fun lane _ => ⟨key, lane, t⟩) ∨
        ∃ s phase, w.submissions[t]? = some s ∧ s' = s.on phase ∧ Onward w w' s phase := by
    intro u r phase there onward subs
    rw [subs] at there'
    rcases getElem?_set_cases there' with ⟨rfl, rfl⟩ | ⟨-, found⟩
    · exact .inr (.inr ⟨r, phase, there, rfl, onward⟩)
    · exact .inl found
  cases e with
  | begin key stamped =>
    rcases getElem?_snoc_cases there' with ⟨rfl, rfl⟩ | found
    · exact .inr (.inl ⟨key, stamped, by simp, rfl⟩)
    · exact .inl found
  | look u r phase there looks => exact goes there (.look phase looks) rfl
  | stamp u r drawn there phase => exact goes there (.stamp drawn phase) rfl
  | lookUp u r stamp there phase => exact goes there (.lookUp stamp phase rfl) rfl
  | refuse u r submitted there refused => exact goes there (.settled submitted) rfl
  | install u r stamp i own there phase empty =>
    exact goes there (.install stamp i own phase rfl) rfl
  | accept u r stamp i l there phase lane accepting => exact goes there (.settled _) rfl
  | retire u r i c l there phase lane unfinished =>
    exact goes there (.retire i c _ phase ⟨l, rfl⟩) rfl
  | forfeit u r i report there phase => exact goes there (.settled _) rfl
  | _ => exact .inl there'

theorem Effect.laneCount (e : Effect w w') :
    w'.dispatcher.laneCount = w.dispatcher.laneCount := by
  cases e <;> first | rfl | exact Dispatcher.laneCount_setLane _ _ _

/-- The flags that stops raise stay up. -/
theorem Effect.shutdown (e : Effect w w') (up : w.dispatcher.shutdown = true) :
    w'.dispatcher.shutdown = true := by
  cases e <;> first | exact up | rfl

/-- While the common flag is down it was down before. -/
theorem Effect.running (e : Effect w w') (down : w'.dispatcher.shutdown = false) :
    w.dispatcher.shutdown = false := by
  by_contra up
  simp [e.shutdown (by simpa using up)] at down

end World

end OrderedLanes
