import OrderedLanes.Proofs.Unforced

/-!
What becomes of panics. A waker is called when the slot of its task is filled, on the
thread that fills it. Its panic then leaves the task as the task's own would: a worker
disposes of it, and dies if that panics as well. Where a submission throws tasks away
the panic reaches its caller in place of the answer.
-/

namespace OrderedLanes

theorem Dispatcher.worker_setLane {d : Dispatcher Parcel} {i j : LaneIndex}
    {l l' new : Lane Parcel} (there : d.lane? j = some l) (same : new.worker = l.worker)
    (found : (d.setLane j new).lane? i = some l') :
    ∃ l₀, d.lane? i = some l₀ ∧ l'.worker = l₀.worker := by
  rcases World.lane_of_setLane found with ⟨rfl, rfl⟩ | old
  · exact ⟨l, there, same⟩
  · exact ⟨l', old, rfl⟩

/-- A submission leaves the workers alone, except that it may start one. -/
theorem Submission.worker_step {s : Submission Parcel} {d : Dispatcher Parcel} {i : LaneIndex}
    {l : Lane Parcel} (own : ∀ stamp j l, s.phase = .installing stamp j l → l = Lane.start j)
    (lane : (s.step d).value.2.lane? i = some l) :
    l.worker = .idle ∨ ∃ l₀, d.lane? i = some l₀ ∧ l.worker = l₀.worker := by
  have stay : d.lane? i = some l → l.worker = .idle ∨ ∃ l₀, d.lane? i = some l₀ ∧
      l.worker = l₀.worker := fun same => .inr ⟨l, same, rfl⟩
  obtain ⟨key, task, phase⟩ := s
  cases phase with
  | installing stamp j new =>
    obtain rfl := own stamp j new rfl
    cases there : d.lane? j with
    | none =>
      have installed : (step d ⟨key, task, .installing stamp j (Lane.start j)⟩).value.2 =
          d.setLane j (Lane.start j) := by
        simp [step, Dispatcher.install, there]
      rw [installed] at lane
      rcases World.lane_of_setLane lane with ⟨rfl, rfl⟩ | same
      · exact .inl rfl
      · exact stay same
    | some l₀ => exact stay (by simpa [step, Dispatcher.install, there] using lane)
  | retiring j c =>
    cases there : d.lane? j with
    | none => exact stay (by cases c <;> simpa [step, there] using lane)
    | some l₀ =>
      cases c with
      | done report => exact stay lane
      | _ =>
        simp only [step, there] at lane
        exact .inr (Dispatcher.worker_setLane there (Closing.worker_step _ l₀) lane)
  | queueing stamp j =>
    cases queued : (d.lane? j).bind (Lane.enqueue · (task j stamp)) with
    | none => exact stay (by simpa [step, queued] using lane)
    | some l₁ =>
      obtain ⟨l₀, there, accepted⟩ := Option.bind_eq_some_iff.1 queued
      simp only [step, queued] at lane
      refine .inr (Dispatcher.worker_setLane there ?_ lane)
      unfold Lane.enqueue at accepted
      split at accepted <;> cases accepted
      rfl
  | yielding stamp j new c => cases c <;> exact stay lane
  | entering | admitting stamp | seeking stamp j | starting stamp j =>
    refine stay ?_
    simp only [step] at lane
    split at lane <;> exact lane
  | _ => exact stay lane

/-- A stop leaves the workers alone. -/
theorem Stopping.worker_step {s : Stopping Parcel} {d : Dispatcher Parcel} {i : LaneIndex}
    {l : Lane Parcel} (lane : (s.step d).2.lane? i = some l) :
    ∃ l₀, d.lane? i = some l₀ ∧ l.worker = l₀.worker := by
  have stay : d.lane? i = some l → ∃ l₀, d.lane? i = some l₀ ∧ l.worker = l₀.worker :=
    fun same => ⟨l, same, rfl⟩
  cases s with
  | closing kind j c report =>
    cases there : d.lane? j with
    | none => exact stay (by cases c <;> simpa [step, there] using lane)
    | some l₀ =>
      cases c with
      | done part => exact stay lane
      | _ =>
        simp only [step, there] at lane
        exact Dispatcher.worker_setLane there (Closing.worker_step _ l₀) lane
  | raising kind =>
    refine stay ?_
    cases kind <;> (simp only [step] at lane; split at lane <;> exact lane)
  | visiting kind j report =>
    refine stay ?_
    simp only [step] at lane
    split at lane
    · split at lane <;> exact lane
    · exact lane
  | clearing kind report => cases kind <;> exact stay lane
  | _ => exact stay lane

namespace World

variable {V : Type} {d : Dispatcher Parcel} {v w w' : World V} {a : Act V} {acts : List (Act V)}
  {i : LaneIndex} {l : Lane Parcel} {t : Ticket} {panic : Payload}

/-! ### Wakers that are called -/

/-- Nothing became visible but calls of wakers. -/
def Rings (w w' : World V) : Prop :=
  ∃ calls : List (Ticket × Waker), w'.notices = w.notices ++ calls.map fun c => .woken c.1 c.2

theorem Rings.of_eq (same : w'.notices = w.notices) : Rings w w' := ⟨[], by simp [same]⟩

theorem Rings.trans {u : World V} (h : Rings u w) (h' : Rings w w') : Rings u w' := by
  obtain ⟨calls, notices⟩ := h
  obtain ⟨calls', notices'⟩ := h'
  exact ⟨calls ++ calls', by simp [notices, notices']⟩

theorem Rings.grows (h : Rings w w') : w.notices <+: w'.notices := by
  obtain ⟨calls, notices⟩ := h
  exact ⟨_, notices.symm⟩

theorem Rings.unwound (h : Rings w w') : unwound w'.notices = unwound w.notices := by
  obtain ⟨calls, notices⟩ := h
  simp [notices]

/-- Filling a slot calls the waker that was left there, if there was one. -/
theorem deliver_cases (w : World V) (t : Ticket) (o : Outcome V) :
    (w.deliver t o).1 = none ∧ (w.deliver t o).2.notices = w.notices ∨
      ∃ waker, (w.deliver t o).1 = waker.panic? ∧
        (w.deliver t o).2.notices = w.notices ++ [.woken t waker] := by
  unfold deliver
  split
  · exact .inl ⟨rfl, rfl⟩
  · dsimp only
    split
    · exact .inl ⟨rfl, rfl⟩
    · next waker _ => exact .inr ⟨waker, rfl, rfl⟩

theorem rings_deliver (w : World V) (t : Ticket) (o : Outcome V) : Rings w (w.deliver t o).2 := by
  rcases w.deliver_cases t o with ⟨-, same⟩ | ⟨waker, -, rang⟩
  · exact .of_eq same
  · exact ⟨[(t, waker)], rang⟩

/-- The waker of task `t` was called and panicked. -/
def Rang (w : World V) (t : Ticket) (panic : Payload) : Prop :=
  ∃ waker, .woken t waker ∈ w.notices ∧ waker.panic? = some panic

theorem Rang.mono (h : w.Rang t panic) (grows : w.notices <+: w'.notices) : w'.Rang t panic := by
  obtain ⟨waker, woken, panics⟩ := h
  exact ⟨waker, grows.subset woken, panics⟩

theorem rang_of_deliver {o : Outcome V} (panics : (w.deliver t o).1 = some panic) :
    (w.deliver t o).2.Rang t panic := by
  rcases w.deliver_cases t o with ⟨none, -⟩ | ⟨waker, answer, rang⟩
  · cases none.symm.trans panics
  · exact ⟨waker, by simp [rang], answer.symm.trans panics⟩

theorem rings_discardAll (w : World V) (ps : List Parcel) : Rings w (w.discardAll ps).2 := by
  induction ps generalizing w with
  | nil => exact .of_eq rfl
  | cons p ps ih => exact (rings_deliver (w.note (.discarded p)) _ _).trans (ih (w.discard p).2)

/-- The panic that is answered is that of the waker of one of the tasks. -/
theorem rang_of_discardAll {ps : List Parcel} (panics : (w.discardAll ps).1 = some panic) :
    ∃ p ∈ ps, (w.discardAll ps).2.Rang p.ticket panic := by
  induction ps generalizing w with
  | nil => cases panics
  | cons p ps ih =>
    have answer : (w.discard p).1.or ((w.discard p).2.discardAll ps).1 = some panic := panics
    cases first : (w.discard p).1 with
    | some payload =>
      obtain rfl : payload = panic := by simpa [first] using answer
      exact ⟨p, List.mem_cons_self, (rang_of_deliver first).mono (rings_discardAll _ ps).grows⟩
    | none =>
      rw [first, Option.none_or] at answer
      obtain ⟨q, listed, rang⟩ := ih answer
      exact ⟨q, List.mem_cons_of_mem p listed, rang⟩

/-! ### What becomes visible -/

/-- What an act adds to what is visible. -/
inductive Heard (w w' : World V) : Act V → Prop
  | rings (a : Act V) (rings : Rings w w') : Heard w w' a
  | delivers (a : Act V) (t : Ticket) (o : Outcome V)
      (notices : w'.notices = w.notices ++ [.delivered t o]) : Heard w w' a
  /-- A waker panicked that a submission called when it threw a task away. -/
  | unwinds (t : Ticket) (s s' : Submission Parcel) (submitted : Submitted Parcel) (p : Parcel)
      (panic : Payload) (u : World V) (there : w'.submissions[t]? = some s')
      (ended : s'.answer? = some submitted) (thrown : p ∈ submitted.discarded)
      (rings : Rings w u) (rang : u.Rang p.ticket panic)
      (notices : w'.notices = u.notices ++ [.unwound t panic]) : Heard w w' (.advance t)

/-- A task that a submission fails to queue is the one that it throws away. -/
theorem thrown_of_queueing {s : Submission Parcel} {d : Dispatcher Parcel}
    {submitted : Submitted Parcel} (ended : (s.step d).value.1.answer? = some submitted)
    {p : Parcel} (own : queueing? s = some (i, p)) :
    (∃ stamp, submitted.answer = .accepted stamp) ∨ p ∈ submitted.discarded := by
  obtain ⟨key, task, phase⟩ := s
  cases phase with
  | queueing stamp j =>
    obtain ⟨rfl, rfl⟩ : j = i ∧ task j stamp = p := by simpa [queueing?] using own
    cases queued : (d.lane? j).bind (Lane.enqueue · (task j stamp)) with
    | some l =>
      simp only [Submission.step, queued] at ended
      obtain rfl := Option.some.inj ended
      exact .inl ⟨stamp, rfl⟩
    | none =>
      simp only [Submission.step, queued] at ended
      obtain rfl := Option.some.inj ended
      exact .inr (List.mem_singleton_self _)
  | _ => cases own

/-- What becomes visible when a submission ends. -/
theorem settle_cases (w : World V) (t : Ticket) (own : Option (LaneIndex × Parcel))
    (submitted : Submitted Parcel)
    (mine : ∀ i p, own = some (i, p) → (∃ stamp, submitted.answer = .accepted stamp) ∨
      p ∈ submitted.discarded) :
    Rings w (w.settle t own submitted) ∨
      ∃ p ∈ submitted.discarded, ∃ panic u, Rings w u ∧ u.Rang p.ticket panic ∧
        (w.settle t own submitted).notices = u.notices ++ [.unwound t panic] := by
  have ends : ∀ {u : World V} {answer : Option Payload}, Rings w u →
      (∀ panic, answer = some panic → ∃ p ∈ submitted.discarded, u.Rang p.ticket panic) →
      Rings w (u.unwind t answer) ∨
        ∃ p ∈ submitted.discarded, ∃ panic u', Rings w u' ∧ u'.Rang p.ticket panic ∧
          (u.unwind t answer).notices = u'.notices ++ [.unwound t panic] := by
    intro u answer rings explained
    cases answer with
    | none => exact .inl rings
    | some panic =>
      obtain ⟨p, thrown, rang⟩ := explained panic rfl
      exact .inr ⟨p, thrown, panic, u, rings, rang, rfl⟩
  unfold settle
  split
  · exact .inl (.of_eq rfl)
  · next i p refused =>
    have thrown : p ∈ submitted.discarded := (mine i p rfl).resolve_left fun ⟨stamp, accepted⟩ =>
      refused stamp accepted
    exact ends (rings_deliver (w.note (.rejected t)) _ _) fun panic panics =>
      ⟨p, thrown, rang_of_deliver panics⟩
  · exact ends (rings_discardAll (w.note (.rejected t)) _) fun panic panics =>
      rang_of_discardAll panics

theorem heard_of_advance (act : w.advance t = some w') : Heard w w' (.advance t) := by
  obtain ⟨s, there, unfinished⟩ := unfinished_of_advance act
  cases ended : (s.step w.dispatcher).value.1.answer? with
  | none =>
    rw [advance_on there unfinished rfl ended] at act
    obtain rfl := Option.some.inj act
    exact .rings _ (.of_eq rfl)
  | some submitted =>
    obtain ⟨r, there', going, -, submissions, -⟩ := advance_cases act
    obtain rfl := Option.some.inj (there.symm.trans there')
    rw [advance_end there unfinished rfl ended] at act
    obtain rfl := Option.some.inj act
    have there' := (congrArg (·[t]?) submissions).trans (getElem?_set_there there _)
    rcases settle_cases _ t (queueing? s) submitted fun i p own => thrown_of_queueing ended own
      with rings | ⟨p, thrown, panic, u, rings, rang, notices⟩
    · exact .rings _ rings
    · exact .unwinds t s _ submitted p panic u there' ended thrown rings rang notices

theorem heard_of_step (act : w.step a = some w') : Heard w w' a := by
  have quiet : w'.notices = w.notices → Heard w w' a := fun same => .rings a (.of_eq same)
  cases a with
  | advance t => exact heard_of_advance act
  | refuseThread t source =>
    obtain ⟨s, stamp, i, there, phase, rfl⟩ := refuseThread_cases act
    exact quiet rfl
  | advanceStop n =>
    obtain ⟨s, there, unfinished⟩ := unfinished_of_advanceStop act
    cases ended : (s.step w.dispatcher).1.report? with
    | none =>
      rw [step, advanceStop_on there unfinished rfl ended rfl] at act
      obtain rfl := Option.some.inj act
      exact quiet rfl
    | some report =>
      have done : s.step w.dispatcher = (.done report, (s.step w.dispatcher).2) :=
        Prod.ext (eq_done_of_report ended) rfl
      rw [step, advanceStop_end there unfinished done rfl] at act
      obtain rfl := Option.some.inj act
      exact quiet rfl
  | receive i =>
    obtain ⟨l, -, -, ⟨p, queue, -, rfl⟩ | ⟨-, -, rfl⟩⟩ := receive_cases act <;> exact quiet rfl
  | inspect i =>
    obtain ⟨l, p, -, -, ⟨-, rfl⟩ | ⟨-, rfl⟩⟩ := inspect_cases act
    · exact quiet rfl
    · exact .rings _ (rings_deliver (w.note (.discarded p)) _ _)
  | finish i ending =>
    obtain ⟨l, p, -, -, rfl⟩ := finish_cases act
    exact .rings _ (rings_deliver (w.note (.ended p (some i) ending)) _ _)
  | runReturned t ending =>
    obtain ⟨p, -, rfl⟩ := runReturned_cases act
    exact .rings _ (rings_deliver _ p.ticket ending.outcome)
  | dropReturned t =>
    obtain ⟨p, -, rfl⟩ := dropReturned_cases act
    exact .rings _ (rings_deliver _ p.ticket _)
  | poll t waker =>
    obtain ⟨slot, -, ⟨o, -, rfl⟩ | ⟨-, rfl⟩⟩ := poll_cases act
    · exact .delivers _ t o rfl
    · exact quiet rfl
  | take t =>
    obtain ⟨slot, -, ⟨o, -, rfl⟩ | ⟨-, rfl⟩⟩ := take_cases act
    · exact .delivers _ t o rfl
    · exact quiet rfl
  | _ =>
    obtain rfl := Option.some.inj act
    exact quiet rfl

theorem Heard.grows (h : Heard w w' a) : w.notices <+: w'.notices := by
  cases h with
  | rings a rings => exact rings.grows
  | delivers a t o notices => exact ⟨_, notices.symm⟩
  | unwinds t s s' submitted p panic u there ended thrown rings rang notices =>
    exact rings.grows.trans ⟨_, notices.symm⟩

/-! ### Submissions that a panic cuts short -/

/-- A waker panicked when submission `t` threw a task away. -/
def CutShort (w : World V) (t : Ticket) (panic : Payload) : Prop :=
  ∃ s submitted, w.submissions[t]? = some s ∧ s.answer? = some submitted ∧
    ∃ p ∈ submitted.discarded, w.Rang p.ticket panic

/-- A panic that reaches the caller of a submission is that of a waker it called. -/
theorem cutShort_of_run {counter : KeyCounter} (run : (fresh d counter).run acts = some w)
    (heard : .unwound t panic ∈ w.notices) : w.CutShort t panic := by
  refine run_induction (P := fun _ w => .unwound t panic ∈ w.notices → w.CutShort t panic)
    (fun heard => by simp [fresh] at heard) ?_ run heard
  intro acts w a w' run before act heard
  have heards := heard_of_step act
  have earlier : .unwound t panic ∈ w.notices → w'.CutShort t panic := fun there => by
    obtain ⟨s, submitted, found, ended, p, thrown, rang⟩ := before there
    have stays := (effect_of_step act).ended found (Submission.phase_of_answer ended)
    exact ⟨s, submitted, stays, ended, p, thrown, rang.mono heards.grows⟩
  have old : ∀ {u : World V}, Rings w u → .unwound t panic ∈ u.notices →
      w'.CutShort t panic := fun rings there => by
    obtain ⟨calls, notices⟩ := rings
    rw [notices, List.mem_append] at there
    exact earlier (there.resolve_right (by simp))
  cases heards with
  | rings a rings => exact old rings heard
  | delivers a u o notices => exact earlier (by simpa [notices] using heard)
  | unwinds u s s' submitted p payload v there ended thrown rings rang notices =>
    rw [notices, List.mem_append, List.mem_singleton] at heard
    rcases heard with heard | same
    · exact old rings heard
    · cases same
      exact ⟨s', submitted, there, ended, p, thrown, rang.mono ⟨_, notices.symm⟩⟩

theorem lookup_unwound {notices : List (Notice V)} :
    ((unwound notices).lookup t = none ↔ ∀ panic, .unwound t panic ∉ notices) ∧
      ∀ panic, (unwound notices).lookup t = some panic → .unwound t panic ∈ notices := by
  have listed : ∀ panic, (t, panic) ∈ unwound notices ↔ .unwound t panic ∈ notices := by
    intro panic
    constructor
    · intro there
      obtain ⟨n, found, told⟩ := List.mem_filterMap.1 there
      cases n <;> cases told
      exact found
    · exact fun there => List.mem_filterMap.2 ⟨_, there, rfl⟩
  constructor
  · rw [List.lookup_eq_none_iff]
    constructor
    · intro apart panic there
      simpa using apart _ ((listed panic).2 there)
    · rintro none ⟨u, panic⟩ there
      refine bne_iff_ne.2 ?_
      rintro rfl
      exact none panic ((listed panic).1 there)
  · intro panic found
    obtain ⟨before, after, split, -⟩ := List.lookup_eq_some_iff.1 found
    exact (listed panic).1 (by simp [split])

/-- What its caller gets is the answer of the submission, or a panic that cut it short. -/
theorem reception_cases {counter : KeyCounter} (run : (fresh d counter).run acts = some w)
    {r : Reception} (got : w.reception? t = some r) :
    (∃ s submitted, w.submissions[t]? = some s ∧ s.answer? = some submitted ∧
      r = .answered submitted.answer) ∨ ∃ panic, w.CutShort t panic ∧ r = .unwound panic := by
  simp only [reception?, Option.bind_eq_bind, Option.bind_eq_some_iff] at got
  obtain ⟨s, there, submitted, ended, got⟩ := got
  obtain rfl := Option.some.inj got
  cases cut : (unwound w.notices).lookup t with
  | none => exact .inl ⟨s, submitted, there, ended, rfl⟩
  | some panic => exact .inr ⟨panic, cutShort_of_run run (lookup_unwound.2 panic cut), rfl⟩

/-- Who throws no task away gets the answer. -/
theorem reception_of_clean {counter : KeyCounter} (run : (fresh d counter).run acts = some w)
    {s : Submission Parcel} {answer : Admission} (there : w.submissions[t]? = some s)
    (ended : s.answer? = some ⟨answer, []⟩) : w.reception? t = some (.answered answer) := by
  have uncut : (unwound w.notices).lookup t = none := by
    refine lookup_unwound.1.2 fun panic heard => ?_
    obtain ⟨s', submitted, there', ended', p, thrown, -⟩ := cutShort_of_run run heard
    obtain rfl := Option.some.inj (there.symm.trans there')
    obtain rfl := Option.some.inj (ended.symm.trans ended')
    cases thrown
  simp [reception?, there, ended, uncut]

/-! ### Workers that a panic kills -/

/--
A task took the worker of lane `i` with it: a panic left the task, its own or that of the waker
which its end called, and disposing of this panic panicked as well.
-/
inductive Killed (w : World V) (i : LaneIndex) : Prop
  | task (p : Parcel) (ending : Ending V) (panic last : Payload)
      (ended : .ended p (some i) ending ∈ w.history) (escape : ending.escape = some panic)
      (kills : panic.disposal = some last)
  | waker (p : Parcel) (ending : Ending V) (panic last : Payload)
      (ended : .ended p (some i) ending ∈ w.history) (calm : ending.escape = none)
      (rang : w.Rang p.ticket panic) (kills : panic.disposal = some last)

theorem Killed.mono (h : w.Killed i) (act : w.step a = some w') : w'.Killed i := by
  have grows := (effect_of_step act).history
  cases h with
  | task p ending panic last ended escape kills =>
    exact .task p ending panic last (grows.subset ended) escape kills
  | waker p ending panic last ended calm rang kills =>
    exact .waker p ending panic last (grows.subset ended) calm
      (rang.mono (heard_of_step act).grows) kills

/-- The worker of lane `i` has left it with a panic. -/
def Fell (w : World V) (i : LaneIndex) (last : Payload) : Prop :=
  ∃ l, w.dispatcher.lane? i = some l ∧ l.worker = .exited (some last)

end World

end OrderedLanes
