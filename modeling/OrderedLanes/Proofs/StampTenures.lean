import OrderedLanes.Proofs.StampSteps

/-!
Stamps follow the tenures of their key. Where submissions are made one at a time, everything is in
order again by the end of each: only assigned keys have counters, and the stamps accepted during
one tenure of a key are 1, 2, 3, … (`stamps_follow_tenures`).
-/

namespace OrderedLanes

/-- A caller begins to submit a task. -/
def Act.begins {V : Type} : Act V → Bool
  | .submit _ _ | .submitUnordered => true
  | _ => false

namespace World

variable {V : Type} {d : Dispatcher Parcel} {w w' : World V} {a : Act V} {t : Ticket}
  {s : Submission Parcel} {key : Key} {ts : List Ticket}

/-! ### Every submission is accepted that finds the flag down twice -/

theorem Effect.allocator_calls (e : Effect w w') :
    ∃ cs, w'.dispatcher.allocator = (w.dispatcher.allocator.calls cs).value.2 := by
  cases e with
  | drawStamp key => exact ⟨[.nextStamp key], rfl⟩
  | stamp t s drawn there phase => exact ⟨[.nextStamp s.key], rfl⟩
  | lookUp t s stamp there phase => exact ⟨[.resolve s.key], rfl⟩
  | clear n report there => exact ⟨[.clear], rfl⟩
  | clearLast n report there => exact ⟨[.clear], rfl⟩
  | _ => exact ⟨[], rfl⟩

/-- The allocator holds what a list says, and serves the lanes that there are. -/
def Mirrored (d : Dispatcher Parcel) : Prop := ∃ r, d.allocator.Mirrors r ∧ r.lanes = d.laneCount

theorem Reachable.mirrored (h : Reachable d w) (start : Mirrored d) : Mirrored w.dispatcher := by
  induction h with
  | start => exact start
  | @step w w' before effect ih =>
    obtain ⟨r, mirrors, lanes⟩ := ih
    obtain ⟨cs, after⟩ := effect.allocator_calls
    refine ⟨_, after ▸ (mirrors.calls cs).mirrors, ?_⟩
    rw [Roll.lanes_calls, lanes, effect.laneCount]

/-- Every key that was looked up was found on a lane that there is. -/
theorem Reachable.ranged (h : Reachable d w) (start : Mirrored d) {k : Key} {i : LaneIndex}
    (found : some (k, i) ∈ visits w.history) : i < w.dispatcher.laneCount := by
  induction h with
  | start => simp [fresh] at found
  | @step w w' before effect ih =>
    rw [effect.laneCount]
    cases effect.assigning with
    | rest recency capacity visited noted => exact ih (visited ▸ found)
    | clear n kind report there after visited noted =>
      rw [visited] at found
      exact ih (by simpa using found)
    | lookUp t looked after history =>
      rw [history, visits, List.filterMap_append, List.mem_append] at found
      rcases found with old | new
      · exact ih old
      · obtain ⟨r, mirrors, lanes⟩ := before.mirrored start
        obtain ⟨-, rfl⟩ : k = looked ∧ i = (w.dispatcher.allocator.resolve looked).value.1 := by
          simpa using new
        exact lanes ▸ mirrors.lane_lt looked

/-- A submission that is to be queued while no stop has begun is going to be accepted. -/
theorem Reachable.welcome (h : Reachable d w) (new : d.Fresh) (start : Mirrored d)
    (there : w.submissions[t]? = some s) : s.Welcome w.dispatcher := by
  intro stamp i phase down
  have found := h.allResolved t s i there (by simp [Submission.lane?, phase])
  have within : i < w.dispatcher.laneCount :=
    h.ranged start (List.mem_filterMap.2 ⟨_, found, rfl⟩)
  obtain ⟨l, lane⟩ := h.allHoused t s i there (by simp [SubmissionPhase.housed?, phase]) within
  exact ⟨l, lane, (h.open_of_down new down lane).2⟩

/-! ### Runs in which submissions are made one at a time -/

/--
The act keeps to the rules: a submission begins when all others have ended, stamps are drawn by
submissions only, and each lane gets its thread. A stop may raise the flag between submissions and
inside of one, say where it evicts a key or has installed its lane, but not between the two looks
at the flag around the draw of its stamp: the submission would leave a counter behind.
-/
structure Paced (w : World V) (a : Act V) (w' : World V) : Prop where
  alone : a.begins = true → ∀ s ∈ w.submissions, s.answer?.isSome
  undrawn : ∀ key, a ≠ .drawStamp key
  threads : ∀ t source, a ≠ .refuseThread t source
  whole : w.dispatcher.shutdown = false → w'.dispatcher.shutdown = true →
    ∀ s ∈ w.submissions, ¬ s.Drawing

theorem shutdown_of_advance (act : w.advance t = some w') :
    w'.dispatcher.shutdown = w.dispatcher.shutdown := by
  obtain ⟨s, there, going, dispatcher, -, -⟩ := advance_cases act
  rw [dispatcher, Submission.shutdown_step]

theorem InStep.step (h : InStep w) (reached : Reachable d w.core) (new : d.Fresh)
    (start : Mirrored d) (named : Config.nameable w.dispatcher.config.threadName = true)
    (act : w.step a = some w') (paced : Paced w a w') : InStep w' := by
  have e := effect_of_step act
  have tenancy := tenancy_of_step act
  cases late : a.calls with
  | false =>
    obtain ⟨submissions, stops, lanes, dispatcher⟩ := callsRest_of_step late act
    cases tenancy with
    | lookUp => cases late
    | clear => cases late
    | rest a elsewhere recency same =>
      exact h.drift (h.drifts_of_calls (by rw [dispatcher]) same submissions e.shutdown paced.whole)
  | true =>
    cases a with
    | submit key stamped =>
      obtain rfl := Option.some.inj act
      exact h.begin (paced.alone rfl) rfl rfl fun _ => rfl
    | submitUnordered =>
      obtain rfl := Option.some.inj act
      exact h.begin (paced.alone rfl) rfl rfl fun _ => rfl
    | stop kind =>
      obtain rfl := Option.some.inj act
      exact h.drift (h.drifts_of_calls rfl (fun _ => rfl) rfl id paced.whole)
    | drawStamp key => exact absurd rfl (paced.undrawn key)
    | refuseThread t source => exact absurd rfl (paced.threads t source)
    | advance t =>
      obtain ⟨s, there, going, dispatcher, submissions, stops⟩ := advance_cases act
      have flag := shutdown_of_advance act
      cases tenancy with
      | lookUp t r stamp found phase allocator history =>
        obtain rfl := Option.some.inj (there.symm.trans found)
        obtain ⟨gone, takes, visited⟩ := reached.takes new t s.key
        have seeks : w'.submissions = w.submissions.set t
            (s.on (.seeking stamp (w.dispatcher.resolve s.key).value.1)) := by
          rw [submissions]
          simp [Submission.step, phase]
        exact h.lookUp there phase seeks flag (allocator ▸ takes)
          fun k => by rw [history, visited]
      | rest a elsewhere recency same =>
        by_cases allocating : s.phase.Allocating
        · obtain ⟨k, task, now⟩ := s
          cases now with
          | stamping => exact h.draw there rfl submissions dispatcher same
          | resolving stamp => exact absurd rfl (elsewhere _ there stamp)
          | _ => cases allocating
        · have quiet up := h.drawing up s (List.mem_of_getElem? there)
          have goes := Submission.goes_step allocating named (reached.welcome new start there) quiet
          refine h.drift (h.drifts_of_goes there going goes submissions flag ?_ same)
          rw [dispatcher, Submission.allocator_step _ allocating]
    | advanceStop n =>
      obtain ⟨r, there, going, dispatcher, stops, submissions⟩ := advanceStop_cases act
      cases tenancy with
      | clear n kind report found allocator closes =>
        have up := (reached.flagged new).stops n _ found trivial
        exact h.clear up submissions ((e.shutdown up).trans up.symm) allocator closes
      | rest a elsewhere recency same =>
        refine h.drift (h.drifts_of_calls ?_ same submissions e.shutdown paced.whole)
        rw [dispatcher, Stopping.allocator_step_of_ne _ (elsewhere r there)]
    | _ => cases late

/-- A run whose acts keep to the rules. -/
def OneByOne (w : World V) : List (Act V) → Prop
  | [] => True
  | a :: acts => ∀ w', w.step a = some w' → Paced w a w' ∧ w'.OneByOne acts

theorem InStep.run (h : InStep w) {acts : List (Act V)} (reached : Reachable d w.core)
    (new : d.Fresh) (start : Mirrored d)
    (named : Config.nameable w.dispatcher.config.threadName = true) (paced : w.OneByOne acts)
    (run : w.run acts = some w') : InStep w' := by
  induction acts generalizing w with
  | nil =>
    obtain rfl := Option.some.inj run
    exact h
  | cons a acts ih =>
    rw [run_cons, Option.bind_eq_some_iff] at run
    obtain ⟨v, act, rest⟩ := run
    obtain ⟨keeps, later⟩ := paced v act
    have e := effect_of_step act
    have config : v.dispatcher.config = w.dispatcher.config := e.config
    exact ih (h.step reached new start named act keeps) (reached.step e) (config ▸ named) later rest

theorem inStep_fresh (counter : KeyCounter) (empty : d.allocator.stamps = .empty) :
    InStep (fresh (V := V) d counter) := by
  refine ⟨⟨by simp [fresh], by simp [fresh], fun key ts there => ?_⟩, by simp [fresh],
    fun key counter => ?_, fun _ key => ?_, by simp [fresh]⟩
  · obtain rfl : ts = [] := by simpa [fresh, tenures, Tenures.all] using there
    exact .nil
  · simp [fresh, empty, Stamps.empty] at counter
  · simp [issued, fresh, tenures, pending?, empty, Numbered.nil]

theorem allocator_of_create {config : Config} {parallelism : Nat}
    (made : Dispatcher.create config parallelism = .ok d) :
    d.config = config ∧ Mirrored d ∧ d.allocator.stamps = .empty := by
  obtain ⟨a, built, rfl⟩ := Dispatcher.eq_of_create made
  refine ⟨rfl, ⟨_, Allocator.mirrors_of_withHeadroom built, ?_⟩, ?_⟩
  · simp [Roll.start, Dispatcher.laneCount]
  · obtain ⟨-, capacity, -, rfl⟩ := Allocator.eq_of_withHeadroom built
    rfl

/-- Every accepted submission has looked its key up. -/
theorem lookers_of_accepted {counter : KeyCounter} {acts : List (Act V)}
    (run : (fresh d counter).run acts = some w) {stamp : Option Stamp}
    (there : w.submissions[t]? = some s) (accepted : s.accepted? = some stamp) :
    t ∈ lookers s.key w.history := by
  refine run_induction (P := fun _ w => ∀ (t : Ticket) (s : Submission Parcel) stamp,
    w.submissions[t]? = some s → s.accepted? = some stamp → t ∈ lookers s.key w.history)
    (by simp [fresh]) (fun {acts v a v'} before ih act t s stamp there accepted => ?_)
    run t s stamp there accepted
  have e := effect_of_step act
  have grows : ∀ {t key}, t ∈ lookers key v.history → t ∈ lookers key v'.history :=
    fun listed => (e.history.filterMap _).subset listed
  have old : ∀ {r}, v.submissions[t]? = some r → r.accepted? = some stamp →
      t ∈ lookers r.key v'.history := fun found was => grows (ih t _ stamp found was)
  cases move_of_step act with
  | begin a key stamped submissions stops dispatcher =>
    rw [submissions] at there
    rcases getElem?_snoc_cases there with ⟨-, rfl⟩ | found
    · cases stamped <;> cases accepted
    · exact old found accepted
  | advance u r found going submissions stops dispatcher =>
    rw [submissions] at there
    rcases getElem?_set_cases there with ⟨rfl, rfl⟩ | ⟨-, found⟩
    · obtain ⟨i, phase, same⟩ := Submission.queueing_of_accepted going accepted
      have looked := (reachable_of_run before).allResolved t r i found
        (by simp [Submission.lane?, phase])
      rw [same]
      exact grows (List.mem_filterMap.2 ⟨_, looked, by simp⟩)
    · exact old found accepted
  | refuseThread u source r drawn i found phase submissions stops dispatcher =>
    rw [submissions] at there
    rcases getElem?_set_cases there with ⟨rfl, rfl⟩ | ⟨-, found⟩
    · cases accepted
    · exact old found accepted
  | beginStop kind submissions => exact old (submissions ▸ there) accepted
  | drawStamp key submissions => exact old (submissions ▸ there) accepted
  | advanceStop n r found submissions => exact old (submissions ▸ there) accepted
  | rest a rest => exact old (rest.submissions ▸ there) accepted

/-- The stamps of the submissions among `ts` that were accepted and have one. -/
def handed (w : World V) (ts : List Ticket) : List Stamp :=
  ts.filterMap fun t => (w.submissions[t]?.bind Submission.accepted?).join

theorem InStep.handed (h : InStep w) (there : ts ∈ (tenures key w.history).all) :
    Numbered (w.handed ts) := by
  refine (h.numbered key ts there).of_front (filterMap_front (h.ascending_of_mem there) ?_)
  intro t listed
  rw [carried?]
  cases found : w.submissions[t]? with
  | none => exact .inl rfl
  | some s =>
    refine (s.accepted_carried w.dispatcher.shutdown).imp_right fun going => ⟨going.1, ?_⟩
    have last := h.alone t s found going.2
    exact fun u within => Nat.le_of_lt_succ ((h.lt_of_mem there within).trans_eq last.symm)

/--
Where submissions are made one at a time, only assigned keys have counters once they have all
ended, as many as fit; and for each key the tenures take all accepted submissions of it in their
order, those of each tenure with the stamps 1, 2, 3, …, if they have one.
-/
theorem stamps_follow_tenures {config : Config} {parallelism : Nat} {d : Dispatcher Parcel}
    {counter : KeyCounter} {acts : List (Act V)} {w : World V}
    (made : Dispatcher.create config parallelism = .ok d)
    (named : Config.nameable config.threadName = true)
    (paced : (fresh d counter).OneByOne acts) (run : (fresh d counter).run acts = some w) :
    ((∀ s ∈ w.submissions, s.answer?.isSome) →
      (∀ key, key ∈ w.dispatcher.allocator.stamps.counters →
        (w.dispatcher.allocator.assignment key).isSome) ∧
      w.dispatcher.allocator.stamps.counters.size ≤
        config.maxKeys.toNat * config.headroom.toNat) ∧
    ∀ key,
      ((w.dispatcher.allocator.assignment key).isSome ↔ (tenures key w.history).current ≠ []) ∧
      (tenures key w.history).all.flatten.Pairwise (· < ·) ∧
      (∀ t s stamp, w.submissions[t]? = some s → s.key = key → s.accepted? = some stamp →
        t ∈ (tenures key w.history).all.flatten) ∧
      ∀ ts ∈ (tenures key w.history).all, Numbered (w.handed ts) := by
  obtain ⟨new, capacity⟩ := Dispatcher.fresh_of_create made
  obtain ⟨rfl, start, empty⟩ := allocator_of_create made
  have reached : Reachable d w.core := reachable_of_run run
  have inStep : InStep w := (inStep_fresh counter empty).run .start new start named paced run
  have assigned := assigned_iff_of_run new run
  refine ⟨fun ended => ?_, fun key => ⟨assigned key, ?_, fun t s stamp there same accepted => ?_,
    fun ts there => inStep.handed there⟩⟩
  · have counted : ∀ key, key ∈ w.dispatcher.allocator.stamps.counters →
        (w.dispatcher.allocator.assignment key).isSome := fun key there => by
      rw [assigned]
      refine (inStep.counted key there).resolve_right ?_
      rw [pending_of_ended ended]
      simp
    have keeps : w.dispatcher.allocator.Keeps w.core.assigned := (reached.keeps new).2
    have bound : w.dispatcher.allocator.capacity = d.allocator.capacity := (reached.keeps new).1
    exact ⟨counted, (keeps.size_counters_le counted).trans_eq (bound.trans capacity)⟩
  · rw [flatten_tenures]
    exact inStep.ascending key
  · subst same
    rw [flatten_tenures]
    exact lookers_of_accepted run there accepted

/-! ### A run with a restart -/

theorem OneByOne.append {acts more : List (Act V)} (first : w.OneByOne acts)
    (run : w.run acts = some w') (rest : w'.OneByOne more) : w.OneByOne (acts ++ more) := by
  induction acts generalizing w with
  | nil =>
    obtain rfl := Option.some.inj run
    exact rest
  | cons a acts ih =>
    intro v act
    obtain ⟨paced, later⟩ := first v act
    rw [run_cons, act, Option.bind_some] at run
    exact ⟨paced, ih later run⟩

theorem oneByOne_advances (t : Ticket) (n : Nat) : w.OneByOne (List.replicate n (.advance t)) := by
  induction n generalizing w with
  | zero => trivial
  | succ n ih =>
    intro v act
    refine ⟨⟨by simp [Act.begins], by simp, by simp, fun down up => ?_⟩, ih⟩
    rw [shutdown_of_advance act, down] at up
    cases up

theorem oneByOne_submit (ended : ∀ s ∈ w.submissions, s.answer?.isSome) (key : Key)
    (stamped : Bool) (t : Ticket) (n : Nat) :
    w.OneByOne (.submit key stamped :: List.replicate n (.advance t)) := by
  intro v act
  obtain rfl := Option.some.inj act
  refine ⟨⟨fun _ => ended, by simp, by simp, fun down up => ?_⟩, oneByOne_advances t n⟩
  rw [begin, down] at up
  cases up

/-- Two stamped submissions of key 1, and one of key 2 in between that takes its place. -/
def restart : List (Act Unit) :=
  Act.submit 1 true :: List.replicate 9 (Act.advance 0) ++
    (Act.submit 2 false :: List.replicate 5 (Act.advance 1) ++
      Act.submit 1 true :: List.replicate 7 (Act.advance 2))

theorem restart_lookUps (V : Type) : ∃ a₁ a₂ a₃,
    (((newborn 1 1).allocator.nextStamp 1).2.resolve 1).value = (0, a₁) ∧
      evictions (V := V) (((newborn 1 1).allocator.nextStamp 1).2.resolve 1).events = [] ∧
      (a₁.resolve 2).value = (0, a₂) ∧
      evictions (V := V) (a₁.resolve 2).events = [.evicted 1 0] ∧
      a₂.stamps.peek 1 = 1 ∧
      ((a₂.nextStamp 1).2.resolve 1).value = (0, a₃) ∧
      evictions (V := V) ((a₂.nextStamp 1).2.resolve 1).events = [.evicted 2 0] := by
  have made : Allocator.withHeadroom 1 1 1 = .ok (newborn 1 1).allocator := rfl
  have begun := Allocator.mirrors_of_withHeadroom made
  have first := ((begun.call (.nextStamp 1)).mirrors).resolve 1
  have second := first.mirrors.resolve 2
  have third := ((second.mirrors.call (.nextStamp 1)).mirrors).resolve 1
  exact ⟨_, _, _, Prod.ext (first.answer.trans (by decide)) rfl,
    (congrArg evictions first.events).trans rfl,
    Prod.ext (second.answer.trans (by decide)) rfl,
    (congrArg evictions second.events).trans rfl,
    (second.mirrors.stamps 1).trans (by decide),
    Prod.ext (third.answer.trans (by decide)) rfl,
    (congrArg evictions third.events).trans rfl⟩

/-- One lane, with room for one key. -/
def oneLane (a : Allocator) (queue : List Parcel) : Dispatcher Parcel :=
  ⟨tiny 1 1, a, [some ⟨0, .running, true, queue, false, .idle, false⟩], false, false⟩

/-- A stamped submission of key 1 was accepted. -/
def stampedOnce (a : Allocator) : World Unit :=
  calm (oneLane a [⟨1, 0, 0⟩]) [underKey 1 0 (.done ⟨.accepted (some 1), []⟩)]
    [.resolved 0 1 0, .accepted ⟨1, 0, 0⟩ 0]

/-- One of key 2 was accepted as well, and key 1 has lost its place. -/
def displaced (a : Allocator) : World Unit :=
  calm (oneLane a [⟨1, 0, 0⟩, ⟨2, 0, 1⟩])
    [underKey 1 0 (.done ⟨.accepted (some 1), []⟩), underKey 2 1 (.done ⟨.accepted none, []⟩)]
    [.resolved 0 1 0, .accepted ⟨1, 0, 0⟩ 0, .resolved 1 2 0, .evicted 1 0, .accepted ⟨2, 0, 1⟩ 0]

/-- Another stamped one of key 1 was accepted. -/
def stampedAgain (a : Allocator) : World Unit :=
  calm (oneLane a [⟨1, 0, 0⟩, ⟨2, 0, 1⟩, ⟨1, 0, 2⟩])
    [underKey 1 0 (.done ⟨.accepted (some 1), []⟩), underKey 2 1 (.done ⟨.accepted none, []⟩),
      underKey 1 2 (.done ⟨.accepted (some 1), []⟩)]
    [.resolved 0 1 0, .accepted ⟨1, 0, 0⟩ 0, .resolved 1 2 0, .evicted 1 0, .accepted ⟨2, 0, 1⟩ 0,
      .resolved 2 1 0, .evicted 2 0, .accepted ⟨1, 0, 2⟩ 0]

theorem run_restart : ∃ a, (fresh (newborn 1 1) ⟨0⟩).run restart = some (stampedAgain a) ∧
    (fresh (newborn 1 1) ⟨0⟩ : World Unit).OneByOne restart := by
  obtain ⟨a₁, a₂, a₃, found₁, quiet₁, found₂, gone₂, stamp, found₃, gone₃⟩ := restart_lookUps Unit
  have one : (fresh (newborn 1 1) ⟨0⟩).run (Act.submit 1 true :: List.replicate 9 (Act.advance 0)) =
      some (stampedOnce a₁) :=
    (run_submit_stamped (w := fresh (newborn 1 1) ⟨0⟩) 1 rfl rfl found₁ quiet₁ _).trans (by cbv)
  have two : (stampedOnce a₁).run (Act.submit 2 false :: List.replicate 5 (Act.advance 1)) =
      some (displaced a₂) :=
    (run_submit (w := stampedOnce a₁) 2 rfl rfl found₂ gone₂ _).trans (by cbv)
  have three : (displaced a₂).run (Act.submit 1 true :: List.replicate 7 (Act.advance 2)) =
      some (stampedAgain a₃) := by
    have third := run_submit_stamped (w := displaced a₂) 1 rfl rfl found₃ gone₃
      (List.replicate 3 (Act.advance 2))
    rw [show (displaced a₂).dispatcher.allocator.stamps.peek 1 = 1 from stamp] at third
    exact third.trans (by cbv)
  refine ⟨a₃, run_of_parts one (run_of_parts two three), ?_⟩
  refine (oneByOne_submit (by simp [fresh]) 1 true 0 9).append one ?_
  refine (oneByOne_submit ?_ 2 false 1 5).append two (oneByOne_submit ?_ 1 true 2 7)
  · simp [stampedOnce, calm, underKey, Submission.answer?]
  · simp [displaced, calm, underKey, Submission.answer?]

/-- Key 1 loses its place and its counter to key 2, and its next stamp is 1 again. -/
theorem stamps_follow_tenures_restart : ∃ (d : Dispatcher Parcel) (w : World Unit),
    Dispatcher.create (tiny 1 1) 1 = .ok d ∧ Config.nameable (tiny 1 1).threadName = true ∧
      (fresh d ⟨0⟩).run restart = some w ∧ (fresh d ⟨0⟩ : World Unit).OneByOne restart ∧
      (tenures 1 w.history).all = [[0], [2]] ∧ w.handed [0] = [1] ∧ w.handed [2] = [1] ∧
      Numbered (w.handed [0]) ∧ Numbered (w.handed [2]) ∧
      w.dispatcher.allocator.stamps.counters.size ≤ 1 := by
  obtain ⟨a, run, paced⟩ := run_restart
  have made : Dispatcher.create (tiny 1 1) 1 = .ok (newborn 1 1) := rfl
  have named : Config.nameable (tiny 1 1).threadName = true := by decide
  obtain ⟨counted, follows⟩ := stamps_follow_tenures made named paced run
  have all : (tenures 1 (stampedAgain a).history).all = [[0], [2]] := rfl
  have numbered := (follows 1).2.2.2
  rw [all] at numbered
  refine ⟨newborn 1 1, stampedAgain a, made, named, run, paced, all, rfl, rfl,
    numbered [0] (by simp), numbered [2] (by simp), (counted ?_).2⟩
  simp [stampedAgain, calm, underKey, Submission.answer?]

end World

end OrderedLanes
