import OrderedLanes.Proofs.StopProtocol

/-!
A lane whose worker has died. Its queue is left as it was and goes on to take tasks until
somebody stops the lane; a stop complains and leaves the tasks where they are, and the
first halt hands all of them back. Whoever first asks how the worker ended is told the
panic, and nobody else.
-/

namespace OrderedLanes

namespace LaneWorld

variable {α V : Type} {u v w w' : LaneWorld α} {a : LaneAct α V} {acts more : List (LaneAct α V)}
  {index : LaneIndex} {n : Nat} {kind : StopKind} {c : Closing α} {panic : Option Payload}

/-! ### The tasks -/

/-- What the first halt has taken back so far. -/
def haul (w : LaneWorld α) : List α :=
  (firstHalt? w.log).elim [] fun n => (w.calls[n]?).elim [] (·.progress.gathered)

theorem haul_of_unhalted (unhalted : firstHalt? w.log = none) : w.haul = [] := by
  rw [haul, unhalted]
  rfl

theorem haul_of_halt {progress : Closing α} (first : firstHalt? w.log = some n)
    (there : w.calls[n]? = some ⟨kind, progress⟩) : w.haul = progress.gathered := by
  rw [haul, first]
  simp [there]

/-- An access takes what it takes from the head of the queue. -/
theorem haul_access (h : Orderly w) (there : w.calls[n]? = some ⟨kind, c⟩) :
    (w.access n kind c).haul ++ (w.access n kind c).lane.queue = w.haul ++ w.lane.queue := by
  have halts : firstHalt? (w.access n kind c).log =
      (firstHalt? w.log).or (firstHalt? (c.news n w.lane)) := firstHalt?_append
  rcases c.gathers w.lane with ⟨gathered, queue⟩ | ⟨error, drained, task, rfl, gathered, queue⟩
  · have same : (w.access n kind c).haul = w.haul := by
      cases earlier : firstHalt? w.log with
      | some m =>
        rw [haul, halts, earlier, Option.some_or, haul, earlier, Option.elim_some,
          Option.elim_some, calls_access, elim_set _ there]
        split
        · next self => simp [self, there, gathered]
        · rfl
      | none =>
        rw [haul_of_unhalted earlier]
        rcases reached_news c n w.lane with ⟨silent, -⟩ | ⟨k, rfl, news⟩
        · refine haul_of_unhalted ?_
          rw [halts, earlier]
          simp [firstHalt?, silent]
        · rw [haul, halts, earlier, news]
          cases k with
          | graceful => simp [firstHalt?]
          | forced =>
            rw [calls_access]
            simp only [firstHalt?, List.filterMap_cons, List.filterMap_nil, Option.none_or]
            have nothing : (Closing.marking .forced : Closing α).gathered = [] := rfl
            simpa [elim_set _ there, nothing] using gathered
    rw [same, lane_access, queue]
  · obtain ⟨-, first, -⟩ := h.stands n kind _ there
    have first' : firstHalt? (w.access n kind (.draining error drained)).log = some n := by
      rw [halts, first, Option.some_or]
    rw [haul_of_halt first there, haul_of_halt first' (getElem?_set_there there _), gathered,
      lane_access, queue, List.append_assoc]
    rfl

/-- What happens at a lane whose worker is gone. -/
structure Bereft (w w' : LaneWorld α) (since : List (LaneNews α)) : Prop where
  log : w'.log = w.log ++ since
  worker : w'.lane.worker = w.lane.worker
  unstarted : started since = []
  kept : w'.haul ++ w'.lane.queue = w.haul ++ w.lane.queue ++ accepted since
  /-- Whoever looks sees that it is gone. -/
  seen : ∀ n gone, (n, gone) ∈ looks since → gone = true

theorem Bereft.trans {since more : List (LaneNews α)} (h : Bereft u v since)
    (h' : Bereft v w more) : Bereft u w (since ++ more) where
  log := by rw [h'.log, h.log, List.append_assoc]
  worker := h'.worker.trans h.worker
  unstarted := by rw [started_append, h.unstarted, h'.unstarted, List.append_nil]
  kept := by rw [h'.kept, h.kept, accepted_append, List.append_assoc]
  seen n gone there := by
    rw [looks_append] at there
    exact (List.mem_append.1 there).elim (h.seen n gone) (h'.seen n gone)

theorem bereft_of_still {l : Lane α} {news : List (LaneNews α)} (worker : l.worker = w.lane.worker)
    (unstarted : started news = []) (queue : l.queue = w.lane.queue ++ accepted news)
    (unreached : reached news = []) (unlooked : looks news = []) :
    Bereft w ({ w with lane := l }.note news) news := by
  have same : ({ w with lane := l }.note news).haul = w.haul := by
    rw [haul, log_note, firstHalt?_append]
    simp [firstHalt?, unreached, haul]
  refine ⟨rfl, worker, unstarted, ?_, fun n gone there => ?_⟩
  · rw [same, lane_note, queue, List.append_assoc]
  · rw [unlooked] at there
    cases there

theorem Move.bereft (m : Move w a w') (h : Orderly w) (gone : w.lane.worker = .exited panic) :
    ∃ since, Bereft w w' since := by
  cases m with
  | accept task accepting => exact ⟨_, bereft_of_still rfl rfl rfl rfl rfl⟩
  | refuse task closed => exact ⟨_, bereft_of_still rfl rfl (List.append_nil _).symm rfl rfl⟩
  | ask => exact ⟨_, bereft_of_still rfl rfl (List.append_nil _).symm rfl rfl⟩
  | begin kind =>
    refine ⟨[], (List.append_nil _).symm, rfl, rfl, ?_, fun n gone there => by cases there⟩
    have new : (Closing.marking kind : Closing α).gathered = [] := rfl
    have same : haul { w with calls := w.calls ++ [⟨kind, .marking kind⟩] } = w.haul := by
      unfold haul
      congr 1
      funext n
      exact elim_snoc w.calls (fun call => call.progress.gathered) new n
    rw [same]
    simp
  | access n kind c there unfinished =>
    have silent : started (c.news n w.lane) = [] ∧ accepted (c.news n w.lane) = [] := by
      cases c <;> exact ⟨rfl, rfl⟩
    refine ⟨c.news n w.lane, rfl, c.worker_step _, silent.1, ?_, fun m seen look => ?_⟩
    · rw [haul_access h there, silent.2, List.append_nil]
    · rcases looks_news c n w.lane with ⟨none, -⟩ | ⟨k, -, news⟩
      · rw [none] at look
        cases look
      · have saw : seen = w.lane.isFinished := by
          rw [news] at look
          simpa using (Prod.mk.inj (List.mem_singleton.1 look)).2
        rw [saw, Lane.isFinished, gone]
  | take task queue idle next => simp [gone] at idle
  | leave idle empty closed => simp [gone] at idle
  | start panic task holding free => simp [gone] at holding
  | abandon panic task holding interrupted => simp [gone] at holding
  | survive ending woken task busy quiet => simp [gone] at busy
  | die ending woken task panic busy fatal => simp [gone] at busy

/-! ### Who asks how the worker ended -/

/-- Nobody was told anything, unless a panic ended the worker. -/
structure Untold (w : LaneWorld α) : Prop where
  pending : w.lane.isFinished = false → w.lane.joined = false
  silent : (∀ panic, w.lane.worker ≠ .exited (some panic)) →
    ∀ answer ∈ joins w.log, answer = .ok none

theorem joinIfExited_silent {l : Lane α} (calm : ∀ panic, l.worker ≠ .exited (some panic)) :
    l.joinIfExited.1 = .ok none := by
  unfold Lane.joinIfExited
  split
  · next panic worker =>
    cases panic with
    | none => split <;> rfl
    | some panic => exact absurd worker (calm panic)
  · rfl

theorem Untold.still {l : Lane α} {news : List (LaneNews α)} (h : Untold w)
    (joined : l.joined = w.lane.joined) (back : l.isFinished = false → w.lane.isFinished = false)
    (calm : (∀ panic, l.worker ≠ .exited (some panic)) →
      ∀ panic, w.lane.worker ≠ .exited (some panic)) (silent : joins news = []) :
    Untold ({ w with lane := l }.note news) := by
  refine ⟨fun there => joined.trans (h.pending (back there)), fun quiet => ?_⟩
  rw [log_note, joins_append, silent, List.append_nil]
  exact h.silent (calm quiet)

theorem Untold.move (h : Untold w) (m : Move w a w') : Untold w' := by
  cases m with
  | begin kind => exact ⟨h.pending, h.silent⟩
  | access n kind c there unfinished =>
    have silent : joins (c.news n w.lane) = [] := by cases c <;> rfl
    refine ⟨fun there => (c.joined_step _).trans (h.pending ?_), fun quiet => ?_⟩
    · rwa [lane_access, Lane.isFinished, c.worker_step] at there
    · rw [lane_access, c.worker_step] at quiet
      rw [log_access, joins_append, silent, List.append_nil]
      exact h.silent quiet
  | take task queue idle next =>
    rw [← note_nil { w with lane := { w.lane with queue, worker := .holding task } }]
    exact h.still rfl (fun _ => by simp [Lane.isFinished, idle]) (fun _ _ => by simp [idle]) rfl
  | leave idle empty closed =>
    exact h.still rfl (fun _ => by simp [Lane.isFinished, idle]) (fun _ _ => by simp [idle]) rfl
  | start panic task holding free =>
    exact h.still rfl (fun _ => by simp [Lane.isFinished, holding]) (fun _ _ => by simp [holding])
      rfl
  | abandon panic task holding interrupted =>
    exact h.still rfl (fun _ => by simp [Lane.isFinished, holding]) (fun _ _ => by simp [holding])
      rfl
  | survive ending woken task busy quiet =>
    exact h.still rfl (fun _ => by simp [Lane.isFinished, busy]) (fun _ _ => by simp [busy]) rfl
  | die ending woken task panic busy fatal =>
    exact h.still rfl (fun _ => by simp [Lane.isFinished, busy]) (fun _ _ => by simp [busy]) rfl
  | ask =>
    refine ⟨fun there => ?_, fun quiet => ?_⟩
    · have gone : w.lane.isFinished = false := there
      simp [h.pending gone, gone]
    · rw [log_note, joins_append]
      intro answer told
      rcases List.mem_append.1 told with before | now
      · exact h.silent quiet answer before
      · rw [List.mem_singleton.1 now]
        exact joinIfExited_silent quiet
  | _ => exact h.still rfl id id rfl

theorem untold_of_run (run : (fresh index).run acts = some w) : Untold w := by
  refine run_induction (P := fun _ w => Untold w) ?_ (fun _ untold move => untold.move move) run
  exact ⟨fun _ => rfl, fun _ answer told => by simp [fresh] at told⟩

/-- The answers since a panic ended the worker: the first one tells of it. -/
inductive Answered (index : LaneIndex) (panic : Payload) :
    Bool → List (Except Payload (Option LaneError)) → Prop
  | unasked : Answered index panic false []
  | asked (n : Nat) : Answered index panic true
      (Lane.obituary index (some panic) :: List.replicate n (.ok none))

variable {answers : List (Except Payload (Option LaneError))}

theorem Answered.told {panic : Payload} {joined : Bool} (h : Answered index panic joined answers) :
    answers = [] ∨
      ∃ n, answers = Lane.obituary index (some panic) :: List.replicate n (.ok none) := by
  cases h with
  | unasked => exact .inl rfl
  | asked n => exact .inr ⟨n, rfl⟩

theorem Answered.ask {l : Lane α} {panic : Payload}
    (h : Answered l.index panic l.joined answers) (gone : l.worker = .exited (some panic)) :
    Answered l.index panic (l.joined || l.isFinished) (answers ++ [l.joinIfExited.1]) := by
  have finished : l.isFinished = true := by rw [Lane.isFinished, gone]
  rw [finished, Bool.or_true]
  cases joined : l.joined with
  | false =>
    rw [joined] at h
    cases h
    have told : l.joinIfExited.1 = Lane.obituary l.index (some panic) := by
      simp [Lane.joinIfExited, gone, joined]
    rw [told]
    exact .asked 0
  | true =>
    rw [joined] at h
    obtain _ | ⟨n⟩ := h
    have told : l.joinIfExited.1 = .ok none := by simp [Lane.joinIfExited, gone, joined]
    have one : [.ok none] = List.replicate 1 (.ok none : Except Payload (Option LaneError)) := rfl
    rw [told, one, List.cons_append, List.replicate_append_replicate]
    exact .asked (n + 1)

theorem Move.same_index (m : Move w a w') : w'.lane.index = w.lane.index := by
  cases m with
  | access n kind c there unfinished => exact c.index_step _
  | _ => rfl

theorem index_of_run (run : u.run acts = some v) : v.lane.index = u.lane.index :=
  run_induction (P := fun _ v => v.lane.index = u.lane.index) rfl
    (fun _ same move => move.same_index.trans same) run

theorem Move.answered (m : Move w a w') {panic : Payload}
    (h : Answered w.lane.index panic w.lane.joined answers)
    (gone : w.lane.worker = .exited (some panic)) {news : List (LaneNews α)}
    (log : w'.log = w.log ++ news) :
    Answered w'.lane.index panic w'.lane.joined (answers ++ joins news) := by
  rw [m.same_index]
  have still : w'.lane.joined = w.lane.joined → joins news = [] →
      Answered w.lane.index panic w'.lane.joined (answers ++ joins news) := by
    intro joined silent
    rw [joined, silent, List.append_nil]
    exact h
  cases m with
  | ask =>
    obtain rfl := List.append_cancel_left log
    exact h.ask gone
  | access n kind c there unfinished =>
    obtain rfl := List.append_cancel_left log
    exact still (c.joined_step _) (by cases c <;> rfl)
  | accept task accepting =>
    obtain rfl := List.append_cancel_left log
    exact still rfl rfl
  | refuse task closed =>
    obtain rfl := List.append_cancel_left log
    exact still rfl rfl
  | begin kind =>
    obtain rfl : news = [] := by simpa using log
    exact still rfl rfl
  | take task queue idle next => simp [gone] at idle
  | leave idle empty closed => simp [gone] at idle
  | start panic task holding free => simp [gone] at holding
  | abandon panic task holding interrupted => simp [gone] at holding
  | survive ending woken task busy quiet => simp [gone] at busy
  | die ending woken task panic busy fatal => simp [gone] at busy

/-! ### What the dead worker leaves behind -/

/-- What a run does to a lane whose worker a panic has just ended. -/
theorem since_of_run {panic : Payload} (run : (fresh index).run acts = some u)
    (gone : u.lane.worker = .exited (some panic)) (unjoined : u.lane.joined = false)
    (later : u.run more = some v) :
    ∃ since, Bereft u v since ∧ Answered v.lane.index panic v.lane.joined (joins since) := by
  refine run_induction (P := fun _ v => ∃ since, Bereft u v since ∧
    Answered v.lane.index panic v.lane.joined (joins since)) ?_ ?_ later
  · have nothing : Bereft u u [] :=
      ⟨(List.append_nil _).symm, rfl, rfl, by simp, fun n gone there => by cases there⟩
    exact ⟨[], nothing, unjoined ▸ .unasked⟩
  · rintro acts w a w' before ⟨since, bereft, answered⟩ move
    have dead : w.lane.worker = .exited (some panic) := bereft.worker.trans gone
    obtain ⟨news, next⟩ := move.bereft (orderly_of_run (run_of_parts run before)) dead
    refine ⟨_, bereft.trans next, ?_⟩
    rw [joins_append]
    exact move.answered answered dead next.log

/--
How a lane and those who use it stand when its worker has died of the panic `last`: `w` is the lane
while the last task was running, `since` what happened after it, and `v` the lane now.
-/
structure LeftBehind (V : Type) (index : LaneIndex) (last : Payload) (w v : LaneWorld α)
    (since : List (LaneNews α)) : Prop where
  unstarted : started since = []
  accepts : v.calls = [] → ∀ task, v.step (.enqueue task : LaneAct α V) =
    some ({ v with lane := { v.lane with queue := v.lane.queue ++ [task] } }.note [.accepted task])
  /-- Until a halt comes all of them stay queued, whether or not a stop has come. -/
  waiting : firstHalt? v.log = none → v.lane.queue = w.lane.queue ++ accepted since
  stop : w.calls = [] → ∀ (n : Nat) (report : StopReport α), firstCall? v.log = some n →
    v.calls[n]? = some ⟨.graceful, .done report⟩ → report = ⟨[], [.workerExited index]⟩
  halt : firstHalt? w.log = none → ∀ (n : Nat) (report : StopReport α),
    firstHalt? v.log = some n → v.calls[n]? = some ⟨.forced, .done report⟩ →
      report.pending = w.lane.queue ++ accepted since ∧ v.lane.queue = []
  /-- The first halt complains as well, unless a stop came before it. -/
  complaint : w.calls = [] → ∀ (n : Nat) (report : StopReport α), firstHalt? v.log = some n →
    v.calls[n]? = some ⟨.forced, .done report⟩ →
      report.errors = if firstCall? v.log = some n then [.workerExited index] else []
  /-- Nobody was told of the worker's end before, and of those who ask only the first one is. -/
  untold : ∀ answer ∈ joins w.log, answer = .ok none
  told : joins since = [] ∨
    ∃ n, joins since = Lane.obituary index (some last) :: List.replicate n (.ok none)
  /-- The report tells the message, if disposing of the payload leaves a report. -/
  message : last.disposal = none →
    Lane.obituary index (some last) = .ok (some (.workerPanicked index last.message))

theorem looks_of_uncalled (h : Orderly w) (calls : w.calls = []) : looks w.log = [] := by
  rw [List.eq_nil_iff_forall_not_mem]
  rintro ⟨n, gone⟩ there
  exact absurd ((h.uncalled calls).symm.trans (h.looked n gone there)) (by simp)

/-- A worker that dies in a task, whatever kills it, leaves the tasks behind. -/
theorem leftBehind_of_death {ending : Ending V} {woken : Option Payload} {panic : Payload}
    (run : (fresh index).run acts = some w)
    (fatal : (ending.escape.or woken).bind Payload.disposal = some panic)
    (dies : w.step (.finish ending woken) = some u) (later : u.run more = some v) :
    ∃ since, v.log = u.log ++ since ∧ LeftBehind V index panic w v since := by
  have run' : (fresh index).run (acts ++ [.finish ending woken]) = some u :=
    run_of_parts run (by simp [dies])
  have here : v.lane.index = index := index_of_run (run_of_parts run' later)
  have orderly := orderly_of_run run
  have orderly' := orderly_of_run (run_of_parts run' later)
  cases move_of_step dies with
  | survive _ _ task busy quiet => simp [fatal] at quiet
  | die _ _ task last busy fatal' =>
    obtain rfl := Option.some.inj (fatal'.symm.trans fatal)
    have unfinished : w.lane.isFinished = false := by rw [Lane.isFinished, busy]
    have untold := untold_of_run run
    obtain ⟨since, bereft, answered⟩ :=
      since_of_run run' rfl (untold.pending unfinished) later
    rw [here] at answered
    have log : v.log = w.log ++ ([.ended task, .left (some last)] ++ since) := by
      rw [bereft.log, log_note, List.append_assoc]
    have halts : firstHalt? w.log = none → firstHalt? (w.log ++
        [.ended task, .left (some last)]) = none := fun unhalted => by
      rw [firstHalt?_append, unhalted]
      rfl
    have kept : firstHalt? w.log = none →
        v.haul ++ v.lane.queue = w.lane.queue ++ accepted since := fun unhalted => by
      rw [bereft.kept, haul_of_unhalted (halts unhalted)]
      rfl
    -- the first call of all comes after the death, so what it sees is a worker that is gone
    have late : w.calls = [] → ∀ (n : Nat) (kind : StopKind) (report : StopReport α),
        firstCall? v.log = some n → v.calls[n]? = some ⟨kind, .done report⟩ →
          report.errors = [.workerExited index] := by
      intro calls n kind report first there
      have told := (orderly'.returned there).told
      obtain ⟨gone, looked⟩ := told.looked first
      have recent : looks v.log = looks since := by
        rw [log, looks_append, looks_append, looks_of_uncalled orderly calls]
        rfl
      obtain rfl := bereft.seen n gone (recent ▸ looked)
      rw [told.gone looked, here]
    refine ⟨since, bereft.log, bereft.unstarted, fun calls task => ?_, fun unhalted => ?_,
      fun calls n report first there => ?_, fun unhalted n report first there => ?_,
      fun calls n report first there => ?_, ?_, ?_, fun quiet => ?_⟩
    · simp [step, v.lane.enqueue_of_accepting task (orderly'.open_of_uncalled calls)]
    · have before : firstHalt? w.log = none := by
        rw [log, firstHalt?_append] at unhalted
        exact (Option.or_eq_none_iff.1 unhalted).1
      have whole := kept before
      rwa [haul_of_unhalted unhalted, List.nil_append] at whole
    · obtain ⟨pending, errors⟩ := report
      have errors := late calls n _ _ first there
      have nothing := (orderly'.returned there).others fun halt => by
        obtain ⟨c, there'⟩ := orderly'.kinds n _ (reached_of_firstHalt halt)
        rw [there] at there'
        cases there'
      simp only at errors nothing
      rw [errors, nothing]
    · have empty := ((orderly'.returned there).drained first).2.2
      have whole := kept unhalted
      rw [haul_of_halt first there, empty, List.append_nil] at whole
      exact ⟨whole, empty⟩
    · split
      · next firstOfAll => exact late calls n _ _ firstOfAll there
      · next second =>
        refine (orderly'.returned there).told.there fun gone => second ?_
        exact orderly'.looked n _ gone
    · exact untold.silent fun panic => by simp [busy]
    · exact answered.told
    · simp [Lane.obituary, quiet]

/--
A panic whose disposal panics with something whose own disposal panics kills the worker, and
nothing is lost; and who asks after a worker that left of itself is told nothing.
-/
theorem dead_worker_loses_nothing (α V : Type) (index : LaneIndex) :
    (∀ (acts more : List (LaneAct α V)) (w u v : LaneWorld α) (payload last : Payload)
      (woken : Option Payload), (fresh index).run acts = some w →
      payload.disposal.bind Payload.disposal = some last →
      w.step (.finish (.panic payload : Ending V) woken) = some u → u.run more = some v →
        ∃ since, v.log = u.log ++ since ∧ LeftBehind V index last w v since) ∧
    (∀ (acts : List (LaneAct α V)) (v : LaneWorld α), (fresh index).run acts = some v →
      v.lane.worker = .exited none → ∀ answer ∈ joins v.log, answer = .ok none) := by
  constructor
  · intro acts more w u v payload last woken run fatal dies later
    refine leftBehind_of_death run ?_ dies later
    obtain ⟨escape, disposal, fatal⟩ := Option.bind_eq_some_iff.1 fatal
    simp [Ending.escape, disposal, fatal]
  · intro acts v run gone
    exact (untold_of_run run).silent fun panic => by simp [gone]

/-- Two tasks wait behind the one that kills the worker, and a third one comes after it. -/
theorem dead_worker_loses_nothing_three : ∃ (acts more : List (LaneAct Nat Unit))
    (w u v : LaneWorld Nat) (since : List (LaneNews Nat)), (fresh 0).run acts = some w ∧
      (Payload.doubleTrap "late").disposal.bind Payload.disposal = some (.text "late") ∧
      w.step (.finish (.panic (.doubleTrap "late")) none : LaneAct Nat Unit) = some u ∧
      u.run more = some v ∧ v.log = u.log ++ since ∧ LeftBehind Unit 0 (.text "late") w v since ∧
      v.calls = [⟨.graceful, .done ⟨[], [.workerExited 0]⟩⟩, ⟨.forced, .done ⟨[8, 9, 10], []⟩⟩] ∧
      joins v.log = [.ok none, .ok (some (.workerPanicked 0 "late")), .ok none] := by
  let acts : List (LaneAct Nat Unit) :=
    [.enqueue 7, .receive, .inspect none, .enqueue 8, .enqueue 9, .join]
  let dies : LaneAct Nat Unit := .finish (.panic (.doubleTrap "late")) none
  let more : List (LaneAct Nat Unit) := [.enqueue 10, .join, .call .graceful, .advance 0,
    .advance 0, .advance 0, .call .forced, .advance 1, .advance 1, .advance 1, .advance 1,
    .advance 1, .advance 1, .advance 1, .join]
  have whole : (((fresh 0).run acts).bind fun w => (w.step dies).bind fun u =>
      (u.run more).map fun v => (v.calls, joins v.log)) =
      some ([⟨.graceful, .done ⟨[], [.workerExited 0]⟩⟩, ⟨.forced, .done ⟨[8, 9, 10], []⟩⟩],
        [.ok none, .ok (some (.workerPanicked 0 "late")), .ok none]) := rfl
  obtain ⟨w, run, whole⟩ := Option.bind_eq_some_iff.1 whole
  obtain ⟨u, fatal, whole⟩ := Option.bind_eq_some_iff.1 whole
  obtain ⟨v, later, seen⟩ := Option.map_eq_some_iff.1 whole
  obtain ⟨calls, told⟩ := Prod.mk.inj seen
  obtain ⟨since, log, left⟩ := (dead_worker_loses_nothing Nat Unit 0).1 acts more w u v
    (.doubleTrap "late") (.text "late") none run rfl fatal later
  exact ⟨acts, more, w, u, v, since, run, rfl, fatal, later, log, left, calls, told⟩

end LaneWorld

end OrderedLanes
