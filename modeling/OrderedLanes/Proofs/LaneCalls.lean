import OrderedLanes.Proofs.LaneMoves

/-!
The calls that stop or halt a lane. The first of them to come to the stage is the one that
looks at the worker, and the first halt is the one that interrupts it and drains the queue.
What a call was told and what it leaves behind follows from these two.
-/

namespace OrderedLanes

namespace Closing

variable {α : Type} {c : Closing α} {l : Lane α}

/-- Only the first access moves the stage. -/
theorem stage_step_of_marked (c : Closing α) (l : Lane α) (marked : ∀ kind, c ≠ .marking kind) :
    (c.step l).2.stage = l.stage := by
  cases c with
  | marking kind => exact absurd rfl (marked kind)
  | looking kind => cases kind <;> rfl
  | sealing kind error => cases kind <;> rfl
  | draining error drained => simp only [step]; split <;> rfl
  | _ => rfl

theorem sealing_of_closed (h : (c.step l).2.accepting = false) :
    l.accepting = false ∨ ∃ kind error, c = .sealing kind error := by
  cases c with
  | marking kind => left; cases kind <;> simp only [step] at h <;> split at h <;> exact h
  | looking kind => left; cases kind <;> exact h
  | sealing kind error => exact .inr ⟨kind, error, rfl⟩
  | draining error drained => left; simp only [step] at h; split at h <;> exact h
  | interrupting error => exact .inl h
  | done report => exact .inl h

theorem interrupting_of_interrupted (h : (c.step l).2.interrupted = true) :
    l.interrupted = true ∨ ∃ error, c = .interrupting error := by
  cases c with
  | marking kind => left; cases kind <;> simp only [step] at h <;> split at h <;> exact h
  | looking kind => left; cases kind <;> exact h
  | sealing kind error => left; cases kind <;> exact h
  | draining error drained => left; simp only [step] at h; split at h <;> exact h
  | interrupting error => exact .inr ⟨error, rfl⟩
  | done report => exact .inl h

end Closing

namespace LaneWorld

variable {α V : Type} {w w' : LaneWorld α} {a : LaneAct α V} {acts : List (LaneAct α V)}
  {n : Nat} {kind : StopKind} {c : Closing α} {log news : List (LaneNews α)}

/-- The calls that came to the stage. -/
def called (log : List (LaneNews α)) : List Nat := (reached log).map Prod.fst

theorem called_append : called (log ++ news) = called log ++ called news := by
  simp [called]

theorem firstCall?_append : firstCall? (log ++ news) = (firstCall? log).or (firstCall? news) := by
  simp [firstCall?, List.head?_append, Option.map_or]

theorem firstHalt?_append : firstHalt? (log ++ news) = (firstHalt? log).or (firstHalt? news) := by
  simp [firstHalt?, List.find?_append, Option.map_or]

theorem called_of_firstCall (h : firstCall? log = some n) : n ∈ called log := by
  obtain ⟨⟨m, kind⟩, head, rfl⟩ := Option.map_eq_some_iff.1 h
  exact List.mem_map.2 ⟨_, List.mem_of_head? head, rfl⟩

theorem reached_of_firstHalt (h : firstHalt? log = some n) : (n, .forced) ∈ reached log := by
  obtain ⟨⟨m, kind⟩, found, rfl⟩ := Option.map_eq_some_iff.1 h
  obtain rfl : kind = .forced := by simpa using List.find?_some found
  exact List.mem_of_find?_eq_some found

theorem called_of_firstHalt (h : firstHalt? log = some n) : n ∈ called log :=
  List.mem_map.2 ⟨_, reached_of_firstHalt h, rfl⟩

theorem firstCall?_eq_none : firstCall? log = none ↔ reached log = [] := by
  simp [firstCall?]

theorem firstHalt?_of_firstCall (h : firstCall? log = none) : firstHalt? log = none := by
  simp [firstHalt?, firstCall?_eq_none.1 h]

/-- What a call complains about: that it looked at the worker and found it gone. -/
structure Told (w : LaneWorld α) (n : Nat) (errors : List LaneError) : Prop where
  gone : (n, true) ∈ looks w.log → errors = [.workerExited w.lane.index]
  there : (n, true) ∉ looks w.log → errors = []
  /-- The first call has looked. -/
  looked : firstCall? w.log = some n → ∃ gone, (n, gone) ∈ looks w.log

/-- What a call leaves behind. -/
structure Over (w : LaneWorld α) (n : Nat) (report : StopReport α) : Prop where
  came : n ∈ called w.log
  told : w.Told n report.errors
  closed : firstCall? w.log = some n → w.lane.accepting = false
  drained : firstHalt? w.log = some n →
    w.lane.interrupted = true ∧ w.lane.accepting = false ∧ w.lane.queue = []
  others : firstHalt? w.log ≠ some n → report.pending = []

/-- Where a call stands among the others. -/
def Stands (w : LaneWorld α) (n : Nat) (kind : StopKind) : Closing α → Prop
  | .marking k => k = kind ∧ n ∉ called w.log
  | .looking k => k = kind ∧ firstCall? w.log = some n ∧ (∀ gone, (n, gone) ∉ looks w.log) ∧
      (kind = .forced → firstHalt? w.log = some n)
  | .interrupting error => kind = .forced ∧ firstHalt? w.log = some n ∧ w.Told n error.toList
  | .sealing k error => k = kind ∧ w.Told n error.toList ∧
      (kind = .graceful → firstCall? w.log = some n) ∧
      (kind = .forced → firstHalt? w.log = some n)
  | .draining error _ => kind = .forced ∧ firstHalt? w.log = some n ∧ w.Told n error.toList
  | .done report => w.Over n report

/-- Call `n` is where it was, and what it stands on as well. -/
structure Stays (n : Nat) (w w' : LaneWorld α) : Prop where
  index : w'.lane.index = w.lane.index
  came : n ∈ called w'.log ↔ n ∈ called w.log
  first : firstCall? w'.log = some n ↔ firstCall? w.log = some n
  firstHalt : firstHalt? w'.log = some n ↔ firstHalt? w.log = some n
  looks : ∀ gone, (n, gone) ∈ looks w'.log ↔ (n, gone) ∈ looks w.log
  grows : w.lane.Grows w'.lane
  empty : w.lane.accepting = false → w.lane.queue = [] → w'.lane.queue = []

theorem Told.stays {errors : List LaneError} (h : w.Told n errors) (s : Stays n w w') :
    w'.Told n errors := by
  refine ⟨fun gone => ?_, fun there => ?_, fun first => ?_⟩
  · rw [s.index]
    exact h.gone ((s.looks true).1 gone)
  · exact h.there fun gone => there ((s.looks true).2 gone)
  · obtain ⟨gone, looked⟩ := h.looked (s.first.1 first)
    exact ⟨gone, (s.looks gone).2 looked⟩

theorem Over.stays {report : StopReport α} (h : w.Over n report) (s : Stays n w w') :
    w'.Over n report where
  came := s.came.2 h.came
  told := h.told.stays s
  closed first := s.grows.closed (h.closed (s.first.1 first))
  drained first := by
    obtain ⟨interrupted, closed, empty⟩ := h.drained (s.firstHalt.1 first)
    exact ⟨s.grows.interrupted interrupted, s.grows.closed closed, s.empty closed empty⟩
  others other := h.others (mt s.firstHalt.2 other)

theorem Stands.stays (h : w.Stands n kind c) (s : Stays n w w') : w'.Stands n kind c := by
  cases c with
  | marking k => exact ⟨h.1, mt s.came.1 h.2⟩
  | looking k =>
    obtain ⟨same, first, unseen, halt⟩ := h
    exact ⟨same, s.first.2 first, fun gone => mt (s.looks gone).1 (unseen gone),
      fun forced => s.firstHalt.2 (halt forced)⟩
  | interrupting error => exact ⟨h.1, s.firstHalt.2 h.2.1, h.2.2.stays s⟩
  | sealing k error =>
    obtain ⟨same, told, first, halt⟩ := h
    exact ⟨same, told.stays s, fun graceful => s.first.2 (first graceful),
      fun forced => s.firstHalt.2 (halt forced)⟩
  | draining error drained => exact ⟨h.1, s.firstHalt.2 h.2.1, h.2.2.stays s⟩
  | done report => exact Over.stays h s

/-- What holds of a lane and the calls that stop or halt it. -/
structure Orderly (w : LaneWorld α) : Prop where
  fits : ∀ (n : Nat) (kind : StopKind) (c : Closing α), w.calls[n]? = some ⟨kind, c⟩ →
    c.Fits w.lane
  stands : ∀ (n : Nat) (kind : StopKind) (c : Closing α), w.calls[n]? = some ⟨kind, c⟩ →
    w.Stands n kind c
  kinds : ∀ n kind, (n, kind) ∈ reached w.log → ∃ c, w.calls[n]? = some ⟨kind, c⟩
  running : w.lane.stage = .running ↔ firstCall? w.log = none
  halted : w.lane.stage = .halted ↔ firstHalt? w.log ≠ none
  looked : ∀ n gone, (n, gone) ∈ looks w.log → firstCall? w.log = some n
  once : (looks w.log).length ≤ 1
  closed : w.lane.accepting = false → firstCall? w.log ≠ none
  interrupted : w.lane.interrupted = true → firstHalt? w.log ≠ none

/-- As long as nobody stops the lane nobody has come to the stage. -/
theorem Orderly.uncalled (h : Orderly w) (calls : w.calls = []) : firstCall? w.log = none := by
  rw [firstCall?_eq_none, List.eq_nil_iff_forall_not_mem]
  rintro ⟨n, kind⟩ noted
  obtain ⟨c, there⟩ := h.kinds n kind noted
  simp [calls] at there

/-- It is open then. -/
theorem Orderly.open_of_uncalled (h : Orderly w) (calls : w.calls = []) :
    w.lane.accepting = true := by
  by_contra closed
  exact h.closed (by simpa using closed) (h.uncalled calls)

theorem orderly_fresh (index : LaneIndex) : Orderly (fresh index : LaneWorld α) where
  fits n kind c there := by simp [fresh] at there
  stands n kind c there := by simp [fresh] at there
  kinds n kind came := by simp [fresh] at came
  running := by simp [fresh, Lane.start, firstCall?]
  halted := by simp [fresh, Lane.start, firstHalt?]
  looked n gone there := by simp [fresh] at there
  once := by simp [fresh]
  closed shut := by simp [fresh, Lane.start] at shut
  interrupted up := by simp [fresh, Lane.start] at up

/-- What the worker and other callers do is none of the calls' business. -/
theorem Orderly.bystander {l : Lane α} (h : Orderly w) (index : l.index = w.lane.index)
    (stage : l.stage = w.lane.stage) (accepting : l.accepting = w.lane.accepting)
    (interrupted : l.interrupted = w.lane.interrupted)
    (empty : w.lane.accepting = false → w.lane.queue = [] → l.queue = [])
    (unreached : reached news = []) (unlooked : looks news = []) :
    Orderly ({ w with lane := l }.note news) := by
  have grows : w.lane.Grows l := Lane.grows_of_flags stage interrupted accepting
  have same : reached (w.log ++ news) = reached w.log := by
    rw [reached_append, unreached, List.append_nil]
  have seen : looks (w.log ++ news) = looks w.log := by
    rw [looks_append, unlooked, List.append_nil]
  have first : firstCall? (w.log ++ news) = firstCall? w.log := by rw [firstCall?, same]; rfl
  have halt : firstHalt? (w.log ++ news) = firstHalt? w.log := by rw [firstHalt?, same]; rfl
  have stays : ∀ n, Stays n w ({ w with lane := l }.note news) := fun n =>
    ⟨index, by simp only [log_note, called, same], by rw [log_note, first],
      by rw [log_note, halt], fun gone => by rw [log_note, seen], grows, empty⟩
  exact {
    fits := fun n kind c there => (h.fits n kind c there).grows grows
    stands := fun n kind c there => (h.stands n kind c there).stays (stays n)
    kinds := fun n kind came => h.kinds n kind (by rwa [log_note, same] at came)
    running := by rw [log_note, first, lane_note, stage]; exact h.running
    halted := by rw [log_note, halt, lane_note, stage]; exact h.halted
    looked := fun n gone there => by
      rw [log_note, seen] at there
      rw [log_note, first]
      exact h.looked n gone there
    once := by rw [log_note, seen]; exact h.once
    closed := by rw [log_note, first, lane_note, accepting]; exact h.closed
    interrupted := by rw [log_note, halt, lane_note, interrupted]; exact h.interrupted }

theorem Orderly.begin (h : Orderly w) (kind : StopKind) :
    Orderly { w with calls := w.calls ++ [⟨kind, .marking kind⟩] } := by
  have stays : ∀ n, Stays n w { w with calls := w.calls ++ [⟨kind, .marking kind⟩] } := fun n =>
    ⟨rfl, .rfl, .rfl, .rfl, fun _ => .rfl, .refl _, fun _ empty => empty⟩
  have new : w.calls.length ∉ called w.log := by
    intro came
    obtain ⟨⟨n, k⟩, came, rfl⟩ := List.mem_map.1 came
    obtain ⟨c, there⟩ := h.kinds _ k came
    simp at there
  refine ⟨fun n k c there => ?_, fun n k c there => ?_, fun n k came => ?_, h.running, h.halted,
    h.looked, h.once, h.closed, h.interrupted⟩
  · rcases getElem?_snoc_cases there with ⟨rfl, same⟩ | old
    · cases same
      trivial
    · exact h.fits n k c old
  · rcases getElem?_snoc_cases there with ⟨rfl, same⟩ | old
    · cases same
      exact ⟨rfl, new⟩
    · exact (h.stands n k c old).stays (stays n)
  · obtain ⟨c, there⟩ := h.kinds n k came
    exact ⟨c, getElem?_snoc_there there _⟩

/-! ### One access -/

/-- Only its first access brings a call to the stage. -/
theorem reached_news (c : Closing α) (n : Nat) (l : Lane α) :
    reached (c.news n l) = [] ∧ (∀ k, c ≠ .marking k) ∨
      ∃ k, c = .marking k ∧ c.news n l = [.reached n k] := by
  cases c with
  | marking k => exact .inr ⟨k, rfl, rfl⟩
  | _ => exact .inl ⟨rfl, by simp⟩

theorem looks_news (c : Closing α) (n : Nat) (l : Lane α) :
    looks (c.news n l) = [] ∧ (∀ k, c ≠ .looking k) ∨
      ∃ k, c = .looking k ∧ c.news n l = [.looked n l.isFinished] := by
  cases c with
  | looking k => exact .inr ⟨k, rfl, rfl⟩
  | _ => exact .inl ⟨rfl, by simp⟩

theorem stays_access {m : Nat} (other : m ≠ n) : Stays m w (w.access n kind c) := by
  refine ⟨c.index_step _, ?_, ?_, ?_, fun gone => ?_, c.grows_step _, fun closed empty => ?_⟩
  · rw [log_access, called_append]
    rcases reached_news c n w.lane with ⟨silent, -⟩ | ⟨k, -, news⟩
    · simp [called, silent]
    · simp [called, news, other]
  · rw [log_access, firstCall?_append]
    rcases reached_news c n w.lane with ⟨silent, -⟩ | ⟨k, -, news⟩
    · simp [firstCall?, silent]
    · cases firstCall? w.log <;> simp [news, firstCall?, other.symm]
  · rw [log_access, firstHalt?_append]
    rcases reached_news c n w.lane with ⟨silent, -⟩ | ⟨k, -, news⟩
    · simp [firstHalt?, silent]
    · cases firstHalt? w.log <;> cases k <;> simp [news, firstHalt?, other.symm]
  · rw [log_access, looks_append]
    rcases looks_news c n w.lane with ⟨silent, -⟩ | ⟨k, -, news⟩
    · simp [silent]
    · simp [news, other]
  · rcases c.queue_step w.lane with same | ⟨error, drained, p, -, -, queue⟩
    · exact same.trans empty
    · rw [empty] at queue
      cases queue

/-- An access that is not seen in the log leaves a complaint as it is. -/
theorem told_access {errors : List LaneError} (told : w.Told n errors)
    (silent : c.news n w.lane = []) : (w.access n kind c).Told n errors := by
  have same : (w.access n kind c).log = w.log := by rw [log_access, silent, List.append_nil]
  refine ⟨?_, ?_, ?_⟩
  · rw [same, lane_access, Closing.index_step]
    exact told.gone
  · rw [same]
    exact told.there
  · rw [same]
    exact told.looked

section

variable (h : Orderly w) (there : w.calls[n]? = some ⟨kind, c⟩)
include h

theorem Orderly.unlooked (new : n ∉ called w.log) (gone : Bool) : (n, gone) ∉ looks w.log :=
  fun there => new (called_of_firstCall (h.looked n gone there))

/-- A call that comes to the stage after another one hears nothing of the worker. -/
theorem Orderly.told_late (new : n ∉ called w.log) (late : firstCall? w.log ≠ none)
    (silent : looks (c.news n w.lane) = []) : (w.access n kind c).Told n [] := by
  have seen : looks (w.access n kind c).log = looks w.log := by
    rw [log_access, looks_append, silent, List.append_nil]
  refine ⟨fun gone => ?_, fun _ => rfl, fun first => ?_⟩
  · exact absurd (seen ▸ gone) (h.unlooked new true)
  · rw [log_access, firstCall?_append] at first
    cases earlier : firstCall? w.log with
    | none => exact absurd earlier late
    | some m =>
      rw [earlier, Option.some_or] at first
      exact absurd (called_of_firstCall (earlier.trans first)) new

/-- It has nothing to do if its own kind was seen to before. -/
theorem Orderly.over_late (new : n ∉ called w.log) (late : firstCall? w.log ≠ none)
    (other : firstHalt? (w.access n kind (.marking kind)).log ≠ some n) :
    (w.access n kind (.marking kind)).Over n .empty := by
  have told : (w.access n kind (.marking kind)).Told n [] := h.told_late new late rfl
  refine ⟨?_, told, fun first => ?_, fun first => absurd first other, fun _ => rfl⟩
  · rw [log_access, called_append]
    exact List.mem_append_right _ List.mem_cons_self
  · obtain ⟨gone, looked⟩ := told.looked first
    rw [log_access, looks_append] at looked
    exact absurd (by simpa [Closing.news] using looked) (h.unlooked new gone)

include there

theorem Orderly.stands_marking {k : StopKind} (at' : c = .marking k) :
    (w.access n kind c).Stands n kind (c.step w.lane).1 := by
  subst at'
  obtain ⟨rfl, new⟩ := h.stands n kind _ there
  have unlooked : ∀ gone, (n, gone) ∉ looks (w.access n k (.marking k)).log := fun gone => by
    rw [log_access, looks_append]
    simpa [Closing.news] using h.unlooked new gone
  have late : w.lane.stage ≠ .running → firstCall? w.log ≠ none := mt h.running.2
  cases k with
  | graceful =>
    by_cases running : w.lane.stage = .running
    · have first : firstCall? (w.access n .graceful (.marking .graceful)).log = some n := by
        rw [log_access, firstCall?_append, h.running.1 running]
        rfl
      simp only [Closing.step, running, if_true]
      exact ⟨rfl, first, unlooked, by simp⟩
    · simp only [Closing.step, running, if_false]
      refine h.over_late new (late running) ?_
      rw [log_access, firstHalt?_append]
      intro first
      cases earlier : firstHalt? w.log with
      | none =>
        rw [earlier] at first
        simp [firstHalt?, Closing.news] at first
      | some m =>
        rw [earlier, Option.some_or] at first
        exact new (called_of_firstHalt (earlier.trans first))
  | forced =>
    have halt : w.lane.stage ≠ .halted →
        firstHalt? (w.access n .forced (.marking .forced)).log = some n := by
      intro awake
      have none : firstHalt? w.log = none := by
        by_contra earlier
        exact awake (h.halted.2 earlier)
      rw [log_access, firstHalt?_append, none]
      rfl
    cases stage : w.lane.stage with
    | running =>
      have first : firstCall? (w.access n .forced (.marking .forced)).log = some n := by
        rw [log_access, firstCall?_append, h.running.1 stage]
        rfl
      simp only [Closing.step, stage]
      exact ⟨rfl, first, unlooked, fun _ => halt (by simp [stage])⟩
    | draining =>
      simp only [Closing.step, stage]
      exact ⟨rfl, halt (by simp [stage]), h.told_late new (late (by simp [stage])) rfl⟩
    | halted =>
      simp only [Closing.step, stage]
      refine h.over_late new (late (by simp [stage])) ?_
      rw [log_access, firstHalt?_append]
      intro first
      cases earlier : firstHalt? w.log with
      | none => exact h.halted.1 stage earlier
      | some m =>
        rw [earlier, Option.some_or] at first
        exact new (called_of_firstHalt (earlier.trans first))

/-- What the first call is told is what it sees. -/
theorem Orderly.told_looking {k : StopKind} (at' : c = .looking k) :
    (w.access n kind c).Told n w.lane.exitedEarly.toList := by
  subst at'
  obtain ⟨-, -, unseen, -⟩ := h.stands n kind _ there
  have seen : ∀ gone, (n, gone) ∈ looks (w.access n kind (.looking k)).log ↔
      gone = w.lane.isFinished := fun gone => by
    rw [log_access, looks_append]
    simp [Closing.news, unseen gone]
  refine ⟨fun gone => ?_, fun there => ?_, fun _ => ⟨w.lane.isFinished, (seen _).2 rfl⟩⟩
  · rw [seen] at gone
    rw [lane_access, Closing.index_step, Lane.exitedEarly, if_pos gone.symm]
    rfl
  · rw [seen] at there
    rw [Lane.exitedEarly, if_neg (Ne.symm there)]
    rfl

/-- A call goes on from where it stands. -/
theorem Orderly.stands_access (unfinished : ∀ report, c ≠ .done report) :
    (w.access n kind c).Stands n kind (c.step w.lane).1 := by
  have stands := h.stands n kind c there
  have fits := h.fits n kind c there
  have same : c.news n w.lane = [] → (w.access n kind c).log = w.log := fun silent => by
    rw [log_access, silent, List.append_nil]
  cases c with
  | marking k => exact h.stands_marking there rfl
  | looking k =>
    have told := h.told_looking there rfl
    obtain ⟨rfl, first, -, halt⟩ := stands
    have first' : firstCall? (w.access n k (.looking k)).log = some n := by
      rw [log_access, firstCall?_append, first]
      rfl
    cases k with
    | graceful => exact ⟨rfl, told, fun _ => first', by simp⟩
    | forced =>
      refine ⟨rfl, ?_, told⟩
      rw [log_access, firstHalt?_append, halt rfl]
      rfl
  | interrupting error =>
    obtain ⟨rfl, halt, told⟩ := stands
    exact ⟨rfl, told_access told rfl, by simp, fun _ => by rw [same rfl]; exact halt⟩
  | sealing k error =>
    obtain ⟨rfl, told, first, halt⟩ := stands
    cases k with
    | graceful =>
      refine ⟨?_, told_access told rfl, fun _ => rfl, fun forced => ?_, fun _ => rfl⟩
      · rw [same rfl]
        exact called_of_firstCall (first rfl)
      · rw [same rfl] at forced
        obtain ⟨c', there'⟩ := h.kinds n _ (reached_of_firstHalt forced)
        rw [there] at there'
        cases there'
    | forced => exact ⟨rfl, by rw [same rfl]; exact halt rfl, told_access told rfl⟩
  | draining error drained =>
    obtain ⟨rfl, halt, told⟩ := stands
    obtain ⟨-, interrupted, closed⟩ := fits
    cases next : w.lane.queue with
    | nil =>
      have whole : (Closing.draining error drained).step w.lane =
          (.done ⟨drained, error.toList⟩, w.lane) := by simp only [Closing.step, next]
      have told' : (w.access n .forced (.draining error drained)).Told n error.toList :=
        told_access told rfl
      rw [whole]
      refine ⟨?_, told', fun _ => ?_, fun _ => ?_, fun other => absurd ?_ other⟩
      · rw [same rfl]
        exact called_of_firstHalt halt
      · rw [lane_access, whole]
        exact closed
      · rw [lane_access, whole]
        exact ⟨interrupted, closed, next⟩
      · rw [same rfl]
        exact halt
    | cons task queue =>
      have whole : ((Closing.draining error drained).step w.lane).1 =
          .draining error (drained ++ [task]) := by simp only [Closing.step, next]
      rw [whole]
      exact ⟨rfl, by rw [same rfl]; exact halt, told_access told rfl⟩
  | done report => exact absurd rfl (unfinished report)

theorem Orderly.access (unfinished : ∀ report, c ≠ .done report) :
    Orderly (w.access n kind c) where
  fits m k c' there' := by
    rcases getElem?_set_cases there' with ⟨rfl, same⟩ | ⟨other, old⟩
    · cases same
      exact Closing.fits_step (h.fits m kind c there)
    · exact (h.fits m k c' old).grows (c.grows_step _)
  stands m k c' there' := by
    rcases getElem?_set_cases there' with ⟨rfl, same⟩ | ⟨other, old⟩
    · cases same
      exact h.stands_access there unfinished
    · exact (h.stands m k c' old).stays (stays_access other)
  kinds m k came := by
    have old : ∀ {c'}, w.calls[m]? = some ⟨k, c'⟩ →
        ∃ c', (w.access n kind c).calls[m]? = some ⟨k, c'⟩ := fun {c'} old => by
      rcases eq_or_ne m n with rfl | other
      · obtain ⟨rfl, rfl⟩ : kind = k ∧ c = c' := by simpa using there.symm.trans old
        exact ⟨_, getElem?_set_there there _⟩
      · exact ⟨c', (List.getElem?_set_ne other.symm).trans old⟩
    rw [log_access, reached_append] at came
    rcases List.mem_append.1 came with before | now
    · obtain ⟨c', there'⟩ := h.kinds m k before
      exact old there'
    · rcases reached_news c n w.lane with ⟨silent, -⟩ | ⟨k', rfl, news⟩
      · rw [silent] at now
        cases now
      · obtain ⟨rfl, -⟩ := h.stands n kind _ there
        obtain ⟨rfl, rfl⟩ : m = n ∧ k = k' := by simpa [news] using now
        exact old there
  running := by
    rw [log_access, firstCall?_append, lane_access]
    rcases reached_news c n w.lane with ⟨silent, marked⟩ | ⟨k, rfl, news⟩
    · rw [c.stage_step_of_marked _ marked, h.running]
      simp [firstCall?, silent]
    · have moved : ((Closing.marking k).step w.lane).2.stage ≠ .running := by
        cases k <;> cases stage : w.lane.stage <;> simp [Closing.step, stage, Lane.mark]
      cases firstCall? w.log <;> simp [news, firstCall?, moved]
  halted := by
    rw [log_access, firstHalt?_append, lane_access]
    rcases reached_news c n w.lane with ⟨silent, marked⟩ | ⟨k, rfl, news⟩
    · rw [c.stage_step_of_marked _ marked, h.halted]
      simp [firstHalt?, silent]
    · cases k with
      | graceful =>
        have same : ((Closing.marking .graceful).step w.lane).2.stage = .halted ↔
            w.lane.stage = .halted := by
          cases stage : w.lane.stage <;> simp [Closing.step, stage, Lane.mark]
        rw [same, h.halted]
        cases firstHalt? w.log <;> simp [news, firstHalt?]
      | forced =>
        have halted : ((Closing.marking .forced).step w.lane).2.stage = .halted := by
          cases stage : w.lane.stage <;> simp [Closing.step, stage, Lane.mark]
        cases firstHalt? w.log <;> simp [news, firstHalt?, halted]
  looked m gone seen := by
    rw [log_access, looks_append] at seen
    rw [log_access, firstCall?_append]
    rcases List.mem_append.1 seen with before | now
    · rw [h.looked m gone before]
      rfl
    · rcases looks_news c n w.lane with ⟨silent, -⟩ | ⟨k, rfl, news⟩
      · rw [silent] at now
        cases now
      · obtain ⟨-, first, -, -⟩ := h.stands n kind _ there
        obtain ⟨rfl, -⟩ : m = n ∧ gone = w.lane.isFinished := by simpa [news] using now
        rw [first]
        rfl
  once := by
    rw [log_access, looks_append]
    rcases looks_news c n w.lane with ⟨silent, -⟩ | ⟨k, rfl, news⟩
    · rw [silent, List.append_nil]
      exact h.once
    · obtain ⟨-, first, unseen, -⟩ := h.stands n kind _ there
      have none : looks w.log = [] := by
        rw [List.eq_nil_iff_forall_not_mem]
        rintro ⟨m, gone⟩ seen
        obtain rfl := Option.some.inj ((h.looked m gone seen).symm.trans first)
        exact unseen gone seen
      simp [none, news]
  closed shut := by
    have before : firstCall? w.log ≠ none := by
      rcases Closing.sealing_of_closed shut with closed | ⟨k, error, rfl⟩
      · exact h.closed closed
      · obtain ⟨rfl, -, first, halt⟩ := h.stands n kind _ there
        cases k with
        | graceful => simp [first rfl]
        | forced => exact mt firstHalt?_of_firstCall (by simp [halt rfl])
    rw [log_access, firstCall?_append]
    cases first : firstCall? w.log with
    | none => exact absurd first before
    | some m => simp
  interrupted up := by
    have before : firstHalt? w.log ≠ none := by
      rcases Closing.interrupting_of_interrupted up with interrupted | ⟨error, rfl⟩
      · exact h.interrupted interrupted
      · obtain ⟨-, halt, -⟩ := h.stands n kind _ there
        simp [halt]
    rw [log_access, firstHalt?_append]
    cases first : firstHalt? w.log with
    | none => exact absurd first before
    | some m => simp

end

/-! ### Every run -/

theorem Orderly.move (h : Orderly w) (m : Move w a w') : Orderly w' := by
  cases m with
  | begin kind => exact h.begin kind
  | access n kind c there unfinished => exact h.access there unfinished
  | refuse task closed => exact h.bystander rfl rfl rfl rfl (fun _ => id) rfl rfl
  | accept task accepting =>
    refine h.bystander rfl rfl rfl rfl (fun closed => ?_) rfl rfl
    rw [accepting] at closed
    cases closed
  | take task queue idle next =>
    rw [← note_nil { w with lane := { w.lane with queue, worker := .holding task } }]
    refine h.bystander rfl rfl rfl rfl (fun _ empty => ?_) rfl rfl
    rw [next] at empty
    cases empty
  | _ => exact h.bystander rfl rfl rfl rfl (fun _ => id) rfl rfl

theorem orderly_of_run {index : LaneIndex} (run : (fresh index).run acts = some w) : Orderly w :=
  run_induction (P := fun _ w => Orderly w) (orderly_fresh index)
    (fun _ before move => before.move move) run

end LaneWorld

end OrderedLanes
