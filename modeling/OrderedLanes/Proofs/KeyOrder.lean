import OrderedLanes.Proofs.Bindings
import OrderedLanes.Proofs.SpacedKeys

/-!
The order of one key across lanes. While a key is bound to one lane at a time,
what was started and ended under it and what the lanes have still to do for it add
up to its accepted tasks in turn, until a lane that has tasks of it is interrupted;
that only cuts the order short.
-/

namespace OrderedLanes

/-- What a lane has still to do for key `k`. -/
def Lane.remaining (k : Key) (l : Lane Parcel) : List Mark :=
  (l.worker.due ++ inTurn l.queue).filter (·.key = k)

/-- What a lane will do for key `k` even if it is interrupted. -/
def Lane.underway (k : Key) (l : Lane Parcel) : List Mark :=
  l.worker.running.filter (·.key = k)

/-- A lane that has no task of a key has nothing to do for it. -/
theorem Lane.remaining_eq_nil {k : Key} {l : Lane Parcel} (none : ∀ p ∈ l.tasks, p.key ≠ k) :
    l.remaining k = [] ∧ l.underway k = [] := by
  have waiting : (inTurn l.queue).filter (·.key = k) = [] := by
    have apart : l.queue.filter (·.key = k) = [] := by
      refine List.filter_eq_nil_iff.2 fun p listed => ?_
      simpa using none p (List.mem_append_right _ listed)
    rw [World.filter_inTurn, apart, inTurn_nil]
  rw [remaining, underway, List.filter_append, waiting]
  cases worker : l.worker with
  | idle => exact ⟨rfl, rfl⟩
  | exited panic => exact ⟨rfl, rfl⟩
  | holding p =>
    have apart : p.key ≠ k := none p (by simp [tasks, Worker.task?, worker])
    simp [Worker.due, Worker.running, apart]
  | busy p =>
    have apart : p.key ≠ k := none p (by simp [tasks, Worker.task?, worker])
    simp [Worker.due, Worker.running, apart]

namespace World

variable {V : Type} {d : Dispatcher Parcel} {w w' : World V} {i j : LaneIndex} {k : Key}

/-- What all lanes list. -/
def onLanes (d : Dispatcher Parcel) (g : Lane Parcel → List Mark) : List Mark :=
  d.lanes.flatMap fun slot => slot.elim [] g

theorem onLanes_setLane_same {d : Dispatcher Parcel} {l l' : Lane Parcel}
    {g : Lane Parcel → List Mark} (lane : d.lane? i = some l) (same : g l' = g l) :
    onLanes (d.setLane i l') g = onLanes d g := by
  have there := Dispatcher.slot_of_lane? lane
  obtain ⟨before, after, first, second⟩ := flatMap_set (b := some l')
    (fun slot : Option (Lane Parcel) => slot.elim [] g) there
  rw [onLanes, onLanes, Dispatcher.setLane, second, first]
  simp only [Option.elim_some, same]

/-- Only one lane lists anything. -/
theorem onLanes_only {d : Dispatcher Parcel} {l : Lane Parcel} {g : Lane Parcel → List Mark}
    (lane : d.lane? i = some l) (others : ∀ j l, j ≠ i → d.lane? j = some l → g l = []) :
    onLanes d g = g l := by
  have there := Dispatcher.slot_of_lane? lane
  obtain ⟨bound, value⟩ := List.getElem?_eq_some_iff.1 there
  have rest : ∀ slots : List (Option (Lane Parcel)),
      (∀ slot ∈ slots, slot.elim [] g = []) → (slots.flatMap fun slot => slot.elim [] g) = [] :=
    fun slots none => List.flatMap_eq_nil_iff.2 none
  have split : d.lanes = d.lanes.take i ++ some l :: d.lanes.drop (i + 1) := by
    rw [← value, List.getElem_cons_drop, List.take_append_drop]
  have apart : ∀ (j : Nat) (slot : Option (Lane Parcel)), d.lanes[j]? = some slot → j ≠ i →
      slot.elim [] g = [] := by
    intro j slot found other
    cases slot with
    | none => rfl
    | some l' => exact others j l' other (by simp [Dispatcher.lane?, found])
  rw [onLanes, split, List.flatMap_append, List.flatMap_cons, rest, rest]
  · simp
  · intro slot listed
    obtain ⟨j, found⟩ := List.getElem?_of_mem listed
    rw [List.getElem?_drop] at found
    exact apart _ slot found (by omega)
  · intro slot listed
    obtain ⟨j, found⟩ := List.getElem?_of_mem listed
    have before : j < i := by
      have len := (List.getElem?_eq_some_iff.1 found).1
      rw [List.length_take] at len
      omega
    rw [List.getElem?_take_of_lt before] at found
    exact apart j slot found (Nat.ne_of_lt before)

theorem onLanes_install {d : Dispatcher Parcel} {g : Lane Parcel → List Mark}
    (empty : d.lane? i = none) (idle : g (Lane.start i) = []) :
    onLanes (d.setLane i (Lane.start i)) g = onLanes d g := by
  by_cases bound : i < d.laneCount
  · have there : d.lanes[i]? = some none := by
      have some := List.getElem?_eq_getElem (l := d.lanes) bound
      rw [Dispatcher.lane?, some, Option.join_some] at empty
      rw [some, empty]
    obtain ⟨before, after, first, second⟩ := flatMap_set (b := some (Lane.start i))
      (fun slot : Option (Lane Parcel) => slot.elim [] g) there
    rw [onLanes, onLanes, Dispatcher.setLane, second, first]
    simp only [Option.elim_some, Option.elim_none, idle]
  · rw [onLanes, onLanes, lane?_setLane_out _ _ bound]

/-- What an act does for key `k`. -/
inductive KeyMove (w w' : World V) (k : Key) : Prop
  | rest (marks : marksUnder k w'.history = marksUnder k w.history)
      (accepted : acceptedUnder k w'.history = acceptedUnder k w.history)
      (remaining : onLanes w'.dispatcher (Lane.remaining k) =
        onLanes w.dispatcher (Lane.remaining k))
      (underway : onLanes w'.dispatcher (Lane.underway k) =
        onLanes w.dispatcher (Lane.underway k))
  | accept (i : LaneIndex) (l : Lane Parcel) (p : Parcel) (key : p.key = k)
      (lane : w.dispatcher.lane? i = some l) (bound : w.Bound k i)
      (after : w'.dispatcher = w.dispatcher.setLane i { l with queue := l.queue ++ [p] })
      (marks : marksUnder k w'.history = marksUnder k w.history)
      (accepted : acceptedUnder k w'.history = acceptedUnder k w.history ++ [p])
  | start (i : LaneIndex) (l : Lane Parcel) (p : Parcel) (key : p.key = k)
      (lane : w.dispatcher.lane? i = some l) (holding : l.worker = .holding p)
      (free : l.interrupted = false)
      (after : w'.dispatcher = w.dispatcher.setLane i { l with worker := .busy p })
      (marks : marksUnder k w'.history = marksUnder k w.history ++ [.began p])
      (accepted : acceptedUnder k w'.history = acceptedUnder k w.history)
  | conclude (i : LaneIndex) (l : Lane Parcel) (p : Parcel) (escape : Option Payload)
      (key : p.key = k) (lane : w.dispatcher.lane? i = some l) (busy : l.worker = .busy p)
      (after : w'.dispatcher = w.dispatcher.setLane i (l.conclude escape))
      (marks : marksUnder k w'.history = marksUnder k w.history ++ [.ended p])
      (accepted : acceptedUnder k w'.history = acceptedUnder k w.history)
  | cut (i : LaneIndex) (l : Lane Parcel) (lane : w.dispatcher.lane? i = some l)
      (bound : w.Bound k i) (interrupted : l.interrupted = true)
      (marks : marksUnder k w'.history = marksUnder k w.history)
      (accepted : acceptedUnder k w'.history = acceptedUnder k w.history)
      (underway : onLanes w'.dispatcher (Lane.underway k) =
        onLanes w.dispatcher (Lane.underway k))

/-- A lane changes and does for the key what it did before. -/
theorem keyMove_of_lane {l l' : Lane Parcel} (lane : w.dispatcher.lane? j = some l)
    (after : w'.dispatcher = w.dispatcher.setLane j l')
    (marks : marksUnder k w'.history = marksUnder k w.history)
    (accepted : acceptedUnder k w'.history = acceptedUnder k w.history)
    (remaining : l'.remaining k = l.remaining k) (underway : l'.underway k = l.underway k) :
    KeyMove w w' k := by
  refine .rest marks accepted ?_ ?_
  · rw [after, onLanes_setLane_same lane remaining]
  · rw [after, onLanes_setLane_same lane underway]

/-- An access of whoever stops a lane leaves the order of a key alone or cuts it short. -/
theorem keyMove_of_closing {who : Party} {c : Closing Parcel} {l : Lane Parcel}
    (h : Reachable d w) (closing : w.closing? who = some (j, c))
    (lane : w.dispatcher.lane? j = some l)
    (after : w'.dispatcher = w.dispatcher.setLane j (c.step l).2)
    (marks : marksUnder k w'.history = marksUnder k w.history)
    (accepted : acceptedUnder k w'.history = acceptedUnder k w.history) : KeyMove w w' k := by
  have worker := c.worker_step l
  have underway : (c.step l).2.underway k = l.underway k := by
    rw [Lane.underway, Lane.underway, worker]
  rcases c.queue_step l with same | ⟨error, drained, p, draining, -, queue⟩
  · refine keyMove_of_lane lane after marks accepted ?_ underway
    rw [Lane.remaining, Lane.remaining, worker, same]
  · by_cases own : p.key = k
    · have interrupted : l.interrupted = true := by
        rw [draining] at closing
        rcases h.fits closing with ⟨kind, other⟩ | ⟨l', lane', fits⟩
        · cases other
        · obtain rfl := Option.some.inj (lane.symm.trans lane')
          exact fits.2.1
      have waiting : p ∈ l.tasks := List.mem_append_right _ (queue ▸ List.mem_cons_self)
      refine .cut j l lane (.task l p lane waiting own) interrupted marks accepted ?_
      rw [after, onLanes_setLane_same lane underway]
    · refine keyMove_of_lane lane after marks accepted ?_ underway
      rw [Lane.remaining, Lane.remaining, worker, queue]
      simp [own]

theorem Effect.keyMove (e : Effect w w') (h : Reachable d w) (k : Key) : KeyMove w w' k := by
  have sound := h.allSound
  cases e with
  | install t s stamp i own there phase empty =>
    obtain rfl := (sound t s there).own stamp i own phase
    exact .rest rfl rfl (onLanes_install empty rfl) (onLanes_install empty rfl)
  | accept t s stamp i l there phase lane accepting =>
    have same : (s.task i stamp).key = s.key := by rw [(sound t s there).task]
    by_cases own : s.key = k
    · refine .accept i l (s.task i stamp) (same.trans own) lane ?_ rfl (by simp) ?_
      · exact .submission t s there own (by simp [Submission.lane?, phase]) (.inr ⟨stamp, phase⟩)
      · simp [same, own]
    · refine keyMove_of_lane lane rfl (by simp) (by simp [same, own]) ?_ rfl
      simp [Lane.remaining, same, own]
  | retire t s i c l there phase lane unfinished =>
    have closing := closing?_submission.2 ⟨s, there, phase⟩
    exact keyMove_of_closing h closing lane rfl (by simp) (by simp)
  | shut n kind i c l report there lane unfinished =>
    have closing := closing?_stop.2 ⟨kind, report, there⟩
    exact keyMove_of_closing h closing lane rfl (by simp) (by simp)
  | take i l p queue lane idle next =>
    refine keyMove_of_lane lane rfl (by simp) (by simp) ?_ ?_
    · simp [Lane.remaining, Worker.due, idle, next]
    · simp [Lane.underway, Worker.running, idle]
  | leave i l lane idle empty closed =>
    refine keyMove_of_lane lane rfl rfl rfl ?_ ?_
    · simp [Lane.remaining, Worker.due, idle, Lane.leave]
    · simp [Lane.underway, Worker.running, idle, Lane.leave]
  | start i l p lane holding free =>
    by_cases own : p.key = k
    · exact .start i l p own lane holding free rfl (by simp [own]) (by simp)
    · refine keyMove_of_lane lane rfl (by simp [own]) (by simp) ?_ ?_
      · simp [Lane.remaining, Worker.due, holding, own]
      · simp [Lane.underway, Worker.running, holding, own]
  | abandon i l p panic lane holding interrupted =>
    have underway : (l.leave panic).underway k = l.underway k := by
      simp [Lane.underway, Worker.running, holding, Lane.leave]
    by_cases own : p.key = k
    · have there : p ∈ l.tasks := List.mem_append_left _ (by simp [Worker.task?, holding])
      refine .cut i l lane (.task l p lane there own) interrupted (by simp) (by simp) ?_
      exact onLanes_setLane_same lane underway
    · refine keyMove_of_lane lane rfl (by simp) (by simp) ?_ underway
      simp [Lane.remaining, Worker.due, holding, own, Lane.leave]
  | conclude i l p ending escape lane busy =>
    by_cases own : p.key = k
    · exact .conclude i l p escape own lane busy rfl (by simp [own]) (by simp)
    · refine keyMove_of_lane lane rfl (by simp [own]) (by simp) ?_ ?_
      · unfold Lane.conclude
        split <;> simp [Lane.remaining, Worker.due, busy, own]
      · unfold Lane.conclude
        split <;> simp [Lane.underway, Worker.running, busy, own]
  | _ => exact .rest (by simp) (by simp) rfl rfl

/-! ### The order of a key that is evicted only while it is not in use -/

/-- No stop has begun, or the key is bound to a lane that is not interrupted. -/
def Open (w : World V) (k : Key) : Prop :=
  w.dispatcher.shutdown = false ∨
    ∃ i l, w.Bound k i ∧ w.dispatcher.lane? i = some l ∧ l.interrupted = false

theorem Open.back (h : w'.Open k) (reached : Reachable d w) (new : d.Fresh) (e : Effect w w') :
    w.Open k := by
  rcases h with down | ⟨i, l', b', lane', free⟩
  · exact .inl (e.running down)
  · rcases e.bound reached new b' with b | ⟨down, -⟩
    · cases lane : w.dispatcher.lane? i with
      | some l =>
        obtain ⟨l'', lane'', grows⟩ := e.grows reached.allSound lane
        obtain rfl := Option.some.inj (lane'.symm.trans lane'')
        refine .inr ⟨i, l, b, lane, ?_⟩
        by_contra set
        simp [grows.interrupted (by simpa using set)] at free
      | none =>
        cases b with
        | task l p there => simp [there] at lane
        | submission t s there key found may =>
          rcases may with down | ⟨stamp, queueing⟩
          · exact .inl down
          · have range := e.laneCount ▸ Dispatcher.lt_of_lane? lane'
            obtain ⟨l, there⟩ := reached.allHoused t s i there (by rw [queueing]; rfl) range
            simp [there] at lane
    · exact .inl (e.running down)

/-- The order of key `k` so far. -/
structure Serial (w : World V) (k : Key) : Prop where
  begun : marksUnder k w.history ++ onLanes w.dispatcher (Lane.underway k) <+:
    inTurn (acceptedUnder k w.history)
  whole : w.Open k → marksUnder k w.history ++ onLanes w.dispatcher (Lane.remaining k) =
    inTurn (acceptedUnder k w.history)

/-- Of all lanes only the one that the key is bound to has anything to do for it. -/
theorem Careful.only (h : Careful d k w) (new : d.Fresh) (b : w.Bound k i) {l : Lane Parcel}
    (lane : w.dispatcher.lane? i = some l) (l' : Lane Parcel) :
    onLanes (w.dispatcher.setLane i l') (Lane.remaining k) = l'.remaining k ∧
      onLanes (w.dispatcher.setLane i l') (Lane.underway k) = l'.underway k := by
  have others : ∀ j x, j ≠ i → (w.dispatcher.setLane i l').lane? j = some x →
      x.remaining k = [] ∧ x.underway k = [] := by
    intro j x apart found
    rw [Dispatcher.lane?_setLane_ne _ apart.symm] at found
    refine Lane.remaining_eq_nil fun p there key => apart ?_
    exact h.one_lane new (.task x p found there key) b
  have own := Dispatcher.lane?_setLane_self l' lane
  exact ⟨onLanes_only own fun j x apart found => (others j x apart found).1,
    onLanes_only own fun j x apart found => (others j x apart found).2⟩

theorem Careful.only_now (h : Careful d k w) (new : d.Fresh) (b : w.Bound k i) {l : Lane Parcel}
    (lane : w.dispatcher.lane? i = some l) :
    onLanes w.dispatcher (Lane.remaining k) = l.remaining k ∧
      onLanes w.dispatcher (Lane.underway k) = l.underway k := by
  have same := h.only new b lane l
  rwa [w.dispatcher.setLane_lane? i l lane] at same

section Steps

variable {l : Lane Parcel} {p : Parcel}

theorem Serial.accept (s : Serial w k) (h : Careful d k w) (new : d.Fresh) (e : Effect w w')
    (key : p.key = k) (lane : w.dispatcher.lane? i = some l) (b : w.Bound k i)
    (after : w'.dispatcher = w.dispatcher.setLane i { l with queue := l.queue ++ [p] })
    (marks : marksUnder k w'.history = marksUnder k w.history)
    (accepted : acceptedUnder k w'.history = acceptedUnder k w.history ++ [p]) : Serial w' k := by
  obtain ⟨remaining, underway⟩ := h.only_now new b lane
  obtain ⟨remaining', underway'⟩ := h.only new b lane { l with queue := l.queue ++ [p] }
  refine ⟨?_, fun opened => ?_⟩
  · have begun := s.begun
    rw [underway] at begun
    rw [marks, accepted, after, underway', inTurn_append]
    exact begun.trans (List.prefix_append _ _)
  · have whole := s.whole (opened.back h.reachable new e)
    rw [remaining] at whole
    rw [marks, accepted, after, remaining', inTurn_append, ← whole]
    simp [Lane.remaining, key]

theorem Serial.start (s : Serial w k) (h : Careful d k w) (new : d.Fresh) (key : p.key = k)
    (lane : w.dispatcher.lane? i = some l) (holding : l.worker = .holding p)
    (free : l.interrupted = false)
    (after : w'.dispatcher = w.dispatcher.setLane i { l with worker := .busy p })
    (marks : marksUnder k w'.history = marksUnder k w.history ++ [.began p])
    (accepted : acceptedUnder k w'.history = acceptedUnder k w.history) : Serial w' k := by
  have there : p ∈ l.tasks := List.mem_append_left _ (by simp [Worker.task?, holding])
  have b : w.Bound k i := .task l p lane there key
  obtain ⟨remaining', underway'⟩ := h.only new b lane { l with worker := .busy p }
  have whole := s.whole (.inr ⟨i, l, b, lane, free⟩)
  rw [(h.only_now new b lane).1] at whole
  have same : marksUnder k w.history ++ [.began p] ++
      Lane.remaining k { l with worker := .busy p } = inTurn (acceptedUnder k w.history) := by
    rw [← whole]
    simp [Lane.remaining, Worker.due, holding, key]
  refine ⟨?_, fun _ => ?_⟩
  · rw [marks, accepted, after, underway', ← same]
    refine List.prefix_append_right_inj _ |>.2 ⟨(inTurn l.queue).filter (·.key = k), ?_⟩
    simp [Lane.remaining, Lane.underway, Worker.due, Worker.running, key]
  · rw [marks, accepted, after, remaining', same]

theorem Serial.conclude (s : Serial w k) (h : Careful d k w) (new : d.Fresh) (e : Effect w w')
    (key : p.key = k) (lane : w.dispatcher.lane? i = some l) (busy : l.worker = .busy p)
    (escape : Option Payload) (after : w'.dispatcher = w.dispatcher.setLane i (l.conclude escape))
    (marks : marksUnder k w'.history = marksUnder k w.history ++ [.ended p])
    (accepted : acceptedUnder k w'.history = acceptedUnder k w.history) : Serial w' k := by
  have there : p ∈ l.tasks := List.mem_append_left _ (by simp [Worker.task?, busy])
  have b : w.Bound k i := .task l p lane there key
  obtain ⟨remaining, underway⟩ := h.only_now new b lane
  obtain ⟨remaining', underway'⟩ := h.only new b lane (l.conclude escape)
  refine ⟨?_, fun opened => ?_⟩
  · have begun := s.begun
    rw [underway] at begun
    rw [marks, accepted, after, underway']
    unfold Lane.conclude
    split <;> simpa [Lane.underway, Worker.running, busy, key] using begun
  · have whole := s.whole (opened.back h.reachable new e)
    rw [remaining] at whole
    rw [marks, accepted, after, remaining', ← whole]
    unfold Lane.conclude
    split <;> simp [Lane.remaining, Worker.due, busy, key]

/-- Once a lane with tasks of the key is interrupted, the key is open no more. -/
theorem Careful.cut (h : Careful d k w) (new : d.Fresh) (e : Effect w w')
    (lane : w.dispatcher.lane? i = some l) (b : w.Bound k i) (interrupted : l.interrupted = true) :
    ¬ w'.Open k := by
  have up := (h.reachable.flagged new).lanes i l lane interrupted
  rintro (down | ⟨j, l', b', lane', free⟩)
  · simp [e.shutdown up] at down
  · rcases e.bound h.reachable new b' with old | ⟨down, -⟩
    · obtain rfl := h.one_lane new old b
      obtain ⟨l'', lane'', grows⟩ := e.grows h.reachable.allSound lane
      obtain rfl := Option.some.inj (lane'.symm.trans lane'')
      simp [grows.interrupted interrupted] at free
    · simp [e.shutdown up] at down

end Steps

theorem Careful.serial (h : Careful d k w) (new : d.Fresh) : Serial w k := by
  induction h with
  | start =>
    have idle : ∀ g, onLanes d g = [] := fun g => new.flatMap_lanes rfl
    exact ⟨by simp [fresh, idle], fun _ => by simp [fresh, idle]⟩
  | @step w w' before effect quiet ih =>
    cases effect.keyMove before.reachable k with
    | rest marks accepted remaining underway =>
      refine ⟨by rw [marks, accepted, underway]; exact ih.begun, fun opened => ?_⟩
      rw [marks, accepted, remaining]
      exact ih.whole (opened.back before.reachable new effect)
    | accept i l p key lane bound after marks accepted =>
      exact ih.accept before new effect key lane bound after marks accepted
    | start i l p key lane holding free after marks accepted =>
      exact ih.start before new key lane holding free after marks accepted
    | conclude i l p escape key lane busy after marks accepted =>
      exact ih.conclude before new effect key lane busy escape after marks accepted
    | cut i l lane bound interrupted marks accepted underway =>
      refine ⟨by rw [marks, accepted, underway]; exact ih.begun, fun opened => ?_⟩
      exact absurd opened (before.cut new effect lane bound interrupted)

/-! ### Runs -/

theorem Bound.of_core (b : w.core.Bound k i) : w.Bound k i := by
  cases b with
  | task l p lane there key => exact .task l p lane there key
  | submission t s there key found may => exact .submission t s there key found may

/-- Before a stop has begun, no act of a run evicts key `k` while it is in use. -/
def EvictsIdle (d : Dispatcher Parcel) (counter : KeyCounter) (acts : List (Act V)) (k : Key) :
    Prop :=
  ∀ before a after v v' lane, acts = before ++ a :: after → (fresh d counter).run before = some v →
    v.step a = some v' → v.dispatcher.shutdown = false → Evicts v v' k lane → ¬ v.InUse k

/-- The same of the acts that lead on from `w`. -/
def EvictsIdleFrom (w : World V) (acts : List (Act V)) (k : Key) : Prop :=
  ∀ before a after v v' lane, acts = before ++ a :: after → w.run before = some v →
    v.step a = some v' → v.dispatcher.shutdown = false → Evicts v v' k lane → ¬ v.InUse k

theorem evictsIdleFrom_append {v : World V} {acts more : List (Act V)}
    (run : w.run acts = some v) (first : w.EvictsIdleFrom acts k)
    (second : v.EvictsIdleFrom more k) : w.EvictsIdleFrom (acts ++ more) k := by
  intro before a after u u' lane split reach
  rcases List.append_eq_append_iff.1 split with ⟨left, rfl, rest⟩ | ⟨left, rfl, rest⟩
  · rw [run_append, run] at reach
    exact second left a after u u' lane rest reach
  · cases left with
    | nil =>
      rw [List.append_nil] at run
      obtain rfl := Option.some.inj (run.symm.trans reach)
      exact second [] a after v u' lane rest.symm rfl
    | cons b left =>
      obtain ⟨rfl, -⟩ := List.cons.inj rest
      exact first before a left u u' lane rfl reach

/-- One act, while the key is not in use. -/
theorem evictsIdleFrom_of_unused (unused : ¬ w.InUse k) (a : Act V) :
    w.EvictsIdleFrom [a] k := by
  intro before b after u u' lane split reach
  obtain ⟨rfl, -⟩ | ⟨-, ⟨⟩⟩ := List.singleton_eq_append_iff.1 split
  obtain rfl := Option.some.inj reach
  exact fun _ _ _ => unused

/-- Acts that do not evict the key. -/
theorem evictsIdleFrom_of_quiet {v : World V} {acts : List (Act V)} (run : w.run acts = some v)
    (quiet : (evicted v.history).filter (·.1 = k) = (evicted w.history).filter (·.1 = k)) :
    w.EvictsIdleFrom acts k := by
  rintro before a after u u' lane rfl reach step - ⟨news, history, gone⟩
  rw [run_append, reach, Option.bind_some, run_cons, step, Option.bind_some] at run
  obtain ⟨early, first⟩ : w.history <+: u.history := (later_of_run reach).history
  obtain ⟨late, last⟩ : u'.history <+: v.history := (later_of_run run).history
  have listed : (k, lane) ∈ (evicted news).filter (·.1 = k) := by
    simpa using ⟨_, gone, rfl⟩
  rw [← last, history, ← first] at quiet
  simp only [List.filterMap_append, List.filter_append, List.append_assoc,
    List.append_right_eq_self, List.append_eq_nil_iff] at quiet
  exact absurd (quiet.2.1 ▸ listed) (List.not_mem_nil)

theorem careful_of_run {counter : KeyCounter} {acts : List (Act V)}
    (run : (fresh d counter).run acts = some w) (idle : EvictsIdle d counter acts k) :
    Careful d k w.core := by
  induction acts using List.reverseRecOn generalizing w with
  | nil =>
    obtain rfl := Option.some.inj run
    exact .start
  | append_singleton acts a ih =>
    rw [run_snoc] at run
    obtain ⟨v, reach, step⟩ := Option.bind_eq_some_iff.1 run
    have before : Careful d k v.core := by
      refine ih reach fun first b after u u' lane split => ?_
      exact idle first b (after ++ [a]) u u' lane (by simp [split])
    refine before.step (effect_of_step step) fun lane evicts running ⟨i, b⟩ => ?_
    exact idle acts a [] v w lane rfl reach step running evicts ⟨i, b.of_core⟩

/--
In every run a key is evicted as soon as `capacity` other keys were looked up after it, whether or
not it is in use. Where no key is evicted while it is in use, its tasks run in turn.
-/
theorem evictions_and_order {config : Config} {parallelism : Nat} {d : Dispatcher Parcel}
    {counter : KeyCounter} {acts : List (Act V)} {w : World V}
    (made : Dispatcher.create config parallelism = .ok d)
    (run : (fresh d counter).run acts = some w) :
    (∀ before a after v v' key lane, acts = before ++ a :: after →
      (fresh d counter).run before = some v → v.step a = some v' →
      (Evicts v v' key lane ↔
        (key, lane) ∈ (lately v.history).take (config.maxKeys.toNat * config.headroom.toNat) ∧
        (key, lane) ∉ (lately v'.history).take (config.maxKeys.toNat * config.headroom.toNat) ∧
        lately v'.history ≠ [])) ∧
      ∀ k, EvictsIdle d counter acts k →
        marksUnder k w.history <+: inTurn (acceptedUnder k w.history) := by
  obtain ⟨new, capacity⟩ := Dispatcher.fresh_of_create made
  refine ⟨fun before a after v v' key lane split reach step => ?_, fun k idle => ?_⟩
  · have h : Reachable d v.core := reachable_of_run reach
    have e := effect_of_step step
    have positive := new.capacity
    have evicts := h.evicts_iff new e key lane
    simp only [assigned, (h.keeps new).1, ((h.step e).keeps new).1] at evicts
    rw [← capacity]
    refine evicts.trans ?_
    have some : (lately v'.history).take d.allocator.capacity ≠ [] ↔ lately v'.history ≠ [] := by
      simp [List.take_eq_nil_iff, Nat.ne_of_gt positive]
    exact and_congr Iff.rfl (and_congr Iff.rfl some)
  · have serial := (careful_of_run run idle).serial new
    exact (List.prefix_append _ _).trans serial.begun

/-- Two lanes, with room for one key: a task of key 1 runs. -/
def oneRuns (a : Allocator) : World Unit :=
  calm ⟨tiny 2 1, a, [some ⟨0, .running, true, [], false, .busy ⟨1, 0, 0⟩, false⟩, none],
      false, false⟩
    [underKey 1 0 (.done ⟨.accepted none, []⟩)]
    [.resolved 0 1 0, .accepted ⟨1, 0, 0⟩ 0, .taken ⟨1, 0, 0⟩ 0, .started ⟨1, 0, 0⟩ (some 0)]

/-- Submissions under the keys 1, 2, 3 and 1; the workers start the tasks of key 1. -/
def crowd : List (Act Unit) :=
  Act.submit 1 false :: List.replicate 7 (Act.advance 0) ++ [Act.receive 0, Act.inspect 0] ++
    ([Act.submit 2 false, Act.advance 1, Act.advance 1] ++
      ([Act.submit 3 false, Act.advance 2, Act.advance 2] ++
        ([Act.submit 1 false, Act.advance 3, Act.advance 3] ++
          (List.replicate 5 (Act.advance 3) ++ [Act.receive 1, Act.inspect 1]))))

/-- Three more submissions look their keys up, and each drives out the key before it. -/
theorem run_lookUps {u : World Unit} {a₂ a₃ a₄ : Allocator}
    (running : u.dispatcher.shutdown = false) (ticket : u.submissions.length = 1)
    (found₂ : (u.dispatcher.allocator.resolve 2).value = (1, a₂))
    (gone₂ : evictions (V := Unit) (u.dispatcher.allocator.resolve 2).events = [.evicted 1 0])
    (found₃ : (a₂.resolve 3).value = (0, a₃))
    (gone₃ : evictions (V := Unit) (a₂.resolve 3).events = [.evicted 2 1])
    (found₄ : (a₃.resolve 1).value = (1, a₄))
    (gone₄ : evictions (V := Unit) (a₃.resolve 1).events = [.evicted 3 0]) :
    u.run [.submit 2 false, .advance 1, .advance 1] = some (u.lookedUp 2 1 a₂ [.evicted 1 0]) ∧
      ∀ more, (u.lookedUp 2 1 a₂ [.evicted 1 0]).run
          ([.submit 3 false, .advance 2, .advance 2] ++
            ([.submit 1 false, .advance 3, .advance 3] ++ more)) =
        (((u.lookedUp 2 1 a₂ [.evicted 1 0]).lookedUp 3 0 a₃ [.evicted 2 1]).lookedUp 1 1 a₄
          [.evicted 3 0]).run more := by
  refine ⟨run_submit 2 running ticket found₂ gone₂ [], fun more => ?_⟩
  have three := run_submit (w := u.lookedUp 2 1 a₂ [.evicted 1 0]) (t := 2) 3 running
    (by simp [lookedUp, withSubmission, ticket]) found₃ gone₃
  have four := run_submit (w := (u.lookedUp 2 1 a₂ [.evicted 1 0]).lookedUp 3 0 a₃ [.evicted 2 1])
    (t := 3) 1 running (by simp [lookedUp, withSubmission, ticket]) found₄ gone₄
  exact (three _).trans (four more)

theorem run_crowd : ∃ w : World Unit, (fresh (newborn 2 1) ⟨0⟩).run crowd = some w ∧
    w.history = [.resolved 0 1 0, .accepted ⟨1, 0, 0⟩ 0, .taken ⟨1, 0, 0⟩ 0,
      .started ⟨1, 0, 0⟩ (some 0), .resolved 1 2 1, .evicted 1 0, .resolved 2 3 0, .evicted 2 1,
      .resolved 3 1 1, .evicted 3 0, .accepted ⟨1, 1, 3⟩ 1, .taken ⟨1, 1, 3⟩ 1,
      .started ⟨1, 1, 3⟩ (some 1)] ∧
    w.dispatcher.lanes = [some ⟨0, .running, true, [], false, .busy ⟨1, 0, 0⟩, false⟩,
      some ⟨1, .running, true, [], false, .busy ⟨1, 1, 3⟩, false⟩] := by
  obtain ⟨a₁, a₂, a₃, a₄, found₁, quiet₁, found₂, gone₂, found₃, gone₃, found₄, gone₄⟩ :=
    crowded_lookUps Unit
  have one : (fresh (newborn 2 1) ⟨0⟩).run (Act.submit 1 false ::
      List.replicate 7 (Act.advance 0) ++ [Act.receive 0, Act.inspect 0]) = some (oneRuns a₁) :=
    (run_submit (w := fresh (newborn 2 1) ⟨0⟩) 1 rfl rfl found₁ quiet₁ _).trans (by cbv)
  obtain ⟨two, rest⟩ := run_lookUps (u := oneRuns a₁) rfl rfl found₂ gone₂ found₃ gone₃ found₄ gone₄
  have last : (((((oneRuns a₁).lookedUp 2 1 a₂ [.evicted 1 0]).lookedUp 3 0 a₃
      [.evicted 2 1]).lookedUp 1 1 a₄ [.evicted 3 0]).run (List.replicate 5 (Act.advance 3) ++
        [Act.receive 1, Act.inspect 1])).map
        (fun w : World Unit => (w.history, w.dispatcher.lanes)) =
      some ([.resolved 0 1 0, .accepted ⟨1, 0, 0⟩ 0, .taken ⟨1, 0, 0⟩ 0,
        .started ⟨1, 0, 0⟩ (some 0), .resolved 1 2 1, .evicted 1 0, .resolved 2 3 0, .evicted 2 1,
        .resolved 3 1 1, .evicted 3 0, .accepted ⟨1, 1, 3⟩ 1, .taken ⟨1, 1, 3⟩ 1,
        .started ⟨1, 1, 3⟩ (some 1)],
        [some ⟨0, .running, true, [], false, .busy ⟨1, 0, 0⟩, false⟩,
          some ⟨1, .running, true, [], false, .busy ⟨1, 1, 3⟩, false⟩]) := by cbv
  obtain ⟨w, run, seen⟩ := Option.map_eq_some_iff.1 last
  obtain ⟨history, lanes⟩ := Prod.mk.inj seen
  exact ⟨w, run_of_parts one (run_of_parts two ((rest _).trans run)), history, lanes⟩

/-- The same, but the first task of key 1 comes to its end before the others are submitted. -/
def patientCrowd : List (Act Unit) :=
  Act.submit 1 false :: List.replicate 7 (Act.advance 0) ++
      [Act.receive 0, Act.inspect 0, Act.finish 0 (.value ())] ++
    ([Act.submit 2 false, Act.advance 1, Act.advance 1] ++
      ([Act.submit 3 false, Act.advance 2, Act.advance 2] ++
        ([Act.submit 1 false, Act.advance 3, Act.advance 3] ++
          (List.replicate 5 (Act.advance 3) ++ [Act.receive 1, Act.inspect 1]))))

/-- Two lanes, with room for one key: the task of key 1 has ended. -/
def oneRan (a : Allocator) : World Unit :=
  { calm ⟨tiny 2 1, a, [some ⟨0, .running, true, [], false, .idle, false⟩, none], false, false⟩
      [underKey 1 0 (.done ⟨.accepted none, []⟩)]
      [.resolved 0 1 0, .accepted ⟨1, 0, 0⟩ 0, .taken ⟨1, 0, 0⟩ 0, .started ⟨1, 0, 0⟩ (some 0),
        .ended ⟨1, 0, 0⟩ (some 0) (.value ())] with
    slots := [.ready (.ok ())] }

/-- Key 1 is evicted once it is not in use any more. -/
theorem run_patientCrowd : ∃ w : World Unit,
    (fresh (newborn 2 1) ⟨0⟩).run patientCrowd = some w ∧
      EvictsIdle (newborn 2 1) ⟨0⟩ patientCrowd 1 ∧
      w.history = [.resolved 0 1 0, .accepted ⟨1, 0, 0⟩ 0, .taken ⟨1, 0, 0⟩ 0,
        .started ⟨1, 0, 0⟩ (some 0), .ended ⟨1, 0, 0⟩ (some 0) (.value ()), .resolved 1 2 1,
        .evicted 1 0, .resolved 2 3 0, .evicted 2 1, .resolved 3 1 1, .evicted 3 0,
        .accepted ⟨1, 1, 3⟩ 1, .taken ⟨1, 1, 3⟩ 1, .started ⟨1, 1, 3⟩ (some 1)] := by
  obtain ⟨a₁, a₂, a₃, a₄, found₁, quiet₁, found₂, gone₂, found₃, gone₃, found₄, gone₄⟩ :=
    crowded_lookUps Unit
  have one : (fresh (newborn 2 1) ⟨0⟩).run (Act.submit 1 false ::
      List.replicate 7 (Act.advance 0) ++ [Act.receive 0, Act.inspect 0,
        Act.finish 0 (.value ())]) = some (oneRan a₁) :=
    (run_submit (w := fresh (newborn 2 1) ⟨0⟩) 1 rfl rfl found₁ quiet₁ _).trans (by cbv)
  obtain ⟨two, rest⟩ := run_lookUps (u := oneRan a₁) rfl rfl found₂ gone₂ found₃ gone₃ found₄ gone₄
  have last : (((((oneRan a₁).lookedUp 2 1 a₂ [.evicted 1 0]).lookedUp 3 0 a₃
      [.evicted 2 1]).lookedUp 1 1 a₄ [.evicted 3 0]).run (List.replicate 5 (Act.advance 3) ++
        [Act.receive 1, Act.inspect 1])).map World.history =
      some [.resolved 0 1 0, .accepted ⟨1, 0, 0⟩ 0, .taken ⟨1, 0, 0⟩ 0,
        .started ⟨1, 0, 0⟩ (some 0), .ended ⟨1, 0, 0⟩ (some 0) (.value ()), .resolved 1 2 1,
        .evicted 1 0, .resolved 2 3 0, .evicted 2 1, .resolved 3 1 1, .evicted 3 0,
        .accepted ⟨1, 1, 3⟩ 1, .taken ⟨1, 1, 3⟩ 1, .started ⟨1, 1, 3⟩ (some 1)] := by cbv
  obtain ⟨w, run, history⟩ := Option.map_eq_some_iff.1 last
  have after := (rest _).trans run
  refine ⟨w, run_of_parts one (run_of_parts two after), ?_, history⟩
  -- the third of these acts evicts the key; before it the submissions of key 1 have ended
  have looks : (oneRan a₁).run [.submit 2 false, .advance 1] =
      some ((oneRan a₁).withSubmission 2 (.resolving none)) := by cbv
  have unused : ¬ ((oneRan a₁).withSubmission 2 (.resolving none)).InUse 1 := by
    rintro ⟨i, ⟨l, p, lane, there, key⟩ | ⟨t, s, there, key, found, may⟩⟩
    · have listed := List.mem_of_getElem? (Dispatcher.slot_of_lane? lane)
      obtain rfl : l = ⟨0, .running, true, [], false, .idle, false⟩ := by
        simpa [withSubmission, oneRan, calm, fresh] using listed
      cases there
    · have listed := List.mem_of_getElem? there
      obtain rfl | rfl : s = underKey 1 0 (.done ⟨.accepted none, []⟩) ∨
          s = underKey 2 1 (.resolving none) := by
        simpa [withSubmission, oneRan, calm] using listed
      all_goals cases found
  have evicts : (oneRan a₁).EvictsIdleFrom [.submit 2 false, .advance 1, .advance 1] 1 :=
    evictsIdleFrom_append looks (evictsIdleFrom_of_quiet looks rfl)
      (evictsIdleFrom_of_unused unused _)
  have quiet : ((oneRan a₁).lookedUp 2 1 a₂ [.evicted 1 0]).EvictsIdleFrom _ 1 :=
    evictsIdleFrom_of_quiet after (by rw [history]; rfl)
  exact evictsIdleFrom_append one (evictsIdleFrom_of_quiet one rfl)
    (evictsIdleFrom_append two evicts quiet)

/-- Key 1 is evicted while a task of it runs; in the end two of its tasks run at once. -/
theorem busy_key_evicted : ∃ (d : Dispatcher Parcel) (w : World Unit),
    Dispatcher.create (tiny 2 1) 1 = .ok d ∧ (fresh d ⟨0⟩).run crowd = some w ∧
      (∃ before after, w.history = before ++ .evicted 1 0 :: after ∧
        .started ⟨1, 0, 0⟩ (some 0) ∈ before ∧ ⟨1, 0, 0⟩ ∉ finished w.history) ∧
      w.At ⟨1, 0, 0⟩ (.running 0) ∧ w.At ⟨1, 1, 3⟩ (.running 1) := by
  obtain ⟨w, run, history, lanes⟩ := run_crowd
  refine ⟨newborn 2 1, w, rfl, run, ⟨w.history.take 5, w.history.drop 6, ?_, ?_, ?_⟩, ?_, ?_⟩
  · rw [history]
    rfl
  · simp [history]
  · simp [history]
  · exact ⟨_, by rw [Dispatcher.lane?, lanes]; rfl, rfl⟩
  · exact ⟨_, by rw [Dispatcher.lane?, lanes]; rfl, rfl⟩

/--
The order of key 1 breaks in that run, so it was evicted while in use; where the crowd is patient
it is evicted as well, and its tasks run in turn, on two lanes.
-/
theorem evictions_and_order_of_crowd : ∃ (d : Dispatcher Parcel) (w w' : World Unit),
    Dispatcher.create (tiny 2 1) 1 = .ok d ∧ (fresh d ⟨0⟩).run crowd = some w ∧
      marksUnder 1 w.history = [.began ⟨1, 0, 0⟩, .began ⟨1, 1, 3⟩] ∧
      ¬ EvictsIdle d ⟨0⟩ crowd 1 ∧
      (fresh d ⟨0⟩).run patientCrowd = some w' ∧ .evicted 1 0 ∈ w'.history ∧
      EvictsIdle d ⟨0⟩ patientCrowd 1 ∧
      marksUnder 1 w'.history = [.began ⟨1, 0, 0⟩, .ended ⟨1, 0, 0⟩, .began ⟨1, 1, 3⟩] ∧
      marksUnder 1 w'.history <+: inTurn (acceptedUnder 1 w'.history) := by
  obtain ⟨w, run, history, -⟩ := run_crowd
  obtain ⟨w', run', idle', history'⟩ := run_patientCrowd
  have made : Dispatcher.create (tiny 2 1) 1 = .ok (newborn 2 1) := rfl
  have marks : marksUnder 1 w.history = [.began ⟨1, 0, 0⟩, .began ⟨1, 1, 3⟩] := by simp [history]
  have marks' : marksUnder 1 w'.history =
      [.began ⟨1, 0, 0⟩, .ended ⟨1, 0, 0⟩, .began ⟨1, 1, 3⟩] := by simp [history']
  refine ⟨newborn 2 1, w, w', made, run, marks, fun idle => ?_, run', by simp [history'], idle',
    marks', (evictions_and_order made run').2 1 idle'⟩
  have order := (evictions_and_order made run).2 1 idle
  simp [history, inTurn] at order

end World

end OrderedLanes
