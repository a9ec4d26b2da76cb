import OrderedLanes.Proofs.Assignments
import OrderedLanes.Proofs.Starts
import OrderedLanes.Proofs.StopKinds

/-!
Every accepted task is settled once: it is in one place at a time, it is started
at most once and in the order of its lane, and what a forced stop hands back is
sorted by lane and in the order of each lane, apart from everything started.
-/

namespace OrderedLanes

/-- Tasks lane by lane, in ascending order of the lanes. -/
def LaneByLane (ps : List Parcel) : Prop := ps.Pairwise (·.lane ≤ ·.lane)

/-- A stop that has come to a lane has nothing from that lane or a later one. -/
def Stopping.Sorted : Stopping Parcel → Prop
  | .raising _ | .following => True
  | .clearing .forced report => report.pending = []
  | .clearing .graceful report => LaneByLane report.pending
  | .visiting _ i report => LaneByLane report.pending ∧ ∀ p ∈ report.pending, p.lane < i
  | .closing _ i c report =>
    LaneByLane report.pending ∧ (∀ p ∈ report.pending, p.lane < i) ∧ ∀ p ∈ c.gathered, p.lane = i
  | .done report => LaneByLane report.pending

theorem LaneByLane.append {ps qs : List Parcel} {i : LaneIndex} (h : LaneByLane ps)
    (before : ∀ p ∈ ps, p.lane < i) (here : ∀ q ∈ qs, q.lane = i) : LaneByLane (ps ++ qs) := by
  refine List.pairwise_append.2 ⟨h, ?_, ?_⟩
  · refine List.pairwise_of_forall_mem_list fun p hp q hq => ?_
    exact Nat.le_of_eq ((here p hp).trans (here q hq).symm)
  · intro p hp q hq
    rw [here q hq]
    exact Nat.le_of_lt (before p hp)

theorem Stopping.Sorted.look {d : Dispatcher Parcel} {s s' : Stopping Parcel} (h : s.Sorted)
    (looks : World.StopLook d s s') : s'.Sorted := by
  cases looks with
  | visit kind i l report there => exact ⟨h.1, h.2, by simp [Closing.gathered]⟩
  | skip kind i report empty => exact ⟨h.1, fun p hp => Nat.lt_succ_of_lt (h.2 p hp)⟩
  | wrapUp i report last => exact h.1
  | closed kind i part report =>
    obtain ⟨sorted, before, here⟩ := h
    refine ⟨sorted.append before here, ?_⟩
    intro p hp
    rcases List.mem_append.1 hp with old | new
    · exact Nat.lt_succ_of_lt (before p old)
    · exact (here p new).symm ▸ Nat.lt_succ_self i
  | vanished kind i c report empty => exact ⟨h.1, fun p hp => Nat.lt_succ_of_lt (h.2.1 p hp)⟩

theorem Stopping.Sorted.closing {kind : StopKind} {i : LaneIndex} {c : Closing Parcel}
    {report : StopReport Parcel} {l : Lane Parcel} (h : (closing kind i c report).Sorted)
    (here : ∀ p ∈ l.queue, p.lane = i) : (closing kind i (c.step l).1 report).Sorted := by
  refine ⟨h.1, h.2.1, ?_⟩
  rcases c.gathers l with ⟨same, -⟩ | ⟨error, drained, p, -, more, queue⟩
  · rw [same]
    exact h.2.2
  · rw [more]
    intro q hq
    rcases List.mem_append.1 hq with old | new
    · exact h.2.2 q old
    · rw [List.mem_singleton.1 new]
      exact here p (by rw [queue]; simp)

namespace World

variable {V : Type} {d : Dispatcher Parcel} {w w' : World V} {i : LaneIndex}

/-- What every stop has is sorted. -/
def AllSorted (stops : List (Stopping Parcel)) : Prop :=
  ∀ (n : Nat) (s : Stopping Parcel), stops[n]? = some s → s.Sorted

theorem AllSorted.set {stops : List (Stopping Parcel)} {n : Nat} {s' : Stopping Parcel}
    (h : AllSorted stops) (after : s'.Sorted) : AllSorted (stops.set n s') := by
  intro m s found
  rcases getElem?_set_cases found with ⟨-, rfl⟩ | ⟨-, found⟩
  · exact after
  · exact h m s found

theorem Reachable.allSorted (h : Reachable d w) (new : d.Fresh) : AllSorted w.stops := by
  induction h with
  | start => simp [AllSorted, fresh]
  | @step w w' before effect ih =>
    cases effect with
    | beginStop kind =>
      intro n s found
      rcases getElem?_snoc_cases found with ⟨-, rfl⟩ | found
      · trivial
      · exact ih n s found
    | stopLook n s s' there looks => exact ih.set ((ih n s there).look looks)
    | raiseGraceful n there down => exact ih.set ⟨List.Pairwise.nil, by simp [StopReport.empty]⟩
    | raiseForced n there down => exact ih.set trivial
    | follow n there => exact ih.set rfl
    | clear n report there =>
      have none : report.pending = [] := ih n _ there
      refine ih.set ?_
      simp only [Stopping.Sorted, none]
      exact ⟨List.Pairwise.nil, by simp⟩
    | clearLast n report there =>
      have sorted : LaneByLane report.pending := ih n _ there
      exact ih.set sorted
    | endStop n s report there ends =>
      refine ih.set ?_
      have was := ih n s there
      cases ends with
      | stopping up => exact List.Pairwise.nil
      | forcing up => exact List.Pairwise.nil
      | visited i report last => exact was.1
    | shut n kind i c l report there lane unfinished =>
      exact ih.set ((ih n _ there).closing fun p => before.lane_of_waiting new lane)
    | _ => exact ih

/-! ### Counting -/

/-- All starts, by workers and by callers. -/
abbrev starts (history : List (Happening V)) : List Parcel :=
  history.filterMap fun
    | .started p _ => some p
    | _ => none

theorem count_starts (history : List (Happening V)) (x : Parcel) :
    (starts history).count x =
      (startedByWorkers history).count x + (startedByCallers history).count x := by
  induction history with
  | nil => rfl
  | cons h history ih =>
    cases h with
    | started p lane =>
      cases lane <;>
        simp only [starts, startedByWorkers, startedByCallers, List.filterMap_cons,
          List.count_cons] at ih ⊢ <;>
        omega
    | _ => exact ih

theorem count_flatMap_le {α : Type} {f g : α → List Parcel} {x : Parcel}
    (le : ∀ a, (f a).count x ≤ (g a).count x) (l : List α) :
    (l.flatMap f).count x ≤ (l.flatMap g).count x := by
  induction l with
  | nil => exact Nat.le_refl 0
  | cons a l ih =>
    simp only [List.flatMap_cons, List.count_append]
    exact Nat.add_le_add (le a) ih

theorem count_running_le (lanes : List (Option (Lane Parcel))) (x : Parcel) :
    (lanes.flatMap slotRunning).count x ≤ (lanes.flatMap slotTasks).count x := by
  refine count_flatMap_le (fun slot => ?_) lanes
  cases slot with
  | none => exact Nat.le_refl 0
  | some l =>
    obtain ⟨_, _, _, queue, _, worker, _⟩ := l
    cases worker <;> simp [slotRunning, slotTasks, Lane.tasks, Worker.task?, List.count_cons]

theorem count_handedBack_le (w : World V) (x : Parcel) :
    w.handedBack.count x ≤ (w.stops.flatMap Stopping.gathered).count x := by
  refine count_flatMap_le (fun s => ?_) w.stops
  cases s <;> simp [Stopping.report?, Stopping.gathered]

theorem Reachable.accepted_nodup (h : Reachable d w) : (accepted w.history).Nodup :=
  List.Nodup.of_map Parcel.ticket h.tickets_nodup

theorem Reachable.count_holdings_le (h : Reachable d w) (new : d.Fresh) (x : Parcel) :
    w.holdings.count x ≤ 1 := by
  rw [(h.holdings_perm new).count_eq x]
  exact List.nodup_iff_count_le_one.1 h.accepted_nodup x

/-- A task started by a worker has come to no list. -/
theorem Reachable.count_started_le (h : Reachable d w) (new : d.Fresh) (x : Parcel) :
    (startedByWorkers w.history).count x + (w.stops.flatMap Stopping.gathered).count x ≤ 1 := by
  have all := h.count_holdings_le new x
  have kept : StartsKept w x := h.startsKept new x
  have le := count_running_le w.dispatcher.lanes x
  simp only [holdings, List.count_append] at all
  simp only [StartsKept] at kept
  omega

theorem Reachable.starts_nodup (h : Reachable d w) (new : d.Fresh) : (starts w.history).Nodup := by
  refine List.nodup_iff_count_le_one.2 fun x => ?_
  have started := h.count_started_le new x
  have kept : ReturnsKept w x := h.returnsKept x
  have le := count_handedBack_le w x
  rw [count_starts]
  simp only [ReturnsKept] at kept
  omega

/-! ### Places -/

theorem mem_running {p : Parcel} :
    p ∈ w.dispatcher.lanes.flatMap slotRunning ↔ ∃ i, w.At p (.running i) := by
  simp only [List.mem_flatMap, At, Dispatcher.lane?, Option.join_eq_some_iff]
  constructor
  · rintro ⟨slot, there, found⟩
    obtain ⟨i, there⟩ := List.getElem?_of_mem there
    cases slot with
    | none => cases found
    | some l =>
      refine ⟨i, l, there, ?_⟩
      simp only [slotRunning, Option.elim_some] at found
      split at found
      · next q busy =>
        rw [List.mem_singleton.1 found]
        exact busy
      · cases found
  · rintro ⟨i, l, there, busy⟩
    exact ⟨some l, List.mem_of_getElem? there, by simp [slotRunning, busy]⟩

theorem mem_handed {p : Parcel} :
    p ∈ w.stops.flatMap Stopping.gathered ↔ ∃ n, w.At p (.listed n) := by
  simp only [List.mem_flatMap, At]
  constructor
  · rintro ⟨s, there, found⟩
    obtain ⟨n, there⟩ := List.getElem?_of_mem there
    exact ⟨n, s, there, found⟩
  · rintro ⟨n, s, there, found⟩
    exact ⟨s, List.mem_of_getElem? there, found⟩

/-- Every accepted task is in one place, and only accepted tasks are anywhere. -/
theorem Reachable.one_place (h : Reachable d w) (new : d.Fresh) {p : Parcel} :
    p ∈ accepted w.history ↔ ∃! place, w.At p place := by
  have same : (w.whereabouts.map Prod.fst).Perm (accepted w.history) := by
    rw [map_fst_whereabouts]
    exact h.holdings_perm new
  have distinct := same.nodup_iff.2 h.accepted_nodup
  constructor
  · intro listed
    obtain ⟨⟨q, place⟩, there, rfl⟩ := List.mem_map.1 (same.mem_iff.2 listed)
    refine ⟨place, mem_whereabouts.1 there, fun other here => ?_⟩
    have pairs := List.inj_on_of_nodup_map distinct there (mem_whereabouts.2 here) rfl
    exact (congrArg Prod.snd pairs).symm
  · rintro ⟨place, there, -⟩
    exact same.mem_iff.1 (List.mem_map.2 ⟨_, mem_whereabouts.2 there, rfl⟩)

/-- A task on a lane was accepted there. -/
theorem Reachable.home (h : Reachable d w) (new : d.Fresh) {p : Parcel}
    (here : w.At p (.queued i) ∨ w.At p (.held i) ∨ w.At p (.running i)) :
    .accepted p i ∈ w.history := by
  rw [← mem_acceptedOn]
  rcases here with ⟨l, lane, waiting⟩ | ⟨l, lane, holding⟩ | ⟨l, lane, busy⟩
  · exact (h.inOrder new lane).waiting.subset waiting
  · exact (h.inOrder new lane).drawn p ((h.inOrder new lane).held p holding)
  · exact (h.inOrder new lane).drawn p ((h.inOrder new lane).busy p busy)

/-- The tasks that a worker started have ended or are running. -/
theorem Reachable.mem_started (h : Reachable d w) (new : d.Fresh) {p : Parcel} :
    p ∈ startedByWorkers w.history ↔ w.At p .finished ∨ ∃ i, w.At p (.running i) := by
  have kept : StartsKept w p := h.startsKept new p
  rw [← mem_running, At, ← List.count_pos_iff, ← List.count_pos_iff, ← List.count_pos_iff]
  simp only [StartsKept] at kept
  omega

theorem filterMap_inTurn (ps : List Parcel) :
    ((inTurn ps).filterMap fun
      | .began p => some p
      | .ended _ => none) = ps := by
  induction ps with
  | nil => rfl
  | cons p ps ih => simpa using ih

theorem filterMap_marksOn (history : List (Happening V)) (i : LaneIndex) :
    ((marksOn history i).filterMap fun
      | .began p => some p
      | .ended _ => none) = startedOn history i := by
  rw [List.filterMap_filterMap]
  congr 1
  funext h
  cases h with
  | started p lane =>
    cases lane with
    | none => rfl
    | some j => by_cases here : j = i <;> simp [here]
  | ended p lane ending =>
    cases lane with
    | none => rfl
    | some j => by_cases here : j = i <;> simp [here]
  | _ => rfl

/-- A lane starts its tasks in the order of their acceptance. -/
theorem Reachable.startedOn_in_order (h : Reachable d w) (new : d.Fresh) (i : LaneIndex) :
    startedOn w.history i <+: acceptedOn w.history i := by
  rw [← filterMap_marksOn, ← filterMap_inTurn (acceptedOn w.history i)]
  exact (h.marksOn_in_turn new i).filterMap _

/-! ### Settling -/

/-- A list that a stop may hand back. -/
structure Listing (w : World V) (ps : List Parcel) : Prop where
  sorted : LaneByLane ps
  inOrder : ∀ i, (ofLane i ps).Sublist (acceptedOn w.history i)
  apart : ∀ p ∈ ps, p ∉ startedByWorkers w.history

/-- Every accepted task is settled once. -/
structure SettledOnce (w : World V) : Prop where
  distinct : (accepted w.history).Nodup
  counted : (w.whereabouts.map Prod.fst).Perm (accepted w.history)
  place : ∀ p, p ∈ accepted w.history ↔ ∃! place, w.At p place
  home : ∀ p i, w.At p (.queued i) ∨ w.At p (.held i) ∨ w.At p (.running i) →
    .accepted p i ∈ w.history
  forced : ∀ p n, w.At p (.listed n) → .raised n .forced ∈ w.history
  startedOnce : (starts w.history).Nodup
  started : ∀ p, p ∈ startedByWorkers w.history ↔ w.At p .finished ∨ ∃ i, w.At p (.running i)
  apart : ∀ p ∈ startedByWorkers w.history, ∀ n, ¬ w.At p (.listed n)
  inOrder : ∀ i, startedOn w.history i <+: acceptedOn w.history i
  reports : ∀ (n : Nat) (report : StopReport Parcel),
    w.stops[n]? = some (.done report) → Listing w report.pending

theorem Reachable.apart (h : Reachable d w) (new : d.Fresh) {p : Parcel}
    (started : p ∈ startedByWorkers w.history) : p ∉ w.stops.flatMap Stopping.gathered := by
  intro handed
  have le := h.count_started_le new p
  have one := List.count_pos_iff.2 started
  have other := List.count_pos_iff.2 handed
  omega

theorem Reachable.listing (h : Reachable d w) (new : d.Fresh) {n : Nat}
    {report : StopReport Parcel} (done : w.stops[n]? = some (.done report)) :
    Listing w report.pending := by
  have has : w.gathered (.stop n) = report.pending := by simp [gathered, done, Stopping.gathered]
  refine ⟨h.allSorted new n _ done, fun i => ?_, fun p listed started => ?_⟩
  · rw [← has]
    exact (List.sublist_append_left _ _).trans (h.gathered_sublist new (.stop n) i)
  · exact h.apart new started (mem_handed.2 ⟨n, _, done, listed⟩)

theorem Reachable.settledOnce (h : Reachable d w) (new : d.Fresh) : SettledOnce w where
  distinct := h.accepted_nodup
  counted := map_fst_whereabouts w ▸ h.holdings_perm new
  place _ := h.one_place new
  home _ _ := h.home new
  forced _ _ := by
    rintro ⟨s, there, listed⟩
    exact h.raised_of_gathered (by simpa [gathered, there] using listed)
  startedOnce := h.starts_nodup new
  started _ := h.mem_started new
  apart _ started _ listed := h.apart new started (mem_handed.2 ⟨_, listed⟩)
  inOrder := h.startedOn_in_order new
  reports _ _ := h.listing new

/-- The handles make no difference. -/
theorem SettledOnce.of_core (h : SettledOnce w.core) : SettledOnce w :=
  ⟨h.distinct, h.counted, h.place, h.home, h.forced, h.startedOnce, h.started, h.apart, h.inOrder,
    fun n report done => ⟨(h.reports n report done).sorted, (h.reports n report done).inOrder,
      (h.reports n report done).apart⟩⟩

/--
Of a lane that a stop began to drain in `v`, it hands back what waited there, unless the lane's
worker took a task meanwhile.
-/
def DrainedWhole (v w : World V) : Prop :=
  ∀ (n : Nat) (i : LaneIndex) (error : Option LaneError) (before report : StopReport Parcel)
    (l : Lane Parcel),
    v.stops[n]? = some (.closing .forced i (.draining error []) before) →
    v.dispatcher.lane? i = some l → w.stops[n]? = some (.done report) →
    takenOn w.history i = takenOn v.history i → ofLane i report.pending = l.queue

theorem Later.drainedWhole {v : World V} (later : Later v w) (h : Reachable d v) (new : d.Fresh) :
    DrainedWhole v w := by
  intro n i error before report l there lane done still
  have closing : v.closing? (.stop n) = some (i, .draining error []) :=
    closing?_stop.2 ⟨_, _, there⟩
  have owner := (h.oneHalter new).owner _ _ _ closing (.inl trivial)
  have halted : .halted i (.stop n) ∈ v.history := mem_haltsOn.1 (by simp [owner])
  obtain ⟨kind, marking⟩ | ⟨l', lane', fits⟩ := h.fits closing
  · cases marking
  obtain rfl := Option.some.inj (lane'.symm.trans lane)
  have whole := later.drain_whole h new lane fits.2.2 halted still
  have first : ofLane i (v.gathered (.stop n)) = [] := by
    simp only [gathered, there, Option.elim_some, Stopping.gathered, Closing.gathered]
    rw [List.append_nil, ofLane, List.filter_eq_nil_iff]
    intro p old
    have earlier := (h.allSorted new n _ there).2.1 p old
    simpa using Nat.ne_of_lt earlier
  -- In the end nothing waits on the lane, as only this stop could be draining it.
  have last : w.dispatcher.waitingOn i = [] := by
    obtain ⟨l₁, lane₁, grows⟩ := later.grows h lane
    rw [Dispatcher.waitingOn_lane lane₁]
    have after := (later.reachable h).oneHalter new
    rcases after.drained i l₁ lane₁ (grows.halted fits.1) with
      ⟨who, c, closing', on⟩ | ⟨-, -, empty⟩
    · have only := after.halts_eq (mem_haltsOn.2 (later.history.subset halted))
      rw [after.owner who i c closing' (.inl on)] at only
      obtain rfl : who = .stop n := by simpa using only
      obtain ⟨_, _, under⟩ := closing?_stop.1 closing'
      rw [done] at under
      cases under
    · exact empty
  rw [first, last, Dispatcher.waitingOn_lane lane, List.append_nil, List.nil_append] at whole
  simpa [gathered, done, Stopping.gathered] using whole

/--
In every state of every run each accepted task is settled once, and between any two of its states
lanes are drained whole.
-/
theorem settled_once {config : Config} {parallelism : Nat} {d : Dispatcher Parcel}
    {counter : KeyCounter} {acts more : List (Act V)} {v w : World V}
    (made : Dispatcher.create config parallelism = .ok d)
    (run : (fresh d counter).run acts = some v) (rest : v.run more = some w) :
    SettledOnce w ∧ DrainedWhole v w := by
  have new := (Dispatcher.fresh_of_create made).1
  have reached : Reachable d v.core := reachable_of_run run
  have later : Later v.core w.core := later_of_run rest
  exact ⟨((later.reachable reached).settledOnce new).of_core, later.drainedWhole reached new⟩

/-- A worker runs one of two tasks, and a forced stop takes the other one back. -/
theorem settled_once_of_two : ∃ (d : Dispatcher Parcel) (acts more : List (Act Unit))
    (v w : World Unit), Dispatcher.create (tiny 1 1) 1 = .ok d ∧
      (fresh d ⟨0⟩).run acts = some v ∧ v.run more = some w ∧
      startedByWorkers w.history = [⟨1, 0, 0⟩] ∧ w.stops = [.done ⟨[⟨1, 0, 1⟩], []⟩] ∧
      SettledOnce w ∧ DrainedWhole v w := by
  obtain ⟨a₁, a₂, one, two⟩ := run_tiny
  have made : Dispatcher.create (tiny 1 1) 1 = .ok (newborn 1 1) := rfl
  -- After seven accesses the stop is about to drain the lane.
  have whole : (((oneWaits a₁).lookedUp 1 0 a₂ []).run (List.replicate 3 (Act.advance 1) ++
      [Act.receive 0, Act.inspect 0, Act.stop .forced] ++ List.replicate 7 (Act.advanceStop 0) ++
        List.replicate 5 (Act.advanceStop 0))).map
        (fun w : World Unit => (startedByWorkers w.history, w.stops)) =
      some ([⟨1, 0, 0⟩], [.done ⟨[⟨1, 0, 1⟩], []⟩]) := by cbv
  obtain ⟨w, run, seen⟩ := Option.map_eq_some_iff.1 whole
  obtain ⟨started, stops⟩ := Prod.mk.inj seen
  rw [run_append] at run
  obtain ⟨v, middle, rest⟩ := Option.bind_eq_some_iff.1 run
  have reach := run_of_parts one (run_of_parts two middle)
  exact ⟨_, _, _, v, w, made, reach, rest, started, stops, settled_once made reach rest⟩

end World

end OrderedLanes
