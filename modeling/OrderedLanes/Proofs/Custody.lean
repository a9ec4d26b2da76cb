import Mathlib.Data.List.Count
import OrderedLanes.Proofs.LaneOrder

/-!
Where the accepted tasks are. A lane, its worker, whoever takes its queue back,
and the history of what was run or thrown away hold each accepted task once, and
nothing else: every act hands tasks from one place to another.
-/

namespace OrderedLanes

/-- Where an accepted task may be. -/
inductive Place where
  | queued (lane : LaneIndex)
  /-- Taken by a lane's worker and not started. -/
  | held (lane : LaneIndex)
  | running (lane : LaneIndex)
  | finished
  /-- In the list that the `n`-th stop hands back. -/
  | listed (n : Nat)
  /-- Taken back by a submission, which will throw it away. -/
  | withdrawn (t : Ticket)
  | discarded
  deriving DecidableEq, Repr

namespace Closing

variable {α : Type}

/-- The tasks taken back so far. -/
def gathered : Closing α → List α
  | .draining _ drained => drained
  | .done report => report.pending
  | _ => []

end Closing

/-- The tasks that a stop has taken back so far. -/
def Stopping.gathered {α : Type} : Stopping α → List α
  | .clearing _ report | .visiting _ _ report | .done report => report.pending
  | .closing _ _ c report => report.pending ++ c.gathered
  | _ => []

/-- The tasks that a submission has taken back so far. -/
def Submission.gathered {α : Type} (s : Submission α) : List α :=
  match s.phase with
  | .retiring _ c => c.gathered
  | _ => []

/-- The task that a worker has. -/
def Worker.task? {α : Type} : Worker α → Option α
  | .holding p | .busy p => some p
  | _ => none

/-- The tasks on a lane, in the order in which it comes to them. -/
def Lane.tasks {α : Type} (l : Lane α) : List α := l.worker.task?.toList ++ l.queue

/-- The tasks in a slot, which is perhaps not filled yet. -/
def slotTasks {α : Type} (slot : Option (Lane α)) : List α := slot.elim [] Lane.tasks

/-- Where the task is that a worker has. -/
def Worker.places (i : LaneIndex) : Worker Parcel → List (Parcel × Place)
  | .holding p => [(p, .held i)]
  | .busy p => [(p, .running i)]
  | _ => []

namespace World

variable {V : Type} {d : Dispatcher Parcel} {w w' : World V}

/-- All tasks that are somewhere, each with its place. -/
def whereabouts (w : World V) : List (Parcel × Place) :=
  (w.dispatcher.lanes.zipIdx.flatMap fun (slot, i) =>
    slot.elim [] fun l => l.worker.places i ++ l.queue.map (·, .queued i)) ++
  (w.stops.zipIdx.flatMap fun (s, n) => s.gathered.map (·, .listed n)) ++
  (w.submissions.zipIdx.flatMap fun (s, t) => s.gathered.map (·, .withdrawn t)) ++
  (finished w.history).map (·, .finished) ++ (discarded w.history).map (·, .discarded)

/-- All tasks that are somewhere. -/
def holdings (w : World V) : List Parcel :=
  w.dispatcher.lanes.flatMap slotTasks ++ w.stops.flatMap Stopping.gathered ++
    w.submissions.flatMap Submission.gathered ++ finished w.history ++ discarded w.history

theorem finished_append (history news : List (Happening V)) :
    finished (history ++ news) = finished history ++ finished news :=
  List.filterMap_append

theorem mem_discarded {history : List (Happening V)} {p : Parcel} :
    p ∈ discarded history ↔ .discarded p ∈ history := by
  simp only [List.mem_filterMap]
  constructor
  · rintro ⟨h, found, same⟩
    cases h <;> cases same
    exact found
  · exact fun found => ⟨_, found, rfl⟩

theorem discarded_append (history news : List (Happening V)) :
    discarded (history ++ news) = discarded history ++ discarded news :=
  List.filterMap_append

theorem map_fst_flatMap_zipIdx {α β γ : Type} (f : α × Nat → List (β × γ)) (g : α → List β)
    (same : ∀ a i, (f (a, i)).map Prod.fst = g a) (l : List α) (k : Nat) :
    ((l.zipIdx k).flatMap f).map Prod.fst = l.flatMap g := by
  induction l generalizing k with
  | nil => rfl
  | cons a l ih => simp only [List.zipIdx_cons, List.flatMap_cons, List.map_append, same, ih]

theorem map_fst_whereabouts (w : World V) : w.whereabouts.map Prod.fst = w.holdings := by
  have lanes := map_fst_flatMap_zipIdx
    (fun x : Option (Lane Parcel) × Nat => x.1.elim [] fun l =>
      l.worker.places x.2 ++ l.queue.map (·, Place.queued x.2)) slotTasks
    (by
      intro slot i
      cases slot with
      | none => rfl
      | some l =>
        obtain ⟨_, _, _, queue, _, worker, _⟩ := l
        cases worker <;>
          simp [slotTasks, Lane.tasks, Worker.task?, Worker.places, Function.comp_def])
    w.dispatcher.lanes 0
  have stops := map_fst_flatMap_zipIdx
    (fun x : Stopping Parcel × Nat => x.1.gathered.map (·, Place.listed x.2)) Stopping.gathered
    (by simp [Function.comp_def]) w.stops 0
  have submissions := map_fst_flatMap_zipIdx
    (fun x : Submission Parcel × Nat => x.1.gathered.map (·, Place.withdrawn x.2))
    Submission.gathered (by simp [Function.comp_def]) w.submissions 0
  simp only [whereabouts, holdings, List.map_append, lanes, stops, submissions]
  simp [Function.comp_def]

/-- What an item of a list stands for is one part of the whole. -/
theorem flatMap_set {α β : Type} {l : List α} {n : Nat} {a b : α} (g : α → List β)
    (there : l[n]? = some a) : ∃ before after, l.flatMap g = before ++ g a ++ after ∧
      (l.set n b).flatMap g = before ++ g b ++ after := by
  induction l generalizing n with
  | nil => simp at there
  | cons c l ih =>
    cases n with
    | zero =>
      obtain rfl : c = a := by simpa using there
      exact ⟨[], l.flatMap g, by simp, by simp⟩
    | succ n =>
      obtain ⟨before, after, first, second⟩ := ih (by simpa using there)
      exact ⟨g c ++ before, after, by simp [first], by simp [second]⟩

/-- Changing one item of a list changes a count by what that item counts. -/
theorem count_flatMap_set {α : Type} {l : List α} {n : Nat} {a : α} (g : α → List Parcel)
    (there : l[n]? = some a) (b : α) (x : Parcel) :
    ((l.set n b).flatMap g).count x + (g a).count x =
      (l.flatMap g).count x + (g b).count x := by
  obtain ⟨before, after, first, second⟩ := flatMap_set (b := b) g there
  simp only [first, second, List.count_append]
  omega

theorem count_flatMap_set_same {α : Type} {l : List α} {n : Nat} {a b : α} (g : α → List Parcel)
    (there : l[n]? = some a) (same : g b = g a) (x : Parcel) :
    ((l.set n b).flatMap g).count x = (l.flatMap g).count x := by
  have change := count_flatMap_set g there b x
  rw [same] at change
  omega

theorem count_setLane {d : Dispatcher Parcel} {i : LaneIndex} {l : Lane Parcel}
    (lane : d.lane? i = some l) (l' : Lane Parcel) (x : Parcel) :
    ((d.setLane i l').lanes.flatMap slotTasks).count x + l.tasks.count x =
      (d.lanes.flatMap slotTasks).count x + l'.tasks.count x :=
  count_flatMap_set slotTasks (Dispatcher.slot_of_lane? lane) (some l') x

end World

/-- What leaves the queue of a lane that is being stopped is gathered. -/
theorem Closing.conserves (c : Closing Parcel) (l : Lane Parcel) (x : Parcel) :
    (c.step l).1.gathered.count x + (c.step l).2.tasks.count x =
      c.gathered.count x + l.tasks.count x := by
  cases c with
  | marking kind =>
    cases kind <;> simp only [step] <;> split <;>
      simp [gathered, StopReport.empty, Lane.tasks, Lane.mark]
  | looking kind => cases kind <;> rfl
  | interrupting error => rfl
  | sealing kind error => cases kind <;> rfl
  | draining error drained =>
    cases next : l.queue with
    | nil => simp [step, next, gathered]
    | cons p queue =>
      simp only [step, next, gathered, Lane.tasks, List.count_append, List.count_cons,
        List.count_nil]
      omega
  | done report => rfl

namespace World

variable {V : Type} {d : Dispatcher Parcel} {w w' : World V}

theorem gathered_of_look {d : Dispatcher Parcel} {s : Submission Parcel}
    {phase : SubmissionPhase Parcel} (looks : Look d s.phase phase) :
    (s.on phase).gathered = s.gathered := by
  obtain ⟨key, task, now⟩ := s
  cases looks <;> rfl

/-- Nobody who stops a lane has taken tasks from a lane that is not there. -/
def NothingLost (w : World V) : Prop :=
  ∀ who i c, w.closing? who = some (i, c) → w.dispatcher.lane? i = none → c.gathered = []

theorem Reachable.nothingLost (h : Reachable d w) : NothingLost w := by
  intro who i c closing empty
  rcases h.fits closing with ⟨kind, rfl⟩ | ⟨l, lane, -⟩
  · rfl
  · simp [empty] at lane

theorem gathered_of_refusal {t : Ticket} {s : Submission Parcel} (kept : NothingLost w)
    (there : w.submissions[t]? = some s) (refused : Refusal w.dispatcher s.phase) :
    s.gathered = [] := by
  obtain ⟨key, task, phase⟩ := s
  cases refused with
  | retiring i c empty =>
    exact kept (.submission t) i c (by simp [closing?, there, Submission.closing?]) empty
  | _ => rfl

theorem gathered_of_stopLook {n : Nat} {s s' : Stopping Parcel} (kept : NothingLost w)
    (there : w.stops[n]? = some s) (looks : StopLook w.dispatcher s s') :
    s'.gathered = s.gathered := by
  cases looks with
  | visit kind i l report lane => simp [Stopping.gathered, Closing.gathered]
  | vanished kind i c report empty =>
    have none := kept (.stop n) i c (by simp [closing?, there, Stopping.closing?]) empty
    simp [Stopping.gathered, none]
  | _ => rfl

theorem gathered_of_stopEnd {d : Dispatcher Parcel} {s : Stopping Parcel}
    {report : StopReport Parcel} (ends : StopEnd d s report) :
    (Stopping.done report).gathered = s.gathered := by
  cases ends <;> rfl

@[simp] theorem lanes_nextStamp (d : Dispatcher Parcel) (key : Key) :
    (d.nextStamp key).2.lanes = d.lanes := rfl

/-- A lane that was just installed counts like the empty slot before it. -/
theorem count_install {d : Dispatcher Parcel} {i : LaneIndex} (empty : d.lane? i = none)
    (g : Option (Lane Parcel) → List Parcel) (blank : g (some (Lane.start i)) = g none)
    (x : Parcel) : ((d.setLane i (Lane.start i)).lanes.flatMap g).count x =
      (d.lanes.flatMap g).count x := by
  cases slot : d.lanes[i]? with
  | none => rw [Dispatcher.setLane, List.set_eq_of_length_le (List.getElem?_eq_none_iff.1 slot)]
  | some slot' =>
    obtain rfl : slot' = none := by simpa [Dispatcher.lane?, slot] using empty
    exact count_flatMap_set_same g slot blank x

/-- Tasks are conserved if what the history adds makes up for what the parties give or get. -/
theorem conserved_of_balance {news : List (Happening V)} {x : Parcel}
    (history : w'.history = w.history ++ news)
    (balance :
      (w'.dispatcher.lanes.flatMap slotTasks).count x +
        (w'.stops.flatMap Stopping.gathered).count x +
        (w'.submissions.flatMap Submission.gathered).count x +
        (finished news).count x + (discarded news).count x =
      (w.dispatcher.lanes.flatMap slotTasks).count x +
        (w.stops.flatMap Stopping.gathered).count x +
        (w.submissions.flatMap Submission.gathered).count x + (accepted news).count x) :
    w'.holdings.count x + (accepted w.history).count x =
      w.holdings.count x + (accepted w'.history).count x := by
  simp only [holdings, history, accepted_append, finished_append, discarded_append,
    List.count_append]
  omega

/-- Every act hands tasks on; only acceptance adds one. -/
theorem Effect.conserves (e : Effect w w') (sound : AllSound w.submissions)
    (kept : NothingLost w) (x : Parcel) :
    w'.holdings.count x + (accepted w.history).count x =
      w.holdings.count x + (accepted w'.history).count x := by
  cases e with
  | begin key stamped =>
    have new : (Submission.start key stamped fun lane _ =>
        (⟨key, lane, w.submissions.length⟩ : Parcel)).gathered = [] := by
      cases stamped <;> rfl
    simp [holdings, new]
  | beginStop kind => simp [holdings, Stopping.gathered]
  | look t s phase there looks =>
    have sub := count_flatMap_set_same Submission.gathered there (gathered_of_look looks) x
    simp [holdings, sub]
  | stamp t s drawn there phase =>
    have sub := count_flatMap_set_same (b := s.on (.admitting drawn)) Submission.gathered there
      (by simp [Submission.gathered, phase, Submission.on]) x
    simp [holdings, sub]
  | lookUp t s stamp there phase =>
    have sub := count_flatMap_set_same
      (b := s.on (.seeking stamp (w.dispatcher.resolve s.key).value.1)) Submission.gathered there
      (by simp [Submission.gathered, phase, Submission.on]) x
    simp [holdings, sub]
  | refuse t s submitted there refused =>
    have sub := count_flatMap_set_same (b := s.on (.done submitted)) Submission.gathered there
      (gathered_of_refusal kept there refused).symm x
    simp [holdings, sub]
  | install t s stamp i own there phase empty =>
    obtain rfl : own = Lane.start i := (sound t s there).own stamp i own phase
    have sub := count_flatMap_set_same (b := s.on (.rechecking stamp i)) Submission.gathered there
      (by simp [Submission.gathered, phase, Submission.on]) x
    have new := count_install empty slotTasks rfl x
    simp only [Lane.index_start] at new
    simp [holdings, sub, new]
  | accept t s stamp i l there phase lane accepting =>
    have sub := count_flatMap_set_same (b := s.on (.done ⟨.accepted stamp, []⟩))
      Submission.gathered there (by simp [Submission.gathered, phase, Submission.on]) x
    have moved := count_setLane lane { l with queue := l.queue ++ [s.task i stamp] } x
    simp only [Lane.tasks, List.count_append] at moved
    refine conserved_of_balance rfl ?_
    simp
    omega
  | retire t s i c l there phase lane unfinished =>
    have sub := count_flatMap_set Submission.gathered there (s.on (.retiring i (c.step l).1)) x
    have moved := count_setLane lane (c.step l).2 x
    have handed := c.conserves l x
    have before : s.gathered = c.gathered := by simp [Submission.gathered, phase]
    have after : (s.on (.retiring i (c.step l).1)).gathered = (c.step l).1.gathered := rfl
    rw [before, after] at sub
    refine conserved_of_balance rfl ?_
    simp
    omega
  | forfeit t s i report there phase =>
    have sub := count_flatMap_set Submission.gathered there (s.reject report.pending) x
    have before : s.gathered = report.pending := by
      simp [Submission.gathered, phase, Closing.gathered]
    have after : (s.reject report.pending).gathered = [] := rfl
    rw [before, after, List.count_nil] at sub
    refine conserved_of_balance rfl ?_
    simp
    omega
  | stopLook n s s' there looks =>
    have stop := count_flatMap_set_same Stopping.gathered there
      (gathered_of_stopLook kept there looks) x
    simp [holdings, stop]
  | raiseGraceful n there down =>
    have stop := count_flatMap_set_same (b := .visiting .graceful 0 .empty) Stopping.gathered
      there rfl x
    simp [holdings, stop]
  | raiseForced n there down =>
    have stop := count_flatMap_set_same (b := .following) Stopping.gathered there rfl x
    simp [holdings, stop]
  | follow n there =>
    have stop := count_flatMap_set_same (b := .clearing .forced .empty) Stopping.gathered
      there rfl x
    simp [holdings, stop]
  | clear n report there =>
    have stop := count_flatMap_set_same (b := .visiting .forced 0 report) Stopping.gathered
      there rfl x
    simp [holdings, stop]
  | clearLast n report there =>
    have stop := count_flatMap_set_same (b := .done report) Stopping.gathered there rfl x
    simp [holdings, stop]
  | endStop n s report there ends =>
    have stop := count_flatMap_set_same Stopping.gathered there (gathered_of_stopEnd ends) x
    simp [holdings, stop]
  | shut n kind i c l report there lane unfinished =>
    have stop := count_flatMap_set Stopping.gathered there
      (.closing kind i (c.step l).1 report) x
    have moved := count_setLane lane (c.step l).2 x
    have handed := c.conserves l x
    simp only [Stopping.gathered, List.count_append] at stop
    refine conserved_of_balance rfl ?_
    simp
    omega
  | take i l p queue lane idle next =>
    have moved := count_setLane lane { l with queue, worker := .holding p } x
    have before : l.tasks = p :: queue := by simp [Lane.tasks, idle, next, Worker.task?]
    have after : Lane.tasks { l with queue, worker := .holding p } = p :: queue := rfl
    rw [before, after] at moved
    refine conserved_of_balance rfl ?_
    simp
    omega
  | leave i l lane idle empty closed =>
    have moved := count_setLane lane (l.leave none) x
    have same : (l.leave none).tasks = l.tasks := by
      simp [Lane.tasks, Lane.leave, idle, Worker.task?]
    rw [same] at moved
    simp only [holdings, List.count_append]
    omega
  | start i l p lane holding free =>
    have moved := count_setLane lane { l with worker := .busy p } x
    have same : Lane.tasks { l with worker := .busy p } = l.tasks := by
      simp [Lane.tasks, holding, Worker.task?]
    rw [same] at moved
    refine conserved_of_balance rfl ?_
    simp
    omega
  | abandon i l p panic lane holding interrupted =>
    have moved := count_setLane lane (l.leave panic) x
    have before : l.tasks = [p] ++ l.queue := by simp [Lane.tasks, holding, Worker.task?]
    have after : (l.leave panic).tasks = l.queue := rfl
    rw [before, after, List.count_append] at moved
    refine conserved_of_balance rfl ?_
    simp
    omega
  | conclude i l p ending escape lane busy =>
    have moved := count_setLane lane (l.conclude escape) x
    have before : l.tasks = [p] ++ l.queue := by simp [Lane.tasks, busy, Worker.task?]
    have after : (l.conclude escape).tasks = l.queue := by
      unfold Lane.conclude
      split <;> rfl
    rw [before, after, List.count_append] at moved
    refine conserved_of_balance rfl ?_
    simp
    omega
  | runReturned p ending there => simp [holdings]
  | dropReturned p there => simp [holdings]
  | drawStamp key => simp [holdings]
  | rest => rfl

/-- What is somewhere is what was accepted. -/
theorem Reachable.holdings_perm (h : Reachable d w) (new : d.Fresh) :
    w.holdings.Perm (accepted w.history) := by
  rw [List.perm_iff_count]
  intro x
  induction h with
  | start =>
    have none : d.lanes.flatMap slotTasks = [] := new.flatMap_lanes rfl
    simp [holdings, fresh, none]
  | step before effect ih =>
    have moved := effect.conserves before.allSound before.nothingLost x
    omega

/-- A task is in a place. -/
def At (w : World V) (p : Parcel) : Place → Prop
  | .queued i => ∃ l, w.dispatcher.lane? i = some l ∧ p ∈ l.queue
  | .held i => ∃ l, w.dispatcher.lane? i = some l ∧ l.worker = .holding p
  | .running i => ∃ l, w.dispatcher.lane? i = some l ∧ l.worker = .busy p
  | .finished => p ∈ finished w.history
  | .listed n => ∃ s, w.stops[n]? = some s ∧ p ∈ s.gathered
  | .withdrawn t => ∃ s, w.submissions[t]? = some s ∧ p ∈ s.gathered
  | .discarded => p ∈ discarded w.history

theorem mem_slots {d : Dispatcher Parcel} {x : Parcel × Place} :
    (x ∈ d.lanes.zipIdx.flatMap fun (slot, i) =>
      slot.elim [] fun l => l.worker.places i ++ l.queue.map (·, .queued i)) ↔
    ∃ i l, d.lane? i = some l ∧ x ∈ l.worker.places i ++ l.queue.map (·, .queued i) := by
  simp only [List.mem_flatMap, Prod.exists, List.mem_zipIdx_iff_getElem?, Dispatcher.lane?,
    Option.join_eq_some_iff]
  constructor
  · rintro ⟨slot, i, there, found⟩
    cases slot with
    | none => cases found
    | some l => exact ⟨i, l, there, found⟩
  · rintro ⟨i, l, there, found⟩
    exact ⟨some l, i, there, found⟩

theorem mem_places {i : LaneIndex} {worker : Worker Parcel} {p : Parcel} {place : Place} :
    (p, place) ∈ worker.places i ↔
      worker = .holding p ∧ place = .held i ∨ worker = .busy p ∧ place = .running i := by
  cases worker <;> simp [Worker.places, eq_comm]

theorem mem_whereabouts {p : Parcel} {place : Place} :
    (p, place) ∈ w.whereabouts ↔ w.At p place := by
  simp only [whereabouts, List.mem_append, mem_slots, mem_places]
  cases place <;>
    simp [At, List.mem_zipIdx_iff_getElem?]

end World

end OrderedLanes
