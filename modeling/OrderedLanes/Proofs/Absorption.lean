import OrderedLanes.Proofs.Assignments
import OrderedLanes.Proofs.LaneOrder
import OrderedLanes.Proofs.Moves
import OrderedLanes.Proofs.Tending
import OrderedLanes.Proofs.Verdicts
import OrderedLanes.Proofs.WakerPanics

/-!
A stop is final. Once its flag is up every submission that has not looked a second
time is turned away: one that begins afterwards at its first look, without a trace,
and one that the stop fell into when it looks again, unless no lane could be started
for it. The stop makes the allocator forget everything, and no submission makes it
remember anything. The life of the dispatcher only goes on.
-/

namespace OrderedLanes

/-- How far the life of a dispatcher has come. -/
def Lifecycle.rank : Lifecycle → Nat
  | .running => 0
  | .shuttingDown => 1
  | .stopped => 2

/-- The submission has found the flag down twice, or has ended. -/
def SubmissionPhase.Through {α : Type} : SubmissionPhase α → Prop
  | .queueing _ _ | .done _ => True
  | _ => False

/-- The next access of the submission is to the allocator. -/
def SubmissionPhase.Allocating {α : Type} : SubmissionPhase α → Prop
  | .stamping | .resolving _ => True
  | _ => False

/-- The stop has raised its flag and is still to clear the allocator. -/
def Stopping.Clears {α : Type} : Stopping α → Prop
  | .following | .clearing _ _ | .visiting .graceful _ _ | .closing .graceful _ _ _ => True
  | _ => False

/-- What a submission may answer that is not to be accepted. -/
inductive TurnedAway {V : Type} (config : Config) (acts : List (Act V)) (t : Ticket) (key : Key) :
    Admission → Prop
  | rejected : TurnedAway config acts t key (.refused (.rejected key))
  /-- The machine had no thread for its lane. -/
  | threadless (i : LaneIndex) (source : String) (refused : .refuseThread t source ∈ acts) :
      TurnedAway config acts t key (.refused (.laneSpawn i source))
  | unnameable (nul : Config.nameable config.threadName = false) :
      TurnedAway config acts t key .unnameable

namespace Submission

variable {α V : Type} {d : Dispatcher α} {s : Submission α} {key : Key} {stamped : Bool}
  {task : LaneIndex → Option Stamp → α}

/-- How an access leaves a submission once the flag is up. -/
inductive LateMove (d : Dispatcher α) (s : Submission α) : Submission α → Prop
  | goes (phase : SubmissionPhase α) (under : ¬ phase.Through) (idle : ¬ phase.Allocating) :
      LateMove d s (s.on phase)
  | rejected (discarded : List α) : LateMove d s (s.reject discarded)
  | unnameable (nul : Config.nameable d.config.threadName = false) :
      LateMove d s (s.on (.done ⟨.unnameable, []⟩))
  | accepted (stamp : Option Stamp) (i : LaneIndex) (through : s.phase = .queueing stamp i) :
      LateMove d s (s.on (.done ⟨.accepted stamp, []⟩))

theorem lateMove_step (up : d.shutdown = true) (going : s.answer? = none) :
    LateMove d s (s.step d).value.1 := by
  obtain ⟨key, task, phase⟩ := s
  cases phase with
  | entering =>
    simp only [step, up, if_true]
    exact .rejected []
  | stamping => exact .goes (.admitting _) id id
  | admitting stamp =>
    simp only [step, up, if_true]
    exact .rejected []
  | resolving stamp => exact .goes (.seeking stamp _) id id
  | seeking stamp i =>
    cases there : d.lane? i with
    | some l =>
      simp only [step, there]
      exact .goes (.rechecking stamp i) id id
    | none =>
      simp only [step, there]
      exact .goes (.starting stamp i) id id
  | starting stamp i =>
    cases name : Config.nameable d.config.threadName with
    | true =>
      simp only [step, name, if_true]
      exact .goes (.installing stamp i _) id id
    | false =>
      simp only [step, name, Bool.false_eq_true, if_false]
      exact .unnameable name
  | installing stamp i own =>
    cases installed : d.install own with
    | some d' =>
      simp only [step, installed]
      exact .goes (.rechecking stamp i) id id
    | none =>
      simp only [step, installed]
      exact .goes (.yielding stamp i own _) id id
  | yielding stamp i own c =>
    cases c with
    | done report => exact .goes (.rechecking stamp i) id id
    | _ => exact .goes (.yielding stamp i _ _) id id
  | rechecking stamp i =>
    simp only [step, up, if_true]
    exact .goes (.choosing i) id id
  | choosing i => exact .goes (.retiring i _) id id
  | retiring i c =>
    by_cases ended : ∃ report, c = .done report
    · obtain ⟨report, rfl⟩ := ended
      exact .rejected _
    · cases there : d.lane? i with
      | some l =>
        have goes : LateMove d ⟨key, task, .retiring i c⟩ ⟨key, task, .retiring i (c.step l).1⟩ :=
          .goes (.retiring i _) id id
        cases c <;> simp_all [step, on]
      | none =>
        have gone : LateMove d ⟨key, task, .retiring i c⟩
          (reject ⟨key, task, .retiring i c⟩ []) := .rejected []
        cases c <;> simp_all [step]
  | queueing stamp i =>
    cases queued : (d.lane? i).bind (Lane.enqueue · (task i stamp)) with
    | some l =>
      simp only [step, queued]
      exact .accepted stamp i rfl
    | none =>
      simp only [step, queued]
      exact .rejected _
  | done submitted => cases going

theorem LateMove.same_key {s' : Submission α} (h : LateMove d s s') : s'.key = s.key := by
  cases h <;> rfl

/-- Only its look-up and its stamp bring a submission to the allocator. -/
theorem allocator_step (d : Dispatcher α) (idle : ¬ s.phase.Allocating) :
    (s.step d).value.2.allocator = d.allocator := by
  obtain ⟨key, task, phase⟩ := s
  cases phase with
  | stamping => exact absurd trivial idle
  | resolving stamp => exact absurd trivial idle
  | installing stamp i own =>
    cases there : d.lane? own.index <;>
      simp [step, Dispatcher.install, Dispatcher.setLane, there]
  | yielding stamp i own c => cases c <;> rfl
  | retiring i c =>
    cases c with
    | done report => rfl
    | _ => simp only [step]; split <;> rfl
  | _ => simp only [step]; first | rfl | (split <;> rfl)

/-- The submission has not looked at anything yet, or was turned away when it first did. -/
def Late (s : Submission α) : Prop :=
  ∃ key stamped task, s = start key stamped task ∨ s = (start key stamped task).reject []

theorem step_start (up : d.shutdown = true) :
    ((start key stamped task).step d).value = ((start key stamped task).reject [], d) := by
  cases stamped <;> simp [start, step, up, reject, on]

theorem Late.eq_start (h : s.Late) (going : s.answer? = none) :
    ∃ key stamped task, s = start key stamped task := by
  obtain ⟨key, stamped, task, rfl | rfl⟩ := h
  · exact ⟨key, stamped, task, rfl⟩
  · cases going

theorem Late.answer (h : s.Late) {submitted : Submitted α} (ended : s.answer? = some submitted) :
    submitted = ⟨.refused (.rejected s.key), []⟩ := by
  obtain ⟨key, stamped, task, rfl | rfl⟩ := h
  · cases stamped <;> cases ended
  · exact (Option.some.inj ended).symm

/-- The submission has not been accepted and will not be. -/
structure Excluded (config : Config) (acts : List (Act V)) (t : Ticket) (s : Submission α) :
    Prop where
  waits : ∀ stamp i, s.phase ≠ .queueing stamp i
  answers : ∀ submitted, s.answer? = some submitted →
    TurnedAway config acts t s.key submitted.answer

variable {config : Config} {acts : List (Act V)} {t : Ticket}

theorem excluded_of_phase {phase : SubmissionPhase α}
    (under : ¬ phase.Through) : (s.on phase).Excluded config acts t := by
  constructor
  · rintro stamp i rfl
    exact under trivial
  · intro submitted ended
    cases phase <;> cases ended
    exact absurd trivial under

theorem excluded_done {submitted : Submitted α}
    (turned : TurnedAway config acts t s.key submitted.answer) :
    (s.on (.done submitted)).Excluded config acts t := by
  constructor
  · intro stamp i phase
    cases phase
  · intro answer ended
    obtain rfl := Option.some.inj ended
    exact turned

theorem Excluded.mono (h : s.Excluded config acts t) (act : Act V) :
    s.Excluded config (acts ++ [act]) t := by
  refine ⟨h.waits, fun submitted ended => ?_⟩
  have turned := h.answers submitted ended
  generalize submitted.answer = answer at turned
  cases turned with
  | rejected => exact .rejected
  | threadless i source refused => exact .threadless i source (List.mem_append_left _ refused)
  | unnameable nul => exact .unnameable nul

theorem Excluded.step (h : s.Excluded d.config acts t) (up : d.shutdown = true)
    (going : s.answer? = none) : (s.step d).value.1.Excluded d.config acts t := by
  have move := lateMove_step up going
  generalize (s.step d).value.1 = s' at move
  cases move with
  | goes phase under idle => exact excluded_of_phase under
  | rejected discarded => exact excluded_done .rejected
  | unnameable nul => exact excluded_done (.unnameable nul)
  | accepted stamp i through => exact absurd through (h.waits stamp i)

end Submission

namespace Stopping

variable {α : Type}

theorem allocator_step_of_ne {s : Stopping α} (d : Dispatcher α)
    (other : ∀ kind report, s ≠ .clearing kind report) :
    (s.step d).2.allocator = d.allocator := by
  cases s with
  | clearing kind report => exact absurd rfl (other kind report)
  | raising kind => cases kind <;> simp only [step] <;> split <;> rfl
  | visiting kind i report =>
    simp only [step]
    split
    · split <;> rfl
    · rfl
  | closing kind i c report =>
    cases c with
    | done part => rfl
    | _ => simp only [step]; split <;> rfl
  | _ => rfl

theorem allocator_step (s : Stopping α) (d : Dispatcher α) :
    (s.step d).2.allocator = d.allocator ∨ (s.step d).2.allocator = d.allocator.clear := by
  by_cases clears : ∃ kind report, s = .clearing kind report
  · obtain ⟨kind, report, rfl⟩ := clears
    cases kind <;> exact .inr rfl
  · simp only [not_exists] at clears
    exact .inl (allocator_step_of_ne d clears)

/-- A stop that is still to clear the allocator does so before it ends. -/
theorem Clears.step {s : Stopping α} {d : Dispatcher α} (h : s.Clears) :
    (s.step d).1.Clears ∨ (s.step d).2.allocator = d.allocator.clear := by
  cases s with
  | following => exact .inl trivial
  | clearing kind report => cases kind <;> exact .inr rfl
  | visiting kind i report =>
    cases kind with
    | forced => cases h
    | graceful =>
      left
      simp only [Stopping.step]
      split
      · split <;> trivial
      · trivial
  | closing kind i c report =>
    cases kind with
    | forced => cases h
    | graceful =>
      left
      cases c with
      | done part => trivial
      | _ => simp only [Stopping.step]; split <;> trivial
  | _ => cases h

end Stopping

/-- The allocator keeps no key and has counted for nobody who did not draw a stamp himself. -/
structure Allocator.Wiped {V : Type} (a : Allocator) (acts : List (Act V)) : Prop where
  assignments : a.assignments = []
  counts : ∀ count ∈ a.counts, count = 0
  uncounted : ∀ key, .drawStamp key ∉ acts → a.stamps.counters[key]? = none

namespace Allocator

variable {V : Type} {a : Allocator} {acts : List (Act V)}

theorem wiped_clear (a : Allocator) (acts : List (Act V)) : a.clear.Wiped acts where
  assignments := rfl
  counts := by simp [counts, clear, Loads.reset, Loads.fresh]
  uncounted := by simp [clear, Stamps.empty]

theorem Wiped.mono (h : a.Wiped acts) (act : Act V) : a.Wiped (acts ++ [act]) :=
  ⟨h.assignments, h.counts, fun key none => h.uncounted key fun drawn =>
    none (List.mem_append_left _ drawn)⟩

theorem Wiped.nextStamp (h : a.Wiped acts) (key : Key) :
    (a.nextStamp key).2.Wiped (acts ++ [.drawStamp key]) := by
  refine ⟨h.assignments, h.counts, fun other none => ?_⟩
  have apart : key ≠ other := by
    rintro rfl
    simp at none
  have before := h.uncounted other fun drawn => none (List.mem_append_left _ drawn)
  simp [Allocator.nextStamp, Stamps.draw, Std.HashMap.getElem?_insert, apart, before]

/-- Whoever draws the first stamp of a key gets 1. -/
theorem Wiped.first (h : a.Wiped acts) {key : Key} (none : .drawStamp key ∉ acts) :
    (a.nextStamp key).1 = 1 := by
  simp [Allocator.nextStamp, Stamps.peek, h.uncounted key none]

end Allocator

namespace World

variable {V : Type} {d : Dispatcher Parcel} {v w w' : World V} {a : Act V}
  {acts more : List (Act V)} {t : Ticket} {s : Submission Parcel} {n : Nat} {i : LaneIndex}

theorem Effect.config (e : Effect w w') : w'.dispatcher.config = w.dispatcher.config := by
  cases e <;> rfl

/-- Once the flag is up it stays up, whatever a run does. -/
theorem up_of_run (up : v.dispatcher.shutdown = true) (run : v.run more = some w) :
    w.dispatcher.shutdown = true :=
  run_induction (P := fun _ w => w.dispatcher.shutdown = true) up
    (fun _ before act => (effect_of_step act).shutdown before) run

theorem config_of_run (run : v.run more = some w) : w.dispatcher.config = v.dispatcher.config :=
  run_induction (P := fun _ w => w.dispatcher.config = v.dispatcher.config) rfl
    (fun _ before act => (effect_of_step act).config.trans before) run

/-! ### Submissions that begin once the flag is up -/

/-- The submissions from number `n` on have seen nothing but the raised flag. -/
def AllLate (n : Nat) (w : World V) : Prop :=
  ∀ (t : Ticket) (s : Submission Parcel), w.submissions[t]? = some s → n ≤ t → s.Late

theorem Move.allLate (m : Move w w' a) (up : w.dispatcher.shutdown = true) (h : AllLate n w) :
    AllLate n w' := by
  refine m.allSubmissions (P := fun t s => n ≤ t → s.Late) h
    (fun t key stamped late => ⟨key, stamped, _, .inl rfl⟩) ?_ ?_
  · intro t s before going late
    obtain ⟨key, stamped, task, rfl⟩ := (before late).eq_start going
    exact ⟨key, stamped, task, .inr (congrArg Prod.fst (Submission.step_start up))⟩
  · intro t s stamp i submitted before phase late
    -- Nobody who has seen only the flag is about to start a lane.
    have going : s.answer? = none := by simp [Submission.answer?, phase]
    obtain ⟨key, stamped, task, rfl⟩ := (before late).eq_start going
    cases stamped <;> cases phase

theorem allLate_of_run (up : v.dispatcher.shutdown = true) (run : v.run more = some w) :
    AllLate v.submissions.length w := by
  refine run_induction (P := fun _ w => AllLate v.submissions.length w) ?_ ?_ run
  · intro t s there late
    have bound := (List.getElem?_eq_some_iff.1 there).1
    omega
  · intro acts w a w' run before act
    exact (move_of_step act).allLate (up_of_run up run) before

/-- A submission that looks for the first time ends, and nothing else changes. -/
theorem advance_start {key : Key} {stamped : Bool} {task : LaneIndex → Option Stamp → Parcel}
    (up : w.dispatcher.shutdown = true)
    (there : w.submissions[t]? = some (.start key stamped task)) :
    w.advance t = some { w with
      submissions := w.submissions.set t ((Submission.start key stamped task).reject [])
      history := w.history ++ [.rejected t] } := by
  have going : (Submission.start key stamped task).answer? = none := by cases stamped <;> rfl
  rw [advance_end there going (Submission.step_start up) rfl]
  cases stamped <;>
    simp [settle, queueing?, submissionNews, Submission.start, Submission.reject, Submission.on,
      note]

/-- The world after one more submission that was turned away when it first looked. -/
def turnAway (w : World V) (key : Key) : World V :=
  { w.withSubmission key (.done ⟨.refused (.rejected key), []⟩) with
    history := w.history ++ [.rejected w.submissions.length] }

theorem advance_begun (up : w.dispatcher.shutdown = true) (key : Key) (stamped : Bool) :
    (w.begin key stamped).advance w.submissions.length = some (w.turnAway key) := by
  have there : (w.begin key stamped).submissions[w.submissions.length]? =
      some (.start key stamped fun lane _ => ⟨key, lane, w.submissions.length⟩) := by
    simp [begin]
  have ends := advance_start (w := w.begin key stamped) up there
  rw [ends]
  simp [begin, turnAway, withSubmission, underKey, Submission.reject, Submission.on,
    Submission.start]

theorem run_submit_late (up : w.dispatcher.shutdown = true) (key : Key) (stamped : Bool) :
    w.run [.submit key stamped, .advance w.submissions.length] = some (w.turnAway key) := by
  have begins : w.step (.submit key stamped) = some (w.begin key stamped) := rfl
  have ends : (w.begin key stamped).step (.advance w.submissions.length) =
      some (w.turnAway key) := advance_begun up key stamped
  rw [run_cons, begins, Option.bind_some, run_cons, ends, Option.bind_some, run_nil]

/-- A submission that asks for a key of its own gets one before it looks. -/
theorem run_unordered_late (up : w.dispatcher.shutdown = true) :
    w.run [.submitUnordered, .advance w.submissions.length] =
      some ({ w with counter := w.counter.draw.2 }.turnAway w.counter.draw.1) := by
  have begins : w.step .submitUnordered =
      some ({ w with counter := w.counter.draw.2 }.begin w.counter.draw.1 false) := rfl
  have ends : ({ w with counter := w.counter.draw.2 }.begin w.counter.draw.1 false).step
      (.advance w.submissions.length) =
        some ({ w with counter := w.counter.draw.2 }.turnAway w.counter.draw.1) :=
    advance_begun (w := { w with counter := w.counter.draw.2 }) up _ false
  rw [run_cons, begins, Option.bind_some, run_cons, ends, Option.bind_some, run_nil]

/-! ### Submissions that a stop falls into -/

/-- Submission `t` was made under `key`, has not been accepted and will not be. -/
def KeepsOut (w : World V) (config : Config) (acts : List (Act V)) (t : Ticket) (key : Key) :
    Prop :=
  ∃ s, w.submissions[t]? = some s ∧ s.key = key ∧ s.Excluded config acts t

theorem Move.keepsOut (m : Move w w' a) (up : w.dispatcher.shutdown = true) {key : Key}
    (h : w.KeepsOut w.dispatcher.config acts t key) :
    w'.KeepsOut w.dispatcher.config (acts ++ [a]) t key := by
  obtain ⟨s, there, rfl, excluded⟩ := h
  have still := excluded.mono a
  have same : w'.submissions[t]? = some s →
      w'.KeepsOut w.dispatcher.config (acts ++ [a]) t s.key := fun same => ⟨s, same, rfl, still⟩
  cases m with
  | begin a key stamped submissions stops dispatcher =>
    exact same (submissions ▸ getElem?_snoc_there there _)
  | advance u r found going submissions stops dispatcher =>
    rcases eq_or_ne u t with rfl | other
    · obtain rfl := Option.some.inj (there.symm.trans found)
      have moved := Submission.lateMove_step up going
      exact ⟨_, submissions ▸ getElem?_set_there there _, moved.same_key, still.step up going⟩
    · exact same (by rw [submissions, List.getElem?_set_ne other, there])
  | refuseThread u source r stamp i found phase submissions stops dispatcher =>
    rcases eq_or_ne u t with rfl | other
    · obtain rfl := Option.some.inj (there.symm.trans found)
      have told : Act.refuseThread u source ∈ acts ++ [Act.refuseThread u source] :=
        List.mem_append_right _ (List.mem_singleton_self _)
      exact ⟨_, (congrArg (·[u]?) submissions).trans (getElem?_set_there there _), rfl,
        Submission.excluded_done (.threadless i source told)⟩
    · exact same (by rw [submissions, List.getElem?_set_ne other, there])
  | beginStop kind submissions => exact same (submissions ▸ there)
  | drawStamp key submissions => exact same (submissions ▸ there)
  | advanceStop n s there' submissions => exact same (submissions ▸ there)
  | rest a rest => exact same (rest.submissions ▸ there)

theorem keepsOut_of_run (up : v.dispatcher.shutdown = true) (there : v.submissions[t]? = some s)
    (under : ¬ s.phase.Through) (run : v.run more = some w) :
    w.KeepsOut v.dispatcher.config more t s.key := by
  refine run_induction (P := fun acts w => w.KeepsOut v.dispatcher.config acts t s.key) ?_ ?_ run
  · exact ⟨s, there, rfl, Submission.excluded_of_phase under⟩
  · intro acts w a w' run before act
    rw [← config_of_run run] at before ⊢
    exact (move_of_step act).keepsOut (up_of_run up run) before

/-- What the caller of a submission gets that is not to be accepted. -/
inductive Repelled (w : World V) (config : Config) (acts : List (Act V)) (t : Ticket) (key : Key) :
    Reception → Prop
  | answered (answer : Admission) (turned : TurnedAway config acts t key answer) :
      Repelled w config acts t key (.answered answer)
  /-- The submission halted its lane, and the waker of a task that was queued there panicked. -/
  | unwound (panic : Payload) (cut : w.CutShort t panic) :
      Repelled w config acts t key (.unwound panic)

theorem repelled_of_keepsOut {counter : KeyCounter} {config : Config} {key : Key}
    {all : List (Act V)} (run : (fresh d counter).run all = some w)
    (h : w.KeepsOut config acts t key) {r : Reception} (got : w.reception? t = some r) :
    w.Repelled config acts t key r := by
  obtain ⟨s, there, rfl, excluded⟩ := h
  rcases reception_cases run got with ⟨s', submitted, there', ended, rfl⟩ | ⟨panic, cut, rfl⟩
  · obtain rfl := Option.some.inj (there.symm.trans there')
    exact .answered _ (excluded.answers submitted ended)
  · exact .unwound panic cut

/-- No task is started of a submission that had not looked twice when the flag was up. -/
theorem through_of_started (new : d.Fresh) (reached : Reachable d v.core)
    (up : v.dispatcher.shutdown = true) (run : v.run more = some w) {p : Parcel}
    {lane : Option LaneIndex} (started : .started p lane ∈ w.history) :
    ∃ s, v.submissions[p.ticket]? = some s ∧ s.phase.Through := by
  have reached : Reachable d w.core := (later_of_run run).reachable reached
  have listed : p ∈ starts w.history := List.mem_filterMap.2 ⟨_, started, rfl⟩
  obtain ⟨j, accepted⟩ := mem_accepted.1 ((reached.kept new).accepted_of_started listed)
  obtain ⟨s', stamp, there', phase⟩ := (reached.identified accepted).ended
  have ended : s'.answer? = some ⟨.accepted stamp, []⟩ := by simp [Submission.answer?, phase]
  cases there : v.submissions[p.ticket]? with
  | none =>
    have late := allLate_of_run up run p.ticket s' there' (List.getElem?_eq_none_iff.1 there)
    cases late.answer ended
  | some s =>
    refine ⟨s, rfl, by_contra fun under => ?_⟩
    obtain ⟨r, found, -, excluded⟩ := keepsOut_of_run up there under run
    obtain rfl := Option.some.inj (there'.symm.trans found)
    cases excluded.answers _ ended

/-! ### The allocator -/

/-- No submission is about to use the allocator. -/
def NoneAllocates (w : World V) : Prop :=
  ∀ (t : Ticket) (s : Submission Parcel), w.submissions[t]? = some s → ¬ s.phase.Allocating

theorem Move.noneAllocates (m : Move w w' a) (up : w.dispatcher.shutdown = true)
    (h : w.NoneAllocates) : w'.NoneAllocates := by
  refine m.allSubmissions h ?_ ?_ ?_
  · intro t key stamped
    cases stamped <;> exact id
  · intro t s before going
    have moved := Submission.lateMove_step up going
    generalize (s.step w.dispatcher).value.1 = s' at moved
    cases moved with
    | goes phase under idle => exact idle
    | _ => exact id
  · intro t s stamp i submitted before phase
    exact id

/-- An allocator that has forgotten everything counts for those only who draw stamps themselves. -/
theorem Move.wiped (m : Move w w' a) (idle : w.NoneAllocates)
    (h : w.dispatcher.allocator.Wiped acts) : w'.dispatcher.allocator.Wiped (acts ++ [a]) := by
  have same : w'.dispatcher.allocator = w.dispatcher.allocator →
      w'.dispatcher.allocator.Wiped (acts ++ [a]) := fun same => same ▸ h.mono a
  cases m with
  | begin a key stamped submissions stops dispatcher => exact same (by rw [dispatcher])
  | beginStop kind submissions stops dispatcher => exact same (by rw [dispatcher])
  | drawStamp key submissions stops dispatcher =>
    rw [dispatcher]
    exact h.nextStamp key
  | advance t s there going submissions stops dispatcher =>
    exact same (dispatcher ▸ Submission.allocator_step _ (idle t s there))
  | refuseThread t source s stamp i there phase submissions stops dispatcher =>
    exact same (by rw [dispatcher])
  | advanceStop n s there submissions stops dispatcher =>
    rcases s.allocator_step w.dispatcher with kept | cleared
    · exact same (dispatcher ▸ kept)
    · rw [dispatcher, cleared]
      exact Allocator.wiped_clear _ _
  | rest a rest =>
    obtain ⟨lanes, dispatcher⟩ := rest.dispatcher
    exact same (by rw [dispatcher])

/-- Stop `n` is still to clear the allocator, or the allocator has forgotten everything. -/
def ClearsOrWiped (w : World V) (n : Nat) (acts : List (Act V)) : Prop :=
  (∃ r, w.stops[n]? = some r ∧ r.Clears) ∨ w.dispatcher.allocator.Wiped acts

theorem Move.clearsOrWiped (m : Move w w' a) (idle : w.NoneAllocates)
    (h : w.ClearsOrWiped n acts) : w'.ClearsOrWiped n (acts ++ [a]) := by
  rcases h with ⟨r, there, clears⟩ | wiped
  · have same : w'.stops[n]? = some r → w'.ClearsOrWiped n (acts ++ [a]) := fun same =>
      .inl ⟨r, same, clears⟩
    cases m with
    | begin a key stamped submissions stops => exact same (stops ▸ there)
    | beginStop kind submissions stops => exact same (stops ▸ getElem?_snoc_there there _)
    | drawStamp key submissions stops => exact same (stops ▸ there)
    | advance t s there' going submissions stops => exact same (stops ▸ there)
    | refuseThread t source s stamp i there' phase submissions stops => exact same (stops ▸ there)
    | advanceStop k s found submissions stops dispatcher =>
      rcases eq_or_ne k n with rfl | other
      · obtain rfl := Option.some.inj (there.symm.trans found)
        rcases clears.step (d := w.dispatcher) with goes | cleared
        · exact .inl ⟨_, stops ▸ getElem?_set_there there _, goes⟩
        · right
          rw [dispatcher, cleared]
          exact Allocator.wiped_clear _ _
      · exact same (by rw [stops, List.getElem?_set_ne other, there])
    | rest a rest => exact same (rest.stops ▸ there)
  · exact .inr (m.wiped idle wiped)

theorem noneAllocates_of_run (up : v.dispatcher.shutdown = true) (idle : v.NoneAllocates)
    (run : v.run more = some w) : w.NoneAllocates :=
  run_induction (P := fun _ w => w.NoneAllocates) idle
    (fun run before act => (move_of_step act).noneAllocates (up_of_run up run) before) run

theorem wiped_of_run (up : v.dispatcher.shutdown = true) (idle : v.NoneAllocates)
    {r : Stopping Parcel} (there : v.stops[n]? = some r) (clears : r.Clears)
    (run : v.run more = some w) {report : StopReport Parcel}
    (done : w.stops[n]? = some (.done report)) : w.dispatcher.allocator.Wiped more := by
  have reached : w.ClearsOrWiped n more := by
    refine run_induction (P := fun acts w => w.ClearsOrWiped n acts) ?_ ?_ run
    · exact .inl ⟨r, there, clears⟩
    · intro acts w a w' run before act
      exact (move_of_step act).clearsOrWiped (noneAllocates_of_run up idle run) before
  rcases reached with ⟨r, found, clears⟩ | wiped
  · obtain rfl := Option.some.inj (done.symm.trans found)
    cases clears
  · exact wiped

/-! ### Lanes and the life of the dispatcher -/

/-- A worker that is gone stays away. -/
theorem Effect.finished (e : Effect w w') (sound : AllSound w.submissions) {l : Lane Parcel}
    (lane : w.dispatcher.lane? i = some l) (gone : l.isFinished = true) :
    ∃ l', w'.dispatcher.lane? i = some l' ∧ l'.isFinished = true := by
  rcases e.track sound i with same | step
  · exact ⟨l, (congrArg Track.lane same).trans lane, gone⟩
  · obtain ⟨panic, exited⟩ : ∃ panic, l.worker = .exited panic := by
      cases worker : l.worker <;> simp [Lane.isFinished, worker] at gone ⊢
    obtain ⟨l', lane', worker⟩ := step.worker lane (by simp [Lane.receive, exited])
      (by simp [Lane.inspect, exited]) (by simp [exited])
    exact ⟨l', lane', by simp [Lane.isFinished, worker, exited]⟩

theorem finished_of_run (reached : Reachable d v.core) (run : v.run more = some w)
    {l : Lane Parcel} (lane : v.dispatcher.lane? i = some l) (gone : l.isFinished = true) :
    ∃ l', w.dispatcher.lane? i = some l' ∧ l'.isFinished = true := by
  refine run_induction (P := fun _ w => ∃ l', w.dispatcher.lane? i = some l' ∧
    l'.isFinished = true) ⟨l, lane, gone⟩ ?_ run
  rintro acts w a w' run ⟨l, lane, gone⟩ act
  exact (effect_of_step act).finished ((later_of_run run).reachable reached).allSound lane gone

/-- When the flag is up and no submission is under way, no lane is installed any more. -/
theorem empty_of_run (reached : Reachable d v.core) (up : v.dispatcher.shutdown = true)
    (ended : ∀ (t : Ticket) (s : Submission Parcel), v.submissions[t]? = some s → s.answer?.isSome)
    (run : v.run more = some w) (empty : v.dispatcher.lane? i = none) :
    w.dispatcher.lane? i = none := by
  refine run_induction (P := fun _ w => w.dispatcher.lane? i = none) empty ?_ run
  intro acts w a w' run empty act
  have run' : v.run (acts ++ [a]) = some w' := by rw [run_snoc, run, Option.bind_some, act]
  have sound := ((later_of_run run).reachable reached).allSound
  cases lane' : w'.dispatcher.lane? i with
  | none => rfl
  | some l =>
    have none : ∀ {l'}, w.dispatcher.lane? i ≠ some l' := by simp [empty]
    cases (effect_of_step act).laneMove sound lane' with
    | kept l lane => exact absurd lane none
    | closed who c l lane => exact absurd lane none
    | installed t s stamp there phase =>
      -- Whoever is about to look again began before the flag was up, and has not ended.
      have going : s.answer? = Option.none := by simp [Submission.answer?, phase]
      rcases Nat.lt_or_ge t v.submissions.length with early | late
      · have before := List.getElem?_eq_getElem early
        obtain ⟨submitted, done⟩ := Option.isSome_iff_exists.1 (ended t _ before)
        have stays := (later_of_run run').ended before (Submission.phase_of_answer done)
        obtain rfl := Option.some.inj (there.symm.trans stays)
        cases going.symm.trans done
      · obtain ⟨key, stamped, task, rfl⟩ := (allLate_of_run up run' t s there late).eq_start going
        cases stamped <;> cases phase

end World

theorem Dispatcher.mem_createdLanes {α : Type} {d : Dispatcher α} {l : Lane α} :
    l ∈ d.createdLanes ↔ ∃ i, d.lane? i = some l := by
  rw [createdLanes, List.mem_filterMap]
  simp [lane?, Option.join_eq_some_iff, List.mem_iff_getElem?]

theorem Dispatcher.terminated_iff {α : Type} {d : Dispatcher α} :
    d.terminated = true ↔ ∀ i l, d.lane? i = some l → l.isFinished = true := by
  rw [terminated, List.all_eq_true]
  exact ⟨fun h i l there => h l (mem_createdLanes.2 ⟨i, there⟩),
    fun h l listed => (mem_createdLanes.1 listed).elim fun i there => h i l there⟩

theorem Dispatcher.rank_lifecycle {α : Type} (d : Dispatcher α) : d.lifecycle.rank =
    if d.shutdown then if d.shutdownNow || d.terminated then 2 else 1 else 0 := by
  unfold lifecycle
  cases d.shutdown <;> cases d.shutdownNow <;> cases d.terminated <;> rfl

namespace World

variable {V : Type} {d : Dispatcher Parcel} {v w : World V} {more : List (Act V)}

theorem forced_of_run (up : v.dispatcher.shutdownNow = true) (run : v.run more = some w) :
    w.dispatcher.shutdownNow = true := by
  refine run_induction (P := fun _ w => w.dispatcher.shutdownNow = true) up ?_ run
  intro acts w a w' run before act
  cases after : w'.dispatcher.shutdownNow with
  | true => rfl
  | false => cases before.symm.trans ((effect_of_step act).unforced after)

/-- Between states in which no call is under way the life of the dispatcher only goes on. -/
theorem rank_of_run (reached : Reachable d v.core) (ended : v.Ended) (run : v.run more = some w) :
    v.dispatcher.lifecycle.rank ≤ w.dispatcher.lifecycle.rank := by
  cases up : v.dispatcher.shutdown with
  | false => simp [Dispatcher.rank_lifecycle, up]
  | true =>
    have later := up_of_run up run
    have stays : (v.dispatcher.shutdownNow || v.dispatcher.terminated) = true →
        (w.dispatcher.shutdownNow || w.dispatcher.terminated) = true := by
      simp only [Bool.or_eq_true]
      rintro (forced | terminated)
      · exact .inl (forced_of_run forced run)
      · refine .inr (Dispatcher.terminated_iff.2 fun i l lane => ?_)
        cases before : v.dispatcher.lane? i with
        | none => cases lane.symm.trans (empty_of_run reached up ended.submissions run before)
        | some l₀ =>
          have gone := Dispatcher.terminated_iff.1 terminated i l₀ before
          obtain ⟨l', lane', gone'⟩ := finished_of_run reached run before gone
          obtain rfl := Option.some.inj (lane.symm.trans lane')
          exact gone'
    simp only [Dispatcher.rank_lifecycle, up, later, if_true]
    split
    · next stopped => simp [stays stopped]
    · split <;> omega

/-! ### A stop is final -/

/--
What becomes of the submissions, the allocator and the lanes of a state `v` in which the flag is
up, when the acts have led to `w`.
-/
structure Absorbed (v w : World V) (acts : List (Act V)) : Prop where
  /-- A submission that had not looked twice is never accepted, and its caller learns of it. -/
  turned : ∀ (t : Ticket) (s : Submission Parcel), v.submissions[t]? = some s →
    ¬ s.phase.Through → w.KeepsOut v.dispatcher.config acts t s.key ∧
      ∀ r, w.reception? t = some r → w.Repelled v.dispatcher.config acts t s.key r
  /-- A later one is rejected with its own key. -/
  rejected : ∀ (t : Ticket) (s : Submission Parcel) (submitted : Submitted Parcel),
    v.submissions.length ≤ t → w.submissions[t]? = some s → s.answer? = some submitted →
      submitted = ⟨.refused (.rejected s.key), []⟩ ∧
        w.reception? t = some (.answered (.refused (.rejected s.key)))
  /-- Whatever task is started had been queued, or was about to be. -/
  started : ∀ (p : Parcel) (lane : Option LaneIndex), .started p lane ∈ w.history →
    ∃ s, v.submissions[p.ticket]? = some s ∧ s.phase.Through
  /-- The only access of a later submission ends it and changes nothing else. -/
  access : ∀ (t : Ticket) (s : Submission Parcel), v.submissions.length ≤ t →
    w.submissions[t]? = some s → s.answer? = none → w.advance t = some { w with
      submissions := w.submissions.set t (s.reject []), history := w.history ++ [.rejected t] }
  submit : ∀ key stamped, w.run [.submit key stamped, .advance w.submissions.length] =
    some (w.turnAway key)
  unordered : w.run [.submitUnordered, .advance w.submissions.length] =
    some ({ w with counter := w.counter.draw.2 }.turnAway w.counter.draw.1)
  /--
  When the stop has ended, the allocator has forgotten everything, unless a submission that had
  found the flag down was still to come to the allocator.
  -/
  forgotten : ∀ (n : Nat) (r : Stopping Parcel) (report : StopReport Parcel), v.NoneAllocates →
    v.stops[n]? = some r → r.Clears → w.stops[n]? = some (.done report) →
      w.dispatcher.allocator.Wiped acts ∧
        ∀ key, .drawStamp key ∉ acts → (w.dispatcher.nextStamp key).1 = 1
  /-- When the submissions of `v` had ended, no lane comes up any more. -/
  laneless : (∀ (t : Ticket) (s : Submission Parcel), v.submissions[t]? = some s →
    s.answer?.isSome) → ∀ i, v.dispatcher.lane? i = none → w.dispatcher.lane? i = none
  /-- Left to themselves, the calls under way come to their ends. -/
  returns : ∃ w', w.Proceeds w' ∧ w'.Ended

theorem absorbed_of_run {counter : KeyCounter} (new : d.Fresh)
    (before : (fresh d counter).run acts = some v) (up : v.dispatcher.shutdown = true)
    (run : v.run more = some w) : Absorbed v w more :=
  have reached : Reachable d v.core := reachable_of_run before
  have whole : (fresh d counter).run (acts ++ more) = some w := run_of_parts before run
  {
  turned := fun t s there under => ⟨keepsOut_of_run up there under run, fun _ =>
    repelled_of_keepsOut whole (keepsOut_of_run up there under run)⟩
  rejected := by
    intro t s submitted late there ended
    obtain rfl := (allLate_of_run up run t s there late).answer ended
    exact ⟨rfl, reception_of_clean whole there ended⟩
  started := fun p lane started => through_of_started new reached up run started
  access := by
    intro t s late there going
    obtain ⟨key, stamped, task, rfl⟩ := (allLate_of_run up run t s there late).eq_start going
    exact advance_start (up_of_run up run) there
  submit := run_submit_late (up_of_run up run)
  unordered := run_unordered_late (up_of_run up run)
  forgotten := by
    intro n r report idle there clears done
    have wiped := wiped_of_run up idle there clears run done
    exact ⟨wiped, fun key none => wiped.first none⟩
  laneless := fun ended i empty => empty_of_run reached up ended run empty
  returns := w.exists_ended }

/--
Once a stop has raised the flag nothing is accepted any more, and what comes later leaves no trace;
between states in which no call is under way the life of the dispatcher only goes on.
-/
theorem shutdown_absorbs {config : Config} {parallelism : Nat} {counter : KeyCounter}
    {acts : List (Act V)} (made : Dispatcher.create config parallelism = .ok d)
    (run : (fresh d counter).run acts = some v) (rest : v.run more = some w) :
    (v.dispatcher.shutdown = true → Absorbed v w more) ∧
      (v.Ended → v.dispatcher.lifecycle.rank ≤ w.dispatcher.lifecycle.rank) := by
  have new := (Dispatcher.fresh_of_create made).1
  have reached : Reachable d v.core := reachable_of_run run
  exact ⟨fun up => absorbed_of_run new run up rest, fun ended => rank_of_run reached ended rest⟩

/-- Two lanes, with room for one key: a submission of key 1 has ended. -/
def oneEnded (config : Config) (a : Allocator) (lane : Option (Lane Parcel)) (answer : Admission)
    (told : List (Happening Unit)) : World Unit :=
  calm ⟨config, a, [lane, none], false, false⟩ [underKey 1 0 (.done ⟨answer, []⟩)]
    (.resolved 0 1 0 :: told)

/-- Its task waits on the first lane. -/
def oneQueued (a : Allocator) : World Unit :=
  oneEnded (tiny 2 1) a (some ⟨0, .running, true, [⟨1, 0, 0⟩], false, .idle, false⟩)
    (.accepted none) [.accepted ⟨1, 0, 0⟩ 0]

/--
A forced stop falls into a submission that drives key 1 out. That submission starts a lane, halts
it and is rejected; a later one is rejected as well.
-/
theorem shutdown_absorbs_eviction : ∃ (d : Dispatcher Parcel) (acts more : List (Act Unit))
    (v w : World Unit), Dispatcher.create (tiny 2 1) 1 = .ok d ∧
      (fresh d ⟨0⟩).run acts = some v ∧ v.run more = some w ∧ .evicted 1 0 ∈ v.history ∧
      v.dispatcher.shutdown = true ∧ v.NoneAllocates ∧
      v.stops[0]? = some (.clearing .forced .empty) ∧ Absorbed v w more ∧
      w.submissions.map (·.phase) = [.done ⟨.accepted none, []⟩,
        .done ⟨.refused (.rejected 2), []⟩, .done ⟨.refused (.rejected 0x80000000), []⟩] ∧
      w.dispatcher.allocator.Wiped more ∧ w.Ended ∧
      ∀ x, w.run [.submit 3 true, .advance 3] = some x →
        w.dispatcher.lifecycle.rank ≤ x.dispatcher.lifecycle.rank := by
  obtain ⟨a₁, a₂, -, -, found₁, quiet₁, found₂, gone₂, -⟩ := crowded_lookUps Unit
  have made : Dispatcher.create (tiny 2 1) 1 = .ok (newborn 2 1) := rfl
  have one : (fresh (newborn 2 1) ⟨0⟩).run (Act.submit 1 false ::
      List.replicate 7 (Act.advance 0)) = some (oneQueued a₁) :=
    (run_submit (w := fresh (newborn 2 1) ⟨0⟩) 1 rfl rfl found₁ quiet₁ _).trans (by cbv)
  have two := run_submit (w := oneQueued a₁) 2 rfl rfl found₂ gone₂ []
  have whole : (((oneQueued a₁).lookedUp 2 1 a₂ [.evicted 1 0]).run
      [Act.stop .forced, Act.advanceStop 0, Act.advanceStop 0]).bind (fun v : World Unit =>
        (v.run (List.replicate 11 (Act.advance 1) ++ List.replicate 13 (Act.advanceStop 0) ++
          [Act.submitUnordered, Act.advance 2])).map fun w =>
        (v.history, v.dispatcher.shutdown, v.stops, v.submissions.map (·.phase), w.stops,
          w.submissions.map (·.answer?.isSome), w.submissions.map (·.phase))) =
      some ([.resolved 0 1 0, .accepted ⟨1, 0, 0⟩ 0, .resolved 1 2 1, .evicted 1 0,
        .raised 0 .forced], true, [.clearing .forced .empty],
        [.done ⟨.accepted none, []⟩, .seeking none 1], [.done ⟨[⟨1, 0, 0⟩], []⟩],
        [true, true, true], [.done ⟨.accepted none, []⟩, .done ⟨.refused (.rejected 2), []⟩,
          .done ⟨.refused (.rejected 0x80000000), []⟩]) := by cbv
  obtain ⟨v, run, seen⟩ := Option.bind_eq_some_iff.1 whole
  obtain ⟨w, rest, seen⟩ := Option.map_eq_some_iff.1 seen
  obtain ⟨history, seen⟩ := Prod.mk.inj seen
  obtain ⟨up, seen⟩ := Prod.mk.inj seen
  obtain ⟨stops, seen⟩ := Prod.mk.inj seen
  obtain ⟨phases, seen⟩ := Prod.mk.inj seen
  obtain ⟨done, seen⟩ := Prod.mk.inj seen
  obtain ⟨answered, answers⟩ := Prod.mk.inj seen
  have run := run_of_parts one (run_of_parts two run)
  have idle : v.NoneAllocates := by
    intro t s there
    have listed : s.phase ∈ v.submissions.map (·.phase) :=
      List.mem_map_of_mem (List.mem_of_getElem? there)
    simp only [phases, List.mem_cons, List.not_mem_nil, or_false] at listed
    rcases listed with phase | phase <;> simp [phase, SubmissionPhase.Allocating]
  have clearing : v.stops[0]? = some (.clearing .forced .empty) := by simp [stops]
  have stopped : w.stops[0]? = some (.done ⟨[⟨1, 0, 0⟩], []⟩) := by simp [done]
  have ended : w.Ended :=
    ended_of_map (by simp [answered]) (by simp [done, Stopping.report?])
  have absorbed : Absorbed v w _ := (shutdown_absorbs made run rest).1 up
  have wiped := (absorbed.forgotten 0 _ _ idle clearing trivial stopped).1
  exact ⟨_, _, _, v, w, made, run, rest, by simp [history], up, idle, clearing, absorbed, answers,
    wiped, ended, fun x more => (shutdown_absorbs made (run_of_parts run rest) more).2 ended⟩

/-- A configuration with a thread name that no thread can have. -/
def unnamed : Config := { tiny 2 1 with threadName := "a\x00b" }

/-- The dispatcher that is created from it. -/
def nameless : Dispatcher Parcel := { newborn 2 1 with config := unnamed }

/-- A submission that a stop fell into is to start a lane, and panics. -/
theorem late_submission_panics : ∃ (d : Dispatcher Parcel) (acts more : List (Act Unit))
    (v w : World Unit), Dispatcher.create unnamed 1 = .ok d ∧ (fresh d ⟨0⟩).run acts = some v ∧
      v.run more = some w ∧ .evicted 1 0 ∈ v.history ∧ v.dispatcher.shutdown = true ∧
      v.submissions.map (·.phase) = [.done ⟨.unnameable, []⟩, .seeking none 1] ∧
      v.stops = [.visiting .graceful 0 .empty] ∧ w.stops = [.done ⟨[], []⟩] ∧
      ∃ s : Submission Parcel, w.submissions[1]? = some s ∧ s.key = 2 ∧
        s.phase = .done ⟨.unnameable, []⟩ ∧ s.phase ≠ .done ⟨.refused (.rejected 2), []⟩ := by
  obtain ⟨a₁, a₂, -, -, found₁, quiet₁, found₂, gone₂, -⟩ := crowded_lookUps Unit
  have made : Dispatcher.create unnamed 1 = .ok nameless := rfl
  have one : (fresh nameless ⟨0⟩).run (Act.submit 1 false :: List.replicate 4 (Act.advance 0)) =
      some (oneEnded unnamed a₁ none .unnameable [.rejected 0]) :=
    (run_submit (w := fresh nameless ⟨0⟩) 1 rfl rfl found₁ quiet₁ _).trans (by cbv)
  have two := run_submit (w := oneEnded unnamed a₁ none .unnameable [.rejected 0]) 2 rfl rfl
    found₂ gone₂ []
  have whole : (((oneEnded unnamed a₁ none .unnameable [.rejected 0]).lookedUp 2 1 a₂
      [.evicted 1 0]).run [Act.stop .graceful, Act.advanceStop 0]).bind (fun v : World Unit =>
        (v.run (List.replicate 2 (Act.advance 1) ++ List.replicate 4 (Act.advanceStop 0))).map
          fun w => (v.history, v.dispatcher.shutdown, v.submissions.map (·.phase), v.stops,
            w.stops, w.submissions[1]?.map fun s => (s.key, s.phase))) =
      some ([.resolved 0 1 0, .rejected 0, .resolved 1 2 1, .evicted 1 0, .raised 0 .graceful],
        true, [.done ⟨.unnameable, []⟩, .seeking none 1], [.visiting .graceful 0 .empty],
        [.done ⟨[], []⟩], some (2, .done ⟨.unnameable, []⟩)) := by cbv
  obtain ⟨v, run, seen⟩ := Option.bind_eq_some_iff.1 whole
  obtain ⟨w, rest, seen⟩ := Option.map_eq_some_iff.1 seen
  obtain ⟨history, seen⟩ := Prod.mk.inj seen
  obtain ⟨up, seen⟩ := Prod.mk.inj seen
  obtain ⟨phases, seen⟩ := Prod.mk.inj seen
  obtain ⟨stops, seen⟩ := Prod.mk.inj seen
  obtain ⟨done, seen⟩ := Prod.mk.inj seen
  obtain ⟨s, there, seen⟩ := Option.map_eq_some_iff.1 seen
  obtain ⟨key, phase⟩ := Prod.mk.inj seen
  exact ⟨_, _, _, v, w, made, run_of_parts one (run_of_parts two run), rest, by simp [history],
    up, phases, stops, done, s, there, key, phase, by simp [phase]⟩

end World

end OrderedLanes
