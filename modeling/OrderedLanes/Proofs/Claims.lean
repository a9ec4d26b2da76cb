import OrderedLanes.Interleaving.Race
import OrderedLanes.Proofs.LaneMoves
import OrderedLanes.Proofs.Moves

/-!
A submission and the lane that it started, seen alone. The lane is installed, or it
is beaten by another one; then its submission halts it and lets it go. All the while
nobody gives it a task, so all that its worker can do is to leave when it is closed.
-/

namespace OrderedLanes

/-! ### A lane that nobody uses -/

namespace Lane

variable {α V : Type} {i : LaneIndex} {l : Lane α}

/-- A lane that never had a task. Its worker waits, or has left because the lane is closed. -/
structure Unused (i : LaneIndex) (l : Lane α) : Prop where
  index : l.index = i
  empty : l.queue = []
  worker : l.worker = .idle ∨ l.worker = .exited none ∧ l.accepting = false

/-- Nothing is left to do for whoever halts the lane. -/
structure Halted (l : Lane α) : Prop where
  stage : l.stage = .halted
  interrupted : l.interrupted = true
  closed : l.accepting = false

theorem unused_start (i : LaneIndex) : (start i : Lane α).Unused i := ⟨rfl, rfl, .inl rfl⟩

/-- All that the worker of an unused lane can do is to leave, once the lane is closed. -/
theorem Unused.work (h : l.Unused i) {a : LaneAct α V} {v : LaneWorld α} (mine : a.byWorker = true)
    (act : (⟨l, [], []⟩ : LaneWorld α).step a = some v) :
    l.accepting = false ∧ v.lane = l.leave none ∧ v.log = [.left none] := by
  have waits : ∀ task, l.worker ≠ .holding task ∧ l.worker ≠ .busy task := fun task => by
    rcases h.worker with idle | ⟨gone, -⟩ <;> simp [*]
  cases LaneWorld.move_of_step act with
  | take task queue idle next => cases h.empty.symm.trans next
  | leave idle empty closed => exact ⟨closed, rfl, rfl⟩
  | start panic task holding free => exact absurd holding (waits task).1
  | abandon panic task holding interrupted => exact absurd holding (waits task).1
  | survive ending woken task busy => exact absurd busy (waits task).2
  | die ending woken task panic busy => exact absurd busy (waits task).2
  | _ => cases mine

end Lane

namespace Closing

variable {α : Type} {i : LaneIndex} {l : Lane α} {c : Closing α}

/-- What a submission has done so far to halt an unused lane. -/
def Halts (l : Lane α) : Closing α → Prop
  | .marking kind => kind = .forced ∧ l.stage = .running ∧ l.accepting = true
  | .looking kind => kind = .forced ∧ l.stage = .halted ∧ l.accepting = true
  | .interrupting error => error = none ∧ l.stage = .halted
  | .sealing kind error =>
    kind = .forced ∧ error = none ∧ l.stage = .halted ∧ l.interrupted = true
  | .draining error drained => error = none ∧ drained = [] ∧ l.Halted
  | .done report => report = .empty ∧ l.Halted

/-- The accesses of a submission until it has halted its lane and lets it go. -/
def left : Closing α → Nat
  | .marking _ => 6
  | .looking _ => 5
  | .interrupting _ => 4
  | .sealing .. => 3
  | .draining .. => 2
  | .done _ => 1

/-- The next access leaves the lane unused and comes closer to the end. -/
theorem Halts.step (h : c.Halts l) (unused : l.Unused i) (unfinished : ∀ report, c ≠ .done report) :
    (c.step l).1.Halts (c.step l).2 ∧ (c.step l).2.Unused i ∧ (c.step l).1.left + 1 = c.left := by
  obtain ⟨index, empty, worker⟩ := unused
  cases c with
  | marking kind =>
    obtain ⟨rfl, stage, accepting⟩ := h
    simp only [Closing.step, stage]
    exact ⟨⟨rfl, rfl, accepting⟩, ⟨index, empty, worker⟩, rfl⟩
  | looking kind =>
    obtain ⟨rfl, stage, accepting⟩ := h
    have idle : l.worker = .idle := by simpa [accepting] using worker
    have there : l.exitedEarly = none := by simp [Lane.exitedEarly, Lane.isFinished, idle]
    exact ⟨⟨there, stage⟩, ⟨index, empty, worker⟩, rfl⟩
  | interrupting error =>
    obtain ⟨rfl, stage⟩ := h
    exact ⟨⟨rfl, rfl, stage, rfl⟩, ⟨index, empty, worker⟩, rfl⟩
  | sealing kind error =>
    obtain ⟨rfl, rfl, stage, interrupted⟩ := h
    exact ⟨⟨rfl, rfl, stage, interrupted, rfl⟩,
      ⟨index, empty, worker.imp_right fun gone => ⟨gone.1, rfl⟩⟩, rfl⟩
  | draining error drained =>
    obtain ⟨rfl, rfl, halted⟩ := h
    simp only [Closing.step, empty]
    exact ⟨⟨rfl, halted⟩, ⟨index, empty, worker⟩, rfl⟩
  | done report => exact absurd rfl (unfinished report)

theorem left_pos (c : Closing α) : 0 < c.left := by
  cases c <;> simp [left]

theorem left_le (c : Closing α) : c.left ≤ 6 := by
  cases c <;> simp [left]

/-- That the worker leaves is no hindrance. -/
theorem Halts.leave (h : c.Halts l) : c.Halts (l.leave none) := by
  cases c with
  | draining error drained => exact ⟨h.1, h.2.1, ⟨h.2.2.stage, h.2.2.interrupted, h.2.2.closed⟩⟩
  | done report => exact ⟨h.1, ⟨h.2.stage, h.2.interrupted, h.2.closed⟩⟩
  | _ => exact h

end Closing

theorem Lane.Unused.leave {α : Type} {i : LaneIndex} {l : Lane α} (h : l.Unused i)
    (closed : l.accepting = false) : (l.leave none).Unused i :=
  ⟨h.index, h.empty, .inr ⟨rfl, closed⟩⟩

/-! ### What a submission has to do with a lane of its own -/

/-- The submission has come past the point where it gets a lane. -/
def SubmissionPhase.past {α : Type} : SubmissionPhase α → Prop
  | .rechecking .. | .choosing _ | .retiring .. | .queueing .. | .done _ => True
  | _ => False

theorem SubmissionPhase.own?_of_past {α : Type} {p : SubmissionPhase α} (h : p.past) :
    p.own? = none := by
  cases p <;> first | rfl | cases h

/-- The accesses of a submission until it has no lane in hand. -/
def SubmissionPhase.left {α : Type} : SubmissionPhase α → Nat
  | .installing .. => 7
  | .yielding _ _ _ c => c.left
  | _ => 0

theorem SubmissionPhase.left_of_unheld {α : Type} {p : SubmissionPhase α} (h : p.own? = none) :
    p.left = 0 := by
  cases p <;> first | rfl | cases h

theorem SubmissionPhase.left_le {α : Type} (p : SubmissionPhase α) : p.left ≤ 7 := by
  cases p with
  | yielding stamp i own c => exact Nat.le_succ_of_le c.left_le
  | installing => exact Nat.le_refl 7
  | _ => exact Nat.zero_le 7

theorem SubmissionPhase.own?_of_left {α : Type} {p : SubmissionPhase α} (h : p.left = 0) :
    p.own? = none := by
  cases p with
  | installing => cases h
  | yielding stamp i own c => exact absurd h (Nat.ne_of_gt c.left_pos)
  | _ => rfl

theorem SubmissionPhase.left_setOwn {α : Type} (p : SubmissionPhase α) (l : Lane α) :
    (p.setOwn l).left = p.left := by
  cases p <;> rfl

/-- A submission seen alone, with the lane that it let go. -/
structure Claim where
  phase : Option (SubmissionPhase Parcel)
  released : Option (Lane Parcel)

namespace Claim

/--
What can happen to it by an access of its own or by others, what the log says about it, and what
the worker of the lane does in it.
-/
inductive Step : Bool → Claim → List LaneFate → List (LaneNews Parcel) → Claim → Prop
  | rest (c : Claim) : Step false c [] [] c
  | pass (own : Bool) (p p' : Option (SubmissionPhase Parcel)) (l : Option (Lane Parcel))
      (unheld : ∀ q ∈ p, q.own? = none) (unheld' : ∀ q ∈ p', q.own? = none)
      (past : ∀ q ∈ p, q.past → ∃ q' ∈ p', q'.past) : Step own ⟨p, l⟩ [] [] ⟨p', l⟩
  | start (stamp : Option Stamp) (i : LaneIndex) (l : Option (Lane Parcel)) :
      Step true ⟨some (.starting stamp i), l⟩ [.started i] []
        ⟨some (.installing stamp i (Lane.start i)), l⟩
  | install (stamp : Option Stamp) (i : LaneIndex) (own : Lane Parcel) (l : Option (Lane Parcel)) :
      Step true ⟨some (.installing stamp i own), l⟩ [.installed i] []
        ⟨some (.rechecking stamp i), l⟩
  | lose (stamp : Option Stamp) (i : LaneIndex) (own : Lane Parcel) (l : Option (Lane Parcel)) :
      Step true ⟨some (.installing stamp i own), l⟩ [.beaten i] []
        ⟨some (.yielding stamp i own (.marking .forced)), l⟩
  | halt (stamp : Option Stamp) (i : LaneIndex) (own : Lane Parcel) (c : Closing Parcel)
      (l : Option (Lane Parcel)) (unfinished : ∀ report, c ≠ .done report) :
      Step true ⟨some (.yielding stamp i own c), l⟩ [] []
        ⟨some (.yielding stamp i (c.step own).2 (c.step own).1), l⟩
  | release (stamp : Option Stamp) (i : LaneIndex) (own : Lane Parcel)
      (report : StopReport Parcel) (l : Option (Lane Parcel)) :
      Step true ⟨some (.yielding stamp i own (.done report)), l⟩ [.released i] []
        ⟨some (.rechecking stamp i), some own⟩
  | workHeld {V : Type} (p : SubmissionPhase Parcel) (own : Lane Parcel) (l : Option (Lane Parcel))
      (a : LaneAct Parcel V) (v : LaneWorld Parcel) (held : p.own? = some own)
      (mine : a.byWorker = true) (act : (⟨own, [], []⟩ : LaneWorld Parcel).step a = some v) :
      Step false ⟨some p, l⟩ [] v.log ⟨some (p.setOwn v.lane), l⟩
  | workReleased {V : Type} (p : Option (SubmissionPhase Parcel)) (l : Lane Parcel)
      (a : LaneAct Parcel V) (v : LaneWorld Parcel) (unheld : ∀ q ∈ p, q.own? = none)
      (mine : a.byWorker = true) (act : (⟨l, [], []⟩ : LaneWorld Parcel).step a = some v) :
      Step false ⟨p, some l⟩ [] v.log ⟨p, some v.lane⟩

/-- A submission comes past the installation of its lane only by installing it. -/
theorem Step.installs {c c' : Claim} {news : List LaneFate} {labour : List (LaneNews Parcel)}
    {stamp : Option Stamp} {i : LaneIndex} {own : Lane Parcel} {b : Bool}
    (step : Step b c news labour c')
    (before : c.phase = some (.installing stamp i own))
    (after : c'.phase = some (.rechecking stamp i)) : news = [.installed i] := by
  cases step with
  | install => cases before; rfl
  | pass b p p' l unheld => cases unheld _ before
  | rest => cases before.symm.trans after
  | _ => cases before <;> cases after

/-- The lane that the submission has in hand. -/
def held? (c : Claim) : Option (Lane Parcel) := c.phase.bind SubmissionPhase.own?

/-- The accesses of the submission until it has no lane in hand. -/
def left (c : Claim) : Nat := c.phase.elim 0 SubmissionPhase.left

theorem left_le (c : Claim) : c.left ≤ 7 := by
  obtain ⟨_ | p, l⟩ := c
  · exact Nat.zero_le 7
  · exact p.left_le

theorem held?_of_left {c : Claim} (h : c.left = 0) : c.held? = none := by
  obtain ⟨_ | p, l⟩ := c
  · rfl
  · exact SubmissionPhase.own?_of_left h

/-- What the log says about a submission so far, and how the submission stands. -/
inductive Told : Claim → List LaneFate → Prop
  | unstarted (p : Option (SubmissionPhase Parcel)) (unheld : ∀ q ∈ p, q.own? = none) :
      Told ⟨p, none⟩ []
  | started (stamp : Option Stamp) (i : LaneIndex) :
      Told ⟨some (.installing stamp i (Lane.start i)), none⟩ [.started i]
  | installed (p : SubmissionPhase Parcel) (i : LaneIndex) (past : p.past) :
      Told ⟨some p, none⟩ [.started i, .installed i]
  | beaten (stamp : Option Stamp) (i : LaneIndex) (own : Lane Parcel) (c : Closing Parcel)
      (unused : own.Unused i) (halts : c.Halts own) :
      Told ⟨some (.yielding stamp i own c), none⟩ [.started i, .beaten i]
  | released (p : SubmissionPhase Parcel) (i : LaneIndex) (l : Lane Parcel) (past : p.past)
      (unused : l.Unused i) (halted : l.Halted) :
      Told ⟨some p, some l⟩ [.started i, .beaten i, .released i]

/-- Whoever has a lane in hand has started it, and may have been beaten. -/
theorem Told.holding {p : SubmissionPhase Parcel} {own : Lane Parcel} {l : Option (Lane Parcel)}
    {fates : List LaneFate} (h : Told ⟨some p, l⟩ fates) (held : p.own? = some own) :
    l = none ∧ ∃ stamp i,
      (p = .installing stamp i (Lane.start i) ∧ own = Lane.start i ∧ fates = [.started i]) ∨
      ∃ c, p = .yielding stamp i own c ∧ own.Unused i ∧ c.Halts own ∧
        fates = [.started i, .beaten i] := by
  cases h with
  | unstarted _ unheld => cases (unheld p rfl).symm.trans held
  | started stamp i =>
    obtain rfl := Option.some.inj held
    exact ⟨rfl, stamp, i, .inl ⟨rfl, rfl, rfl⟩⟩
  | beaten stamp i _ c unused halts =>
    obtain rfl := Option.some.inj held
    exact ⟨rfl, stamp, i, .inr ⟨c, rfl, unused, halts, rfl⟩⟩
  | installed _ _ past => cases (SubmissionPhase.own?_of_past past).symm.trans held
  | released _ _ _ past => cases (SubmissionPhase.own?_of_past past).symm.trans held

/-- A submission starts one lane at most, which is installed or let go. -/
theorem Told.stories {c : Claim} {fates : List LaneFate} {i : LaneIndex} (h : c.Told fates)
    (started : .started i ∈ fates) :
    fates = [.started i] ∨ fates = [.started i, .installed i] ∨ fates = [.started i, .beaten i] ∨
      fates = [.started i, .beaten i, .released i] := by
  cases h <;> simp_all

theorem Told.started_of_installed {c : Claim} {fates : List LaneFate} {i : LaneIndex}
    (h : c.Told fates) (installed : .installed i ∈ fates) : .started i ∈ fates := by
  cases h <;> simp_all

/-- A lane that was not installed is in hand or let go, and is unused. -/
theorem Told.spare {c : Claim} {fates : List LaneFate} {i : LaneIndex} (h : c.Told fates)
    (started : .started i ∈ fates) (other : .installed i ∉ fates) :
    ∃ l, c.held?.or c.released = some l ∧ l.Unused i ∧ (.beaten i ∉ fates → l = Lane.start i) ∧
      (c.held? = none → c.released = some l ∧ l.Halted) := by
  cases h with
  | unstarted => cases started
  | started stamp j =>
    obtain rfl : i = j := by simpa using started
    exact ⟨_, rfl, Lane.unused_start i, fun _ => rfl, fun free => by cases free⟩
  | installed p j past =>
    obtain rfl : i = j := by simpa using started
    simp at other
  | beaten stamp j own c unused halts =>
    obtain rfl : i = j := by simpa using started
    exact ⟨own, rfl, unused, by simp, fun free => by cases free⟩
  | released p j l past unused halted =>
    obtain rfl : i = j := by simpa using started
    have none : (⟨some p, some l⟩ : Claim).held? = none := SubmissionPhase.own?_of_past past
    exact ⟨l, by rw [none]; rfl, unused, by simp, fun _ => ⟨rfl, halted⟩⟩

/-- The log goes on telling what happens, and no worker of such a lane runs anything. -/
theorem Told.step {c c' : Claim} {fates news : List LaneFate} {labour : List (LaneNews Parcel)}
    {own : Bool} (h : c.Told fates) (step : Step own c news labour c') :
    c'.Told (fates ++ news) ∧ ∀ x ∈ labour, x = .left none := by
  cases step with
  | rest => exact ⟨by simpa using h, by simp⟩
  | pass own p p' l unheld unheld' past =>
    refine ⟨?_, by simp⟩
    rw [List.append_nil]
    cases h with
    | unstarted => exact .unstarted p' unheld'
    | installed q i gone =>
      obtain ⟨q', rfl, gone'⟩ := past q rfl gone
      exact .installed q' i gone'
    | released q i l gone unused halted =>
      obtain ⟨q', rfl, gone'⟩ := past q rfl gone
      exact .released q' i l gone' unused halted
    | started stamp i => cases unheld _ rfl
    | beaten stamp i own c => cases unheld _ rfl
  | start stamp i l =>
    cases h with
    | unstarted => exact ⟨.started stamp i, by simp⟩
    | installed _ _ past => cases past
    | released _ _ _ past => cases past
  | install stamp i own l =>
    obtain ⟨rfl, _, _, ⟨⟨⟩, -, rfl⟩ | ⟨_, ⟨⟩, -⟩⟩ := h.holding rfl
    exact ⟨.installed _ i trivial, by simp⟩
  | lose stamp i own l =>
    obtain ⟨rfl, _, _, ⟨⟨⟩, -, rfl⟩ | ⟨_, ⟨⟩, -⟩⟩ := h.holding rfl
    exact ⟨.beaten stamp i _ _ (Lane.unused_start i) ⟨rfl, rfl, rfl⟩, by simp⟩
  | halt stamp i own c l unfinished =>
    obtain ⟨rfl, _, _, ⟨⟨⟩, -⟩ | ⟨_, ⟨⟩, unused, halts, rfl⟩⟩ := h.holding rfl
    obtain ⟨halts', unused', -⟩ := halts.step unused unfinished
    exact ⟨.beaten stamp i _ _ unused' halts', by simp⟩
  | release stamp i own report l =>
    obtain ⟨rfl, _, _, ⟨⟨⟩, -⟩ | ⟨_, ⟨⟩, unused, halts, rfl⟩⟩ := h.holding rfl
    exact ⟨.released _ i own trivial unused halts.2, by simp⟩
  | workHeld p own l a v held mine act =>
    obtain ⟨rfl, stamp, i, ⟨rfl, rfl, rfl⟩ | ⟨c, rfl, unused, halts, rfl⟩⟩ := h.holding held
    · -- The worker of a lane that nobody has closed waits.
      cases ((Lane.unused_start i).work mine act).1
    · obtain ⟨closed, lane, log⟩ := unused.work mine act
      rw [lane, log, List.append_nil]
      exact ⟨.beaten stamp i _ c (unused.leave closed) halts.leave, by simp⟩
  | workReleased p l a v unheld mine act =>
    cases h with
    | released q i _ past unused halted =>
      obtain ⟨closed, lane, log⟩ := unused.work mine act
      rw [lane, log, List.append_nil]
      exact ⟨.released q i _ past (unused.leave closed)
        ⟨halted.stage, halted.interrupted, halted.closed⟩, by simp⟩

/-- Once a lane was started, each access of the submission comes closer to the end. -/
theorem Told.left_step {c c' : Claim} {fates news : List LaneFate}
    {labour : List (LaneNews Parcel)} {own : Bool} (h : c.Told fates) (begun : fates ≠ [])
    (step : Step own c news labour c') : c'.left ≤ c.left - own.toNat := by
  cases step with
  | rest => exact Nat.le_refl _
  | pass own p p' l unheld unheld' past =>
    have none : (⟨p', l⟩ : Claim).left = 0 := by
      cases p' with
      | none => rfl
      | some q => exact SubmissionPhase.left_of_unheld (unheld' q rfl)
    exact none ▸ Nat.zero_le _
  | start stamp i l =>
    cases h with
    | unstarted => exact absurd rfl begun
    | installed _ _ past => cases past
    | released _ _ _ past => cases past
  | install => exact Nat.zero_le _
  | lose => exact Nat.le_refl 6
  | halt stamp i own c l unfinished =>
    obtain ⟨rfl, _, _, ⟨⟨⟩, -⟩ | ⟨_, ⟨⟩, unused, halts, rfl⟩⟩ := h.holding rfl
    exact Nat.le_sub_of_add_le (Nat.le_of_eq (halts.step unused unfinished).2.2)
  | release => exact Nat.zero_le _
  | workHeld p own l a v held => exact Nat.le_of_eq (p.left_setOwn v.lane)
  | workReleased => exact Nat.le_refl _

end Claim

/-! ### One access -/

/-- What an access of a submission does to the lane that it has in hand, and to the slot. -/
inductive OwnStep (d d' : Dispatcher Parcel) :
    SubmissionPhase Parcel → SubmissionPhase Parcel → Prop
  | pass (p p' : SubmissionPhase Parcel) (unheld : p.own? = none) (unheld' : p'.own? = none)
      (past : p.past → p'.past) : OwnStep d d' p p'
  | start (stamp : Option Stamp) (i : LaneIndex) :
      OwnStep d d' (.starting stamp i) (.installing stamp i (Lane.start i))
  | install (stamp : Option Stamp) (i : LaneIndex) (own : Lane Parcel)
      (empty : d.lane? own.index = none) (after : d' = d.setLane own.index own) :
      OwnStep d d' (.installing stamp i own) (.rechecking stamp i)
  | lose (stamp : Option Stamp) (i : LaneIndex) (own : Lane Parcel)
      (filled : (d.lane? own.index).isSome) :
      OwnStep d d' (.installing stamp i own) (.yielding stamp i own (.marking .forced))
  | halt (stamp : Option Stamp) (i : LaneIndex) (own : Lane Parcel) (c : Closing Parcel)
      (unfinished : ∀ report, c ≠ .done report) :
      OwnStep d d' (.yielding stamp i own c) (.yielding stamp i (c.step own).2 (c.step own).1)
  | release (stamp : Option Stamp) (i : LaneIndex) (own : Lane Parcel)
      (report : StopReport Parcel) :
      OwnStep d d' (.yielding stamp i own (.done report)) (.rechecking stamp i)

theorem Submission.ownStep (s : Submission Parcel) (d : Dispatcher Parcel) :
    OwnStep d (s.step d).value.2 s.phase (s.step d).value.1.phase := by
  obtain ⟨key, task, phase⟩ := s
  cases phase with
  | entering => cases up : d.shutdown <;> simp only [step, up] <;> exact .pass _ _ rfl rfl False.elim
  | stamping => exact .pass _ _ rfl rfl False.elim
  | admitting stamp =>
    cases up : d.shutdown <;> simp only [step, up] <;> exact .pass _ _ rfl rfl False.elim
  | resolving stamp => exact .pass _ _ rfl rfl False.elim
  | seeking stamp i =>
    cases found : d.lane? i <;> simp only [step, found] <;> exact .pass _ _ rfl rfl False.elim
  | starting stamp i =>
    simp only [step]
    split
    · exact .start stamp i
    · exact .pass _ _ rfl rfl False.elim
  | installing stamp i own =>
    cases found : d.lane? own.index with
    | none =>
      simp only [step, d.install_of_empty own found]
      exact .install stamp i own found rfl
    | some l =>
      have taken : d.install own = none := by simp [Dispatcher.install, found]
      simp only [step, taken]
      exact .lose stamp i own (by simp [found])
  | yielding stamp i own c =>
    cases c with
    | done report => exact .release stamp i own report
    | _ => exact .halt stamp i own _ (by simp)
  | rechecking stamp i =>
    simp only [step]
    cases up : d.shutdown <;> exact .pass _ _ rfl rfl fun _ => trivial
  | choosing i => exact .pass _ _ rfl rfl fun _ => trivial
  | retiring i c =>
    cases c with
    | done report => exact .pass _ _ rfl rfl fun _ => trivial
    | _ =>
      cases found : d.lane? i <;> simp only [step, found] <;>
        exact .pass _ _ rfl rfl fun _ => trivial
  | queueing stamp i =>
    cases queued : (d.lane? i).bind (Lane.enqueue · (task i stamp)) <;>
      simp only [step, queued] <;> exact .pass _ _ rfl rfl fun _ => trivial
  | done submitted => exact .pass _ _ rfl rfl fun _ => trivial

namespace World

variable {V : Type} {w w' : World V}

theorem claim_rest (l : Option (Lane Parcel)) {t : Ticket}
    (same : w'.submissions[t]? = w.submissions[t]?) :
    Claim.Step false ⟨w.submissions[t]?.map Submission.phase, l⟩ [] []
      ⟨w'.submissions[t]?.map Submission.phase, l⟩ := by
  rw [same]
  exact .rest _

/-- Where no submission goes on, none gets a lane in hand and none loses one. -/
theorem Move.claim {a : Act V} (m : Move w w' a) (other : ∀ t, a ≠ .advance t)
    (l : Option (Lane Parcel)) (t : Ticket) :
    Claim.Step false ⟨w.submissions[t]?.map Submission.phase, l⟩ [] []
      ⟨w'.submissions[t]?.map Submission.phase, l⟩ := by
  cases m with
  | begin a key stamped submissions stops dispatcher =>
    cases was : w.submissions[t]? with
    | some s =>
      rw [submissions, getElem?_snoc_there was]
      exact .rest _
    | none =>
      refine .pass _ _ _ l (by simp) ?_ (by simp)
      intro p begun
      obtain ⟨s, there, rfl⟩ := Option.map_eq_some_iff.1 begun
      rw [submissions] at there
      rcases getElem?_snoc_cases there with ⟨-, rfl⟩ | old
      · cases stamped <;> rfl
      · cases was.symm.trans old
  | advance u => exact absurd rfl (other u)
  | refuseThread u source s stamp i there phase submissions stops dispatcher =>
    rw [submissions]
    rcases eq_or_ne t u with rfl | apart
    · rw [getElem?_set_there there, there, Option.map_some, Option.map_some, phase]
      exact .pass _ _ _ l (by rintro _ ⟨⟩; rfl) (by rintro _ ⟨⟩; rfl) (by rintro _ ⟨⟩ ⟨⟩)
    · rw [List.getElem?_set_ne apart.symm]
      exact .rest _
  | beginStop kind submissions => exact claim_rest l (by rw [submissions])
  | drawStamp key submissions => exact claim_rest l (by rw [submissions])
  | advanceStop n s there submissions => exact claim_rest l (by rw [submissions])
  | rest a same => exact claim_rest l (by rw [same.submissions])

end World

end OrderedLanes
