import OrderedLanes.Proofs.DirectCalls

/-!
Which lanes are started. Where submissions are made one at a time, a lane is first
chosen when every lane before it has a key, so it is the next one in order: the
lanes started are the first few, and never more than one beyond the keys that fit.
-/

namespace OrderedLanes

/-! ### The choice of a lane -/

namespace Roll

variable {lanes : Nat} {pairs : List (Key × LaneIndex)} {r : Roll} {i j : LaneIndex}

/-- Every lane before the chosen one has more keys. -/
theorem load_lt_of_lt_leastLoaded (any : 0 < lanes) (before : j < leastLoaded lanes pairs) :
    load pairs (leastLoaded lanes pairs) < load pairs j := by
  obtain ⟨within, least⟩ := leastLoaded_spec any pairs
  by_contra few
  have same : load pairs j = load pairs (leastLoaded lanes pairs) :=
    Nat.le_antisymm (Nat.le_of_not_lt few) (least j (before.trans within))
  -- The first lane with so few keys would have been chosen.
  have some : ∃ k, load pairs k = load pairs (leastLoaded lanes pairs) := ⟨j, same⟩
  have early : Nat.find some ≤ j := Nat.find_min' some same
  have chosen : leastLoaded lanes pairs = Nat.find some := by
    refine leastLoaded_eq (early.trans_lt (before.trans within)) fun k hk => ?_
    rw [Nat.find_spec some]
    rcases Nat.lt_or_ge k (Nat.find some) with first | later
    · exact .inl (Nat.lt_of_le_of_ne (least k hk) (Ne.symm (Nat.find_min some first)))
    · exact (Nat.lt_or_eq_of_le (least k hk)).imp_right fun equal => ⟨equal, later⟩
  exact absurd (chosen ▸ early) (Nat.not_le_of_lt before)

theorem exists_key_of_lt_leastLoaded (any : 0 < lanes) (before : j < leastLoaded lanes pairs) :
    ∃ key, (key, j) ∈ pairs := by
  have some : 0 < load pairs j := Nat.zero_lt_of_lt (load_lt_of_lt_leastLoaded any before)
  obtain ⟨⟨key, i⟩, there, here⟩ := List.countP_pos_iff.1 some
  obtain rfl : i = j := by simpa using here
  exact ⟨key, there⟩

/-- There are no more lanes before the chosen one than there are keys. -/
theorem leastLoaded_le_length (any : 0 < lanes) : leastLoaded lanes pairs ≤ pairs.length := by
  have listed : List.range (leastLoaded lanes pairs) ⊆ pairs.map Prod.snd := by
    intro j before
    obtain ⟨key, there⟩ := exists_key_of_lt_leastLoaded any (List.mem_range.1 before)
    exact List.mem_map_of_mem there
  simpa using (List.subperm_of_subset List.nodup_range listed).length_le

/-- A key is resolved to the lane it has, or to the one that is chosen. -/
theorem Fit.answer_cases (h : r.Fit) (key : Key) :
    (key, (r.resolve key).value.1) ∈ r.pairs ∨
      (r.resolve key).value.1 = leastLoaded r.lanes r.pairs := by
  cases h.resolving key with
  | hit lane there result => exact .inl (result ▸ there)
  | room absent room result => exact .inr (by rw [result]; rfl)
  | full front last split absent full result => exact .inr (by rw [result]; rfl)

/-- Resolving a key brings in no other one. -/
theorem Fit.mem_resolve (h : r.Fit) {key : Key} {x : Key × LaneIndex}
    (there : x ∈ (r.resolve key).value.2.pairs) :
    x ∈ r.pairs ∨ x = (key, (r.resolve key).value.1) := by
  cases h.resolving key with
  | hit lane listed result =>
    rw [result] at there
    exact .inl ((perm_toFront h.keys listed).mem_iff.2 there)
  | room absent room result =>
    rw [result] at there ⊢
    exact (List.mem_cons.1 there).symm
  | full front last split absent full result =>
    rw [result] at there ⊢
    refine (List.mem_cons.1 there).symm.imp_left fun old => ?_
    exact split ▸ List.mem_append_left _ old

end Roll

/-! ### Slots filled from the front -/

theorem isSome_iff_lt_length {α : Type} {slots : List (Option α)}
    (front : ∀ i j : Nat, j < i → (slots[i]?).join.isSome → (slots[j]?).join.isSome) (i : Nat) :
    (slots[i]?).join.isSome ↔ i < (slots.filterMap id).length := by
  induction slots generalizing i with
  | nil => simp
  | cons slot slots ih =>
    have rest : ∀ i j : Nat, j < i → (slots[i]?).join.isSome → (slots[j]?).join.isSome :=
      fun i j before filled => front (i + 1) (j + 1) (Nat.succ_lt_succ before) filled
    cases slot with
    | some a =>
      cases i with
      | zero => simp
      | succ i => simpa using ih rest i
    | none =>
      have bare : ∀ i : Nat, ¬ (slots[i]?).join.isSome := by
        intro i filled
        have first := front (i + 1) 0 (Nat.succ_pos i) filled
        simp at first
      have empty : ((none :: slots).filterMap id).length = 0 :=
        Nat.eq_zero_of_not_pos ((ih rest 0).not.1 (bare 0))
      rw [empty]
      cases i with
      | zero => simp
      | succ i => exact iff_of_false (bare i) (Nat.not_lt_zero _)

/-- The lane that a submission was given and has not found or installed yet. -/
def SubmissionPhase.bringing? {α : Type} : SubmissionPhase α → Option LaneIndex
  | .seeking _ i | .starting _ i | .installing _ i _ => some i
  | _ => none

namespace Dispatcher

variable {α : Type} {d : Dispatcher α} {i j : LaneIndex} {l : Lane α}

/-- The lane was started and stands in its slot. -/
def Started (d : Dispatcher α) (i : LaneIndex) : Prop := (d.lane? i).isSome

theorem started_setLane (lane : d.lane? j = some l) (l' : Lane α) (i : LaneIndex) :
    (d.setLane j l').Started i ↔ d.Started i := by
  unfold Started
  rcases eq_or_ne j i with rfl | other
  · rw [lane?_setLane_self l' lane, lane]
    simp
  · rw [lane?_setLane_ne l' other]

theorem started_install (bound : j < d.laneCount) (l : Lane α) (i : LaneIndex) :
    (d.setLane j l).Started i ↔ j = i ∨ d.Started i := by
  unfold Started
  rw [lane?_setLane d j i l bound]
  split <;> simp [*]

end Dispatcher

namespace World

variable {V : Type} {d : Dispatcher Parcel} {w w' : World V} {t : Ticket}
  {s : Submission Parcel} {capacity : Nat}

/-- The lane that the last submission was given and has not found or installed yet. -/
def bringing? (w : World V) : Option LaneIndex :=
  w.submissions.getLast?.bind fun s => s.phase.bringing?

/-- Only the last submission may be under way. -/
def Alone (w : World V) : Prop :=
  ∀ (t : Ticket) (s : Submission Parcel), w.submissions[t]? = some s → s.answer? = none →
    t + 1 = w.submissions.length

/--
The lanes started are the first few. The assigned keys are on them, but for the lane that a
submission is about to start: the next one.
-/
structure InFront (capacity : Nat) (w : World V) : Prop where
  alone : w.Alone
  sound : AllSound w.submissions
  mirrored : ∃ r, w.dispatcher.allocator.Mirrors r ∧ r.lanes = w.dispatcher.laneCount ∧
    r.capacity = capacity
  front : ∀ i j, j < i → w.dispatcher.Started i → w.dispatcher.Started j
  low : ∀ i, w.dispatcher.Started i → i ≤ capacity
  housed : ∀ key i, w.dispatcher.allocator.assignment key = some i →
    w.dispatcher.Started i ∨ w.bringing? = some i
  next : ∀ i, w.bringing? = some i →
    i < w.dispatcher.laneCount ∧ i ≤ capacity ∧ ∀ j < i, w.dispatcher.Started j

theorem bringing_of_last (there : w.submissions[t]? = some s)
    (last : t + 1 = w.submissions.length) : w.bringing? = s.phase.bringing? := by
  rw [bringing?, getLast?_of_last there last, Option.bind_some]

/-- Nothing is on its way while the last submission has ended. -/
theorem bringing_of_ended (ended : ∀ s ∈ w.submissions, s.answer?.isSome) :
    w.bringing? = none := by
  rw [bringing?, Option.bind_eq_none_iff]
  intro s last
  have done := ended s (List.mem_of_getLast? last)
  obtain ⟨key, task, phase⟩ := s
  cases phase <;> first | rfl | cases done

theorem Alone.set (h : w.Alone) {s' : Submission Parcel} (last : t + 1 = w.submissions.length)
    (submissions : w'.submissions = w.submissions.set t s') : w'.Alone := by
  intro u r there going
  rw [submissions] at there ⊢
  rw [List.length_set]
  rcases getElem?_set_cases there with ⟨rfl, rfl⟩ | ⟨-, old⟩
  · exact last
  · exact h u r old going

/-! ### One access -/

/-- No lane is started, no key is assigned, and at most what is on its way arrives. -/
structure Carried (w w' : World V) : Prop where
  alone : w'.Alone
  started : ∀ i, w'.dispatcher.Started i ↔ w.dispatcher.Started i
  assigned : ∀ key i, w'.dispatcher.allocator.assignment key = some i →
    w.dispatcher.allocator.assignment key = some i
  brought : w'.bringing? = w.bringing? ∨
    w'.bringing? = none ∧ ∀ i, w.bringing? = some i → w.dispatcher.Started i

theorem InFront.mirrored_calls (h : w.InFront capacity) (w' : World V) (cs : List Call)
    (allocator : w'.dispatcher.allocator = (w.dispatcher.allocator.calls cs).value.2)
    (slots : w'.dispatcher.laneCount = w.dispatcher.laneCount) :
    ∃ r, w'.dispatcher.allocator.Mirrors r ∧ r.lanes = w'.dispatcher.laneCount ∧
      r.capacity = capacity := by
  obtain ⟨r, mirrors, lanes, room⟩ := h.mirrored
  refine ⟨_, allocator ▸ (mirrors.calls cs).mirrors, ?_, ?_⟩
  · rw [Roll.lanes_calls, lanes, slots]
  · rw [Roll.capacity_calls, room]

theorem InFront.carry (h : w.InFront capacity) (m : Carried w w')
    (sound : AllSound w'.submissions) (cs : List Call)
    (allocator : w'.dispatcher.allocator = (w.dispatcher.allocator.calls cs).value.2)
    (slots : w'.dispatcher.laneCount = w.dispatcher.laneCount) : w'.InFront capacity := by
  refine ⟨m.alone, sound, h.mirrored_calls w' cs allocator slots, fun i j before filled => ?_,
    fun i filled => ?_, fun key i found => ?_, fun i coming => ?_⟩
  · rw [m.started] at filled ⊢
    exact h.front i j before filled
  · exact h.low i ((m.started i).1 filled)
  · rw [m.started]
    refine (h.housed key i (m.assigned key i found)).elim .inl fun coming => ?_
    rcases m.brought with same | ⟨-, arrived⟩
    · exact .inr (same.trans coming)
    · exact .inl (arrived i coming)
  · rcases m.brought with same | ⟨gone, -⟩
    · obtain ⟨bound, low, before⟩ := h.next i (same ▸ coming)
      exact ⟨slots ▸ bound, low, fun j first => (m.started j).2 (before j first)⟩
    · simp [gone] at coming

theorem InFront.carry_effect (h : w.InFront capacity) (e : Effect w w') (m : Carried w w') :
    w'.InFront capacity := by
  obtain ⟨cs, allocator⟩ := e.allocator_calls
  exact h.carry m (e.allSound h.sound) cs allocator e.laneCount

theorem InFront.rest (h : w.InFront capacity) (submissions : w'.submissions = w.submissions)
    (started : ∀ i, w'.dispatcher.Started i ↔ w.dispatcher.Started i)
    (assigned : ∀ key i, w'.dispatcher.allocator.assignment key = some i →
      w.dispatcher.allocator.assignment key = some i) : Carried w w' := by
  refine ⟨?_, started, assigned, .inl ?_⟩
  · rw [Alone, submissions]
    exact h.alone
  · rw [bringing?, bringing?, submissions]

/-- A submission goes on; the lane that it was given may have been there before. -/
theorem InFront.go (h : w.InFront capacity) {phase : SubmissionPhase Parcel}
    (there : w.submissions[t]? = some s) (going : s.answer? = none)
    (submissions : w'.submissions = w.submissions.set t (s.on phase))
    (started : ∀ i, w'.dispatcher.Started i ↔ w.dispatcher.Started i)
    (assigned : ∀ key i, w'.dispatcher.allocator.assignment key = some i →
      w.dispatcher.allocator.assignment key = some i)
    (brought : phase.bringing? = s.phase.bringing? ∨
      phase.bringing? = none ∧ ∀ i, s.phase.bringing? = some i → w.dispatcher.Started i) :
    Carried w w' := by
  have last := h.alone t s there going
  have there' : w'.submissions[t]? = some (s.on phase) := by
    rw [submissions]
    exact getElem?_set_there there _
  have last' : t + 1 = w'.submissions.length := by rw [submissions, List.length_set, last]
  refine ⟨h.alone.set last submissions, started, assigned, ?_⟩
  rw [bringing_of_last there last, bringing_of_last there' last']
  exact brought

theorem assignment_clear (a : Allocator) (key : Key) : a.clear.assignment key = none := by
  simp [Allocator.clear, Allocator.assignment]

theorem InFront.started_of_assigned (h : w.InFront capacity) (idle : w.bringing? = none)
    {r : Roll} (mirrors : w.dispatcher.allocator.Mirrors r) {key : Key} {i : LaneIndex}
    (listed : (key, i) ∈ r.pairs) : w.dispatcher.Started i := by
  have found : w.dispatcher.allocator.assignment key = some i := by
    rw [mirrors.assignment]
    exact Roll.lookup_of_mem mirrors.fit.keys listed
  exact (h.housed key i found).resolve_right (by simp [idle])

/-- The lane that a key is resolved to is there, or it is the next one. -/
theorem InFront.resolved (h : w.InFront capacity) (idle : w.bringing? = none) (key : Key) :
    (w.dispatcher.resolve key).value.1 < w.dispatcher.laneCount ∧
      (w.dispatcher.resolve key).value.1 ≤ capacity ∧
      ∀ j < (w.dispatcher.resolve key).value.1, w.dispatcher.Started j := by
  obtain ⟨r, mirrors, lanes, room⟩ := h.mirrored
  have answer : (w.dispatcher.resolve key).value.1 = (r.resolve key).value.1 :=
    (mirrors.resolve key).answer
  refine ⟨lanes ▸ mirrors.lane_lt key, ?_⟩
  rw [answer]
  rcases mirrors.fit.answer_cases key with listed | chosen
  · have started := h.started_of_assigned idle mirrors listed
    exact ⟨h.low _ started, fun j before => h.front _ j before started⟩
  · rw [chosen]
    refine ⟨room ▸ (Roll.leastLoaded_le_length mirrors.fit.lanes).trans mirrors.fit.fits,
      fun j before => ?_⟩
    obtain ⟨other, listed⟩ := Roll.exists_key_of_lt_leastLoaded mirrors.fit.lanes before
    exact h.started_of_assigned idle mirrors listed

theorem InFront.lookUp (h : w.InFront capacity) {stamp : Option Stamp}
    (there : w.submissions[t]? = some s) (phase : s.phase = .resolving stamp)
    (submissions : w'.submissions =
      w.submissions.set t (s.on (.seeking stamp (w.dispatcher.resolve s.key).value.1)))
    (dispatcher : w'.dispatcher = (w.dispatcher.resolve s.key).value.2)
    (sound : AllSound w'.submissions) : w'.InFront capacity := by
  have last := h.alone t s there (by simp [Submission.answer?, phase])
  have idle : w.bringing? = none := by
    rw [bringing_of_last there last, phase]
    rfl
  have there' := submissions ▸ getElem?_set_there there
    (s.on (.seeking stamp (w.dispatcher.resolve s.key).value.1))
  have last' : t + 1 = w'.submissions.length := by rw [submissions, List.length_set, last]
  have coming : w'.bringing? = some (w.dispatcher.resolve s.key).value.1 :=
    bringing_of_last there' last'
  have slots : ∀ i, w'.dispatcher.Started i ↔ w.dispatcher.Started i := fun i => by
    rw [dispatcher]
    exact Iff.rfl
  have mirrored := h.mirrored_calls w' [.resolve s.key] (by rw [dispatcher]; rfl)
    (by rw [dispatcher]; rfl)
  refine ⟨h.alone.set last submissions, sound, mirrored, fun i j before filled => ?_,
    fun i filled => h.low i ((slots i).1 filled), fun key i found => ?_, fun i same => ?_⟩
  · exact (slots j).2 (h.front i j before ((slots i).1 filled))
  · obtain ⟨r, mirrors, -⟩ := h.mirrored
    have after := (mirrors.resolve s.key).mirrors
    rw [dispatcher] at found
    have listed := Roll.mem_of_lookup ((after.assignment key).symm.trans found)
    rcases mirrors.fit.mem_resolve listed with old | new
    · exact .inl ((slots i).2 (h.started_of_assigned idle mirrors old))
    · obtain ⟨-, rfl⟩ := Prod.mk.inj new
      exact .inr (coming.trans (congrArg some (mirrors.resolve s.key).answer))
  · obtain rfl := Option.some.inj (coming.symm.trans same)
    obtain ⟨bound, low, before⟩ := h.resolved idle s.key
    rw [dispatcher]
    exact ⟨bound, low, before⟩

/-- A lane is installed: the next one. -/
theorem InFront.install (h : w.InFront capacity) {stamp : Option Stamp} {i : LaneIndex}
    {own : Lane Parcel} (there : w.submissions[t]? = some s)
    (phase : s.phase = .installing stamp i own)
    (submissions : w'.submissions = w.submissions.set t (s.on (.rechecking stamp i)))
    (dispatcher : w'.dispatcher = w.dispatcher.setLane own.index own)
    (sound : AllSound w'.submissions) : w'.InFront capacity := by
  obtain rfl := (h.sound t s there).own stamp i own phase
  have last := h.alone t s there (by simp [Submission.answer?, phase])
  have coming : w.bringing? = some i := by
    rw [bringing_of_last there last, phase]
    rfl
  have there' := submissions ▸ getElem?_set_there there (s.on (.rechecking stamp i))
  have last' : t + 1 = w'.submissions.length := by rw [submissions, List.length_set, last]
  have idle : w'.bringing? = none := bringing_of_last there' last'
  obtain ⟨bound, low, before⟩ := h.next i coming
  have slots : ∀ j, w'.dispatcher.Started j ↔ i = j ∨ w.dispatcher.Started j := fun j => by
    rw [dispatcher]
    exact Dispatcher.started_install bound _ j
  have mirrored := h.mirrored_calls w' [] (by rw [dispatcher]; rfl)
    (by rw [dispatcher]; exact Dispatcher.laneCount_setLane _ _ _)
  refine ⟨h.alone.set last submissions, sound, mirrored, fun j k first filled => ?_,
    fun j filled => ?_, fun key j found => ?_, fun j same => by simp [idle] at same⟩
  · rw [slots] at filled ⊢
    right
    rcases filled with rfl | filled
    · exact before k first
    · exact h.front j k first filled
  · rcases (slots j).1 filled with rfl | old
    · exact low
    · exact h.low j old
  · rw [dispatcher] at found
    rw [slots]
    left
    rcases h.housed key j found with old | same
    · exact .inr old
    · exact .inl (Option.some.inj (coming.symm.trans same))

/-- A submission that looks on goes to no lane other than the one it was given. -/
theorem InFront.look (h : w.InFront capacity) {phase : SubmissionPhase Parcel}
    (there : w.submissions[t]? = some s) (looks : Look w.dispatcher s.phase phase) :
    Carried w { w with submissions := w.submissions.set t (s.on phase) } := by
  have own := (h.sound t s there).own
  have going : s.answer? = none := by
    obtain ⟨key, task, now⟩ := s
    cases looks <;> rfl
  refine h.go there going rfl (fun _ => Iff.rfl) (fun _ _ => id) ?_
  generalize s.phase = now at looks own
  cases looks with
  | found stamp i l lane =>
    refine .inr ⟨rfl, fun j same => ?_⟩
    obtain rfl := Option.some.inj same
    exact Option.isSome_iff_exists.2 ⟨l, lane⟩
  | preempted stamp i mine l lane =>
    refine .inr ⟨rfl, fun j same => ?_⟩
    obtain rfl := Option.some.inj same
    obtain rfl := own stamp i mine rfl
    exact Option.isSome_iff_exists.2 ⟨l, lane⟩
  | _ => exact .inl rfl

/-- Submissions begin one at a time, and none that is about to start a lane fails. -/
structure Single (w w' : World V) : Prop where
  alone : w'.submissions.length ≠ w.submissions.length → ∀ s ∈ w.submissions, s.answer?.isSome
  starts : ∀ (t : Ticket) s s' stamp i, w.submissions[t]? = some s → s.phase = .starting stamp i →
    w'.submissions[t]? = some s' → s'.answer? = none

theorem carried_begin (ended : ∀ s ∈ w.submissions, s.answer?.isSome) (key : Key)
    (stamped : Bool) : Carried w { w with submissions := w.submissions ++
      [.start key stamped fun lane _ => ⟨key, lane, w.submissions.length⟩] } := by
  refine ⟨fun t s there going => ?_, fun _ => Iff.rfl, fun _ _ => id, .inl ?_⟩
  · rcases getElem?_snoc_cases there with ⟨rfl, -⟩ | old
    · simp
    · have done := ended s (List.mem_of_getElem? old)
      simp [going] at done
  · rw [bringing_of_ended ended, bringing?, List.getLast?_concat]
    cases stamped <;> rfl

theorem InFront.effect (h : w.InFront capacity) (e : Effect w w') (single : Single w w') :
    w'.InFront capacity := by
  have carry : Carried w w' → w'.InFront capacity := h.carry_effect e
  have sound : AllSound w'.submissions := e.allSound h.sound
  have still : ∀ i, w.dispatcher.Started i ↔ w.dispatcher.Started i := fun _ => Iff.rfl
  have kept : ∀ key i, w.dispatcher.allocator.assignment key = some i →
      w.dispatcher.allocator.assignment key = some i := fun _ _ => id
  have wiped : ∀ key i, w.dispatcher.allocator.clear.assignment key = some i →
      w.dispatcher.allocator.assignment key = some i := fun key i found => by
    simp [assignment_clear] at found
  cases e with
  | rest => exact h
  | begin key stamped => exact carry (carried_begin (single.alone (by simp)) key stamped)
  | look t s phase there looks => exact carry (h.look there looks)
  | stamp t s drawn there phase =>
    have going : s.answer? = none := by simp [Submission.answer?, phase]
    exact carry (h.go there going rfl still kept (.inl (by rw [phase]; rfl)))
  | lookUp t s stamp there phase => exact h.lookUp there phase rfl rfl sound
  | refuse t s submitted there refused =>
    have away : s.phase.bringing? = none ∧ s.answer? = none := by
      have starts := single.starts t s (s.on (.done submitted))
      obtain ⟨key, task, now⟩ := s
      cases refused with
      | starting stamp i =>
        cases starts stamp i there rfl (getElem?_set_there there _)
      | _ => exact ⟨rfl, rfl⟩
    exact carry (h.go there away.2 rfl still kept (.inl away.1.symm))
  | install t s stamp i own there phase empty => exact h.install there phase rfl rfl sound
  | accept t s stamp i l there phase lane accepting =>
    have going : s.answer? = none := by simp [Submission.answer?, phase]
    exact carry (h.go there going rfl (Dispatcher.started_setLane lane _) kept
      (.inl (by rw [phase]; rfl)))
  | retire t s i c l there phase lane unfinished =>
    have going : s.answer? = none := by simp [Submission.answer?, phase]
    exact carry (h.go there going rfl (Dispatcher.started_setLane lane _) kept
      (.inl (by rw [phase]; rfl)))
  | forfeit t s i report there phase =>
    have going : s.answer? = none := by simp [Submission.answer?, phase]
    exact carry (h.go there going rfl still kept (.inl (by rw [phase]; rfl)))
  | clear n report there => exact carry (h.rest rfl still wiped)
  | clearLast n report there => exact carry (h.rest rfl still wiped)
  | shut n kind i c l report there lane unfinished =>
    exact carry (h.rest rfl (Dispatcher.started_setLane lane _) kept)
  | take i l p queue lane idle next =>
    exact carry (h.rest rfl (Dispatcher.started_setLane lane _) kept)
  | leave i l lane idle empty closed =>
    exact carry (h.rest rfl (Dispatcher.started_setLane lane _) kept)
  | start i l p lane holding free =>
    exact carry (h.rest rfl (Dispatcher.started_setLane lane _) kept)
  | abandon i l p panic lane holding interrupted =>
    exact carry (h.rest rfl (Dispatcher.started_setLane lane _) kept)
  | conclude i l p ending escape lane busy =>
    exact carry (h.rest rfl (Dispatcher.started_setLane lane _) kept)
  | _ => exact carry (h.rest rfl still kept)

/-- A direct call forgets all assignments or leaves them, if it resolves no key. -/
theorem InFront.ask (h : w.InFront capacity) {c : Call} (other : ∀ key, c ≠ .resolve key) :
    (w.ask c).InFront capacity := by
  refine h.carry (h.rest rfl (fun _ => Iff.rfl) fun key i found => ?_) h.sound [c] rfl rfl
  cases c with
  | resolve looked => exact absurd rfl (other looked)
  | clear =>
    change w.dispatcher.allocator.clear.assignment key = some i at found
    simp [assignment_clear] at found
  | _ => exact found

/-! ### Along a run -/

/-- A run in which submissions are made one at a time, every lane gets its thread, and nobody
else resolves keys. -/
def OneAtATime (w : World V) : List (Access V) → Prop
  | [] => True
  | x :: xs => (∀ key, x ≠ .direct (.resolve key)) ∧
      ∀ w', w.access x = some w' → Single w w' ∧ w'.OneAtATime xs

theorem InFront.accesses (h : w.core.InFront capacity) {xs : List (Access V)}
    (single : w.OneAtATime xs) (run : w.accesses xs = some w') : w'.core.InFront capacity := by
  induction xs generalizing w with
  | nil =>
    obtain rfl := Option.some.inj run
    exact h
  | cons x xs ih =>
    rw [accesses_cons, Option.bind_eq_some_iff] at run
    obtain ⟨v, access, rest⟩ := run
    obtain ⟨other, rules⟩ := single
    obtain ⟨now, later⟩ := rules v access
    refine ih ?_ later rest
    cases x with
    | act a => exact h.effect (effect_of_step access) ⟨now.alone, now.starts⟩
    | direct c =>
      obtain rfl := Option.some.inj access
      exact h.ask fun key same => other key (congrArg Access.direct same)

theorem mirrors_of_create {config : Config} {parallelism : Nat}
    (made : Dispatcher.create config parallelism = .ok d) :
    d.laneCount = config.laneCount parallelism ∧ d.allocator.Mirrors (Roll.start
      (config.laneCount parallelism) (config.maxKeys.toNat * config.headroom.toNat)) := by
  obtain ⟨a, built, rfl⟩ := Dispatcher.eq_of_create made
  exact ⟨by simp [Dispatcher.laneCount], Allocator.mirrors_of_withHeadroom built⟩

theorem inFront_fresh {config : Config} {parallelism : Nat}
    (made : Dispatcher.create config parallelism = .ok d) (counter : KeyCounter) :
    (fresh (V := V) d counter).core.InFront (config.maxKeys.toNat * config.headroom.toNat) := by
  obtain ⟨new, -⟩ := Dispatcher.fresh_of_create made
  obtain ⟨slots, mirrors⟩ := mirrors_of_create made
  have bare : ∀ i, ¬ d.Started i := fun i filled => by
    simp [Dispatcher.Started, new.lanes] at filled
  refine ⟨by simp [Alone, fresh, core], by simp [AllSound, fresh, core],
    ⟨_, mirrors, slots.symm, rfl⟩, fun i j before filled => absurd filled (bare i),
    fun i filled => absurd filled (bare i), fun key i found => ?_, fun i coming => by cases coming⟩
  have none : d.allocator.assignment key = none := mirrors.assignment key
  cases none.symm.trans found

/--
Where submissions are made one at a time and every lane that is needed gets its thread, the lanes
started are 0, 1, 2, … without a gap. There are no more of them than slots, and at most one more
than keys may stay assigned, whatever was evicted or forgotten on the way.
-/
theorem started_lanes_front {config : Config} {parallelism : Nat} {counter : KeyCounter}
    {xs : List (Access V)} (made : Dispatcher.create config parallelism = .ok d)
    (single : (fresh d counter).OneAtATime xs) (run : (fresh d counter).accesses xs = some w) :
    (∀ i, (w.dispatcher.lane? i).isSome ↔ i < w.dispatcher.activeLanes) ∧
      w.dispatcher.activeLanes ≤ min (config.laneCount parallelism)
        (config.maxKeys.toNat * config.headroom.toNat + 1) := by
  have inFront := (inFront_fresh (V := V) made counter).accesses single run
  have first : ∀ i, (w.dispatcher.lane? i).isSome ↔ i < w.dispatcher.activeLanes :=
    isSome_iff_lt_length fun i j before => inFront.front i j before
  refine ⟨first, Nat.le_min.2 ⟨?_, ?_⟩⟩
  · rw [← (mirrors_of_create made).1]
    exact (List.length_filterMap_le _ _).trans_eq (laneCount_of_accesses run)
  · rcases Nat.eq_zero_or_pos w.dispatcher.activeLanes with none | some
    · simp [none]
    · have last := (first (w.dispatcher.activeLanes - 1)).2 (Nat.sub_lt some Nat.one_pos)
      exact Nat.sub_le_iff_le_add.1 (inFront.low _ last)

/-! ### A run with an eviction -/

theorem OneAtATime.append {xs more : List (Access V)} (first : w.OneAtATime xs)
    (run : w.accesses xs = some w') (rest : w'.OneAtATime more) : w.OneAtATime (xs ++ more) := by
  induction xs generalizing w with
  | nil =>
    obtain rfl := Option.some.inj run
    exact rest
  | cons x xs ih =>
    obtain ⟨other, rules⟩ := first
    refine ⟨other, fun v access => ⟨(rules v access).1, ih (rules v access).2 ?_⟩⟩
    rwa [accesses_cons, access, Option.bind_some] at run

/-- A submission that goes on begins no other one, and a lane with a valid name gets its thread. -/
theorem single_advance (named : Config.nameable w.dispatcher.config.threadName = true)
    (act : w.advance t = some w') : Single w w' := by
  obtain ⟨s, there, unfinished, -, submissions, -⟩ := advance_cases act
  refine ⟨fun longer => absurd (by rw [submissions, List.length_set]) longer,
    fun u r r' stamp i before phase after => ?_⟩
  rw [submissions] at after
  rcases getElem?_set_cases after with ⟨rfl, rfl⟩ | ⟨-, old⟩
  · obtain rfl := Option.some.inj (there.symm.trans before)
    simp [Submission.step, phase, named, Submission.answer?, Submission.on]
  · obtain rfl := Option.some.inj (old.symm.trans before)
    simp [Submission.answer?, phase]

theorem oneAtATime_advances (named : Config.nameable w.dispatcher.config.threadName = true)
    (t : Ticket) (n : Nat) : w.OneAtATime ((List.replicate n (.advance t)).map .act) := by
  induction n generalizing w with
  | zero => trivial
  | succ n ih =>
    refine ⟨by simp, fun v act => ⟨single_advance named act, ih ?_⟩⟩
    have config : v.dispatcher.config = w.dispatcher.config :=
      (effect_of_step (a := .advance t) act).config
    rwa [config]

theorem oneAtATime_submit (named : Config.nameable w.dispatcher.config.threadName = true)
    (ended : ∀ s ∈ w.submissions, s.answer?.isSome) (key : Key) (t : Ticket) (n : Nat) :
    w.OneAtATime ((.submit key false :: List.replicate n (.advance t)).map .act) := by
  refine ⟨by simp, fun v act => ?_⟩
  obtain rfl := Option.some.inj act
  refine ⟨⟨fun _ => ended, fun u r r' stamp i before phase after => ?_⟩,
    oneAtATime_advances (w := w.begin key false) named t n⟩
  have done := ended r (List.mem_of_getElem? before)
  simp [Submission.answer?, phase] at done

/-- Two submissions, the second of which takes the place of the first one's key; then all keys are
forgotten. -/
def succession : List (Access Unit) :=
  (Act.submit 1 false :: List.replicate 7 (Act.advance 0)).map .act ++
    ((Act.submit 2 false :: List.replicate 7 (Act.advance 1)).map .act ++ [.direct .clear])

theorem succession_lookUps (V : Type) : ∃ a₁ a₂,
    ((newborn 3 1).allocator.resolve 1).value = (0, a₁) ∧
      evictions (V := V) ((newborn 3 1).allocator.resolve 1).events = [] ∧
      (a₁.resolve 2).value = (1, a₂) ∧
      evictions (V := V) (a₁.resolve 2).events = [.evicted 1 0] := by
  have made : Allocator.withHeadroom 3 1 1 = .ok (newborn 3 1).allocator := rfl
  have first := (Allocator.mirrors_of_withHeadroom made).resolve 1
  have second := first.mirrors.resolve 2
  exact ⟨_, _, Prod.ext (first.answer.trans (by decide)) rfl,
    (congrArg evictions first.events).trans rfl,
    Prod.ext (second.answer.trans (by decide)) rfl,
    (congrArg evictions second.events).trans rfl⟩

/-- The first of three lanes holds a task. -/
def oneOfThree (a : Allocator) : World Unit :=
  calm ⟨tiny 3 1, a, [some ⟨0, .running, true, [⟨1, 0, 0⟩], false, .idle, false⟩, none, none],
      false, false⟩
    [underKey 1 0 (.done ⟨.accepted none, []⟩)] [.resolved 0 1 0, .accepted ⟨1, 0, 0⟩ 0]

/-- Three lanes, the first two of which hold a task each. -/
def twoOfThree (a : Allocator) : World Unit :=
  calm ⟨tiny 3 1, a, [some ⟨0, .running, true, [⟨1, 0, 0⟩], false, .idle, false⟩,
      some ⟨1, .running, true, [⟨2, 1, 1⟩], false, .idle, false⟩, none], false, false⟩
    [underKey 1 0 (.done ⟨.accepted none, []⟩), underKey 2 1 (.done ⟨.accepted none, []⟩)]
    [.resolved 0 1 0, .accepted ⟨1, 0, 0⟩ 0, .resolved 1 2 1, .evicted 1 0, .accepted ⟨2, 1, 1⟩ 1]

theorem run_succession : ∃ a, (fresh (newborn 3 1) ⟨0⟩).accesses succession =
      some ((twoOfThree a).ask .clear) ∧
    (fresh (newborn 3 1) ⟨0⟩ : World Unit).OneAtATime succession := by
  obtain ⟨a₁, a₂, found₁, quiet₁, found₂, gone₂⟩ := succession_lookUps Unit
  have one : (fresh (newborn 3 1) ⟨0⟩).accesses
      ((Act.submit 1 false :: List.replicate 7 (Act.advance 0)).map .act) =
      some (oneOfThree a₁) := by
    rw [accesses_acts]
    exact (run_submit (w := fresh (newborn 3 1) ⟨0⟩) 1 rfl rfl found₁ quiet₁ _).trans (by cbv)
  have two : (oneOfThree a₁).accesses
      ((Act.submit 2 false :: List.replicate 7 (Act.advance 1)).map .act) =
      some (twoOfThree a₂) := by
    rw [accesses_acts]
    exact (run_submit (w := oneOfThree a₁) 2 rfl rfl found₂ gone₂ _).trans (by cbv)
  have named : Config.nameable (tiny 3 1).threadName = true := by decide
  refine ⟨a₂, ?_, ?_⟩
  · rw [succession, accesses_append, one, Option.bind_some, accesses_append, two]
    rfl
  · refine (oneAtATime_submit named (by simp [fresh]) 1 0 7).append one ?_
    refine (oneAtATime_submit named ?_ 2 1 7).append two ⟨by simp, fun v access => ?_⟩
    · simp [oneOfThree, calm, underKey, Submission.answer?]
    · obtain rfl := Option.some.inj access
      refine ⟨⟨fun longer => absurd rfl longer, fun t s s' stamp i before phase after => ?_⟩,
        trivial⟩
      obtain rfl := Option.some.inj (before.symm.trans after)
      simp [Submission.answer?, phase]

/-- Two keys in a row, with room for one: the first two of three lanes are started. -/
theorem started_lanes_front_of_three : ∃ (d : Dispatcher Parcel) (w : World Unit),
    Dispatcher.create (tiny 3 1) 1 = .ok d ∧ (fresh d ⟨0⟩ : World Unit).OneAtATime succession ∧
      (fresh d ⟨0⟩).accesses succession = some w ∧ w.dispatcher.activeLanes = 2 ∧
      (∀ i, (w.dispatcher.lane? i).isSome ↔ i < 2) ∧ 2 ≤ min 3 (1 * 1 + 1) := by
  obtain ⟨a, run, single⟩ := run_succession
  have made : Dispatcher.create (tiny 3 1) 1 = .ok (newborn 3 1) := rfl
  obtain ⟨first, few⟩ := started_lanes_front made single run
  exact ⟨newborn 3 1, _, made, single, run, rfl, first, few⟩

end World

end OrderedLanes
