import OrderedLanes.Proofs.DirectCalls
import OrderedLanes.Proofs.ForcedStop

/-!
Which options a dispatcher can be made from, and that it never reaches past its
slots. Four demands are looked at one after the other, and the first that is not
met is the one complained about. Where all are met there are as many slots as the
allocator has lanes, and whatever names a lane later on (the allocator, a
submission on its way, a stop, a task) names one of these.
-/

namespace OrderedLanes

/-! ### What a configuration must meet -/

/-- The demands on a configuration with `n` lanes, each with the complaint if it is not met. -/
def demands (n : Nat) (maxKeys headroom : UInt32) : List (Bool × ConfigError) :=
  [(1 ≤ n, .noLanes), (1 ≤ maxKeys.toNat, .noKeyCapacity), (1 ≤ headroom.toNat, .noHeadroom),
   (maxKeys.toNat * headroom.toNat < trackedKeyLimit,
    .keyBoundOverflow maxKeys headroom trackedKeyLimit)]

/-- The complaint about the first demand that is not met. -/
def firstUnmet (n : Nat) (maxKeys headroom : UInt32) : Option ConfigError :=
  ((demands n maxKeys headroom).find? fun x => !x.1).map Prod.snd

theorem firstUnmet_eq_none {n : Nat} {maxKeys headroom : UInt32} :
    firstUnmet n maxKeys headroom = none ↔ 1 ≤ n ∧ 1 ≤ maxKeys.toNat ∧ 1 ≤ headroom.toNat ∧
      maxKeys.toNat * headroom.toNat < trackedKeyLimit := by
  simp [firstUnmet, demands]

theorem one_le_toNat {n : UInt32} : 1 ≤ n.toNat ↔ n ≠ 0 := by
  rw [Nat.one_le_iff_ne_zero, ne_eq, ne_eq, ← UInt32.toNat_inj, UInt32.toNat_zero]

/-- The bound on keys and its complaints are those of the demands after the first one. -/
theorem evictionBound_eq {n : Nat} (any : 1 ≤ n) (maxKeys headroom : UInt32) :
    evictionBound maxKeys headroom =
      match firstUnmet n maxKeys headroom with
      | some e => .error e
      | none => .ok (maxKeys.toNat * headroom.toNat) := by
  by_cases keys : maxKeys = 0
  · simp [evictionBound, firstUnmet, demands, any, keys]
  · have keys' := one_le_toNat.2 keys
    by_cases times : headroom = 0
    · simp [evictionBound, firstUnmet, demands, any, keys, keys', times]
    · have times' := one_le_toNat.2 times
      by_cases narrow : maxKeys.toNat * headroom.toNat < trackedKeyLimit
      · simp [evictionBound, firstUnmet, demands, any, keys, keys', times, times', narrow]
      · simp [evictionBound, firstUnmet, demands, any, keys, keys', times, times', narrow]

theorem Allocator.withHeadroom_eq (n : Nat) (maxKeys headroom : UInt32) :
    withHeadroom n maxKeys headroom =
      match firstUnmet n maxKeys headroom with
      | some e => .error e
      | none => .ok ⟨n, maxKeys, maxKeys.toNat * headroom.toNat, .empty, .fresh n, .empty⟩ := by
  by_cases any : 1 ≤ n
  · have some : n ≠ 0 := Nat.one_le_iff_ne_zero.1 any
    simp only [withHeadroom, some, if_false, evictionBound_eq any]
    cases firstUnmet n maxKeys headroom <;> rfl
  · obtain rfl : n = 0 := Nat.eq_zero_of_not_pos any
    rfl

theorem Dispatcher.create_eq {α : Type} (config : Config) (parallelism : Nat) :
    (Dispatcher.create config parallelism : Except ConfigError (Dispatcher α)) =
      match firstUnmet (config.laneCount parallelism) config.maxKeys config.headroom with
      | some e => .error e
      | none => .ok ⟨config, ⟨config.laneCount parallelism, config.maxKeys,
          config.maxKeys.toNat * config.headroom.toNat, .empty,
          .fresh (config.laneCount parallelism), .empty⟩,
          List.replicate (config.laneCount parallelism) none, false, false⟩ := by
  rw [Dispatcher.create, Allocator.withHeadroom_eq]
  cases firstUnmet (config.laneCount parallelism) config.maxKeys config.headroom <;> rfl

/-- Of two complaints the earlier one is made. -/
example : (Dispatcher.create { maxKeys := 0, headroom := 0, lanes := some 1 } 1 :
    Except ConfigError (Dispatcher Parcel)) = .error .noKeyCapacity := rfl

namespace World

variable {V : Type} {d : Dispatcher Parcel} {w w' : World V} {n : Nat}

/-! ### What one access keeps -/

theorem Effect.nothingLost (e : Effect w w') (sound : AllSound w.submissions)
    (kept : NothingLost w) : NothingLost w' := by
  intro who i c closing empty
  cases e.closing closing with
  | same c before =>
    refine kept who i c before ?_
    by_contra filled
    obtain ⟨l, lane⟩ := Option.ne_none_iff_exists'.1 filled
    obtain ⟨l', lane', -⟩ := e.grows sound lane
    simp [empty] at lane'
  | fresh kind before => rfl
  | step c l before unfinished lane after history => simp [empty] at after

/-- A stop that is about to stop a lane has found it in its slot. -/
theorem Effect.stopping_lt (e : Effect w w')
    (within : ∀ m i c, w.closing? (.stop m) = some (i, c) → i < w.dispatcher.laneCount) (m : Nat)
    (i : LaneIndex) (c : Closing Parcel) (closing : w'.closing? (.stop m) = some (i, c)) :
    i < w.dispatcher.laneCount := by
  obtain ⟨kind, report, there⟩ := closing?_stop.1 closing
  have old : w.stops[m]? = some (.closing kind i c report) → i < w.dispatcher.laneCount :=
    fun found => within m i c (closing?_stop.2 ⟨kind, report, found⟩)
  have set : ∀ {k s}, s.closing? = none → w'.stops = w.stops.set k s →
      i < w.dispatcher.laneCount := fun idle stops =>
    within m i c (closing_set_stop ⟨kind, report, stops ▸ there⟩ idle)
  cases e with
  | beginStop kind =>
    rcases getElem?_snoc_cases there with ⟨-, new⟩ | found
    · cases new
    · exact old found
  | stopLook k s s' found looks =>
    rcases getElem?_set_cases there with ⟨-, rfl⟩ | ⟨-, found⟩
    · cases looks with
      | visit kind i l report lane => exact Dispatcher.lt_of_lane? lane
    · exact old found
  | shut k kind j c l report found lane unfinished =>
    rcases getElem?_set_cases there with ⟨-, same⟩ | ⟨-, found⟩
    · cases same
      exact Dispatcher.lt_of_lane? lane
    · exact old found
  | raiseGraceful k found down => exact set rfl rfl
  | raiseForced k found down => exact set rfl rfl
  | follow k found => exact set rfl rfl
  | clear k report found => exact set rfl rfl
  | clearLast k report found => exact set rfl rfl
  | endStop k s report found ends => exact set rfl rfl
  | _ => exact within m i c closing

/-- A submission has a lane that it was given before, or that the allocator gives it now. -/
theorem Effect.lane_cases (e : Effect w w') {t : Ticket} {s' : Submission Parcel} {i : LaneIndex}
    (there' : w'.submissions[t]? = some s') (lane : s'.lane? = some i) :
    (∃ s, w.submissions[t]? = some s ∧ s.lane? = some i) ∨
      ∃ key, i = (w.dispatcher.resolve key).value.1 := by
  rcases e.onward there' with same | ⟨key, stamped, -, rfl⟩ | ⟨s, phase, there, rfl, onward⟩
  · exact .inl ⟨s', same, lane⟩
  · cases stamped <;> cases lane
  · obtain ⟨key, task, now⟩ := s
    cases onward with
    | look phase looks =>
      refine .inl ⟨_, there, ?_⟩
      cases looks <;> exact lane
    | lookUp stamp phase after => exact .inr ⟨key, (Option.some.inj lane).symm⟩
    | install stamp k own phase after =>
      obtain rfl : now = .installing stamp k own := phase
      exact .inl ⟨_, there, lane⟩
    | retire k c c' phase step =>
      obtain rfl : now = .retiring k c := phase
      exact .inl ⟨_, there, lane⟩
    | stamp drawn phase => cases lane
    | settled submitted => cases lane

/-- What a stop hands back was taken back by it before. -/
theorem Effect.returned (e : Effect w w') {p : Parcel} (there : p ∈ w'.returned) :
    p ∈ w.returned ∨ ∃ s ∈ w.stops, p ∈ s.gathered := by
  have handed : ∀ {m : Nat} {s : Stopping Parcel} {report : StopReport Parcel},
      w.stops[m]? = some s → (Stopping.done report).gathered = s.gathered →
      p ∈ w.returned ++ report.pending → p ∈ w.returned ∨ ∃ s ∈ w.stops, p ∈ s.gathered := by
    intro m s report found same there
    refine (List.mem_append.1 there).imp_right fun new => ?_
    exact ⟨s, List.mem_of_getElem? found, same ▸ new⟩
  cases e with
  | clearLast m report found => exact handed found rfl there
  | endStop m s report found ends => exact handed found (gathered_of_stopEnd ends) there
  | runReturned p ending listed => exact .inl (List.mem_of_mem_erase there)
  | dropReturned p listed => exact .inl (List.mem_of_mem_erase there)
  | _ => exact .inl there

/-! ### Along a run -/

/-- The lanes that are named are among the `n` that there are, and no task is made up. -/
structure InRange (n : Nat) (w : World V) : Prop where
  slots : w.dispatcher.laneCount = n
  mirrored : Mirrored w.dispatcher
  sound : AllSound w.submissions
  submissions : ∀ (t : Ticket) s i, w.submissions[t]? = some s → s.lane? = some i → i < n
  stops : ∀ m i c, w.closing? (.stop m) = some (i, c) → i < n
  kept : NothingLost w
  conserved : ∀ p, w.holdings.count p = (accepted w.history).count p
  accepted : ∀ p ∈ accepted w.history, p.lane < n
  returned : ∀ p ∈ w.returned, p.lane < n

theorem InRange.held (h : w.InRange n) {p : Parcel} (there : p ∈ w.holdings) : p.lane < n := by
  refine h.accepted p (List.count_pos_iff.1 ?_)
  rw [← h.conserved]
  exact List.count_pos_iff.2 there

theorem InRange.effect (h : w.InRange n) (e : Effect w w') : w'.InRange n := by
  have slots : w'.dispatcher.laneCount = n := e.laneCount.trans h.slots
  have accepted : ∀ p ∈ World.accepted w'.history, p.lane < n := by
    intro p listed
    rcases e.acceptance with ⟨t, s, stamp, i, there, phase, -, noted⟩ | ⟨news, noted, none⟩
    · rw [noted, accepted_append, List.mem_append] at listed
      rcases listed with old | new
      · exact h.accepted p old
      · obtain rfl : p = s.task i stamp := by simpa using new
        rw [(h.sound t s there).task]
        exact h.submissions t s i there (by simp [Submission.lane?, phase])
    · rw [noted, accepted_append, none, List.append_nil] at listed
      exact h.accepted p listed
  refine ⟨slots, e.mirrored h.mirrored, e.allSound h.sound, ?_, ?_,
    e.nothingLost h.sound h.kept, ?_, accepted, ?_⟩
  · intro t s i there lane
    rcases e.lane_cases there lane with ⟨s, there, lane⟩ | ⟨key, rfl⟩
    · exact h.submissions t s i there lane
    · exact h.slots ▸ h.mirrored.resolve_lt key
  · rw [← h.slots]
    exact e.stopping_lt fun m i c closing => h.slots ▸ h.stops m i c closing
  · intro p
    have moved := e.conserves h.sound h.kept p
    have before := h.conserved p
    omega
  · intro p there
    rcases e.returned there with old | ⟨s, listed, taken⟩
    · exact h.returned p old
    · refine h.held ?_
      simp only [holdings, List.mem_append, List.mem_flatMap]
      exact .inl (.inl (.inl (.inr ⟨s, listed, taken⟩)))

theorem InRange.ask (h : w.InRange n) (c : Call) : (w.ask c).InRange n :=
  ⟨h.slots, mirrored_ask h.mirrored c, h.sound, h.submissions, h.stops, h.kept, h.conserved,
    h.accepted, h.returned⟩

theorem inRange_fresh (new : d.Fresh) (mirrored : Mirrored d) :
    (fresh (V := V) d ⟨0⟩).InRange d.laneCount := by
  refine ⟨rfl, mirrored, (Reachable.start (V := V)).allSound, by simp [fresh],
    by simp [fresh, closing?], Reachable.start.nothingLost, fun p => ?_, by simp [fresh],
    by simp [fresh]⟩
  exact (Reachable.start.holdings_perm new).count_eq p

theorem inRange_of_accesses (new : d.Fresh) (mirrored : Mirrored d) {counter : KeyCounter}
    {xs : List (Access V)} (run : (fresh d counter).accesses xs = some w) :
    w.core.InRange d.laneCount := by
  have start : (fresh d counter).core.InRange d.laneCount := inRange_fresh (V := V) new mirrored
  refine accesses_induction (P := fun w => w.core.InRange d.laneCount) start
    (fun {w x w'} there h access => ?_) run
  cases x with
  | act a => exact h.effect (effect_of_step access)
  | direct c =>
    obtain rfl := Option.some.inj access
    exact h.ask c

/-- Whatever names a lane names one of the first `n`, and there are so many slots. -/
structure Ranged (n : Nat) (w : World V) : Prop where
  slots : w.dispatcher.laneCount = n
  counts : w.dispatcher.allocator.keysByLane.length = n
  resolved : ∀ key, (w.dispatcher.allocator.resolve key).value.1 < n
  assigned : ∀ key i, w.dispatcher.allocator.assignment key = some i → i < n
  listed : ∀ x ∈ w.dispatcher.allocator.assignments, x.2 < n
  /-- From its look into the slot on. -/
  submissions : ∀ (t : Ticket) s i, w.submissions[t]? = some s → s.lane? = some i → i < n
  installed : ∀ (t : Ticket) s stamp i own, w.submissions[t]? = some s →
    s.phase = .installing stamp i own → own.index < n
  stops : ∀ m i c, w.closing? (.stop m) = some (i, c) → i < n
  tasks : ∀ p ∈ w.holdings ++ w.returned, p.lane < n

theorem InRange.ranged (h : w.core.InRange n) : w.Ranged n := by
  obtain ⟨r, mirrors, serves⟩ := h.mirrored
  have lanes : r.lanes = n := serves.trans h.slots
  change w.dispatcher.allocator.Mirrors r at mirrors
  refine ⟨h.slots, ?_, fun key => h.slots ▸ h.mirrored.resolve_lt key, fun key i found => ?_,
    fun x listed => ?_, h.submissions, fun t s stamp i own there phase => ?_, h.stops,
    fun p there => ?_⟩
  · rw [mirrors.keysByLane, Roll.length_loads, lanes]
  · rw [mirrors.assignment] at found
    exact lanes ▸ mirrors.fit.housed _ (Roll.mem_of_lookup found)
  · rw [Allocator.assignments, mirrors.lists.toList] at listed
    exact lanes ▸ mirrors.fit.housed x listed
  · obtain rfl := (h.sound t s there).own stamp i own phase
    exact h.submissions t s i there (by simp [Submission.lane?, phase])
  · exact (List.mem_append.1 there).elim h.held (h.returned p)

end World

/--
From options with a given number of lanes a dispatcher is made just when that number, cut to the
cap and to the limit, the key capacity and the headroom are positive and the product of the latter
two stays below its limit; otherwise the complaint is about the first of these that fails. One
that is made keeps as many keys as the product says and has as many slots as its allocator has
lanes, and then and in every run, with direct calls of the allocator or without, it never reaches
past them.
-/
theorem create_iff_safe {config : Config} {k n : Nat} (explicit : config.lanes = some k)
    (count : n = min (min k config.laneCap) maxLanes) (parallelism : Nat) :
    ((∃ d : Dispatcher Parcel, Dispatcher.create config parallelism = .ok d) ↔
      1 ≤ n ∧ 1 ≤ config.maxKeys.toNat ∧ 1 ≤ config.headroom.toNat ∧
        config.maxKeys.toNat * config.headroom.toNat < trackedKeyLimit) ∧
    (∀ e, (Dispatcher.create config parallelism : Except ConfigError (Dispatcher Parcel)) =
      .error e ↔ firstUnmet n config.maxKeys config.headroom = some e) ∧
    ∀ d : Dispatcher Parcel, Dispatcher.create config parallelism = .ok d →
      d.allocator.capacity = config.maxKeys.toNat * config.headroom.toNat ∧
      d.laneCount = n ∧ d.allocator.lanes = n ∧
      ∀ (V : Type) (counter : KeyCounter) (xs : List (Access V)) (w : World V),
        (World.fresh d counter).accesses xs = some w → w.Ranged n := by
  have lanes : config.laneCount parallelism = n := by
    rw [count, Config.laneCount, explicit, Option.getD_some]
  have made := Dispatcher.create_eq (α := Parcel) config parallelism
  rw [lanes] at made
  rw [← firstUnmet_eq_none]
  cases first : firstUnmet n config.maxKeys config.headroom with
  | some e =>
    rw [first] at made
    simp [made]
  | none =>
    rw [first] at made
    refine ⟨by simp [made], by simp [made], fun d created => ?_⟩
    obtain ⟨new, capacity⟩ := Dispatcher.fresh_of_create created
    obtain ⟨-, mirrored, -⟩ := World.allocator_of_create created
    obtain rfl := Except.ok.inj (made.symm.trans created)
    refine ⟨capacity, by simp [Dispatcher.laneCount], rfl, fun V counter xs w run => ?_⟩
    have inRange := World.inRange_of_accesses new mirrored run
    simp only [Dispatcher.laneCount, List.length_replicate] at inRange
    exact inRange.ranged

/-- Three lanes are asked for, and the cap leaves two. -/
def capped : Config := { maxKeys := 2, headroom := 1, laneCap := 2, lanes := some 3 }

/-- A caller resolves a key past the dispatcher, and another one submits a task. -/
theorem create_iff_safe_of_capped : capped.lanes = some 3 ∧
    2 = min (min 3 capped.laneCap) maxLanes ∧
    ∃ (d : Dispatcher Parcel) (w : World Unit), Dispatcher.create capped 10 = .ok d ∧
      d.allocator.capacity = 2 ∧ d.laneCount = 2 ∧
      (World.fresh d ⟨0⟩).accesses [.direct (.resolve 7), .act (.submit 1 false),
        .act (.advance 0), .act (.advance 0)] = some w ∧ w.Ranged 2 := by
  have explicit : capped.lanes = some 3 := rfl
  have count : 2 = min (min 3 capped.laneCap) maxLanes := by decide
  obtain ⟨safe, -, made⟩ := create_iff_safe explicit count 10
  obtain ⟨d, created⟩ := safe.2 (by decide)
  obtain ⟨capacity, slots, -, ranged⟩ := made d created
  have asked : ((World.fresh d ⟨0⟩ : World Unit).ask (.resolve 7)).dispatcher.shutdown = false :=
    (Dispatcher.fresh_of_create created).1.running
  have submitted := World.run_submit (t := 0) 1 asked rfl rfl rfl []
  have run : (World.fresh d ⟨0⟩ : World Unit).accesses (.direct (.resolve 7) ::
      [Act.submit 1 false, .advance 0, .advance 0].map .act) = some _ :=
    (World.accesses_acts _ _).trans submitted
  exact ⟨explicit, count, d, _, created, capacity, slots, run, ranged Unit ⟨0⟩ _ _ run⟩

end OrderedLanes
