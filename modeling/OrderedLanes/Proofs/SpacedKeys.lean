import OrderedLanes.Proofs.Assignments
import OrderedLanes.Proofs.LaneOrder

/-!
The order of one key, as callers can rely on it. A key that is looked up again
before as many other keys as may stay assigned were looked up keeps its lane, and
on one lane its tasks run one after the other as they were accepted.
-/

namespace OrderedLanes

/-- The key of the task that a mark is about. -/
def Mark.key : Mark → Key
  | .began p | .ended p => p.key

@[simp] theorem Mark.key_began (p : Parcel) : (Mark.began p).key = p.key := rfl
@[simp] theorem Mark.key_ended (p : Parcel) : (Mark.ended p).key = p.key := rfl

namespace World

variable {V : Type} {d : Dispatcher Parcel} {w w' : World V} {k : Key} {i : LaneIndex}

/-- The keys looked up, in that order. -/
abbrev lookups (history : List (Happening V)) : List Key :=
  history.filterMap fun
    | .resolved _ key _ => some key
    | _ => none

/-- The tasks accepted under a key, in the order of their acceptance. -/
abbrev acceptedUnder (k : Key) (history : List (Happening V)) : List Parcel :=
  history.filterMap fun
    | .accepted p _ => if p.key = k then some p else none
    | _ => none

theorem mem_acceptedUnder {history : List (Happening V)} {p : Parcel} :
    p ∈ acceptedUnder k history ↔ ∃ i, .accepted p i ∈ history ∧ p.key = k := by
  simp only [List.mem_filterMap]
  constructor
  · rintro ⟨h, noted, same⟩
    cases h with
    | accepted q i =>
      by_cases own : q.key = k
      · simp only [own, if_true, Option.some.injEq] at same
        exact ⟨i, same ▸ noted, same ▸ own⟩
      · simp [own] at same
    | _ => cases same
  · rintro ⟨i, noted, own⟩
    exact ⟨_, noted, by simp [own]⟩

/-- What workers started and brought to an end under a key. -/
abbrev marksUnder (k : Key) (history : List (Happening V)) : List Mark :=
  history.filterMap fun
    | .started p (some _) => if p.key = k then some (.began p) else none
    | .ended p (some _) _ => if p.key = k then some (.ended p) else none
    | _ => none

theorem visits_append (history news : List (Happening V)) :
    visits (history ++ news) = visits history ++ visits news :=
  List.filterMap_append

theorem lookups_append (history news : List (Happening V)) :
    lookups (history ++ news) = lookups history ++ lookups news :=
  List.filterMap_append

theorem lookups_lookUp (t : Ticket) (key : Key) (lane : LaneIndex) (events : List Event) :
    lookups (.resolved t key lane :: evictions (V := V) events) = [key] := by
  simp

theorem lookups_eq (history : List (Happening V)) :
    lookups history = (visits history).filterMap fun visit => visit.map Prod.fst := by
  rw [List.filterMap_filterMap]
  refine List.filterMap_congr fun h _ => ?_
  cases h <;> rfl

/-- Between two successive lookups of `k` there are fewer than `capacity` other keys. -/
def Spaced (k : Key) (capacity : Nat) (keys : List Key) : Prop :=
  ∀ before between after, keys = before ++ k :: between ++ k :: after → k ∉ between →
    between.dedup.length < capacity

theorem Spaced.of_append {capacity : Nat} {keys more : List Key}
    (h : Spaced k capacity (keys ++ more)) : Spaced k capacity keys := by
  intro before between after split
  refine h before between (after ++ more) ?_
  simp [split]

/-! ### The place of a key among those looked up last -/

/-- Key `k` was found on lane `i` each time, and stands behind the keys looked up since. -/
structure Behind (w : World V) (k : Key) (i : LaneIndex) (before between : List Key)
    (front back : List (Key × LaneIndex)) : Prop where
  keys : lookups w.history = before ++ k :: between
  since : k ∉ between
  lately : lately w.history = front ++ (k, i) :: back
  front : ∀ x, x ∈ front.map Prod.fst ↔ x ∈ between
  found : ∀ j, some (k, j) ∈ visits w.history → j = i

theorem Behind.length {before between : List Key} {front back : List (Key × LaneIndex)}
    (h : Behind w k i before between front back) : front.length = between.dedup.length := by
  have keys := nodup_lately w.history
  rw [h.lately, List.map_append] at keys
  have perm : (front.map Prod.fst).Perm between.dedup := by
    refine (List.perm_ext_iff_of_nodup (List.nodup_append.1 keys).1 (List.nodup_dedup _)).2 ?_
    simpa using h.front
  simpa using perm.length_eq

/-- Another key is looked up. -/
theorem Behind.other {before between : List Key} {front back : List (Key × LaneIndex)}
    (h : Behind w k i before between front back) {t : Ticket} {key : Key} {lane : LaneIndex}
    {events : List Event} (apart : key ≠ k)
    (history : w'.history = w.history ++ .resolved t key lane :: evictions events) :
    Behind w' k i before (between ++ [key]) ((key, lane) :: front.filter (·.1 ≠ key))
      (back.filter (·.1 ≠ key)) := by
  refine ⟨?_, ?_, ?_, ?_, ?_⟩
  · rw [history, lookups_append, lookups_lookUp, h.keys]
    simp
  · simp [h.since, apart.symm]
  · rw [history, lately_lookUp, h.lately, toFront, List.filter_append,
      List.filter_cons_of_pos (by simpa using apart.symm)]
    rfl
  · intro x
    have front := h.front x
    by_cases same : x = key
    · simp [same]
    · rw [List.map_cons, List.mem_cons, List.mem_append, List.mem_singleton, ← front]
      simp only [same, false_or, or_false, List.mem_map, List.mem_filter]
      constructor
      · rintro ⟨y, ⟨listed, -⟩, rfl⟩
        exact ⟨y, listed, rfl⟩
      · rintro ⟨y, listed, rfl⟩
        exact ⟨y, ⟨listed, by simpa using same⟩, rfl⟩
  · intro j found
    rw [history, visits_append, visits_lookUp, List.mem_append, List.mem_singleton] at found
    rcases found with old | new
    · exact h.found j old
    · cases new
      exact absurd rfl apart

/-- The key itself is looked up and found on the lane that it has. -/
theorem behind_self {t : Ticket} {events : List Event}
    (found : ∀ j, some (k, j) ∈ visits w.history → j = i)
    (history : w'.history = w.history ++ .resolved t k i :: evictions events) :
    Behind w' k i (lookups w.history) [] [] ((lately w.history).filter (·.1 ≠ k)) := by
  refine ⟨?_, by simp, ?_, by simp, ?_⟩
  · rw [history, lookups_append, lookups_lookUp]
  · rw [history, lately_lookUp]
    rfl
  · intro j listed
    rw [history, visits_append, visits_lookUp, List.mem_append, List.mem_singleton] at listed
    rcases listed with old | new
    · exact found j old
    · cases new
      rfl

/-- A key that was looked up in time again is still assigned. -/
theorem Behind.assigned {before between : List Key} {front back : List (Key × LaneIndex)}
    (h : Behind w k i before between front back)
    (near : between.dedup.length < w.dispatcher.allocator.capacity) : (k, i) ∈ w.assigned := by
  rw [World.assigned, h.lately, List.mem_take_iff_getElem]
  refine ⟨front.length, ?_, by simp⟩
  simp only [List.length_append, List.length_cons, h.length]
  omega

theorem Reachable.behind (h : Reachable d w) (new : d.Fresh)
    (uncleared : none ∉ visits w.history)
    (spaced : Spaced k d.allocator.capacity (lookups w.history)) :
    (∀ j, some (k, j) ∉ visits w.history) ∨
      ∃ i before between front back, Behind w k i before between front back := by
  induction h with
  | start => exact .inl (by simp [fresh])
  | @step w w' reached effect ih =>
    have old : visits w.history <+: visits w'.history := effect.history.filterMap _
    have first : Spaced k d.allocator.capacity (lookups w.history) := by
      obtain ⟨news, split⟩ := effect.history
      rw [← split, lookups_append] at spaced
      exact spaced.of_append
    have ih := ih (fun listed => uncleared (old.subset listed)) first
    obtain ⟨bound, keeps⟩ := reached.keeps new
    cases effect.assigning with
    | rest recency capacity visited noted =>
      rcases ih with never | ⟨i, before, between, front, back, behind⟩
      · exact .inl (visited ▸ never)
      · refine .inr ⟨i, before, between, front, back, ?_, behind.since, ?_, behind.front, ?_⟩
        · rw [lookups_eq, visited, ← lookups_eq]
          exact behind.keys
        · rw [lately_of_visits visited]
          exact behind.lately
        · rw [visited]
          exact behind.found
    | clear n kind report there after visited noted => simp [visited] at uncleared
    | lookUp t key after history =>
      have positive : 0 < w.dispatcher.allocator.capacity := bound ▸ new.capacity
      obtain ⟨same, -, -, -⟩ := keeps.resolve (V := V) positive key
      by_cases own : key = k
      · subst own
        refine .inr ⟨_, _, _, _, _, behind_self ?_ history⟩
        rcases ih with never | ⟨i, before, between, front, back, behind⟩
        · exact fun j listed => absurd listed (never j)
        · have near : between.dedup.length < w.dispatcher.allocator.capacity := by
            rw [bound]
            refine spaced before between [] ?_ behind.since
            rw [history, lookups_append, lookups_lookUp, behind.keys]
          rw [same i (behind.assigned near)]
          exact behind.found
      · rcases ih with never | ⟨i, before, between, front, back, behind⟩
        · left
          intro j listed
          rw [history, visits_append, visits_lookUp, List.mem_append, List.mem_singleton] at listed
          rcases listed with old | new
          · exact never j old
          · cases new
            exact own rfl
        · exact .inr ⟨i, before, _, _, _, behind.other own history⟩

/-- A key that is looked up in time each time is found on one lane. -/
theorem Reachable.one_lane (h : Reachable d w) (new : d.Fresh)
    (uncleared : none ∉ visits w.history)
    (spaced : Spaced k d.allocator.capacity (lookups w.history)) :
    ∃ i, ∀ t j, .resolved t k j ∈ w.history → j = i := by
  have listed : ∀ {t j}, .resolved t k j ∈ w.history → some (k, j) ∈ visits w.history :=
    fun found => List.mem_filterMap.2 ⟨_, found, rfl⟩
  rcases h.behind new uncleared spaced with never | ⟨i, before, between, front, back, behind⟩
  · exact ⟨0, fun t j found => absurd (listed found) (never j)⟩
  · exact ⟨i, fun t j found => behind.found j (listed found)⟩

/-- Nothing is forgotten while no stop has begun. -/
theorem Reachable.uncleared (h : Reachable d w) (calm : w.stops = []) :
    none ∉ visits w.history := by
  induction h with
  | start => simp [fresh]
  | @step w w' before effect ih =>
    have set : ∀ {n : Nat} {s s' : Stopping Parcel}, w.stops[n]? = some s →
        w.stops.set n s' ≠ [] := by
      intro n s s' there none
      rw [List.set_eq_nil_iff] at none
      simp [none] at there
    cases effect with
    | beginStop kind => simp at calm
    | stopLook n s s' there looks => exact absurd calm (set there)
    | raiseGraceful n there down => exact absurd calm (set there)
    | raiseForced n there down => exact absurd calm (set there)
    | follow n there => exact absurd calm (set there)
    | clear n report there => exact absurd calm (set there)
    | clearLast n report there => exact absurd calm (set there)
    | endStop n s report there ends => exact absurd calm (set there)
    | shut n kind i c l report there lane unfinished => exact absurd calm (set there)
    | _ => simpa using ih calm

/-! ### One lane -/

theorem filter_inTurn (ps : List Parcel) (k : Key) :
    (inTurn ps).filter (·.key = k) = inTurn (ps.filter (·.key = k)) := by
  induction ps with
  | nil => rfl
  | cons p ps ih =>
    by_cases own : p.key = k <;> simp [own, ih]

theorem acceptedUnder_of_one_lane {history : List (Happening V)}
    (one : ∀ p j, .accepted p j ∈ history → p.key = k → j = i) :
    acceptedUnder k history = (acceptedOn history i).filter (·.key = k) := by
  rw [List.filter_filterMap]
  refine List.filterMap_congr fun h noted => ?_
  cases h with
  | accepted p j =>
    by_cases own : p.key = k
    · simp [own, one p j noted own, Option.filter_some]
    · by_cases here : j = i <;> simp [own, here, Option.filter_some]
  | _ => rfl

theorem marksUnder_of_one_lane {history : List (Happening V)}
    (begun : ∀ p j, .started p (some j) ∈ history → p.key = k → j = i)
    (concluded : ∀ p j ending, .ended p (some j) ending ∈ history → p.key = k → j = i) :
    marksUnder k history = (marksOn history i).filter (·.key = k) := by
  rw [List.filter_filterMap]
  refine List.filterMap_congr fun h noted => ?_
  cases h with
  | started p lane =>
    cases lane with
    | none => rfl
    | some j =>
      by_cases own : p.key = k
      · simp [own, begun p j noted own, Option.filter_some]
      · by_cases here : j = i <;> simp [own, here, Option.filter_some]
  | ended p lane ending =>
    cases lane with
    | none => rfl
    | some j =>
      by_cases own : p.key = k
      · simp [own, concluded p j ending noted own, Option.filter_some]
      · by_cases here : j = i <;> simp [own, here, Option.filter_some]
  | _ => rfl

theorem mem_inTurn {ps : List Parcel} {p : Parcel} :
    (.began p ∈ inTurn ps ↔ p ∈ ps) ∧ (.ended p ∈ inTurn ps ↔ p ∈ ps) := by
  simp [inTurn]

/-- Tasks accepted on one lane only run there in turn. -/
theorem Reachable.in_turn_of_one_lane (h : Reachable d w) (new : d.Fresh)
    (one : ∀ p j, .accepted p j ∈ w.history → p.key = k → j = i) :
    marksUnder k w.history <+: inTurn (acceptedUnder k w.history) := by
  have home : ∀ {p j} {m : Mark}, m = .began p ∨ m = .ended p → m ∈ marksOn w.history j →
      .accepted p j ∈ w.history := by
    rintro p j m (rfl | rfl) noted
    · exact mem_acceptedOn.1 (mem_inTurn.1.1 ((h.marksOn_in_turn new j).subset noted))
    · exact mem_acceptedOn.1 (mem_inTurn.2.1 ((h.marksOn_in_turn new j).subset noted))
  rw [acceptedUnder_of_one_lane one, ← filter_inTurn, marksUnder_of_one_lane (i := i) ?_ ?_]
  · exact (h.marksOn_in_turn new i).filter _
  · intro p j noted own
    exact one p j (home (.inl rfl) (List.mem_filterMap.2 ⟨_, noted, by simp⟩)) own
  · intro p j ending noted own
    exact one p j (home (.inr rfl) (List.mem_filterMap.2 ⟨_, noted, by simp⟩)) own

/-- A task accepted before another one was submitted stands before it. -/
theorem Later.accepted_before {v : World V} (later : Later v w) (h : Reachable d v) {p q : Parcel}
    (first : p ∈ acceptedUnder k v.history) (second : q ∈ acceptedUnder k w.history)
    (submitted : v.submissions.length ≤ q.ticket) :
    [p, q].Sublist (acceptedUnder k w.history) := by
  obtain ⟨news, grown⟩ := later.history
  have split : acceptedUnder k w.history = acceptedUnder k v.history ++ acceptedUnder k news := by
    rw [← grown]
    exact List.filterMap_append
  rw [split] at second ⊢
  rcases List.mem_append.1 second with old | new
  · obtain ⟨s, stamp, there, -⟩ := (h.identified (mem_acceptedUnder.1 old).choose_spec.1).ended
    have before := (List.getElem?_eq_some_iff.1 there).1
    omega
  · exact (List.singleton_sublist.2 first).append (List.singleton_sublist.2 new)

/--
In every run without stops, the tasks of a key that is looked up in time each time are accepted on
one lane and run there one after the other. A task accepted before another one was submitted comes
first.
-/
theorem spaced_key_runs_in_turn {config : Config} {parallelism : Nat} {d : Dispatcher Parcel}
    {counter : KeyCounter} {acts : List (Act V)} {w : World V} {k : Key}
    (made : Dispatcher.create config parallelism = .ok d)
    (run : (fresh d counter).run acts = some w) (calm : w.stops = [])
    (spaced : Spaced k (config.maxKeys.toNat * config.headroom.toNat) (lookups w.history)) :
    (∃ i, ∀ p j, .accepted p j ∈ w.history → p.key = k → j = i) ∧
      marksUnder k w.history <+: inTurn (acceptedUnder k w.history) ∧
      ∀ before after v p q, acts = before ++ after → (fresh d counter).run before = some v →
        p ∈ acceptedUnder k v.history → q ∈ acceptedUnder k w.history →
        v.submissions.length ≤ q.ticket → [p, q].Sublist (acceptedUnder k w.history) := by
  obtain ⟨new, capacity⟩ := Dispatcher.fresh_of_create made
  have h : Reachable d w.core := reachable_of_run run
  rw [← capacity] at spaced
  obtain ⟨i, one⟩ := h.one_lane new (h.uncleared calm) spaced
  have home : ∀ p j, .accepted p j ∈ w.history → p.key = k → j = i := by
    rintro p j accepted rfl
    exact one p.ticket j (h.identified accepted).resolved
  refine ⟨⟨i, home⟩, h.in_turn_of_one_lane new home, ?_⟩
  intro before after v p q split reach first second submitted
  rw [split, run_append, reach] at run
  exact (later_of_run run).accepted_before (reachable_of_run reach) first second submitted

/-- Two lanes, with room for two keys: a task of key 1 waits. -/
def pairOne (a : Allocator) : World Unit :=
  calm ⟨tiny 2 2, a, [some ⟨0, .running, true, [⟨1, 0, 0⟩], false, .idle, false⟩, none],
      false, false⟩
    [underKey 1 0 (.done ⟨.accepted none, []⟩)] [.resolved 0 1 0, .accepted ⟨1, 0, 0⟩ 0]

/-- And a task of key 2 waits on the other lane. -/
def pairTwo (a : Allocator) : World Unit :=
  calm ⟨tiny 2 2, a, [some ⟨0, .running, true, [⟨1, 0, 0⟩], false, .idle, false⟩,
      some ⟨1, .running, true, [⟨2, 1, 1⟩], false, .idle, false⟩], false, false⟩
    [underKey 1 0 (.done ⟨.accepted none, []⟩), underKey 2 1 (.done ⟨.accepted none, []⟩)]
    [.resolved 0 1 0, .accepted ⟨1, 0, 0⟩ 0, .resolved 1 2 1, .accepted ⟨2, 1, 1⟩ 1]

/-- Key 1 is found on its lane again after key 2. -/
theorem run_pair : ∃ a₁ a₂ a₃,
    (fresh (newborn 2 2) ⟨0⟩).run (Act.submit 1 false :: List.replicate 7 (Act.advance 0)) =
        some (pairOne a₁) ∧
      (pairOne a₁).run (Act.submit 2 false :: List.replicate 7 (Act.advance 1)) =
        some (pairTwo a₂) ∧
      (pairTwo a₂).run [Act.submit 1 false, Act.advance 2, Act.advance 2] =
        some ((pairTwo a₂).lookedUp 1 0 a₃ []) := by
  have lane₁ : (newborn 2 2).allocator.loads.acquire.value.1 = 0 := by decide
  have lane₂ : (newborn 2 2).allocator.loads.acquire.value.2.acquire.value.1 = 1 := by decide
  obtain ⟨a₁, found₁, quiet₁, loads₁, capacity₁, keeps₁⟩ :=
    (keeps_newborn 2 2).resolve_room (V := Unit) (List.not_mem_nil (a := 1)) Nat.zero_lt_two
  obtain ⟨a₂, found₂, quiet₂, -, -, keeps₂⟩ :=
    keeps₁.resolve_room (V := Unit) (by decide : (2 : Key) ∉ _) (by rw [capacity₁]; decide)
  obtain ⟨a₃, found₃, quiet₃, -, -, -⟩ :=
    keeps₂.resolve_hit (List.mem_cons_of_mem _ List.mem_cons_self)
  rw [loads₁, lane₂] at found₂
  rw [lane₁] at found₁ found₃
  have quiet₃ : evictions (V := Unit) (a₂.resolve 1).events = [] := by
    rw [quiet₃]
    rfl
  refine ⟨a₁, a₂, a₃, ?_, ?_, ?_⟩
  · exact (run_submit (w := fresh (newborn 2 2) ⟨0⟩) 1 rfl rfl found₁ quiet₁ _).trans (by cbv)
  · exact (run_submit (w := pairOne a₁) 2 rfl rfl found₂ quiet₂ _).trans (by cbv)
  · exact run_submit (w := pairTwo a₂) 1 rfl rfl found₃ quiet₃ []

/-- Key 1 is looked up again after one other key, with room for two. -/
theorem spaced_key_runs_in_turn_of_pair : ∃ (d : Dispatcher Parcel) (acts : List (Act Unit))
    (w : World Unit), Dispatcher.create (tiny 2 2) 1 = .ok d ∧
      (fresh d ⟨0⟩).run acts = some w ∧ w.stops = [] ∧
      Spaced 1 ((tiny 2 2).maxKeys.toNat * (tiny 2 2).headroom.toNat) (lookups w.history) ∧
      acceptedUnder 1 w.history = [⟨1, 0, 0⟩, ⟨1, 0, 2⟩] ∧
      (∃ i, ∀ p j, .accepted p j ∈ w.history → p.key = 1 → j = i) ∧
      marksUnder 1 w.history <+: inTurn (acceptedUnder 1 w.history) := by
  obtain ⟨a₁, a₂, a₃, one, two, three⟩ := run_pair
  have made : Dispatcher.create (tiny 2 2) 1 = .ok (newborn 2 2) := rfl
  have whole : (((pairTwo a₂).lookedUp 1 0 a₃ []).run
      (List.replicate 3 (Act.advance 2) ++ [Act.receive 0, Act.inspect 0])).map
        (fun w : World Unit => (w.stops, lookups w.history, acceptedUnder 1 w.history)) =
      some ([], [1, 2, 1], [⟨1, 0, 0⟩, ⟨1, 0, 2⟩]) := by cbv
  obtain ⟨w, run, seen⟩ := Option.map_eq_some_iff.1 whole
  obtain ⟨calm, seen⟩ := Prod.mk.inj seen
  obtain ⟨keys, accepted⟩ := Prod.mk.inj seen
  have run := run_of_parts one (run_of_parts two (run_of_parts three run))
  have spaced : Spaced 1 ((tiny 2 2).maxKeys.toNat * (tiny 2 2).headroom.toNat)
      (lookups w.history) := by
    rw [keys]
    intro before between after split _
    have few := congrArg List.length split
    have fewer := (List.dedup_sublist between).length_le
    simp only [List.length_append, List.length_cons, List.length_nil] at few
    change _ < 2 * 1
    omega
  have turn := spaced_key_runs_in_turn made run calm spaced
  exact ⟨_, _, w, made, run, calm, spaced, accepted, turn.1, turn.2.1⟩

end World

end OrderedLanes
