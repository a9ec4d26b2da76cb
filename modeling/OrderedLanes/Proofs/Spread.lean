import OrderedLanes.Proofs.RecencyWindow
import OrderedLanes.Proofs.Fairness

/-!
Where the keys go as long as all of them fit. The distinct keys are dealt to the
lanes in turn, in the order in which each is resolved first, and a key resolved
again finds the lane it has. So the counts depend on the number of distinct keys
alone, and callers that resolve the same keys in any interleaving leave the same
counts; each of them has been told the lanes that are assigned in the end.
-/

namespace OrderedLanes

/-! ### Dealing in turn -/

/-- The distinct keys that the calls resolve, in the order in which each is resolved first. -/
def firsts (cs : List Call) : List Key := (cs.filterMap Call.resolved?).eraseDups

/-- Keys dealt to the lanes in turn, from lane 0 on. -/
def dealt (lanes : Nat) (keys : List Key) : List (Key × LaneIndex) :=
  keys.zipIdx.map fun x => (x.1, x.2 % lanes)

/-- How many of `n` things each lane gets when they are dealt in turn. -/
def spread (lanes n : Nat) : List Nat := (List.range lanes).map fun i => (n + lanes - 1 - i) / lanes

theorem nodup_firsts (cs : List Call) : (firsts cs).Nodup := nodup_eraseDups _

theorem mem_firsts {cs : List Call} {key : Key} : key ∈ firsts cs ↔ .resolve key ∈ cs := by
  rw [firsts, List.mem_eraseDups, List.mem_filterMap]
  constructor
  · rintro ⟨c, there, resolved⟩
    cases c <;> cases resolved
    exact there
  · intro there
    exact ⟨_, there, rfl⟩

theorem firsts_append (cs more : List Call) : firsts cs <+: firsts (cs ++ more) := by
  rw [firsts, firsts, List.filterMap_append, List.eraseDups_append]
  exact List.prefix_append _ _

theorem firsts_snoc_resolve (cs : List Call) (key : Key) : firsts (cs ++ [.resolve key]) =
    if key ∈ firsts cs then firsts cs else firsts cs ++ [key] := by
  have resolved : [Call.resolve key].filterMap Call.resolved? = [key] := rfl
  rw [firsts, List.filterMap_append, resolved, List.eraseDups_append]
  by_cases known : key ∈ firsts cs
  · have listed : key ∈ cs.filterMap Call.resolved? := List.mem_eraseDups.1 known
    rw [if_pos known, List.cons_removeAll, if_neg (by simpa using listed)]
    simp [firsts]
  · have absent : key ∉ cs.filterMap Call.resolved? := fun there =>
      known (List.mem_eraseDups.2 there)
    rw [if_neg known, List.cons_removeAll, if_pos (by simpa using absent)]
    simp [firsts, List.eraseDups_cons]

theorem firsts_snoc_of_not_resolve {c : Call} (other : c.resolved? = none) (cs : List Call) :
    firsts (cs ++ [c]) = firsts cs := by
  simp [firsts, other]

theorem dealt_snoc (lanes : Nat) (keys : List Key) (key : Key) :
    dealt lanes (keys ++ [key]) = dealt lanes keys ++ [(key, keys.length % lanes)] := by
  simp [dealt, List.zipIdx_append]

theorem keys_dealt (lanes : Nat) (keys : List Key) : (dealt lanes keys).map Prod.fst = keys := by
  rw [dealt, List.map_map]
  exact List.zipIdx_map_fst 0 keys

theorem mem_dealt {lanes j : Nat} {keys : List Key} {key : Key} (there : keys[j]? = some key) :
    (key, j % lanes) ∈ dealt lanes keys :=
  List.mem_map.2 ⟨(key, j), List.mem_zipIdx_iff_getElem?.2 there, rfl⟩

theorem dealt_append (lanes : Nat) {keys more : List Key} (first : keys <+: more) :
    dealt lanes keys <+: dealt lanes more := by
  obtain ⟨rest, rfl⟩ := first
  rw [dealt, dealt, List.zipIdx_append, List.map_append]
  exact List.prefix_append _ _

theorem dealt_unique {lanes : Nat} {keys : List Key} {key : Key} {i j : LaneIndex}
    (distinct : keys.Nodup) (left : (key, i) ∈ dealt lanes keys)
    (right : (key, j) ∈ dealt lanes keys) : i = j := by
  have alone := keys_dealt lanes keys ▸ distinct
  have found := Roll.lookup_of_mem alone left
  rw [Roll.lookup_of_mem alone right] at found
  exact (Option.some.inj found).symm

/-- The lanes before the next one in turn are one ahead. -/
theorem turns_eq {lanes i : Nat} (within : i < lanes) (n : Nat) :
    (n + lanes - 1 - i) / lanes = n / lanes + if i < n % lanes then 1 else 0 := by
  have rest := Nat.mod_lt n (Nat.zero_lt_of_lt within)
  have whole := Nat.div_add_mod n lanes
  split
  · next before =>
    have count : n + lanes - 1 - i = n % lanes - 1 - i + lanes * (n / lanes + 1) := by
      rw [Nat.mul_add]
      omega
    rw [count, Nat.add_mul_div_left _ _ (Nat.zero_lt_of_lt within), Nat.div_eq_of_lt (by omega),
      Nat.zero_add]
  · next reached =>
    have count : n + lanes - 1 - i = n % lanes + lanes - 1 - i + lanes * (n / lanes) := by
      omega
    rw [count, Nat.add_mul_div_left _ _ (Nat.zero_lt_of_lt within), Nat.div_eq_of_lt (by omega),
      Nat.zero_add, Nat.add_zero]

namespace Roll

variable {lanes : Nat} {r : Roll}

theorem load_dealt {i : Nat} (within : i < lanes) (keys : List Key) :
    load (dealt lanes keys) i = (keys.length + lanes - 1 - i) / lanes := by
  induction keys using List.reverseRecOn with
  | nil =>
    have none : (lanes - 1 - i) / lanes = 0 := Nat.div_eq_of_lt (by omega)
    simp [dealt, load, none]
  | append_singleton keys key ih =>
    have count : keys.length + 1 + lanes - 1 - i = keys.length + lanes - 1 - i + 1 := by omega
    rw [dealt_snoc, load_snoc, ih, List.length_append, List.length_singleton, count, Nat.succ_div]
    congr 1
    -- The sum is a multiple of the lane count just when it is this lane's turn.
    have turn : lanes ∣ keys.length + lanes - 1 - i + 1 ↔ keys.length % lanes = i := by
      have sum : keys.length + lanes - 1 - i + 1 = keys.length + lanes - i := by omega
      rw [sum, ← Nat.modEq_iff_dvd' (by omega), Nat.ModEq, Nat.mod_eq_of_lt within,
        Nat.add_mod_right, eq_comm]
    simp only [turn]

theorem loads_dealt (lanes : Nat) (keys : List Key) :
    loads lanes (dealt lanes keys) = spread lanes keys.length := by
  rw [loads, spread]
  exact List.map_congr_left fun i there => load_dealt (List.mem_range.1 there) keys

/-- Of the lanes with the fewest keys the first one is next in turn. -/
theorem leastLoaded_dealt (any : 0 < lanes) (keys : List Key) :
    leastLoaded lanes (dealt lanes keys) = keys.length % lanes := by
  have next := Nat.mod_lt keys.length any
  refine leastLoaded_eq next fun i within => ?_
  rw [load_dealt next, load_dealt within, turns_eq next, turns_eq within, if_neg (Nat.lt_irrefl _)]
  rcases Nat.lt_or_ge i (keys.length % lanes) with before | reached
  · exact .inl (by simp [before])
  · exact .inr ⟨by rw [if_neg (Nat.not_lt.2 reached)], reached⟩

theorem leastLoaded_perm {pairs other : List (Key × LaneIndex)} (same : pairs.Perm other) :
    leastLoaded lanes pairs = leastLoaded lanes other := by
  rw [leastLoaded, leastLoaded, load_perm same]

/-- One more key: a known one has its lane, and a new one gets the lane whose turn it is. -/
theorem Fit.dealt_resolve (h : r.Fit) {cs : List Call} (key : Key)
    (same : r.pairs.Perm (dealt r.lanes (firsts cs)))
    (few : (firsts (cs ++ [.resolve key])).length ≤ r.capacity) :
    (r.resolve key).value.2.pairs.Perm (dealt r.lanes (firsts (cs ++ [.resolve key]))) ∧
      (key, (r.resolve key).value.1) ∈ dealt r.lanes (firsts (cs ++ [.resolve key])) := by
  have keys : (r.pairs.map Prod.fst).Perm (firsts cs) := keys_dealt r.lanes (firsts cs) ▸ same.map _
  cases h.resolving key with
  | hit lane there result =>
    have known : key ∈ firsts cs := keys.mem_iff.1 (List.mem_map_of_mem there)
    rw [result, firsts_snoc_resolve, if_pos known]
    exact ⟨(perm_toFront h.keys there).symm.trans same, same.mem_iff.1 there⟩
  | room absent room result =>
    have new : key ∉ firsts cs := fun known => absent (keys.mem_iff.2 known)
    rw [result, firsts_snoc_resolve, if_neg new, dealt_snoc, leastLoaded_perm same,
      leastLoaded_dealt h.lanes]
    exact ⟨(same.cons _).trans (List.perm_append_singleton _ _).symm,
      List.mem_append_right _ (List.mem_singleton_self _)⟩
  | full front last split absent full result =>
    have new : key ∉ firsts cs := fun known => absent (keys.mem_iff.2 known)
    have all : r.pairs.length = (firsts cs).length := by simpa using keys.length_eq
    rw [firsts_snoc_resolve, if_neg new, List.length_append, ← all, split] at few
    simp only [List.length_append, List.length_singleton] at few
    omega

theorem Fit.dealt_calls (h : r.Fit) (empty : r.pairs = []) {cs : List Call}
    (uncleared : .clear ∉ cs) (few : (firsts cs).length ≤ r.capacity) :
    (r.calls cs).value.2.pairs.Perm (dealt r.lanes (firsts cs)) := by
  induction cs using List.reverseRecOn with
  | nil =>
    change r.pairs.Perm []
    rw [empty]
  | append_singleton cs c ih =>
    rw [List.mem_append, not_or] at uncleared
    have before := ih uncleared.1 ((firsts_append cs [c]).length_le.trans few)
    rw [calls_append]
    cases c with
    | resolve key =>
      rw [← lanes_calls r cs] at before ⊢
      exact ((h.calls cs).dealt_resolve key before (capacity_calls r cs ▸ few)).1
    | clear => exact absurd (List.mem_singleton_self _) uncleared.2
    | _ =>
      rw [firsts_snoc_of_not_resolve rfl]
      exact before

/-- Each resolving answers the lane whose turn it was when the key was met first. -/
theorem Fit.dealt_answer (h : r.Fit) (empty : r.pairs = []) {past rest : List Call} {key : Key}
    {j : Nat} (uncleared : .clear ∉ past ++ .resolve key :: rest)
    (few : (firsts (past ++ .resolve key :: rest)).length ≤ r.capacity)
    (place : (firsts (past ++ .resolve key :: rest))[j]? = some key) :
    ((r.calls past).value.2.resolve key).value.1 = j % r.lanes := by
  have met : firsts (past ++ [.resolve key]) <+: firsts (past ++ .resolve key :: rest) := by
    have split : past ++ Call.resolve key :: rest = past ++ [.resolve key] ++ rest := by simp
    exact split ▸ firsts_append _ rest
  have before := h.dealt_calls empty (fun cleared => uncleared (List.mem_append_left _ cleared))
    ((firsts_append past _).length_le.trans few)
  rw [← lanes_calls r past] at before
  obtain ⟨-, told⟩ := (h.calls past).dealt_resolve key before
    (capacity_calls r past ▸ met.length_le.trans few)
  rw [lanes_calls] at told
  exact dealt_unique (nodup_firsts _) ((dealt_append r.lanes met).subset told) (mem_dealt place)

end Roll

/-! ### Several callers -/

/-- Keys that one caller resolves one after another, and the lanes answered so far. -/
structure Errand where
  keys : List Key
  lanes : List LaneIndex
  deriving DecidableEq, Repr

/-- An allocator among callers. -/
structure Crowd where
  allocator : Allocator
  errands : List Errand

namespace Crowd

variable {a : Allocator} {c : Crowd} {plans : List (List Key)} {order : List Key}
  {turns : List Nat} {n : Nat}

/-- Each caller has its list of keys before it. -/
def start (a : Allocator) (plans : List (List Key)) : Crowd := ⟨a, plans.map fun keys => ⟨keys, []⟩⟩

/-- Caller `n` resolves its next key; after its last one it does nothing more. -/
def step (c : Crowd) (n : Nat) : Crowd :=
  match c.errands[n]? with
  | none => c
  | some e =>
    match e.keys[e.lanes.length]? with
    | none => c
    | some key =>
      let (lane, allocator) := (c.allocator.resolve key).value
      { allocator, errands := c.errands.set n { e with lanes := e.lanes ++ [lane] } }

/-- The callers take the turns given. -/
def run (c : Crowd) (turns : List Nat) : Crowd := turns.foldl step c

theorem run_snoc (c : Crowd) (turns : List Nat) (n : Nat) :
    c.run (turns ++ [n]) = (c.run turns).step n := by
  simp [run]

/-- What one turn can do. -/
inductive Turn (c : Crowd) (n : Nat) (c' : Crowd) : Prop
  | idle (finished : ∀ e, c.errands[n]? = some e → e.keys.length ≤ e.lanes.length) (same : c' = c)
  | served (e : Errand) (key : Key) (there : c.errands[n]? = some e)
      (next : e.keys[e.lanes.length]? = some key)
      (allocator : c'.allocator = (c.allocator.resolve key).value.2)
      (errands : c'.errands = c.errands.set n
        { e with lanes := e.lanes ++ [(c.allocator.resolve key).value.1] })

theorem turn_step (c : Crowd) (n : Nat) : c.Turn n (c.step n) := by
  unfold step
  split
  · next missing => exact .idle (by simp [missing]) rfl
  · next e there =>
    split
    · next finished =>
      refine .idle (fun other found => ?_) rfl
      obtain rfl := Option.some.inj (there.symm.trans found)
      exact List.getElem?_eq_none_iff.1 finished
    · next key next => exact .served e key there next rfl rfl

/-- The calls of all callers are the resolvings of the keys in `order`. -/
structure Served (a : Allocator) (plans : List (List Key)) (turns : List Nat) (order : List Key)
    (c : Crowd) : Prop where
  allocator : c.allocator = (a.calls (order.map .resolve)).value.2
  keys : c.errands.map Errand.keys = plans
  turn : ∀ n e, c.errands[n]? = some e → e.lanes.length = min (turns.count n) e.keys.length
  /-- Each answer is the one that the key got at its place in the order. -/
  told : ∀ e ∈ c.errands, ∀ (k : Nat) (lane : LaneIndex), e.lanes[k]? = some lane →
    ∃ key past rest, e.keys[k]? = some key ∧ order = past ++ key :: rest ∧
      ((a.calls (past.map .resolve)).value.2.resolve key).value.1 = lane
  planned : ∀ key ∈ order, key ∈ plans.flatten

theorem served_start (a : Allocator) (plans : List (List Key)) :
    Served a plans [] [] (start a plans) := by
  have fresh : ∀ e ∈ (start a plans).errands, e.lanes = [] := by
    intro e there
    obtain ⟨keys, -, rfl⟩ := List.mem_map.1 there
    rfl
  refine ⟨rfl, ?_, fun n e found => ?_, fun e there k lane found => ?_,
    fun key there => nomatch there⟩
  · simp [start, Function.comp_def]
  · simp [fresh e (List.mem_of_getElem? found)]
  · simp [fresh e there] at found

theorem Served.step (h : c.Served a plans turns order) (n : Nat) :
    ∃ more, (c.step n).Served a plans (turns ++ [n]) (order ++ more) := by
  have others : ∀ m, m ≠ n → (turns ++ [n]).count m = turns.count m := by
    intro m other
    simp [List.count_append, other.symm]
  cases c.turn_step n with
  | idle finished same =>
    refine ⟨[], ?_⟩
    rw [same, List.append_nil]
    refine ⟨h.allocator, h.keys, fun m e found => ?_, h.told, h.planned⟩
    have before := h.turn m e found
    by_cases own : m = n
    · subst own
      have all := finished e found
      rw [List.count_append, List.count_singleton_self]
      omega
    · rw [before, others m own]
  | served e key there next allocator errands =>
    have listed := List.mem_of_getElem? there
    have within := (List.getElem?_eq_some_iff.1 next).1
    refine ⟨[key], ?_, ?_, fun m e' found => ?_, fun e' found k lane answered => ?_,
      fun other found => ?_⟩
    · rw [allocator, h.allocator, List.map_append, Allocator.calls_append]
      rfl
    · have own : (c.errands.map Errand.keys)[n]? = some e.keys := by simp [there]
      obtain ⟨inside, same⟩ := List.getElem?_eq_some_iff.1 own
      rw [errands, List.map_set, ← h.keys, ← same]
      exact List.set_getElem_self inside
    · rw [errands] at found
      rcases getElem?_set_cases found with ⟨rfl, rfl⟩ | ⟨other, old⟩
      · have before := h.turn m e there
        rw [List.count_append, List.count_singleton_self, List.length_append,
          List.length_singleton]
        dsimp only at before within ⊢
        omega
      · rw [h.turn m e' old, others m other]
    · rw [errands] at found
      rcases List.mem_or_eq_of_mem_set found with old | rfl
      · obtain ⟨key', past, rest, planned, rfl, answer⟩ := h.told e' old k lane answered
        exact ⟨key', past, rest ++ [key], planned, by simp, answer⟩
      · rcases getElem?_snoc_cases answered with ⟨rfl, rfl⟩ | old
        · exact ⟨key, order, [], next, rfl, by rw [h.allocator]⟩
        · obtain ⟨key', past, rest, planned, rfl, answer⟩ := h.told e listed k lane old
          exact ⟨key', past, rest ++ [key], planned, by simp, answer⟩
    · rcases List.mem_append.1 found with old | new
      · exact h.planned other old
      · obtain rfl := List.mem_singleton.1 new
        rw [← h.keys]
        exact List.mem_flatten.2 ⟨e.keys, List.mem_map_of_mem listed, List.mem_of_getElem? next⟩

theorem served_run (a : Allocator) (plans : List (List Key)) (turns : List Nat) :
    ∃ order, ((start a plans).run turns).Served a plans turns order := by
  induction turns using List.reverseRecOn with
  | nil => exact ⟨[], served_start a plans⟩
  | append_singleton turns n ih =>
    obtain ⟨order, served⟩ := ih
    obtain ⟨more, served⟩ := served.step n
    exact ⟨order ++ more, run_snoc _ turns n ▸ served⟩

/-- Who had as many turns as it has keys has an answer to each. -/
theorem Served.finished (h : c.Served a plans turns order)
    (enough : ∀ n plan, plans[n]? = some plan → plan.length ≤ turns.count n) :
    ∀ e ∈ c.errands, e.lanes.length = e.keys.length := by
  intro e there
  obtain ⟨n, found⟩ := List.mem_iff_getElem?.1 there
  have planned : plans[n]? = some e.keys := by
    rw [← h.keys, List.getElem?_map, found]
    rfl
  rw [h.turn n e found]
  exact Nat.min_eq_right (enough n e.keys planned)

theorem Served.mem_order (h : c.Served a plans turns order)
    (enough : ∀ n plan, plans[n]? = some plan → plan.length ≤ turns.count n) {key : Key} :
    key ∈ order ↔ key ∈ plans.flatten := by
  refine ⟨h.planned key, fun there => ?_⟩
  obtain ⟨plan, listed, there⟩ := List.mem_flatten.1 there
  rw [← h.keys] at listed
  obtain ⟨e, stands, rfl⟩ := List.mem_map.1 listed
  obtain ⟨k, found⟩ := List.mem_iff_getElem?.1 there
  have within := (List.getElem?_eq_some_iff.1 found).1
  rw [← h.finished enough e stands] at within
  obtain ⟨key', past, rest, same, rfl, -⟩ :=
    h.told e stands k _ (List.getElem?_eq_getElem within)
  obtain rfl := Option.some.inj (found.symm.trans same)
  simp

end Crowd

namespace Allocator

variable {lanes : Nat} {maxKeys headroom : UInt32} {a : Allocator} {r : Roll}
  {before after : List Call}

theorem Mirrors.dealt_answer (m : a.Mirrors r) (empty : r.pairs = []) {past rest : List Call}
    {key : Key} {j : Nat} (uncleared : .clear ∉ past ++ .resolve key :: rest)
    (few : (firsts (past ++ .resolve key :: rest)).length ≤ r.capacity)
    (place : (firsts (past ++ .resolve key :: rest))[j]? = some key) :
    ((a.calls past).value.2.resolve key).value.1 = j % r.lanes :=
  ((m.calls past).mirrors.resolve key).answer.trans (m.fit.dealt_answer empty uncleared few place)

theorem Mirrors.dealt_assignment (m : a.Mirrors r) (empty : r.pairs = [])
    (uncleared : .clear ∉ after) (few : (firsts after).length ≤ r.capacity) {key : Key} {j : Nat}
    (place : (firsts after)[j]? = some key) :
    (a.calls after).value.2.assignment key = some (j % r.lanes) := by
  have dealt := m.fit.dealt_calls empty uncleared few
  rw [(m.calls after).mirrors.assignment]
  exact Roll.lookup_of_mem (m.fit.calls after).keys (dealt.mem_iff.2 (mem_dealt place))

theorem Mirrors.dealt_counts (m : a.Mirrors r) (empty : r.pairs = [])
    (uncleared : .clear ∉ after) (few : (firsts after).length ≤ r.capacity) :
    (a.calls after).value.2.keysByLane = spread r.lanes (firsts after).length := by
  rw [(m.calls after).mirrors.keysByLane, Roll.lanes_calls, ← Roll.loads_dealt, Roll.loads,
    Roll.load_perm (m.fit.dealt_calls empty uncleared few), Roll.loads]

/-- Whoever got through was told the lanes that are assigned in the end. -/
theorem Mirrors.dealt_errand (m : a.Mirrors r) (empty : r.pairs = []) {c : Crowd}
    {plans : List (List Key)} {turns : List Nat} {order : List Key}
    (served : c.Served a plans turns order)
    (few : (firsts (order.map .resolve)).length ≤ r.capacity) {e : Errand} (there : e ∈ c.errands)
    (finished : e.lanes.length = e.keys.length) :
    e.lanes.map some = e.keys.map c.allocator.assignment := by
  have uncleared : Call.clear ∉ order.map Call.resolve := by simp
  apply List.ext_getElem?
  intro k
  rw [List.getElem?_map, List.getElem?_map]
  cases found : e.lanes[k]? with
  | none =>
    have beyond : e.keys[k]? = none := by
      rw [List.getElem?_eq_none_iff] at found ⊢
      exact finished ▸ found
    rw [beyond]
    rfl
  | some lane =>
    obtain ⟨key, past, rest, planned, rfl, answer⟩ := served.told e there k lane found
    have met : key ∈ firsts ((past ++ key :: rest).map .resolve) := by simp [mem_firsts]
    obtain ⟨j, place⟩ := List.mem_iff_getElem?.1 met
    have assigned := m.dealt_assignment empty uncleared few place
    rw [List.map_append, List.map_cons] at uncleared few place
    rw [planned, Option.map_some, Option.map_some, served.allocator, assigned, ← answer,
      m.dealt_answer empty uncleared few place]

/-- The keys that the calls resolve lie on the lanes in turn, whoever resolves them. -/
structure DealtInTurn (a : Allocator) (lanes : Nat) (after : List Call) : Prop where
  /-- Key number `j` gets lane `j` modulo the lane count, each time it is resolved. -/
  answers : ∀ (j : Nat) key past rest, (firsts after)[j]? = some key →
    after = past ++ .resolve key :: rest →
    ((a.calls past).value.2.resolve key).value.1 = j % lanes
  assigned : ∀ (j : Nat) key, (firsts after)[j]? = some key →
    (a.calls after).value.2.assignment key = some (j % lanes)
  counts : (a.calls after).value.2.keysByLane = spread lanes (firsts after).length
  /-- Callers with the same keys, in any interleaving in which each of them gets through. -/
  crowds : ∀ plans turns, (∀ key, key ∈ plans.flatten ↔ key ∈ firsts after) →
    (∀ (n : Nat) plan, plans[n]? = some plan → plan.length ≤ turns.count n) →
    ((Crowd.start a plans).run turns).allocator.keysByLane = (a.calls after).value.2.keysByLane ∧
    ((Crowd.start a plans).run turns).errands.map Errand.keys = plans ∧
    ∀ e ∈ ((Crowd.start a plans).run turns).errands,
      e.lanes.map some = e.keys.map ((Crowd.start a plans).run turns).allocator.assignment

/--
As long as no more distinct keys are resolved than fit, they are dealt to the lanes in turn, in
the order in which each is resolved first. The counts depend on their number only, and callers
that resolve the same keys side by side leave the same counts and are all told the lanes that are
assigned in the end.
-/
theorem keys_dealt_in_turn (made : withHeadroom lanes maxKeys headroom = .ok a)
    (fresh : before = [] ∨ before.getLast? = some .clear) (uncleared : .clear ∉ after)
    (few : (firsts after).length ≤ maxKeys.toNat * headroom.toNat) :
    (a.calls before).value.2.DealtInTurn lanes after := by
  have mirrors := ((mirrors_of_withHeadroom made).calls before).mirrors
  have empty := Roll.pairs_of_fresh (Roll.start lanes (maxKeys.toNat * headroom.toNat)) rfl fresh
  have wide := Roll.lanes_calls (Roll.start lanes (maxKeys.toNat * headroom.toNat)) before
  have room := Roll.capacity_calls (Roll.start lanes (maxKeys.toNat * headroom.toNat)) before
  generalize ((Roll.start lanes (maxKeys.toNat * headroom.toNat)).calls before).value.2 = r
    at mirrors empty wide room
  change r.lanes = lanes at wide
  change r.capacity = maxKeys.toNat * headroom.toNat at room
  generalize (a.calls before).value.2 = a at mirrors
  rw [← room] at few
  rw [← wide]
  refine ⟨?_, ?_, mirrors.dealt_counts empty uncleared few, ?_⟩
  · rintro j key past rest place rfl
    exact mirrors.dealt_answer empty uncleared few place
  · intro j key place
    exact mirrors.dealt_assignment empty uncleared few place
  · intro plans turns same enough
    obtain ⟨order, served⟩ := Crowd.served_run a plans turns
    have uncleared' : Call.clear ∉ order.map Call.resolve := by simp
    have alike : ∀ key, key ∈ firsts (order.map .resolve) ↔ key ∈ firsts after := by
      intro key
      rw [← same, ← served.mem_order enough]
      simp [mem_firsts]
    have size : (firsts (order.map .resolve)).length = (firsts after).length :=
      ((List.perm_ext_iff_of_nodup (nodup_firsts _) (nodup_firsts _)).2 alike).length_eq
    have few' := size.trans_le few
    refine ⟨?_, served.keys, fun e there => ?_⟩
    · rw [served.allocator, mirrors.dealt_counts empty uncleared' few', size,
        mirrors.dealt_counts empty uncleared few]
    · exact mirrors.dealt_errand empty served few' there (served.finished enough e there)

/-- Two callers share three keys on two lanes after a clearing. -/
theorem keys_dealt_in_turn_of_two : ∃ a, withHeadroom 2 2 2 = .ok a ∧
    (firsts [.resolve 1, .resolve 2, .resolve 1, .nextStamp 2, .resolve 3]).length ≤ 4 ∧
    (a.calls [.resolve 9, .clear]).value.2.DealtInTurn 2
      [.resolve 1, .resolve 2, .resolve 1, .nextStamp 2, .resolve 3] ∧
    ((Crowd.start (a.calls [.resolve 9, .clear]).value.2 [[3, 1], [1, 2]]).run
      [1, 0, 1, 0]).allocator.keysByLane = [2, 1] := by
  have made : withHeadroom 2 2 2 = .ok ⟨2, 2, 4, .empty, .fresh 2, .empty⟩ := rfl
  have met : firsts [.resolve 1, .resolve 2, .resolve 1, .nextStamp 2, .resolve 3] = [1, 2, 3] := by
    decide
  have few : (firsts [.resolve 1, .resolve 2, .resolve 1, .nextStamp 2, .resolve 3]).length ≤ 4 :=
    met ▸ by decide
  have fresh : ([.resolve 9, .clear] : List Call).getLast? = some .clear := rfl
  have dealt := keys_dealt_in_turn made (.inr fresh) (by decide) few
  have enough : ∀ (n : Nat) (plan : List Key), [[3, 1], [1, 2]][n]? = some plan →
      plan.length ≤ [1, 0, 1, 0].count n := by
    rintro (_ | _ | n) plan found <;> cases found <;> decide
  have same : ∀ key, key ∈ [[3, 1], [1, 2]].flatten ↔
      key ∈ firsts [.resolve 1, .resolve 2, .resolve 1, .nextStamp 2, .resolve 3] := by
    intro key
    simp only [met, List.flatten_cons, List.flatten_nil, List.append_nil, List.cons_append,
      List.nil_append, List.mem_cons, List.not_mem_nil, or_false]
    tauto
  obtain ⟨counts, -⟩ := dealt.crowds [[3, 1], [1, 2]] [1, 0, 1, 0] same enough
  exact ⟨_, made, few, dealt, counts.trans (dealt.counts.trans (by decide))⟩

end Allocator

end OrderedLanes
