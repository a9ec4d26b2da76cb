import OrderedLanes.Proofs.KeyRoll

/-!
How evenly the keys lie on the lanes. A new key goes to a lane of least load, so a
lane gets ahead by one at most; an eviction can then take a key from any lane, and
leaves at most one lane behind by two. The next new key goes to that very lane.
-/

namespace OrderedLanes

namespace Roll

variable {lanes : Nat} {pairs front : List (Key × LaneIndex)} {r : Roll}

/-- No two lanes differ by more than one. -/
def Even (lanes : Nat) (pairs : List (Key × LaneIndex)) : Prop :=
  ∀ i < lanes, ∀ j < lanes, load pairs i ≤ load pairs j + 1

/-- No two lanes differ by more than two, and a lane that lies back by two is the only one. -/
structure Level (lanes : Nat) (pairs : List (Key × LaneIndex)) : Prop where
  near : ∀ i < lanes, ∀ j < lanes, load pairs i ≤ load pairs j + 2
  lone : ∀ i < lanes, ∀ j < lanes, load pairs i = load pairs j + 2 →
    ∀ k < lanes, load pairs k = load pairs j → k = j

theorem Even.level (h : Even lanes pairs) : Level lanes pairs := by
  constructor
  · intro i hi j hj
    have := h i hi j hj
    omega
  · intro i hi j hj apart
    have := h i hi j hj
    omega

theorem even_nil (lanes : Nat) : Even lanes [] := fun _ _ _ _ => Nat.zero_le _

/-- The new key goes to the lane that lies back, if there is one. -/
theorem Level.even_cons (h : Level lanes pairs) (any : 0 < lanes) (key : Key) :
    Even lanes ((key, leastLoaded lanes pairs) :: pairs) := by
  obtain ⟨within, least⟩ := leastLoaded_spec any pairs
  generalize leastLoaded lanes pairs = lane at within least ⊢
  intro i hi j hj
  have near := h.near i hi j hj
  have low := least j hj
  rw [load_cons, load_cons]
  by_cases own : lane = i
  · subst own
    rw [if_pos rfl]
    split <;> omega
  · by_cases first : lane = j
    · subst first
      rw [if_neg own, if_pos rfl]
      omega
    · -- A lane two behind would be the one that is chosen.
      have apart : load pairs i ≠ load pairs j + 2 := by
        intro two
        have back := h.near i hi lane within
        exact first (h.lone i hi j hj two lane within (by omega))
      rw [if_neg own, if_neg first]
      omega

/-- The lane that loses a key may be left alone behind the others. -/
theorem Even.level_of_snoc {last : Key × LaneIndex} (h : Even lanes (front ++ [last])) :
    Level lanes front := by
  obtain ⟨key, lane⟩ := last
  simp only [Even, load_snoc] at h
  constructor
  · intro i hi j hj
    have := h i hi j hj
    split at this <;> split at this <;> omega
  · intro i hi j hj apart k hk same
    -- Only the lane that lost the key can lie two behind.
    have loser : ∀ x < lanes, load front x = load front j → lane = x := by
      intro x hx back
      by_contra other
      have near := h i hi x hx
      rw [if_neg other] at near
      split at near <;> omega
    rw [← loser k hk same, ← loser j hj rfl]

/-! ### Along the calls -/

theorem Fit.level_resolve (h : r.Fit) (level : Level r.lanes r.pairs) (key : Key) :
    Level r.lanes (r.resolve key).value.2.pairs := by
  cases h.resolving key with
  | hit lane there result =>
    rw [result]
    have same := load_perm (perm_toFront h.keys there)
    exact ⟨same ▸ level.near, same ▸ level.lone⟩
  | room absent room result =>
    rw [result]
    exact (level.even_cons h.lanes key).level
  | full front last split absent full result =>
    have even := level.even_cons h.lanes key
    rw [result]
    generalize leastLoaded r.lanes r.pairs = lane at even ⊢
    rw [split, ← List.cons_append] at even
    exact even.level_of_snoc

/-- Where nothing is evicted no lane gets further ahead. -/
theorem Fit.even_resolve (h : r.Fit) (even : Even r.lanes r.pairs) (key : Key)
    (quiet : ∀ key' lane, .evicted key' lane ∉ (r.resolve key).events) :
    Even r.lanes (r.resolve key).value.2.pairs := by
  cases h.resolving key with
  | hit lane there result =>
    rw [result]
    exact fun i hi j hj => load_perm (perm_toFront h.keys there) ▸ even i hi j hj
  | room absent room result =>
    rw [result]
    exact even.level.even_cons h.lanes key
  | full front last split absent full result =>
    rw [result] at quiet
    exact absurd List.mem_cons_self (quiet last.1 last.2)

theorem Fit.level_call (h : r.Fit) (level : Level r.lanes r.pairs) (c : Call) :
    Level r.lanes (r.call c).value.2.pairs := by
  cases c with
  | resolve key => exact h.level_resolve level key
  | clear => exact (even_nil r.lanes).level
  | _ => exact level

theorem Fit.even_call (h : r.Fit) (even : Even r.lanes r.pairs) (c : Call)
    (quiet : ∀ key lane, .evicted key lane ∉ (r.call c).events) :
    Even r.lanes (r.call c).value.2.pairs := by
  cases c with
  | resolve key =>
    refine h.even_resolve even key fun key' lane noted => quiet key' lane ?_
    exact List.mem_append_left _ noted
  | clear => exact even_nil r.lanes
  | _ => exact even

theorem Fit.level_calls (h : r.Fit) (level : Level r.lanes r.pairs) (cs : List Call) :
    Level r.lanes (r.calls cs).value.2.pairs := by
  induction cs generalizing r with
  | nil => exact level
  | cons c cs ih =>
    have next := ih (h.call c) (lanes_call r c ▸ h.level_call level c)
    rwa [lanes_call] at next

theorem Fit.even_calls (h : r.Fit) (even : Even r.lanes r.pairs) (cs : List Call)
    (quiet : ∀ key lane, .evicted key lane ∉ (r.calls cs).events) :
    Even r.lanes (r.calls cs).value.2.pairs := by
  induction cs generalizing r with
  | nil => exact even
  | cons c cs ih =>
    have first : ∀ key lane, .evicted key lane ∉ (r.call c).events := fun key lane noted =>
      quiet key lane (List.mem_append_left _ noted)
    have later : ∀ key lane, .evicted key lane ∉ ((r.call c).value.2.calls cs).events :=
      fun key lane noted => quiet key lane
        (List.mem_append_right _ (List.mem_append_left _ noted))
    have next := ih (h.call c) (lanes_call r c ▸ h.even_call even c first) later
    rwa [lanes_call] at next

/-- Nothing is listed at first and after a clearing. -/
theorem pairs_of_fresh (r : Roll) (empty : r.pairs = []) {before : List Call}
    (fresh : before = [] ∨ before.getLast? = some .clear) : (r.calls before).value.2.pairs = [] := by
  rcases fresh with rfl | cleared
  · exact empty
  · obtain ⟨front, rfl⟩ := List.getLast?_eq_some_iff.1 cleared
    rw [calls_append]
    rfl

end Roll

/-! ### Smallest and largest count -/

/-- The smallest of the counts. -/
def lowest (counts : List Nat) : Nat := counts.min?.getD 0

/-- The largest of the counts. -/
def highest (counts : List Nat) : Nat := counts.max?.getD 0

namespace Roll

variable {lanes : Nat} {pairs : List (Key × LaneIndex)}

theorem mem_loads {n : Nat} : n ∈ loads lanes pairs ↔ ∃ i < lanes, load pairs i = n := by
  simp [loads]

theorem loads_ne_nil (any : 0 < lanes) : loads lanes pairs ≠ [] :=
  List.ne_nil_of_mem (mem_loads.2 ⟨0, any, rfl⟩)

theorem lowest_loads (any : 0 < lanes) (pairs : List (Key × LaneIndex)) :
    ∃ i < lanes, load pairs i = lowest (loads lanes pairs) := by
  apply mem_loads.1
  rw [lowest, List.min?_eq_some_min (loads_ne_nil any)]
  exact List.min_mem _

theorem highest_loads (any : 0 < lanes) (pairs : List (Key × LaneIndex)) :
    ∃ i < lanes, load pairs i = highest (loads lanes pairs) := by
  apply mem_loads.1
  rw [highest, List.max?_eq_some_max (loads_ne_nil any)]
  exact List.max_mem _

theorem Even.highest_le (h : Even lanes pairs) (any : 0 < lanes) :
    highest (loads lanes pairs) ≤ lowest (loads lanes pairs) + 1 := by
  obtain ⟨low, hlow, least⟩ := lowest_loads any pairs
  obtain ⟨high, hhigh, most⟩ := highest_loads any pairs
  rw [← least, ← most]
  exact h high hhigh low hlow

theorem Level.highest_le (h : Level lanes pairs) (any : 0 < lanes) :
    highest (loads lanes pairs) ≤ lowest (loads lanes pairs) + 2 := by
  obtain ⟨low, hlow, least⟩ := lowest_loads any pairs
  obtain ⟨high, hhigh, most⟩ := highest_loads any pairs
  rw [← least, ← most]
  exact h.near high hhigh low hlow

theorem Level.lone_lowest (h : Level lanes pairs) (any : 0 < lanes)
    (apart : highest (loads lanes pairs) = lowest (loads lanes pairs) + 2) :
    ∃! i : Nat, (loads lanes pairs)[i]? = some (lowest (loads lanes pairs)) := by
  obtain ⟨low, hlow, least⟩ := lowest_loads any pairs
  obtain ⟨high, hhigh, most⟩ := highest_loads any pairs
  rw [← least, ← most] at apart
  refine ⟨low, ?_, fun other found => ?_⟩
  · rw [← least]
    exact getElem?_loads hlow
  · obtain ⟨within, -⟩ := List.getElem?_eq_some_iff.1 found
    rw [length_loads] at within
    dsimp only at found
    rw [getElem?_loads within, ← least, Option.some.injEq] at found
    exact h.lone high hhigh low hlow apart other within found

end Roll

namespace Allocator

variable {lanes : Nat} {maxKeys headroom : UInt32} {a : Allocator}

/-- Nothing was evicted since the first call or since a clearing. -/
def Unevicted (a : Allocator) (cs : List Call) : Prop :=
  ∃ before after, cs = before ++ after ∧ (before = [] ∨ before.getLast? = some .clear) ∧
    ∀ key lane, .evicted key lane ∉ ((a.calls before).value.2.calls after).events

/--
Of all lanes the fullest and the emptiest are never more than two keys apart, and if they are two
apart then only one lane is that empty. As long as nothing has been evicted they are one apart at
most.
-/
theorem keys_even_by_lane (made : withHeadroom lanes maxKeys headroom = .ok a) (cs : List Call) :
    (a.calls cs).value.2.keysByLane.length = lanes ∧
      highest (a.calls cs).value.2.keysByLane ≤ lowest (a.calls cs).value.2.keysByLane + 2 ∧
      (highest (a.calls cs).value.2.keysByLane = lowest (a.calls cs).value.2.keysByLane + 2 →
        ∃! i : Nat, (a.calls cs).value.2.keysByLane[i]? =
          some (lowest (a.calls cs).value.2.keysByLane)) ∧
      (a.Unevicted cs →
        highest (a.calls cs).value.2.keysByLane ≤ lowest (a.calls cs).value.2.keysByLane + 1) := by
  have start := mirrors_of_withHeadroom made
  have fit := start.fit
  have counts : ∀ cs, (a.calls cs).value.2.keysByLane = Roll.loads lanes
      ((Roll.start lanes (maxKeys.toNat * headroom.toNat)).calls cs).value.2.pairs := by
    intro cs
    rw [(start.calls cs).mirrors.keysByLane, Roll.lanes_calls]
    rfl
  have level := fit.level_calls (Roll.even_nil lanes).level cs
  rw [counts]
  refine ⟨Roll.length_loads, level.highest_le fit.lanes, level.lone_lowest fit.lanes, ?_⟩
  rintro ⟨before, after, rfl, fresh, quiet⟩
  rw [((start.calls before).mirrors.calls after).events] at quiet
  have empty := Roll.pairs_of_fresh (Roll.start lanes (maxKeys.toNat * headroom.toNat)) rfl fresh
  have even := ((fit.calls before).even_calls (empty ▸ Roll.even_nil _) after quiet)
  rw [Roll.lanes_calls, ← Roll.calls_append] at even
  exact even.highest_le fit.lanes

/-- Of two lanes one has both keys: they are two apart, and one lane is empty. -/
theorem keys_even_by_lane_of_two : ∃ a, withHeadroom 2 2 1 = .ok a ∧
    (a.calls [.resolve 1, .resolve 2, .resolve 1, .resolve 3]).value.2.keysByLane = [2, 0] ∧
    ∃! i : Nat, (a.calls [.resolve 1, .resolve 2, .resolve 1, .resolve 3]).value.2.keysByLane[i]? =
      some 0 := by
  have made : withHeadroom 2 2 1 = .ok ⟨2, 2, 2, .empty, .fresh 2, .empty⟩ := rfl
  obtain ⟨-, -, lone, -⟩ := keys_even_by_lane made [.resolve 1, .resolve 2, .resolve 1, .resolve 3]
  have counts := ((mirrors_of_withHeadroom made).calls
    [.resolve 1, .resolve 2, .resolve 1, .resolve 3]).mirrors.keysByLane
  have listed : Roll.loads 2 ((Roll.start 2 2).calls
      [.resolve 1, .resolve 2, .resolve 1, .resolve 3]).value.2.pairs = [2, 0] := by decide
  have same := counts.trans listed
  rw [same] at lone
  exact ⟨_, made, same, same ▸ lone (by decide)⟩

end Allocator

end OrderedLanes
