import OrderedLanes.Proofs.KeyRoll

/-!
Which keys are assigned, read off the history of calls. Going back from the last
call to the last clearing, the keys resolved are met one by one; as many distinct
ones as fit are assigned, in this order, and each of them is on the lane that its
last resolving found.
-/

namespace OrderedLanes

/-! ### Distinct keys, first met first -/

theorem eraseDups_filter (p : Key → Bool) (l : List Key) :
    (l.filter p).eraseDups = l.eraseDups.filter p := by
  cases l with
  | nil => rfl
  | cons first rest =>
    have ih := eraseDups_filter p (rest.filter fun k => !k == first)
    rw [List.eraseDups_cons]
    by_cases kept : p first
    · rw [List.filter_cons_of_pos kept, List.filter_cons_of_pos kept, List.eraseDups_cons, ← ih,
        List.filter_filter, List.filter_filter]
      simp only [Bool.and_comm]
    · rw [List.filter_cons_of_neg kept, List.filter_cons_of_neg kept, ← ih, List.filter_filter]
      congr 1
      refine List.filter_congr fun k there => ?_
      by_cases same : k = first
      · simp [same, kept]
      · simp [same]
termination_by l.length
decreasing_by
  have shorter := List.length_filter_le (fun k => !k == first) rest
  simp only [List.length_cons]
  omega

theorem eraseDups_cons_ne (key : Key) (l : List Key) :
    (key :: l).eraseDups = key :: l.eraseDups.filter (· ≠ key) := by
  rw [List.eraseDups_cons, eraseDups_filter]
  congr 2
  funext other
  by_cases same : other = key <;> simp [same]

theorem nodup_eraseDups (l : List Key) : l.eraseDups.Nodup := by
  induction l with
  | nil => exact .nil
  | cons first rest ih =>
    rw [eraseDups_cons_ne]
    exact List.nodup_cons.2 ⟨by simp, ih.filter _⟩

theorem length_eraseDups (l : List Key) : l.eraseDups.length = l.toFinset.card := by
  rw [← List.toFinset_card_of_nodup (nodup_eraseDups l)]
  congr 1
  ext k
  simp

/-- A key is among the first few distinct ones if few others come before it. -/
theorem mem_take_eraseDups {recent older : List Key} {key : Key} {n : Nat}
    (new : key ∉ recent) :
    key ∈ (recent ++ key :: older).eraseDups.take n ↔ recent.toFinset.card < n := by
  have absent : key ∉ recent.eraseDups := by simpa using new
  have split : ∃ rest, (recent ++ key :: older).eraseDups = recent.eraseDups ++ key :: rest := by
    rw [List.eraseDups_append, List.cons_removeAll, if_pos (by simpa using new),
      List.eraseDups_cons]
    exact ⟨_, rfl⟩
  obtain ⟨rest, split⟩ := split
  rw [split, ← length_eraseDups, List.take_append, List.mem_append]
  constructor
  · rintro (first | later)
    · exact absurd (List.mem_of_mem_take first) absent
    · by_contra many
      rw [Nat.sub_eq_zero_of_le (Nat.le_of_not_lt many)] at later
      cases later
  · intro few
    obtain ⟨more, room⟩ := Nat.exists_eq_succ_of_ne_zero (Nat.sub_ne_zero_of_lt few)
    rw [room]
    exact .inr List.mem_cons_self

/-- What has fallen out does not matter for what is kept. -/
theorem take_keys_toFront {l : List Key} (distinct : l.Nodup) (key : Key) (n : Nat) :
    (key :: (l.take n).filter (· ≠ key)).take n = (key :: l.filter (· ≠ key)).take n := by
  have keys : (l.map fun k => (k, (0 : LaneIndex))).map Prod.fst = l := by
    simp [Function.comp_def]
  have kept : (toFront key 0 ((l.map fun k => (k, 0)).take n)).take n =
      (toFront key 0 (l.map fun k => (k, 0))).take n := take_toFront (keys.symm ▸ distinct) 0 n
  simpa [List.map_take, keys] using congrArg (List.map Prod.fst) kept

/-! ### The history of calls -/

namespace Call

/-- The key that a call resolves. -/
def resolved? : Call → Option Key
  | .resolve key => some key
  | _ => none

/-- The call changes which keys are assigned. -/
def changes : Call → Bool
  | .resolve _ => true
  | .clear => true
  | _ => false

end Call

/-- The keys resolved since the last clearing, the last one first. -/
def backwards (cs : List Call) : List Key :=
  (cs.reverse.takeWhile (· ≠ .clear)).filterMap Call.resolved?

@[simp] theorem backwards_nil : backwards [] = [] := rfl

theorem backwards_snoc (cs : List Call) (c : Call) : backwards (cs ++ [c]) =
    if c = .clear then [] else c.resolved?.toList ++ backwards cs := by
  by_cases clearing : c = .clear
  · simp [backwards, clearing]
  · simp [backwards, clearing, List.filterMap_cons]
    cases c.resolved? <;> rfl

theorem backwards_append {after : List Call} (uncleared : .clear ∉ after) (before : List Call) :
    backwards (before ++ after) = (after.filterMap Call.resolved?).reverse ++ backwards before := by
  induction after using List.reverseRecOn with
  | nil => simp
  | append_singleton after c ih =>
    rw [List.mem_append, List.mem_singleton, not_or] at uncleared
    rw [← List.append_assoc, backwards_snoc, if_neg (Ne.symm uncleared.2), ih uncleared.1,
      List.filterMap_append, List.reverse_append]
    cases resolved : c.resolved? <;> simp [resolved]

/-- A key resolved since the last clearing was resolved by some call last. -/
theorem split_of_mem_backwards {cs : List Call} {key : Key} (there : key ∈ backwards cs) :
    ∃ before after, cs = before ++ .resolve key :: after ∧ .resolve key ∉ after ∧
      .clear ∉ after := by
  induction cs using List.reverseRecOn with
  | nil => cases there
  | append_singleton cs c ih =>
    by_cases last : c = .resolve key
    · exact ⟨cs, [], by rw [last], List.not_mem_nil, List.not_mem_nil⟩
    · rw [backwards_snoc] at there
      split at there
      · cases there
      · next uncleared =>
        have other : key ∉ c.resolved?.toList := by
          cases c <;> simp_all [Call.resolved?, eq_comm]
        have earlier := (List.mem_append.1 there).resolve_left other
        obtain ⟨before, after, rfl, once, open_⟩ := ih earlier
        refine ⟨before, after ++ [c], by simp, ?_, ?_⟩
        · simpa [once] using Ne.symm last
        · simpa [open_] using Ne.symm uncleared

/-! ### Along the calls -/

namespace Roll

variable {r r' : Roll} {key : Key}

theorem Fit.pairs_resolve (h : r.Fit) (key : Key) : (r.resolve key).value.2.pairs =
    (toFront key (r.resolve key).value.1 r.pairs).take r.capacity := by
  have fits := (h.resolve key).fits
  rw [capacity_resolve] at fits
  cases h.resolving key with
  | hit lane there result =>
    rw [result] at fits ⊢
    exact (List.take_of_length_le fits).symm
  | room absent room result =>
    rw [result] at fits ⊢
    rw [Logged.value_pure, toFront, filter_of_not_mem absent]
    exact (List.take_of_length_le fits).symm
  | full front last split absent full result =>
    rw [result, toFront, filter_of_not_mem absent]
    generalize leastLoaded r.lanes r.pairs = lane
    have cut : ((key, lane) :: front).length = r.capacity := full
    rw [split, ← List.cons_append]
    exact (List.take_left' cut).symm

theorem Fit.lane_resolve (h : r.Fit) {lane : LaneIndex} (there : (key, lane) ∈ r.pairs) :
    (r.resolve key).value.1 = lane := by
  simp only [Roll.resolve, lookup_of_mem h.keys there]
  rfl

/-- The assigned keys are the distinct keys met first on the way back. -/
theorem Fit.keys_calls (h : r.Fit) (empty : r.pairs = []) (cs : List Call) :
    (r.calls cs).value.2.pairs.map Prod.fst = (backwards cs).eraseDups.take r.capacity := by
  induction cs using List.reverseRecOn with
  | nil => simp [Roll.calls, empty]
  | append_singleton cs c ih =>
    rw [calls_append, backwards_snoc]
    change ((r.calls cs).value.2.call c).value.2.pairs.map Prod.fst = _
    have fit := h.calls cs
    generalize hr' : (r.calls cs).value.2 = r' at ih fit ⊢
    have capacity : r'.capacity = r.capacity := hr' ▸ capacity_calls r cs
    cases c with
    | resolve key =>
      change (r'.resolve key).value.2.pairs.map Prod.fst = _
      rw [fit.pairs_resolve, List.map_take, Allocator.keys_toFront, ih, capacity,
        take_keys_toFront (nodup_eraseDups _), ← eraseDups_cons_ne]
      rfl
    | clear =>
      rw [if_pos rfl, List.eraseDups_nil, List.take_nil]
      rfl
    | nextStamp key => exact ih
    | assignment key => exact ih
    | counts => exact ih
    | assignments => exact ih
    | keyCount => exact ih

/-- A key is still assigned if fewer distinct keys than fit were resolved after it. -/
theorem Fit.assigned_iff (h : r.Fit) (empty : r.pairs = []) (cs : List Call) (key : Key) :
    key ∈ (r.calls cs).value.2.pairs.map Prod.fst ↔
      ∃ before after, cs = before ++ .resolve key :: after ∧ .resolve key ∉ after ∧
        .clear ∉ after ∧ (after.filterMap Call.resolved?).toFinset.card < r.capacity := by
  have window : ∀ before after, .resolve key ∉ after → .clear ∉ after →
      (key ∈ (backwards (before ++ .resolve key :: after)).eraseDups.take r.capacity ↔
        (after.filterMap Call.resolved?).toFinset.card < r.capacity) := by
    intro before after once uncleared
    have new : key ∉ (after.filterMap Call.resolved?).reverse := by
      intro there
      obtain ⟨c, listed, resolved⟩ := List.mem_filterMap.1 (List.mem_reverse.1 there)
      cases c <;> cases resolved
      exact once listed
    have later : .clear ∉ Call.resolve key :: after := by simpa using uncleared
    rw [backwards_append later]
    simp only [List.filterMap_cons, Call.resolved?, List.reverse_cons, List.append_assoc,
      List.singleton_append]
    rw [mem_take_eraseDups new, List.toFinset_reverse]
  rw [h.keys_calls empty]
  constructor
  · intro there
    have met : key ∈ backwards cs := List.mem_eraseDups.1 (List.mem_of_mem_take there)
    obtain ⟨before, after, rfl, once, uncleared⟩ := split_of_mem_backwards met
    exact ⟨before, after, rfl, once, uncleared, (window before after once uncleared).1 there⟩
  · rintro ⟨before, after, rfl, once, uncleared, few⟩
    exact (window before after once uncleared).2 few

/-- A key that is not resolved stays on its lane while it stays assigned. -/
theorem Fit.mem_of_mem_call (h : r.Fit) {lane : LaneIndex} {c : Call} (other : c ≠ .resolve key)
    (there : (key, lane) ∈ (r.call c).value.2.pairs) : (key, lane) ∈ r.pairs := by
  cases c with
  | resolve looked =>
    change (key, lane) ∈ (r.resolve looked).value.2.pairs at there
    rw [h.pairs_resolve] at there
    rcases List.mem_cons.1 (List.mem_of_mem_take there) with same | old
    · cases same
      exact absurd rfl other
    · exact (List.mem_filter.1 old).1
  | clear => cases there
  | nextStamp key => exact there
  | assignment key => exact there
  | counts => exact there
  | assignments => exact there
  | keyCount => exact there

theorem Fit.mem_of_mem_calls (h : r.Fit) {lane : LaneIndex} {cs : List Call}
    (once : .resolve key ∉ cs) (there : (key, lane) ∈ (r.calls cs).value.2.pairs) :
    (key, lane) ∈ r.pairs := by
  induction cs generalizing r with
  | nil => exact there
  | cons c cs ih =>
    rw [List.mem_cons, not_or] at once
    exact h.mem_of_mem_call (Ne.symm once.1) (ih (h.call c) once.2 there)

/-- A key that is still assigned is on the lane that it was last found on. -/
theorem Fit.lane_of_mem (h : r.Fit) {lane : LaneIndex} {before after : List Call}
    (once : .resolve key ∉ after)
    (there : (key, lane) ∈ (r.calls (before ++ .resolve key :: after)).value.2.pairs) :
    lane = ((r.calls before).value.2.resolve key).value.1 := by
  rw [calls_append] at there
  have fit := h.calls before
  generalize (r.calls before).value.2 = r' at there fit ⊢
  have listed : (key, lane) ∈ (r'.resolve key).value.2.pairs :=
    (fit.resolve key).mem_of_mem_calls once there
  rw [fit.pairs_resolve] at listed
  rcases List.mem_cons.1 (List.mem_of_mem_take listed) with same | old
  · exact congrArg Prod.snd same
  · exact absurd rfl (of_decide_eq_true (List.mem_filter.1 old).2)

/-- Both list the same keys on the same lanes; stamps may differ. -/
structure SamePairs (r r' : Roll) : Prop where
  lanes : r.lanes = r'.lanes
  capacity : r.capacity = r'.capacity
  pairs : r.pairs = r'.pairs

theorem SamePairs.resolve (h : SamePairs r r') (key : Key) :
    (r.resolve key).value.1 = (r'.resolve key).value.1 ∧
      SamePairs (r.resolve key).value.2 (r'.resolve key).value.2 := by
  unfold Roll.resolve
  rw [h.pairs, h.lanes, h.capacity]
  split
  · exact ⟨rfl, rfl, rfl, rfl⟩
  · exact ⟨rfl, rfl, rfl, rfl⟩

/-- Calls that only look, or only draw stamps, make no difference to what is listed. -/
theorem SamePairs.filter (h : SamePairs r r') (cs : List Call) :
    SamePairs (r.calls (cs.filter Call.changes)).value.2 (r'.calls cs).value.2 := by
  induction cs generalizing r r' with
  | nil => exact h
  | cons c cs ih =>
    cases c with
    | resolve key => exact ih (h.resolve key).2
    | clear => exact ih (r := { r with pairs := [], due := _ }) ⟨h.lanes, h.capacity, rfl⟩
    | nextStamp key => exact ih ⟨h.lanes, h.capacity, h.pairs⟩
    | assignment key => exact ih h
    | counts => exact ih h
    | assignments => exact ih h
    | keyCount => exact ih h

end Roll

namespace Allocator

variable {lanes : Nat} {maxKeys headroom : UInt32} {a : Allocator}

/--
The assigned keys are the last distinct ones resolved since the last clearing, as many as fit.
So a key is still assigned just if fewer distinct keys than fit were resolved after it, and then
it is found on its lane again. Calls that resolve and clear nothing make no difference.
-/
theorem assigned_by_history (made : withHeadroom lanes maxKeys headroom = .ok a)
    (cs : List Call) :
    (a.calls cs).value.2.assignments.map Prod.fst =
        (backwards cs).eraseDups.take (maxKeys.toNat * headroom.toNat) ∧
      (∀ key, ((a.calls cs).value.2.assignment key).isSome ↔
        ∃ before after, cs = before ++ .resolve key :: after ∧ .resolve key ∉ after ∧
          .clear ∉ after ∧ (after.filterMap Call.resolved?).toFinset.card <
            maxKeys.toNat * headroom.toNat) ∧
      (∀ key before after, cs = before ++ .resolve key :: after → .resolve key ∉ after →
        ((a.calls cs).value.2.assignment key).isSome →
          ((a.calls cs).value.2.resolve key).value.1 =
            ((a.calls before).value.2.resolve key).value.1) ∧
      (a.calls (cs.filter Call.changes)).value.2.assignments =
        (a.calls cs).value.2.assignments ∧
      ∀ key, ((a.calls (cs.filter Call.changes)).value.2.resolve key).value.1 =
        ((a.calls cs).value.2.resolve key).value.1 := by
  have start := mirrors_of_withHeadroom made
  have fit := start.fit
  have mirrors : ∀ cs, (a.calls cs).value.2.Mirrors
      ((Roll.start lanes (maxKeys.toNat * headroom.toNat)).calls cs).value.2 := fun cs =>
    (start.calls cs).mirrors
  have keys := fit.keys_calls rfl cs
  have same := Roll.SamePairs.filter (⟨rfl, rfl, rfl⟩ : Roll.SamePairs
    (Roll.start lanes (maxKeys.toNat * headroom.toNat)) _) cs
  have lists : ∀ cs, (a.calls cs).value.2.assignments =
      ((Roll.start lanes (maxKeys.toNat * headroom.toNat)).calls cs).value.2.pairs := fun cs =>
    (mirrors cs).lists.toList
  have finds : ∀ cs key, ((a.calls cs).value.2.resolve key).value.1 =
      (((Roll.start lanes (maxKeys.toNat * headroom.toNat)).calls cs).value.2.resolve
        key).value.1 := fun cs key => ((mirrors cs).resolve key).answer
  refine ⟨by rw [lists, keys]; rfl, fun key => ?_, ?_, ?_, fun key => ?_⟩
  · rw [(mirrors cs).assignment, Roll.isSome_lookup]
    exact fit.assigned_iff rfl cs key
  · rintro key before after rfl once there
    rw [(mirrors _).assignment] at there
    obtain ⟨lane, found⟩ := Option.isSome_iff_exists.1 there
    have listed := Roll.mem_of_lookup found
    rw [finds, finds, ← fit.lane_of_mem once listed, (fit.calls _).lane_resolve listed]
  · rw [lists, lists, same.pairs]
  · rw [finds, finds, (same.resolve key).1]

/-- There is room for two keys: of three the one that was not refreshed is gone. -/
theorem assigned_by_history_of_three : ∃ a, withHeadroom 2 2 1 = .ok a ∧
    (a.calls [.resolve 1, .resolve 2, .resolve 1, .assignment 2, .resolve 3]).value.2.assignments.map
      Prod.fst = [3, 1] ∧
    ((a.calls [.resolve 1, .resolve 2, .resolve 1, .assignment 2, .resolve 3]).value.2.resolve
      1).value.1 = ((a.calls [.resolve 1, .resolve 2]).value.2.resolve 1).value.1 := by
  have made : withHeadroom 2 2 1 = .ok ⟨2, 2, 2, .empty, .fresh 2, .empty⟩ := rfl
  obtain ⟨keys, assigned, again, -⟩ := assigned_by_history made
    [.resolve 1, .resolve 2, .resolve 1, .assignment 2, .resolve 3]
  have there := (assigned 1).2 ⟨[.resolve 1, .resolve 2], [.assignment 2, .resolve 3], rfl,
    by decide, by decide, by decide⟩
  exact ⟨_, made, keys.trans (by decide),
    again 1 [.resolve 1, .resolve 2] [.assignment 2, .resolve 3] rfl (by decide) there⟩

end Allocator

end OrderedLanes
