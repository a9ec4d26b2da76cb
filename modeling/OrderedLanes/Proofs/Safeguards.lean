import OrderedLanes.Proofs.KeyRoll

/-!
The safeguards of the allocator, and that none is ever needed. An index without buckets would
be set back to zero, a count at the top would stay there, a release that does not fit would be
ignored and reported, and the eviction would give up where there is nothing to evict. After any
calls, and in the middle of the next one as well, the index has a lane to offer, the counts are
far from the top, and the eviction makes one pass at most, over another key whose lane counts it
(`unfailing_calls`).
-/

namespace OrderedLanes

namespace Allocator

variable {a b : Allocator} {r : Roll} {key : Key} {n lanes : Nat} {pairs : List (Key × LaneIndex)}

/-! ### The steps of an assignment -/

/-- A key that is not assigned gets the least loaded lane, whether or not there is room for it. -/
def seat (a : Allocator) (key : Key) : Logged (LaneIndex × Allocator) := do
  let (lane, loads) ← a.loads.acquire
  return (lane, { a with recency := (a.recency.insert key lane).2, loads })

/-- To resolve a key that is not assigned is to seat it and to evict what does not fit. -/
theorem resolve_eq_seat (missed : a.recency.touch key = (none, a.recency)) :
    a.resolve key = (do
      let (lane, a) ← a.seat key
      let a ← trim a.recency.size a
      return (lane, a)) := by
  unfold resolve
  rw [missed]
  simp only [seat, bind_assoc, pure_bind]

/-- The oldest key goes, and `lane` counts one key less. -/
def evict (a : Allocator) (key : Key) (lane : LaneIndex) : Allocator :=
  { a with
    recency := a.recency.popOldest.2
    loads := (a.loads.release lane).value
    stamps := a.stamps.forget key }

/-- The eviction that starts with `a` has made `n` passes when it comes to `b`. -/
inductive Trimming (a : Allocator) : Nat → Allocator → Prop
  | start : Trimming a 0 a
  | pass {n : Nat} {b : Allocator} {key : Key} {lane : LaneIndex} (before : Trimming a n b)
    (excess : b.capacity < b.recency.size) (oldest : b.recency.popOldest.1 = some (key, lane)) :
    Trimming a (n + 1) (b.evict key lane)

theorem Trimming.cons {lane : LaneIndex} (excess : a.capacity < a.recency.size)
    (oldest : a.recency.popOldest.1 = some (key, lane))
    (rest : Trimming (a.evict key lane) n b) : Trimming a (n + 1) b := by
  induction rest with
  | start => exact .pass .start excess oldest
  | pass _ excess' oldest' ih => exact .pass ih excess' oldest'

/-- Where the eviction always finds a key, trimming is pass after pass until it stops. -/
theorem trimming_trim (fuel : Nat) (a : Allocator)
    (finds : ∀ n b, Trimming a n b → b.capacity < b.recency.size →
      b.recency.popOldest.1.isSome = true) :
    ∃ n, Trimming a n (trim fuel a).value ∧ (n = fuel ∨
      (trim fuel a).value.recency.size ≤ (trim fuel a).value.capacity) := by
  induction fuel generalizing a with
  | zero => exact ⟨0, .start, .inl rfl⟩
  | succ fuel ih =>
    by_cases excess : a.capacity < a.recency.size
    · obtain ⟨⟨key, lane⟩, oldest⟩ := Option.isSome_iff_exists.1 (finds 0 a .start excess)
      have split : a.recency.popOldest = (some (key, lane), a.recency.popOldest.2) := by
        rw [← oldest]
      have passes : (trim (fuel + 1) a).value = (trim fuel (a.evict key lane)).value := by
        simp only [trim, excess, if_true]
        rw [split]
        rfl
      obtain ⟨n, rest, done⟩ := ih (a.evict key lane) fun n b between =>
        finds (n + 1) b (.cons excess oldest between)
      rw [passes]
      exact ⟨n + 1, .cons excess oldest rest, done.imp_left (congrArg (· + 1))⟩
    · rw [trim_of_fits (fuel + 1) (Nat.le_of_not_lt excess)]
      exact ⟨0, .start, .inr (Nat.le_of_not_lt excess)⟩

/-! ### What the allocator holds on the way -/

/-- The keys with their lanes, the last one first, as many as there are, and the counts by lane. -/
structure Holding (a : Allocator) (lanes : Nat) (pairs : List (Key × LaneIndex)) : Prop where
  lists : a.recency.Lists pairs
  tallies : a.loads.Tallies lanes pairs
  housed : ∀ x ∈ pairs, x.2 < lanes

theorem Mirrors.holding (h : a.Mirrors r) : a.Holding r.lanes r.pairs :=
  ⟨h.lists, h.tallies, h.fit.housed⟩

/-- No lane counts more keys than there are. -/
theorem Holding.count_le (h : a.Holding lanes pairs) {count : UInt32} (there : count ∈ a.counts) :
    count.toNat ≤ pairs.length := by
  obtain ⟨i, found⟩ := List.getElem?_of_mem there
  rw [counts, Array.getElem?_toList] at found
  rw [(h.tallies.count_iff.1 found).2]
  exact Roll.load_le_length i

/-- The key looked up last but all others is the oldest one, and its lane counts it. -/
theorem Holding.oldest {last : Key × LaneIndex} (h : a.Holding lanes (pairs ++ [last])) :
    a.recency.popOldest.1 = some last ∧ ∃ count, a.loads.counts[last.2]? = some count ∧ count ≠ 0 := by
  have within : last.2 < lanes := h.housed last (by simp)
  have sized : last.2 < a.loads.counts.size := by rwa [h.tallies.size]
  refine ⟨h.lists.popOldest.1, a.loads.counts[last.2], Array.getElem?_eq_getElem sized, ?_⟩
  obtain ⟨-, load⟩ := h.tallies.count_iff.1 (Array.getElem?_eq_getElem sized)
  rw [Roll.load_snoc, if_pos rfl] at load
  intro unused
  simp [unused] at load

theorem Holding.evict {last : Key × LaneIndex} (h : a.Holding lanes (pairs ++ [last])) :
    (a.evict last.1 last.2).Holding lanes pairs := by
  obtain ⟨loads, released, tallies⟩ := h.tallies.release (h.housed last (by simp))
  refine ⟨h.lists.popOldest.2, ?_, fun x there => h.housed x (List.mem_append_left _ there)⟩
  simp only [Allocator.evict, released]
  exact tallies

/-- Each pass takes the last key away. -/
theorem Holding.trimming (h : a.Holding lanes pairs) (trimming : Trimming a n b) :
    b.capacity = a.capacity ∧ ∃ fallen, fallen.length = n ∧
      ∃ left, pairs = left ++ fallen ∧ b.Holding lanes left := by
  induction trimming with
  | start => exact ⟨rfl, [], rfl, pairs, by simp, h⟩
  | pass before excess oldest ih =>
    obtain ⟨capacity, fallen, length, left, split, holding⟩ := ih
    rw [holding.lists.size] at excess
    obtain ⟨front, last, rfl⟩ := exists_snoc_of_pos (Nat.zero_lt_of_lt excess)
    obtain rfl := Option.some.inj (holding.oldest.1.symm.trans oldest)
    exact ⟨capacity, (_, _) :: fallen, by rw [List.length_cons, length], front,
      by rw [split, List.append_assoc]; rfl, holding.evict⟩

/-! ### After any calls -/

/-- What makes the safeguards needless when `key` is resolved next. -/
structure Unfailing (a : Allocator) (key : Key) : Prop where
  /-- The lowest bucket has a lane to offer, and one key more can be counted for it. -/
  offers : ∃ count lane others rest, a.loads.buckets = ⟨count, lane :: others⟩ :: rest ∧
    (Loads.raise count).toNat = count.toNat + 1
  counts : ∀ count ∈ a.counts, count.toNat ≤ a.capacity
  /-- A key that is assigned is found; no lane is acquired or released. -/
  found : (a.assignment key).isSome = true → (a.resolve key).value.2.loads = a.loads
  /-- With a key that is not assigned there may be one too many. The counts allow for it; where
  the eviction has too many keys before it, it is the first pass, there is a key to evict, it is
  another one, and its lane is known and counts a key. -/
  passing : a.assignment key = none → ∀ n b, Trimming (a.seat key).value.2 n b →
    (∀ count ∈ b.counts, count.toNat ≤ a.capacity + 1) ∧
      (b.capacity < b.recency.size → n = 0 ∧ ∃ other lane count,
        b.recency.popOldest.1 = some (other, lane) ∧ other ≠ key ∧
          b.loads.counts[lane]? = some count ∧ count ≠ 0)
  /-- So it is over after one pass, or without any, and all keys fit again. -/
  passed : a.assignment key = none → ∃ n ≤ 1, Trimming (a.seat key).value.2 n
      (a.resolve key).value.2 ∧ (a.resolve key).value.1 = (a.seat key).value.1 ∧
    (a.resolve key).value.2.recency.size ≤ a.capacity

theorem Mirrors.absent (h : a.Mirrors r) (none : a.assignment key = none) :
    key ∉ r.pairs.map Prod.fst := by
  rw [h.assignment] at none
  rw [← Roll.isSome_lookup, none]
  simp

/-- The allocator once the key was seated. -/
theorem Mirrors.seat (h : a.Mirrors r) (absent : key ∉ r.pairs.map Prod.fst) :
    (a.seat key).value.2.capacity = a.capacity ∧ (a.seat key).value.2.Holding r.lanes
      ((key, Roll.leastLoaded r.lanes r.pairs) :: r.pairs) := by
  obtain ⟨loads, acquired, tallies⟩ :=
    h.tallies.acquire h.fit.lanes (h.fit.fits.trans_lt h.fit.narrow)
  have lists := h.lists.insert absent (Roll.leastLoaded r.lanes r.pairs)
  simp only [Allocator.seat, acquired]
  refine ⟨rfl, lists, tallies key, List.forall_mem_cons.2 ⟨?_, h.fit.housed⟩⟩
  exact (Roll.leastLoaded_spec h.fit.lanes r.pairs).1

theorem Mirrors.passing (h : a.Mirrors r) (absent : key ∉ r.pairs.map Prod.fst)
    (trimming : Trimming (a.seat key).value.2 n b) :
    (∀ count ∈ b.counts, count.toNat ≤ a.capacity + 1) ∧
      (b.capacity < b.recency.size → n = 0 ∧ ∃ other lane count,
        b.recency.popOldest.1 = some (other, lane) ∧ other ≠ key ∧
          b.loads.counts[lane]? = some count ∧ count ≠ 0) := by
  obtain ⟨capacity, seated⟩ := h.seat absent
  obtain ⟨same, fallen, length, left, split, holding⟩ := seated.trimming trimming
  have total := congrArg List.length split
  have fits := h.fit.fits
  have positive := h.fit.capacity
  rw [List.length_cons, List.length_append] at total
  rw [← h.capacity] at fits positive
  refine ⟨fun count there => (holding.count_le there).trans (by omega), fun excess => ?_⟩
  rw [holding.lists.size, same, capacity] at excess
  obtain rfl : fallen = [] := List.eq_nil_of_length_eq_zero (by omega)
  obtain ⟨front, last, rfl⟩ := exists_snoc_of_pos (Nat.zero_lt_of_lt excess)
  obtain ⟨oldest, count, there, used⟩ := holding.oldest
  refine ⟨length.symm, last.1, last.2, count, oldest, ?_, there, used⟩
  -- The new key stands first, and it is not the last one, as there is room for one at least.
  rw [List.append_nil] at split
  cases front with
  | nil => simp only [List.nil_append, List.length_singleton] at excess; omega
  | cons first front =>
    obtain ⟨-, rest⟩ := List.cons.inj split
    exact fun same => absent (same ▸ List.mem_map_of_mem (by simp [rest]))

theorem Mirrors.few_passes (h : a.Mirrors r) (absent : key ∉ r.pairs.map Prod.fst)
    (trimming : Trimming (a.seat key).value.2 n b) : n ≤ 1 := by
  cases trimming with
  | start => exact Nat.zero_le 1
  | pass before excess _ => exact ((h.passing absent before).2 excess).1 ▸ Nat.le_refl 1

theorem Mirrors.passed (h : a.Mirrors r) (absent : key ∉ r.pairs.map Prod.fst) :
    ∃ n ≤ 1, Trimming (a.seat key).value.2 n (a.resolve key).value.2 ∧
      (a.resolve key).value.1 = (a.seat key).value.1 ∧
      (a.resolve key).value.2.recency.size ≤ a.capacity := by
  have resolved := resolve_eq_seat (a := a) (h.lists.touch_miss absent)
  obtain ⟨n, trimming, done⟩ := trimming_trim (a.seat key).value.2.recency.size
    (a.seat key).value.2 fun n b before excess => by
      obtain ⟨-, other, lane, count, oldest, -⟩ := (h.passing absent before).2 excess
      rw [oldest]
      rfl
  have result : (a.resolve key).value.2 =
      (trim (a.seat key).value.2.recency.size (a.seat key).value.2).value := by
    rw [resolved]
    rfl
  rw [← result] at trimming done
  obtain ⟨capacity, seated⟩ := h.seat absent
  obtain ⟨same, fallen, length, left, split, holding⟩ := seated.trimming trimming
  refine ⟨n, h.few_passes absent trimming, trimming, by rw [resolved]; rfl, ?_⟩
  rcases done with all | fits
  · rw [seated.lists.size, split, List.length_append] at all
    rw [holding.lists.size]
    omega
  · rwa [same, capacity] at fits

theorem Mirrors.unfailing (h : a.Mirrors r) (key : Key) : a.Unfailing key := by
  have fits := h.fit.fits
  have narrow := h.fit.narrow
  rw [← h.capacity] at fits narrow
  refine ⟨?_, fun count there => (h.holding.count_le there).trans fits, fun assigned => ?_,
    fun none n b => h.passing (h.absent none), fun none => h.passed (h.absent none)⟩
  · have any : 0 < a.loads.counts.size := h.tallies.size.symm ▸ h.fit.lanes
    obtain ⟨count, lane, others, rest, buckets⟩ := h.tallies.sound.buckets any
    have there : a.loads.counts[lane]? = some count := by
      rw [← h.tallies.sound.agree, buckets]
      simp
    refine ⟨count, lane, others, rest, buckets, Loads.toNat_raise ?_⟩
    have load : Roll.load r.pairs lane ≤ r.pairs.length := Roll.load_le_length lane
    unfold trackedKeyLimit at narrow
    rw [(h.tallies.count_iff.1 there).2]
    omega
  · rw [h.assignment, Roll.isSome_lookup] at assigned
    obtain ⟨⟨key, lane⟩, listed, rfl⟩ := List.mem_map.1 assigned
    obtain ⟨recency, result, -⟩ := h.keeps.resolve_hit_eq listed
    rw [result]
    rfl

end Allocator

namespace Roll

variable {r : Roll}

/-- All that is reported is an eviction. -/
theorem Fit.events_call (h : r.Fit) (c : Call) :
    ∀ e ∈ (r.call c).events, ∃ key lane, e = .evicted key lane := by
  cases c with
  | resolve key =>
    intro e logged
    simp only [Roll.call, Logged.events_bind, Logged.events_pure, List.append_nil] at logged
    cases h.resolving key with
    | hit _ _ result =>
      rw [result] at logged
      cases logged
    | room _ _ result =>
      rw [result] at logged
      cases logged
    | full front last _ _ _ result =>
      rw [result] at logged
      exact ⟨last.1, last.2, by simpa using logged⟩
  | _ =>
    intro e logged
    cases logged

theorem Fit.events_calls (h : r.Fit) (cs : List Call) :
    ∀ e ∈ (r.calls cs).events, ∃ key lane, e = .evicted key lane := by
  induction cs generalizing r with
  | nil =>
    intro e logged
    cases logged
  | cons c cs ih =>
    intro e logged
    simp only [Roll.calls, Logged.events_bind, Logged.events_pure, List.append_nil] at logged
    rcases List.mem_append.1 logged with now | later
    · exact h.events_call c e now
    · exact ih (h.call c) e later

end Roll

namespace Allocator

/--
After any calls of any accepted allocator: nothing but evictions was ever reported, the capacity
leaves the counts below 2³¹ with one key too many, and whichever key is resolved next needs no
safeguard.
-/
theorem unfailing_calls {lanes : Nat} {maxKeys headroom : UInt32} {a : Allocator}
    (made : withHeadroom lanes maxKeys headroom = .ok a) (cs : List Call) :
    (∀ e ∈ (a.calls cs).events, e.level ≠ .warn) ∧
      (a.calls cs).value.2.capacity = maxKeys.toNat * headroom.toNat ∧
      maxKeys.toNat * headroom.toNat + 1 < 2 ^ 31 ∧
      ∀ key, (a.calls cs).value.2.Unfailing key := by
  have fresh := mirrors_of_withHeadroom made
  obtain ⟨-, events, mirrors⟩ := fresh.calls cs
  refine ⟨fun e logged => ?_, ?_, ?_, mirrors.unfailing⟩
  · rw [events] at logged
    obtain ⟨key, lane, rfl⟩ := fresh.fit.events_calls cs e logged
    exact Level.noConfusion
  · rw [mirrors.capacity, Roll.capacity_calls]
    rfl
  · have narrow : maxKeys.toNat * headroom.toNat < trackedKeyLimit := fresh.fit.narrow
    unfold trackedKeyLimit at narrow
    omega

/-- Room for one key: the second key is not assigned, and the first has to go for it. -/
theorem unfailing_calls_of_one : ∃ a, withHeadroom 1 1 1 = .ok a ∧
    (a.calls [.resolve 1]).value.2.assignment 2 = none ∧
    (a.calls [.resolve 1]).value.2.Unfailing 2 ∧
    (a.calls [.resolve 1, .resolve 2]).events = [.evicted 1 0] ∧
    ∀ e ∈ (a.calls [.resolve 1, .resolve 2]).events, e.level ≠ .warn := by
  have made : withHeadroom 1 1 1 = .ok ⟨1, 1, 1, .empty, .fresh 1, .empty⟩ := rfl
  have fresh := mirrors_of_withHeadroom made
  exact ⟨_, made, ((fresh.calls _).mirrors.assignment 2).trans (by decide),
    (unfailing_calls made _).2.2.2 2, (fresh.calls _).events.trans (by decide),
    (unfailing_calls made _).1⟩

end Allocator

end OrderedLanes
