import OrderedLanes.Proofs.LoadCounts

/-!
The count index against a plain vector of counts. The vector looks for its first
least number at every acquisition; the index keeps its lanes in buckets instead.
Whatever is acquired, released and reset, and to whichever earlier copy one goes
back, the two answer alike, as long as no count comes to the top of its range.
-/

namespace OrderedLanes

namespace Loads

/-- What can be asked of the counts. -/
inductive Request where
  | acquire
  | release (lane : LaneIndex)
  | reset
  | counts
  /-- Lay a copy aside. -/
  | keep
  /-- Go back to the `n`-th copy that was laid aside. -/
  | restore (n : Nat)
  deriving DecidableEq, Repr

inductive Reply where
  | lane (i : LaneIndex)
  | done
  | counts (counts : List Nat)
  deriving DecidableEq, Repr

/-- Counts in some form, and the copies of them that were laid aside, oldest first. -/
structure Versions (S : Type) where
  now : S
  kept : List S

namespace Versions

variable {S : Type}

def keep (v : Versions S) : Versions S := { v with kept := v.kept ++ [v.now] }

/-- A copy that there is not is not gone back to. -/
def restore (v : Versions S) (n : Nat) : Versions S := { v with now := (v.kept[n]?).getD v.now }

/-- Requests one after another, with the reply to each. -/
def askAll (ask : Versions S → Request → Logged (Reply × Versions S)) (v : Versions S) :
    List Request → Logged (List Reply × Versions S)
  | [] => return ([], v)
  | q :: qs => do
    let (reply, v) ← ask v q
    let (replies, v) ← askAll ask v qs
    return (reply :: replies, v)

end Versions

/-- Number of keys by lane. -/
def byLane (l : Loads) : List Nat := l.counts.toList.map UInt32.toNat

def ask (v : Versions Loads) : Request → Logged (Reply × Versions Loads)
  | .acquire => do
    let (lane, now) ← v.now.acquire
    return (.lane lane, { v with now })
  | .release lane => do
    let now ← v.now.release lane
    return (.done, { v with now })
  | .reset => return (.done, { v with now := v.now.reset })
  | .counts => return (.counts v.now.byLane, v)
  | .keep => return (.done, v.keep)
  | .restore n => return (.done, v.restore n)

/-- The counts of so many lanes after some requests. -/
def after (lanes : Nat) (qs : List Request) : Loads :=
  (Versions.askAll ask ⟨fresh lanes, []⟩ qs).value.2.now

end Loads

/-- Counts by lane and nothing else. -/
abbrev Tally := List Nat

namespace Tally

open Loads (Request Reply Versions)

/-- The first place of the least number. -/
def leastPlace (t : Tally) : LaneIndex := t.findIdx fun n => t.all (n ≤ ·)

/-- What is logged when a lane is released. -/
def complaints (t : Tally) (lane : LaneIndex) : List Event :=
  match t[lane]? with
  | none => [.releaseUnknown lane t.length]
  | some 0 => [.releaseUnused lane]
  | some (_ + 1) => []

def ask (v : Versions Tally) : Request → Logged (Reply × Versions Tally)
  | .acquire => return (.lane (leastPlace v.now),
      { v with now := v.now.modify (leastPlace v.now) (· + 1) })
  | .release lane => ⟨(.done, { v with now := v.now.modify lane (· - 1) }), complaints v.now lane⟩
  | .reset => return (.done, { v with now := v.now.map fun _ => 0 })
  | .counts => return (.counts v.now, v)
  | .keep => return (.done, v.keep)
  | .restore n => return (.done, v.restore n)

/-- The least place is the first one of those with the least number. -/
theorem leastPlace_eq {t : Tally} {lane : LaneIndex} {n : Nat} (there : t[lane]? = some n)
    (least : ∀ i m, t[i]? = some m → n < m ∨ (n = m ∧ lane ≤ i)) : leastPlace t = lane := by
  obtain ⟨within, value⟩ := List.getElem?_eq_some_iff.1 there
  rw [leastPlace, List.findIdx_eq within]
  refine ⟨?_, fun i before => ?_⟩
  · simp only [value, List.all_eq_true, decide_eq_true_eq]
    intro m listed
    obtain ⟨i, found⟩ := List.mem_iff_getElem?.1 listed
    have := least i m found
    omega
  · have more := least i _ (List.getElem?_eq_getElem (before.trans within))
    simp only [List.all_eq_false, decide_eq_true_eq]
    refine ⟨n, List.mem_of_getElem? there, ?_⟩
    rcases more with less | ⟨-, after⟩
    · exact Nat.not_le_of_lt less
    · exact absurd after (Nat.not_le_of_lt before)

theorem modify_of_some {t : Tally} {lane : LaneIndex} {n : Nat} (there : t[lane]? = some n)
    (f : Nat → Nat) : t.modify lane f = t.set lane (f n) := by
  simp [List.modify_eq_set_getElem?, there]

end Tally

namespace Loads

variable {l : Loads} {t : Tally} {lanes : Nat} {lane : LaneIndex}

/-- The index holds the counts of the vector. Without lanes it has one bucket, of a lane 0. -/
structure Agrees (lanes : Nat) (l : Loads) (t : Tally) : Prop where
  counts : l.byLane = t
  length : t.length = lanes
  sound : 0 < lanes → l.Sound
  laneless : lanes = 0 → l.buckets = [] ∨ ∃ count, l.buckets = [⟨count, [0]⟩]

theorem Agrees.size (h : l.Agrees lanes t) : l.counts.size = lanes := by
  rw [← h.length, ← h.counts, byLane, List.length_map, Array.length_toList]

theorem Agrees.getElem? (h : l.Agrees lanes t) (i : LaneIndex) :
    t[i]? = l.counts[i]?.map UInt32.toNat := by
  simp [← h.counts, byLane]

theorem Agrees.of_some (h : l.Agrees lanes t) {n : Nat} (there : t[lane]? = some n) :
    ∃ count, l.counts[lane]? = some count ∧ count.toNat = n := by
  rwa [h.getElem?, Option.map_eq_some_iff] at there

theorem Agrees.pos_of_some (h : l.Agrees lanes t) {n : Nat} (there : t[lane]? = some n) :
    0 < lanes := by
  rw [← h.length]
  exact List.length_pos_of_mem (List.mem_of_getElem? there)

theorem agrees_fresh (lanes : Nat) : (fresh lanes).Agrees lanes (List.replicate lanes 0) where
  counts := by simp [fresh, byLane]
  length := List.length_replicate
  sound _ := sound_fresh lanes
  laneless empty := .inl (by simp [fresh, empty])

theorem Agrees.reset (h : l.Agrees lanes t) : l.reset.Agrees lanes (t.map fun _ => 0) := by
  have zeros : (t.map fun _ => 0) = List.replicate lanes 0 := by
    rw [List.map_const', h.length]
  rw [zeros, Loads.reset, h.size]
  exact agrees_fresh _

/-- The index after one lane got another count. -/
theorem Agrees.set {l' : Loads} {count : UInt32} (h : l.Agrees lanes t) (any : 0 < lanes)
    (sound : l'.Sound) (counts : l'.counts = l.counts.setIfInBounds lane count) :
    l'.Agrees lanes (t.set lane count.toNat) where
  counts := by rw [byLane, counts, Array.toList_setIfInBounds, List.map_set, ← h.counts, byLane]
  length := by rw [List.length_set, h.length]
  sound _ := sound
  laneless empty := absurd empty any.ne'

/-- The least loaded lane gets one key more. -/
theorem Agrees.acquires (h : l.Agrees lanes t) (any : 0 < lanes)
    (below : ∀ n ∈ t, n < 2 ^ 32 - 1) :
    ∃ lane n l', t[lane]? = some n ∧ (∀ i m, t[i]? = some m → n < m ∨ (n = m ∧ lane ≤ i)) ∧
      l.acquire = pure (lane, l') ∧ l'.Agrees lanes (t.set lane (n + 1)) := by
  obtain ⟨lane, count, l', ⟨there, least⟩, result, counts, sound⟩ :=
    (h.sound any).acquire (h.size.symm ▸ any)
  have listed : t[lane]? = some count.toNat := by rw [h.getElem?, there, Option.map_some]
  have raised := toNat_raise (below _ (List.mem_of_getElem? listed))
  refine ⟨lane, count.toNat, l', listed, fun i m found => ?_, result,
    raised ▸ h.set any sound counts⟩
  obtain ⟨other, there', rfl⟩ := h.of_some found
  rw [← UInt32.lt_iff_toNat_lt, UInt32.toNat_inj]
  exact least i other there'

/-- Without lanes it is always lane 0. -/
theorem Agrees.acquires_none (h : l.Agrees 0 t) :
    l.acquire.value.1 = 0 ∧ l.acquire.value.2.Agrees 0 [] := by
  have counts : l.counts = #[] := Array.eq_empty_of_size_eq_zero h.size
  rcases h.laneless rfl with buckets | ⟨count, buckets⟩
  all_goals
    refine ⟨?_, ?_, rfl, fun any => absurd any (Nat.lt_irrefl 0), fun _ => .inr ?_⟩ <;>
      simp [Loads.acquire, byLane, Loads.reset, fresh, Bucket.takeLowest, Bucket.place, buckets,
        counts]

theorem Agrees.acquire (h : l.Agrees lanes t) (below : ∀ n ∈ t, n < 2 ^ 32 - 1) :
    l.acquire.value.1 = Tally.leastPlace t ∧ (0 < lanes → l.acquire.events = []) ∧
      l.acquire.value.2.Agrees lanes (t.modify (Tally.leastPlace t) (· + 1)) := by
  rcases Nat.eq_zero_or_pos lanes with rfl | any
  · obtain rfl := List.eq_nil_of_length_eq_zero h.length
    obtain ⟨zero, agrees⟩ := h.acquires_none
    exact ⟨zero, fun any => absurd any (Nat.lt_irrefl 0), agrees⟩
  · obtain ⟨lane, n, l', there, least, result, agrees⟩ := h.acquires any below
    rw [result, Tally.leastPlace_eq there least, Tally.modify_of_some there]
    exact ⟨rfl, fun _ => rfl, agrees⟩

/-- A lane that there is not, or that holds no key, is not released. -/
theorem Agrees.release_idle (h : l.Agrees lanes t)
    (idle : t[lane]? = none ∨ t[lane]? = some 0) : (l.release lane).value = l := by
  rw [h.getElem?, Option.map_eq_none_iff] at idle
  rcases idle with unknown | unused
  · simp [Loads.release, unknown]
  · obtain ⟨count, there, zero⟩ := Option.map_eq_some_iff.1 unused
    obtain rfl : count = 0 := UInt32.toNat_inj.1 zero
    simp [Loads.release, there]

/-- A lane that holds keys is released. -/
theorem Agrees.releases (h : l.Agrees lanes t) {n : Nat} (there : t[lane]? = some (n + 1)) :
    ∃ l', l.release lane = pure l' ∧ l'.Agrees lanes (t.set lane n) := by
  have any := h.pos_of_some there
  obtain ⟨count, there, next⟩ := h.of_some there
  have used : count ≠ 0 := by
    rintro rfl
    cases next
  obtain ⟨l', result, counts, sound⟩ := (h.sound any).release there used
  have lowered : (count - 1).toNat = n := by
    rw [UInt32.toNat_sub_of_le _ _ (UInt32.le_iff_toNat_le.2 (by simp [next])), next]
    rfl
  exact ⟨l', result, lowered ▸ h.set any sound counts⟩

theorem Agrees.release (h : l.Agrees lanes t) (lane : LaneIndex) :
    (l.release lane).events = Tally.complaints t lane ∧
      (l.release lane).value.Agrees lanes (t.modify lane (· - 1)) := by
  unfold Tally.complaints
  cases found : t[lane]? with
  | none =>
    have unknown : l.counts[lane]? = none := by simpa [h.getElem?] using found
    rw [h.release_idle (.inl found), List.modify_eq_self (List.getElem?_eq_none_iff.1 found)]
    exact ⟨by simp [Loads.release, unknown, h.size, h.length], h⟩
  | some n =>
    rw [Tally.modify_of_some found]
    cases n with
    | zero =>
      obtain ⟨count, there, zero⟩ := h.of_some found
      obtain rfl : count = 0 := UInt32.toNat_inj.1 zero
      have same : t.set lane (0 - 1) = t := by
        obtain ⟨within, value⟩ := List.getElem?_eq_some_iff.1 found
        rw [show 0 - 1 = t[lane] from value.symm, List.set_getElem_self]
      rw [h.release_idle (.inr found), same]
      exact ⟨by simp [Loads.release, there], h⟩
    | succ n =>
      obtain ⟨l', result, agrees⟩ := h.releases found
      rw [result]
      exact ⟨rfl, agrees⟩

/-! ### Versions -/

variable {v : Versions Loads} {w : Versions Tally}

/-- Both have the same counts now, and laid the same ones aside. -/
structure Alike (lanes : Nat) (v : Versions Loads) (w : Versions Tally) : Prop where
  now : v.now.Agrees lanes w.now
  kept : List.Forall₂ (Agrees lanes) v.kept w.kept

theorem Alike.restore (h : Alike lanes v w) (n : Nat) :
    Alike lanes (v.restore n) (w.restore n) := by
  refine ⟨?_, h.kept⟩
  unfold Versions.restore
  rcases Nat.lt_or_ge n v.kept.length with within | beyond
  · have within' : n < w.kept.length := h.kept.length_eq ▸ within
    simpa [within, within'] using h.kept.get within within'
  · have beyond' : w.kept.length ≤ n := h.kept.length_eq ▸ beyond
    simpa [beyond, beyond'] using h.now

/-- One request: the same reply, and the same counts after it. -/
theorem Alike.ask (h : Alike lanes v w) (below : ∀ n ∈ v.now.byLane, n < 2 ^ 32 - 1)
    (q : Request) : (Loads.ask v q).value.1 = (Tally.ask w q).value.1 ∧
      (0 < lanes → (Loads.ask v q).events = (Tally.ask w q).events) ∧
      Alike lanes (Loads.ask v q).value.2 (Tally.ask w q).value.2 := by
  cases q with
  | acquire =>
    obtain ⟨lane, quiet, agrees⟩ := h.now.acquire (h.now.counts ▸ below)
    refine ⟨congrArg Reply.lane lane, fun any => ?_, agrees, h.kept⟩
    simp [Loads.ask, Tally.ask, quiet any]
  | release lane =>
    obtain ⟨events, agrees⟩ := h.now.release lane
    refine ⟨rfl, fun _ => ?_, agrees, h.kept⟩
    simp [Loads.ask, Tally.ask, events]
  | reset => exact ⟨rfl, fun _ => rfl, h.now.reset, h.kept⟩
  | counts => exact ⟨congrArg Reply.counts h.now.counts, fun _ => rfl, h⟩
  | keep =>
    exact ⟨rfl, fun _ => rfl, h.now, List.rel_append h.kept (.cons h.now .nil)⟩
  | restore n => exact ⟨rfl, fun _ => rfl, h.restore n⟩

theorem Alike.askAll (h : Alike lanes v w) (qs : List Request)
    (below : ∀ front, front <+: qs →
      ∀ n ∈ (v.askAll Loads.ask front).value.2.now.byLane, n < 2 ^ 32 - 1) :
    (v.askAll Loads.ask qs).value.1 = (w.askAll Tally.ask qs).value.1 ∧
      (0 < lanes → (v.askAll Loads.ask qs).events = (w.askAll Tally.ask qs).events) ∧
      Alike lanes (v.askAll Loads.ask qs).value.2 (w.askAll Tally.ask qs).value.2 := by
  induction qs generalizing v w with
  | nil => exact ⟨rfl, fun _ => rfl, h⟩
  | cons q qs ih =>
    obtain ⟨reply, events, next⟩ := h.ask (below [] List.nil_prefix) q
    obtain ⟨replies, more, last⟩ := ih next fun front under =>
      below (q :: front) ((List.cons_prefix_cons).2 ⟨rfl, under⟩)
    refine ⟨?_, fun any => ?_, last⟩
    · simp [Versions.askAll, reply, replies]
    · simp [Versions.askAll, events any, more any]

/-! ### Buckets -/

/-- Each lane stands in one bucket and once there. -/
theorem Sound.perm (h : l.Sound) :
    (l.buckets.flatMap Bucket.lanes).Perm (List.range l.counts.size) := by
  have keyed : ∀ b ∈ l.buckets, ∀ lane ∈ b.lanes, l.counts[lane]? = some b.count :=
    fun b there lane listed => (h.agree b.count lane).1 ⟨b, there, rfl, listed⟩
  have nodup : (l.buckets.flatMap Bucket.lanes).Nodup := by
    refine List.nodup_flatMap.2 ⟨fun b there => (h.sorted.lanes b there).imp Nat.ne_of_lt, ?_⟩
    -- A lane of two buckets would have two counts.
    refine h.sorted.counts.imp_of_mem fun {a b} first second less lane here there => ?_
    have same := (keyed a first lane here).symm.trans (keyed b second lane there)
    rw [Option.some.inj same] at less
    exact UInt32.lt_irrefl _ less
  refine (List.perm_ext_iff_of_nodup nodup List.nodup_range).2 fun lane => ?_
  rw [List.mem_flatMap, List.mem_range]
  constructor
  · rintro ⟨b, there, listed⟩
    exact (Array.getElem?_eq_some_iff.1 (keyed b there lane listed)).1
  · intro within
    obtain ⟨b, there, -, listed⟩ := (h.agree _ lane).2 (Array.getElem?_eq_getElem within)
    exact ⟨b, there, listed⟩

/-- What holds of the index in a state whose counts are below the top. -/
structure Faithful (lanes : Nat) (l : Loads) : Prop where
  filled : 0 < lanes → ∀ b ∈ l.buckets, b.lanes ≠ []
  /-- Each lane stands in one bucket and once there. -/
  once : 0 < lanes → (l.buckets.flatMap Bucket.lanes).Perm (List.range lanes)
  keyed : 0 < lanes → ∀ b ∈ l.buckets, ∀ lane ∈ b.lanes, l.counts[lane]? = some b.count
  /-- The first of the least loaded lanes is chosen, and it alone counts one more. -/
  acquires : 0 < lanes → ∃ lane n, l.byLane[lane]? = some n ∧
    (∀ i m, l.byLane[i]? = some m → n < m ∨ (n = m ∧ lane ≤ i)) ∧
    l.acquire.value.1 = lane ∧ l.acquire.value.2.byLane = l.byLane.set lane (n + 1)
  releases : ∀ lane n, l.byLane[lane]? = some (n + 1) →
    (l.release lane).value.byLane = l.byLane.set lane n
  ignores : ∀ lane, l.byLane[lane]? = none ∨ l.byLane[lane]? = some 0 →
    (l.release lane).value = l
  laneless : lanes = 0 → l.byLane = [] ∧ l.acquire.value.1 = 0 ∧ l.acquire.value.2.byLane = []

theorem Agrees.faithful (h : l.Agrees lanes t) (below : ∀ n ∈ t, n < 2 ^ 32 - 1) :
    l.Faithful lanes where
  filled any := (h.sound any).sorted.filled
  once any := h.size ▸ (h.sound any).perm
  keyed any b there lane listed := ((h.sound any).agree b.count lane).1 ⟨b, there, rfl, listed⟩
  acquires any := by
    obtain ⟨lane, n, l', there, least, result, agrees⟩ := h.acquires any below
    rw [h.counts, result]
    exact ⟨lane, n, there, least, rfl, agrees.counts⟩
  releases lane n there := by
    rw [h.counts] at there ⊢
    obtain ⟨l', result, agrees⟩ := h.releases there
    rw [result]
    exact agrees.counts
  ignores lane idle := by
    rw [h.counts] at idle
    exact h.release_idle idle
  laneless := by
    rintro rfl
    obtain ⟨zero, agrees⟩ := h.acquires_none
    exact ⟨h.counts.trans (List.eq_nil_of_length_eq_zero h.length), zero, agrees.counts⟩

/--
From the fresh index on, as long as no count comes to the top of its range, every sequence of
requests is replied to as the vector does, and leaves the lanes in the buckets of their counts.
-/
theorem askAll_eq_tally (lanes : Nat) (qs : List Request)
    (below : ∀ front, front <+: qs → ∀ n ∈ (after lanes front).byLane, n < 2 ^ 32 - 1) :
    (Versions.askAll ask ⟨fresh lanes, []⟩ qs).value.1 =
        (Versions.askAll Tally.ask ⟨List.replicate lanes 0, []⟩ qs).value.1 ∧
      (0 < lanes → (Versions.askAll ask ⟨fresh lanes, []⟩ qs).events =
        (Versions.askAll Tally.ask ⟨List.replicate lanes 0, []⟩ qs).events) ∧
      (after lanes qs).Faithful lanes := by
  have start : Alike lanes ⟨fresh lanes, []⟩ ⟨List.replicate lanes 0, []⟩ :=
    ⟨agrees_fresh lanes, .nil⟩
  obtain ⟨replies, events, alike⟩ := start.askAll qs below
  refine ⟨replies, events, alike.now.faithful ?_⟩
  rw [← alike.now.counts]
  exact below qs List.prefix_rfl

/-- A copy is gone back to after two lanes were used and one was released twice. -/
theorem askAll_eq_tally_of_three :
    (∀ front, front <+: [Request.acquire, .keep, .acquire, .release 0, .release 0, .counts,
      .restore 0, .counts, .acquire, .release 7] →
        ∀ n ∈ (after 3 front).byLane, n < 2 ^ 32 - 1) ∧
      (Versions.askAll ask ⟨fresh 3, []⟩ [.acquire, .keep, .acquire, .release 0, .release 0,
        .counts, .restore 0, .counts, .acquire, .release 7]).value.1 =
      [.lane 0, .done, .lane 1, .done, .done, .counts [0, 1, 0], .done, .counts [1, 0, 0],
        .lane 1, .done] := by
  have below : ∀ front, front <+: [Request.acquire, .keep, .acquire, .release 0, .release 0,
      .counts, .restore 0, .counts, .acquire, .release 7] →
        ∀ n ∈ (after 3 front).byLane, n < 2 ^ 32 - 1 := by
    intro front under
    rw [← List.mem_inits] at under
    revert front
    decide
  exact ⟨below, (askAll_eq_tally 3 _ below).1.trans (by decide)⟩

end Loads

end OrderedLanes
