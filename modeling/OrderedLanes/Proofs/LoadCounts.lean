import Mathlib
import OrderedLanes.Allocation.Loads

/-!
The buckets and the counts by lane say the same. Buckets stand in ascending order
of their counts, each holds its lanes in ascending order, and a lane is in the
bucket of its own count and in no other. So the first lane of the first bucket is
the smallest one among those that hold the fewest keys.
-/

namespace OrderedLanes

namespace Bucket

variable {bs : List Bucket} {b : Bucket} {count : UInt32} {lane : LaneIndex}

/-- The lane is in the bucket of this count. -/
def Holds (bs : List Bucket) (count : UInt32) (lane : LaneIndex) : Prop :=
  ∃ b ∈ bs, b.count = count ∧ lane ∈ b.lanes

/-- Lowest count first, smallest lane first, and no bucket is empty. -/
structure Sorted (bs : List Bucket) : Prop where
  counts : bs.Pairwise (·.count < ·.count)
  lanes : ∀ b ∈ bs, b.lanes.Pairwise (· < ·)
  filled : ∀ b ∈ bs, b.lanes ≠ []

@[simp] theorem not_holds_nil : ¬ Holds [] count lane := by simp [Holds]

@[simp] theorem holds_cons : Holds (b :: bs) count lane ↔
    (b.count = count ∧ lane ∈ b.lanes) ∨ Holds bs count lane := by simp [Holds]

theorem sorted_cons : Sorted (b :: bs) ↔ (∀ other ∈ bs, b.count < other.count) ∧
    b.lanes.Pairwise (· < ·) ∧ b.lanes ≠ [] ∧ Sorted bs := by
  constructor
  · intro h
    obtain ⟨least, counts⟩ := List.pairwise_cons.1 h.counts
    exact ⟨least, h.lanes b List.mem_cons_self, h.filled b List.mem_cons_self, counts,
      fun x hx => h.lanes x (List.mem_cons_of_mem _ hx),
      fun x hx => h.filled x (List.mem_cons_of_mem _ hx)⟩
  · rintro ⟨least, lanes, filled, h⟩
    exact ⟨List.pairwise_cons.2 ⟨least, h.counts⟩, List.forall_mem_cons.2 ⟨lanes, h.lanes⟩,
      List.forall_mem_cons.2 ⟨filled, h.filled⟩⟩

theorem mem_addLane {lanes : List LaneIndex} {i : LaneIndex} :
    i ∈ addLane lane lanes ↔ i = lane ∨ i ∈ lanes := by
  induction lanes with
  | nil => simp [addLane]
  | cons first rest ih =>
    unfold addLane
    split
    · exact List.mem_cons
    · split
      · next same =>
        subst same
        simp
      · rw [List.mem_cons, ih, List.mem_cons]
        tauto

theorem pairwise_addLane {lanes : List LaneIndex} (sorted : lanes.Pairwise (· < ·)) :
    (addLane lane lanes).Pairwise (· < ·) := by
  induction lanes with
  | nil => simp [addLane]
  | cons first rest ih =>
    obtain ⟨least, sorted⟩ := List.pairwise_cons.1 sorted
    unfold addLane
    split
    · next before =>
      apply List.pairwise_cons.2
      refine ⟨?_, List.pairwise_cons.2 ⟨least, sorted⟩⟩
      intro i listed
      rcases List.mem_cons.1 listed with rfl | later
      · exact before
      · exact before.trans (least i later)
    · split
      · exact List.pairwise_cons.2 ⟨least, sorted⟩
      · next not_before other =>
        apply List.pairwise_cons.2
        refine ⟨?_, ih sorted⟩
        intro i listed
        rcases mem_addLane.1 listed with rfl | later
        · exact Nat.lt_of_le_of_ne (Nat.le_of_not_lt not_before) (Ne.symm other)
        · exact least i later

theorem addLane_ne_nil (lane : LaneIndex) (lanes : List LaneIndex) : addLane lane lanes ≠ [] :=
  List.ne_nil_of_mem (mem_addLane.2 (.inl rfl))

theorem holds_place {c : UInt32} {i : LaneIndex} :
    Holds (place count lane bs) c i ↔ (c = count ∧ i = lane) ∨ Holds bs c i := by
  induction bs with
  | nil => simp [place, eq_comm]
  | cons first rest ih =>
    unfold place
    split
    · simp [eq_comm]
    · split
      · next same =>
        subst same
        simp only [holds_cons, mem_addLane]
        tauto
      · rw [holds_cons, ih, holds_cons]
        tauto

theorem count_of_mem_place (there : b ∈ place count lane bs) :
    b.count = count ∨ ∃ old ∈ bs, old.count = b.count := by
  induction bs with
  | nil =>
    rw [place, List.mem_singleton] at there
    exact .inl (there ▸ rfl)
  | cons first rest ih =>
    unfold place at there
    split at there
    · rcases List.mem_cons.1 there with rfl | old
      · exact .inl rfl
      · exact .inr ⟨b, old, rfl⟩
    · split at there
      · rcases List.mem_cons.1 there with rfl | old
        · exact .inl rfl
        · exact .inr ⟨b, List.mem_cons_of_mem _ old, rfl⟩
      · rcases List.mem_cons.1 there with rfl | later
        · exact .inr ⟨b, List.mem_cons_self, rfl⟩
        · obtain same | ⟨old, listed, same⟩ := ih later
          · exact .inl same
          · exact .inr ⟨old, List.mem_cons_of_mem _ listed, same⟩

theorem Sorted.place (h : Sorted bs) (count : UInt32) (lane : LaneIndex) :
    Sorted (place count lane bs) := by
  induction bs with
  | nil => simp [Bucket.place, sorted_cons, h]
  | cons first rest ih =>
    obtain ⟨least, lanes, filled, sorted⟩ := sorted_cons.1 h
    unfold Bucket.place
    split
    · next before =>
      apply sorted_cons.2
      refine ⟨?_, List.pairwise_singleton _ _, List.cons_ne_nil _ _, h⟩
      intro other listed
      rcases List.mem_cons.1 listed with rfl | later
      · exact before
      · exact UInt32.lt_trans before (least other later)
    · split
      · next same =>
        subst same
        exact sorted_cons.2 ⟨least, pairwise_addLane lanes, addLane_ne_nil _ _, sorted⟩
      · next not_before other =>
        apply sorted_cons.2
        refine ⟨?_, lanes, filled, ih sorted⟩
        intro b there
        have after : first.count < count := by grind
        obtain same | ⟨old, listed, same⟩ := count_of_mem_place there
        · rw [same]
          exact after
        · rw [← same]
          exact least old listed

theorem mem_detach (there : b ∈ detach count lane bs) : ∃ old ∈ bs, old.count = b.count := by
  induction bs with
  | nil => simp [detach] at there
  | cons first rest ih =>
    unfold detach at there
    split at there
    · next same =>
      split at there
      · exact ⟨b, List.mem_cons_of_mem _ there, rfl⟩
      · rcases List.mem_cons.1 there with rfl | later
        · exact ⟨first, List.mem_cons_self, same⟩
        · exact ⟨b, List.mem_cons_of_mem _ later, rfl⟩
    · rcases List.mem_cons.1 there with rfl | later
      · exact ⟨b, List.mem_cons_self, rfl⟩
      · obtain ⟨old, listed, same⟩ := ih later
        exact ⟨old, List.mem_cons_of_mem _ listed, same⟩

theorem Sorted.detach (h : Sorted bs) (count : UInt32) (lane : LaneIndex) :
    Sorted (detach count lane bs) := by
  induction bs with
  | nil => exact h
  | cons first rest ih =>
    obtain ⟨least, lanes, filled, sorted⟩ := sorted_cons.1 h
    unfold Bucket.detach
    split
    · next same =>
      subst same
      split
      · exact sorted
      · next remaining =>
        exact sorted_cons.2 ⟨least, lanes.sublist List.erase_sublist, remaining, sorted⟩
    · apply sorted_cons.2
      refine ⟨?_, lanes, filled, ih sorted⟩
      intro b there
      obtain ⟨old, listed, same⟩ := mem_detach there
      rw [← same]
      exact least old listed

theorem holds_detach (h : Sorted bs) {c : UInt32} {i : LaneIndex} :
    Holds (detach count lane bs) c i ↔ Holds bs c i ∧ ¬ (c = count ∧ i = lane) := by
  induction bs with
  | nil => simp [detach]
  | cons first rest ih =>
    obtain ⟨least, lanes, -, sorted⟩ := sorted_cons.1 h
    have apart : ∀ {c}, Holds rest c i → c ≠ first.count := by
      rintro c ⟨b, there, rfl, -⟩ same
      exact UInt32.lt_irrefl _ (same ▸ least b there)
    have distinct : first.lanes.Nodup := lanes.imp Nat.ne_of_lt
    have remains : i ∈ first.lanes.erase lane ↔ i ≠ lane ∧ i ∈ first.lanes :=
      distinct.mem_erase_iff
    unfold detach
    split
    · next same =>
      subst same
      -- Whether or not the bucket goes, what is left of it holds the lanes other than `lane`.
      have left : Holds rest c i ∨ (first.count = c ∧ i ∈ first.lanes.erase lane) ↔
          Holds (first :: rest) c i ∧ ¬ (c = first.count ∧ i = lane) := by
        rw [holds_cons, remains]
        constructor
        · rintro (later | ⟨rfl, other, there⟩)
          · exact ⟨.inr later, fun both => apart later both.1⟩
          · exact ⟨.inl ⟨rfl, there⟩, fun both => other both.2⟩
        · rintro ⟨⟨rfl, there⟩ | later, other⟩
          · exact .inr ⟨rfl, fun same => other ⟨rfl, same⟩, there⟩
          · exact .inl later
      rw [← left]
      split
      · next none => simp [none]
      · rw [holds_cons, or_comm]
    · next other =>
      rw [holds_cons, ih sorted, holds_cons]
      grind

/-- The lowest bucket gives up its first lane. -/
theorem takeLowest_cons (count : UInt32) (lane : LaneIndex) (lanes : List LaneIndex)
    (rest : List Bucket) : takeLowest (⟨count, lane :: lanes⟩ :: rest) =
      (count, lane, detach count lane (⟨count, lane :: lanes⟩ :: rest)) := by
  cases lanes <;> simp [takeLowest, detach]

/-- No lane holds fewer keys than the one taken, and none that holds as few comes before it. -/
theorem Sorted.lowest {lanes : List LaneIndex} (h : Sorted (⟨count, lane :: lanes⟩ :: bs))
    {c : UInt32} {i : LaneIndex} (there : Holds (⟨count, lane :: lanes⟩ :: bs) c i) :
    count < c ∨ (count = c ∧ lane ≤ i) := by
  obtain ⟨least, sorted, -, -⟩ := sorted_cons.1 h
  rcases holds_cons.1 there with ⟨rfl, listed⟩ | ⟨b, later, rfl, -⟩
  · refine .inr ⟨rfl, ?_⟩
    rcases List.mem_cons.1 listed with rfl | after
    · exact Nat.le_refl _
    · exact Nat.le_of_lt ((List.pairwise_cons.1 sorted).1 i after)
  · exact .inl (least b later)

end Bucket

namespace Loads

variable {l : Loads} {count : UInt32} {lane : LaneIndex}

/-- The buckets are in order and say the same as the counts by lane. -/
structure Sound (l : Loads) : Prop where
  sorted : Bucket.Sorted l.buckets
  agree : ∀ count lane, Bucket.Holds l.buckets count lane ↔ l.counts[lane]? = some count

theorem sound_fresh (lanes : Nat) : (fresh lanes).Sound := by
  unfold fresh
  split
  · next none =>
    subst none
    exact ⟨⟨.nil, by simp, by simp⟩, by simp⟩
  · next any =>
    refine ⟨Bucket.sorted_cons.2 ⟨by simp, List.pairwise_lt_range, ?_, .nil, by simp, by simp⟩, ?_⟩
    · simpa using any
    · intro count lane
      simp [Array.getElem?_replicate, and_comm]

/-- A lane that leaves its bucket for the one of another count. -/
theorem Sound.move (h : l.Sound) (there : l.counts[lane]? = some count) (other : UInt32) :
    Sound ⟨Bucket.place other lane (Bucket.detach count lane l.buckets),
      l.counts.setIfInBounds lane other⟩ := by
  refine ⟨(h.sorted.detach count lane).place other lane, fun c i => ?_⟩
  obtain ⟨within, -⟩ := Array.getElem?_eq_some_iff.1 there
  rw [Bucket.holds_place, Bucket.holds_detach h.sorted, h.agree]
  rcases eq_or_ne i lane with rfl | apart
  · simp [within]
    grind
  · simp [Array.getElem?_setIfInBounds_ne (Ne.symm apart), apart]

/-- Every lane there is stands in a bucket. -/
theorem Sound.buckets (h : l.Sound) (lanes : 0 < l.counts.size) :
    ∃ count lane others rest, l.buckets = ⟨count, lane :: others⟩ :: rest := by
  have there := (h.agree l.counts[0] 0).2 (by simp [lanes])
  cases buckets : l.buckets with
  | nil => simp [buckets] at there
  | cons first rest =>
    have filled := h.sorted.filled first (by simp [buckets])
    obtain ⟨lane, others, lists⟩ := List.exists_cons_of_ne_nil filled
    exact ⟨first.count, lane, others, rest, by rw [← lists]⟩

/-- Below the top one more key is one more. -/
theorem toNat_raise {count : UInt32} (below : count.toNat < 2 ^ 32 - 1) :
    (raise count).toNat = count.toNat + 1 := by
  have short : count ≠ 0xffffffff := by
    rintro rfl
    exact absurd below (by decide)
  rw [raise, if_neg short, UInt32.toNat_add]
  exact Nat.mod_eq_of_lt (by simp; omega)

/-- The lane holds the fewest keys, and no lane before it holds as few. -/
def Lowest (l : Loads) (lane : LaneIndex) (count : UInt32) : Prop :=
  l.counts[lane]? = some count ∧
    ∀ i c, l.counts[i]? = some c → count < c ∨ (count = c ∧ lane ≤ i)

/-- The least loaded lane is chosen and counts one key more. -/
theorem Sound.acquire (h : l.Sound) (lanes : 0 < l.counts.size) :
    ∃ lane count l', l.Lowest lane count ∧ l.acquire = pure (lane, l') ∧
      l'.counts = l.counts.setIfInBounds lane (raise count) ∧ l'.Sound := by
  obtain ⟨count, lane, others, rest, buckets⟩ := h.buckets lanes
  have there : l.counts[lane]? = some count := by
    rw [← h.agree, buckets]
    simp
  refine ⟨lane, count, _, ⟨there, fun i c listed => ?_⟩, ?_, rfl, h.move there (raise count)⟩
  · rw [← h.agree, buckets] at listed
    exact (buckets ▸ h.sorted).lowest listed
  · simp [Loads.acquire, buckets, Bucket.takeLowest_cons]

/-- A lane that holds a key counts one less. -/
theorem Sound.release (h : l.Sound) (there : l.counts[lane]? = some count) (used : count ≠ 0) :
    ∃ l', l.release lane = pure l' ∧ l'.counts = l.counts.setIfInBounds lane (count - 1) ∧
      l'.Sound := by
  refine ⟨_, ?_, rfl, h.move there (count - 1)⟩
  simp [Loads.release, there, used]

end Loads

end OrderedLanes
