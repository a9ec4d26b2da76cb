import Mathlib.Order.Bounds.Basic
import OrderedLanes.Proofs.RecencyList
import OrderedLanes.Proofs.RecencyWindow

/-!
How many slots a `Recency` takes up. A removed entry leaves its slot to the next new key, so
a request leaves as many slots as there were, or as many as there are entries after it if
these are more; only clearing gives slots up. Hence there are as many slots as there were
entries when there were most (`slots_recycled`). An allocator seats a new key before it
evicts another: its slots are as many as the keys resolved since it was cleared, and one more
than may stay assigned at most.
-/

namespace OrderedLanes

namespace Recency

variable {r : Recency} {cells : List Cell} {l : Pairs}

/-! ### Slots without an entry -/

/-- The slots without an entry are free, each listed once, and every other slot holds an entry. -/
structure Tidy (r : Recency) : Prop where
  once : r.free.Nodup
  free : ∀ id, id ∈ r.free ↔ r.slots[id]? = some none
  slots : r.slots.size = r.size + r.free.length

theorem slot_empty_iff (r : Recency) (id : SlotId) :
    r.slots[id]? = some none ↔ id < r.slots.size ∧ r.slot? id = none := by
  rw [slot?]
  by_cases within : id < r.slots.size
  · cases held : r.slots[id] <;> simp [within, held]
  · simp [within]

theorem Filled.tidy (h : Filled r cells) : r.Tidy := by
  refine ⟨h.freeIds, fun id => (h.free id).trans (slot_empty_iff r id).symm, ?_⟩
  have apart : ∀ id ∈ cells.map Cell.id, ∀ other ∈ r.free, id ≠ other := by
    rintro id listed _ free rfl
    obtain ⟨c, hc, rfl⟩ := List.mem_map.1 listed
    obtain ⟨newer, older, there⟩ := h.linked.entry_of_mem hc
    simp [((h.free _).1 free).2] at there
  have once : (cells.map Cell.id ++ r.free).Nodup := List.nodup_append.2 ⟨h.ids, h.freeIds, apart⟩
  -- The slots of the cells and the free ones are all the slots that there are.
  have all : (cells.map Cell.id ++ r.free).Perm (List.range r.slots.size) := by
    refine (List.perm_ext_iff_of_nodup once List.nodup_range).2 fun id => ?_
    rw [List.mem_append, List.mem_range, h.free]
    constructor
    · rintro (listed | ⟨within, -⟩)
      · obtain ⟨c, hc, rfl⟩ := List.mem_map.1 listed
        obtain ⟨newer, older, there⟩ := h.linked.entry_of_mem hc
        exact slot?_lt there
      · exact within
    · intro within
      by_cases blank : r.slot? id = none
      · exact .inr ⟨within, blank⟩
      · exact .inl (h.occupied id blank)
  have total := all.length_eq
  rw [List.length_append, List.length_map, List.length_range, ← h.count] at total
  exact total.symm

theorem Stores.tidy (h : Stores r l) : r.Tidy := by
  obtain ⟨cells, filled, -⟩ := h
  exact filled.tidy

/-! ### What a request leaves -/

theorem slots_size_touch (r : Recency) (key : Key) :
    (r.touch key).2.slots.size = r.slots.size := by
  unfold touch
  split
  · rfl
  · next id _ => exact (sameStore_moveToFront r id).slots

theorem slots_size_popOldest (r : Recency) : r.popOldest.2.slots.size = r.slots.size := by
  unfold popOldest
  split
  · rfl
  · next id _ =>
    dsimp only
    split
    · exact (sameStore_unlink r id).slots
    · exact (Array.size_setIfInBounds ..).trans (sameStore_unlink r id).slots

theorem slots_size_store (r : Recency) (e : Entry) :
    (r.store e).2.slots.size = if r.free = [] then r.slots.size + 1 else r.slots.size := by
  unfold store
  split
  · next id free hf => simp [hf]
  · next hf => simp [hf]

/-- A slot is added for a key that is not there when no slot is free. -/
theorem slots_size_insert (r : Recency) (key : Key) (lane : LaneIndex) :
    (r.insert key lane).2.slots.size =
      if r.index[key]? = none ∧ r.free = [] then r.slots.size + 1 else r.slots.size := by
  cases found : r.index[key]? with
  | some id =>
    have same := (sameStore_modify r id fun e => { e with lane := lane }).trans
      (sameStore_moveToFront _ id)
    simpa [Recency.insert, found] using same.slots
  | none =>
    rw [insert_miss found, (sameStore_pushNewest _ _).slots]
    simpa using slots_size_store r ⟨key, lane, none, none⟩

theorem Stores.size_le (h : Stores r l) : r.size ≤ r.slots.size := by
  have := h.tidy.slots
  omega

/-- Where no slot was added there are enough for the entries. -/
theorem Stores.slots_of_same (h : Stores r l) {before : Nat} (same : r.slots.size = before) :
    r.slots.size = max before r.size := by
  have := h.size_le
  omega

theorem Stores.slots_insert (h : Stores r l) (key : Key) (lane : LaneIndex) :
    (r.insert key lane).2.slots.size = max r.slots.size (r.insert key lane).2.size := by
  have grows := slots_size_insert r key lane
  have after := (h.insert key lane).2
  by_cases full : r.index[key]? = none ∧ r.free = []
  · have before := h.tidy.slots
    have size : (r.insert key lane).2.size = r.size + 1 := by
      obtain ⟨cells, filled, rfl⟩ := h
      have absent := (index_none_iff filled.toRepresents key).1 full.1
      obtain ⟨id, -, filled'⟩ := filled.insert absent lane
      exact filled'.count.trans (congrArg (· + 1) filled.count.symm)
    rw [if_pos full] at grows
    rw [full.2, List.length_nil, Nat.add_zero] at before
    omega
  · exact after.slots_of_same (grows.trans (if_neg full))

/--
A request other than clearing leaves as many slots as there were before, or as many as there are
entries after it if these are more.
-/
theorem Stores.slots_ask (h : Stores r l) {q : Request} (keeps : q ≠ .clear) :
    (r.ask q).2.slots.size = max r.slots.size (r.ask q).2.size := by
  have after := (h.ask q).2
  cases q with
  | insert key lane => exact h.slots_insert key lane
  | touch key => exact after.slots_of_same (slots_size_touch r key)
  | popOldest => exact after.slots_of_same (slots_size_popOldest r)
  | clear => exact absurd rfl keeps
  | peek key => exact after.slots_of_same rfl
  | size => exact after.slots_of_same rfl
  | entries => exact after.slots_of_same rfl

/-! ### Along the requests -/

theorem askAll_append (r : Recency) (qs more : List Request) :
    (r.askAll (qs ++ more)).2 = ((r.askAll qs).2.askAll more).2 := by
  induction qs generalizing r with
  | nil => rfl
  | cons q qs ih => exact ih (r.ask q).2

/-- How many entries there were at each moment since the last clearing, or since the start. -/
def sizesSinceClear (qs : List Request) : Set Nat :=
  {n | ∃ past rest, qs = past ++ rest ∧ .clear ∉ rest ∧ (empty.askAll past).2.size = n}

theorem sizesSinceClear_nil : sizesSinceClear [] = {0} := by
  ext n
  constructor
  · rintro ⟨past, rest, split, -, rfl⟩
    obtain ⟨rfl, rfl⟩ := List.append_eq_nil_iff.1 split.symm
    exact size_empty
  · rintro rfl
    exact ⟨[], [], rfl, by simp, size_empty⟩

/-- One request more: a moment more, and what came before a clearing does not count. -/
theorem sizesSinceClear_snoc (qs : List Request) (q : Request) : sizesSinceClear (qs ++ [q]) =
    {(empty.askAll (qs ++ [q])).2.size} ∪ if q = .clear then ∅ else sizesSinceClear qs := by
  ext n
  constructor
  · rintro ⟨past, rest, split, kept, rfl⟩
    rcases List.eq_nil_or_concat rest with rfl | ⟨rest, last, rfl⟩
    · rw [split, List.append_nil]
      exact .inl rfl
    · rw [List.concat_eq_append, ← List.append_assoc] at split
      obtain ⟨rfl, same⟩ := List.append_inj' split rfl
      obtain rfl := List.singleton_inj.1 same
      rw [List.concat_eq_append, List.mem_append, List.mem_singleton, not_or] at kept
      rw [if_neg (Ne.symm kept.2)]
      exact .inr ⟨past, rest, rfl, kept.1, rfl⟩
  · rintro (now | earlier)
    · exact ⟨qs ++ [q], [], by simp, by simp, now.symm⟩
    · split at earlier
      · cases earlier
      · next kept =>
        obtain ⟨past, rest, rfl, open_, rfl⟩ := earlier
        exact ⟨past, rest ++ [q], by simp, by simp [open_, Ne.symm kept], rfl⟩

/-- There are as many slots as there were entries when there were most. -/
theorem isGreatest_slots (qs : List Request) :
    IsGreatest (sizesSinceClear qs) (empty.askAll qs).2.slots.size := by
  induction qs using List.reverseRecOn with
  | nil =>
    rw [sizesSinceClear_nil]
    exact isGreatest_singleton
  | append_singleton qs q ih =>
    obtain ⟨-, stores⟩ := stores_empty.askAll qs
    have step : (empty.askAll (qs ++ [q])).2 = ((empty.askAll qs).2.ask q).2 :=
      askAll_append empty qs [q]
    rw [sizesSinceClear_snoc, step]
    by_cases clears : q = .clear
    · subst clears
      rw [if_pos rfl, Set.union_empty]
      exact isGreatest_singleton
    · rw [if_neg clears, stores.slots_ask clears, max_comm, Set.singleton_union]
      exact ih.insert _

/-- To remove oldest entries takes no slot away and adds none. -/
theorem slots_size_pops (r : Recency) (n : Nat) :
    (r.askAll (List.replicate n .popOldest)).2.slots.size = r.slots.size := by
  induction n generalizing r with
  | zero => rfl
  | succ n ih => exact (ih r.popOldest.2).trans (slots_size_popOldest r)

end Recency

namespace Allocator

variable {a : Allocator} {l : Recency.Pairs}

/-! ### The slots of an allocator -/

/-- To evict keys is to remove oldest entries. -/
theorem recency_trim (fuel : Nat) (a : Allocator) :
    ∃ n, (trim fuel a).value.recency =
      (a.recency.askAll (List.replicate n .popOldest)).2 := by
  induction fuel generalizing a with
  | zero => exact ⟨0, rfl⟩
  | succ fuel ih =>
    unfold trim
    split
    · split
      · next recency popped => exact ⟨1, (congrArg Prod.snd popped).symm⟩
      · next key lane recency popped =>
        obtain ⟨n, rest⟩ := ih { a with
          recency, loads := (a.loads.release lane).value, stamps := a.stamps.forget key }
        refine ⟨n + 1, rest.trans ?_⟩
        rw [List.replicate_succ, Recency.askAll, Recency.ask, popped]
    · exact ⟨0, rfl⟩

/-- To resolve a key that is not there is to insert it and to remove oldest entries. -/
theorem recency_resolve_miss {key : Key} (missed : a.recency.touch key = (none, a.recency)) :
    ∃ lane n, (a.resolve key).value.2.recency =
      (a.recency.askAll (.insert key lane :: List.replicate n .popOldest)).2 := by
  let seated : Allocator := { a with
    recency := (a.recency.insert key a.loads.acquire.value.1).2
    loads := a.loads.acquire.value.2 }
  obtain ⟨n, trimmed⟩ := recency_trim seated.recency.size seated
  refine ⟨a.loads.acquire.value.1, n, Eq.trans ?_ trimmed⟩
  unfold resolve
  rw [missed]
  rfl

/--
A key that is there is found in its slot. A new one takes a slot while all others keep theirs,
even if one of them is evicted for it.
-/
theorem slots_resolve (h : a.recency.Stores l) (key : Key) :
    (∃ l', (a.resolve key).value.2.recency.Stores l') ∧
      (a.resolve key).value.2.recency.slots.size =
        if key ∈ l.map Prod.fst then a.recency.slots.size
        else max a.recency.slots.size (l.length + 1) := by
  by_cases there : key ∈ l.map Prod.fst
  · obtain ⟨lane, found⟩ := Option.isSome_iff_exists.1 (Roll.isSome_lookup.2 there)
    obtain ⟨answer, stores⟩ := h.touch key
    rw [Recency.Pairs.touch, found] at answer stores
    have result : (a.resolve key).value.2.recency = (a.recency.touch key).2 := by
      unfold resolve
      split
      · next hit => rw [hit]; rfl
      · next miss => rw [miss] at answer; cases answer
    rw [result, if_pos there]
    exact ⟨⟨_, stores⟩, Recency.slots_size_touch _ _⟩
  · obtain ⟨lane, n, result⟩ := recency_resolve_miss (h.lists.touch_miss there)
    obtain ⟨-, seated⟩ := h.insert key lane
    obtain ⟨-, stores⟩ := seated.askAll (List.replicate n .popOldest)
    have size : (a.recency.insert key lane).2.size = l.length + 1 := by
      rw [seated.lists.size, Recency.Pairs.insert, Roll.lookup_of_not_mem there]
      rfl
    rw [result, if_neg there, ← size, ← h.slots_insert key lane]
    exact ⟨⟨_, stores⟩, Recency.slots_size_pops _ n⟩

variable {lanes : Nat} {maxKeys headroom : UInt32}

/--
As many slots as different keys were resolved since the last clearing, and one more than may stay
assigned at most.
-/
theorem slots_calls (made : withHeadroom lanes maxKeys headroom = .ok a) (cs : List Call) :
    (∃ l, (a.calls cs).value.2.recency.Stores l) ∧
      (a.calls cs).value.2.recency.slots.size =
        min (backwards cs).toFinset.card (a.capacity + 1) := by
  have start := mirrors_of_withHeadroom made
  have capacity : a.capacity = maxKeys.toNat * headroom.toNat := start.capacity
  induction cs using List.reverseRecOn with
  | nil =>
    obtain ⟨-, bound, -, rfl⟩ := eq_of_withHeadroom made
    exact ⟨⟨[], Recency.stores_empty⟩, by simp [calls, Recency.empty]⟩
  | append_singleton cs c ih =>
    obtain ⟨⟨l, stores⟩, slots⟩ := ih
    rw [calls_append, backwards_snoc]
    change (∃ l, ((a.calls cs).value.2.call c).value.2.recency.Stores l) ∧
      ((a.calls cs).value.2.call c).value.2.recency.slots.size = _
    have mirrors := (start.calls cs).mirrors
    -- What is listed are the distinct keys resolved last, as many as fit.
    have listed : l.map Prod.fst = (backwards cs).eraseDups.take a.capacity := by
      rw [← stores.lists.toList, mirrors.lists.toList, start.fit.keys_calls rfl, capacity]
      rfl
    generalize (a.calls cs).value.2 = b at stores slots mirrors ⊢
    cases c with
    | resolve key =>
      obtain ⟨kept, result⟩ := slots_resolve stores key
      refine ⟨kept, result.trans ?_⟩
      have length : l.length = min a.capacity (backwards cs).toFinset.card := by
        rw [← List.length_map Prod.fst, listed, List.length_take, length_eraseDups]
      have met : key ∈ l.map Prod.fst → key ∈ backwards cs := fun there =>
        List.mem_eraseDups.1 (List.mem_of_mem_take (listed ▸ there))
      have all : (backwards cs).toFinset.card ≤ a.capacity →
          key ∈ backwards cs → key ∈ l.map Prod.fst := by
        intro few earlier
        rw [listed, List.take_of_length_le (length_eraseDups _ ▸ few)]
        exact List.mem_eraseDups.2 earlier
      simp only [reduceCtorEq, if_false, Call.resolved?, Option.toList_some,
        List.singleton_append, List.toFinset_cons]
      by_cases earlier : key ∈ backwards cs
      · rw [Finset.insert_eq_self.2 (List.mem_toFinset.2 earlier)]
        split
        · exact slots
        · next gone =>
          have many := mt (fun few => all few earlier) gone
          omega
      · rw [if_neg (mt met earlier), Finset.card_insert_of_notMem (by simpa using earlier)]
        omega
    | clear => exact ⟨⟨[], Recency.stores_empty⟩, by simp [call, clear, Recency.empty]⟩
    | nextStamp key => exact ⟨⟨l, stores⟩, slots⟩
    | assignment key => exact ⟨⟨l, stores⟩, slots⟩
    | counts => exact ⟨⟨l, stores⟩, slots⟩
    | assignments => exact ⟨⟨l, stores⟩, slots⟩
    | keyCount => exact ⟨⟨l, stores⟩, slots⟩

end Allocator

namespace Recency

/--
After any requests the free slots are the empty ones, each listed once, and all others hold one
entry each. There are as many slots as there were entries when there were most, since the last
clearing or since the start. So an allocator has as many slots as different keys were resolved
since it was cleared, and one more than may stay assigned at most.
-/
theorem slots_recycled (qs : List Request) :
    (empty.askAll qs).2.Tidy ∧
      IsGreatest (sizesSinceClear qs) (empty.askAll qs).2.slots.size ∧
      ∀ lanes maxKeys headroom a, Allocator.withHeadroom lanes maxKeys headroom = .ok a →
        ∀ cs, (a.calls cs).value.2.recency.slots.size =
          min (backwards cs).toFinset.card (a.capacity + 1) := by
  obtain ⟨-, stores⟩ := stores_empty.askAll qs
  refine ⟨stores.tidy, isGreatest_slots qs, fun lanes maxKeys headroom a made cs => ?_⟩
  exact (Allocator.slots_calls made cs).2

/-- There is room for two keys: four keys, one of them resolved anew, take three slots. -/
theorem slots_recycled_of_four : ∃ a, Allocator.withHeadroom 2 2 1 = .ok a ∧
    (a.calls [.resolve 1, .resolve 2, .resolve 3, .resolve 1, .resolve 4]).value.2.recency.slots.size
      = 3 := by
  have made : Allocator.withHeadroom 2 2 1 = .ok ⟨2, 2, 2, .empty, .fresh 2, .empty⟩ := rfl
  obtain ⟨-, -, slots⟩ := slots_recycled []
  exact ⟨_, made, (slots 2 2 1 _ made _).trans (by decide)⟩

end Recency

end OrderedLanes
