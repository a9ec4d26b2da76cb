import Mathlib.Data.List.Nodup
import Mathlib.Data.List.Perm.Subperm
import OrderedLanes.Allocation.Recency

/-!
The linked slots of a `Recency` spell a list of keys with their lanes, most
recently used first. `Lists r l` says that they spell `l`; every operation is
then the operation of that name on lists: a touched key moves to the front, a new
one is put there, and the oldest entry is the last one.
-/

namespace OrderedLanes

namespace Recency

/-- An entry with its slot and without its links. -/
structure Cell where
  id : SlotId
  key : Key
  lane : LaneIndex
  deriving DecidableEq, Repr

def Cell.pair (c : Cell) : Key × LaneIndex := (c.key, c.lane)

/-- The slot at the front of a list of cells, or the one that follows where there is none. -/
def front (cells : List Cell) (older : Option SlotId) : Option SlotId :=
  (cells.head?.map Cell.id).or older

/-- The slot at the back of a list of cells, or the one that precedes where there is none. -/
def back (newer : Option SlotId) (cells : List Cell) : Option SlotId :=
  (cells.getLast?.map Cell.id).or newer

@[simp] theorem front_nil (older : Option SlotId) : front [] older = older := by simp [front]
@[simp] theorem front_cons (c : Cell) (cells : List Cell) (older : Option SlotId) :
    front (c :: cells) older = some c.id := by simp [front]
@[simp] theorem back_nil (newer : Option SlotId) : back newer [] = newer := by simp [back]
@[simp] theorem back_snoc (newer : Option SlotId) (cells : List Cell) (c : Cell) :
    back newer (cells ++ [c]) = some c.id := by simp [back]

theorem front_append (xs ys : List Cell) (older : Option SlotId) :
    front (xs ++ ys) older = front xs (front ys older) := by
  cases xs <;> simp

theorem back_cons (newer : Option SlotId) (c : Cell) (cells : List Cell) :
    back newer (c :: cells) = back (some c.id) cells := by
  rcases List.eq_nil_or_concat cells with rfl | ⟨ds, d, rfl⟩
  · simpa using back_snoc newer [] c
  · rw [List.concat_eq_append, ← List.cons_append, back_snoc, back_snoc]

/-- The cells lie in their slots, each linked to its neighbours, between `newer` and `older`. -/
def Linked (entry : SlotId → Option Entry) :
    Option SlotId → List Cell → Option SlotId → Prop
  | _, [], _ => True
  | newer, c :: cells, older =>
    entry c.id = some ⟨c.key, c.lane, newer, front cells older⟩ ∧
      Linked entry (some c.id) cells older

theorem linked_append (entry : SlotId → Option Entry) (newer older : Option SlotId)
    (xs ys : List Cell) :
    Linked entry newer (xs ++ ys) older ↔
      Linked entry newer xs (front ys older) ∧ Linked entry (back newer xs) ys older := by
  induction xs generalizing newer with
  | nil => simp [Linked]
  | cons x xs ih => simp only [List.cons_append, Linked, ih, front_append, back_cons, and_assoc]

/-- Links are read in the slots of the cells only. -/
theorem Linked.congr {entry entry' : SlotId → Option Entry} {newer older : Option SlotId}
    {cells : List Cell} (h : Linked entry newer cells older)
    (same : ∀ c ∈ cells, entry' c.id = entry c.id) : Linked entry' newer cells older := by
  induction cells generalizing newer with
  | nil => trivial
  | cons c cells ih =>
    refine ⟨(same c (by simp)).trans h.1, ih h.2 ?_⟩
    intro d hd
    exact same d (List.mem_cons_of_mem _ hd)

theorem Linked.entry_of_mem {entry : SlotId → Option Entry} {newer older : Option SlotId}
    {cells : List Cell} (h : Linked entry newer cells older) {c : Cell} (hc : c ∈ cells) :
    ∃ n o, entry c.id = some ⟨c.key, c.lane, n, o⟩ := by
  induction cells generalizing newer with
  | nil => cases hc
  | cons d cells ih =>
    rcases List.mem_cons.1 hc with rfl | hc
    · exact ⟨_, _, h.1⟩
    · exact ih h.2 hc

/-! ### Single links -/

variable {r : Recency}

@[simp] theorem slot?_modify (r : Recency) (id j : SlotId) (change : Entry → Entry) :
    (r.modify id change).slot? j =
      if j = id then (r.slot? id).map change else r.slot? j := by
  rcases eq_or_ne id j with rfl | h
  · cases hs : r.slots[id]? <;> simp [slot?, modify, Array.getElem?_modify, hs]
  · simp [slot?, modify, Array.getElem?_modify, h, h.symm]

theorem slot?_linkOlder (r : Recency) (newer older : Option SlotId) (j : SlotId) :
    (r.linkOlder newer older).slot? j =
      if newer = some j then (r.slot? j).map fun e => { e with older := older }
      else r.slot? j := by
  cases newer with
  | none => simp [linkOlder, slot?]
  | some id => rcases eq_or_ne id j with rfl | h <;> simp [linkOlder, *, Ne.symm]

theorem slot?_linkNewer (r : Recency) (older newer : Option SlotId) (j : SlotId) :
    (r.linkNewer older newer).slot? j =
      if older = some j then (r.slot? j).map fun e => { e with newer := newer }
      else r.slot? j := by
  cases older with
  | none => simp [linkNewer, slot?]
  | some id => rcases eq_or_ne id j with rfl | h <;> simp [linkNewer, *, Ne.symm]

theorem newest_linkOlder (r : Recency) (newer older : Option SlotId) :
    (r.linkOlder newer older).newest = if newer = none then older else r.newest := by
  cases newer <;> rfl

theorem oldest_linkNewer (r : Recency) (older newer : Option SlotId) :
    (r.linkNewer older newer).oldest = if older = none then newer else r.oldest := by
  cases older <;> rfl

@[simp] theorem oldest_linkOlder (r : Recency) (newer older : Option SlotId) :
    (r.linkOlder newer older).oldest = r.oldest := by
  cases newer <;> rfl

@[simp] theorem newest_linkNewer (r : Recency) (older newer : Option SlotId) :
    (r.linkNewer older newer).newest = r.newest := by
  cases older <;> rfl

/-! ### The order -/

theorem back_append (newer : Option SlotId) (xs ys : List Cell) :
    back newer (xs ++ ys) = back (back newer xs) ys := by
  induction xs generalizing newer with
  | nil => simp
  | cons x xs ih => rw [List.cons_append, back_cons, back_cons, ih]

@[simp] theorem back_ne_none (id : SlotId) (cells : List Cell) : back (some id) cells ≠ none := by
  cases h : cells.getLast? <;> simp [back, h]

theorem mem_of_front_eq {cells : List Cell} {id : SlotId} (h : front cells none = some id) :
    ∃ c ∈ cells, c.id = id := by
  cases cells with
  | nil => cases h
  | cons c cells => exact ⟨c, by simp, by simpa using h⟩

theorem mem_of_back_eq {cells : List Cell} {id : SlotId} (h : back none cells = some id) :
    ∃ c ∈ cells, c.id = id := by
  rcases List.eq_nil_or_concat cells with rfl | ⟨ds, d, rfl⟩
  · cases h
  · rw [List.concat_eq_append, back_snoc] at h
    exact ⟨d, by simp, by simpa using h⟩

/-- The last of the cells is linked on to another slot. -/
theorem linked_linkOlder {newer older : Option SlotId} {cells : List Cell} (r : Recency)
    (h : Linked r.slot? newer cells older) (ids : (cells.map Cell.id).Nodup)
    (next : Option SlotId) :
    Linked (r.linkOlder (back none cells) next).slot? newer cells next := by
  rcases List.eq_nil_or_concat cells with rfl | ⟨ds, d, rfl⟩
  · trivial
  · rw [List.concat_eq_append] at *
    rw [linked_append] at h ⊢
    have apart : ∀ c ∈ ds, c.id ≠ d.id := by
      simp only [List.map_append, List.map_cons, List.map_nil, List.nodup_append] at ids
      intro c hc
      exact ids.2.2 _ (List.mem_map_of_mem hc) _ (by simp)
    refine ⟨h.1.congr ?_, ?_, trivial⟩
    · intro c hc
      simp [slot?_linkOlder, (apart c hc).symm]
    · simp [slot?_linkOlder, h.2.1]

/-- The first of the cells is linked back to another slot. -/
theorem linked_linkNewer {newer older : Option SlotId} {cells : List Cell} (r : Recency)
    (h : Linked r.slot? newer cells older) (ids : (cells.map Cell.id).Nodup)
    (former : Option SlotId) :
    Linked (r.linkNewer (front cells none) former).slot? former cells older := by
  cases cells with
  | nil => trivial
  | cons d ds =>
    have apart : ∀ c ∈ ds, c.id ≠ d.id := by
      intro c hc same
      exact (List.nodup_cons.1 ids).1 (same ▸ List.mem_map_of_mem hc)
    refine ⟨by simp [slot?_linkNewer, h.1], h.2.congr ?_⟩
    intro c hc
    simp [slot?_linkNewer, (apart c hc).symm]

/-- The slots of the cells are linked in this order, and their ends are known. -/
structure Ordered (r : Recency) (cells : List Cell) : Prop where
  linked : Linked r.slot? none cells none
  newest : r.newest = front cells none
  oldest : r.oldest = back none cells
  ids : (cells.map Cell.id).Nodup

theorem Ordered.entry {xs ys : List Cell} {c : Cell} (h : Ordered r (xs ++ c :: ys)) :
    r.slot? c.id = some ⟨c.key, c.lane, back none xs, front ys none⟩ :=
  ((linked_append _ _ _ _ _).1 h.linked).2.1

theorem front_ne {cells : List Cell} {id : SlotId} (h : ∀ c ∈ cells, c.id ≠ id) :
    front cells none ≠ some id := by
  intro same
  obtain ⟨c, hc, e⟩ := mem_of_front_eq same
  exact h c hc e

theorem back_ne {cells : List Cell} {id : SlotId} (h : ∀ c ∈ cells, c.id ≠ id) :
    back none cells ≠ some id := by
  intro same
  obtain ⟨c, hc, e⟩ := mem_of_back_eq same
  exact h c hc e

/-- Where one cell stands among others, all three parts have slots of their own. -/
theorem ids_apart {xs ys : List Cell} {c : Cell} (h : ((xs ++ c :: ys).map Cell.id).Nodup) :
    (∀ x ∈ xs, x.id ≠ c.id) ∧ (∀ y ∈ ys, y.id ≠ c.id) ∧ ∀ x ∈ xs, ∀ y ∈ ys, x.id ≠ y.id := by
  simp only [List.map_append, List.map_cons, List.nodup_append, List.nodup_cons, List.mem_cons,
    List.mem_map] at h
  obtain ⟨-, ⟨fresh, -⟩, apart⟩ := h
  refine ⟨fun x hx => apart _ ⟨x, hx, rfl⟩ _ (.inl rfl), fun y hy same => fresh ⟨y, hy, same⟩, ?_⟩
  intro x hx y hy
  exact apart _ ⟨x, hx, rfl⟩ _ (.inr ⟨y, hy, rfl⟩)

/-- What unlinking a slot leaves: the other cells in their order, and the slot's entry alone. -/
theorem Ordered.unlink {xs ys : List Cell} {c : Cell} (h : Ordered r (xs ++ c :: ys)) :
    Ordered (r.unlink c.id) (xs ++ ys) ∧
      (r.unlink c.id).slot? c.id = some ⟨c.key, c.lane, none, none⟩ := by
  have there := h.entry
  obtain ⟨xc, yc, xy⟩ := ids_apart h.ids
  have kept : ((xs ++ ys).map Cell.id).Nodup := by
    have ids := h.ids
    rw [List.map_append, List.map_cons, List.nodup_middle] at ids
    rw [List.map_append]
    exact ids.of_cons
  obtain ⟨xsIds, ysIds, -⟩ := List.nodup_append.1 (List.map_append ▸ kept)
  obtain ⟨before, -, after⟩ := (linked_append _ _ _ _ _).1 h.linked
  -- The three links that `unlink` changes, one after the other.
  let r₁ := r.linkOlder (back none xs) (front ys none)
  let r₂ := r₁.linkNewer (front ys none) (back none xs)
  have step : r.unlink c.id = r₂.modify c.id fun e => { e with newer := none, older := none } := by
    simp [Recency.unlink, there, r₁, r₂]
  have entry₁ : ∀ j, back none xs ≠ some j → r₁.slot? j = r.slot? j := by
    intro j hj
    simp [r₁, slot?_linkOlder, hj]
  have entry₂ : ∀ j, front ys none ≠ some j → r₂.slot? j = r₁.slot? j := by
    intro j hj
    simp [r₂, slot?_linkNewer, hj]
  have linkedXs : Linked r₂.slot? none xs (front ys none) := by
    refine (linked_linkOlder r before xsIds _).congr fun x hx => entry₂ _ (front_ne ?_)
    intro y hy
    exact (xy x hx y hy).symm
  have linkedYs : Linked r₂.slot? (back none xs) ys none := by
    refine linked_linkNewer r₁ (after.congr fun y hy => entry₁ _ (back_ne ?_)) ysIds _
    intro x hx
    exact xy x hx y hy
  rw [step]
  refine ⟨⟨(linked_append _ _ _ _ _).2 ⟨linkedXs.congr ?_, linkedYs.congr ?_⟩, ?_, ?_, kept⟩, ?_⟩
  · intro x hx
    simp [xc x hx]
  · intro y hy
    simp [yc y hy]
  · change r₂.newest = _
    simp only [r₂, r₁, newest_linkNewer, newest_linkOlder, h.newest]
    cases xs with
    | nil => simp
    | cons x xs => simp [back_cons, back_ne_none]
  · change r₂.oldest = _
    simp only [r₂, r₁, oldest_linkNewer, oldest_linkOlder, h.oldest]
    cases ys with
    | nil => simp
    | cons y ys => simp [back_append, back_cons]
  · simp [entry₂ _ (front_ne yc), entry₁ _ (back_ne xc), there]

/-- An unlinked slot goes to the front. -/
theorem Ordered.pushNewest {cells : List Cell} {c : Cell} (h : Ordered r cells)
    (new : c.id ∉ cells.map Cell.id)
    (there : r.slot? c.id = some ⟨c.key, c.lane, none, none⟩) :
    Ordered (r.pushNewest c.id) (c :: cells) := by
  have apart : ∀ d ∈ cells, d.id ≠ c.id := fun d hd same => new (same ▸ List.mem_map_of_mem hd)
  have frontOwn : front cells none ≠ some c.id := front_ne apart
  have step : r.pushNewest c.id =
      { (r.modify c.id fun e => { e with newer := none, older := front cells none }).linkNewer
          (front cells none) (some c.id) with newest := some c.id } := by
    simp [Recency.pushNewest, h.newest]
  have entry : ∀ j, (r.pushNewest c.id).slot? j =
      ((r.modify c.id fun e => { e with newer := none, older := front cells none }).linkNewer
        (front cells none) (some c.id)).slot? j := fun j => by rw [step]; rfl
  refine ⟨⟨?_, ?_⟩, ?_, ?_, ?_⟩
  · simp [entry, slot?_linkNewer, frontOwn, there]
  · have moved := linked_linkNewer
      (r.modify c.id fun e => { e with newer := none, older := front cells none })
      (h.linked.congr fun d hd => by simp [apart d hd]) h.ids (some c.id)
    exact moved.congr fun d _ => entry d.id
  · rw [step]; simp
  · rw [step]
    change ((r.modify c.id _).linkNewer _ _).oldest = _
    rw [oldest_linkNewer, back_cons]
    change (if _ then _ else r.oldest) = _
    rw [h.oldest]
    cases cells with
    | nil => simp
    | cons d cells => simp [back_cons]
  · exact List.nodup_cons.2 ⟨new, h.ids⟩

/-! ### The store -/

/-- The two hold the same entries in the same slots, links apart, and the same table. -/
structure SameStore (r r' : Recency) : Prop where
  index : r'.index = r.index
  free : r'.free = r.free
  slots : r'.slots.size = r.slots.size
  empty : ∀ id, r'.slot? id = none ↔ r.slot? id = none

theorem SameStore.trans {r₁ r₂ r₃ : Recency} (h : SameStore r₁ r₂) (h' : SameStore r₂ r₃) :
    SameStore r₁ r₃ :=
  ⟨h'.index.trans h.index, h'.free.trans h.free, h'.slots.trans h.slots,
    fun id => (h'.empty id).trans (h.empty id)⟩

theorem sameStore_modify (r : Recency) (id : SlotId) (change : Entry → Entry) :
    SameStore r (r.modify id change) := by
  refine ⟨rfl, rfl, by simp [modify], ?_⟩
  intro j
  rcases eq_or_ne j id with rfl | h <;> simp [*]

theorem sameStore_linkOlder (r : Recency) (newer older : Option SlotId) :
    SameStore r (r.linkOlder newer older) := by
  cases newer with
  | none => exact ⟨rfl, rfl, rfl, fun _ => Iff.rfl⟩
  | some id => exact sameStore_modify r id _

theorem sameStore_linkNewer (r : Recency) (older newer : Option SlotId) :
    SameStore r (r.linkNewer older newer) := by
  cases older with
  | none => exact ⟨rfl, rfl, rfl, fun _ => Iff.rfl⟩
  | some id => exact sameStore_modify r id _

theorem sameStore_unlink (r : Recency) (id : SlotId) : SameStore r (r.unlink id) := by
  unfold Recency.unlink
  split
  · exact ⟨rfl, rfl, rfl, fun _ => Iff.rfl⟩
  · exact ((sameStore_linkOlder r _ _).trans (sameStore_linkNewer _ _ _)).trans
      (sameStore_modify _ _ _)

theorem sameStore_pushNewest (r : Recency) (id : SlotId) : SameStore r (r.pushNewest id) := by
  have h := (sameStore_modify r id fun e => { e with newer := none, older := r.newest }).trans
    (sameStore_linkNewer _ r.newest (some id))
  exact ⟨h.index, h.free, h.slots, h.empty⟩

theorem sameStore_moveToFront (r : Recency) (id : SlotId) : SameStore r (r.moveToFront id) :=
  (sameStore_unlink r id).trans (sameStore_pushNewest _ id)

/-- The slots hold these cells in this order, the table finds each key, and the rest is free. -/
structure Represents (r : Recency) (cells : List Cell) : Prop extends Ordered r cells where
  keys : (cells.map Cell.key).Nodup
  index : ∀ key id, r.index[key]? = some id ↔ ∃ c ∈ cells, c.key = key ∧ c.id = id
  count : r.index.size = cells.length
  free : ∀ id, id ∈ r.free ↔ id < r.slots.size ∧ r.slot? id = none
  freeIds : r.free.Nodup

theorem represents_empty : Represents empty [] := by
  refine ⟨⟨trivial, rfl, rfl, List.nodup_nil⟩, List.nodup_nil, ?_, ?_, ?_, List.nodup_nil⟩
  · simp [empty]
  · simp [empty]
  · simp [empty]

theorem slot?_lt {r : Recency} {id : SlotId} {e : Entry} (h : r.slot? id = some e) :
    id < r.slots.size := by
  by_contra out
  simp [slot?, Array.getElem?_eq_none (Nat.le_of_not_lt out)] at h

theorem Represents.length_le {cells : List Cell} (h : Represents r cells) :
    cells.length ≤ r.slots.size := by
  have within : cells.map Cell.id ⊆ List.range r.slots.size := by
    intro id hid
    obtain ⟨c, hc, rfl⟩ := List.mem_map.1 hid
    obtain ⟨n, o, there⟩ := h.linked.entry_of_mem hc
    exact List.mem_range.2 (slot?_lt there)
  simpa using (h.ids.subperm within).length_le

theorem index_none_iff {cells : List Cell} (h : Represents r cells) (key : Key) :
    r.index[key]? = none ↔ key ∉ cells.map Cell.key := by
  constructor
  · intro gone there
    obtain ⟨c, hc, rfl⟩ := List.mem_map.1 there
    rw [(h.index c.key c.id).2 ⟨c, hc, rfl, rfl⟩] at gone
    cases gone
  · intro gone
    by_contra there
    obtain ⟨id, hid⟩ := Option.ne_none_iff_exists'.1 there
    obtain ⟨c, hc, rfl, -⟩ := (h.index key id).1 hid
    exact gone (List.mem_map_of_mem hc)

/-- Moving a slot to the front moves its cell there. -/
theorem Represents.moveToFront {xs ys : List Cell} {c : Cell}
    (h : Represents r (xs ++ c :: ys)) : Represents (r.moveToFront c.id) (c :: (xs ++ ys)) := by
  obtain ⟨order, there⟩ := h.toOrdered.unlink
  have same := sameStore_moveToFront r c.id
  have perm : (xs ++ c :: ys).Perm (c :: (xs ++ ys)) := List.perm_middle
  have ids := (perm.map Cell.id).nodup_iff.1 h.ids
  refine ⟨order.pushNewest (List.nodup_cons.1 ids).1 there,
    (perm.map Cell.key).nodup_iff.1 h.keys, ?_, ?_, ?_, ?_⟩
  · intro key id
    rw [same.index, h.index]
    simp only [perm.mem_iff]
  · rw [same.index, h.count, perm.length_eq]
  · intro id
    rw [same.free, same.slots, same.empty, h.free]
  · rw [same.free]
    exact h.freeIds

/-- A new entry is stored in an empty slot, and the rest stays. -/
theorem Represents.store {cells : List Cell} (h : Represents r cells) (e : Entry) :
    r.slot? (r.store e).1 = none ∧
      (∀ j, (r.store e).2.slot? j = if j = (r.store e).1 then some e else r.slot? j) ∧
      (∀ j, j ∈ (r.store e).2.free ↔
        j < (r.store e).2.slots.size ∧ (r.store e).2.slot? j = none) ∧
      (r.store e).2.free.Nodup := by
  have ids := h.freeIds
  have free := h.free
  unfold Recency.store
  split
  · next id rest hf =>
    rw [hf] at ids free
    obtain ⟨within, blank⟩ := (free id).1 (by simp)
    have entry : ∀ j, ({ r with slots := r.slots.setIfInBounds id (some e), free := rest } :
        Recency).slot? j = if j = id then some e else r.slot? j := by
      intro j
      rcases eq_or_ne id j with rfl | hj
      · simp [slot?, within]
      · simp [slot?, Array.getElem?_setIfInBounds_ne, hj, hj.symm]
    refine ⟨blank, entry, ?_, (List.nodup_cons.1 ids).2⟩
    intro j
    have apart := (List.nodup_cons.1 ids).1
    have old := free j
    rw [entry j]
    rcases eq_or_ne j id with rfl | hj
    · simpa using apart
    · simpa [hj] using old
  · next hf =>
    rw [hf] at free
    have entry : ∀ j, ({ r with slots := r.slots.push (some e) } : Recency).slot? j =
        if j = r.slots.size then some e else r.slot? j := by
      intro j
      rcases eq_or_ne j r.slots.size with rfl | hj
      · simp [slot?]
      · simp [slot?, Array.getElem?_push, hj]
    refine ⟨by simp [slot?], entry, ?_, by simp [hf]⟩
    intro j
    have old := free j
    change j ∈ r.free ↔ _
    rw [entry j, hf]
    rcases eq_or_ne j r.slots.size with rfl | hj
    · simp
    · simp only [hj, if_false, Array.size_push]
      rw [old]
      constructor
      · exact fun h => ⟨Nat.lt_succ_of_lt h.1, h.2⟩
      · exact fun h => ⟨Nat.lt_of_le_of_ne (Nat.le_of_lt_succ h.1) hj, h.2⟩

theorem store_keeps (r : Recency) (e : Entry) : (r.store e).2.index = r.index ∧
    (r.store e).2.newest = r.newest ∧ (r.store e).2.oldest = r.oldest := by
  unfold Recency.store
  split <;> exact ⟨rfl, rfl, rfl⟩

/-- A key that is not there yet becomes the first one. -/
theorem Represents.insert {cells : List Cell} (h : Represents r cells) {key : Key}
    (new : key ∉ cells.map Cell.key) (lane : LaneIndex) :
    ∃ id, (r.insert key lane).1 = none ∧
      Represents (r.insert key lane).2 (⟨id, key, lane⟩ :: cells) := by
  obtain ⟨blank, entry, free, freeIds⟩ := h.store ⟨key, lane, none, none⟩
  have table := store_keeps r ⟨key, lane, none, none⟩
  generalize hs : r.store ⟨key, lane, none, none⟩ = stored at blank entry free freeIds table
  obtain ⟨id, r'⟩ := stored
  have step : r.insert key lane =
      (none, ({ r' with index := r'.index.insert key id } : Recency).pushNewest id) := by
    simp [Recency.insert, (index_none_iff h key).2 new, hs]
  have unused : ∀ c ∈ cells, c.id ≠ id := by
    rintro c hc rfl
    obtain ⟨n, o, there⟩ := h.linked.entry_of_mem hc
    simp [there] at blank
  -- The entry is in its slot and in the table, and not yet in the order.
  let r'' : Recency := { r' with index := r'.index.insert key id }
  have entry'' : ∀ j, r''.slot? j = if j = id then some ⟨key, lane, none, none⟩ else r.slot? j :=
    entry
  have order : Ordered r'' cells := by
    refine ⟨h.linked.congr fun c hc => by simp [entry'', unused c hc], ?_, ?_, h.ids⟩
    · exact table.2.1.trans h.newest
    · exact table.2.2.trans h.oldest
  have same : SameStore r'' (r''.pushNewest id) := sameStore_pushNewest r'' id
  refine ⟨id, by rw [step], ?_⟩
  rw [step]
  refine ⟨order.pushNewest (c := ⟨id, key, lane⟩) ?_ (by simp [entry'']),
    List.nodup_cons.2 ⟨new, h.keys⟩, ?_, ?_, ?_, ?_⟩
  · intro there
    obtain ⟨c, hc, same⟩ := List.mem_map.1 there
    exact unused c hc same
  · intro k j
    change (r''.pushNewest id).index[k]? = _ ↔ _
    rw [same.index]
    change (r'.index.insert key id)[k]? = _ ↔ _
    rw [Std.HashMap.getElem?_insert, table.1]
    by_cases hk : key = k
    · subst hk
      have none : ∀ c ∈ cells, c.key ≠ key := fun c hc e => new (e ▸ List.mem_map_of_mem hc)
      simp only [beq_self_eq_true, if_true, Option.some.injEq, List.mem_cons, exists_eq_or_imp,
        true_and]
      exact ⟨.inl, fun h => h.resolve_right fun ⟨c, hc, e, _⟩ => none c hc e⟩
    · simp [hk, h.index]
  · change (r''.pushNewest id).index.size = _
    rw [same.index]
    change (r'.index.insert key id).size = _
    have absent : key ∉ r.index := by
      rw [Std.HashMap.mem_iff_isSome_getElem?, (index_none_iff h key).2 new]
      exact Bool.false_ne_true
    rw [Std.HashMap.size_insert, table.1, if_neg absent, h.count, List.length_cons]
  · intro j
    rw [same.free, same.slots, same.empty]
    exact free j
  · rw [same.free]
    exact freeIds

/-- The oldest entry is the last one, and its slot falls free. -/
theorem Represents.popOldest {cells : List Cell} {c : Cell} (h : Represents r (cells ++ [c])) :
    r.popOldest.1 = some c.pair ∧ Represents r.popOldest.2 cells := by
  obtain ⟨order, there⟩ := h.toOrdered.unlink
  have same : SameStore r (r.unlink c.id) := sameStore_unlink r c.id
  have last : r.oldest = some c.id := by rw [h.oldest, back_snoc]
  simp only [Recency.popOldest, last, there]
  rw [List.append_nil] at order
  have within : c.id < (r.unlink c.id).slots.size := slot?_lt there
  obtain ⟨apart, -, -⟩ := ids_apart h.ids
  have keys : (cells.map Cell.key).Nodup ∧ ∀ d ∈ cells, d.key ≠ c.key := by
    have keys := h.keys
    simp only [List.map_append, List.map_cons, List.map_nil, List.nodup_append] at keys
    exact ⟨keys.1, fun d hd => keys.2.2 _ (List.mem_map_of_mem hd) _ (by simp)⟩
  let r' : Recency :=
    { r.unlink c.id with
      slots := (r.unlink c.id).slots.setIfInBounds c.id none
      free := c.id :: (r.unlink c.id).free
      index := (r.unlink c.id).index.erase c.key }
  have entry : ∀ j, r'.slot? j = if j = c.id then none else (r.unlink c.id).slot? j := by
    intro j
    rcases eq_or_ne c.id j with rfl | hj
    · simp [slot?, r', within]
    · simp [slot?, r', Array.getElem?_setIfInBounds_ne, hj, hj.symm]
  refine ⟨rfl, ⟨⟨?_, order.newest, order.oldest, order.ids⟩, keys.1, ?_, ?_, ?_, ?_⟩⟩
  · exact order.linked.congr fun d hd => by
      rw [show _ = r'.slot? d.id from rfl, entry, if_neg (apart d hd)]
  · intro key id
    change ((r.unlink c.id).index.erase c.key)[key]? = _ ↔ _
    rw [Std.HashMap.getElem?_erase, same.index]
    by_cases hk : c.key = key
    · subst hk
      simp only [beq_self_eq_true, if_true, reduceCtorEq, false_iff]
      rintro ⟨d, hd, e, -⟩
      exact keys.2 d hd e
    · simp [hk, h.index]
  · change ((r.unlink c.id).index.erase c.key).size = _
    have here : c.key ∈ r.index := by
      rw [Std.HashMap.mem_iff_isSome_getElem?, (h.index c.key c.id).2 ⟨c, by simp, rfl, rfl⟩]
      rfl
    rw [Std.HashMap.size_erase, same.index, if_pos here, h.count]
    simp
  · intro j
    change j ∈ c.id :: (r.unlink c.id).free ↔ j < ((r.unlink c.id).slots.setIfInBounds _ _).size ∧
      r'.slot? j = none
    rw [entry, List.mem_cons, same.free, h.free, Array.size_setIfInBounds]
    rcases eq_or_ne j c.id with rfl | hj
    · simpa using within
    · simp only [hj, false_or, if_false, same.slots, same.empty]
  · change (c.id :: (r.unlink c.id).free).Nodup
    rw [same.free]
    refine List.nodup_cons.2 ⟨?_, h.freeIds⟩
    intro listed
    have blank := (same.empty c.id).2 ((h.free c.id).1 listed).2
    simp [there] at blank

/-! ### The list of entries -/

/-- The slots spell this list of keys with their lanes, most recently used first. -/
def Lists (r : Recency) (l : List (Key × LaneIndex)) : Prop :=
  ∃ cells, Represents r cells ∧ cells.map Cell.pair = l

variable {l : List (Key × LaneIndex)}

theorem lists_empty : Lists empty [] := ⟨[], represents_empty, rfl⟩

theorem keys_of_pairs (cells : List Cell) :
    (cells.map Cell.pair).map Prod.fst = cells.map Cell.key := by
  rw [List.map_map]
  rfl

theorem Lists.keys (h : Lists r l) : (l.map Prod.fst).Nodup := by
  obtain ⟨cells, rep, rfl⟩ := h
  rw [keys_of_pairs]
  exact rep.keys

theorem Lists.size (h : Lists r l) : r.size = l.length := by
  obtain ⟨cells, rep, rfl⟩ := h
  rw [List.length_map]
  exact rep.count

/-- Following the links for `fuel` entries yields the first `fuel` pairs, and no more than all. -/
theorem follow_linked (r : Recency) {newer : Option SlotId} {cells : List Cell}
    (h : Linked r.slot? newer cells none) (fuel : Nat) :
    r.follow fuel (front cells none) = (cells.map Cell.pair).take fuel := by
  induction cells generalizing newer fuel with
  | nil => cases fuel <;> simp [follow]
  | cons c cells ih =>
    cases fuel with
    | zero => rfl
    | succ fuel =>
      simp only [front_cons, follow, h.1, List.map_cons, List.take_succ_cons]
      rw [ih h.2]
      rfl

theorem Lists.toList (h : Lists r l) : r.toList = l := by
  obtain ⟨cells, rep, rfl⟩ := h
  rw [Recency.toList, rep.newest, follow_linked r rep.linked, List.take_of_length_le]
  rw [List.length_map]
  exact rep.length_le

theorem Lists.touch_miss (h : Lists r l) {key : Key} (absent : key ∉ l.map Prod.fst) :
    r.touch key = (none, r) := by
  obtain ⟨cells, rep, rfl⟩ := h
  rw [keys_of_pairs] at absent
  simp [touch, (index_none_iff rep key).2 absent]

theorem Lists.touch_hit {before after : List (Key × LaneIndex)} {key : Key} {lane : LaneIndex}
    (h : Lists r (before ++ (key, lane) :: after)) :
    (r.touch key).1 = some lane ∧
      Lists (r.touch key).2 ((key, lane) :: (before ++ after)) := by
  obtain ⟨cells, rep, spelled⟩ := h
  obtain ⟨xs, rest, rfl, rfl, hrest⟩ := List.map_eq_append_iff.1 spelled
  obtain ⟨c, ys, rfl, hc, rfl⟩ := List.map_eq_cons_iff.1 hrest
  obtain ⟨rfl, rfl⟩ : c.key = key ∧ c.lane = lane := by simpa [Cell.pair] using hc
  have found : r.index[c.key]? = some c.id := (rep.index _ _).2 ⟨c, by simp, rfl, rfl⟩
  have moved := rep.moveToFront
  have front : Ordered (r.moveToFront c.id) ([] ++ c :: (xs ++ ys)) := moved.toOrdered
  have there := front.entry
  simp only [touch, found, there, Option.map_some, true_and]
  exact ⟨c :: (xs ++ ys), moved, by simp [Cell.pair]⟩

theorem Lists.peek_miss (h : Lists r l) {key : Key} (absent : key ∉ l.map Prod.fst) :
    r.peek key = none := by
  obtain ⟨cells, rep, rfl⟩ := h
  rw [keys_of_pairs] at absent
  simp [peek, (index_none_iff rep key).2 absent]

theorem Lists.peek_hit {key : Key} {lane : LaneIndex} (h : Lists r l) (there : (key, lane) ∈ l) :
    r.peek key = some lane := by
  obtain ⟨cells, rep, rfl⟩ := h
  obtain ⟨c, listed, hc⟩ := List.mem_map.1 there
  obtain ⟨rfl, rfl⟩ : c.key = key ∧ c.lane = lane := by simpa [Cell.pair] using hc
  have found : r.index[c.key]? = some c.id := (rep.index _ _).2 ⟨c, listed, rfl, rfl⟩
  obtain ⟨newer, older, entry⟩ := rep.linked.entry_of_mem listed
  simp [peek, found, entry]

theorem Lists.insert (h : Lists r l) {key : Key} (absent : key ∉ l.map Prod.fst)
    (lane : LaneIndex) : Lists (r.insert key lane).2 ((key, lane) :: l) := by
  obtain ⟨cells, rep, rfl⟩ := h
  rw [keys_of_pairs] at absent
  obtain ⟨id, -, rep'⟩ := rep.insert absent lane
  exact ⟨_, rep', rfl⟩

theorem Lists.popOldest {last : Key × LaneIndex} (h : Lists r (l ++ [last])) :
    r.popOldest.1 = some last ∧ Lists r.popOldest.2 l := by
  obtain ⟨cells, rep, spelled⟩ := h
  obtain ⟨xs, rest, rfl, rfl, hrest⟩ := List.map_eq_append_iff.1 spelled
  obtain ⟨c, ys, rfl, rfl, hys⟩ := List.map_eq_cons_iff.1 hrest
  obtain rfl := List.map_eq_nil_iff.1 hys
  obtain ⟨answer, rep'⟩ := rep.popOldest
  exact ⟨answer, xs, rep', rfl⟩

end Recency

end OrderedLanes
