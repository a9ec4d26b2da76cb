import OrderedLanes.Proofs.KeyRoll

/-!
A `Recency` against a plain list of pairs, the pair used last first. Whatever is asked
of the two they reply alike. The links to older entries and those to newer ones run
through the same slots in opposite orders, once through each slot with an entry, and
they end; so an iteration ends after as many entries as there are keys.
-/

namespace OrderedLanes

namespace Recency

/-- What can be asked of a `Recency`. -/
inductive Request where
  | insert (key : Key) (lane : LaneIndex)
  | touch (key : Key)
  | peek (key : Key)
  | popOldest
  | clear
  | size
  | entries
  deriving DecidableEq, Repr

inductive Reply where
  | lane (found : Option LaneIndex)
  | entry (removed : Option (Key × LaneIndex))
  | cleared
  | size (n : Nat)
  | entries (pairs : List (Key × LaneIndex))
  deriving DecidableEq, Repr

def ask (r : Recency) : Request → Reply × Recency
  | .insert key lane => (.lane (r.insert key lane).1, (r.insert key lane).2)
  | .touch key => (.lane (r.touch key).1, (r.touch key).2)
  | .peek key => (.lane (r.peek key), r)
  | .popOldest => (.entry r.popOldest.1, r.popOldest.2)
  | .clear => (.cleared, r.clear)
  | .size => (.size r.size, r)
  | .entries => (.entries r.toList, r)

/-- Requests one after another, with the reply to each. -/
def askAll (r : Recency) : List Request → List Reply × Recency
  | [] => ([], r)
  | q :: qs => ((r.ask q).1 :: ((r.ask q).2.askAll qs).1, ((r.ask q).2.askAll qs).2)

/-- Pairs of distinct keys with their lanes, the pair used last first. -/
abbrev Pairs := List (Key × LaneIndex)

/-- A listed key takes the new lane and comes to the front, a new one is put there. -/
def Pairs.insert (l : Pairs) (key : Key) (lane : LaneIndex) : Option LaneIndex × Pairs :=
  match l.lookup key with
  | some former => (some former, toFront key lane l)
  | none => (none, (key, lane) :: l)

def Pairs.touch (l : Pairs) (key : Key) : Option LaneIndex × Pairs :=
  match l.lookup key with
  | some lane => (some lane, toFront key lane l)
  | none => (none, l)

def Pairs.ask (l : Pairs) : Request → Reply × Pairs
  | .insert key lane => (.lane (Pairs.insert l key lane).1, (Pairs.insert l key lane).2)
  | .touch key => (.lane (Pairs.touch l key).1, (Pairs.touch l key).2)
  | .peek key => (.lane (l.lookup key), l)
  | .popOldest => (.entry l.getLast?, l.dropLast)
  | .clear => (.cleared, [])
  | .size => (.size l.length, l)
  | .entries => (.entries l, l)

def Pairs.askAll (l : Pairs) : List Request → List Reply × Pairs
  | [] => ([], l)
  | q :: qs =>
    ((Pairs.ask l q).1 :: (Pairs.askAll (Pairs.ask l q).2 qs).1,
      (Pairs.askAll (Pairs.ask l q).2 qs).2)

variable {r : Recency} {cells : List Cell} {l : Pairs} {key : Key}

/-! ### Every entry has its cell -/

/-- The cells are represented, and no slot holds an entry besides theirs. -/
structure Filled (r : Recency) (cells : List Cell) : Prop extends Represents r cells where
  occupied : ∀ id, r.slot? id ≠ none → id ∈ cells.map Cell.id

theorem filled_empty : Filled empty [] := by
  refine ⟨represents_empty, fun id there => absurd ?_ there⟩
  simp [slot?, empty]

theorem Filled.moveToFront {xs ys : List Cell} {c : Cell} (h : Filled r (xs ++ c :: ys)) :
    Filled (r.moveToFront c.id) (c :: (xs ++ ys)) := by
  have same := sameStore_moveToFront r c.id
  have perm : (xs ++ c :: ys).Perm (c :: (xs ++ ys)) := List.perm_middle
  refine ⟨h.toRepresents.moveToFront, fun id there => ?_⟩
  have before : r.slot? id ≠ none := fun blank => there ((same.empty id).2 blank)
  exact (perm.map Cell.id).mem_iff.1 (h.occupied id before)

/-- A slot keeps its place when the lane of its entry changes. -/
theorem Represents.relane {xs ys : List Cell} {c : Cell} (h : Represents r (xs ++ c :: ys))
    (lane : LaneIndex) :
    Represents (r.modify c.id fun e => { e with lane := lane })
      (xs ++ { c with lane := lane } :: ys) := by
  have same : SameStore r (r.modify c.id fun e => { e with lane := lane }) :=
    sameStore_modify r c.id _
  have ids : (xs ++ { c with lane := lane } :: ys).map Cell.id = (xs ++ c :: ys).map Cell.id := by
    simp
  have keys : (xs ++ { c with lane := lane } :: ys).map Cell.key =
      (xs ++ c :: ys).map Cell.key := by
    simp
  obtain ⟨xc, yc, -⟩ := ids_apart h.ids
  obtain ⟨before, -, after⟩ := (linked_append _ _ _ _ _).1 h.linked
  refine ⟨⟨?_, ?_, ?_, ids ▸ h.ids⟩, keys ▸ h.keys, ?_, ?_, ?_, ?_⟩
  · rw [linked_append]
    refine ⟨before.congr fun x hx => ?_, ?_, after.congr fun y hy => ?_⟩
    · simp [xc x hx]
    · simp [h.entry]
    · simp [yc y hy]
  · exact h.newest.trans (by simp [front_append])
  · exact h.oldest.trans (by simp [back_append, back_cons])
  · intro key id
    rw [same.index, h.index]
    simp [or_and_right, exists_or]
  · rw [same.index, h.count]
    simp
  · intro id
    rw [same.free, same.slots, same.empty, h.free]
  · rw [same.free]
    exact h.freeIds

theorem Filled.relane {xs ys : List Cell} {c : Cell} (h : Filled r (xs ++ c :: ys))
    (lane : LaneIndex) :
    Filled (r.modify c.id fun e => { e with lane := lane })
      (xs ++ { c with lane := lane } :: ys) := by
  refine ⟨h.toRepresents.relane lane, fun id there => ?_⟩
  have before : r.slot? id ≠ none := fun blank =>
    there (((sameStore_modify r c.id _).empty id).2 blank)
  simpa using h.occupied id before

theorem insert_hit {xs ys : List Cell} {c : Cell} (h : Represents r (xs ++ c :: ys))
    (lane : LaneIndex) :
    r.insert c.key lane =
      (some c.lane, (r.modify c.id fun e => { e with lane := lane }).moveToFront c.id) := by
  have found : r.index[c.key]? = some c.id := (h.index _ _).2 ⟨c, by simp, rfl, rfl⟩
  simp [Recency.insert, found, h.entry]

/-- A key that is not there yet is stored and entered in the table, and then goes to the front. -/
theorem insert_miss (missing : r.index[key]? = none) (lane : LaneIndex) :
    (r.insert key lane).2 =
      ({ (r.store ⟨key, lane, none, none⟩).2 with
        index := (r.store ⟨key, lane, none, none⟩).2.index.insert key
          (r.store ⟨key, lane, none, none⟩).1 } : Recency).pushNewest
        (r.store ⟨key, lane, none, none⟩).1 := by
  simp [Recency.insert, missing]

/-- A key that is not there yet becomes the first one, in a slot that was empty. -/
theorem Filled.insert (h : Filled r cells) (new : key ∉ cells.map Cell.key) (lane : LaneIndex) :
    ∃ id, (r.insert key lane).1 = none ∧
      Filled (r.insert key lane).2 (⟨id, key, lane⟩ :: cells) := by
  obtain ⟨id, answer, rep⟩ := h.toRepresents.insert new lane
  refine ⟨id, answer, rep, fun j there => ?_⟩
  let stored := r.store ⟨key, lane, none, none⟩
  have result : (r.insert key lane).2 =
      ({ stored.2 with index := stored.2.index.insert key stored.1 } : Recency).pushNewest
        stored.1 :=
    insert_miss ((index_none_iff h.toRepresents key).2 new) lane
  have same := sameStore_pushNewest
    { stored.2 with index := stored.2.index.insert key stored.1 } stored.1
  -- The table tells which slot the new cell has.
  have slot : stored.1 = id := by
    have entered : (r.insert key lane).2.index[key]? = some stored.1 := by
      rw [result, same.index]
      simp
    have told := (rep.index key id).2 ⟨_, List.mem_cons_self, rfl, rfl⟩
    exact Option.some.inj (entered.symm.trans told)
  have held : stored.2.slot? j ≠ none := fun blank => by
    rw [result] at there
    exact there ((same.empty j).2 blank)
  rw [(h.toRepresents.store _).2.1 j] at held
  by_cases here : j = stored.1
  · simp [here, slot]
  · rw [if_neg here] at held
    exact List.mem_cons_of_mem _ (h.occupied j held)

theorem Filled.popOldest {c : Cell} (h : Filled r (cells ++ [c])) :
    r.popOldest.1 = some c.pair ∧ Filled r.popOldest.2 cells := by
  obtain ⟨answer, rep⟩ := h.toRepresents.popOldest
  refine ⟨answer, rep, fun id there => ?_⟩
  have entry := h.toOrdered.unlink.2
  have last : r.oldest = some c.id := by rw [h.oldest, back_snoc]
  have result : r.popOldest.2 = { r.unlink c.id with
      slots := (r.unlink c.id).slots.setIfInBounds c.id none
      free := c.id :: (r.unlink c.id).free
      index := (r.unlink c.id).index.erase c.key } := by
    simp only [Recency.popOldest, last, entry]
  rw [result] at there
  have apart : c.id ≠ id := by
    rintro rfl
    exact there (by simp [slot?, slot?_lt entry])
  have unlinked : (r.unlink c.id).slot? id ≠ none := by
    simpa [slot?, Array.getElem?_setIfInBounds_ne apart] using there
  have before : r.slot? id ≠ none := fun blank =>
    unlinked (((sameStore_unlink r c.id).empty id).2 blank)
  simpa [apart.symm] using h.occupied id before

/-! ### Requests -/

/-- The slots hold these pairs and nothing else, the pair used last in front. -/
def Stores (r : Recency) (l : Pairs) : Prop :=
  ∃ cells, Filled r cells ∧ cells.map Cell.pair = l

theorem stores_empty : Stores empty [] := ⟨[], filled_empty, rfl⟩

theorem Stores.lists (h : Stores r l) : Lists r l := by
  obtain ⟨cells, filled, spelled⟩ := h
  exact ⟨cells, filled.toRepresents, spelled⟩

/-- Where a key is listed, the cells part at its cell. -/
theorem Stores.split_of_lookup (h : Stores r l) {lane : LaneIndex}
    (found : l.lookup key = some lane) :
    ∃ xs c ys, Filled r (xs ++ c :: ys) ∧ c.key = key ∧ c.lane = lane ∧
      ∀ other, toFront key other l = (key, other) :: (xs ++ ys).map Cell.pair := by
  have keys := h.lists.keys
  obtain ⟨cells, filled, rfl⟩ := h
  obtain ⟨c, listed, hc⟩ := List.mem_map.1 (Roll.mem_of_lookup found)
  obtain ⟨rfl, rfl⟩ : c.key = key ∧ c.lane = lane := by simpa [Cell.pair] using hc
  obtain ⟨xs, ys, rfl⟩ := List.append_of_mem listed
  refine ⟨xs, c, ys, filled, rfl, rfl, fun other => ?_⟩
  rw [List.map_append, List.map_cons] at keys ⊢
  rw [toFront, show c.pair = (c.key, c.lane) from rfl, filter_of_split keys, List.map_append]

theorem Stores.not_mem_of_lookup (h : Stores r l) (missed : l.lookup key = none) :
    ∃ cells, Filled r cells ∧ cells.map Cell.pair = l ∧ key ∉ cells.map Cell.key := by
  obtain ⟨cells, filled, rfl⟩ := h
  refine ⟨cells, filled, rfl, fun listed => ?_⟩
  rw [← keys_of_pairs, ← Roll.isSome_lookup, missed] at listed
  cases listed

theorem Stores.insert (h : Stores r l) (key : Key) (lane : LaneIndex) :
    (r.insert key lane).1 = (Pairs.insert l key lane).1 ∧
      Stores (r.insert key lane).2 (Pairs.insert l key lane).2 := by
  unfold Pairs.insert
  cases found : l.lookup key with
  | some former =>
    obtain ⟨xs, c, ys, filled, rfl, rfl, front⟩ := h.split_of_lookup found
    rw [insert_hit filled.toRepresents, front]
    exact ⟨rfl, _, (filled.relane lane).moveToFront, rfl⟩
  | none =>
    obtain ⟨cells, filled, rfl, absent⟩ := h.not_mem_of_lookup found
    obtain ⟨id, answer, filled'⟩ := filled.insert absent lane
    exact ⟨answer, _, filled', rfl⟩

theorem Stores.touch (h : Stores r l) (key : Key) :
    (r.touch key).1 = (Pairs.touch l key).1 ∧
      Stores (r.touch key).2 (Pairs.touch l key).2 := by
  unfold Pairs.touch
  cases found : l.lookup key with
  | some lane =>
    obtain ⟨xs, c, ys, filled, rfl, rfl, front⟩ := h.split_of_lookup found
    have table : r.index[c.key]? = some c.id := (filled.index _ _).2 ⟨c, by simp, rfl, rfl⟩
    have moved := filled.moveToFront
    have first : Ordered (r.moveToFront c.id) ([] ++ c :: (xs ++ ys)) := moved.toOrdered
    simp only [front, Recency.touch, table, first.entry, Option.map_some, true_and]
    exact ⟨_, moved, rfl⟩
  | none =>
    obtain ⟨cells, filled, rfl, absent⟩ := h.not_mem_of_lookup found
    rw [← keys_of_pairs] at absent
    rw [h.lists.touch_miss absent]
    exact ⟨rfl, h⟩

theorem Stores.peek (h : Stores r l) (key : Key) : r.peek key = l.lookup key := by
  cases found : l.lookup key with
  | some lane => exact h.lists.peek_hit (Roll.mem_of_lookup found)
  | none =>
    obtain ⟨cells, filled, rfl, absent⟩ := h.not_mem_of_lookup found
    rw [← keys_of_pairs] at absent
    exact h.lists.peek_miss absent

theorem Stores.popOldest (h : Stores r l) :
    r.popOldest.1 = l.getLast? ∧ Stores r.popOldest.2 l.dropLast := by
  obtain ⟨cells, filled, rfl⟩ := h
  rcases List.eq_nil_or_concat cells with rfl | ⟨rest, c, rfl⟩
  · have nothing : r.oldest = none := filled.oldest
    simp only [Recency.popOldest, nothing]
    exact ⟨rfl, [], filled, rfl⟩
  · rw [List.concat_eq_append] at filled
    obtain ⟨answer, filled'⟩ := filled.popOldest
    simp only [List.concat_eq_append, List.map_append, List.map_cons, List.map_nil,
      List.getLast?_concat, List.dropLast_concat]
    exact ⟨answer, rest, filled', rfl⟩

/-- One request: the same reply, and the same pairs after it. -/
theorem Stores.ask (h : Stores r l) (q : Request) :
    (r.ask q).1 = (Pairs.ask l q).1 ∧ Stores (r.ask q).2 (Pairs.ask l q).2 := by
  cases q with
  | insert key lane => exact ⟨congrArg Reply.lane (h.insert key lane).1, (h.insert key lane).2⟩
  | touch key => exact ⟨congrArg Reply.lane (h.touch key).1, (h.touch key).2⟩
  | peek key => exact ⟨congrArg Reply.lane (h.peek key), h⟩
  | popOldest => exact ⟨congrArg Reply.entry h.popOldest.1, h.popOldest.2⟩
  | clear => exact ⟨rfl, stores_empty⟩
  | size => exact ⟨congrArg Reply.size h.lists.size, h⟩
  | entries => exact ⟨congrArg Reply.entries h.lists.toList, h⟩

theorem Stores.askAll (h : Stores r l) (qs : List Request) :
    (r.askAll qs).1 = (Pairs.askAll l qs).1 ∧ Stores (r.askAll qs).2 (Pairs.askAll l qs).2 := by
  induction qs generalizing r l with
  | nil => exact ⟨rfl, h⟩
  | cons q qs ih =>
    obtain ⟨reply, stores⟩ := h.ask q
    obtain ⟨replies, stores'⟩ := ih stores
    exact ⟨by rw [Recency.askAll, Pairs.askAll, reply, replies], stores'⟩

/-! ### Links -/

/-- From `start` on the links lead through these slots, and then no further. -/
def Walks (r : Recency) (link : Entry → Option SlotId) : Option SlotId → List SlotId → Prop
  | start, [] => start = none
  | start, id :: ids =>
    start = some id ∧ ∃ e, r.slot? id = some e ∧ r.Walks link (link e) ids

theorem walks_older {newer : Option SlotId} (h : Linked r.slot? newer cells none) :
    r.Walks Entry.older (front cells none) (cells.map Cell.id) := by
  induction cells generalizing newer with
  | nil => exact front_nil none
  | cons c cells ih => exact ⟨front_cons c cells none, _, h.1, ih h.2⟩

theorem walks_newer {older : Option SlotId} (h : Linked r.slot? none cells older) :
    r.Walks Entry.newer (back none cells) (cells.map Cell.id).reverse := by
  induction cells using List.reverseRecOn generalizing older with
  | nil => exact back_nil none
  | append_singleton cells c ih =>
    obtain ⟨before, there, -⟩ := (linked_append _ _ _ _ _).1 h
    rw [List.map_append, List.map_singleton, List.reverse_append]
    exact ⟨back_snoc none cells c, _, there, ih before⟩

/-- The slots in the order of their links, from the newest to the oldest entry. -/
structure Threaded (r : Recency) (ids : List SlotId) : Prop where
  older : r.Walks Entry.older r.newest ids
  newer : r.Walks Entry.newer r.oldest ids.reverse
  once : ids.Nodup
  live : ∀ id, id ∈ ids ↔ ∃ e, r.slot? id = some e
  index : ∀ key id, r.index[key]? = some id ↔ ∃ e, r.slot? id = some e ∧ e.key = key
  size : ids.length = r.size

theorem Filled.threaded (h : Filled r cells) : r.Threaded (cells.map Cell.id) := by
  have live : ∀ id, id ∈ cells.map Cell.id ↔ ∃ e, r.slot? id = some e := by
    intro id
    constructor
    · intro listed
      obtain ⟨c, hc, rfl⟩ := List.mem_map.1 listed
      obtain ⟨newer, older, there⟩ := h.linked.entry_of_mem hc
      exact ⟨_, there⟩
    · rintro ⟨e, there⟩
      exact h.occupied id (by simp [there])
  refine ⟨?_, ?_, h.ids, live, ?_, ?_⟩
  · rw [h.newest]
    exact walks_older h.linked
  · rw [h.oldest]
    exact walks_newer h.linked
  · intro key id
    rw [h.index]
    constructor
    · rintro ⟨c, hc, rfl, rfl⟩
      obtain ⟨newer, older, there⟩ := h.linked.entry_of_mem hc
      exact ⟨_, there, rfl⟩
    · rintro ⟨e, there, rfl⟩
      obtain ⟨c, hc, rfl⟩ := List.mem_map.1 ((live id).2 ⟨e, there⟩)
      obtain ⟨newer, older, there'⟩ := h.linked.entry_of_mem hc
      obtain rfl := Option.some.inj (there.symm.trans there')
      exact ⟨c, hc, rfl, rfl⟩
  · rw [List.length_map]
    exact h.count.symm

/--
From the empty state on, every sequence of requests is replied to as the list of pairs does,
and leaves slots that are threaded. An iteration from the newest entry yields as many pairs as
there are, or as many as are asked for if these are fewer.
-/
theorem askAll_eq_pairs (qs : List Request) :
    (empty.askAll qs).1 = (Pairs.askAll [] qs).1 ∧
      ((Pairs.askAll [] qs).2.map Prod.fst).Nodup ∧
      (Pairs.askAll [] qs).2.length = (empty.askAll qs).2.size ∧
      (∃ ids, (empty.askAll qs).2.Threaded ids) ∧
      ∀ fuel, (empty.askAll qs).2.follow fuel (empty.askAll qs).2.newest =
        (Pairs.askAll [] qs).2.take fuel := by
  obtain ⟨replies, stores⟩ := stores_empty.askAll qs
  refine ⟨replies, stores.lists.keys, stores.lists.size.symm, ?_⟩
  obtain ⟨cells, filled, spelled⟩ := stores
  refine ⟨⟨_, filled.threaded⟩, fun fuel => ?_⟩
  rw [filled.newest, ← spelled]
  exact follow_linked _ filled.linked fuel

end Recency

end OrderedLanes
