import OrderedLanes.Proofs.Assignments
import OrderedLanes.Proofs.LoadCounts

/-!
The allocator against a plain list. The list holds the assigned keys with their
lanes, the key resolved last first; a new key goes to the first lane that the
fewest listed keys are on, and what no longer fits falls off the end. Linked slots,
table and buckets together answer every sequence of calls as this list does.
-/

namespace OrderedLanes

/-- What can be asked of an allocator. -/
inductive Call where
  | resolve (key : Key)
  | nextStamp (key : Key)
  | assignment (key : Key)
  | clear
  | counts
  | assignments
  | keyCount
  deriving DecidableEq, Repr

inductive Answer where
  | lane (i : LaneIndex)
  | stamp (s : Stamp)
  | assignment (lane : Option LaneIndex)
  | cleared
  | counts (loads : List Nat)
  | assignments (pairs : List (Key × LaneIndex))
  | keyCount (n : Nat)
  deriving DecidableEq, Repr

namespace Allocator

/-- Number of assigned keys by lane. -/
def keysByLane (a : Allocator) : List Nat := a.counts.map UInt32.toNat

/-- One call and its answer. -/
def call (a : Allocator) : Call → Logged (Answer × Allocator)
  | .resolve key => do
    let (lane, a) ← a.resolve key
    return (.lane lane, a)
  | .nextStamp key => return (.stamp (a.nextStamp key).1, (a.nextStamp key).2)
  | .assignment key => return (.assignment (a.assignment key), a)
  | .clear => return (.cleared, a.clear)
  | .counts => return (.counts a.keysByLane, a)
  | .assignments => return (.assignments a.assignments, a)
  | .keyCount => return (.keyCount a.keyCount, a)

/-- Calls one after another, with the answer to each. -/
def calls (a : Allocator) : List Call → Logged (List Answer × Allocator)
  | [] => return ([], a)
  | c :: cs => do
    let (answer, a) ← a.call c
    let (answers, a) ← a.calls cs
    return (answer :: answers, a)

end Allocator

/-- Keys with their lanes, the key resolved last first, and the stamp that each key draws next. -/
structure Roll where
  lanes : Nat
  capacity : Nat
  pairs : List (Key × LaneIndex)
  due : Key → Stamp

namespace Roll

variable {lanes : Nat} {pairs : List (Key × LaneIndex)} {r : Roll}

def start (lanes capacity : Nat) : Roll where
  lanes := lanes
  capacity := capacity
  pairs := []
  due := fun _ => 1

/-- How many of the listed keys are on a lane. -/
def load (pairs : List (Key × LaneIndex)) (i : LaneIndex) : Nat := pairs.countP fun x => x.2 = i

def loads (lanes : Nat) (pairs : List (Key × LaneIndex)) : List Nat :=
  (List.range lanes).map (load pairs)

/-- The first lane that the fewest keys are on. -/
def leastLoaded (lanes : Nat) (pairs : List (Key × LaneIndex)) : LaneIndex :=
  ((List.range lanes).find? fun i =>
    (List.range lanes).all fun j => load pairs i ≤ load pairs j).getD 0

/-- A listed key comes to the front. A new one is put there, and what does not fit falls out. -/
def resolve (r : Roll) (key : Key) : Logged (LaneIndex × Roll) :=
  match r.pairs.lookup key with
  | some lane => return (lane, { r with pairs := toFront key lane r.pairs })
  | none =>
    let lane := leastLoaded r.lanes r.pairs
    let pairs := (key, lane) :: r.pairs
    let fallen := pairs.drop r.capacity
    { value := (lane, { r with
        pairs := pairs.take r.capacity
        due := fun k => if k ∈ fallen.map Prod.fst then 1 else r.due k })
      events := fallen.map fun x => .evicted x.1 x.2 }

def call (r : Roll) : Call → Logged (Answer × Roll)
  | .resolve key => do
    let (lane, r) ← r.resolve key
    return (.lane lane, r)
  | .nextStamp key =>
    return (.stamp (r.due key), { r with
      due := fun k => if key = k then r.due key + 1 else r.due k })
  | .assignment key => return (.assignment (r.pairs.lookup key), r)
  | .clear => return (.cleared, { r with pairs := [], due := fun _ => 1 })
  | .counts => return (.counts (loads r.lanes r.pairs), r)
  | .assignments => return (.assignments r.pairs, r)
  | .keyCount => return (.keyCount r.pairs.length, r)

def calls (r : Roll) : List Call → Logged (List Answer × Roll)
  | [] => return ([], r)
  | c :: cs => do
    let (answer, r) ← r.call c
    let (answers, r) ← r.calls cs
    return (answer :: answers, r)

/-! ### Loads of lanes -/

theorem load_cons (key : Key) (lane i : LaneIndex) :
    load ((key, lane) :: pairs) i = load pairs i + if lane = i then 1 else 0 := by
  simp [load, List.countP_cons]

theorem load_snoc (key : Key) (lane i : LaneIndex) :
    load (pairs ++ [(key, lane)]) i = load pairs i + if lane = i then 1 else 0 := by
  simp [load, List.countP_append, List.countP_singleton]

theorem load_le_length (i : LaneIndex) : load pairs i ≤ pairs.length := List.countP_le_length

theorem load_perm {other : List (Key × LaneIndex)} (same : pairs.Perm other) :
    load pairs = load other := by
  funext i
  exact same.countP_eq _

@[simp] theorem length_loads : (loads lanes pairs).length = lanes := by simp [loads]

theorem getElem?_loads {i : LaneIndex} (within : i < lanes) :
    (loads lanes pairs)[i]? = some (load pairs i) := by
  simp [loads, within]

/-- Where the loads differ on one lane only. -/
theorem loads_eq_set {other : List (Key × LaneIndex)} {lane : LaneIndex}
    (rest : ∀ i, i ≠ lane → load other i = load pairs i) :
    loads lanes other = (loads lanes pairs).set lane (load other lane) := by
  apply List.ext_getElem?
  intro i
  rw [List.getElem?_set]
  by_cases within : i < lanes
  · rw [getElem?_loads within]
    by_cases same : lane = i
    · subst same
      simp [within]
    · simp [same, getElem?_loads within, rest i (Ne.symm same)]
  · have beyond : (loads lanes pairs)[i]? = none := by simp [loads, within]
    have missing : (loads lanes other)[i]? = none := by simp [loads, within]
    rw [beyond, missing, length_loads]
    split <;> simp_all

/-- The lane of least load is the first one of those with the least load. -/
theorem leastLoaded_eq {lane : LaneIndex} (within : lane < lanes)
    (least : ∀ i, i < lanes → load pairs lane < load pairs i ∨
      (load pairs lane = load pairs i ∧ lane ≤ i)) : leastLoaded lanes pairs = lane := by
  have found : ((List.range lanes).find? fun i =>
      (List.range lanes).all fun j => load pairs i ≤ load pairs j) = some lane := by
    rw [List.find?_range_eq_some]
    refine ⟨?_, List.mem_range.2 within, fun i before => ?_⟩
    · simp only [List.all_eq_true, List.mem_range, decide_eq_true_eq]
      intro i hi
      have := least i hi
      omega
    · have more : load pairs lane < load pairs i :=
        (least i (before.trans within)).resolve_right fun both => Nat.not_le_of_lt before both.2
      simpa using ⟨lane, within, more⟩
  rw [leastLoaded, found, Option.getD_some]

theorem leastLoaded_spec (any : 0 < lanes) (pairs : List (Key × LaneIndex)) :
    leastLoaded lanes pairs < lanes ∧
      ∀ j < lanes, load pairs (leastLoaded lanes pairs) ≤ load pairs j := by
  obtain ⟨i, within, least⟩ := (Finset.range lanes).exists_min_image (load pairs)
    ⟨0, Finset.mem_range.2 any⟩
  have smallest : ((List.range lanes).all fun j => load pairs i ≤ load pairs j) = true := by
    simpa using least
  unfold leastLoaded
  cases found : (List.range lanes).find? fun i =>
      (List.range lanes).all fun j => load pairs i ≤ load pairs j with
  | none =>
    have missed := List.find?_eq_none.1 found i (by simpa using within)
    exact absurd smallest missed
  | some lane =>
    refine ⟨List.mem_range.1 (List.mem_of_find?_eq_some found), ?_⟩
    simpa using List.find?_some found

end Roll

/-! ### Counts and loads -/

namespace Loads

variable {l : Loads} {lanes : Nat} {pairs : List (Key × LaneIndex)}

/-- The counts are those of the listed keys. -/
structure Tallies (l : Loads) (lanes : Nat) (pairs : List (Key × LaneIndex)) : Prop where
  sound : l.Sound
  counts : l.counts.toList.map UInt32.toNat = Roll.loads lanes pairs

theorem tallies_fresh (lanes : Nat) : (fresh lanes).Tallies lanes [] := by
  refine ⟨sound_fresh lanes, ?_⟩
  apply List.ext_getElem
  · simp [fresh]
  · simp [fresh, Roll.loads, Roll.load]

theorem Tallies.size (h : l.Tallies lanes pairs) : l.counts.size = lanes := by
  have same := congrArg List.length h.counts
  simpa using same

theorem Tallies.count_iff (h : l.Tallies lanes pairs) {i : LaneIndex} {count : UInt32} :
    l.counts[i]? = some count ↔ i < lanes ∧ count.toNat = Roll.load pairs i := by
  have same := congrArg (·[i]?) h.counts
  simp only [List.getElem?_map, Array.getElem?_toList] at same
  by_cases within : i < lanes
  · rw [Roll.getElem?_loads within, Option.map_eq_some_iff] at same
    obtain ⟨c, there, load⟩ := same
    rw [there, ← load, Option.some.injEq, UInt32.toNat_inj]
    exact ⟨fun h => ⟨within, h.symm⟩, fun h => h.2.symm⟩
  · have beyond : l.counts[i]? = none := by simp [h.size, within]
    simp [beyond, within]

/-- One lane gets another count. -/
theorem Tallies.set {l' : Loads} {other : List (Key × LaneIndex)} {lane : LaneIndex}
    {count : UInt32} (h : l.Tallies lanes pairs) (sound : l'.Sound)
    (counts : l'.counts = l.counts.setIfInBounds lane count)
    (rest : ∀ i, i ≠ lane → Roll.load other i = Roll.load pairs i)
    (load : count.toNat = Roll.load other lane) : l'.Tallies lanes other := by
  refine ⟨sound, ?_⟩
  rw [counts, Array.toList_setIfInBounds, List.map_set, h.counts, load, Roll.loads_eq_set rest]

/-- The lane chosen is the one of least load, and it counts the new key. -/
theorem Tallies.acquire (h : l.Tallies lanes pairs) (any : 0 < lanes)
    (narrow : pairs.length < trackedKeyLimit) :
    ∃ l', l.acquire = pure (Roll.leastLoaded lanes pairs, l') ∧
      ∀ key, l'.Tallies lanes ((key, Roll.leastLoaded lanes pairs) :: pairs) := by
  obtain ⟨lane, count, l', ⟨there, least⟩, result, counts, sound⟩ :=
    h.sound.acquire (h.size.symm ▸ any)
  obtain ⟨within, load⟩ := h.count_iff.1 there
  have chosen : Roll.leastLoaded lanes pairs = lane := by
    refine Roll.leastLoaded_eq within fun i hi => ?_
    have bound : Roll.load pairs i < UInt32.size :=
      (Roll.load_le_length i).trans_lt (narrow.trans (by decide))
    have full : (UInt32.ofNatLT (Roll.load pairs i) bound).toNat = Roll.load pairs i := by simp
    have compared := least i _ (h.count_iff.2 ⟨hi, full⟩)
    rw [UInt32.lt_iff_toNat_lt, ← UInt32.toNat_inj, full, load] at compared
    exact compared
  have below : Roll.load pairs lane < trackedKeyLimit := (Roll.load_le_length lane).trans_lt narrow
  have raised : (raise count).toNat = count.toNat + 1 := by
    unfold trackedKeyLimit at below
    exact toNat_raise (by omega)
  rw [chosen]
  refine ⟨l', result, fun key => h.set sound counts (fun i other => ?_) ?_⟩
  · simp [Roll.load_cons, Ne.symm other]
  · simp [Roll.load_cons, raised, load]

/-- The key that falls out counts no more. -/
theorem Tallies.release {key : Key} {lane : LaneIndex}
    (h : l.Tallies lanes (pairs ++ [(key, lane)])) (within : lane < lanes) :
    ∃ l', l.release lane = pure l' ∧ l'.Tallies lanes pairs := by
  have there : ∃ count, l.counts[lane]? = some count := by
    rw [← h.size] at within
    exact ⟨_, Array.getElem?_eq_getElem within⟩
  obtain ⟨count, there⟩ := there
  obtain ⟨-, load⟩ := h.count_iff.1 there
  rw [Roll.load_snoc, if_pos rfl] at load
  have used : count ≠ 0 := by
    rintro rfl
    simp at load
  obtain ⟨l', result, counts, sound⟩ := h.sound.release there used
  refine ⟨l', result, h.set sound counts (fun i other => ?_) ?_⟩
  · simp [Roll.load_snoc, Ne.symm other]
  · have one : (1 : UInt32) ≤ count := by
      rw [UInt32.le_iff_toNat_le, load]
      simp
    rw [UInt32.toNat_sub_of_le _ _ one, load]
    simp

end Loads

namespace Roll

variable {r : Roll} {key : Key}

/-- Distinct keys on lanes that there are, no more than fit. -/
structure Fit (r : Roll) : Prop where
  lanes : 0 < r.lanes
  capacity : 0 < r.capacity
  narrow : r.capacity < trackedKeyLimit
  keys : (r.pairs.map Prod.fst).Nodup
  fits : r.pairs.length ≤ r.capacity
  housed : ∀ x ∈ r.pairs, x.2 < r.lanes

theorem lookup_of_mem {pairs : List (Key × LaneIndex)} {lane : LaneIndex}
    (keys : (pairs.map Prod.fst).Nodup) (there : (key, lane) ∈ pairs) :
    pairs.lookup key = some lane := by
  induction pairs with
  | nil => cases there
  | cons x rest ih =>
    obtain ⟨first, i⟩ := x
    rw [List.map_cons, List.nodup_cons] at keys
    rcases List.mem_cons.1 there with same | later
    · cases same
      exact List.lookup_cons_self
    · have listed : key ∈ rest.map Prod.fst := List.mem_map_of_mem later
      have apart : key ≠ first := fun same => keys.1 (same ▸ listed)
      simp [List.lookup_cons, beq_false_of_ne apart, ih keys.2 later]

theorem lookup_of_not_mem {pairs : List (Key × LaneIndex)} (absent : key ∉ pairs.map Prod.fst) :
    pairs.lookup key = none := by
  refine List.lookup_eq_none_iff.2 fun x there => ?_
  have apart : key ≠ x.1 := fun same => absent (same ▸ List.mem_map_of_mem there)
  simpa using apart

theorem mem_of_lookup {pairs : List (Key × LaneIndex)} {lane : LaneIndex}
    (found : pairs.lookup key = some lane) : (key, lane) ∈ pairs := by
  obtain ⟨before, after, rfl, -⟩ := List.lookup_eq_some_iff.1 found
  simp

theorem isSome_lookup {pairs : List (Key × LaneIndex)} :
    (pairs.lookup key).isSome ↔ key ∈ pairs.map Prod.fst := by
  constructor
  · intro found
    obtain ⟨lane, found⟩ := Option.isSome_iff_exists.1 found
    exact List.mem_map_of_mem (mem_of_lookup found)
  · intro there
    by_contra missing
    rw [Option.not_isSome_iff_eq_none, List.lookup_eq_none_iff] at missing
    obtain ⟨x, listed, rfl⟩ := List.mem_map.1 there
    simpa using missing x listed

theorem perm_toFront {pairs : List (Key × LaneIndex)} {lane : LaneIndex}
    (keys : (pairs.map Prod.fst).Nodup) (there : (key, lane) ∈ pairs) :
    pairs.Perm (toFront key lane pairs) := by
  obtain ⟨before, after, rfl⟩ := List.append_of_mem there
  rw [toFront, filter_of_split keys]
  exact List.perm_middle

/-- What resolving a key can do. -/
inductive Resolving (r : Roll) (key : Key) : Prop
  | hit (lane : LaneIndex) (there : (key, lane) ∈ r.pairs)
      (result : r.resolve key = pure (lane, { r with pairs := toFront key lane r.pairs }))
  | room (absent : key ∉ r.pairs.map Prod.fst) (room : r.pairs.length < r.capacity)
      (result : r.resolve key = pure (leastLoaded r.lanes r.pairs,
        { r with pairs := (key, leastLoaded r.lanes r.pairs) :: r.pairs }))
  | full (front : List (Key × LaneIndex)) (last : Key × LaneIndex)
      (split : r.pairs = front ++ [last]) (absent : key ∉ r.pairs.map Prod.fst)
      (full : front.length + 1 = r.capacity)
      (result : r.resolve key = (do
        Logged.emit (.evicted last.1 last.2)
        return (leastLoaded r.lanes r.pairs, { r with
          pairs := (key, leastLoaded r.lanes r.pairs) :: front
          due := fun k => if last.1 = k then 1 else r.due k })))

theorem Fit.resolving (h : r.Fit) (key : Key) : r.Resolving key := by
  by_cases there : key ∈ r.pairs.map Prod.fst
  · obtain ⟨⟨key, lane⟩, listed, rfl⟩ := List.mem_map.1 there
    refine .hit lane listed ?_
    simp only [resolve, lookup_of_mem h.keys listed]
  · have missed := lookup_of_not_mem there
    rcases Nat.lt_or_eq_of_le h.fits with room | full
    · refine .room there room ?_
      have fits : ((key, leastLoaded r.lanes r.pairs) :: r.pairs).length ≤ r.capacity := room
      simp only [resolve, missed, List.drop_of_length_le fits, List.take_of_length_le fits]
      rfl
    · obtain ⟨front, last, split⟩ := exists_snoc_of_pos (full ▸ h.capacity)
      have size : front.length + 1 = r.capacity := by simp [← full, split]
      refine .full front last split there size ?_
      have cut : ((key, leastLoaded r.lanes r.pairs) :: front).length = r.capacity := size
      simp only [resolve, missed]
      generalize leastLoaded r.lanes r.pairs = lane at cut ⊢
      rw [split, ← List.cons_append, List.drop_left' cut, List.take_left' cut]
      simp only [List.map_singleton, List.mem_singleton, eq_comm]
      rfl

theorem Fit.resolve (h : r.Fit) (key : Key) : (r.resolve key).value.2.Fit := by
  obtain ⟨chosen, -⟩ := leastLoaded_spec h.lanes r.pairs
  cases h.resolving key with
  | hit lane there result =>
    rw [result]
    have moved := perm_toFront h.keys there
    exact ⟨h.lanes, h.capacity, h.narrow, Allocator.nodup_toFront h.keys key lane,
      moved.length_eq ▸ h.fits, fun x listed => h.housed x (moved.mem_iff.2 listed)⟩
  | room absent room result =>
    rw [result]
    exact ⟨h.lanes, h.capacity, h.narrow, List.nodup_cons.2 ⟨absent, h.keys⟩, room,
      List.forall_mem_cons.2 ⟨chosen, h.housed⟩⟩
  | full front last split absent full result =>
    rw [result]
    have within : front.Sublist r.pairs := split ▸ List.sublist_append_left _ _
    refine ⟨h.lanes, h.capacity, h.narrow, List.nodup_cons.2 ⟨fun listed => ?_, ?_⟩,
      Nat.le_of_eq full, List.forall_mem_cons.2 ⟨chosen, fun x listed => ?_⟩⟩
    · exact absent ((within.map _).subset listed)
    · exact h.keys.sublist (within.map _)
    · exact h.housed x (within.subset listed)

theorem Fit.call (h : r.Fit) (c : Call) : (r.call c).value.2.Fit := by
  cases c with
  | resolve key => exact h.resolve key
  | nextStamp key => exact ⟨h.lanes, h.capacity, h.narrow, h.keys, h.fits, h.housed⟩
  | clear =>
    exact ⟨h.lanes, h.capacity, h.narrow, List.nodup_nil, Nat.zero_le _,
      fun x listed => nomatch listed⟩
  | assignment key => exact h
  | counts => exact h
  | assignments => exact h
  | keyCount => exact h

end Roll

/-! ### The allocator answers as the list does -/

namespace Allocator

variable {a : Allocator} {r : Roll}

/-- The allocator holds what the list says. -/
structure Mirrors (a : Allocator) (r : Roll) : Prop where
  fit : r.Fit
  capacity : a.capacity = r.capacity
  lists : a.recency.Lists r.pairs
  tallies : a.loads.Tallies r.lanes r.pairs
  stamps : ∀ key, a.stamps.peek key = r.due key

theorem Mirrors.keeps (h : a.Mirrors r) : a.Keeps r.pairs := ⟨h.lists, h.capacity ▸ h.fit.fits⟩

theorem Mirrors.keysByLane (h : a.Mirrors r) : a.keysByLane = Roll.loads r.lanes r.pairs :=
  h.tallies.counts

theorem Mirrors.assignment (h : a.Mirrors r) (key : Key) :
    a.assignment key = r.pairs.lookup key := by
  by_cases there : key ∈ r.pairs.map Prod.fst
  · obtain ⟨⟨key, lane⟩, listed, rfl⟩ := List.mem_map.1 there
    rw [Roll.lookup_of_mem h.fit.keys listed]
    exact h.lists.peek_hit listed
  · rw [Roll.lookup_of_not_mem there]
    exact h.lists.peek_miss there

/-- Both give the same answer and log the same, and the allocator still holds what the list says. -/
structure Matches {α : Type} (x : Logged (α × Allocator)) (y : Logged (α × Roll)) : Prop where
  answer : x.value.1 = y.value.1
  events : x.events = y.events
  mirrors : x.value.2.Mirrors y.value.2

theorem Mirrors.matches_pure {α : Type} (h : a.Mirrors r) (answer : α) :
    Matches (pure (answer, a)) (pure (answer, r)) := ⟨rfl, rfl, h⟩

theorem Matches.bind {α β : Type} {x : Logged (α × Allocator)} {y : Logged (α × Roll)}
    {f : α × Allocator → Logged (β × Allocator)} {g : α × Roll → Logged (β × Roll)}
    (h : Matches x y) (next : ∀ answer a r, Mirrors a r → Matches (f (answer, a)) (g (answer, r))) :
    Matches (x >>= f) (y >>= g) := by
  obtain ⟨⟨answer, a⟩, events⟩ := x
  obtain ⟨⟨answer', r⟩, events'⟩ := y
  obtain ⟨rfl, rfl, mirrors⟩ := h
  obtain ⟨same, logged, kept⟩ := next answer a r mirrors
  exact ⟨same, congrArg (events ++ ·) logged, kept⟩

theorem Mirrors.resolve (h : a.Mirrors r) (key : Key) :
    Matches (a.resolve key) (r.resolve key) := by
  have fit := h.fit.resolve key
  cases h.fit.resolving key with
  | hit lane there result =>
    obtain ⟨recency, found, lists⟩ := h.keeps.resolve_hit_eq there
    rw [result] at fit ⊢
    rw [found]
    refine ⟨rfl, rfl, fit, h.capacity, lists, ⟨h.tallies.sound, ?_⟩, h.stamps⟩
    have counts := h.tallies.counts
    rwa [Roll.loads, Roll.load_perm (Roll.perm_toFront h.fit.keys there)] at counts
  | room absent room result =>
    obtain ⟨recency, found, lists⟩ := h.keeps.resolve_room_eq absent (h.capacity ▸ room)
    obtain ⟨loads, acquired, tallies⟩ := h.tallies.acquire h.fit.lanes (room.trans h.fit.narrow)
    rw [result] at fit ⊢
    rw [acquired] at found lists
    rw [found]
    exact ⟨rfl, rfl, fit, h.capacity, lists, tallies key, h.stamps⟩
  | full front last split absent full result =>
    have keeps := h.keeps
    rw [split] at keeps absent
    obtain ⟨recency, found, lists⟩ := keeps.resolve_full_eq absent (full.trans h.capacity.symm)
    have narrow : r.pairs.length < trackedKeyLimit := h.fit.fits.trans_lt h.fit.narrow
    obtain ⟨loads, acquired, tallies⟩ := h.tallies.acquire h.fit.lanes narrow
    have housed : last.2 < r.lanes := h.fit.housed last (by simp [split])
    have taller := tallies key
    rw [split, ← List.cons_append, ← split] at taller
    obtain ⟨loads', released, lower⟩ := taller.release housed
    rw [result] at fit ⊢
    rw [acquired] at found lists
    have steps : a.resolve key = (do
        Logged.emit (.evicted last.1 last.2)
        return (Roll.leastLoaded r.lanes r.pairs,
          { a with recency, loads := loads', stamps := a.stamps.forget last.1 })) := by
      rw [found]
      simp only [pure_bind, released]
    rw [steps]
    refine ⟨rfl, rfl, fit, h.capacity, lists, lower, fun k => ?_⟩
    simp [h.stamps]

theorem Mirrors.call (h : a.Mirrors r) (c : Call) : Matches (a.call c) (r.call c) := by
  have fit := h.fit.call c
  cases c with
  | resolve key =>
    exact (h.resolve key).bind fun lane a r mirrors => mirrors.matches_pure (Answer.lane lane)
  | nextStamp key =>
    refine ⟨?_, rfl, fit, h.capacity, h.lists, h.tallies, fun k => ?_⟩
    · simp [Allocator.call, Roll.call, Allocator.nextStamp, h.stamps]
    · simp [Allocator.call, Roll.call, Allocator.nextStamp, h.stamps]
  | assignment key =>
    rw [Allocator.call, Roll.call, h.assignment]
    exact h.matches_pure _
  | clear =>
    refine ⟨rfl, rfl, fit, h.capacity, Recency.lists_empty, ?_, fun k => ?_⟩
    · change a.loads.reset.Tallies r.lanes []
      rw [Loads.reset, h.tallies.size]
      exact Loads.tallies_fresh r.lanes
    · simp [Allocator.call, Roll.call, Allocator.clear]
  | counts =>
    rw [Allocator.call, Roll.call, h.keysByLane]
    exact h.matches_pure _
  | assignments =>
    rw [Allocator.call, Roll.call, Allocator.assignments, h.lists.toList]
    exact h.matches_pure _
  | keyCount =>
    rw [Allocator.call, Roll.call, Allocator.keyCount, h.lists.size]
    exact h.matches_pure _

theorem Mirrors.calls (h : a.Mirrors r) (cs : List Call) : Matches (a.calls cs) (r.calls cs) := by
  induction cs generalizing a r with
  | nil => exact h.matches_pure []
  | cons c cs ih =>
    exact (h.call c).bind fun answer a r mirrors =>
      (ih mirrors).bind fun answers a r mirrors => mirrors.matches_pure (answer :: answers)

/-! ### From the first call on -/

theorem capacity_lt_of_evictionBound {maxKeys headroom : UInt32} {bound : Nat}
    (h : evictionBound maxKeys headroom = .ok bound) : bound < trackedKeyLimit := by
  unfold evictionBound at h
  split at h
  · cases h
  · split at h
    · cases h
    · split at h
      · cases h
      · next narrow => exact Except.ok.inj h ▸ Nat.lt_of_not_le narrow

/-- A new allocator holds nothing. -/
theorem mirrors_of_withHeadroom {lanes : Nat} {maxKeys headroom : UInt32}
    (made : withHeadroom lanes maxKeys headroom = .ok a) :
    a.Mirrors (Roll.start lanes (maxKeys.toNat * headroom.toNat)) := by
  obtain ⟨any, capacity, bound, rfl⟩ := eq_of_withHeadroom made
  have narrow := capacity_lt_of_evictionBound bound
  obtain ⟨rfl, positive⟩ := evictionBound_of_ok bound
  exact ⟨⟨any, positive, narrow, List.nodup_nil, Nat.zero_le _, fun x listed => nomatch listed⟩,
    rfl, Recency.lists_empty, Loads.tallies_fresh lanes, Stamps.peek_empty⟩

end Allocator

namespace Roll

variable {r : Roll}

@[simp] theorem lanes_resolve (r : Roll) (key : Key) : (r.resolve key).value.2.lanes = r.lanes := by
  unfold resolve
  split <;> rfl

@[simp] theorem capacity_resolve (r : Roll) (key : Key) :
    (r.resolve key).value.2.capacity = r.capacity := by
  unfold resolve
  split <;> rfl

@[simp] theorem lanes_call (r : Roll) (c : Call) : (r.call c).value.2.lanes = r.lanes := by
  cases c <;> simp [call]

@[simp] theorem capacity_call (r : Roll) (c : Call) :
    (r.call c).value.2.capacity = r.capacity := by
  cases c <;> simp [call]

@[simp] theorem lanes_calls (r : Roll) (cs : List Call) :
    (r.calls cs).value.2.lanes = r.lanes := by
  induction cs generalizing r with
  | nil => rfl
  | cons c cs ih => simp [calls, ih]

theorem calls_append (r : Roll) (cs more : List Call) :
    (r.calls (cs ++ more)).value.2 = ((r.calls cs).value.2.calls more).value.2 := by
  induction cs generalizing r with
  | nil => rfl
  | cons c cs ih => exact ih (r.call c).value.2

@[simp] theorem capacity_calls (r : Roll) (cs : List Call) :
    (r.calls cs).value.2.capacity = r.capacity := by
  induction cs generalizing r with
  | nil => rfl
  | cons c cs ih => simp [calls, ih]

theorem Fit.calls (h : r.Fit) (cs : List Call) : (r.calls cs).value.2.Fit := by
  induction cs generalizing r with
  | nil => exact h
  | cons c cs ih => exact ih (h.call c)

end Roll

namespace Allocator

theorem calls_append (a : Allocator) (cs more : List Call) :
    (a.calls (cs ++ more)).value.2 = ((a.calls cs).value.2.calls more).value.2 := by
  induction cs generalizing a with
  | nil => rfl
  | cons c cs ih => exact ih (a.call c).value.2

/--
Linked slots, table, buckets and counters answer every sequence of calls as the plain list
does, and log the same evictions. After every sequence each lane counts the keys that are
assigned to it, and no more keys are assigned than fit.
-/
theorem calls_eq_roll {lanes : Nat} {maxKeys headroom : UInt32} {a : Allocator}
    (made : withHeadroom lanes maxKeys headroom = .ok a) (cs : List Call) :
    (a.calls cs).value.1 =
        ((Roll.start lanes (maxKeys.toNat * headroom.toNat)).calls cs).value.1 ∧
      (a.calls cs).events = ((Roll.start lanes (maxKeys.toNat * headroom.toNat)).calls cs).events ∧
      (a.calls cs).value.2.keysByLane = Roll.loads lanes (a.calls cs).value.2.assignments ∧
      (a.calls cs).value.2.keyCount ≤ maxKeys.toNat * headroom.toNat := by
  obtain ⟨answer, events, mirrors⟩ := (mirrors_of_withHeadroom made).calls cs
  refine ⟨answer, events, ?_, ?_⟩
  · have counts := mirrors.keysByLane
    rw [Roll.lanes_calls, ← mirrors.lists.toList] at counts
    exact counts
  · have fits := mirrors.fit.fits
    rw [Roll.capacity_calls, ← mirrors.lists.size] at fits
    exact fits

/-- The lane of a new key is chosen before the oldest one is evicted. -/
theorem calls_eq_roll_of_two : ∃ a, withHeadroom 2 2 1 = .ok a ∧
    (a.calls [.resolve 1, .nextStamp 1, .resolve 2, .resolve 1, .resolve 3, .counts, .assignments,
      .assignment 2, .nextStamp 1, .clear, .keyCount]).value.1 =
      [.lane 0, .stamp 1, .lane 1, .lane 0, .lane 0, .counts [2, 0], .assignments [(3, 0), (1, 0)],
        .assignment none, .stamp 2, .cleared, .keyCount 0] := by
  have made : withHeadroom 2 2 1 = .ok ⟨2, 2, 2, .empty, .fresh 2, .empty⟩ := rfl
  obtain ⟨same, -⟩ := calls_eq_roll made [.resolve 1, .nextStamp 1, .resolve 2, .resolve 1,
    .resolve 3, .counts, .assignments, .assignment 2, .nextStamp 1, .clear, .keyCount]
  exact ⟨_, made, same.trans (by decide)⟩

end Allocator

end OrderedLanes
