import Mathlib
import OrderedLanes.Proofs.RecencyOrder
import OrderedLanes.Proofs.Submissions

/-!
Which keys are assigned. The allocator keeps the keys looked up last, as many as
fit, each with the lane that it was found on; a key looked up again while it is
kept is found on the same lane, and the keys that fall out are the ones evicted.
Tasks make no difference to it.
-/

namespace OrderedLanes

/-- `key` was looked up and found on `lane`; it stands first from now on. -/
def toFront (key : Key) (lane : LaneIndex) (l : List (Key × LaneIndex)) : List (Key × LaneIndex) :=
  (key, lane) :: l.filter (·.1 ≠ key)

theorem filter_of_not_mem {l : List (Key × LaneIndex)} {key : Key}
    (absent : key ∉ l.map Prod.fst) : l.filter (·.1 ≠ key) = l := by
  refine List.filter_eq_self.2 fun x listed => ?_
  have apart : x.1 ≠ key := fun same => absent (same ▸ List.mem_map_of_mem listed)
  simpa using apart

theorem filter_of_split {before after : List (Key × LaneIndex)} {key : Key} {lane : LaneIndex}
    (keys : ((before ++ (key, lane) :: after).map Prod.fst).Nodup) :
    (before ++ (key, lane) :: after).filter (·.1 ≠ key) = before ++ after := by
  simp only [List.map_append, List.map_cons] at keys
  obtain ⟨-, last, apart⟩ := List.nodup_append.1 keys
  have first : key ∉ before.map Prod.fst := fun listed =>
    apart key listed key List.mem_cons_self rfl
  rw [List.filter_append, filter_of_not_mem first, List.filter_cons_of_neg (by simp),
    filter_of_not_mem (List.nodup_cons.1 last).1]

theorem exists_snoc_of_pos {l : List (Key × LaneIndex)} (any : 0 < l.length) :
    ∃ front last, l = front ++ [last] := by
  rcases List.eq_nil_or_concat l with rfl | ⟨front, last, split⟩
  · cases any
  · exact ⟨front, last, by rw [split, List.concat_eq_append]⟩

section

variable {V : Type}

theorem Loads.quiet_acquire (l : Loads) : World.evictions (V := V) l.acquire.events = [] := by
  unfold acquire
  by_cases lost : l.buckets.isEmpty <;> simp [lost, World.evictions]

theorem Loads.quiet_release (l : Loads) (lane : LaneIndex) :
    World.evictions (V := V) (l.release lane).events = [] := by
  unfold release
  split
  · simp [World.evictions]
  · split <;> simp [World.evictions]

theorem World.evictions_append (xs ys : List Event) :
    World.evictions (V := V) (xs ++ ys) = World.evictions xs ++ World.evictions ys :=
  List.filterMap_append

end

namespace Allocator

variable {V : Type} {a : Allocator} {l : List (Key × LaneIndex)} {key : Key}

/-- The allocator keeps the listed keys on the listed lanes, most recently looked up first. -/
structure Keeps (a : Allocator) (l : List (Key × LaneIndex)) : Prop where
  lists : a.recency.Lists l
  fits : l.length ≤ a.capacity

theorem trim_of_fits (fuel : Nat) (fits : a.recency.size ≤ a.capacity) : trim fuel a = pure a := by
  cases fuel with
  | zero => rfl
  | succ fuel => simp [trim, Nat.not_lt.2 fits]

/-- One key too many: the oldest one is evicted. -/
theorem trim_of_full {last : Key × LaneIndex} (fuel : Nat) (lists : a.recency.Lists (l ++ [last]))
    (full : l.length = a.capacity) :
    trim (fuel + 1) a = (do
      let loads ← a.loads.release last.2
      Logged.emit (.evicted last.1 last.2)
      return { a with
        recency := a.recency.popOldest.2
        loads
        stamps := a.stamps.forget last.1 }) := by
  obtain ⟨popped, rest⟩ := lists.popOldest
  have many : a.capacity < a.recency.size := by simp [lists.size, full]
  obtain ⟨key, lane⟩ := last
  have split : a.recency.popOldest = (some (key, lane), a.recency.popOldest.2) := by
    rw [← popped]
  have fits : a.recency.popOldest.2.size ≤ a.capacity := by simp [rest.size, full]
  simp only [trim, many, if_true]
  rw [split]
  refine Logged.bind_congr_value ?_
  have done := trim_of_fits fuel
    (a := { a with
      recency := a.recency.popOldest.2
      loads := (a.loads.release lane).value
      stamps := a.stamps.forget key }) fits
  rw [done]

/-- A key that is kept comes to the front. -/
theorem Keeps.resolve_hit_eq (h : a.Keeps l) {lane : LaneIndex} (there : (key, lane) ∈ l) :
    ∃ recency, a.resolve key = pure (lane, { a with recency }) ∧
      recency.Lists (toFront key lane l) := by
  obtain ⟨before, after, rfl⟩ := List.append_of_mem there
  obtain ⟨found, lists⟩ := h.lists.touch_hit
  have split : a.recency.touch key = (some lane, (a.recency.touch key).2) := by rw [← found]
  refine ⟨(a.recency.touch key).2, ?_, ?_⟩
  · unfold resolve
    rw [split]
  · rw [toFront, filter_of_split h.lists.keys]
    exact lists

/-- A key that is kept is found on its lane. -/
theorem Keeps.resolve_hit (h : a.Keeps l) {lane : LaneIndex} (there : (key, lane) ∈ l) :
    ∃ a', (a.resolve key).value = (lane, a') ∧ (a.resolve key).events = [] ∧
      a'.loads = a.loads ∧ a'.capacity = a.capacity ∧ a'.Keeps (toFront key lane l) := by
  obtain ⟨recency, result, lists⟩ := h.resolve_hit_eq there
  rw [result]
  refine ⟨_, rfl, rfl, rfl, rfl, lists, ?_⟩
  obtain ⟨before, after, rfl⟩ := List.append_of_mem there
  have fits := h.fits
  rw [toFront, filter_of_split h.lists.keys]
  simp only [List.length_append, List.length_cons] at fits ⊢
  omega

theorem Keeps.resolve_miss (h : a.Keeps l) (absent : key ∉ l.map Prod.fst) :
    a.resolve key = (do
      let (lane, loads) ← a.loads.acquire
      let recency := (a.recency.insert key lane).2
      let a ← trim recency.size { a with recency, loads }
      return (lane, a)) := by
  unfold resolve
  rw [h.lists.touch_miss absent]

/-- A key that is not kept is put on the least loaded lane. -/
theorem Keeps.resolve_room_eq (h : a.Keeps l) (absent : key ∉ l.map Prod.fst)
    (room : l.length < a.capacity) :
    ∃ recency, a.resolve key = (do
        let (lane, loads) ← a.loads.acquire
        return (lane, { a with recency, loads })) ∧
      recency.Lists ((key, a.loads.acquire.value.1) :: l) := by
  have lists := h.lists.insert absent a.loads.acquire.value.1
  have fits : (a.recency.insert key a.loads.acquire.value.1).2.size ≤ a.capacity := by
    rw [lists.size]
    exact room
  have trimmed := trim_of_fits
    (a := { a with
      recency := (a.recency.insert key a.loads.acquire.value.1).2
      loads := a.loads.acquire.value.2 })
    (a.recency.insert key a.loads.acquire.value.1).2.size fits
  refine ⟨(a.recency.insert key a.loads.acquire.value.1).2, ?_, lists⟩
  rw [h.resolve_miss absent]
  refine Logged.bind_congr_value ?_
  dsimp only
  rw [trimmed]
  rfl

/-- A key that is not kept is found on the least loaded lane. -/
theorem Keeps.resolve_room (h : a.Keeps l) (absent : key ∉ l.map Prod.fst)
    (room : l.length < a.capacity) :
    ∃ a', (a.resolve key).value = (a.loads.acquire.value.1, a') ∧
      World.evictions (V := V) (a.resolve key).events = [] ∧
      a'.loads = a.loads.acquire.value.2 ∧ a'.capacity = a.capacity ∧
      a'.Keeps ((key, a.loads.acquire.value.1) :: l) := by
  obtain ⟨recency, result, lists⟩ := h.resolve_room_eq absent room
  rw [result]
  refine ⟨_, rfl, ?_, rfl, rfl, lists, room⟩
  simp [Loads.quiet_acquire]

/-- Where there is no room for it the oldest key has to go. -/
theorem Keeps.resolve_full_eq {last : Key × LaneIndex} (h : a.Keeps (l ++ [last]))
    (absent : key ∉ (l ++ [last]).map Prod.fst) (full : l.length + 1 = a.capacity) :
    ∃ recency, a.resolve key = (do
        let (lane, loads) ← a.loads.acquire
        let loads ← loads.release last.2
        Logged.emit (.evicted last.1 last.2)
        return (lane, { a with recency, loads, stamps := a.stamps.forget last.1 })) ∧
      recency.Lists ((key, a.loads.acquire.value.1) :: l) := by
  have lists := h.lists.insert absent a.loads.acquire.value.1
  rw [← List.cons_append] at lists
  have size : (a.recency.insert key a.loads.acquire.value.1).2.size = l.length + 1 + 1 := by
    simp [lists.size]
  have trimmed := trim_of_full
    (a := { a with
      recency := (a.recency.insert key a.loads.acquire.value.1).2
      loads := a.loads.acquire.value.2 })
    (l.length + 1) lists full
  refine ⟨_, ?_, lists.popOldest.2⟩
  rw [h.resolve_miss absent]
  refine Logged.bind_congr_value ?_
  dsimp only
  rw [size, trimmed]
  simp only [bind_assoc, pure_bind]

/-- Where there is no room for it the oldest key is evicted. -/
theorem Keeps.resolve_full {last : Key × LaneIndex} (h : a.Keeps (l ++ [last]))
    (absent : key ∉ (l ++ [last]).map Prod.fst) (full : l.length + 1 = a.capacity) :
    ∃ a', (a.resolve key).value = (a.loads.acquire.value.1, a') ∧
      World.evictions (V := V) (a.resolve key).events = [.evicted last.1 last.2] ∧
      a'.loads = (a.loads.acquire.value.2.release last.2).value ∧ a'.capacity = a.capacity ∧
      a'.Keeps ((key, a.loads.acquire.value.1) :: l) := by
  obtain ⟨recency, result, lists⟩ := h.resolve_full_eq absent full
  rw [result]
  refine ⟨_, rfl, ?_, rfl, rfl, lists, Nat.le_of_eq full⟩
  simp [World.evictions_append, Loads.quiet_acquire, Loads.quiet_release]
  rfl

@[simp] theorem keys_toFront (lane : LaneIndex) (l : List (Key × LaneIndex)) :
    (toFront key lane l).map Prod.fst = key :: (l.map Prod.fst).filter (· ≠ key) := by
  simp [toFront, List.filter_map, Function.comp_def]

theorem nodup_toFront (keys : (l.map Prod.fst).Nodup) (key : Key) (lane : LaneIndex) :
    ((toFront key lane l).map Prod.fst).Nodup := by
  rw [keys_toFront]
  exact List.nodup_cons.2 ⟨by simp, keys.filter _⟩

/-- Looking a key up keeps its lane if it is there, and evicts what does not fit. -/
theorem Keeps.resolve (h : a.Keeps l) (positive : 0 < a.capacity) (key : Key) :
    (∀ i, (key, i) ∈ l → (a.resolve key).value.1 = i) ∧
      World.evictions (V := V) (a.resolve key).events =
        ((toFront key (a.resolve key).value.1 l).drop a.capacity).map (fun x => .evicted x.1 x.2) ∧
      (a.resolve key).value.2.capacity = a.capacity ∧
      (a.resolve key).value.2.Keeps ((toFront key (a.resolve key).value.1 l).take a.capacity) := by
  by_cases there : key ∈ l.map Prod.fst
  · obtain ⟨⟨key, lane⟩, listed, rfl⟩ := List.mem_map.1 there
    obtain ⟨a', found, quiet, -, capacity, keeps⟩ := h.resolve_hit listed
    rw [found, quiet]
    have fits : (toFront key lane l).length ≤ a.capacity := by
      rw [← capacity]
      exact keeps.fits
    refine ⟨fun i other => ?_, ?_, capacity, ?_⟩
    · exact congrArg Prod.snd (List.inj_on_of_nodup_map h.lists.keys listed other rfl)
    · rw [List.drop_of_length_le fits]
      rfl
    · rw [List.take_of_length_le fits]
      exact keeps
  · have absent : ∀ {lane : LaneIndex} i, (key, i) ∈ l → lane = i := fun i listed =>
      absurd (List.mem_map_of_mem listed) there
    rcases Nat.lt_or_eq_of_le h.fits with room | full
    · obtain ⟨a', found, quiet, -, capacity, keeps⟩ := h.resolve_room (V := V) there room
      rw [found, quiet, toFront, filter_of_not_mem there]
      refine ⟨absent, ?_, capacity, ?_⟩
      · rw [List.drop_of_length_le room]
        rfl
      · rw [List.take_of_length_le room]
        exact keeps
    · obtain ⟨front, last, rfl⟩ := exists_snoc_of_pos (full ▸ positive)
      rw [List.length_append, List.length_singleton] at full
      obtain ⟨a', found, noted, -, capacity, keeps⟩ := h.resolve_full (V := V) there full
      have cut : ((key, a.loads.acquire.value.1) :: front).length = a.capacity := full
      rw [found, noted, toFront, filter_of_not_mem there, ← List.cons_append]
      refine ⟨absent, ?_, capacity, ?_⟩
      · rw [List.drop_left' cut]
        rfl
      · rw [List.take_left' cut]
        exact keeps

/-- Clearing leaves nothing assigned. -/
theorem keeps_clear (a : Allocator) : a.clear.Keeps [] := ⟨Recency.lists_empty, Nat.zero_le _⟩

theorem Keeps.nextStamp (h : a.Keeps l) (key : Key) : (a.nextStamp key).2.Keeps l :=
  ⟨h.lists, h.fits⟩

end Allocator

/-! ### The keys looked up last -/

section

variable {l : List (Key × LaneIndex)} {key : Key}

theorem length_filter_ne (keys : (l.map Prod.fst).Nodup) (key : Key) :
    l.length ≤ (l.filter (·.1 ≠ key)).length + 1 := by
  by_cases there : key ∈ l.map Prod.fst
  · obtain ⟨⟨key, lane⟩, listed, rfl⟩ := List.mem_map.1 there
    obtain ⟨before, after, rfl⟩ := List.append_of_mem listed
    rw [filter_of_split keys]
    simp only [List.length_append, List.length_cons]
    omega
  · rw [filter_of_not_mem there]
    omega

/-- What has fallen out does not matter for what is kept. -/
theorem take_toFront (keys : (l.map Prod.fst).Nodup) (lane : LaneIndex) (capacity : Nat) :
    (toFront key lane (l.take capacity)).take capacity = (toFront key lane l).take capacity := by
  cases capacity with
  | zero => rfl
  | succ c =>
    rcases Nat.lt_or_ge (c + 1) l.length with many | few
    · have kept : ((l.take (c + 1)).map Prod.fst).Nodup :=
        keys.sublist ((List.take_sublist _ _).map _)
      have enough : c ≤ ((l.take (c + 1)).filter (·.1 ≠ key)).length := by
        have shorter := length_filter_ne kept key
        rw [List.length_take] at shorter
        omega
      have split : l.filter (·.1 ≠ key) =
          (l.take (c + 1)).filter (·.1 ≠ key) ++ (l.drop (c + 1)).filter (·.1 ≠ key) := by
        rw [← List.filter_append, List.take_append_drop]
      rw [toFront, toFront, split, List.take_succ_cons, List.take_succ_cons,
        List.take_append_of_le_length enough]
    · rw [List.take_of_length_le few]

end

namespace World

variable {V : Type} {d : Dispatcher Parcel} {w w' : World V}

/-- The keys looked up, each with the lane that it was found on, and the clearings in between. -/
abbrev visits (history : List (Happening V)) : List (Option (Key × LaneIndex)) :=
  history.filterMap fun
    | .resolved _ key lane => some (some (key, lane))
    | .cleared => some none
    | _ => none

/-- Each key looked up since the last clearing, the last one first. -/
def lately (history : List (Happening V)) : List (Key × LaneIndex) :=
  (visits history).foldl (fun l visit => visit.elim [] fun x => toFront x.1 x.2 l) []

theorem lately_append (history news : List (Happening V)) : lately (history ++ news) =
    (visits news).foldl (fun l visit => visit.elim [] fun x => toFront x.1 x.2 l)
      (lately history) := by
  simp [lately]

theorem nodup_foldl (visited : List (Option (Key × LaneIndex))) (l : List (Key × LaneIndex))
    (keys : (l.map Prod.fst).Nodup) :
    ((visited.foldl (fun l visit => visit.elim [] fun x => toFront x.1 x.2 l) l).map
      Prod.fst).Nodup := by
  induction visited generalizing l with
  | nil => exact keys
  | cons visit visited ih =>
    cases visit with
    | none => exact ih [] List.nodup_nil
    | some x => exact ih _ (Allocator.nodup_toFront keys x.1 x.2)

theorem nodup_lately (history : List (Happening V)) : ((lately history).map Prod.fst).Nodup :=
  nodup_foldl _ [] List.nodup_nil

/-- The keys evicted, each with the lane that it was on. -/
abbrev evicted (history : List (Happening V)) : List (Key × LaneIndex) :=
  history.filterMap fun
    | .evicted key lane => some (key, lane)
    | _ => none

/-- How an act deals with assignments. -/
inductive Assigning (w w' : World V) : Prop
  | rest (recency : w'.dispatcher.allocator.recency = w.dispatcher.allocator.recency)
      (capacity : w'.dispatcher.allocator.capacity = w.dispatcher.allocator.capacity)
      (visited : visits w'.history = visits w.history)
      (noted : evicted w'.history = evicted w.history)
  | lookUp (t : Ticket) (key : Key)
      (after : w'.dispatcher.allocator = (w.dispatcher.allocator.resolve key).value.2)
      (history : w'.history = w.history ++
        .resolved t key (w.dispatcher.allocator.resolve key).value.1 ::
          evictions (w.dispatcher.allocator.resolve key).events)
  | clear (n : Nat) (kind : StopKind) (report : StopReport Parcel)
      (there : w.stops[n]? = some (.clearing kind report))
      (after : w'.dispatcher.allocator = w.dispatcher.allocator.clear)
      (visited : visits w'.history = visits w.history ++ [none])
      (noted : evicted w'.history = evicted w.history)

theorem Effect.assigning (e : Effect w w') : Assigning w w' := by
  cases e with
  | lookUp t s stamp there phase =>
    refine .lookUp t s.key rfl ?_
    have events : (w.dispatcher.resolve s.key).events =
        (w.dispatcher.allocator.resolve s.key).events := by simp [Dispatcher.resolve]
    rw [← events]
    rfl
  | clear n report there => exact .clear n _ report there rfl (by simp) (by simp)
  | clearLast n report there => exact .clear n _ report there rfl (by simp) (by simp)
  | _ => exact .rest rfl rfl (by simp) (by simp)

theorem visits_lookUp (t : Ticket) (key : Key) (lane : LaneIndex) (events : List Event) :
    visits (.resolved t key lane :: evictions (V := V) events) = [some (key, lane)] := by
  simp

theorem lately_lookUp (history : List (Happening V)) (t : Ticket) (key : Key) (lane : LaneIndex)
    (events : List Event) : lately (history ++ .resolved t key lane :: evictions events) =
      toFront key lane (lately history) := by
  rw [lately_append, visits_lookUp]
  rfl

/-- The keys that stay assigned, with their lanes: as many of those looked up last as fit. -/
def assigned (w : World V) : List (Key × LaneIndex) :=
  (lately w.history).take w.dispatcher.allocator.capacity

theorem lately_of_visits {history history' : List (Happening V)}
    (same : visits history' = visits history) : lately history' = lately history := by
  rw [lately, same, lately]

theorem assigned_of_visits (visited : visits w'.history = visits w.history)
    (capacity : w'.dispatcher.allocator.capacity = w.dispatcher.allocator.capacity) :
    w'.assigned = w.assigned := by
  rw [assigned, lately_of_visits visited, capacity, assigned]

/-- The allocator keeps what the history says. -/
theorem Reachable.keeps (h : Reachable d w) (new : d.Fresh) :
    w.dispatcher.allocator.capacity = d.allocator.capacity ∧
      w.dispatcher.allocator.Keeps w.assigned := by
  induction h with
  | start =>
    refine ⟨rfl, ?_, ?_⟩
    · change d.allocator.recency.Lists _
      rw [new.recency]
      simpa [assigned, lately, fresh] using Recency.lists_empty
    · simp [assigned, lately, fresh]
  | @step w w' before effect ih =>
    obtain ⟨bound, keeps⟩ := ih
    cases effect.assigning with
    | rest recency capacity visited noted =>
      refine ⟨capacity.trans bound, ?_⟩
      rw [assigned_of_visits visited capacity]
      exact ⟨recency ▸ keeps.lists, Nat.le_trans keeps.fits (Nat.le_of_eq capacity.symm)⟩
    | lookUp t key after history =>
      have positive : 0 < w.dispatcher.allocator.capacity := bound ▸ new.capacity
      obtain ⟨-, -, capacity, kept⟩ := keeps.resolve (V := V) positive key
      refine ⟨after ▸ capacity.trans bound, ?_⟩
      rw [assigned, history, lately_lookUp, after, capacity,
        ← take_toFront (nodup_lately w.history)]
      exact kept
    | clear n kind report there after visited noted =>
      refine ⟨after ▸ bound, ?_⟩
      have none : lately w'.history = [] := by
        simp [lately, visited]
      rw [assigned, none, List.take_nil, after]
      exact Allocator.keeps_clear _

/-- The keys evicted on the way from `w` to `w'`. -/
def Evicts (w w' : World V) (key : Key) (lane : LaneIndex) : Prop :=
  ∃ news, w'.history = w.history ++ news ∧ .evicted key lane ∈ news

theorem evicts_iff {news : List (Happening V)} (history : w'.history = w.history ++ news)
    {key : Key} {lane : LaneIndex} : Evicts w w' key lane ↔ (key, lane) ∈ evicted news := by
  have noted : (key, lane) ∈ evicted news ↔ .evicted key lane ∈ news := by
    simp only [List.mem_filterMap]
    constructor
    · rintro ⟨h, found, same⟩
      cases h <;> cases same
      exact found
    · intro found
      exact ⟨_, found, rfl⟩
  rw [noted]
  constructor
  · rintro ⟨other, split, found⟩
    rwa [List.append_cancel_left (history.symm.trans split)]
  · exact fun found => ⟨news, history, found⟩

theorem evicted_evictions (t : Ticket) (key : Key) (lane : LaneIndex) (events : List Event)
    (gone : List (Key × LaneIndex))
    (noted : evictions (V := V) events = gone.map fun x => .evicted x.1 x.2) :
    evicted (.resolved t key lane :: evictions (V := V) events) = gone := by
  rw [noted]
  simp [List.filterMap_map]

/-- Nothing is evicted where nothing falls out. -/
theorem not_evicts (e : Effect w w') (same : evicted w'.history = evicted w.history) (key : Key)
    (lane : LaneIndex) : ¬ Evicts w w' key lane := by
  obtain ⟨news, grown⟩ := e.history
  rw [evicts_iff grown.symm]
  rw [← grown] at same
  have none : evicted news = [] := by simpa using same
  simp [none]

theorem Reachable.positive (h : Reachable d w) (new : d.Fresh) :
    0 < w.dispatcher.allocator.capacity :=
  (h.keeps new).1 ▸ new.capacity

/-- A key just looked up stands first among those that stay assigned. -/
theorem Reachable.assigned_lookUp (h : Reachable d w) (new : d.Fresh) {key : Key}
    (after : w'.dispatcher.allocator = (w.dispatcher.allocator.resolve key).value.2)
    (h' : Reachable d w') : w'.assigned =
      (toFront key (w.dispatcher.allocator.resolve key).value.1 w.assigned).take
        w.dispatcher.allocator.capacity := by
  obtain ⟨-, -, -, kept⟩ := (h.keeps new).2.resolve (V := V) (h.positive new) key
  have there := (h'.keeps new).2.lists.toList
  rw [after, kept.lists.toList] at there
  exact there.symm

theorem mem_take_toFront {l : List (Key × LaneIndex)} {capacity : Nat} (positive : 0 < capacity)
    (key : Key) (lane : LaneIndex) : (key, lane) ∈ (toFront key lane l).take capacity := by
  obtain ⟨c, rfl⟩ := Nat.exists_eq_succ_of_ne_zero (Nat.ne_of_gt positive)
  rw [toFront, List.take_succ_cons]
  exact List.mem_cons_self

/-- A key is evicted when it no longer is among those looked up last, whatever its tasks do. -/
theorem Reachable.evicts_iff (h : Reachable d w) (new : d.Fresh) (e : Effect w w') (key : Key)
    (lane : LaneIndex) : Evicts w w' key lane ↔
      (key, lane) ∈ w.assigned ∧ (key, lane) ∉ w'.assigned ∧ w'.assigned ≠ [] := by
  have keeps := (h.keeps new).2
  have positive := h.positive new
  cases e.assigning with
  | rest recency capacity visited noted =>
    have none := not_evicts e noted key lane
    rw [assigned_of_visits visited capacity]
    exact ⟨fun found => absurd found none, fun fallen => absurd fallen.1 fallen.2.1⟩
  | clear n kind report there after visited noted =>
    have none : w'.assigned = [] := by simp [assigned, lately, visited]
    have nothing := not_evicts e noted key lane
    exact ⟨fun found => absurd found nothing, fun fallen => absurd none fallen.2.2⟩
  | lookUp t looked after history =>
    obtain ⟨same, gone, -, -⟩ := keeps.resolve (V := V) positive looked
    rw [World.evicts_iff history, evicted_evictions t looked _ _ _ gone,
      h.assigned_lookUp new after (h.step e)]
    generalize (w.dispatcher.allocator.resolve looked).value.1 = found at same ⊢
    have distinct := Allocator.nodup_toFront keeps.lists.keys looked found
    have whole := List.take_append_drop w.dispatcher.allocator.capacity
      (toFront looked found w.assigned)
    have front := mem_take_toFront (l := w.assigned) positive looked found
    constructor
    · intro fallen
      have apart : (key, lane) ∉ (toFront looked found w.assigned).take
          w.dispatcher.allocator.capacity := by
        intro stays
        have split := distinct.of_map
        rw [← whole] at split
        exact (List.nodup_append.1 split).2.2 _ stays _ fallen rfl
      have listed : (key, lane) ∈ toFront looked found w.assigned := List.mem_of_mem_drop fallen
      refine ⟨?_, apart, List.ne_nil_of_mem front⟩
      rcases List.mem_cons.1 listed with first | rest
      · exact absurd (first ▸ front) apart
      · exact (List.mem_filter.1 rest).1
    · rintro ⟨there, apart, -⟩
      have other : key ≠ looked := by
        rintro rfl
        exact apart (same lane there ▸ front)
      have listed : (key, lane) ∈ toFront looked found w.assigned :=
        List.mem_cons_of_mem _ (List.mem_filter.2 ⟨there, by simpa using other⟩)
      rw [← whole, List.mem_append] at listed
      exact listed.resolve_left apart

/-! ### Runs through lookups -/

/-- A submission under a key, under way or at its end. -/
def underKey (key : Key) (t : Ticket) (phase : SubmissionPhase Parcel) : Submission Parcel :=
  ⟨key, fun lane _ => ⟨key, lane, t⟩, phase⟩

/-- One more submission, which has come to a phase. -/
def withSubmission (w : World V) (key : Key) (phase : SubmissionPhase Parcel) : World V :=
  { w with
    submissions := w.submissions ++ [underKey key w.submissions.length phase]
    slots := w.slots ++ [.fresh] }

/-- The last submission goes on. -/
theorem advance_withSubmission {key : Key} {phase phase' : SubmissionPhase Parcel}
    {dispatcher : Dispatcher Parcel}
    (unfinished : (underKey key w.submissions.length phase).answer? = none)
    (step : ((underKey key w.submissions.length phase).step w.dispatcher).value =
      (underKey key w.submissions.length phase', dispatcher))
    (goes : (underKey key w.submissions.length phase').answer? = none) :
    (w.withSubmission key phase).advance w.submissions.length = some
      { w.withSubmission key phase' with
        dispatcher := dispatcher
        history := w.history ++ submissionNews w.dispatcher w.submissions.length
          (underKey key w.submissions.length phase) (underKey key w.submissions.length phase')
          ((underKey key w.submissions.length phase).step w.dispatcher).events } := by
  have there : (w.withSubmission key phase).submissions[w.submissions.length]? =
      some (underKey key w.submissions.length phase) := by simp [withSubmission]
  rw [advance_on there unfinished step goes]
  simp [withSubmission]

/-- One more submission, which has looked its key up with the stamp that it has drawn, if any. -/
def stampedUp (w : World V) (key : Key) (stamp : Option Stamp) (lane : LaneIndex) (a : Allocator)
    (gone : List (Happening V)) : World V :=
  { w.withSubmission key (.seeking stamp lane) with
    dispatcher := { w.dispatcher with allocator := a }
    history := w.history ++ .resolved w.submissions.length key lane :: gone }

/-- One more submission, which has looked its key up. -/
def lookedUp (w : World V) (key : Key) (lane : LaneIndex) (a : Allocator)
    (gone : List (Happening V)) : World V :=
  { w.withSubmission key (.seeking none lane) with
    dispatcher := { w.dispatcher with allocator := a }
    history := w.history ++ .resolved w.submissions.length key lane :: gone }

/-- A submission looks at the flag before its look-up, and looks its key up. -/
theorem run_lookUp {key : Key} {stamp : Option Stamp} {t : Ticket} {lane : LaneIndex}
    {a : Allocator} {gone : List (Happening V)} (running : w.dispatcher.shutdown = false)
    (ticket : w.submissions.length = t)
    (found : (w.dispatcher.allocator.resolve key).value = (lane, a))
    (noted : evictions (w.dispatcher.allocator.resolve key).events = gone) (more : List (Act V)) :
    (w.withSubmission key (.admitting stamp)).run (.advance t :: .advance t :: more) =
      (w.stampedUp key stamp lane a gone).run more := by
  subst ticket
  have enters : ((underKey key w.submissions.length (.admitting stamp)).step w.dispatcher).value =
      (underKey key w.submissions.length (.resolving stamp), w.dispatcher) := by
    simp [Submission.step, underKey, running, Submission.on]
  have looks : (w.withSubmission key (.admitting stamp)).advance w.submissions.length =
      some (w.withSubmission key (.resolving stamp)) := by
    rw [advance_withSubmission rfl enters rfl]
    simp [submissionNews, underKey, withSubmission]
  have finds : ((underKey key w.submissions.length (.resolving stamp)).step w.dispatcher).value =
      (underKey key w.submissions.length (.seeking stamp lane),
        { w.dispatcher with allocator := a }) := by
    simp [Submission.step, underKey, Dispatcher.resolve, found, Submission.on]
  rw [run_cons, World.step, looks, Option.bind_some, run_cons, World.step,
    advance_withSubmission rfl finds rfl, Option.bind_some]
  simp [stampedUp, submissionNews, underKey, Submission.step, Dispatcher.resolve, ← noted]

/-- A submission begins, looks at the flag and looks its key up. -/
theorem run_submit (key : Key) {t : Ticket} {lane : LaneIndex} {a : Allocator}
    {gone : List (Happening V)} (running : w.dispatcher.shutdown = false)
    (ticket : w.submissions.length = t)
    (found : (w.dispatcher.allocator.resolve key).value = (lane, a))
    (noted : evictions (w.dispatcher.allocator.resolve key).events = gone) (more : List (Act V)) :
    w.run (.submit key false :: .advance t :: .advance t :: more) =
      (w.lookedUp key lane a gone).run more := by
  have begins : w.step (.submit key false) = some (w.withSubmission key (.admitting none)) := rfl
  rw [run_cons, begins, Option.bind_some, run_lookUp running ticket found noted]
  rfl

/-- A submission that asks for a stamp draws it first. -/
theorem run_submit_stamped (key : Key) {t : Ticket} {lane : LaneIndex} {a : Allocator}
    {gone : List (Happening V)} (running : w.dispatcher.shutdown = false)
    (ticket : w.submissions.length = t)
    (found : ((w.dispatcher.allocator.nextStamp key).2.resolve key).value = (lane, a))
    (noted : evictions ((w.dispatcher.allocator.nextStamp key).2.resolve key).events = gone)
    (more : List (Act V)) :
    w.run (.submit key true :: .advance t :: .advance t :: .advance t :: .advance t :: more) =
      (w.stampedUp key (some (w.dispatcher.allocator.stamps.peek key)) lane a gone).run more := by
  subst ticket
  have begins : w.step (.submit key true) = some (w.withSubmission key .entering) := rfl
  have enters : ((underKey key w.submissions.length .entering).step w.dispatcher).value =
      (underKey key w.submissions.length .stamping, w.dispatcher) := by
    simp [Submission.step, underKey, running, Submission.on]
  have looks : (w.withSubmission key .entering).advance w.submissions.length =
      some (w.withSubmission key .stamping) := by
    rw [advance_withSubmission rfl enters rfl]
    simp [submissionNews, underKey, withSubmission]
  have draws : (w.withSubmission key .stamping).advance w.submissions.length =
      some ({ w with dispatcher := (w.dispatcher.nextStamp key).2 }.withSubmission key
        (.admitting (some (w.dispatcher.allocator.stamps.peek key)))) := by
    rw [advance_withSubmission rfl rfl rfl]
    simp [submissionNews, underKey, withSubmission, Dispatcher.nextStamp, Allocator.nextStamp,
      Stamps.draw]
  rw [run_cons, begins, Option.bind_some, run_cons, World.step, looks, Option.bind_some, run_cons,
    World.step, draws, Option.bind_some]
  exact run_lookUp (w := { w with dispatcher := (w.dispatcher.nextStamp key).2 }) running rfl
    found noted more

/-- Two runs, one after the other. -/
theorem run_of_parts {u v w : World V} {acts more : List (Act V)} (first : u.run acts = some v)
    (second : v.run more = some w) : u.run (acts ++ more) = some w := by
  rw [run_append, first, Option.bind_some, second]

/-- A configuration of few lanes and keys. -/
def tiny (lanes : Nat) (maxKeys : UInt32) : Config :=
  { maxKeys, headroom := 1, laneCap := 100, lanes := some lanes, threadName := "" }

/-- The dispatcher that is created from it. -/
def newborn (lanes : Nat) (maxKeys : UInt32) : Dispatcher Parcel where
  config := tiny lanes maxKeys
  allocator := ⟨lanes, maxKeys, maxKeys.toNat, .empty, .fresh lanes, .empty⟩
  lanes := List.replicate lanes none
  shutdown := false
  shutdownNow := false

theorem keeps_newborn (lanes : Nat) (maxKeys : UInt32) :
    (newborn lanes maxKeys).allocator.Keeps [] :=
  ⟨Recency.lists_empty, Nat.zero_le _⟩

/-- With two lanes and room for one key, each key pushes out the last; key 1 changes lanes. -/
theorem crowded_lookUps (V : Type) : ∃ a₁ a₂ a₃ a₄,
    ((newborn 2 1).allocator.resolve 1).value = (0, a₁) ∧
      evictions (V := V) ((newborn 2 1).allocator.resolve 1).events = [] ∧
      (a₁.resolve 2).value = (1, a₂) ∧
      evictions (V := V) (a₁.resolve 2).events = [.evicted 1 0] ∧
      (a₂.resolve 3).value = (0, a₃) ∧
      evictions (V := V) (a₂.resolve 3).events = [.evicted 2 1] ∧
      (a₃.resolve 1).value = (1, a₄) ∧
      evictions (V := V) (a₃.resolve 1).events = [.evicted 3 0] := by
  obtain ⟨a₁, found₁, quiet₁, loads₁, capacity₁, keeps₁⟩ :=
    (keeps_newborn 2 1).resolve_room (V := V) (List.not_mem_nil (a := 1)) Nat.zero_lt_one
  have lane₁ : (newborn 2 1).allocator.loads.acquire.value.1 = 0 := by decide
  rw [lane₁] at found₁ keeps₁
  obtain ⟨a₂, found₂, gone₂, loads₂, capacity₂, keeps₂⟩ :=
    Allocator.Keeps.resolve_full (V := V) (l := []) keeps₁ (by decide : (2 : Key) ∉ _)
      capacity₁.symm
  have lane₂ : a₁.loads.acquire.value.1 = 1 := by
    rw [loads₁]
    decide
  rw [lane₂] at found₂ keeps₂
  obtain ⟨a₃, found₃, gone₃, loads₃, capacity₃, keeps₃⟩ :=
    Allocator.Keeps.resolve_full (V := V) (l := []) keeps₂ (by decide : (3 : Key) ∉ _)
      (capacity₂.trans capacity₁).symm
  have lane₃ : a₂.loads.acquire.value.1 = 0 := by
    rw [loads₂, loads₁]
    decide
  rw [lane₃] at found₃ keeps₃
  obtain ⟨a₄, found₄, gone₄, -, -, -⟩ :=
    Allocator.Keeps.resolve_full (V := V) (l := []) keeps₃ (by decide : (1 : Key) ∉ _)
      (capacity₃.trans (capacity₂.trans capacity₁)).symm
  have lane₄ : a₃.loads.acquire.value.1 = 1 := by
    rw [loads₃, loads₂, loads₁]
    decide
  rw [lane₄] at found₄
  exact ⟨a₁, a₂, a₃, a₄, found₁, quiet₁, found₂, gone₂, found₃, gone₃, found₄, gone₄⟩

/-- A world in which no stop has begun and no handle was used. -/
def calm (d : Dispatcher Parcel) (submissions : List (Submission Parcel))
    (history : List (Happening Unit)) : World Unit :=
  { fresh d ⟨0⟩ with submissions, slots := submissions.map fun _ => .fresh, history }

/-- One lane, with room for one key: a task of key 1 waits. -/
def oneWaits (a : Allocator) : World Unit :=
  calm ⟨tiny 1 1, a, [some ⟨0, .running, true, [⟨1, 0, 0⟩], false, .idle, false⟩], false, false⟩
    [underKey 1 0 (.done ⟨.accepted none, []⟩)] [.resolved 0 1 0, .accepted ⟨1, 0, 0⟩ 0]

/-- The state is reached, and a second submission finds the lane that the first one got. -/
theorem run_tiny : ∃ a₁ a₂,
    (fresh (newborn 1 1) ⟨0⟩).run (Act.submit 1 false :: List.replicate 7 (Act.advance 0)) =
        some (oneWaits a₁) ∧
      (oneWaits a₁).run [Act.submit 1 false, Act.advance 1, Act.advance 1] =
        some ((oneWaits a₁).lookedUp 1 0 a₂ []) := by
  have lane : (newborn 1 1).allocator.loads.acquire.value.1 = 0 := by decide
  obtain ⟨a₁, found₁, quiet₁, -, -, keeps₁⟩ :=
    (keeps_newborn 1 1).resolve_room (V := Unit) (List.not_mem_nil (a := 1)) Nat.zero_lt_one
  obtain ⟨a₂, found₂, quiet₂, -, -, -⟩ := keeps₁.resolve_hit List.mem_cons_self
  rw [lane] at found₁ found₂
  have quiet₂ : evictions (V := Unit) (a₁.resolve 1).events = [] := by
    rw [quiet₂]
    rfl
  refine ⟨a₁, a₂, ?_, ?_⟩
  · exact (run_submit (w := fresh (newborn 1 1) ⟨0⟩) 1 rfl rfl found₁ quiet₁ _).trans (by cbv)
  · exact run_submit (w := oneWaits a₁) 1 rfl rfl found₂ quiet₂ []

end World

end OrderedLanes
