import Mathlib.Data.List.Induction
import OrderedLanes.Proofs.Assignments
import OrderedLanes.Proofs.Moves

/-!
The tenures of a key. One begins with the submission that finds the key unassigned and ends
when the key is evicted or all assignments are cleared; it is told by the submissions that
looked the key up meanwhile. Only two kinds of acts have a say in it: a submission that looks
its key up, and a stop that clears the allocator. A key is assigned just while a tenure of it
lasts (`assigned_iff_of_run`).
-/

namespace OrderedLanes

/-- The submissions that looked a key up, oldest first: in its last tenure and in those before. -/
structure Tenures where
  current : List Ticket
  past : List (List Ticket)
  deriving DecidableEq, Repr

namespace Tenures

/-- All tenures, the last one at the end. -/
def all (x : Tenures) : List (List Ticket) := x.past ++ [x.current]

def visit (x : Tenures) (t : Ticket) : Tenures := { x with current := x.current ++ [t] }

/-- The key is not assigned any more. -/
def close (x : Tenures) : Tenures := ⟨[], x.all⟩

/-- The tenures of `key` once something more has happened. -/
def after {V : Type} (key : Key) (x : Tenures) : Happening V → Tenures
  | .resolved t k _ => if k = key then x.visit t else x
  | .evicted k _ => if k = key then x.close else x
  | .cleared => x.close
  | _ => x

@[simp] theorem current_visit (x : Tenures) (t : Ticket) :
    (x.visit t).current = x.current ++ [t] := rfl

@[simp] theorem current_close (x : Tenures) : x.close.current = [] := rfl

theorem current_mem_all (x : Tenures) : x.current ∈ x.all := by simp [all]

theorem mem_all_visit {x : Tenures} {t : Ticket} {ts : List Ticket} (there : ts ∈ (x.visit t).all) :
    ts ∈ x.all ∨ ts = x.current ++ [t] := by
  simp only [all, visit, List.mem_append, List.mem_singleton] at there ⊢
  exact there.imp_left .inl

theorem mem_all_close {x : Tenures} {ts : List Ticket} (there : ts ∈ x.close.all) :
    ts ∈ x.all ∨ ts = [] := by
  simpa [close, all, or_assoc] using there

@[simp] theorem flatten_visit (x : Tenures) (t : Ticket) :
    (x.visit t).all.flatten = x.all.flatten ++ [t] := by simp [all, visit]

@[simp] theorem flatten_close (x : Tenures) : x.close.all.flatten = x.all.flatten := by
  simp [all, close]

end Tenures

/-- It says nothing about which keys are assigned. -/
def Happening.Blind {V : Type} : Happening V → Prop
  | .resolved .. | .evicted .. | .cleared => False
  | _ => True

namespace World

variable {V : Type} {key k : Key} {t : Ticket} {history news : List (Happening V)}

/-- The tenures of `key` by what happened. -/
def tenures (key : Key) (history : List (Happening V)) : Tenures :=
  history.foldl (Tenures.after key) ⟨[], []⟩

theorem tenures_append (key : Key) (history news : List (Happening V)) :
    tenures key (history ++ news) = news.foldl (Tenures.after key) (tenures key history) :=
  List.foldl_append

theorem tenures_snoc (key : Key) (history : List (Happening V)) (h : Happening V) :
    tenures key (history ++ [h]) = (tenures key history).after key h :=
  tenures_append key history [h]

theorem tenures_blind (blind : ∀ h ∈ news, h.Blind) (key : Key) :
    tenures key (history ++ news) = tenures key history := by
  induction news using List.reverseRecOn with
  | nil => rw [List.append_nil]
  | append_singleton news h ih =>
    rw [← List.append_assoc, tenures_snoc, ih fun h there => blind h (List.mem_append_left _ there)]
    have unseen : h.Blind := blind h (by simp)
    cases h <;> first | rfl | cases unseen

/-- The submissions that looked `key` up, oldest first. -/
abbrev lookers (key : Key) (history : List (Happening V)) : List Ticket :=
  history.filterMap fun
    | .resolved t k _ => if k = key then some t else none
    | _ => none

/-- Each look-up of a key is in one of its tenures, in the order of the look-ups. -/
theorem flatten_tenures (key : Key) (history : List (Happening V)) :
    (tenures key history).all.flatten = lookers key history := by
  induction history using List.reverseRecOn with
  | nil => rfl
  | append_singleton history h ih =>
    rw [tenures_snoc, lookers, List.filterMap_append, ← lookers, ← ih]
    cases h with
    | resolved t k lane => by_cases same : k = key <;> simp [Tenures.after, same]
    | evicted k lane => by_cases same : k = key <;> simp [Tenures.after, same]
    | cleared => simp [Tenures.after]
    | _ => simp [Tenures.after]

/-- A look-up, and the key that it evicts, if there is one. -/
theorem tenures_lookUp {lane : LaneIndex} {gone : Option (Key × LaneIndex)}
    (other : gone.map Prod.fst ≠ some key) (k : Key) :
    tenures k (history ++ .resolved t key lane :: gone.toList.map fun x => .evicted x.1 x.2) =
      if key = k then (tenures k history).visit t
      else if gone.map Prod.fst = some k then (tenures k history).close
      else tenures k history := by
  rw [tenures_append, List.foldl_cons]
  cases gone with
  | none => simp [Tenures.after]
  | some x =>
    have apart : x.1 ≠ key := by simpa using other
    by_cases same : key = k
    · subst same
      simp [Tenures.after, apart]
    · simp [Tenures.after, same]

end World

/-! ### What a look-up takes -/

namespace Allocator

variable {V : Type} {a a' : Allocator} {l : List (Key × LaneIndex)} {key : Key}

theorem isSome_assignment_iff (lists : a.recency.Lists l) :
    (a.assignment key).isSome ↔ key ∈ l.map Prod.fst := by
  constructor
  · intro found
    by_contra absent
    rw [assignment, lists.peek_miss absent] at found
    cases found
  · intro listed
    obtain ⟨⟨key, lane⟩, there, rfl⟩ := List.mem_map.1 listed
    rw [assignment, lists.peek_hit there]
    rfl

/--
What looking `key` up does to assignments and counters: it assigns the key, and the key that it
evicts, if there is one, loses its counter.
-/
structure Takes (a a' : Allocator) (key : Key) (gone : Option Key) : Prop where
  other : gone ≠ some key
  stamps : a'.stamps = gone.elim a.stamps a.stamps.forget
  assigned : ∀ k, (a'.assignment k).isSome ↔
    k = key ∨ gone ≠ some k ∧ (a.assignment k).isSome

theorem Keeps.takes (h : a.Keeps l) (positive : 0 < a.capacity) (key : Key) :
    ∃ gone : Option (Key × LaneIndex),
      World.evictions (V := V) (a.resolve key).events =
        (gone.toList.map fun x => .evicted x.1 x.2) ∧
      Takes a (a.resolve key).value.2 key (gone.map Prod.fst) := by
  by_cases there : key ∈ l.map Prod.fst
  · obtain ⟨⟨key, lane⟩, listed, rfl⟩ := List.mem_map.1 there
    obtain ⟨recency, result, lists⟩ := h.resolve_hit_eq listed
    rw [result]
    refine ⟨none, rfl, by simp, rfl, fun k => ?_⟩
    rw [isSome_assignment_iff lists, isSome_assignment_iff h.lists, keys_toFront]
    by_cases same : k = key <;> simp [same]
  · rcases Nat.lt_or_eq_of_le h.fits with room | full
    · obtain ⟨recency, result, lists⟩ := h.resolve_room_eq there room
      rw [result]
      refine ⟨none, by simp [Loads.quiet_acquire], by simp, rfl, fun k => ?_⟩
      rw [isSome_assignment_iff lists, isSome_assignment_iff h.lists, List.map_cons, List.mem_cons]
      simp
    · obtain ⟨front, last, rfl⟩ := exists_snoc_of_pos (full ▸ positive)
      have keys := h.lists.keys
      rw [List.length_append, List.length_singleton] at full
      obtain ⟨recency, result, lists⟩ := h.resolve_full_eq there full
      rw [result]
      simp only [List.map_append, List.map_singleton, List.mem_append, List.mem_singleton,
        not_or] at there keys
      have apart : last.1 ∉ front.map Prod.fst := fun listed =>
        (List.nodup_append.1 keys).2.2 _ listed _ (List.mem_singleton_self _) rfl
      refine ⟨some last, ?_, ?_, rfl, fun k => ?_⟩
      · simp [World.evictions_append, Loads.quiet_acquire, Loads.quiet_release]
        rfl
      · simpa using Ne.symm there.2
      · rw [isSome_assignment_iff lists, isSome_assignment_iff h.lists, List.map_cons,
          List.mem_cons, List.map_append, List.mem_append]
        by_cases fell : last.1 = k
        · subst fell
          simp [apart]
        · simp [fell, Ne.symm fell]

end Allocator

/-! ### Acts and tenures -/

namespace World

variable {V : Type} {d : Dispatcher Parcel} {w w' : World V} {a : Act V} {t : Ticket}
  {s : Submission Parcel} {key : Key} {i : LaneIndex}

theorem blind_halting {who : Party} {c : Closing Parcel} :
    ∀ h ∈ halting (V := V) d who i c, h.Blind := by
  unfold halting
  split
  · split
    · simp [Happening.Blind]
    · simp
  · simp

/-- No submission looks its key up, and no stop clears the allocator. -/
structure Uninvolved (w w' : World V) : Prop where
  looks : ∀ (t : Ticket) (s : Submission Parcel) (stamp : Option Stamp),
    w.submissions[t]? = some s → s.phase = .resolving stamp → w'.submissions[t]? = some s
  clears : ∀ (n : Nat) (kind : StopKind) (report : StopReport Parcel),
    w.stops[n]? = some (.clearing kind report) → w'.stops[n]? = some (.clearing kind report)

theorem Effect.blind (e : Effect w w') (uninvolved : Uninvolved w w') :
    w'.dispatcher.allocator.recency = w.dispatcher.allocator.recency ∧
      ∃ news, w'.history = w.history ++ news ∧ ∀ h ∈ news, h.Blind := by
  cases e with
  | lookUp t s stamp there phase =>
    have same := uninvolved.looks t s stamp there phase
    rw [getElem?_set_there there, Option.some_inj] at same
    rw [← same] at phase
    cases phase
  | clear n report there =>
    have same := uninvolved.clears n _ report there
    rw [getElem?_set_there there] at same
    cases same
  | clearLast n report there =>
    have same := uninvolved.clears n _ report there
    rw [getElem?_set_there there] at same
    cases same
  | retire => exact ⟨rfl, _, rfl, blind_halting⟩
  | shut => exact ⟨rfl, _, rfl, blind_halting⟩
  | forfeit => exact ⟨rfl, _, rfl, by simp [Happening.Blind]⟩
  | _ =>
    first
    | exact ⟨rfl, _, rfl, by simp [Happening.Blind]⟩
    | exact ⟨rfl, [], (List.append_nil _).symm, by simp⟩

/-- A submission that is not about to look its key up goes on. -/
theorem uninvolved_of_set {s' : Submission Parcel} (there : w.submissions[t]? = some s)
    (other : ∀ stamp, s.phase ≠ .resolving stamp)
    (submissions : w'.submissions = w.submissions.set t s') (stops : w'.stops = w.stops) :
    Uninvolved w w' := by
  refine ⟨fun u r stamp found phase => ?_, fun n kind report found => stops ▸ found⟩
  rw [submissions, List.getElem?_set_ne, found]
  rintro rfl
  obtain rfl := Option.some.inj (there.symm.trans found)
  exact other stamp phase

/-- A stop that is not about to clear the allocator goes on. -/
theorem uninvolved_of_stop {n : Nat} {r r' : Stopping Parcel} (there : w.stops[n]? = some r)
    (other : ∀ kind report, r ≠ .clearing kind report)
    (stops : w'.stops = w.stops.set n r') (submissions : w'.submissions = w.submissions) :
    Uninvolved w w' := by
  refine ⟨fun u r stamp found phase => submissions ▸ found, fun m kind report found => ?_⟩
  rw [stops, List.getElem?_set_ne, found]
  rintro rfl
  exact other kind report (Option.some.inj (there.symm.trans found))

/-- The act is no look-up and does not clear the allocator. -/
def Elsewhere (w : World V) : Act V → Prop
  | .advance t => ∀ s, w.submissions[t]? = some s → ∀ stamp, s.phase ≠ .resolving stamp
  | .advanceStop n => ∀ r, w.stops[n]? = some r → ∀ kind report, r ≠ .clearing kind report
  | _ => True

/-- How an act deals with assignments and tenures. -/
inductive Tenancy (w w' : World V) : Act V → Prop
  | lookUp (t : Ticket) (s : Submission Parcel) (stamp : Option Stamp)
      (there : w.submissions[t]? = some s) (phase : s.phase = .resolving stamp)
      (allocator : w'.dispatcher.allocator = (w.dispatcher.allocator.resolve s.key).value.2)
      (history : w'.history = w.history ++
        .resolved t s.key (w.dispatcher.allocator.resolve s.key).value.1 ::
          evictions (w.dispatcher.allocator.resolve s.key).events) : Tenancy w w' (.advance t)
  | clear (n : Nat) (kind : StopKind) (report : StopReport Parcel)
      (there : w.stops[n]? = some (.clearing kind report))
      (allocator : w'.dispatcher.allocator = w.dispatcher.allocator.clear)
      (closes : ∀ key, tenures key w'.history = (tenures key w.history).close) :
      Tenancy w w' (.advanceStop n)
  | rest (a : Act V) (elsewhere : w.Elsewhere a)
      (recency : w'.dispatcher.allocator.recency = w.dispatcher.allocator.recency)
      (same : ∀ key, tenures key w'.history = tenures key w.history) : Tenancy w w' a

theorem tenancy_of_uninvolved (e : Effect w.core w'.core) (elsewhere : w.Elsewhere a)
    (uninvolved : Uninvolved w w') : Tenancy w w' a := by
  obtain ⟨recency, news, history, blind⟩ := e.blind ⟨uninvolved.looks, uninvolved.clears⟩
  refine .rest a elsewhere recency fun key => ?_
  rw [show w'.history = w.history ++ news from history, tenures_blind blind]

theorem tenancy_of_clearing {n : Nat} {kind : StopKind} {report : StopReport Parcel}
    (act : w.advanceStop n = some w') (there : w.stops[n]? = some (.clearing kind report)) :
    Tenancy w w' (.advanceStop n) := by
  cases kind with
  | graceful =>
    rw [advanceStop_end there rfl rfl rfl, List.append_assoc] at act
    obtain rfl := Option.some.inj act
    exact .clear n _ report there rfl fun key =>
      tenures_append key w.history [.cleared, .stopped n report]
  | forced =>
    rw [advanceStop_on there rfl rfl rfl rfl] at act
    obtain rfl := Option.some.inj act
    exact .clear n _ report there rfl fun key => tenures_snoc key w.history .cleared

theorem tenancy_of_looking {stamp : Option Stamp} (act : w.advance t = some w')
    (there : w.submissions[t]? = some s) (phase : s.phase = .resolving stamp) :
    Tenancy w w' (.advance t) := by
  obtain ⟨k, task, now⟩ := s
  obtain rfl : now = .resolving stamp := phase
  rw [advance_on there rfl rfl rfl] at act
  obtain rfl := Option.some.inj act
  refine .lookUp t _ stamp there rfl ?_ ?_
  · simp [Dispatcher.resolve]
  · simp [submissionNews, Submission.step, Submission.on, Dispatcher.resolve]

theorem tenancy_of_step (act : w.step a = some w') : Tenancy w w' a := by
  have e := effect_of_step act
  cases late : a.calls with
  | false =>
    have rest := callsRest_of_step late act
    have elsewhere : w.Elsewhere a := by cases a <;> trivial
    exact tenancy_of_uninvolved e elsewhere ⟨fun u r stamp found phase => rest.submissions ▸ found,
      fun n kind report found => rest.stops ▸ found⟩
  | true =>
    cases a with
    | submit key stamped =>
      obtain rfl := Option.some.inj act
      exact .rest _ trivial rfl fun _ => rfl
    | submitUnordered =>
      obtain rfl := Option.some.inj act
      exact .rest _ trivial rfl fun _ => rfl
    | stop kind =>
      obtain rfl := Option.some.inj act
      exact .rest _ trivial rfl fun _ => rfl
    | drawStamp key =>
      obtain rfl := Option.some.inj act
      exact .rest _ trivial rfl fun _ => rfl
    | advance t =>
      obtain ⟨s, there, going, -, submissions, stops⟩ := advance_cases act
      by_cases looks : ∃ stamp, s.phase = .resolving stamp
      · obtain ⟨stamp, phase⟩ := looks
        exact tenancy_of_looking act there phase
      · have other := not_exists.1 looks
        refine tenancy_of_uninvolved e (fun r found => ?_)
          (uninvolved_of_set there other submissions stops)
        obtain rfl := Option.some.inj (there.symm.trans found)
        exact other
    | refuseThread t source =>
      obtain ⟨s, stamp, i, -, -, rfl⟩ := refuseThread_cases act
      exact .rest _ trivial rfl fun key => tenures_snoc key w.history (.rejected t)
    | advanceStop n =>
      obtain ⟨r, there, going, -, stops, submissions⟩ := advanceStop_cases act
      by_cases clears : ∃ kind report, r = .clearing kind report
      · obtain ⟨kind, report, rfl⟩ := clears
        exact tenancy_of_clearing act there
      · simp only [not_exists] at clears
        refine tenancy_of_uninvolved e (fun q found => ?_)
          (uninvolved_of_stop there clears stops submissions)
        obtain rfl := Option.some.inj (there.symm.trans found)
        exact clears
    | _ => cases late

/-- A look-up adds to the tenure of its key, and ends that of the key which it evicts, if any. -/
theorem Reachable.takes (h : Reachable d w.core) (new : d.Fresh) (t : Ticket) (key : Key) :
    ∃ gone : Option Key,
      w.dispatcher.allocator.Takes (w.dispatcher.allocator.resolve key).value.2 key gone ∧
      ∀ k, tenures k (w.history ++
          .resolved t key (w.dispatcher.allocator.resolve key).value.1 ::
            evictions (w.dispatcher.allocator.resolve key).events) =
        if key = k then (tenures k w.history).visit t
        else if gone = some k then (tenures k w.history).close
        else tenures k w.history := by
  have keeps : w.dispatcher.allocator.Keeps w.core.assigned := (h.keeps new).2
  obtain ⟨gone, noted, takes⟩ := keeps.takes (V := V) (h.positive new) key
  rw [noted]
  exact ⟨_, takes, tenures_lookUp takes.other⟩

/-- A key is assigned just while a tenure of it lasts. -/
theorem assigned_iff_of_run {counter : KeyCounter} {acts : List (Act V)} (new : d.Fresh)
    (run : (fresh d counter).run acts = some w) (key : Key) :
    (w.dispatcher.allocator.assignment key).isSome ↔ (tenures key w.history).current ≠ [] := by
  refine run_induction (P := fun _ w => ∀ key,
    (w.dispatcher.allocator.assignment key).isSome ↔ (tenures key w.history).current ≠ [])
    (fun key => ?_) (fun {acts v a v'} before ih act key => ?_) run key
  · simp [fresh, Allocator.assignment, new.recency, Recency.peek_empty, tenures]
  · cases tenancy_of_step act with
    | rest a elsewhere recency same =>
      rw [Allocator.assignment, recency, same]
      exact ih key
    | clear n kind report there allocator closes =>
      simp [allocator, Allocator.assignment, Allocator.clear, closes]
    | lookUp t s stamp there phase allocator history =>
      obtain ⟨gone, takes, visited⟩ := (reachable_of_run before).takes new t s.key
      rw [history, visited, allocator, takes.assigned, ih]
      by_cases same : s.key = key
      · simp [same]
      · by_cases fell : gone = some key <;> simp [same, Ne.symm same, fell]

end World

end OrderedLanes
