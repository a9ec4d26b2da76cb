import OrderedLanes.Interleaving.World

/-!
What one act can do to a world, the handles apart. Everything that is said about
runs is proved from these cases; no other proof opens the acts themselves.
-/

namespace OrderedLanes

/-- A dispatcher that nobody has used. -/
structure Dispatcher.Fresh {α : Type} (d : Dispatcher α) : Prop where
  lanes : ∀ i, d.lane? i = none
  running : d.shutdown = false
  unforced : d.shutdownNow = false
  recency : d.allocator.recency = .empty
  capacity : 0 < d.allocator.capacity

/-- Empty slots list nothing. -/
theorem Dispatcher.Fresh.flatMap_lanes {α β : Type} {d : Dispatcher α} (new : d.Fresh)
    {g : Option (Lane α) → List β} (blank : g none = []) : d.lanes.flatMap g = [] := by
  refine List.flatMap_eq_nil_iff.2 fun slot listed => ?_
  obtain ⟨i, found⟩ := List.getElem?_of_mem listed
  have empty := new.lanes i
  rw [Dispatcher.lane?, found] at empty
  rw [show slot = none from empty, blank]

theorem evictionBound_of_ok {maxKeys headroom : UInt32} {bound : Nat}
    (h : evictionBound maxKeys headroom = .ok bound) :
    bound = maxKeys.toNat * headroom.toNat ∧ 0 < bound := by
  unfold evictionBound at h
  split at h
  · cases h
  · next keys =>
    split at h
    · cases h
    · next times =>
      split at h
      · cases h
      · obtain rfl := Except.ok.inj h
        have positive : ∀ n : UInt32, n ≠ 0 → 0 < n.toNat := fun n h =>
          Nat.pos_of_ne_zero fun zero => h (UInt32.toNat_inj.1 zero)
        exact ⟨rfl, Nat.mul_pos (positive _ keys) (positive _ times)⟩

theorem Allocator.eq_of_withHeadroom {lanes : Nat} {maxKeys headroom : UInt32} {a : Allocator}
    (made : withHeadroom lanes maxKeys headroom = .ok a) :
    0 < lanes ∧ ∃ capacity, evictionBound maxKeys headroom = .ok capacity ∧
      a = ⟨lanes, maxKeys, capacity, .empty, .fresh lanes, .empty⟩ := by
  unfold withHeadroom at made
  by_cases none : lanes = 0
  · simp only [none, if_true] at made
    cases made
  · cases bound : evictionBound maxKeys headroom with
    | error e =>
      simp only [none, bound, if_false] at made
      cases made
    | ok capacity =>
      simp only [none, bound, if_false] at made
      exact ⟨Nat.pos_of_ne_zero none, capacity, rfl, (Except.ok.inj made).symm⟩

theorem Dispatcher.eq_of_create {α : Type} {config : Config} {parallelism : Nat}
    {d : Dispatcher α} (made : Dispatcher.create config parallelism = .ok d) :
    ∃ a, Allocator.withHeadroom (config.laneCount parallelism) config.maxKeys config.headroom =
        .ok a ∧
      d = ⟨config, a, List.replicate (config.laneCount parallelism) none, false, false⟩ := by
  unfold Dispatcher.create at made
  cases built : Allocator.withHeadroom (config.laneCount parallelism) config.maxKeys
      config.headroom with
  | error e =>
    simp only [built] at made
    cases made
  | ok a =>
    simp only [built] at made
    exact ⟨a, rfl, (Except.ok.inj made).symm⟩

theorem Dispatcher.fresh_of_create {α : Type} {config : Config} {parallelism : Nat}
    {d : Dispatcher α} (made : Dispatcher.create config parallelism = .ok d) :
    d.Fresh ∧ d.allocator.capacity = config.maxKeys.toNat * config.headroom.toNat := by
  obtain ⟨a, built, rfl⟩ := eq_of_create made
  obtain ⟨-, capacity, bound, rfl⟩ := Allocator.eq_of_withHeadroom built
  obtain ⟨rfl, positive⟩ := evictionBound_of_ok bound
  refine ⟨⟨fun i => ?_, rfl, rfl, rfl, positive⟩, rfl⟩
  simp only [Dispatcher.lane?, List.getElem?_replicate]
  split <;> rfl

namespace World

variable {V : Type}

/-- The world without what only handles and drawers of keys see. -/
def core (w : World V) : World V := { w with counter := ⟨0⟩, slots := [], notices := [] }

/-- How a submission goes on that only looks, or that starts a lane nobody else sees yet. -/
inductive Look (d : Dispatcher Parcel) : SubmissionPhase Parcel → SubmissionPhase Parcel → Prop
  | enter (running : d.shutdown = false) : Look d .entering .stamping
  | proceed (stamp : Option Stamp) (running : d.shutdown = false) :
      Look d (.admitting stamp) (.resolving stamp)
  | found (stamp : Option Stamp) (i : LaneIndex) (l : Lane Parcel) (there : d.lane? i = some l) :
      Look d (.seeking stamp i) (.rechecking stamp i)
  | missed (stamp : Option Stamp) (i : LaneIndex) (empty : d.lane? i = none) :
      Look d (.seeking stamp i) (.starting stamp i)
  | spawned (stamp : Option Stamp) (i : LaneIndex) :
      Look d (.starting stamp i) (.installing stamp i (Lane.start i))
  | preempted (stamp : Option Stamp) (i : LaneIndex) (own l : Lane Parcel)
      (there : d.lane? own.index = some l) :
      Look d (.installing stamp i own) (.yielding stamp i own (.marking .forced))
  | yields (stamp : Option Stamp) (i : LaneIndex) (own own' : Lane Parcel)
      (c c' : Closing Parcel) : Look d (.yielding stamp i own c) (.yielding stamp i own' c')
  | yielded (stamp : Option Stamp) (i : LaneIndex) (own : Lane Parcel)
      (report : StopReport Parcel) :
      Look d (.yielding stamp i own (.done report)) (.rechecking stamp i)
  | pass (stamp : Option Stamp) (i : LaneIndex) (running : d.shutdown = false) :
      Look d (.rechecking stamp i) (.queueing stamp i)
  | turn (stamp : Option Stamp) (i : LaneIndex) (ending : d.shutdown = true) :
      Look d (.rechecking stamp i) (.choosing i)
  | choose (i : LaneIndex) (kind : StopKind) (forced : kind = .forced → d.shutdownNow = true) :
      Look d (.choosing i) (.retiring i (.marking kind))

/-- Where a submission may end with a refusal that throws no accepted task away. -/
inductive Refusal (d : Dispatcher Parcel) : SubmissionPhase Parcel → Prop
  | entering (ending : d.shutdown = true) : Refusal d .entering
  | admitting (stamp : Option Stamp) (ending : d.shutdown = true) : Refusal d (.admitting stamp)
  | starting (stamp : Option Stamp) (i : LaneIndex) : Refusal d (.starting stamp i)
  | retiring (i : LaneIndex) (c : Closing Parcel) (empty : d.lane? i = none) :
      Refusal d (.retiring i c)
  | queueing (stamp : Option Stamp) (i : LaneIndex) : Refusal d (.queueing stamp i)

/-- How a stop goes on that only looks. -/
inductive StopLook (d : Dispatcher Parcel) : Stopping Parcel → Stopping Parcel → Prop
  | visit (kind : StopKind) (i : LaneIndex) (l : Lane Parcel) (report : StopReport Parcel)
      (there : d.lane? i = some l) :
      StopLook d (.visiting kind i report) (.closing kind i (.marking kind) report)
  | skip (kind : StopKind) (i : LaneIndex) (report : StopReport Parcel)
      (empty : d.lane? i = none) :
      StopLook d (.visiting kind i report) (.visiting kind (i + 1) report)
  | wrapUp (i : LaneIndex) (report : StopReport Parcel) (last : d.laneCount ≤ i) :
      StopLook d (.visiting .graceful i report) (.clearing .graceful report)
  | closed (kind : StopKind) (i : LaneIndex) (part report : StopReport Parcel) :
      StopLook d (.closing kind i (.done part) report) (.visiting kind (i + 1) (report.append part))
  | vanished (kind : StopKind) (i : LaneIndex) (c : Closing Parcel) (report : StopReport Parcel)
      (empty : d.lane? i = none) :
      StopLook d (.closing kind i c report) (.visiting kind (i + 1) report)

/-- Where a stop may end, and with which report. -/
inductive StopEnd (d : Dispatcher Parcel) : Stopping Parcel → StopReport Parcel → Prop
  | stopping (up : d.shutdown = true) : StopEnd d (.raising .graceful) .empty
  | forcing (up : d.shutdownNow = true) : StopEnd d (.raising .forced) .empty
  | visited (i : LaneIndex) (report : StopReport Parcel) (last : d.laneCount ≤ i) :
      StopEnd d (.visiting .forced i report) report

/-- What one act can do. -/
inductive Effect (w : World V) : World V → Prop
  | rest : Effect w w
  | begin (key : Key) (stamped : Bool) : Effect w
      { w with submissions := w.submissions ++
          [.start key stamped fun lane _ => ⟨key, lane, w.submissions.length⟩] }
  | beginStop (kind : StopKind) : Effect w { w with stops := w.stops ++ [.raising kind] }
  | drawStamp (key : Key) : Effect w { w with dispatcher := (w.dispatcher.nextStamp key).2 }
  | look (t : Ticket) (s : Submission Parcel) (phase : SubmissionPhase Parcel)
      (there : w.submissions[t]? = some s) (looks : Look w.dispatcher s.phase phase) :
      Effect w { w with submissions := w.submissions.set t (s.on phase) }
  | stamp (t : Ticket) (s : Submission Parcel) (drawn : Option Stamp)
      (there : w.submissions[t]? = some s) (phase : s.phase = .stamping) : Effect w
      { w with
        dispatcher := (w.dispatcher.nextStamp s.key).2
        submissions := w.submissions.set t (s.on (.admitting drawn)) }
  | lookUp (t : Ticket) (s : Submission Parcel) (stamp : Option Stamp)
      (there : w.submissions[t]? = some s) (phase : s.phase = .resolving stamp) : Effect w
      { w with
        dispatcher := (w.dispatcher.resolve s.key).value.2
        submissions :=
          w.submissions.set t (s.on (.seeking stamp (w.dispatcher.resolve s.key).value.1))
        history := w.history ++ .resolved t s.key (w.dispatcher.resolve s.key).value.1 ::
          evictions (w.dispatcher.resolve s.key).events }
  | refuse (t : Ticket) (s : Submission Parcel) (submitted : Submitted Parcel)
      (there : w.submissions[t]? = some s) (refused : Refusal w.dispatcher s.phase) : Effect w
      { w with
        submissions := w.submissions.set t (s.on (.done submitted))
        history := w.history ++ [.rejected t] }
  | install (t : Ticket) (s : Submission Parcel) (stamp : Option Stamp) (i : LaneIndex)
      (own : Lane Parcel) (there : w.submissions[t]? = some s)
      (phase : s.phase = .installing stamp i own)
      (empty : w.dispatcher.lane? own.index = none) : Effect w
      { w with
        dispatcher := w.dispatcher.setLane own.index own
        submissions := w.submissions.set t (s.on (.rechecking stamp i)) }
  | accept (t : Ticket) (s : Submission Parcel) (stamp : Option Stamp) (i : LaneIndex)
      (l : Lane Parcel) (there : w.submissions[t]? = some s)
      (phase : s.phase = .queueing stamp i) (lane : w.dispatcher.lane? i = some l)
      (accepting : l.accepting = true) : Effect w
      { w with
        dispatcher := w.dispatcher.setLane i { l with queue := l.queue ++ [s.task i stamp] }
        submissions := w.submissions.set t (s.on (.done ⟨.accepted stamp, []⟩))
        history := w.history ++ [.accepted (s.task i stamp) i] }
  | retire (t : Ticket) (s : Submission Parcel) (i : LaneIndex) (c : Closing Parcel)
      (l : Lane Parcel) (there : w.submissions[t]? = some s) (phase : s.phase = .retiring i c)
      (lane : w.dispatcher.lane? i = some l) (unfinished : ∀ report, c ≠ .done report) : Effect w
      { w with
        dispatcher := w.dispatcher.setLane i (c.step l).2
        submissions := w.submissions.set t (s.on (.retiring i (c.step l).1))
        history := w.history ++ halting w.dispatcher (.submission t) i c }
  | forfeit (t : Ticket) (s : Submission Parcel) (i : LaneIndex) (report : StopReport Parcel)
      (there : w.submissions[t]? = some s) (phase : s.phase = .retiring i (.done report)) :
      Effect w
      { w with
        submissions := w.submissions.set t (s.reject report.pending)
        history := w.history ++ .rejected t :: report.pending.map .discarded }
  | stopLook (n : Nat) (s s' : Stopping Parcel) (there : w.stops[n]? = some s)
      (looks : StopLook w.dispatcher s s') : Effect w { w with stops := w.stops.set n s' }
  | raiseGraceful (n : Nat) (there : w.stops[n]? = some (.raising .graceful))
      (down : w.dispatcher.shutdown = false) : Effect w
      { w with
        dispatcher := { w.dispatcher with shutdown := true }
        stops := w.stops.set n (.visiting .graceful 0 .empty)
        history := w.history ++ [.raised n .graceful] }
  | raiseForced (n : Nat) (there : w.stops[n]? = some (.raising .forced))
      (down : w.dispatcher.shutdownNow = false) : Effect w
      { w with
        dispatcher := { w.dispatcher with shutdownNow := true }
        stops := w.stops.set n .following
        history := w.history ++ [.raised n .forced] }
  | follow (n : Nat) (there : w.stops[n]? = some .following) : Effect w
      { w with
        dispatcher := { w.dispatcher with shutdown := true }
        stops := w.stops.set n (.clearing .forced .empty) }
  | clear (n : Nat) (report : StopReport Parcel)
      (there : w.stops[n]? = some (.clearing .forced report)) : Effect w
      { w with
        dispatcher := { w.dispatcher with allocator := w.dispatcher.allocator.clear }
        stops := w.stops.set n (.visiting .forced 0 report)
        history := w.history ++ [.cleared] }
  | clearLast (n : Nat) (report : StopReport Parcel)
      (there : w.stops[n]? = some (.clearing .graceful report)) : Effect w
      { w with
        dispatcher := { w.dispatcher with allocator := w.dispatcher.allocator.clear }
        stops := w.stops.set n (.done report)
        returned := w.returned ++ report.pending
        history := w.history ++ [.cleared, .stopped n report] }
  | endStop (n : Nat) (s : Stopping Parcel) (report : StopReport Parcel)
      (there : w.stops[n]? = some s) (ends : StopEnd w.dispatcher s report) : Effect w
      { w with
        stops := w.stops.set n (.done report)
        returned := w.returned ++ report.pending
        history := w.history ++ [.stopped n report] }
  | shut (n : Nat) (kind : StopKind) (i : LaneIndex) (c : Closing Parcel) (l : Lane Parcel)
      (report : StopReport Parcel) (there : w.stops[n]? = some (.closing kind i c report))
      (lane : w.dispatcher.lane? i = some l) (unfinished : ∀ report, c ≠ .done report) : Effect w
      { w with
        dispatcher := w.dispatcher.setLane i (c.step l).2
        stops := w.stops.set n (.closing kind i (c.step l).1 report)
        history := w.history ++ halting w.dispatcher (.stop n) i c }
  | take (i : LaneIndex) (l : Lane Parcel) (p : Parcel) (queue : List Parcel)
      (lane : w.dispatcher.lane? i = some l) (idle : l.worker = .idle)
      (next : l.queue = p :: queue) : Effect w
      { w with
        dispatcher := w.dispatcher.setLane i { l with queue, worker := .holding p }
        history := w.history ++ [.taken p i] }
  | leave (i : LaneIndex) (l : Lane Parcel) (lane : w.dispatcher.lane? i = some l)
      (idle : l.worker = .idle) (empty : l.queue = []) (closed : l.accepting = false) : Effect w
      { w with dispatcher := w.dispatcher.setLane i (l.leave none) }
  | start (i : LaneIndex) (l : Lane Parcel) (p : Parcel)
      (lane : w.dispatcher.lane? i = some l) (holding : l.worker = .holding p)
      (free : l.interrupted = false) : Effect w
      { w with
        dispatcher := w.dispatcher.setLane i { l with worker := .busy p }
        history := w.history ++ [.started p (some i)] }
  | abandon (i : LaneIndex) (l : Lane Parcel) (p : Parcel) (panic : Option Payload)
      (lane : w.dispatcher.lane? i = some l) (holding : l.worker = .holding p)
      (interrupted : l.interrupted = true) : Effect w
      { w with
        dispatcher := w.dispatcher.setLane i (l.leave panic)
        history := w.history ++ [.discarded p] }
  | conclude (i : LaneIndex) (l : Lane Parcel) (p : Parcel) (ending : Ending V)
      (escape : Option Payload) (lane : w.dispatcher.lane? i = some l)
      (busy : l.worker = .busy p) : Effect w
      { w with
        dispatcher := w.dispatcher.setLane i (l.conclude escape)
        history := w.history ++ [.ended p (some i) ending] }
  | runReturned (p : Parcel) (ending : Ending V) (there : p ∈ w.returned) : Effect w
      { w with
        returned := w.returned.erase p
        history := w.history ++ [.started p none, .ended p none ending] }
  | dropReturned (p : Parcel) (there : p ∈ w.returned) : Effect w
      { w with returned := w.returned.erase p, history := w.history ++ [.dropped p] }

/-!
Looking a key up adds evictions to the history, stopping a lane adds that it was halted, and a
submission that ends adds the tasks that it throws away.
-/

@[simp] theorem filterMap_evictions {β : Type} (f : Happening V → Option β)
    (blind : ∀ key lane, f (.evicted key lane) = none) (events : List Event) :
    (evictions events).filterMap f = [] := by
  simp only [evictions, List.filterMap_filterMap, List.filterMap_eq_nil_iff]
  intro e _
  cases e <;> first | exact blind _ _ | rfl

@[simp] theorem filterMap_halting {β : Type} (f : Happening V → Option β)
    (blind : ∀ lane halter, f (.halted lane halter) = none) (d : Dispatcher Parcel) (who : Party)
    (i : LaneIndex) (c : Closing Parcel) : (halting d who i c).filterMap f = [] := by
  unfold halting
  split
  · split
    · simp [blind]
    · rfl
  · rfl

@[simp] theorem filterMap_discarded_blind {β : Type} (f : Happening V → Option β)
    (blind : ∀ p, f (.discarded p) = none) (ps : List Parcel) :
    ps.filterMap (f ∘ .discarded) = [] := by
  simp [blind]

@[simp] theorem filterMap_discarded (f : Happening V → Option Parcel)
    (sees : ∀ p, f (.discarded p) = some p) (ps : List Parcel) :
    ps.filterMap (f ∘ .discarded) = ps := by
  have all : f ∘ .discarded = some := funext sees
  rw [all, List.filterMap_some]

/-- The states that a dispatcher can come to, the handles apart. -/
inductive Reachable (d : Dispatcher Parcel) : World V → Prop
  | start : Reachable d (fresh d ⟨0⟩)
  | step {w w' : World V} (before : Reachable d w) (effect : Effect w w') : Reachable d w'

/-- A state comes later in a run than another one, or is the same. -/
inductive Later (v : World V) : World V → Prop
  | refl : Later v v
  | step {w w' : World V} (before : Later v w) (effect : Effect w w') : Later v w'

theorem Later.reachable {d : Dispatcher Parcel} {v w : World V} (later : Later v w)
    (h : Reachable d v) : Reachable d w := by
  induction later with
  | refl => exact h
  | step before effect ih => exact .step ih effect

end World

end OrderedLanes
