import Mathlib.Logic.Relation
import OrderedLanes.Interleaving.LaneWorld
import OrderedLanes.Proofs.LaneOrder

/-!
The life of a slot. It is empty until a submission installs the lane that it has
started; from then on it holds that lane, which is used and never put back or
replaced, and each task that is accepted for the slot is queued on it.
-/

namespace OrderedLanes

/--
One use of an installed lane, beside the tasks accepted for its slot: a task is queued, whoever
stops the lane makes an access, or its worker acts.
-/
inductive Use (V : Type) : Lane Parcel × List Parcel → Lane Parcel × List Parcel → Prop
  | enqueue (l l' : Lane Parcel) (p : Parcel) (accepted : List Parcel)
      (queued : l.enqueue p = some l') : Use V (l, accepted) (l', accepted ++ [p])
  | close (l : Lane Parcel) (c : Closing Parcel) (accepted : List Parcel) :
      Use V (l, accepted) ((c.step l).2, accepted)
  | work (l : Lane Parcel) (a : LaneAct Parcel V) (v : LaneWorld Parcel) (accepted : List Parcel)
      (mine : a.byWorker = true) (act : (⟨l, [], []⟩ : LaneWorld Parcel).step a = some v) :
      Use V (l, accepted) (v.lane, accepted)

/-- A lane is installed in an empty slot, or one that is there is used. -/
theorem Track.Step.use {i : LaneIndex} {closes : Closing Parcel → Prop} {x y : Track} (V : Type)
    (step : Track.Step i closes x y) :
    x.lane = none ∧ y.lane = some (Lane.start i) ∧ y.accepted = x.accepted ∨
      ∃ l l', x.lane = some l ∧ y.lane = some l' ∧ Use V (l, x.accepted) (l', y.accepted) := by
  -- A use by the worker is one of the three acts that it has.
  have work : ∀ (l l' : Lane Parcel) (a : LaneAct Parcel V) (accepted : List Parcel) news,
      a.byWorker = true → (⟨l, [], []⟩ : LaneWorld Parcel).step a = some ⟨l', [], news⟩ →
      Use V (l, accepted) (l', accepted) := fun l l' a accepted news mine act =>
    .work l a ⟨l', [], news⟩ accepted mine act
  cases step with
  | install a t m => exact .inl ⟨rfl, rfl, rfl⟩
  | accept l p a t m accepting here =>
    exact .inr ⟨l, _, rfl, rfl, .enqueue l _ p a (l.enqueue_of_accepting p accepting)⟩
  | close l c a t m under => exact .inr ⟨l, _, rfl, rfl, .close l c a⟩
  | take l p queue a t m idle next =>
    refine .inr ⟨l, _, rfl, rfl, work l _ .receive a [] rfl ?_⟩
    simp [LaneWorld.step, Lane.receive, idle, next, LaneWorld.note, Lane.departure]
  | leave l a t m idle empty closed =>
    refine .inr ⟨l, _, rfl, rfl, work l _ .receive a [.left none] rfl ?_⟩
    simp [LaneWorld.step, Lane.receive, idle, empty, closed, LaneWorld.note, Lane.departure,
      Lane.leave]
  | start l p a t m holding free =>
    refine .inr ⟨l, _, rfl, rfl, work l _ (.inspect none) a [.started p] rfl ?_⟩
    simp [LaneWorld.step, Lane.inspect, holding, free, LaneWorld.note]
  | abandon l p panic a t m holding interrupted =>
    refine .inr ⟨l, _, rfl, rfl, work l _ (.inspect panic) a [.left panic] rfl ?_⟩
    simp [LaneWorld.step, Lane.inspect, holding, interrupted, LaneWorld.note]
  | conclude l p escape a t m busy =>
    refine .inr ⟨l, _, rfl, rfl, work l _ (.finish (.failure "") escape) a
      (.ended p :: (l.conclude escape).departure) rfl ?_⟩
    simp [LaneWorld.step, busy, LaneWorld.note, Ending.escape]

namespace World

variable {V : Type} {d : Dispatcher Parcel} {v w w' : World V} {i : LaneIndex} {l : Lane Parcel}

/-- A lane in its slot stays there, used at most once. -/
theorem Effect.use (e : Effect w w') (sound : AllSound w.submissions)
    (lane : w.dispatcher.lane? i = some l) :
    ∃ l', w'.dispatcher.lane? i = some l' ∧
      ((l', acceptedOn w'.history i) = (l, acceptedOn w.history i) ∨
        Use V (l, acceptedOn w.history i) (l', acceptedOn w'.history i)) := by
  rcases e.track sound i with same | step
  · have kept : w'.dispatcher.lane? i = some l := (congrArg Track.lane same).trans lane
    have accepted : acceptedOn w'.history i = acceptedOn w.history i := congrArg Track.accepted same
    exact ⟨l, kept, .inl (by rw [accepted])⟩
  · rcases step.use V with ⟨empty, -⟩ | ⟨l₁, l', before, after, use⟩
    · cases lane.symm.trans empty
    · obtain rfl := Option.some.inj (lane.symm.trans before)
      exact ⟨l', after, .inr use⟩

/-- A slot once filled keeps its lane, however it is used. -/
theorem Later.uses (later : Later v w) (h : Reachable d v) (lane : v.dispatcher.lane? i = some l) :
    ∃ l', w.dispatcher.lane? i = some l' ∧ Relation.ReflTransGen (Use V)
      (l, acceptedOn v.history i) (l', acceptedOn w.history i) := by
  induction later with
  | refl => exact ⟨l, lane, .refl⟩
  | step before effect ih =>
    obtain ⟨l₁, there, uses⟩ := ih
    obtain ⟨l', there', same | use⟩ := effect.use (before.reachable h).allSound there
    · exact ⟨l', there', same ▸ uses⟩
    · exact ⟨l', there', uses.tail use⟩

/-- The lane in a slot is the one that was installed there, with all accepted tasks queued on it. -/
theorem Reachable.uses (h : Reachable d w) (new : d.Fresh)
    (lane : w.dispatcher.lane? i = some l) : Relation.ReflTransGen (Use V)
      (Lane.start i, []) (l, acceptedOn w.history i) := by
  induction h generalizing l with
  | start =>
    rw [show (fresh d ⟨0⟩ : World V).dispatcher.lane? i = none from new.lanes i] at lane
    cases lane
  | @step w w' before effect ih =>
    cases was : w.dispatcher.lane? i with
    | some l₁ =>
      obtain ⟨l', there, same | use⟩ := effect.use before.allSound was
      all_goals obtain rfl := Option.some.inj (lane.symm.trans there)
      · exact same ▸ ih was
      · exact (ih was).tail use
    | none =>
      have none := (before.untouched new was).1
      rcases effect.track before.allSound i with same | step
      · cases lane.symm.trans ((congrArg Track.lane same).trans was)
      · rcases step.use V with ⟨-, new, accepted⟩ | ⟨l₁, l', there, -⟩
        · obtain rfl := Option.some.inj (lane.symm.trans new)
          have still : acceptedOn w'.history i = acceptedOn w.history i := accepted
          rw [still, none]
        · cases was.symm.trans there

/-- Only a submission fills a slot, with the lane that it has started. -/
theorem Effect.filled (e : Effect w w') (sound : AllSound w.submissions)
    (was : w.dispatcher.lane? i = none) (lane : w'.dispatcher.lane? i = some l) :
    ∃ (t : Ticket) (s : Submission Parcel) (stamp : Option Stamp),
      w.submissions[t]? = some s ∧ s.phase = .installing stamp i (Lane.start i) ∧
      w'.submissions[t]? = some (s.on (.rechecking stamp i)) := by
  -- A lane that is already in a slot may be set again, which fills no other one.
  have set : ∀ {j l₀ l'}, w.dispatcher.lane? j = some l₀ →
      w'.dispatcher = w.dispatcher.setLane j l' → False := by
    intro j l₀ l' there after
    have other : j ≠ i := by
      rintro rfl
      cases was.symm.trans there
    rw [after, Dispatcher.lane?_setLane_ne _ other, was] at lane
    cases lane
  have kept : w'.dispatcher.lanes = w.dispatcher.lanes → False := by
    intro same
    have still : w'.dispatcher.lane? i = w.dispatcher.lane? i := by
      rw [Dispatcher.lane?, Dispatcher.lane?, same]
    cases lane.symm.trans (still.trans was)
  cases e with
  | install t s stamp j own there phase empty =>
    obtain rfl := (sound t s there).own stamp j own phase
    obtain rfl : j = i := by
      by_contra other
      have still : (w.dispatcher.setLane j (Lane.start j)).lane? i = w.dispatcher.lane? i :=
        Dispatcher.lane?_setLane_ne _ other
      cases lane.symm.trans (still.trans was)
    exact ⟨t, s, stamp, there, phase, getElem?_set_there there _⟩
  | accept t s stamp j l₀ there phase found accepting => exact (set found rfl).elim
  | retire t s j c l₀ there phase found unfinished => exact (set found rfl).elim
  | shut n kind j c l₀ report there found unfinished => exact (set found rfl).elim
  | take j l₀ p queue found idle next => exact (set found rfl).elim
  | leave j l₀ found idle empty closed => exact (set found rfl).elim
  | start j l₀ p found holding free => exact (set found rfl).elim
  | abandon j l₀ p panic found holding interrupted => exact (set found rfl).elim
  | conclude j l₀ p ending escape found busy => exact (set found rfl).elim
  | _ => exact (kept rfl).elim

end World

end OrderedLanes
