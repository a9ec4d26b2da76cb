import OrderedLanes.Interleaving.LaneWorld
import OrderedLanes.Interleaving.World

/-!
All lanes that are started. Submissions that find a slot empty at the same time
start a lane each: one of the lanes is installed, the others are halted by their
submissions and let go. A world forgets a lane that was let go, and the worker of a
lane that is in no slot does nothing in it. Here these workers act like all others,
in any order with the acts of the world, and no lane is forgotten. A submission
starts one lane at most, so its ticket tells which lane is meant. What becomes of
the lanes is kept beside them, oldest first.
-/

namespace OrderedLanes

/-- The lane that a submission has started and still has in hand. -/
def SubmissionPhase.own? {α : Type} : SubmissionPhase α → Option (Lane α)
  | .installing _ _ own | .yielding _ _ own _ => some own
  | _ => none

/-- The worker of the lane in hand has acted. -/
def SubmissionPhase.setOwn {α : Type} (l : Lane α) : SubmissionPhase α → SubmissionPhase α
  | .installing stamp i _ => .installing stamp i l
  | .yielding stamp i _ c => .yielding stamp i l c
  | phase => phase

/-- What becomes of a lane that was started for slot `i`. -/
inductive LaneFate where
  | started (i : LaneIndex)
  | installed (i : LaneIndex)
  /-- Another lane was installed first. -/
  | beaten (i : LaneIndex)
  /-- Its submission has halted it and lets it go. -/
  | released (i : LaneIndex)
  deriving DecidableEq, Repr

/-- One access by one party. -/
inductive RaceAct (V : Type) where
  | act (a : Act V)
  /-- The worker acts of a lane that submission `t` started and that is in no slot. -/
  | work (t : Ticket) (a : LaneAct Parcel V)

/-- Whether it is an access of submission `t`. -/
def RaceAct.advances {V : Type} (t : Ticket) : RaceAct V → Bool
  | .act (.advance u) => u == t
  | _ => false

/-- A world with the lanes that were let go, by the tickets of their submissions. -/
structure Race (V : Type) where
  world : World V
  released : Ticket → Option (Lane Parcel)
  log : List (Ticket × LaneFate)
  /-- What the workers of lanes did that are in no slot. -/
  labour : List (Ticket × LaneNews Parcel)

namespace Race

variable {V : Type}

def fresh (d : Dispatcher Parcel) (counter : KeyCounter) : Race V :=
  ⟨.fresh d counter, fun _ => none, [], []⟩

/-- The lane that a submission has in hand. -/
def held? (r : Race V) (t : Ticket) : Option (Lane Parcel) :=
  r.world.submissions[t]?.bind fun s => s.phase.own?

/-- The lane that a submission started, if it is in no slot. -/
def spare? (r : Race V) (t : Ticket) : Option (Lane Parcel) := (r.held? t).or (r.released t)

def setSpare (r : Race V) (t : Ticket) (l : Lane Parcel) : Race V :=
  match r.held? t with
  | some _ =>
    { r with
      world.submissions := r.world.submissions.modify t fun s => s.on (s.phase.setOwn l) }
  | none => { r with released := fun u => if u = t then some l else r.released u }

/-- An access of a submission took it from one phase to another and made `world` of the world. -/
def follow (r : Race V) (t : Ticket) (world : World V) :
    SubmissionPhase Parcel → SubmissionPhase Parcel → Race V
  | .starting _ i, .installing .. => { r with world, log := r.log ++ [(t, .started i)] }
  | .installing _ i _, .rechecking .. => { r with world, log := r.log ++ [(t, .installed i)] }
  | .installing _ i _, .yielding .. => { r with world, log := r.log ++ [(t, .beaten i)] }
  | .yielding _ i own _, .rechecking .. =>
    { r with
      world
      released := fun u => if u = t then some own else r.released u
      log := r.log ++ [(t, .released i)] }
  | _, _ => { r with world }

/-- The worker of a lane acts that is in no slot. -/
def work (r : Race V) (t : Ticket) (a : LaneAct Parcel V) : Option (Race V) := do
  let l ← r.spare? t
  if a.byWorker then
    let v ← (⟨l, [], []⟩ : LaneWorld Parcel).step a
    return { r.setSpare t v.lane with labour := r.labour ++ v.log.map fun news => (t, news) }
  else none

/-- One access; `none` if it is not possible now. -/
def step (r : Race V) : RaceAct V → Option (Race V)
  | .act (.advance t) => do
    let s ← r.world.submissions[t]?
    let world ← r.world.advance t
    let s' ← world.submissions[t]?
    return r.follow t world s.phase s'.phase
  | .act a => do
    let world ← r.world.step a
    return { r with world }
  | .work t a => r.work t a

/-- A run: one access after another. -/
def run (r : Race V) (xs : List (RaceAct V)) : Option (Race V) := xs.foldlM step r

@[simp] theorem run_nil (r : Race V) : r.run [] = some r := rfl

@[simp] theorem run_cons (r : Race V) (x : RaceAct V) (xs : List (RaceAct V)) :
    r.run (x :: xs) = (r.step x).bind (Race.run · xs) := rfl

/-! ### Views of the log -/

/-- What became of the lane of one submission. -/
abbrev story (log : List (Ticket × LaneFate)) (t : Ticket) : List LaneFate :=
  log.filterMap fun (u, fate) => if u = t then some fate else none

/-- The submissions that started a lane for a slot. -/
abbrev starters (log : List (Ticket × LaneFate)) (i : LaneIndex) : List Ticket :=
  log.filterMap fun (t, fate) => if fate = .started i then some t else none

/-- The submissions whose lane was installed in a slot. -/
abbrev installers (log : List (Ticket × LaneFate)) (i : LaneIndex) : List Ticket :=
  log.filterMap fun (t, fate) => if fate = .installed i then some t else none

/-- What the worker of a submission's lane did while the lane was in no slot. -/
abbrev labourOf (labour : List (Ticket × LaneNews Parcel)) (t : Ticket) : List (LaneNews Parcel) :=
  labour.filterMap fun (u, news) => if u = t then some news else none

end Race

end OrderedLanes
