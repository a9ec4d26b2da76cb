import OrderedLanes.Interleaving.World

/-!
After the dispatcher. Dropping it stops it gracefully and lets its lanes go; their
workers finish what is queued by themselves. Where a worker is gone nobody takes the
queue back any more: it is dropped with its lane, one task after the other.
-/

namespace OrderedLanes

/-- Whether the act is a call of the dispatcher, or goes on with one. -/
def Act.calls {V : Type} : Act V → Bool
  | .submit .. | .submitUnordered | .stop _ | .drawStamp _ | .advance _ | .refuseThread ..
  | .advanceStop _ => true
  | _ => false

/-- What can happen once the dispatcher was dropped. -/
inductive LateAct (V : Type) where
  /-- An act of a worker, or of a caller that has a handle or a task that came back. -/
  | plain (a : Act V)
  /-- The first of the tasks that a worker has left behind is dropped. -/
  | expire (i : LaneIndex)

namespace World

variable {V : Type}

def expire (w : World V) (i : LaneIndex) : Option (World V) := do
  let l ← w.dispatcher.lane? i
  match l.isFinished, l.queue with
  | true, p :: queue =>
    return ({ w with dispatcher := w.dispatcher.setLane i { l with queue } }.discard p).2
  | _, _ => none

/-- One act after the dispatcher was dropped; `none` if it is not possible now. -/
def lateStep (w : World V) : LateAct V → Option (World V)
  | .plain a => if a.calls then none else w.step a
  | .expire i => w.expire i

def lateRun (w : World V) (acts : List (LateAct V)) : Option (World V) := acts.foldlM lateStep w

@[simp] theorem lateRun_nil (w : World V) : w.lateRun [] = some w := rfl

@[simp] theorem lateRun_cons (w : World V) (a : LateAct V) (acts : List (LateAct V)) :
    w.lateRun (a :: acts) = (w.lateStep a).bind (World.lateRun · acts) := rfl

end World

end OrderedLanes
