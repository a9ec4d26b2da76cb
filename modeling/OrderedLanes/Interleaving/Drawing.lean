import OrderedLanes.Allocation.Allocator

/-!
Stamps that several callers draw at a time. A draw is two accesses of the counters at
most: the first advances the counter of its key if there is one; where there is none, the
second makes one unless somebody else did so in between, and advances it. Keys are
resolved and the allocator is cleared at any point between them.
-/

namespace OrderedLanes

/-- Advance the counter of `key`, if it has one. -/
def Stamps.bump? (s : Stamps) (key : Key) : Option (Stamp × Stamps) :=
  s.counters[key]?.map fun stamp => (stamp, ⟨s.counters.insert key (stamp + 1)⟩)

/-- Where there is a counter, to advance it is to draw. -/
theorem Stamps.draw_of_bump? {s : Stamps} {key : Key} {x : Stamp × Stamps}
    (found : s.bump? key = some x) : s.draw key = x := by
  obtain ⟨stamp, there, rfl⟩ := Option.map_eq_some_iff.1 found
  simp [draw, peek, there]

inductive DrawPhase where
  /-- It looks for a counter next. -/
  | looking
  /-- It found none, and goes for one that is made if it is still missing. -/
  | missing
  | drawn (stamp : Stamp)
  deriving DecidableEq, Repr

structure Draw where
  key : Key
  phase : DrawPhase
  deriving DecidableEq, Repr

/-- The stamp that a draw of `key` got. -/
def Draw.stampOf? (key : Key) (d : Draw) : Option Stamp :=
  match d.phase with
  | .drawn stamp => if d.key = key then some stamp else none
  | _ => none

/-- An allocator, and the draws that were begun. -/
structure Drawing where
  allocator : Allocator
  draws : List Draw

namespace Drawing

inductive Act where
  | begin (key : Key)
  /-- The next access of a draw. -/
  | advance (n : Nat)
  | resolve (key : Key)
  | clear

/-- A draw has got its stamp. -/
def finish (d : Drawing) (n : Nat) (key : Key) (x : Stamp × Stamps) : Drawing where
  allocator := { d.allocator with stamps := x.2 }
  draws := d.draws.set n ⟨key, .drawn x.1⟩

/-- One act; `none` if it is not possible now. -/
def step (d : Drawing) : Act → Option Drawing
  | .begin key => some { d with draws := d.draws ++ [⟨key, .looking⟩] }
  | .advance n =>
    match d.draws[n]? with
    | some ⟨key, .looking⟩ =>
      match d.allocator.stamps.bump? key with
      | some x => some (d.finish n key x)
      | none => some { d with draws := d.draws.set n ⟨key, .missing⟩ }
    | some ⟨key, .missing⟩ => some (d.finish n key (d.allocator.stamps.draw key))
    | _ => none
  | .resolve key => some { d with allocator := (d.allocator.resolve key).value.2 }
  | .clear => some { d with allocator := d.allocator.clear }

def run (d : Drawing) (acts : List Act) : Option Drawing := acts.foldlM step d

@[simp] theorem run_nil (d : Drawing) : d.run [] = some d := rfl

@[simp] theorem run_cons (d : Drawing) (a : Act) (acts : List Act) :
    d.run (a :: acts) = (d.step a).bind (Drawing.run · acts) := rfl

/-- The stamps drawn for `key`, by the order in which their draws were begun. -/
def stamps (d : Drawing) (key : Key) : List Stamp := d.draws.filterMap (Draw.stampOf? key)

end Drawing

end OrderedLanes
