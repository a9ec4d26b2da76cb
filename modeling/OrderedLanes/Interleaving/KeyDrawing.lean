import OrderedLanes.Interleaving.World

/-!
Callers that draw keys for themselves, among the callers of a dispatcher. They all draw from
one counter. The only access of a draw is to the counter, which hands out the number that it
stands at and goes on to the next one. The caller makes a key of its number by itself, so
draws may end in another order than that of their numbers. A record is kept of who was given
a number, oldest first.
-/

namespace OrderedLanes

/-- Hand out the number that the counter stands at; the counter goes on to the next, and wraps. -/
def KeyCounter.fetch (c : KeyCounter) : UInt32 × KeyCounter := (c.next, ⟨c.next + 1⟩)

/-- To draw a key is to fetch a number and to make a key of it. -/
theorem KeyCounter.draw_eq_fetch (c : KeyCounter) :
    c.draw = (reservedKey c.fetch.1, c.fetch.2) := rfl

/-- Where a caller stands that draws a key for itself. -/
inductive KeyDraw where
  | begun
  /-- It was given a number, and makes a key of it next. -/
  | numbered (number : UInt32)
  | drawn (key : Key)
  deriving DecidableEq, Repr

/-- Who was given a number. -/
inductive Drawer where
  /-- A submission that was begun without a key. -/
  | submission (t : Ticket)
  /-- A caller that draws a key for itself. -/
  | caller (n : Nat)
  deriving DecidableEq, Repr

/-- One access by one party. -/
inductive DrawAct (V : Type) where
  | act (a : Act V)
  /-- A caller begins to draw a key. -/
  | begin
  /-- What the `n`-th caller that draws a key does next. -/
  | advance (n : Nat)

/-- A world, and the callers that draw keys for themselves. -/
structure KeyDrawing (V : Type) where
  world : World V
  draws : List KeyDraw
  order : List Drawer

namespace KeyDrawing

variable {V : Type}

/-- Nothing has happened, and the counter stands anywhere. -/
def fresh (d : Dispatcher Parcel) (c : KeyCounter) : KeyDrawing V := ⟨.fresh d c, [], []⟩

/-- The submission that an act begins without a key. -/
def unordered? (w : World V) : Act V → Option Drawer
  | .submitUnordered => some (.submission w.submissions.length)
  | _ => none

/-- One access; `none` if it is not possible now. -/
def step (k : KeyDrawing V) : DrawAct V → Option (KeyDrawing V)
  | .act a => do
    let world ← k.world.step a
    return { k with world, order := k.order ++ (unordered? k.world a).toList }
  | .begin => some { k with draws := k.draws ++ [.begun] }
  | .advance n =>
    match k.draws[n]? with
    | some .begun =>
      let (number, counter) := k.world.counter.fetch
      some {
        world := { k.world with counter }
        draws := k.draws.set n (.numbered number)
        order := k.order ++ [.caller n] }
    | some (.numbered number) =>
      some { k with draws := k.draws.set n (.drawn (reservedKey number)) }
    | _ => none

/-- A run: one access after another. -/
def run (k : KeyDrawing V) (xs : List (DrawAct V)) : Option (KeyDrawing V) := xs.foldlM step k

@[simp] theorem run_nil (k : KeyDrawing V) : k.run [] = some k := rfl

@[simp] theorem run_cons (k : KeyDrawing V) (x : DrawAct V) (xs : List (DrawAct V)) :
    k.run (x :: xs) = (k.step x).bind (KeyDrawing.run · xs) := rfl

/-- The key that somebody has got. -/
def got? (k : KeyDrawing V) : Drawer → Option Key
  | .submission t => k.world.submissions[t]?.map Submission.key
  | .caller n =>
    match k.draws[n]? with
    | some (.drawn key) => some key
    | _ => none

/-- The key that was made of the `i`-th number, if it was made yet. -/
def key? (k : KeyDrawing V) (i : Nat) : Option Key := k.order[i]?.bind k.got?

end KeyDrawing

end OrderedLanes
