/-!
Grouping keys. Tasks submitted under one key run in submission order; a task
that needs no order draws a key of its own from the upper half of the key
space, which callers leave alone. The draws come from a wrapping 32-bit counter
with its top bit forced to one.
-/

namespace OrderedLanes

/-- A caller's name for an ordering domain. -/
abbrev Key := UInt32

/-- Position of a lane among the lanes of one dispatcher. -/
abbrev LaneIndex := Nat

/-- The place of a submission among the stamped submissions of its key. -/
abbrev Stamp := UInt64

/-- First key of the range that drawn keys come from. -/
def reservedBase : Key := 0x80000000

/-- The key drawn when the counter stands at `n`. -/
def reservedKey (n : UInt32) : Key := reservedBase ||| (n &&& ~~~reservedBase)

/-- The source of drawn keys. -/
structure KeyCounter where
  next : UInt32
  deriving DecidableEq, Repr, Inhabited

/-- Draw one key; the counter wraps. -/
def KeyCounter.draw (c : KeyCounter) : Key × KeyCounter :=
  (reservedKey c.next, ⟨c.next + 1⟩)

@[simp] theorem KeyCounter.draw_fst (c : KeyCounter) : c.draw.1 = reservedKey c.next := rfl
@[simp] theorem KeyCounter.draw_snd (c : KeyCounter) : c.draw.2.next = c.next + 1 := rfl

/-- Draw `n` keys, oldest first. -/
def KeyCounter.drawMany (c : KeyCounter) : Nat → List Key × KeyCounter
  | 0 => ([], c)
  | n + 1 =>
    let (keys, c') := c.draw.2.drawMany n
    (c.draw.1 :: keys, c')

end OrderedLanes
