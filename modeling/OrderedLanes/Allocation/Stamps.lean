import Std.Data.HashMap
import OrderedLanes.Key

/-!
Stamps for the submissions of each key: a counter per key that starts at 1. A
forgotten key starts again at 1.
-/

namespace OrderedLanes

structure Stamps where
  /-- The stamp that each counted key draws next. -/
  counters : Std.HashMap Key Stamp
  deriving Inhabited

namespace Stamps

def empty : Stamps := ⟨{}⟩

/-- The stamp that `key` draws next. -/
def peek (s : Stamps) (key : Key) : Stamp := s.counters[key]?.getD 1

/-- Draw the next stamp of `key`; the counter wraps. -/
def draw (s : Stamps) (key : Key) : Stamp × Stamps :=
  (s.peek key, ⟨s.counters.insert key (s.peek key + 1)⟩)

/-- Draw `n` stamps of `key`, oldest first. -/
def drawMany (s : Stamps) (key : Key) : Nat → List Stamp × Stamps
  | 0 => ([], s)
  | n + 1 =>
    let (stamp, s) := s.draw key
    let (stamps, s) := s.drawMany key n
    (stamp :: stamps, s)

/-- Forget the counter of `key`. -/
def forget (s : Stamps) (key : Key) : Stamps := ⟨s.counters.erase key⟩

/-- Forget every counter. -/
def clear (_ : Stamps) : Stamps := empty

@[simp] theorem peek_empty (key : Key) : empty.peek key = 1 := by simp [peek, empty]

@[simp] theorem draw_fst (s : Stamps) (key : Key) : (s.draw key).1 = s.peek key := rfl

@[simp] theorem peek_draw (s : Stamps) (key other : Key) :
    (s.draw key).2.peek other = if key = other then s.peek key + 1 else s.peek other := by
  by_cases h : key = other <;> simp [draw, peek, Std.HashMap.getElem?_insert, h]

@[simp] theorem peek_forget (s : Stamps) (key other : Key) :
    (s.forget key).peek other = if key = other then 1 else s.peek other := by
  by_cases h : key = other <;> simp [forget, peek, Std.HashMap.getElem?_erase, h]

@[simp] theorem clear_eq (s : Stamps) : s.clear = empty := rfl

end Stamps

end OrderedLanes
