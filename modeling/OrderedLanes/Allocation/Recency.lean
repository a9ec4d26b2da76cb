import Std.Data.HashMap
import OrderedLanes.Key

/-!
A map from keys to lanes that remembers the order of last use. Entries sit in
slots and are linked from the most to the least recently used one; a table finds
the slot of a key, and slots that fall empty are kept on a stack for reuse.
Every operation touches a bounded number of slots.
-/

namespace OrderedLanes

/-- Position in the slot array. -/
abbrev SlotId := Nat

/-- One linked entry: `newer` was used next after it, `older` last before it. -/
structure Entry where
  key : Key
  lane : LaneIndex
  newer : Option SlotId
  older : Option SlotId
  deriving DecidableEq, Repr, Inhabited

structure Recency where
  slots : Array (Option Entry)
  /-- Empty slots, the next one to reuse first. -/
  free : List SlotId
  index : Std.HashMap Key SlotId
  newest : Option SlotId
  oldest : Option SlotId
  deriving Inhabited

namespace Recency

def empty : Recency where
  slots := #[]
  free := []
  index := {}
  newest := none
  oldest := none

/-- Number of entries. -/
def size (r : Recency) : Nat := r.index.size

/-- The entry in a slot. -/
def slot? (r : Recency) (id : SlotId) : Option Entry := (r.slots[id]?).join

/-- Change the entry in a slot; an empty slot stays empty. -/
def modify (r : Recency) (id : SlotId) (change : Entry → Entry) : Recency :=
  { r with slots := r.slots.modify id (Option.map change) }

/-- Make `older` follow the entry at `newer`, or stand at the front if there is none. -/
def linkOlder (r : Recency) (newer older : Option SlotId) : Recency :=
  match newer with
  | some id => r.modify id fun e => { e with older := older }
  | none => { r with newest := older }

/-- Make `newer` precede the entry at `older`, or stand at the back if there is none. -/
def linkNewer (r : Recency) (older newer : Option SlotId) : Recency :=
  match older with
  | some id => r.modify id fun e => { e with newer := newer }
  | none => { r with oldest := newer }

/-- Take a slot out of the order; its entry stays in the slot. -/
def unlink (r : Recency) (id : SlotId) : Recency :=
  match r.slot? id with
  | none => r
  | some e =>
    ((r.linkOlder e.newer e.older).linkNewer e.older e.newer).modify id
      fun e => { e with newer := none, older := none }

/-- Put an unlinked slot at the front of the order. -/
def pushNewest (r : Recency) (id : SlotId) : Recency :=
  let former := r.newest
  let r := r.modify id fun e => { e with newer := none, older := former }
  { r.linkNewer former (some id) with newest := some id }

/-- Move a slot to the front of the order. -/
def moveToFront (r : Recency) (id : SlotId) : Recency := (r.unlink id).pushNewest id

/-- The lane of a key; the order stays. -/
def peek (r : Recency) (key : Key) : Option LaneIndex :=
  r.index[key]?.bind fun id => (r.slot? id).map Entry.lane

/-- The lane of a key, which becomes the most recently used one. -/
def touch (r : Recency) (key : Key) : Option LaneIndex × Recency :=
  match r.index[key]? with
  | none => (none, r)
  | some id =>
    let r := r.moveToFront id
    ((r.slot? id).map Entry.lane, r)

/-- Store an entry in a free slot, or in a new one if none is free. -/
def store (r : Recency) (e : Entry) : SlotId × Recency :=
  match r.free with
  | id :: free => (id, { r with slots := r.slots.setIfInBounds id (some e), free })
  | [] => (r.slots.size, { r with slots := r.slots.push (some e) })

/--
Make `key` the most recently used one, with the given lane. Answers the lane it
had before, if it was there.
-/
def insert (r : Recency) (key : Key) (lane : LaneIndex) : Option LaneIndex × Recency :=
  match r.index[key]? with
  | some id =>
    ((r.slot? id).map Entry.lane,
      (r.modify id fun e => { e with lane := lane }).moveToFront id)
  | none =>
    let (id, r) := r.store ⟨key, lane, none, none⟩
    (none, { r with index := r.index.insert key id }.pushNewest id)

/-- Remove the least recently used entry. -/
def popOldest (r : Recency) : Option (Key × LaneIndex) × Recency :=
  match r.oldest with
  | none => (none, r)
  | some id =>
    let r := r.unlink id
    match r.slot? id with
    | none => (none, r)
    | some e =>
      (some (e.key, e.lane),
        { r with
          slots := r.slots.setIfInBounds id none
          free := id :: r.free
          index := r.index.erase e.key })

/-- Remove every entry, the slots included. -/
def clear (_ : Recency) : Recency := empty

/-- Follow the links to older entries from `id`, over `fuel` entries at most. -/
def follow (r : Recency) : Nat → Option SlotId → List (Key × LaneIndex)
  | 0, _ => []
  | _, none => []
  | fuel + 1, some id =>
    match r.slot? id with
    | none => []
    | some e => (e.key, e.lane) :: r.follow fuel e.older

/-- The entries from the most to the least recently used one. -/
def toList (r : Recency) : List (Key × LaneIndex) := r.follow r.slots.size r.newest

@[simp] theorem toList_empty : empty.toList = [] := rfl
@[simp] theorem size_empty : empty.size = 0 := by simp [size, empty]
@[simp] theorem peek_empty (key : Key) : empty.peek key = none := by simp [peek, empty]
@[simp] theorem clear_eq (r : Recency) : r.clear = empty := rfl

end Recency

end OrderedLanes
