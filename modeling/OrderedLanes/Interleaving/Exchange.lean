import OrderedLanes.Completion

/-!
A handle and its completer, access by access. The caller polls, tries, waits or lets
the handle go; the completer fills the slot, notifies a caller that blocks on it, and
calls the waker found there. One access of the slot is one act, and the acts of the
two sides come in any order.
-/

namespace OrderedLanes

/-- The write side of a handle. A drop is the same whether or not its thread unwinds. -/
inductive Completer where
  /-- It holds the slot, and fills it when it is used or dropped. -/
  | armed
  /-- The slot is filled; a caller that blocks on it is notified next. -/
  | notifying (dropped : Bool) (waker : Option Waker)
  /-- The waker found in the slot is called next. -/
  | waking (dropped : Bool) (waker : Waker)
  /-- It was used and holds no slot any more; it is dropped next, by a return or by a panic. -/
  | used (panic : Option Payload)
  | gone (panic : Option Payload)
  deriving DecidableEq, Repr

/-- The clock tells nanoseconds, as far as 63 bits count the seconds. -/
def clockEnd : Nat := 0x8000000000000000 * 1_000_000_000

/-- The instant at which a wait is up that begins at `now`, if the clock can tell it. -/
def deadline? (now timeout : Nat) : Option Nat :=
  if now + timeout < clockEnd then some (now + timeout) else none

/-- The longest time that a caller can name: 64 bits count its seconds. -/
def longestTimeout : Nat := 0x10000000000000000 * 1_000_000_000 - 1

/-- How a caller stands that waits for the outcome. -/
inductive Wait where
  /-- It looks at the slot next. -/
  | awake
  /-- It blocks until it is notified. -/
  | asleep
  /-- Its time is up; it looks at the slot once more. -/
  | late
  deriving DecidableEq, Repr

/-- The read side of a handle. -/
inductive Caller where
  | holding
  | waiting (timed : Bool) (wait : Wait)
  /-- The handle is used up. -/
  | gone
  deriving DecidableEq, Repr

/-- What the completer does once the waker was called. -/
def Completer.leave (dropped : Bool) (panic : Option Payload) : Completer :=
  if dropped then .gone panic else .used panic

/-- A caller that blocks looks again. -/
def Caller.notified : Caller → Caller
  | .waiting timed .asleep => .waiting timed .awake
  | c => c

/-- What the two sides see. -/
inductive Sighting (V : Type) where
  /-- The completer fills the slot. -/
  | filled (outcome : Outcome V)
  | woken (waker : Waker)
  | polled (answer : Poll V)
  /-- An attempt to join; without an outcome it gives the handle back. -/
  | tried (outcome : Option (Outcome V))
  /-- A join within a time; without an outcome it gives the handle back. -/
  | waited (outcome : Option (Outcome V))
  /-- A join within a time of which the clock cannot tell the end: it panics. -/
  | overflowed
  | joined (outcome : Outcome V)
  | finished (answer : Bool)

/-- The outcome that a call of the caller gets. -/
def Sighting.outcome? {V : Type} : Sighting V → Option (Outcome V)
  | .polled (.ready outcome) => some outcome
  | .tried outcome | .waited outcome => outcome
  | .joined outcome => some outcome
  | _ => none

/-- Whether it is the end of a call that asks for the outcome. -/
def Sighting.asks {V : Type} : Sighting V → Bool
  | .polled _ | .tried _ | .waited _ | .overflowed | .joined _ => true
  | _ => false

/-- A handle with its completer, and what was seen of them so far. -/
structure Exchange (V : Type) where
  slot : Slot V
  completer : Completer
  caller : Caller
  sightings : List (Sighting V)

namespace Exchange

variable {V : Type}

/-- An act of the completer or of the caller. -/
inductive Act (V : Type) where
  | complete (outcome : Outcome V)
  | dropCompleter
  | notify
  | wake
  | poll (waker : Waker)
  | tryJoin
  /-- Begin to wait for the outcome. -/
  | join
  /-- Begin to wait for the outcome, for some time at most. -/
  | joinWithin (now timeout : Nat)
  /-- A caller that waits looks at the slot. -/
  | look
  /-- The time of a caller that waits is up. -/
  | expire
  | isFinished
  | dropHandle

def fresh : Exchange V := ⟨.fresh, .armed, .holding, []⟩

def note (x : Exchange V) (s : Sighting V) : Exchange V :=
  { x with sightings := x.sightings ++ [s] }

/-- The completer fills the slot. -/
def fill (x : Exchange V) (outcome : Outcome V) (dropped : Bool) : Exchange V :=
  { x with
    slot := (x.slot.fulfil outcome).2
    completer := .notifying dropped (x.slot.fulfil outcome).1 }.note (.filled outcome)

/-- The caller asks for the outcome and gets it, or keeps its handle. -/
def ask (x : Exchange V) (seen : Option (Outcome V) → Sighting V) : Exchange V :=
  let (outcome, slot) := x.slot.take
  { x with slot, caller := if outcome.isSome then .gone else .holding }.note (seen outcome)

/-- A caller that waits looks at the slot; it goes on waiting while there is time. -/
def look (x : Exchange V) (timed : Bool) : Wait → Option (Exchange V)
  | .asleep => none
  | .late => some (x.ask .waited)
  | .awake =>
    match x.slot.take with
    | (some outcome, slot) =>
      some ({ x with slot, caller := .gone }.note
        (if timed then .waited (some outcome) else .joined outcome))
    | (none, _) => some { x with caller := .waiting timed .asleep }

/-- One act; `none` if it is not possible now. -/
def step (x : Exchange V) : Act V → Option (Exchange V)
  | .complete outcome =>
    match x.completer with
    | .armed => some (x.fill outcome false)
    | _ => none
  | .dropCompleter =>
    match x.completer with
    | .armed => some (x.fill (.error .cancelled) true)
    | .used panic => some { x with completer := .gone panic }
    | _ => none
  | .notify =>
    match x.completer with
    | .notifying dropped waker => some { x with
        completer := waker.elim (.leave dropped none) (.waking dropped)
        caller := x.caller.notified }
    | _ => none
  | .wake =>
    match x.completer with
    | .waking dropped waker =>
      some ({ x with completer := .leave dropped waker.panic? }.note (.woken waker))
    | _ => none
  | .poll waker =>
    match x.caller with
    | .holding =>
      let (answer, slot) := x.slot.poll waker
      some ({ x with slot }.note (.polled answer))
    | _ => none
  | .tryJoin =>
    match x.caller with
    | .holding => some (x.ask .tried)
    | _ => none
  | .join =>
    match x.caller with
    | .holding => some { x with caller := .waiting false .awake }
    | _ => none
  | .joinWithin now timeout =>
    match x.caller with
    | .holding =>
      -- the deadline comes first: without one the slot is not looked at, and the handle is dropped
      if (deadline? now timeout).isSome then some { x with caller := .waiting true .awake }
      else some ({ x with caller := .gone }.note .overflowed)
    | _ => none
  | .look =>
    match x.caller with
    | .waiting timed wait => x.look timed wait
    | _ => none
  | .expire =>
    match x.caller with
    | .waiting true .asleep => some { x with caller := .waiting true .late }
    | _ => none
  | .isFinished =>
    match x.caller with
    | .holding => some (x.note (.finished x.slot.isFinished))
    | _ => none
  | .dropHandle =>
    match x.caller with
    | .holding => some { x with caller := .gone }
    | _ => none

/-- A run: one act after another. -/
def run (x : Exchange V) (acts : List (Act V)) : Option (Exchange V) := acts.foldlM step x

@[simp] theorem run_nil (x : Exchange V) : x.run [] = some x := rfl

@[simp] theorem run_cons (x : Exchange V) (a : Act V) (acts : List (Act V)) :
    x.run (a :: acts) = (x.step a).bind (Exchange.run · acts) := rfl

/-! ### Views of the sightings -/

/-- What the slot was filled with, in order. -/
abbrev fills (seen : List (Sighting V)) : List (Outcome V) :=
  seen.filterMap fun
    | .filled outcome => some outcome
    | _ => none

/-- The outcomes that callers got, in order. -/
abbrev deliveries (seen : List (Sighting V)) : List (Outcome V) := seen.filterMap Sighting.outcome?

end Exchange

end OrderedLanes
