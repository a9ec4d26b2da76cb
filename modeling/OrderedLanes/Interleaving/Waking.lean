import OrderedLanes.Interleaving.Exchange

/-!
Wakers that are recognised. A poll that comes too early need not replace the waker of
an earlier one: where that one is known to wake the same task, it stays. Whether it is
known is a test of the two wakers, and `willWake` stands for any such test.
-/

namespace OrderedLanes

/-- The waker that waits once a poll has come with one: the former, if it is known to do. -/
def Waker.kept (willWake : Waker → Waker → Bool) : Option Waker → Waker → Waker
  | none, waker => waker
  | some former, waker => if willWake former waker then former else waker

/-- Hand out the outcome, or see to it that a waker is left which wakes this caller. -/
def Slot.pollWith {V : Type} (willWake : Waker → Waker → Bool) (s : Slot V) (waker : Waker) :
    Poll V × Slot V :=
  match s with
  | .ready outcome => (.ready outcome, .taken)
  | .pending former => (.pending, .pending (some (Waker.kept willWake former waker)))
  | .taken => (.misuse, .taken)

/-- A test that recognises nothing but the waker itself replaces a waker by its equal. -/
theorem Slot.pollWith_eq_poll {V : Type} {willWake : Waker → Waker → Bool}
    (strict : ∀ w w', willWake w w' = true → w = w') (s : Slot V) (waker : Waker) :
    s.pollWith willWake waker = s.poll waker := by
  cases s with
  | pending former =>
    cases former with
    | none => rfl
    | some former =>
      by_cases same : willWake former waker = true
      · simp [pollWith, poll, Waker.kept, strict _ _ same]
      · simp [pollWith, poll, Waker.kept, same]
  | _ => rfl

/-- The completer holds no slot any more, and called the waker if there was one. -/
def Completer.isThrough : Completer → Bool
  | .used _ | .gone _ => true
  | _ => false

namespace Exchange

variable {V : Type}

/-- One act, where a poll may find that the waker of an earlier one will do. -/
def stepWith (willWake : Waker → Waker → Bool) (x : Exchange V) : Act V → Option (Exchange V)
  | .poll waker =>
    match x.caller with
    | .holding =>
      let (answer, slot) := x.slot.pollWith willWake waker
      some ({ x with slot }.note (.polled answer))
    | _ => none
  | a => x.step a

def runWith (willWake : Waker → Waker → Bool) (x : Exchange V) (acts : List (Act V)) :
    Option (Exchange V) :=
  acts.foldlM (stepWith willWake) x

@[simp] theorem runWith_nil (willWake : Waker → Waker → Bool) (x : Exchange V) :
    x.runWith willWake [] = some x := rfl

@[simp] theorem runWith_cons (willWake : Waker → Waker → Bool) (x : Exchange V) (a : Act V)
    (acts : List (Act V)) :
    x.runWith willWake (a :: acts) =
      (x.stepWith willWake a).bind (Exchange.runWith willWake · acts) := rfl

theorem stepWith_eq_step {willWake : Waker → Waker → Bool}
    (strict : ∀ w w', willWake w w' = true → w = w') (x : Exchange V) (a : Act V) :
    x.stepWith willWake a = x.step a := by
  cases a with
  | poll waker =>
    cases caller : x.caller <;> simp [stepWith, step, caller, Slot.pollWith_eq_poll strict]
  | _ => rfl

/-- The wakers that were called, in order. -/
abbrev woken (seen : List (Sighting V)) : List Waker :=
  seen.filterMap fun
    | .woken waker => some waker
    | _ => none

/-- The waker that a poll comes with. -/
def Act.waker? : Act V → Option Waker
  | .poll waker => some waker
  | _ => none

end Exchange

end OrderedLanes
