import OrderedLanes.Proofs.StampTenures

/-!
A dispatcher lends its allocator out, so that callers can also resolve keys, draw
stamps, forget all assignments or look into them past the dispatcher. A run with
such calls is a list of acts and of calls in any order. Whoever calls it, the
allocator holds what a list says and serves the lanes that there are.
-/

namespace OrderedLanes

/-- An act, or a call of the allocator by a caller that has borrowed it. -/
inductive Access (V : Type) where
  | act (a : Act V)
  | direct (c : Call)

namespace World

variable {V : Type} {v w w' : World V} {xs : List (Access V)}

/-- The allocator is called directly. -/
def ask (w : World V) (c : Call) : World V :=
  { w with
    dispatcher := { w.dispatcher with allocator := (w.dispatcher.allocator.call c).value.2 } }

def access (w : World V) : Access V → Option (World V)
  | .act a => w.step a
  | .direct c => some (w.ask c)

/-- A run: one access after another. -/
def accesses (w : World V) (xs : List (Access V)) : Option (World V) := xs.foldlM access w

@[simp] theorem accesses_nil (w : World V) : w.accesses [] = some w := rfl

@[simp] theorem accesses_cons (w : World V) (x : Access V) (xs : List (Access V)) :
    w.accesses (x :: xs) = (w.access x).bind (World.accesses · xs) := rfl

theorem accesses_append (w : World V) (xs more : List (Access V)) :
    w.accesses (xs ++ more) = (w.accesses xs).bind (World.accesses · more) := by
  induction xs generalizing w with
  | nil => rfl
  | cons x xs ih => simp [ih, Option.bind_assoc]

/-- Without direct calls it is a run of acts. -/
theorem accesses_acts (w : World V) (acts : List (Act V)) :
    w.accesses (acts.map .act) = w.run acts := by
  induction acts generalizing w with
  | nil => rfl
  | cons a acts ih =>
    rw [List.map_cons, accesses_cons, run_cons]
    exact congrArg _ (funext ih)

/-- What holds at the start of a run and is kept by each of its accesses holds at its end. -/
theorem accesses_induction {P : World V → Prop} (start : P v)
    (keep : ∀ {w x w'}, x ∈ xs → P w → w.access x = some w' → P w')
    (run : v.accesses xs = some w) : P w := by
  induction xs generalizing v with
  | nil =>
    obtain rfl := Option.some.inj run
    exact start
  | cons x xs ih =>
    rw [accesses_cons, Option.bind_eq_some_iff] at run
    obtain ⟨u, first, rest⟩ := run
    exact ih (keep List.mem_cons_self start first)
      (fun there => keep (List.mem_cons_of_mem x there)) rest

theorem laneCount_of_accesses (run : v.accesses xs = some w) :
    w.dispatcher.laneCount = v.dispatcher.laneCount := by
  refine accesses_induction (P := fun w => w.dispatcher.laneCount = v.dispatcher.laneCount) rfl
    (fun {w x w'} there same access => ?_) run
  cases x with
  | act a =>
    have e := effect_of_step access
    exact e.laneCount.trans same
  | direct c =>
    obtain rfl := Option.some.inj access
    exact same

/-! ### The allocator -/

theorem mirrored_calls {d d' : Dispatcher Parcel} (h : Mirrored d) (cs : List Call)
    (allocator : d'.allocator = (d.allocator.calls cs).value.2)
    (lanes : d'.laneCount = d.laneCount) : Mirrored d' := by
  obtain ⟨r, mirrors, serves⟩ := h
  refine ⟨_, allocator ▸ (mirrors.calls cs).mirrors, ?_⟩
  rw [Roll.lanes_calls, serves, lanes]

theorem Effect.mirrored (e : Effect w w') (h : Mirrored w.dispatcher) : Mirrored w'.dispatcher := by
  obtain ⟨cs, allocator⟩ := e.allocator_calls
  exact mirrored_calls h cs allocator e.laneCount

theorem mirrored_ask (h : Mirrored w.dispatcher) (c : Call) : Mirrored (w.ask c).dispatcher :=
  mirrored_calls h [c] rfl rfl

/-- Every key is resolved to a lane that there is. -/
theorem Mirrored.resolve_lt {d : Dispatcher Parcel} (h : Mirrored d) (key : Key) :
    (d.allocator.resolve key).value.1 < d.laneCount := by
  obtain ⟨r, mirrors, serves⟩ := h
  exact serves ▸ mirrors.lane_lt key

end World

end OrderedLanes
