import Mathlib.Data.List.Induction
import OrderedLanes.Interleaving.Drawing
import OrderedLanes.Proofs.KeyRoll

/-!
The stamps of one key run 1, 2, 3, … until the allocator forgets the key. It forgets a key
that loses its lane, and all keys when it is cleared; nothing else touches the counter but
the draws themselves. Draws of several callers at a time get the stamps that as many draws
one after another get (`stamp_of_since`).
-/

namespace OrderedLanes

namespace Allocator

variable {a : Allocator} {r : Roll} {key : Key} {c : Call} {cs before after : List Call}

/-- The call makes the stamps of `key` start anew: it clears all, or the key loses its lane. -/
def Restarts (a : Allocator) (key : Key) (c : Call) : Prop :=
  c = .clear ∨
    (a.assignment key).isSome = true ∧ ((a.call c).value.2.assignment key).isSome = false

instance : Decidable (a.Restarts key c) := inferInstanceAs (Decidable (_ ∨ _))

end Allocator

namespace Roll

variable {r : Roll} {key : Key} {c : Call}

/-- The same of the list: the call clears it, or the key is not listed any more. -/
def Drops (r : Roll) (key : Key) (c : Call) : Prop :=
  c = .clear ∨ key ∈ r.pairs.map Prod.fst ∧ key ∉ (r.call c).value.2.pairs.map Prod.fst

instance : Decidable (r.Drops key c) := inferInstanceAs (Decidable (_ ∨ _))

theorem Fit.due_of_drops (h : r.Fit) (drops : r.Drops key c) :
    (r.call c).value.2.due key = 1 := by
  obtain rfl | ⟨listed, gone⟩ := drops
  · rfl
  · cases c with
    | resolve other =>
      change key ∉ (r.resolve other).value.2.pairs.map Prod.fst at gone
      change (r.resolve other).value.2.due key = 1
      cases h.resolving other with
      | hit lane there result =>
        rw [result] at gone
        exact absurd (((perm_toFront h.keys there).map Prod.fst).mem_iff.1 listed) gone
      | room absent room result =>
        rw [result] at gone
        exact absurd (List.mem_cons_of_mem _ listed) gone
      | full front last split absent full result =>
        rw [result] at gone ⊢
        rw [split, List.map_append, List.mem_append] at listed
        rcases listed with stays | falls
        · exact absurd (List.mem_cons_of_mem _ stays) gone
        · exact if_pos (List.mem_singleton.1 falls).symm
    | clear => rfl
    | _ => exact absurd listed gone

theorem Fit.due_of_kept (h : r.Fit) (kept : ¬ r.Drops key c) :
    (r.call c).value.2.due key = if c = .nextStamp key then r.due key + 1 else r.due key := by
  cases c with
  | resolve other =>
    change (r.resolve other).value.2.due key = r.due key
    cases h.resolving other with
    | hit lane there result => rw [result]; rfl
    | room absent room result => rw [result]; rfl
    | full front last split absent full result =>
      have moved : (r.call (.resolve other)).value.2 = (r.resolve other).value.2 := rfl
      rw [Drops, moved, result] at kept
      rw [result]
      refine if_neg ?_
      rintro rfl
      have listed : last.1 ∈ r.pairs.map Prod.fst := by simp [split]
      refine kept (.inr ⟨listed, fun still => ?_⟩)
      rcases List.mem_cons.1 still with same | before
      · exact absent ((show last.1 = other from same) ▸ listed)
      · have keys := h.keys
        rw [split, List.map_append, List.nodup_append] at keys
        exact keys.2.2 _ before _ (List.mem_singleton_self _) rfl
  | nextStamp other =>
    by_cases same : other = key
    · subst same
      simp [Roll.call]
    · simp [Roll.call, same]
  | clear => exact absurd (.inl rfl) kept
  | _ => rfl

end Roll

namespace Allocator

variable {a : Allocator} {r : Roll} {key : Key} {c : Call} {cs before after : List Call}

theorem Mirrors.isSome_assignment (h : a.Mirrors r) :
    (a.assignment key).isSome = true ↔ key ∈ r.pairs.map Prod.fst := by
  rw [h.assignment, Roll.isSome_lookup]

theorem Mirrors.restarts_iff (h : a.Mirrors r) : a.Restarts key c ↔ r.Drops key c := by
  rw [Restarts, Roll.Drops, h.isSome_assignment, ← Bool.not_eq_true,
    (h.call c).mirrors.isSome_assignment]

theorem Mirrors.peek_of_restarts (h : a.Mirrors r) (restarts : a.Restarts key c) :
    (a.call c).value.2.stamps.peek key = 1 := by
  rw [(h.call c).mirrors.stamps]
  exact h.fit.due_of_drops (h.restarts_iff.1 restarts)

theorem Mirrors.peek_of_kept (h : a.Mirrors r) (kept : ¬ a.Restarts key c) :
    (a.call c).value.2.stamps.peek key =
      if c = .nextStamp key then a.stamps.peek key + 1 else a.stamps.peek key := by
  rw [(h.call c).mirrors.stamps, h.stamps]
  exact h.fit.due_of_kept (mt h.restarts_iff.2 kept)

theorem not_restarts_nextStamp (a : Allocator) (key other : Key) :
    ¬ a.Restarts key (.nextStamp other) := by
  rintro (clears | ⟨assigned, lost⟩)
  · cases clears
  · exact absurd assigned (Bool.eq_false_iff.1 lost)

/-! ### One call after another -/

theorem calls_snoc (a : Allocator) (cs : List Call) (c : Call) :
    (a.calls (cs ++ [c])).value.2 = ((a.calls cs).value.2.call c).value.2 := calls_append a cs [c]

/-- The stamps of `key` started with the last call of `before`, or with the allocator. -/
structure Since (a : Allocator) (key : Key) (before after : List Call) : Prop where
  start : before = [] ∨
    ∃ past c, before = past ++ [c] ∧ (a.calls past).value.2.Restarts key c
  kept : ∀ past c rest, after = past ++ c :: rest →
    ¬ (a.calls (before ++ past)).value.2.Restarts key c

theorem exists_since (a : Allocator) (key : Key) (cs : List Call) :
    ∃ before after, cs = before ++ after ∧ a.Since key before after := by
  induction cs using List.reverseRecOn with
  | nil => exact ⟨[], [], rfl, .inl rfl, by simp⟩
  | append_singleton cs c ih =>
    by_cases restarts : (a.calls cs).value.2.Restarts key c
    · exact ⟨cs ++ [c], [], by simp, .inr ⟨cs, c, rfl, restarts⟩, by simp⟩
    · obtain ⟨before, after, rfl, since⟩ := ih
      refine ⟨before, after ++ [c], by simp, since.start, fun past d rest split => ?_⟩
      rcases List.eq_nil_or_concat rest with rfl | ⟨rest, last, rfl⟩
      · obtain ⟨rfl, same⟩ := List.append_inj' split rfl
        obtain rfl := List.singleton_inj.1 same
        exact restarts
      · rw [List.concat_eq_append, ← List.cons_append, ← List.append_assoc] at split
        exact since.kept past d rest (List.append_inj' split rfl).1

theorem Since.init (since : a.Since key before (after ++ [c])) : a.Since key before after :=
  ⟨since.start, fun past d rest split => since.kept past d (rest ++ [c]) (by simp [split])⟩

/-- The next stamp counts the draws since the stamps of its key started. -/
theorem Since.peek {start : Roll} (since : a.Since key before after) (fresh : a.Mirrors start)
    (first : start.due key = 1) :
    (a.calls (before ++ after)).value.2.stamps.peek key =
      UInt64.ofNat (after.count (.nextStamp key) + 1) := by
  induction after using List.reverseRecOn with
  | nil =>
    rw [List.append_nil]
    obtain rfl | ⟨past, c, rfl, restarts⟩ := since.start
    · exact (fresh.stamps key).trans first
    · rw [calls_snoc]
      exact (fresh.calls past).mirrors.peek_of_restarts restarts
  | append_singleton after c ih =>
    have kept : ¬ (a.calls (before ++ after)).value.2.Restarts key c :=
      since.kept after c [] rfl
    rw [← List.append_assoc, calls_snoc, (fresh.calls _).mirrors.peek_of_kept kept,
      ih since.init, List.count_append, List.count_singleton]
    by_cases draws : c = .nextStamp key
    · simp [draws, UInt64.ofNat_add]
    · simp [draws]

end Allocator

/-! ### Draws at the same time -/

namespace Drawing

variable {d d' : Drawing} {act : Act} {acts : List Act} {key other : Key} {first : Stamp} {n : Nat}

/-- The call of the allocator that an act is, if it is no draw. -/
def Act.call? : Act → Option Call
  | .resolve key => some (.resolve key)
  | .clear => some .clear
  | _ => none

/-- Nothing on the way makes the stamps of `key` start anew. -/
def Undisturbed (d : Drawing) (key : Key) (acts : List Act) : Prop :=
  ∀ past act rest, acts = past ++ act :: rest → ∀ d', d.run past = some d' →
    ∀ c, act.call? = some c → ¬ d'.allocator.Restarts key c

theorem run_snoc (d : Drawing) (acts : List Act) (act : Act) :
    d.run (acts ++ [act]) = (d.run acts).bind (·.step act) := by
  simp [run, List.foldlM_append]

theorem Undisturbed.init (h : d.Undisturbed key (acts ++ [act])) : d.Undisturbed key acts :=
  fun past a rest split => h past a (rest ++ [act]) (by simp [split])

theorem undisturbed_of_draws (draws : ∀ act ∈ acts, act.call? = none) :
    d.Undisturbed key acts := by
  rintro past act rest rfl d' - c call
  cases (draws act (by simp)).symm.trans call

/-- A draw that moves from one phase to another adds the stamp that it got, if it got one. -/
theorem perm_filterMap_set {α β : Type} {f : α → Option β} {l : List α} {n : Nat} {x : α}
    (there : l[n]? = some x) (none : f x = none) (y : α) :
    ((l.set n y).filterMap f).Perm ((f y).toList ++ l.filterMap f) := by
  induction l generalizing n with
  | nil => cases there
  | cons z l ih =>
    cases n with
    | zero =>
      obtain rfl : z = x := by simpa using there
      cases got : f y <;> simp [got, none]
    | succ n =>
      have later := ih (n := n) (by simpa using there)
      cases kept : f z with
      | none => simpa [kept] using later
      | some w => simpa [kept] using (later.cons w).trans List.perm_middle.symm

/-- The stamps drawn so far are consecutive from `first` on, and the next one follows. -/
structure Consecutive (d : Drawing) (key : Key) (first : Stamp) : Prop where
  mirrors : ∃ r, d.allocator.Mirrors r
  next : d.allocator.stamps.peek key = first + UInt64.ofNat (d.stamps key).length
  drawn : (d.stamps key).Perm
    ((List.range (d.stamps key).length).map fun i => first + UInt64.ofNat i)

theorem Consecutive.of_perm (h : d.Consecutive key first) (mirrors : ∃ r, d'.allocator.Mirrors r)
    (next : d'.allocator.stamps.peek key = d.allocator.stamps.peek key)
    (same : (d'.stamps key).Perm (d.stamps key)) : d'.Consecutive key first := by
  have length := same.length_eq
  exact ⟨mirrors, by rw [next, h.next, length], by rw [length]; exact same.trans h.drawn⟩

/-- The allocator after a draw is the one after a call that draws. -/
theorem finish_allocator (d : Drawing) (n : Nat) (key : Key) :
    (d.finish n key (d.allocator.stamps.draw key)).allocator =
      (d.allocator.call (.nextStamp key)).value.2 := rfl

theorem stampOf?_unfinished {phase : DrawPhase} (unfinished : ∀ stamp, phase ≠ .drawn stamp)
    (key other : Key) : Draw.stampOf? key ⟨other, phase⟩ = none := by
  cases phase with
  | drawn stamp => exact absurd rfl (unfinished stamp)
  | _ => rfl

theorem Consecutive.finish (h : d.Consecutive key first) {phase : DrawPhase}
    (there : d.draws[n]? = some ⟨other, phase⟩) (unfinished : ∀ stamp, phase ≠ .drawn stamp) :
    (d.finish n other (d.allocator.stamps.draw other)).Consecutive key first := by
  obtain ⟨r, mirrors⟩ := h.mirrors
  have next := mirrors.peek_of_kept (d.allocator.not_restarts_nextStamp key other)
  have after : ∃ r, (d.finish n other (d.allocator.stamps.draw other)).allocator.Mirrors r :=
    ⟨_, (mirrors.call (.nextStamp other)).mirrors⟩
  have added := perm_filterMap_set there (stampOf?_unfinished unfinished key other)
    ⟨other, .drawn (d.allocator.stamps.peek other)⟩
  by_cases same : other = key
  · subst same
    have added : ((d.finish n other (d.allocator.stamps.draw other)).stamps other).Perm
        (d.allocator.stamps.peek other :: d.stamps other) := by
      simpa [Draw.stampOf?, stamps, Drawing.finish] using added
    have length := added.length_eq
    rw [List.length_cons] at length
    refine ⟨after, ?_, ?_⟩
    · rw [finish_allocator, next, if_pos rfl, h.next, length, UInt64.ofNat_add, UInt64.add_assoc]
      rfl
    · rw [length, List.range_succ, List.map_append, List.map_singleton, ← h.next]
      exact added.trans ((h.drawn.cons _).trans (List.perm_append_singleton _ _).symm)
  · refine h.of_perm after ?_ ?_
    · rw [finish_allocator, next, if_neg (by simpa using same)]
    · simpa [Draw.stampOf?, same, stamps, Drawing.finish] using added

theorem Consecutive.call (h : d.Consecutive key first) {c : Call}
    (kept : ¬ d.allocator.Restarts key c) (draws : c ≠ .nextStamp key) :
    ({ d with allocator := (d.allocator.call c).value.2 } : Drawing).Consecutive key first := by
  obtain ⟨r, mirrors⟩ := h.mirrors
  refine h.of_perm ⟨_, (mirrors.call c).mirrors⟩ ?_ (List.Perm.refl _)
  exact (mirrors.peek_of_kept kept).trans (if_neg draws)

theorem Consecutive.step (h : d.Consecutive key first) (moves : d.step act = some d')
    (kept : ∀ c, act.call? = some c → ¬ d.allocator.Restarts key c) :
    d'.Consecutive key first := by
  cases act with
  | begin other =>
    obtain rfl := Option.some.inj moves
    refine h.of_perm h.mirrors rfl (List.Perm.of_eq ?_)
    rw [stamps, List.filterMap_append]
    exact List.append_nil _
  | advance n =>
    simp only [Drawing.step] at moves
    split at moves
    · next other there =>
      split at moves
      · next x found =>
        obtain rfl := Option.some.inj moves
        rw [← Stamps.draw_of_bump? found]
        exact h.finish there (by simp)
      · obtain rfl := Option.some.inj moves
        have same := perm_filterMap_set there (f := Draw.stampOf? key) rfl ⟨other, .missing⟩
        exact h.of_perm h.mirrors rfl same
    · next other there =>
      obtain rfl := Option.some.inj moves
      exact h.finish there (by simp)
    · cases moves
  | resolve other =>
    obtain rfl := Option.some.inj moves
    exact h.call (kept _ rfl) (by simp)
  | clear =>
    obtain rfl := Option.some.inj moves
    exact h.call (kept _ rfl) (by simp)

theorem Consecutive.run (h : d.Consecutive key first) (run : d.run acts = some d')
    (undisturbed : d.Undisturbed key acts) : d'.Consecutive key first := by
  induction acts using List.reverseRecOn generalizing d' with
  | nil =>
    obtain rfl := Option.some.inj run
    exact h
  | append_singleton acts act ih =>
    rw [run_snoc, Option.bind_eq_some_iff] at run
    obtain ⟨between, before, moves⟩ := run
    exact (ih before undisturbed.init).step moves (undisturbed acts act [] rfl between before)

/-- Where the numbers do not wrap, the stamps are a range of numbers. -/
theorem Consecutive.range (h : d.Consecutive key first)
    (within : first.toNat + (d.stamps key).length ≤ 2 ^ 64) :
    ((d.stamps key).map UInt64.toNat).Perm (List.range' first.toNat (d.stamps key).length) := by
  refine (h.drawn.map _).trans (List.Perm.of_eq ?_)
  rw [List.range'_eq_map_range, List.map_map]
  refine List.map_congr_left fun i there => ?_
  have below := List.mem_range.1 there
  have small : i < 2 ^ 64 := by have := first.toNat_lt; omega
  simp only [Function.comp_apply, UInt64.toNat_add, UInt64.toNat_ofNat']
  rw [Nat.mod_eq_of_lt small, Nat.mod_eq_of_lt (by omega)]

/-- A draw that has no stamp yet gets one by its own accesses, two of them at most. -/
theorem exists_stamp {phase : DrawPhase} (there : d.draws[n]? = some ⟨key, phase⟩) :
    ∃ own, (∀ act ∈ own, act = .advance n) ∧ own.length ≤ 2 ∧
      ∃ d' stamp, d.run own = some d' ∧ d'.draws[n]? = some ⟨key, .drawn stamp⟩ := by
  obtain ⟨within, -⟩ := List.getElem?_eq_some_iff.1 there
  cases phase with
  | drawn stamp => exact ⟨[], by simp, by simp, d, stamp, rfl, there⟩
  | missing =>
    refine ⟨[.advance n], by simp, by simp, d.finish n key (d.allocator.stamps.draw key),
      d.allocator.stamps.peek key, ?_, ?_⟩
    · simp [Drawing.step, there]
    · exact List.getElem?_set_self within
  | looking =>
    cases found : d.allocator.stamps.bump? key with
    | some x =>
      refine ⟨[.advance n], by simp, by simp, d.finish n key x, x.1, ?_, ?_⟩
      · simp [Drawing.step, there, found]
      · exact List.getElem?_set_self within
    | none =>
      refine ⟨[.advance n, .advance n], by simp, by simp,
        ({ d with draws := d.draws.set n ⟨key, .missing⟩ } : Drawing).finish n key
          (d.allocator.stamps.draw key), d.allocator.stamps.peek key, ?_, ?_⟩
      · simp [Drawing.step, there, found, List.getElem?_set_self within]
      · exact List.getElem?_set_self (by simpa using within)

end Drawing

namespace Allocator

variable {a : Allocator}

/--
The stamps of `key` start with the allocator, when it is cleared and when the key loses its
lane. The next stamp is one more than the draws of `key` since then; draws at the same time
get the numbers that follow, each of them one, as long as the stamps do not start anew.
-/
theorem stamp_of_since {lanes : Nat} {maxKeys headroom : UInt32}
    (made : withHeadroom lanes maxKeys headroom = .ok a) (cs : List Call) (key : Key) :
    (∃ before after, cs = before ++ after ∧ a.Since key before after) ∧
      ∀ before after, cs = before ++ after → a.Since key before after →
        after.count (.nextStamp key) < 2 ^ 64 - 1 →
        ((a.calls cs).value.2.nextStamp key).1.toNat = after.count (.nextStamp key) + 1 ∧
        ∀ acts d, (Drawing.mk (a.calls cs).value.2 []).run acts = some d →
          (Drawing.mk (a.calls cs).value.2 []).Undisturbed key acts →
          after.count (.nextStamp key) + (d.stamps key).length ≤ 2 ^ 64 - 1 →
          ((d.stamps key).map UInt64.toNat).Perm
            (List.range' (after.count (.nextStamp key) + 1) (d.stamps key).length) := by
  have fresh := mirrors_of_withHeadroom made
  refine ⟨a.exists_since key cs, ?_⟩
  rintro before after rfl since within
  have peek := since.peek fresh rfl
  have number : ((a.calls (before ++ after)).value.2.stamps.peek key).toNat =
      after.count (.nextStamp key) + 1 := by
    rw [peek, UInt64.toNat_ofNat', Nat.mod_eq_of_lt (by omega)]
  refine ⟨number, fun acts d run undisturbed narrow => ?_⟩
  have begun : (Drawing.mk (a.calls (before ++ after)).value.2 []).Consecutive key
      ((a.calls (before ++ after)).value.2.stamps.peek key) :=
    ⟨⟨_, (fresh.calls _).mirrors⟩, by simp [Drawing.stamps], by simp [Drawing.stamps]⟩
  rw [← number]
  exact (begun.run run undisturbed).range (by omega)

/--
Key 7 is drawn for twice, is assigned, falls out and is drawn for once more: the next stamp is
2. With a new allocator two draws that both find no counter get 2 and 1.
-/
theorem stamp_of_since_eviction : ∃ a, withHeadroom 1 1 1 = .ok a ∧
    ((a.calls [.nextStamp 7, .nextStamp 7, .resolve 7, .resolve 8, .nextStamp 7]).value.2.nextStamp
      7).1.toNat = 2 ∧
    ∃ d, (Drawing.mk a []).run [.begin 7, .begin 7, .advance 0, .advance 1, .advance 1,
        .advance 0] = some d ∧ d.stamps 7 = [2, 1] ∧
      ((d.stamps 7).map UInt64.toNat).Perm (List.range' 1 2) := by
  have made : withHeadroom 1 1 1 = .ok ⟨1, 1, 1, .empty, .fresh 1, .empty⟩ := rfl
  have fresh := mirrors_of_withHeadroom made
  have mirrors := (fresh.calls [.nextStamp 7, .nextStamp 7, .resolve 7]).mirrors
  have evicts : Restarts _ 7 (.resolve 8) := mirrors.restarts_iff.2 (by decide)
  have since : Since ⟨1, 1, 1, .empty, .fresh 1, .empty⟩ 7
      [.nextStamp 7, .nextStamp 7, .resolve 7, .resolve 8] [.nextStamp 7] := by
    refine ⟨.inr ⟨_, _, rfl, evicts⟩, fun past c rest split => ?_⟩
    obtain ⟨rfl, same⟩ | ⟨-, none⟩ := List.singleton_eq_append_iff.1 split
    · obtain ⟨rfl, rfl⟩ := List.cons.inj same
      exact not_restarts_nextStamp _ _ _
    · cases none
  have drawn : ((Drawing.mk ⟨1, 1, 1, .empty, .fresh 1, .empty⟩ []).run [.begin 7, .begin 7,
      .advance 0, .advance 1, .advance 1, .advance 0]).map (·.stamps 7) = some [2, 1] := by
    simp [Drawing.step, Stamps.bump?, Stamps.empty, Drawing.finish, Drawing.stamps, Draw.stampOf?,
      Stamps.draw, Stamps.peek]
  obtain ⟨d, run, stamps⟩ := Option.map_eq_some_iff.1 drawn
  have quiet : (Drawing.mk ⟨1, 1, 1, .empty, .fresh 1, .empty⟩ []).Undisturbed 7 [.begin 7,
      .begin 7, .advance 0, .advance 1, .advance 1, .advance 0] :=
    Drawing.undisturbed_of_draws (by simp [Drawing.Act.call?])
  have first := ((stamp_of_since made _ 7).2 _ _ rfl since (by decide)).1
  have both := ((stamp_of_since made [] 7).2 [] [] rfl ⟨.inl rfl, by simp⟩ (by decide)).2 _ d run
    quiet (by rw [stamps]; decide)
  rw [stamps] at both
  exact ⟨_, made, first, d, run, stamps, stamps ▸ both⟩

end Allocator

end OrderedLanes
