import OrderedLanes.Interleaving.KeyDrawing
import OrderedLanes.Proofs.Assignments

/-!
Drawn keys come round. The keys made of a number and of any later one are the same just if a
multiple of `2 ^ 31` lies between the two, wherever the counter started and however often it
wrapped; so that many draws in a row have the reserved range between them. Submissions begun
without a key and callers that draw keys for themselves share one counter
(`drawn_keys_come_round`).
-/

namespace OrderedLanes

/-! ### Keys of numbers -/

/-- The key takes the lower bits of the number. -/
theorem toNat_reservedKey (n : UInt32) : (reservedKey n).toNat = 2 ^ 31 + n.toNat % 2 ^ 31 := by
  have mask : (~~~reservedBase).toNat = 2 ^ 31 - 1 := by decide
  have below : n.toNat % 2 ^ 31 < 2 ^ 31 := Nat.mod_lt _ (by decide)
  have joined := Nat.two_pow_add_eq_or_of_lt below 1
  rw [reservedKey, UInt32.toNat_or, UInt32.toNat_and, mask, Nat.and_two_pow_sub_one_eq_mod]
  exact joined.symm

/-- The counter wraps after two rounds of keys. -/
theorem toNat_reservedKey_add (n : UInt32) (i : Nat) :
    (reservedKey (n + UInt32.ofNat i)).toNat = 2 ^ 31 + (n.toNat + i) % 2 ^ 31 := by
  rw [toNat_reservedKey, UInt32.toNat_add, UInt32.toNat_ofNat']
  omega

theorem reservedKey_add_eq_iff (n : UInt32) {i j : Nat} (before : i < j) :
    reservedKey (n + UInt32.ofNat i) = reservedKey (n + UInt32.ofNat j) ↔ 2 ^ 31 ∣ j - i := by
  rw [← UInt32.toNat_inj, toNat_reservedKey_add, toNat_reservedKey_add]
  omega

/-- Every reserved key is made of some number in each round. -/
theorem exists_reservedKey_add (n : UInt32) (start : Nat) {key : Key}
    (reserved : 2 ^ 31 ≤ key.toNat) :
    ∃ i, start ≤ i ∧ i < start + 2 ^ 31 ∧ reservedKey (n + UInt32.ofNat i) = key := by
  have narrow := key.toNat_lt
  refine ⟨start + (key.toNat + (2 ^ 31 - (n.toNat + start) % 2 ^ 31)) % 2 ^ 31,
    by omega, by omega, ?_⟩
  rw [← UInt32.toNat_inj, toNat_reservedKey_add]
  omega

namespace World

variable {V : Type} {w w' : World V} {t : Ticket}

/-! ### What acts do to the counter -/

@[simp] theorem counter_deliver (w : World V) (t : Ticket) (outcome : Outcome V) :
    (w.deliver t outcome).2.counter = w.counter := by
  unfold deliver
  split
  · rfl
  · dsimp only
    split <;> rfl

@[simp] theorem counter_discard (w : World V) (p : Parcel) :
    (w.discard p).2.counter = w.counter := counter_deliver _ _ _

@[simp] theorem counter_endTask (w : World V) (p : Parcel) (lane : Option LaneIndex)
    (ending : Ending V) : (w.endTask p lane ending).2.counter = w.counter := counter_deliver _ _ _

theorem counter_discardAll (w : World V) (ps : List Parcel) :
    (w.discardAll ps).2.counter = w.counter := by
  induction ps generalizing w with
  | nil => rfl
  | cons p ps ih => exact (ih _).trans (counter_discard w p)

theorem counter_unwind (w : World V) (panic : Option Payload) :
    (w.unwind t panic).counter = w.counter := by
  cases panic <;> rfl

@[simp] theorem counter_settle (w : World V) (t : Ticket) (own : Option (LaneIndex × Parcel))
    (submitted : Submitted Parcel) : (w.settle t own submitted).counter = w.counter := by
  unfold settle
  split
  · rfl
  · exact (counter_unwind _ _).trans (counter_deliver _ _ _)
  · exact (counter_unwind _ _).trans (counter_discardAll _ _)

theorem counter_advance (act : w.advance t = some w') : w'.counter = w.counter := by
  obtain ⟨s, there, unfinished⟩ := unfinished_of_advance act
  cases ended : (s.step w.dispatcher).value.1.answer? with
  | none =>
    rw [advance_on there unfinished rfl ended] at act
    exact (congrArg World.counter (Option.some.inj act)).symm
  | some submitted =>
    rw [advance_end there unfinished rfl ended] at act
    exact (congrArg World.counter (Option.some.inj act)).symm.trans (counter_settle _ _ _ _)

theorem counter_advanceStop {n : Nat} (act : w.advanceStop n = some w') :
    w'.counter = w.counter := by
  obtain ⟨s, there, unfinished⟩ := unfinished_of_advanceStop act
  cases ended : (s.step w.dispatcher).1.report? with
  | none =>
    rw [advanceStop_on there unfinished rfl ended rfl] at act
    exact (congrArg World.counter (Option.some.inj act)).symm
  | some report =>
    have step : s.step w.dispatcher = (.done report, (s.step w.dispatcher).2) :=
      Prod.ext (eq_done_of_report ended) rfl
    rw [advanceStop_end there unfinished step rfl] at act
    exact (congrArg World.counter (Option.some.inj act)).symm

/-- Only a submission that is begun without a key takes a number. -/
theorem counter_step {a : Act V} (act : w.step a = some w') (keyed : a ≠ .submitUnordered) :
    w'.counter = w.counter := by
  cases a with
  | submitUnordered => exact absurd rfl keyed
  | advance t => exact counter_advance act
  | advanceStop n => exact counter_advanceStop act
  | refuseThread t source =>
    obtain ⟨s, stamp, i, -, -, rfl⟩ := refuseThread_cases act
    rfl
  | receive i =>
    obtain ⟨l, -, -, ⟨p, queue, -, rfl⟩ | ⟨-, -, rfl⟩⟩ := receive_cases act <;> rfl
  | inspect i =>
    obtain ⟨l, p, -, -, ⟨-, rfl⟩ | ⟨-, rfl⟩⟩ := inspect_cases act
    · rfl
    · exact counter_discard w p
  | finish i ending =>
    obtain ⟨l, p, -, -, rfl⟩ := finish_cases act
    exact counter_endTask w p (some i) ending
  | runReturned t ending =>
    obtain ⟨p, -, rfl⟩ := runReturned_cases act
    exact counter_endTask _ p none ending
  | dropReturned t =>
    obtain ⟨p, -, rfl⟩ := dropReturned_cases act
    exact counter_deliver _ _ _
  | poll t waker =>
    obtain ⟨slot, -, ⟨o, -, rfl⟩ | ⟨-, rfl⟩⟩ := poll_cases act <;> rfl
  | take t =>
    obtain ⟨slot, -, ⟨o, -, rfl⟩ | ⟨-, rfl⟩⟩ := take_cases act <;> rfl
  | submit key stamped => exact (congrArg World.counter (Option.some.inj act)).symm
  | stop kind => exact (congrArg World.counter (Option.some.inj act)).symm
  | drawStamp key => exact (congrArg World.counter (Option.some.inj act)).symm

theorem Effect.key (e : Effect w w') {s : Submission Parcel} (there : w.submissions[t]? = some s) :
    ∃ s', w'.submissions[t]? = some s' ∧ s'.key = s.key := by
  have goes : ∀ {u r phase}, w.submissions[u]? = some r →
      w'.submissions = w.submissions.set u (r.on phase) →
      ∃ s', w'.submissions[t]? = some s' ∧ s'.key = s.key := by
    intro u r phase found subs
    rw [subs]
    rcases eq_or_ne u t with rfl | other
    · obtain rfl := Option.some.inj (found.symm.trans there)
      exact ⟨_, getElem?_set_there found _, rfl⟩
    · exact ⟨s, (List.getElem?_set_ne other).trans there, rfl⟩
  cases e with
  | begin key stamped => exact ⟨s, getElem?_snoc_there there _, rfl⟩
  | look u r phase found looks => exact goes found rfl
  | stamp u r drawn found phase => exact goes found rfl
  | lookUp u r stamp found phase => exact goes found rfl
  | refuse u r submitted found refused => exact goes found rfl
  | install u r stamp i own found phase empty => exact goes found rfl
  | accept u r stamp i l found phase lane accepting => exact goes found rfl
  | retire u r i c l found phase lane unfinished => exact goes found rfl
  | forfeit u r i report found phase => exact goes found rfl
  | _ => exact ⟨s, there, rfl⟩

end World

/-- The key that a draw ends with, once it has its number. -/
def KeyDraw.key? : KeyDraw → Option Key
  | .begun => none
  | .numbered number => some (reservedKey number)
  | .drawn key => some key

namespace KeyDrawing

variable {V : Type} {d : Dispatcher Parcel} {c : KeyCounter} {k k' : KeyDrawing V} {x : DrawAct V}

/-! ### Who was given which number -/

/-- The key that somebody has got, or makes of the number that it was given. -/
def due? (k : KeyDrawing V) : Drawer → Option Key
  | .submission t => k.world.submissions[t]?.map Submission.key
  | .caller n => k.draws[n]?.bind KeyDraw.key?

theorem due?_of_got? {who : Drawer} {key : Key} (got : k.got? who = some key) :
    k.due? who = some key := by
  cases who with
  | submission t => exact got
  | caller n =>
    cases there : k.draws[n]? with
    | none => simp [got?, there] at got
    | some draw => cases draw <;> simp_all [got?, due?, KeyDraw.key?]

/-- The numbers were handed out one by one from where the counter started. -/
structure Numbered (k : KeyDrawing V) (c : KeyCounter) : Prop where
  counter : k.world.counter.next = c.next + UInt32.ofNat k.order.length
  once : k.order.Nodup
  listed : ∀ n, (k.due? (.caller n)).isSome → .caller n ∈ k.order
  keys : ∀ i who, k.order[i]? = some who →
    k.due? who = some (reservedKey (c.next + UInt32.ofNat i))

theorem numbered_fresh : (fresh d c : KeyDrawing V).Numbered c :=
  ⟨by simp [fresh, World.fresh], List.nodup_nil, by simp [fresh, due?], by simp [fresh]⟩

/-- An access that takes no number. -/
theorem Numbered.keep (h : k.Numbered c) (counter : k'.world.counter = k.world.counter)
    (order : k'.order = k.order)
    (kept : ∀ who key, k.due? who = some key → k'.due? who = some key)
    (listed : ∀ n, (k'.due? (.caller n)).isSome → (k.due? (.caller n)).isSome) :
    k'.Numbered c := by
  refine ⟨?_, order ▸ h.once, fun n due => ?_, fun i who placed => ?_⟩
  · rw [counter, order, h.counter]
  · rw [order]
    exact h.listed n (listed n due)
  · rw [order] at placed
    exact kept _ _ (h.keys i who placed)

/-- An access that takes a number for somebody who had none. -/
theorem Numbered.take (h : k.Numbered c) (who : Drawer) (new : k.due? who = none)
    (counter : k'.world.counter = k.world.counter.fetch.2) (order : k'.order = k.order ++ [who])
    (due : k'.due? who = some (reservedKey k.world.counter.fetch.1))
    (kept : ∀ other key, k.due? other = some key → k'.due? other = some key)
    (listed : ∀ n, .caller n ≠ who → (k'.due? (.caller n)).isSome →
      (k.due? (.caller n)).isSome) : k'.Numbered c := by
  have absent : who ∉ k.order := by
    intro there
    obtain ⟨i, placed⟩ := List.getElem?_of_mem there
    rw [h.keys i who placed] at new
    cases new
  refine ⟨?_, ?_, fun n has => ?_, fun i other placed => ?_⟩
  · rw [counter, order, List.length_append, List.length_singleton, UInt32.ofNat_add,
      ← UInt32.add_assoc, ← h.counter]
    rfl
  · rw [order]
    exact h.once.append (List.nodup_singleton who) (List.disjoint_singleton.2 absent)
  · rw [order, List.mem_append, List.mem_singleton]
    by_cases own : Drawer.caller n = who
    · exact .inr own
    · exact .inl (h.listed n (listed n own has))
  · rw [order] at placed
    rcases getElem?_snoc_cases placed with ⟨rfl, rfl⟩ | old
    · rw [due, ← h.counter]
      rfl
    · exact kept _ _ (h.keys i other old)

theorem Numbered.act {a : Act V} {w : World V} (h : k.Numbered c)
    (moves : k.world.step a = some w) :
    Numbered { k with world := w, order := k.order ++ (unordered? k.world a).toList } c := by
  have kept : ∀ order who key, k.due? who = some key →
      due? { k with world := w, order := order } who = some key := by
    intro order who key due
    cases who with
    | caller n => exact due
    | submission t =>
      obtain ⟨s, there, rfl⟩ := Option.map_eq_some_iff.1 due
      obtain ⟨s', there', same⟩ := (World.effect_of_step moves).key there
      exact Option.map_eq_some_iff.2 ⟨s', there', same⟩
  -- A submission that is begun without a key takes a number, and no other act does.
  by_cases drawing : a = .submitUnordered
  · subst drawing
    obtain rfl := Option.some.inj moves
    refine h.take (.submission k.world.submissions.length) ?_ rfl rfl ?_ (kept _)
      fun n _ has => has
    · simp [due?]
    · exact congrArg (Option.map Submission.key) List.getElem?_concat_length
  · have none : (unordered? k.world a).toList = [] := by
      cases a <;> first | rfl | exact absurd rfl drawing
    rw [none, List.append_nil]
    exact h.keep (World.counter_step moves drawing) rfl (kept _) fun n has => has

/-- A draw that has just begun is due no key. -/
theorem due?_begin (k : KeyDrawing V) :
    due? { k with draws := k.draws ++ [.begun] } = k.due? := by
  funext who
  cases who with
  | submission t => rfl
  | caller n =>
    rcases Nat.lt_or_ge n k.draws.length with before | after
    · simp [due?, List.getElem?_append_left before]
    · cases new : n - k.draws.length <;>
        simp [due?, List.getElem?_append_right after, List.getElem?_eq_none after, new,
          KeyDraw.key?]

theorem due?_set {n : Nat} {before : KeyDraw} (there : k.draws[n]? = some before) (w : World V)
    (order : List Drawer) (after : KeyDraw) (m : Nat) :
    due? ⟨w, k.draws.set n after, order⟩ (.caller m) =
      if m = n then after.key? else k.due? (.caller m) := by
  split
  · next same => simp [due?, same, getElem?_set_there there]
  · next other => simp [due?, List.getElem?_set_ne (Ne.symm other)]

/-- To make the key of a number changes nothing about what is due. -/
theorem due?_make {n : Nat} {number : UInt32} (there : k.draws[n]? = some (.numbered number)) :
    due? { k with draws := k.draws.set n (.drawn (reservedKey number)) } = k.due? := by
  funext who
  cases who with
  | submission t => rfl
  | caller m =>
    rw [due?_set there]
    split
    · next same => simp [same, due?, there, KeyDraw.key?]
    · rfl

theorem Numbered.number (h : k.Numbered c) {n : Nat} (there : k.draws[n]? = some .begun) :
    Numbered {
      world := { k.world with counter := k.world.counter.fetch.2 }
      draws := k.draws.set n (.numbered k.world.counter.fetch.1)
      order := k.order ++ [.caller n] } c := by
  have new : k.due? (.caller n) = none := by simp [due?, there, KeyDraw.key?]
  refine h.take (.caller n) new rfl rfl ?_ (fun who key due => ?_) fun m apart has => ?_
  · exact (due?_set there _ _ _ n).trans (if_pos rfl)
  · cases who with
    | submission t => exact due
    | caller m =>
      have other : m ≠ n := by
        rintro rfl
        cases new.symm.trans due
      exact ((due?_set there _ _ _ m).trans (if_neg other)).trans due
  · have other : m ≠ n := fun same => apart (congrArg Drawer.caller same)
    exact (due?_set there _ _ _ m).trans (if_neg other) ▸ has

theorem Numbered.step (h : k.Numbered c) (moves : k.step x = some k') : k'.Numbered c := by
  cases x with
  | act a =>
    obtain ⟨w, act, same⟩ := Option.bind_eq_some_iff.1 moves
    obtain rfl := Option.some.inj same
    exact h.act act
  | begin =>
    obtain rfl := Option.some.inj moves
    exact h.keep rfl rfl (fun who key due => due?_begin k ▸ due) fun n has => due?_begin k ▸ has
  | advance n =>
    simp only [KeyDrawing.step] at moves
    split at moves
    · next there =>
      obtain rfl := Option.some.inj moves
      exact h.number there
    · next number there =>
      obtain rfl := Option.some.inj moves
      have same := due?_make there
      exact h.keep rfl rfl (fun who key due => same ▸ due) fun m has => same ▸ has
    · cases moves

theorem Numbered.run {xs : List (DrawAct V)} (h : k.Numbered c) (run : k.run xs = some k') :
    k'.Numbered c := by
  induction xs generalizing k with
  | nil =>
    obtain rfl := Option.some.inj run
    exact h
  | cons x xs ih =>
    obtain ⟨between, moves, rest⟩ := Option.bind_eq_some_iff.1 run
    exact ih (h.step moves) rest

/-! ### Rounds of keys -/

theorem Numbered.key?_eq (h : k.Numbered c) {i : Nat} {key : Key} (made : k.key? i = some key) :
    key = reservedKey (c.next + UInt32.ofNat i) := by
  obtain ⟨who, placed, got⟩ := Option.bind_eq_some_iff.1 made
  exact Option.some.inj ((due?_of_got? got).symm.trans (h.keys i who placed))

/--
Keys come round after `2 ^ 31` draws and not before. Draws count by the order of their numbers.
-/
structure ComesRound (k : KeyDrawing V) : Prop where
  /-- Nobody was given two numbers. -/
  once : k.order.Nodup
  /-- Nobody has got a key without a number. -/
  listed : ∀ n key, k.draws[n]? = some (.drawn key) → .caller n ∈ k.order
  reserved : ∀ i key, k.key? i = some key → 2 ^ 31 ≤ key.toNat ∧ key.toNat ≤ 2 ^ 32 - 1
  same_iff : ∀ i j key key', i < j → k.key? i = some key → k.key? j = some key' →
    (key = key' ↔ 2 ^ 31 ∣ j - i)
  /-- Of `2 ^ 31` draws in a row no two have the same key. -/
  distinct : ∀ start i j key, start ≤ i → i < j → j < start + 2 ^ 31 →
    k.key? i = some key → k.key? j ≠ some key
  /-- Once they all have ended, each reserved key is that of one of them. -/
  covering : ∀ start, (∀ i, start ≤ i → i < start + 2 ^ 31 → (k.key? i).isSome) →
    ∀ key : Key, 2 ^ 31 ≤ key.toNat → ∃ i, start ≤ i ∧ i < start + 2 ^ 31 ∧ k.key? i = some key

theorem Numbered.comesRound (h : k.Numbered c) : k.ComesRound := by
  have same_iff : ∀ i j key key', i < j → k.key? i = some key → k.key? j = some key' →
      (key = key' ↔ 2 ^ 31 ∣ j - i) := by
    intro i j key key' before first second
    rw [h.key?_eq first, h.key?_eq second]
    exact reservedKey_add_eq_iff c.next before
  refine ⟨h.once, fun n key drawn => h.listed n ?_, fun i key made => ?_, same_iff, ?_, ?_⟩
  · simp [due?, drawn, KeyDraw.key?]
  · have number := congrArg UInt32.toNat (h.key?_eq made)
    rw [toNat_reservedKey_add] at number
    omega
  · intro start i j key after before within first second
    have between := (same_iff i j key key before first second).1 rfl
    omega
  · intro start ended key reserved
    obtain ⟨i, after, within, made⟩ := exists_reservedKey_add c.next start reserved
    obtain ⟨got, there⟩ := Option.isSome_iff_exists.1 (ended i after within)
    exact ⟨i, after, within, there.trans (congrArg some ((h.key?_eq there).trans made))⟩

/-! ### Draws in a row -/

theorem run_append (k : KeyDrawing V) (xs more : List (DrawAct V)) :
    k.run (xs ++ more) = (k.run xs).bind (KeyDrawing.run · more) := by
  simp [KeyDrawing.run, List.foldlM_append]

/-- A caller that is not disturbed draws the key that one access would draw. -/
theorem run_draw (k : KeyDrawing V) :
    k.run [.begin, .advance k.draws.length, .advance k.draws.length] = some
      { world := { k.world with counter := k.world.counter.draw.2 }
        draws := k.draws ++ [.drawn k.world.counter.draw.1]
        order := k.order ++ [.caller k.draws.length] } := by
  simp [KeyDrawing.step, KeyCounter.draw_eq_fetch]

/-- The keys got so far stay when somebody else draws one. -/
theorem key?_snoc {i : Nat} {key : Key} (made : k.key? i = some key) (counter : KeyCounter)
    (draw : KeyDraw) (who : Drawer) :
    key? ⟨{ k.world with counter }, k.draws ++ [draw], k.order ++ [who]⟩ i = some key := by
  obtain ⟨other, placed, got⟩ := Option.bind_eq_some_iff.1 made
  refine Option.bind_eq_some_iff.2 ⟨other, getElem?_snoc_there placed who, ?_⟩
  cases other with
  | submission t => exact got
  | caller n =>
    simp only [got?] at got ⊢
    split at got
    · next there => rw [getElem?_snoc_there there]; exact got
    · cases got

/-- Any number of callers can draw their keys one after the other. -/
theorem exists_draws (k : KeyDrawing V) (n : Nat) : ∃ xs k', k.run xs = some k' ∧
    k'.order.length = k.order.length + n ∧ (∀ i key, k.key? i = some key → k'.key? i = some key) ∧
    ∀ i, k.order.length ≤ i → i < k.order.length + n → (k'.key? i).isSome := by
  induction n with
  | zero => exact ⟨[], k, rfl, rfl, fun _ _ made => made, fun i after within => by omega⟩
  | succ n ih =>
    obtain ⟨xs, k', run, length, kept, made⟩ := ih
    refine ⟨_, _, by rw [run_append, run, Option.bind_some, run_draw], ?_, ?_, ?_⟩
    · rw [List.length_append, length]
      rfl
    · exact fun i key before => key?_snoc (kept i key before) _ _ _
    · intro i after within
      rcases Nat.lt_or_ge i (k.order.length + n) with before | last
      · obtain ⟨key, got⟩ := Option.isSome_iff_exists.1 (made i after before)
        exact Option.isSome_iff_exists.2 ⟨key, key?_snoc got _ _ _⟩
      · obtain rfl : i = k'.order.length := by omega
        simp [key?, got?]

/--
From any value of the counter on, and whoever draws keys in whatever order: every key is in the
reserved range, two draws get the same key just if a multiple of `2 ^ 31` lies between them, and
`2 ^ 31` draws in a row get every reserved key once.
-/
theorem drawn_keys_come_round {xs : List (DrawAct V)} (run : (fresh d c).run xs = some k) :
    k.ComesRound := (numbered_fresh.run run).comesRound

/--
A task is submitted without a key where the counter is about to wrap, and `2 ^ 31` callers draw a
key each after that: the last of them gets the key of the task again, and the others get all keys
but that one.
-/
theorem drawn_keys_come_round_at_wrap : ∃ (d : Dispatcher Parcel) (xs : List (DrawAct Unit))
    (k : KeyDrawing Unit), Dispatcher.create (World.tiny 1 1) 1 = .ok d ∧
      (fresh d ⟨0xFFFFFFFF⟩).run xs = some k ∧
      k.key? 0 = some 0xFFFFFFFF ∧ k.key? (2 ^ 31) = some 0xFFFFFFFF ∧
      ∀ key : Key, 2 ^ 31 ≤ key.toNat → ∃ i < 2 ^ 31, k.key? i = some key := by
  have made : Dispatcher.create (World.tiny 1 1) 1 = .ok (World.newborn 1 1) := rfl
  obtain ⟨k₁, submits, length₁, first⟩ : ∃ k₁ : KeyDrawing Unit,
      (fresh (World.newborn 1 1) ⟨0xFFFFFFFF⟩).step (.act .submitUnordered) = some k₁ ∧
        k₁.order.length = 1 ∧ k₁.key? 0 = some 0xFFFFFFFF :=
    ⟨_, rfl, rfl, by decide⟩
  obtain ⟨xs, k, draws, -, kept, ended⟩ := exists_draws k₁ (2 ^ 31)
  rw [length₁] at ended
  have run : (fresh (World.newborn 1 1) ⟨0xFFFFFFFF⟩).run (.act .submitUnordered :: xs) =
      some k := by
    rw [run_cons, submits, Option.bind_some, draws]
  have round := drawn_keys_come_round run
  obtain ⟨last, there⟩ := Option.isSome_iff_exists.1 (ended (2 ^ 31) (by decide) (by decide))
  have again : 0xFFFFFFFF = last :=
    (round.same_iff 0 (2 ^ 31) _ _ (by decide) (kept 0 _ first) there).2 (by decide)
  refine ⟨_, _, k, made, run, kept 0 _ first, again ▸ there, fun key reserved => ?_⟩
  have all : ∀ i, 0 ≤ i → i < 0 + 2 ^ 31 → (k.key? i).isSome := by
    intro i _ within
    rcases Nat.eq_zero_or_pos i with rfl | later
    · exact Option.isSome_iff_exists.2 ⟨_, kept 0 _ first⟩
    · exact ended i later (by omega)
  obtain ⟨i, -, within, got⟩ := round.covering 0 all key reserved
  exact ⟨i, by omega, got⟩

end KeyDrawing

end OrderedLanes
