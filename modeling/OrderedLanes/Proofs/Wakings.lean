import OrderedLanes.Interleaving.Waking
import OrderedLanes.Proofs.Exchanges

/-!
Wake-ups. A poll leaves a waker behind unless the one that waits already wakes the same
task; the completer fills the slot first and then calls the waker it found there. What is
proved of every run:

* the task of the latest poll that came too early is woken, once, and no other (`wakes_once`);
* a waker that a later poll replaced is never called;
* the outcome is there before any waker is called, and stays there if that call panics;
* a poll after that leaves no waker behind and calls none.

Whether a waker wakes the same task is the answer of a test; all that is asked of it is that
it says yes of wakers of the same task only (`honest`). It may well say no of such wakers.
-/

namespace OrderedLanes

namespace Exchange

variable {V T : Type} {willWake : Waker → Waker → Bool} {task : Waker → T} {x y : Exchange V}
  {a : Act V} {acts rest : List (Act V)} {o : Outcome V} {wakers : List Waker}
  {waker : Option Waker} {w : Waker}

/-! ### The wakers that came in time -/

/-- The wakers of the polls before the completer's last word. -/
def early (acts : List (Act V)) : List Waker :=
  (acts.takeWhile fun a => a.word?.isNone).filterMap Act.waker?

theorem early_cons (a : Act V) (acts : List (Act V)) :
    early (a :: acts) = if a.word? = none then a.waker?.toList ++ early acts else [] := by
  rw [early, List.takeWhile_cons]
  cases word : a.word? with
  | none => cases waker : a.waker? <;> simp [early, waker]
  | some o => simp

theorem early_snoc (silent : lastWord acts = none) (a : Act V) :
    early (acts ++ [a]) = early acts ++ a.waker?.toList := by
  induction acts with
  | nil => cases a <;> simp [early, Act.word?, Act.waker?]
  | cons b acts ih =>
    obtain ⟨first, later⟩ : b.word? = none ∧ lastWord acts = none := by
      simpa [lastWord] using silent
    simp [early_cons, first, ih later]

/-- What comes after the last word comes too late. -/
theorem early_append (spoken : lastWord acts ≠ none) (rest : List (Act V)) :
    early (acts ++ rest) = early acts := by
  induction acts with
  | nil => exact absurd rfl spoken
  | cons b acts ih =>
    rw [List.cons_append, early_cons, early_cons]
    split
    · next first =>
      rw [ih fun later => spoken ?_]
      simpa [lastWord, first] using later
    · rfl

/-- The waker that is left of those that came, one after another. -/
def survivor (willWake : Waker → Waker → Bool) (wakers : List Waker) : Option Waker :=
  wakers.foldl (fun former w => some (Waker.kept willWake former w)) none

theorem survivor_snoc (wakers : List Waker) (w : Waker) :
    survivor willWake (wakers ++ [w]) =
      some (Waker.kept willWake (survivor willWake wakers) w) := by
  simp [survivor]

/-- It came itself, and would have woken the caller of every poll after it. -/
theorem stood_of_survivor (left : survivor willWake wakers = some w) :
    ∃ before after, wakers = before ++ w :: after ∧ ∀ later ∈ after, willWake w later = true := by
  induction wakers using List.reverseRecOn generalizing w with
  | nil => cases left
  | append_singleton wakers last ih =>
    rw [survivor_snoc, Option.some_inj] at left
    cases former : survivor willWake wakers with
    | none =>
      obtain rfl : last = w := by simpa [former, Waker.kept] using left
      exact ⟨wakers, [], rfl, by simp⟩
    | some first =>
      by_cases same : willWake first last = true
      · obtain rfl : first = w := by simpa [former, Waker.kept, same] using left
        obtain ⟨before, after, rfl, stood⟩ := ih former
        refine ⟨before, after ++ [last], by simp, fun later there => ?_⟩
        rcases List.mem_append.1 there with there | there
        · exact stood later there
        · rwa [List.mem_singleton.1 there]
      · obtain rfl : last = w := by simpa [former, Waker.kept, same] using left
        exact ⟨wakers, [], rfl, by simp⟩

/-- It wakes the task of the poll that came last. -/
theorem task_survivor (honest : ∀ w w', willWake w w' = true → task w = task w')
    (wakers : List Waker) :
    (survivor willWake wakers).map task = wakers.getLast?.map task := by
  induction wakers using List.reverseRecOn with
  | nil => rfl
  | append_singleton wakers last ih =>
    rw [survivor_snoc, List.getLast?_concat, Option.map_some, Option.map_some]
    cases survivor willWake wakers with
    | none => rfl
    | some former =>
      by_cases same : willWake former last = true
      · simp [Waker.kept, same, honest former last same]
      · simp [Waker.kept, same]

/-! ### The way of the waker -/

/-- Where the waker is that the slot was left with, and which were called so far. -/
inductive Bears (waker : Option Waker) : Completer → List Waker → Prop
  | armed : Bears waker .armed []
  | notifying (dropped : Bool) : Bears waker (.notifying dropped waker) []
  | waking (dropped : Bool) (w : Waker) (found : waker = some w) :
    Bears waker (.waking dropped w) []
  | used : Bears waker (.used (waker.bind Waker.panic?)) waker.toList
  | gone : Bears waker (.gone (waker.bind Waker.panic?)) waker.toList

theorem bears_leave (dropped : Bool) :
    Bears waker (.leave dropped (waker.bind Waker.panic?)) waker.toList := by
  cases dropped
  · exact .used
  · exact .gone

/-- The slot keeps the waker until it is filled; from then on the completer has it. -/
structure Attended (willWake : Waker → Waker → Bool) (acts : List (Act V)) (x : Exchange V) :
    Prop where
  sound : Sound acts x
  waits : lastWord acts = none → x.slot = .pending (survivor willWake (early acts))
  bears : Bears (survivor willWake (early acts)) x.completer (woken x.sightings)

theorem attended_fresh : Attended willWake [] (fresh : Exchange V) :=
  ⟨sound_fresh, fun _ => rfl, .armed⟩

theorem woken_snoc (seen : List (Sighting V)) (n : Sighting V) :
    woken (seen ++ [n]) = woken seen ++ woken [n] := List.filterMap_append

/-- An act that leaves the waker where it is. -/
structure Passes (x y : Exchange V) : Prop where
  slot : ∀ former, x.slot = .pending former → y.slot = .pending former
  completer : y.completer = x.completer
  woken : woken y.sightings = woken x.sightings

theorem passes_ask (x : Exchange V) {seen : Option (Outcome V) → Sighting V}
    (silent : ∀ outcome, Exchange.woken [seen outcome] = []) : Passes x (x.ask seen) := by
  refine ⟨fun former pending => ?_, rfl, ?_⟩
  · simp [ask, note, pending, Slot.take]
  · simp only [ask, note]
    rw [woken_snoc, silent, List.append_nil]

theorem passes_look {timed : Bool} {wait : Wait} (act : x.look timed wait = some y) :
    Passes x y := by
  cases wait with
  | asleep => cases act
  | late =>
    obtain rfl := Option.some.inj act
    exact passes_ask x fun _ => rfl
  | awake =>
    simp only [look] at act
    split at act
    · next taken =>
      obtain rfl := Option.some.inj act
      refine ⟨fun former pending => ?_, rfl, ?_⟩
      · simp [pending, Slot.take] at taken
      · cases timed <;> simp [note]
    · obtain rfl := Option.some.inj act
      exact ⟨fun _ pending => pending, rfl, rfl⟩

theorem Attended.pass (h : Attended willWake acts x) (effect : Effect a x y) (passes : Passes x y)
    (silent : a.waker? = none) : Attended willWake (acts ++ [a]) y := by
  have same : early (acts ++ [a]) = early acts := by
    by_cases unspoken : lastWord acts = none
    · rw [early_snoc unspoken, silent]
      exact List.append_nil _
    · exact early_append unspoken [a]
  refine ⟨h.sound.step effect, fun unspoken => ?_, ?_⟩
  · rw [same]
    refine passes.slot _ (h.waits ?_)
    rw [lastWord_snoc] at unspoken
    exact (Option.or_eq_none_iff.1 unspoken).1
  · rw [same, passes.completer, passes.woken]
    exact h.bears

/-- The last word takes the waker out of the slot. -/
theorem Attended.fill (h : Attended willWake acts x) (armed : x.completer = .armed)
    (word : a.word? = some o) {dropped : Bool} (effect : Effect a x (x.fill o dropped)) :
    Attended willWake (acts ++ [a]) (x.fill o dropped) := by
  have unspoken := h.sound.armed.1 armed
  have same : early (acts ++ [a]) = early acts := by
    rw [early_snoc unspoken]
    cases a with
    | poll w => cases word
    | _ => exact List.append_nil _
  refine ⟨h.sound.step effect, fun none => ?_, ?_⟩
  · rw [lastWord_snoc, unspoken, word] at none
    cases none
  · have quiet : woken (x.fill o dropped).sightings = [] := by
      have bears := h.bears
      rw [armed] at bears
      generalize before : woken x.sightings = called at bears
      cases bears
      simpa [Exchange.fill, note] using before
    rw [same, quiet]
    simp only [Exchange.fill, note, h.waits unspoken, Slot.fulfil]
    exact .notifying dropped

/-- Once the last word was spoken, only the completer moves the waker. -/
theorem Attended.onward (h : Attended willWake acts x) (spoken : x.completer ≠ .armed)
    (effect : Effect a x y)
    (bears : Bears (survivor willWake (early acts)) y.completer (woken y.sightings)) :
    Attended willWake (acts ++ [a]) y := by
  have spoken : lastWord acts ≠ none := fun none => spoken (h.sound.armed.2 none)
  refine ⟨h.sound.step effect, fun none => absurd ?_ spoken, early_append spoken [a] ▸ bears⟩
  rw [lastWord_snoc] at none
  exact (Option.or_eq_none_iff.1 none).1

theorem Attended.poll (h : Attended willWake acts x)
    (act : x.stepWith willWake (.poll w) = some y) :
    Attended willWake (acts ++ [.poll w]) y := by
  have effect := effect_of_stepWith act
  simp only [stepWith] at act
  split at act
  · next holding =>
    obtain rfl := Option.some.inj act
    have called (answer : Poll V) :
        woken (x.sightings ++ [.polled answer]) = woken x.sightings := by
      rw [woken_snoc]
      exact List.append_nil _
    by_cases armed : x.completer = .armed
    · have unspoken := h.sound.armed.1 armed
      have bears := h.bears
      refine ⟨h.sound.step effect, fun _ => ?_, ?_⟩
      · rw [early_snoc unspoken]
        simp only [note, Act.waker?, Option.toList_some, survivor_snoc, h.waits unspoken,
          Slot.pollWith]
      · simp only [note, called, armed] at bears ⊢
        generalize woken x.sightings = before at bears ⊢
        cases bears
        exact .armed
    · refine h.onward armed effect ?_
      simp only [note, called]
      exact h.bears
  · cases act

theorem Attended.step (h : Attended willWake acts x) (act : x.stepWith willWake a = some y) :
    Attended willWake (acts ++ [a]) y := by
  have effect := effect_of_stepWith act
  have bears := h.bears
  cases a with
  | complete o =>
    simp only [stepWith, Exchange.step] at act
    split at act
    · next armed =>
      obtain rfl := Option.some.inj act
      exact h.fill armed rfl effect
    · cases act
  | dropCompleter =>
    simp only [stepWith, Exchange.step] at act
    split at act
    · next armed =>
      obtain rfl := Option.some.inj act
      exact h.fill armed rfl effect
    · next panic used =>
      obtain rfl := Option.some.inj act
      refine h.onward (by simp [used]) effect ?_
      rw [used] at bears
      generalize woken x.sightings = called at bears ⊢
      cases bears
      exact .gone
    · cases act
  | notify =>
    simp only [stepWith, Exchange.step] at act
    split at act
    · next dropped waker due =>
      obtain rfl := Option.some.inj act
      refine h.onward (by simp [due]) effect ?_
      rw [due] at bears
      generalize woken x.sightings = called at bears ⊢
      generalize survivor willWake (early acts) = left at bears ⊢
      cases bears
      cases waker with
      | none => exact bears_leave dropped
      | some w => exact .waking dropped w rfl
    · cases act
  | wake =>
    simp only [stepWith, Exchange.step] at act
    split at act
    · next dropped w due =>
      obtain rfl := Option.some.inj act
      refine h.onward (by simp [due]) effect ?_
      simp only [note]
      rw [due] at bears
      rw [woken_snoc]
      generalize woken x.sightings = called at bears ⊢
      generalize survivor willWake (early acts) = left at bears ⊢
      cases bears with
      | waking _ _ found =>
        subst found
        exact bears_leave dropped
    · cases act
  | poll w => exact h.poll act
  | tryJoin =>
    simp only [stepWith, Exchange.step] at act
    split at act
    · obtain rfl := Option.some.inj act
      exact h.pass effect (passes_ask x fun _ => rfl) rfl
    · cases act
  | look =>
    simp only [stepWith, Exchange.step] at act
    split at act
    · exact h.pass effect (passes_look act) rfl
    · cases act
  | isFinished =>
    simp only [stepWith, Exchange.step] at act
    split at act
    · obtain rfl := Option.some.inj act
      exact h.pass effect ⟨fun _ pending => pending, rfl, by simp [note]⟩ rfl
    · cases act
  | joinWithin now timeout =>
    simp only [stepWith, Exchange.step] at act
    split at act
    · split at act
      · obtain rfl := Option.some.inj act
        exact h.pass effect ⟨fun _ pending => pending, rfl, rfl⟩ rfl
      · obtain rfl := Option.some.inj act
        exact h.pass effect ⟨fun _ pending => pending, rfl, by simp [note]⟩ rfl
    · cases act
  | _ =>
    simp only [stepWith, Exchange.step] at act
    split at act
    · obtain rfl := Option.some.inj act
      exact h.pass effect ⟨fun _ pending => pending, rfl, rfl⟩ rfl
    · cases act

theorem Attended.run (h : Attended willWake acts x) (run : x.runWith willWake rest = some y) :
    Attended willWake (acts ++ rest) y := by
  induction rest using List.reverseRecOn generalizing y with
  | nil =>
    obtain rfl := Option.some.inj run
    rwa [List.append_nil]
  | append_singleton rest a ih =>
    rw [runWith_snoc, Option.bind_eq_some_iff] at run
    obtain ⟨z, before, act⟩ := run
    rw [← List.append_assoc]
    exact (ih before).step act

/-! ### Every run -/

/-- What holds of the wakers after some acts. -/
structure WakesOnce (willWake : Waker → Waker → Bool) (task : Waker → T) (acts : List (Act V))
    (x : Exchange V) : Prop where
  /-- A completer that is through woke the task of the latest poll that came too early, if there
  was one, and woke it once; a completer that is not through woke nobody yet. -/
  woken : (woken x.sightings).map task =
    if x.completer.isThrough then ((early acts).getLast?.map task).toList else []
  /-- The waker that was called came in time, and no later poll replaced it. -/
  unreplaced : ∀ w ∈ Exchange.woken x.sightings, ∃ before after,
    early acts = before ++ w :: after ∧ ∀ later ∈ after, willWake w later = true
  /-- Whatever becomes of the waker, the slot was filled once. -/
  filled : fills x.sightings = (lastWord acts).toList
  /-- From then on, so before any waker is called, the outcome is there until it is taken. -/
  takeable : x.completer ≠ .armed → x.slot.isFinished = true ∧ ∃ o, lastWord acts = some o ∧
    (deliveries x.sightings = [o] ∨ deliveries x.sightings = [] ∧ x.slot = .ready o ∧
      (x.caller = .holding → ∀ call, Request call →
        ∃ y, x.runWith willWake call = some y ∧ deliveries y.sightings = [o]))
  /-- A waker that panics leaves everything as a sound one does, but for the panic. -/
  panics : ∀ dropped w, x.completer = .waking dropped w → x.stepWith willWake .wake = some { x with
    completer := .leave dropped w.panic?, sightings := x.sightings ++ [.woken w] }
  /-- A poll calls no waker. It leaves one behind only if it came too early. -/
  polled : ∀ w y, x.stepWith willWake (.poll w) = some y →
    Exchange.woken y.sightings = Exchange.woken x.sightings ∧ y.completer = x.completer ∧
      if x.completer = .armed then y.sightings = x.sightings ++ [.polled .pending]
      else y.slot = .taken
  /-- The completer gets through by itself, and has woken whom it had to. -/
  proceeds : x.completer ≠ .armed → ∃ own : List (Act V), (∀ a ∈ own, a = .notify ∨ a = .wake) ∧
    ∃ y, x.runWith willWake own = some y ∧ y.completer.isThrough = true ∧ y.slot = x.slot ∧
      (Exchange.woken y.sightings).map task = ((early acts).getLast?.map task).toList

theorem Bears.called {completer : Completer} {called : List Waker}
    (h : Bears waker completer called) :
    called = if completer.isThrough then waker.toList else [] := by
  cases h <;> rfl

theorem Attended.woken_eq (h : Attended willWake acts x)
    (honest : ∀ w w', willWake w w' = true → task w = task w') :
    (woken x.sightings).map task =
      if x.completer.isThrough then ((early acts).getLast?.map task).toList else [] := by
  rw [h.bears.called, ← task_survivor honest]
  split
  · cases survivor willWake (early acts) <;> rfl
  · rfl

/-- Where every poll replaces the waker, the waker of the last one is the one to call. -/
theorem woken_of_run (run : fresh.run acts = some x) :
    woken x.sightings = if x.completer.isThrough then (early acts).getLast?.toList else [] := by
  have strict : ∀ w w' : Waker, (w == w') = true → w = w' := fun _ _ same => beq_iff_eq.1 same
  have same : fresh.runWith (· == ·) acts = some x := by
    rw [← run, runWith, Exchange.run, funext₂ (stepWith_eq_step strict)]
  have called : (woken x.sightings).map id =
      if x.completer.isThrough then ((early acts).getLast?.map id).toList else [] :=
    (attended_fresh.run same).woken_eq strict
  simpa using called

theorem Attended.spoken (h : Attended willWake acts x) (spent : x.completer ≠ .armed) :
    ∃ o, lastWord acts = some o :=
  Option.ne_none_iff_exists'.1 fun none => spent (h.sound.armed.2 none)

theorem Attended.takeable (h : Attended willWake acts x) (spent : x.completer ≠ .armed) :
    ∃ o, lastWord acts = some o ∧ (x.slot = .ready o ∧ deliveries x.sightings = [] ∨
      x.slot = .taken ∧ deliveries x.sightings = [o]) := by
  obtain ⟨o, word⟩ := h.spoken spent
  have filled := h.sound.filled
  have tells := h.sound.tells
  rw [word] at filled
  generalize x.slot = slot at tells ⊢
  refine ⟨o, word, ?_⟩
  cases tells with
  | pending _ unfilled _ => cases unfilled.symm.trans filled
  | ready o' filled' kept =>
    obtain rfl : o' = o := by simpa using filled'.symm.trans filled
    exact .inl ⟨rfl, kept⟩
  | taken o' filled' given =>
    obtain rfl : o' = o := by simpa using filled'.symm.trans filled
    exact .inr ⟨rfl, given⟩

/-- The acts that are left to a completer that has filled the slot. -/
theorem exists_through (willWake : Waker → Waker → Bool) (spent : x.completer ≠ .armed) :
    ∃ own : List (Act V), (∀ a ∈ own, a = .notify ∨ a = .wake) ∧
      ∃ y, x.runWith willWake own = some y ∧ y.completer.isThrough = true ∧ y.slot = x.slot := by
  have left (dropped : Bool) (panic : Option Payload) :
      (Completer.leave dropped panic).isThrough = true := by cases dropped <;> rfl
  cases phase : x.completer with
  | armed => exact absurd phase spent
  | notifying dropped waker =>
    cases waker with
    | none =>
      refine ⟨[.notify], by simp, { x with
        completer := .leave dropped none, caller := x.caller.notified }, ?_, left _ _, rfl⟩
      simp [stepWith, Exchange.step, phase]
    | some w =>
      refine ⟨[.notify, .wake], by simp, { x with
        completer := .leave dropped w.panic?, caller := x.caller.notified
        sightings := x.sightings ++ [.woken w] }, ?_, left _ _, rfl⟩
      simp [stepWith, Exchange.step, phase, note]
  | waking dropped w =>
    refine ⟨[.wake], by simp, { x with
      completer := .leave dropped w.panic?, sightings := x.sightings ++ [.woken w] }, ?_,
      left _ _, rfl⟩
    simp [stepWith, Exchange.step, phase, note]
  | used panic => exact ⟨[], by simp, x, rfl, by rw [phase]; rfl, rfl⟩
  | gone panic => exact ⟨[], by simp, x, rfl, by rw [phase]; rfl, rfl⟩

theorem Attended.poll_eq (h : Attended willWake acts x)
    (act : x.stepWith willWake (.poll w) = some y) :
    woken y.sightings = woken x.sightings ∧ y.completer = x.completer ∧
      if x.completer = .armed then y.sightings = x.sightings ++ [.polled .pending]
      else y.slot = .taken := by
  simp only [stepWith] at act
  split at act
  · obtain rfl := Option.some.inj act
    refine ⟨by simp [note], rfl, ?_⟩
    split
    · next armed => simp [note, h.waits (h.sound.armed.1 armed), Slot.pollWith]
    · next spent =>
      obtain ⟨o, -, ⟨ready, -⟩ | ⟨taken, -⟩⟩ := h.takeable spent
      · simp [note, ready, Slot.pollWith]
      · simp [note, taken, Slot.pollWith]
  · cases act

/--
After any acts of a completer and of the caller with its handle, in any order, whatever the
test of two wakers says, as long as the wakers it lets pass for the same wake the same task.
-/
theorem wakes_once (honest : ∀ w w', willWake w w' = true → task w = task w')
    (run : fresh.runWith willWake acts = some x) : WakesOnce willWake task acts x := by
  have h : Attended willWake acts x := attended_fresh.run run
  refine ⟨h.woken_eq honest, fun w called => ?_, h.sound.filled, fun spent => ?_,
    fun dropped w due => ?_, fun w y => h.poll_eq, fun spent => ?_⟩
  · refine stood_of_survivor ?_
    rw [h.bears.called] at called
    split at called
    · exact Option.mem_toList.1 called
    · cases called
  · obtain ⟨o, word, ⟨ready, kept⟩ | ⟨taken, given⟩⟩ := h.takeable spent
    · refine ⟨by rw [ready]; rfl, o, word, .inr ⟨kept, ready, fun holding call => ?_⟩⟩
      exact h.sound.served (h.sound.filled.trans (by rw [word]; rfl)) kept holding
    · exact ⟨by rw [taken]; rfl, o, word, .inl given⟩
  · simp [stepWith, Exchange.step, due, note]
  · obtain ⟨own, acts', y, run', through, slot⟩ := exists_through willWake spent
    have word : lastWord acts ≠ none := fun none => spent (h.sound.armed.2 none)
    refine ⟨own, acts', y, run', through, slot, ?_⟩
    rw [(h.run run').woken_eq honest, through, early_append word]
    rfl

/--
The second waker replaces the first and stays when a third of its name comes, after an attempt
to join within a time; it panics when it is called, and the outcome is there all the same.
-/
theorem wakes_once_faulty :
    ∃ x, (fresh : Exchange Nat).runWith (fun w w' => w.name? == w'.name?)
        [.poll (.named "a" false), .poll (.named "b" true), .joinWithin 0 5, .look, .expire, .look,
          .poll (.named "b" false), .tryJoin, .complete (.ok 7), .notify, .wake, .poll .blocked] =
        some x ∧
      WakesOnce (fun w w' => w.name? == w'.name?) Waker.name?
        [.poll (.named "a" false), .poll (.named "b" true), .joinWithin 0 5, .look, .expire, .look,
          .poll (.named "b" false), .tryJoin, .complete (.ok 7), .notify, .wake, .poll .blocked] x ∧
      woken x.sightings = [.named "b" true] ∧ deliveries x.sightings = [.ok 7] :=
  ⟨_, rfl, wakes_once (fun _ _ same => beq_iff_eq.1 same) rfl, rfl, rfl⟩

end Exchange

end OrderedLanes
