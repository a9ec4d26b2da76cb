import Mathlib.Data.List.Induction
import OrderedLanes.Interleaving.Waking

/-!
What passes between a completer and the caller that holds the handle. Whatever the
order of their acts, the slot is filled once, with the outcome that the completer was
used with or with a cancellation if it was dropped, and that outcome is handed out once:
to the first call that asks for it from then on. A join within a time of which the clock
cannot tell the end asks for nothing: it panics, and the handle is lost with it.
-/

namespace OrderedLanes

namespace Exchange

variable {V : Type} {willWake : Waker → Waker → Bool} {x y : Exchange V} {a : Act V}
  {acts rest : List (Act V)} {o : Outcome V} {s s' : Slot V} {n : Sighting V}
  {seen : List (Sighting V)}

theorem runWith_append (x : Exchange V) (acts rest : List (Act V)) :
    x.runWith willWake (acts ++ rest) = (x.runWith willWake acts).bind (·.runWith willWake rest) :=
  List.foldlM_append

theorem runWith_snoc (x : Exchange V) (acts : List (Act V)) (a : Act V) :
    x.runWith willWake (acts ++ [a]) = (x.runWith willWake acts).bind (·.stepWith willWake a) := by
  simp [runWith_append]

/-! ### One access of the slot -/

/-- An access takes the slot from `s` to `s'` and shows `n`. -/
inductive Shows : Slot V → Sighting V → Slot V → Prop
  | filled (waker : Option Waker) (o : Outcome V) : Shows (.pending waker) (.filled o) (.ready o)
  | woken (s : Slot V) (waker : Waker) : Shows s (.woken waker) s
  | given {n : Sighting V} (o : Outcome V) (gets : n.outcome? = some o) :
    Shows (.ready o) n .taken
  | early (former : Option Waker) (waker : Waker) :
    Shows (.pending former) (.polled .pending) (.pending (some waker))
  | misuse : Shows .taken (.polled .misuse) .taken
  | triedInVain (s : Slot V) (nothing : s.take.1 = none) : Shows s (.tried none) s
  | waitedInVain (s : Slot V) (nothing : s.take.1 = none) : Shows s (.waited none) s
  | overflowed (s : Slot V) : Shows s .overflowed s
  | finished (s : Slot V) : Shows s (.finished s.isFinished) s

/-- The slot, and what was seen of it. -/
inductive Tells : Slot V → List (Sighting V) → Prop
  | pending (waker : Option Waker) {seen : List (Sighting V)} (unfilled : fills seen = [])
    (kept : deliveries seen = []) : Tells (.pending waker) seen
  | ready (o : Outcome V) {seen : List (Sighting V)} (filled : fills seen = [o])
    (kept : deliveries seen = []) : Tells (.ready o) seen
  | taken (o : Outcome V) {seen : List (Sighting V)} (filled : fills seen = [o])
    (given : deliveries seen = [o]) : Tells .taken seen

/-- What was seen before allows this sighting. -/
structure Fits (before : List (Sighting V)) (n : Sighting V) : Prop where
  /-- The slot is not filled twice. -/
  once : ∀ o, n = .filled o → fills before = []
  /-- An outcome is delivered only once the slot is filled with it, and only the first time. -/
  delivered : ∀ o, n.outcome? = some o → fills before = [o] ∧ deliveries before = []
  /-- From then on the first call that asks gets it, unless the clock keeps it from looking. -/
  first : ∀ o, n.asks → n ≠ .overflowed → fills before = [o] → deliveries before = [] →
    n.outcome? = some o
  finished : ∀ answer, n = .finished answer → (answer = true ↔ fills before ≠ [])
  /-- Whoever asks after that asks in vain. -/
  spent : n.asks → deliveries before ≠ [] →
    n.outcome? = none ∧ ∀ answer, n = .polled answer → answer = .misuse

theorem outcome?_of_silent (silent : n.asks = false) : n.outcome? = none := by
  cases n <;> first | rfl | cases silent

theorem fits_of_silent (silent : n.asks = false) (once : ∀ o, n = .filled o → fills seen = [])
    (finished : ∀ answer, n = .finished answer → (answer = true ↔ fills seen ≠ [])) :
    Fits seen n := by
  refine ⟨once, ?_, ?_, finished, ?_⟩
  · simp [outcome?_of_silent silent]
  · simp [silent]
  · simp [silent]

/-- A call that gets nothing: the slot is not filled yet, or was emptied before. -/
theorem Tells.fits_in_vain (h : Tells s seen) (nothing : s.take.1 = none) (asks : n.asks = true)
    (gets : n.outcome? = none) (polled : ∀ answer, n = .polled answer → s = .taken →
      answer = .misuse) : Fits seen n := by
  refine ⟨?_, by simp [gets], fun o _ _ filled kept => ?_, ?_, fun _ given => ⟨gets, ?_⟩⟩
  · rintro o rfl
    cases asks
  · cases h with
    | pending _ unfilled _ => cases unfilled.symm.trans filled
    | ready _ _ _ => cases nothing
    | taken _ _ given => cases given.symm.trans kept
  · rintro answer rfl
    cases asks
  · intro answer told
    cases h with
    | pending _ _ kept => exact absurd kept given
    | ready _ _ _ => cases nothing
    | taken _ _ _ => exact polled answer told rfl

/-- What is seen at an access agrees with all that was seen before. -/
theorem Tells.fits (h : Tells s seen) (access : Shows s n s') : Fits seen n := by
  cases access with
  | filled waker o =>
    obtain ⟨_, unfilled, _⟩ := h
    exact fits_of_silent rfl (fun _ _ => unfilled) (by simp)
  | woken s waker => exact fits_of_silent rfl (by simp) (by simp)
  | given o gets =>
    obtain _ | ⟨_, filled, kept⟩ := h
    refine ⟨?_, ?_, ?_, ?_, fun _ given => absurd kept given⟩
    · rintro o' rfl
      cases gets
    · intro o' gets'
      obtain rfl := Option.some.inj (gets.symm.trans gets')
      exact ⟨filled, kept⟩
    · intro o' _ _ filled' _
      obtain rfl : o = o' := by simpa using filled.symm.trans filled'
      exact gets
    · rintro answer rfl
      cases gets
  | early former waker => exact h.fits_in_vain rfl rfl rfl (by simp)
  | misuse => exact h.fits_in_vain rfl rfl rfl (by simp)
  | triedInVain s nothing => exact h.fits_in_vain nothing rfl rfl (by simp)
  | waitedInVain s nothing => exact h.fits_in_vain nothing rfl rfl (by simp)
  | overflowed s =>
    exact ⟨by simp, by simp [Sighting.outcome?], fun o _ other => absurd rfl other, by simp,
      fun _ _ => ⟨rfl, by simp⟩⟩
  | finished s =>
    refine fits_of_silent rfl (by simp) fun answer told => ?_
    obtain rfl := Sighting.finished.inj told
    cases h <;> simp [Slot.isFinished, *]

theorem fills_snoc (seen : List (Sighting V)) (n : Sighting V) :
    fills (seen ++ [n]) = fills seen ++ fills [n] := List.filterMap_append

theorem deliveries_snoc (seen : List (Sighting V)) (n : Sighting V) :
    deliveries (seen ++ [n]) = deliveries seen ++ n.outcome?.toList := by
  cases h : n.outcome? <;> simp [h]

theorem fills_of_asks (asks : n.asks = true) : fills [n] = [] := by
  cases n <;> first | rfl | cases asks

/-- Where nothing is filled and nothing delivered the same is told as before. -/
theorem Tells.keep (h : Tells s seen) (fills : fills [n] = []) (gets : n.outcome? = none) :
    Tells s (seen ++ [n]) := by
  cases h with
  | pending waker unfilled kept =>
    exact .pending waker (by rw [fills_snoc, unfilled, fills]; rfl)
      (by rw [deliveries_snoc, kept, gets]; rfl)
  | ready o filled kept =>
    exact .ready o (by rw [fills_snoc, filled, fills]; rfl)
      (by rw [deliveries_snoc, kept, gets]; rfl)
  | taken o filled given =>
    exact .taken o (by rw [fills_snoc, filled, fills]; rfl)
      (by rw [deliveries_snoc, given, gets]; rfl)

theorem Tells.step (h : Tells s seen) (access : Shows s n s') : Tells s' (seen ++ [n]) := by
  cases access with
  | filled waker o =>
    obtain ⟨_, unfilled, kept⟩ := h
    exact .ready o (by rw [fills_snoc, unfilled]; rfl) (by rw [deliveries_snoc, kept]; rfl)
  | given o gets =>
    obtain _ | ⟨_, filled, kept⟩ := h
    have asks : n.asks = true := by
      by_contra silent
      rw [outcome?_of_silent (Bool.eq_false_iff.2 silent)] at gets
      cases gets
    exact .taken o (by rw [fills_snoc, filled, fills_of_asks asks]; rfl)
      (by rw [deliveries_snoc, kept, gets]; rfl)
  | early former waker =>
    obtain ⟨_, unfilled, kept⟩ := h
    exact (Tells.pending (some waker) unfilled kept).keep rfl rfl
  | _ => exact h.keep rfl rfl

/-! ### One act -/

/-- The outcome that an act of the completer leaves, if the slot is still its own. -/
def Act.word? : Act V → Option (Outcome V)
  | .complete o => some o
  | .dropCompleter => some (.error .cancelled)
  | _ => none

/-- What one act does. -/
inductive Effect (a : Act V) (x y : Exchange V) : Prop
  | fills (o : Outcome V) (dropped : Bool) (word : a.word? = some o)
    (armed : x.completer = .armed) (result : y = x.fill o dropped)
  /-- Whoever blocks is notified. -/
  | notifies (dropped : Bool) (waker : Option Waker)
    (due : x.completer = .notifying dropped waker) (spent : y.completer ≠ .armed)
    (slot : y.slot = x.slot) (sightings : y.sightings = x.sightings)
    (caller : y.caller = x.caller.notified)
  /-- The completer calls the waker, or is dropped after it was used. -/
  | leaves (before : x.completer ≠ .armed) (heard : ∀ d w, x.completer ≠ .notifying d w)
    (after : y.completer ≠ .armed) (slot : y.slot = x.slot) (caller : y.caller = x.caller)
    (sightings : y.sightings = x.sightings ∨ ∃ w, y.sightings = x.sightings ++ [.woken w])
  /-- A call of the caller has an answer. -/
  | answers (n : Sighting V) (access : Shows x.slot n y.slot) (silent : Exchange.fills [n] = [])
    (sightings : y.sightings = x.sightings ++ [n]) (completer : y.completer = x.completer)
    (word : a.word? = none) (awake : ∀ timed, y.caller ≠ .waiting timed .asleep)
  /-- The caller begins to wait, goes on or lets its handle go; it blocks on an empty slot only. -/
  | turns (slot : y.slot = x.slot) (sightings : y.sightings = x.sightings)
    (completer : y.completer = x.completer) (word : a.word? = none)
    (asleep : ∀ timed, y.caller = .waiting timed .asleep → x.slot.take.1 = none)

theorem shows_take {n : Option (Outcome V) → Sighting V} (gets : ∀ o, (n o).outcome? = o)
    (vain : s.take.1 = none → Shows s (n none) s) : Shows s (n s.take.1) s.take.2 := by
  cases s with
  | pending waker => exact vain rfl
  | ready o => exact .given o (gets _)
  | taken => exact vain rfl

theorem shows_pollWith (s : Slot V) (waker : Waker) :
    Shows s (.polled (s.pollWith willWake waker).1) (s.pollWith willWake waker).2 := by
  cases s with
  | pending former => exact .early former _
  | ready o => exact .given o rfl
  | taken => exact .misuse

theorem ask_awake (x : Exchange V) (seen : Option (Outcome V) → Sighting V) (timed : Bool) :
    (x.ask seen).caller ≠ .waiting timed .asleep := by
  cases taken : x.slot.take.1.isSome <;> simp [ask, note, taken]

theorem notified_awake (c : Caller) (timed : Bool) : c.notified ≠ .waiting timed .asleep := by
  unfold Caller.notified
  split
  · simp
  · next other => exact fun same => other timed same

theorem leave_spent (dropped : Bool) (panic : Option Payload) :
    Completer.leave dropped panic ≠ .armed := by
  cases dropped <;> simp [Completer.leave]

theorem effect_of_look {timed : Bool} {wait : Wait} (act : x.look timed wait = some y) :
    Effect .look x y := by
  cases wait with
  | asleep => cases act
  | late =>
    obtain rfl := Option.some.inj act
    exact .answers _ (shows_take (fun _ => rfl) (.waitedInVain _)) rfl rfl rfl rfl
      (ask_awake x .waited)
  | awake =>
    simp only [look] at act
    split at act
    · next o slot taken =>
      obtain rfl := Option.some.inj act
      have there : x.slot = .ready o ∧ slot = .taken := by
        cases h : x.slot <;> simp_all [Slot.take]
      obtain ⟨there, rfl⟩ := there
      refine .answers (if timed then .waited (some o) else .joined o) ?_ ?_ rfl rfl rfl
        (by simp [note])
      · rw [there]
        exact .given o (by cases timed <;> rfl)
      · cases timed <;> rfl
    · next slot taken =>
      obtain rfl := Option.some.inj act
      exact .turns rfl rfl rfl rfl fun _ _ => by rw [taken]

/-- Every act has its effect. -/
theorem effect_of_stepWith (act : x.stepWith willWake a = some y) : Effect a x y := by
  cases a with
  | complete o =>
    simp only [stepWith, step] at act
    split at act
    · next armed => exact .fills o false rfl armed (Option.some.inj act).symm
    · cases act
  | dropCompleter =>
    simp only [stepWith, step] at act
    split at act
    · next armed => exact .fills _ true rfl armed (Option.some.inj act).symm
    · next panic used =>
      obtain rfl := Option.some.inj act
      exact .leaves (by simp [used]) (by simp [used]) (by simp) rfl rfl (.inl rfl)
    · cases act
  | notify =>
    simp only [stepWith, step] at act
    split at act
    · next dropped waker due =>
      obtain rfl := Option.some.inj act
      refine .notifies dropped waker due ?_ rfl rfl rfl
      cases waker with
      | none => exact leave_spent dropped none
      | some waker => simp
    · cases act
  | wake =>
    simp only [stepWith, step] at act
    split at act
    · next dropped waker due =>
      obtain rfl := Option.some.inj act
      exact .leaves (by simp [due]) (by simp [due]) (leave_spent dropped _) rfl rfl
        (.inr ⟨waker, rfl⟩)
    · cases act
  | poll waker =>
    simp only [stepWith] at act
    split at act
    · next holding =>
      obtain rfl := Option.some.inj act
      exact .answers _ (shows_pollWith x.slot waker) rfl rfl rfl rfl (by simp [note, holding])
    · cases act
  | tryJoin =>
    simp only [stepWith, step] at act
    split at act
    · obtain rfl := Option.some.inj act
      exact .answers _ (shows_take (fun _ => rfl) (.triedInVain _)) rfl rfl rfl rfl
        (ask_awake x .tried)
    · cases act
  | look =>
    simp only [stepWith, step] at act
    split at act
    · exact effect_of_look act
    · cases act
  | isFinished =>
    simp only [stepWith, step] at act
    split at act
    · next holding =>
      obtain rfl := Option.some.inj act
      exact .answers _ (.finished x.slot) rfl rfl rfl rfl (by simp [note, holding])
    · cases act
  | joinWithin now timeout =>
    simp only [stepWith, step] at act
    split at act
    · split at act
      · obtain rfl := Option.some.inj act
        exact .turns rfl rfl rfl rfl (by simp)
      · obtain rfl := Option.some.inj act
        exact .answers _ (.overflowed x.slot) rfl rfl rfl rfl (by simp [note])
    · cases act
  | _ =>
    simp only [stepWith, step] at act
    split at act
    · obtain rfl := Option.some.inj act
      exact .turns rfl rfl rfl rfl (by simp)
    · cases act

/-- A caller without its handle can do nothing. -/
theorem gone_of_stepWith (act : x.stepWith willWake a = some y) (gone : x.caller = .gone) :
    y.caller = .gone ∧ deliveries y.sightings = deliveries x.sightings := by
  cases a with
  | complete o =>
    simp only [stepWith, step] at act
    split at act
    · obtain rfl := Option.some.inj act
      exact ⟨gone, by simp [Exchange.fill, note, Sighting.outcome?]⟩
    · cases act
  | dropCompleter =>
    simp only [stepWith, step] at act
    split at act
    · obtain rfl := Option.some.inj act
      exact ⟨gone, by simp [Exchange.fill, note, Sighting.outcome?]⟩
    · obtain rfl := Option.some.inj act
      exact ⟨gone, rfl⟩
    · cases act
  | notify =>
    simp only [stepWith, step] at act
    split at act
    · obtain rfl := Option.some.inj act
      exact ⟨by rw [gone]; rfl, rfl⟩
    · cases act
  | wake =>
    simp only [stepWith, step] at act
    split at act
    · obtain rfl := Option.some.inj act
      exact ⟨gone, by simp [note, Sighting.outcome?]⟩
    · cases act
  | _ => simp [stepWith, step, gone] at act

theorem gone_of_runWith (run : x.runWith willWake rest = some y) (gone : x.caller = .gone) :
    y.caller = .gone ∧ deliveries y.sightings = deliveries x.sightings := by
  induction rest using List.reverseRecOn generalizing y with
  | nil =>
    obtain rfl := Option.some.inj run
    exact ⟨gone, rfl⟩
  | append_singleton rest a ih =>
    rw [runWith_snoc, Option.bind_eq_some_iff] at run
    obtain ⟨z, before, act⟩ := run
    obtain ⟨gone', same⟩ := ih before
    obtain ⟨gone'', same'⟩ := gone_of_stepWith act gone'
    exact ⟨gone'', same'.trans same⟩

/-! ### Every run -/

/-- The outcome that the completer was used with, or a cancellation if it was dropped unused. -/
def lastWord (acts : List (Act V)) : Option (Outcome V) := acts.findSome? Act.word?

theorem lastWord_snoc (acts : List (Act V)) (a : Act V) :
    lastWord (acts ++ [a]) = (lastWord acts).or a.word? := by
  cases h : a.word? <;> simp [lastWord, List.findSome?_append, h]

/-- The calls by which a caller with its handle in hand asks for the outcome. -/
inductive Request : List (Act V) → Prop
  | poll (waker : Waker) : Request [.poll waker]
  | tryJoin : Request [.tryJoin]
  | join : Request [.join, .look]
  | joinWithin (now timeout : Nat) (told : (deadline? now timeout).isSome) :
      Request [.joinWithin now timeout, .look]

/-- Those that come to an end where there is no outcome any more. -/
inductive Retry : List (Act V) → Prop
  | poll (waker : Waker) : Retry [.poll waker]
  | tryJoin : Retry [.tryJoin]
  | joinWithin (now timeout : Nat) (told : (deadline? now timeout).isSome) :
      Retry [.joinWithin now timeout, .look, .expire, .look]

/-- What holds of a handle and its completer after some acts. -/
structure DeliversOnce (willWake : Waker → Waker → Bool) (acts : List (Act V)) (x : Exchange V) :
    Prop where
  /-- The completer's last word is still to come just while it holds the slot. -/
  armed : x.completer = .armed ↔ lastWord acts = none
  /-- The slot was filled once with the last word, and never before it. -/
  filled : fills x.sightings = (lastWord acts).toList
  /-- Callers got nothing, or just what the slot was filled with, once. -/
  delivered : deliveries x.sightings <+: fills x.sightings
  /-- Everything seen fits what was seen before. -/
  fits : ∀ before n after, x.sightings = before ++ n :: after → Fits before n
  /-- An outcome that is there goes to the next call that asks for it, whichever it is. -/
  served : ∀ o, fills x.sightings = [o] → deliveries x.sightings = [] → x.caller = .holding →
    ∀ call, Request call → ∃ y, x.runWith willWake call = some y ∧ deliveries y.sightings = [o]
  /-- It goes to a caller that waits as soon as that one looks, be it for the last time. -/
  looked : ∀ o, fills x.sightings = [o] → deliveries x.sightings = [] →
    ∀ timed wait, x.caller = .waiting timed wait → wait ≠ .asleep →
      ∃ y, x.stepWith willWake .look = some y ∧ deliveries y.sightings = [o]
  /-- A caller that blocks although the slot was filled is about to be notified, or late. -/
  awake : ∀ timed, x.caller = .waiting timed .asleep → fills x.sightings = [] ∨
    deliveries x.sightings ≠ [] ∨ ∃ dropped waker, x.completer = .notifying dropped waker
  /-- Once the outcome was handed out, the handle stays with whoever asks again. -/
  spent : deliveries x.sightings ≠ [] → x.caller = .holding →
    ∀ call, Retry call → ∃ y, x.runWith willWake call = some y ∧ y.caller = .holding ∧
      deliveries y.sightings = deliveries x.sightings
  /-- Where the clock cannot tell when a wait is up, the caller loses its handle, whatever is in
  the slot. -/
  overflows : x.caller = .holding → ∀ now timeout, deadline? now timeout = none →
    x.stepWith willWake (.joinWithin now timeout) =
      some ({ x with caller := .gone }.note .overflowed)
  /-- Without its handle a caller gets nothing any more. -/
  gone : x.caller = .gone → ∀ more y, x.runWith willWake more = some y →
    y.caller = .gone ∧ deliveries y.sightings = deliveries x.sightings

/-- The invariant behind it. -/
structure Sound (acts : List (Act V)) (x : Exchange V) : Prop where
  tells : Tells x.slot x.sightings
  armed : x.completer = .armed ↔ lastWord acts = none
  filled : fills x.sightings = (lastWord acts).toList
  fits : ∀ before n after, x.sightings = before ++ n :: after → Fits before n
  awake : ∀ timed, x.caller = .waiting timed .asleep → x.slot.take.1 = none ∨
    ∃ dropped waker, x.completer = .notifying dropped waker

theorem sound_fresh : Sound [] (fresh : Exchange V) := by
  refine ⟨.pending none rfl rfl, ?_, rfl, ?_, ?_⟩
  · simp [fresh, lastWord]
  · simp [fresh]
  · simp [fresh]

theorem fits_snoc (old : ∀ before n after, seen = before ++ n :: after → Fits before n)
    (new : Fits seen n) :
    ∀ before m after, seen ++ [n] = before ++ m :: after → Fits before m := by
  intro before m after split
  rcases List.eq_nil_or_concat after with rfl | ⟨rest, last, rfl⟩
  · obtain ⟨rfl, same⟩ := List.append_inj' split rfl
    obtain rfl := List.singleton_inj.1 same
    exact new
  · rw [List.concat_eq_append, ← List.cons_append, ← List.append_assoc] at split
    obtain ⟨rfl, -⟩ := List.append_inj' split rfl
    exact old before m rest rfl

/-- The slot of a completer that holds it is pending. -/
theorem Sound.pending (h : Sound acts x) (armed : x.completer = .armed) :
    ∃ waker, x.slot = .pending waker := by
  have unfilled : fills x.sightings = [] := by rw [h.filled, h.armed.1 armed]; rfl
  have tells := h.tells
  generalize x.slot = slot at tells ⊢
  cases tells with
  | pending waker _ _ => exact ⟨waker, rfl⟩
  | ready o filled _ => cases unfilled.symm.trans filled
  | taken o filled _ => cases unfilled.symm.trans filled

theorem Sound.step (h : Sound acts x) (effect : Effect a x y) : Sound (acts ++ [a]) y := by
  have word := lastWord_snoc acts a
  cases effect with
  | fills o dropped last armed result =>
    obtain ⟨waker, pending⟩ := h.pending armed
    have none := h.armed.1 armed
    have access : Shows x.slot (.filled o) y.slot := by
      subst result
      simpa [Exchange.fill, note, pending, Slot.fulfil] using Shows.filled waker o
    have seen : y.sightings = x.sightings ++ [.filled o] := by rw [result]; rfl
    rw [none, last, Option.none_or] at word
    refine ⟨seen ▸ h.tells.step access, ?_, ?_, seen ▸ fits_snoc h.fits (h.tells.fits access), ?_⟩
    · simp [result, Exchange.fill, note, word]
    · rw [seen, fills_snoc, h.filled, none, word]
      rfl
    · exact fun _ _ => .inr ⟨dropped, _, by rw [result]; rfl⟩
  | notifies dropped waker due spent slot sightings caller =>
    have some : lastWord acts ≠ none := fun none => by simpa [due] using h.armed.2 none
    have same : lastWord (acts ++ [a]) = lastWord acts := by
      rw [word]
      exact Option.or_of_isSome (Option.isSome_iff_ne_none.2 some)
    refine ⟨slot ▸ sightings ▸ h.tells, ?_, ?_, sightings ▸ h.fits, fun timed asleep => ?_⟩
    · rw [same]
      exact iff_of_false spent some
    · rw [sightings, same, h.filled]
    · rw [caller] at asleep
      exact absurd asleep (notified_awake x.caller timed)
  | leaves before heard after slot caller sightings =>
    have some : lastWord acts ≠ none := fun none => before (h.armed.2 none)
    have same : lastWord (acts ++ [a]) = lastWord acts := by
      rw [word]
      exact Option.or_of_isSome (Option.isSome_iff_ne_none.2 some)
    have awake : ∀ timed, y.caller = .waiting timed .asleep → y.slot.take.1 = none ∨
        ∃ dropped waker, y.completer = .notifying dropped waker := by
      intro timed asleep
      rw [caller] at asleep
      rw [slot]
      refine .inl ((h.awake timed asleep).resolve_right ?_)
      rintro ⟨dropped, waker, due⟩
      exact heard dropped waker due
    have armed : y.completer = .armed ↔ lastWord (acts ++ [a]) = none := by
      rw [same]
      exact iff_of_false after some
    rcases sightings with quiet | ⟨waker, woken⟩
    · exact ⟨slot ▸ quiet ▸ h.tells, armed, by rw [quiet, same, h.filled], quiet ▸ h.fits, awake⟩
    · have access : Shows x.slot (.woken waker) y.slot := slot ▸ .woken x.slot waker
      refine ⟨woken ▸ h.tells.step access, armed, ?_,
        woken ▸ fits_snoc h.fits (h.tells.fits access), awake⟩
      rw [woken, fills_snoc, same, h.filled]
      exact List.append_nil _
  | answers n access silent sightings completer last awake =>
    rw [last, Option.or_none] at word
    refine ⟨sightings ▸ h.tells.step access, ?_, ?_,
      sightings ▸ fits_snoc h.fits (h.tells.fits access), fun timed asleep =>
        absurd asleep (awake timed)⟩
    · rw [completer, word, h.armed]
    · rw [sightings, fills_snoc, silent, List.append_nil, word, h.filled]
  | turns slot sightings completer last asleep =>
    rw [last, Option.or_none] at word
    refine ⟨slot ▸ sightings ▸ h.tells, ?_, ?_, sightings ▸ h.fits, fun timed sleeps =>
      .inl (slot ▸ asleep timed sleeps)⟩
    · rw [completer, word, h.armed]
    · rw [sightings, word, h.filled]

theorem sound_of_runWith (run : fresh.runWith willWake acts = some x) : Sound acts x := by
  induction acts using List.reverseRecOn generalizing x with
  | nil =>
    obtain rfl := Option.some.inj run
    exact sound_fresh
  | append_singleton acts a ih =>
    rw [runWith_snoc, Option.bind_eq_some_iff] at run
    obtain ⟨w, before, act⟩ := run
    exact (ih before).step (effect_of_stepWith act)

theorem Sound.ready (h : Sound acts x) (filled : fills x.sightings = [o])
    (kept : deliveries x.sightings = []) : x.slot = .ready o := by
  have tells := h.tells
  generalize x.slot = slot at tells ⊢
  cases tells with
  | pending _ unfilled _ => cases unfilled.symm.trans filled
  | ready o' filled' _ =>
    obtain rfl : o' = o := by simpa using filled'.symm.trans filled
    rfl
  | taken _ _ given => cases given.symm.trans kept

theorem Sound.taken (h : Sound acts x) (given : deliveries x.sightings ≠ []) :
    x.slot = .taken := by
  have tells := h.tells
  generalize x.slot = slot at tells ⊢
  cases tells with
  | pending _ _ kept => exact absurd kept given
  | ready _ _ kept => exact absurd kept given
  | taken _ _ _ => rfl

theorem Sound.served (h : Sound acts x) (filled : fills x.sightings = [o])
    (kept : deliveries x.sightings = []) (holding : x.caller = .holding) {call : List (Act V)}
    (asks : Request call) :
    ∃ y, x.runWith willWake call = some y ∧ deliveries y.sightings = [o] := by
  have ready := h.ready filled kept
  cases asks with
  | poll waker =>
    simp [stepWith, holding, ready, Slot.pollWith, note, kept, Sighting.outcome?]
  | tryJoin =>
    simp [stepWith, Exchange.step, holding, ask, ready, Slot.take, note, kept, Sighting.outcome?]
  | join =>
    simp [stepWith, Exchange.step, holding, look, ready, Slot.take, note, kept, Sighting.outcome?]
  | joinWithin now timeout told =>
    simp [stepWith, Exchange.step, holding, told, look, ready, Slot.take, note, kept,
      Sighting.outcome?]

theorem Sound.looked (h : Sound acts x) (filled : fills x.sightings = [o])
    (kept : deliveries x.sightings = []) {timed : Bool} {wait : Wait}
    (waiting : x.caller = .waiting timed wait) (awake : wait ≠ .asleep) :
    ∃ y, x.stepWith willWake .look = some y ∧ deliveries y.sightings = [o] := by
  have ready := h.ready filled kept
  cases wait with
  | asleep => exact absurd rfl awake
  | awake =>
    cases timed <;>
      simp [stepWith, Exchange.step, waiting, look, ready, Slot.take, note, kept,
        Sighting.outcome?]
  | late =>
    simp [stepWith, Exchange.step, waiting, look, ask, ready, Slot.take, note, kept,
      Sighting.outcome?]

theorem Sound.spent (h : Sound acts x) (given : deliveries x.sightings ≠ [])
    (holding : x.caller = .holding) {call : List (Act V)} (asks : Retry call) :
    ∃ y, x.runWith willWake call = some y ∧ y.caller = .holding ∧
      deliveries y.sightings = deliveries x.sightings := by
  have taken := h.taken given
  cases asks with
  | poll waker => simp [stepWith, holding, taken, Slot.pollWith, note, Sighting.outcome?]
  | tryJoin =>
    simp [stepWith, Exchange.step, holding, ask, taken, Slot.take, note, Sighting.outcome?]
  | joinWithin now timeout told =>
    simp [stepWith, Exchange.step, holding, told, ask, look, taken, Slot.take, note,
      Sighting.outcome?]

/--
After any acts of a completer and of the caller with its handle, in any order: the slot was
filled once with the completer's last word, and callers got it once, from the first call that
asked for it on.
-/
theorem delivers_once (run : fresh.runWith willWake acts = some x) :
    DeliversOnce willWake acts x := by
  have h := sound_of_runWith run
  refine ⟨h.armed, h.filled, ?_, h.fits, ?_, ?_, ?_, ?_, ?_, ?_⟩
  · have tells := h.tells
    generalize x.slot = slot at tells
    cases tells with
    | pending _ unfilled kept => rw [kept]; exact List.nil_prefix
    | ready o filled kept => rw [kept]; exact List.nil_prefix
    | taken o filled given => exact filled ▸ given ▸ List.prefix_rfl
  · exact fun o filled kept holding call => h.served filled kept holding
  · exact fun o filled kept timed wait => h.looked filled kept
  · intro timed asleep
    rcases h.awake timed asleep with nothing | due
    · have tells := h.tells
      generalize x.slot = slot at tells nothing
      cases tells with
      | pending _ unfilled _ => exact .inl unfilled
      | ready _ _ _ => cases nothing
      | taken _ _ given => exact .inr (.inl (by simp [given]))
    · exact .inr (.inr due)
  · exact fun given holding call => h.spent given holding
  · intro holding now timeout untold
    simp [stepWith, Exchange.step, holding, untold]
  · exact fun gone more y later => gone_of_runWith later gone

/-- A poll too early, a completer whose waker panics, a poll in time, and two calls too late. -/
theorem delivers_once_seven :
    ∃ x, (fresh : Exchange Nat).runWith (· == ·)
        [.poll (.named "w" true), .complete (.ok 7), .isFinished, .notify, .wake,
          .poll .blocked, .poll .blocked, .tryJoin, .dropCompleter, .dropHandle] = some x ∧
      DeliversOnce (· == ·)
        [.poll (.named "w" true), .complete (.ok 7), .isFinished, .notify, .wake,
          .poll .blocked, .poll .blocked, .tryJoin, .dropCompleter, .dropHandle] x ∧
      x.completer = .gone (some (.text "waker panicked")) ∧ deliveries x.sightings = [.ok 7] :=
  ⟨_, rfl, delivers_once rfl, rfl, rfl⟩

/--
The outcome is there when a caller joins within the longest time there is. It is the first call that
asks, and it gets nothing, nor does anyone after it.
-/
theorem outcome_lost_in_overflow :
    ∃ x y : Exchange Nat, fresh.runWith (· == ·) [.complete (.ok 7), .notify] = some x ∧
      fills x.sightings = [.ok 7] ∧ deliveries x.sightings = [] ∧ x.caller = .holding ∧
      x.stepWith (· == ·) (.joinWithin 0 longestTimeout) = some y ∧
      ∀ more z, y.runWith (· == ·) more = some z → deliveries z.sightings = [] := by
  refine ⟨_, _, rfl, rfl, rfl, rfl, rfl, fun more z run => ?_⟩
  exact (gone_of_runWith run rfl).2

end Exchange

end OrderedLanes
