import OrderedLanes.Proofs.Verdicts

/-!
What handles see. A slot is pending until the history settles the task, and then
holds what the history tells of it until a caller takes it: the end of an accepted
task is delivered through its handle, once and unchanged.
-/

namespace OrderedLanes

namespace World

variable {V : Type} {d : Dispatcher Parcel} {w w' : World V} {t : Ticket}
  {history news : List (Happening V)} {slot : Slot V} {given : List (Outcome V)} {o : Outcome V}
  {e : Happening V}

/-- What callers got through a handle. -/
def deliveries (notices : List (Notice V)) (t : Ticket) : List (Outcome V) :=
  notices.filterMap fun
    | .delivered u outcome => if u = t then some outcome else none
    | _ => none

/-- A slot and what callers got from it, against the history. -/
inductive Account (history : List (Happening V)) (t : Ticket) :
    Option (Slot V) → List (Outcome V) → Prop
  | missing : Account history t none []
  | pending (waker : Option Waker) (unsettled : ∀ p ∈ settled history, p.ticket ≠ t) :
      Account history t (some (.pending waker)) []
  | ready (outcome : Outcome V) (told : (t, outcome) ∈ verdicts history) :
      Account history t (some (.ready outcome)) []
  | taken (outcome : Outcome V) (told : (t, outcome) ∈ verdicts history) :
      Account history t (some .taken) [outcome]

theorem Account.append {slot : Option (Slot V)} (h : Account history t slot given)
    (quiet : ∀ p ∈ settled news, p.ticket ≠ t) : Account (history ++ news) t slot given := by
  have tells : ∀ {o}, (t, o) ∈ verdicts history → (t, o) ∈ verdicts (history ++ news) :=
    fun told => by rw [verdicts_append]; exact List.mem_append_left _ told
  cases h with
  | missing => exact .missing
  | pending waker unsettled =>
    refine .pending waker fun p found => ?_
    rw [settled_append] at found
    exact (List.mem_append.1 found).elim (unsettled p) (quiet p)
  | ready o told => exact .ready o (tells told)
  | taken o told => exact .taken o (tells told)

/-- A slot is filled with what the history just told. -/
theorem Account.fulfil (h : Account history t (some slot) given)
    (verdict : verdict? e = some (t, o)) :
    Account (history ++ [e]) t (some (slot.fulfil o).2) given := by
  have tells : ∀ {o'}, (t, o') ∈ verdicts history → (t, o') ∈ verdicts (history ++ [e]) :=
    fun told => by rw [verdicts_append]; exact List.mem_append_left _ told
  cases h with
  | pending waker unsettled => exact .ready o (by simp [verdicts, verdict])
  | ready o' told => exact .ready o' (tells told)
  | taken o' told => exact .taken o' (tells told)

theorem Account.poll (h : Account history t (some slot) given) (waker : Waker) :
    Account history t (some (slot.poll waker).2)
      (given ++ match (slot.poll waker).1 with
        | .ready o => [o]
        | _ => []) := by
  cases h with
  | pending waker' unsettled => exact .pending _ unsettled
  | ready o told => exact .taken o told
  | taken o told => exact .taken o told

theorem Account.take (h : Account history t (some slot) given) :
    Account history t (some slot.take.2) (given ++ slot.take.1.toList) := by
  cases h with
  | pending waker unsettled => exact .pending waker unsettled
  | ready o told => exact .taken o told
  | taken o told => exact .taken o told

/-- Every submission has a slot, and all slots agree with the history. -/
structure Accounted (w : World V) : Prop where
  handles : w.slots.length = w.submissions.length
  account : ∀ t, Account w.history t w.slots[t]? (deliveries w.notices t)

namespace Accounted

theorem quiet (h : w.Accounted) (slots : w'.slots = w.slots) (notices : w'.notices = w.notices)
    (submissions : w'.submissions.length = w.submissions.length)
    (history : w'.history = w.history ++ news) (none : settled news = []) : w'.Accounted := by
  refine ⟨by rw [slots, submissions, h.handles], fun t => ?_⟩
  rw [slots, notices, history]
  exact (h.account t).append (by simp [none])

/-- What neither fills nor empties a slot, and is not told, changes nothing. -/
theorem still (h : w.Accounted) (slots : w'.slots = w.slots) (notices : w'.notices = w.notices)
    (submissions : w'.submissions.length = w.submissions.length)
    (history : w'.history = w.history) : w'.Accounted :=
  h.quiet slots notices submissions (history.trans (List.append_nil _).symm) rfl

theorem begin (h : w.Accounted) (known : ∀ p ∈ settled w.history, p.ticket < w.slots.length)
    (key : Key) (stamped : Bool) : (w.begin key stamped).Accounted := by
  refine ⟨by simp [World.begin, h.handles], fun t => ?_⟩
  change Account w.history t (w.slots ++ [.fresh])[t]? (deliveries w.notices t)
  have was := h.account t
  rcases Nat.lt_trichotomy t w.slots.length with old | rfl | beyond
  · rwa [List.getElem?_append_left old]
  · rw [List.getElem?_eq_none (Nat.le_refl _)] at was
    rw [List.getElem?_concat_length]
    cases given : deliveries w.notices w.slots.length with
    | nil => exact .pending _ fun p settled => Nat.ne_of_lt (known p settled)
    | cons => rw [given] at was; cases was
  · rw [List.getElem?_eq_none (Nat.le_of_lt beyond)] at was
    rwa [List.getElem?_eq_none (by simpa using beyond)]

/-- One slot is changed. -/
theorem set {slot' : Slot V} (h : w.Accounted) (there : w.slots[t]? = some slot)
    (slots : w'.slots = w.slots.set t slot') (submissions : w'.submissions = w.submissions)
    (history : w'.history = w.history ++ news)
    (apart : ∀ u, u ≠ t → deliveries w'.notices u = deliveries w.notices u)
    (mine : ∀ p ∈ settled news, p.ticket = t)
    (own : Account w'.history t (some slot') (deliveries w'.notices t)) : w'.Accounted := by
  refine ⟨by rw [slots, List.length_set, submissions, h.handles], fun u => ?_⟩
  rw [slots]
  by_cases here : u = t
  · subst here
    rwa [getElem?_set_there there]
  · rw [List.getElem?_set_ne (Ne.symm here), apart u here, history]
    exact (h.account u).append fun p found same => here (same.symm.trans (mine p found))

/-- A caller asks at a slot, and may get the outcome. -/
theorem ask {slot' : Slot V} (h : w.Accounted) (got : Option (Outcome V))
    (there : w.slots[t]? = some slot)
    (own : Account w.history t (some slot') (deliveries w.notices t ++ got.toList)) :
    (got.elim { w with slots := w.slots.set t slot' } fun o =>
      { w with slots := w.slots.set t slot' }.notice (.delivered t o)).Accounted := by
  cases got with
  | none =>
    refine h.set there rfl rfl (List.append_nil _).symm (fun u apart => rfl) (by simp) ?_
    simpa using own
  | some o =>
    refine h.set there rfl rfl (List.append_nil _).symm (fun u apart => ?_) (by simp) ?_
    · simp [notice, deliveries, Ne.symm apart]
    · simpa [notice, deliveries] using own

/-- The slot of a task is filled with what the history just told. -/
theorem deliver (h : w.Accounted) (verdict : verdict? e = some (t, o)) :
    ((w.note e).deliver t o).2.Accounted := by
  have own : ∀ p ∈ settled [e], p.ticket = t := by
    intro p found
    obtain ⟨e', there, settles⟩ := List.mem_filterMap.1 found
    obtain rfl := List.mem_singleton.1 there
    exact ticket_of_settles settles verdict
  unfold World.deliver
  cases there : w.slots[t]? with
  | none =>
    simp only [World.note, there]
    refine ⟨h.handles, fun u => ?_⟩
    have was := h.account u
    by_cases here : u = t
    · subst here
      rw [there] at was ⊢
      cases given : deliveries w.notices u with
      | nil => exact .missing
      | cons => rw [given] at was; cases was
    · exact was.append fun p found same => here (same.symm.trans (own p found))
  | some slot =>
    have was := h.account t
    rw [there] at was
    simp only [World.note, there]
    split
    · exact h.set there rfl rfl rfl (fun _ _ => rfl) own (was.fulfil verdict)
    · next waker woken =>
      have same : ∀ u, deliveries (w.notices ++ [.woken t waker]) u = deliveries w.notices u :=
        fun u => by simp [deliveries]
      have filled := was.fulfil verdict
      rw [← same t] at filled
      exact h.set there rfl rfl rfl (fun u _ => same u) own filled

theorem discard (h : w.Accounted) (p : Parcel) : (w.discard p).2.Accounted := h.deliver rfl

theorem endTask (h : w.Accounted) (p : Parcel) (lane : Option LaneIndex) (ending : Ending V) :
    (w.endTask p lane ending).2.Accounted := h.deliver rfl

theorem discardAll (h : w.Accounted) (ps : List Parcel) : (w.discardAll ps).2.Accounted := by
  induction ps generalizing w with
  | nil => exact h
  | cons p ps ih => exact ih (h.discard p)

theorem unwind (h : w.Accounted) (panic : Option Payload) : (w.unwind t panic).Accounted := by
  cases panic with
  | none => exact h
  | some payload =>
    refine ⟨h.handles, fun u => ?_⟩
    change Account w.history u w.slots[u]? (deliveries (w.notices ++ [.unwound t payload]) u)
    simpa [deliveries] using h.account u

theorem settle (h : w.Accounted) {own : Option (LaneIndex × Parcel)}
    (mine : ∀ i p, own = some (i, p) → p.ticket = t) (submitted : Submitted Parcel) :
    (w.settle t own submitted).Accounted := by
  unfold World.settle
  split
  · exact h.quiet rfl rfl rfl rfl rfl
  · next i p _ =>
    obtain rfl := mine i p rfl
    exact unwind (h.deliver rfl) _
  · have noted : (w.note (.rejected t)).Accounted := h.quiet rfl rfl rfl rfl rfl
    exact (noted.discardAll _).unwind _

theorem advance (h : w.Accounted) (sound : AllSound w.submissions)
    (act : w.advance t = some w') : w'.Accounted := by
  obtain ⟨s, there, unfinished⟩ := unfinished_of_advance act
  have quiet : settled (submissionNews (V := V) w.dispatcher t s
      (s.step w.dispatcher).value.1 (s.step w.dispatcher).events) = [] := by
    unfold submissionNews
    split
    · rw [settled, List.filterMap_cons_none rfl, filterMap_evictions _ fun _ _ => rfl]
    · exact filterMap_halting _ (fun _ _ => rfl) _ _ _ _
    · rfl
  cases ended : (s.step w.dispatcher).value.1.answer? with
  | none =>
    rw [advance_on there unfinished rfl ended] at act
    obtain rfl := Option.some.inj act
    exact h.quiet rfl rfl (List.length_set ..) rfl quiet
  | some submitted =>
    rw [advance_end there unfinished rfl ended] at act
    obtain rfl := Option.some.inj act
    have moved : { w with
      dispatcher := (s.step w.dispatcher).value.2
      submissions := w.submissions.set t (s.step w.dispatcher).value.1
      history := w.history ++ submissionNews w.dispatcher t s (s.step w.dispatcher).value.1
        (s.step w.dispatcher).events }.Accounted :=
      h.quiet rfl rfl (List.length_set ..) rfl quiet
    refine moved.settle (fun i p own => ?_) submitted
    unfold queueing? at own
    split at own
    · obtain ⟨rfl, rfl⟩ := Prod.mk.inj (Option.some.inj own)
      rw [(sound t s there).task]
    · cases own

theorem advanceStop {n : Nat} (h : w.Accounted) (act : w.advanceStop n = some w') :
    w'.Accounted := by
  obtain ⟨s, there, unfinished⟩ := unfinished_of_advanceStop act
  have quiet : settled (stopNews (V := V) w.dispatcher n s) = [] := by
    unfold stopNews
    split
    · split <;> rfl
    · split <;> rfl
    · rfl
    · exact filterMap_halting _ (fun _ _ => rfl) _ _ _ _
    · rfl
  cases ended : (s.step w.dispatcher).1.report? with
  | none =>
    rw [advanceStop_on there unfinished rfl ended rfl] at act
    obtain rfl := Option.some.inj act
    exact h.quiet rfl rfl rfl rfl quiet
  | some report =>
    have step : s.step w.dispatcher = (.done report, (s.step w.dispatcher).2) :=
      Prod.ext (eq_done_of_report ended) rfl
    rw [advanceStop_end there unfinished step rfl] at act
    obtain rfl := Option.some.inj act
    refine h.quiet rfl rfl rfl (List.append_assoc ..) ?_
    rw [settled_append, quiet]
    rfl

/-- Every act keeps the slots in agreement with the history. -/
theorem step (h : w.Accounted) (sound : AllSound w.submissions)
    (known : ∀ p ∈ settled w.history, p.ticket < w.slots.length) {a : Act V}
    (act : w.step a = some w') : w'.Accounted := by
  cases a with
  | submit key stamped =>
    obtain rfl := Option.some.inj act
    exact h.begin known key stamped
  | submitUnordered =>
    obtain rfl := Option.some.inj act
    have drawn : { w with counter := w.counter.draw.2 }.Accounted := h.still rfl rfl rfl rfl
    exact drawn.begin known _ false
  | stop kind =>
    obtain rfl := Option.some.inj act
    exact h.still rfl rfl rfl rfl
  | drawStamp key =>
    obtain rfl := Option.some.inj act
    exact h.still rfl rfl rfl rfl
  | advance t => exact h.advance sound act
  | refuseThread t source =>
    obtain ⟨s, stamp, i, -, -, rfl⟩ := refuseThread_cases act
    exact h.quiet rfl rfl (List.length_set ..) rfl rfl
  | advanceStop n => exact h.advanceStop act
  | receive i =>
    obtain ⟨l, -, -, ⟨p, queue, -, rfl⟩ | ⟨-, -, rfl⟩⟩ := receive_cases act
    · exact h.quiet rfl rfl rfl rfl rfl
    · exact h.still rfl rfl rfl rfl
  | inspect i =>
    obtain ⟨l, p, -, -, ⟨-, rfl⟩ | ⟨-, rfl⟩⟩ := inspect_cases act
    · exact h.quiet rfl rfl rfl rfl rfl
    · exact (h.discard p).still rfl rfl rfl rfl
  | finish i ending =>
    obtain ⟨l, p, -, -, rfl⟩ := finish_cases act
    exact (h.endTask p (some i) ending).still rfl rfl rfl rfl
  | runReturned t ending =>
    obtain ⟨p, -, rfl⟩ := runReturned_cases act
    have started : ({ w with returned := w.returned.erase p }.note (.started p none)).Accounted :=
      h.quiet rfl rfl rfl rfl rfl
    exact started.endTask p none ending
  | dropReturned t =>
    obtain ⟨p, -, rfl⟩ := dropReturned_cases act
    have without : { w with returned := w.returned.erase p }.Accounted := h.still rfl rfl rfl rfl
    exact without.deliver rfl
  | poll t waker =>
    obtain ⟨slot, there, answer⟩ := poll_cases act
    have own := h.account t
    rw [there] at own
    replace own := own.poll waker
    obtain ⟨o, ready, rfl⟩ | ⟨other, rfl⟩ := answer
    · rw [ready] at own
      exact h.ask (some o) there own
    · split at own
      · next o ready => exact absurd ready (other o)
      · exact h.ask none there own
  | take t =>
    obtain ⟨slot, there, answer⟩ := take_cases act
    have own := h.account t
    rw [there] at own
    replace own := own.take
    obtain ⟨o, ready, rfl⟩ | ⟨empty, rfl⟩ := answer
    · rw [ready] at own
      exact h.ask (some o) there own
    · rw [empty] at own
      exact h.ask none there own

end Accounted

theorem accounted_of_run (new : d.Fresh) {counter : KeyCounter} {acts : List (Act V)}
    (run : (fresh d counter).run acts = some w) : w.Accounted := by
  refine run_induction (P := fun _ w => w.Accounted) ⟨rfl, fun t => .missing⟩ ?_ run
  intro acts v a w before accounted act
  have reached : Reachable d v.core := reachable_of_run before
  have kept : v.core.Kept := reached.kept new
  refine accounted.step reached.allSound (fun p ended => ?_) act
  exact accounted.handles ▸ kept.known p (kept.accepted_of_settled ended)

/-- A handle delivers the outcome: it is there for whoever asks, or was handed out once. -/
def Delivers (w : World V) (t : Ticket) (o : Outcome V) : Prop :=
  w.slots[t]? = some (.ready o) ∧ deliveries w.notices t = [] ∨
    w.slots[t]? = some .taken ∧ deliveries w.notices t = [o]

theorem Delivers.isFinished (h : w.Delivers t o) :
    ∃ slot, w.slots[t]? = some slot ∧ slot.isFinished = true := by
  rcases h with ⟨ready, -⟩ | ⟨taken, -⟩
  · exact ⟨_, ready, rfl⟩
  · exact ⟨_, taken, rfl⟩

/-- What a handle delivers the history tells. -/
theorem Accounted.told (h : w.Accounted) (delivers : w.Delivers t o) :
    (t, o) ∈ verdicts w.history := by
  have account := h.account t
  rcases delivers with ⟨ready, -⟩ | ⟨taken, given⟩
  · rw [ready] at account
    generalize deliveries w.notices t = given at account
    cases account with
    | ready o told => exact told
  · rw [taken, given] at account
    cases account with
    | taken o told => exact told

/-- The handle of a task that has met its end delivers just what the history tells of it. -/
theorem Kept.delivers (kept : w.Kept) (h : w.Accounted) {p : Parcel} (there : e ∈ w.history)
    (settles : settles? e = some p) (verdict : verdict? e = some (p.ticket, o)) :
    w.Delivers p.ticket o := by
  have ended : p ∈ settled w.history := List.mem_filterMap.2 ⟨e, there, settles⟩
  have only : ∀ o', (p.ticket, o') ∈ verdicts w.history → o' = o := fun o' told =>
    kept.verdict_unique there settles verdict told
  have account := h.account p.ticket
  have within : p.ticket < w.slots.length :=
    h.handles ▸ kept.known p (kept.accepted_of_settled ended)
  rw [List.getElem?_eq_getElem within] at account
  rw [Delivers, List.getElem?_eq_getElem within]
  generalize w.slots[p.ticket] = slot at account ⊢
  generalize deliveries w.notices p.ticket = given at account ⊢
  cases account with
  | pending waker unsettled => exact absurd rfl (unsettled p ended)
  | ready o' told =>
    obtain rfl := only o' told
    exact .inl ⟨rfl, rfl⟩
  | taken o' told =>
    obtain rfl := only o' told
    exact .inr ⟨rfl, rfl⟩

theorem Accounted.delivers (h : w.Accounted) (reached : Reachable d w.core) (new : d.Fresh)
    {p : Parcel} (there : e ∈ w.history) (settles : settles? e = some p)
    (verdict : verdict? e = some (p.ticket, o)) : w.Delivers p.ticket o :=
  (reached.kept new).of_core.delivers h there settles verdict

end World

end OrderedLanes
