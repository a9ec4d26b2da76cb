import OrderedLanes.Proofs.Settlement

/-!
What the history says about a submission and its task. A submission is answered
once, and the task of one that was accepted meets one end: it is run to its end or
thrown away.
-/

namespace OrderedLanes

/-- Two items of a list that stand for the same are the same if nothing stands twice. -/
theorem eq_of_nodup_filterMap {α β : Type} {f : α → Option β} {l : List α} {a b : α} {x : β}
    (distinct : (l.filterMap f).Nodup) (ha : a ∈ l) (hb : b ∈ l) (fa : f a = some x)
    (fb : f b = some x) : a = b := by
  by_contra apart
  have pairs := List.pairwise_filterMap.1 distinct
  have : Std.Symm fun a b => ∀ y, f a = some y → ∀ z, f b = some z → y ≠ z :=
    ⟨fun _ _ h y hy z hz => (h z hz y hy).symm⟩
  exact pairs.forall ha hb apart x fa x fb rfl

namespace World

variable {V : Type} {d : Dispatcher Parcel} {w w' : World V} {t : Ticket} {p : Parcel}

/-! ### Answers -/

/-- The submission that the event answers. -/
def answered? : Happening V → Option Ticket
  | .accepted p _ => some p.ticket
  | .rejected t => some t
  | _ => none

abbrev answered (history : List (Happening V)) : List Ticket := history.filterMap answered?

/-- A submission ends and its answer is told, or nothing is. -/
theorem Effect.answers (e : Effect w w') (sound : AllSound w.submissions) :
    (∃ (t : Ticket) (s : Submission Parcel) (submitted : Submitted Parcel),
      w.submissions[t]? = some s ∧ s.answer? = none ∧
      w'.submissions[t]? = some (s.on (.done submitted)) ∧
      answered w'.history = answered w.history ++ [t]) ∨
    answered w'.history = answered w.history := by
  cases e with
  | refuse t s submitted there refused =>
    refine .inl ⟨t, s, submitted, there, ?_, getElem?_set_there there _, by simp [answered?]⟩
    obtain ⟨key, task, phase⟩ := s
    cases refused <;> rfl
  | accept t s stamp i l there phase lane accepting =>
    have ticket : (s.task i stamp).ticket = t := by rw [(sound t s there).task]
    refine .inl ⟨t, s, _, there, ?_, getElem?_set_there there _, by simp [answered?, ticket]⟩
    simp [Submission.answer?, phase]
  | forfeit t s i report there phase =>
    refine .inl ⟨t, s, _, there, ?_, getElem?_set_there there _, ?_⟩
    · simp [Submission.answer?, phase]
    · simp [answered?]
  | lookUp t s stamp there phase =>
    refine .inr ?_
    rw [World.answered, List.filterMap_append, List.filterMap_cons_none rfl,
      filterMap_evictions _ fun _ _ => rfl, List.append_nil]
  | retire | shut =>
    have quiet := filterMap_halting (answered? (V := V)) fun _ _ => rfl
    exact .inr (by simp [quiet])
  | _ => exact .inr (by simp [answered?])

/-- Every submission is answered at most once, and then it has ended. -/
theorem Reachable.answered (h : Reachable d w) : (answered w.history).Nodup ∧
    ∀ t ∈ World.answered w.history, ∃ s, w.submissions[t]? = some s ∧ s.answer?.isSome := by
  induction h with
  | start => simp [fresh]
  | @step w w' before effect ih =>
    obtain ⟨distinct, ended⟩ := ih
    have stay : ∀ t ∈ World.answered w.history,
        ∃ s, w'.submissions[t]? = some s ∧ s.answer?.isSome := by
      intro t told
      obtain ⟨s, there, done⟩ := ended t told
      obtain ⟨key, task, phase⟩ := s
      cases phase <;> try cases done
      exact ⟨_, effect.ended there rfl, rfl⟩
    rcases effect.answers before.allSound with
      ⟨t, s, submitted, there, going, there', told⟩ | same
    · have new : t ∉ World.answered w.history := by
        intro told
        obtain ⟨r, found, done⟩ := ended t told
        obtain rfl := Option.some.inj (there.symm.trans found)
        simp [going] at done
      rw [told]
      refine ⟨List.nodup_append.2 ⟨distinct, by simp, ?_⟩, fun u listed => ?_⟩
      · intro u old v last same
        exact new (List.mem_singleton.1 last ▸ same ▸ old)
      · rcases List.mem_append.1 listed with old | last
        · exact stay u old
        · obtain rfl := List.mem_singleton.1 last
          exact ⟨_, there', rfl⟩
    · rw [same]
      exact ⟨distinct, stay⟩

theorem Reachable.not_rejected (h : Reachable d w) (listed : p ∈ accepted w.history) :
    .rejected p.ticket ∉ w.history := by
  intro rejected
  obtain ⟨i, accepted⟩ := mem_accepted.1 listed
  have same := eq_of_nodup_filterMap h.answered.1 accepted rejected rfl rfl
  cases same

/-! ### Ends -/

/-- The task that meets its end: it was run or thrown away, by a worker or by others. -/
def settles? : Happening V → Option Parcel
  | .ended p _ _ | .discarded p | .dropped p => some p
  | _ => none

abbrev settled (history : List (Happening V)) : List Parcel := history.filterMap settles?

theorem settled_append (history news : List (Happening V)) :
    settled (history ++ news) = settled history ++ settled news :=
  List.filterMap_append

/-- The tasks that ended with callers that they had come back to. -/
abbrev endedByCallers (history : List (Happening V)) : List Parcel :=
  history.filterMap fun
    | .ended p none _ => some p
    | _ => none

theorem count_settled (history : List (Happening V)) (x : Parcel) :
    (settled history).count x =
      (finished history).count x + (endedByCallers history).count x +
        (discarded history).count x + (droppedByCallers history).count x := by
  induction history with
  | nil => rfl
  | cons h history ih =>
    cases h with
    | ended p lane ending =>
      cases lane <;>
        simp only [settled, settles?, finished, endedByCallers, discarded, droppedByCallers,
          List.filterMap_cons, List.count_cons] at ih ⊢ <;>
        omega
    | discarded p =>
      simp only [settled, settles?, finished, endedByCallers, discarded, droppedByCallers,
        List.filterMap_cons, List.count_cons] at ih ⊢
      omega
    | dropped p =>
      simp only [settled, settles?, finished, endedByCallers, discarded, droppedByCallers,
        List.filterMap_cons, List.count_cons] at ih ⊢
      omega
    | _ => exact ih

/-- A caller that starts a task runs it to its end. -/
theorem Effect.callers (e : Effect w w') : ∃ news, w'.history = w.history ++ news ∧
    endedByCallers news = startedByCallers news := by
  cases e with
  | lookUp => exact ⟨_, rfl, by simp⟩
  | retire => exact ⟨_, rfl, by simp⟩
  | shut => exact ⟨_, rfl, by simp⟩
  | forfeit => exact ⟨_, rfl, by simp⟩
  | _ => first | exact ⟨_, rfl, rfl⟩ | exact ⟨[], (List.append_nil _).symm, rfl⟩

theorem Reachable.endedByCallers_eq (h : Reachable d w) :
    endedByCallers w.history = startedByCallers w.history := by
  induction h with
  | start => rfl
  | step before effect ih =>
    obtain ⟨news, history, same⟩ := effect.callers
    rw [history, startedByCallers_append, endedByCallers, List.filterMap_append]
    exact congrArg₂ (· ++ ·) ih same

/-- Every accepted task is accounted for, and its submission was answered with nothing else. -/
structure Kept (w : World V) : Prop where
  tickets : ((accepted w.history).map Parcel.ticket).Nodup
  known : ∀ p ∈ accepted w.history, p.ticket < w.submissions.length
  answered : ∀ p ∈ accepted w.history, .rejected p.ticket ∉ w.history
  holdings : ∀ x, w.holdings.count x = (accepted w.history).count x
  starts : ∀ x, StartsKept w x
  returns : ∀ x, ReturnsKept w x
  callers : endedByCallers w.history = startedByCallers w.history

theorem Reachable.kept (h : Reachable d w) (new : d.Fresh) : w.Kept where
  tickets := h.tickets_nodup
  known := by
    intro p listed
    obtain ⟨i, listed⟩ := mem_accepted.1 listed
    obtain ⟨s, stamp, there, -⟩ := (h.identified listed).ended
    exact (List.getElem?_eq_some_iff.1 there).1
  answered := fun _ listed => h.not_rejected listed
  holdings := (h.holdings_perm new).count_eq
  starts := h.startsKept new
  returns := h.returnsKept
  callers := h.endedByCallers_eq

/-- It does not matter what only handles see. -/
theorem Kept.of_core (h : w.core.Kept) : w.Kept :=
  ⟨h.tickets, h.known, h.answered, h.holdings, h.starts, h.returns, h.callers⟩

theorem Kept.accepted_nodup (h : w.Kept) : (accepted w.history).Nodup :=
  List.Nodup.of_map Parcel.ticket h.tickets

/-- Only accepted tasks meet an end. -/
theorem Kept.count_settled_le (h : w.Kept) (x : Parcel) :
    (settled w.history).count x ≤ (accepted w.history).count x := by
  have all := h.holdings x
  have kept : ReturnsKept w x := h.returns x
  have le := count_handedBack_le w x
  simp only [World.holdings, List.count_append] at all
  simp only [ReturnsKept] at kept
  rw [count_settled, h.callers]
  omega

theorem Kept.accepted_of_settled (h : w.Kept) (ended : p ∈ settled w.history) :
    p ∈ accepted w.history :=
  List.count_pos_iff.1 ((List.count_pos_iff.2 ended).trans_le (h.count_settled_le p))

/-- No task meets two ends. -/
theorem Kept.settled_nodup (h : w.Kept) : (settled w.history).Nodup :=
  List.nodup_iff_count_le_one.2 fun x =>
    (h.count_settled_le x).trans (List.nodup_iff_count_le_one.1 h.accepted_nodup x)

/-- Only accepted tasks are started or thrown away, and no task both. -/
theorem Kept.count_starts_le (h : w.Kept) (x : Parcel) :
    (World.starts w.history).count x + (discarded w.history).count x +
      (droppedByCallers w.history).count x ≤ (accepted w.history).count x := by
  have all := h.holdings x
  have started : StartsKept w x := h.starts x
  have returned : ReturnsKept w x := h.returns x
  have handed := count_handedBack_le w x
  have running := count_running_le w.dispatcher.lanes x
  simp only [World.holdings, List.count_append] at all
  simp only [StartsKept] at started
  simp only [ReturnsKept] at returned
  rw [count_starts]
  omega

theorem Kept.accepted_of_started (h : w.Kept) (started : p ∈ World.starts w.history) :
    p ∈ accepted w.history := by
  have le := h.count_starts_le p
  have some := List.count_pos_iff.2 started
  exact List.count_pos_iff.1 (by omega)

/-! ### Verdicts -/

/-- What the event means for a handle. -/
def verdict? : Happening V → Option (Ticket × Outcome V)
  | .ended p _ ending => some (p.ticket, ending.outcome)
  | .discarded p | .dropped p => some (p.ticket, .error .cancelled)
  | .rejected t => some (t, .error .cancelled)
  | _ => none

abbrev verdicts (history : List (Happening V)) : List (Ticket × Outcome V) :=
  history.filterMap verdict?

theorem verdicts_append (history news : List (Happening V)) :
    verdicts (history ++ news) = verdicts history ++ verdicts news :=
  List.filterMap_append

theorem ticket_of_settles {e : Happening V} {o : Outcome V} (settles : settles? e = some p)
    (verdict : verdict? e = some (t, o)) : p.ticket = t := by
  cases e <;> cases settles <;> cases verdict <;> rfl

/-- What the history tells the handle of an accepted task is the end of that task. -/
theorem Kept.settles (h : w.Kept) (listed : p ∈ accepted w.history) {e : Happening V}
    {o : Outcome V} (there : e ∈ w.history) (verdict : verdict? e = some (p.ticket, o)) :
    settles? e = some p := by
  cases settles : settles? e with
  | none =>
    -- Otherwise only a rejection tells anything.
    obtain rfl : e = .rejected p.ticket := by
      cases e <;> cases settles <;> cases verdict
      rfl
    exact absurd there (h.answered p listed)
  | some q =>
    have theirs := h.accepted_of_settled (List.mem_filterMap.2 ⟨e, there, settles⟩)
    rw [List.inj_on_of_nodup_map h.tickets theirs listed (ticket_of_settles settles verdict)]

/-- The end of a task is all that the history tells its handle. -/
theorem Kept.verdict_unique (h : w.Kept) {e : Happening V} {o o' : Outcome V}
    (there : e ∈ w.history) (settles : settles? e = some p)
    (verdict : verdict? e = some (p.ticket, o)) (told : (p.ticket, o') ∈ verdicts w.history) :
    o' = o := by
  have listed := h.accepted_of_settled (List.mem_filterMap.2 ⟨e, there, settles⟩)
  obtain ⟨e', there', verdict'⟩ := List.mem_filterMap.1 told
  have settles' := h.settles listed there' verdict'
  obtain rfl := eq_of_nodup_filterMap h.settled_nodup there' there settles' settles
  exact congrArg Prod.snd (Option.some.inj (verdict'.symm.trans verdict))

end World

end OrderedLanes
