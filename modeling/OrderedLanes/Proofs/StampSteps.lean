import OrderedLanes.Proofs.Absorption
import OrderedLanes.Proofs.KeyRoll
import OrderedLanes.Proofs.Tenures

/-!
Stamps while submissions are made one at a time. A stamped submission draws its stamp before it
looks its key up, so that for a while there may be a counter for a key that is not assigned, and
the look-up itself may take another key and its counter away. `InStep` says what holds all the
while: the stamps drawn in the tenure that lasts, that of the last submission included, are
1, 2, 3, …, and the next one follows.
-/

namespace OrderedLanes

/-- 1, 2, 3, … -/
def Numbered (stamps : List Stamp) : Prop :=
  stamps = (List.range' 1 stamps.length).map UInt64.ofNat

namespace Numbered

variable {l l' : List Stamp}

theorem nil : Numbered [] := rfl

theorem snoc (h : Numbered l) : Numbered (l ++ [UInt64.ofNat (l.length + 1)]) := by
  rw [Numbered, List.length_append, List.length_singleton, List.range'_1_concat, List.map_append,
    ← h, Nat.add_comm 1]
  rfl

theorem of_front (h : Numbered l) (front : l' <+: l) : Numbered l' := by
  obtain ⟨rest, rfl⟩ := front
  rw [Numbered, List.length_append, ← List.range'_append_1, List.map_append] at h
  exact (List.append_inj h (by simp)).1

end Numbered

namespace Allocator

variable {a a' : Allocator} {r : Roll} {key k : Key} {gone : Option Key}

theorem Mirrors.lane_lt (h : a.Mirrors r) (key : Key) : (a.resolve key).value.1 < r.lanes := by
  have least := (Roll.leastLoaded_spec h.fit.lanes r.pairs).1
  rw [(h.resolve key).answer]
  cases h.fit.resolving key with
  | hit lane there result => rw [result]; exact h.fit.housed _ there
  | room absent room result => rw [result]; exact least
  | full front last split absent full result => rw [result]; exact least

theorem Takes.counted (h : a.Takes a' key gone) (there : k ∈ a'.stamps.counters) :
    k ∈ a.stamps.counters ∧ gone ≠ some k := by
  rw [h.stamps] at there
  cases gone with
  | none => exact ⟨there, by simp⟩
  | some last =>
    have kept : last ≠ k ∧ k ∈ a.stamps.counters := by simpa [Stamps.forget] using there
    exact ⟨kept.2, by simpa using kept.1⟩

theorem Takes.peek (h : a.Takes a' key gone) (k : Key) :
    a'.stamps.peek k = if gone = some k then 1 else a.stamps.peek k := by
  rw [h.stamps]
  cases gone <;> simp

/-- Where only assigned keys are counted there are no more counters than keys fit. -/
theorem Keeps.size_counters_le {l : List (Key × LaneIndex)} (h : a.Keeps l)
    (counted : ∀ key, key ∈ a.stamps.counters → (a.assignment key).isSome) :
    a.stamps.counters.size ≤ a.capacity := by
  have within : a.stamps.counters.keys ⊆ l.map Prod.fst := fun key there =>
    (isSome_assignment_iff h.lists).1 (counted key (Std.HashMap.mem_keys.1 there))
  calc a.stamps.counters.size = a.stamps.counters.keys.length := Std.HashMap.length_keys.symm
    _ ≤ (l.map Prod.fst).length := (List.subperm_of_subset Std.HashMap.nodup_keys within).length_le
    _ ≤ a.capacity := by rw [List.length_map]; exact h.fits

end Allocator

namespace Submission

variable {α : Type} {d : Dispatcher α} {s : Submission α} {stamp : Option Stamp}

/-- The stamp that a submission has drawn before it looks its key up. -/
def drawn? (s : Submission α) : Option Stamp :=
  match s.phase with
  | .admitting stamp | .resolving stamp => stamp
  | _ => none

/-- The stamp that a submission which has looked its key up ended with, or is going to end with. -/
def carried? (up : Bool) (s : Submission α) : Option Stamp :=
  match s.phase with
  | .seeking stamp _ | .starting stamp _ | .installing stamp _ _ | .yielding stamp _ _ _
  | .rechecking stamp _ => if up then none else stamp
  | .queueing stamp _ | .done ⟨.accepted stamp, _⟩ => stamp
  | _ => none

/-- The submission is going to draw a stamp, or has one and is to look at the flag again. -/
def Drawing (s : Submission α) : Prop :=
  match s.phase with
  | .stamping | .admitting (some _) => True
  | _ => False

/-- The submission has looked its key up, or has ended. -/
def LookedUp (s : Submission α) : Prop :=
  match s.phase with
  | .entering | .stamping | .admitting _ | .resolving _ => False
  | _ => True

/-- How a submission comes by its access from `s` to `s'`, if it is not one to the allocator. -/
structure Goes (up : Bool) (s s' : Submission α) : Prop where
  key : s'.key = s.key
  looked : s.LookedUp → s'.LookedUp
  drawn : s'.drawn? = s.drawn?
  carried : s'.carried? up = s.carried? up ∨ s'.carried? up = none ∧ up = true
  drawing : up = true → ¬ s'.Drawing

/-- While the flag is down a submission that is to be queued finds a lane that accepts it. -/
def Welcome (d : Dispatcher α) (s : Submission α) : Prop :=
  ∀ stamp i, s.phase = .queueing stamp i → d.shutdown = false →
    ∃ l, d.lane? i = some l ∧ l.accepting = true

theorem goes_step (idle : ¬ s.phase.Allocating)
    (named : Config.nameable d.config.threadName = true) (welcome : s.Welcome d)
    (quiet : d.shutdown = true → ¬ s.Drawing) : s.Goes d.shutdown (s.step d).value.1 := by
  obtain ⟨key, task, phase⟩ := s
  cases phase with
  | stamping => exact absurd trivial idle
  | resolving stamp => exact absurd trivial idle
  | entering =>
    cases up : d.shutdown with
    | true =>
      simp only [step, up, if_true]
      exact ⟨rfl, fun _ => trivial, rfl, .inl rfl, fun _ => id⟩
    | false =>
      simp only [step, up]
      exact ⟨rfl, id, rfl, .inl rfl, by simp⟩
  | admitting stamp =>
    cases up : d.shutdown with
    | true =>
      cases stamp with
      | some stamp => exact absurd trivial (quiet up)
      | none =>
        simp only [step, up, if_true]
        exact ⟨rfl, fun _ => trivial, rfl, .inl rfl, fun _ => id⟩
    | false =>
      simp only [step, up]
      exact ⟨rfl, id, rfl, .inl rfl, by simp⟩
  | starting stamp i =>
    simp only [step, named, if_true]
    exact ⟨rfl, fun _ => trivial, rfl, .inl rfl, fun _ => id⟩
  | rechecking stamp i =>
    cases up : d.shutdown with
    | true =>
      simp only [step, up, if_true]
      exact ⟨rfl, fun _ => trivial, rfl, .inl rfl, fun _ => id⟩
    | false =>
      simp only [step, up]
      exact ⟨rfl, fun _ => trivial, rfl, .inl rfl, fun _ => id⟩
  | queueing stamp i =>
    cases queued : (d.lane? i).bind (Lane.enqueue · (task i stamp)) with
    | some l =>
      simp only [step, queued]
      exact ⟨rfl, fun _ => trivial, rfl, .inl rfl, fun _ => id⟩
    | none =>
      simp only [step, queued]
      refine ⟨rfl, fun _ => trivial, rfl, .inr ⟨rfl, ?_⟩, fun _ => id⟩
      by_contra down
      obtain ⟨l, lane, accepting⟩ := welcome stamp i rfl (by simpa using down)
      simp [lane, accepting] at queued
  | yielding stamp i own c => cases c <;> exact ⟨rfl, fun _ => trivial, rfl, .inl rfl, fun _ => id⟩
  | retiring i c =>
    cases c with
    | done report => exact ⟨rfl, fun _ => trivial, rfl, .inl rfl, fun _ => id⟩
    | _ =>
      simp only [step]
      split <;> exact ⟨rfl, fun _ => trivial, rfl, .inl rfl, fun _ => id⟩
  | _ =>
    simp only [step]
    first
    | exact ⟨rfl, fun _ => trivial, rfl, .inl rfl, fun _ => id⟩
    | (split <;> exact ⟨rfl, fun _ => trivial, rfl, .inl rfl, fun _ => id⟩)

theorem shutdown_step (d : Dispatcher α) (s : Submission α) :
    (s.step d).value.2.shutdown = d.shutdown := by
  obtain ⟨key, task, phase⟩ := s
  cases phase with
  | installing stamp i own =>
    cases there : d.lane? own.index <;> simp [step, Dispatcher.install, there]
  | yielding stamp i own c => cases c <;> rfl
  | retiring i c =>
    cases c with
    | done report => rfl
    | _ => simp only [step]; split <;> rfl
  | _ => simp only [step]; first | rfl | (split <;> rfl)

/-- When the flag goes up only a submission that is under way may lose its stamp. -/
theorem carried_raised (s : Submission α) :
    s.carried? true = s.carried? false ∨ s.carried? true = none ∧ s.answer? = none := by
  obtain ⟨key, task, phase⟩ := s
  cases phase with
  | done submitted =>
    obtain ⟨answer, spoils⟩ := submitted
    cases answer <;> exact .inl rfl
  | _ => first | exact .inl rfl | exact .inr ⟨rfl, rfl⟩

/-- The stamp, if it has one, of a submission that was accepted. -/
def accepted? (s : Submission α) : Option (Option Stamp) :=
  match s.phase with
  | .done ⟨.accepted stamp, _⟩ => some stamp
  | _ => none

/-- Only a submission that has found the flag down twice is accepted. -/
theorem queueing_of_accepted (going : s.answer? = none)
    (accepted : (s.step d).value.1.accepted? = some stamp) :
    ∃ i, s.phase = .queueing stamp i ∧ (s.step d).value.1.key = s.key := by
  obtain ⟨key, task, phase⟩ := s
  cases phase with
  | queueing drawn i =>
    simp only [step] at accepted ⊢
    split at accepted
    · exact ⟨i, by rw [Option.some.inj accepted], rfl⟩
    · cases accepted
  | done submitted => cases going
  | yielding drawn i own c => cases c <;> cases accepted
  | retiring i c =>
    cases c with
    | done report => cases accepted
    | _ => simp only [step] at accepted; split at accepted <;> cases accepted
  | _ =>
    simp only [step] at accepted
    first | cases accepted | (split at accepted <;> cases accepted)

/-- A submission that is accepted carries its stamp; only one under way carries one in vain. -/
theorem accepted_carried (up : Bool) (s : Submission α) :
    s.accepted?.join = s.carried? up ∨ s.accepted?.join = none ∧ s.answer? = none := by
  obtain ⟨key, task, phase⟩ := s
  cases phase with
  | done submitted =>
    obtain ⟨answer, spoils⟩ := submitted
    cases answer <;> exact .inl rfl
  | _ => exact .inr ⟨rfl, rfl⟩

theorem drawn_of_ended (ended : s.answer?.isSome) : s.drawn? = none := by
  obtain ⟨key, task, phase⟩ := s
  cases phase <;> first | rfl | cases ended

end Submission

/-- Leaving out what stands last leaves a front. -/
theorem filterMap_front {β : Type} {f g : Nat → Option β} {ts : List Nat}
    (ascending : ts.Pairwise (· < ·))
    (less : ∀ t ∈ ts, g t = f t ∨ g t = none ∧ ∀ u ∈ ts, u ≤ t) :
    ts.filterMap g <+: ts.filterMap f := by
  induction ts with
  | nil => exact List.prefix_refl _
  | cons t ts ih =>
    obtain ⟨first, later⟩ := List.pairwise_cons.1 ascending
    rcases less t List.mem_cons_self with same | ⟨out, last⟩
    · have rest := ih later fun u there => (less u (List.mem_cons_of_mem _ there)).imp_right
        fun dropped => ⟨dropped.1, fun v within => dropped.2 v (List.mem_cons_of_mem _ within)⟩
      simp only [List.filterMap_cons, same]
      cases f t with
      | none => exact rest
      | some stamp => exact List.cons_prefix_cons.2 ⟨rfl, rest⟩
    · have alone : ts = [] := List.eq_nil_iff_forall_not_mem.2 fun u there =>
        Nat.not_le_of_lt (first u there) (last u (List.mem_cons_of_mem _ there))
      simp [alone, out]

namespace World

variable {V : Type} {d : Dispatcher Parcel} {w w' : World V} {a : Act V} {t : Ticket}
  {s : Submission Parcel} {key : Key} {ts : List Ticket}

/-- The stamp that submission `t` carries. -/
def carried? (w : World V) (t : Ticket) : Option Stamp :=
  w.submissions[t]?.bind (Submission.carried? w.dispatcher.shutdown)

/-- The stamp that the last submission has drawn for `key`, as long as it has not looked it up. -/
def pending? (w : World V) (key : Key) : Option Stamp :=
  w.submissions.getLast?.bind fun s => if s.key = key then s.drawn? else none

/-- The stamps drawn for `key` in the tenure that lasts, or is about to begin. -/
def issued (w : World V) (key : Key) : List Stamp :=
  (tenures key w.history).current.filterMap w.carried? ++ (w.pending? key).toList

/-- Each tenure is made up of submissions in their order, and they carry 1, 2, 3, … -/
structure Enrolled (w : World V) : Prop where
  ascending : ∀ key, (lookers key w.history).Pairwise (· < ·)
  looked : ∀ key, ∀ t ∈ lookers key w.history, ∃ s, w.submissions[t]? = some s ∧ s.LookedUp
  numbered : ∀ key, ∀ ts ∈ (tenures key w.history).all, Numbered (ts.filterMap w.carried?)

theorem Enrolled.ascending_of_mem (h : Enrolled w) (there : ts ∈ (tenures key w.history).all) :
    ts.Pairwise (· < ·) := by
  refine (h.ascending key).sublist ?_
  rw [← flatten_tenures]
  exact List.sublist_flatten_of_mem there

theorem Enrolled.looked_of_mem (h : Enrolled w) (there : ts ∈ (tenures key w.history).all)
    (listed : t ∈ ts) : ∃ s, w.submissions[t]? = some s ∧ s.LookedUp := by
  refine h.looked key t ?_
  rw [← flatten_tenures]
  exact List.mem_flatten_of_mem there listed

theorem Enrolled.lt_of_mem (h : Enrolled w) (there : ts ∈ (tenures key w.history).all)
    (listed : t ∈ ts) : t < w.submissions.length := by
  obtain ⟨s, found, -⟩ := h.looked_of_mem there listed
  exact (List.getElem?_eq_some_iff.1 found).1

theorem lookers_of_tenures (same : tenures key w'.history = tenures key w.history) :
    lookers key w'.history = lookers key w.history := by
  rw [← flatten_tenures, same, flatten_tenures]

/-- No submission that has looked its key up goes on, and no flag goes up. -/
structure Stays (w w' : World V) : Prop where
  flag : w'.dispatcher.shutdown = w.dispatcher.shutdown
  looked : ∀ (t : Ticket) (s : Submission Parcel), w.submissions[t]? = some s → s.LookedUp →
    w'.submissions[t]? = some s

/-- A submission that has not looked its key up goes on. -/
theorem stays_of_set {s' : Submission Parcel} (there : w.submissions[t]? = some s)
    (unlooked : ¬ s.LookedUp) (submissions : w'.submissions = w.submissions.set t s')
    (flag : w'.dispatcher.shutdown = w.dispatcher.shutdown) : Stays w w' := by
  refine ⟨flag, fun u r found looked => ?_⟩
  rw [submissions, List.getElem?_set_ne, found]
  rintro rfl
  obtain rfl := Option.some.inj (there.symm.trans found)
  exact unlooked looked

theorem Enrolled.carried_eq (h : Enrolled w) (stays : Stays w w')
    (there : ts ∈ (tenures key w.history).all) :
    ts.filterMap w'.carried? = ts.filterMap w.carried? := by
  refine List.filterMap_congr fun t listed => ?_
  obtain ⟨s, found, looked⟩ := h.looked_of_mem there listed
  rw [carried?, carried?, stays.looked t s found looked, found, stays.flag]

/-- Where tenures may end, but no submission joins one. -/
theorem Enrolled.end_tenures (h : Enrolled w) (stays : Stays w w')
    (same : ∀ key, lookers key w'.history = lookers key w.history)
    (ends : ∀ key, ∀ ts ∈ (tenures key w'.history).all,
      ts ∈ (tenures key w.history).all ∨ ts = []) : Enrolled w' := by
  refine ⟨fun key => same key ▸ h.ascending key, fun key t there => ?_, fun key ts there => ?_⟩
  · rw [same] at there
    obtain ⟨s, found, looked⟩ := h.looked key t there
    exact ⟨s, stays.looked t s found looked, looked⟩
  · rcases ends key ts there with before | rfl
    · rw [h.carried_eq stays before]
      exact h.numbered key ts before
    · exact .nil

theorem Enrolled.stay (h : Enrolled w) (stays : Stays w w')
    (same : ∀ key, tenures key w'.history = tenures key w.history) : Enrolled w' :=
  h.end_tenures stays (fun key => lookers_of_tenures (same key)) fun key _ there =>
    .inl (same key ▸ there)

/-- How stamps and tenures stand while submissions are made one at a time. -/
structure InStep (w : World V) : Prop extends Enrolled w where
  alone : ∀ (t : Ticket) (s : Submission Parcel), w.submissions[t]? = some s →
    s.answer? = none → t + 1 = w.submissions.length
  counted : ∀ key, key ∈ w.dispatcher.allocator.stamps.counters →
    (tenures key w.history).current ≠ [] ∨ (w.pending? key).isSome
  due : w.dispatcher.shutdown = false → ∀ key, Numbered (w.issued key) ∧
    w.dispatcher.allocator.stamps.peek key = UInt64.ofNat ((w.issued key).length + 1)
  drawing : w.dispatcher.shutdown = true → ∀ s ∈ w.submissions, ¬ s.Drawing

/-- Nobody draws or looks up, but the last submission may lose its stamp, as the flag is up. -/
structure Drifts (w w' : World V) : Prop where
  stamps : w'.dispatcher.allocator.stamps = w.dispatcher.allocator.stamps
  same : ∀ key, tenures key w'.history = tenures key w.history
  pending : w'.pending? = w.pending?
  alone : ∀ (t : Ticket) (s : Submission Parcel), w'.submissions[t]? = some s →
    s.answer? = none → t + 1 = w'.submissions.length
  looked : ∀ (t : Ticket) (s : Submission Parcel), w.submissions[t]? = some s → s.LookedUp →
    ∃ s', w'.submissions[t]? = some s' ∧ s'.LookedUp
  carried : ∀ t, w'.carried? t = w.carried? t ∨
    w'.carried? t = none ∧ w'.dispatcher.shutdown = true ∧ t + 1 = w.submissions.length
  running : w'.dispatcher.shutdown = false → w.dispatcher.shutdown = false
  drawing : w'.dispatcher.shutdown = true → ∀ s ∈ w'.submissions, ¬ s.Drawing

theorem InStep.drift (h : InStep w) (m : Drifts w w') : InStep w' := by
  refine ⟨⟨fun key => lookers_of_tenures (m.same key) ▸ h.ascending key, fun key t there => ?_,
    fun key ts there => ?_⟩, m.alone, fun key counter => ?_, fun down key => ?_, m.drawing⟩
  · rw [lookers_of_tenures (m.same key)] at there
    obtain ⟨s, found, looked⟩ := h.looked key t there
    exact m.looked t s found looked
  · rw [m.same] at there
    refine (h.numbered key ts there).of_front (filterMap_front (h.ascending_of_mem there) ?_)
    refine fun t listed => (m.carried t).imp_right fun dropped => ⟨dropped.1, fun u within => ?_⟩
    exact Nat.le_of_lt_succ ((h.lt_of_mem there within).trans_eq dropped.2.2.symm)
  · rw [m.stamps] at counter
    rw [m.same, m.pending]
    exact h.counted key counter
  · have carried : w'.carried? = w.carried? := by
      funext t
      refine (m.carried t).resolve_right fun dropped => ?_
      simp [down] at dropped
    rw [issued, m.same, m.pending, carried, m.stamps]
    exact h.due (m.running down) key

/-! ### One act -/

theorem getLast?_of_last {l : List (Submission Parcel)} (there : l[t]? = some s)
    (last : t + 1 = l.length) : l.getLast? = some s := by
  rw [List.getLast?_eq_getElem?, ← last]
  exact there

theorem pending_of_last (there : w.submissions[t]? = some s)
    (last : t + 1 = w.submissions.length) (key : Key) :
    w.pending? key = if s.key = key then s.drawn? else none := by
  rw [pending?, getLast?_of_last there last, Option.bind_some]

/-- A submission goes on, and it is the last one. -/
theorem InStep.alone_set (h : InStep w) {s' : Submission Parcel}
    (last : t + 1 = w.submissions.length) (submissions : w'.submissions = w.submissions.set t s')
    (u : Ticket) (r : Submission Parcel) (there : w'.submissions[u]? = some r)
    (going : r.answer? = none) : u + 1 = w'.submissions.length := by
  rw [submissions] at there ⊢
  rw [List.length_set]
  rcases getElem?_set_cases there with ⟨rfl, rfl⟩ | ⟨-, old⟩
  · exact last
  · exact h.alone u r old going

/-- Calls other than submissions go on, and no stop raises the flag where one draws a stamp. -/
theorem InStep.drifts_of_calls (h : InStep w)
    (stamps : w'.dispatcher.allocator.stamps = w.dispatcher.allocator.stamps)
    (same : ∀ key, tenures key w'.history = tenures key w.history)
    (submissions : w'.submissions = w.submissions)
    (flag : w.dispatcher.shutdown = true → w'.dispatcher.shutdown = true)
    (whole : w.dispatcher.shutdown = false → w'.dispatcher.shutdown = true →
      ∀ s ∈ w.submissions, ¬ s.Drawing) : Drifts w w' := by
  refine ⟨stamps, same, ?_, ?_, fun t s there looked => ⟨s, submissions ▸ there, looked⟩,
    fun t => ?_, fun down => ?_, fun up s there => ?_⟩
  · funext key
    rw [pending?, submissions, pending?]
  · rw [submissions]
    exact h.alone
  · rw [carried?, carried?, submissions]
    cases there : w.submissions[t]? with
    | none => exact .inl rfl
    | some s =>
      simp only [Option.bind_some]
      cases up' : w'.dispatcher.shutdown with
      | false =>
        cases up : w.dispatcher.shutdown with
        | false => exact .inl rfl
        | true => simp [flag up] at up'
      | true =>
        cases up : w.dispatcher.shutdown with
        | true => exact .inl rfl
        | false =>
          exact s.carried_raised.imp_right fun raised => ⟨raised.1, rfl, h.alone t s there raised.2⟩
  · cases up : w.dispatcher.shutdown with
    | false => rfl
    | true => simp [flag up] at down
  · rw [submissions] at there
    cases was : w.dispatcher.shutdown with
    | false => exact whole was up s there
    | true => exact h.drawing was s there

/-- The last submission makes an access that is not one to the allocator. -/
theorem InStep.drifts_of_goes (h : InStep w) {s' : Submission Parcel}
    (there : w.submissions[t]? = some s) (going : s.answer? = none)
    (goes : s.Goes w.dispatcher.shutdown s')
    (submissions : w'.submissions = w.submissions.set t s')
    (flag : w'.dispatcher.shutdown = w.dispatcher.shutdown)
    (stamps : w'.dispatcher.allocator.stamps = w.dispatcher.allocator.stamps)
    (same : ∀ key, tenures key w'.history = tenures key w.history) : Drifts w w' := by
  have last := h.alone t s there going
  have there' : w'.submissions[t]? = some s' := submissions ▸ getElem?_set_there there s'
  have length : w'.submissions.length = w.submissions.length := by simp [submissions]
  refine ⟨stamps, same, ?_, h.alone_set last submissions, fun u r found looked => ?_, fun u => ?_,
    fun down => flag ▸ down, fun up r listed => ?_⟩
  · funext key
    rw [pending_of_last there' (length ▸ last), pending_of_last there last, goes.key, goes.drawn]
  · by_cases own : u = t
    · subst own
      obtain rfl := Option.some.inj (there.symm.trans found)
      exact ⟨s', there', goes.looked looked⟩
    · exact ⟨r, by rw [submissions, List.getElem?_set_ne (Ne.symm own), found], looked⟩
  · by_cases own : u = t
    · subst own
      rw [carried?, carried?, there', there, flag]
      exact goes.carried.imp_right fun dropped => ⟨dropped.1, dropped.2, last⟩
    · rw [carried?, carried?, submissions, flag, List.getElem?_set_ne (Ne.symm own)]
      exact .inl rfl
  · rw [flag] at up
    obtain ⟨u, found⟩ := List.getElem?_of_mem listed
    rw [submissions] at found
    rcases getElem?_set_cases found with ⟨rfl, rfl⟩ | ⟨-, old⟩
    · exact goes.drawing up
    · exact h.drawing up r (List.mem_of_getElem? old)

theorem pending_of_ended (ended : ∀ s ∈ w.submissions, s.answer?.isSome) (key : Key) :
    w.pending? key = none := by
  rw [pending?, Option.bind_eq_none_iff]
  intro s last
  rw [Submission.drawn_of_ended (ended s (List.mem_of_getLast? last)), ite_self]

/-- A submission begins when all others have ended. -/
theorem InStep.begin (h : InStep w) {stamped : Bool} {task : LaneIndex → Option Stamp → Parcel}
    (ended : ∀ s ∈ w.submissions, s.answer?.isSome)
    (submissions : w'.submissions = w.submissions ++ [.start key stamped task])
    (dispatcher : w'.dispatcher = w.dispatcher)
    (same : ∀ key, tenures key w'.history = tenures key w.history) : InStep w' := by
  have idle : ∀ key, w.pending? key = none := pending_of_ended ended
  have idle' : ∀ key, w'.pending? key = none := fun k => by
    rw [pending?, submissions, List.getLast?_concat, Option.bind_some]
    cases stamped <;> simp [Submission.start, Submission.drawn?]
  have stays : Stays w w' := ⟨congrArg _ dispatcher,
    fun t s there _ => submissions ▸ getElem?_snoc_there there _⟩
  refine ⟨h.toEnrolled.stay stays same, fun t s there going => ?_, fun key counter => ?_,
    fun down key => ?_, fun up s there => ?_⟩
  · rw [submissions] at there ⊢
    rcases getElem?_snoc_cases there with ⟨rfl, -⟩ | before
    · simp
    · have done := ended s (List.mem_of_getElem? before)
      simp [going] at done
  · rw [dispatcher] at counter
    rw [same, idle', ← idle key]
    exact h.counted key counter
  · rw [issued, same, idle', h.carried_eq stays (Tenures.current_mem_all _), ← idle key, ← issued,
      dispatcher]
    exact h.due (dispatcher ▸ down) key
  · rw [submissions, List.mem_append, List.mem_singleton] at there
    rcases there with before | rfl
    · exact h.drawing (dispatcher ▸ up) s before
    · cases stamped <;> exact id

/-- A submission draws its stamp, which is the next one of the tenure. -/
theorem InStep.draw (h : InStep w) (there : w.submissions[t]? = some s)
    (phase : s.phase = .stamping)
    (submissions : w'.submissions =
      w.submissions.set t (s.on (.admitting (some (w.dispatcher.nextStamp s.key).1))))
    (dispatcher : w'.dispatcher = (w.dispatcher.nextStamp s.key).2)
    (same : ∀ key, tenures key w'.history = tenures key w.history) : InStep w' := by
  obtain ⟨k, task, now⟩ := s
  obtain rfl : now = .stamping := phase
  have down : w.dispatcher.shutdown = false := by
    by_contra up
    exact h.drawing (by simpa using up) _ (List.mem_of_getElem? there) trivial
  have flag : w'.dispatcher.shutdown = w.dispatcher.shutdown := by rw [dispatcher]; rfl
  have stays : Stays w w' := stays_of_set there id submissions flag
  have last := h.alone t _ there rfl
  have stamps : w'.dispatcher.allocator.stamps = (w.dispatcher.allocator.stamps.draw k).2 := by
    rw [dispatcher]
    rfl
  have drawn : ∀ key, w.pending? key = none ∧ w'.pending? key =
      if k = key then some (w.dispatcher.allocator.stamps.peek k) else none := fun key => by
    have there' := submissions ▸ getElem?_set_there there _
    rw [pending_of_last there last, pending_of_last there' (by simpa [submissions] using last)]
    exact ⟨ite_self _, rfl⟩
  refine ⟨h.toEnrolled.stay stays same, h.alone_set last submissions, fun key counter => ?_,
    fun _ key => ?_, fun up => by simp [flag, down] at up⟩
  · rw [same, (drawn key).2]
    by_cases own : k = key
    · exact .inr (by simp [own])
    · have before := h.counted key (by simpa [stamps, Stamps.draw, own] using counter)
      rw [(drawn key).1] at before
      exact .inl (before.resolve_right (by simp))
  · obtain ⟨numbered, next⟩ := h.due down key
    rw [issued, (drawn key).1, Option.toList_none, List.append_nil] at numbered next
    rw [issued, same, h.carried_eq stays (Tenures.current_mem_all _), (drawn key).2, stamps,
      Stamps.peek_draw]
    by_cases own : k = key
    · subst own
      refine ⟨by simpa [next] using numbered.snoc, ?_⟩
      simp [next, UInt64.ofNat_add]
    · rw [if_neg own, if_neg own, Option.toList_none, List.append_nil]
      exact ⟨numbered, next⟩

/-- What a look-up of `key` by submission `t` does to the tenures; `gone` is the evicted key. -/
def Visited (w w' : World V) (key : Key) (t : Ticket) (gone : Option Key) : Prop :=
  ∀ k, tenures k w'.history =
    if key = k then (tenures k w.history).visit t
    else if gone = some k then (tenures k w.history).close
    else tenures k w.history

theorem Visited.lookers {gone : Option Key} (h : Visited w w' key t gone) (k : Key) :
    lookers k w'.history = lookers k w.history ++ if key = k then [t] else [] := by
  rw [← flatten_tenures, h k, ← flatten_tenures]
  by_cases own : key = k
  · simp [own]
  · by_cases fell : gone = some k <;> simp [own, fell]

/-- The last submission joins the tenure of its key. -/
theorem Enrolled.lookUp (h : Enrolled w) {gone : Option Key} (stays : Stays w w')
    (visited : Visited w w' key t gone) (there : w.submissions[t]? = some s)
    (unlooked : ¬ s.LookedUp) (last : t + 1 = w.submissions.length)
    (there' : ∃ s', w'.submissions[t]? = some s' ∧ s'.LookedUp)
    (next : Numbered (((tenures key w.history).current ++ [t]).filterMap w'.carried?)) :
    Enrolled w' := by
  refine ⟨fun k => ?_, fun k u listed => ?_, fun k ts listed => ?_⟩
  · rw [visited.lookers]
    refine List.pairwise_append.2 ⟨h.ascending k, by split <;> simp, fun u old v new => ?_⟩
    obtain rfl : v = t := by split at new <;> simp_all
    obtain ⟨r, found, looked⟩ := h.looked k u old
    refine Nat.lt_of_le_of_ne ?_ ?_
    · exact Nat.le_of_lt_succ ((List.getElem?_eq_some_iff.1 found).1.trans_eq last.symm)
    · rintro rfl
      obtain rfl := Option.some.inj (there.symm.trans found)
      exact unlooked looked
  · rw [visited.lookers, List.mem_append] at listed
    rcases listed with old | new
    · obtain ⟨r, found, looked⟩ := h.looked k u old
      exact ⟨r, stays.looked u r found looked, looked⟩
    · obtain rfl : u = t := by split at new <;> simp_all
      exact there'
  · have old : ts ∈ (tenures k w.history).all → Numbered (ts.filterMap w'.carried?) := fun old => by
      rw [h.carried_eq stays old]
      exact h.numbered k ts old
    rw [visited k] at listed
    split at listed
    · next own =>
      subst own
      rcases Tenures.mem_all_visit listed with before | rfl
      · exact old before
      · exact next
    · split at listed
      · rcases Tenures.mem_all_close listed with before | rfl
        · exact old before
        · exact .nil
      · exact old listed

/-- The last submission looks its key up: it joins the tenure that lasts, or starts one. -/
theorem InStep.lookUp (h : InStep w) {stamp : Option Stamp} {lane : LaneIndex} {gone : Option Key}
    (there : w.submissions[t]? = some s) (phase : s.phase = .resolving stamp)
    (submissions : w'.submissions = w.submissions.set t (s.on (.seeking stamp lane)))
    (flag : w'.dispatcher.shutdown = w.dispatcher.shutdown)
    (takes : w.dispatcher.allocator.Takes w'.dispatcher.allocator s.key gone)
    (visited : Visited w w' s.key t gone) : InStep w' := by
  obtain ⟨k, task, now⟩ := s
  obtain rfl : now = .resolving stamp := phase
  have stays : Stays w w' := stays_of_set there id submissions flag
  have last := h.alone t _ there rfl
  have there' := submissions ▸ getElem?_set_there there _
  have waits : ∀ key, w.pending? key = if k = key then stamp else none := pending_of_last there last
  have idle : ∀ key, w'.pending? key = none := fun key => by
    rw [pending_of_last there' (by simpa [submissions] using last)]
    exact ite_self _
  -- The tenure goes on with the stamp that the submission has, if no stop has begun.
  have grown : ((tenures k w.history).current ++ [t]).filterMap w'.carried? =
      (tenures k w.history).current.filterMap w.carried? ++
        (if w.dispatcher.shutdown then none else stamp).toList := by
    rw [List.filterMap_append, h.carried_eq stays (Tenures.current_mem_all _)]
    have own : w'.carried? t = if w.dispatcher.shutdown then none else stamp := by
      rw [carried?, there', ← flag]
      rfl
    cases carries : w'.carried? t <;> simp [carries, ← own]
  refine ⟨h.toEnrolled.lookUp stays visited there id last ⟨_, there', trivial⟩ ?_,
    h.alone_set last submissions, fun key counter => ?_, fun down key => ?_, fun up r listed => ?_⟩
  · rw [grown]
    cases up : w.dispatcher.shutdown with
    | true => simpa using h.numbered k _ (Tenures.current_mem_all _)
    | false =>
      have numbered := (h.due up k).1
      rwa [issued, waits, if_pos rfl] at numbered
  · obtain ⟨before, stays⟩ := takes.counted counter
    rw [visited key, if_neg stays]
    by_cases own : k = key
    · exact .inl (by simp [own])
    · rw [if_neg own]
      have was := h.counted key before
      rw [waits, if_neg own] at was
      exact .inl (was.resolve_right (by simp))
  · rw [flag] at down
    obtain ⟨numbered, next⟩ := h.due down key
    rw [issued, waits] at numbered next
    rw [issued, visited key, idle, takes.peek]
    by_cases own : k = key
    · subst own
      rw [if_pos rfl] at numbered next
      rw [if_pos rfl, if_neg takes.other, Tenures.current_visit, grown, down, if_neg (by simp),
        Option.toList_none, List.append_nil]
      exact ⟨numbered, next⟩
    · rw [if_neg own] at numbered next ⊢
      by_cases fell : gone = some key
      · simp [fell, Numbered.nil]
      · rw [if_neg fell, if_neg fell, h.carried_eq stays (Tenures.current_mem_all _)]
        exact ⟨numbered, next⟩
  · rw [submissions] at listed
    rcases List.mem_or_eq_of_mem_set listed with old | rfl
    · exact h.drawing (flag ▸ up) r old
    · exact id

/-- A stop clears the allocator. -/
theorem InStep.clear (h : InStep w) (up : w.dispatcher.shutdown = true)
    (submissions : w'.submissions = w.submissions)
    (flag : w'.dispatcher.shutdown = w.dispatcher.shutdown)
    (allocator : w'.dispatcher.allocator = w.dispatcher.allocator.clear)
    (closes : ∀ key, tenures key w'.history = (tenures key w.history).close) : InStep w' := by
  have stays : Stays w w' := ⟨flag, fun t s there _ => submissions ▸ there⟩
  have same : ∀ key, lookers key w'.history = lookers key w.history := fun key => by
    rw [← flatten_tenures, closes, Tenures.flatten_close, flatten_tenures]
  refine ⟨h.toEnrolled.end_tenures stays same fun key ts there => ?_, submissions ▸ h.alone,
    fun key counter => ?_, fun down => ?_, fun _ => submissions ▸ h.drawing up⟩
  · rw [closes] at there
    exact Tenures.mem_all_close there
  · simp [allocator, Allocator.clear, Stamps.empty] at counter
  · simp [flag, up] at down

end World

end OrderedLanes
