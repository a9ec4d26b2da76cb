import OrderedLanes.Proofs.Settlement

/-!
What a forced stop hands back. It comes by every slot after the common flag was
raised, and leaves behind lanes that are halted and slots where nothing can be
queued any more. A submission that meets a lane on its way out may have halted it
first; it then throws away what waited there, and the stop gets nothing from that
lane. From every other lane the stop gets all that waited.
-/

namespace OrderedLanes

/-- The lane that is there for a submission. -/
def SubmissionPhase.housed? {α : Type} : SubmissionPhase α → Option LaneIndex
  | .yielding _ i _ _ | .rechecking _ i | .queueing _ i => some i
  | _ => none

namespace World

variable {V : Type} {d : Dispatcher Parcel} {w w' : World V} {i j : LaneIndex} {n : Nat}
  {t : Ticket} {s s' : Submission Parcel}

/-- The lanes are there that submissions found or installed. -/
def AllHoused (w : World V) : Prop :=
  ∀ (t : Ticket) (s : Submission Parcel) (i : LaneIndex), w.submissions[t]? = some s →
    s.phase.housed? = some i → i < w.dispatcher.laneCount → ∃ l, w.dispatcher.lane? i = some l

theorem Effect.allHoused (e : Effect w w') (sound : AllSound w.submissions) (h : AllHoused w) :
    AllHoused w' := by
  intro t s' i there' housed bound
  have stays : (∃ l, w.dispatcher.lane? i = some l) → ∃ l, w'.dispatcher.lane? i = some l := by
    rintro ⟨l, lane⟩
    obtain ⟨l', lane', -⟩ := e.grows sound lane
    exact ⟨l', lane'⟩
  have range : i < w.dispatcher.laneCount := e.laneCount ▸ bound
  rcases e.onward there' with same | ⟨key, stamped, -, rfl⟩ | ⟨s, phase, there, rfl, onward⟩
  · exact stays (h t s' i same housed range)
  · cases stamped <;> cases housed
  · have was : s.phase.housed? = some i → ∃ l, w'.dispatcher.lane? i = some l := fun was =>
      stays (h t s i there was range)
    cases onward with
    | look phase looks =>
      have own := (sound t s there).own
      generalize s.phase = now at looks was own
      cases looks with
      | found stamp k l lane =>
        obtain rfl := Option.some.inj housed
        exact stays ⟨l, lane⟩
      | preempted stamp k mine l lane =>
        obtain rfl := Option.some.inj housed
        obtain rfl := own stamp k mine rfl
        exact stays ⟨l, lane⟩
      | yields stamp k mine mine' c c' => exact was housed
      | yielded stamp k mine report => exact was housed
      | pass stamp k running => exact was housed
      | _ => cases housed
    | install stamp k own phase after =>
      obtain rfl := Option.some.inj housed
      obtain rfl := (sound t s there).own stamp k own phase
      refine ⟨Lane.start k, ?_⟩
      rw [after, Lane.index_start, Dispatcher.lane?_setLane _ _ _ _ range, if_pos rfl]
    | _ => cases housed

theorem Reachable.allHoused (h : Reachable d w) : AllHoused w := by
  induction h with
  | start => simp [AllHoused, fresh]
  | step before effect ih => exact effect.allHoused before.allSound ih

/-! ### The way of a forced stop -/

/-- Slot `j` has a halted lane, or nothing was or will be queued there. -/
def Barred (w : World V) (j : LaneIndex) : Prop :=
  j < w.dispatcher.laneCount →
    (∃ l, w.dispatcher.lane? j = some l ∧ l.stage = .halted) ∨
    acceptedOn w.history j = [] ∧
      ∀ (t : Ticket) (s : Submission Parcel) (stamp : Option Stamp),
        w.submissions[t]? = some s → s.phase ≠ .queueing stamp j

theorem Barred.step (h : w.Barred j) (e : Effect w w') (sound : AllSound w.submissions)
    (up : w.dispatcher.shutdown = true) : w'.Barred j := by
  intro bound
  rcases h (e.laneCount ▸ bound) with ⟨l, lane, halted⟩ | ⟨none, nobody⟩
  · obtain ⟨l', lane', grows⟩ := e.grows sound lane
    exact .inl ⟨l', lane', grows.halted halted⟩
  · refine .inr ⟨?_, fun t s' stamp there' queueing => ?_⟩
    · rcases e.acceptance with ⟨t, s, stamp, i, there, phase, -, noted⟩ | ⟨news, noted, quiet⟩
      · have apart : i ≠ j := fun same => nobody t s stamp there (same ▸ phase)
        simp [noted, none, apart]
      · have quiet' : acceptedOn news j = [] := by
          refine List.eq_nil_iff_forall_not_mem.2 fun p listed => ?_
          have listed := mem_accepted.2 ⟨j, mem_acceptedOn.1 listed⟩
          simp [quiet] at listed
        rw [noted, acceptedOn_append, none, quiet', List.append_nil]
    · rcases e.onward there' with same | ⟨key, stamped, -, rfl⟩ | ⟨s, phase, there, rfl, onward⟩
      · exact nobody t s' stamp same queueing
      · cases stamped <;> cases queueing
      · cases onward with
        | look phase looks =>
          obtain rfl : phase = .queueing stamp j := queueing
          -- Nobody passes the second look any more.
          generalize s.phase = now at looks
          cases looks with
          | pass stamp i running => simp [running] at up
        | _ => cases queueing

/-- A stop that raised the flag of forced stops has barred the slots it has come by. -/
def Swept (w : World V) : Stopping Parcel → Prop
  | .following => True
  | .clearing .forced _ => w.dispatcher.shutdown = true
  | .visiting .forced i _ => w.dispatcher.shutdown = true ∧ ∀ j < i, w.Barred j
  | .closing .forced i c _ => w.dispatcher.shutdown = true ∧ (∀ j < i, w.Barred j) ∧
      ∃ l, w.dispatcher.lane? i = some l ∧ (c = .marking .forced ∨ l.stage = .halted)
  | .done _ => w.dispatcher.shutdown = true ∧ ∀ j, w.Barred j
  | _ => False

theorem Swept.mono {r : Stopping Parcel} (h : w.Swept r) (e : Effect w w')
    (sound : AllSound w.submissions) : w'.Swept r := by
  cases r with
  | raising kind => exact h
  | following => trivial
  | clearing kind report =>
    cases kind with
    | graceful => exact h
    | forced => exact e.shutdown h
  | visiting kind i report =>
    cases kind with
    | graceful => exact h
    | forced => exact ⟨e.shutdown h.1, fun j before => (h.2 j before).step e sound h.1⟩
  | closing kind i c report =>
    cases kind with
    | graceful => exact h
    | forced =>
      obtain ⟨up, barred, l, lane, way⟩ := h
      obtain ⟨l', lane', grows⟩ := e.grows sound lane
      exact ⟨e.shutdown up, fun j before => (barred j before).step e sound up, l', lane',
        way.imp id grows.halted⟩
  | done report => exact ⟨e.shutdown h.1, fun j => (h.2 j).step e sound h.1⟩

theorem Swept.look {r r' : Stopping Parcel} (h : w.Swept r) (before : Reachable d w)
    (new : d.Fresh) (looks : StopLook w.dispatcher r r') : w.Swept r' := by
  cases looks with
  | visit kind i l report there =>
    cases kind with
    | graceful => exact h.elim
    | forced => exact ⟨h.1, h.2, l, there, .inl rfl⟩
  | skip kind i report empty =>
    cases kind with
    | graceful => exact h.elim
    | forced =>
      refine ⟨h.1, fun j earlier => ?_⟩
      rcases Nat.lt_succ_iff_lt_or_eq.1 earlier with passed | rfl
      · exact h.2 j passed
      · intro bound
        refine .inr ⟨(before.untouched new empty).1, fun t s stamp there queueing => ?_⟩
        obtain ⟨l, lane⟩ := before.allHoused t s j there (by rw [queueing]; rfl) bound
        simp [empty] at lane
  | wrapUp i report last => exact h.elim
  | closed kind i part report =>
    cases kind with
    | graceful => exact h.elim
    | forced =>
      obtain ⟨up, barred, l, lane, way⟩ := h
      refine ⟨up, fun j earlier => ?_⟩
      rcases Nat.lt_succ_iff_lt_or_eq.1 earlier with passed | rfl
      · exact barred j passed
      · exact fun _ => .inl ⟨l, lane, way.resolve_left (by simp)⟩
  | vanished kind i c report empty =>
    cases kind with
    | graceful => exact h.elim
    | forced =>
      obtain ⟨-, -, l, lane, -⟩ := h
      simp [empty] at lane

/-- A forced stop leaves the lane that it stops halted. -/
theorem Swept.shut {c : Closing Parcel} {l : Lane Parcel} {report : StopReport Parcel}
    (h : w.Swept (.closing .forced i c report)) (e : Effect w w') (sound : AllSound w.submissions)
    (lane : w.dispatcher.lane? i = some l)
    (lane' : w'.dispatcher.lane? i = some (c.step l).2) :
    w'.Swept (.closing .forced i (c.step l).1 report) := by
  obtain ⟨up, barred, l₀, lane₀, way⟩ := h
  obtain rfl := Option.some.inj (lane.symm.trans lane₀)
  refine ⟨e.shutdown up, fun j before => (barred j before).step e sound up, _, lane', .inr ?_⟩
  rcases way with rfl | halted
  · by_cases awake : l.stage = .halted
    · simp [Closing.step, awake]
    · exact (Closing.halting_marking awake).2
  · exact (c.grows_step l).halted halted

/-- A stop that raised the flag of forced stops goes by all slots. -/
theorem Reachable.swept (h : Reachable d w) (new : d.Fresh)
    (raised : .raised n .forced ∈ w.history) : ∃ r, w.stops[n]? = some r ∧ w.Swept r := by
  induction h with
  | start => simp [fresh] at raised
  | @step w w' before effect ih =>
    have sound := before.allSound
    have quiet : forcers w'.history = forcers w.history → w'.stops = w.stops →
        ∃ r, w'.stops[n]? = some r ∧ w'.Swept r := by
      intro same stops
      obtain ⟨r, there, swept⟩ := ih (mem_forcers.1 (same ▸ mem_forcers.2 raised))
      exact ⟨r, stops ▸ there, swept.mono effect sound⟩
    -- Some stop `m` goes on from `q` to `q'`.
    have goes : ∀ {m q q'}, forcers w'.history = forcers w.history → w.stops[m]? = some q →
        w'.stops = w.stops.set m q' → (w.Swept q → w'.Swept q') →
        ∃ r, w'.stops[n]? = some r ∧ w'.Swept r := by
      intro m q q' same there stops on
      obtain ⟨r, there', swept⟩ := ih (mem_forcers.1 (same ▸ mem_forcers.2 raised))
      rw [stops]
      by_cases own : m = n
      · subst own
        obtain rfl := Option.some.inj (there.symm.trans there')
        exact ⟨q', List.getElem?_set_self (List.getElem?_eq_some_iff.1 there).1, on swept⟩
      · exact ⟨r, (List.getElem?_set_ne own).trans there', swept.mono effect sound⟩
    cases effect with
    | beginStop kind =>
      obtain ⟨r, there, swept⟩ := ih raised
      refine ⟨r, ?_, swept.mono (.beginStop kind) sound⟩
      exact (List.getElem?_append_left (List.getElem?_eq_some_iff.1 there).1).trans there
    | raiseForced m there down =>
      have only : n = m := by
        have next := before.step (.raiseForced m there down)
        exact next.one_forcer new raised (by simp)
      subst only
      exact ⟨.following, List.getElem?_set_self (List.getElem?_eq_some_iff.1 there).1, trivial⟩
    | stopLook m q q' there looks =>
      exact goes rfl there rfl fun swept =>
        (swept.look before new looks).mono (.stopLook m q q' there looks) sound
    | raiseGraceful m there down => exact goes (by simp) there rfl fun swept => swept.elim
    | follow m there => exact goes rfl there rfl fun _ => rfl
    | clear m report there =>
      exact goes (by simp) there rfl fun swept => ⟨swept, by simp⟩
    | clearLast m report there => exact goes (by simp) there rfl fun swept => swept.elim
    | endStop m q report there ends =>
      refine goes (by simp) there rfl fun swept => ?_
      have after := swept.mono (.endStop m q report there ends) sound
      cases ends with
      | stopping up => exact swept.elim
      | forcing up => exact swept.elim
      | visited i report last =>
        refine ⟨after.1, fun j bound => after.2 j ?_ bound⟩
        exact Nat.lt_of_lt_of_le bound last
    | shut m kind i c l report there lane unfinished =>
      refine goes (by simp) there rfl fun swept => ?_
      cases kind with
      | graceful => exact swept.elim
      | forced =>
        exact swept.shut (.shut m .forced i c l report there lane unfinished) sound lane
          (Dispatcher.lane?_setLane_self _ lane)
    | _ => exact quiet (by simp) rfl

/-! ### What becomes of waiting tasks -/

/-- A task is thrown away by the worker that held it, or by a submission that had taken it back. -/
theorem Effect.discards (e : Effect w w') {p : Parcel} (gone : p ∈ discarded w'.history) :
    p ∈ discarded w.history ∨ (∃ i, w.At p (.held i)) ∨ ∃ t, p ∈ w.gathered (.submission t) := by
  cases e with
  | abandon i l q panic lane holding interrupted =>
    rw [discarded_append, List.mem_append] at gone
    rcases gone with old | new
    · exact .inl old
    · obtain rfl : p = q := by simpa using new
      exact .inr (.inl ⟨i, l, lane, holding⟩)
  | forfeit t s i report there phase =>
    rw [discarded_append, List.mem_append] at gone
    rcases gone with old | new
    · exact .inl old
    · have listed : p ∈ report.pending := by
        simpa using new
      refine .inr (.inr ⟨t, ?_⟩)
      simpa [gathered, there, Submission.gathered, phase, Closing.gathered] using listed
  | _ => exact .inl (by simpa using gone)

theorem Reachable.discarded_why (h : Reachable d w) (new : d.Fresh) {p : Parcel}
    (gone : p ∈ discarded w.history) :
    p ∈ takenOn w.history p.lane ∨ ∃ t, .halted p.lane (.submission t) ∈ w.history := by
  induction h with
  | start => simp [fresh] at gone
  | @step w w' before effect ih =>
    have grown : takenOn w.history p.lane <+: takenOn w'.history p.lane :=
      effect.history.filterMap _
    rcases effect.discards gone with old | ⟨i, held⟩ | ⟨t, back⟩
    · rcases ih old with taken | ⟨t, halted⟩
      · exact .inl (grown.subset taken)
      · exact .inr ⟨t, effect.history.subset halted⟩
    · obtain rfl : p.lane = i := (before.identified (before.home new (.inr (.inl held)))).lane
      obtain ⟨l, lane, holding⟩ := held
      exact .inl (grown.subset ((before.inOrder new lane).held p holding))
    · exact .inr ⟨t, effect.history.subset (before.halted_of_gathered new back)⟩

/-- Whatever ended on a worker was taken by it. -/
theorem Reachable.taken_of_finished (h : Reachable d w) (new : d.Fresh) {p : Parcel}
    (ended : p ∈ finished w.history) : p ∈ takenOn w.history p.lane := by
  simp only [List.mem_filterMap] at ended
  obtain ⟨happening, noted, same⟩ := ended
  cases happening with
  | ended q lane ending =>
    cases lane with
    | none => cases same
    | some i =>
      obtain rfl := Option.some.inj same
      have mark : .ended q ∈ marksOn w.history i := List.mem_filterMap.2 ⟨_, noted, by simp⟩
      cases lane : w.dispatcher.lane? i with
      | none => simp [(h.untouched new lane).2.2] at mark
      | some l =>
        have orderly := h.inOrder new lane
        have taken := orderly.ended q mark
        rwa [← orderly.here q (orderly.drawn q taken)] at taken
  | _ => cases same

/-- A task that its lane's worker did not take stays with whoever halted the lane. -/
theorem Reachable.place_of_waiting (h : Reachable d w) (new : d.Fresh) {p : Parcel} {who : Party}
    (accepted : .accepted p i ∈ w.history) (waiting : p ∉ takenOn w.history i)
    (halted : .halted i who ∈ w.history) :
    (∃ c, w.closing? who = some (i, c) ∧ c.Halting) ∨
      (∃ n, who = .stop n ∧ w.At p (.listed n)) ∨
      ∃ t, who = .submission t ∧ (w.At p (.withdrawn t) ∨ p ∈ discarded w.history) := by
  have home : p.lane = i := (h.identified accepted).lane
  have halter := h.oneHalter new
  have only := halter.halts_eq (mem_haltsOn.2 halted)
  have same : ∀ other, .halted i other ∈ w.history → other = who := by
    intro other found
    rw [← mem_haltsOn, only, List.mem_singleton] at found
    exact found
  obtain ⟨place, here, -⟩ := (h.one_place new).1 (mem_accepted.2 ⟨i, accepted⟩)
  have lane_of : ∀ {j}, w.At p (.queued j) ∨ w.At p (.held j) ∨ w.At p (.running j) → j = i :=
    fun there => (h.identified (h.home new there)).lane.symm.trans home
  cases place with
  | queued j =>
    obtain rfl := lane_of (.inl here)
    obtain ⟨l, lane, queued⟩ := here
    have stage : l.stage = .halted := by
      by_contra awake
      simp [halter.awake j l lane awake] at only
    rcases halter.drained j l lane stage with ⟨other, c, closing, on⟩ | ⟨-, -, empty⟩
    · have owner := halter.owner other j c closing (.inl on)
      obtain rfl := same other (mem_haltsOn.1 (by simp [owner]))
      exact .inl ⟨c, closing, on⟩
    · simp [empty] at queued
  | held j =>
    obtain rfl := lane_of (.inr (.inl here))
    obtain ⟨l, lane, holding⟩ := here
    exact absurd ((h.inOrder new lane).held p holding) waiting
  | running j =>
    obtain rfl := lane_of (.inr (.inr here))
    obtain ⟨l, lane, busy⟩ := here
    exact absurd ((h.inOrder new lane).busy p busy) waiting
  | finished => exact absurd (home ▸ h.taken_of_finished new here) waiting
  | listed n =>
    obtain ⟨r, there, listed⟩ := id here
    have back : p ∈ w.gathered (.stop n) := by simpa [gathered, there] using listed
    exact .inr (.inl ⟨n, (same _ (home ▸ h.halted_of_gathered new back)).symm, here⟩)
  | withdrawn t =>
    obtain ⟨s, there, back⟩ := id here
    have back : p ∈ w.gathered (.submission t) := by simpa [gathered, there] using back
    exact .inr (.inr ⟨t, (same _ (home ▸ h.halted_of_gathered new back)).symm, .inl here⟩)
  | discarded =>
    rcases h.discarded_why new here with taken | ⟨t, found⟩
    · exact absurd (home ▸ taken) waiting
    · exact .inr (.inr ⟨t, (same _ (home ▸ found)).symm, .inr here⟩)

/-- A submission that halted a lane and has ended threw away what waited there. -/
theorem Reachable.forfeited (h : Reachable d w) (new : d.Fresh) {p : Parcel}
    (accepted : .accepted p i ∈ w.history) (waiting : p ∉ takenOn w.history i)
    (halted : .halted i (.submission t) ∈ w.history) (there : w.submissions[t]? = some s)
    (ended : s.answer?.isSome) : p ∈ discarded w.history := by
  obtain ⟨submitted, ended⟩ : ∃ submitted, s.phase = .done submitted := by
    unfold Submission.answer? at ended
    split at ended
    · next submitted phase => exact ⟨submitted, phase⟩
    · cases ended
  rcases h.place_of_waiting new accepted waiting halted with
    ⟨c, closing, -⟩ | ⟨n, other, -⟩ | ⟨u, same, ⟨r, there', back⟩ | gone⟩
  · obtain ⟨r, there', phase⟩ := closing?_submission.1 closing
    obtain rfl := Option.some.inj (there.symm.trans there')
    rw [ended] at phase
    cases phase
  · cases other
  · cases same
    obtain rfl := Option.some.inj (there.symm.trans there')
    simp [Submission.gathered, ended] at back
  · exact gone

/-- A forced stop that has ended has left no lane that accepted a task unhalted. -/
theorem Reachable.halted_of_accepted (h : Reachable d w) (new : d.Fresh)
    {report : StopReport Parcel} (raised : .raised n .forced ∈ w.history)
    (done : w.stops[n]? = some (.done report)) {p : Parcel}
    (accepted : .accepted p i ∈ w.history) : ∃ who, .halted i who ∈ w.history := by
  obtain ⟨r, there, swept⟩ := h.swept new raised
  obtain rfl := Option.some.inj (done.symm.trans there)
  have listed := mem_acceptedOn.2 accepted
  cases lane : w.dispatcher.lane? i with
  | none => simp [(h.untouched new lane).1] at listed
  | some l =>
    rcases swept.2 i (Dispatcher.lt_of_lane? lane) with ⟨l', lane', halted⟩ | ⟨none, -⟩
    · obtain ⟨who, one⟩ := (h.oneHalter new).one i l' lane' halted
      exact ⟨who, mem_haltsOn.1 (by simp [one])⟩
    · simp [none] at listed

theorem count_report_le {report : StopReport Parcel} (done : w.stops[n]? = some (.done report))
    (p : Parcel) : report.pending.count p ≤ (w.stops.flatMap Stopping.gathered).count p := by
  have part : (Stopping.done report).gathered ∈ w.stops.map Stopping.gathered :=
    List.mem_map_of_mem (List.mem_of_getElem? done)
  exact (List.sublist_flatten_of_mem part).count_le p

/--
Once a forced stop has ended, it has given back once each waiting task of every lane, unless a
submission halted the lane; that submission threw the lane's waiting tasks away.
-/
theorem forced_stop_gives_back {config : Config} {parallelism : Nat} {d : Dispatcher Parcel}
    {counter : KeyCounter} {acts : List (Act V)} {w : World V}
    (made : Dispatcher.create config parallelism = .ok d)
    (run : (fresh d counter).run acts = some w) {n : Nat} {report : StopReport Parcel}
    (raised : .raised n .forced ∈ w.history) (done : w.stops[n]? = some (.done report))
    {p : Parcel} {i : LaneIndex} (accepted : .accepted p i ∈ w.history)
    (waiting : p ∉ takenOn w.history i) :
    ((∀ t, .halted i (.submission t) ∉ w.history) → report.pending.count p = 1) ∧
      ∀ t, .halted i (.submission t) ∈ w.history →
        report.pending.count p = 0 ∧
          ∀ s, w.submissions[t]? = some s → s.answer?.isSome → .discarded p ∈ w.history := by
  have new := (Dispatcher.fresh_of_create made).1
  have h : Reachable d w.core := reachable_of_run run
  have place : ∀ {who}, .halted i who ∈ w.history → _ := h.place_of_waiting new accepted waiting
  have home : p.lane = i := (h.identified accepted).lane
  refine ⟨fun spared => ?_, fun t halted => ⟨?_, fun s there ended => ?_⟩⟩
  · obtain ⟨who, halted⟩ := h.halted_of_accepted new raised done accepted
    cases who with
    | submission t => exact absurd halted (spared t)
    | stop m =>
      obtain rfl : m = n := h.one_forcer new (h.raised_of_halted halted) raised
      rcases place halted with ⟨c, closing, -⟩ | ⟨k, same, r, there, listed⟩ | ⟨t, other, -⟩
      · obtain ⟨kind, before, under⟩ := closing?_stop.1 closing
        cases done.symm.trans under
      · cases same
        obtain rfl := Option.some.inj (done.symm.trans there)
        have le := count_report_le (w := w.core) done p
        have one := h.count_holdings_le new p
        have some : 0 < report.pending.count p := List.count_pos_iff.2 listed
        simp only [holdings, List.count_append] at one
        omega
      · cases other
  · refine List.count_eq_zero.2 fun listed => ?_
    have back : p ∈ gathered w.core (.stop n) := by
      simpa [gathered, core, done, Stopping.gathered] using listed
    have only := (h.oneHalter new).halts_eq (mem_haltsOn.2 halted)
    have other := mem_haltsOn.2 (home ▸ h.halted_of_gathered new back)
    simp [only] at other
  · have gone := h.forfeited new accepted waiting halted there ended
    exact mem_discarded.1 gone

/-- A stop that meets nobody gives the waiting task back. -/
theorem forced_stop_gives_back_one : ∃ (d : Dispatcher Parcel) (acts : List (Act Unit))
    (w : World Unit) (report : StopReport Parcel), Dispatcher.create (tiny 1 1) 1 = .ok d ∧
      (fresh d ⟨0⟩).run acts = some w ∧ .raised 0 .forced ∈ w.history ∧
      w.stops[0]? = some (.done report) ∧ .accepted ⟨1, 0, 0⟩ 0 ∈ w.history ∧
      ⟨1, 0, 0⟩ ∉ takenOn w.history 0 ∧ report.pending.count ⟨1, 0, 0⟩ = 1 := by
  obtain ⟨a, -, one, -⟩ := run_tiny
  have made : Dispatcher.create (tiny 1 1) 1 = .ok (newborn 1 1) := rfl
  have whole : ((oneWaits a).run (Act.stop .forced :: List.replicate 12 (Act.advanceStop 0))).map
        (fun w : World Unit => (w.history, w.stops)) =
      some ([.resolved 0 1 0, .accepted ⟨1, 0, 0⟩ 0, .raised 0 .forced, .cleared,
        .halted 0 (.stop 0), .stopped 0 ⟨[⟨1, 0, 0⟩], []⟩], [.done ⟨[⟨1, 0, 0⟩], []⟩]) := by cbv
  obtain ⟨w, run, seen⟩ := Option.map_eq_some_iff.1 whole
  obtain ⟨history, stops⟩ := Prod.mk.inj seen
  have run := run_of_parts one run
  have raised : .raised 0 .forced ∈ w.history := by simp [history]
  have done : w.stops[0]? = some (.done ⟨[⟨1, 0, 0⟩], []⟩) := by simp [stops]
  have accepted : .accepted ⟨1, 0, 0⟩ 0 ∈ w.history := by simp [history]
  have waiting : ⟨1, 0, 0⟩ ∉ takenOn w.history 0 := by simp [history]
  exact ⟨_, _, w, _, made, run, raised, done, accepted, waiting,
    (forced_stop_gives_back made run raised done accepted waiting).1 (by simp [history])⟩

/--
A submission that looked its key up before the flags were raised meets the lane first, halts it
and throws the waiting task away; the forced stop gives nothing back.
-/
theorem forced_stop_loses_one : ∃ (d : Dispatcher Parcel) (acts : List (Act Unit))
    (w : World Unit) (report : StopReport Parcel), Dispatcher.create (tiny 1 1) 1 = .ok d ∧
      (fresh d ⟨0⟩).run acts = some w ∧ .raised 0 .forced ∈ w.history ∧
      w.stops[0]? = some (.done report) ∧ (∀ s ∈ w.submissions, s.answer?.isSome) ∧
      .accepted ⟨1, 0, 0⟩ 0 ∈ w.history ∧ ⟨1, 0, 0⟩ ∉ takenOn w.history 0 ∧
      ⟨1, 0, 0⟩ ∉ report.pending ∧ .discarded ⟨1, 0, 0⟩ ∈ w.history := by
  obtain ⟨a₁, a₂, one, two⟩ := run_tiny
  have made : Dispatcher.create (tiny 1 1) 1 = .ok (newborn 1 1) := rfl
  have whole : (((oneWaits a₁).lookedUp 1 0 a₂ []).run
      ([Act.stop .forced, Act.advanceStop 0, Act.advanceStop 0] ++
        List.replicate 10 (Act.advance 1) ++ List.replicate 5 (Act.advanceStop 0))).map
        (fun w : World Unit => (w.history, w.stops, w.submissions.map (·.answer?.isSome))) =
      some ([.resolved 0 1 0, .accepted ⟨1, 0, 0⟩ 0, .resolved 1 1 0, .raised 0 .forced,
        .halted 0 (.submission 1), .rejected 1, .discarded ⟨1, 0, 0⟩, .cleared,
        .stopped 0 ⟨[], []⟩], [.done ⟨[], []⟩], [true, true]) := by cbv
  obtain ⟨w, run, seen⟩ := Option.map_eq_some_iff.1 whole
  obtain ⟨history, seen⟩ := Prod.mk.inj seen
  have run := run_of_parts one (run_of_parts two run)
  obtain ⟨stops, ended⟩ := Prod.mk.inj seen
  refine ⟨_, _, w, ⟨[], []⟩, made, run, by simp [history], by simp [stops], fun s listed => ?_,
    by simp [history], by simp [history], by simp, by simp [history]⟩
  have each : s.answer?.isSome ∈ w.submissions.map (·.answer?.isSome) := List.mem_map_of_mem listed
  simpa [ended] using each

end World

end OrderedLanes
