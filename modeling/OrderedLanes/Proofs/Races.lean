import OrderedLanes.Proofs.Claims
import OrderedLanes.Proofs.Ranges
import OrderedLanes.Proofs.SlotLives

/-!
The race for a slot. Submissions that find it empty at the same time start a lane
each. The first one to install its lane wins, and every task that the slot accepts is
queued there; the other lanes are halted unused, however the accesses of submissions,
stops and workers come in turn.
-/

namespace OrderedLanes

namespace Race

variable {V : Type} {d : Dispatcher Parcel} {r r' : Race V} {t u : Ticket} {i : LaneIndex}

/-- A submission seen alone. -/
def claim (r : Race V) (t : Ticket) : Claim :=
  ⟨r.world.submissions[t]?.map Submission.phase, r.released t⟩

/-- The lane in a slot. -/
abbrev lane? (r : Race V) (i : LaneIndex) : Option (Lane Parcel) := r.world.dispatcher.lane? i

theorem story_append (log news : List (Ticket × LaneFate)) (t : Ticket) :
    story (log ++ news) t = story log t ++ story news t :=
  List.filterMap_append

theorem installers_append (log news : List (Ticket × LaneFate)) (i : LaneIndex) :
    installers (log ++ news) i = installers log i ++ installers news i :=
  List.filterMap_append

/-- What a log says about one party. -/
theorem mem_filterMap_fst {α β : Type} [DecidableEq α] {log : List (α × β)} {a : α} {b : β} :
    b ∈ log.filterMap (fun (x, y) => if x = a then some y else none) ↔ (a, b) ∈ log := by
  simp only [List.mem_filterMap, Prod.exists, Option.ite_none_right_eq_some, Option.some.injEq]
  exact ⟨fun ⟨_, _, listed, rfl, rfl⟩ => listed, fun listed => ⟨_, _, listed, rfl, rfl⟩⟩

/-- Of whom a log says one thing. -/
theorem mem_filterMap_snd {α β : Type} [DecidableEq β] {log : List (α × β)} {a : α} {b : β} :
    a ∈ log.filterMap (fun (x, y) => if y = b then some x else none) ↔ (a, b) ∈ log := by
  simp only [List.mem_filterMap, Prod.exists, Option.ite_none_right_eq_some, Option.some.injEq]
  exact ⟨fun ⟨_, _, listed, rfl, rfl⟩ => listed, fun listed => ⟨_, _, listed, rfl, rfl⟩⟩

theorem mem_story {log : List (Ticket × LaneFate)} {fate : LaneFate} :
    fate ∈ story log t ↔ (t, fate) ∈ log :=
  mem_filterMap_fst

theorem mem_starters {log : List (Ticket × LaneFate)} :
    t ∈ starters log i ↔ (t, .started i) ∈ log :=
  mem_filterMap_snd

theorem mem_installers {log : List (Ticket × LaneFate)} :
    t ∈ installers log i ↔ (t, .installed i) ∈ log :=
  mem_filterMap_snd

theorem mem_labourOf {labour : List (Ticket × LaneNews Parcel)} {news : LaneNews Parcel} :
    news ∈ labourOf labour t ↔ (t, news) ∈ labour :=
  mem_filterMap_fst

/-- What one access does. -/
structure Goes (r : Race V) (x : RaceAct V) (r' : Race V) (news : List (Ticket × LaneFate))
    (labour : List (Ticket × LaneNews Parcel)) : Prop where
  logged : r'.log = r.log ++ news
  worked : r'.labour = r.labour ++ labour
  short : news.length ≤ 1
  effect : World.Effect r.world.core r'.world.core
  claims : ∀ t,
    Claim.Step (x.advances t) (r.claim t) (story news t) (labourOf labour t) (r'.claim t)
  installed : ∀ t i, (t, .installed i) ∈ news → r.lane? i = none ∧ (r'.lane? i).isSome
  beaten : ∀ t i, (t, .beaten i) ∈ news → (r.lane? i).isSome

/-- Where one submission makes a step of its own, the others stay as they are. -/
theorem claims_of_own {x : RaceAct V} {news : List LaneFate} {labour : List (LaneNews Parcel)}
    (step : Claim.Step (x.advances t) (r.claim t) news labour (r'.claim t))
    (others : ∀ u, u ≠ t → x.advances u = false ∧ r'.claim u = r.claim u) (u : Ticket) :
    Claim.Step (x.advances u) (r.claim u) (story (news.map fun fate => (t, fate)) u)
      (labourOf (labour.map fun x => (t, x)) u) (r'.claim u) := by
  rcases eq_or_ne u t with rfl | apart
  · simpa using step
  · rw [(others u apart).1, (others u apart).2]
    simpa [apart.symm] using Claim.Step.rest (r.claim u)

/-- What holds of all lanes that were started, at any time. -/
structure Kept (d : Dispatcher Parcel) (r : Race V) : Prop where
  reachable : World.Reachable d r.world.core
  inRange : r.world.core.InRange d.laneCount
  told : ∀ t, (r.claim t).Told (story r.log t)
  idle : ∀ x ∈ r.labour, x.2 = .left none
  vacant : ∀ i, r.lane? i = none → installers r.log i = []
  filled : ∀ i, (r.lane? i).isSome → ∃ t, installers r.log i = [t]
  beaten : ∀ t i, (t, .beaten i) ∈ r.log → (r.lane? i).isSome

/-- An act that takes no submission on. -/
theorem goes_of_rest {a : Act V} {w' : World V} (act : r.world.step a = some w')
    (other : ∀ t, a ≠ .advance t) :
    Goes r (.act a) { r with world := w' } [] [] where
  logged := (List.append_nil _).symm
  worked := (List.append_nil _).symm
  short := Nat.zero_le 1
  effect := World.effect_of_step act
  claims t := by
    have idle : (RaceAct.act a).advances t = false := by
      cases a with
      | advance u => exact absurd rfl (other u)
      | _ => rfl
    rw [idle]
    exact (World.move_of_step act).claim other (r.released t) t
  installed := by simp
  beaten := by simp

/-- A step of one submission, or of the worker of its lane. -/
theorem goes_of_own {x : RaceAct V} (news : List LaneFate) (labour : List (LaneNews Parcel))
    (effect : World.Effect r.world.core r'.world.core)
    (step : Claim.Step (x.advances t) (r.claim t) news labour (r'.claim t))
    (others : ∀ u, u ≠ t → x.advances u = false ∧ r'.claim u = r.claim u)
    (logged : r'.log = r.log ++ news.map fun fate => (t, fate))
    (worked : r'.labour = r.labour ++ labour.map fun x => (t, x)) (short : news.length ≤ 1)
    (installed : ∀ i, .installed i ∈ news → r.lane? i = none ∧ (r'.lane? i).isSome)
    (beaten : ∀ i, .beaten i ∈ news → (r.lane? i).isSome) :
    Goes r x r' (news.map fun fate => (t, fate)) (labour.map fun x => (t, x)) where
  logged := logged
  worked := worked
  short := by simpa using short
  effect := effect
  claims := claims_of_own step others
  installed u i listed := by
    obtain ⟨fate, there, same⟩ := List.mem_map.1 listed
    obtain ⟨rfl, rfl⟩ := Prod.mk.inj same
    exact installed i there
  beaten u i listed := by
    obtain ⟨fate, there, same⟩ := List.mem_map.1 listed
    obtain ⟨rfl, rfl⟩ := Prod.mk.inj same
    exact beaten i there

theorem claim_of_there {s : Submission Parcel} (there : r.world.submissions[t]? = some s) :
    r.claim t = ⟨some s.phase, r.released t⟩ := by
  rw [claim, there]
  rfl

/-- What following an access of submission `t` adds to a race. -/
structure Follows (r : Race V) (t : Ticket) (d' : Dispatcher Parcel)
    (p p' : SubmissionPhase Parcel) (news : List LaneFate) (r' : Race V) : Prop where
  logged : r'.log = r.log ++ news.map fun fate => (t, fate)
  worked : r'.labour = r.labour
  others : ∀ u, u ≠ t → r'.released u = r.released u
  short : news.length ≤ 1
  step : Claim.Step true ⟨some p, r.released t⟩ news [] ⟨some p', r'.released t⟩
  installed : ∀ i, .installed i ∈ news → ∃ stamp own, p = .installing stamp i own ∧
    r.lane? own.index = none ∧ d' = r.world.dispatcher.setLane own.index own
  beaten : ∀ i, .beaten i ∈ news → ∃ stamp own, p = .installing stamp i own ∧
    (r.lane? own.index).isSome

theorem follow_pass (r : Race V) (t : Ticket) (w' : World V) {p p' : SubmissionPhase Parcel}
    (unheld : p.own? = none) (unheld' : p'.own? = none) :
    r.follow t w' p p' = { r with world := w' } := by
  unfold follow
  split <;> first | rfl | (cases unheld'; done) | cases unheld

theorem follows_of_ownStep {d' : Dispatcher Parcel} {p p' : SubmissionPhase Parcel}
    (step : OwnStep r.world.dispatcher d' p p') (t : Ticket) (w' : World V) :
    ∃ news, Follows r t d' p p' news (r.follow t w' p p') := by
  cases step with
  | pass p p' unheld unheld' past =>
    rw [follow_pass r t w' unheld unheld']
    refine ⟨[], (List.append_nil _).symm, rfl, fun _ _ => rfl, Nat.zero_le 1, ?_, by simp, by simp⟩
    refine .pass _ _ _ _ (by rintro _ ⟨⟩; exact unheld) (by rintro _ ⟨⟩; exact unheld') ?_
    rintro _ ⟨⟩ gone
    exact ⟨p', rfl, past gone⟩
  | start stamp i =>
    exact ⟨[.started i], rfl, rfl, fun _ _ => rfl, Nat.le.refl, .start stamp i _, by simp, by simp⟩
  | install stamp i own empty filled =>
    refine ⟨[.installed i], rfl, rfl, fun _ _ => rfl, Nat.le.refl, .install stamp i own _,
      fun j listed => ?_, by simp⟩
    obtain rfl : j = i := by simpa using listed
    exact ⟨stamp, own, rfl, empty, filled⟩
  | lose stamp i own filled =>
    refine ⟨[.beaten i], rfl, rfl, fun _ _ => rfl, Nat.le.refl, .lose stamp i own _, by simp,
      fun j listed => ?_⟩
    obtain rfl : j = i := by simpa using listed
    exact ⟨stamp, own, rfl, filled⟩
  | halt stamp i own c unfinished =>
    exact ⟨[], (List.append_nil _).symm, rfl, fun _ _ => rfl, Nat.zero_le 1,
      .halt stamp i own c _ unfinished, by simp, by simp⟩
  | release stamp i own report =>
    refine ⟨[.released i], rfl, rfl, fun u apart => if_neg apart, Nat.le.refl, ?_, by simp, by simp⟩
    have gone : (r.follow t w' (.yielding stamp i own (.done report))
        (.rechecking stamp i)).released t = some own := if_pos rfl
    rw [gone]
    exact .release stamp i own report _

/-- An access of a submission. -/
theorem Kept.goes_of_advance (h : r.Kept d) {s : Submission Parcel} {w' : World V}
    (there : r.world.submissions[t]? = some s) (act : r.world.step (.advance t) = some w')
    (dispatcher : w'.dispatcher = (s.step r.world.dispatcher).value.2)
    (submissions : w'.submissions =
      r.world.submissions.set t (s.step r.world.dispatcher).value.1) :
    ∃ news, Goes r (.act (.advance t))
      (r.follow t w' s.phase (s.step r.world.dispatcher).value.1.phase) news [] := by
  have there' := submissions ▸ getElem?_set_there there (s.step r.world.dispatcher).value.1
  have untouched : ∀ stamp i own, s.phase = .installing stamp i own → own = Lane.start i :=
    (h.reachable.allSound t s there).own
  obtain ⟨news, f⟩ := follows_of_ownStep (s.ownStep r.world.dispatcher) t w'
  have same : (r.follow t w' s.phase (s.step r.world.dispatcher).value.1.phase).world = w' := by
    unfold follow
    split <;> rfl
  generalize r.follow t w' s.phase (s.step r.world.dispatcher).value.1.phase = r' at f same
  subst same
  refine ⟨_, goes_of_own news [] (World.effect_of_step act) ?_ (fun u apart => ?_) f.logged
    (f.worked.trans (List.append_nil _).symm) f.short (fun i listed => ?_) fun i listed => ?_⟩
  · rw [claim_of_there there, claim_of_there there', RaceAct.advances, beq_self_eq_true]
    exact f.step
  · refine ⟨beq_false_of_ne apart.symm, ?_⟩
    rw [Race.claim, Race.claim, submissions, List.getElem?_set_ne apart.symm, f.others u apart]
  · obtain ⟨stamp, own, phase, empty, filled⟩ := f.installed i listed
    obtain rfl := untouched stamp i own phase
    have bound : i < r.world.dispatcher.laneCount := by
      have slots := h.inRange.slots
      exact slots ▸ h.inRange.submissions t s i there (by simp [Submission.lane?, phase])
    refine ⟨empty, ?_⟩
    rw [Race.lane?, dispatcher, filled, Lane.index_start, Dispatcher.lane?_setLane _ _ _ _ bound,
      if_pos rfl]
    rfl
  · obtain ⟨stamp, own, phase, filled⟩ := f.beaten i listed
    obtain rfl := untouched stamp i own phase
    exact filled

/-- The worker of a lane that its submission still has in hand changes nothing but that lane. -/
theorem Kept.effect_of_held (h : r.Kept d) {s : Submission Parcel} {own : Lane Parcel}
    {a : LaneAct Parcel V} {v : LaneWorld Parcel} (there : r.world.submissions[t]? = some s)
    (phase : s.phase.own? = some own) (mine : a.byWorker = true)
    (worked : (⟨own, [], []⟩ : LaneWorld Parcel).step a = some v) :
    World.Effect r.world.core
      ({ r.world with submissions :=
          r.world.submissions.set t (s.on (s.phase.setOwn v.lane)) } : World V).core := by
  have told := claim_of_there there ▸ h.told t
  obtain ⟨-, stamp, i, ⟨now, rfl, -⟩ | ⟨c, now, -⟩⟩ := told.holding phase
  · -- The worker of a lane that nobody has closed waits.
    cases ((Lane.unused_start i).work mine worked).1
  · have looks : World.Look r.world.dispatcher s.phase (s.phase.setOwn v.lane) := by
      rw [now]
      exact .yields stamp i own v.lane c c
    exact .look t s _ there looks

/-- An act of the worker of a lane that is in no slot. -/
theorem Kept.goes_of_work (h : r.Kept d) {a : LaneAct Parcel V} (act : r.work t a = some r') :
    ∃ labour, Goes r (.work t a) r' [] labour := by
  simp only [Race.work, Option.bind_eq_bind, Option.bind_eq_some_iff] at act
  obtain ⟨l, spare, act⟩ := act
  split at act
  · next mine =>
    obtain ⟨v, worked, act⟩ := Option.bind_eq_some_iff.1 act
    obtain rfl := Option.some.inj act
    unfold Race.setSpare
    cases held : r.held? t with
    | some own =>
      obtain rfl : own = l := by
        rw [Race.spare?, held] at spare
        exact Option.some.inj spare
      obtain ⟨s, there, phase⟩ := Option.bind_eq_some_iff.1 held
      have set : r.world.submissions.modify t (fun s => s.on (s.phase.setOwn v.lane)) =
          r.world.submissions.set t (s.on (s.phase.setOwn v.lane)) := by
        simp [List.modify_eq_set_getElem?, there]
      simp only [set]
      refine ⟨_, goes_of_own (t := t) [] v.log (h.effect_of_held there phase mine worked) ?_ ?_
        (List.append_nil _).symm rfl (Nat.zero_le 1) (by simp) (by simp)⟩
      · rw [claim_of_there there, Race.claim]
        simp only [getElem?_set_there there]
        exact .workHeld s.phase own _ a v phase mine worked
      · intro u apart
        simp only [Race.claim, List.getElem?_set_ne apart.symm]
        exact ⟨rfl, trivial⟩
    | none =>
      have released : r.released t = some l := by
        rw [Race.spare?, held] at spare
        exact spare
      have unheld : ∀ q ∈ r.world.submissions[t]?.map Submission.phase, q.own? = none := by
        rintro q listed
        obtain ⟨s, there, rfl⟩ := Option.map_eq_some_iff.1 listed
        simpa [Race.held?, there] using held
      refine ⟨_, goes_of_own (t := t) [] v.log .rest ?_ ?_
        (List.append_nil _).symm rfl (Nat.zero_le 1) (by simp) (by simp)⟩
      · simp only [Race.claim, released, if_true]
        exact .workReleased _ l a v unheld mine worked
      · intro u apart
        simp only [Race.claim, if_neg apart]
        exact ⟨rfl, trivial⟩
  · cases act

/-- What an access does, by the party that makes it. -/
theorem Kept.goes (h : r.Kept d) {x : RaceAct V} (act : r.step x = some r') :
    ∃ news labour, Goes r x r' news labour := by
  cases x with
  | work t a =>
    obtain ⟨labour, goes⟩ := h.goes_of_work act
    exact ⟨_, _, goes⟩
  | act a =>
    by_cases other : ∀ t, a ≠ .advance t
    · have acts : r.step (.act a) = (r.world.step a).map fun world => { r with world } := by
        cases a with
        | advance t => exact absurd rfl (other t)
        | _ => simp only [Race.step]; cases r.world.step _ <;> rfl
      obtain ⟨w', act', rfl⟩ := Option.map_eq_some_iff.1 (acts.symm.trans act)
      exact ⟨_, _, goes_of_rest act' other⟩
    · obtain ⟨t, same⟩ := not_forall.1 other
      obtain rfl := not_not.1 same
      simp only [Race.step, Option.bind_eq_bind, Option.bind_eq_some_iff] at act
      obtain ⟨s, there, w', act', s', after, followed⟩ := act
      obtain rfl := Option.some.inj followed
      obtain ⟨s₁, there₁, going, dispatcher, submissions, -⟩ := World.advance_cases act'
      obtain rfl := Option.some.inj (there.symm.trans there₁)
      obtain rfl : s' = (s.step r.world.dispatcher).value.1 := by
        rw [submissions, getElem?_set_there there] at after
        exact (Option.some.inj after).symm
      obtain ⟨news, goes⟩ := h.goes_of_advance there act' dispatcher submissions
      exact ⟨_, _, goes⟩

theorem installers_singleton (t : Ticket) (i : LaneIndex) :
    installers [(t, .installed i)] i = [t] := by
  simp

/-- What holds of the lanes goes on to hold. -/
theorem Kept.step (h : r.Kept d) {x : RaceAct V} {news : List (Ticket × LaneFate)}
    {labour : List (Ticket × LaneNews Parcel)} (g : Goes r x r' news labour) : r'.Kept d := by
  have sound : World.AllSound r.world.submissions := h.reachable.allSound
  have told : ∀ t, (r'.claim t).Told (story r'.log t) ∧ ∀ x ∈ labourOf labour t, x = .left none :=
    fun t => by
      rw [g.logged, story_append]
      exact (h.told t).step (g.claims t)
  have stays : ∀ i, (r.lane? i).isSome → (r'.lane? i).isSome := fun i filled => by
    obtain ⟨l, lane⟩ := Option.isSome_iff_exists.1 filled
    obtain ⟨l', lane', -⟩ := g.effect.grows sound lane
    exact Option.isSome_iff_exists.2 ⟨l', lane'⟩
  have new : ∀ i t, t ∈ installers news i → r.lane? i = none ∧ (r'.lane? i).isSome :=
    fun i t listed => g.installed t i (mem_installers.1 listed)
  refine ⟨.step h.reachable g.effect, h.inRange.effect g.effect, fun t => (told t).1, ?_, ?_, ?_,
    ?_⟩
  · rw [g.worked]
    rintro ⟨t, x⟩ listed
    rcases List.mem_append.1 listed with old | new
    · exact h.idle _ old
    · exact (told t).2 x (mem_labourOf.2 new)
  · intro i empty
    have was : r.lane? i = none := by
      by_contra filled
      have still := stays i (Option.isSome_iff_ne_none.2 filled)
      simp [empty] at still
    rw [g.logged, installers_append, h.vacant i was, List.nil_append,
      List.eq_nil_iff_forall_not_mem]
    intro t listed
    have filled := (new i t listed).2
    simp [empty] at filled
  · intro i filled
    rw [g.logged, installers_append]
    cases was : r.lane? i with
    | some l =>
      have none : installers news i = [] := by
        rw [List.eq_nil_iff_forall_not_mem]
        intro t listed
        cases was.symm.trans (new i t listed).1
      rw [none, List.append_nil]
      exact h.filled i (by simp [was])
    | none =>
      obtain ⟨l, lane⟩ := Option.isSome_iff_exists.1 filled
      obtain ⟨t, s, stamp, there, phase, after⟩ := g.effect.filled sound was lane
      have told : story news t = [.installed i] := (g.claims t).installs
        (by rw [Race.claim, show r.world.submissions[t]? = some s from there, ← phase]; rfl)
        (by rw [Race.claim, show r'.world.submissions[t]? = _ from after]; rfl)
      have listed : (t, .installed i) ∈ news := mem_story.1 (told ▸ List.mem_singleton_self _)
      obtain ⟨x, rfl⟩ := List.length_eq_one_iff.1
        (Nat.le_antisymm g.short (List.length_pos_of_mem listed))
      obtain rfl := List.mem_singleton.1 listed
      exact ⟨t, by rw [h.vacant i was, List.nil_append, installers_singleton]⟩
  · intro t i listed
    rw [g.logged, List.mem_append] at listed
    exact stays i (listed.elim (h.beaten t i) (g.beaten t i))

/-! ### Along a run -/

/-- What holds at the start of a run and is kept by each of its accesses holds at its end. -/
theorem run_induction {P : Race V → Prop} (start : P r)
    (keep : ∀ {u x v}, P u → u.step x = some v → P v) {xs : List (RaceAct V)}
    (run : r.run xs = some r') : P r' := by
  induction xs generalizing r with
  | nil =>
    obtain rfl := Option.some.inj run
    exact start
  | cons x xs ih =>
    rw [run_cons, Option.bind_eq_some_iff] at run
    obtain ⟨u, first, rest⟩ := run
    exact ih (keep start first) rest

theorem kept_fresh {config : Config} {parallelism : Nat}
    (made : Dispatcher.create config parallelism = .ok d) (counter : KeyCounter) :
    (fresh (V := V) d counter).Kept d := by
  obtain ⟨new, -⟩ := Dispatcher.fresh_of_create made
  obtain ⟨-, mirrored, -⟩ := World.allocator_of_create made
  have bare : ∀ i, (fresh (V := V) d counter).lane? i = none := new.lanes
  refine ⟨.start, World.inRange_fresh new mirrored,
    fun t => .unstarted _ (by simp [fresh, World.fresh]), by simp [fresh], fun i _ => rfl,
    fun i filled => ?_, by simp [fresh]⟩
  simp [bare i] at filled

/-- What a run does to the world, and to the log. -/
theorem Kept.run (h : r.Kept d) {xs : List (RaceAct V)} (run : r.run xs = some r') :
    r'.Kept d ∧ World.Later r.world.core r'.world.core ∧ r.log <+: r'.log := by
  refine run_induction (P := fun v => v.Kept d ∧ World.Later r.world.core v.world.core ∧
    r.log <+: v.log) ⟨h, .refl, List.prefix_refl _⟩ (fun {u x v} before act => ?_) run
  obtain ⟨kept, later, grows⟩ := before
  obtain ⟨news, labour, goes⟩ := kept.goes act
  exact ⟨kept.step goes, .step later goes.effect,
    grows.trans (goes.logged ▸ List.prefix_append _ _)⟩

/-- Once a lane was started, its submission gets rid of it by a few accesses of its own. -/
theorem Kept.left_run (h : r.Kept d) (begun : story r.log t ≠ []) {xs : List (RaceAct V)}
    (run : r.run xs = some r') :
    (r'.claim t).left ≤ (r.claim t).left - xs.countP (RaceAct.advances t) := by
  induction xs generalizing r with
  | nil =>
    obtain rfl := Option.some.inj run
    exact Nat.le_refl _
  | cons x xs ih =>
    rw [run_cons, Option.bind_eq_some_iff] at run
    obtain ⟨v, act, rest⟩ := run
    obtain ⟨news, labour, goes⟩ := h.goes act
    have first := (h.told t).left_step begun (goes.claims t)
    have rest := ih (h.step goes) (by rw [goes.logged, story_append]; simp [begun]) rest
    rw [List.countP_cons]
    cases own : x.advances t <;> simp [own] at first ⊢ <;> omega

/-- A lane that was started for slot `i`, and that is in no slot. -/
structure Spare (r : Race V) (t : Ticket) (i : LaneIndex) (l : Lane Parcel) : Prop where
  /-- It is in the hands of its submission, or that has let it go. -/
  there : r.spare? t = some l
  /-- It has no task, and its worker waits or has left. -/
  unused : l.Unused i
  /-- Its worker did nothing but leave. -/
  idle : ∀ x ∈ labourOf r.labour t, x = .left none
  /-- It is not stopped before another one was found in the slot. -/
  untouched : (t, .beaten i) ∉ r.log → l = Lane.start i
  halted : r.held? t = none → l.Halted

/-- What has become of the lanes that were started for slot `i`. -/
structure Decided (r : Race V) (i : LaneIndex) : Prop where
  /-- A submission starts one lane at most, which is installed or let go. -/
  stories : ∀ t ∈ starters r.log i,
    story r.log t = [.started i] ∨ story r.log t = [.started i, .installed i] ∨
      story r.log t = [.started i, .beaten i] ∨
      story r.log t = [.started i, .beaten i, .released i]
  /-- While the slot is empty nobody has found another lane there. -/
  vacant : r.lane? i = none →
    installers r.log i = [] ∧ World.acceptedOn r.world.history i = [] ∧
      ∀ t ∈ starters r.log i, story r.log t = [.started i]
  /-- One lane was installed, and every task that the slot accepted was queued on it in turn. -/
  winner : ∀ l, r.lane? i = some l → ∃ t ∈ starters r.log i, installers r.log i = [t] ∧
    Relation.ReflTransGen (Use V) (Lane.start i, []) (l, World.acceptedOn r.world.history i)
  queue : ∀ l, r.lane? i = some l → l.queue <:+ World.acceptedOn r.world.history i ∧
    (l.interrupted = false → World.takenOn r.world.history i ++ l.queue =
      World.acceptedOn r.world.history i)
  /-- It is the one that stays. -/
  kept : ∀ l xs r', r.lane? i = some l → r.run xs = some r' →
    installers r'.log i = installers r.log i ∧ ∃ l', r'.lane? i = some l' ∧
      Relation.ReflTransGen (Use V) (l, World.acceptedOn r.world.history i)
        (l', World.acceptedOn r'.world.history i)
  others : ∀ t ∈ starters r.log i, t ∉ installers r.log i → ∃ l, r.Spare t i l
  /-- Once the slot is filled every other lane is soon halted and let go. -/
  soon : ∀ t ∈ starters r.log i, t ∉ installers r.log i → (r.lane? i).isSome → ∀ xs r',
    r.run xs = some r' → 7 ≤ xs.countP (RaceAct.advances t) →
    ∃ l, r'.released t = some l ∧ r'.Spare t i l ∧ l.Halted

theorem held?_eq (r : Race V) (t : Ticket) : r.held? t = (r.claim t).held? := by
  unfold held? claim Claim.held?
  cases r.world.submissions[t]? <;> rfl

theorem spare?_eq (r : Race V) (t : Ticket) :
    r.spare? t = (r.claim t).held?.or (r.claim t).released := by
  rw [spare?, held?_eq]
  rfl

theorem Kept.spare (h : r.Kept d) (started : t ∈ starters r.log i)
    (other : t ∉ installers r.log i) :
    ∃ l, r.Spare t i l ∧ (r.held? t = none → r.released t = some l) := by
  obtain ⟨l, there, unused, untouched, gone⟩ := (h.told t).spare
    (mem_story.2 (mem_starters.1 started))
    (fun listed => other (mem_installers.2 (mem_story.1 listed)))
  rw [← spare?_eq] at there
  rw [← held?_eq] at gone
  refine ⟨l, ⟨there, unused, fun x listed => ?_, fun unbeaten => untouched fun listed => ?_,
    fun none => (gone none).2⟩, fun none => (gone none).1⟩
  · exact h.idle (t, x) (mem_labourOf.1 listed)
  · exact unbeaten (mem_story.1 listed)

/-- Nobody installs a second lane. -/
theorem Kept.installers_eq (h : r.Kept d) (filled : (r.lane? i).isSome) {xs : List (RaceAct V)}
    (run : r.run xs = some r') : installers r'.log i = installers r.log i := by
  obtain ⟨kept, later, grows⟩ := h.run run
  obtain ⟨l, lane⟩ := Option.isSome_iff_exists.1 filled
  obtain ⟨l', lane', -⟩ := later.uses h.reachable lane
  obtain ⟨t, one⟩ := h.filled i filled
  obtain ⟨t', one'⟩ := kept.filled i (Option.isSome_iff_exists.2 ⟨l', lane'⟩)
  refine (List.IsPrefix.eq_of_length (grows.filterMap _) ?_).symm
  exact (congrArg List.length one).trans (congrArg List.length one').symm

theorem Kept.story_of_vacant (h : r.Kept d) (started : t ∈ starters r.log i)
    (empty : r.lane? i = none) : story r.log t = [.started i] := by
  have unbeaten : .beaten i ∉ story r.log t := fun listed => by
    have filled := h.beaten t i (mem_story.1 listed)
    simp [empty] at filled
  have uninstalled : .installed i ∉ story r.log t := fun listed => by
    have installed := mem_installers.2 (mem_story.1 listed)
    simp [h.vacant i empty] at installed
  rcases (h.told t).stories (mem_story.2 (mem_starters.1 started)) with
    only | more | more | more
  · exact only
  all_goals simp [more] at unbeaten uninstalled

theorem Kept.decided (h : r.Kept d) (new : d.Fresh) (i : LaneIndex) : r.Decided i := by
  have orderly : ∀ l, r.lane? i = some l → InOrder i l (World.acceptedOn r.world.history i)
      (World.takenOn r.world.history i) (World.marksOn r.world.history i) := fun _ lane =>
    h.reachable.inOrder new lane
  refine ⟨fun t started => (h.told t).stories (mem_story.2 (mem_starters.1 started)),
    fun empty => ⟨h.vacant i empty, (h.reachable.untouched new empty).1,
      fun t started => h.story_of_vacant started empty⟩, fun l lane => ?_,
    fun l lane => ⟨(orderly l lane).waiting, (orderly l lane).fifo⟩, fun l xs r' lane run => ?_,
    fun t started other => ?_, fun t started other filled xs r' run many => ?_⟩
  · obtain ⟨t, one⟩ := h.filled i (Option.isSome_iff_exists.2 ⟨l, lane⟩)
    have listed : .installed i ∈ story r.log t :=
      mem_story.2 (mem_installers.1 (one ▸ List.mem_singleton_self t))
    have started := mem_starters.2 (mem_story.1 ((h.told t).started_of_installed listed))
    exact ⟨t, started, one, h.reachable.uses new lane⟩
  · exact ⟨h.installers_eq (Option.isSome_iff_exists.2 ⟨l, lane⟩) run,
      (h.run run).2.1.uses h.reachable lane⟩
  · obtain ⟨l, spare, -⟩ := h.spare started other
    exact ⟨l, spare⟩
  · obtain ⟨kept, later, grows⟩ := h.run run
    have begun : story r.log t ≠ [] :=
      List.ne_nil_of_mem (mem_story.2 (mem_starters.1 started))
    have few := (r.claim t).left_le
    have none : (r'.claim t).left = 0 := by
      have left := h.left_run begun run
      omega
    obtain ⟨l, spare, gone⟩ := kept.spare (mem_starters.2 (grows.subset (mem_starters.1 started)))
      (h.installers_eq filled run ▸ other)
    have free : r'.held? t = Option.none := (held?_eq r' t).trans (Claim.held?_of_left none)
    exact ⟨l, gone free, spare, spare.halted free⟩

/--
However many submissions find a slot empty and start a lane for it, and however their accesses and
those of workers and stops come in turn: at most one lane is installed in the slot, and it is not
replaced. Every task that the slot accepts is queued on that lane, in the order of the acceptance.
Every other lane that was started is halted and let go by its submission, soon after it finds the
slot filled; there is never a task on it, and its worker runs nothing.
-/
theorem single_winner {config : Config} {parallelism : Nat} {counter : KeyCounter}
    {xs : List (RaceAct V)} (made : Dispatcher.create config parallelism = .ok d)
    (run : (fresh d counter).run xs = some r) (i : LaneIndex) : r.Decided i :=
  ((kept_fresh made counter).run run).1.decided (Dispatcher.fresh_of_create made).1 i

/-! ### A race of two submissions -/

/-- An access from a phase in which the submission has no lane in hand and is not to start one. -/
theorem step_pass {s : Submission Parcel} {w' : World V} (there : r.world.submissions[t]? = some s)
    (unheld : s.phase.own? = none) (unready : ∀ stamp i, s.phase ≠ .starting stamp i)
    (act : r.world.advance t = some w') :
    r.step (.act (.advance t)) = some { r with world := w' } := by
  obtain ⟨s₁, there₁, going, -, submissions, -⟩ := World.advance_cases act
  obtain rfl := Option.some.inj (there.symm.trans there₁)
  have after := submissions ▸ getElem?_set_there there (s.step r.world.dispatcher).value.1
  have pass : (s.step r.world.dispatcher).value.1.phase.own? = none := by
    have step := s.ownStep r.world.dispatcher
    generalize (s.step r.world.dispatcher).value.1.phase = p' at step ⊢
    generalize s.phase = p at step unheld unready
    cases step with
    | pass p p' unheld unheld' => exact unheld'
    | start stamp i => exact absurd rfl (unready stamp i)
    | _ => first | rfl | cases unheld
  simp only [Race.step, Option.bind_eq_bind, there, act, after, Option.bind_some]
  rw [follow_pass r t w' unheld pass]
  rfl

/-- A submission begins, looks at the flag and looks its key up. -/
theorem run_submit {key : Key} {w' : World V} (ticket : r.world.submissions.length = t)
    (run : r.world.run [.submit key false, .advance t, .advance t] = some w')
    (xs : List (RaceAct V)) :
    r.run (.act (.submit key false) :: .act (.advance t) :: .act (.advance t) :: xs) =
      { r with world := w' }.run xs := by
  subst ticket
  rw [World.run_cons, World.step, Option.bind_some, World.run_cons] at run
  obtain ⟨w₂, looks, run⟩ := Option.bind_eq_some_iff.1 run
  obtain ⟨w₃, finds, run⟩ := Option.bind_eq_some_iff.1 run
  obtain rfl := Option.some.inj run
  have there : (r.world.begin key false).submissions[r.world.submissions.length]? =
      some (.start key false fun lane _ => ⟨key, lane, r.world.submissions.length⟩) := by
    simp [World.begin]
  obtain ⟨v, same, -, submissions, -⟩ := World.exists_advance there rfl
  obtain rfl := Option.some.inj (looks.symm.trans same)
  have there₂ := submissions ▸ getElem?_set_there there _
  have first : (Race.mk (r.world.begin key false) r.released r.log r.labour).step
      (.act (.advance r.world.submissions.length)) = some { r with world := w₂ } :=
    step_pass there rfl (by simp [Submission.start]) looks
  have second : (Race.mk w₂ r.released r.log r.labour).step
      (.act (.advance r.world.submissions.length)) = some { r with world := w₃ } := by
    refine step_pass there₂ ?_ ?_ finds <;>
      cases up : (r.world.begin key false).dispatcher.shutdown <;>
      simp [Submission.step, Submission.start, Submission.reject, Submission.on, up,
        SubmissionPhase.own?]
  have begins : r.step (.act (.submit key false)) =
    some { r with world := r.world.begin key false } := rfl
  rw [run_cons, begins, Option.bind_some, run_cons, first, Option.bind_some, run_cons, second,
    Option.bind_some]

/-- Both submissions find the slot empty; the second one's lane comes too late. -/
def photoFinish : List (RaceAct Unit) :=
  [.act (.submit 1 false), .act (.advance 0), .act (.advance 0), .act (.submit 1 false),
    .act (.advance 1), .act (.advance 1), .act (.advance 0), .act (.advance 1),
    .act (.advance 0), .act (.advance 1), .act (.advance 0), .act (.advance 1),
    .act (.advance 1), .act (.advance 1), .act (.advance 1), .act (.advance 1),
    .work 1 .receive, .act (.advance 1), .act (.advance 1), .act (.advance 1),
    .act (.advance 1), .act (.advance 0), .act (.advance 0)]

theorem photoFinish_lookUps (V : Type) : ∃ a₁ a₂,
    ((World.newborn 1 1).allocator.resolve 1).value = (0, a₁) ∧
      World.evictions (V := V) ((World.newborn 1 1).allocator.resolve 1).events = [] ∧
      (a₁.resolve 1).value = (0, a₂) ∧
      World.evictions (V := V) (a₁.resolve 1).events = [] := by
  have made : Allocator.withHeadroom 1 1 1 = .ok (World.newborn 1 1).allocator := rfl
  have first := (Allocator.mirrors_of_withHeadroom made).resolve 1
  have second := first.mirrors.resolve 1
  exact ⟨_, _, Prod.ext (first.answer.trans (by decide)) rfl,
    (congrArg World.evictions first.events).trans rfl,
    Prod.ext (second.answer.trans (by decide)) rfl,
    (congrArg World.evictions second.events).trans rfl⟩

/-- The first submission installed its lane, and both tasks wait on it. -/
def finished (a : Allocator) : Race Unit where
  world := World.calm
    ⟨World.tiny 1 1, a, [some ⟨0, .running, true, [⟨1, 0, 1⟩, ⟨1, 0, 0⟩], false, .idle, false⟩],
      false, false⟩
    [World.underKey 1 0 (.done ⟨.accepted none, []⟩),
      World.underKey 1 1 (.done ⟨.accepted none, []⟩)]
    [.resolved 0 1 0, .resolved 1 1 0, .accepted ⟨1, 0, 1⟩ 0, .accepted ⟨1, 0, 0⟩ 0]
  released := fun t =>
    if t = 1 then some ⟨0, .halted, false, [], true, .exited none, false⟩ else none
  log := [(0, .started 0), (1, .started 0), (0, .installed 0), (1, .beaten 0), (1, .released 0)]
  labour := [(1, .left none)]

theorem run_photoFinish : ∃ a, (fresh (World.newborn 1 1) ⟨0⟩).run photoFinish =
    some (finished a) := by
  obtain ⟨a₁, a₂, found₁, quiet₁, found₂, quiet₂⟩ := photoFinish_lookUps Unit
  have first := World.run_submit (w := .fresh (World.newborn 1 1) ⟨0⟩) 1 rfl rfl found₁ quiet₁ []
  have second := World.run_submit
    (w := World.lookedUp (.fresh (World.newborn 1 1) ⟨0⟩) 1 0 a₁ []) 1 rfl rfl found₂ quiet₂ []
  refine ⟨a₂, ?_⟩
  refine (run_submit (r := fresh (World.newborn 1 1) ⟨0⟩) rfl first _).trans ?_
  refine (run_submit rfl second _).trans ?_
  cbv

/-- One of two lanes is installed and gets both tasks; the other one is halted. -/
theorem single_winner_of_two : ∃ (d : Dispatcher Parcel) (r : Race Unit),
    Dispatcher.create (World.tiny 1 1) 1 = .ok d ∧ (fresh d ⟨0⟩).run photoFinish = some r ∧
      starters r.log 0 = [0, 1] ∧ installers r.log 0 = [0] ∧
      World.acceptedOn r.world.history 0 = [⟨1, 0, 1⟩, ⟨1, 0, 0⟩] ∧
      (r.lane? 0).map Lane.queue = some [⟨1, 0, 1⟩, ⟨1, 0, 0⟩] ∧ r.Decided 0 ∧
      ∃ l, r.released 1 = some l ∧ r.Spare 1 0 l ∧ l.Halted := by
  obtain ⟨a, run⟩ := run_photoFinish
  have made : Dispatcher.create (World.tiny 1 1) 1 = .ok (World.newborn 1 1) := rfl
  have decided := single_winner made run 0
  have started : starters (finished a).log 0 = [0, 1] := rfl
  have installed : installers (finished a).log 0 = [0] := rfl
  obtain ⟨l, spare⟩ := decided.others 1 (by simp [started]) (by simp [installed])
  have gone : (finished a).spare? 1 = (finished a).released 1 := rfl
  exact ⟨World.newborn 1 1, finished a, made, run, started, installed, rfl, rfl, decided, l,
    gone ▸ spare.there, spare, spare.halted rfl⟩

end Race

end OrderedLanes
