import OrderedLanes.Proofs.Assignments
import OrderedLanes.Proofs.ForcedStop

/-!
The lanes that a key is bound to: where its tasks are, and where a submission of
it may still queue one. A key that is evicted only while it is bound to no lane is
never bound to two.
-/

namespace OrderedLanes

/-- A stop is past raising the common flag. -/
def Stopping.Past {α : Type} : Stopping α → Prop
  | .clearing _ _ | .visiting _ _ _ | .closing _ _ _ _ => True
  | _ => False

/-- A submission has turned back. -/
def SubmissionPhase.Turned {α : Type} : SubmissionPhase α → Prop
  | .choosing _ | .retiring _ _ => True
  | _ => False

namespace World

variable {V : Type} {d : Dispatcher Parcel} {w w' : World V} {i j : LaneIndex} {k : Key}

/-- While the common flag is down nothing is being stopped. -/
structure Flagged (w : World V) : Prop where
  stops : ∀ (n : Nat) (s : Stopping Parcel), w.stops[n]? = some s → s.Past →
    w.dispatcher.shutdown = true
  submissions : ∀ (t : Ticket) (s : Submission Parcel), w.submissions[t]? = some s →
    s.phase.Turned → w.dispatcher.shutdown = true
  lanes : ∀ i l, w.dispatcher.lane? i = some l → l.interrupted = true →
    w.dispatcher.shutdown = true

theorem Flagged.closing (h : Flagged w) {who : Party} {c : Closing Parcel}
    (closing : w.closing? who = some (i, c)) : w.dispatcher.shutdown = true := by
  cases who with
  | stop n =>
    obtain ⟨kind, report, there⟩ := closing?_stop.1 closing
    exact h.stops n _ there trivial
  | submission t =>
    obtain ⟨s, there, phase⟩ := closing?_submission.1 closing
    exact h.submissions t s there (by rw [phase]; trivial)

theorem Flagged.stops_step (h : Flagged w) (e : Effect w w') {n : Nat} {s : Stopping Parcel}
    (there : w'.stops[n]? = some s) (past : s.Past) : w'.dispatcher.shutdown = true := by
  have set : ∀ {m : Nat} {r r' : Stopping Parcel}, w.stops[m]? = some r →
      w'.stops = w.stops.set m r' → (r'.Past → r.Past) → w'.dispatcher.shutdown = true := by
    intro m r r' found stops back
    rw [stops] at there
    rcases getElem?_set_cases there with ⟨rfl, rfl⟩ | ⟨-, old⟩
    · exact e.shutdown (h.stops _ r found (back past))
    · exact e.shutdown (h.stops n s old past)
  cases e with
  | beginStop kind =>
    rcases getElem?_snoc_cases there with ⟨-, rfl⟩ | old
    · cases past
    · exact h.stops n s old past
  | stopLook m r r' found looks =>
    refine set found rfl fun _ => ?_
    cases looks <;> trivial
  | raiseGraceful m found down => rfl
  | raiseForced m found down => exact set found rfl (by simp [Stopping.Past])
  | follow m found => rfl
  | clear m report found => exact set found rfl fun _ => trivial
  | clearLast m report found => exact set found rfl (by simp [Stopping.Past])
  | endStop m r report found ends => exact set found rfl (by simp [Stopping.Past])
  | shut m kind i c l report found lane unfinished => exact set found rfl fun _ => trivial
  | _ => exact h.stops n s there past

theorem Flagged.submissions_step (h : Flagged w) (e : Effect w w') {t : Ticket}
    {s' : Submission Parcel} (there' : w'.submissions[t]? = some s') (turned : s'.phase.Turned) :
    w'.dispatcher.shutdown = true := by
  rcases e.onward there' with same | ⟨key, stamped, -, rfl⟩ | ⟨s, phase, there, rfl, onward⟩
  · exact e.shutdown (h.submissions t s' same turned)
  · cases stamped <;> cases turned
  · have was : s.phase.Turned → w'.dispatcher.shutdown = true := fun was =>
      e.shutdown (h.submissions t s there was)
    cases onward with
    | look phase looks =>
      generalize s.phase = now at looks was
      cases looks with
      | turn stamp i ending => exact e.shutdown ending
      | choose i kind => exact was trivial
      | _ => cases turned
    | retire i c c' phase => exact was (by rw [phase]; trivial)
    | _ => cases turned

theorem Flagged.lanes_step (h : Flagged w) (e : Effect w w') (sound : AllSound w.submissions)
    {l' : Lane Parcel} (lane' : w'.dispatcher.lane? i = some l') (set : l'.interrupted = true) :
    w'.dispatcher.shutdown = true := by
  have old : ∀ {l}, w.dispatcher.lane? i = some l → l.interrupted = true →
      w'.dispatcher.shutdown = true := fun lane set => e.shutdown (h.lanes i _ lane set)
  rcases e.track sound i with same | step
  · exact old ((congrArg Track.lane same).symm.trans lane') set
  · simp only [track, lane'] at step
    generalize before : w.dispatcher.lane? i = slot at step
    generalize acceptedOn w.history i = a at step
    generalize takenOn w.history i = r at step
    generalize marksOn w.history i = m at step
    generalize acceptedOn w'.history i = a' at step
    generalize takenOn w'.history i = r' at step
    generalize marksOn w'.history i = m' at step
    cases step with
    | install => cases set
    | close l c a t m under =>
      obtain ⟨who, closing⟩ := under
      exact e.shutdown (h.closing closing)
    | conclude l p escape a t m busy =>
      refine old before ?_
      unfold Lane.conclude at set
      split at set <;> exact set
    | _ => exact old before set

theorem Reachable.flagged (h : Reachable d w) (new : d.Fresh) : Flagged w := by
  induction h with
  | start =>
    refine ⟨by simp [fresh], by simp [fresh], fun i l lane => ?_⟩
    exact absurd (lane.symm.trans (new.lanes i)) (by simp)
  | step before effect ih =>
    exact ⟨fun n s => ih.stops_step effect, fun t s => ih.submissions_step effect,
      fun i l => ih.lanes_step effect before.allSound⟩

/-! ### The lanes of a key -/

/-- Key `k` is bound to lane `i`: a task of it is there, or a submission may queue one there. -/
inductive Bound (w : World V) (k : Key) (i : LaneIndex) : Prop
  | task (l : Lane Parcel) (p : Parcel) (lane : w.dispatcher.lane? i = some l)
      (there : p ∈ l.tasks) (key : p.key = k)
  | submission (t : Ticket) (s : Submission Parcel) (there : w.submissions[t]? = some s)
      (key : s.key = k) (found : s.lane? = some i)
      (may : w.dispatcher.shutdown = false ∨ ∃ stamp, s.phase = .queueing stamp i)

/-- A task of the key waits or runs, or a submission of it is on its way to a lane. -/
def InUse (w : World V) (k : Key) : Prop := ∃ i, w.Bound k i

theorem lane_of_setLane {d : Dispatcher Parcel} {l₁ l' : Lane Parcel}
    (found : (d.setLane j l₁).lane? i = some l') : i = j ∧ l' = l₁ ∨ d.lane? i = some l' := by
  by_cases bound : j < d.laneCount
  · rw [Dispatcher.lane?_setLane _ _ _ _ bound] at found
    split at found
    · next same => exact .inl ⟨same.symm, (Option.some.inj found).symm⟩
    · exact .inr found
  · rw [Dispatcher.lane?, lane?_setLane_out _ _ bound] at found
    exact .inr found

/-- A lane that was changed has no task that it did not have. -/
theorem tasks_of_setLane {d : Dispatcher Parcel} {l l₁ l' : Lane Parcel} {p : Parcel}
    (lane : d.lane? j = some l) (fewer : ∀ q ∈ l₁.tasks, q ∈ l.tasks)
    (found : (d.setLane j l₁).lane? i = some l') (there : p ∈ l'.tasks) :
    ∃ l, d.lane? i = some l ∧ p ∈ l.tasks := by
  rcases lane_of_setLane found with ⟨rfl, rfl⟩ | same
  · exact ⟨l, lane, fewer p there⟩
  · exact ⟨l', same, there⟩

theorem tasks_step {c : Closing Parcel} {l : Lane Parcel} {p : Parcel}
    (there : p ∈ (c.step l).2.tasks) : p ∈ l.tasks := by
  rw [Lane.tasks, c.worker_step] at there
  rw [Lane.tasks]
  rcases List.mem_append.1 there with own | waiting
  · exact List.mem_append_left _ own
  · refine List.mem_append_right _ ?_
    rcases c.queue_step l with same | ⟨error, drained, q, -, -, queue⟩
    · exact same ▸ waiting
    · exact queue ▸ List.mem_cons_of_mem _ waiting

theorem tasks_conclude {l : Lane Parcel} {p : Parcel} (escape : Option Payload)
    (there : p ∈ (l.conclude escape).tasks) : p ∈ l.tasks := by
  refine List.mem_append_right _ ?_
  unfold Lane.conclude at there
  split at there <;> simpa [Lane.tasks, Worker.task?] using there

/-- A task on a lane was there before, or a submission has just queued it. -/
theorem Effect.tasks (e : Effect w w') (sound : AllSound w.submissions) {l' : Lane Parcel}
    {p : Parcel} (lane' : w'.dispatcher.lane? i = some l') (there : p ∈ l'.tasks) :
    (∃ l, w.dispatcher.lane? i = some l ∧ p ∈ l.tasks) ∨
      ∃ (t : Ticket) (s : Submission Parcel) (stamp : Option Stamp),
        w.submissions[t]? = some s ∧ s.phase = .queueing stamp i ∧ p.key = s.key := by
  cases e with
  | install t s stamp j own there' phase empty =>
    obtain rfl := (sound t s there').own stamp j own phase
    rcases lane_of_setLane lane' with ⟨-, rfl⟩ | same
    · cases there
    · exact .inl ⟨l', same, there⟩
  | accept t s stamp j l there' phase lane accepting =>
    rcases lane_of_setLane lane' with ⟨rfl, rfl⟩ | same
    · simp only [Lane.tasks, List.mem_append, List.mem_singleton] at there
      rcases there with own | waiting | rfl
      · exact .inl ⟨l, lane, List.mem_append_left _ own⟩
      · exact .inl ⟨l, lane, List.mem_append_right _ waiting⟩
      · exact .inr ⟨t, s, stamp, there', phase, by rw [(sound t s there').task]⟩
    · exact .inl ⟨l', same, there⟩
  | retire t s j c l there' phase lane unfinished =>
    exact .inl (tasks_of_setLane lane (fun q => tasks_step) lane' there)
  | shut n kind j c l report there' lane unfinished =>
    exact .inl (tasks_of_setLane lane (fun q => tasks_step) lane' there)
  | take j l q queue lane idle next =>
    refine .inl (tasks_of_setLane lane (fun r listed => ?_) lane' there)
    simpa [Lane.tasks, Worker.task?, idle, next] using listed
  | leave j l lane idle empty closed =>
    refine .inl (tasks_of_setLane lane (fun r listed => ?_) lane' there)
    exact List.mem_append_right _ listed
  | start j l q lane holding free =>
    refine .inl (tasks_of_setLane lane (fun r listed => ?_) lane' there)
    simpa [Lane.tasks, Worker.task?, holding] using listed
  | abandon j l q panic lane holding interrupted =>
    refine .inl (tasks_of_setLane lane (fun r listed => ?_) lane' there)
    exact List.mem_append_right _ listed
  | conclude j l q ending escape lane busy =>
    exact .inl (tasks_of_setLane lane (fun r => tasks_conclude escape) lane' there)
  | _ => exact .inl ⟨l', lane', there⟩

/-- A submission that has a lane had it before, or has just looked its key up. -/
theorem Onward.lane {s : Submission Parcel} {phase : SubmissionPhase Parcel}
    (h : Onward w w' s phase) (found : (s.on phase).lane? = some i) :
    s.lane? = some i ∨ ∃ stamp, s.phase = .resolving stamp ∧
      w'.dispatcher = (w.dispatcher.resolve s.key).value.2 ∧
      i = (w.dispatcher.resolve s.key).value.1 := by
  cases h with
  | look phase looks =>
    obtain ⟨key, task, now⟩ := s
    cases looks <;> exact .inl found
  | stamp drawn phase => cases found
  | lookUp stamp phase after => exact .inr ⟨stamp, phase, after, (Option.some.inj found).symm⟩
  | install stamp i own phase after =>
    exact .inl (by simpa [Submission.lane?, Submission.on, phase] using found)
  | retire i c c' phase =>
    exact .inl (by simpa [Submission.lane?, Submission.on, phase] using found)
  | settled submitted => cases found

theorem not_bound_fresh (new : d.Fresh) (counter : KeyCounter) :
    ¬ (fresh (V := V) d counter).Bound k i := by
  intro b
  cases b with
  | task l p lane there key => exact absurd (lane.symm.trans (new.lanes i)) (by simp)
  | submission t s there key found may => simp [fresh] at there

/-- A key is bound where it was, or it has just been looked up while no stop had begun. -/
theorem Effect.bound (e : Effect w w') (h : Reachable d w) (new : d.Fresh) (b : w'.Bound k i) :
    w.Bound k i ∨ w'.dispatcher.shutdown = false ∧ (k, i) ∈ w'.assigned := by
  cases b with
  | task l' p lane' there key =>
    rcases e.tasks h.allSound lane' there with ⟨l, lane, old⟩ | ⟨t, s, stamp, found, phase, same⟩
    · exact .inl (.task l p lane old key)
    · exact .inl (.submission t s found (same.symm.trans key) (by simp [Submission.lane?, phase])
        (.inr ⟨stamp, phase⟩))
  | submission t s' there' key found may =>
    rcases e.onward there' with same | ⟨key', stamped, -, rfl⟩ | ⟨s, phase, there, rfl, onward⟩
    · exact .inl (.submission t s' same key found (may.imp e.running id))
    · cases stamped <;> cases found
    · rcases onward.lane found with old | ⟨stamp, resolving, after, rfl⟩
      · refine .inl (.submission t s there key old (.inl ?_))
        rcases may with down | ⟨stamp, queueing⟩
        · exact e.running down
        · obtain rfl : phase = .queueing stamp i := queueing
          cases onward with
          | look phase looks =>
            generalize s.phase = now at looks
            cases looks with
            | pass stamp i down => exact down
      · refine .inr ⟨?_, ?_⟩
        · rcases may with down | ⟨stamp', queueing⟩
          · exact down
          · obtain rfl : phase = .queueing stamp' _ := queueing
            cases onward with
            | look phase looks =>
              rw [resolving] at looks
              cases looks
        · obtain rfl : s.key = k := key
          have allocator : w'.dispatcher.allocator =
              (w.dispatcher.allocator.resolve s.key).value.2 := by rw [after]; rfl
          rw [h.assigned_lookUp new allocator (h.step e)]
          exact mem_take_toFront (h.positive new) _ _

/-! ### Runs that evict a key only while it is not in use -/

/-- As long as no stop has begun, key `k` is evicted only while it is not in use. -/
inductive Careful (d : Dispatcher Parcel) (k : Key) : World V → Prop
  | start : Careful d k (fresh d ⟨0⟩)
  | step {w w' : World V} (before : Careful d k w) (effect : Effect w w')
      (idle : ∀ lane, Evicts w w' k lane → w.dispatcher.shutdown = false → ¬ w.InUse k) :
      Careful d k w'

theorem Careful.reachable (h : Careful d k w) : Reachable d w := by
  induction h with
  | start => exact .start
  | step before effect idle ih => exact ih.step effect

/-- A key stays assigned to the lane that it is bound to. -/
theorem Careful.assigned_of_bound (h : Careful d k w) (new : d.Fresh)
    (running : w.dispatcher.shutdown = false) (b : w.Bound k i) : (k, i) ∈ w.assigned := by
  induction h with
  | start => exact absurd b (not_bound_fresh new ⟨0⟩)
  | @step w w' before effect idle ih =>
    have reached := before.reachable
    have down : w.dispatcher.shutdown = false := effect.running running
    rcases effect.bound reached new b with old | ⟨-, fresh⟩
    · have there := ih down old
      have reached' := reached.step effect
      by_contra gone
      cases effect.assigning with
      | rest recency capacity visited noted =>
        exact gone (assigned_of_visits visited capacity ▸ there)
      | clear n kind report found after visited noted =>
        simp [(reached.flagged new).stops n _ found trivial] at down
      | lookUp t key after history =>
        have some : w'.assigned ≠ [] := by
          rw [reached.assigned_lookUp new after reached']
          exact List.ne_nil_of_mem (mem_take_toFront (reached.positive new) key _)
        exact idle i ((reached.evicts_iff new effect k i).2 ⟨there, gone, some⟩) down ⟨i, old⟩
    · exact fresh

/-- So it is bound to one lane at a time. -/
theorem Careful.one_lane (h : Careful d k w) (new : d.Fresh) (b : w.Bound k i)
    (b' : w.Bound k j) : i = j := by
  have together : ∀ {w : World V}, Careful d k w → w.dispatcher.shutdown = false →
      w.Bound k i → w.Bound k j → i = j := by
    intro w h running b b'
    have keys := (h.reachable.keeps new).2.lists.keys
    exact congrArg Prod.snd (List.inj_on_of_nodup_map keys (h.assigned_of_bound new running b)
      (h.assigned_of_bound new running b') rfl)
  induction h with
  | start => exact absurd b (not_bound_fresh new ⟨0⟩)
  | @step w w' before effect idle ih =>
    by_cases running : w'.dispatcher.shutdown = false
    · exact together (before.step effect idle) running b b'
    · -- Once a stop has begun the key is bound where it was.
      have reached := before.reachable
      exact ih ((effect.bound reached new b).resolve_right fun late => running late.1)
        ((effect.bound reached new b').resolve_right fun late => running late.1)

end World

end OrderedLanes
