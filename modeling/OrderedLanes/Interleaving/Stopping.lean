import OrderedLanes.Interleaving.Closing

/-!
Stopping a dispatcher, one access at a time. A graceful stop visits the lanes and
clears the allocator last, a forced stop clears it first; either takes the lanes
in the order of their slots and passes over slots that are empty when it comes
by. Left alone, the accesses add up to `Dispatcher.stop`.
-/

namespace OrderedLanes

/-- What a stop does next. -/
inductive Stopping (α : Type) where
  /-- Raise the flag of this kind of stop. -/
  | raising (kind : StopKind)
  /-- A forced stop raises the common flag as well. -/
  | following
  | clearing (kind : StopKind) (report : StopReport α)
  /-- Look at slot `i`. -/
  | visiting (kind : StopKind) (i : LaneIndex) (report : StopReport α)
  | closing (kind : StopKind) (i : LaneIndex) (c : Closing α) (report : StopReport α)
  | done (report : StopReport α)
  deriving Repr

namespace Stopping

variable {α : Type}

/-- After the last slot. -/
def afterLanes (report : StopReport α) : StopKind → Stopping α
  | .graceful => .clearing .graceful report
  | .forced => .done report

/-- The next access. -/
def step (d : Dispatcher α) : Stopping α → Stopping α × Dispatcher α
  | .raising .graceful =>
    if d.shutdown then (.done .empty, d)
    else (.visiting .graceful 0 .empty, { d with shutdown := true })
  | .raising .forced =>
    if d.shutdownNow then (.done .empty, d) else (.following, { d with shutdownNow := true })
  | .following => (.clearing .forced .empty, { d with shutdown := true })
  | .clearing .graceful report => (.done report, { d with allocator := d.allocator.clear })
  | .clearing .forced report =>
    (.visiting .forced 0 report, { d with allocator := d.allocator.clear })
  | .visiting kind i report =>
    if i < d.laneCount then
      match d.lane? i with
      | some _ => (.closing kind i (.marking kind) report, d)
      | none => (.visiting kind (i + 1) report, d)
    else (afterLanes report kind, d)
  | .closing kind i (.done part) report => (.visiting kind (i + 1) (report.append part), d)
  | .closing kind i c report =>
    match d.lane? i with
    | some l => (.closing kind i (c.step l).1 report, d.setLane i (c.step l).2)
    | none => (.visiting kind (i + 1) report, d)
  | .done report => (.done report, d)

/-- The report of a stop that has ended. -/
def report? : Stopping α → Option (StopReport α)
  | .done report => some report
  | _ => none

/-- `n` accesses with nobody in between. -/
def steps : Nat → Stopping α × Dispatcher α → Stopping α × Dispatcher α
  | 0, s => s
  | n + 1, s => steps n (s.1.step s.2)

@[simp] theorem steps_done (n : Nat) (report : StopReport α) (d : Dispatcher α) :
    steps n (.done report, d) = (.done report, d) := by
  induction n with
  | zero => rfl
  | succ n ih => exact ih

theorem steps_add (m n : Nat) (s : Stopping α × Dispatcher α) :
    steps (m + n) s = steps n (steps m s) := by
  induction m generalizing s with
  | zero => simp [steps]
  | succ m ih => rw [Nat.succ_add]; exact ih _

/-- A stop left alone with a lane stops it and comes to the next slot. -/
theorem steps_closing (kind : StopKind) (i : LaneIndex) (report part : StopReport α) (l' : Lane α)
    (n : Nat) (c : Closing α) (l : Lane α) (d : Dispatcher α) (bound : i < d.laneCount)
    (there : d.lane? i = some l) (ends : Closing.steps n (c, l) = (.done part, l')) :
    ∃ m, steps m (.closing kind i c report, d) =
      (.visiting kind (i + 1) (report.append part), d.setLane i l') := by
  induction n generalizing c l d with
  | zero =>
    obtain ⟨rfl, rfl⟩ : c = .done part ∧ l = l' := by simpa [Closing.steps] using ends
    exact ⟨1, by simp [steps, step, d.setLane_lane? i l there]⟩
  | succ n ih =>
    by_cases finished : ∃ whole, c = .done whole
    · obtain ⟨whole, rfl⟩ := finished
      obtain ⟨rfl, rfl⟩ : whole = part ∧ l = l' := by simpa using ends
      exact ⟨1, by simp [steps, step, d.setLane_lane? i l there]⟩
    · have next : (Stopping.closing kind i c report).step d =
          (.closing kind i (c.step l).1 report, d.setLane i (c.step l).2) := by
        cases c <;> simp_all [step]
      obtain ⟨m, hm⟩ := ih (c.step l).1 (c.step l).2 (d.setLane i (c.step l).2)
        (by simpa using bound) (by simp [d.lane?_setLane i i _ bound]) ends
      exact ⟨m + 1, by rw [steps, next, hm, Dispatcher.setLane_setLane]⟩

/-- A stop left alone ends the lanes from a slot on as `Dispatcher.endLanes` does. -/
theorem steps_visiting (kind : StopKind) (todo before : List (Option (Lane α)))
    (report : StopReport α) (d : Dispatcher α) (split : d.lanes = before ++ todo) :
    ∃ m, steps m (.visiting kind before.length report, d) =
      (afterLanes (report.append (Dispatcher.endLanes kind todo).value.1) kind,
        { d with lanes := before ++ (Dispatcher.endLanes kind todo).value.2 }) := by
  induction todo generalizing before report d with
  | nil =>
    refine ⟨1, ?_⟩
    obtain ⟨config, allocator, lanes, shutdown, shutdownNow⟩ := d
    obtain rfl : lanes = before := by simpa using split
    simp [steps, step, Dispatcher.laneCount, Dispatcher.endLanes]
  | cons slot rest ih =>
    have bound : before.length < d.laneCount := by simp [Dispatcher.laneCount, split]
    cases slot with
    | none =>
      have there : d.lane? before.length = none := by simp [Dispatcher.lane?, split]
      obtain ⟨m, hm⟩ := ih (before ++ [none]) report d (by simp [split])
      refine ⟨m + 1, ?_⟩
      simp only [List.length_append, List.length_singleton] at hm
      simp [steps, step, bound, there, hm, Dispatcher.endLanes]
    | some l =>
      have there : d.lane? before.length = some l := by simp [Dispatcher.lane?, split]
      obtain ⟨m, hm⟩ := steps_closing kind before.length report _ _ _ _ l d bound there
        (Closing.steps_marking l kind _ (Nat.le_refl _))
      obtain ⟨m', hm'⟩ := ih (before ++ [some (l.shut kind).value.2])
        (report.append (l.shut kind).value.1) (d.setLane before.length (l.shut kind).value.2)
        (by simp [Dispatcher.setLane, split])
      refine ⟨m + m' + 1, ?_⟩
      simp only [List.length_append, List.length_singleton] at hm'
      have first : (Stopping.visiting kind before.length report).step d =
          (.closing kind before.length (.marking kind) report, d) := by
        simp [step, bound, there]
      rw [steps, first, steps_add, hm, hm']
      simp [Dispatcher.endLanes, StopReport.append_assoc, Dispatcher.setLane]

/-- A stop left alone does what `Dispatcher.stop` does. -/
theorem steps_raising (kind : StopKind) (d : Dispatcher α) :
    ∃ n, steps n (.raising kind, d) = (.done (d.stop kind).value.1, (d.stop kind).value.2) := by
  cases kind with
  | graceful =>
    cases raised : d.shutdown with
    | true => exact ⟨1, by simp [steps, step, Dispatcher.stop, Dispatcher.raise, raised]⟩
    | false =>
      obtain ⟨m, hm⟩ := steps_visiting .graceful d.lanes [] .empty { d with shutdown := true } rfl
      refine ⟨m + 2, ?_⟩
      rw [show m + 2 = 1 + (m + 1) by omega, steps_add 1, steps_add m]
      simp only [steps, step, raised]
      simp only [List.length_nil] at hm
      simp [hm, afterLanes, Dispatcher.stop, Dispatcher.raise, raised, Dispatcher.windDown]
  | forced =>
    cases raised : d.shutdownNow with
    | true => exact ⟨1, by simp [steps, step, Dispatcher.stop, Dispatcher.raise, raised]⟩
    | false =>
      obtain ⟨m, hm⟩ := steps_visiting .forced d.lanes [] .empty
        { d with shutdown := true, shutdownNow := true, allocator := d.allocator.clear } rfl
      refine ⟨3 + m, ?_⟩
      rw [steps_add 3]
      simp only [List.length_nil] at hm
      simp [hm, afterLanes, steps, step, Dispatcher.stop, Dispatcher.raise, raised,
        Dispatcher.windDown]

end Stopping

end OrderedLanes
