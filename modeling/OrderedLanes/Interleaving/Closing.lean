import OrderedLanes.Dispatcher.Shutdown

/-!
Stopping one lane, one access to the lane at a time. Between two accesses the
lane's worker and other callers may act. Left alone, the accesses add up to
`Lane.shut`.
-/

namespace OrderedLanes

/-- How far a caller has come with stopping a lane. -/
inductive Closing (α : Type) where
  /-- About to move the lane's stage on. -/
  | marking (kind : StopKind)
  /-- The lane was running; about to look whether its worker is gone. -/
  | looking (kind : StopKind)
  /-- About to raise the interrupt flag. -/
  | interrupting (error : Option LaneError)
  /-- About to close the queue. -/
  | sealing (kind : StopKind) (error : Option LaneError)
  /-- Taking waiting tasks back, one at a time. -/
  | draining (error : Option LaneError) (drained : List α)
  | done (report : StopReport α)
  deriving Repr

namespace Closing

variable {α : Type}

/-- The next access. -/
def step (l : Lane α) : Closing α → Closing α × Lane α
  | .marking .graceful =>
    if l.stage = .running then (.looking .graceful, l.mark .draining) else (.done .empty, l)
  | .marking .forced =>
    match l.stage with
    | .running => (.looking .forced, l.mark .halted)
    | .draining => (.interrupting none, l.mark .halted)
    | .halted => (.done .empty, l)
  | .looking .graceful => (.sealing .graceful l.exitedEarly, l)
  | .looking .forced => (.interrupting l.exitedEarly, l)
  | .interrupting error => (.sealing .forced error, l.interrupt)
  | .sealing .graceful error => (.done ⟨[], error.toList⟩, l.close)
  | .sealing .forced error => (.draining error [], l.close)
  | .draining error drained =>
    match l.queue with
    | [] => (.done ⟨drained, error.toList⟩, l)
    | task :: queue => (.draining error (drained ++ [task]), { l with queue })
  | .done report => (.done report, l)

/-- `n` accesses with nobody in between. -/
def steps : Nat → Closing α × Lane α → Closing α × Lane α
  | 0, s => s
  | n + 1, s => steps n (s.1.step s.2)

@[simp] theorem steps_done (n : Nat) (report : StopReport α) (l : Lane α) :
    steps n (.done report, l) = (.done report, l) := by
  induction n with
  | zero => rfl
  | succ n ih => exact ih

/-- Draining takes the whole queue and ends. -/
theorem steps_draining (l : Lane α) (error : Option LaneError) (drained : List α) (n : Nat)
    (enough : l.queued < n) :
    steps n (.draining error drained, l) =
      (.done ⟨drained ++ l.queue, error.toList⟩, { l with queue := [] }) := by
  obtain ⟨i, st, ac, queue, it, w, j⟩ := l
  induction queue generalizing drained n with
  | nil =>
    obtain ⟨m, rfl⟩ : ∃ m, n = m + 1 := ⟨n - 1, by simp [Lane.queued] at enough; omega⟩
    simp [steps, step]
  | cons task queue ih =>
    simp only [Lane.queued, List.length_cons] at enough ih
    obtain ⟨m, rfl⟩ : ∃ m, n = m + 1 := ⟨n - 1, by omega⟩
    have rest := ih (drained ++ [task]) m (by omega)
    simpa [steps, step] using rest

/-- Left alone, a caller that stops a lane does what `Lane.shut` does. -/
theorem steps_marking (l : Lane α) (kind : StopKind) (n : Nat) (enough : l.queued + 5 ≤ n) :
    steps n (.marking kind, l) = (.done (l.shut kind).value.1, (l.shut kind).value.2) := by
  obtain ⟨m, rfl⟩ : ∃ m, n = m + 3 := ⟨n - 3, by omega⟩
  cases kind with
  | graceful =>
    by_cases h : l.stage = .running <;>
      simp [steps, step, h, Lane.shut, Lane.value_stop, StopReport.empty]
  | forced =>
    cases h : l.stage with
    | halted => simp [steps, step, h, Lane.shut, Lane.value_halt, StopReport.empty]
    | running =>
      obtain ⟨k, rfl⟩ : ∃ k, m = k + 1 := ⟨m - 1, by omega⟩
      simp only [steps, step, h]
      rw [steps_draining _ _ _ _ (by simp; omega)]
      simp [Lane.shut, Lane.value_halt, h, Lane.close, Lane.interrupt, Lane.mark]
      rfl
    | draining =>
      simp only [steps, step, h]
      rw [steps_draining _ _ _ _ (by simp; omega)]
      simp [Lane.shut, Lane.value_halt, h, Lane.close, Lane.interrupt, Lane.mark]

end Closing

end OrderedLanes
