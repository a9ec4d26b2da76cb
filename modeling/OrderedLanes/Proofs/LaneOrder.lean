import OrderedLanes.Proofs.Closings

/-!
A lane runs its tasks in the order of their acceptance, one at a time. While the
lane is not interrupted, what its worker did, what it has in hand and what waits
add up to all accepted tasks in turn; an interrupt only cuts this short.
-/

namespace OrderedLanes

/-- What a worker has still to do with the task it has. -/
def Worker.due : Worker Parcel → List Mark
  | .holding p => [.began p, .ended p]
  | .busy p => [.ended p]
  | _ => []

/-- What a worker will do even if it is interrupted. -/
def Worker.running : Worker Parcel → List Mark
  | .busy p => [.ended p]
  | _ => []

@[simp] theorem inTurn_nil : inTurn [] = [] := rfl

@[simp] theorem inTurn_cons (p : Parcel) (ps : List Parcel) :
    inTurn (p :: ps) = .began p :: .ended p :: inTurn ps := rfl

@[simp] theorem inTurn_append (ps qs : List Parcel) : inTurn (ps ++ qs) = inTurn ps ++ inTurn qs :=
  List.flatMap_append

namespace Closing

variable {α : Type}

/-- Whoever stops a lane changes its stage, its flags and its queue, and nothing else of it. -/
theorem spares_step (c : Closing α) (l : Lane α) : (c.step l).2 = { l with
    stage := (c.step l).2.stage
    accepting := (c.step l).2.accepting
    queue := (c.step l).2.queue
    interrupted := (c.step l).2.interrupted } := by
  cases c with
  | marking kind => cases kind <;> simp only [step] <;> split <;> rfl
  | looking kind => cases kind <;> rfl
  | sealing kind error => cases kind <;> rfl
  | draining error drained => simp only [step]; split <;> rfl
  | _ => rfl

theorem index_step (c : Closing α) (l : Lane α) : (c.step l).2.index = l.index := by
  rw [c.spares_step l]

theorem worker_step (c : Closing α) (l : Lane α) : (c.step l).2.worker = l.worker := by
  rw [c.spares_step l]

theorem joined_step (c : Closing α) (l : Lane α) : (c.step l).2.joined = l.joined := by
  rw [c.spares_step l]

/-- Only draining takes tasks from the queue, the next one each time. -/
theorem queue_step (c : Closing α) (l : Lane α) :
    (c.step l).2.queue = l.queue ∨
      ∃ error drained p, c = .draining error drained ∧
        (c.step l).1 = .draining error (drained ++ [p]) ∧
        l.queue = p :: (c.step l).2.queue := by
  cases c with
  | marking kind => left; cases kind <;> simp only [step] <;> split <;> rfl
  | looking kind => left; cases kind <;> rfl
  | sealing kind error => left; cases kind <;> rfl
  | draining error drained =>
    cases next : l.queue with
    | nil => left; simp only [step, next]
    | cons p queue =>
      right
      exact ⟨error, drained, p, rfl, by simp only [step, next], by simp only [step, next]⟩
  | interrupting error => exact .inl rfl
  | done report => exact .inl rfl

end Closing

/-- A worker that cannot act keeps still. -/
theorem Track.Step.worker {i : LaneIndex} {closes : Closing Parcel → Prop} {x y : Track}
    {l : Lane Parcel} (step : Track.Step i closes x y) (lane : x.lane = some l)
    (receives : l.receive.isNone) (inspects : l.inspect.isNone)
    (ends : ∀ p, l.worker ≠ .busy p) : ∃ l', y.lane = some l' ∧ l'.worker = l.worker := by
  cases step with
  | install => cases lane
  | accept l₀ p a t m accepting here =>
    obtain rfl := Option.some.inj lane
    exact ⟨_, rfl, rfl⟩
  | close l₀ c a t m under =>
    obtain rfl := Option.some.inj lane
    exact ⟨_, rfl, c.worker_step _⟩
  | take l₀ p queue a t m idle next =>
    obtain rfl := Option.some.inj lane
    simp [Lane.receive, idle, next] at receives
  | leave l₀ a t m idle empty closed =>
    obtain rfl := Option.some.inj lane
    simp [Lane.receive, idle, empty, closed] at receives
  | start l₀ p a t m holding free =>
    obtain rfl := Option.some.inj lane
    simp [Lane.inspect, holding, free] at inspects
  | abandon l₀ p panic a t m holding interrupted =>
    obtain rfl := Option.some.inj lane
    simp [Lane.inspect, holding, interrupted] at inspects
  | conclude l₀ p escape a t m busy =>
    obtain rfl := Option.some.inj lane
    exact absurd busy (ends p)

/-- The tasks of lane `i` in order: as accepted, as taken by its worker, and as run. -/
structure InOrder (i : LaneIndex) (l : Lane Parcel) (accepted taken : List Parcel)
    (marks : List Mark) : Prop where
  here : ∀ p ∈ accepted, p.lane = i
  waiting : l.queue <:+ accepted
  cut : marks ++ l.worker.running <+: inTurn accepted
  whole : l.interrupted = false → marks ++ l.worker.due ++ inTurn l.queue = inTurn accepted
  fifo : l.interrupted = false → taken ++ l.queue = accepted
  held : ∀ p, l.worker = .holding p → p ∈ taken
  busy : ∀ p, l.worker = .busy p → p ∈ taken
  ended : ∀ p, .ended p ∈ marks → p ∈ taken
  drawn : ∀ p ∈ taken, p ∈ accepted

/-- A lane that is not there has no tasks. -/
def Track.Orderly (i : LaneIndex) : Track → Prop
  | ⟨none, accepted, taken, marks⟩ => accepted = [] ∧ taken = [] ∧ marks = []
  | ⟨some l, accepted, taken, marks⟩ => InOrder i l accepted taken marks

section

variable {i : LaneIndex} {l : Lane Parcel} {a t : List Parcel} {m : List Mark}

theorem InOrder.close (h : InOrder i l a t m) (c : Closing Parcel) (fits : c.Fits l) :
    InOrder i (c.step l).2 a t m := by
  have worker := c.worker_step l
  have flag : (c.step l).2.interrupted = false → l.interrupted = false := by
    intro after
    by_contra before
    simp [(c.grows_step l).interrupted (by simpa using before)] at after
  rcases c.queue_step l with queue | ⟨error, drained, p, rfl, -, queue⟩
  · refine ⟨h.here, by rw [queue]; exact h.waiting, by rw [worker]; exact h.cut, ?_, ?_, ?_, ?_,
      h.ended, h.drawn⟩
    · rw [worker, queue]
      exact fun free => h.whole (flag free)
    · rw [queue]
      exact fun free => h.fifo (flag free)
    · rw [worker]
      exact h.held
    · rw [worker]
      exact h.busy
  · -- A lane that is being drained is interrupted.
    have set : l.interrupted = true := fits.2.1
    have shorter : (Closing.step l (.draining error drained)).2.queue <:+ l.queue :=
      queue ▸ List.suffix_cons _ _
    refine ⟨h.here, shorter.trans h.waiting, by rw [worker]; exact h.cut, ?_, ?_, ?_, ?_,
      h.ended, h.drawn⟩
    · intro free
      simp [flag free] at set
    · intro free
      simp [flag free] at set
    · rw [worker]
      exact h.held
    · rw [worker]
      exact h.busy

theorem InOrder.accept (h : InOrder i l a t m) {p : Parcel} (here : p.lane = i) :
    InOrder i { l with queue := l.queue ++ [p] } (a ++ [p]) t m := by
  refine ⟨?_, ?_, ?_, ?_, ?_, h.held, h.busy, h.ended,
    fun q hq => List.mem_append_left _ (h.drawn q hq)⟩
  · intro q hq
    rcases List.mem_append.1 hq with old | new
    · exact h.here q old
    · rw [List.mem_singleton.1 new]
      exact here
  · obtain ⟨before, split⟩ := h.waiting
    exact ⟨before, by rw [← List.append_assoc, split]⟩
  · rw [inTurn_append]
    exact h.cut.trans (List.prefix_append _ _)
  · intro free
    rw [inTurn_append, inTurn_append, ← h.whole free, List.append_assoc _ (inTurn l.queue)]
  · intro free
    rw [← List.append_assoc, h.fifo free]

theorem InOrder.take (h : InOrder i l a t m) {p : Parcel} {queue : List Parcel}
    (idle : l.worker = .idle) (next : l.queue = p :: queue) :
    InOrder i { l with queue, worker := .holding p } a (t ++ [p]) m := by
  have cut := h.cut
  have whole := h.whole
  have fifo := h.fifo
  rw [next, idle] at whole
  rw [next] at fifo
  rw [idle] at cut
  refine ⟨h.here, (next ▸ List.suffix_cons p queue).trans h.waiting, cut, ?_, ?_, ?_, by simp,
    ?_, ?_⟩
  · intro free
    rw [← whole free]
    simp [Worker.due]
  · intro free
    rw [← fifo free]
    simp
  · rintro q ⟨⟩
    simp
  · intro q hq
    exact List.mem_append_left _ (h.ended q hq)
  · intro q hq
    rcases List.mem_append.1 hq with old | new
    · exact h.drawn q old
    · rw [List.mem_singleton.1 new]
      exact h.waiting.subset (next ▸ List.mem_cons_self)

/-- The worker is gone, and nothing is cut off but what it held. -/
theorem InOrder.leave (h : InOrder i l a t m) (panic : Option Payload)
    (due : l.interrupted = false → l.worker.due = []) :
    InOrder i (l.leave panic) a t m := by
  have cut : m ++ [] <+: inTurn a := by
    rw [List.append_nil]
    exact (List.prefix_append _ _).trans h.cut
  refine ⟨h.here, h.waiting, cut, ?_, h.fifo, by simp [Lane.leave], by simp [Lane.leave],
    h.ended, h.drawn⟩
  intro free
  have whole := h.whole free
  rwa [due free] at whole

theorem InOrder.start (h : InOrder i l a t m) {p : Parcel} (holding : l.worker = .holding p)
    (free : l.interrupted = false) :
    InOrder i { l with worker := .busy p } a t (m ++ [.began p]) := by
  have whole := h.whole free
  rw [holding] at whole
  have same : m ++ [.began p] ++ [.ended p] ++ inTurn l.queue = inTurn a := by
    simpa [Worker.due] using whole
  refine ⟨h.here, h.waiting, ⟨inTurn l.queue, same⟩, fun _ => same, h.fifo, by simp, ?_, ?_,
    h.drawn⟩
  · rintro q ⟨⟩
    exact h.held p holding
  · intro q hq
    exact h.ended q (by simpa using hq)

theorem InOrder.conclude (h : InOrder i l a t m) {p : Parcel} (busy : l.worker = .busy p)
    (escape : Option Payload) : InOrder i (l.conclude escape) a t (m ++ [.ended p]) := by
  have ended : ∀ q, .ended q ∈ m ++ [.ended p] → q ∈ t := by
    intro q hq
    rcases List.mem_append.1 hq with old | new
    · exact h.ended q old
    · obtain rfl : q = p := by simpa using new
      exact h.busy q busy
  have cut := h.cut
  have whole := h.whole
  rw [busy] at cut whole
  unfold Lane.conclude
  split
  · exact ⟨h.here, h.waiting, by simpa [Worker.running] using cut,
      fun free => by simpa [Worker.due] using whole free, h.fifo, by simp, by simp, ended,
      h.drawn⟩
  · exact ⟨h.here, h.waiting, by simpa [Worker.running] using cut,
      fun free => by simpa [Worker.due] using whole free, h.fifo, by simp, by simp, ended,
      h.drawn⟩

theorem Track.Orderly.step {closes : Closing Parcel → Prop} {x y : Track} (h : x.Orderly i)
    (step : Track.Step i closes x y)
    (fits : ∀ c l, closes c → x.lane = some l → c.Fits l) : y.Orderly i := by
  cases step with
  | install a t m =>
    obtain ⟨rfl, rfl, rfl⟩ := h
    exact ⟨by simp, List.suffix_refl _, List.prefix_refl _, fun _ => rfl, fun _ => rfl,
      by simp [Lane.start], by simp [Lane.start], by simp, by simp⟩
  | accept l p a t m accepting here => exact InOrder.accept h here
  | close l c a t m under => exact InOrder.close h c (fits c l under rfl)
  | take l p queue a t m idle next => exact InOrder.take h idle next
  | leave l a t m idle empty closed =>
    exact InOrder.leave h none fun _ => by rw [idle]; rfl
  | start l p a t m holding free => exact InOrder.start h holding free
  | abandon l p panic a t m holding interrupted =>
    exact InOrder.leave h panic fun free => by simp [free] at interrupted
  | conclude l p escape a t m busy => exact InOrder.conclude h busy escape

end

namespace World

variable {V : Type} {d : Dispatcher Parcel} {w : World V}

theorem Reachable.orderly (h : Reachable d w) (new : d.Fresh) (i : LaneIndex) :
    (w.track i).Orderly i := by
  induction h with
  | start =>
    simp only [track, fresh, new.lanes i]
    exact ⟨rfl, rfl, rfl⟩
  | @step w w' before effect ih =>
    rcases effect.track before.allSound i with same | step
    · rw [same]
      exact ih
    · refine ih.step step ?_
      rintro c l ⟨who, closing⟩ lane
      rcases before.fits closing with ⟨kind, rfl⟩ | ⟨l', lane', fits⟩
      · trivial
      · obtain rfl := Option.some.inj (lane'.symm.trans lane)
        exact fits

/-- Nothing has come to a slot that is empty. -/
theorem Reachable.untouched (h : Reachable d w) (new : d.Fresh)
    (empty : w.dispatcher.lane? i = none) :
    acceptedOn w.history i = [] ∧ takenOn w.history i = [] ∧ marksOn w.history i = [] := by
  have orderly := h.orderly new i
  rwa [track, empty] at orderly

theorem Reachable.inOrder (h : Reachable d w) (new : d.Fresh)
    (lane : w.dispatcher.lane? i = some l) : InOrder i l (acceptedOn w.history i)
      (takenOn w.history i) (marksOn w.history i) := by
  have orderly := h.orderly new i
  rwa [track, lane] at orderly

/-- What a lane started and ended is the beginning of its tasks in turn. -/
theorem Reachable.marksOn_in_turn (h : Reachable d w) (new : d.Fresh) (i : LaneIndex) :
    marksOn w.history i <+: inTurn (acceptedOn w.history i) := by
  cases lane : w.dispatcher.lane? i with
  | none =>
    rw [(h.untouched new lane).2.2]
    exact List.nil_prefix
  | some l => exact (List.prefix_append _ _).trans (h.inOrder new lane).cut

end World

end OrderedLanes
