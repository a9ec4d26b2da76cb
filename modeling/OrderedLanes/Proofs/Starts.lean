import OrderedLanes.Proofs.Custody

/-!
What was started. A task that a worker started is running or finished; a task that
came back to a caller is still with the callers, or one of them started it or threw
it away. Either way it was started once.
-/

namespace OrderedLanes

namespace World

variable {V : Type} {d : Dispatcher Parcel} {w w' : World V}

/-- The task that is running in a slot. -/
def slotRunning (slot : Option (Lane Parcel)) : List Parcel :=
  slot.elim [] fun l =>
    match l.worker with
    | .busy p => [p]
    | _ => []

/-- The tasks started by workers. -/
abbrev startedByWorkers (history : List (Happening V)) : List Parcel :=
  history.filterMap fun
    | .started p (some _) => some p
    | _ => none

/-- The tasks started by callers that they had come back to. -/
abbrev startedByCallers (history : List (Happening V)) : List Parcel :=
  history.filterMap fun
    | .started p none => some p
    | _ => none

/-- The tasks that callers threw away when they had come back. -/
abbrev droppedByCallers (history : List (Happening V)) : List Parcel :=
  history.filterMap fun
    | .dropped p => some p
    | _ => none

/-- The tasks that stops have handed back. -/
def handedBack (w : World V) : List Parcel :=
  w.stops.flatMap fun s => s.report?.elim [] StopReport.pending

theorem startedByWorkers_append (history news : List (Happening V)) :
    startedByWorkers (history ++ news) = startedByWorkers history ++ startedByWorkers news :=
  List.filterMap_append

/-- What workers started is running or finished. -/
def StartsKept (w : World V) (x : Parcel) : Prop :=
  (startedByWorkers w.history).count x =
    (finished w.history).count x + (w.dispatcher.lanes.flatMap slotRunning).count x

theorem StartsKept.lane {news : List (Happening V)} {i : LaneIndex} {l l' : Lane Parcel}
    {x : Parcel} (h : StartsKept w x) (lane : w.dispatcher.lane? i = some l)
    (lanes : w'.dispatcher = w.dispatcher.setLane i l') (history : w'.history = w.history ++ news)
    (balance : (startedByWorkers news).count x + (slotRunning (some l)).count x =
      (finished news).count x + (slotRunning (some l')).count x) : StartsKept w' x := by
  have moved := count_flatMap_set slotRunning (Dispatcher.slot_of_lane? lane) (some l') x
  simp only [StartsKept, lanes, history, startedByWorkers_append, finished_append,
    List.count_append, Dispatcher.setLane] at h ⊢
  omega

theorem StartsKept.quiet {news : List (Happening V)} {x : Parcel} (h : StartsKept w x)
    (lanes : w'.dispatcher.lanes = w.dispatcher.lanes) (history : w'.history = w.history ++ news)
    (started : startedByWorkers news = []) (finished : finished news = []) :
    StartsKept w' x := by
  simp only [StartsKept, lanes, history, startedByWorkers_append, finished_append, started,
    finished, List.append_nil] at h ⊢
  exact h

theorem Effect.startsKept (e : Effect w w') (sound : AllSound w.submissions) {x : Parcel}
    (h : StartsKept w x) : StartsKept w' x := by
  cases e with
  | install t s stamp i own there phase empty =>
    obtain rfl : own = Lane.start i := (sound t s there).own stamp i own phase
    have new := count_install empty slotRunning rfl x
    simp only [Lane.index_start] at new
    simp only [StartsKept, Lane.index_start, new] at h ⊢
    exact h
  | accept t s stamp i l there phase lane accepting => exact h.lane lane rfl rfl rfl
  | retire t s i c l there phase lane unfinished =>
    refine h.lane lane rfl rfl ?_
    simp [slotRunning, c.worker_step l]
  | shut n kind i c l report there lane unfinished =>
    refine h.lane lane rfl rfl ?_
    simp [slotRunning, c.worker_step l]
  | take i l p queue lane idle next =>
    refine h.lane lane rfl rfl ?_
    simp [slotRunning, idle]
  | leave i l lane idle empty closed =>
    have nothing : w.history = w.history ++ [] := (List.append_nil _).symm
    refine h.lane lane rfl nothing ?_
    simp [slotRunning, idle, Lane.leave]
  | start i l p lane holding free =>
    refine h.lane lane rfl rfl ?_
    simp [slotRunning, holding]
  | abandon i l p panic lane holding interrupted =>
    refine h.lane lane rfl rfl ?_
    simp [slotRunning, holding, Lane.leave]
  | conclude i l p ending escape lane busy =>
    refine h.lane lane rfl rfl ?_
    have idle : slotRunning (some (l.conclude escape)) = [] := by
      unfold Lane.conclude
      split <;> rfl
    rw [idle]
    simp [slotRunning, busy]
  | lookUp t s stamp there phase => exact h.quiet rfl rfl (by simp) (by simp)
  | forfeit t s i report there phase => exact h.quiet rfl rfl (by simp) (by simp)
  | refuse t s submitted there refused => exact h.quiet rfl rfl rfl rfl
  | raiseGraceful n there down => exact h.quiet rfl rfl rfl rfl
  | raiseForced n there down => exact h.quiet rfl rfl rfl rfl
  | clear n report there => exact h.quiet rfl rfl rfl rfl
  | clearLast n report there => exact h.quiet rfl rfl rfl rfl
  | endStop n s report there ends => exact h.quiet rfl rfl rfl rfl
  | runReturned p ending there => exact h.quiet rfl rfl rfl rfl
  | dropReturned p there => exact h.quiet rfl rfl rfl rfl
  | _ => exact h

theorem Reachable.startsKept (h : Reachable d w) (new : d.Fresh) (x : Parcel) : StartsKept w x := by
  induction h with
  | start =>
    have none : d.lanes.flatMap slotRunning = [] := new.flatMap_lanes rfl
    simp [StartsKept, fresh, none]
  | step before effect ih => exact effect.startsKept before.allSound ih

/-- What came back is with the callers, or they started it or threw it away. -/
def ReturnsKept (w : World V) (x : Parcel) : Prop :=
  w.returned.count x + (startedByCallers w.history).count x +
    (droppedByCallers w.history).count x = w.handedBack.count x

theorem startedByCallers_append (history news : List (Happening V)) :
    startedByCallers (history ++ news) = startedByCallers history ++ startedByCallers news :=
  List.filterMap_append

theorem droppedByCallers_append (history news : List (Happening V)) :
    droppedByCallers (history ++ news) = droppedByCallers history ++ droppedByCallers news :=
  List.filterMap_append

theorem ReturnsKept.quiet {news : List (Happening V)} {x : Parcel} (h : ReturnsKept w x)
    (returned : w'.returned = w.returned) (history : w'.history = w.history ++ news)
    (started : startedByCallers news = []) (dropped : droppedByCallers news = [])
    (handed : w'.handedBack.count x = w.handedBack.count x) : ReturnsKept w' x := by
  simp only [ReturnsKept, returned, history, startedByCallers_append, droppedByCallers_append,
    started, dropped, List.append_nil, handed] at h ⊢
  exact h

theorem report_of_stopLook {d : Dispatcher Parcel} {s s' : Stopping Parcel}
    (looks : StopLook d s s') : s.report? = none ∧ s'.report? = none := by
  cases looks <;> exact ⟨rfl, rfl⟩

theorem ReturnsKept.settled {n : Nat} {s : Stopping Parcel} {report : StopReport Parcel}
    {news : List (Happening V)} {x : Parcel} (h : ReturnsKept w x) (there : w.stops[n]? = some s)
    (unfinished : s.report? = none) (stops : w'.stops = w.stops.set n (.done report))
    (returned : w'.returned = w.returned ++ report.pending)
    (history : w'.history = w.history ++ news) (started : startedByCallers news = [])
    (dropped : droppedByCallers news = []) : ReturnsKept w' x := by
  have change := count_flatMap_set (fun s : Stopping Parcel => s.report?.elim [] StopReport.pending)
    there (.done report) x
  have added : (Stopping.done report).report? = some report := rfl
  simp only [unfinished, added, Option.elim_none, Option.elim_some, List.count_nil] at change
  simp only [ReturnsKept, handedBack, stops, returned, history, startedByCallers_append,
    droppedByCallers_append, started, dropped, List.append_nil, List.count_append] at h ⊢
  omega

theorem Effect.returnsKept (e : Effect w w') {x : Parcel} (h : ReturnsKept w x) :
    ReturnsKept w' x := by
  have same : ∀ {n s s'}, w.stops[n]? = some s → s.report? = none → s'.report? = none →
      ((w.stops.set n s').flatMap fun s => s.report?.elim [] StopReport.pending).count x =
        w.handedBack.count x := by
    intro n s s' there before after
    exact count_flatMap_set_same _ there (by simp only [before, after]) x
  cases e with
  | beginStop kind =>
    refine h.quiet rfl (List.append_nil _).symm rfl rfl ?_
    simp [handedBack, Stopping.report?]
  | stopLook n s s' there looks =>
    obtain ⟨before, after⟩ := report_of_stopLook looks
    exact h.quiet rfl (List.append_nil _).symm rfl rfl (same there before after)
  | raiseGraceful n there down => exact h.quiet rfl rfl rfl rfl (same there rfl rfl)
  | raiseForced n there down => exact h.quiet rfl rfl rfl rfl (same there rfl rfl)
  | follow n there => exact h.quiet rfl (List.append_nil _).symm rfl rfl (same there rfl rfl)
  | clear n report there => exact h.quiet rfl rfl rfl rfl (same there rfl rfl)
  | shut n kind i c l report there lane unfinished =>
    exact h.quiet rfl rfl (by simp) (by simp) (same there rfl rfl)
  | clearLast n report there => exact h.settled there rfl rfl rfl rfl rfl rfl
  | endStop n s report there ends =>
    refine h.settled there ?_ rfl rfl rfl rfl rfl
    cases ends <;> rfl
  | runReturned p ending there =>
    have mine := (List.perm_cons_erase there).count_eq x
    have own : startedByCallers [.started p none, (.ended p none ending : Happening V)] = [p] := rfl
    have none : droppedByCallers [.started p none, (.ended p none ending : Happening V)] = [] := rfl
    simp only [ReturnsKept, startedByCallers_append, droppedByCallers_append, own, none,
      List.count_append, List.count_cons, List.count_nil, handedBack] at h mine ⊢
    omega
  | dropReturned p there =>
    have mine := (List.perm_cons_erase there).count_eq x
    have none : startedByCallers [(.dropped p : Happening V)] = [] := rfl
    have own : droppedByCallers [(.dropped p : Happening V)] = [p] := rfl
    simp only [ReturnsKept, startedByCallers_append, droppedByCallers_append, own, none,
      List.count_append, List.count_cons, List.count_nil, handedBack] at h mine ⊢
    omega
  | lookUp t s stamp there phase => exact h.quiet rfl rfl (by simp) (by simp) rfl
  | retire t s i c l there phase lane unfinished => exact h.quiet rfl rfl (by simp) (by simp) rfl
  | forfeit t s i report there phase => exact h.quiet rfl rfl (by simp) (by simp) rfl
  | refuse => exact h.quiet rfl rfl rfl rfl rfl
  | accept => exact h.quiet rfl rfl rfl rfl rfl
  | take => exact h.quiet rfl rfl rfl rfl rfl
  | start => exact h.quiet rfl rfl rfl rfl rfl
  | abandon => exact h.quiet rfl rfl rfl rfl rfl
  | conclude => exact h.quiet rfl rfl rfl rfl rfl
  | _ => exact h

theorem Reachable.returnsKept (h : Reachable d w) (x : Parcel) : ReturnsKept w x := by
  induction h with
  | start => simp [ReturnsKept, fresh, handedBack]
  | step before effect ih => exact effect.returnsKept ih

end World

end OrderedLanes
