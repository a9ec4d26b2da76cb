import OrderedLanes.Proofs.Queues

/-!
The two kinds of stops. Only a forced stop halts lanes and takes tasks back, and
only one that found the flag of forced stops down: it raised the flag, so that
there is at most one in a run.
-/

namespace OrderedLanes

/-- A lane is being stopped, but nothing is taken back. -/
def Closing.Gentle {α : Type} : Closing α → Prop
  | .marking .graceful | .looking .graceful | .sealing .graceful _ => True
  | .done report => report.pending = []
  | _ => False

theorem Closing.Gentle.step {α : Type} {c : Closing α} (h : c.Gentle) (l : Lane α) :
    (c.step l).1.Gentle := by
  cases c with
  | marking kind =>
    cases kind with
    | graceful =>
      simp only [Closing.step]
      split
      · trivial
      · rfl
    | forced => cases h
  | looking kind =>
    cases kind with
    | graceful => trivial
    | forced => cases h
  | interrupting error => cases h
  | sealing kind error =>
    cases kind with
    | graceful => rfl
    | forced => cases h
  | draining error drained => cases h
  | done report => exact h

theorem Closing.Gentle.gathered_nil {α : Type} {c : Closing α} (h : c.Gentle) :
    c.gathered = [] := by
  cases c with
  | draining error drained => cases h
  | done report => exact h
  | _ => rfl

/-- A stop past its first look has nothing, or it is the one that raised the flag. -/
def Stopping.Marked (raised : Prop) : Stopping Parcel → Prop
  | .raising _ => True
  | .following | .clearing .forced _ | .visiting .forced _ _ | .closing .forced _ _ _ => raised
  | .clearing .graceful report | .visiting .graceful _ report => report.pending = []
  | .closing .graceful _ c report => report.pending = [] ∧ c.Gentle
  | .done report => report.pending = [] ∨ raised

namespace Stopping.Marked

variable {raised raised' : Prop} {s s' : Stopping Parcel}

theorem mono (h : s.Marked raised) (imp : raised → raised') : s.Marked raised' := by
  cases s with
  | raising kind => trivial
  | following => exact imp h
  | clearing kind report =>
    cases kind with
    | graceful => exact h
    | forced => exact imp h
  | visiting kind i report =>
    cases kind with
    | graceful => exact h
    | forced => exact imp h
  | closing kind i c report =>
    cases kind with
    | graceful => exact h
    | forced => exact imp h
  | done report => exact h.imp id imp

theorem look {d : Dispatcher Parcel} (h : s.Marked raised) (looks : World.StopLook d s s') :
    s'.Marked raised := by
  cases looks with
  | visit kind i l report there =>
    cases kind with
    | graceful => exact ⟨h, trivial⟩
    | forced => exact h
  | skip kind i report empty => cases kind <;> exact h
  | wrapUp i report last => exact h
  | closed kind i part report =>
    cases kind with
    | graceful =>
      obtain ⟨before, now⟩ := h
      simp only [Closing.Gentle] at now
      simp [Marked, StopReport.append, before, now]
    | forced => exact h
  | vanished kind i c report empty =>
    cases kind with
    | graceful => exact h.1
    | forced => exact h

theorem ending {d : Dispatcher Parcel} {report : StopReport Parcel} (h : s.Marked raised)
    (ends : World.StopEnd d s report) : (done report).Marked raised := by
  cases ends with
  | stopping up => exact .inl rfl
  | forcing up => exact .inl rfl
  | visited i report last => exact .inr h

theorem gathered (h : s.Marked raised) (some : s.gathered ≠ []) : raised := by
  cases s with
  | raising kind => exact absurd rfl some
  | following => exact absurd rfl some
  | clearing kind report =>
    cases kind with
    | graceful => exact absurd h some
    | forced => exact h
  | visiting kind i report =>
    cases kind with
    | graceful => exact absurd h some
    | forced => exact h
  | closing kind i c report =>
    cases kind with
    | graceful =>
      have none : (closing .graceful i c report).gathered = [] := by
        simp [Stopping.gathered, h.1, h.2.gathered_nil]
      exact absurd none some
    | forced => exact h
  | done report => exact h.resolve_left some

end Stopping.Marked

namespace World

variable {V : Type} {d : Dispatcher Parcel} {w w' : World V} {i : LaneIndex} {n : Nat}

def AllMarked (w : World V) : Prop :=
  ∀ (n : Nat) (s : Stopping Parcel), w.stops[n]? = some s → s.Marked (.raised n .forced ∈ w.history)

theorem AllMarked.set (h : AllMarked w) (grows : w.history ⊆ w'.history) {s : Stopping Parcel}
    (stops : w'.stops = w.stops.set n s) (after : s.Marked (.raised n .forced ∈ w'.history)) :
    AllMarked w' := by
  intro m r found
  rw [stops] at found
  rcases getElem?_set_cases found with ⟨rfl, rfl⟩ | ⟨-, found⟩
  · exact after
  · exact (h m r found).mono fun raised => grows raised

theorem Effect.allMarked (e : Effect w w') (h : AllMarked w) : AllMarked w' := by
  have grows := e.history.subset
  cases e with
  | beginStop kind =>
    intro m s found
    rcases getElem?_snoc_cases found with ⟨-, rfl⟩ | found
    · trivial
    · exact h m s found
  | stopLook n s s' there looks => exact h.set grows rfl ((h n s there).look looks)
  | raiseGraceful n there down => exact h.set grows rfl rfl
  | raiseForced n there down =>
    refine h.set grows rfl ?_
    simp [Stopping.Marked]
  | follow n there => exact h.set grows rfl (h n .following there)
  | clear n report there =>
    exact h.set grows rfl ((h n _ there).mono fun raised => grows raised)
  | clearLast n report there => exact h.set grows rfl (.inl (h n _ there))
  | endStop n s report there ends =>
    exact h.set grows rfl (((h n s there).ending ends).mono fun raised => grows raised)
  | shut n kind i c l report there lane unfinished =>
    refine h.set grows rfl ?_
    have was := h n _ there
    cases kind with
    | graceful => exact ⟨was.1, was.2.step l⟩
    | forced => exact grows was
  | _ => exact fun m s found => (h m s found).mono fun raised => grows raised

theorem Reachable.allMarked (h : Reachable d w) : AllMarked w := by
  induction h with
  | start => simp [AllMarked, fresh]
  | step before effect ih => exact effect.allMarked ih

/-- A stop that has taken tasks back raised the flag of forced stops. -/
theorem Reachable.raised_of_gathered (h : Reachable d w) {p : Parcel}
    (listed : p ∈ w.gathered (.stop n)) : .raised n .forced ∈ w.history := by
  simp only [gathered] at listed
  cases there : w.stops[n]? with
  | none => simp [there] at listed
  | some s =>
    rw [there] at listed
    exact (h.allMarked n s there).gathered (List.ne_nil_of_mem listed)

/-- So did a stop that has halted a lane. -/
theorem Reachable.raised_of_halted (h : Reachable d w) (halted : .halted i (.stop n) ∈ w.history) :
    .raised n .forced ∈ w.history := by
  induction h with
  | start => simp [fresh] at halted
  | @step w w' before effect ih =>
    have grown := effect.history.subset
    rw [← mem_haltsOn] at halted ih
    cases effect.halts before.allSound i with
    | rest halts stage => exact grown (ih (halts ▸ halted))
    | halt who l lane awake closing halts after lane' =>
      rw [halts, List.mem_append, List.mem_singleton] at halted
      rcases halted with old | rfl
      · exact grown (ih old)
      · obtain ⟨kind, report, there⟩ := closing?_stop.1 closing
        have marked := before.allMarked n _ there
        cases kind with
        | graceful => exact marked.2.elim
        | forced => exact grown marked

/-- The stops that raised the flag of forced stops. -/
abbrev forcers (history : List (Happening V)) : List Nat :=
  history.filterMap fun
    | .raised n .forced => some n
    | _ => none

theorem mem_forcers {history : List (Happening V)} :
    n ∈ forcers history ↔ .raised n .forced ∈ history := by
  simp only [List.mem_filterMap]
  constructor
  · rintro ⟨h, found, same⟩
    cases h with
    | raised m kind =>
      cases kind with
      | graceful => cases same
      | forced =>
        obtain rfl := Option.some.inj same
        exact found
    | _ => cases same
  · intro found
    exact ⟨_, found, rfl⟩

/-- The flag of forced stops was down and is raised, or it stays as it is. -/
theorem Effect.forcing (e : Effect w w') :
    (w.dispatcher.shutdownNow = false ∧ w'.dispatcher.shutdownNow = true ∧
      ∃ n, forcers w'.history = forcers w.history ++ [n]) ∨
    w'.dispatcher.shutdownNow = w.dispatcher.shutdownNow ∧
      forcers w'.history = forcers w.history := by
  cases e with
  | raiseForced n there down =>
    refine .inl ⟨down, rfl, n, ?_⟩
    simp
  | _ => exact .inr ⟨rfl, by simp⟩

/-- At most one stop raises the flag of forced stops. -/
theorem Reachable.forcers_eq (h : Reachable d w) (new : d.Fresh) :
    w.dispatcher.shutdownNow = false ∧ forcers w.history = [] ∨
      w.dispatcher.shutdownNow = true ∧ ∃ n, forcers w.history = [n] := by
  induction h with
  | start => exact .inl ⟨new.unforced, rfl⟩
  | @step w w' before effect ih =>
    rcases effect.forcing with ⟨down, up, n, more⟩ | ⟨flag, same⟩
    · have none : forcers w.history = [] := by simpa [down] using ih
      exact .inr ⟨up, n, by rw [more, none, List.nil_append]⟩
    · rw [flag, same]
      exact ih

theorem Reachable.one_forcer (h : Reachable d w) (new : d.Fresh) {m : Nat}
    (one : .raised m .forced ∈ w.history) (other : .raised n .forced ∈ w.history) : m = n := by
  rw [← mem_forcers] at one other
  rcases h.forcers_eq new with ⟨-, none⟩ | ⟨-, k, only⟩
  · simp [none] at one
  · rw [only, List.mem_singleton] at one other
    rw [one, other]

end World

end OrderedLanes
