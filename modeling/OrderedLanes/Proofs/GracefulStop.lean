import OrderedLanes.Proofs.Handles
import OrderedLanes.Proofs.WakerPanics

/-!
A graceful stop runs everything that was accepted. When no worker can act any more,
whatever the calls under way still do, every lane has run all its tasks in turn and
its worker has left it, and every handle delivers how its task ended.
-/

namespace OrderedLanes

/-- A worker that cannot act on a closed lane is gone. -/
theorem Lane.exited_of_quiet {l : Lane Parcel} (closed : l.accepting = false)
    (receives : l.receive.isNone) (inspects : l.inspect.isNone)
    (ends : ∀ p, l.worker ≠ .busy p) : ∃ panic, l.worker = .exited panic := by
  cases worker : l.worker with
  | idle => cases queue : l.queue <;> simp [Lane.receive, worker, queue, closed] at receives
  | holding p => cases flag : l.interrupted <;> simp [Lane.inspect, worker, flag] at inspects
  | busy p => exact absurd worker (ends p)
  | exited panic => exact ⟨panic, rfl⟩

namespace World

variable {V : Type} {d : Dispatcher Parcel} {v w w' : World V} {i : LaneIndex} {l : Lane Parcel}

/-- No worker can act, and the calls under way do not change that. -/
def Still (w : World V) : Prop := ∀ w', w.Proceeds w' → w'.Quiet

theorem Ended.still (h : w.Ended) (quiet : w.Quiet) : w.Still := fun w' proceeds => by
  rw [h.eq_of_proceeds proceeds]
  exact quiet

/-- The calls under way find the workers as they are and leave them so. -/
theorem Still.worker (h : v.Still) (reached : Reachable d v.core) (proceeds : v.Proceeds w)
    (lane : v.dispatcher.lane? i = some l) :
    ∃ l', w.dispatcher.lane? i = some l' ∧ l'.worker = l.worker := by
  have goes : ∀ {u u' : World V}, v.Proceeds u → Effect u.core u'.core →
      (∃ l', u.dispatcher.lane? i = some l' ∧ l'.worker = l.worker) →
      ∃ l', u'.dispatcher.lane? i = some l' ∧ l'.worker = l.worker := by
    rintro u u' before effect ⟨l', lane', worker⟩
    obtain ⟨receives, inspects, ends⟩ := h u before i l' lane'
    have sound := (before.later.reachable reached).allSound
    rcases effect.track sound i with same | step
    · exact ⟨l', (congrArg Track.lane same).trans lane', worker⟩
    · obtain ⟨l'', lane'', worker'⟩ := step.worker lane' receives inspects ends
      exact ⟨l'', lane'', worker'.trans worker⟩
  induction proceeds with
  | refl => exact ⟨l, lane, rfl⟩
  | advance before act ih => exact goes before (effect_of_advance act) ih
  | advanceStop before act ih => exact goes before (effect_of_advanceStop act) ih

/-- With no call under way nobody is going to close a lane. -/
theorem Ended.closed (h : w.Ended) (tended : w.Tended i l) : l.accepting = false := by
  rcases tended with closed | ⟨-, awaited⟩ | ⟨-, who, c, closing, -⟩
  · exact closed
  · exfalso
    rcases awaited with ⟨n, s, there, ahead⟩ | ⟨t, s, there, ahead⟩
    · have done := h.stops n s there
      cases s <;> first | exact ahead | cases done
    · have done := h.submissions t s there
      obtain ⟨key, task, phase⟩ := s
      cases phase <;> first | exact ahead | cases done
  · exfalso
    cases who with
    | stop n =>
      obtain ⟨kind, report, there⟩ := closing?_stop.1 closing
      cases h.stops n _ there
    | submission t =>
      obtain ⟨⟨key, task, phase⟩, there, rfl⟩ := closing?_submission.1 closing
      cases h.submissions t _ there

/-- Once a graceful stop was called and no worker can act any more, all workers are gone. -/
theorem Still.exited (h : w.Still) (reached : Reachable d w.core) (new : d.Fresh)
    (unforced : w.Unforced) (called : w.stops ≠ []) (lane : w.dispatcher.lane? i = some l) :
    ∃ panic, l.worker = .exited panic := by
  obtain ⟨w', proceeds, ended⟩ := exists_ended w
  have reached' := proceeds.later.reachable reached
  have down : w'.dispatcher.shutdownNow = false := (unforced.proceeds proceeds).down
  -- The first stop has ended, so that the flag is up and every lane is closed.
  have some' : 0 < w'.stops.length :=
    (List.length_pos_iff.2 called).trans_le proceeds.later.stops_length
  have there := List.getElem?_eq_getElem some'
  obtain ⟨report, done⟩ := Option.isSome_iff_exists.1 (ended.stops 0 _ there)
  rw [eq_done_of_report done] at there
  have up : w'.dispatcher.shutdown = true := reached'.shutdown_of_stopped new down there
  obtain ⟨l', lane', worker⟩ := h.worker reached proceeds lane
  have closed := ended.closed (reached'.tended new up lane')
  obtain ⟨receives, inspects, ends⟩ := h w' proceeds i l' lane'
  rw [← worker]
  exact Lane.exited_of_quiet closed receives inspects ends

/-- A worker that no panic has ended has left its lane. -/
theorem Still.left (h : w.Still) (reached : Reachable d w.core) (new : d.Fresh)
    (unforced : w.Unforced) (called : w.stops ≠ []) (spared : ∀ last, ¬ w.Fell i last)
    (lane : w.dispatcher.lane? i = some l) : l.worker = .exited none ∧ l.queue = [] := by
  obtain ⟨panic, gone⟩ := h.exited reached new unforced called lane
  cases panic with
  | some panic => exact absurd ⟨l, lane, gone⟩ (spared panic)
  | none => exact ⟨gone, (reached.emptied new unforced.down lane gone).empty⟩

end World

end OrderedLanes
