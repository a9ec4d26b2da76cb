import OrderedLanes.Interleaving.Exchange
import OrderedLanes.Session.Step

/-!
The handles of a session. What a script does with a handle and with its completer is what
the two do in an exchange, act by act: a poll, an attempt to join, and the use of the
completer, which fills the slot, notifies and calls the waker in one go.
-/

namespace OrderedLanes

namespace Exchange

open Session

variable {V : Type} {s : Session V} {id : String} {x : Exchange (Yield V)}

/-- The session holds the handle under this name, and the completer too while it is armed. -/
structure Shown (s : Session V) (id : String) (x : Exchange (Yield V)) : Prop where
  holding : x.caller = .holding
  handle : ∃ t h, s.held.lookup id = some t ∧ s.handles[t]? = some h ∧ h.slot = x.slot ∧
    (x.completer = .armed → s.completers.lookup id = some t)

@[simp] theorem held_setSlot (s : Session V) (t : Session.Ticket) (slot : Slot (Yield V)) :
    (s.setSlot t slot).held = s.held := rfl

@[simp] theorem completers_setSlot (s : Session V) (t : Session.Ticket) (slot : Slot (Yield V)) :
    (s.setSlot t slot).completers = s.completers := rfl

theorem handles_setSlot {t : Session.Ticket} {h : Handle (Yield V)} (there : s.handles[t]? = some h)
    (slot : Slot (Yield V)) : (s.setSlot t slot).handles[t]? = some { h with slot } := by
  simp [setSlot, Array.getElem?_modify, there]

theorem heldHandle_eq {t : Session.Ticket} {h : Handle (Yield V)} (held : s.held.lookup id = some t)
    (there : s.handles[t]? = some h) : s.heldHandle id = some (t, h) := by
  simp [heldHandle, held, there]

/-- A poll of the session is a poll of the exchange. -/
theorem Shown.poll (shown : Shown s id x) (waker : Waker) :
    ∃ y answer, x.step (.poll waker) = some y ∧
      y.sightings = x.sightings ++ [.polled answer] ∧
      (s.pollHandle id waker).1 = (match answer with
        | .ready outcome => .outcome outcome
        | .pending => .pending
        | .misuse => .panic pollMisuse) ∧
      Shown (s.pollHandle id waker).2 id y := by
  obtain ⟨holding, t, h, held, there, slot, completer⟩ := shown
  have after : (s.pollHandle id waker).2 = s.setSlot t (x.slot.poll waker).2 := by
    simp [pollHandle, heldHandle_eq held there, slot]
  refine ⟨{ x with slot := (x.slot.poll waker).2 }.note (.polled (x.slot.poll waker).1),
    (x.slot.poll waker).1, ?_, rfl, ?_, holding, ?_⟩
  · simp [Exchange.step, holding]
  · cases answer : (x.slot.poll waker).1 <;>
      simp [pollHandle, heldHandle_eq held there, slot, answer]
  · rw [after]
    exact ⟨t, _, held, handles_setSlot there _, rfl, completer⟩

/-- So is an attempt to join. The session lets go of a handle whose outcome it got. -/
theorem Shown.take (shown : Shown s id x) (otherwise : Reply V) :
    ∃ y outcome, x.step .tryJoin = some y ∧
      y.sightings = x.sightings ++ [.tried outcome] ∧
      (s.takeOutcome id otherwise).1 = outcome.elim otherwise .outcome ∧
      (outcome = none → Shown (s.takeOutcome id otherwise).2 id y) := by
  obtain ⟨holding, t, h, held, there, slot, completer⟩ := shown
  refine ⟨x.ask .tried, x.slot.take.1, by simp [Exchange.step, holding], rfl, ?_,
    fun nothing => ⟨by simp [ask, note, nothing], ?_⟩⟩
  · simp only [takeOutcome, heldHandle_eq held there, slot]
    split <;> simp [*]
  · have kept : x.slot.take.2 = x.slot := by
      cases full : x.slot with
      | ready o => simp [full, Slot.take] at nothing
      | _ => rfl
    have after : (s.takeOutcome id otherwise).2 = s := by
      simp only [takeOutcome, heldHandle_eq held there, slot]
      split <;> simp_all
    rw [after]
    exact ⟨t, h, held, there, slot.trans kept.symm, completer⟩

/-- What is left for a completer to do that has filled the slot. -/
def wakeUp (waker : Option Waker) : List (Act V) := .notify :: waker.toList.map fun _ => .wake

/-- The use of a completer is its whole life, from the filling of the slot to its drop. -/
theorem Shown.complete (shown : Shown s id x) (armed : x.completer = .armed)
    (outcome : Outcome (Yield V)) :
    ∃ y, x.run (.complete outcome :: wakeUp (x.slot.fulfil outcome).1 ++ [.dropCompleter]) =
        some y ∧
      y.completer = .gone ((x.slot.fulfil outcome).1.bind Waker.panic?) ∧
      (s.useCompleter id outcome).1 =
        replyUnless ((x.slot.fulfil outcome).1.bind Waker.panic?) .done ∧
      Shown (s.useCompleter id outcome).2 id y := by
  obtain ⟨holding, t, h, held, there, slot, completer⟩ := shown
  have named := completer armed
  cases woken : (x.slot.fulfil outcome).1 with
  | none =>
    refine ⟨⟨(x.slot.fulfil outcome).2, .gone none, .holding,
      x.sightings ++ [.filled outcome]⟩, ?_, rfl, ?_, rfl, ?_⟩
    · simp [wakeUp, Exchange.step, armed, Exchange.fill, note, woken, Completer.leave, holding,
        Caller.notified]
    · simp [useCompleter, named, deliver, there, slot, woken]
    · simp only [useCompleter, named, deliver, there, slot, woken]
      exact ⟨t, _, held, handles_setSlot there _, rfl, by simp⟩
  | some waker =>
    refine ⟨⟨(x.slot.fulfil outcome).2, .gone waker.panic?, .holding,
      x.sightings ++ [.filled outcome, .woken waker]⟩, ?_, rfl, ?_, rfl, ?_⟩
    · simp [wakeUp, Exchange.step, armed, Exchange.fill, note, woken, Completer.leave, holding,
        Caller.notified]
    · simp [useCompleter, named, deliver, there, slot, woken, wake]
    · simp only [useCompleter, named, deliver, there, slot, woken, wake]
      cases waker with
      | blocked => exact ⟨t, _, held, handles_setSlot there _, rfl, by simp⟩
      | counted name panic => exact ⟨t, _, held, handles_setSlot there _, rfl, by simp⟩

end Exchange

end OrderedLanes
