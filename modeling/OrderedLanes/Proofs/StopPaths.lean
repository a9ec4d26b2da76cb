import OrderedLanes.Proofs.Bindings

/-!
The two ways to stop. A forced stop that comes after a graceful one does what is
left for it to do: the two together hand back what a forced stop alone hands back,
and leave the dispatcher as it does. This needs nothing of the lanes, only that a
dispatcher whose second flag is up has the first one up as well; that fails only
between the two accesses by which a forced stop raises them.
-/

namespace OrderedLanes

variable {α : Type}

/-! ### Lanes -/

namespace Dispatcher

end Dispatcher

@[simp] theorem Allocator.clear_clear (a : Allocator) : a.clear.clear = a.clear := by
  simp [Allocator.clear, Loads.reset]

namespace Dispatcher

end Dispatcher

/-! ### The states a dispatcher can come to -/

namespace World

variable {V : Type} {d : Dispatcher Parcel} {w w' : World V}

/--
The states that any use of a dispatcher leads to: the acts of callers and workers, and
calls that pass the lanes by, of its allocator or to ask how a worker ended.
-/
inductive Attained (d : Dispatcher Parcel) : World V → Prop
  | start (counter : KeyCounter) : Attained d (fresh d counter)
  | act {w w' : World V} (a : Act V) (before : Attained d w) (possible : w.step a = some w') :
      Attained d w'
  | resolve {w : World V} (key : Key) (before : Attained d w) :
      Attained d { w with dispatcher := (w.dispatcher.resolve key).value.2 }
  | clear {w : World V} (before : Attained d w) : Attained d
      { w with
        dispatcher := { w.dispatcher with allocator := w.dispatcher.allocator.clear } }
  | join {w : World V} (i : LaneIndex) (l : Lane Parcel) (before : Attained d w)
      (lane : w.dispatcher.lane? i = some l) :
      Attained d { w with dispatcher := w.dispatcher.setLane i l.joinIfExited.2 }

/-- With the flag of forced stops up the common one is up, or about to be raised. -/
def Followed (w : World V) : Prop :=
  w.dispatcher.shutdownNow = true →
    w.dispatcher.shutdown = true ∨ ∃ n : Nat, w.stops[n]? = some .following

theorem Effect.followed (e : Effect w w') (h : w.Followed) : w'.Followed := by
  have set : ∀ {m : Nat} {s s' : Stopping Parcel}, w.stops[m]? = some s → s ≠ .following →
      (∃ n : Nat, w.stops[n]? = some .following) →
        ∃ n : Nat, (w.stops.set m s')[n]? = some .following := by
    rintro m s s' there other ⟨n, following⟩
    refine ⟨n, ?_⟩
    rwa [List.getElem?_set_ne]
    rintro rfl
    exact other (Option.some.inj (there.symm.trans following))
  intro up
  cases e with
  | raiseGraceful n there down => exact .inl rfl
  | raiseForced n there down => exact .inr ⟨n, getElem?_set_there there _⟩
  | follow n there => exact .inl rfl
  | beginStop kind =>
    refine (h up).imp id ?_
    rintro ⟨n, following⟩
    exact ⟨n, getElem?_snoc_there following _⟩
  | stopLook n s s' there looks => exact (h up).imp id (set there (by rintro rfl; cases looks))
  | clear n report there => exact (h up).imp id (set there (by simp))
  | clearLast n report there => exact (h up).imp id (set there (by simp))
  | endStop n s report there ends => exact (h up).imp id (set there (by rintro rfl; cases ends))
  | shut n kind i c l report there lane unfinished => exact (h up).imp id (set there (by simp))
  | _ => exact h up

theorem Attained.followed (h : Attained d w) (flags : d.shutdownNow = false) : w.Followed := by
  induction h with
  | start counter =>
    intro up
    exact absurd (flags.symm.trans up) (by simp)
  | act a before possible ih => exact (effect_of_step possible).followed (w := World.core _) ih
  | resolve key before ih => exact ih
  | clear before ih => exact ih
  | join i l before lane ih => exact ih

end World

end OrderedLanes
