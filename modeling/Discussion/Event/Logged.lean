import Discussion.Event.Basic

/-!
# Logged results

A result together with the events reported on the way to it, in order.
-/

namespace Discussion

/-- A value and the events reported on the way to it. -/
structure Logged (α : Type) where
  events : List Event
  value : α

namespace Logged

instance : Monad Logged where
  pure a := { events := [], value := a }
  bind x f :=
    let y := f x.value
    { events := x.events ++ y.events, value := y.value }

/-- The report of one event. -/
def report (event : Event) : Logged Unit :=
  { events := [event], value := () }

@[simp]
theorem events_pure {α : Type} (a : α) : (pure a : Logged α).events = [] := rfl

@[simp]
theorem value_pure {α : Type} (a : α) : (pure a : Logged α).value = a := rfl

@[simp]
theorem events_bind {α β : Type} (x : Logged α) (f : α → Logged β) :
    (x >>= f).events = x.events ++ (f x.value).events := rfl

@[simp]
theorem value_bind {α β : Type} (x : Logged α) (f : α → Logged β) :
    (x >>= f).value = (f x.value).value := rfl

end Logged

/-- The computations that can pass on the events of a logged result. -/
class Reports (m : Type → Type) where
  /-- The value of a logged result, its events passed on. -/
  absorb : {α : Type} → Logged α → m α

instance : Reports Logged := ⟨id⟩

end Discussion
