import Mathlib.Tactic

/-!
# Wait groups

A `sync.WaitGroup` by its atomic operations, on the word that holds the counter and
the number of waiters and on the semaphore where they sleep.  An operation without
a result panics.  The `Done` that brings the counter of a group with waiters to zero
releases them in a second operation.  An `Add` between the two panics, and so does
a waiter that wakes up and finds the group in use again.
-/

set_option autoImplicit false

namespace Libknock.Foundation

structure WaitGroup where
  counter : Nat
  waiters : Nat
  permits : Nat
  deriving DecidableEq

namespace WaitGroup

def new : WaitGroup := ⟨0, 0, 0⟩

/-- The counter is zero and the waiters are about to be released. -/
def Zeroed (wg : WaitGroup) : Prop := wg.counter = 0 ∧ wg.waiters ≠ 0

instance (wg : WaitGroup) : Decidable wg.Zeroed := inferInstanceAs (Decidable (_ ∧ _))

/-- `Add(1)`. -/
def add (wg : WaitGroup) : Option WaitGroup :=
  if wg.Zeroed then none else some { wg with counter := wg.counter + 1 }

/-- The addition of `Done`; a negative counter panics. -/
def lower (wg : WaitGroup) : Option WaitGroup :=
  if wg.counter = 0 then none else some { wg with counter := wg.counter - 1 }

/-- The release of the waiters that `Done` has found: the word must be as it was. -/
def release (waiters : Nat) (wg : WaitGroup) : Option WaitGroup :=
  if wg.counter = 0 ∧ wg.waiters = waiters then some ⟨0, 0, wg.permits + waiters⟩ else none

/-- `Wait` on a group whose counter is not zero. -/
def park (wg : WaitGroup) : WaitGroup := { wg with waiters := wg.waiters + 1 }

/-- A waiter takes a permit of the semaphore; without one it sleeps on. -/
def wake (wg : WaitGroup) : Option WaitGroup :=
  if wg.permits = 0 then none else some { wg with permits := wg.permits - 1 }

/-- What makes a waiter panic that is awake. -/
def Reused (wg : WaitGroup) : Prop := wg.counter ≠ 0 ∨ wg.waiters ≠ 0

instance (wg : WaitGroup) : Decidable wg.Reused := inferInstanceAs (Decidable (_ ∨ _))

variable {wg next : WaitGroup} {waiters : Nat}

theorem add_some (added : wg.add = some next) :
    ¬ wg.Zeroed ∧ next = { wg with counter := wg.counter + 1 } := by
  obtain ⟨free, same⟩ := Option.ite_none_left_eq_some.mp added
  exact ⟨free, (Option.some.inj same).symm⟩

theorem lower_some (lowered : wg.lower = some next) :
    wg.counter ≠ 0 ∧ next = { wg with counter := wg.counter - 1 } := by
  obtain ⟨positive, same⟩ := Option.ite_none_left_eq_some.mp lowered
  exact ⟨positive, (Option.some.inj same).symm⟩

theorem release_some (released : wg.release waiters = some next) :
    wg.counter = 0 ∧ wg.waiters = waiters ∧ next = ⟨0, 0, wg.permits + waiters⟩ := by
  obtain ⟨⟨zero, found⟩, same⟩ := Option.ite_none_right_eq_some.mp released
  exact ⟨zero, found, (Option.some.inj same).symm⟩

theorem wake_some (woke : wg.wake = some next) :
    wg.permits ≠ 0 ∧ next = { wg with permits := wg.permits - 1 } := by
  obtain ⟨free, same⟩ := Option.ite_none_left_eq_some.mp woke
  exact ⟨free, (Option.some.inj same).symm⟩

end WaitGroup

end Libknock.Foundation
