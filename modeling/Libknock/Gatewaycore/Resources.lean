import Mathlib.Tactic

/-!
# What a gateway has to give back

The operations on the firewall that took effect, as `internal/gatewaycore` calls
them, and the lease timers of `internal/timerset`.
-/

set_option autoImplicit false

namespace Libknock.Gatewaycore

/-! ## The firewall -/

inductive FirewallOp where
  | init
  | allow
  | revoke
  | cleanup
  deriving DecidableEq

/-- The operations that took effect, newest first, are revocations since the
last cleanup. -/
def CleanedUp (ops : List FirewallOp) : Prop :=
  ∃ since before, ops = since ++ .cleanup :: before ∧ ∀ op ∈ since, op = .revoke

theorem CleanedUp.cleanup (ops : List FirewallOp) : CleanedUp (.cleanup :: ops) :=
  ⟨[], ops, rfl, nofun⟩

theorem CleanedUp.revoke {ops : List FirewallOp} (cleaned : CleanedUp ops) (revoked : Bool) :
    CleanedUp (if revoked then .revoke :: ops else ops) := by
  obtain ⟨since, before, rfl, only⟩ := cleaned
  cases revoked with
  | false => exact ⟨since, before, rfl, only⟩
  | true => exact ⟨.revoke :: since, before, rfl, List.forall_mem_cons.mpr ⟨rfl, only⟩⟩

theorem not_cleanedUp_cons {op : FirewallOp} {ops : List FirewallOp} (other : op ≠ .cleanup)
    (opens : op ≠ .revoke) : ¬ CleanedUp (op :: ops) := by
  rintro ⟨since, before, same, only⟩
  cases since with
  | nil => exact other (List.cons.inj same).1
  | cons newest since =>
    have revoked := only newest (List.mem_cons_self ..)
    exact opens ((List.cons.inj same).1.trans revoked)

/-! ## The timers -/

/-- `Set` of `internal/timerset`: the timers armed, and the callbacks of those
that fired.  Its wait group counts both. -/
structure TimerSet where
  armed : Nat
  callbacks : Nat
  deriving DecidableEq

namespace TimerSet

def new : TimerSet := ⟨0, 0⟩

def afterFunc (s : TimerSet) : TimerSet := { s with armed := s.armed + 1 }

def fire (s : TimerSet) : Option TimerSet :=
  if 0 < s.armed then some ⟨s.armed - 1, s.callbacks + 1⟩ else none

def callbackDone (s : TimerSet) : Option TimerSet :=
  if 0 < s.callbacks then some { s with callbacks := s.callbacks - 1 } else none

/-- `StopAll` up to its wait; a timer it comes too late for has fired. -/
def stop (s : TimerSet) : TimerSet := { s with armed := 0 }

/-- What the wait of `StopAll` is for. -/
def Idle (s : TimerSet) : Prop := s.armed = 0 ∧ s.callbacks = 0

instance (s : TimerSet) : Decidable s.Idle := inferInstanceAs (Decidable (_ ∧ _))

theorem fire_some {s next : TimerSet} (fired : s.fire = some next) : 0 < s.armed := by
  obtain ⟨armed, _⟩ := Option.ite_none_right_eq_some.mp fired
  exact armed

theorem callbackDone_some {s next : TimerSet} (done : s.callbackDone = some next) :
    0 < s.callbacks ∧ next.armed = s.armed := by
  obtain ⟨running, result⟩ := Option.ite_none_right_eq_some.mp done
  exact ⟨running, by rw [← Option.some.inj result]⟩

theorem Idle.callbackDone {s : TimerSet} (idle : s.Idle) : s.callbackDone = none := by
  simp [TimerSet.callbackDone, idle.2]

end TimerSet

end Libknock.Gatewaycore
