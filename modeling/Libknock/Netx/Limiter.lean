import Mathlib.Tactic

/-!
# Slots for each source

`internal/iplimit`: at most `max` slots are held for one source.  The key of a
source is any value; a connection whose address has none is not limited.
-/

set_option autoImplicit false

namespace Libknock.Netx

variable {Key : Type} [DecidableEq Key]

/-- A limiter with `max ≤ 0` is the nil limiter. -/
structure Limiter (Key : Type) where
  max : Int
  n : Key → Int

namespace Limiter

def new (max : Int) : Limiter Key := ⟨max, fun _ => 0⟩

/-- The source whose slot `Acquire` takes; without one the release function does
nothing. -/
def counts (source : Option Key) (l : Limiter Key) : Option Key :=
  if l.max ≤ 0 then none else source

def acquire (source : Option Key) (l : Limiter Key) : Option (Limiter Key) :=
  match l.counts source with
  | none => some l
  | some key =>
    if l.max ≤ l.n key then none
    else some { l with n := Function.update l.n key (l.n key + 1) }

def release (source : Option Key) (l : Limiter Key) : Limiter Key :=
  match l.counts source with
  | none => l
  | some key =>
    { l with n := Function.update l.n key (if l.n key ≤ 1 then 0 else l.n key - 1) }

/-! ## The slots that are taken -/

/-- The counters are those of connections from these sources. -/
def Holds (l : Limiter Key) (held : Multiset (Option Key)) : Prop :=
  ∀ key, l.n key = (held.map l.counts).count (some key)

/-- What an operation does to the limiter and to the sources of the connections
it is made for. -/
inductive Moves : Limiter Key → Multiset (Option Key) → Limiter Key → Multiset (Option Key) → Prop
  | stays {l : Limiter Key} {held : Multiset (Option Key)} : Moves l held l held
  | takes {l next : Limiter Key} {source : Option Key} (taken : l.acquire source = some next) :
    Moves l 0 next {source}
  | frees {l : Limiter Key} {source : Option Key} : Moves l {source} (l.release source) 0

theorem Holds.new (max : Int) : (new max : Limiter Key).Holds 0 :=
  fun _ => rfl

variable {l next : Limiter Key} {source : Option Key} {old now rest : Multiset (Option Key)}

theorem Holds.acquire (holds : l.Holds rest) (taken : l.acquire source = some next) :
    next.Holds ({source} + rest) := by
  intro other
  have before := holds other
  unfold Limiter.acquire at taken
  split at taken
  · rename_i free
    cases taken
    simp [free, before]
  · rename_i key counted
    obtain ⟨_, ⟨⟩⟩ := Option.ite_none_left_eq_some.mp taken
    show Function.update l.n key (l.n key + 1) other =
      ((({source} + rest).map l.counts).count (some other) : Int)
    rw [Multiset.map_add, Multiset.map_singleton, counted, Multiset.count_add,
      Multiset.count_singleton]
    by_cases here : other = key
    · subst here
      simp [before, add_comm]
    · simp [here, before]

theorem Holds.release (holds : l.Holds ({source} + rest)) : (l.release source).Holds rest := by
  intro other
  have before := holds other
  rw [Multiset.map_add, Multiset.map_singleton, Multiset.count_add, Multiset.count_singleton] at before
  unfold Limiter.release
  split
  · rename_i free
    simpa [free] using before
  · rename_i key counted
    rw [counted] at before
    show Function.update l.n key (if l.n key ≤ 1 then 0 else l.n key - 1) other =
      ((rest.map l.counts).count (some other) : Int)
    by_cases here : other = key
    · subst here
      rw [if_pos rfl, Nat.cast_add, Nat.cast_one] at before
      rw [Function.update_self]
      split <;> omega
    · simpa [here] using before

theorem Holds.moves (holds : l.Holds (old + rest)) (moves : l.Moves old next now) :
    next.Holds (now + rest) := by
  cases moves with
  | stays => exact holds
  | takes taken => exact (zero_add rest ▸ holds).acquire taken
  | frees =>
    rw [zero_add]
    exact holds.release

end Limiter

end Libknock.Netx
