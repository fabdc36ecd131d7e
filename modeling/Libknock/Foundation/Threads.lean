import Mathlib.Tactic

/-!
# Threads in a list

The threads of a system kept in a list: a new one is put at its end, and a step
replaces the entry of the thread that takes it.
-/

set_option autoImplicit false

namespace Libknock.Foundation

variable {Thread : Type}

variable {list : List Thread} {index position : Nat} {old new : Thread} {value : Bool}

theorem set_self {value : Thread} (found : list[index]? = some value) :
    list.set index value = list := by
  apply List.ext_getElem?
  intro position
  rw [List.getElem?_set]
  split
  · rename_i same
    subst same
    rw [found, if_pos (List.getElem?_eq_some_iff.mp found).1]
  · rfl

theorem getElem?_set_found (new : Thread) (found : list[index]? = some old) :
    (list.set index new)[index]? = some new :=
  List.getElem?_set_self (List.getElem?_eq_some_iff.mp found).1

theorem getElem?_snoc_found (last : Thread) (found : list[index]? = some old) :
    (list ++ [last])[index]? = some old := by
  rw [List.getElem?_append_left (List.getElem?_eq_some_iff.mp found).1, found]

theorem getElem?_set_cases {found : Thread} (there : list[index]? = some old)
    (read : (list.set index new)[position]? = some found) :
    (index = position ∧ found = new) ∨ (index ≠ position ∧ list[position]? = some found) := by
  rw [List.getElem?_set] at read
  split at read
  · rename_i same
    rw [if_pos (List.getElem?_eq_some_iff.mp there).1] at read
    exact Or.inl ⟨same, (Option.some.inj read).symm⟩
  · rename_i apart
    exact Or.inr ⟨apart, read⟩

theorem getElem?_snoc_cases {last found : Thread} (read : (list ++ [last])[position]? = some found) :
    list[position]? = some found ∨ (position = list.length ∧ found = last) := by
  rw [List.getElem?_append] at read
  split at read
  · exact Or.inl read
  rename_i past
  cases late : position - list.length with
  | zero =>
    rw [late] at read
    exact Or.inr ⟨by omega, (Option.some.inj read).symm⟩
  | succ more =>
    rw [late] at read
    cases read

theorem any_set (found : list[index]? = some old) (test : Thread → Bool) (position : Nat) :
    (list.set index new)[position]?.any test =
      if position = index then test new else list[position]?.any test := by
  split
  · rename_i same
    rw [same, List.getElem?_set_self (List.getElem?_eq_some_iff.mp found).1]
    rfl
  · rename_i apart
    rw [List.getElem?_set_ne (Ne.symm apart)]

theorem any_snoc {test : Thread → Bool} (none_ : test new = false) :
    (list ++ [new])[position]?.any test = list[position]?.any test := by
  rw [List.getElem?_append]
  split
  · rfl
  rename_i late
  rw [List.getElem?_eq_none (not_lt.mp late)]
  cases position - list.length with
  | zero => exact none_
  | succ => rfl

theorem countP_set_add (test : Thread → Bool) (new : Thread) (found : list[index]? = some old) :
    (list.set index new).countP test + (if test old then 1 else 0) =
      list.countP test + if test new then 1 else 0 := by
  obtain ⟨inside, rfl⟩ := List.getElem?_eq_some_iff.mp found
  have counted := List.boole_getElem_le_countP (p := test) inside
  rw [List.countP_set inside]
  omega

theorem sum_set_add (weight : Thread → Nat) (new : Thread) :
    ∀ {index : Nat}, list[index]? = some old →
      ((list.set index new).map weight).sum + weight old =
        (list.map weight).sum + weight new := by
  induction list with
  | nil => exact nofun
  | cons head tail ih =>
    intro index found
    cases index with
    | zero =>
      cases found
      simp only [List.set_cons_zero, List.map_cons, List.sum_cons]
      omega
    | succ index =>
      have rest := @ih index (by simpa using found)
      simp only [List.set_cons_succ, List.map_cons, List.sum_cons]
      omega

/-! ## A mutex -/

section Mutex

variable {Party : Type} [DecidableEq Party] {inside : Party → Bool} {holder : Option Party}
  {party : Party}

/-- The holder of the mutex is the one who is between taking it and giving it back. -/
def Exclusive (inside : Party → Bool) (holder : Option Party) : Prop :=
  ∀ party, inside party = true ↔ holder = some party

theorem Exclusive.keep (exclusive : Exclusive inside holder) (same : value = inside party) :
    Exclusive (Function.update inside party value) holder := by
  rw [same, Function.update_eq_self]
  exact exclusive

theorem Exclusive.take (exclusive : Exclusive inside holder) (free : holder = none)
    (enters : value = true) :
    Exclusive (Function.update inside party value) (some party) := by
  intro other
  rw [Function.update_apply, enters]
  split
  · rename_i same
    rw [same]
    exact ⟨fun _ => rfl, fun _ => rfl⟩
  · rename_i apart
    rw [exclusive other, free]
    exact ⟨nofun, fun same => absurd (Option.some.inj same).symm apart⟩

theorem Exclusive.give (exclusive : Exclusive inside holder) (held : inside party = true)
    (leaves : value = false) :
    Exclusive (Function.update inside party value) none := by
  intro other
  rw [Function.update_apply, leaves]
  split
  · exact ⟨nofun, nofun⟩
  · rename_i apart
    rw [exclusive other, (exclusive party).mp held]
    exact ⟨fun same => absurd (Option.some.inj same).symm apart, nofun⟩

end Mutex

end Libknock.Foundation
