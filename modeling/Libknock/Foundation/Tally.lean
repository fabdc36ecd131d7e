import Mathlib.Tactic
import Mathlib.Data.List.AList

/-!
# Counters kept beside a collection

A collection of keys, each of which belongs to a group, with one counter for
every group and one for all of them.  The counters are changed one key at a time,
beside the collection and not from it.
-/

set_option autoImplicit false

namespace Libknock.Foundation

/-! ## A sum in which one entry is replaced -/

section Sums

variable {Index Value Sum : Type} [DecidableEq Index] [AddCommMonoid Sum] (weight : Value → Sum)
  {indices : Finset Index} {index : Index}

theorem sum_update_split (values : Index → Value) (member : index ∈ indices) :
    ∃ rest, ∑ i ∈ indices, weight (values i) = weight (values index) + rest ∧
      ∀ value, ∑ i ∈ indices, weight (Function.update values index value i) =
        weight value + rest := by
  refine ⟨∑ i ∈ indices.erase index, weight (values i),
    (Finset.add_sum_erase indices _ member).symm, ?_⟩
  intro value
  rw [← Finset.add_sum_erase indices _ member, Function.update_self]
  congr 1
  apply Finset.sum_congr rfl
  intro i inside
  rw [Function.update_of_ne (Finset.ne_of_mem_erase inside)]

variable {values : Index → Value} {value : Value}

theorem sum_update_same (same : weight value = weight (values index)) :
    ∑ i ∈ indices, weight (Function.update values index value i) =
      ∑ i ∈ indices, weight (values i) := by
  apply Finset.sum_congr rfl
  intro i _
  by_cases here : i = index
  · rw [here, Function.update_self, same]
  · rw [Function.update_of_ne here]

theorem sum_range_update {values : Nat → Value} {count : Nat} (zero : weight value = 0) :
    ∑ i ∈ Finset.range (count + 1), weight (Function.update values count value i) =
      ∑ i ∈ Finset.range count, weight (values i) := by
  rw [Finset.sum_range_succ, Function.update_self, zero, add_zero]
  apply Finset.sum_congr rfl
  intro i inside
  rw [Function.update_of_ne (Finset.mem_range.mp inside).ne]

end Sums

/-! ## Counters -/

variable {Key Group : Type} [DecidableEq Group]

/-- The counters are those of the keys. -/
structure Tally (group : Key → Group) (keys : List Key) (count : Group → Int) (total : Int) :
    Prop where
  total : total = keys.length
  count : ∀ member, count member = keys.countP fun key => decide (group key = member)

namespace Tally

variable {group : Key → Group} {keys other : List Key} {count : Group → Int} {total : Int}
  {key : Key}

theorem empty (group : Key → Group) : Tally group [] (fun _ => 0) 0 :=
  ⟨rfl, fun _ => rfl⟩

section

variable (tally : Tally group keys count total)

include tally

theorem perm (same : keys.Perm other) : Tally group other count total where
  total := by rw [tally.total, same.length_eq]
  count := fun member => by rw [tally.count, same.countP_eq]

theorem count_eq_length_filter (member : Group) :
    count member = (keys.filter fun key => decide (group key = member)).length := by
  rw [tally.count, List.countP_eq_length_filter]

theorem nonneg (member : Group) : 0 ≤ count member := by
  rw [tally.count]
  exact Int.natCast_nonneg _

/-- A key more: its own counter and the total are one up. -/
theorem enter (key : Key) :
    Tally group (key :: keys) (Function.update count (group key) (count (group key) + 1))
      (total + 1) where
  total := by
    rw [tally.total, List.length_cons]
    omega
  count := by
    intro member
    rw [List.countP_cons, Function.update_apply]
    by_cases own : member = group key
    · rw [if_pos own, if_pos (by simpa using own.symm), tally.count, own]
      omega
    · have other : ¬ decide (group key = member) = true := by simpa using Ne.symm own
      rw [if_neg own, if_neg other, tally.count, Nat.add_zero]

theorem pos_of_perm (split : keys.Perm (key :: other)) : 0 < count (group key) ∧ 0 < total := by
  have head := tally.perm split
  rw [head.count, head.total, List.countP_cons_of_pos (by simp), List.length_cons]
  omega

/-- A key less: its own counter and the total are one down, and neither was zero. -/
theorem leave (split : keys.Perm (key :: other)) :
    Tally group other (Function.update count (group key) (count (group key) - 1)) (total - 1) := by
  have head := tally.perm split
  constructor
  · rw [head.total, List.length_cons]
    omega
  · intro member
    rw [Function.update_apply]
    by_cases own : member = group key
    · rw [if_pos own, head.count, own, List.countP_cons_of_pos (by simp)]
      omega
    · rw [if_neg own, head.count, List.countP_cons_of_neg (by simpa using Ne.symm own)]

end

end Tally

/-! ## The keys of a map -/

section Keys

variable {Value : Type} [DecidableEq Key] {map : AList fun _ : Key => Value} {key : Key}

theorem keys_perm_erase (held : key ∈ map) : map.keys.Perm (key :: (map.erase key).keys) := by
  rw [AList.keys_erase]
  exact List.perm_cons_erase (AList.mem_keys.mp held)

theorem keys_insert_of_mem (held : key ∈ map) (value : Value) :
    (map.insert key value).keys.Perm map.keys := by
  rw [AList.keys_insert]
  exact (List.perm_cons_erase (AList.mem_keys.mp held)).symm

theorem keys_insert_of_notMem (absent : key ∉ map) (value : Value) :
    (map.insert key value).keys = key :: map.keys := by
  rw [AList.keys_insert, List.erase_of_not_mem fun inside => absent (AList.mem_keys.mpr inside)]

end Keys

/-! ## Counters kept in a map -/

def counterAt (counters : AList fun _ : Group => Int) (member : Group) : Int :=
  (counters.lookup member).getD 0

theorem counterAt_insert (counters : AList fun _ : Group => Int) (member : Group) (value : Int) :
    counterAt (counters.insert member value) =
      Function.update (counterAt counters) member value := by
  funext other
  rw [Function.update_apply]
  split
  · rename_i own
    rw [own, counterAt, AList.lookup_insert]
    rfl
  · rename_i apart
    rw [counterAt, AList.lookup_insert_ne apart]
    rfl

theorem counterAt_erase (counters : AList fun _ : Group => Int) (member : Group) :
    counterAt (counters.erase member) = Function.update (counterAt counters) member 0 := by
  funext other
  rw [Function.update_apply]
  split
  · rename_i own
    rw [own, counterAt, AList.lookup_erase]
    rfl
  · rename_i apart
    rw [counterAt, AList.lookup_erase_ne apart]
    rfl

theorem mem_of_counterAt_ne_zero {counters : AList fun _ : Group => Int} {member : Group}
    (counted : counterAt counters member ≠ 0) : member ∈ counters := by
  by_contra absent
  rw [counterAt, AList.lookup_eq_none.mpr absent] at counted
  exact counted rfl

/-- Every counter in the map is between one and the bound. -/
def CountersWithin (counters : AList fun _ : Group => Int) (bound : Int) : Prop :=
  ∀ member value, counters.lookup member = some value → 1 ≤ value ∧ value ≤ bound

section Within

variable {counters : AList fun _ : Group => Int} {bound : Int}

theorem CountersWithin.empty (bound : Int) :
    CountersWithin (∅ : AList fun _ : Group => Int) bound := by
  intro member value found
  cases found

section

variable (within : CountersWithin counters bound) (member : Group)

include within

theorem CountersWithin.insert {value : Int} (low : 1 ≤ value) (high : value ≤ bound) :
    CountersWithin (counters.insert member value) bound := by
  intro other entry found
  by_cases own : other = member
  · subst own
    rw [AList.lookup_insert] at found
    cases found
    exact ⟨low, high⟩
  · rw [AList.lookup_insert_ne own] at found
    exact within other entry found

theorem CountersWithin.erase : CountersWithin (counters.erase member) bound := by
  intro other entry found
  by_cases own : other = member
  · subst own
    rw [AList.lookup_erase] at found
    cases found
  · rw [AList.lookup_erase_ne own] at found
    exact within other entry found

theorem CountersWithin.counterAt_cases :
    counterAt counters member = 0 ∨
      1 ≤ counterAt counters member ∧ counterAt counters member ≤ bound := by
  unfold counterAt
  cases found : counters.lookup member with
  | none => exact Or.inl rfl
  | some value => exact Or.inr (within member value found)

end

end Within

end Libknock.Foundation
