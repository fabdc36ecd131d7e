import Mathlib.Data.Set.Card
import Libknock.Cache.TTLLRU

/-!
# Ledgers

What a bounded store is kept for, without its representation: a ledger has for
each key at most one value, and the instant at which it runs out.  A store
follows a ledger from an instant on when its unexpired entries are those of the
ledger.  The rules below say how both change together, as long as nothing is
evicted.
-/

set_option autoImplicit false

namespace Libknock.Cache

open Foundation

variable {K V : Type}

abbrev Ledger (K V : Type) : Type := K → Option (V × Int)

def Ledger.Active (ledger : Ledger K V) (now : Int) (key : K) : Prop :=
  ∃ value expiresAt, ledger key = some (value, expiresAt) ∧ now < expiresAt

def Ledger.empty (K V : Type) : Ledger K V := fun _ => none

/-- From `now` on, the unexpired entries of a store are those of the ledger. -/
def Follows (now : Int) (entries : List (Entry K V)) (ledger : Ledger K V) : Prop :=
  ∀ entry : Entry K V, entry.live now = true →
    (entry ∈ entries ↔ ledger entry.key = some (entry.value, entry.expiresAt))

theorem Ledger.others_eq (ledger : Ledger K V) {now : Int} {key : K}
    (inactive : ¬ ledger.Active now key) :
    {other | other ≠ key ∧ ledger.Active now other} = {other | ledger.Active now other} := by
  ext other
  refine and_iff_right_of_imp fun active same => inactive ?_
  rw [← same]
  exact active

namespace Follows

variable {now : Int} {entries next : List (Entry K V)} {ledger : Ledger K V}

theorem empty (K V : Type) (now : Int) : Follows now ([] : List (Entry K V)) (Ledger.empty K V) := by
  intro entry _
  simp [Ledger.empty]

theorem later {late : Int} (follows : Follows now entries ledger) (order : now ≤ late) :
    Follows late entries ledger := by
  intro entry live
  have unexpired : late < entry.expiresAt := of_decide_eq_true live
  exact follows entry (decide_eq_true (Int.lt_of_le_of_lt order unexpired))

theorem congr (follows : Follows now entries ledger)
    (same : ∀ entry : Entry K V, entry.live now = true → (entry ∈ next ↔ entry ∈ entries)) :
    Follows now next ledger :=
  fun entry live => (same entry live).trans (follows entry live)

theorem active_iff (follows : Follows now entries ledger) (key : K) :
    ledger.Active now key ↔ ∃ entry ∈ entries, entry.key = key ∧ entry.live now = true := by
  constructor
  · rintro ⟨value, expiresAt, held, unexpired⟩
    have live : (⟨key, value, expiresAt⟩ : Entry K V).live now = true := decide_eq_true unexpired
    exact ⟨_, (follows _ live).mpr held, rfl, live⟩
  · rintro ⟨entry, member, rfl, live⟩
    exact ⟨entry.value, entry.expiresAt, (follows entry live).mp member, of_decide_eq_true live⟩

variable [DecidableEq K]

/-- Where the entries of one key go, that key is struck out. -/
theorem strike (follows : Follows now entries ledger) (key : K)
    (members : ∀ entry, entry ∈ next ↔ entry ∈ entries ∧ entry.key ≠ key) :
    Follows now next (Function.update ledger key none) := by
  intro entry live
  rw [members]
  by_cases same : entry.key = key
  · simp [same]
  · rw [Function.update_of_ne same, ← follows entry live]
    simp [same]

/-- Where one entry takes the place of those of its key, it is entered. -/
theorem enter (follows : Follows now entries ledger) (added : Entry K V)
    (members : ∀ entry, entry.live now = true →
      (entry ∈ next ↔ entry = added ∨ entry ∈ entries ∧ entry.key ≠ added.key)) :
    Follows now next (Function.update ledger added.key (some (added.value, added.expiresAt))) := by
  intro entry live
  rw [members entry live]
  by_cases same : entry.key = added.key
  · rw [same, Function.update_self]
    constructor
    · rintro (rfl | ⟨_, different⟩)
      · rfl
      · exact absurd rfl different
    · intro equal
      obtain ⟨value, expiresAt⟩ := Prod.mk.inj (Option.some.inj equal)
      left
      cases entry
      cases added
      cases same
      cases value
      cases expiresAt
      rfl
  · rw [Function.update_of_ne same, ← follows entry live]
    constructor
    · rintro (rfl | ⟨member, _⟩)
      · exact absurd rfl same
      · exact member
    · exact fun member => Or.inr ⟨member, same⟩

theorem ncard_active (follows : Follows now entries ledger)
    (unique : (entries.map Entry.key).Nodup) :
    {key | ledger.Active now key}.ncard = (entries.filter fun entry => entry.live now).length := by
  have same : {key | ledger.Active now key} =
      ↑((entries.filter fun entry => entry.live now).map Entry.key).toFinset := by
    ext key
    rw [Set.mem_ofPred_eq, follows.active_iff, Finset.mem_coe, List.mem_toFinset, List.mem_map]
    simp only [List.mem_filter]
    constructor
    · rintro ⟨entry, member, same, live⟩
      exact ⟨entry, ⟨member, live⟩, same⟩
    · rintro ⟨entry, ⟨member, live⟩, same⟩
      exact ⟨entry, member, same, live⟩
  rw [same, Set.ncard_coe_finset, List.toFinset_card_of_nodup
    (unique.sublist (List.filter_sublist.map Entry.key)), List.length_map]

end Follows

/-! ## Caches that follow a ledger -/

namespace TTLLRU

variable [DecidableEq K]

def activeKeys (now : Int) (cache : TTLLRU K V) : Finset K :=
  ((cache.order.filter fun entry => entry.live now).map Entry.key).toFinset

theorem mem_activeKeys_iff (key : K) (now : Int) (cache : TTLLRU K V) :
    key ∈ cache.activeKeys now ↔
      ∃ entry ∈ cache.order, entry.key = key ∧ entry.live now = true := by
  simp only [activeKeys, List.mem_toFinset, List.mem_map, List.mem_filter]
  constructor
  · rintro ⟨entry, ⟨member, live⟩, same⟩
    exact ⟨entry, member, same, live⟩
  · rintro ⟨entry, member, same, live⟩
    exact ⟨entry, ⟨member, live⟩, same⟩

theorem card_activeKeys (now : Int) (cache : TTLLRU K V) :
    (cache.activeKeys now).card = cache.activeLen now := by
  have unique : ((cache.order.filter fun entry => entry.live now).map Entry.key).Nodup :=
    (cache.sweep now).2.unique
  rw [activeKeys, List.toFinset_card_of_nodup unique, List.length_map]
  rfl

omit [DecidableEq K] in
theorem sweep_len (now : Int) (cache : TTLLRU K V) :
    (cache.sweep now).2.len = cache.activeLen now := rfl

omit [DecidableEq K] in
theorem activeLen_le (now : Int) (cache : TTLLRU K V) : cache.activeLen now ≤ cache.maxEntries :=
  (cache.sweep now).2.bounded

end TTLLRU

namespace Follows

variable {now : Int} {cache : TTLLRU K V} {ledger : Ledger K V}

section

variable (follows : Follows now cache.order ledger)

include follows

theorem sweep : Follows now (cache.sweep now).2.order ledger := by
  refine follows.congr ?_
  intro entry live
  rw [TTLLRU.mem_sweep]
  exact and_iff_left live

theorem getAt [DecidableEq K] (key : K) : Follows now (cache.getAt key now).2.order ledger := by
  refine follows.congr ?_
  intro entry live
  rw [TTLLRU.mem_getAt]
  exact and_iff_left fun _ => live

theorem mem_activeKeys_iff [DecidableEq K] (key : K) :
    key ∈ cache.activeKeys now ↔ ledger.Active now key := by
  rw [TTLLRU.mem_activeKeys_iff, follows.active_iff]

theorem ncard_activeLen [DecidableEq K] :
    {key | ledger.Active now key}.ncard = cache.activeLen now :=
  follows.ncard_active cache.unique

end

end Follows

end Libknock.Cache
