import Libknock.Cache.TTLLRU

/-!
# A store of live nonces

What a replay cache is for, without its representation: the history of the
marks it has granted.  A mark is live for `ttl`; a live one is refused, and a
store with as many live ones as its capacity refuses the rest.  A bounded cache
tracks such a store when its unexpired entries are the live marks under an
injective encoding of the keys.
-/

set_option autoImplicit false

namespace Libknock.Cache

open Foundation

inductive Verdict where
  | fresh
  | replayed
  | full
  deriving DecidableEq, Repr

structure NonceStore (Pair : Type) where
  ttl : Int
  capacity : Nat
  marks : List (Pair × Int)

namespace NonceStore

variable {Pair : Type} [DecidableEq Pair]

def new (Pair : Type) (ttl : Int) (capacity : Nat) : NonceStore Pair := ⟨ttl, capacity, []⟩

/-- The pairs marked less than `ttl` before `now`. -/
def live (now : Int) (store : NonceStore Pair) : Finset Pair :=
  ((store.marks.filter fun mark => now - mark.2 < store.ttl).map Prod.fst).toFinset

def check (pair : Pair) (now : Int) (store : NonceStore Pair) : Verdict × NonceStore Pair :=
  if pair ∈ store.live now then (.replayed, store)
  else if store.capacity ≤ (store.live now).card then (.full, store)
  else (.fresh, { store with marks := store.marks ++ [(pair, now)] })

section

variable (pair : Pair) (now : Int) (store : NonceStore Pair)

theorem mem_live_iff :
    pair ∈ store.live now ↔ ∃ marked, (pair, marked) ∈ store.marks ∧ now - marked < store.ttl := by
  simp [live]

@[simp] theorem check_ttl : (store.check pair now).2.ttl = store.ttl := by
  unfold check
  split_ifs <;> rfl

@[simp] theorem check_capacity : (store.check pair now).2.capacity = store.capacity := by
  unfold check
  split_ifs <;> rfl

end

end NonceStore

/-! ## Caches that track a store -/

section Tracking

variable {Pair K : Type} (encode : Pair → K)

/-- From `now` on, the entries of the cache are the marks of the store. -/
def Tracks (now : Int) (cache : TTLLRU K Unit) (store : NonceStore Pair) : Prop :=
  ∀ entry : Entry K Unit, entry.live now = true →
    (entry ∈ cache.order ↔
      ∃ pair, entry.key = encode pair ∧ (pair, entry.expiresAt - store.ttl) ∈ store.marks)

variable {encode} {now : Int} {cache next : TTLLRU K Unit} {store : NonceStore Pair}

theorem Tracks.new (encode : Pair → K) (now ttl maxEntries : Int) (capacity : Nat) :
    Tracks encode now (TTLLRU.new K Unit maxEntries) (NonceStore.new Pair ttl capacity) := by
  intro entry _
  simp [TTLLRU.new, NonceStore.new]

section

variable (tracks : Tracks encode now cache store)

include tracks

theorem Tracks.later {late : Int} (order : now ≤ late) : Tracks encode late cache store := by
  intro entry live
  have unexpired : late < entry.expiresAt := of_decide_eq_true live
  exact tracks entry (decide_eq_true (Int.lt_of_le_of_lt order unexpired))

theorem Tracks.congr (same : ∀ entry : Entry K Unit, entry.live now = true →
      (entry ∈ next.order ↔ entry ∈ cache.order)) : Tracks encode now next store :=
  fun entry live => (same entry live).trans (tracks entry live)

theorem Tracks.sweep : Tracks encode now (cache.sweep now).2 store := by
  refine tracks.congr ?_
  intro entry live
  rw [TTLLRU.mem_sweep]
  exact and_iff_left live

theorem Tracks.getAt [DecidableEq K] (key : K) :
    Tracks encode now (cache.getAt key now).2 store := by
  refine tracks.congr ?_
  intro entry live
  rw [TTLLRU.mem_getAt]
  exact and_iff_left fun _ => live

theorem Tracks.mem_live_iff [DecidableEq Pair] (injective : Function.Injective encode)
    (pair : Pair) :
    pair ∈ store.live now ↔ ∃ entry ∈ cache.order, entry.key = encode pair ∧ entry.live now = true := by
  rw [NonceStore.mem_live_iff]
  constructor
  · rintro ⟨marked, member, recent⟩
    have live : (⟨encode pair, (), marked + store.ttl⟩ : Entry K Unit).live now = true :=
      decide_eq_true (by omega : now < marked + store.ttl)
    refine ⟨_, (tracks _ live).mpr ⟨pair, rfl, ?_⟩, rfl, live⟩
    rw [Int.add_sub_cancel]
    exact member
  · rintro ⟨entry, member, key, live⟩
    obtain ⟨other, same, marked⟩ := (tracks entry live).mp member
    rw [key] at same
    rw [← injective same] at marked
    have unexpired : now < entry.expiresAt := of_decide_eq_true live
    exact ⟨_, marked, by omega⟩

end

variable [DecidableEq Pair] [DecidableEq K]

section

variable (tracks : Tracks encode now cache store) (injective : Function.Injective encode)

include tracks injective

theorem Tracks.card_live : (store.live now).card = cache.activeLen now := by
  have unique : ((cache.order.filter fun entry => entry.live now).map Entry.key).Nodup :=
    cache.unique.sublist (List.filter_sublist.map Entry.key)
  have image : (store.live now).image encode =
      ((cache.order.filter fun entry => entry.live now).map Entry.key).toFinset := by
    ext key
    simp only [Finset.mem_image, tracks.mem_live_iff injective, List.mem_toFinset, List.mem_map,
      List.mem_filter]
    constructor
    · rintro ⟨pair, ⟨entry, member, same, live⟩, rfl⟩
      exact ⟨entry, ⟨member, live⟩, same⟩
    · rintro ⟨entry, ⟨member, live⟩, rfl⟩
      obtain ⟨pair, same, _⟩ := (tracks entry live).mp member
      exact ⟨pair, ⟨entry, member, same, live⟩, same.symm⟩
  calc (store.live now).card
      = ((store.live now).image encode).card := (Finset.card_image_of_injective _ injective).symm
    _ = ((cache.order.filter fun entry => entry.live now).map Entry.key).length := by
        rw [image, List.toFinset_card_of_nodup unique]
    _ = cache.activeLen now := List.length_map _

/-- A full cache only reads: it refuses a live nonce as such and the others for
lack of room. -/
theorem Tracks.check_full (full : store.capacity ≤ cache.activeLen now) (pair : Pair) :
    (store.check pair now).1 =
        (if (cache.getAt (encode pair) now).1.isSome then Verdict.replayed else Verdict.full) ∧
      Tracks encode now (cache.getAt (encode pair) now).2 (store.check pair now).2 := by
  have seen : (cache.getAt (encode pair) now).1.isSome = true ↔ pair ∈ store.live now := by
    rw [TTLLRU.getAt_isSome_iff, tracks.mem_live_iff injective]
  have kept := tracks.getAt (encode pair)
  unfold NonceStore.check
  rw [tracks.card_live injective, if_pos full]
  by_cases live : pair ∈ store.live now
  · rw [if_pos live, if_pos (seen.mpr live)]
    exact ⟨rfl, kept⟩
  · rw [if_neg live, if_neg fun found => live (seen.mp found)]
    exact ⟨rfl, kept⟩

/-- A cache with room marks what is not live, for exactly `ttl`. -/
theorem Tracks.check_room (few : cache.order.length < store.capacity)
    (room : cache.order.length < cache.maxEntries) (pair : Pair)
    (instant : isZero (now + store.ttl) = false) :
    (store.check pair now).1 =
        (if (cache.addIfAbsent (encode pair) () (now + store.ttl) now).1 then Verdict.fresh
          else Verdict.replayed) ∧
      Tracks encode now (cache.addIfAbsent (encode pair) () (now + store.ttl) now).2
        (store.check pair now).2 := by
  have added : (cache.addIfAbsent (encode pair) () (now + store.ttl) now).1 = true ↔
      pair ∉ store.live now := by
    rw [TTLLRU.addIfAbsent_true_iff, tracks.mem_live_iff injective]
    simp only [instant, true_and, not_exists, not_and, Bool.not_eq_true]
  have members := TTLLRU.mem_addIfAbsent (encode pair) () (now + store.ttl) now room
  have active : cache.activeLen now < store.capacity :=
    Nat.lt_of_le_of_lt (List.length_filter_le _ _) few
  unfold NonceStore.check
  rw [tracks.card_live injective, if_neg (Nat.not_le.mpr active)]
  by_cases live : pair ∈ store.live now
  · have refused : ¬ (cache.addIfAbsent (encode pair) () (now + store.ttl) now).1 = true :=
      fun marked => added.mp marked live
    rw [if_pos live, if_neg refused]
    refine ⟨rfl, tracks.congr fun entry _ => ?_⟩
    rw [members, if_neg refused]
  · rw [if_neg live, if_pos (added.mpr live)]
    refine ⟨rfl, fun entry unexpired => ?_⟩
    rw [members, if_pos (added.mpr live)]
    simp only [List.mem_append, List.mem_singleton, Prod.mk.injEq]
    constructor
    · rintro (rfl | ⟨member, _⟩)
      · exact ⟨pair, rfl, Or.inr ⟨rfl, Int.add_sub_cancel now store.ttl⟩⟩
      · obtain ⟨other, same, marked⟩ := (tracks entry unexpired).mp member
        exact ⟨other, same, Or.inl marked⟩
    · rintro ⟨other, same, marked | ⟨rfl, instant⟩⟩
      · right
        refine ⟨(tracks entry unexpired).mpr ⟨other, same, marked⟩, fun key => live ?_⟩
        exact (tracks.mem_live_iff injective pair).mpr
          ⟨entry, (tracks entry unexpired).mpr ⟨other, same, marked⟩, key, unexpired⟩
      · left
        have expiry : entry.expiresAt = now + store.ttl := by omega
        rw [← same, ← expiry]

end

end Tracking

end Libknock.Cache
