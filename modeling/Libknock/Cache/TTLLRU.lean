import Libknock.Foundation.Clock

/-!
# The bounded TTL/LRU cache

`internal/cache/ttl_lru.go`.  The map from keys to list elements and the list
of elements are one ordered list here, least recently used first: a key is in
the map exactly when an entry of the list carries it.  The structure carries
what the source keeps implicit, that keys are unique and that the list never
outgrows the capacity, so each operation is a function between such values.
-/

set_option autoImplicit false

namespace Libknock.Cache

open Foundation

structure Entry (K V : Type) where
  key : K
  value : V
  expiresAt : Int
  deriving DecidableEq

/-- `entry.ExpiresAt.After(now)`. -/
def Entry.live {K V : Type} (entry : Entry K V) (now : Int) : Bool := now < entry.expiresAt

structure TTLLRU (K V : Type) where
  order : List (Entry K V)
  maxEntries : Nat
  positive : 0 < maxEntries
  unique : (order.map Entry.key).Nodup
  bounded : order.length ≤ maxEntries

/-- The eviction loop of `setLocked`: while the cache is full its front goes. -/
def evictLoop {K V : Type} (maxEntries : Nat) : List (Entry K V) → List (Entry K V)
  | [] => []
  | front :: rest =>
    if maxEntries ≤ rest.length + 1 then evictLoop maxEntries rest else front :: rest

variable {K V : Type} (maxEntries : Nat)

theorem evictLoop_suffix (order : List (Entry K V)) :
    ∃ evicted, order = evicted ++ evictLoop maxEntries order := by
  induction order with
  | nil => exact ⟨[], rfl⟩
  | cons front rest ih =>
    rw [evictLoop]
    split
    · obtain ⟨evicted, split⟩ := ih
      exact ⟨front :: evicted, by rw [List.cons_append, ← split]⟩
    · exact ⟨[], rfl⟩

theorem evictLoop_sublist (order : List (Entry K V)) :
    (evictLoop maxEntries order).Sublist order := by
  obtain ⟨evicted, split⟩ := evictLoop_suffix maxEntries order
  exact (List.sublist_append_right evicted _).trans (by rw [← split])

theorem evictLoop_length (positive : 0 < maxEntries)
    (order : List (Entry K V)) : (evictLoop maxEntries order).length < maxEntries := by
  induction order with
  | nil => exact positive
  | cons front rest ih =>
    rw [evictLoop]
    split
    · exact ih
    · simp only [List.length_cons]
      omega

theorem evictLoop_of_room {maxEntries : Nat} {order : List (Entry K V)}
    (room : order.length < maxEntries) : evictLoop maxEntries order = order := by
  cases order with
  | nil => rfl
  | cons front rest =>
    rw [evictLoop, if_neg]
    simp only [List.length_cons] at room
    omega

namespace TTLLRU

variable {K V : Type}

def new (K V : Type) (maxEntries : Int) : TTLLRU K V where
  order := []
  maxEntries := if maxEntries ≤ 0 then 1 else maxEntries.toNat
  positive := by split <;> omega
  unique := List.nodup_nil
  bounded := Nat.zero_le _

def keys (cache : TTLLRU K V) : List K := cache.order.map Entry.key

def len (cache : TTLLRU K V) : Nat := cache.order.length

def cap (cache : TTLLRU K V) : Nat := cache.maxEntries

def activeLen (now : Int) (cache : TTLLRU K V) : Nat :=
  (cache.order.filter fun entry => entry.live now).length

def retain (keep : Entry K V → Bool) (cache : TTLLRU K V) : TTLLRU K V where
  order := cache.order.filter keep
  maxEntries := cache.maxEntries
  positive := cache.positive
  unique := cache.unique.sublist (List.filter_sublist.map Entry.key)
  bounded := (List.length_filter_le keep cache.order).trans cache.bounded

def evict (cache : TTLLRU K V) : TTLLRU K V where
  order := evictLoop cache.maxEntries cache.order
  maxEntries := cache.maxEntries
  positive := cache.positive
  unique := cache.unique.sublist ((evictLoop_sublist _ _).map Entry.key)
  bounded := (evictLoop_length _ cache.positive _).le

def pushBack (entry : Entry K V) (cache : TTLLRU K V) (absent : entry.key ∉ cache.keys)
    (room : cache.order.length < cache.maxEntries) : TTLLRU K V where
  order := cache.order ++ [entry]
  maxEntries := cache.maxEntries
  positive := cache.positive
  unique := by
    rw [List.map_append, List.nodup_append]
    refine ⟨cache.unique, by simp, ?_⟩
    intro key member other single same
    simp only [List.map_cons, List.map_nil, List.mem_singleton] at single
    subst single
    subst same
    exact absent member
  bounded := by
    simp only [List.length_append, List.length_singleton]
    omega

/-- Writing through the pointer an entry holds: the value changes in place. -/
def updateValue (change : Entry K V → V) (cache : TTLLRU K V) : TTLLRU K V where
  order := cache.order.map fun entry => { entry with value := change entry }
  maxEntries := cache.maxEntries
  positive := cache.positive
  unique := by
    rw [List.map_map]
    exact cache.unique
  bounded := by simpa using cache.bounded

variable [DecidableEq K]

/-- `c.entries[key]`. -/
def lookup (key : K) (cache : TTLLRU K V) : Option (Entry K V) :=
  cache.order.find? fun entry => entry.key = key

def removeElementLocked (key : K) (cache : TTLLRU K V) : TTLLRU K V :=
  cache.retain fun entry => entry.key ≠ key

theorem removeElementLocked_absent (key : K) (cache : TTLLRU K V) :
    key ∉ (cache.removeElementLocked key).keys := by
  simp [keys, removeElementLocked, retain]

theorem removeElementLocked_room (key : K) (cache : TTLLRU K V) (present : key ∈ cache.keys) :
    (cache.removeElementLocked key).order.length < cache.maxEntries := by
  have fewer : (cache.removeElementLocked key).order.length < cache.order.length := by
    obtain ⟨entry, member, same⟩ := List.mem_map.mp present
    refine List.length_filter_lt_length_iff_exists.mpr ⟨entry, member, ?_⟩
    simp [same]
  exact Nat.lt_of_lt_of_le fewer cache.bounded

/-- `MoveToBack` of the element that carries the entry's key, with the entry
written into it. -/
def moveToBack (entry : Entry K V) (cache : TTLLRU K V) (present : entry.key ∈ cache.keys) :
    TTLLRU K V :=
  (cache.removeElementLocked entry.key).pushBack entry
    (removeElementLocked_absent entry.key cache) (removeElementLocked_room entry.key cache present)

omit [DecidableEq K] in
theorem evict_absent (key : K) (cache : TTLLRU K V) (absent : key ∉ cache.keys) :
    key ∉ cache.evict.keys := fun member =>
  absent (((evictLoop_sublist _ _).map Entry.key).subset member)

def setLocked (key : K) (value : V) (expiresAt : Int) (cache : TTLLRU K V) : TTLLRU K V :=
  if present : key ∈ cache.keys then
    cache.moveToBack ⟨key, value, expiresAt⟩ present
  else
    cache.evict.pushBack ⟨key, value, expiresAt⟩ (evict_absent key cache present)
      (evictLoop_length _ cache.positive _)

def setUntil (key : K) (value : V) (expiresAt : Int) (cache : TTLLRU K V) : TTLLRU K V :=
  if isZero expiresAt then cache else cache.setLocked key value expiresAt

variable {cache : TTLLRU K V} {entry : Entry K V} {key : K}

theorem lookup_mem (found : cache.lookup key = some entry) :
    entry ∈ cache.order ∧ entry.key = key := by
  refine ⟨List.mem_of_find?_eq_some found, ?_⟩
  simpa using List.find?_some found

theorem lookup_key (found : cache.lookup key = some entry) : entry.key ∈ cache.keys :=
  List.mem_map_of_mem (lookup_mem found).1

def addIfAbsent (key : K) (value : V) (expiresAt now : Int) (cache : TTLLRU K V) :
    Bool × TTLLRU K V :=
  if isZero expiresAt then (false, cache)
  else
    match found : cache.lookup key with
    | some entry =>
      if entry.live now then (false, cache.moveToBack entry (lookup_key found))
      else (true, (cache.removeElementLocked key).setLocked key value expiresAt)
    | none => (true, cache.setLocked key value expiresAt)

def peek (key : K) (cache : TTLLRU K V) : Option (Entry K V) := cache.lookup key

def getAt (key : K) (now : Int) (cache : TTLLRU K V) : Option V × TTLLRU K V :=
  match found : cache.lookup key with
  | none => (none, cache)
  | some entry =>
    if entry.live now then
      (some entry.value, cache.moveToBack entry (lookup_key found))
    else (none, cache.removeElementLocked key)

def deleteExpired (key : K) (now : Int) (cache : TTLLRU K V) : Bool × TTLLRU K V :=
  match cache.lookup key with
  | none => (false, cache)
  | some entry => if entry.live now then (false, cache) else (true, cache.removeElementLocked key)

def delete (key : K) (cache : TTLLRU K V) : Bool × TTLLRU K V :=
  match cache.lookup key with
  | none => (false, cache)
  | some _ => (true, cache.removeElementLocked key)

omit [DecidableEq K] in
def removedBy (keep : Entry K V → Bool) (cache : TTLLRU K V) : Nat :=
  (cache.order.filter fun entry => !keep entry).length

def deleteWhere (drop : Entry K V → Bool) (cache : TTLLRU K V) : Nat × TTLLRU K V :=
  (cache.removedBy fun entry => !drop entry, cache.retain fun entry => !drop entry)

def sweep (now : Int) (cache : TTLLRU K V) : Nat × TTLLRU K V :=
  (cache.removedBy fun entry => entry.live now, cache.retain fun entry => entry.live now)

/-! ## Membership after each operation -/

omit [DecidableEq K] in
theorem eq_of_key_eq (cache : TTLLRU K V) {left right : Entry K V} (leftMember : left ∈ cache.order)
    (rightMember : right ∈ cache.order) (same : left.key = right.key) : left = right :=
  List.inj_on_of_nodup_map cache.unique leftMember rightMember same

theorem lookup_eq_some_iff :
    cache.lookup key = some entry ↔ entry ∈ cache.order ∧ entry.key = key := by
  constructor
  · exact lookup_mem
  rintro ⟨member, rfl⟩
  have present : (cache.lookup entry.key).isSome := by
    rw [lookup, List.find?_isSome]
    exact ⟨entry, member, by simp⟩
  obtain ⟨other, found⟩ := Option.isSome_iff_exists.mp present
  obtain ⟨otherMember, same⟩ := lookup_mem found
  rw [found, cache.eq_of_key_eq otherMember member same]

theorem lookup_eq_none_iff : cache.lookup key = none ↔ ∀ entry ∈ cache.order, entry.key ≠ key := by
  simp [lookup]

omit [DecidableEq K] in
theorem mem_retain {keep : Entry K V → Bool} :
    entry ∈ (cache.retain keep).order ↔ entry ∈ cache.order ∧ keep entry = true :=
  List.mem_filter

omit [DecidableEq K] in
theorem mem_sweep {now : Int} :
    entry ∈ (cache.sweep now).2.order ↔ entry ∈ cache.order ∧ entry.live now = true :=
  mem_retain

omit [DecidableEq K] in
theorem mem_deleteWhere {drop : Entry K V → Bool} :
    entry ∈ (cache.deleteWhere drop).2.order ↔ entry ∈ cache.order ∧ drop entry = false := by
  simp [deleteWhere, mem_retain]

omit [DecidableEq K] in
theorem mem_updateValue (change : Entry K V → V) (cache : TTLLRU K V) (entry : Entry K V) :
    entry ∈ (cache.updateValue change).order ↔
      ∃ old ∈ cache.order, { old with value := change old } = entry :=
  List.mem_map

theorem mem_removeElementLocked :
    entry ∈ (cache.removeElementLocked key).order ↔ entry ∈ cache.order ∧ entry.key ≠ key := by
  simp [removeElementLocked, mem_retain]

theorem mem_moveToBack {moved : Entry K V} (present : moved.key ∈ cache.keys) :
    entry ∈ (cache.moveToBack moved present).order ↔
      entry = moved ∨ entry ∈ cache.order ∧ entry.key ≠ moved.key := by
  simp only [moveToBack, pushBack, List.mem_append, mem_removeElementLocked, List.mem_singleton]
  exact or_comm

theorem mem_moveToBack_self {moved : Entry K V} (present : moved.key ∈ cache.keys)
    (member : moved ∈ cache.order) :
    entry ∈ (cache.moveToBack moved present).order ↔ entry ∈ cache.order := by
  rw [mem_moveToBack]
  constructor
  · rintro (rfl | ⟨kept, _⟩)
    · exact member
    · exact kept
  · intro kept
    by_cases same : entry.key = moved.key
    · exact Or.inl (cache.eq_of_key_eq kept member same)
    · exact Or.inr ⟨kept, same⟩

section

variable (key : K) (value : V) (expiresAt : Int) (cache : TTLLRU K V)

theorem setLocked_order :
    (cache.setLocked key value expiresAt).order =
      (if key ∈ cache.keys then (cache.removeElementLocked key).order
        else evictLoop cache.maxEntries cache.order) ++ [⟨key, value, expiresAt⟩] := by
  unfold setLocked
  split
  · rfl
  · rfl

@[simp] theorem setLocked_maxEntries :
    (cache.setLocked key value expiresAt).maxEntries = cache.maxEntries := by
  unfold setLocked
  split
  · rfl
  · rfl

variable {key value expiresAt cache} in
theorem mem_setLocked_self :
    ⟨key, value, expiresAt⟩ ∈ (cache.setLocked key value expiresAt).order := by
  rw [setLocked_order]
  simp

end

theorem mem_of_mem_setLocked {value : V} {expiresAt : Int}
    (member : entry ∈ (cache.setLocked key value expiresAt).order) :
    entry = ⟨key, value, expiresAt⟩ ∨ entry ∈ cache.order ∧ entry.key ≠ key := by
  rw [setLocked_order] at member
  rcases List.mem_append.mp member with kept | added
  · right
    split at kept
    · exact mem_removeElementLocked.mp kept
    rename_i absent
    have inside := (evictLoop_sublist _ _).subset kept
    refine ⟨inside, ?_⟩
    rintro rfl
    exact absent (List.mem_map_of_mem inside)
  · exact Or.inl (List.mem_singleton.mp added)

/-- Nothing is evicted when the key is present or there is room. -/
theorem mem_setLocked_of_room (value : V) (expiresAt : Int)
    (room : key ∈ cache.keys ∨ cache.order.length < cache.maxEntries) (member : entry ∈ cache.order)
    (other : entry.key ≠ key) :
    entry ∈ (cache.setLocked key value expiresAt).order := by
  rw [setLocked_order]
  refine List.mem_append_left _ ?_
  split
  · exact mem_removeElementLocked.mpr ⟨member, other⟩
  · rename_i absent
    rw [evictLoop_of_room (room.resolve_left absent)]
    exact member

theorem mem_setLocked_iff {value : V} {expiresAt : Int}
    (room : key ∈ cache.keys ∨ cache.order.length < cache.maxEntries) :
    entry ∈ (cache.setLocked key value expiresAt).order ↔
      entry = ⟨key, value, expiresAt⟩ ∨ entry ∈ cache.order ∧ entry.key ≠ key := by
  constructor
  · exact mem_of_mem_setLocked
  · rintro (rfl | ⟨member, other⟩)
    · exact mem_setLocked_self
    · exact mem_setLocked_of_room value expiresAt room member other

theorem setLocked_length_le (key : K) (value : V) (expiresAt : Int) (cache : TTLLRU K V) :
    (cache.setLocked key value expiresAt).order.length ≤ cache.order.length + 1 := by
  rw [setLocked_order, List.length_append, List.length_singleton]
  split
  · exact Nat.succ_le_succ (List.length_filter_le _ _)
  · exact Nat.succ_le_succ (evictLoop_sublist _ _).length_le

theorem removeElementLocked_length (present : key ∈ cache.keys) :
    (cache.removeElementLocked key).order.length + 1 = cache.order.length := by
  have once : cache.order.countP (fun entry => entry.key == key) = 1 := by
    have counted := List.count_eq_one_of_mem cache.unique present
    rw [List.count_eq_countP, List.countP_map] at counted
    exact counted
  have others : (cache.removeElementLocked key).order =
      cache.order.filter fun entry => !(entry.key == key) := by
    refine List.filter_congr fun entry _ => ?_
    by_cases same : entry.key = key
    · simp [same]
    · simp [same]
  have split := @List.length_eq_length_filter_add _ cache.order fun entry => entry.key == key
  rw [← List.countP_eq_length_filter, once] at split
  rw [others]
  omega

theorem moveToBack_length {moved : Entry K V} (present : moved.key ∈ cache.keys) :
    (cache.moveToBack moved present).order.length = cache.order.length := by
  rw [← removeElementLocked_length present]
  simp only [moveToBack, pushBack, List.length_append, List.length_singleton]

theorem mem_delete :
    entry ∈ (cache.delete key).2.order ↔ entry ∈ cache.order ∧ entry.key ≠ key := by
  unfold delete
  split
  · rename_i absent
    constructor
    · intro member
      exact ⟨member, lookup_eq_none_iff.mp absent entry member⟩
    · intro kept
      exact kept.1
  · exact mem_removeElementLocked

theorem mem_live_of_none {now : Int} (absent : cache.lookup key = none) :
    entry ∈ cache.order ∧ (entry.key = key → entry.live now = true) ↔ entry ∈ cache.order :=
  and_iff_left_of_imp fun member same => absurd same (lookup_eq_none_iff.mp absent entry member)

theorem mem_live_of_some {now : Int} {stored : Entry K V} (found : cache.lookup key = some stored) :
    entry ∈ cache.order ∧ (entry.key = key → entry.live now = true) ↔
      entry ∈ cache.order ∧ (entry.key = key → stored.live now = true) := by
  obtain ⟨storedMember, storedKey⟩ := lookup_mem found
  refine and_congr_right fun member => forall_congr' fun same => ?_
  rw [cache.eq_of_key_eq member storedMember (same.trans storedKey.symm)]

theorem mem_getAt {now : Int} :
    entry ∈ (cache.getAt key now).2.order ↔
      entry ∈ cache.order ∧ (entry.key = key → entry.live now = true) := by
  unfold getAt
  split
  · rename_i absent
    exact (mem_live_of_none absent).symm
  · rename_i stored found
    rw [mem_live_of_some found]
    split
    · rename_i live
      rw [mem_moveToBack_self _ (lookup_mem found).1]
      simp [live]
    · rename_i expired
      rw [mem_removeElementLocked]
      simp [expired]

theorem addIfAbsent_true_iff {value : V} {expiresAt now : Int} :
    (cache.addIfAbsent key value expiresAt now).1 = true ↔
      isZero expiresAt = false ∧ ∀ entry ∈ cache.order, entry.key = key → entry.live now = false := by
  unfold addIfAbsent
  split
  · rename_i zero
    simp [zero]
  · rename_i nonzero
    have instant : isZero expiresAt = false := by simpa using nonzero
    split
    · rename_i stored found
      obtain ⟨storedMember, storedKey⟩ := lookup_mem found
      split
      · rename_i live
        simp only [Bool.false_eq_true, false_iff, not_and]
        intro _ allExpired
        have := allExpired stored storedMember storedKey
        rw [live] at this
        cases this
      · rename_i expired
        simp only [true_iff]
        refine ⟨instant, ?_⟩
        intro entry member same
        rw [cache.eq_of_key_eq member storedMember (same.trans storedKey.symm)]
        simpa using expired
    · rename_i absent
      have different := lookup_eq_none_iff.mp absent
      simp only [true_iff]
      exact ⟨instant, fun entry member same => absurd same (different entry member)⟩

section

variable (key : K)

theorem delete_fst (cache : TTLLRU K V) : (cache.delete key).1 = (cache.lookup key).isSome := by
  unfold delete
  split
  · rename_i absent
    rw [absent]
    rfl
  · rename_i entry found
    rw [found]
    rfl

theorem delete_sublist (cache : TTLLRU K V) : (cache.delete key).2.order.Sublist cache.order := by
  unfold delete
  split
  · exact List.Sublist.refl _
  · exact List.filter_sublist

@[simp] theorem delete_maxEntries (cache : TTLLRU K V) :
    (cache.delete key).2.maxEntries = cache.maxEntries := by
  unfold delete
  split
  · rfl
  · rfl

theorem getAt_length (now : Int) (cache : TTLLRU K V) :
    (cache.getAt key now).2.order.length ≤ cache.order.length := by
  unfold getAt
  split
  · exact Nat.le_refl _
  · rename_i stored found
    split
    · exact (moveToBack_length (lookup_key found)).le
    · exact List.length_filter_le _ _

@[simp] theorem getAt_maxEntries (now : Int) (cache : TTLLRU K V) :
    (cache.getAt key now).2.maxEntries = cache.maxEntries := by
  unfold getAt
  split
  · rfl
  · split
    · rfl
    · rfl

theorem getAt_isSome_iff (now : Int) (cache : TTLLRU K V) :
    (cache.getAt key now).1.isSome = true ↔
      ∃ entry ∈ cache.order, entry.key = key ∧ entry.live now = true := by
  unfold getAt
  split
  · rename_i absent
    have different := lookup_eq_none_iff.mp absent
    simp only [Option.isSome_none, Bool.false_eq_true, false_iff, not_exists, not_and]
    exact fun entry member same => absurd same (different entry member)
  · rename_i stored found
    obtain ⟨storedMember, storedKey⟩ := lookup_mem found
    split
    · rename_i live
      simp only [Option.isSome_some, true_iff]
      exact ⟨stored, storedMember, storedKey, live⟩
    · rename_i expired
      simp only [Option.isSome_none, Bool.false_eq_true, false_iff, not_exists, not_and]
      intro entry member same
      rw [cache.eq_of_key_eq member storedMember (same.trans storedKey.symm)]
      exact expired

theorem addIfAbsent_adds (value : V) (expiresAt now : Int) (cache : TTLLRU K V)
    (added : (cache.addIfAbsent key value expiresAt now).1 = true) :
    ⟨key, value, expiresAt⟩ ∈ (cache.addIfAbsent key value expiresAt now).2.order := by
  unfold addIfAbsent at added ⊢
  split at added
  · cases added
  rename_i nonzero
  rw [if_neg nonzero]
  split at added
  · split at added
    · cases added
    rename_i expired
    rw [if_neg expired]
    exact mem_setLocked_self
  · exact mem_setLocked_self

theorem mem_addIfAbsent (value : V) (expiresAt now : Int)
    (room : cache.order.length < cache.maxEntries) (entry : Entry K V) :
    entry ∈ (cache.addIfAbsent key value expiresAt now).2.order ↔
      if (cache.addIfAbsent key value expiresAt now).1 = true then
        entry = ⟨key, value, expiresAt⟩ ∨ entry ∈ cache.order ∧ entry.key ≠ key
      else entry ∈ cache.order := by
  unfold addIfAbsent
  split
  · simp
  split
  · rename_i stored found
    split
    · simp only [Bool.false_eq_true, if_false]
      exact mem_moveToBack_self _ (lookup_mem found).1
    · rw [mem_setLocked_iff]
      · simp only [if_true, mem_removeElementLocked]
        tauto
      · exact Or.inr (Nat.lt_of_le_of_lt (List.length_filter_le _ _) room)
  · rw [mem_setLocked_iff (Or.inr room)]
    simp only [if_true]

theorem addIfAbsent_keeps (value : V) (expiresAt now : Int) (cache : TTLLRU K V)
    (room : cache.order.length < cache.maxEntries) (entry : Entry K V)
    (member : entry ∈ cache.order) (live : entry.live now = true) :
    entry ∈ (cache.addIfAbsent key value expiresAt now).2.order := by
  rw [mem_addIfAbsent key value expiresAt now room entry]
  split
  · rename_i added
    obtain ⟨_, expired⟩ := addIfAbsent_true_iff.mp added
    refine Or.inr ⟨member, ?_⟩
    intro same
    rw [expired entry member same] at live
    cases live
  · exact member

theorem addIfAbsent_length (value : V) (expiresAt now : Int) (cache : TTLLRU K V) :
    (cache.addIfAbsent key value expiresAt now).2.order.length ≤
      cache.order.length + (cache.addIfAbsent key value expiresAt now).1.toNat := by
  unfold addIfAbsent
  split
  · exact Nat.le_add_right _ _
  split
  · rename_i stored found
    split
    · exact (moveToBack_length (lookup_key found)).le
    have shorter := List.length_filter_le (fun entry : Entry K V => decide (entry.key ≠ key))
      cache.order
    have grown := setLocked_length_le key value expiresAt (cache.removeElementLocked key)
    simp only [removeElementLocked, retain] at grown ⊢
    exact grown.trans (Nat.succ_le_succ shorter)
  · exact setLocked_length_le key value expiresAt cache

@[simp] theorem addIfAbsent_maxEntries (value : V) (expiresAt now : Int) (cache : TTLLRU K V) :
    (cache.addIfAbsent key value expiresAt now).2.maxEntries = cache.maxEntries := by
  unfold addIfAbsent
  split
  · rfl
  split
  · split
    · rfl
    · rw [setLocked_maxEntries]
      rfl
  · exact setLocked_maxEntries key value expiresAt cache

end

/-! ## Caches in the order of expiry

Where every entry is set to expire the same time after it is set, the list is
in the order of expiry, and eviction takes expired entries first. -/

def ExpiryOrdered (cache : TTLLRU K V) : Prop :=
  (cache.order.map Entry.expiresAt).Pairwise (· ≤ ·)

omit [DecidableEq K] in
theorem evictLoop_of_full (maxEntries : Nat) (order : List (Entry K V))
    (full : order.length = maxEntries) : evictLoop maxEntries order = order.tail := by
  cases order with
  | nil => rfl
  | cons front rest =>
    simp only [List.length_cons] at full
    rw [evictLoop, if_pos (by omega), evictLoop_of_room (by omega), List.tail_cons]

omit [DecidableEq K] in
theorem activeLen_of_live {now : Int} (live : ∀ entry ∈ cache.order, entry.live now = true) :
    cache.activeLen now = cache.order.length := by
  rw [activeLen, List.filter_eq_self.mpr live]

theorem mem_setLocked_of_live (key : K) (value : V) (expiresAt now : Int) (cache : TTLLRU K V)
    (ordered : cache.ExpiryOrdered) (room : cache.activeLen now < cache.maxEntries)
    (entry : Entry K V) (member : entry ∈ cache.order) (live : entry.live now = true)
    (other : entry.key ≠ key) : entry ∈ (cache.setLocked key value expiresAt).order := by
  by_cases present : key ∈ cache.keys
  · exact mem_setLocked_of_room value expiresAt (Or.inl present) member other
  by_cases full : cache.order.length < cache.maxEntries
  · exact mem_setLocked_of_room value expiresAt (Or.inr full) member other
  rw [setLocked_order, if_neg present]
  apply List.mem_append_left
  have bounded := cache.bounded
  rw [evictLoop_of_full _ _ (by omega)]
  unfold ExpiryOrdered at ordered
  cases order : cache.order with
  | nil =>
    rw [order] at member
    cases member
  | cons front rest =>
    rw [order] at member ordered
    rcases List.mem_cons.mp member with rfl | later
    · -- the front is the first to expire, so all entries would be live
      rw [List.map_cons, List.pairwise_cons] at ordered
      have allLive : ∀ others ∈ cache.order, others.live now = true := by
        intro others othersMember
        rw [order] at othersMember
        rcases List.mem_cons.mp othersMember with rfl | later
        · exact live
        · have first := ordered.1 others.expiresAt (List.mem_map_of_mem later)
          have early : now < entry.expiresAt := of_decide_eq_true live
          exact decide_eq_true (Int.lt_of_lt_of_le early first)
      have all := activeLen_of_live allLive
      omega
    · exact later

theorem setLocked_expiryOrdered (key : K) (value : V) (expiresAt : Int) (cache : TTLLRU K V)
    (ordered : cache.ExpiryOrdered) (latest : ∀ entry ∈ cache.order, entry.expiresAt ≤ expiresAt) :
    (cache.setLocked key value expiresAt).ExpiryOrdered := by
  have kept : ((if key ∈ cache.keys then (cache.removeElementLocked key).order
      else evictLoop cache.maxEntries cache.order)).Sublist cache.order := by
    split
    · exact List.filter_sublist
    · exact evictLoop_sublist _ _
  rw [ExpiryOrdered, setLocked_order, List.map_append, List.pairwise_append]
  refine ⟨ordered.sublist (kept.map _), by simp, ?_⟩
  intro early earlyMember late lateMember
  obtain ⟨entry, member, rfl⟩ := List.mem_map.mp earlyMember
  simp only [List.map_cons, List.map_nil, List.mem_singleton] at lateMember
  rw [lateMember]
  exact latest entry (kept.subset member)

end TTLLRU

end Libknock.Cache
