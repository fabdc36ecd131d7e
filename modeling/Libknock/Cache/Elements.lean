import Libknock.Foundation.LinkedMap
import Libknock.Foundation.Runs
import Libknock.Cache.TTLLRU

/-!
# The cache as the source builds it

`internal/cache/ttl_lru.go` with its map from keys to list elements and its list
of elements, each operation as the source computes it.  The ordered list of
`Cache.TTLLRU` is its model: every operation returns what the model returns, and
leaves the map and the list with the entries of the model.
-/

set_option autoImplicit false

namespace Libknock.Cache

open Foundation

/-- `entries` and `order` are the two halves of `store`. -/
structure LinkedTTLLRU (K V : Type) where
  store : LinkedMap K (Entry K V)
  maxEntries : Int

namespace LinkedTTLLRU

variable {K V : Type}

def new (K V : Type) (maxEntries : Int) : LinkedTTLLRU K V :=
  ⟨LinkedMap.new K (Entry K V), if maxEntries ≤ 0 then 1 else maxEntries⟩

def len (c : LinkedTTLLRU K V) : Int := c.store.len

def cap (c : LinkedTTLLRU K V) : Int := c.maxEntries

def activeLen (now : Int) (c : LinkedTTLLRU K V) : Option Nat :=
  c.store.order.countWalk (fun entry => entry.live now) c.store.order.elements.length
    c.store.order.front 0

variable [DecidableEq K]

def removeElementLocked (address : Nat) (c : LinkedTTLLRU K V) : LinkedTTLLRU K V :=
  { c with store := c.store.removeElement Entry.key address }

/-- The eviction loop of `setLocked`; `none` where the rounds do not suffice. -/
def evictRounds : Nat → LinkedTTLLRU K V → Option (LinkedTTLLRU K V)
  | 0, c => if c.maxEntries ≤ c.len ∧ c.store.order.front.isSome then none else some c
  | rounds + 1, c =>
    if c.maxEntries ≤ c.len then
      match c.store.order.front with
      | none => some c
      | some address => evictRounds rounds (c.removeElementLocked address)
    else some c

def setLocked (key : K) (value : V) (expiresAt : Int) (c : LinkedTTLLRU K V) :
    Option (LinkedTTLLRU K V) :=
  match c.store.find key with
  | some (address, entry) =>
    some { c with
      store := (c.store.setValue address { entry with value := value, expiresAt := expiresAt
        }).moveToBack address }
  | none =>
    (evictRounds c.store.order.elements.length c).map fun room =>
      { room with store := room.store.insertBack Entry.key ⟨key, value, expiresAt⟩ }

def setUntil (key : K) (value : V) (expiresAt : Int) (c : LinkedTTLLRU K V) :
    Option (LinkedTTLLRU K V) :=
  if isZero expiresAt then some c else c.setLocked key value expiresAt

def addIfAbsent (key : K) (value : V) (expiresAt now : Int) (c : LinkedTTLLRU K V) :
    Option (Bool × LinkedTTLLRU K V) :=
  if isZero expiresAt then some (false, c)
  else
    match c.store.find key with
    | some (address, entry) =>
      if entry.live now then some (false, { c with store := c.store.moveToBack address })
      else
        ((c.removeElementLocked address).setLocked key value expiresAt).map fun next => (true, next)
    | none => (c.setLocked key value expiresAt).map fun next => (true, next)

def peek (key : K) (c : LinkedTTLLRU K V) : Option (Entry K V) :=
  match c.store.find key with
  | none => none
  | some (_, entry) => some entry

def getAt (key : K) (now : Int) (c : LinkedTTLLRU K V) : Option V × LinkedTTLLRU K V :=
  match c.store.find key with
  | none => (none, c)
  | some (address, entry) =>
    if entry.live now then (some entry.value, { c with store := c.store.moveToBack address })
    else (none, c.removeElementLocked address)

def deleteExpired (key : K) (now : Int) (c : LinkedTTLLRU K V) : Bool × LinkedTTLLRU K V :=
  match c.store.find key with
  | none => (false, c)
  | some (address, entry) =>
    if entry.live now then (false, c) else (true, c.removeElementLocked address)

def delete (key : K) (c : LinkedTTLLRU K V) : Bool × LinkedTTLLRU K V :=
  match c.store.find key with
  | none => (false, c)
  | some (address, _) => (true, c.removeElementLocked address)

/-- The loop of `DeleteWhere` and of `Sweep`: from the front, with the next
element taken before the current one may go. -/
def removeLoop (drop : Entry K V → Bool) (c : LinkedTTLLRU K V) : Option (Nat × LinkedTTLLRU K V) :=
  (LinkedMap.removeWalk Entry.key drop c.store.order.elements.length c.store.order.front 0
    c.store).map fun result => (result.1, { c with store := result.2 })

def deleteWhere (drop : Entry K V → Bool) (c : LinkedTTLLRU K V) :
    Option (Nat × LinkedTTLLRU K V) := c.removeLoop drop

def sweep (now : Int) (c : LinkedTTLLRU K V) : Option (Nat × LinkedTTLLRU K V) :=
  c.removeLoop fun entry => !entry.live now

end LinkedTTLLRU

/-! ## Equations of the model -/

namespace TTLLRU

variable {K V : Type} [DecidableEq K] {key : K} {m : TTLLRU K V} {entry : Entry K V}

theorem getAt_of_none (now : Int) (absent : m.lookup key = none) : m.getAt key now = (none, m) := by
  unfold getAt
  split
  · rfl
  · rename_i found
    rw [absent] at found
    cases found

theorem getAt_of_some (now : Int) (found : m.lookup key = some entry) :
    m.getAt key now = if entry.live now then
        (some entry.value, m.moveToBack entry (lookup_key found))
      else (none, m.removeElementLocked key) := by
  unfold getAt
  split
  · rename_i absent
    rw [found] at absent
    cases absent
  · rename_i other sought
    rw [found] at sought
    cases sought
    rfl

theorem addIfAbsent_of_none (value : V) {expiresAt : Int} (now : Int)
    (nonzero : isZero expiresAt = false) (absent : m.lookup key = none) :
    m.addIfAbsent key value expiresAt now = (true, m.setLocked key value expiresAt) := by
  unfold addIfAbsent
  rw [if_neg (by simp [nonzero])]
  split
  · rename_i found
    rw [absent] at found
    cases found
  · rfl

theorem addIfAbsent_of_some (value : V) {expiresAt : Int} (now : Int)
    (nonzero : isZero expiresAt = false) (found : m.lookup key = some entry) :
    m.addIfAbsent key value expiresAt now =
      if entry.live now then (false, m.moveToBack entry (lookup_key found))
      else (true, (m.removeElementLocked key).setLocked key value expiresAt) := by
  unfold addIfAbsent
  rw [if_neg (by simp [nonzero])]
  split
  · rename_i other sought
    rw [found] at sought
    cases sought
    rfl
  · rename_i absent
    rw [found] at absent
    cases absent

theorem removeElementLocked_order (key : K) (m : TTLLRU K V) :
    (m.removeElementLocked key).order = m.order.filter fun entry => entry.key ≠ key := rfl

theorem moveToBack_order (entry : Entry K V) (m : TTLLRU K V) (present : entry.key ∈ m.keys) :
    (m.moveToBack entry present).order =
      m.order.filter (fun other => other.key ≠ entry.key) ++ [entry] := rfl

end TTLLRU

/-! ## What the elements stand for -/

namespace LinkedTTLLRU

variable {K V : Type} [DecidableEq K]

/-- The map and the list are linked and hold the entries of the model. -/
structure Represents (c : LinkedTTLLRU K V) (m : TTLLRU K V) : Prop where
  linked : c.store.Linked Entry.key
  values : c.store.values = m.order
  capacity : c.maxEntries = m.maxEntries

variable {c : LinkedTTLLRU K V} {m : TTLLRU K V}

theorem new_represents (K V : Type) [DecidableEq K] (maxEntries : Int) :
    (new K V maxEntries).Represents (TTLLRU.new K V maxEntries) where
  linked := LinkedMap.new_linked Entry.key
  values := rfl
  capacity := by
    simp only [new, TTLLRU.new]
    split
    · rfl
    · omega

section

variable (represents : c.Represents m)

include represents

theorem Represents.len : c.len = m.len := by
  rw [LinkedTTLLRU.len, represents.linked.len_eq, represents.values]
  rfl

theorem Represents.cap : c.cap = m.cap := represents.capacity

theorem Represents.activeLen (now : Int) : c.activeLen now = some (m.activeLen now) := by
  have values : c.store.order.values = m.order := represents.values
  rw [LinkedTTLLRU.activeLen, LinkedList.countWalk_eq, values]
  rfl

theorem Represents.lookup (key : K) : m.lookup key = (c.store.find key).map Prod.snd := by
  rw [represents.linked.find_value, represents.values]
  rfl

theorem Represents.lookup_none {key : K} (missing : c.store.find key = none) :
    m.lookup key = none := by
  rw [represents.lookup, missing]
  rfl

end

variable {element : Nat × Entry K V}

theorem Represents.lookup_some (represents : c.Represents m) {key : K}
    (found : c.store.find key = some element) :
    element ∈ c.store.order.elements ∧ element.2.key = key ∧ m.lookup key = some element.2 := by
  obtain ⟨member, same⟩ := represents.linked.find_mem found
  refine ⟨member, same, ?_⟩
  rw [represents.lookup, found]
  rfl

/-! ## Each operation -/

theorem Represents.removeElementLocked (represents : c.Represents m)
    (member : element ∈ c.store.order.elements) :
    (c.removeElementLocked element.1).Represents (m.removeElementLocked element.2.key) where
  linked := represents.linked.removeElement member
  values := by
    rw [TTLLRU.removeElementLocked_order, ← represents.values]
    exact represents.linked.removeElement_values member
  capacity := represents.capacity

theorem Represents.moveToBack (represents : c.Represents m)
    (member : element ∈ c.store.order.elements) (present : element.2.key ∈ m.keys) :
    ({ c with store := c.store.moveToBack element.1 } : LinkedTTLLRU K V).Represents
      (m.moveToBack element.2 present) where
  linked := represents.linked.moveToBack member
  values := by
    rw [TTLLRU.moveToBack_order, ← represents.values]
    exact represents.linked.moveToBack_values member
  capacity := represents.capacity

theorem evictRounds_eq (entries : List (Entry K V)) :
    ∀ (rounds : Nat) (c : LinkedTTLLRU K V), c.store.Linked Entry.key →
      c.store.values = entries → entries.length ≤ rounds → ∀ capacity : Nat,
      c.maxEntries = capacity →
      ∃ next, evictRounds rounds c = some next ∧ next.store.Linked Entry.key ∧
        next.store.values = evictLoop capacity entries ∧ next.maxEntries = capacity := by
  induction entries with
  | nil =>
    intro rounds c linked values _ capacity same
    have empty : c.store.order.elements = [] := List.map_eq_nil_iff.mp values
    have front : c.store.order.front = none := by simp [LinkedList.front, empty]
    refine ⟨c, ?_, linked, values, same⟩
    cases rounds with
    | zero => simp [evictRounds, front]
    | succ rounds =>
      rw [evictRounds, front]
      split
      · rfl
      · rfl
  | cons first rest ih =>
    intro rounds c linked values enough capacity same
    cases rounds with
    | zero => simp at enough
    | succ rounds =>
      have length : c.len = rest.length + 1 := by
        rw [LinkedTTLLRU.len, linked.len_eq, values]
        simp
      rw [evictRounds, evictLoop, length, same]
      by_cases full : capacity ≤ rest.length + 1
      · rw [if_pos full, if_pos (by omega)]
        -- the front of the list holds the first entry
        obtain ⟨element, others, split, held, tail⟩ :=
          List.map_eq_cons_iff.mp (show c.store.order.elements.map Prod.snd = _ from values)
        have front : c.store.order.front = some element.1 := by
          simp [LinkedList.front, split]
        have member : element ∈ c.store.order.elements := by simp [split]
        have value := (LinkedList.value_eq_some_iff element.1 c.store.order element.2).mpr member
        have left : (c.removeElementLocked element.1).store.values = rest := by
          simp only [LinkedTTLLRU.removeElementLocked, LinkedMap.removeElement, value,
            LinkedMap.values, LinkedList.values]
          rw [@LinkedList.remove_of_split _ c.store.order [] others element split]
          exact tail
        rw [front]
        simp only [List.length_cons] at enough
        obtain ⟨next, result, kept⟩ := ih rounds (c.removeElementLocked element.1)
          (linked.removeElement member) left (by omega) capacity same
        exact ⟨next, result, kept⟩
      · rw [if_neg full, if_neg (by omega)]
        exact ⟨c, rfl, linked, values, same⟩

section

variable (represents : c.Represents m)

include represents

theorem Represents.setLocked (key : K) (value : V) (expiresAt : Int) :
    ∃ next, c.setLocked key value expiresAt = some next ∧
      next.Represents (m.setLocked key value expiresAt) := by
  unfold LinkedTTLLRU.setLocked
  cases found : c.store.find key with
  | some element =>
    obtain ⟨member, same, known⟩ := represents.lookup_some found
    have present : key ∈ m.keys := by
      rw [← same]
      exact TTLLRU.lookup_key known
    have written := LinkedMap.setValue_mem (⟨element.2.key, value, expiresAt⟩ : Entry K V) member
    have linked := represents.linked.setValue member ⟨element.2.key, value, expiresAt⟩ rfl
    have others := @LinkedMap.setValue_others _ _ _ Entry.key _ _ member
      ⟨element.2.key, value, expiresAt⟩ rfl
    have moved := linked.moveToBack_values written
    have back := linked.moveToBack written
    refine ⟨_, rfl, back, ?_, ?_⟩
    · rw [TTLLRU.setLocked_order, if_pos present, TTLLRU.removeElementLocked_order, ← same,
        ← represents.values]
      exact moved.trans (by rw [others])
    · rw [TTLLRU.setLocked_maxEntries]
      exact represents.capacity
  | none =>
    have missing := represents.linked.find_eq_none_iff.mp found
    have absent : key ∉ m.keys := by
      intro inside
      obtain ⟨entry, member, same⟩ := List.mem_map.mp inside
      rw [← represents.values] at member
      exact missing entry member same
    have enough : m.order.length ≤ c.store.order.elements.length := by
      rw [← represents.values]
      simp [LinkedMap.values, LinkedList.values]
    obtain ⟨room, result, linked, values, capacity⟩ := evictRounds_eq m.order
      c.store.order.elements.length c represents.linked represents.values enough m.maxEntries
      represents.capacity
    simp only
    rw [result]
    refine ⟨_, rfl, linked.insertBack _ ?_, ?_, ?_⟩
    · intro other member
      rw [values] at member
      have inside := (evictLoop_sublist _ _).subset member
      rw [← represents.values] at inside
      exact missing other inside
    · rw [TTLLRU.setLocked_order, if_neg absent, LinkedMap.insertBack_values, values]
    · rw [TTLLRU.setLocked_maxEntries]
      exact capacity

theorem Represents.setUntil (key : K) (value : V) (expiresAt : Int) :
    ∃ next, c.setUntil key value expiresAt = some next ∧
      next.Represents (m.setUntil key value expiresAt) := by
  unfold LinkedTTLLRU.setUntil TTLLRU.setUntil
  split
  · exact ⟨c, rfl, represents⟩
  · exact represents.setLocked key value expiresAt

theorem Represents.addIfAbsent (key : K) (value : V) (expiresAt now : Int) :
    ∃ next, c.addIfAbsent key value expiresAt now =
        some ((m.addIfAbsent key value expiresAt now).1, next) ∧
      next.Represents (m.addIfAbsent key value expiresAt now).2 := by
  cases zero : isZero expiresAt with
  | true =>
    refine ⟨c, ?_, ?_⟩
    · simp [LinkedTTLLRU.addIfAbsent, TTLLRU.addIfAbsent, zero]
    · simpa [TTLLRU.addIfAbsent, zero] using represents
  | false =>
    unfold LinkedTTLLRU.addIfAbsent
    rw [if_neg (by simp [zero])]
    cases found : c.store.find key with
    | none =>
      obtain ⟨next, result, kept⟩ := represents.setLocked key value expiresAt
      rw [TTLLRU.addIfAbsent_of_none value now zero (represents.lookup_none found)]
      simp only
      rw [result]
      exact ⟨next, rfl, kept⟩
    | some element =>
      obtain ⟨member, same, known⟩ := represents.lookup_some found
      rw [TTLLRU.addIfAbsent_of_some value now zero known]
      cases live : element.2.live now with
      | true =>
        rw [if_pos rfl]
        simp only
        rw [if_pos live]
        exact ⟨_, rfl, represents.moveToBack member _⟩
      | false =>
        have removed := represents.removeElementLocked member
        rw [same] at removed
        obtain ⟨next, result, kept⟩ := removed.setLocked key value expiresAt
        rw [if_neg (by simp)]
        simp only
        rw [if_neg (by simp [live]), result]
        exact ⟨next, rfl, kept⟩

theorem Represents.peek (key : K) : c.peek key = m.peek key := by
  rw [TTLLRU.peek, represents.lookup, LinkedTTLLRU.peek]
  cases c.store.find key with
  | none => rfl
  | some element => rfl

theorem Represents.getAt (key : K) (now : Int) :
    (c.getAt key now).1 = (m.getAt key now).1 ∧
      (c.getAt key now).2.Represents (m.getAt key now).2 := by
  unfold LinkedTTLLRU.getAt
  cases found : c.store.find key with
  | none =>
    rw [TTLLRU.getAt_of_none now (represents.lookup_none found)]
    exact ⟨rfl, represents⟩
  | some element =>
    obtain ⟨member, same, known⟩ := represents.lookup_some found
    rw [TTLLRU.getAt_of_some now known]
    simp only
    split
    · exact ⟨rfl, represents.moveToBack member (TTLLRU.lookup_key known)⟩
    · refine ⟨rfl, ?_⟩
      rw [← same]
      exact represents.removeElementLocked member

theorem Represents.deleteExpired (key : K) (now : Int) :
    (c.deleteExpired key now).1 = (m.deleteExpired key now).1 ∧
      (c.deleteExpired key now).2.Represents (m.deleteExpired key now).2 := by
  unfold LinkedTTLLRU.deleteExpired TTLLRU.deleteExpired
  cases found : c.store.find key with
  | none =>
    rw [represents.lookup_none found]
    exact ⟨rfl, represents⟩
  | some element =>
    obtain ⟨member, same, known⟩ := represents.lookup_some found
    rw [known]
    simp only
    split
    · exact ⟨rfl, represents⟩
    · refine ⟨rfl, ?_⟩
      rw [← same]
      exact represents.removeElementLocked member

theorem Represents.delete (key : K) :
    (c.delete key).1 = (m.delete key).1 ∧ (c.delete key).2.Represents (m.delete key).2 := by
  unfold LinkedTTLLRU.delete TTLLRU.delete
  cases found : c.store.find key with
  | none =>
    rw [represents.lookup_none found]
    exact ⟨rfl, represents⟩
  | some element =>
    obtain ⟨member, same, known⟩ := represents.lookup_some found
    rw [known]
    refine ⟨rfl, ?_⟩
    simp only
    rw [← same]
    exact represents.removeElementLocked member

theorem Represents.removeLoop (drop : Entry K V → Bool) :
    ∃ next, c.removeLoop drop = some ((m.order.filter drop).length, next) ∧
      next.Represents (m.retain fun entry => !drop entry) := by
  obtain ⟨next, result, linked, values⟩ := represents.linked.removeWalk drop
  refine ⟨{ c with store := next }, ?_, linked, ?_, represents.capacity⟩
  · rw [LinkedTTLLRU.removeLoop, result, represents.values]
    rfl
  · rw [values, represents.values]
    rfl

theorem Represents.deleteWhere (drop : Entry K V → Bool) :
    ∃ next, c.deleteWhere drop = some ((m.deleteWhere drop).1, next) ∧
      next.Represents (m.deleteWhere drop).2 := by
  obtain ⟨next, result, kept⟩ := represents.removeLoop drop
  refine ⟨next, ?_, kept⟩
  rw [LinkedTTLLRU.deleteWhere, result]
  simp [TTLLRU.deleteWhere, TTLLRU.removedBy]

theorem Represents.sweep (now : Int) :
    ∃ next, c.sweep now = some ((m.sweep now).1, next) ∧ next.Represents (m.sweep now).2 := by
  obtain ⟨next, result, kept⟩ := represents.removeLoop fun entry => !entry.live now
  refine ⟨next, result, ?_⟩
  simpa [TTLLRU.sweep] using kept

end

end LinkedTTLLRU

end Libknock.Cache
