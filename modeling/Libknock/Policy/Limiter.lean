import Libknock.Foundation.LinkedMap
import Libknock.Policy.BanList

/-!
# The limiter

`policy/limiter.go` and `policy/window.go`.  A bucket counts the calls of one key
in its current window.  The buckets are in a map by their key and in a list by
their last use; a bucket is known by its list element.  Sweeps range over the map
in any order.
-/

set_option autoImplicit false

namespace Libknock.Policy

open Foundation Cache

structure Window where
  limit : Int
  every : Duration
  deriving DecidableEq

def Window.withDefaults (w : Window) : Window :=
  ⟨if w.limit ≤ 0 then 1 else w.limit, if w.every ≤ 0 then second else w.every⟩

theorem Window.withDefaults_limit (w : Window) : 1 ≤ w.withDefaults.limit := by
  simp only [withDefaults]
  split
  · exact le_refl 1
  · omega

theorem Window.withDefaults_every (w : Window) : 0 < w.withDefaults.every.toInt := by
  simp only [withDefaults]
  split
  · decide
  · rename_i positive
    rw [Int64.le_iff_toInt_le] at positive
    exact not_le.mp positive

structure Bucket where
  key : Bytes
  start : Int
  used : Int
  deriving DecidableEq

def defaultLimiterMaxEntries : Int := 65536

/-- `entries` and `order` are the two halves of `store`. -/
structure Limiter where
  window : Window
  store : LinkedMap Bytes Bucket
  lastSweep : Int
  maxEntries : Int

def limiterKey (key : Bytes) : Bytes := if key = [] then ascii "default" else key

namespace Limiter

def newWithLimit (window : Window) (maxEntries : Int) : Limiter where
  window := window.withDefaults
  store := LinkedMap.new Bytes Bucket
  lastSweep := zeroTime
  maxEntries := if maxEntries ≤ 0 then defaultLimiterMaxEntries else maxEntries

/-- `!now.Before(b.start.Add(l.window.Every))`. -/
def expired (l : Limiter) (now : Int) (b : Bucket) : Bool :=
  addDuration b.start l.window.every ≤ now

def removeBucketLocked (address : Nat) (l : Limiter) : Limiter :=
  { l with store := l.store.removeElement Bucket.key address }

def sweepLocked (order : MapOrder Bytes) (now : Int) (l : Limiter) : Nat × Limiter :=
  let swept := l.store.removeVisits Bucket.key (l.expired now) order
  (swept.1, { l with store := swept.2 })

def sweepInterval (l : Limiter) : Duration :=
  if l.window.every / 2 ≤ 0 ∨ minute < l.window.every / 2 then minute else l.window.every / 2

def sweepPeriodicallyLocked (order : MapOrder Bytes) (now : Int) (l : Limiter) : Limiter :=
  if l.window.every ≤ 0 then l
  else if isZero l.lastSweep then { l with lastSweep := now }
  else if since now l.lastSweep < l.sweepInterval then l
  else { (l.sweepLocked order now).2 with lastSweep := now }

def sweepFull (order : MapOrder Bytes) (now : Int) (l : Limiter) : Limiter :=
  if l.maxEntries ≤ l.store.len then (l.sweepLocked order now).2 else l

/-- `AllowAt` from the point where the sweeps are done. -/
def allowSwept (key : Bytes) (now : Int) (l : Limiter) : Bool × Limiter :=
  match l.store.find key with
  | none =>
    if l.maxEntries ≤ l.store.len then (false, l)
    else (true, { l with store := l.store.insertBack Bucket.key ⟨key, now, 1⟩ })
  | some (address, b) =>
    if l.expired now b then
      (true, { l with
        store := (l.removeBucketLocked address).store.insertBack Bucket.key ⟨key, now, 1⟩ })
    else
      let moved := l.store.moveToBack address
      if l.window.limit ≤ b.used then (false, { l with store := moved })
      else (true, { l with store := moved.setValue address { b with used := b.used + 1 } })

/-- The map is ranged over at most twice, each time in an order of its own. -/
def allowAt (key : Bytes) (now : Int) (periodic demand : MapOrder Bytes) (l : Limiter) :
    Bool × Limiter :=
  ((l.sweepPeriodicallyLocked periodic now).sweepFull demand now).allowSwept (limiterKey key) now

def check (key : Bytes) (now : Int) (periodic demand : MapOrder Bytes) (l : Limiter) :
    Except PolicyError Unit × Limiter :=
  let answer := l.allowAt key now periodic demand
  (if answer.1 then .ok () else .error .rateLimited, answer.2)

def sweep (now : Int) (order : MapOrder Bytes) (l : Limiter) : Nat × Limiter :=
  l.sweepLocked order now

def len (l : Limiter) : Nat := l.store.len

/-! ## Sweeps -/

structure Sound (l : Limiter) : Prop where
  linked : l.store.Linked Bucket.key
  bounded : l.store.len ≤ l.maxEntries
  positive : 0 < l.maxEntries

theorem new_sound (window : Window) (maxEntries : Int) : (newWithLimit window maxEntries).Sound where
  linked := LinkedMap.new_linked Bucket.key
  bounded := by
    simp only [newWithLimit, defaultLimiterMaxEntries]
    split
    · decide
    · have empty : (LinkedMap.new Bytes Bucket).len = 0 := rfl
      omega
  positive := by
    simp only [newWithLimit, defaultLimiterMaxEntries]
    split
    · decide
    · omega

/-- What the sweeps of a call do: buckets whose window has run out may go. -/
structure Swept (now : Int) (l next : Limiter) : Prop where
  sound : next.Sound
  window : next.window = l.window
  capacity : next.maxEntries = l.maxEntries
  fewer : ∀ b ∈ next.store.values, b ∈ l.store.values
  keeps : ∀ b ∈ l.store.values, l.expired now b = false → b ∈ next.store.values

variable {now : Int} {l : Limiter}

theorem Swept.refl (now : Int) (sound : l.Sound) : Swept now l l :=
  ⟨sound, rfl, rfl, fun _ member => member, fun _ member _ => member⟩

theorem Swept.trans {first second third : Limiter} (early : Swept now first second)
    (late : Swept now second third) : Swept now first third where
  sound := late.sound
  window := late.window.trans early.window
  capacity := late.capacity.trans early.capacity
  fewer := fun b member => early.fewer b (late.fewer b member)
  keeps := by
    intro b member open'
    have still : second.expired now b = false := by
      rw [expired, early.window]
      exact open'
    exact late.keeps b (early.keeps b member open') still

variable (order : MapOrder Bytes)

theorem sweepLocked_values (now : Int) (sound : l.Sound) :
    (l.sweepLocked order now).2.store.Linked Bucket.key ∧
      (l.sweepLocked order now).2.store.values =
        l.store.values.filter fun b => !l.expired now b :=
  (sound.linked.removeVisits (l.expired now) order).2

theorem sweepLocked_swept (now : Int) (sound : l.Sound) :
    Swept now l (l.sweepLocked order now).2 := by
  obtain ⟨linked, values⟩ := sweepLocked_values order now sound
  refine ⟨⟨linked, ?_, sound.positive⟩, rfl, rfl, ?_, ?_⟩
  · have shorter := List.length_filter_le (fun b => !l.expired now b) l.store.values
    have before := sound.bounded
    rw [sound.linked.len_eq] at before
    rw [linked.len_eq, values]
    exact le_trans (by exact_mod_cast shorter) before
  · intro b member
    rw [values] at member
    exact (List.mem_filter.mp member).1
  · intro b member current
    rw [values]
    exact List.mem_filter.mpr ⟨member, by simp [current]⟩

theorem sweepPeriodicallyLocked_swept (now : Int) (sound : l.Sound) :
    Swept now l (l.sweepPeriodicallyLocked order now) := by
  unfold sweepPeriodicallyLocked
  split
  · exact Swept.refl now sound
  split
  · exact ⟨⟨sound.linked, sound.bounded, sound.positive⟩, rfl, rfl, fun _ member => member,
      fun _ member _ => member⟩
  · split
    · exact Swept.refl now sound
    · have swept := sweepLocked_swept order now sound
      exact ⟨⟨swept.sound.linked, swept.sound.bounded, swept.sound.positive⟩, rfl, rfl,
        swept.fewer, swept.keeps⟩

theorem sweepFull_swept (now : Int) (sound : l.Sound) :
    Swept now l (l.sweepFull order now) ∧
      ((l.sweepFull order now).maxEntries ≤ (l.sweepFull order now).store.len →
        ∀ b ∈ (l.sweepFull order now).store.values, l.expired now b = false) := by
  unfold sweepFull
  split
  · refine ⟨sweepLocked_swept order now sound, fun _ b member => ?_⟩
    rw [(sweepLocked_values order now sound).2] at member
    simpa using (List.mem_filter.mp member).2
  · rename_i room
    exact ⟨Swept.refl now sound, fun full => absurd full room⟩

/-! ## One call -/

/-- What a call can do once the sweeps are done: it is refused for lack of room,
it opens a window, it is counted in an open one, or it is refused there. -/
inductive Decides (key : Bytes) (now : Int) (l : Limiter) : Bool → Limiter → Prop
  | full (absent : ∀ b ∈ l.store.values, b.key ≠ key) (full : l.maxEntries ≤ l.store.len) :
      Decides key now l false l
  | opened (next : Limiter) (closed : ∀ b ∈ l.store.values, b.key = key → l.expired now b = true)
      (room : (∃ b ∈ l.store.values, b.key = key) ∨ l.store.len < l.maxEntries)
      (members : ∀ b, b ∈ next.store.values ↔
        b = ⟨key, now, 1⟩ ∨ b ∈ l.store.values ∧ b.key ≠ key) :
      Decides key now l true next
  | counted (next : Limiter) (b : Bucket) (member : b ∈ l.store.values) (own : b.key = key)
      (current : l.expired now b = false) (free : b.used < l.window.limit)
      (members : ∀ other, other ∈ next.store.values ↔
        other = { b with used := b.used + 1 } ∨ other ∈ l.store.values ∧ other.key ≠ key) :
      Decides key now l true next
  | spent (next : Limiter) (b : Bucket) (member : b ∈ l.store.values) (own : b.key = key)
      (current : l.expired now b = false) (used : l.window.limit ≤ b.used)
      (members : ∀ other, other ∈ next.store.values ↔ other ∈ l.store.values) :
      Decides key now l false next

theorem Sound.of_store {store : LinkedMap Bytes Bucket} (sound : l.Sound)
    (linked : store.Linked Bucket.key)
    (size : store.values.length ≤ l.store.values.length ∨
      store.values.length ≤ l.store.values.length + 1 ∧ l.store.len < l.maxEntries) :
    ({ l with store := store } : Limiter).Sound := by
  refine ⟨linked, ?_, sound.positive⟩
  have before := sound.bounded
  have length := sound.linked.len_eq
  have after := linked.len_eq
  simp only
  omega

structure Decided (key : Bytes) (now : Int) (l : Limiter) (outcome : Bool × Limiter) : Prop where
  sound : outcome.2.Sound
  window : outcome.2.window = l.window
  capacity : outcome.2.maxEntries = l.maxEntries
  decides : Decides key now l outcome.1 outcome.2

theorem Sound.insertBack (sound : l.Sound) (now : Int) {key : Bytes}
    (absent : ∀ b ∈ l.store.values, b.key ≠ key) (room : l.store.len < l.maxEntries) :
    Decided key now l
      (true, { l with store := l.store.insertBack Bucket.key ⟨key, now, 1⟩ }) := by
  refine ⟨sound.of_store (sound.linked.insertBack ⟨key, now, 1⟩ absent) (Or.inr ⟨?_, room⟩), rfl,
    rfl, .opened _ ?_ (Or.inr room) ?_⟩
  · simp
  · intro b member same
    exact absurd same (absent b member)
  · intro b
    simp only [LinkedMap.insertBack_values, List.mem_append, List.mem_singleton]
    constructor
    · rintro (kept | rfl)
      · exact Or.inr ⟨kept, absent b kept⟩
      · exact Or.inl rfl
    · rintro (rfl | ⟨kept, _⟩)
      · exact Or.inr rfl
      · exact Or.inl kept

theorem Sound.replace (sound : l.Sound) {element : Nat × Bucket}
    (member : element ∈ l.store.order.elements) (closed : l.expired now element.2 = true) :
    Decided element.2.key now l (true, { l with
      store := (l.removeBucketLocked element.1).store.insertBack Bucket.key
        ⟨element.2.key, now, 1⟩ }) := by
  have linked := sound.linked
  have inside : element.2 ∈ l.store.values := List.mem_map_of_mem member
  have left := linked.removeElement_values member
  have absent : ∀ b ∈ (l.store.removeElement Bucket.key element.1).values,
      b.key ≠ element.2.key := by
    intro b kept
    rw [left, List.mem_filter] at kept
    simpa using kept.2
  refine ⟨sound.of_store ((linked.removeElement member).insertBack ⟨element.2.key, now, 1⟩ absent)
    (Or.inl ?_), rfl, rfl, .opened _ ?_ (Or.inl ⟨element.2, inside, rfl⟩) ?_⟩
  · rw [LinkedMap.insertBack_values, List.length_append, List.length_singleton]
    exact (LinkedMap.removeElement_length Bucket.key member).le
  · intro b other same
    rw [linked.eq_of_key other inside same]
    exact closed
  · intro b
    simp only [removeBucketLocked, LinkedMap.insertBack_values, left, List.mem_append,
      List.mem_filter, List.mem_singleton, ne_eq, decide_not, Bool.not_eq_true',
      decide_eq_false_iff_not]
    exact or_comm

theorem Sound.count (sound : l.Sound) {element : Nat × Bucket}
    (member : element ∈ l.store.order.elements) (current : l.expired now element.2 = false)
    (free : element.2.used < l.window.limit) :
    Decided element.2.key now l (true, { l with
      store := (l.store.moveToBack element.1).setValue element.1
        { element.2 with used := element.2.used + 1 } }) := by
  have linked := sound.linked
  have moved := linked.moveToBack member
  have back := LinkedMap.moveToBack_mem member
  have written := moved.setValue back { element.2 with used := element.2.used + 1 } rfl
  refine ⟨sound.of_store written (Or.inl ?_), rfl, rfl,
    .counted _ element.2 (List.mem_map_of_mem member) rfl current free ?_⟩
  · rw [LinkedMap.setValue_length, linked.moveToBack_length member]
  · intro other
    have members := moved.mem_setValue_iff back { element.2 with used := element.2.used + 1 } rfl
      other
    rw [linked.mem_moveToBack_iff member] at members
    exact members

theorem allowSwept_decides (key : Bytes) (now : Int) (sound : l.Sound) :
    Decided key now l (l.allowSwept key now) := by
  have linked := sound.linked
  unfold allowSwept
  cases found : l.store.find key with
  | none =>
    have absent := linked.find_eq_none_iff.mp found
    simp only
    split
    · rename_i full
      exact ⟨sound, rfl, rfl, .full absent full⟩
    · rename_i room
      exact sound.insertBack now absent (not_le.mp room)
  | some element =>
    obtain ⟨member, rfl⟩ := linked.find_mem found
    simp only
    split
    · rename_i closed
      exact sound.replace member closed
    · rename_i current
      have still : l.expired now element.2 = false := by simpa using current
      split
      · rename_i used
        exact ⟨sound.of_store (linked.moveToBack member)
            (Or.inl (linked.moveToBack_length member).le), rfl, rfl,
          .spent _ element.2 (List.mem_map_of_mem member) rfl still used
            (linked.mem_moveToBack_iff member)⟩
      · rename_i free
        exact sound.count member still (not_le.mp free)

/-- The limiter that the decision of a call is taken in. -/
def prepared (now : Int) (periodic demand : MapOrder Bytes) (l : Limiter) : Limiter :=
  (l.sweepPeriodicallyLocked periodic now).sweepFull demand now

theorem prepared_swept (periodic demand : MapOrder Bytes) (now : Int) (sound : l.Sound) :
    Swept now l (l.prepared now periodic demand) ∧
      ((l.prepared now periodic demand).maxEntries ≤ (l.prepared now periodic demand).store.len →
        ∀ b ∈ (l.prepared now periodic demand).store.values, l.expired now b = false) := by
  have first := sweepPeriodicallyLocked_swept periodic now sound
  obtain ⟨second, full⟩ := sweepFull_swept demand now first.sound
  refine ⟨first.trans second, fun crowded b member => ?_⟩
  have current := full crowded b member
  rw [expired, first.window] at current
  exact current

theorem allowAt_decides (key : Bytes) (periodic demand : MapOrder Bytes) (now : Int)
    (sound : l.Sound) :
    Decided (limiterKey key) now (l.prepared now periodic demand)
      (l.allowAt key now periodic demand) :=
  allowSwept_decides (limiterKey key) now (prepared_swept periodic demand now sound).1.sound

end Limiter

end Libknock.Policy
