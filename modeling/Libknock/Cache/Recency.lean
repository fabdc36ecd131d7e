import Libknock.Cache.Elements

/-!
# Runs of the cache

Any sequence of the operations of `internal/cache/ttl_lru.go` on a new cache.
The map and the list stay in step with the model, the list is in the order in
which its keys were last used, and an entry goes for one of three reasons.
-/

set_option autoImplicit false

namespace Libknock.Cache

open Foundation

variable {K V : Type} [DecidableEq K]

inductive CacheCall (K V : Type) where
  | setUntil (key : K) (value : V) (expiresAt : Int)
  | addIfAbsent (key : K) (value : V) (expiresAt now : Int)
  | getAt (key : K) (now : Int)
  | peek (key : K)
  | delete (key : K)
  | deleteExpired (key : K) (now : Int)
  | deleteWhere (drop : Entry K V → Bool)
  | sweep (now : Int)

inductive CacheAnswer (K V : Type) where
  | done
  | flag (answer : Bool)
  | value (found : Option V)
  | entry (found : Option (Entry K V))
  | count (removed : Nat)

variable {m : TTLLRU K V} {keys : List K} {key : K} {expiresAt : Int}

namespace CacheCall

def perform : CacheCall K V → LinkedTTLLRU K V → Option (CacheAnswer K V × LinkedTTLLRU K V)
  | setUntil key value expiresAt, c =>
    (c.setUntil key value expiresAt).map fun next => (.done, next)
  | addIfAbsent key value expiresAt now, c =>
    (c.addIfAbsent key value expiresAt now).map fun result => (.flag result.1, result.2)
  | getAt key now, c => some (.value (c.getAt key now).1, (c.getAt key now).2)
  | peek key, c => some (.entry (c.peek key), c)
  | delete key, c => some (.flag (c.delete key).1, (c.delete key).2)
  | deleteExpired key now, c =>
    some (.flag (c.deleteExpired key now).1, (c.deleteExpired key now).2)
  | deleteWhere drop, c => (c.deleteWhere drop).map fun result => (.count result.1, result.2)
  | sweep now, c => (c.sweep now).map fun result => (.count result.1, result.2)

def apply : CacheCall K V → TTLLRU K V → CacheAnswer K V × TTLLRU K V
  | setUntil key value expiresAt, m => (.done, m.setUntil key value expiresAt)
  | addIfAbsent key value expiresAt now, m =>
    (.flag (m.addIfAbsent key value expiresAt now).1,
      (m.addIfAbsent key value expiresAt now).2)
  | getAt key now, m => (.value (m.getAt key now).1, (m.getAt key now).2)
  | peek key, m => (.entry (m.peek key), m)
  | delete key, m => (.flag (m.delete key).1, (m.delete key).2)
  | deleteExpired key now, m =>
    (.flag (m.deleteExpired key now).1, (m.deleteExpired key now).2)
  | deleteWhere drop, m => (.count (m.deleteWhere drop).1, (m.deleteWhere drop).2)
  | sweep now, m => (.count (m.sweep now).1, (m.sweep now).2)

theorem perform_represents (call : CacheCall K V) {c : LinkedTTLLRU K V}
    (represents : c.Represents m) :
    ∃ next, call.perform c = some ((call.apply m).1, next) ∧
      next.Represents (call.apply m).2 := by
  cases call with
  | setUntil key value expiresAt =>
    obtain ⟨next, result, kept⟩ := represents.setUntil key value expiresAt
    exact ⟨next, by rw [perform, result]; rfl, kept⟩
  | addIfAbsent key value expiresAt now =>
    obtain ⟨next, result, kept⟩ := represents.addIfAbsent key value expiresAt now
    exact ⟨next, by rw [perform, result]; rfl, kept⟩
  | getAt key now =>
    obtain ⟨same, kept⟩ := represents.getAt key now
    exact ⟨_, by rw [perform, same]; rfl, kept⟩
  | peek key => exact ⟨c, by rw [perform, represents.peek]; rfl, represents⟩
  | delete key =>
    obtain ⟨same, kept⟩ := represents.delete key
    exact ⟨_, by rw [perform, same]; rfl, kept⟩
  | deleteExpired key now =>
    obtain ⟨same, kept⟩ := represents.deleteExpired key now
    exact ⟨_, by rw [perform, same]; rfl, kept⟩
  | deleteWhere drop =>
    obtain ⟨next, result, kept⟩ := represents.deleteWhere drop
    exact ⟨next, by rw [perform, result]; rfl, kept⟩
  | sweep now =>
    obtain ⟨next, result, kept⟩ := represents.sweep now
    exact ⟨next, by rw [perform, result]; rfl, kept⟩

end CacheCall

/-! ## Runs -/

structure CacheEvent (K V : Type) where
  call : CacheCall K V
  answer : CacheAnswer K V

def CacheStep (before : LinkedTTLLRU K V) (event : CacheEvent K V) (after : LinkedTTLLRU K V) :
    Prop :=
  event.call.perform before = some (event.answer, after)

def modelRun (m : TTLLRU K V) (calls : List (CacheCall K V)) :
    List (CacheAnswer K V) × TTLLRU K V :=
  calls.foldl (fun past call => (past.1 ++ [(call.apply past.2).1], (call.apply past.2).2)) ([], m)

theorem modelRun_snoc (m : TTLLRU K V) (calls : List (CacheCall K V)) (call : CacheCall K V) :
    modelRun m (calls ++ [call]) =
      ((modelRun m calls).1 ++ [(call.apply (modelRun m calls).2).1],
        (call.apply (modelRun m calls).2).2) := by
  simp [modelRun]

def modelAfter (maxEntries : Int) (events : List (CacheEvent K V)) :
    List (CacheAnswer K V) × TTLLRU K V :=
  modelRun (TTLLRU.new K V maxEntries) (events.map CacheEvent.call)

variable (maxEntries : Int) (events : List (CacheEvent K V))

theorem modelAfter_snoc (past : List (CacheEvent K V)) (event : CacheEvent K V) :
    modelAfter maxEntries (past ++ [event]) =
      ((modelAfter maxEntries past).1 ++ [(event.call.apply (modelAfter maxEntries past).2).1],
        (event.call.apply (modelAfter maxEntries past).2).2) := by
  rw [modelAfter, List.map_append, List.map_singleton, modelRun_snoc]
  rfl

theorem CacheStep.represents {before after : LinkedTTLLRU K V} {event : CacheEvent K V}
    (step : CacheStep before event after) (represents : before.Represents m) :
    event.answer = (event.call.apply m).1 ∧ after.Represents (event.call.apply m).2 := by
  obtain ⟨next, result, kept⟩ := event.call.perform_represents represents
  rw [CacheStep, result] at step
  obtain ⟨same, rfl⟩ := Prod.mk.inj (Option.some.inj step)
  exact ⟨same.symm, kept⟩

theorem run_represents (cache : LinkedTTLLRU K V)
    (run : Run CacheStep (LinkedTTLLRU.new K V maxEntries) events cache) :
    events.map CacheEvent.answer = (modelAfter maxEntries events).1 ∧
      cache.Represents (modelAfter maxEntries events).2 := by
  revert events cache
  refine Run.invariant _ ⟨rfl, LinkedTTLLRU.new_represents K V maxEntries⟩ ?_
  intro past before event after _ ih step
  obtain ⟨answer, kept⟩ := step.represents ih.2
  rw [modelAfter_snoc]
  refine ⟨?_, kept⟩
  rw [List.map_append, ih.1, List.map_singleton, answer]

/-! ## The order of the list -/

/-- The key that an event uses: a set, a read that finds it, or an `AddIfAbsent`,
which sets it or finds it. -/
def CacheEvent.touched (event : CacheEvent K V) : Option K :=
  match event.call, event.answer with
  | .setUntil key _ expiresAt, _ => if isZero expiresAt then none else some key
  | .addIfAbsent key _ expiresAt _, _ => if isZero expiresAt then none else some key
  | .getAt key _, .value (some _) => some key
  | _, _ => none

/-- The number of the last event that used the key, counted from one. -/
def lastTouch (events : List (CacheEvent K V)) (key : K) : Nat :=
  (events.foldl (fun past event =>
    (past.1 + 1, if event.touched = some key then past.1 + 1 else past.2)) (0, 0)).2

theorem touch_count (key : K) :
    (events.foldl (fun past event =>
      (past.1 + 1, if event.touched = some key then past.1 + 1 else past.2)) (0, 0)).1 =
        events.length := by
  induction events using List.reverseRecOn with
  | nil => rfl
  | append_singleton past event ih =>
    rw [List.foldl_append, List.foldl_cons, List.foldl_nil, ih, List.length_append,
      List.length_singleton]

theorem lastTouch_snoc (past : List (CacheEvent K V)) (event : CacheEvent K V) (key : K) :
    lastTouch (past ++ [event]) key =
      if event.touched = some key then past.length + 1 else lastTouch past key := by
  rw [lastTouch, List.foldl_append, List.foldl_cons, List.foldl_nil, touch_count]
  rfl

theorem lastTouch_le (key : K) : lastTouch events key ≤ events.length := by
  induction events using List.reverseRecOn with
  | nil => exact Nat.le_refl 0
  | append_singleton past event ih =>
    rw [lastTouch_snoc, List.length_append, List.length_singleton]
    split
    · exact Nat.le_refl _
    · exact Nat.le_succ_of_le ih

def ByLastTouch (events : List (CacheEvent K V)) (keys : List K) : Prop :=
  keys.Pairwise fun early late => lastTouch events early < lastTouch events late

/-- What a call does to the keys: it uses one and puts it at the back, or it uses
none; the others keep their order. -/
structure Reorders (touched : Option K) (keys next : List K) : Prop where
  unused : touched = none → next.Sublist keys
  used : ∀ key, touched = some key → ∃ kept : List K, kept.Sublist keys ∧ key ∉ kept ∧
    next = kept ++ [key]

omit [DecidableEq K] in
theorem Reorders.of_sublist {next : List K} (sub : next.Sublist keys) : Reorders none keys next :=
  ⟨fun _ => sub, fun key touched => absurd touched.symm (Option.some_ne_none key)⟩

omit [DecidableEq K] in
theorem Reorders.of_back {kept : List K} (sub : kept.Sublist keys) (absent : key ∉ kept) :
    Reorders (some key) keys (kept ++ [key]) := by
  refine ⟨fun touched => absurd touched (Option.some_ne_none key), ?_⟩
  rintro other ⟨⟩
  exact ⟨kept, sub, absent, rfl⟩

namespace TTLLRU

theorem removeElementLocked_keys (key : K) (m : TTLLRU K V) :
    (m.removeElementLocked key).keys.Sublist m.keys := List.filter_sublist.map Entry.key

theorem moveToBack_keys (entry : Entry K V) (m : TTLLRU K V) (present : entry.key ∈ m.keys) :
    (m.moveToBack entry present).keys = (m.removeElementLocked entry.key).keys ++ [entry.key] := by
  simp [keys, moveToBack, pushBack]

theorem setLocked_reorders (key : K) (value : V) (expiresAt : Int) (m : TTLLRU K V) :
    Reorders (some key) m.keys (m.setLocked key value expiresAt).keys := by
  unfold setLocked
  split
  · rename_i present
    rw [moveToBack_keys]
    exact .of_back (removeElementLocked_keys key m) (removeElementLocked_absent key m)
  · rename_i absent
    have pushed : (m.evict.pushBack ⟨key, value, expiresAt⟩ (evict_absent key m absent)
        (evictLoop_length _ m.positive _)).keys = m.evict.keys ++ [key] := by
      simp [keys, pushBack]
    rw [pushed]
    exact .of_back ((evictLoop_sublist _ _).map Entry.key) (evict_absent key m absent)

theorem moveToBack_reorders (entry : Entry K V) (m : TTLLRU K V) (present : entry.key ∈ m.keys) :
    Reorders (some entry.key) m.keys (m.moveToBack entry present).keys := by
  rw [moveToBack_keys]
  exact .of_back (removeElementLocked_keys _ m) (removeElementLocked_absent _ m)

theorem addIfAbsent_reorders (key : K) (value : V) (now : Int) (nonzero : isZero expiresAt = false)
    (m : TTLLRU K V) :
    Reorders (some key) m.keys (m.addIfAbsent key value expiresAt now).2.keys := by
  cases found : m.lookup key with
  | none =>
    rw [addIfAbsent_of_none value now nonzero found]
    exact setLocked_reorders key value expiresAt m
  | some entry =>
    rw [addIfAbsent_of_some value now nonzero found]
    split
    · have moved := moveToBack_reorders entry m (lookup_key found)
      rwa [(lookup_mem found).2] at moved
    · have placed := setLocked_reorders key value expiresAt (m.removeElementLocked key)
      refine ⟨fun touched => absurd touched (Option.some_ne_none key), fun other same => ?_⟩
      obtain ⟨kept, sub, absent, result⟩ := placed.used other same
      exact ⟨kept, sub.trans (removeElementLocked_keys key m), absent, result⟩

end TTLLRU

theorem CacheCall.apply_reorders (call : CacheCall K V) (m : TTLLRU K V) :
    Reorders (CacheEvent.touched ⟨call, (call.apply m).1⟩) m.keys (call.apply m).2.keys := by
  cases call with
  | setUntil key value expiresAt =>
    simp only [CacheEvent.touched, apply, TTLLRU.setUntil]
    split
    · exact .of_sublist (List.Sublist.refl _)
    · exact m.setLocked_reorders key value expiresAt
  | addIfAbsent key value expiresAt now =>
    simp only [CacheEvent.touched, apply]
    split
    · rename_i zero
      simp only [TTLLRU.addIfAbsent, zero, if_true]
      exact .of_sublist (List.Sublist.refl _)
    · rename_i nonzero
      exact m.addIfAbsent_reorders key value now (by simpa using nonzero)
  | getAt key now =>
    simp only [apply]
    cases found : m.lookup key with
    | none =>
      rw [TTLLRU.getAt_of_none now found]
      exact .of_sublist (List.Sublist.refl _)
    | some entry =>
      rw [TTLLRU.getAt_of_some now found]
      split
      · have moved := m.moveToBack_reorders entry (TTLLRU.lookup_key found)
        rwa [(TTLLRU.lookup_mem found).2] at moved
      · exact .of_sublist (m.removeElementLocked_keys key)
  | peek key => exact .of_sublist (List.Sublist.refl _)
  | delete key => exact .of_sublist ((m.delete_sublist key).map Entry.key)
  | deleteExpired key now =>
    simp only [CacheEvent.touched, apply, TTLLRU.deleteExpired]
    split
    · exact .of_sublist (List.Sublist.refl _)
    · split
      · exact .of_sublist (List.Sublist.refl _)
      · exact .of_sublist (m.removeElementLocked_keys key)
  | deleteWhere | sweep => exact .of_sublist (List.filter_sublist.map Entry.key)

theorem Reorders.byLastTouch {past : List (CacheEvent K V)} {event : CacheEvent K V} {next : List K}
    (reorders : Reorders event.touched keys next) (ordered : ByLastTouch past keys) :
    ByLastTouch (past ++ [event]) next := by
  cases touched : event.touched with
  | none =>
    refine (ordered.sublist (reorders.unused touched)).imp ?_
    intro early late before
    simpa [lastTouch_snoc, touched] using before
  | some key =>
    obtain ⟨kept, sub, absent, rfl⟩ := reorders.used key touched
    have other : ∀ early ∈ kept, lastTouch (past ++ [event]) early = lastTouch past early := by
      intro early member
      rw [lastTouch_snoc, if_neg]
      rw [touched]
      rintro ⟨⟩
      exact absent member
    rw [ByLastTouch, List.pairwise_append]
    refine ⟨?_, by simp, ?_⟩
    · refine (ordered.sublist sub).imp_of_mem ?_
      intro early late earlyMember lateMember before
      rw [other early earlyMember, other late lateMember]
      exact before
    · intro early member late single
      rw [List.mem_singleton.mp single, other early member, lastTouch_snoc, if_pos touched]
      exact Nat.lt_succ_of_le (lastTouch_le past early)

theorem model_byLastTouch (cache : LinkedTTLLRU K V)
    (run : Run CacheStep (LinkedTTLLRU.new K V maxEntries) events cache) :
    ByLastTouch events (modelAfter maxEntries events).2.keys := by
  revert events cache
  refine Run.invariant _ List.Pairwise.nil ?_
  intro past before event after run ih step
  have represents := (run_represents maxEntries past before run).2
  have answer := (step.represents represents).1
  have reorders := event.call.apply_reorders (modelAfter maxEntries past).2
  rw [← answer] at reorders
  rw [modelAfter_snoc]
  exact reorders.byLastTouch ih

/-! ## Why an entry goes -/

/-- What a call has to find for an entry to go: it deletes the entry, it finds it
expired, or it inserts a new key into a full cache with the entry in front. -/
def Loses (entries : List (Entry K V)) (capacity : Int) (entry : Entry K V) : CacheCall K V → Prop
  | .setUntil key _ _ => key ∉ entries.map Entry.key ∧ entries.length = capacity ∧
      entries.head? = some entry
  | .addIfAbsent key _ _ _ => key ∉ entries.map Entry.key ∧ entries.length = capacity ∧
      entries.head? = some entry
  | .getAt key now => entry.key = key ∧ entry.live now = false
  | .peek _ => False
  | .delete key => entry.key = key
  | .deleteExpired key now => entry.key = key ∧ entry.live now = false
  | .deleteWhere drop => drop entry = true
  | .sweep now => entry.live now = false

namespace TTLLRU

variable {m : TTLLRU K V} {entry : Entry K V}

omit [DecidableEq K] in
theorem retain_loses (keep : Entry K V → Bool) (member : entry ∈ m.order)
    (gone : entry.key ∉ (m.retain keep).keys) : keep entry = false := by
  cases kept : keep entry with
  | false => rfl
  | true =>
    exact absurd (List.mem_map_of_mem (mem_retain.mpr ⟨member, kept⟩)) gone

theorem removeElementLocked_loses (key : K) (member : entry ∈ m.order)
    (gone : entry.key ∉ (m.removeElementLocked key).keys) : entry.key = key := by
  have dropped := retain_loses _ member gone
  simpa using dropped

theorem moveToBack_loses (moved : Entry K V) (present : moved.key ∈ m.keys)
    (member : entry ∈ m.order) : entry.key ∈ (m.moveToBack moved present).keys := by
  by_cases same : entry.key = moved.key
  · rw [moveToBack_keys, same]
    simp
  · exact List.mem_map_of_mem ((mem_moveToBack present).mpr (Or.inr ⟨member, same⟩))

theorem setLocked_loses {value : V} (member : entry ∈ m.order)
    (gone : entry.key ∉ (m.setLocked key value expiresAt).keys) :
    key ∉ m.keys ∧ m.order.length = m.maxEntries ∧ m.order.head? = some entry := by
  have different : entry.key ≠ key := by
    intro same
    rw [same] at gone
    exact gone (List.mem_map_of_mem (mem_setLocked_self))
  by_cases room : key ∈ m.keys ∨ m.order.length < m.maxEntries
  · have kept := mem_setLocked_of_room value expiresAt room member different
    exact absurd (List.mem_map_of_mem kept) gone
  · rw [not_or, Nat.not_lt] at room
    have full : m.order.length = m.maxEntries := Nat.le_antisymm m.bounded room.2
    refine ⟨room.1, full, ?_⟩
    rw [keys, setLocked_order, if_neg room.1, evictLoop_of_full _ _ full] at gone
    cases order : m.order with
    | nil =>
      rw [order] at member
      cases member
    | cons front rest =>
      rw [order] at member gone
      rcases List.mem_cons.mp member with rfl | later
      · rfl
      · rw [List.tail_cons, List.map_append] at gone
        exact absurd (List.mem_append_left _ (List.mem_map_of_mem later)) gone

theorem addIfAbsent_loses {value : V} {now : Int} (nonzero : isZero expiresAt = false)
    (member : entry ∈ m.order) (gone : entry.key ∉ (m.addIfAbsent key value expiresAt now).2.keys) :
    key ∉ m.keys ∧ m.order.length = m.maxEntries ∧ m.order.head? = some entry := by
  cases found : m.lookup key with
  | none =>
    rw [addIfAbsent_of_none value now nonzero found] at gone
    exact setLocked_loses member gone
  | some stored =>
    rw [addIfAbsent_of_some value now nonzero found] at gone
    split at gone
    · exact absurd (moveToBack_loses stored (lookup_key found) member) gone
    -- the expired entry goes first, so its place is free
    exfalso
    have present : key ∈ m.keys := by
      rw [← (lookup_mem found).2]
      exact lookup_key found
    have room := removeElementLocked_room key m present
    by_cases same : entry.key = key
    · rw [same] at gone
      exact gone (List.mem_map_of_mem (mem_setLocked_self))
    · have left := mem_removeElementLocked.mpr ⟨member, same⟩
      have kept := mem_setLocked_of_room value expiresAt (Or.inr room) left same
      exact gone (List.mem_map_of_mem kept)

end TTLLRU

theorem CacheCall.apply_loses (call : CacheCall K V) {entry : Entry K V} (member : entry ∈ m.order)
    (gone : entry.key ∉ (call.apply m).2.keys) :
    Loses m.order m.maxEntries entry call := by
  have stays : entry.key ∈ m.keys := List.mem_map_of_mem member
  cases call with
  | setUntil key value expiresAt =>
    simp only [apply, TTLLRU.setUntil] at gone
    split at gone
    · exact absurd stays gone
    · obtain ⟨absent, full, front⟩ := TTLLRU.setLocked_loses member gone
      exact ⟨absent, by exact_mod_cast full, front⟩
  | addIfAbsent key value expiresAt now =>
    simp only [apply] at gone
    cases zero : isZero expiresAt with
    | true =>
      simp only [TTLLRU.addIfAbsent, zero, if_true] at gone
      exact absurd stays gone
    | false =>
      obtain ⟨absent, full, front⟩ := TTLLRU.addIfAbsent_loses zero member gone
      exact ⟨absent, by exact_mod_cast full, front⟩
  | getAt key now =>
    simp only [apply] at gone
    cases kept : entry.live now with
    | true =>
      exact absurd (List.mem_map_of_mem (TTLLRU.mem_getAt.mpr ⟨member, fun _ => kept⟩)) gone
    | false =>
      refine ⟨?_, kept⟩
      by_contra different
      exact gone (List.mem_map_of_mem
        (TTLLRU.mem_getAt.mpr ⟨member, fun same => absurd same different⟩))
  | peek key => exact absurd stays gone
  | delete key =>
    by_contra different
    exact gone (List.mem_map_of_mem (TTLLRU.mem_delete.mpr ⟨member, different⟩))
  | deleteExpired key now =>
    simp only [apply, TTLLRU.deleteExpired] at gone
    split at gone
    · exact absurd stays gone
    rename_i stored found
    split at gone
    · exact absurd stays gone
    rename_i expired
    have same := TTLLRU.removeElementLocked_loses key member gone
    obtain ⟨storedMember, storedKey⟩ := TTLLRU.lookup_mem found
    refine ⟨same, ?_⟩
    rw [m.eq_of_key_eq member storedMember (same.trans storedKey.symm)]
    simpa using expired
  | deleteWhere drop =>
    have dropped : drop entry = true := by simpa using TTLLRU.retain_loses _ member gone
    exact dropped
  | sweep now => exact TTLLRU.retain_loses _ member gone

/-! ## The cache after a run -/

theorem exists_run (calls : List (CacheCall K V)) :
    ∃ events cache, events.map CacheEvent.call = calls ∧
      Run CacheStep (LinkedTTLLRU.new K V maxEntries) events cache := by
  induction calls using List.reverseRecOn with
  | nil => exact ⟨[], _, rfl, .nil⟩
  | append_singleton calls call ih =>
    obtain ⟨events, cache, same, run⟩ := ih
    obtain ⟨next, result, _⟩ := call.perform_represents (run_represents maxEntries events cache run).2
    have step : CacheStep cache ⟨call, (call.apply (modelAfter maxEntries events).2).1⟩ next := result
    refine ⟨_, next, ?_, run.snoc step⟩
    rw [List.map_append, same]
    rfl

/-- The map and the list of the source behave as the ordered list of entries
does, over any sequence of the eight operations. -/
theorem cache_refines_model (maxEntries : Int) (calls : List (CacheCall K V)) :
    ∃ (events : List (CacheEvent K V)) (cache : LinkedTTLLRU K V),
      events.map CacheEvent.call = calls ∧
      Run CacheStep (LinkedTTLLRU.new K V maxEntries) events cache ∧
      cache.store.Linked Entry.key ∧ (cache.store.values.map Entry.key).Nodup ∧
      cache.len = cache.store.values.length ∧ cache.len ≤ cache.cap ∧
      ByLastTouch events (cache.store.values.map Entry.key) ∧
      cache.store.values = (modelAfter maxEntries events).2.order ∧
      events.map CacheEvent.answer = (modelAfter maxEntries events).1 ∧
      ∀ call : CacheCall K V, ∃ next,
        call.perform cache = some ((call.apply (modelAfter maxEntries events).2).1, next) ∧
        ∀ entry ∈ cache.store.values, entry.key ∉ next.store.values.map Entry.key →
          Loses cache.store.values cache.cap entry call := by
  obtain ⟨events, cache, same, run⟩ := exists_run maxEntries calls
  obtain ⟨answers, represents⟩ := run_represents maxEntries events cache run
  have ordered := model_byLastTouch maxEntries events cache run
  refine ⟨events, cache, same, run, represents.linked, represents.linked.keys_nodup, ?_, ?_, ?_,
    represents.values, answers, ?_⟩
  · rw [LinkedTTLLRU.len, represents.linked.len_eq]
  · rw [represents.len, represents.cap]
    exact_mod_cast (modelAfter maxEntries events).2.bounded
  · rw [represents.values]
    exact ordered
  · intro call
    obtain ⟨next, result, kept⟩ := call.perform_represents represents
    refine ⟨next, result, ?_⟩
    intro entry member gone
    rw [kept.values] at gone
    rw [represents.values] at member ⊢
    rw [represents.cap]
    exact call.apply_loses member gone

end Libknock.Cache
