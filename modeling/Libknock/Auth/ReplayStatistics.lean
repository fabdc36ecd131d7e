import Libknock.Foundation.Runs
import Libknock.Auth.ReplayStore
import Libknock.Cache.Elements

/-!
# What the replay cache says about itself

`Len` returns a counter that `CheckAndMark` keeps beside the store.  A sweep sets it
to what the store holds, and a mark counts it up.  A mark whose key is still in the
store, expired but not yet swept, takes the place of that entry and counts up all the
same, so that the counter runs ahead until the next sweep.
-/

set_option autoImplicit false

namespace Libknock.Auth

open Foundation Cache

namespace MemoryReplayCache

variable {c : MemoryReplayCache} {clientID nonce : Bytes} {now : Int}

/-- `Len` is the number of entries in the store, and at most `Cap`. -/
structure Exact (c : MemoryReplayCache) : Prop where
  stored : c.len = c.entries.len
  bounded : (c.len : Int) ≤ c.cap

/-- No sweep is due and the cache is not full. -/
def Unswept (c : MemoryReplayCache) (now : Int) : Prop :=
  (isZero c.nextSweep = true ∨ now < c.nextSweep) ∧ (c.active : Int) < c.maxEntries

/-- A mark finds an expired entry under its own key. -/
def Replaces (c : MemoryReplayCache) (clientID nonce : Bytes) (now : Int) : Prop :=
  c.Unswept now ∧ isZero (addDuration now c.ttl) = false ∧
    ∃ entry ∈ c.entries.order, entry.key = replayKey clientID nonce ∧ entry.live now = false

/-! ## The store -/

theorem addIfAbsent_len {key : Bytes} {expiresAt : Int} {entries : TTLLRU Bytes Unit}
    (room : entries.len < entries.maxEntries) (now : Int) :
    (entries.addIfAbsent key () expiresAt now).2.len =
      if (entries.addIfAbsent key () expiresAt now).1 = true ∧ key ∉ entries.keys then
        entries.len + 1
      else entries.len := by
  unfold TTLLRU.len at room ⊢
  cases dated : isZero expiresAt with
  | true => simp [TTLLRU.addIfAbsent, dated]
  | false =>
    cases found : entries.lookup key with
    | none =>
      have absent : key ∉ entries.keys := by
        intro present
        obtain ⟨entry, member, same⟩ := List.mem_map.mp present
        exact TTLLRU.lookup_eq_none_iff.mp found entry member same
      rw [TTLLRU.addIfAbsent_of_none () now dated found, if_pos ⟨rfl, absent⟩,
        TTLLRU.setLocked_order, if_neg absent, evictLoop_of_room room, List.length_append,
        List.length_singleton]
    | some entry =>
      have present : key ∈ entries.keys := by
        obtain ⟨member, same⟩ := TTLLRU.lookup_mem found
        exact same ▸ List.mem_map_of_mem member
      rw [if_neg fun both => both.2 present, TTLLRU.addIfAbsent_of_some () now dated found]
      split
      · exact TTLLRU.moveToBack_length (TTLLRU.lookup_key found)
      have removed := TTLLRU.removeElementLocked_length present
      have still : (entries.removeElementLocked key).order.length <
          (entries.removeElementLocked key).maxEntries := by
        show _ < entries.maxEntries
        omega
      rw [TTLLRU.setLocked_order, if_neg (TTLLRU.removeElementLocked_absent key entries),
        evictLoop_of_room still, List.length_append, List.length_singleton, removed]

theorem getAt_len_of_live {entries : TTLLRU Bytes Unit} (key : Bytes)
    (live : ∀ entry ∈ entries.order, entry.live now = true) :
    (entries.getAt key now).2.len = entries.len := by
  cases found : entries.lookup key with
  | none => rw [TTLLRU.getAt_of_none now found]
  | some entry =>
    rw [TTLLRU.getAt_of_some now found, if_pos (live entry (TTLLRU.lookup_mem found).1)]
    exact TTLLRU.moveToBack_length (TTLLRU.lookup_key found)

/-! ## The sweeps before a check -/

theorem Exact.sweepAndSchedule (exact_ : c.Exact) (now : Int) : (c.sweepAndSchedule now).Exact := by
  refine ⟨rfl, ?_⟩
  have fewer : (c.entries.sweep now).2.len ≤ c.entries.len := List.length_filter_le _ _
  have bounded := exact_.bounded
  rw [exact_.stored] at bounded
  exact le_trans (Int.ofNat_le.mpr fewer) bounded

theorem Exact.sweepDue (exact_ : c.Exact) (now : Int) : (c.sweepDue now).Exact := by
  unfold MemoryReplayCache.sweepDue
  split
  · exact ⟨exact_.stored, exact_.bounded⟩
  split
  · exact exact_
  · exact exact_.sweepAndSchedule now

theorem Exact.sweepFull (exact_ : c.Exact) (now : Int) : (c.sweepFull now).Exact := by
  unfold MemoryReplayCache.sweepFull
  split
  · exact exact_.sweepAndSchedule now
  · exact exact_

theorem sweepAndSchedule_live :
    ∀ entry ∈ (c.sweepAndSchedule now).entries.order, entry.live now = true :=
  fun _ member => (TTLLRU.mem_sweep.mp member).2

theorem sweepFull_live (live : ∀ entry ∈ c.entries.order, entry.live now = true) :
    ∀ entry ∈ (c.sweepFull now).entries.order, entry.live now = true := by
  unfold sweepFull
  split
  · exact sweepAndSchedule_live
  · exact live

theorem sweeps_cases (now : Int) (c : MemoryReplayCache) :
    (c.Unswept now ∧ ((c.sweepDue now).sweepFull now).entries = c.entries ∧
        ((c.sweepDue now).sweepFull now).active = c.active) ∨
      (¬ c.Unswept now ∧
        ∀ entry ∈ ((c.sweepDue now).sweepFull now).entries.order, entry.live now = true) := by
  by_cases early : isZero c.nextSweep = true ∨ now < c.nextSweep
  · have same : (c.sweepDue now).entries = c.entries ∧ (c.sweepDue now).active = c.active ∧
        (c.sweepDue now).maxEntries = c.maxEntries := by
      unfold sweepDue
      split
      · exact ⟨rfl, rfl, rfl⟩
      · rename_i dated
        rw [if_pos (early.resolve_left dated)]
        exact ⟨rfl, rfl, rfl⟩
    by_cases room : (c.active : Int) < c.maxEntries
    · refine Or.inl ⟨⟨early, room⟩, ?_⟩
      rw [sweepFull, same.2.1, same.2.2, if_neg (not_le.mpr room)]
      exact ⟨same.1, same.2.1⟩
    · refine Or.inr ⟨fun unswept => room unswept.2, ?_⟩
      rw [sweepFull, same.2.1, same.2.2, if_pos (not_lt.mp room)]
      exact sweepAndSchedule_live
  · refine Or.inr ⟨fun unswept => early unswept.1, ?_⟩
    apply sweepFull_live
    rw [not_or] at early
    rw [sweepDue, if_neg early.1, if_neg early.2]
    exact sweepAndSchedule_live

theorem sweeps_full_live (now : Int) (c : MemoryReplayCache)
    (full : ((c.sweepDue now).sweepFull now).maxEntries ≤ ((c.sweepDue now).sweepFull now).active) :
    ∀ entry ∈ ((c.sweepDue now).sweepFull now).entries.order, entry.live now = true := by
  generalize c.sweepDue now = due at full ⊢
  unfold sweepFull at full ⊢
  split at full
  · rename_i crowded
    rw [if_pos crowded]
    exact sweepAndSchedule_live
  · rename_i room
    exact absurd full room

/-! ## One call -/

theorem replaces_iff {ready : MemoryReplayCache} (lifetime : ready.ttl = c.ttl)
    (cases_ : (c.Unswept now ∧ ready.entries = c.entries ∧ ready.active = c.active) ∨
      (¬ c.Unswept now ∧ ∀ entry ∈ ready.entries.order, entry.live now = true))
    (added : (ready.entries.addIfAbsent (replayKey clientID nonce) () (addDuration now ready.ttl)
      now).1 = true) :
    c.Replaces clientID nonce now ↔ replayKey clientID nonce ∈ ready.entries.keys := by
  obtain ⟨dated, expired⟩ := TTLLRU.addIfAbsent_true_iff.mp added
  constructor
  · rintro ⟨unswept, _, entry, member, own, _⟩
    rcases cases_ with ⟨_, same, _⟩ | ⟨swept, _⟩
    · rw [same, ← own]
      exact List.mem_map_of_mem member
    · exact absurd unswept swept
  · intro present
    obtain ⟨entry, member, own⟩ := List.mem_map.mp present
    rcases cases_ with ⟨unswept, same, _⟩ | ⟨_, live⟩
    · refine ⟨unswept, lifetime ▸ dated, entry, same ▸ member, own, expired entry member own⟩
    · have dead := expired entry member own
      rw [live entry member] at dead
      cases dead

theorem not_replaces {ready : MemoryReplayCache} (lifetime : ready.ttl = c.ttl)
    (same : c.Unswept now → ready.entries = c.entries)
    (refused : (ready.entries.addIfAbsent (replayKey clientID nonce) () (addDuration now ready.ttl)
      now).1 = false) : ¬ c.Replaces clientID nonce now := by
  rintro ⟨unswept, dated, entry, member, own, dead⟩
  rw [← Bool.not_eq_true, TTLLRU.addIfAbsent_true_iff] at refused
  refine refused ⟨lifetime ▸ dated, ?_⟩
  rw [same unswept]
  intro other inside also
  rw [c.entries.eq_of_key_eq inside member (also.trans own.symm)]
  exact dead

/-- A check keeps the counter exact unless it replaces an expired entry. -/
theorem Exact.checkAndMark_iff (exact_ : c.Exact) (counted : c.Counted) :
    (c.checkAndMark clientID nonce now).2.Exact ↔ ¬ c.Replaces clientID nonce now := by
  have started := (exact_.sweepDue now).sweepFull now
  have swept := sweeps_swept now c counted
  have capacity := swept.counted.capacity
  have lifetime := swept.ttl
  have cases_ := sweeps_cases now c
  have fullLive := sweeps_full_live now c
  unfold checkAndMark
  dsimp only
  generalize (c.sweepDue now).sweepFull now = ready at started capacity lifetime cases_ fullLive ⊢
  have stored : ready.active = ready.entries.len := started.stored
  have bounded : (ready.active : Int) ≤ ready.maxEntries := started.bounded
  split
  · -- A full cache reads its entry, if any.
    rename_i full
    have kept := getAt_len_of_live (replayKey clientID nonce) (fullLive full)
    refine iff_of_true ?_ ?_
    · split
      · rename_i entries read
        rw [read] at kept
        exact ⟨stored.trans kept.symm, bounded⟩
      · rename_i entries read
        rw [read] at kept
        exact ⟨stored.trans kept.symm, bounded⟩
    · rintro ⟨unswept, _⟩
      rcases cases_ with ⟨_, entries, active⟩ | ⟨swept, _⟩
      · have limit : ready.maxEntries = c.maxEntries := by
          rw [← capacity, entries, counted.capacity]
        have room := unswept.2
        omega
      · exact swept unswept
  · rename_i free
    have room : ready.entries.len < ready.entries.maxEntries := by omega
    have grown := @addIfAbsent_len (replayKey clientID nonce) (addDuration now ready.ttl)
      ready.entries room now
    split
    · rename_i entries outcome
      have refused := congrArg Prod.fst outcome
      rw [outcome, if_neg (by simp)] at grown
      refine iff_of_true ⟨stored.trans grown.symm, bounded⟩ (not_replaces lifetime ?_ refused)
      intro unswept
      exact (cases_.resolve_right fun swept => swept.1 unswept).2.1
    · rename_i entries outcome
      have added := congrArg Prod.fst outcome
      rw [replaces_iff lifetime cases_ added]
      rw [outcome] at grown
      constructor
      · intro after present
        have counter : ready.active + 1 = entries.len := after.stored
        rw [if_neg fun both => both.2 present] at grown
        dsimp only at grown
        omega
      · intro absent
        rw [if_pos ⟨rfl, absent⟩] at grown
        refine ⟨?_, ?_⟩
        · show ready.active + 1 = entries.len
          dsimp only at grown
          omega
        · show ((ready.active + 1 : Nat) : Int) ≤ ready.maxEntries
          omega

/-! ## Runs -/

theorem call_counted (counted : c.Counted) (step : ReplayCall) : (c.call step).2.Counted := by
  cases step with
  | checkAndMark check =>
    exact (checkAndMark_swept check.clientID check.nonce check.now counted).counted
  | sweep now => exact sweepAndSchedule_counted now c counted

end MemoryReplayCache

open MemoryReplayCache

def ReplayCall.Replaces (c : MemoryReplayCache) : ReplayCall → Prop
  | .checkAndMark check => c.Replaces check.clientID check.nonce check.now
  | .sweep _ => False

def CallsReplay (c : MemoryReplayCache) (step : ReplayCall) (next : MemoryReplayCache) : Prop :=
  (c.call step).2 = next

theorem runReplay_counted {start : MemoryReplayCache} (counted : start.Counted) :
    ∀ past c, Run CallsReplay start past c → c.Counted := by
  apply Run.invariant
  · exact counted
  · intro past before step after _ held call
    subst call
    exact call_counted held step

theorem newWithLimit_exact (ttl : Duration) (maxEntries : Int) :
    (newWithLimit ttl maxEntries).Exact := by
  refine ⟨rfl, ?_⟩
  show ((0 : Nat) : Int) ≤ if maxEntries ≤ 0 then defaultReplayCacheMaxEntries else maxEntries
  split
  · decide
  · omega

/-- `Len` is exact throughout in exactly the runs in which no check replaces an entry
that has expired since the last sweep. -/
theorem replay_statistics_exact_iff (ttl : Duration) (maxEntries : Int) (past : List ReplayCall)
    (c : MemoryReplayCache) :
    Run (Reaching Exact CallsReplay) (newWithLimit ttl maxEntries) past c ↔
      Run (Along (fun c step => ¬ step.Replaces c) CallsReplay) (newWithLimit ttl maxEntries) past
        c := by
  apply Run.reaching_iff (newWithLimit_exact ttl maxEntries)
  intro past before step after run exact_ call
  subst call
  have counted := runReplay_counted (newWithLimit_counted ttl maxEntries) past before run
  cases step with
  | checkAndMark check => exact exact_.checkAndMark_iff counted
  | sweep now => exact iff_of_true (exact_.sweepAndSchedule now) not_false

/-- A nonce, another one when a sweep is due, and the first one again when it has
just expired. -/
def returningNonce : List ReplayCall :=
  [.checkAndMark ⟨ascii "alice", [1], 100000000000⟩,
    .checkAndMark ⟨ascii "alice", [2], 130000000000⟩,
    .checkAndMark ⟨ascii "alice", [1], 140000000000⟩]

def afterReturn : MemoryReplayCache :=
  returningNonce.foldl (fun c step => (c.call step).2) (newWithLimit (40 * second) 8)

/-- Three marks have been made and two entries are stored. -/
theorem len_counts_replaced_entry :
    Run CallsReplay (newWithLimit (40 * second) 8) returningNonce afterReturn ∧
      afterReturn.len = 3 ∧ afterReturn.entries.len = 2 ∧ ¬ afterReturn.Exact := by
  have once : Run CallsReplay (newWithLimit (40 * second) 8) ([] ++ [returningNonce[0]]) _ :=
    Run.nil.snoc rfl
  have twice : Run CallsReplay (newWithLimit (40 * second) 8) (_ ++ [returningNonce[1]]) _ :=
    once.snoc rfl
  have counter : afterReturn.len = 3 := by decide +kernel
  have stored : afterReturn.entries.len = 2 := by decide +kernel
  refine ⟨twice.snoc rfl, counter, stored, ?_⟩
  intro exact_
  have same := exact_.stored
  rw [counter, stored] at same
  cases same

end Libknock.Auth
