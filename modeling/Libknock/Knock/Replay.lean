import Libknock.Auth.ReplayStore

/-!
# Replay caches of the knock listeners

`knock/replay.go` and `KnockReplayTTL` of `internal/gatewaycore/misc.go`.  The
cache of the SYN listeners is the one of package `auth` without its counter: it
asks the entries themselves how many they are.
-/

set_option autoImplicit false

namespace Libknock.Knock

open Foundation Cache Auth

def minute : Duration := 60 * second

def defaultKnockReplayTTL : Duration := 5 * minute

def knockReplayTTL (window : Duration) : Duration :=
  let effective := if window ≤ 0 then 30 * second else window
  let ttl := 2 * effective + second
  if ttl < defaultKnockReplayTTL then defaultKnockReplayTTL else ttl

/-- `replayCache` for options that bring no cache of their own. -/
def replayCache (timeWindow : Duration) : MemoryReplayCache :=
  let ttl := 5 * minute
  MemoryReplayCache.new
    (if 0 < timeWindow ∧ ttl < 2 * timeWindow + second then 2 * timeWindow + second else ttl)

def defaultSYNReplayCacheMaxEntries : Int := 65536

structure SYNReplayCache where
  ttl : Duration
  sweepEvery : Duration
  nextSweep : Int
  maxEntries : Int
  entries : TTLLRU Bytes Unit

def synReplaySweepInterval (ttl : Duration) : Duration :=
  if ttl ≤ 30 * second then ttl else 30 * second

namespace SYNReplayCache

def sized (ttl : Duration) (maxEntries : Int) : SYNReplayCache :=
  { ttl := ttl
    sweepEvery := synReplaySweepInterval ttl
    nextSweep := zeroTime
    maxEntries := maxEntries
    entries := TTLLRU.new Bytes Unit maxEntries }

def newSYNReplayCache (ttl : Duration) : SYNReplayCache :=
  sized (if ttl ≤ 0 then 2 * minute else ttl) defaultSYNReplayCacheMaxEntries

def sweepAndSchedule (now : Int) (c : SYNReplayCache) : SYNReplayCache :=
  { c with entries := (c.entries.sweep now).2, nextSweep := addDuration now c.sweepEvery }

def sweepDue (now : Int) (c : SYNReplayCache) : SYNReplayCache :=
  if isZero c.nextSweep then { c with nextSweep := addDuration now c.sweepEvery }
  else if now < c.nextSweep then c
  else c.sweepAndSchedule now

def sweepFull (now : Int) (c : SYNReplayCache) : SYNReplayCache :=
  if c.maxEntries ≤ c.entries.len then c.sweepAndSchedule now else c

def checkAndMark (clientID nonce : Bytes) (now : Int) (cache : SYNReplayCache) :
    Except AuthError Unit × SYNReplayCache :=
  let key := replayKey clientID nonce
  let c := (cache.sweepDue now).sweepFull now
  if c.maxEntries ≤ c.entries.len then
    match c.entries.getAt key now with
    | (some _, entries) => (.error .replayDetected, { c with entries := entries })
    | (none, entries) => (.error .replayCacheFull, { c with entries := entries })
  else
    match c.entries.addIfAbsent key () (addDuration now c.ttl) now with
    | (false, entries) => (.error .replayDetected, { c with entries := entries })
    | (true, entries) => (.ok (), { c with entries := entries })

def check (c : SYNReplayCache) (check : ReplayCheck) : Except AuthError Unit × SYNReplayCache :=
  c.checkAndMark check.clientID check.nonce check.now

/-! ## The cache as a store of live nonces -/

structure Refines (now : Int) (c : SYNReplayCache) (store : NonceStore (Bytes × Bytes)) : Prop where
  ttl : c.ttl.toInt = store.ttl
  capacity : c.maxEntries = store.capacity
  sized : (c.entries.maxEntries : Int) = c.maxEntries
  tracks : Tracks (fun pair => replayKey pair.1 pair.2) now c.entries store

variable {now : Int} {c : SYNReplayCache} {store : NonceStore (Bytes × Bytes)}

theorem sized_refines (ttl : Duration) (maxEntries now : Int) (positive : 0 < maxEntries) :
    Refines now (SYNReplayCache.sized ttl maxEntries)
      (NonceStore.new _ ttl.toInt maxEntries.toNat) := by
  refine ⟨rfl, ?_, ?_, Tracks.new _ _ _ _ _⟩
  · simp only [SYNReplayCache.sized, NonceStore.new]
    omega
  · simp only [SYNReplayCache.sized, TTLLRU.new]
    split
    · omega
    · omega

section

variable (refines : Refines now c store)

include refines

theorem Refines.later {late : Int} (order : now ≤ late) : Refines late c store :=
  ⟨refines.ttl, refines.capacity, refines.sized, refines.tracks.later order⟩

theorem Refines.sweepAndSchedule : Refines now (c.sweepAndSchedule now) store :=
  ⟨refines.ttl, refines.capacity, refines.sized, refines.tracks.sweep⟩

theorem Refines.sweepDue : Refines now (c.sweepDue now) store := by
  unfold SYNReplayCache.sweepDue
  split
  · exact ⟨refines.ttl, refines.capacity, refines.sized, refines.tracks⟩
  · split
    · exact refines
    · exact refines.sweepAndSchedule

theorem Refines.sweepFull : Refines now (c.sweepFull now) store := by
  unfold SYNReplayCache.sweepFull
  split
  · exact refines.sweepAndSchedule
  · exact refines

theorem Refines.withEntries {entries : TTLLRU Bytes Unit} {pair : Bytes × Bytes}
    (maximum : entries.maxEntries = c.entries.maxEntries)
    (tracks : Tracks (fun pair => replayKey pair.1 pair.2) now entries (store.check pair now).2) :
    Refines now { c with entries } (store.check pair now).2 where
  ttl := by simpa using refines.ttl
  capacity := by simpa using refines.capacity
  sized := (congrArg Nat.cast maximum).trans refines.sized
  tracks := tracks

end

theorem sweepFull_active (now : Int) (c : SYNReplayCache)
    (full : (c.sweepFull now).maxEntries ≤ (c.sweepFull now).entries.len) :
    (c.sweepFull now).entries.len = (c.sweepFull now).entries.activeLen now := by
  unfold sweepFull at full ⊢
  split
  · exact (TTLLRU.activeLen_of_live fun _ member => (TTLLRU.mem_sweep.mp member).2).symm
  · rename_i free
    rw [if_neg free] at full
    exact absurd full free

theorem checkAndMark_refines (refines : Refines now c store) (clientID nonce : Bytes)
    (instant : isZero (now + store.ttl) = false) :
    (c.checkAndMark clientID nonce now).1 = answerOf (store.check (clientID, nonce) now).1 ∧
      Refines now (c.checkAndMark clientID nonce now).2 (store.check (clientID, nonce) now).2 := by
  have swept := refines.sweepDue.sweepFull
  have sized := swept.sized
  have capacity := swept.capacity
  unfold checkAndMark
  simp only
  by_cases full : ((c.sweepDue now).sweepFull now).maxEntries ≤
      ((c.sweepDue now).sweepFull now).entries.len
  · rw [if_pos full]
    have active : store.capacity ≤ ((c.sweepDue now).sweepFull now).entries.activeLen now := by
      have exact := sweepFull_active now _ full
      omega
    obtain ⟨verdict, tracks⟩ := swept.tracks.check_full replayKey_injective active (clientID, nonce)
    have maximum := TTLLRU.getAt_maxEntries (replayKey clientID nonce) now
      ((c.sweepDue now).sweepFull now).entries
    rw [verdict]
    split
    all_goals
      rename_i found
      rw [found] at tracks maximum ⊢
      exact ⟨rfl, swept.withEntries maximum tracks⟩
  · rw [if_neg full]
    simp only [TTLLRU.len] at full
    obtain ⟨verdict, tracks⟩ := swept.tracks.check_room replayKey_injective (by omega) (by omega)
      (clientID, nonce) instant
    have expiry : addDuration now ((c.sweepDue now).sweepFull now).ttl = now + store.ttl := by
      rw [addDuration, swept.ttl]
    have maximum := TTLLRU.addIfAbsent_maxEntries (replayKey clientID nonce) () (now + store.ttl) now
      ((c.sweepDue now).sweepFull now).entries
    rw [expiry, verdict]
    split
    all_goals
      rename_i added
      rw [added] at tracks maximum ⊢
      exact ⟨rfl, swept.withEntries maximum tracks⟩

theorem check_refines {lifetime : Int} {capacity : Nat} (positive : 0 < lifetime)
    (refines : Refines now c store ∧ store.ttl = lifetime ∧ store.capacity = capacity)
    (check : ReplayCheck) (order : now ≤ check.now) (dated : zeroTime ≤ check.now) :
    (c.check check).1 = (checkStore store check).1 ∧
      Refines check.now (c.check check).2 (checkStore store check).2 ∧
      (checkStore store check).2.ttl = lifetime ∧ (checkStore store check).2.capacity = capacity := by
  obtain ⟨refines, sameTtl, sameCapacity⟩ := refines
  have instant : isZero (check.now + store.ttl) = false := decide_eq_false (by omega)
  obtain ⟨answer, next⟩ := checkAndMark_refines (refines.later order) check.clientID check.nonce
    instant
  refine ⟨answer, next, ?_⟩
  simpa only [checkStore, NonceStore.check_ttl, NonceStore.check_capacity] using
    ⟨sameTtl, sameCapacity⟩

end SYNReplayCache

/-! ## Both caches over whole runs -/

/-- The entries of a cache that are unexpired at an instant are the live nonces
of the store, and no more of them than its capacity. -/
def HoldsLive (late : Int) (entries : TTLLRU Bytes Unit) (capacity : Int)
    (store : NonceStore (Bytes × Bytes)) : Prop :=
  ((store.live late).card : Int) ≤ capacity ∧
    ∀ clientID nonce, (clientID, nonce) ∈ store.live late ↔
      ∃ entry ∈ entries.order, entry.key = replayKey clientID nonce ∧ late < entry.expiresAt

theorem holdsLive_of_tracks {late : Int} {entries : TTLLRU Bytes Unit} {capacity : Int}
    {store : NonceStore (Bytes × Bytes)} (sized : (entries.maxEntries : Int) = capacity)
    (tracks : Tracks (fun pair => replayKey pair.1 pair.2) late entries store) :
    HoldsLive late entries capacity store := by
  constructor
  · rw [tracks.card_live replayKey_injective]
    have fewer : entries.activeLen late ≤ entries.order.length := List.length_filter_le _ _
    have bounded := entries.bounded
    omega
  · intro clientID nonce
    rw [tracks.mem_live_iff replayKey_injective]
    simp [Entry.live]

/-- Readings of a clock that never goes back, none before the zero instant: an
entry that expires at that very instant could not be stored. -/
def ClockReadings (readings : List Int) : Prop :=
  (zeroTime :: readings).Pairwise (· ≤ ·)

theorem ClockReadings.split {readings : List Int} {late : Int}
    (dated : ClockReadings (readings ++ [late])) :
    (zeroTime :: readings).Pairwise (· ≤ ·) ∧ (∀ reading ∈ readings, zeroTime ≤ reading) ∧
      ∀ reading ∈ zeroTime :: readings, reading ≤ late := by
  unfold ClockReadings at dated
  rw [← List.cons_append, List.pairwise_append] at dated
  refine ⟨dated.1, (List.pairwise_cons.mp dated.1).1, fun reading member => ?_⟩
  exact dated.2.2 reading member late (List.mem_singleton_self late)

/-- Both caches answer every call like the store, and hold exactly its live
nonces at any later reading of the clock. -/
theorem replayCaches_refine_nonceStore (ttl : Duration) (capacity : Int) (lifetime : 0 < ttl)
    (positive : 1 ≤ capacity) :
    (∀ (calls : List ReplayCall) (late : Int), ClockReadings (calls.map ReplayCall.now ++ [late]) →
      transcript MemoryReplayCache.call (.newWithLimit ttl capacity) calls =
          transcript callStore (.new _ ttl.toInt capacity.toNat) calls ∧
        HoldsLive late (afterAll MemoryReplayCache.call (.newWithLimit ttl capacity) calls).entries
          capacity (afterAll callStore (.new _ ttl.toInt capacity.toNat) calls)) ∧
    (∀ (checks : List ReplayCheck) (late : Int),
      ClockReadings (checks.map ReplayCheck.now ++ [late]) →
      transcript SYNReplayCache.check (.sized ttl capacity) checks =
          transcript checkStore (.new _ ttl.toInt capacity.toNat) checks ∧
        HoldsLive late (afterAll SYNReplayCache.check (.sized ttl capacity) checks).entries
          capacity (afterAll checkStore (.new _ ttl.toInt capacity.toNat) checks)) ∧
    ∀ clientID nonce otherID otherNonce,
      replayKey clientID nonce = replayKey otherID otherNonce →
      clientID = otherID ∧ nonce = otherNonce := by
  have span : 0 < ttl.toInt := Int64.lt_iff_toInt_lt.mp lifetime
  refine ⟨?_, ?_, ?_⟩
  · intro calls late readings
    obtain ⟨ordered, dated, earlier⟩ := readings.split
    obtain ⟨answers, last, member, refines, _, sameCapacity⟩ :=
      transcript_simulates MemoryReplayCache.call callStore ReplayCall.now
        (fun step => zeroTime ≤ step.now)
        (fun now c store => MemoryReplayCache.Refines now c store ∧ store.ttl = ttl.toInt ∧
          store.capacity = capacity.toNat)
        (fun now c store step related order dated =>
          MemoryReplayCache.call_refines span related step order dated)
        calls zeroTime _ _
        ⟨MemoryReplayCache.newWithLimit_refines ttl capacity zeroTime lifetime positive, rfl, rfl⟩
        ordered (fun step inside => dated _ (List.mem_map_of_mem inside))
    refine ⟨answers, holdsLive_of_tracks ?_ (refines.tracks.later (earlier last member))⟩
    rw [refines.counted.capacity, refines.capacity, sameCapacity]
    omega
  · intro checks late readings
    obtain ⟨ordered, dated, earlier⟩ := readings.split
    obtain ⟨answers, last, member, refines, _, sameCapacity⟩ :=
      transcript_simulates SYNReplayCache.check checkStore ReplayCheck.now
        (fun check => zeroTime ≤ check.now)
        (fun now c store => SYNReplayCache.Refines now c store ∧ store.ttl = ttl.toInt ∧
          store.capacity = capacity.toNat)
        (fun now c store check related order dated =>
          SYNReplayCache.check_refines span related check order dated)
        checks zeroTime _ _ ⟨SYNReplayCache.sized_refines ttl capacity zeroTime positive, rfl, rfl⟩
        ordered (fun check inside => dated _ (List.mem_map_of_mem inside))
    refine ⟨answers, holdsLive_of_tracks ?_ (refines.tracks.later (earlier last member))⟩
    rw [refines.sized, refines.capacity, sameCapacity]
    omega
  · intro clientID nonce otherID otherNonce same
    exact Prod.mk.inj (@replayKey_injective (clientID, nonce) (otherID, otherNonce) same)

/-- A store for one nonce: taken, seen again, full for another, and free for
that one when the first has expired. -/
def sampleChecks : List ReplayCheck :=
  [⟨ascii "alice", [1], 0⟩, ⟨ascii "alice", [1], 999999999⟩, ⟨ascii "alice", [2], 999999999⟩,
    ⟨ascii "alice", [2], 1000000000⟩]

theorem replayCaches_refine_nonceStore_sample :
    transcript callStore (.new _ second.toInt 1) (sampleChecks.map .checkAndMark) =
        [some (.ok ()), some (.error .replayDetected), some (.error .replayCacheFull),
          some (.ok ())] ∧
      transcript MemoryReplayCache.call (.newWithLimit second 1) (sampleChecks.map .checkAndMark) =
        transcript callStore (.new _ second.toInt 1) (sampleChecks.map .checkAndMark) ∧
      transcript SYNReplayCache.check (.sized second 1) sampleChecks =
        transcript checkStore (.new _ second.toInt 1) sampleChecks :=
  ⟨by decide +kernel,
    ((replayCaches_refine_nonceStore second 1 (by decide) (by decide)).1
      (sampleChecks.map .checkAndMark) 1000000000 (by unfold ClockReadings; decide)).1,
    ((replayCaches_refine_nonceStore second 1 (by decide) (by decide)).2.1 sampleChecks 1000000000
      (by unfold ClockReadings; decide)).1⟩

end Libknock.Knock
