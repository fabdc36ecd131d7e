import Libknock.Auth.Types
import Libknock.Cache.TTLLRU

/-!
# The replay cache

`auth/replay.go`.  The cache is a pure value here; its lock is the order in
which the calls are applied.  The clock reading of a call is an argument.
-/

set_option autoImplicit false

namespace Libknock.Auth

open Foundation Cache

def defaultReplayCacheMaxEntries : Int := 65536

structure MemoryReplayCache where
  ttl : Duration
  sweepEvery : Duration
  nextSweep : Int
  maxEntries : Int
  entries : TTLLRU Bytes Unit
  active : Nat

def replaySweepInterval (ttl : Duration) : Duration :=
  if ttl ≤ 30 * second then ttl else 30 * second

def hexDigit (digit : Nat) : UInt8 :=
  if digit < 10 then UInt8.ofNat (48 + digit) else UInt8.ofNat (87 + digit)

/-- `hex.EncodeToString`. -/
def hexEncode (raw : Bytes) : Bytes :=
  raw.flatMap fun byte => [hexDigit (byte.toNat / 16), hexDigit (byte.toNat % 16)]

def replayKey (clientID nonce : Bytes) : Bytes := clientID ++ 0 :: hexEncode nonce

namespace MemoryReplayCache

def newWithLimit (ttl : Duration) (maxEntries : Int) : MemoryReplayCache :=
  let lifetime := if ttl ≤ 0 then defaultTimeWindow * 2 else ttl
  let limit := if maxEntries ≤ 0 then defaultReplayCacheMaxEntries else maxEntries
  { ttl := lifetime
    sweepEvery := replaySweepInterval lifetime
    nextSweep := zeroTime
    maxEntries := limit
    entries := TTLLRU.new Bytes Unit limit
    active := 0 }

def new (ttl : Duration) : MemoryReplayCache :=
  newWithLimit (if ttl ≤ 0 then defaultTimeWindow * 2 else ttl) defaultReplayCacheMaxEntries

def sweepLocked (now : Int) (c : MemoryReplayCache) : MemoryReplayCache :=
  let swept := (c.entries.sweep now).2
  { c with entries := swept, active := swept.len }

def sweepAndSchedule (now : Int) (c : MemoryReplayCache) : MemoryReplayCache :=
  { c.sweepLocked now with nextSweep := addDuration now c.sweepEvery }

/-- The periodic sweep at the start of `CheckAndMark`. -/
def sweepDue (now : Int) (c : MemoryReplayCache) : MemoryReplayCache :=
  if isZero c.nextSweep then { c with nextSweep := addDuration now c.sweepEvery }
  else if now < c.nextSweep then c
  else c.sweepAndSchedule now

def sweepFull (now : Int) (c : MemoryReplayCache) : MemoryReplayCache :=
  if c.maxEntries ≤ c.active then c.sweepAndSchedule now else c

def checkAndMark (clientID nonce : Bytes) (now : Int) (cache : MemoryReplayCache) :
    Except AuthError Unit × MemoryReplayCache :=
  let key := replayKey clientID nonce
  let c := (cache.sweepDue now).sweepFull now
  if c.maxEntries ≤ c.active then
    match c.entries.getAt key now with
    | (some _, entries) => (.error .replayDetected, { c with entries := entries })
    | (none, entries) => (.error .replayCacheFull, { c with entries := entries })
  else
    match c.entries.addIfAbsent key () (addDuration now c.ttl) now with
    | (false, entries) => (.error .replayDetected, { c with entries := entries })
    | (true, entries) => (.ok (), { c with entries := entries, active := c.active + 1 })

def sweep (now : Int) (c : MemoryReplayCache) : MemoryReplayCache := c.sweepAndSchedule now

def len (c : MemoryReplayCache) : Nat := c.active

def cap (c : MemoryReplayCache) : Int := c.maxEntries

/-! ## The cache keeps what it has marked -/

/-- The counter bounds the entries, so a cache that is not full has room. -/
structure Counted (c : MemoryReplayCache) : Prop where
  counted : c.entries.order.length ≤ c.active
  capacity : (c.entries.maxEntries : Int) = c.maxEntries

theorem newWithLimit_counted (ttl : Duration) (maxEntries : Int) :
    Counted (newWithLimit ttl maxEntries) := by
  refine ⟨Nat.le_refl 0, ?_⟩
  simp only [newWithLimit, TTLLRU.new, defaultReplayCacheMaxEntries]
  split
  · rfl
  · omega

theorem sweepAndSchedule_counted (now : Int) (c : MemoryReplayCache) (counted : Counted c) :
    Counted (c.sweepAndSchedule now) := ⟨Nat.le_refl _, counted.capacity⟩

/-- What the sweeps before the check have in common: no live entry is lost. -/
structure Swept (now : Int) (c next : MemoryReplayCache) : Prop where
  counted : Counted next
  ttl : next.ttl = c.ttl
  keeps : ∀ entry ∈ c.entries.order, entry.live now = true → entry ∈ next.entries.order

section

variable (now : Int) (c : MemoryReplayCache) (counted : Counted c)

include counted

theorem Swept.refl : Swept now c c :=
  ⟨counted, rfl, fun _ member _ => member⟩

theorem sweepAndSchedule_swept : Swept now c (c.sweepAndSchedule now) := by
  refine ⟨sweepAndSchedule_counted now c counted, rfl, ?_⟩
  intro entry member live
  exact TTLLRU.mem_retain.mpr ⟨member, live⟩

theorem sweepDue_swept : Swept now c (c.sweepDue now) := by
  unfold sweepDue
  split
  · exact ⟨⟨counted.counted, counted.capacity⟩, rfl, fun _ member _ => member⟩
  · split
    · exact Swept.refl now c counted
    · exact sweepAndSchedule_swept now c counted

theorem sweepFull_swept : Swept now c (c.sweepFull now) := by
  unfold sweepFull
  split
  · exact sweepAndSchedule_swept now c counted
  · exact Swept.refl now c counted

end

theorem Swept.trans {now : Int} {first second third : MemoryReplayCache}
    (early : Swept now first second) (late : Swept now second third) : Swept now first third :=
  ⟨late.counted, late.ttl.trans early.ttl,
    fun entry member live => late.keeps entry (early.keeps entry member live) live⟩

theorem sweeps_swept (now : Int) (c : MemoryReplayCache) (counted : Counted c) :
    Swept now c ((c.sweepDue now).sweepFull now) :=
  (sweepDue_swept now c counted).trans (sweepFull_swept now _ (sweepDue_swept now c counted).counted)

theorem checkAndMark_swept (clientID nonce : Bytes) (now : Int) {c : MemoryReplayCache}
    (counted : Counted c) : Swept now c (c.checkAndMark clientID nonce now).2 := by
  have start := sweeps_swept now c counted
  refine start.trans ?_
  unfold checkAndMark
  simp only
  split
  · have read : Swept now ((c.sweepDue now).sweepFull now) { (c.sweepDue now).sweepFull now with
        entries := (((c.sweepDue now).sweepFull now).entries.getAt
          (replayKey clientID nonce) now).2 } := by
      refine ⟨⟨?_, ?_⟩, rfl, ?_⟩
      · exact (TTLLRU.getAt_length _ now _).trans start.counted.counted
      · simpa using start.counted.capacity
      · intro entry member live
        exact TTLLRU.mem_getAt.mpr ⟨member, fun _ => live⟩
    split
    · rename_i outcome
      rw [outcome] at read
      exact read
    · rename_i outcome
      rw [outcome] at read
      exact read
  · rename_i free
    have room : ((c.sweepDue now).sweepFull now).entries.order.length <
        ((c.sweepDue now).sweepFull now).entries.maxEntries := by
      have bound := start.counted.counted
      have capacity := start.counted.capacity
      omega
    have length := TTLLRU.addIfAbsent_length (replayKey clientID nonce) ()
      (addDuration now ((c.sweepDue now).sweepFull now).ttl) now
      ((c.sweepDue now).sweepFull now).entries
    have maximum := TTLLRU.addIfAbsent_maxEntries (replayKey clientID nonce) ()
      (addDuration now ((c.sweepDue now).sweepFull now).ttl) now
      ((c.sweepDue now).sweepFull now).entries
    have keeps := TTLLRU.addIfAbsent_keeps (replayKey clientID nonce) ()
      (addDuration now ((c.sweepDue now).sweepFull now).ttl) now
      ((c.sweepDue now).sweepFull now).entries room
    split
    · rename_i outcome
      rw [outcome] at length maximum keeps
      refine ⟨⟨?_, ?_⟩, rfl, keeps⟩
      · exact length.trans start.counted.counted
      · rw [maximum]
        exact start.counted.capacity
    · rename_i outcome
      rw [outcome] at length maximum keeps
      refine ⟨⟨?_, ?_⟩, rfl, keeps⟩
      · exact length.trans (Nat.succ_le_succ start.counted.counted)
      · rw [maximum]
        exact start.counted.capacity

/-- A mark leaves its entry behind, and is refused while a live one is there. -/
theorem checkAndMark_ok {clientID nonce : Bytes} {now : Int} {c : MemoryReplayCache}
    (counted : Counted c) (marked : (c.checkAndMark clientID nonce now).1 = .ok ()) :
    ⟨replayKey clientID nonce, (), addDuration now c.ttl⟩ ∈
        (c.checkAndMark clientID nonce now).2.entries.order ∧
      ∀ entry ∈ c.entries.order, entry.key = replayKey clientID nonce → entry.live now = false := by
  have start := sweeps_swept now c counted
  unfold checkAndMark at marked ⊢
  simp only at marked ⊢
  split at marked
  · split at marked
    · cases marked
    · cases marked
  · rename_i free
    rw [if_neg free]
    split at marked
    · cases marked
    rename_i entries outcome
    have added : (((c.sweepDue now).sweepFull now).entries.addIfAbsent (replayKey clientID nonce)
        () (addDuration now ((c.sweepDue now).sweepFull now).ttl) now).1 = true := by
      rw [outcome]
    have present := TTLLRU.addIfAbsent_adds _ _ _ _ _ added
    rw [outcome, start.ttl] at present
    refine ⟨present, ?_⟩
    intro entry member same
    cases live : entry.live now with
    | false => rfl
    | true =>
      have expired := (TTLLRU.addIfAbsent_true_iff.mp added).2 entry
        (start.keeps entry member live) same
      rw [live] at expired
      cases expired

end MemoryReplayCache

end Libknock.Auth
