import Libknock.Auth.Replay
import Libknock.Cache.NonceStore
import Libknock.Foundation.Transcripts

/-!
# The replay cache as a store of live nonces

The counter of `MemoryReplayCache` only bounds the number of its entries, and a
sweep makes it exact.  That is enough: the cache answers like the store, and
the eviction loop under it never runs.
-/

set_option autoImplicit false

namespace Libknock.Auth

open Foundation Cache

/-! ## Keys -/

theorem hexDigit_ne_zero (digit : Nat) (small : digit < 16) : hexDigit digit ≠ 0 := by
  interval_cases digit <;> decide

theorem hexDigit_injective (left right : Nat) (leftSmall : left < 16) (rightSmall : right < 16)
    (same : hexDigit left = hexDigit right) : left = right := by
  have table : ∀ first < 16, ∀ second < 16, hexDigit first = hexDigit second → first = second := by
    decide
  exact table left leftSmall right rightSmall same

theorem zero_notMem_hexEncode (raw : Bytes) : (0 : UInt8) ∉ hexEncode raw := by
  simp only [hexEncode, List.mem_flatMap, List.mem_cons, List.not_mem_nil, or_false, not_exists,
    not_and, not_or]
  intro byte _
  have bound := byte.toNat_lt
  exact ⟨(hexDigit_ne_zero _ (by omega)).symm, (hexDigit_ne_zero _ (by omega)).symm⟩

theorem hexEncode_injective : Function.Injective hexEncode := by
  intro left
  induction left with
  | nil =>
    intro right same
    cases right with
    | nil => rfl
    | cons head tail => simp [hexEncode] at same
  | cons head tail ih =>
    intro right same
    cases right with
    | nil => simp [hexEncode] at same
    | cons other rest =>
      simp only [hexEncode, List.flatMap_cons, List.cons_append, List.nil_append,
        List.cons.injEq] at same
      obtain ⟨high, low, tails⟩ := same
      have headBound := head.toNat_lt
      have otherBound := other.toNat_lt
      have highSame := hexDigit_injective _ _ (by omega) (by omega) high
      have lowSame := hexDigit_injective _ _ (by omega) (by omega) low
      have bytes : head = other := UInt8.toNat_inj.mp (by omega)
      rw [bytes, ih tails]

/-- A client ID may hold any byte, but the digits after the separator hold no
zero: the last zero of a key is the separator. -/
theorem replayKey_injective : Function.Injective fun pair : Bytes × Bytes =>
    replayKey pair.1 pair.2 := by
  rintro ⟨clientID, nonce⟩ ⟨otherID, otherNonce⟩ same
  have reversed := congrArg List.reverse same
  simp only [replayKey, List.reverse_append, List.reverse_cons, List.append_assoc,
    List.singleton_append] at reversed
  have digits : ∀ raw, (0 : UInt8) ∉ (hexEncode raw).reverse := fun raw inside =>
    zero_notMem_hexEncode raw (List.mem_reverse.mp inside)
  obtain ⟨nonces, clients⟩ := append_separator_inj (digits nonce) (digits otherNonce) reversed
  rw [List.reverse_injective clients, hexEncode_injective (List.reverse_injective nonces)]

/-! ## Calls and answers -/

def answerOf : Verdict → Except AuthError Unit
  | .fresh => .ok ()
  | .replayed => .error .replayDetected
  | .full => .error .replayCacheFull

structure ReplayCheck where
  clientID : Bytes
  nonce : Bytes
  now : Int

inductive ReplayCall where
  | checkAndMark (check : ReplayCheck)
  | sweep (now : Int)

def ReplayCall.now : ReplayCall → Int
  | .checkAndMark check => check.now
  | .sweep now => now

def checkStore (store : NonceStore (Bytes × Bytes)) (check : ReplayCheck) :
    Except AuthError Unit × NonceStore (Bytes × Bytes) :=
  (answerOf (store.check (check.clientID, check.nonce) check.now).1,
    (store.check (check.clientID, check.nonce) check.now).2)

/-- A sweep is no event for the store. -/
def callStore (store : NonceStore (Bytes × Bytes)) :
    ReplayCall → Option (Except AuthError Unit) × NonceStore (Bytes × Bytes)
  | .checkAndMark check => (some (checkStore store check).1, (checkStore store check).2)
  | .sweep _ => (none, store)

namespace MemoryReplayCache

/-- The cache tracks the store from `now` on. -/
structure Refines (now : Int) (c : MemoryReplayCache) (store : NonceStore (Bytes × Bytes)) :
    Prop where
  counted : Counted c
  ttl : c.ttl.toInt = store.ttl
  capacity : c.maxEntries = store.capacity
  tracks : Tracks (fun pair => replayKey pair.1 pair.2) now c.entries store

variable {now : Int} {c : MemoryReplayCache} {store : NonceStore (Bytes × Bytes)}

theorem newWithLimit_refines (ttl : Duration) (maxEntries now : Int) (lifetime : 0 < ttl)
    (positive : 0 < maxEntries) :
    Refines now (newWithLimit ttl maxEntries) (NonceStore.new _ ttl.toInt maxEntries.toNat) := by
  have keepsTtl : ¬ ttl ≤ 0 := Int64.not_le.mpr lifetime
  refine ⟨newWithLimit_counted ttl maxEntries, ?_, ?_, Tracks.new _ _ _ _ _⟩
  · simp only [newWithLimit, if_neg keepsTtl]
    rfl
  · simp only [newWithLimit, if_neg (Int.not_le.mpr positive), NonceStore.new]
    omega

section

variable (refines : Refines now c store)

include refines

theorem Refines.later {late : Int} (order : now ≤ late) : Refines late c store :=
  ⟨refines.counted, refines.ttl, refines.capacity, refines.tracks.later order⟩

theorem Refines.sweepAndSchedule : Refines now (c.sweepAndSchedule now) store :=
  ⟨sweepAndSchedule_counted now c refines.counted, refines.ttl, refines.capacity,
    refines.tracks.sweep⟩

theorem Refines.sweepDue : Refines now (c.sweepDue now) store := by
  unfold MemoryReplayCache.sweepDue
  split
  · exact ⟨⟨refines.counted.counted, refines.counted.capacity⟩, refines.ttl, refines.capacity,
      refines.tracks⟩
  · split
    · exact refines
    · exact refines.sweepAndSchedule

theorem Refines.sweepFull : Refines now (c.sweepFull now) store := by
  unfold MemoryReplayCache.sweepFull
  split
  · exact refines.sweepAndSchedule
  · exact refines

end

theorem sweepFull_active (now : Int) (c : MemoryReplayCache)
    (full : (c.sweepFull now).maxEntries ≤ (c.sweepFull now).active) :
    (c.sweepFull now).active = (c.sweepFull now).entries.activeLen now := by
  unfold sweepFull at full ⊢
  split
  · exact (TTLLRU.activeLen_of_live fun _ member => (TTLLRU.mem_sweep.mp member).2).symm
  · rename_i free
    rw [if_neg free] at full
    exact absurd full free

theorem checkAndMark_refines (refines : Refines now c store) (clientID nonce : Bytes)
    (instant : isZero (now + store.ttl) = false) :
    (c.checkAndMark clientID nonce now).1 = answerOf (store.check (clientID, nonce) now).1 ∧
      Refines now (c.checkAndMark clientID nonce now).2 (store.check (clientID, nonce) now).2 := by
  have swept := refines.sweepDue.sweepFull
  have counted := (checkAndMark_swept clientID nonce now refines.counted).counted
  unfold checkAndMark at counted ⊢
  simp only at counted ⊢
  by_cases full : ((c.sweepDue now).sweepFull now).maxEntries ≤ ((c.sweepDue now).sweepFull now).active
  · rw [if_pos full] at counted ⊢
    have active : store.capacity ≤ ((c.sweepDue now).sweepFull now).entries.activeLen now := by
      have exact := sweepFull_active now _ full
      have capacity := swept.capacity
      omega
    obtain ⟨verdict, tracks⟩ := swept.tracks.check_full replayKey_injective active (clientID, nonce)
    rw [verdict]
    split
    all_goals
      rename_i found
      rw [found] at counted tracks ⊢
      exact ⟨rfl, counted, by simpa using swept.ttl, by simpa using swept.capacity, tracks⟩
  · rw [if_neg full] at counted ⊢
    have bound := swept.counted.counted
    have entries := swept.counted.capacity
    have capacity := swept.capacity
    obtain ⟨verdict, tracks⟩ := swept.tracks.check_room replayKey_injective (by omega) (by omega)
      (clientID, nonce) instant
    have expiry : addDuration now ((c.sweepDue now).sweepFull now).ttl = now + store.ttl := by
      rw [addDuration, swept.ttl]
    rw [expiry] at counted ⊢
    rw [verdict]
    split
    all_goals
      rename_i added
      rw [added] at counted tracks ⊢
      exact ⟨rfl, counted, by simpa using swept.ttl, by simpa using swept.capacity, tracks⟩

/-! ## Runs -/

def call (c : MemoryReplayCache) : ReplayCall → Option (Except AuthError Unit) × MemoryReplayCache
  | .checkAndMark check =>
    (some (c.checkAndMark check.clientID check.nonce check.now).1,
      (c.checkAndMark check.clientID check.nonce check.now).2)
  | .sweep now => (none, c.sweep now)

theorem call_refines {lifetime : Int} {capacity : Nat} (positive : 0 < lifetime)
    (refines : Refines now c store ∧ store.ttl = lifetime ∧ store.capacity = capacity)
    (step : ReplayCall) (order : now ≤ step.now) (dated : zeroTime ≤ step.now) :
    (c.call step).1 = (callStore store step).1 ∧
      Refines step.now (c.call step).2 (callStore store step).2 ∧
      (callStore store step).2.ttl = lifetime ∧ (callStore store step).2.capacity = capacity := by
  obtain ⟨refines, sameTtl, sameCapacity⟩ := refines
  have current := refines.later order
  cases step with
  | checkAndMark check =>
    have late : zeroTime ≤ check.now := dated
    have instant : isZero (check.now + store.ttl) = false := decide_eq_false (by omega)
    obtain ⟨answer, next⟩ := checkAndMark_refines current check.clientID check.nonce instant
    refine ⟨congrArg some answer, next, ?_⟩
    simpa only [callStore, checkStore, NonceStore.check_ttl, NonceStore.check_capacity] using
      ⟨sameTtl, sameCapacity⟩
  | sweep now => exact ⟨rfl, current.sweepAndSchedule, sameTtl, sameCapacity⟩

/-! ## Machines around a cache -/

section Machines

variable {Action Answer Grant : Type}
  {step : MemoryReplayCache → Action → Answer × MemoryReplayCache} {clock : Action → Int}
  {grants : Answer → Option Grant} {pairOf : Grant → Bytes × Bytes}

/-- A machine that touches its cache by one check at most, and grants only what
that check marked, remembers each grant for the lifetime of the cache. -/
theorem remembering (ttl : Duration)
    (touches : ∀ c action, (step c action).2 = c ∨
      ∃ clientID nonce, (step c action).2 = (c.checkAndMark clientID nonce (clock action)).2)
    (marks : ∀ c action grant, grants (step c action).1 = some grant →
      c.checkAndMark (pairOf grant).1 (pairOf grant).2 (clock action) = (.ok (), (step c action).2)) :
    Remembering step clock grants (fun c => c.Counted ∧ c.ttl = ttl)
      (fun c grant until_ =>
        ⟨replayKey (pairOf grant).1 (pairOf grant).2, (), until_⟩ ∈ c.entries.order) ttl.toInt := by
  have swept : ∀ c action, c.Counted → Swept (clock action) c (step c action).2 := by
    intro c action counted
    rcases touches c action with same | ⟨clientID, nonce, marked⟩
    · rw [same]
      exact Swept.refl _ c counted
    · rw [marked]
      exact checkAndMark_swept _ _ _ counted
  refine ⟨?_, ?_, ?_, ?_⟩
  · rintro c action ⟨counted, rfl⟩
    exact ⟨(swept c action counted).counted, (swept c action counted).ttl⟩
  · rintro c action grant until_ ⟨counted, rfl⟩ known early
    exact (swept c action counted).keeps _ known (decide_eq_true early)
  · rintro c action grant ⟨counted, rfl⟩ granted
    have marked := marks c action grant granted
    have entry := (checkAndMark_ok counted (congrArg Prod.fst marked)).1
    rwa [marked] at entry
  · rintro c action grant until_ ⟨counted, rfl⟩ known granted
    have marked := marks c action grant granted
    have expired := (checkAndMark_ok counted (congrArg Prod.fst marked)).2 _ known rfl
    simpa [Entry.live] using expired

end Machines

end MemoryReplayCache

end Libknock.Auth
