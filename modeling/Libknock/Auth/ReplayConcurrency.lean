import Libknock.Auth.Replay
import Libknock.Foundation.Runs

/-!
# Concurrent calls of the replay cache

`CheckAndMark` of `auth/replay.go` reads the clock and only then takes the lock.
A call here is therefore two steps: it begins, with the reading of the clock at
that moment, and it enters, which applies the critical section at that reading.
Between the two any number of other calls may begin and enter, and the clock may
move forward.
-/

set_option autoImplicit false

namespace Libknock.Auth

open Foundation Cache

namespace MemoryReplayCache

/-- Whether `CheckAndMark` sweeps the cache at this reading, because a sweep is
due or because the cache is full. -/
def sweepsAt (now : Int) (c : MemoryReplayCache) : Bool :=
  (!isZero c.nextSweep && decide (c.nextSweep ≤ now)) ||
    decide ((c.sweepDue now).maxEntries ≤ (c.sweepDue now).active)

theorem sweeps_skipped (now : Int) (c : MemoryReplayCache) (skipped : c.sweepsAt now = false) :
    ((c.sweepDue now).sweepFull now).entries = c.entries ∧
      ((c.sweepDue now).sweepFull now).ttl = c.ttl ∧
      ¬ ((c.sweepDue now).sweepFull now).maxEntries ≤ ((c.sweepDue now).sweepFull now).active := by
  simp only [sweepsAt, Bool.or_eq_false_iff, Bool.and_eq_false_iff, Bool.not_eq_false',
    decide_eq_false_iff_not] at skipped
  obtain ⟨early, free⟩ := skipped
  have full : (c.sweepDue now).sweepFull now = c.sweepDue now := if_neg free
  have due : (c.sweepDue now).entries = c.entries ∧ (c.sweepDue now).ttl = c.ttl := by
    unfold sweepDue
    split
    · exact ⟨rfl, rfl⟩
    rename_i scheduled
    split
    · exact ⟨rfl, rfl⟩
    · rename_i reached
      rcases early with zero | before
      · exact absurd zero scheduled
      · exact absurd (not_lt.mp reached) before
  rw [full]
  exact ⟨due.1, due.2, free⟩

theorem newWithLimit_ttl_pos (ttl : Duration) (maxEntries : Int) :
    0 < (newWithLimit ttl maxEntries).ttl.toInt := by
  simp only [newWithLimit]
  split
  · decide
  · rename_i positive
    rw [Int64.le_iff_toInt_le] at positive
    exact not_le.mp positive

/-- What a call leaves of an entry: the entry or one of its key that expires no
earlier, unless the call sweeps after the entry has expired. -/
theorem checkAndMark_outlasts (clientID nonce : Bytes) (now : Int) {c : MemoryReplayCache}
    (counted : Counted c) (positive : 0 < c.ttl.toInt) {entry : Entry Bytes Unit}
    (member : entry ∈ c.entries.order) :
    (c.sweepsAt now = true ∧ entry.expiresAt ≤ now) ∨
      ∃ later ∈ (c.checkAndMark clientID nonce now).2.entries.order,
        later.key = entry.key ∧ entry.expiresAt ≤ later.expiresAt := by
  cases live : entry.live now with
  | true =>
    have kept := (checkAndMark_swept clientID nonce now counted).keeps entry member live
    exact Or.inr ⟨entry, kept, rfl, le_rfl⟩
  | false =>
    have expired : entry.expiresAt ≤ now := not_lt.mp (of_decide_eq_false live)
    cases sweeps : c.sweepsAt now with
    | true => exact Or.inl ⟨rfl, expired⟩
    | false =>
      -- the expired entry is still there, and only a new mark of its key takes its place
      right
      obtain ⟨sameEntries, sameTTL, free⟩ := sweeps_skipped now c sweeps
      have room : c.entries.order.length < c.entries.maxEntries := by
        have started := sweeps_swept now c counted
        have bound := started.counted.counted
        have capacity := started.counted.capacity
        rw [sameEntries] at bound capacity
        omega
      have result := TTLLRU.mem_addIfAbsent (replayKey clientID nonce) ()
        (addDuration now c.ttl) now room
      unfold checkAndMark
      simp only
      rw [if_neg free, sameEntries, sameTTL]
      split
      · rename_i entries outcome
        rw [outcome] at result
        exact ⟨entry, (result entry).mpr member, rfl, le_rfl⟩
      · rename_i entries outcome
        rw [outcome] at result
        by_cases same : entry.key = replayKey clientID nonce
        · refine ⟨⟨replayKey clientID nonce, (), addDuration now c.ttl⟩,
            (result _).mpr (Or.inl rfl), same.symm, ?_⟩
          simp only [addDuration]
          omega
        · exact ⟨entry, (result entry).mpr (Or.inr ⟨member, same⟩), rfl, le_rfl⟩

end MemoryReplayCache

/-! ## The calls and the lock -/

inductive CallPhase where
  | waiting
  | returned (answer : Except AuthError Unit)

structure ConcurrentCall where
  clientID : Bytes
  nonce : Bytes
  reading : Int
  phase : CallPhase

def CallPhase.accepted : CallPhase → Bool
  | .returned (.ok ()) => true
  | _ => false

theorem CallPhase.accepted_returned (answer : Except AuthError Unit) :
    (CallPhase.returned answer).accepted = true ↔ answer = .ok () := by
  cases answer with
  | ok | error => simp [accepted]

def ConcurrentCall.Accepted (call : ConcurrentCall) : Prop := call.phase.accepted = true

instance (call : ConcurrentCall) : Decidable call.Accepted :=
  inferInstanceAs (Decidable (call.phase.accepted = true))

/-- The cache, the clock, the calls made so far, and the readings at which the
cache has been swept. -/
structure SharedCache where
  clock : Int
  cache : MemoryReplayCache
  calls : List ConcurrentCall
  sweeps : List Int

inductive CacheMove where
  | tick (later : Int)
  | start (clientID nonce : Bytes)
  | enter (index : Nat)

variable {shared : SharedCache} {ttl : Duration}

namespace SharedCache

def new (ttl : Duration) (maxEntries clock : Int) : SharedCache :=
  ⟨clock, .newWithLimit ttl maxEntries, [], []⟩

def critical (shared : SharedCache) (index : Nat) (call : ConcurrentCall) : SharedCache :=
  let result := shared.cache.checkAndMark call.clientID call.nonce call.reading
  { shared with
    cache := result.2
    calls := shared.calls.set index { call with phase := .returned result.1 }
    sweeps := if shared.cache.sweepsAt call.reading then call.reading :: shared.sweeps
      else shared.sweeps }

def step (shared : SharedCache) : CacheMove → Option SharedCache
  | .tick later => if shared.clock ≤ later then some { shared with clock := later } else none
  | .start clientID nonce =>
    some { shared with calls := shared.calls ++ [⟨clientID, nonce, shared.clock, .waiting⟩] }
  | .enter index =>
    match shared.calls[index]? with
    | none => none
    | some call =>
      match call.phase with
      | .waiting => some (shared.critical index call)
      | .returned _ => none

/-- A call that enters has read the clock no earlier than the calls that have
swept the cache. -/
def Timely (shared : SharedCache) : CacheMove → Prop
  | .enter index =>
    ∀ call ∈ shared.calls[index]?, ∀ swept ∈ shared.sweeps, swept ≤ call.reading
  | _ => True

instance (shared : SharedCache) : (move : CacheMove) → Decidable (shared.Timely move)
  | .tick _ => isTrue trivial
  | .start _ _ => isTrue trivial
  | .enter index =>
    inferInstanceAs (Decidable (∀ call ∈ shared.calls[index]?, ∀ swept ∈ shared.sweeps,
      swept ≤ call.reading))

def Spaced (shared : SharedCache) (ttl : Duration) : Prop :=
  ∀ (left right : Nat) (first second : ConcurrentCall), left ≠ right →
    shared.calls[left]? = some first → shared.calls[right]? = some second →
    first.Accepted → second.Accepted →
    first.clientID = second.clientID → first.nonce = second.nonce →
    addDuration first.reading ttl ≤ second.reading ∨
      addDuration second.reading ttl ≤ first.reading

/-- What the cache knows of an accepted call: an entry that lasts as long as the
call's mark, or a sweep after the mark has expired. -/
def Remembered (shared : SharedCache) (call : ConcurrentCall) : Prop :=
  (∃ entry ∈ shared.cache.entries.order, entry.key = replayKey call.clientID call.nonce ∧
    addDuration call.reading shared.cache.ttl ≤ entry.expiresAt) ∨
  ∃ swept ∈ shared.sweeps, addDuration call.reading shared.cache.ttl ≤ swept

structure Sound (ttl : Duration) (shared : SharedCache) : Prop where
  counted : shared.cache.Counted
  lifetime : shared.cache.ttl = ttl
  remembered : ∀ call ∈ shared.calls, call.Accepted → shared.Remembered call
  spaced : shared.Spaced ttl

theorem new_sound (ttl : Duration) (maxEntries clock : Int) :
    Sound (MemoryReplayCache.newWithLimit ttl maxEntries).ttl (new ttl maxEntries clock) where
  counted := MemoryReplayCache.newWithLimit_counted ttl maxEntries
  lifetime := rfl
  remembered := by simp [new]
  spaced := by
    intro left right first second _ found
    simp [new] at found

/-! ## What the critical section keeps -/

theorem critical_ttl (index : Nat) (call : ConcurrentCall) (counted : shared.cache.Counted) :
    (shared.critical index call).cache.ttl = shared.cache.ttl :=
  (MemoryReplayCache.checkAndMark_swept call.clientID call.nonce call.reading counted).ttl

theorem Remembered.critical {old : ConcurrentCall} (remembered : shared.Remembered old)
    (counted : shared.cache.Counted) (positive : 0 < shared.cache.ttl.toInt) (index : Nat)
    (call : ConcurrentCall) :
    (shared.critical index call).Remembered old := by
  unfold Remembered
  rw [critical_ttl index call counted]
  rcases remembered with ⟨entry, member, key, lasts⟩ | ⟨swept, member, expired⟩
  · rcases MemoryReplayCache.checkAndMark_outlasts call.clientID call.nonce call.reading counted
      positive member with ⟨sweeps, expired⟩ | ⟨later, kept, same, longer⟩
    · right
      refine ⟨call.reading, ?_, lasts.trans expired⟩
      simp [SharedCache.critical, sweeps]
    · exact Or.inl ⟨later, kept, same.trans key, lasts.trans longer⟩
  · right
    refine ⟨swept, ?_, expired⟩
    simp only [SharedCache.critical]
    split
    · exact List.mem_cons_of_mem _ member
    · exact member

theorem critical_remembers (shared : SharedCache) (index : Nat) (call : ConcurrentCall)
    (counted : shared.cache.Counted)
    (accepted : (shared.cache.checkAndMark call.clientID call.nonce call.reading).1 = .ok ()) :
    (shared.critical index call).Remembered call := by
  left
  rw [critical_ttl index call counted]
  exact ⟨_, (MemoryReplayCache.checkAndMark_ok counted accepted).1, rfl, le_rfl⟩

theorem Remembered.before {old : ConcurrentCall} (remembered : shared.Remembered old)
    (counted : shared.cache.Counted) (call : ConcurrentCall)
    (timely : ∀ swept ∈ shared.sweeps, swept ≤ call.reading) (client : old.clientID = call.clientID)
    (nonce : old.nonce = call.nonce)
    (accepted : (shared.cache.checkAndMark call.clientID call.nonce call.reading).1 = .ok ()) :
    addDuration old.reading shared.cache.ttl ≤ call.reading := by
  rcases remembered with ⟨entry, member, key, lasts⟩ | ⟨swept, member, expired⟩
  · rw [client, nonce] at key
    have dead := (MemoryReplayCache.checkAndMark_ok counted accepted).2 entry member key
    exact lasts.trans (not_lt.mp (of_decide_eq_false dead))
  · exact expired.trans (timely swept member)

theorem Sound.critical (sound : Sound ttl shared) (positive : 0 < ttl.toInt) (index : Nat)
    (call : ConcurrentCall) (found : shared.calls[index]? = some call)
    (timely : ∀ swept ∈ shared.sweeps, swept ≤ call.reading) :
    Sound ttl (shared.critical index call) := by
  have lifetime := sound.lifetime
  subst lifetime
  have inside : index < shared.calls.length := (List.getElem?_eq_some_iff.mp found).1
  refine ⟨?_, critical_ttl index call sound.counted, ?_, ?_⟩
  · exact (MemoryReplayCache.checkAndMark_swept _ _ _ sound.counted).counted
  · intro other member accepted
    rcases List.mem_or_eq_of_mem_set member with old | rfl
    · exact (sound.remembered other old accepted).critical sound.counted positive index call
    · exact critical_remembers shared index call sound.counted
        ((CallPhase.accepted_returned _).mp accepted)
  · intro left right first second different foundLeft foundRight acceptedLeft acceptedRight
      client nonce
    simp only [SharedCache.critical, List.getElem?_set] at foundLeft foundRight
    -- at most one of the two is the call that has just entered
    by_cases enteredLeft : index = left
    · subst enteredLeft
      rw [if_neg different] at foundRight
      simp only [if_true, inside] at foundLeft
      cases foundLeft
      have earlier := sound.remembered second (List.mem_of_getElem? foundRight) acceptedRight
      exact Or.inr (earlier.before sound.counted call timely client.symm nonce.symm
        ((CallPhase.accepted_returned _).mp acceptedLeft))
    · rw [if_neg enteredLeft] at foundLeft
      by_cases enteredRight : index = right
      · subst enteredRight
        simp only [if_true, inside] at foundRight
        cases foundRight
        have earlier := sound.remembered first (List.mem_of_getElem? foundLeft) acceptedLeft
        exact Or.inl (earlier.before sound.counted call timely client nonce
          ((CallPhase.accepted_returned _).mp acceptedRight))
      · rw [if_neg enteredRight] at foundRight
        exact sound.spaced left right first second different foundLeft foundRight acceptedLeft
          acceptedRight client nonce

theorem getElem?_snoc_accepted {calls : List ConcurrentCall} {clientID nonce : Bytes}
    {reading : Int} {index : Nat} {call : ConcurrentCall}
    (found : (calls ++ [⟨clientID, nonce, reading, .waiting⟩])[index]? = some call)
    (accepted : call.Accepted) : calls[index]? = some call := by
  by_cases inside : index < calls.length
  · rwa [List.getElem?_append_left inside] at found
  · rw [List.getElem?_append_right (not_lt.mp inside), List.getElem?_singleton] at found
    split at found
    · cases found
      cases accepted
    · cases found

theorem Sound.start (sound : Sound ttl shared) (clientID nonce : Bytes) :
    Sound ttl { shared with
      calls := shared.calls ++ [⟨clientID, nonce, shared.clock, .waiting⟩] } := by
  refine ⟨sound.counted, sound.lifetime, ?_, ?_⟩
  · intro call member accepted
    obtain ⟨index, found⟩ := List.getElem?_of_mem member
    have old := getElem?_snoc_accepted found accepted
    exact sound.remembered call (List.mem_of_getElem? old) accepted
  · intro left right first second different foundLeft foundRight acceptedLeft acceptedRight
    exact sound.spaced left right first second different
      (getElem?_snoc_accepted foundLeft acceptedLeft)
      (getElem?_snoc_accepted foundRight acceptedRight)
      acceptedLeft acceptedRight

theorem Sound.step {after : SharedCache} {move : CacheMove} (sound : Sound ttl shared)
    (positive : 0 < ttl.toInt) (timely : shared.Timely move)
    (stepped : shared.step move = some after) : Sound ttl after := by
  cases move with
  | tick later =>
    simp only [SharedCache.step] at stepped
    split at stepped
    · cases stepped
      exact ⟨sound.counted, sound.lifetime, sound.remembered, sound.spaced⟩
    · cases stepped
  | start clientID nonce =>
    cases stepped
    exact sound.start clientID nonce
  | enter index =>
    simp only [SharedCache.step] at stepped
    split at stepped
    · cases stepped
    rename_i call found
    split at stepped
    · cases stepped
      exact sound.critical positive index call found (timely call found)
    · cases stepped

/-- In every interleaving whose calls enter with readings no earlier than the
sweeps before them, a nonce is let through once a lifetime. -/
theorem timely_calls_spaced (ttl : Duration) (maxEntries clock : Int) (moves : List CacheMove)
    (shared : SharedCache)
    (run : Run (Along Timely (Steps step)) (new ttl maxEntries clock) moves shared) :
    shared.Spaced (MemoryReplayCache.newWithLimit ttl maxEntries).ttl := by
  have positive := MemoryReplayCache.newWithLimit_ttl_pos ttl maxEntries
  have sound : Sound (MemoryReplayCache.newWithLimit ttl maxEntries).ttl shared := by
    refine Run.invariant (fun _ state => Sound _ state) (new_sound ttl maxEntries clock) ?_ moves
      shared run
    intro _ before move after _ held taken
    exact held.step positive taken.2 taken.1
  exact sound.spaced

/-- A nonce is accepted, refused while its mark lives, and accepted again by the
call that finds the mark expired. -/
theorem timely_calls_spaced_sample :
    ∃ shared, Run (Along Timely (Steps step)) (new (10 * second) 4 0)
        [.start [65] [1], .enter 0, .tick 5000000000, .start [65] [1], .enter 1,
          .tick 10000000000, .start [65] [1], .enter 2] shared ∧
      (shared.calls.map fun call => call.phase.accepted) = [true, false, true] ∧
      shared.Spaced (MemoryReplayCache.newWithLimit (10 * second) 4).ttl := by
  obtain ⟨shared, run, answers⟩ := runSteps_reaches_along step (new (10 * second) 4 0)
    [.start [65] [1], .enter 0, .tick 5000000000, .start [65] [1], .enter 1,
      .tick 10000000000, .start [65] [1], .enter 2]
    (fun shared => (shared.calls.map fun call => call.phase.accepted) = [true, false, true]) Timely
    (by decide +kernel)
  exact ⟨shared, run, answers, timely_calls_spaced _ _ _ _ shared run⟩

/-- The second call for the nonce reads the clock five seconds after the first
and waits for the lock; a call for another nonce, which reads it five seconds
later, sweeps the first mark away before the second enters. -/
theorem late_sweep_reopens_nonce :
    ∃ moves shared, Run (Steps step) (new (10 * second) 4 0) moves shared ∧
      ¬ shared.Spaced (MemoryReplayCache.newWithLimit (10 * second) 4).ttl := by
  obtain ⟨shared, run, calls⟩ := runSteps_reaches step (new (10 * second) 4 0)
    [.start [65] [1], .enter 0, .tick 5000000000, .start [65] [1], .tick 10000000000,
      .start [65] [2], .enter 2, .enter 1]
    (fun shared => shared.calls.map (fun call =>
      (call.clientID, call.nonce, call.reading, call.phase.accepted)) =
        [([65], [1], 0, true), ([65], [1], 5000000000, true), ([65], [2], 10000000000, true)])
    (by decide +kernel)
  refine ⟨_, shared, run, ?_⟩
  intro spaced
  have firstCall := congrArg (fun row => row[0]?) calls
  have secondCall := congrArg (fun row => row[1]?) calls
  simp only [List.getElem?_map, List.getElem?_cons_zero, List.getElem?_cons_succ,
    Option.map_eq_some_iff, Prod.mk.injEq] at firstCall secondCall
  obtain ⟨first, foundFirst, client, nonce, reading, accepted⟩ := firstCall
  obtain ⟨second, foundSecond, laterClient, laterNonce, laterReading, laterAccepted⟩ := secondCall
  have apart := spaced 0 1 first second (by decide) foundFirst foundSecond accepted laterAccepted
    (client.trans laterClient.symm) (nonce.trans laterNonce.symm)
  rw [reading, laterReading] at apart
  exact absurd apart (by decide)

end SharedCache

end Libknock.Auth
