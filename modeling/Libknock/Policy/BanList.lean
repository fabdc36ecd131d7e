import Libknock.Foundation.Runs
import Libknock.Cache.Ledger

/-!
# The ban list

`policy/ban.go`.  A ban list is a bounded cache of keys, with the instants at
which their bans end.  A call is a pure function of the list and the clock
reading.  The ledger of the bans that were accepted and not lifted says what the
list should answer; the list follows it over any run, and refuses a new ban
rather than forget one.
-/

set_option autoImplicit false

namespace Libknock.Policy

open Foundation Cache

inductive PolicyError where
  | rateLimited
  | banListFull
  deriving DecidableEq

def defaultBanListMaxEntries : Int := 65536

def minute : Duration := 60 * second

structure BanList where
  entries : TTLLRU Bytes Unit
  lastSweep : Int
  sweepInterval : Duration

namespace BanList

def newWithLimit (maxEntries : Int) : BanList where
  entries := TTLLRU.new Bytes Unit (if maxEntries ≤ 0 then defaultBanListMaxEntries else maxEntries)
  lastSweep := zeroTime
  sweepInterval := minute

def updateSweepIntervalLocked (ttl : Duration) (b : BanList) : BanList :=
  if ttl ≤ 0 then b
  else
    let half := if ttl / 2 ≤ 0 then ttl else ttl / 2
    let interval := if minute < half then minute else half
    if b.sweepInterval ≤ 0 ∨ interval < b.sweepInterval then { b with sweepInterval := interval }
    else b

def banUntilE (key : Bytes) (expiry now : Int) (b : BanList) : Except PolicyError Unit × BanList :=
  if key = [] ∨ isZero expiry then (.ok (), b)
  else
    let timed := b.updateSweepIntervalLocked (since expiry now)
    let swept := { timed with entries := (timed.entries.sweep now).2, lastSweep := now }
    if (swept.entries.peek key).isNone ∧ swept.entries.cap ≤ swept.entries.len then
      (.error .banListFull, swept)
    else (.ok (), { swept with entries := swept.entries.setUntil key () expiry })

def isBannedAt (key : Bytes) (now : Int) (b : BanList) : Bool × BanList :=
  if key = [] then (false, b)
  else
    let found := b.entries.getAt key now
    let read := { b with entries := found.2 }
    if found.1.isSome then (true, read)
    else if read.entries.len < read.entries.cap then (false, read)
    else (decide (read.entries.cap ≤ read.entries.activeLen now), read)

def unban (key : Bytes) (b : BanList) : BanList := { b with entries := (b.entries.delete key).2 }

def sweep (now : Int) (b : BanList) : Nat × BanList :=
  ((b.entries.sweep now).1, { b with entries := (b.entries.sweep now).2 })

/-! ## One call -/

variable {b : BanList}

@[simp] theorem updateSweepIntervalLocked_entries (ttl : Duration) (b : BanList) :
    (b.updateSweepIntervalLocked ttl).entries = b.entries := by
  unfold updateSweepIntervalLocked
  split
  · rfl
  · simp only [apply_ite BanList.entries, ite_self]

theorem peek_sweep_isNone_iff (key : Bytes) (now : Int) (b : BanList) :
    ((b.entries.sweep now).2.peek key).isNone = true ↔ key ∉ b.entries.activeKeys now := by
  rw [Option.isNone_iff_eq_none, TTLLRU.peek, TTLLRU.lookup_eq_none_iff,
    TTLLRU.mem_activeKeys_iff]
  constructor
  · rintro absent ⟨entry, member, same, live⟩
    exact absent entry (TTLLRU.mem_sweep.mpr ⟨member, live⟩) same
  · intro absent entry member same
    obtain ⟨inside, live⟩ := TTLLRU.mem_sweep.mp member
    exact absent ⟨entry, inside, same, live⟩

theorem banUntilE_full_iff {key : Bytes} {expiry : Int} (now : Int) (named : key ≠ [])
    (dated : isZero expiry = false) :
    (b.banUntilE key expiry now).1 = .error .banListFull ↔
      key ∉ b.entries.activeKeys now ∧ b.entries.cap ≤ b.entries.activeLen now := by
  unfold banUntilE
  rw [if_neg (by simp [named, dated])]
  simp only [updateSweepIntervalLocked_entries, peek_sweep_isNone_iff, TTLLRU.sweep_len]
  have capacity : (b.entries.sweep now).2.cap = b.entries.cap := rfl
  rw [capacity]
  split
  · rename_i full
    exact ⟨fun _ => full, fun _ => rfl⟩
  · rename_i free
    constructor
    · intro refused
      cases refused
    · exact fun full => absurd full free

theorem banUntilE_capacity (key : Bytes) (expiry now : Int) (b : BanList) :
    (b.banUntilE key expiry now).2.entries.cap = b.entries.cap := by
  unfold banUntilE
  split
  · rfl
  simp only [updateSweepIntervalLocked_entries]
  split
  · rfl
  · unfold TTLLRU.setUntil
    split
    · rfl
    · exact TTLLRU.setLocked_maxEntries ..

theorem mem_banUntilE {key : Bytes} {expiry : Int} (now : Int) (named : key ≠ [])
    (dated : isZero expiry = false) (entry : Entry Bytes Unit) :
    entry ∈ (b.banUntilE key expiry now).2.entries.order ↔
      if (b.banUntilE key expiry now).1 = .error .banListFull then
        entry ∈ b.entries.order ∧ entry.live now = true
      else entry = ⟨key, (), expiry⟩ ∨
        (entry ∈ b.entries.order ∧ entry.live now = true) ∧ entry.key ≠ key := by
  unfold banUntilE
  rw [if_neg (by simp [named, dated])]
  simp only [updateSweepIntervalLocked_entries]
  split
  · simp only [if_true]
    exact TTLLRU.mem_sweep
  · rename_i free
    rw [if_neg (by simp)]
    have room : key ∈ (b.entries.sweep now).2.keys ∨
        (b.entries.sweep now).2.order.length < (b.entries.sweep now).2.maxEntries := by
      rw [not_and_or, Nat.not_le] at free
      refine free.imp_left fun present => ?_
      rw [TTLLRU.peek, Option.isNone_iff_eq_none, TTLLRU.lookup_eq_none_iff] at present
      push Not at present
      obtain ⟨stored, member, same⟩ := present
      rw [← same]
      exact List.mem_map_of_mem member
    simp only [TTLLRU.setUntil, dated, Bool.false_eq_true, if_false]
    rw [TTLLRU.mem_setLocked_iff room, TTLLRU.mem_sweep]

theorem isBannedAt_iff {key : Bytes} (now : Int) (named : key ≠ []) :
    (b.isBannedAt key now).1 = true ↔
      key ∈ b.entries.activeKeys now ∨ b.entries.cap ≤ b.entries.activeLen now := by
  have found : (b.entries.getAt key now).1.isSome = true ↔ key ∈ b.entries.activeKeys now := by
    rw [TTLLRU.getAt_isSome_iff, TTLLRU.mem_activeKeys_iff]
  have active : (b.entries.getAt key now).2.activeKeys now = b.entries.activeKeys now := by
    ext other
    rw [TTLLRU.mem_activeKeys_iff, TTLLRU.mem_activeKeys_iff]
    constructor
    · rintro ⟨entry, member, same, live⟩
      exact ⟨entry, (TTLLRU.mem_getAt.mp member).1, same, live⟩
    · rintro ⟨entry, member, same, live⟩
      exact ⟨entry, TTLLRU.mem_getAt.mpr ⟨member, fun _ => live⟩, same,
        live⟩
  have count : (b.entries.getAt key now).2.activeLen now = b.entries.activeLen now := by
    rw [← TTLLRU.card_activeKeys, active, TTLLRU.card_activeKeys]
  have capacity : (b.entries.getAt key now).2.cap = b.entries.cap :=
    TTLLRU.getAt_maxEntries key now b.entries
  unfold isBannedAt
  rw [if_neg named]
  simp only
  split
  · rename_i present
    simp [found.mp present]
  · rename_i missing
    have absent : key ∉ b.entries.activeKeys now := fun inside => missing (found.mpr inside)
    split
    · rename_i room
      -- the unexpired entries are among those the list has, too few to fill it
      have fewer : (b.entries.getAt key now).2.activeLen now ≤ (b.entries.getAt key now).2.len :=
        List.length_filter_le _ _
      simp only [Bool.false_eq_true, absent, false_or, false_iff]
      omega
    · simp only [decide_eq_true_eq, absent, false_or, count, capacity]

end BanList

/-! ## Runs -/

inductive BanCall where
  | banUntilE (key : Bytes) (expiry now : Int)
  | unban (key : Bytes)
  | sweep (now : Int)
  | isBannedAt (key : Bytes) (now : Int)

inductive BanAnswer where
  | outcome (result : Except PolicyError Unit)
  | done
  | removed (count : Nat)
  | banned (answer : Bool)

structure BanEvent where
  call : BanCall
  answer : BanAnswer

structure TimedBans where
  clock : Int
  list : BanList

namespace BanCall

def apply : BanCall → BanList → BanAnswer × BanList
  | banUntilE key expiry now, b =>
    (.outcome (b.banUntilE key expiry now).1, (b.banUntilE key expiry now).2)
  | unban key, b => (.done, b.unban key)
  | sweep now, b => (.removed (b.sweep now).1, (b.sweep now).2)
  | isBannedAt key now, b => (.banned (b.isBannedAt key now).1, (b.isBannedAt key now).2)

/-- The clock at the end of a call; `Unban` does not read it. -/
def reading (clock : Int) : BanCall → Int
  | banUntilE _ _ now => now
  | unban _ => clock
  | sweep now => now
  | isBannedAt _ now => now

/-- Keys are not empty, and a ban ends at an instant that is not the zero one. -/
def Usable : BanCall → Prop
  | banUntilE key expiry _ => key ≠ [] ∧ isZero expiry = false
  | isBannedAt key _ => key ≠ []
  | _ => True

end BanCall

/-- One call, at a reading no earlier than the last one. -/
structure BanStep (before : TimedBans) (event : BanEvent) (after : TimedBans) : Prop where
  usable : event.call.Usable
  onward : before.clock ≤ event.call.reading before.clock
  answer : event.answer = (event.call.apply before.list).1
  clock : after.clock = event.call.reading before.clock
  list : after.list = (event.call.apply before.list).2

def TimedBans.new (limit clock : Int) : TimedBans := ⟨clock, .newWithLimit limit⟩

/-- The bans after an event: an accepted one replaces the ban its key had. -/
def BanEvent.settle (bans : Ledger Bytes Unit) (event : BanEvent) : Ledger Bytes Unit :=
  match event.call, event.answer with
  | .banUntilE key expiry _, .outcome (.ok ()) => Function.update bans key (some ((), expiry))
  | .unban key, _ => Function.update bans key none
  | _, _ => bans

/-- The last accepted ban of each key that has not been lifted since. -/
def bans (events : List BanEvent) : Ledger Bytes Unit :=
  events.foldl BanEvent.settle (Ledger.empty Bytes Unit)

theorem bans_snoc (past : List BanEvent) (event : BanEvent) :
    bans (past ++ [event]) = event.settle (bans past) := by
  simp [bans]

theorem BanStep.capacity {before after : TimedBans} {event : BanEvent}
    (step : BanStep before event after) : after.list.entries.cap = before.list.entries.cap := by
  rw [step.list]
  cases event.call with
  | banUntilE key expiry now => exact before.list.banUntilE_capacity key expiry now
  | unban key => exact TTLLRU.delete_maxEntries key before.list.entries
  | sweep now => rfl
  | isBannedAt key now =>
    simp only [BanCall.apply, BanList.isBannedAt]
    split
    · rfl
    split
    · exact TTLLRU.getAt_maxEntries key now before.list.entries
    · split
      · exact TTLLRU.getAt_maxEntries key now before.list.entries
      · exact TTLLRU.getAt_maxEntries key now before.list.entries

theorem BanStep.follows {past : List BanEvent} {before after : TimedBans} {event : BanEvent}
    (step : BanStep before event after)
    (follows : Follows before.clock before.list.entries.order (bans past)) :
    Follows after.clock after.list.entries.order (bans (past ++ [event])) := by
  obtain ⟨usable, onward, answer, clock, list⟩ := step
  have known := follows.later onward
  rw [bans_snoc, clock, list]
  cases event with
  | mk call reply =>
    cases call with
    | banUntilE key expiry now =>
      cases answer
      obtain ⟨named, dated⟩ := usable
      have members := @BanList.mem_banUntilE before.list key expiry now named dated
      simp only [BanCall.reading, BanCall.apply] at known ⊢
      cases outcome : (before.list.banUntilE key expiry now).1 with
      | error failure =>
        -- the only refusal there is
        have full : failure = .banListFull := by
          unfold BanList.banUntilE at outcome
          split at outcome
          · cases outcome
          simp only at outcome
          split at outcome
          · cases outcome
            rfl
          · cases outcome
        subst full
        simp only [outcome, if_true] at members
        refine known.congr fun entry live => ?_
        rw [members]
        exact and_iff_left live
      | ok nothing =>
        rw [outcome] at members
        refine known.enter ⟨key, (), expiry⟩ fun entry live => ?_
        rw [members, if_neg (by simp), and_iff_left live]
    | unban key =>
      exact known.strike key fun _ => TTLLRU.mem_delete
    | sweep now =>
      cases answer
      exact known.sweep
    | isBannedAt key now =>
      cases answer
      simp only [BanCall.reading, BanCall.apply, BanList.isBannedAt] at known ⊢
      rw [if_neg (show ¬ key = [] from usable)]
      split
      · exact known.getAt key
      · split
        · exact known.getAt key
        · exact known.getAt key

theorem run_follows (limit clock : Int) (events : List BanEvent) (state : TimedBans)
    (run : Run BanStep (TimedBans.new limit clock) events state) :
    Follows state.clock state.list.entries.order (bans events) ∧
      state.list.entries.cap = (BanList.newWithLimit limit).entries.cap := by
  revert events state
  refine Run.invariant _ ⟨Follows.empty Bytes Unit clock, rfl⟩ ?_
  intro past before event after _ ih step
  exact ⟨step.follows ih.1, step.capacity.trans ih.2⟩

/-- The answers of the list after any run are those of the ledger of its bans,
and every ban in force is in the list. -/
theorem ban_list_exact (limit clock : Int) (events : List BanEvent) (state : TimedBans)
    (run : Run BanStep (TimedBans.new limit clock) events state) :
    (∀ (key : Bytes) (now : Int), key ≠ [] → state.clock ≤ now →
      ((state.list.isBannedAt key now).1 = true ↔
        (bans events).Active now key ∨
          {other | (bans events).Active now other}.ncard =
            (BanList.newWithLimit limit).entries.cap)) ∧
      (∀ (key : Bytes) (expiry now : Int), key ≠ [] → isZero expiry = false → state.clock ≤ now →
        ((state.list.banUntilE key expiry now).1 = .error .banListFull ↔
          ¬ (bans events).Active now key ∧
            {other | other ≠ key ∧ (bans events).Active now other}.ncard =
              (BanList.newWithLimit limit).entries.cap)) ∧
      ∀ (key : Bytes) (expiry : Int), bans events key = some ((), expiry) → state.clock < expiry →
        (⟨key, (), expiry⟩ : Entry Bytes Unit) ∈ state.list.entries.order := by
  obtain ⟨follows, capacity⟩ := run_follows limit clock events state run
  have most : ∀ now, state.list.entries.activeLen now ≤ state.list.entries.cap :=
    fun now => state.list.entries.activeLen_le now
  refine ⟨?_, ?_, ?_⟩
  · intro key now named onward
    have known := follows.later onward
    rw [BanList.isBannedAt_iff now named, known.mem_activeKeys_iff, known.ncard_activeLen, ← capacity]
    refine or_congr_right ⟨fun full => Nat.le_antisymm (most now) full, fun full => full.ge⟩
  · intro key expiry now named dated onward
    have known := follows.later onward
    rw [BanList.banUntilE_full_iff now named dated, known.mem_activeKeys_iff, ← capacity]
    refine and_congr_right fun inactive => ?_
    rw [(bans events).others_eq inactive, known.ncard_activeLen]
    exact ⟨fun full => Nat.le_antisymm (most now) full, fun full => full.ge⟩
  · intro key expiry held unexpired
    exact (follows ⟨key, (), expiry⟩ (decide_eq_true unexpired)).mpr held

def sampleBan : List BanEvent := [⟨.banUntilE [97] 100 0, .outcome (.ok ())⟩]

theorem full_list_keeps_ban :
    ∃ state, Run BanStep (TimedBans.new 1 0) sampleBan state ∧
      (state.list.banUntilE [98] 200 10).1 = .error .banListFull ∧
      (⟨[97], (), 100⟩ : Entry Bytes Unit) ∈ state.list.entries.order := by
  have run : Run BanStep (TimedBans.new 1 0) ([] ++ sampleBan)
      ⟨0, ((TimedBans.new 1 0).list.banUntilE [97] 100 0).2⟩ :=
    Run.nil.snoc ⟨⟨by decide, by decide⟩, by decide, by rfl, rfl, rfl⟩
  refine ⟨_, run, by rfl, ?_⟩
  exact (ban_list_exact 1 0 sampleBan _ run).2.2 [97] 100 (by rfl) (by decide)

end Libknock.Policy
