import Libknock.Policy.Limiter

/-!
# Runs of the limiter

`AllowAt` and `Sweep` of `policy/limiter.go`, called in any order while the clock
does not go back.  Each key has a private counter, a function of the calls for
that key alone; the limiter answers as the counters do, whatever is swept and
whatever the other keys do, except that it opens no window beyond its capacity.
-/

set_option autoImplicit false

namespace Libknock.Policy

open Foundation Cache

/-! ## Private counters -/

/-- The calls a window has admitted, and the instant at which it closes. -/
abbrev Counter : Type := Option (Int × Int)

/-- A counter after a call at an instant with an answer: an open window admits it
up to the limit, and an allowed call opens a window where none is open. -/
def privateNext (w : Window) (counter : Counter) (call : Int × Bool) : Counter :=
  match counter with
  | some (used, closes) =>
    if call.1 < closes then if used < w.limit then some (used + 1, closes) else counter
    else if call.2 then some (1, addDuration call.1 w.every) else counter
  | none => if call.2 then some (1, addDuration call.1 w.every) else counter

def privateCounter (w : Window) (own : List (Int × Bool)) : Counter := own.foldl (privateNext w) none

def privateAllows (w : Window) (counter : Counter) (now : Int) : Bool :=
  match counter with
  | some (used, closes) => if now < closes then used < w.limit else true
  | none => true

theorem private_closed (w : Window) {ledger : Ledger Bytes Int} {key : Bytes} {now : Int}
    (closed : ¬ ledger.Active now key) :
    privateAllows w (ledger key) now = true ∧
      privateNext w (ledger key) (now, true) = some (1, addDuration now w.every) ∧
      privateNext w (ledger key) (now, false) = ledger key := by
  cases held : ledger key with
  | none => exact ⟨rfl, rfl, rfl⟩
  | some counter =>
    have past : ¬ now < counter.2 := fun early => closed ⟨counter.1, counter.2, held, early⟩
    refine ⟨?_, ?_, ?_⟩
    · simp [privateAllows, past]
    · simp [privateNext, past]
    · simp [privateNext, past]

/-! ## Calls and runs -/

inductive LimiterCall where
  | allowAt (key : Bytes) (now : Int) (periodic demand : MapOrder Bytes)
  | sweep (now : Int) (order : MapOrder Bytes)

inductive LimiterAnswer where
  | allowed (answer : Bool)
  | removed (count : Nat)

structure LimiterEvent where
  call : LimiterCall
  answer : LimiterAnswer

structure TimedLimiter where
  clock : Int
  limiter : Limiter

namespace LimiterCall

def apply : LimiterCall → Limiter → LimiterAnswer × Limiter
  | allowAt key now periodic demand, l =>
    (.allowed (l.allowAt key now periodic demand).1, (l.allowAt key now periodic demand).2)
  | sweep now order, l => (.removed (l.sweep now order).1, (l.sweep now order).2)

def reading : LimiterCall → Int
  | allowAt _ now _ _ => now
  | sweep now _ => now

def isAllow : LimiterCall → Bool
  | allowAt _ _ _ _ => true
  | sweep _ _ => false

end LimiterCall

/-- One call, at a reading no earlier than the last one. -/
structure LimiterStep (before : TimedLimiter) (event : LimiterEvent) (after : TimedLimiter) :
    Prop where
  onward : before.clock ≤ event.call.reading
  answer : event.answer = (event.call.apply before.limiter).1
  clock : after.clock = event.call.reading
  limiter : after.limiter = (event.call.apply before.limiter).2

def TimedLimiter.new (window : Window) (limit clock : Int) : TimedLimiter :=
  ⟨clock, .newWithLimit window limit⟩

def LimiterEvent.own (key : Bytes) (event : LimiterEvent) : Option (Int × Bool) :=
  match event.call, event.answer with
  | .allowAt called now _ _, .allowed answer =>
    if limiterKey called = key then some (now, answer) else none
  | _, _ => none

def ownCalls (key : Bytes) (events : List LimiterEvent) : List (Int × Bool) :=
  events.filterMap (LimiterEvent.own key)

def counters (w : Window) (events : List LimiterEvent) : Ledger Bytes Int :=
  fun key => privateCounter w (ownCalls key events)

theorem ownCalls_snoc (key : Bytes) (past : List LimiterEvent) (event : LimiterEvent) :
    ownCalls key (past ++ [event]) = ownCalls key past ++ (event.own key).toList := by
  cases own : event.own key with
  | none | some => simp [ownCalls, own]

theorem counters_sweep (w : Window) (past : List LimiterEvent) (now : Int)
    (order : MapOrder Bytes) (answer : LimiterAnswer) :
    counters w (past ++ [⟨.sweep now order, answer⟩]) = counters w past := by
  funext key
  rw [counters, ownCalls_snoc]
  exact congrArg (privateCounter w) (List.append_nil _)

theorem counters_allowAt (w : Window) (past : List LimiterEvent) (key : Bytes) (now : Int)
    (periodic demand : MapOrder Bytes) (answer : Bool) :
    counters w (past ++ [⟨.allowAt key now periodic demand, .allowed answer⟩]) =
      Function.update (counters w past) (limiterKey key)
        (privateNext w (counters w past (limiterKey key)) (now, answer)) := by
  funext other
  rw [counters, ownCalls_snoc]
  by_cases same : other = limiterKey key
  · subst same
    simp [counters, LimiterEvent.own, privateCounter]
  · rw [Function.update_of_ne same]
    have apart : limiterKey key ≠ other := fun equal => same equal.symm
    simp [counters, LimiterEvent.own, apart]

/-! ## The limiter follows the counters -/

/-- A bucket as an entry: it runs out when its window closes. -/
def Bucket.entry (every : Duration) (b : Bucket) : Entry Bytes Int :=
  ⟨b.key, b.used, addDuration b.start every⟩

namespace Limiter

def entries (l : Limiter) : List (Entry Bytes Int) :=
  l.store.values.map (Bucket.entry l.window.every)

variable {now : Int} {l next : Limiter} {ledger : Ledger Bytes Int} {key : Bytes}

theorem entry_live (b : Bucket) : (b.entry l.window.every).live now = !l.expired now b := by
  simp only [Entry.live, Bucket.entry, expired]
  by_cases early : now < addDuration b.start l.window.every
  · simp [early]
  · simp [early, not_lt.mp early]

theorem entry_injective (every : Duration) : Function.Injective (Bucket.entry every) := by
  intro left right same
  simp only [Bucket.entry, addDuration, Entry.mk.injEq] at same
  obtain ⟨keys, used, starts⟩ := same
  cases left
  cases right
  simp only [Bucket.mk.injEq]
  exact ⟨keys, by simpa using starts, used⟩

theorem mem_entries (b : Bucket) : b.entry l.window.every ∈ l.entries ↔ b ∈ l.store.values :=
  List.mem_map_of_injective (entry_injective l.window.every)

theorem entries_unique (sound : l.Sound) : (l.entries.map Entry.key).Nodup := by
  have keys : l.entries.map Entry.key = l.store.values.map Bucket.key := by
    simp [entries, Function.comp_def, Bucket.entry]
  rw [keys]
  exact sound.linked.keys_nodup

theorem Swept.follows (swept : Swept now l next) (follows : Follows now l.entries ledger) :
    Follows now next.entries ledger := by
  refine follows.congr fun entry live => ?_
  constructor
  · intro member
    obtain ⟨b, inside, rfl⟩ := List.mem_map.mp member
    rw [swept.window]
    exact List.mem_map_of_mem (swept.fewer b inside)
  · intro member
    obtain ⟨b, inside, rfl⟩ := List.mem_map.mp member
    rw [entry_live] at live
    have kept := swept.keeps b inside (by simpa using live)
    rw [← swept.window]
    exact List.mem_map_of_mem kept

theorem counter_of_open (follows : Follows now l.entries ledger) {b : Bucket}
    (member : b ∈ l.store.values) (current : l.expired now b = false) :
    ledger b.key = some (b.used, addDuration b.start l.window.every) := by
  have live : (b.entry l.window.every).live now = true := by
    rw [entry_live, current]
    rfl
  exact (follows _ live).mp ((mem_entries b).mpr member)

theorem early_of_open {b : Bucket} (current : l.expired now b = false) :
    now < addDuration b.start l.window.every := by
  simpa [expired] using current

theorem closed_of_expired (follows : Follows now l.entries ledger)
    (closed : ∀ b ∈ l.store.values, b.key = key → l.expired now b = true) :
    ¬ ledger.Active now key := by
  rw [follows.active_iff]
  rintro ⟨entry, member, same, live⟩
  obtain ⟨b, inside, rfl⟩ := List.mem_map.mp member
  rw [entry_live, closed b inside same] at live
  cases live

section

variable (sound : l.Sound) (follows : Follows now l.entries ledger)

include sound follows

theorem ncard_open :
    {other | ledger.Active now other}.ncard =
      (l.store.values.filter fun b => !l.expired now b).length := by
  rw [follows.ncard_active (entries_unique sound), entries, List.filter_map, List.length_map]
  congr 2
  funext b
  exact entry_live b

theorem ncard_open_of_full (full : l.maxEntries ≤ l.store.len)
    (crowded : ∀ b ∈ l.store.values, l.expired now b = false) :
    ({other | ledger.Active now other}.ncard : Int) = l.maxEntries := by
  have all : l.store.values.filter (fun b => !l.expired now b) = l.store.values :=
    List.filter_eq_self.mpr fun b member => by simp [crowded b member]
  have length := sound.linked.len_eq
  have bounded := sound.bounded
  rw [ncard_open sound follows, all]
  omega

theorem ncard_open_of_room
    (room : (∃ b ∈ l.store.values, l.expired now b = true) ∨ l.store.len < l.maxEntries) :
    ({other | ledger.Active now other}.ncard : Int) < l.maxEntries := by
  have length := sound.linked.len_eq
  have bounded := sound.bounded
  rw [ncard_open sound follows]
  rcases room with ⟨b, member, closed⟩ | free
  · have fewer : (l.store.values.filter fun b => !l.expired now b).length <
        l.store.values.length :=
      List.length_filter_lt_length_iff_exists.mpr ⟨b, member, by simp [closed]⟩
    omega
  · have shorter := List.length_filter_le (fun b => !l.expired now b) l.store.values
    omega

end

theorem mem_entries_of_members (window : next.window = l.window) {b : Bucket}
    (members : ∀ other, other ∈ next.store.values ↔
      other = b ∨ other ∈ l.store.values ∧ other.key ≠ b.key) (entry : Entry Bytes Int) :
    entry ∈ next.entries ↔
      entry = b.entry l.window.every ∨ entry ∈ l.entries ∧ entry.key ≠ b.key := by
  rw [entries, window, List.mem_map]
  constructor
  · rintro ⟨other, inside, rfl⟩
    rcases (members other).mp inside with rfl | ⟨kept, different⟩
    · exact Or.inl rfl
    · exact Or.inr ⟨(mem_entries other).mpr kept, different⟩
  · rintro (rfl | ⟨kept, different⟩)
    · exact ⟨b, (members b).mpr (Or.inl rfl), rfl⟩
    · obtain ⟨other, inside, rfl⟩ := List.mem_map.mp kept
      exact ⟨other, (members other).mpr (Or.inr ⟨inside, different⟩), rfl⟩

theorem Decides.follows {answer : Bool} (decides : Decides key now l answer next)
    (window : next.window = l.window) (follows : Follows now l.entries ledger) :
    Follows now next.entries
      (Function.update ledger key (privateNext l.window (ledger key) (now, answer))) := by
  cases decides with
  | full absent full =>
    have closed := closed_of_expired follows fun b member same => absurd same (absent b member)
    rw [(private_closed l.window closed).2.2, Function.update_eq_self]
    exact follows
  | opened _ expired room members =>
    rw [(private_closed l.window (closed_of_expired follows expired)).2.1]
    exact follows.enter (Bucket.entry l.window.every ⟨key, now, 1⟩) fun entry _ =>
      mem_entries_of_members window members entry
  | counted _ b member own current free members =>
    subst own
    have counts : privateNext l.window (ledger b.key) (now, true) =
        some (b.used + 1, addDuration b.start l.window.every) := by
      rw [counter_of_open follows member current]
      simp [privateNext, early_of_open current, free]
    rw [counts]
    exact follows.enter (Bucket.entry l.window.every { b with used := b.used + 1 })
      fun entry _ => mem_entries_of_members window members entry
  | spent _ b member own current used members =>
    subst own
    have same : privateNext l.window (ledger b.key) (now, false) = ledger b.key := by
      rw [counter_of_open follows member current]
      simp [privateNext, early_of_open current, not_lt.mpr used]
    rw [same, Function.update_eq_self]
    refine follows.congr fun entry _ => ?_
    rw [entries, entries, window, List.mem_map, List.mem_map]
    exact exists_congr fun other => and_congr_left fun _ => members other

/-- The answer is that of the counter, except where it has no window open and the
others fill the store. -/
theorem Decides.answer_iff {answer : Bool} (decides : Decides key now l answer next)
    (sound : l.Sound)
    (crowded : l.maxEntries ≤ l.store.len → ∀ b ∈ l.store.values, l.expired now b = false)
    (follows : Follows now l.entries ledger) :
    answer = true ↔ privateAllows l.window (ledger key) now = true ∧
      ¬ (¬ ledger.Active now key ∧
        ({other | other ≠ key ∧ ledger.Active now other}.ncard : Int) = l.maxEntries) := by
  cases decides with
  | full absent full =>
    have closed := closed_of_expired follows fun b member same => absurd same (absent b member)
    have filled := ncard_open_of_full sound follows full (crowded full)
    simp [(private_closed l.window closed).1, ledger.others_eq closed, closed, filled]
  | opened _ expired room members =>
    have closed := closed_of_expired follows expired
    have spare : (∃ b ∈ l.store.values, l.expired now b = true) ∨ l.store.len < l.maxEntries :=
      room.imp_left fun ⟨b, member, own⟩ => ⟨b, member, expired b member own⟩
    have fewer := ncard_open_of_room sound follows spare
    simp [(private_closed l.window closed).1, ledger.others_eq closed, closed, fewer.ne]
  | counted _ b member own current free members =>
    subst own
    have held := counter_of_open follows member current
    have early := early_of_open current
    have active : ledger.Active now b.key := ⟨_, _, held, early⟩
    simp [held, privateAllows, early, free, active]
  | spent _ b member own current used members =>
    subst own
    have held := counter_of_open follows member current
    simp [held, privateAllows, early_of_open current, not_lt.mpr used]

theorem allowAt_follows (key : Bytes) (periodic demand : MapOrder Bytes) (sound : l.Sound)
    (follows : Follows now l.entries ledger) :
    Follows now (l.allowAt key now periodic demand).2.entries
        (Function.update ledger (limiterKey key) (privateNext l.window (ledger (limiterKey key))
          (now, (l.allowAt key now periodic demand).1))) ∧
      ((l.allowAt key now periodic demand).1 = true ↔
        privateAllows l.window (ledger (limiterKey key)) now = true ∧
        ¬ (¬ ledger.Active now (limiterKey key) ∧
          ({other | other ≠ limiterKey key ∧ ledger.Active now other}.ncard : Int) =
            l.maxEntries)) := by
  obtain ⟨swept, crowded⟩ := prepared_swept periodic demand now sound
  have decided := allowAt_decides key periodic demand now sound
  have still : (l.prepared now periodic demand).maxEntries ≤
      (l.prepared now periodic demand).store.len →
      ∀ b ∈ (l.prepared now periodic demand).store.values,
        (l.prepared now periodic demand).expired now b = false := by
    intro full b member
    rw [expired, swept.window]
    exact crowded full b member
  have known := swept.follows follows
  have next := decided.decides.follows decided.window known
  have answer := decided.decides.answer_iff swept.sound still known
  rw [swept.window] at next
  rw [swept.window, swept.capacity] at answer
  exact ⟨next, answer⟩

end Limiter

/-! ## Every run -/

theorem LimiterStep.follows {w : Window} {past : List LimiterEvent} {before after : TimedLimiter}
    {event : LimiterEvent} (step : LimiterStep before event after) (sound : before.limiter.Sound)
    (window : before.limiter.window = w)
    (follows : Follows before.clock before.limiter.entries (counters w past)) :
    after.limiter.Sound ∧ after.limiter.window = w ∧
      after.limiter.maxEntries = before.limiter.maxEntries ∧
      Follows after.clock after.limiter.entries (counters w (past ++ [event])) := by
  obtain ⟨onward, answer, clock, limiter⟩ := step
  have known := follows.later onward
  rw [clock, limiter]
  cases event with
  | mk call reply =>
    cases call with
    | allowAt key now periodic demand =>
      cases answer
      have swept := (Limiter.prepared_swept periodic demand now sound).1
      have decided := Limiter.allowAt_decides key periodic demand now sound
      refine ⟨decided.sound, (decided.window.trans swept.window).trans window,
        decided.capacity.trans swept.capacity, ?_⟩
      rw [LimiterCall.apply, counters_allowAt, ← window]
      rw [← window] at known
      exact (Limiter.allowAt_follows key periodic demand sound known).1
    | sweep now order =>
      cases answer
      have swept := Limiter.sweepLocked_swept order now sound
      rw [counters_sweep]
      exact ⟨swept.sound, swept.window.trans window, swept.capacity, swept.follows known⟩

theorem limiter_follows (window : Window) (limit clock : Int) (events : List LimiterEvent)
    (state : TimedLimiter) (run : Run LimiterStep (TimedLimiter.new window limit clock) events state) :
    state.limiter.Sound ∧ state.limiter.window = window.withDefaults ∧
      state.limiter.maxEntries = (Limiter.newWithLimit window limit).maxEntries ∧
      Follows state.clock state.limiter.entries (counters window.withDefaults events) := by
  revert events state
  refine Run.invariant _ ⟨Limiter.new_sound window limit, rfl, rfl, Follows.empty Bytes Int clock⟩ ?_
  intro past before event after _ ih step
  obtain ⟨sound, same, capacity, follows⟩ := ih
  obtain ⟨kept, sameNext, capacityNext, next⟩ := step.follows sound same follows
  exact ⟨kept, sameNext, capacityNext.trans capacity, next⟩

theorem run_allowAt_iff {window : Window} {limit clock : Int} {events : List LimiterEvent}
    {state : TimedLimiter}
    (run : Run LimiterStep (TimedLimiter.new window limit clock) events state) (key : Bytes)
    {now : Int} (periodic demand : MapOrder Bytes) (onward : state.clock ≤ now) :
    (state.limiter.allowAt key now periodic demand).1 = true ↔
      privateAllows window.withDefaults
          (privateCounter window.withDefaults (ownCalls (limiterKey key) events)) now = true ∧
      ¬ (¬ (counters window.withDefaults events).Active now (limiterKey key) ∧
        ({other | other ≠ limiterKey key ∧
          (counters window.withDefaults events).Active now other}.ncard : Int) =
            (Limiter.newWithLimit window limit).maxEntries) := by
  obtain ⟨sound, same, capacity, follows⟩ := limiter_follows window limit clock events state run
  have outcome := (Limiter.allowAt_follows key periodic demand sound (follows.later onward)).2
  rw [same, capacity] at outcome
  exact outcome

/-- After any run the limiter answers a key as the private counter of that key
does, except that it opens no window beyond its capacity; its map and its list
hold the same buckets. -/
theorem limiter_keys_private (window : Window) (limit clock : Int) (events : List LimiterEvent)
    (state : TimedLimiter)
    (run : Run LimiterStep (TimedLimiter.new window limit clock) events state) :
    (∀ (key : Bytes) (now : Int) (periodic demand : MapOrder Bytes), state.clock ≤ now →
      ((state.limiter.allowAt key now periodic demand).1 = true ↔
        privateAllows window.withDefaults
            (privateCounter window.withDefaults (ownCalls (limiterKey key) events)) now = true ∧
        ¬ (¬ (counters window.withDefaults events).Active now (limiterKey key) ∧
          ({other | other ≠ limiterKey key ∧
            (counters window.withDefaults events).Active now other}.ncard : Int) =
              (Limiter.newWithLimit window limit).maxEntries))) ∧
      state.limiter.store.Linked Bucket.key ∧
      state.limiter.len = state.limiter.store.values.length ∧
      state.limiter.len ≤ (Limiter.newWithLimit window limit).maxEntries := by
  obtain ⟨sound, _, capacity, _⟩ := limiter_follows window limit clock events state run
  refine ⟨?_, sound.linked, sound.linked.len_eq, ?_⟩
  · intro key now periodic demand onward
    exact run_allowAt_iff run key periodic demand onward
  · rw [← capacity]
    exact sound.bounded

def asStored : MapOrder Bytes := ⟨id, fun _ => List.Perm.refl _⟩

def sampleCalls : List LimiterEvent := [⟨.allowAt [97] 0 asStored asStored, .allowed true⟩]

/-- The other key is turned away, while the first is answered by its counter. -/
theorem full_limiter_counts_on :
    ∃ state, Run LimiterStep (TimedLimiter.new ⟨2, second⟩ 1 0) sampleCalls state ∧
      (state.limiter.allowAt [98] 5 asStored asStored).1 = false ∧
      ((state.limiter.allowAt [97] 5 asStored asStored).1 = true ↔
        privateAllows ⟨2, second⟩ (privateCounter ⟨2, second⟩ [(0, true)]) 5 = true ∧
        ¬ (¬ (counters ⟨2, second⟩ sampleCalls).Active 5 [97] ∧
          ({other | other ≠ [97] ∧ (counters ⟨2, second⟩ sampleCalls).Active 5 other}.ncard : Int) =
            1)) := by
  have run : Run LimiterStep (TimedLimiter.new ⟨2, second⟩ 1 0) ([] ++ sampleCalls)
      ⟨0, ((TimedLimiter.new ⟨2, second⟩ 1 0).limiter.allowAt [97] 0 asStored asStored).2⟩ :=
    Run.nil.snoc ⟨by decide, by rfl, rfl, rfl⟩
  refine ⟨_, run, by rfl, ?_⟩
  exact (limiter_keys_private ⟨2, second⟩ 1 0 sampleCalls _ run).1 [97] 5 asStored asStored
    (by decide)

end Libknock.Policy
