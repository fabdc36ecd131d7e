import Libknock.Timerset.Set

/-!
# Invariants of the timer set

What holds in every state that calls of `AfterFunc`, timers and calls of `StopAll`
reach together: the counter of the wait group is the number of `AfterFunc` calls
that it waits for, its waiters and permits are the calls of `StopAll` that sleep, the
mutex is held by who is inside, and a timer that `Stop` has stopped has one call of
`StopAll` to count it down.
-/

set_option autoImplicit false

namespace Libknock.Timerset

open Foundation

/-! ## One entry -/

def CallPhase.early : CallPhase → Bool
  | .called => true
  | .added => true
  | .locked => true
  | _ => false

/-- The timer may still fire, or its callback has not come to the `sync.Once`. -/
def TimerPhase.pending : TimerPhase → Bool
  | .stopped => false
  | .counting => false
  | .finished => false
  | _ => true

/-- Someone is inside the `sync.Once`. -/
def OncePhase.inside : OncePhase → Bool
  | .fresh => false
  | .done => false
  | _ => true

/-- The waiters that its `wg.Done` has still to release. -/
def OncePhase.held : OncePhase → Option Nat
  | .zeroed waiters => some waiters
  | _ => none

def OncePhase.settled : OncePhase → Bool
  | .zeroed _ => true
  | .counted => true
  | .done => true
  | _ => false

/-- The wait group waits for this entry. -/
def Entry.owing (entry : Entry) : Bool := decide (entry.call ≠ .called) && !entry.once.settled

def Entry.zeroed (entry : Entry) : Bool := entry.once.held.isSome

structure Entry.Sound (entry : Entry) : Prop where
  unset : entry.call.early = true ↔ entry.timer = .unset
  fresh : entry.timer.pending = true → entry.once = .fresh
  counting : entry.timer = .counting → entry.once.inside = true
  finished : entry.timer = .finished → entry.once = .done

theorem Entry.Sound.begun {entry : Entry} (sound : entry.Sound) (made : entry.timer ≠ .unset) :
    entry.call ≠ .called := by
  intro called
  exact made (sound.unset.mp (by rw [called]; rfl))

variable {wg group : WaitGroup} {holder holding : Option Party}
  {timers mapped : Option (Finset Nat)} {entries : List Entry} {stops : List StopPhase}
  {index target : Nat} {entry next : Entry} {phase later : StopPhase} {action : Action}

theorem DoneMoves.inside {once later : OncePhase} (moves : DoneMoves wg once later group) :
    once.inside = true ∧ later.inside = true ∧ later.settled = true := by
  cases moves <;> exact ⟨rfl, rfl, rfl⟩

/-- What a step does to the wait group with the entry that it changes. -/
inductive GroupMoves (wg : WaitGroup) (entry next : Entry) : WaitGroup → Prop
  | stays : next.owing = entry.owing → next.once.held = entry.once.held →
      next.once.settled = entry.once.settled → GroupMoves wg entry next wg
  | adds : entry.owing = false → next.owing = true → next.once = entry.once → ¬ wg.Zeroed →
      GroupMoves wg entry next { wg with counter := wg.counter + 1 }
  | counts {later : WaitGroup} : entry.call ≠ .called → next.call = entry.call →
      DoneMoves wg entry.once next.once later → GroupMoves wg entry next later

namespace OwnMoves

variable (moves : OwnMoves wg holder timers index entry action next group holding mapped)

include moves

theorem sound (sound : entry.Sound) : next.Sound := by
  obtain ⟨unset, fresh, counting, finished⟩ := sound
  cases moves with
  | adds standing | locks standing | records standing | unlocks standing =>
    rw [standing] at unset
    exact ⟨unset, fresh, counting, finished⟩
  | arms standing =>
    rw [standing] at unset
    rw [unset.mp rfl] at fresh
    exact ⟨⟨nofun, nofun⟩, fun _ => fresh rfl, nofun, nofun⟩
  | fires standing | callbackLocks standing | deletes standing | callbackUnlocks standing
  | begins standing | ends standing =>
    rw [standing] at unset fresh
    exact ⟨⟨fun early => absurd (unset.mp early) nofun, nofun⟩, fun _ => fresh rfl, nofun, nofun⟩
  | enters standing =>
    rw [standing] at unset
    exact ⟨⟨fun early => absurd (unset.mp early) nofun, nofun⟩, nofun, fun _ => rfl, nofun⟩
  | skips standing done =>
    rw [standing] at unset
    exact ⟨⟨fun early => absurd (unset.mp early) nofun, nofun⟩, nofun, nofun, fun _ => done⟩
  | counts standing done =>
    rw [standing] at unset
    refine ⟨⟨fun early => absurd (unset.mp early) nofun, ?_⟩, ?_, fun _ => done.inside.2.1, ?_⟩ <;>
      simp [standing, TimerPhase.pending]
  | marks standing =>
    rw [standing] at unset
    exact ⟨⟨fun early => absurd (unset.mp early) nofun, nofun⟩, nofun, nofun, fun _ => rfl⟩

theorem aside (sound : entry.Sound) :
    (next.timer = entry.timer ∧ next.once = entry.once) ∨
      (entry.timer ≠ .stopped ∧ next.timer ≠ .stopped) := by
  cases moves with
  | adds | locks | records | unlocks => exact Or.inl ⟨rfl, rfl⟩
  | arms standing =>
    have unset := sound.unset.mp (by rw [standing]; rfl)
    exact Or.inr ⟨by rw [unset]; nofun, nofun⟩
  | fires standing | callbackLocks standing | deletes standing | callbackUnlocks standing
  | begins standing | ends standing | enters standing | skips standing | marks standing =>
    exact Or.inr ⟨by rw [standing]; nofun, nofun⟩
  | counts standing => exact Or.inr ⟨by rw [standing]; nofun, by simp [standing]⟩

theorem onGroup (sound : entry.Sound) : GroupMoves wg entry next group := by
  cases moves with
  | adds standing free =>
    have unset := sound.unset.mp (by rw [standing]; rfl)
    have fresh := sound.fresh (by rw [unset]; rfl)
    refine .adds ?_ ?_ rfl free
    · simp [Entry.owing, standing]
    · simp [Entry.owing, fresh, OncePhase.settled]
  | locks standing | arms standing | records standing | unlocks standing =>
    exact .stays (by simp [Entry.owing, standing]) rfl rfl
  | fires | callbackLocks | deletes | callbackUnlocks | begins | ends | skips =>
    exact .stays rfl rfl rfl
  | enters standing fresh | marks standing fresh =>
    exact .stays (by simp [Entry.owing, fresh, OncePhase.settled]) (by rw [fresh]; rfl)
      (by rw [fresh]; rfl)
  | counts standing done => exact .counts (sound.begun (by rw [standing]; nofun)) rfl done

theorem lowers (less : group.counter < wg.counter) : action = .callbackStep index := by
  cases moves with
  | counts => rfl
  | adds => exact absurd less (not_lt.mpr (Nat.le_succ _))
  | locks | arms | records | unlocks | fires | callbackLocks | deletes | callbackUnlocks | begins
  | ends | enters | skips | marks => exact absurd less (lt_irrefl _)

theorem called (begun : entry.call ≠ .called) : next.call ≠ .called := by
  cases moves with
  | adds | locks | arms | records | unlocks => exact nofun
  | fires | callbackLocks | deletes | callbackUnlocks | begins | ends | enters | skips
  | counts | marks => exact begun

end OwnMoves

/-! ## `StopAll` at a timer -/

/-- The timer that the call has stopped and not counted down. -/
def StopPhase.on : StopPhase → Option Nat
  | .stopped entry _ => some entry
  | .counting entry _ => some entry
  | _ => none

/-- What the `sync.Once` of that timer is like. -/
def StopPhase.fits : StopPhase → OncePhase → Bool
  | .stopped _ _, .fresh => true
  | .counting _ _, once => once.inside
  | _, _ => false

/-- A timer that was stopped has one call of `StopAll` at it until it is counted
down. -/
structure Attended (entries : List Entry) (stops : List StopPhase) : Prop where
  fits : ∀ (index : Nat) (phase : StopPhase) (target : Nat), stops[index]? = some phase →
    phase.on = some target → ∃ entry : Entry, entries[target]? = some entry ∧
      entry.timer = .stopped ∧ phase.fits entry.once = true
  unique : ∀ (index other : Nat) (phase another : StopPhase) (target : Nat),
    stops[index]? = some phase → stops[other]? = some another → phase.on = some target →
    another.on = some target → index = other
  attended : ∀ (target : Nat) (entry : Entry), entries[target]? = some entry →
    entry.timer = .stopped → entry.once ≠ .done →
    ∃ (index : Nat) (phase : StopPhase), stops[index]? = some phase ∧ phase.on = some target

namespace JointMoves

variable (moves : JointMoves wg index target phase entry action later next group)

include moves

theorem stopped :
    next.timer = entry.timer ∧ phase.on = some target ∨
      entry.timer = .armed ∧ next.timer = .stopped ∧ later.on = some target ∧
        next.once = entry.once ∧ phase.on = none := by
  cases moves with
  | stops standing member armed =>
    rw [standing]
    exact Or.inr ⟨armed, rfl, rfl, rfl, rfl⟩
  | enters standing | counts standing | marks standing =>
    rw [standing]
    exact Or.inl ⟨rfl, rfl⟩

theorem call_eq : next.call = entry.call := by
  cases moves <;> rfl

theorem sound (sound : entry.Sound) (resting : phase.on = some target → entry.timer = .stopped) :
    next.Sound := by
  have unset := sound.unset
  rcases moves.stopped with ⟨same, on⟩ | ⟨armed, stopped, -⟩
  · rw [resting on] at same unset
    refine ⟨?_, ?_, ?_, ?_⟩
    · rw [moves.call_eq, same]
      exact unset
    all_goals
      rw [same]
      exact nofun
  · rw [armed] at unset
    refine ⟨?_, ?_, ?_, ?_⟩
    · rw [moves.call_eq, stopped]
      exact ⟨fun early => absurd (unset.mp early) nofun, nofun⟩
    all_goals
      rw [stopped]
      exact nofun

theorem onGroup (sound : entry.Sound) (resting : phase.on = some target → entry.timer = .stopped) :
    GroupMoves wg entry next group := by
  cases moves with
  | stops => exact .stays rfl rfl rfl
  | enters standing fresh | marks standing fresh =>
    exact .stays (by simp [Entry.owing, fresh, OncePhase.settled]) (by rw [fresh]; rfl)
      (by rw [fresh]; rfl)
  | counts standing done =>
    have stopped := resting (by rw [standing]; rfl)
    exact .counts (sound.begun (by rw [stopped]; nofun)) rfl done

theorem lowers (less : group.counter < wg.counter) :
    action = .stopStep index ∧ phase.on = some target := by
  cases moves with
  | counts standing =>
    rw [standing]
    exact ⟨rfl, rfl⟩
  | stops | enters | marks => exact absurd less (lt_irrefl _)

theorem fits (fresh : phase.on = none → entry.once = .fresh) :
    later.on = some target ∧ later.fits next.once = true ∨ later.on = none ∧ next.once = .done := by
  cases moves with
  | stops standing =>
    have once := fresh (by rw [standing]; rfl)
    exact Or.inl ⟨rfl, by rw [once]; rfl⟩
  | enters => exact Or.inl ⟨rfl, rfl⟩
  | counts standing done => exact Or.inl ⟨rfl, done.inside.2.1⟩
  | marks => exact Or.inr ⟨rfl, rfl⟩

end JointMoves

theorem Attended.resting (attended : Attended entries stops) (found : stops[index]? = some phase)
    (there : entries[target]? = some entry) (on : phase.on = some target) :
    entry.timer = .stopped := by
  obtain ⟨same, again, stopped, -⟩ := attended.fits index phase target found on
  cases there.symm.trans again
  exact stopped

theorem StopMoves.on_none
    (moves : StopMoves wg holder timers entries index phase action later group holding mapped)
    (found : stops[index]? = some phase) (attended : Attended entries stops) :
    phase.on = none ∧ later.on = none := by
  cases moves with
  | locks standing | swaps standing | unlocks standing | ends standing | passes standing
  | parks standing | wakes standing =>
    rw [standing]
    exact ⟨rfl, rfl⟩
  | returns standing =>
    rcases standing with standing | ⟨standing, -⟩ <;> (rw [standing]; exact ⟨rfl, rfl⟩)
  | @skips left target entry standing there done =>
    -- nobody else has been at the timer
    obtain ⟨same, read, -, fits⟩ := attended.fits index phase target found (by rw [standing]; rfl)
    cases there.symm.trans read
    rw [standing, done] at fits
    cases fits

namespace Attended

theorem own (attended : Attended entries stops)
    (found : entries[index]? = some entry)
    (aside : (next.timer = entry.timer ∧ next.once = entry.once) ∨
      (entry.timer ≠ .stopped ∧ next.timer ≠ .stopped)) :
    Attended (entries.set index next) stops where
  fits := by
    intro position phase target read on
    obtain ⟨other, there, stopped, fits⟩ := attended.fits position phase target read on
    by_cases same : index = target
    · subst same
      cases found.symm.trans there
      rcases aside with ⟨timer, once⟩ | ⟨apart, -⟩
      · refine ⟨next, getElem?_set_found next found, ?_, ?_⟩
        · rw [timer, stopped]
        · rw [once, fits]
      · exact absurd stopped apart
    · exact ⟨other, by rw [List.getElem?_set_ne same, there], stopped, fits⟩
  unique := attended.unique
  attended := by
    intro target other read stopped left
    rcases getElem?_set_cases found read with ⟨rfl, rfl⟩ | ⟨-, early⟩
    · rcases aside with ⟨timer, once⟩ | ⟨-, apart⟩
      · rw [timer] at stopped
        rw [once] at left
        exact attended.attended index entry found stopped left
      · exact absurd stopped apart
    · exact attended.attended target other early stopped left

section

variable (attended : Attended entries stops) (found : stops[index]? = some phase)

include attended found

theorem stop (before : phase.on = none) (after : later.on = none) :
    Attended entries (stops.set index later) where
  fits := by
    intro position other target read on
    rcases getElem?_set_cases found read with ⟨rfl, rfl⟩ | ⟨-, early⟩
    · rw [after] at on
      cases on
    · exact attended.fits position other target early on
  unique := by
    intro position another first second target read reads on on'
    rcases getElem?_set_cases found read with ⟨rfl, rfl⟩ | ⟨-, early⟩
    · rw [after] at on
      cases on
    · rcases getElem?_set_cases found reads with ⟨rfl, rfl⟩ | ⟨-, earlier⟩
      · rw [after] at on'
        cases on'
      · exact attended.unique position another first second target early earlier on on'
  attended := by
    intro target entry there stopped left
    obtain ⟨position, other, read, on⟩ := attended.attended target entry there stopped left
    refine ⟨position, other, ?_, on⟩
    rw [List.getElem?_set_ne, read]
    rintro rfl
    cases found.symm.trans read
    rw [before] at on
    cases on

theorem alone (there : entries[target]? = some entry)
    (moves : JointMoves wg index target phase entry action later next group)
    {other : Nat} {another : StopPhase} (apart : index ≠ other)
    (read : stops[other]? = some another) : another.on ≠ some target := by
  intro on
  rcases moves.stopped with ⟨-, mine⟩ | ⟨armed, -⟩
  · exact apart (attended.unique index other phase another target found read mine on)
  · obtain ⟨same, again, stopped, -⟩ := attended.fits other another target read on
    cases there.symm.trans again
    rw [armed] at stopped
    cases stopped

theorem joint (there : entries[target]? = some entry)
    (moves : JointMoves wg index target phase entry action later next group) (sound : entry.Sound) :
    Attended (entries.set target next) (stops.set index later) := by
  have stopped : next.timer = .stopped := by
    rcases moves.stopped with ⟨same, on⟩ | ⟨-, stopped, -⟩
    · rw [same, attended.resting found there on]
    · exact stopped
  have fits := moves.fits fun none_ => by
    rcases moves.stopped with ⟨-, on⟩ | ⟨armed, -⟩
    · rw [none_] at on
      cases on
    · exact sound.fresh (by rw [armed]; rfl)
  have mine : ∀ {other : Nat}, later.on = some other → other = target := by
    intro other on
    rcases fits with ⟨here, -⟩ | ⟨none_, -⟩
    · exact Option.some.inj (on.symm.trans here)
    · rw [none_] at on
      cases on
  have placed := getElem?_set_found next there
  constructor
  · intro position other wanted read on
    rcases getElem?_set_cases found read with ⟨rfl, rfl⟩ | ⟨apart, early⟩
    · cases mine on
      rcases fits with ⟨-, fit⟩ | ⟨none_, -⟩
      · exact ⟨next, placed, stopped, fit⟩
      · rw [none_] at on
        cases on
    · obtain ⟨entry', there', facts⟩ := attended.fits position other wanted early on
      refine ⟨entry', ?_, facts⟩
      rw [List.getElem?_set_ne, there']
      rintro rfl
      exact attended.alone found there moves apart early on
  · intro position another first second wanted read reads on on'
    rcases getElem?_set_cases found read with ⟨rfl, rfl⟩ | ⟨apart, early⟩ <;>
      rcases getElem?_set_cases found reads with ⟨rfl, rfl⟩ | ⟨apart', early'⟩
    · rfl
    · cases mine on
      exact absurd on' (attended.alone found there moves apart' early')
    · cases mine on'
      exact absurd on (attended.alone found there moves apart early)
    · exact attended.unique position another first second wanted early early' on on'
  · intro wanted other read timer left
    rcases getElem?_set_cases there read with ⟨rfl, rfl⟩ | ⟨apart, early⟩
    · rcases fits with ⟨here, -⟩ | ⟨-, done⟩
      · exact ⟨index, later, getElem?_set_found later found, here⟩
      · exact absurd done left
    · obtain ⟨position, phase', read', on⟩ := attended.attended wanted other early timer left
      refine ⟨position, phase', ?_, on⟩
      rw [List.getElem?_set_ne, read']
      rintro rfl
      cases found.symm.trans read'
      rcases moves.stopped with ⟨-, here⟩ | ⟨-, -, -, -, none_⟩
      · exact apart (Option.some.inj (here.symm.trans on))
      · rw [none_] at on
        cases on

end

end Attended

/-! ## The mutex -/

def CallPhase.inside : CallPhase → Bool
  | .locked => true
  | .armed => true
  | .recorded => true
  | _ => false

def TimerPhase.inside : TimerPhase → Bool
  | .locked => true
  | .deleted => true
  | _ => false

def StopPhase.inside : StopPhase → Bool
  | .locked => true
  | .swapped _ => true
  | _ => false

/-- Who is between taking and giving back the mutex. -/
def inside (entries : List Entry) (stops : List StopPhase) : Party → Bool
  | .afterFunc index => entries[index]?.any fun entry => entry.call.inside
  | .callback index => entries[index]?.any fun entry => entry.timer.inside
  | .stopAll index => stops[index]?.any StopPhase.inside

theorem inside_call (found : entries[index]? = some entry)
    (same : next.timer.inside = entry.timer.inside) :
    inside (entries.set index next) stops =
      Function.update (inside entries stops) (.afterFunc index) next.call.inside := by
  funext party
  rw [Function.update_apply]
  cases party with
  | afterFunc position => simp [inside, any_set found]
  | callback position =>
    simp only [inside, any_set found, reduceCtorEq, if_false]
    split
    · rename_i here
      rw [here, found, same]
      rfl
    · rfl
  | stopAll position => simp [inside]

theorem inside_timer (found : entries[index]? = some entry)
    (same : next.call.inside = entry.call.inside) :
    inside (entries.set index next) stops =
      Function.update (inside entries stops) (.callback index) next.timer.inside := by
  funext party
  rw [Function.update_apply]
  cases party with
  | afterFunc position =>
    simp only [inside, any_set found, reduceCtorEq, if_false]
    split
    · rename_i here
      rw [here, found, same]
      rfl
    · rfl
  | callback position => simp [inside, any_set found]
  | stopAll position => simp [inside]

theorem inside_stop (found : stops[index]? = some phase) :
    inside entries (stops.set index later) =
      Function.update (inside entries stops) (.stopAll index) later.inside := by
  funext party
  rw [Function.update_apply]
  cases party with
  | afterFunc | callback => simp [inside]
  | stopAll position => simp [inside, any_set found]

theorem inside_afterFunc (found : entries[index]? = some entry) :
    inside entries stops (.afterFunc index) = entry.call.inside := by
  rw [inside, found]
  rfl

theorem inside_callback (found : entries[index]? = some entry) :
    inside entries stops (.callback index) = entry.timer.inside := by
  rw [inside, found]
  rfl

theorem inside_stopAll (found : stops[index]? = some phase) :
    inside entries stops (.stopAll index) = phase.inside := by
  rw [inside, found]
  rfl

theorem OwnMoves.exclusive
    (moves : OwnMoves wg holder timers index entry action next group holding mapped)
    (found : entries[index]? = some entry) (sound : entry.Sound)
    (exclusive : Exclusive (inside entries stops) holder) :
    Exclusive (inside (entries.set index next) stops) holding := by
  have call := @inside_afterFunc entries stops index entry found
  have timer := @inside_callback entries stops index entry found
  cases moves with
  | adds standing | records standing =>
    rw [inside_call found (by rfl)]
    exact exclusive.keep (by rw [call, standing]; rfl)
  | locks standing free =>
    rw [inside_call found (by rfl)]
    exact exclusive.take free rfl
  | arms standing =>
    have unset := sound.unset.mp (by rw [standing]; rfl)
    rw [inside_call found (by rw [unset]; rfl)]
    exact exclusive.keep (by rw [call, standing]; rfl)
  | unlocks standing =>
    rw [inside_call found (by rfl)]
    exact exclusive.give (by rw [call, standing]; rfl) rfl
  | callbackLocks standing free =>
    rw [inside_timer found (by rfl)]
    exact exclusive.take free rfl
  | callbackUnlocks standing =>
    rw [inside_timer found (by rfl)]
    exact exclusive.give (by rw [timer, standing]; rfl) rfl
  | fires standing | deletes standing | begins standing | ends standing | enters standing
  | skips standing | marks standing =>
    rw [inside_timer found (by rfl)]
    exact exclusive.keep (by rw [timer, standing]; rfl)
  | counts standing =>
    rw [inside_timer found (by rfl)]
    exact exclusive.keep timer.symm

theorem StopMoves.exclusive
    (moves : StopMoves wg holder timers entries index phase action later group holding mapped)
    (found : stops[index]? = some phase) (exclusive : Exclusive (inside entries stops) holder) :
    Exclusive (inside entries (stops.set index later)) holding := by
  have own := @inside_stopAll entries stops index phase found
  rw [inside_stop found]
  cases moves with
  | locks standing free => exact exclusive.take free rfl
  | unlocks standing => exact exclusive.give (by rw [own, standing]; rfl) rfl
  | swaps standing | ends standing | passes standing | skips standing | parks standing
  | wakes standing => exact exclusive.keep (by rw [own, standing]; rfl)
  | returns standing =>
    rcases standing with standing | ⟨standing, -⟩ <;>
      exact exclusive.keep (by rw [own, standing]; rfl)

theorem JointMoves.exclusive
    (moves : JointMoves wg index target phase entry action later next group)
    (found : stops[index]? = some phase) (there : entries[target]? = some entry)
    (exclusive : Exclusive (inside entries stops) holder) :
    Exclusive (inside (entries.set target next) (stops.set index later)) holder := by
  have own := @inside_stopAll entries stops index phase found
  have timer := @inside_callback entries stops target entry there
  have call : next.call.inside = entry.call.inside := by rw [moves.call_eq]
  have stop : Exclusive (inside entries (stops.set index later)) holder := by
    rw [inside_stop found]
    cases moves with
    | counts standing => exact exclusive.keep (by rw [own, standing])
    | stops standing | enters standing | marks standing =>
      exact exclusive.keep (by rw [own, standing]; rfl)
  rw [inside_timer there call]
  apply stop.keep
  rw [inside_callback there]
  cases moves with
  | stops standing member armed =>
    rw [armed]
    rfl
  | enters | counts | marks => rfl

/-! ## The wait group -/

/-- The call sleeps in `wg.Wait`. -/
def StopPhase.sleeps : StopPhase → Bool
  | .parked => true
  | _ => false

/-- The counter is what the wait group waits for, at most one `wg.Done` has waiters to
release, and who sleeps is a waiter or has a permit. -/
structure Tallied (wg : WaitGroup) (entries : List Entry) (stops : List StopPhase) : Prop where
  counter : wg.counter = entries.countP Entry.owing
  zeroed : entries.countP Entry.zeroed = if wg.Zeroed then 1 else 0
  held : ∀ entry ∈ entries, entry.zeroed = true → entry.once.held = some wg.waiters
  sleeping : stops.countP StopPhase.sleeps = wg.waiters + wg.permits

theorem not_zeroed (none_ : entries.countP Entry.zeroed = 0) :
    ∀ entry ∈ entries, entry.zeroed = true → entry.once.held = some group.waiters :=
  fun entry member zeroed => absurd zeroed (List.countP_eq_zero.mp none_ entry member)

theorem Tallied.count (tallied : Tallied wg entries stops) (found : entries[index]? = some entry)
    (called : entry.call ≠ .called) (same : next.call = entry.call)
    (moves : DoneMoves wg entry.once next.once group) :
    Tallied group (entries.set index next) stops := by
  have owed := countP_set_add Entry.owing next found
  have zeroes := countP_set_add Entry.zeroed next found
  have counter := tallied.counter
  have zeroed := tallied.zeroed
  have sleeping := tallied.sleeping
  generalize before : entry.once = once at moves
  generalize later : next.once = after at moves
  have started : decide (entry.call ≠ .called) = true := decide_eq_true called
  simp only [Entry.owing, Entry.zeroed, before, later, same, started, Bool.true_and] at owed zeroes
  cases moves with
  | lowers positive alone =>
    have idle : (entries.set index next).countP Entry.zeroed = 0 := by
      rw [if_neg fun zero => positive zero.1] at zeroed
      exact zeroes.trans zeroed
    refine ⟨?_, ?_, not_zeroed idle, sleeping⟩
    · simp only [OncePhase.settled, Bool.not_false, Bool.not_true, Bool.false_eq_true, if_true,
        if_false] at owed
      simp only
      omega
    · rw [idle, if_neg]
      rintro ⟨zero, waiting⟩
      simp only at zero waiting
      exact waiting (alone (by omega))
  | zeroes one waiting =>
    have busy : ¬ wg.Zeroed := by
      rintro ⟨zero, -⟩
      rw [one] at zero
      cases zero
    rw [if_neg busy] at zeroed
    refine ⟨?_, ?_, ?_, sleeping⟩
    · simp only [OncePhase.settled, Bool.not_false, Bool.not_true, Bool.false_eq_true, if_true,
        if_false] at owed
      simp only
      omega
    · rw [if_pos ⟨rfl, waiting⟩]
      simp only [OncePhase.held, Option.isSome_none, Option.isSome_some, Bool.false_eq_true,
        if_true, if_false] at zeroes
      omega
    · intro other member
      obtain ⟨position, read⟩ := List.mem_iff_getElem?.mp member
      rcases getElem?_set_cases found read with ⟨-, rfl⟩ | ⟨-, early⟩
      · rw [later]
        exact fun _ => rfl
      · exact not_zeroed zeroed other (List.mem_of_getElem? early)
  | releases zero =>
    have idle : (entries.set index next).countP Entry.zeroed = 0 := by
      simp only [OncePhase.held, Option.isSome_none, Option.isSome_some, Bool.false_eq_true,
        if_true, if_false] at zeroes
      split at zeroed <;> omega
    refine ⟨?_, ?_, not_zeroed idle, ?_⟩
    · simp only [OncePhase.settled, Bool.not_true, Bool.false_eq_true, if_false] at owed
      simp only
      omega
    · rw [idle, if_neg fun zeroed => zeroed.2 rfl]
    · rw [sleeping, Nat.zero_add, Nat.add_comm]

theorem Tallied.set (tallied : Tallied wg entries stops) (found : entries[index]? = some entry)
    (moves : GroupMoves wg entry next group) : Tallied group (entries.set index next) stops := by
  have owed := countP_set_add Entry.owing next found
  have zeroes := countP_set_add Entry.zeroed next found
  have counter := tallied.counter
  have zeroed := tallied.zeroed
  cases moves with
  | stays same held =>
    have alike : next.zeroed = entry.zeroed := by rw [Entry.zeroed, held, Entry.zeroed]
    rw [same] at owed
    rw [alike] at zeroes
    refine ⟨by omega, by omega, ?_, tallied.sleeping⟩
    intro other member
    obtain ⟨position, read⟩ := List.mem_iff_getElem?.mp member
    rcases getElem?_set_cases found read with ⟨-, rfl⟩ | ⟨-, early⟩
    · rw [alike, held]
      exact tallied.held entry (List.mem_of_getElem? found)
    · exact tallied.held other (List.mem_of_getElem? early)
  | adds idle owing same free =>
    have alike : next.zeroed = entry.zeroed := by rw [Entry.zeroed, same, Entry.zeroed]
    rw [idle, owing] at owed
    rw [alike] at zeroes
    rw [if_neg free] at zeroed
    refine ⟨?_, ?_, not_zeroed (by omega), tallied.sleeping⟩
    · simp only [Bool.false_eq_true, if_false, if_true] at owed
      simp only
      omega
    · rw [if_neg fun zero => Nat.succ_ne_zero _ zero.1]
      omega
  | counts called same moves => exact tallied.count found called same moves

theorem StopMoves.tallied
    (moves : StopMoves wg holder timers entries index phase action later group holding mapped)
    (found : stops[index]? = some phase) (tallied : Tallied wg entries stops) :
    Tallied group entries (stops.set index later) := by
  have change := countP_set_add StopPhase.sleeps later found
  have sleeping := tallied.sleeping
  cases moves with
  | parks standing positive =>
    have idle : entries.countP Entry.zeroed = 0 := by
      rw [tallied.zeroed, if_neg fun zero => positive zero.1]
    refine ⟨tallied.counter, ?_, not_zeroed idle, ?_⟩
    · rw [idle, if_neg fun zero => positive zero.1]
    · simp only [standing, StopPhase.sleeps, Bool.false_eq_true, if_true, if_false] at change
      simp only [WaitGroup.park]
      omega
  | wakes standing free =>
    refine ⟨tallied.counter, tallied.zeroed, tallied.held, ?_⟩
    simp only [standing, StopPhase.sleeps, Bool.false_eq_true, if_true, if_false] at change
    simp only
    omega
  | locks standing | swaps standing | unlocks standing | ends standing | passes standing
  | skips standing =>
    rw [standing] at change
    exact ⟨tallied.counter, tallied.zeroed, tallied.held, change.trans sleeping⟩
  | returns standing =>
    refine ⟨tallied.counter, tallied.zeroed, tallied.held, ?_⟩
    rcases standing with standing | ⟨standing, -⟩ <;>
      (rw [standing] at change; exact change.trans sleeping)

/-! ## Over whole runs -/

namespace System

structure Consistent (s : System) : Prop where
  sound : ∀ (index : Nat) (entry : Entry), s.entries[index]? = some entry → entry.Sound
  attended : Attended s.entries s.stops
  exclusive : Exclusive (inside s.entries s.stops) s.holder
  tallied : Tallied s.wg s.entries s.stops

variable {s after : System}

theorem Consistent.called (consistent : s.Consistent) :
    Consistent { s with entries := s.entries ++ [⟨.called, .unset, .fresh⟩] } where
  sound := by
    intro index entry read
    rcases getElem?_snoc_cases read with early | ⟨-, rfl⟩
    · exact consistent.sound index entry early
    · exact ⟨⟨fun _ => rfl, fun _ => rfl⟩, fun _ => rfl, nofun, nofun⟩
  attended := by
    constructor
    · intro index phase target read on
      obtain ⟨entry, there, facts⟩ := consistent.attended.fits index phase target read on
      exact ⟨entry, getElem?_snoc_found _ there, facts⟩
    · exact consistent.attended.unique
    · intro target entry read stopped left
      rcases getElem?_snoc_cases read with early | ⟨-, rfl⟩
      · exact consistent.attended.attended target entry early stopped left
      · cases stopped
  exclusive := by
    have outside : inside (s.entries ++ [⟨.called, .unset, .fresh⟩]) s.stops =
        inside s.entries s.stops := by
      funext party
      cases party with
      | afterFunc | callback => exact any_snoc rfl
      | stopAll index => rfl
    rw [outside]
    exact consistent.exclusive
  tallied := by
    obtain ⟨counter, zeroed, held, sleeping⟩ := consistent.tallied
    refine ⟨?_, ?_, ?_, sleeping⟩
    · rw [counter, List.countP_append]
      rfl
    · rw [← zeroed, List.countP_append]
      rfl
    · intro entry member
      rcases List.mem_append.mp member with early | newest
      · exact held entry early
      · rw [List.mem_singleton.mp newest]
        exact nofun

theorem Consistent.stopping (consistent : s.Consistent) :
    Consistent { s with stops := s.stops ++ [.called] } where
  sound := consistent.sound
  attended := by
    constructor
    · intro index phase target read on
      rcases getElem?_snoc_cases read with early | ⟨-, rfl⟩
      · exact consistent.attended.fits index phase target early on
      · cases on
    · intro index other phase another target read reads on on'
      rcases getElem?_snoc_cases read with early | ⟨-, rfl⟩
      · rcases getElem?_snoc_cases reads with earlier | ⟨-, rfl⟩
        · exact consistent.attended.unique index other phase another target early earlier on on'
        · cases on'
      · cases on
    · intro target entry there stopped left
      obtain ⟨index, phase, read, on⟩ :=
        consistent.attended.attended target entry there stopped left
      exact ⟨index, phase, getElem?_snoc_found _ read, on⟩
  exclusive := by
    have outside : inside s.entries (s.stops ++ [.called]) = inside s.entries s.stops := by
      funext party
      cases party with
      | afterFunc | callback => rfl
      | stopAll index => exact any_snoc rfl
    rw [outside]
    exact consistent.exclusive
  tallied := by
    obtain ⟨counter, zeroed, held, sleeping⟩ := consistent.tallied
    refine ⟨counter, zeroed, held, ?_⟩
    rw [← sleeping, List.countP_append]
    rfl

theorem Consistent.moves (consistent : s.Consistent) (moves : s.Moves action after) :
    after.Consistent := by
  cases moves with
  | calls => exact consistent.called
  | stops => exact consistent.stopping
  | @own index entry next action wg holder timers found step =>
    have sound := consistent.sound index entry found
    constructor
    · intro position other read
      rcases getElem?_set_cases found read with ⟨rfl, rfl⟩ | ⟨-, early⟩
      · exact step.sound sound
      · exact consistent.sound position other early
    · exact consistent.attended.own found (step.aside sound)
    · exact step.exclusive found sound consistent.exclusive
    · exact consistent.tallied.set found (step.onGroup sound)
  | @stop index phase next action wg holder timers found step =>
    obtain ⟨before, later⟩ := step.on_none found consistent.attended
    exact ⟨consistent.sound, consistent.attended.stop found before later,
      step.exclusive found consistent.exclusive, step.tallied found consistent.tallied⟩
  | @joint index target phase later entry next action wg found there step =>
    have sound := consistent.sound target entry there
    have resting := consistent.attended.resting found there
    constructor
    · intro position other read
      rcases getElem?_set_cases there read with ⟨rfl, rfl⟩ | ⟨-, early⟩
      · exact step.sound sound resting
      · exact consistent.sound position other early
    · exact consistent.attended.joint found there step sound
    · exact step.exclusive found there consistent.exclusive
    · have awake : later.sleeps = phase.sleeps := by
        cases step with
        | counts standing => rw [standing]
        | stops standing | enters standing | marks standing =>
          rw [standing]
          rfl
      have change := countP_set_add StopPhase.sleeps later found
      obtain ⟨counter, zeroed, held, sleeping⟩ :=
        consistent.tallied.set there (step.onGroup sound resting)
      refine ⟨counter, zeroed, held, ?_⟩
      rw [awake] at change
      exact (Nat.add_right_cancel change).trans sleeping
  | panics =>
    exact ⟨consistent.sound, consistent.attended, consistent.exclusive, consistent.tallied⟩

theorem consistent_start (made : Bool) : (start made).Consistent where
  sound := nofun
  attended := ⟨nofun, nofun, nofun⟩
  exclusive := by
    intro party
    cases party <;> exact ⟨nofun, nofun⟩
  tallied := ⟨rfl, rfl, nofun, rfl⟩

theorem consistent_run (made : Bool) :
    ∀ past s, Run (Steps step) (start made) past s → s.Consistent := by
  apply Run.invariant (fun _ (s : System) => s.Consistent) (consistent_start made)
  intro past before action after _ consistent stepped
  exact consistent.moves (step_moves stepped)

end System

end Libknock.Timerset
