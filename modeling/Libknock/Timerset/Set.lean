import Libknock.Foundation.Runs
import Libknock.Foundation.Threads
import Libknock.Foundation.WaitGroup

/-!
# The timer set

`Set` of `internal/timerset/timerset.go`: the timers that a gateway starts and
stops together.  Calls of `AfterFunc`, timers that fire and calls of `StopAll`
are threads, and a step is one statement of one of them, or one atomic operation of
the wait group.  A panic of the wait group ends the program.  A callback may last as
long as it likes, and does not itself call `StopAll`.
-/

set_option autoImplicit false

namespace Libknock.Timerset

open Foundation

/-- Where a call of `AfterFunc` stands. -/
inductive CallPhase where
  | called
  | added
  | locked
  | armed
  | recorded
  | returned
  deriving DecidableEq

/-- A timer and, once it has fired, the goroutine that runs its function.  It is
`running` while the caller's `f` is. -/
inductive TimerPhase where
  | unset
  | armed
  | stopped
  | started
  | locked
  | deleted
  | unlocked
  | running
  | returned
  | counting
  | finished
  deriving DecidableEq

/-- The `sync.Once` of a timer: `zeroed` when `wg.Done` has these waiters to release,
`counted` after `wg.Done` and before the mark that lets other callers pass. -/
inductive OncePhase where
  | fresh
  | running
  | zeroed (waiters : Nat)
  | counted
  | done
  deriving DecidableEq

/-- A call of `AfterFunc` with the timer and the `timerEntry` it makes. -/
structure Entry where
  call : CallPhase
  timer : TimerPhase
  once : OncePhase
  deriving DecidableEq

/-- Where a call of `StopAll` stands; `left` are the timers its loop has yet to
visit.  It is `stopped` when `Stop` has returned true, and `counting` inside the
`sync.Once` of that timer.  In `wg.Wait` it is `waiting` before it looks at the counter,
`parked` while it sleeps, and `woken` when it has been released. -/
inductive StopPhase where
  | called
  | locked
  | swapped (left : Finset Nat)
  | ranging (left : Finset Nat)
  | stopped (entry : Nat) (left : Finset Nat)
  | counting (entry : Nat) (left : Finset Nat)
  | waiting
  | parked
  | woken
  | returned
  deriving DecidableEq

inductive Party where
  | afterFunc (index : Nat)
  | callback (index : Nat)
  | stopAll (index : Nat)
  deriving DecidableEq

/-- The set, with its map of timers that may be nil, and everything that runs on
it.  The timers are numbered by the calls that made them. -/
structure System where
  wg : WaitGroup
  holder : Option Party
  timers : Option (Finset Nat)
  entries : List Entry
  stops : List StopPhase
  panicked : Bool
  deriving DecidableEq

inductive Action where
  | afterFunc
  | afterStep (index : Nat)
  | fire (index : Nat)
  | callbackStep (index : Nat)
  | stopAll
  | stopStep (index : Nat)
  | visit (index entry : Nat)
  deriving DecidableEq

/-- One operation of the `wg.Done` that the `sync.Once` runs. -/
def OncePhase.countDown (wg : WaitGroup) : OncePhase → Option (OncePhase × WaitGroup)
  | .running => wg.lower.map fun next =>
    (if next.Zeroed then .zeroed next.waiters else .counted, next)
  | .zeroed waiters => (wg.release waiters).map fun next => (.counted, next)
  | _ => none

namespace System

/-- `New`, or the zero value. -/
def start (made : Bool) : System := ⟨.new, none, if made then some ∅ else none, [], [], false⟩

def panic (s : System) : System := { s with panicked := true }

def setEntry (index : Nat) (entry : Entry) (s : System) : System :=
  { s with entries := s.entries.set index entry }

def setStop (index : Nat) (phase : StopPhase) (s : System) : System :=
  { s with stops := s.stops.set index phase }

def countDown (target : Nat) (entry : Entry) (s : System) : System :=
  match entry.once.countDown s.wg with
  | none => s.panic
  | some (once, wg) => { s.setEntry target { entry with once := once } with wg := wg }

def afterStep (index : Nat) (s : System) : Option System :=
  match s.entries[index]? with
  | none => none
  | some entry =>
    match entry.call with
    | .called =>
      match s.wg.add with
      | none => some s.panic
      | some wg => some { s.setEntry index { entry with call := .added } with wg := wg }
    | .added =>
      if s.holder = none then
        some { s.setEntry index { entry with call := .locked } with
          holder := some (.afterFunc index) }
      else none
    | .locked => some (s.setEntry index { entry with call := .armed, timer := .armed })
    | .armed =>
      some { s.setEntry index { entry with call := .recorded } with
        timers := some (insert index (s.timers.getD ∅)) }
    | .recorded => some { s.setEntry index { entry with call := .returned } with holder := none }
    | .returned => none

/-- A timer that is armed may fire at any time, also while the call that made it
still holds the mutex. -/
def fire (index : Nat) (s : System) : Option System :=
  match s.entries[index]? with
  | none => none
  | some entry =>
    if entry.timer = .armed then some (s.setEntry index { entry with timer := .started })
    else none

def callbackStep (index : Nat) (s : System) : Option System :=
  match s.entries[index]? with
  | none => none
  | some entry =>
    match entry.timer, entry.once with
    | .started, _ =>
      if s.holder = none then
        some { s.setEntry index { entry with timer := .locked } with
          holder := some (.callback index) }
      else none
    | .locked, _ =>
      some { s.setEntry index { entry with timer := .deleted } with
        timers := s.timers.map (·.erase index) }
    | .deleted, _ => some { s.setEntry index { entry with timer := .unlocked } with holder := none }
    | .unlocked, _ => some (s.setEntry index { entry with timer := .running })
    | .running, _ => some (s.setEntry index { entry with timer := .returned })
    -- the deferred call of the sync.Once
    | .returned, .fresh =>
      some (s.setEntry index { entry with timer := .counting, once := .running })
    | .returned, .done => some (s.setEntry index { entry with timer := .finished })
    | .counting, .running => some (s.countDown index entry)
    | .counting, .zeroed _ => some (s.countDown index entry)
    | .counting, .counted =>
      some (s.setEntry index { entry with timer := .finished, once := .done })
    | _, _ => none

def stopStep (index : Nat) (s : System) : Option System :=
  match s.stops[index]? with
  | none => none
  | some .called =>
    if s.holder = none then some { s.setStop index .locked with holder := some (.stopAll index) }
    else none
  | some .locked =>
    some { s.setStop index (.swapped (s.timers.getD ∅)) with timers := some ∅ }
  | some (.swapped left) => some { s.setStop index (.ranging left) with holder := none }
  | some (.ranging left) => if left = ∅ then some (s.setStop index .waiting) else none
  | some (.stopped target left) =>
    match s.entries[target]? with
    | none => none
    | some entry =>
      match entry.once with
      | .fresh => some ((s.setEntry target { entry with once := .running }).setStop index
          (.counting target left))
      | .done => some (s.setStop index (.ranging left))
      | _ => none
  | some (.counting target left) =>
    match s.entries[target]? with
    | none => none
    | some entry =>
      match entry.once with
      | .running => some (s.countDown target entry)
      | .zeroed _ => some (s.countDown target entry)
      | .counted => some ((s.setEntry target { entry with once := .done }).setStop index
          (.ranging left))
      | _ => none
  | some .waiting =>
    if s.wg.counter = 0 then some (s.setStop index .returned)
    else some { s.setStop index .parked with wg := s.wg.park }
  | some .parked =>
    match s.wg.wake with
    | none => none
    | some wg => some { s.setStop index .woken with wg := wg }
  | some .woken => if s.wg.Reused then some s.panic else some (s.setStop index .returned)
  | some .returned => none

/-- The loop takes the timers of the old map in any order.  `Stop` returns true
exactly when the timer has not fired and has not been stopped before. -/
def visit (index target : Nat) (s : System) : Option System :=
  match s.stops[index]? with
  | some (.ranging left) =>
    if target ∈ left then
      match s.entries[target]? with
      | some ⟨call, .armed, once⟩ =>
        some ((s.setEntry target ⟨call, .stopped, once⟩).setStop index
          (.stopped target (left.erase target)))
      | _ => some (s.setStop index (.ranging (left.erase target)))
    else none
  | _ => none

def step (s : System) (action : Action) : Option System :=
  if s.panicked then none
  else
    match action with
    | .afterFunc => some { s with entries := s.entries ++ [⟨.called, .unset, .fresh⟩] }
    | .afterStep index => s.afterStep index
    | .fire index => s.fire index
    | .callbackStep index => s.callbackStep index
    | .stopAll => some { s with stops := s.stops ++ [.called] }
    | .stopStep index => s.stopStep index
    | .visit index target => s.visit index target

end System

/-! ## What one step does -/

/-- An operation of `wg.Done` that does not panic. -/
inductive DoneMoves (wg : WaitGroup) : OncePhase → OncePhase → WaitGroup → Prop
  | lowers : wg.counter ≠ 0 → (wg.counter = 1 → wg.waiters = 0) →
      DoneMoves wg .running .counted { wg with counter := wg.counter - 1 }
  | zeroes : wg.counter = 1 → wg.waiters ≠ 0 →
      DoneMoves wg .running (.zeroed wg.waiters) { wg with counter := 0 }
  | releases : wg.counter = 0 →
      DoneMoves wg (.zeroed wg.waiters) .counted ⟨0, 0, wg.permits + wg.waiters⟩

theorem OncePhase.countDown_moves {wg later : WaitGroup} {once next : OncePhase}
    (counted : once.countDown wg = some (next, later)) : DoneMoves wg once next later := by
  cases once with
  | running =>
    obtain ⟨lowered, result, same⟩ := Option.map_eq_some_iff.mp counted
    obtain ⟨positive, rfl⟩ := WaitGroup.lower_some result
    cases same
    split
    · rename_i zeroed
      have zero : wg.counter - 1 = 0 := zeroed.1
      rw [zero]
      exact .zeroes (by omega) zeroed.2
    · rename_i free
      refine .lowers positive fun one => ?_
      by_contra waiting
      exact free ⟨by simp [one], waiting⟩
  | zeroed waiters =>
    obtain ⟨released, result, same⟩ := Option.map_eq_some_iff.mp counted
    obtain ⟨zero, rfl, rfl⟩ := WaitGroup.release_some result
    cases same
    exact .releases zero
  | fresh | counted | done => cases counted

/-- A step of a call of `AfterFunc`, of its timer or of its callback: the entry,
the wait group, the holder of the mutex and the map after it. -/
inductive OwnMoves (wg : WaitGroup) (holder : Option Party) (timers : Option (Finset Nat))
    (index : Nat) (entry : Entry) :
    Action → Entry → WaitGroup → Option Party → Option (Finset Nat) → Prop
  | adds : entry.call = .called → ¬ wg.Zeroed →
      OwnMoves wg holder timers index entry (.afterStep index) { entry with call := .added }
        { wg with counter := wg.counter + 1 } holder timers
  | locks : entry.call = .added → holder = none →
      OwnMoves wg holder timers index entry (.afterStep index) { entry with call := .locked }
        wg (some (.afterFunc index)) timers
  | arms : entry.call = .locked →
      OwnMoves wg holder timers index entry (.afterStep index)
        { entry with call := .armed, timer := .armed } wg holder timers
  | records : entry.call = .armed →
      OwnMoves wg holder timers index entry (.afterStep index) { entry with call := .recorded }
        wg holder (some (insert index (timers.getD ∅)))
  | unlocks : entry.call = .recorded →
      OwnMoves wg holder timers index entry (.afterStep index) { entry with call := .returned }
        wg none timers
  | fires : entry.timer = .armed →
      OwnMoves wg holder timers index entry (.fire index) { entry with timer := .started }
        wg holder timers
  | callbackLocks : entry.timer = .started → holder = none →
      OwnMoves wg holder timers index entry (.callbackStep index) { entry with timer := .locked }
        wg (some (.callback index)) timers
  | deletes : entry.timer = .locked →
      OwnMoves wg holder timers index entry (.callbackStep index) { entry with timer := .deleted }
        wg holder (timers.map (·.erase index))
  | callbackUnlocks : entry.timer = .deleted →
      OwnMoves wg holder timers index entry (.callbackStep index) { entry with timer := .unlocked }
        wg none timers
  | begins : entry.timer = .unlocked →
      OwnMoves wg holder timers index entry (.callbackStep index) { entry with timer := .running }
        wg holder timers
  | ends : entry.timer = .running →
      OwnMoves wg holder timers index entry (.callbackStep index) { entry with timer := .returned }
        wg holder timers
  | enters : entry.timer = .returned → entry.once = .fresh →
      OwnMoves wg holder timers index entry (.callbackStep index)
        { entry with timer := .counting, once := .running } wg holder timers
  | skips : entry.timer = .returned → entry.once = .done →
      OwnMoves wg holder timers index entry (.callbackStep index) { entry with timer := .finished }
        wg holder timers
  | counts {once : OncePhase} {later : WaitGroup} : entry.timer = .counting →
      DoneMoves wg entry.once once later →
      OwnMoves wg holder timers index entry (.callbackStep index) { entry with once := once }
        later holder timers
  | marks : entry.timer = .counting → entry.once = .counted →
      OwnMoves wg holder timers index entry (.callbackStep index)
        { entry with timer := .finished, once := .done } wg holder timers

/-- A step of `StopAll` that changes no entry. -/
inductive StopMoves (wg : WaitGroup) (holder : Option Party) (timers : Option (Finset Nat))
    (entries : List Entry) (index : Nat) (phase : StopPhase) :
    Action → StopPhase → WaitGroup → Option Party → Option (Finset Nat) → Prop
  | locks : phase = .called → holder = none →
      StopMoves wg holder timers entries index phase (.stopStep index) .locked wg
        (some (.stopAll index)) timers
  | swaps : phase = .locked →
      StopMoves wg holder timers entries index phase (.stopStep index)
        (.swapped (timers.getD ∅)) wg holder (some ∅)
  | unlocks {left : Finset Nat} : phase = .swapped left →
      StopMoves wg holder timers entries index phase (.stopStep index) (.ranging left) wg none
        timers
  | ends : phase = .ranging ∅ →
      StopMoves wg holder timers entries index phase (.stopStep index) .waiting wg holder timers
  | passes {left : Finset Nat} {target : Nat} : phase = .ranging left → target ∈ left →
      StopMoves wg holder timers entries index phase (.visit index target)
        (.ranging (left.erase target)) wg holder timers
  | skips {left : Finset Nat} {target : Nat} {entry : Entry} : phase = .stopped target left →
      entries[target]? = some entry → entry.once = .done →
      StopMoves wg holder timers entries index phase (.stopStep index) (.ranging left) wg holder
        timers
  | returns : phase = .waiting ∨ phase = .woken ∧ wg.waiters = 0 → wg.counter = 0 →
      StopMoves wg holder timers entries index phase (.stopStep index) .returned wg holder timers
  | parks : phase = .waiting → wg.counter ≠ 0 →
      StopMoves wg holder timers entries index phase (.stopStep index) .parked wg.park holder timers
  | wakes : phase = .parked → wg.permits ≠ 0 →
      StopMoves wg holder timers entries index phase (.stopStep index) .woken
        { wg with permits := wg.permits - 1 } holder timers

/-- A step of `StopAll` on the timer it is at. -/
inductive JointMoves (wg : WaitGroup) (index target : Nat) (phase : StopPhase) (entry : Entry) :
    Action → StopPhase → Entry → WaitGroup → Prop
  | stops {left : Finset Nat} : phase = .ranging left → target ∈ left → entry.timer = .armed →
      JointMoves wg index target phase entry (.visit index target)
        (.stopped target (left.erase target)) { entry with timer := .stopped } wg
  | enters {left : Finset Nat} : phase = .stopped target left → entry.once = .fresh →
      JointMoves wg index target phase entry (.stopStep index) (.counting target left)
        { entry with once := .running } wg
  | counts {left : Finset Nat} {once : OncePhase} {later : WaitGroup} :
      phase = .counting target left → DoneMoves wg entry.once once later →
      JointMoves wg index target phase entry (.stopStep index) (.counting target left)
        { entry with once := once } later
  | marks {left : Finset Nat} : phase = .counting target left → entry.once = .counted →
      JointMoves wg index target phase entry (.stopStep index) (.ranging left)
        { entry with once := .done } wg

namespace System

/-- Why the program ends with a panic. -/
inductive Panics (s : System) : Action → Prop
  | adds {index : Nat} {entry : Entry} : s.entries[index]? = some entry → entry.call = .called →
      s.wg.Zeroed → Panics s (.afterStep index)
  | counts {index : Nat} {entry : Entry} : s.entries[index]? = some entry →
      entry.timer = .counting → entry.once ≠ .counted → entry.once.countDown s.wg = none →
      Panics s (.callbackStep index)
  | stopCounts {index target : Nat} {left : Finset Nat} {entry : Entry} :
      s.stops[index]? = some (.counting target left) → s.entries[target]? = some entry →
      entry.once ≠ .counted → entry.once.countDown s.wg = none → Panics s (.stopStep index)
  | wakes {index : Nat} : s.stops[index]? = some .woken → s.wg.Reused → Panics s (.stopStep index)

inductive Moves (s : System) : Action → System → Prop
  | calls : Moves s .afterFunc { s with entries := s.entries ++ [⟨.called, .unset, .fresh⟩] }
  | stops : Moves s .stopAll { s with stops := s.stops ++ [.called] }
  | own {index : Nat} {entry next : Entry} {action : Action} {wg : WaitGroup}
      {holder : Option Party} {timers : Option (Finset Nat)} : s.entries[index]? = some entry →
      OwnMoves s.wg s.holder s.timers index entry action next wg holder timers →
      Moves s action ⟨wg, holder, timers, s.entries.set index next, s.stops, s.panicked⟩
  | stop {index : Nat} {phase next : StopPhase} {action : Action} {wg : WaitGroup}
      {holder : Option Party} {timers : Option (Finset Nat)} : s.stops[index]? = some phase →
      StopMoves s.wg s.holder s.timers s.entries index phase action next wg holder timers →
      Moves s action ⟨wg, holder, timers, s.entries, s.stops.set index next, s.panicked⟩
  | joint {index target : Nat} {phase later : StopPhase} {entry next : Entry} {action : Action}
      {wg : WaitGroup} : s.stops[index]? = some phase → s.entries[target]? = some entry →
      JointMoves s.wg index target phase entry action later next wg →
      Moves s action
        ⟨wg, s.holder, s.timers, s.entries.set target next, s.stops.set index later, s.panicked⟩
  | panics {action : Action} : s.Panics action → Moves s action s.panic

variable {s after : System} {index target : Nat}

theorem countDown_cases (entry : Entry) :
    (entry.once.countDown s.wg = none ∧ s.countDown target entry = s.panic) ∨
      ∃ once wg, DoneMoves s.wg entry.once once wg ∧ s.countDown target entry =
        { s.setEntry target { entry with once := once } with wg := wg } := by
  unfold countDown
  split
  · rename_i none_
    exact Or.inl ⟨none_, rfl⟩
  · rename_i once wg counted
    exact Or.inr ⟨once, wg, OncePhase.countDown_moves counted, rfl⟩

theorem callback_counts {entry : Entry} (found : s.entries[index]? = some entry)
    (counting : entry.timer = .counting) (inside : entry.once ≠ .counted) :
    s.Moves (.callbackStep index) (s.countDown index entry) := by
  rcases @countDown_cases s index entry with ⟨none_, same⟩ | ⟨once, wg, moves, same⟩
  · rw [same]
    exact .panics (.counts found counting inside none_)
  · rw [same]
    exact .own found (.counts counting moves)

theorem stop_counts {entry : Entry} {left : Finset Nat}
    (found : s.stops[index]? = some (.counting target left))
    (there : s.entries[target]? = some entry) (inside : entry.once ≠ .counted) :
    s.Moves (.stopStep index) (s.countDown target entry) := by
  rcases @countDown_cases s target entry with ⟨none_, same⟩ | ⟨once, wg, moves, same⟩
  · rw [same]
    exact .panics (.stopCounts found there inside none_)
  · rw [same]
    have step := Moves.joint found there (.counts rfl moves)
    rw [set_self found] at step
    exact step

theorem afterStep_moves (stepped : s.afterStep index = some after) :
    s.Moves (.afterStep index) after := by
  unfold afterStep at stepped
  split at stepped
  · cases stepped
  rename_i entry found
  split at stepped
  · rename_i called
    split at stepped
    · rename_i full
      cases stepped
      refine .panics (.adds found called ?_)
      by_contra free
      simp [WaitGroup.add, free] at full
    · rename_i wg added
      cases stepped
      obtain ⟨free, rfl⟩ := WaitGroup.add_some added
      exact .own found (.adds called free)
  · rename_i added
    split at stepped
    · rename_i free
      cases stepped
      exact .own found (.locks added free)
    · cases stepped
  · rename_i locked
    cases stepped
    exact .own found (.arms locked)
  · rename_i armed
    cases stepped
    exact .own found (.records armed)
  · rename_i recorded
    cases stepped
    exact .own found (.unlocks recorded)
  · cases stepped

theorem fire_moves (stepped : s.fire index = some after) : s.Moves (.fire index) after := by
  unfold fire at stepped
  split at stepped
  · cases stepped
  rename_i entry found
  split at stepped
  · rename_i armed
    cases stepped
    exact .own found (.fires armed)
  · cases stepped

theorem callbackStep_moves (stepped : s.callbackStep index = some after) :
    s.Moves (.callbackStep index) after := by
  unfold callbackStep at stepped
  split at stepped
  · cases stepped
  rename_i entry found
  split at stepped
  · rename_i started
    split at stepped
    · rename_i free
      cases stepped
      exact .own found (.callbackLocks started free)
    · cases stepped
  · rename_i locked
    cases stepped
    exact .own found (.deletes locked)
  · rename_i deleted
    cases stepped
    exact .own found (.callbackUnlocks deleted)
  · rename_i unlocked
    cases stepped
    exact .own found (.begins unlocked)
  · rename_i running
    cases stepped
    exact .own found (.ends running)
  · rename_i returned fresh
    cases stepped
    exact .own found (.enters returned fresh)
  · rename_i returned done
    cases stepped
    exact .own found (.skips returned done)
  · rename_i counting running
    cases stepped
    exact callback_counts found counting (by rw [running]; nofun)
  · rename_i waiters counting zeroed
    cases stepped
    exact callback_counts found counting (by rw [zeroed]; nofun)
  · rename_i counting counted
    cases stepped
    exact .own found (.marks counting counted)
  · cases stepped

theorem stopStep_moves (stepped : s.stopStep index = some after) :
    s.Moves (.stopStep index) after := by
  unfold stopStep at stepped
  split at stepped
  · cases stepped
  · rename_i found
    split at stepped
    · rename_i free
      cases stepped
      exact .stop found (.locks rfl free)
    · cases stepped
  · rename_i found
    cases stepped
    exact .stop found (.swaps rfl)
  · rename_i left found
    cases stepped
    exact .stop found (.unlocks rfl)
  · rename_i left found
    split at stepped
    · rename_i empty
      cases stepped
      subst empty
      exact .stop found (.ends rfl)
    · cases stepped
  · rename_i target left found
    split at stepped
    · cases stepped
    rename_i entry there
    split at stepped
    · rename_i fresh
      cases stepped
      exact .joint found there (.enters rfl fresh)
    · rename_i done
      cases stepped
      exact .stop found (.skips rfl there done)
    · cases stepped
  · rename_i target left found
    split at stepped
    · cases stepped
    rename_i entry there
    split at stepped
    · rename_i running
      cases stepped
      exact stop_counts found there (by rw [running]; nofun)
    · rename_i waiters zeroed
      cases stepped
      exact stop_counts found there (by rw [zeroed]; nofun)
    · rename_i counted
      cases stepped
      exact .joint found there (.marks rfl counted)
    · cases stepped
  · rename_i found
    split at stepped
    · rename_i zero
      cases stepped
      exact .stop found (.returns (Or.inl rfl) zero)
    · rename_i positive
      cases stepped
      exact .stop found (.parks rfl positive)
  · rename_i found
    split at stepped
    · cases stepped
    · rename_i wg woke
      cases stepped
      obtain ⟨free, rfl⟩ := WaitGroup.wake_some woke
      exact .stop found (.wakes rfl free)
  · rename_i found
    split at stepped
    · rename_i reused
      cases stepped
      exact .panics (.wakes found reused)
    · rename_i unused
      cases stepped
      obtain ⟨zero, none_⟩ := not_or.mp unused
      exact .stop found (.returns (Or.inr ⟨rfl, not_not.mp none_⟩) (not_not.mp zero))
  · cases stepped

theorem visit_moves (stepped : s.visit index target = some after) :
    s.Moves (.visit index target) after := by
  unfold visit at stepped
  split at stepped
  · rename_i left found
    split at stepped
    · rename_i member
      split at stepped
      · rename_i call once there
        cases stepped
        exact .joint found there (.stops rfl member rfl)
      · cases stepped
        exact .stop found (.passes rfl member)
    · cases stepped
  · cases stepped

theorem step_moves {action : Action} (stepped : s.step action = some after) :
    s.Moves action after := by
  obtain ⟨-, stepped⟩ := Option.ite_none_left_eq_some.mp stepped
  cases action with
  | afterFunc =>
    cases stepped
    exact .calls
  | afterStep index => exact afterStep_moves stepped
  | fire index => exact fire_moves stepped
  | callbackStep index => exact callbackStep_moves stepped
  | stopAll =>
    cases stepped
    exact .stops
  | stopStep index => exact stopStep_moves stepped
  | visit index target => exact visit_moves stepped

end System

end Libknock.Timerset
