import Libknock.Gatewaycore.Resources
import Libknock.Timerset.Invariants

/-!
# The timer set of the gateways

The gateways' models use a timer set that is two numbers, the timers armed and the
callbacks of those that fired.  The interleaved set carries out its operations: an
`AfterFunc` at its `wg.Add`, a callback at the `wg.Done` that follows it, and a
`StopAll`, with its wait, when it returns.
-/

set_option autoImplicit false

namespace Libknock.Timerset

open Foundation Gatewaycore

/-- What is done with the timer set of a gateway; `wait` is the end of `StopAll`. -/
inductive Operation where
  | afterFunc
  | fire
  | callbackDone
  | stop
  | wait
  deriving DecidableEq

def apply (timers : TimerSet) : Operation → Option TimerSet
  | .afterFunc => some timers.afterFunc
  | .fire => timers.fire
  | .callbackDone => timers.callbackDone
  | .stop => some timers.stop
  | .wait => if timers.Idle then some timers else none

/-- The operations that one step carries out. -/
def shown (before : System) (action : Action) (after : System) : List Operation :=
  match action with
  | .afterStep _ => if before.wg.counter < after.wg.counter then [.afterFunc] else []
  | .fire _ => [.fire]
  | .callbackStep _ => if after.wg.counter < before.wg.counter then [.callbackDone] else []
  | .stopStep index => if after.stops[index]? = some .returned then [.stop, .wait] else []
  | _ => []

/-! ## The two numbers -/

/-- The timer has fired. -/
def TimerPhase.fired : TimerPhase → Bool
  | .unset => false
  | .armed => false
  | .stopped => false
  | _ => true

/-- The wait group waits for a timer that has not fired, also for one that `StopAll`
has stopped and not counted down. -/
def Entry.unfired (entry : Entry) : Bool := entry.owing && !entry.timer.fired

def Entry.called (entry : Entry) : Bool := entry.owing && entry.timer.fired

variable {wg group : WaitGroup} {holder holding : Option Party}
  {timers mapped : Option (Finset Nat)} {entries : List Entry} {stops : List StopPhase}
  {index target : Nat} {entry next : Entry} {phase later : StopPhase} {action : Action}

theorem owing_eq_unfired_add_called (entries : List Entry) :
    entries.countP Entry.owing = entries.countP Entry.unfired + entries.countP Entry.called := by
  induction entries with
  | nil => rfl
  | cons entry rest ih =>
    rw [List.countP_cons, List.countP_cons, List.countP_cons, ih]
    cases owing : entry.owing <;> cases fired : entry.timer.fired <;>
      simp [Entry.unfired, Entry.called, owing, fired] <;> omega

/-- The timers armed may still be those that a `StopAll` has stopped one by one: in
the gateways' set they all go when it returns. -/
structure Follows (entries : List Entry) (timers : TimerSet) : Prop where
  armed : entries.countP Entry.unfired ≤ timers.armed
  callbacks : timers.callbacks = entries.countP Entry.called

/-- What a step does to the two numbers with the entry that it changes. -/
inductive Tallies (entry next : Entry) : List Operation → Prop
  | stays : next.unfired = entry.unfired → next.called = entry.called → Tallies entry next []
  | adds : entry.unfired = false → entry.called = false → next.called = false →
      Tallies entry next [.afterFunc]
  | fires : entry.unfired = true → next.unfired = false → entry.called = false →
      next.called = true → Tallies entry next [.fire]
  | ends : entry.called = true → next.called = false → next.unfired = entry.unfired →
      Tallies entry next [.callbackDone]
  | drops : next.unfired = false → next.called = entry.called → Tallies entry next []

variable {abstract : TimerSet}

theorem Follows.tallies {operations : List Operation} (follows : Follows entries abstract)
    (found : entries[index]? = some entry) (tallies : Tallies entry next operations) :
    ∃ after, Run (Steps apply) abstract operations after ∧
      Follows (entries.set index next) after := by
  obtain ⟨armed, callbacks⟩ := follows
  have unfired := countP_set_add Entry.unfired next found
  have called := countP_set_add Entry.called next found
  cases tallies with
  | stays same still =>
    rw [same] at unfired
    rw [still] at called
    exact ⟨abstract, .nil, by omega, by omega⟩
  | adds none_ idle still =>
    rw [none_] at unfired
    rw [idle, still] at called
    refine ⟨abstract.afterFunc, Run.nil.snoc rfl, ?_, ?_⟩
    · have more : (if next.unfired = true then 1 else 0) ≤ 1 := by split <;> simp
      simp only [Bool.false_eq_true, if_false] at unfired
      simp only [TimerSet.afterFunc]
      omega
    · simp only [TimerSet.afterFunc]
      omega
  | fires was gone idle runs =>
    rw [was, gone] at unfired
    rw [idle, runs] at called
    simp only [Bool.false_eq_true, if_true, if_false] at unfired called
    have positive : 0 < abstract.armed := by omega
    refine ⟨⟨abstract.armed - 1, abstract.callbacks + 1⟩, Run.nil.snoc (if_pos positive), ?_, ?_⟩
    · show _ ≤ abstract.armed - 1
      omega
    · show abstract.callbacks + 1 = _
      omega
  | ends was gone same =>
    rw [same] at unfired
    rw [was, gone] at called
    simp only [Bool.false_eq_true, if_true, if_false] at called
    have positive : 0 < abstract.callbacks := by omega
    refine ⟨{ abstract with callbacks := abstract.callbacks - 1 },
      Run.nil.snoc (if_pos positive), ?_, ?_⟩
    · show _ ≤ abstract.armed
      omega
    · show abstract.callbacks - 1 = _
      omega
  | drops gone same =>
    rw [gone] at unfired
    rw [same] at called
    simp only [Bool.false_eq_true, if_false] at unfired
    exact ⟨abstract, .nil, by omega, by omega⟩

/-! ## One step -/

theorem settled_tallies {once : OncePhase} (settled : once.settled = true) (call : CallPhase)
    (timer : TimerPhase) :
    Entry.unfired ⟨call, timer, once⟩ = false ∧ Entry.called ⟨call, timer, once⟩ = false := by
  simp [Entry.unfired, Entry.called, Entry.owing, settled]

theorem counting_tallies (begun : entry.call ≠ .called) (standing : entry.timer = .counting)
    (running : entry.once = .running) : entry.unfired = false ∧ entry.called = true := by
  simp [Entry.unfired, Entry.called, Entry.owing, begun, running, standing, OncePhase.settled,
    TimerPhase.fired]

section

variable {before after : System}

theorem shown_afterStep (same : after.wg.counter = before.wg.counter) :
    shown before (.afterStep index) after = [] :=
  if_neg (by omega)

theorem shown_callbackStep (same : after.wg.counter = before.wg.counter) :
    shown before (.callbackStep index) after = [] :=
  if_neg (by omega)

theorem OwnMoves.tallies
    (moves : OwnMoves before.wg holder timers index entry action next group holding mapped)
    (sound : entry.Sound) (same : after.wg = group) :
    Tallies entry next (shown before action after) := by
  subst same
  generalize counter : after.wg = group at moves
  cases moves with
  | adds standing =>
    have unset := sound.unset.mp (by rw [standing]; rfl)
    have more : before.wg.counter < after.wg.counter := by simp [counter]
    rw [shown, if_pos more]
    refine .adds ?_ ?_ ?_ <;>
      simp [Entry.unfired, Entry.called, Entry.owing, standing, unset, TimerPhase.fired]
  | locks standing | records standing | unlocks standing =>
    rw [shown_afterStep (by rw [counter])]
    exact .stays (by simp [Entry.unfired, Entry.owing, standing])
      (by simp [Entry.called, Entry.owing, standing])
  | arms standing =>
    have unset := sound.unset.mp (by rw [standing]; rfl)
    rw [shown_afterStep (by rw [counter])]
    exact .stays (by simp [Entry.unfired, Entry.owing, standing, unset, TimerPhase.fired])
      (by simp [Entry.called, Entry.owing, standing, unset, TimerPhase.fired])
  | fires standing =>
    have begun := sound.begun (by rw [standing]; decide)
    have fresh := sound.fresh (by rw [standing]; rfl)
    refine .fires ?_ ?_ ?_ ?_ <;>
      simp [Entry.unfired, Entry.called, Entry.owing, begun, fresh, standing, OncePhase.settled,
        TimerPhase.fired]
  | callbackLocks standing | deletes standing | callbackUnlocks standing | begins standing
  | ends standing | skips standing =>
    rw [shown_callbackStep (by rw [counter])]
    exact .stays (by simp [Entry.unfired, Entry.owing, standing, TimerPhase.fired])
      (by simp [Entry.called, Entry.owing, standing, TimerPhase.fired])
  | enters standing fresh | marks standing fresh =>
    rw [shown_callbackStep (by rw [counter])]
    refine .stays ?_ ?_ <;>
      simp [Entry.unfired, Entry.called, Entry.owing, standing, fresh, OncePhase.settled,
        TimerPhase.fired]
  | @counts once _ standing done =>
    obtain ⟨unfired, called⟩ := settled_tallies done.inside.2.2 entry.call entry.timer
    have begun := sound.begun (by rw [standing]; decide)
    generalize on : entry.once = now at done
    cases done with
    | lowers positive =>
      obtain ⟨fired, runs⟩ := counting_tallies begun standing on
      have less : after.wg.counter < before.wg.counter := by
        rw [counter]
        exact Nat.sub_one_lt positive
      rw [shown, if_pos less]
      exact .ends runs called (unfired.trans fired.symm)
    | zeroes one =>
      obtain ⟨fired, runs⟩ := counting_tallies begun standing on
      have less : after.wg.counter < before.wg.counter := by simp [counter, one]
      rw [shown, if_pos less]
      exact .ends runs called (unfired.trans fired.symm)
    | releases zero =>
      rw [shown_callbackStep (by rw [counter, zero])]
      refine .stays ?_ ?_ <;>
        simp [Entry.unfired, Entry.called, Entry.owing, on, OncePhase.settled]

theorem JointMoves.tallies (moves : JointMoves wg index target phase entry action later next group)
    (resting : phase.on = some target → entry.timer = .stopped)
    (found : after.stops[index]? = some later) :
    Tallies entry next (shown before action after) := by
  cases moves with
  | stops standing member armed =>
    refine .stays ?_ ?_ <;>
      simp [Entry.unfired, Entry.called, Entry.owing, armed, TimerPhase.fired]
  | enters standing fresh | marks standing fresh =>
    rw [shown, if_neg (by simp [found])]
    refine .stays ?_ ?_ <;>
      simp [Entry.unfired, Entry.called, Entry.owing, fresh, OncePhase.settled]
  | counts standing done =>
    have stopped := resting (by rw [standing]; rfl)
    obtain ⟨unfired, called⟩ := settled_tallies done.inside.2.2 entry.call entry.timer
    rw [shown, if_neg (by simp [found])]
    refine .drops unfired ?_
    rw [called]
    simp [Entry.called, stopped, TimerPhase.fired]

theorem Follows.idle (follows : Follows entries abstract) (none_ : entries.countP Entry.owing = 0) :
    abstract.stop.Idle ∧ Follows entries abstract.stop := by
  have split := owing_eq_unfired_add_called entries
  have callbacks := follows.callbacks
  exact ⟨⟨rfl, by show abstract.callbacks = 0; omega⟩, by show _ ≤ 0; omega, callbacks⟩

theorem StopMoves.follows
    (moves : StopMoves wg holder timers entries index phase action later group holding mapped)
    (tallied : Tallied wg entries stops) (found : after.stops[index]? = some later)
    (follows : Follows entries abstract) :
    ∃ next, Run (Steps apply) abstract (shown before action after) next ∧
      Follows entries next := by
  cases moves with
  | returns standing zero =>
    obtain ⟨idle, still⟩ := follows.idle (by rw [← tallied.counter, zero])
    rw [shown, if_pos found]
    have stopped : Run (Steps apply) abstract [.stop] abstract.stop := Run.nil.snoc rfl
    exact ⟨abstract.stop, stopped.snoc (if_pos idle), still⟩
  | passes => exact ⟨abstract, .nil, follows⟩
  | locks | swaps | unlocks | ends | skips | parks | wakes =>
    rw [shown, if_neg (by rw [found]; nofun)]
    exact ⟨abstract, .nil, follows⟩

end

namespace System

variable {s after : System}

theorem Panics.shown (panics : s.Panics action) : shown s action s.panic = [] := by
  cases panics with
  | adds => exact shown_afterStep rfl
  | counts => exact shown_callbackStep rfl
  | stopCounts found | wakes found =>
    refine if_neg ?_
    show s.stops[_]? ≠ _
    rw [found]
    exact nofun

theorem Moves.follows (moves : s.Moves action after) (consistent : s.Consistent)
    (follows : Follows s.entries abstract) :
    ∃ next, Run (Steps apply) abstract (shown s action after) next ∧
      Follows after.entries next := by
  cases moves with
  | calls =>
    refine ⟨abstract, .nil, ?_, ?_⟩
    · simpa [Entry.unfired, Entry.owing] using follows.armed
    · simpa [Entry.called, Entry.owing] using follows.callbacks
  | stops => exact ⟨abstract, .nil, follows⟩
  | own found step =>
    exact follows.tallies found (step.tallies (consistent.sound _ _ found) rfl)
  | stop found step =>
    exact step.follows consistent.tallied (getElem?_set_found _ found) follows
  | joint found there step =>
    exact follows.tallies there (step.tallies (consistent.attended.resting found there)
      (getElem?_set_found _ found))
  | panics why =>
    rw [why.shown]
    exact ⟨abstract, .nil, follows⟩

/-- Over every interleaving, the operations carried out are ones that the gateways'
timer set allows: a timer fires only if one is armed there, and when a `StopAll` returns
that set is idle once its timers are stopped.  The callbacks it counts are those the wait
group waits for. -/
theorem timerSet_refines (made : Bool) (past : List Action) (s : System)
    (run : Run (Steps step) (start made) past s) :
    ∃ timers, Run (Steps apply) TimerSet.new (shownAlong step shown (start made) past) timers ∧
      s.wg.counter ≤ timers.armed + timers.callbacks ∧
      timers.callbacks = s.entries.countP Entry.called := by
  have together : (start made).Consistent ∧ Follows (start made).entries TimerSet.new :=
    ⟨consistent_start made, le_rfl, rfl⟩
  obtain ⟨timers, shown, consistent, follows⟩ :=
    run.simulates (fun s timers => s.Consistent ∧ Follows s.entries timers)
      (by
        rintro s timers action after ⟨consistent, follows⟩ stepped
        have moves := step_moves stepped
        obtain ⟨next, operations, still⟩ := moves.follows consistent follows
        exact ⟨next, operations, consistent.moves moves, still⟩) together
  have counter := consistent.tallied.counter
  rw [owing_eq_unfired_add_called] at counter
  have armed := follows.armed
  have callbacks := follows.callbacks
  exact ⟨timers, shown, by omega, callbacks⟩

end System

end Libknock.Timerset
