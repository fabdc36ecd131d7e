import Libknock.Timerset.Invariants

/-!
# Shutting a timer set down

Each `AfterFunc` is counted down at most once and each callback runs at most once, and
after `StopAll` the timers that were there before it are at rest for good.  Where no
`AfterFunc` adds to the wait group while calls of `StopAll` are being released, the
group does not panic, every thread comes to its end, and each `AfterFunc` is counted
down.
-/

set_option autoImplicit false

namespace Libknock.Timerset

open Foundation

/-! ## Every thread comes to its end -/

def CallPhase.weight : CallPhase → Nat
  | .called => 9
  | .added => 8
  | .locked => 7
  | .armed => 6
  | .recorded => 1
  | .returned => 0

def TimerPhase.weight : TimerPhase → Nat
  | .unset => 10
  | .armed => 9
  | .started => 8
  | .locked => 7
  | .deleted => 6
  | .unlocked => 5
  | .running => 4
  | .returned => 3
  | .counting => 2
  | .stopped => 0
  | .finished => 0

def OncePhase.weight : OncePhase → Nat
  | .fresh => 4
  | .running => 3
  | .zeroed _ => 2
  | .counted => 1
  | .done => 0

def Entry.weight (entry : Entry) : Nat :=
  entry.call.weight + entry.timer.weight + entry.once.weight

/-- A timer in a map weighs four, so that `StopAll` may take the map over. -/
def StopPhase.weight : StopPhase → Nat
  | .called => 7
  | .locked => 6
  | .swapped left => 5 + 4 * left.card
  | .ranging left => 4 + 4 * left.card
  | .stopped _ left => 7 + 4 * left.card
  | .counting _ left => 6 + 4 * left.card
  | .waiting => 3
  | .parked => 2
  | .woken => 1
  | .returned => 0

def System.weight (s : System) : Nat :=
  (s.entries.map Entry.weight).sum + (s.stops.map StopPhase.weight).sum +
    4 * (s.timers.getD ∅).card + if s.panicked then 0 else 1

def TimerPhase.begun : TimerPhase → Bool
  | .running => true
  | .returned => true
  | .counting => true
  | .finished => true
  | _ => false

def Action.begins : Action → Bool
  | .afterFunc => true
  | .stopAll => true
  | _ => false

variable {wg group : WaitGroup} {holder holding : Option Party}
  {timers mapped : Option (Finset Nat)} {entries : List Entry} {index target : Nat}
  {entry next : Entry} {phase later : StopPhase} {action : Action}

theorem DoneMoves.lighter {once next : OncePhase} (moves : DoneMoves wg once next group) :
    next.weight < once.weight := by
  cases moves <;> simp [OncePhase.weight]

theorem OwnMoves.lighter
    (moves : OwnMoves wg holder timers index entry action next group holding mapped)
    (sound : entry.Sound) :
    next.weight + 4 * (mapped.getD ∅).card < entry.weight + 4 * (timers.getD ∅).card := by
  unfold Entry.weight
  cases moves with
  | records standing =>
    have more := Finset.card_insert_le index (timers.getD ∅)
    simp only [standing, CallPhase.weight, Option.getD_some]
    omega
  | deletes standing =>
    have fewer : ((timers.map fun map : Finset Nat => map.erase index).getD ∅).card ≤
        (timers.getD ∅).card := by
      cases timers with
      | none => exact le_rfl
      | some map => exact Finset.card_erase_le
    simp only [standing, TimerPhase.weight]
    omega
  | adds standing | locks standing | unlocks standing =>
    simp only [standing, CallPhase.weight]
    omega
  | arms standing =>
    have unset := sound.unset.mp (by rw [standing]; rfl)
    simp only [standing, unset, CallPhase.weight, TimerPhase.weight]
    omega
  | fires standing | callbackLocks standing | callbackUnlocks standing | begins standing
  | ends standing | skips standing =>
    simp only [standing, TimerPhase.weight]
    omega
  | enters standing once | marks standing once =>
    simp only [standing, once, TimerPhase.weight, OncePhase.weight]
    omega
  | counts standing done =>
    have less := done.lighter
    simp only
    omega

theorem StopMoves.lighter
    (moves : StopMoves wg holder timers entries index phase action later group holding mapped) :
    later.weight + 4 * (mapped.getD ∅).card < phase.weight + 4 * (timers.getD ∅).card := by
  cases moves with
  | passes standing member =>
    have fewer := Finset.card_erase_lt_of_mem member
    simp only [standing, StopPhase.weight]
    omega
  | locks standing | parks standing | wakes standing | skips standing | unlocks standing =>
    simp only [standing, StopPhase.weight]
    omega
  | returns standing =>
    rcases standing with standing | ⟨standing, -⟩ <;>
      (simp only [standing, StopPhase.weight]; omega)
  | swaps standing | ends standing =>
    simp only [standing, StopPhase.weight, Option.getD_some, Finset.card_empty]
    omega

theorem JointMoves.lighter
    (moves : JointMoves wg index target phase entry action later next group) :
    later.weight + next.weight < phase.weight + entry.weight := by
  unfold Entry.weight
  cases moves with
  | stops standing member armed =>
    have fewer := Finset.card_erase_lt_of_mem member
    simp only [standing, armed, StopPhase.weight, TimerPhase.weight]
    omega
  | enters standing once | marks standing once =>
    simp only [standing, once, StopPhase.weight, OncePhase.weight]
    omega
  | counts standing done =>
    have less := done.lighter
    simp only [standing]
    omega

theorem StopMoves.counter_eq
    (moves : StopMoves wg holder timers entries index phase action later group holding mapped) :
    group.counter = wg.counter := by
  cases moves <;> rfl

namespace System

variable {s after : System}

theorem awake_of_step (stepped : s.step action = some after) : s.panicked = false := by
  obtain ⟨awake, -⟩ := Option.ite_none_left_eq_some.mp stepped
  exact eq_false_of_ne_true awake

theorem Consistent.lighter (consistent : s.Consistent) (stepped : s.step action = some after)
    (old : action.begins = false) : after.weight < s.weight := by
  have awake := awake_of_step stepped
  unfold weight
  cases step_moves stepped with
  | panics => simp [panic, awake]
  | calls | stops => cases old
  | @own index entry next action wg holder timers found step =>
    have less := step.lighter (consistent.sound index entry found)
    have change := sum_set_add Entry.weight next found
    simp only
    omega
  | @stop index phase next action wg holder timers found step =>
    have less := step.lighter
    have change := sum_set_add StopPhase.weight next found
    simp only
    omega
  | @joint index target phase later entry next action wg found there step =>
    have less := step.lighter
    have change := sum_set_add StopPhase.weight later found
    have changed := sum_set_add Entry.weight next there
    simp only
    omega

/-- No thread that is there can take a step. -/
def Stuck (s : System) : Prop := ∀ action : Action, action.begins = false → s.step action = none

theorem stuck_of_panicked (panicked : s.panicked = true) : s.Stuck := by
  intro action _
  simp [step, panicked]

theorem Stuck.afterStep (stuck : s.Stuck) (awake : s.panicked = false)
    (found : s.entries[index]? = some entry) (free : s.holder = none ∨ entry.call.inside = true) :
    entry.call = .returned := by
  have none_ := stuck (.afterStep index) rfl
  simp only [step, awake, Bool.false_eq_true, if_false, System.afterStep, found] at none_
  cases standing : entry.call with
  | returned => rfl
  | added =>
    rw [standing] at none_ free
    rcases free with free | inside
    · simp [free] at none_
    · cases inside
  | called =>
    simp only [standing] at none_
    split at none_ <;> cases none_
  | locked | armed | recorded =>
    rw [standing] at none_
    cases none_

theorem Stuck.callbackStep (stuck : s.Stuck) (awake : s.panicked = false)
    (found : s.entries[index]? = some entry) (sound : entry.Sound)
    (free : s.holder = none ∨ entry.timer.inside = true) :
    entry.timer = .unset ∨ entry.timer = .stopped ∨ entry.timer = .finished := by
  have none_ := stuck (.callbackStep index) rfl
  have unfired := stuck (.fire index) rfl
  simp only [step, awake, Bool.false_eq_true, if_false, System.callbackStep, System.fire,
    found] at none_ unfired
  cases standing : entry.timer with
  | unset => exact Or.inl rfl
  | stopped => exact Or.inr (Or.inl rfl)
  | finished => exact Or.inr (Or.inr rfl)
  | armed => simp [standing] at unfired
  | started =>
    rw [standing] at free
    rcases free with free | inside
    · simp [standing, free] at none_
    · cases inside
  | locked | deleted | unlocked | running => simp [standing] at none_
  | returned =>
    have fresh := sound.fresh (by rw [standing]; rfl)
    simp [standing, fresh] at none_
  | counting =>
    have within := sound.counting standing
    cases once : entry.once <;> simp [standing, once, OncePhase.inside] at none_ within

section

variable (stuck : s.Stuck) (awake : s.panicked = false) (consistent : s.Consistent)

include stuck awake consistent

theorem Stuck.stopStep (found : s.stops[index]? = some phase)
    (free : s.holder = none ∨ phase.inside = true) :
    phase = .parked ∧ s.wg.permits = 0 ∨ phase = .returned := by
  have none_ := stuck (.stopStep index) rfl
  simp only [step, awake, Bool.false_eq_true, if_false, System.stopStep, found] at none_
  cases standing : phase with
  | waiting =>
    simp only [standing] at none_
    split at none_ <;> cases none_
  | parked =>
    by_contra able
    have permitted : s.wg.permits ≠ 0 := fun none_ => able (Or.inl ⟨rfl, none_⟩)
    simp [standing, WaitGroup.wake, permitted] at none_
  | woken =>
    simp only [standing] at none_
    split at none_ <;> cases none_
  | returned => exact Or.inr rfl
  | called =>
    rw [standing] at free
    rcases free with free | inside
    · simp [standing, free] at none_
    · cases inside
  | locked | swapped left => simp [standing] at none_
  | ranging left =>
    -- an empty loop ends, and another one can visit any of its timers
    rcases Finset.eq_empty_or_nonempty left with rfl | ⟨target, member⟩
    · simp [standing] at none_
    · have unvisited := stuck (.visit index target) rfl
      simp only [step, awake, Bool.false_eq_true, System.visit, found, standing, member, if_true,
        if_false] at unvisited
      split at unvisited <;> cases unvisited
  | stopped target left =>
    obtain ⟨entry, there, -, fits⟩ :=
      consistent.attended.fits index phase target found (by rw [standing]; rfl)
    cases once : entry.once <;> simp [standing, once, StopPhase.fits] at fits
    simp [standing, there, once] at none_
  | counting target left =>
    obtain ⟨entry, there, -, fits⟩ :=
      consistent.attended.fits index phase target found (by rw [standing]; rfl)
    cases once : entry.once <;> simp [standing, once, StopPhase.fits, OncePhase.inside] at fits <;>
      simp [standing, there, once] at none_

/-- Who holds the mutex can go on. -/
theorem Stuck.free : s.holder = none := by
  cases held : s.holder with
  | none => rfl
  | some party =>
    exfalso
    have within := (consistent.exclusive party).mpr held
    cases party with
    | afterFunc index =>
      obtain ⟨entry, found, inside⟩ := (Option.any_eq_true _ _).mp within
      rw [stuck.afterStep awake found (Or.inr inside)] at inside
      cases inside
    | callback index =>
      obtain ⟨entry, found, inside⟩ := (Option.any_eq_true _ _).mp within
      have sound := consistent.sound index entry found
      rcases stuck.callbackStep awake found sound (Or.inr inside) with
        rest | rest | rest <;> (rw [rest] at inside; cases inside)
    | stopAll index =>
      obtain ⟨phase, found, inside⟩ := (Option.any_eq_true _ _).mp within
      rcases stuck.stopStep awake consistent found (Or.inr inside) with ⟨rest, -⟩ | rest <;>
        (rw [rest] at inside; cases inside)

/-- Where nothing can move, everything has ended. -/
theorem Stuck.ended :
    (∀ (index : Nat) (entry : Entry), s.entries[index]? = some entry →
      entry.call = .returned ∧ entry.once = .done) ∧ s.wg.counter = 0 ∧
    ∀ (index : Nat) (phase : StopPhase), s.stops[index]? = some phase → phase = .returned := by
  have free := stuck.free awake consistent
  have settled : ∀ (index : Nat) (entry : Entry), s.entries[index]? = some entry →
      entry.call = .returned ∧ entry.once = .done := by
    intro index entry found
    have sound := consistent.sound index entry found
    have returned := stuck.afterStep awake found (Or.inl free)
    refine ⟨returned, ?_⟩
    rcases stuck.callbackStep awake found sound (Or.inl free) with unset | stopped | finished
    · have early := sound.unset.mpr unset
      rw [returned] at early
      cases early
    · by_contra left
      obtain ⟨position, phase, read, on⟩ :=
        consistent.attended.attended index entry found stopped left
      rcases stuck.stopStep awake consistent read (Or.inl free) with ⟨rfl, -⟩ | rfl <;> cases on
    · exact sound.finished finished
  have none_ : ∀ test : Entry → Bool, (∀ entry : Entry, entry.once = .done → ¬ test entry = true) →
      s.entries.countP test = 0 := by
    intro test fails
    refine List.countP_eq_zero.mpr fun entry member => ?_
    obtain ⟨index, found⟩ := List.mem_iff_getElem?.mp member
    exact fails entry (settled index entry found).2
  obtain ⟨counter, zeroed, -, sleeping⟩ := consistent.tallied
  have zero : s.wg.counter = 0 := by
    rw [counter]
    exact none_ Entry.owing fun entry done => by simp [Entry.owing, done, OncePhase.settled]
  refine ⟨settled, zero, ?_⟩
  intro index phase found
  rcases stuck.stopStep awake consistent found (Or.inl free) with ⟨rfl, unpermitted⟩ | returned
  · -- no `Done` has waiters to release, so that there are none
    exfalso
    rw [none_ Entry.zeroed fun entry done => by simp [Entry.zeroed, done, OncePhase.held]] at zeroed
    have unwaited : s.wg.waiters = 0 := by
      by_contra waiting
      rw [if_pos ⟨zero, waiting⟩] at zeroed
      cases zeroed
    rw [unwaited, unpermitted] at sleeping
    exact List.countP_eq_zero.mp sleeping _ (List.mem_of_getElem? found) rfl
  · exact returned

end

theorem length_le_weight (consistent : s.Consistent) {future : List Action} {last : System}
    (run : Run (Steps step) s future last) (old : ∀ action ∈ future, action.begins = false) :
    future.length + last.weight ≤ s.weight ∧ last.Consistent := by
  induction run with
  | nil => exact ⟨by simp, consistent⟩
  | @snoc past before after action earlier stepped ih =>
    obtain ⟨bound, held⟩ := ih fun action member => old action (List.mem_append_left _ member)
    have less := held.lighter stepped (old action (by simp))
    refine ⟨?_, held.moves (step_moves stepped)⟩
    rw [List.length_append, List.length_singleton]
    omega

/-! ## Panics -/

/-- Between the `Done` that brings the counter to zero while calls of `StopAll` sleep,
and the return of those calls. -/
def Releasing (s : System) : Prop := s.wg.Zeroed ∨ s.wg.permits ≠ 0 ∨ .woken ∈ s.stops

instance (s : System) : Decidable s.Releasing := inferInstanceAs (Decidable (_ ∨ _ ∨ _))

/-- No `AfterFunc` adds to the wait group while calls of `StopAll` are being released. -/
def AddsApart (s : System) : Action → Prop
  | .afterStep index => s.entries[index]?.any (fun entry => decide (entry.call = .called)) = true →
    ¬ s.Releasing
  | _ => True

instance (s : System) : ∀ action : Action, Decidable (s.AddsApart action)
  | .afterStep _ => inferInstanceAs (Decidable (_ → _))
  | .afterFunc | .fire _ | .callbackStep _ | .stopAll | .stopStep _ | .visit _ _ => isTrue trivial

/-- The group is at rest while calls of `StopAll` return. -/
structure Calm (s : System) : Prop where
  awake : s.panicked = false
  rested : s.wg.permits ≠ 0 ∨ .woken ∈ s.stops → s.wg.counter = 0 ∧ s.wg.waiters = 0

theorem Consistent.countDown (consistent : s.Consistent) (found : s.entries[target]? = some entry)
    (called : entry.call ≠ .called) (inside : entry.once.inside = true)
    (uncounted : entry.once ≠ .counted) : entry.once.countDown s.wg ≠ none := by
  obtain ⟨counter, zeroed, held, -⟩ := consistent.tallied
  have member := List.mem_of_getElem? found
  cases once : entry.once with
  | running =>
    have owing : entry.owing = true := by
      rw [Entry.owing, once, decide_eq_true called]
      rfl
    have positive : s.wg.counter ≠ 0 := by
      rw [counter]
      exact fun zero => List.countP_eq_zero.mp zero entry member owing
    simp [OncePhase.countDown, WaitGroup.lower, positive]
  | zeroed waiters =>
    have mine : entry.zeroed = true := by
      rw [Entry.zeroed, once]
      rfl
    have same := held entry member mine
    rw [once] at same
    have zero : s.wg.Zeroed := by
      by_contra free
      rw [if_neg free] at zeroed
      exact List.countP_eq_zero.mp zeroed entry member mine
    simp [OncePhase.countDown, WaitGroup.release, zero.1, Option.some.inj same]
  | fresh | done =>
    rw [once] at inside
    cases inside
  | counted => exact absurd once uncounted

/-- Only an `Add` on a group whose waiters are being released panics, and a waiter that
finds the group in use. -/
theorem Consistent.panics (consistent : s.Consistent) (panics : s.Panics action) :
    (∃ index entry, action = .afterStep index ∧ s.entries[index]? = some entry ∧
        entry.call = .called ∧ s.wg.Zeroed) ∨ .woken ∈ s.stops ∧ s.wg.Reused := by
  cases panics with
  | adds found called zeroed => exact Or.inl ⟨_, _, rfl, found, called, zeroed⟩
  | wakes found reused => exact Or.inr ⟨List.mem_of_getElem? found, reused⟩
  | counts found counting uncounted none_ =>
    have sound := consistent.sound _ _ found
    exact absurd none_ (consistent.countDown found (sound.begun (by rw [counting]; nofun))
      (sound.counting counting) uncounted)
  | stopCounts found there uncounted none_ =>
    obtain ⟨entry, read, stopped, fits⟩ := consistent.attended.fits _ _ _ found rfl
    cases there.symm.trans read
    have begun := (consistent.sound _ _ there).begun (by rw [stopped]; nofun)
    exact absurd none_ (consistent.countDown there begun fits uncounted)

theorem DoneMoves.rested (calm : s.Calm) {once next : OncePhase}
    (moves : DoneMoves s.wg once next group) (released : group.permits ≠ 0 ∨ .woken ∈ s.stops) :
    group.counter = 0 ∧ group.waiters = 0 := by
  cases moves with
  | lowers positive => exact absurd (calm.rested released).1 positive
  | zeroes one =>
    have zero := (calm.rested released).1
    rw [one] at zero
    cases zero
  | releases => exact ⟨rfl, rfl⟩

theorem released_of_set {stops : List StopPhase} {permitted : Prop}
    (released : permitted ∨ .woken ∈ stops.set index later) (other : later ≠ .woken) :
    permitted ∨ .woken ∈ stops := by
  refine released.imp_right fun member => ?_
  rcases List.mem_or_eq_of_mem_set member with old | new
  · exact old
  · exact absurd new.symm other

theorem Calm.step (calm : s.Calm) (consistent : s.Consistent)
    (stepped : s.step action = some after) (apart : s.AddsApart action) : after.Calm := by
  have awake := calm.awake
  have rested := calm.rested
  cases step_moves stepped with
  | calls => exact ⟨awake, rested⟩
  | stops =>
    refine ⟨awake, fun released => rested ?_⟩
    simpa using released
  | own found step =>
    refine ⟨awake, ?_⟩
    cases step with
    | adds called =>
      intro released
      refine absurd (Or.inr released) (apart ?_)
      rw [found, Option.any_some, decide_eq_true called]
    | counts standing done => exact fun released => DoneMoves.rested calm done released
    | locks | arms | records | unlocks | fires | callbackLocks | deletes | callbackUnlocks | begins
    | ends | enters | skips | marks => exact rested
  | stop found step =>
    refine ⟨awake, ?_⟩
    cases step with
    | parks standing positive =>
      intro released
      exact absurd (rested (released_of_set released nofun)).1 positive
    | wakes standing free => exact fun _ => rested (Or.inl free)
    | locks | swaps | unlocks | ends | passes | skips | returns =>
      exact fun released => rested (released_of_set released nofun)
  | joint found there step =>
    refine ⟨awake, ?_⟩
    cases step with
    | counts standing done =>
      exact fun released =>
        DoneMoves.rested calm done (released_of_set released nofun)
    | stops | enters | marks =>
      exact fun released => rested (released_of_set released nofun)
  | panics why =>
    exfalso
    rcases consistent.panics why with ⟨index, entry, rfl, found, called, zeroed⟩ | ⟨woken, reused⟩
    · refine apart ?_ (Or.inl zeroed)
      rw [found, Option.any_some, decide_eq_true called]
    · obtain ⟨zero, none_⟩ := rested (Or.inr woken)
      exact reused.elim (fun counting => counting zero) fun waiting => waiting none_

theorem calm_run (made : Bool) :
    ∀ past s, Run (Along AddsApart (Steps step)) (start made) past s → s.Calm := by
  apply Run.invariant (fun _ (s : System) => s.Calm)
  · refine ⟨rfl, fun released => ⟨rfl, rfl⟩⟩
  · intro past before action after earlier calm stepped
    have consistent := consistent_run made past before (earlier.mono fun _ _ _ step => step.1)
    exact calm.step consistent stepped.1 stepped.2

/-- Calls of `StopAll` that are being released go on without an `AfterFunc`. -/
theorem Releasing.progress (releasing : s.Releasing) (awake : s.panicked = false)
    (consistent : s.Consistent) :
    ∃ action after, s.step action = some after ∧ action.begins = false ∧ s.AddsApart action := by
  rcases releasing with zero | permitted | woken
  · -- the `Done` that found the waiters is in a callback or in another `StopAll`
    obtain ⟨entry, member, mine⟩ : ∃ entry ∈ s.entries, entry.zeroed = true := by
      apply List.countP_pos_iff.mp
      rw [consistent.tallied.zeroed, if_pos zero]
      exact one_pos
    obtain ⟨target, found⟩ := List.mem_iff_getElem?.mp member
    have sound := consistent.sound target entry found
    cases once : entry.once with
    | zeroed waiters =>
      have left : entry.once ≠ .done := by
        rw [once]
        nofun
      cases standing : entry.timer with
      | counting =>
        refine ⟨.callbackStep target, s.countDown target entry, ?_, rfl, trivial⟩
        simp [step, awake, callbackStep, found, standing, once]
      | stopped =>
        obtain ⟨index, phase, read, on⟩ :=
          consistent.attended.attended target entry found standing left
        obtain ⟨same, again, -, fits⟩ := consistent.attended.fits index phase target read on
        cases found.symm.trans again
        obtain ⟨left, rfl⟩ : ∃ left, phase = .counting target left := by
          cases phase <;> simp_all [StopPhase.on, StopPhase.fits]
        refine ⟨.stopStep index, s.countDown target entry, ?_, rfl, trivial⟩
        simp [step, awake, stopStep, read, found, once]
      | finished => exact absurd (sound.finished standing) left
      | unset | armed | started | locked | deleted | unlocked | running | returned =>
        have fresh := sound.fresh (by rw [standing]; rfl)
        rw [once] at fresh
        cases fresh
    | fresh | running | counted | done => simp [Entry.zeroed, once, OncePhase.held] at mine
  · obtain ⟨phase, member, sleeps⟩ : ∃ phase ∈ s.stops, phase.sleeps = true := by
      apply List.countP_pos_iff.mp
      rw [consistent.tallied.sleeping]
      omega
    obtain ⟨index, found⟩ := List.mem_iff_getElem?.mp member
    cases phase <;> simp [StopPhase.sleeps] at sleeps
    refine ⟨.stopStep index, { s.setStop index .woken with
      wg := { s.wg with permits := s.wg.permits - 1 } }, ?_, rfl, trivial⟩
    simp [step, awake, stopStep, found, WaitGroup.wake, permitted]
  · obtain ⟨index, found⟩ := List.mem_iff_getElem?.mp woken
    by_cases reused : s.wg.Reused
    · exact ⟨.stopStep index, s.panic, by simp [step, awake, stopStep, found, reused], rfl, trivial⟩
    · exact ⟨.stopStep index, s.setStop index .returned,
        by simp [step, awake, stopStep, found, reused], rfl, trivial⟩

theorem exists_stuck (consistent : s.Consistent) (calm : s.Calm) :
    ∃ future last, Run (Along AddsApart (Steps step)) s future last ∧
      (∀ action ∈ future, action.begins = false) ∧ last.Stuck := by
  obtain ⟨future, last, run, -, stuck⟩ := @Run.exists_finished System Action
    (Along (fun _ action => action.begins = false) (Along AddsApart (Steps step)))
    (fun s => s.Consistent ∧ s.Calm) Stuck weight
    (by
      rintro state ⟨held, calm⟩ moving
      obtain ⟨action, after, stepped, old, apart⟩ : ∃ action after,
          state.step action = some after ∧ action.begins = false ∧ state.AddsApart action := by
        by_cases releasing : state.Releasing
        · exact releasing.progress calm.awake held
        · obtain ⟨action, old, able⟩ : ∃ action : Action, action.begins = false ∧
              state.step action ≠ none := by
            simpa [Stuck] using moving
          obtain ⟨after, stepped⟩ := Option.ne_none_iff_exists'.mp able
          refine ⟨action, after, stepped, old, ?_⟩
          cases action with
          | afterStep => exact fun _ => releasing
          | afterFunc | fire | callbackStep | stopAll | stopStep | visit => trivial
      exact ⟨action, after, ⟨⟨stepped, apart⟩, old⟩,
        ⟨held.moves (step_moves stepped), calm.step held stepped apart⟩, held.lighter stepped old⟩)
    s.weight s le_rfl ⟨consistent, calm⟩
  exact ⟨future, last, run.mono fun _ _ _ step => step.1, run.along_forall, stuck⟩

/-! ## What is counted -/

/-- The `AfterFunc` call for which an action may count down. -/
def serves (s : System) : Action → Option Nat
  | .callbackStep index => some index
  | .stopStep index => s.stops[index]?.bind StopPhase.on
  | _ => none

/-- The step lowers the counter of the wait group for this `AfterFunc` call. -/
def lowers (target : Nat) (s : System) (action : Action) : Bool :=
  decide (s.serves action = some target) &&
    (s.step action).any fun after => decide (after.wg.counter < s.wg.counter)

def starts (target : Nat) (s : System) (action : Action) : Bool :=
  decide (action = .callbackStep target) &&
    s.entries[target]?.any fun entry => decide (entry.timer = .unlocked)

def settledAt (target : Nat) (s : System) : Bool :=
  s.entries[target]?.any fun entry => entry.once.settled

def begunAt (target : Nat) (s : System) : Bool :=
  s.entries[target]?.any fun entry => entry.timer.begun

end System

/-- An entry is settled by the step that lowers the counter, and by no other. -/
theorem DoneMoves.settles {once next : OncePhase} (moves : DoneMoves wg once next group) :
    (next.settled = once.settled ∧ wg.counter ≤ group.counter) ∨
      (once.settled = false ∧ next.settled = true ∧ group.counter < wg.counter) := by
  cases moves with
  | lowers positive => exact Or.inr ⟨rfl, rfl, Nat.sub_lt (Nat.pos_of_ne_zero positive) one_pos⟩
  | zeroes one => exact Or.inr ⟨rfl, rfl, by simp [one]⟩
  | releases zero => exact Or.inl ⟨rfl, zero.le⟩

theorem GroupMoves.settles (moves : GroupMoves wg entry next group) :
    (next.once.settled = entry.once.settled ∧ wg.counter ≤ group.counter) ∨
      (entry.once.settled = false ∧ next.once.settled = true ∧ group.counter < wg.counter) := by
  cases moves with
  | stays owing held settled => exact Or.inl ⟨settled, le_rfl⟩
  | adds idle owing same =>
    rw [same]
    exact Or.inl ⟨rfl, Nat.le_succ _⟩
  | counts called same done => exact done.settles

theorem GroupMoves.settled (moves : GroupMoves wg entry next group)
    (settled : entry.once.settled = true) : next.once.settled = true := by
  rcases moves.settles with ⟨same, -⟩ | ⟨-, later, -⟩
  · rw [same, settled]
  · exact later

theorem OwnMoves.begun
    (moves : OwnMoves wg holder timers index entry action next group holding mapped)
    (sound : entry.Sound) (begun : entry.timer.begun = true) : next.timer.begun = true := by
  cases moves with
  | arms standing =>
    rw [sound.unset.mp (by rw [standing]; rfl)] at begun
    cases begun
  | fires standing | callbackLocks standing | deletes standing | callbackUnlocks standing =>
    rw [standing] at begun
    cases begun
  | begins | ends | enters | skips | marks => rfl
  | adds | locks | records | unlocks | counts => exact begun

namespace System

variable {s after : System}

theorem lowers_of_step (stepped : s.step action = some after) :
    lowers target s action = (decide (s.serves action = some target) &&
      decide (after.wg.counter < s.wg.counter)) := by
  rw [lowers, stepped]
  rfl

theorem lowers_none (stepped : s.step action = some after)
    (same : s.wg.counter ≤ after.wg.counter) : lowers target s action = false := by
  rw [lowers_of_step stepped, decide_eq_false (not_lt.mpr same), Bool.and_false]

theorem settledAt_set (stepped : s.step action = some after)
    (found : s.entries[index]? = some entry) (changed : after.entries = s.entries.set index next)
    (moves : GroupMoves s.wg entry next after.wg)
    (serves : after.wg.counter < s.wg.counter → s.serves action = some index) :
    (if settledAt target after then 1 else 0) =
      (if settledAt target s then 1 else 0) + if lowers target s action then 1 else 0 := by
  unfold settledAt
  rw [changed, any_set found]
  rcases moves.settles with ⟨same, low⟩ | ⟨before, later, low⟩
  · rw [lowers_none stepped low]
    split
    · rename_i here
      rw [here, found, same]
      rfl
    · rfl
  · rw [lowers_of_step stepped, serves low, decide_eq_true low, Bool.and_true]
    split
    · rename_i here
      simp [here, found, before]
    · rename_i apart
      simp [Ne.symm apart]

theorem settledAt_step (target : Nat) (consistent : s.Consistent)
    (stepped : s.step action = some after) :
    (if settledAt target after then 1 else 0) =
      (if settledAt target s then 1 else 0) + if lowers target s action then 1 else 0 := by
  cases step_moves stepped with
  | calls =>
    rw [lowers_none stepped le_rfl, settledAt, any_snoc rfl]
    rfl
  | stops | panics =>
    rw [lowers_none stepped le_rfl]
    rfl
  | own found step =>
    refine settledAt_set stepped found rfl (step.onGroup (consistent.sound _ _ found)) ?_
    intro less
    rw [step.lowers less]
    rfl
  | stop found step =>
    rw [lowers_none stepped step.counter_eq.ge]
    rfl
  | joint found there step =>
    refine settledAt_set stepped there rfl (step.onGroup (consistent.sound _ _ there)
      (consistent.attended.resting found there)) ?_
    intro less
    obtain ⟨rfl, on⟩ := step.lowers less
    rw [System.serves, found]
    exact on

theorem lowered_eq (made : Bool) (target : Nat) : ∀ past s,
    Run (Steps step) (start made) past s →
      countAlong step (lowers target) (start made) past = if settledAt target s then 1 else 0 := by
  intro past s run
  induction run with
  | nil => rfl
  | snoc earlier stepped ih =>
    rw [countAlong_snoc (lowers target) earlier stepped, ih,
      settledAt_step target (consistent_run made _ _ earlier) stepped]

/-! ## After `StopAll` -/

theorem entries_step (consistent : s.Consistent) (stepped : s.step action = some after)
    (found : s.entries[target]? = some entry) (called : entry.call ≠ .called) :
    ∃ now, after.entries[target]? = some now ∧ now.call ≠ .called ∧
      (entry.once.settled = true → now.once.settled = true) ∧
      (entry.timer.begun = true → now.timer.begun = true) := by
  have sound := consistent.sound target entry found
  cases step_moves stepped with
  | calls => exact ⟨entry, getElem?_snoc_found _ found, called, id, id⟩
  | stops | stop | panics => exact ⟨entry, found, called, id, id⟩
  | @own index other next action wg holder timers there step =>
    by_cases here : index = target
    · subst here
      cases found.symm.trans there
      exact ⟨next, getElem?_set_found next there, step.called called, (step.onGroup sound).settled,
        step.begun sound⟩
    · exact ⟨entry, by rw [List.getElem?_set_ne here, found], called, id, id⟩
  | @joint index position phase later other next action wg read there step =>
    by_cases here : position = target
    · subst here
      cases found.symm.trans there
      refine ⟨next, getElem?_set_found next there, by rw [step.call_eq]; exact called,
        (step.onGroup sound (consistent.attended.resting read there)).settled, ?_⟩
      intro begun
      rcases step.stopped with ⟨same, -⟩ | ⟨armed, -⟩
      · rw [same, begun]
      · rw [armed] at begun
        cases begun
    · exact ⟨entry, by rw [List.getElem?_set_ne here, found], called, id, id⟩

theorem started_le (made : Bool) (target : Nat) : ∀ past s,
    Run (Steps step) (start made) past s →
      countAlong step (starts target) (start made) past ≤ if begunAt target s then 1 else 0 := by
  intro past s run
  induction run with
  | nil => exact Nat.zero_le _
  | @snoc past before after action earlier stepped ih =>
    have consistent := consistent_run made _ _ earlier
    rw [countAlong_snoc (starts target) earlier stepped]
    cases found : before.entries[target]? with
    | none =>
      simp only [starts, begunAt, found, Option.any_none, Bool.and_false] at ih ⊢
      exact ih.trans (Nat.zero_le _)
    | some entry =>
      simp only [starts, begunAt, found, Option.any_some] at ih ⊢
      by_cases starting : action = .callbackStep target ∧ entry.timer = .unlocked
      · -- the callback has not begun before, and begins now
        obtain ⟨rfl, standing⟩ := starting
        obtain ⟨-, same⟩ := Option.ite_none_left_eq_some.mp stepped
        simp only [callbackStep, found, standing, Option.some.injEq] at same
        subst same
        have begun : (before.entries.set target { entry with timer := .running })[target]? =
            some { entry with timer := .running } := getElem?_set_found _ found
        simp_all [setEntry, TimerPhase.begun]
      · have idle : (decide (action = .callbackStep target) && decide (entry.timer = .unlocked)) =
            false := by simpa using starting
        rw [idle]
        refine ih.trans ?_
        split
        · rename_i begun
          have called : entry.call ≠ .called :=
            (consistent.sound _ _ found).begun (by rintro unset; rw [unset] at begun; cases begun)
          obtain ⟨now, read, -, -, still⟩ := entries_step consistent stepped found called
          simp [read, still begun]
        · exact Nat.zero_le _

theorem stop_returns (stepped : s.step action = some after)
    (there : index < s.stops.length) (returned : after.stops[index]? = some .returned) :
    s.stops[index]? = some .returned ∨ s.wg.counter = 0 ∧ after.entries = s.entries := by
  cases step_moves stepped with
  | calls | own | panics => exact Or.inl returned
  | stops =>
    rcases getElem?_snoc_cases returned with early | ⟨last, -⟩
    · exact Or.inl early
    · omega
  | stop found step =>
    rcases getElem?_set_cases found returned with ⟨rfl, same⟩ | ⟨-, early⟩
    · cases step with
      | returns _ zero => exact Or.inr ⟨zero, rfl⟩
      | locks | swaps | unlocks | ends | passes | skips | parks | wakes => cases same
    · exact Or.inl early
  | joint found _ step =>
    rcases getElem?_set_cases found returned with ⟨rfl, same⟩ | ⟨-, early⟩
    · cases step <;> cases same
    · exact Or.inl early

theorem stops_length (stepped : s.step action = some after) :
    s.stops.length ≤ after.stops.length := by
  cases step_moves stepped with
  | calls | own | panics => exact le_rfl
  | stops => simp
  | stop | joint => simp

theorem settled_after_stop {began : System} {since : List Action} (consistent : began.Consistent)
    (run : Run (Steps step) { began with stops := began.stops ++ [.called] } since s) :
    began.stops.length < s.stops.length ∧ s.Consistent ∧
    ∀ (target : Nat) (entry : Entry), began.entries[target]? = some entry →
      entry.call ≠ .called → ∃ now, s.entries[target]? = some now ∧ now.call ≠ .called ∧
        (s.stops[began.stops.length]? = some .returned → now.once.settled = true) := by
  induction run with
  | nil =>
    refine ⟨by simp, consistent.stopping, ?_⟩
    intro target entry found called
    refine ⟨entry, found, called, ?_⟩
    intro returned
    simp at returned
  | @snoc past before after action earlier stepped ih =>
    obtain ⟨there, held, entries⟩ := ih
    refine ⟨lt_of_lt_of_le there (stops_length stepped), held.moves (step_moves stepped), ?_⟩
    intro target entry found called
    obtain ⟨middle, read, added, settled⟩ := entries target entry found called
    obtain ⟨now, last, adds, settles, -⟩ := entries_step held stepped read added
    refine ⟨now, last, adds, ?_⟩
    intro returned
    rcases stop_returns stepped there returned with early | ⟨zero, same⟩
    · exact settles (settled early)
    -- the wait group waits for nobody, so the entry has been counted down
    rw [same, read] at last
    cases last
    rw [held.tallied.counter, List.countP_eq_zero] at zero
    have free := zero middle (List.mem_of_getElem? read)
    simpa [Entry.owing, added] using free

theorem settled_rests (consistent : s.Consistent) (found : s.entries[target]? = some entry)
    (settled : entry.once.settled = true) (timer : TimerPhase) (pending : timer.pending = true) :
    entry.timer ≠ timer := by
  rintro rfl
  rw [(consistent.sound target entry found).fresh pending] at settled
  cases settled

theorem never_starts (consistent : s.Consistent) (found : s.entries[target]? = some entry)
    (settled : entry.once.settled = true) (called : entry.call ≠ .called) {future : List Action}
    {last : System} (run : Run (Steps step) s future last) :
    countAlong step (starts target) s future = 0 := by
  suffices both : countAlong step (starts target) s future = 0 ∧ last.Consistent ∧
      ∃ now, last.entries[target]? = some now ∧ now.call ≠ .called ∧ now.once.settled = true from
    both.1
  induction run with
  | nil => exact ⟨rfl, consistent, entry, found, called, settled⟩
  | @snoc past before after action earlier stepped ih =>
    obtain ⟨none_, held, middle, read, added, done⟩ := ih
    obtain ⟨now, last, adds, settles, -⟩ := entries_step held stepped read added
    refine ⟨?_, held.moves (step_moves stepped), now, last, adds, settles done⟩
    have idle : starts target before action = false := by
      rw [starts, read, Option.any_some,
        decide_eq_false (settled_rests held read done .unlocked rfl), Bool.and_false]
    rw [countAlong_snoc (starts target) earlier stepped, none_, idle]
    rfl

/-- Over every interleaving: the counter of the wait group is lowered at most once
for each `AfterFunc` call, each callback is called at most once, and once a call of
`StopAll` has returned, no callback of an `AfterFunc` call that had returned before
it began is running or is ever called.  Where no `AfterFunc` adds to the wait group
while calls of `StopAll` are being released, the group does not panic, and the
counter is lowered exactly once for each `AfterFunc` call when everything has ended,
which the calls that are there come to in a bounded number of steps. -/
theorem timers_shut_down (made : Bool) (past : List Action) (s : System)
    (run : Run (Steps step) (start made) past s) :
    (∀ target, countAlong step (lowers target) (start made) past ≤ 1) ∧
    (∀ target, countAlong step (starts target) (start made) past ≤ 1) ∧
    (∀ earlier began since, Run (Steps step) (start made) earlier began →
      Run (Steps step) began (.stopAll :: since) s →
      s.stops[began.stops.length]? = some .returned → ∀ target entry,
      began.entries[target]? = some entry → entry.call = .returned →
        (∃ now, s.entries[target]? = some now ∧ now.timer ≠ .running) ∧
        ∀ future last, Run (Steps step) s future last →
          countAlong step (starts target) s future = 0) ∧
    (∀ future last, Run (Steps step) s future last → (∀ action ∈ future, action.begins = false) →
      future.length ≤ s.weight) ∧
    (Run (Along AddsApart (Steps step)) (start made) past s →
      s.panicked = false ∧
      (s.Stuck → s.wg.counter = 0 ∧ ∀ target < s.entries.length,
        countAlong step (lowers target) (start made) past = 1) ∧
      ∃ future last, Run (Along AddsApart (Steps step)) s future last ∧
        (∀ action ∈ future, action.begins = false) ∧ last.Stuck) := by
  have consistent := consistent_run made past s run
  refine ⟨?_, ?_, ?_, ?_, ?_⟩
  · intro target
    rw [lowered_eq made target past s run]
    split <;> decide
  · intro target
    exact (started_le made target past s run).trans (by split <;> decide)
  · intro earlier began since before through returned target entry found done
    have sane := consistent_run made earlier began before
    obtain ⟨first, second, none_, stepped, rest⟩ := @Run.split _ _ _ _ [] since .stopAll s through
    cases none_.eq_start
    obtain ⟨-, same⟩ := Option.ite_none_left_eq_some.mp stepped
    cases same
    obtain ⟨-, -, entries⟩ := settled_after_stop sane rest
    obtain ⟨now, read, called, settled⟩ := entries target entry found (by rw [done]; nofun)
    have rested := settled returned
    refine ⟨⟨now, read, settled_rests consistent read rested .running rfl⟩, ?_⟩
    intro future last next
    exact never_starts consistent read rested called next
  · intro future last next old
    have bound := (length_le_weight consistent next old).1
    omega
  · intro apart
    have calm := calm_run made past s apart
    refine ⟨calm.awake, ?_, exists_stuck consistent calm⟩
    intro stuck
    obtain ⟨settled, zero, -⟩ := stuck.ended calm.awake consistent
    refine ⟨zero, ?_⟩
    intro target inside
    have found := List.getElem?_eq_getElem inside
    rw [lowered_eq made target past s run, settledAt, found, Option.any_some,
      (settled target _ found).2]
    rfl

/-- Two timers, of which the first fires before it is recorded and is running. -/
def firstRunning : List Action :=
  [.afterFunc, .afterStep 0, .afterStep 0, .afterStep 0, .fire 0, .afterStep 0, .afterStep 0,
    .afterFunc, .afterStep 1, .afterStep 1, .afterStep 1, .afterStep 1, .afterStep 1,
    .callbackStep 0, .callbackStep 0, .callbackStep 0, .callbackStep 0]

/-- `StopAll` stops the second and sleeps until the first is counted down.  Then there
is an `AfterFunc` again. -/
def stopping : List Action :=
  [.stopAll, .stopStep 0, .stopStep 0, .stopStep 0, .visit 0 1, .stopStep 0, .stopStep 0,
    .stopStep 0, .stopStep 0, .stopStep 0, .callbackStep 0, .callbackStep 0, .callbackStep 0,
    .callbackStep 0, .callbackStep 0, .stopStep 0, .stopStep 0, .afterFunc, .afterStep 2]

theorem timers_shut_down_sample :
    ∃ s, Run (Along AddsApart (Steps step)) (start true) (firstRunning ++ stopping) s ∧
      s.stops = [.returned] ∧ s.wg = ⟨1, 0, 0⟩ ∧ s.panicked = false ∧
      countAlong step (starts 0) (start true) (firstRunning ++ stopping) = 1 ∧
      (∀ target, countAlong step (lowers target) (start true) (firstRunning ++ stopping) ≤ 1) ∧
      ∀ future last, Run (Steps step) s future last → countAlong step (starts 1) s future = 0 := by
  obtain ⟨began, first, ⟨none_, entry⟩, s, computed, stops, group⟩ := runSteps_reaches_along step
    (start true) firstRunning (fun began =>
      (began.stops.length = 0 ∧ began.entries[1]? = some ⟨.returned, .armed, .fresh⟩) ∧
        ∃ s ∈ runSteps (fun s action => if s.AddsApart action then s.step action else none) began
          stopping, s.stops = [.returned] ∧ s.wg = ⟨1, 0, 0⟩) AddsApart (by decide +kernel)
  have second := runSteps_along step AddsApart began s stopping computed
  have apart := first.append second
  have before := first.mono fun _ _ _ step => step.1
  have after := second.mono fun _ _ _ step => step.1
  have shut := timers_shut_down true (firstRunning ++ stopping) s (before.append after)
  refine ⟨s, apart, stops, group, (shut.2.2.2.2 apart).1, by decide +kernel, shut.1, ?_⟩
  exact (shut.2.2.1 firstRunning began _ before after (by rw [none_, stops]; rfl) 1 _ entry rfl).2

/-- The callback of a timer is running, and `StopAll` sleeps. -/
def sleeping : List Action :=
  [.afterFunc, .afterStep 0, .afterStep 0, .afterStep 0, .afterStep 0, .afterStep 0, .fire 0,
    .callbackStep 0, .callbackStep 0, .callbackStep 0, .callbackStep 0, .stopAll, .stopStep 0,
    .stopStep 0, .stopStep 0, .stopStep 0, .stopStep 0]

/-- The callback has brought the counter to zero. -/
def zeroing : List Action := [.callbackStep 0, .callbackStep 0, .callbackStep 0]

/-- `StopAll` is released, and another `AfterFunc` adds before it returns. -/
def addsAfter : List Action :=
  [.callbackStep 0, .afterFunc, .afterStep 1, .stopStep 0, .stopStep 0]

/-- Another `AfterFunc` adds to the wait group when `StopAll` has been released: the
program ends in `StopAll`.  Where it adds just before the release, it ends in
`AfterFunc`.  Neither of these calls is ever counted down. -/
theorem released_stop_panics :
    (∃ s, Run (Steps step) (start true) (sleeping ++ zeroing ++ addsAfter) s ∧
      s.panicked = true ∧ s.Stuck ∧ s.stops = [.woken] ∧
      s.entries[1]? = some ⟨.added, .unset, .fresh⟩ ∧
      countAlong step (lowers 1) (start true) (sleeping ++ zeroing ++ addsAfter) = 0) ∧
    ∃ s, Run (Steps step) (start true) (sleeping ++ zeroing ++ [.afterFunc, .afterStep 1]) s ∧
      s.panicked = true ∧ s.Stuck ∧ s.stops = [.parked] ∧
      s.entries[1]? = some ⟨.called, .unset, .fresh⟩ ∧
      countAlong step (lowers 1) (start true)
        (sleeping ++ zeroing ++ [.afterFunc, .afterStep 1]) = 0 := by
  obtain ⟨first, early, panicked, woken, added⟩ := runSteps_reaches step (start true)
    (sleeping ++ zeroing ++ addsAfter)
    (fun s => s.panicked = true ∧ s.stops = [.woken] ∧
      s.entries[1]? = some ⟨.added, .unset, .fresh⟩) (by decide +kernel)
  obtain ⟨second, late, broken, parked, called⟩ := runSteps_reaches step (start true)
    (sleeping ++ zeroing ++ [.afterFunc, .afterStep 1])
    (fun s => s.panicked = true ∧ s.stops = [.parked] ∧
      s.entries[1]? = some ⟨.called, .unset, .fresh⟩) (by decide +kernel)
  exact ⟨⟨first, early, panicked, stuck_of_panicked panicked, woken, added, by decide +kernel⟩,
    second, late, broken, stuck_of_panicked broken, parked, called, by decide +kernel⟩

end System

end Libknock.Timerset
