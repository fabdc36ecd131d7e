import Libknock.Policy.LimiterRuns

/-!
# The limiter against a rolling window

The documentation of `policy/limiter.go` speaks of rolling-window counters: at
most `Limit` calls of a key in any interval of length `Every`.  The windows of
the code are fixed once opened, so the calls at the end of one and at the start
of the next fall into one interval.  The bound holds for all runs of a
configuration exactly when a window admits one call or lasts one nanosecond, and
it holds along any run that opens windows far enough apart.
-/

set_option autoImplicit false

namespace Libknock.Policy

open Foundation Cache

def allowedFrom (w : Window) (start : Int) (own : List (Int × Bool)) : List (Int × Bool) :=
  own.filter fun call => call.2 ∧ start ≤ call.1 ∧ call.1 < addDuration start w.every

/-- In every interval of length `Every` at most `Limit` calls are allowed. -/
def Rolling (w : Window) (own : List (Int × Bool)) : Prop :=
  ∀ start : Int, ((allowedFrom w start own).length : Int) ≤ w.limit

/-! ## The calls of one key -/

/-- What the private counter says of the next call: the clock does not go back,
and an open window admits it up to the limit. -/
structure Continues (w : Window) (own : List (Int × Bool)) (call : Int × Bool) : Prop where
  onward : ∀ earlier ∈ own, earlier.1 ≤ call.1
  admitted : call.2 = true → privateAllows w (privateCounter w own) call.1 = true
  counted : ∀ used closes, privateCounter w own = some (used, closes) → call.1 < closes →
    used < w.limit → call.2 = true

/-- A call that opens a window does so one window length after every call allowed
before. -/
def Spaced (w : Window) (own : List (Int × Bool)) (call : Int × Bool) : Prop :=
  call.2 = true → (∀ used closes, privateCounter w own = some (used, closes) → closes ≤ call.1) →
    ∀ earlier ∈ own, earlier.2 = true → addDuration earlier.1 w.every ≤ call.1

inductive Paced (w : Window) : List (Int × Bool) → Prop
  | nil : Paced w []
  | snoc {own : List (Int × Bool)} {call : Int × Bool} :
      Paced w own → Continues w own call → Spaced w own call → Paced w (own ++ [call])

def allowedSince (start : Int) (own : List (Int × Bool)) : List (Int × Bool) :=
  own.filter fun call => call.2 ∧ start ≤ call.1

structure Opened (w : Window) (own : List (Int × Bool)) (used closes start : Int) : Prop where
  ends : closes = addDuration start w.every
  opening : (start, true) ∈ own
  within : ∀ call ∈ own, call.2 = true → call.1 < closes
  before : ∀ call ∈ own, call.2 = true → call.1 < start → addDuration call.1 w.every ≤ start
  count : ((allowedSince start own).length : Int) = used
  limited : used ≤ w.limit

def Counts (w : Window) (own : List (Int × Bool)) : Prop :=
  (privateCounter w own = none ∧ ∀ call ∈ own, call.2 = false) ∨
    ∃ used closes start, privateCounter w own = some (used, closes) ∧
      Opened w own used closes start

theorem privateCounter_snoc (w : Window) (own : List (Int × Bool)) (call : Int × Bool) :
    privateCounter w (own ++ [call]) = privateNext w (privateCounter w own) call := by
  simp [privateCounter]

variable {own : List (Int × Bool)} {call : Int × Bool} {closes start used now clock : Int}
  {w : Window}

theorem filter_refused {test : Int × Bool → Bool} (refused : test call = false) :
    (own ++ [call]).filter test = own.filter test := by
  simp [refused]

theorem Opened.refused (opened : Opened w own used closes start) (refused : call.2 = false) :
    Opened w (own ++ [call]) used closes start where
  ends := opened.ends
  opening := List.mem_append_left _ opened.opening
  within := by
    intro other member allowed
    rcases List.mem_append.mp member with old | new
    · exact opened.within other old allowed
    · rw [List.mem_singleton.mp new, refused] at allowed
      cases allowed
  before := by
    intro other member allowed early
    rcases List.mem_append.mp member with old | new
    · exact opened.before other old allowed early
    · rw [List.mem_singleton.mp new, refused] at allowed
      cases allowed
  count := by
    rw [allowedSince, filter_refused (by simp [refused])]
    exact opened.count
  limited := opened.limited

theorem Opened.counted (opened : Opened w own used closes start) (onward : start ≤ now)
    (early : now < closes) (free : used < w.limit) :
    Opened w (own ++ [(now, true)]) (used + 1) closes start where
  ends := opened.ends
  opening := List.mem_append_left _ opened.opening
  within := by
    intro other member allowed
    rcases List.mem_append.mp member with old | new
    · exact opened.within other old allowed
    · rw [List.mem_singleton.mp new]
      exact early
  before := by
    intro other member allowed past
    rcases List.mem_append.mp member with old | new
    · exact opened.before other old allowed past
    · rw [List.mem_singleton.mp new] at past
      exact absurd past (not_lt.mpr onward)
  count := by
    have one : (allowedSince start (own ++ [(now, true)])).length =
        (allowedSince start own).length + 1 := by
      simp [allowedSince, onward]
    rw [one, ← opened.count]
    push_cast
    rfl
  limited := free

theorem Opened.fresh (positive : 0 < w.every.toInt) (atLeast : 1 ≤ w.limit)
    (spaced : ∀ earlier ∈ own, earlier.2 = true → addDuration earlier.1 w.every ≤ now) :
    Opened w (own ++ [(now, true)]) 1 (addDuration now w.every) now where
  ends := rfl
  opening := by simp
  within := by
    intro call member allowed
    simp only [addDuration] at spaced ⊢
    rcases List.mem_append.mp member with old | new
    · have past := spaced call old allowed
      omega
    · rw [List.mem_singleton.mp new]
      simp only
      omega
  before := by
    intro call member allowed early
    rcases List.mem_append.mp member with old | new
    · exact spaced call old allowed
    · rw [List.mem_singleton.mp new] at early
      exact absurd early (lt_irrefl now)
  count := by
    have none : allowedSince now own = [] := by
      refine List.filter_eq_nil_iff.mpr fun call member => ?_
      simp only [Bool.decide_and, Bool.and_eq_true, decide_eq_true_eq, not_and, not_le]
      intro allowed
      have past := spaced call member allowed
      simp only [addDuration] at past
      omega
    have one : allowedSince now (own ++ [(now, true)]) = [(now, true)] := by
      rw [allowedSince, List.filter_append]
      rw [allowedSince] at none
      rw [none]
      simp
    rw [one]
    rfl
  limited := atLeast

variable {w : Window} {own : List (Int × Bool)}

theorem Paced.counts (positive : 0 < w.every.toInt) (atLeast : 1 ≤ w.limit) (paced : Paced w own) :
    Counts w own := by
  induction paced with
  | nil => exact Or.inl ⟨rfl, by simp⟩
  | @snoc own call earlier continues spaced ih =>
    obtain ⟨now, answer⟩ := call
    rw [Counts, privateCounter_snoc]
    rcases ih with ⟨idle, refused⟩ | ⟨used, closes, start, held, opened⟩
    · -- no window has been opened yet
      rw [idle]
      cases answer with
      | false =>
        left
        refine ⟨rfl, fun call member => ?_⟩
        rcases List.mem_append.mp member with old | new
        · exact refused call old
        · rw [List.mem_singleton.mp new]
      | true =>
        right
        refine ⟨1, addDuration now w.every, now, rfl, .fresh positive atLeast ?_⟩
        intro call member allowed
        rw [refused call member] at allowed
        cases allowed
    · right
      rw [held]
      have onward : start ≤ now := continues.onward _ opened.opening
      by_cases early : now < closes
      · by_cases free : used < w.limit
        · cases continues.counted used closes held early free
          exact ⟨used + 1, closes, start, by simp [privateNext, early, free],
            opened.counted onward early free⟩
        · have refused : answer = false := by
            cases answer with
            | false => rfl
            | true =>
              have allows := continues.admitted rfl
              simp [held, privateAllows, early, free] at allows
          exact ⟨used, closes, start, by simp [privateNext, early, free], opened.refused refused⟩
      · cases answer with
        | false => exact ⟨used, closes, start, by simp [privateNext, early], opened.refused rfl⟩
        | true =>
          refine ⟨1, addDuration now w.every, now, by simp [privateNext, early],
            .fresh positive atLeast (spaced rfl ?_)⟩
          intro others later same
          rw [held] at same
          cases same
          exact not_lt.mp early

/-- An interval that reaches back before the last window ends before it, and one
that does not has only calls of that window. -/
theorem Opened.rolling (opened : Opened w (own ++ [(now, true)]) used closes start)
    (onward : start ≤ now) (rolling : Rolling w own) : Rolling w (own ++ [(now, true)]) := by
  intro back
  by_cases reaches : ∃ call ∈ own ++ [(now, true)], call.2 = true ∧ back ≤ call.1 ∧ call.1 < start
  · obtain ⟨call, member, allowed, early, past⟩ := reaches
    have ends := opened.before call member allowed past
    have outside : ¬ now < addDuration back w.every := by
      simp only [addDuration] at ends ⊢
      omega
    rw [allowedFrom, filter_refused (by simp [outside])]
    exact rolling back
  · push Not at reaches
    have sub : (allowedFrom w back (own ++ [(now, true)])).length ≤
        (allowedSince start (own ++ [(now, true)])).length := by
      rw [allowedFrom, allowedSince, ← List.countP_eq_length_filter, ← List.countP_eq_length_filter]
      refine List.countP_mono_left fun call member inside => ?_
      simp only [Bool.decide_and, Bool.and_eq_true, decide_eq_true_eq] at inside ⊢
      exact ⟨inside.1, reaches call member inside.1 inside.2.1⟩
    have count := opened.count
    have limited := opened.limited
    omega

theorem Paced.rolling (positive : 0 < w.every.toInt) (atLeast : 1 ≤ w.limit)
    (paced : Paced w own) : Rolling w own := by
  induction paced with
  | nil =>
    intro back
    simp only [allowedFrom, List.filter_nil, List.length_nil, Nat.cast_zero]
    omega
  | @snoc own call earlier continues spaced ih =>
    obtain ⟨now, answer⟩ := call
    cases answer with
    | false =>
      intro back
      rw [allowedFrom, filter_refused (by simp)]
      exact ih back
    | true =>
      rcases (Paced.snoc earlier continues spaced).counts positive atLeast with
        ⟨_, refused⟩ | ⟨used, closes, start, _, opened⟩
      · have newest := refused (now, true) (by simp)
        cases newest
      · have onward : start ≤ now := by
          rcases List.mem_append.mp opened.opening with old | new
          · exact continues.onward _ old
          · rw [(Prod.mk.inj (List.mem_singleton.mp new)).1]
        exact opened.rolling onward ih

/-- With one call a window, or windows of one nanosecond, a window that has
closed lies one window length behind. -/
theorem Counts.spaced (counts : Counts w own) (narrow : w.limit = 1 ∨ w.every.toInt = 1)
    (call : Int × Bool) : Spaced w own call := by
  intro _ closed earlier member allowed
  rcases counts with ⟨_, refused⟩ | ⟨used, closes, start, held, opened⟩
  · rw [refused earlier member] at allowed
    cases allowed
  · have past := closed used closes held
    have within := opened.within earlier member allowed
    have ends := opened.ends
    simp only [addDuration] at ends ⊢
    rcases narrow with single | short
    · by_cases before : earlier.1 < start
      · have ahead := opened.before earlier member allowed before
        have opening := opened.within _ opened.opening rfl
        simp only [addDuration] at ahead opening
        omega
      · -- the window has one call, the one that opened it
        have count := opened.count
        have limited := opened.limited
        have few : (allowedSince start own).length ≤ 1 := by omega
        have first : (start, true) ∈ allowedSince start own :=
          List.mem_filter.mpr ⟨opened.opening, by simp⟩
        have second : earlier ∈ allowedSince start own :=
          List.mem_filter.mpr ⟨member, by simp [allowed, not_lt.mp before]⟩
        have some' := List.length_pos_of_mem first
        have one : (allowedSince start own).length = 1 := by omega
        obtain ⟨only, single⟩ := List.length_eq_one_iff.mp one
        rw [single, List.mem_singleton] at first second
        rw [second, ← first]
        simp only
        omega
    · omega

/-! ## The calls of a key in a run -/

theorem run_onward (window : Window) (limit clock : Int) (key : Bytes) (events : List LimiterEvent)
    (state : TimedLimiter)
    (run : Run LimiterStep (TimedLimiter.new window limit clock) events state) :
    ∀ call ∈ ownCalls key events, call.1 ≤ state.clock := by
  revert events state
  refine Run.invariant _ (by simp [ownCalls]) ?_
  intro past before event after _ ih step call member
  rw [ownCalls_snoc] at member
  rw [step.clock]
  rcases List.mem_append.mp member with old | new
  · exact (ih call old).trans step.onward
  obtain ⟨called, reply⟩ := event
  cases called with
  | sweep now order => simp [LimiterEvent.own] at new
  | allowAt called now periodic demand =>
    cases reply with
    | removed count => simp [LimiterEvent.own] at new
    | allowed answer =>
      simp only [LimiterEvent.own] at new
      split at new
      · rw [List.mem_singleton.mp new]
        exact le_refl now
      · cases new

theorem step_continues {window : Window} {limit : Int} {key : Bytes} {past : List LimiterEvent}
    {before after : TimedLimiter} {event : LimiterEvent}
    (run : Run LimiterStep (TimedLimiter.new window limit clock) past before)
    (step : LimiterStep before event after) (own : event.own key = some call) :
    Continues window.withDefaults (ownCalls key past) call := by
  have onward := run_onward window limit clock key past before run
  obtain ⟨later, answer, _, _⟩ := step
  obtain ⟨called, reply⟩ := event
  cases called with
  | sweep now order => simp [LimiterEvent.own] at own
  | allowAt called now periodic demand =>
    cases answer
    simp only [LimiterEvent.own] at own
    split at own
    · rename_i same
      subst same
      cases own
      have outcome := run_allowAt_iff run called periodic demand later
      refine ⟨fun earlier member => (onward earlier member).trans later,
        fun allowed => (outcome.mp allowed).1, ?_⟩
      intro used closes held early free
      refine outcome.mpr ⟨by simp [held, privateAllows, free], fun closed => ?_⟩
      exact closed.1 ⟨used, closes, held, early⟩
    · cases own

theorem run_paced (window : Window) (limit clock : Int) (key : Bytes) (events : List LimiterEvent)
    (state : TimedLimiter)
    (run : Run LimiterStep (TimedLimiter.new window limit clock) events state) :
    (∀ past call rest, ownCalls key events = past ++ call :: rest →
      Paced window.withDefaults past → Spaced window.withDefaults past call) →
    Paced window.withDefaults (ownCalls key events) := by
  revert events state
  refine Run.invariant _ (fun _ => .nil) ?_
  intro past before event after run ih step spaced
  rw [ownCalls_snoc] at spaced ⊢
  have paced := ih fun front call rest split =>
    spaced front call (rest ++ (event.own key).toList) (by rw [split]; simp)
  cases own : event.own key with
  | none =>
    rw [Option.toList_none, List.append_nil]
    exact paced
  | some call =>
    rw [own] at spaced
    exact .snoc paced (step_continues run step own) (spaced _ call [] rfl paced)

/-- The bound of a rolling window holds along every run in which the key opens
its windows one window length after all it was allowed before. -/
theorem rolling_of_spaced (window : Window) (limit clock : Int) (key : Bytes)
    (events : List LimiterEvent) (state : TimedLimiter)
    (run : Run LimiterStep (TimedLimiter.new window limit clock) events state)
    (spaced : ∀ past call rest, ownCalls key events = past ++ call :: rest →
      Paced window.withDefaults past → Spaced window.withDefaults past call) :
    Rolling window.withDefaults (ownCalls key events) :=
  (run_paced window limit clock key events state run spaced).rolling window.withDefaults_every
    window.withDefaults_limit

/-! ## A key alone

Runs in which one key calls, with the answers its counter gives. -/

/-- Calls at instants that do not go back, answered by the counter. -/
inductive Solo (w : Window) (clock : Int) : List (Int × Bool) → Prop
  | nil : Solo w clock []
  | snoc {own : List (Int × Bool)} {now : Int} : Solo w clock own → clock ≤ now →
      (∀ earlier ∈ own, earlier.1 ≤ now) →
      Solo w clock (own ++ [(now, privateAllows w (privateCounter w own) now)])

def soloKey : Bytes := [107]

theorem Solo.run {window : Window} {own : List (Int × Bool)} (limit : Int)
    (solo : Solo window.withDefaults clock own) :
    ∃ events state, Run LimiterStep (TimedLimiter.new window limit clock) events state ∧
      (∀ event ∈ events, event.call.isAllow = true) ∧
      (∀ key, ownCalls key events = if key = soloKey then own else []) ∧
      ∀ now, clock ≤ now → (∀ earlier ∈ own, earlier.1 ≤ now) → state.clock ≤ now := by
  induction solo with
  | nil =>
    exact ⟨[], _, .nil, by simp, by simp [ownCalls], fun now onward _ => onward⟩
  | @snoc own now solo onward later ih =>
    obtain ⟨events, state, run, allows, calls, clocks⟩ := ih
    have answer := run_allowAt_iff run soloKey asStored asStored (clocks now onward later)
    have alone : {other | other ≠ limiterKey soloKey ∧
        (counters window.withDefaults events).Active now other} = ∅ := by
      ext other
      simp only [Set.mem_ofPred_eq, Set.mem_empty_iff_false, iff_false, not_and]
      rintro different ⟨used, closes, held, _⟩
      rw [counters, calls, if_neg (show other ≠ soloKey from different)] at held
      cases held
    have room : (Limiter.newWithLimit window limit).maxEntries ≠ 0 :=
      (Limiter.new_sound window limit).positive.ne'
    rw [alone, Set.ncard_empty, Nat.cast_zero, calls, if_pos (show limiterKey soloKey = soloKey
      from rfl)] at answer
    have same : (state.limiter.allowAt soloKey now asStored asStored).1 =
        privateAllows window.withDefaults (privateCounter window.withDefaults own) now := by
      rw [Bool.eq_iff_iff, answer]
      exact and_iff_left fun full => room full.2.symm
    have step : LimiterStep state ⟨.allowAt soloKey now asStored asStored,
        .allowed (state.limiter.allowAt soloKey now asStored asStored).1⟩
        ⟨now, (state.limiter.allowAt soloKey now asStored asStored).2⟩ :=
      ⟨clocks now onward later, rfl, rfl, rfl⟩
    refine ⟨_, _, run.snoc step, ?_, ?_, ?_⟩
    · intro event member
      rcases List.mem_append.mp member with old | new
      · exact allows event old
      · rw [List.mem_singleton.mp new]
        rfl
    · intro key
      rw [ownCalls_snoc, calls, same]
      by_cases mine : key = soloKey
      · subst mine
        rw [if_pos rfl, if_pos rfl]
        rfl
      · have other : limiterKey soloKey ≠ key := fun equal => mine equal.symm
        simp [mine, LimiterEvent.own, other]
    · intro late _ earlier
      exact earlier _ (List.mem_append_right _ (List.mem_singleton_self _))

theorem Solo.step {answer : Bool} (solo : Solo w clock own) (onward : clock ≤ now)
    (later : ∀ earlier ∈ own, earlier.1 ≤ now)
    (answers : privateAllows w (privateCounter w own) now = answer) :
    Solo w clock (own ++ [(now, answer)]) := by
  have next := Solo.snoc solo onward later
  rw [answers] at next
  exact next

theorem Solo.repeat {clock now used closes : Int} (solo : Solo w clock own) (onward : clock ≤ now)
    (later : ∀ earlier ∈ own, earlier.1 ≤ now)
    (held : privateCounter w own = some (used, closes)) (early : now < closes) (count : Nat) :
    used + count ≤ w.limit →
      Solo w clock (own ++ List.replicate count (now, true)) ∧
        privateCounter w (own ++ List.replicate count (now, true)) =
          some (used + count, closes) := by
  induction count with
  | zero =>
    intro _
    simpa using ⟨solo, held⟩
  | succ count ih =>
    intro within
    obtain ⟨before, counted⟩ := ih (by push_cast at within; omega)
    have free : used + count < w.limit := by
      push_cast at within
      omega
    have latest : ∀ earlier ∈ own ++ List.replicate count (now, true), earlier.1 ≤ now := by
      intro earlier member
      rcases List.mem_append.mp member with old | new
      · exact later earlier old
      · rw [List.eq_of_mem_replicate new]
    rw [List.replicate_succ', ← List.append_assoc]
    refine ⟨before.step onward latest ?_, ?_⟩
    · simp [counted, privateAllows, free]
    · rw [privateCounter_snoc, counted]
      simp only [privateNext, early, free, if_true, Option.some.injEq, Prod.mk.injEq, and_true]
      push_cast
      omega

/-- The calls of a burst over the end of a window: one that opens it, the rest
just before it closes, and two in the next one. -/
def burst (w : Window) : List (Int × Bool) :=
  [(0, true)] ++ List.replicate (w.limit - 1).toNat (w.every.toInt - 1, true) ++
    [(w.every.toInt, true)] ++ [(w.every.toInt, true)]

theorem burst_solo (several : 2 ≤ w.limit) (long : 2 ≤ w.every.toInt) : Solo w 0 (burst w) := by
  have first : Solo w 0 [(0, true)] := Solo.nil.step (le_refl 0) (by simp) rfl
  have opened : privateCounter w [(0, true)] = some (1, w.every.toInt) := by
    simp [privateCounter, privateNext, addDuration]
  obtain ⟨filled, count⟩ := @Solo.repeat w [(0, true)] 0 (w.every.toInt - 1) 1 w.every.toInt first
    (by omega) (by simp; omega) opened (by omega) (w.limit - 1).toNat (by omega)
  have before : ∀ earlier ∈ [(0, true)] ++
      List.replicate (w.limit - 1).toNat (w.every.toInt - 1, true),
      earlier.1 ≤ w.every.toInt := by
    intro earlier member
    rcases List.mem_append.mp member with old | new
    · rw [List.mem_singleton.mp old]
      simp only
      omega
    · rw [List.eq_of_mem_replicate new]
      simp only
      omega
  have third : Solo w 0 ([(0, true)] ++
      List.replicate (w.limit - 1).toNat (w.every.toInt - 1, true) ++ [(w.every.toInt, true)]) :=
    filled.step (by omega) before (by rw [count]; simp [privateAllows])
  have reopened : privateCounter w ([(0, true)] ++
      List.replicate (w.limit - 1).toNat (w.every.toInt - 1, true) ++ [(w.every.toInt, true)]) =
        some (1, w.every.toInt + w.every.toInt) := by
    rw [privateCounter_snoc, count]
    simp [privateNext, addDuration]
  refine third.step (by omega) ?_ ?_
  · intro earlier member
    rcases List.mem_append.mp member with old | new
    · exact before earlier old
    · rw [List.mem_singleton.mp new]
  · rw [reopened]
    simp only [privateAllows]
    rw [if_pos (by omega)]
    exact decide_eq_true (by omega)

theorem burst_not_rolling (several : 2 ≤ w.limit) (long : 2 ≤ w.every.toInt) :
    ¬ Rolling w (burst w) := by
  intro rolling
  have bound := rolling (w.every.toInt - 1)
  have late : allowedFrom w (w.every.toInt - 1)
      (List.replicate (w.limit - 1).toNat (w.every.toInt - 1, true)) =
        List.replicate (w.limit - 1).toNat (w.every.toInt - 1, true) := by
    refine List.filter_eq_self.mpr fun call member => ?_
    rw [List.eq_of_mem_replicate member]
    simp only [addDuration, Bool.decide_and, Bool.and_eq_true, decide_eq_true_eq, true_and]
    omega
  have next : allowedFrom w (w.every.toInt - 1) [(w.every.toInt, true)] =
      [(w.every.toInt, true)] := by
    refine List.filter_eq_self.mpr fun call member => ?_
    rw [List.mem_singleton.mp member]
    simp only [addDuration, Bool.decide_and, Bool.and_eq_true, decide_eq_true_eq, true_and]
    omega
  rw [burst, allowedFrom, List.filter_append, List.filter_append, List.filter_append] at bound
  rw [allowedFrom] at late next
  rw [late, next] at bound
  simp only [List.length_append, List.length_replicate, List.length_singleton] at bound
  omega

/-! ## The configurations that keep the bound -/

theorem Window.withDefaults_eq (window : Window) (atLeast : 1 ≤ window.limit)
    (positive : 0 < window.every) : window.withDefaults = window := by
  have lasting : ¬ window.every ≤ 0 := Int64.not_le.mpr positive
  rw [Window.withDefaults, if_neg (by omega), if_neg lasting]

/-- In every interval of length `Every` at most `Limit` calls of a key are allowed,
over all runs, exactly when `Limit` is one or `Every` is a nanosecond. -/
theorem rolling_bound_iff (window : Window) (limit : Int) (atLeast : 1 ≤ window.limit)
    (positive : 0 < window.every) :
    (∀ (clock : Int) (key : Bytes) (events : List LimiterEvent) (state : TimedLimiter),
      Run LimiterStep (TimedLimiter.new window limit clock) events state →
      (∀ event ∈ events, event.call.isAllow = true) →
      Rolling window (ownCalls (limiterKey key) events)) ↔
        window.limit = 1 ∨ window.every = 1 := by
  have same := window.withDefaults_eq atLeast positive
  have lasting := window.withDefaults_every
  rw [same] at lasting
  have shortest : window.every = 1 ↔ window.every.toInt = 1 := by
    rw [← Int64.toInt_inj]
    rfl
  rw [shortest]
  constructor
  · intro bound
    by_contra wide
    rw [not_or] at wide
    have solo := @burst_solo window (by omega) (by omega)
    rw [← same] at solo
    obtain ⟨events, state, run, allows, calls, _⟩ := solo.run limit
    have rolling := bound 0 soloKey events state run allows
    rw [calls, if_pos (show limiterKey soloKey = soloKey from rfl), same] at rolling
    exact burst_not_rolling (by omega) (by omega) rolling
  · intro narrow clock key events state run _
    have rolling := rolling_of_spaced window limit clock (limiterKey key) events state run
    rw [same] at rolling
    refine rolling fun past call rest _ front => ?_
    exact (front.counts lasting atLeast).spaced narrow call

/-- Calls of one key at these instants, with their answers. -/
def callsAt (l : Limiter) : List Int → List LimiterEvent
  | [] => []
  | now :: rest =>
    ⟨.allowAt [97] now asStored asStored, .allowed (l.allowAt [97] now asStored asStored).1⟩ ::
      callsAt (l.allowAt [97] now asStored asStored).2 rest

theorem callsAt_run (times : List Int) : ∀ start : TimedLimiter,
    (start.clock :: times).Pairwise (· ≤ ·) →
      ∃ state, Run LimiterStep start (callsAt start.limiter times) state := by
  induction times with
  | nil => exact fun start _ => ⟨start, .nil⟩
  | cons now rest ih =>
    intro start ordered
    obtain ⟨onward, later⟩ := List.pairwise_cons.mp ordered
    obtain ⟨state, run⟩ := ih ⟨now, (start.limiter.allowAt [97] now asStored asStored).2⟩ later
    have step : LimiterStep start ⟨.allowAt [97] now asStored asStored, .allowed _⟩ ⟨now, _⟩ :=
      ⟨onward now List.mem_cons_self, rfl, rfl, rfl⟩
    exact ⟨state, (Run.nil.snoc step).append run⟩

def sampleTimes : List Int := [0, 900000000, 1000000000, 1000000000]

def sampleBurst (limit : Int) : List LimiterEvent :=
  callsAt (.newWithLimit ⟨limit, second⟩ 0) sampleTimes

/-- One call a second: the second call is too early, and so is the fourth. -/
theorem single_call_windows_roll :
    ownCalls (limiterKey [97]) (sampleBurst 1) =
        [(0, true), (900000000, false), (1000000000, true), (1000000000, false)] ∧
      Rolling ⟨1, second⟩ (ownCalls (limiterKey [97]) (sampleBurst 1)) := by
  obtain ⟨state, run⟩ := callsAt_run sampleTimes (TimedLimiter.new ⟨1, second⟩ 0 0) (by decide)
  exact ⟨by decide, (rolling_bound_iff ⟨1, second⟩ 0 (le_refl 1) (by decide)).mpr (Or.inl rfl) 0 [97]
    (sampleBurst 1) state run (by decide)⟩

/-- Two calls a second: all four are allowed, three of them from 0.9 seconds on. -/
theorem burst_across_reset :
    ∃ state, Run LimiterStep (TimedLimiter.new ⟨2, second⟩ 0 0) (sampleBurst 2) state ∧
      (∀ event ∈ sampleBurst 2, event.call.isAllow = true) ∧
      ownCalls (limiterKey [97]) (sampleBurst 2) = sampleTimes.map (·, true) ∧
      ¬ Rolling ⟨2, second⟩ (ownCalls (limiterKey [97]) (sampleBurst 2)) := by
  obtain ⟨state, run⟩ := callsAt_run sampleTimes (TimedLimiter.new ⟨2, second⟩ 0 0) (by decide)
  refine ⟨state, run, by decide, by decide, fun rolling => ?_⟩
  have bound := rolling 900000000
  exact absurd bound (by decide)

end Libknock.Policy
