import Mathlib.Tactic

/-!
# Runs of a transition system

A system is a relation between a state, an action and the state after it.  A
run carries the actions taken, oldest first.  Conditions on the steps of a run
are conditions on the relation, so that a run whose steps all meet a condition
is a run of the restricted relation.
-/

set_option autoImplicit false

namespace Libknock.Foundation

variable {State Action : Type}

inductive Run (next : State → Action → State → Prop) (start : State) : List Action → State → Prop
  | nil : Run next start [] start
  | snoc {past : List Action} {before after : State} {action : Action} :
      Run next start past before → next before action after → Run next start (past ++ [action]) after

/-- What one move keeps, any number of them keep. -/
theorem moves_keep {move : State → State → Prop} (holds : State → Prop) {before after : State}
    (moves : Relation.ReflTransGen move before after)
    (kept : ∀ before after, move before after → holds before → holds after)
    (initial : holds before) : holds after := by
  induction moves with
  | refl => exact initial
  | tail _ last ih => exact kept _ _ last ih

variable {past : List Action} {last start after : State} {action : Action}

/-- A list split at an element of it, seen from its newest element: that is the
element itself, or the last of those after it. -/
theorem snoc_eq_append_cons {earlier since : List Action} {newest chosen : Action}
    (split : past ++ [newest] = earlier ++ chosen :: since) :
    (since = [] ∧ past = earlier ∧ newest = chosen) ∨
      ∃ front, since = front ++ [newest] ∧ past = earlier ++ chosen :: front := by
  rcases List.eq_nil_or_concat since with rfl | ⟨front, last, rfl⟩
  · obtain ⟨same, newest⟩ := List.append_inj' split rfl
    exact Or.inl ⟨rfl, same, (List.cons.inj newest).1⟩
  · rw [List.concat_eq_append, ← List.cons_append, ← List.append_assoc] at split
    obtain ⟨same, newest⟩ := List.append_inj' split rfl
    refine Or.inr ⟨front, ?_, same⟩
    rw [List.concat_eq_append, ← (List.cons.inj newest).1]

/-- The latest action that meets a test comes after every earlier one that does. -/
theorem latest_after {earlier since front back : List Action} {chosen latest : Action}
    (same : earlier ++ chosen :: since = front ++ latest :: back) (test : Action → Bool)
    (later : ∃ action ∈ since, test action = true) (last : ∀ action ∈ back, test action = false) :
    latest ∈ since := by
  obtain ⟨action, member, passes⟩ := later
  have absent : action ∉ back := by
    intro inside
    rw [last action inside] at passes
    cases passes
  rcases List.append_eq_append_iff.mp same with ⟨middle, _, rest⟩ | ⟨middle, _, rest⟩
  · cases middle with
    | nil =>
      cases rest
      exact absurd member absent
    | cons head tail =>
      rw [(List.cons.inj rest).2]
      simp
  · cases middle with
    | nil =>
      cases rest
      exact absurd member absent
    | cons head tail =>
      exfalso
      apply absent
      rw [(List.cons.inj rest).2]
      simp [member]

namespace Run

variable {next : State → Action → State → Prop} {start : State}

/-- What holds at the start and is kept by every step, given the actions so far,
holds at the end of every run. -/
theorem invariant (holds : List Action → State → Prop) (initial : holds [] start)
    (keeps : ∀ past before action after, Run next start past before → holds past before →
      next before action after → holds (past ++ [action]) after) :
    ∀ past state, Run next start past state → holds past state := by
  intro past state run
  induction run with
  | nil => exact initial
  | snoc earlier step ih => exact keeps _ _ _ _ earlier ih step

theorem eq_start (run : Run next start [] last) : last = start := by
  generalize none : ([] : List Action) = actions at run
  cases run with
  | nil => rfl
  | snoc _ _ => simp at none

theorem append {future : List Action} {middle : State} (early : Run next start past middle)
    (late : Run next middle future last) :
    Run next start (past ++ future) last := by
  induction late with
  | nil => simpa using early
  | snoc _ step ih =>
    rw [← List.append_assoc]
    exact ih.snoc step

/-- A run over a list with an action in the middle passes through a state
before and one after that action. -/
theorem split {past future : List Action} {action : Action} {last : State}
    (run : Run next start (past ++ action :: future) last) :
    ∃ before after, Run next start past before ∧ next before action after ∧
      Run next after future last := by
  generalize whole : past ++ action :: future = actions at run
  induction run generalizing future with
  | nil => simp at whole
  | @snoc earlier before after newest earlierRun step ih =>
    rcases snoc_eq_append_cons whole.symm with ⟨rfl, rfl, rfl⟩ | ⟨front, rfl, rfl⟩
    · exact ⟨before, after, earlierRun, step, .nil⟩
    · obtain ⟨first, second, early, middle, late⟩ := ih rfl
      exact ⟨first, second, early, middle, late.snoc step⟩

theorem split_append {future : List Action} (run : Run next start (past ++ future) last) :
    ∃ middle, Run next start past middle ∧ Run next middle future last := by
  cases future with
  | nil => exact ⟨last, by simpa using run, .nil⟩
  | cons action rest =>
    obtain ⟨before, after, early, step, late⟩ := run.split
    exact ⟨before, early, (Run.nil.snoc step).append late⟩

theorem mono {other : State → Action → State → Prop}
    (weaker : ∀ before action after, next before action after → other before action after)
    {actions : List Action} (run : Run next start actions last) :
    Run other start actions last := by
  induction run with
  | nil => exact .nil
  | snoc _ step ih => exact ih.snoc (weaker _ _ _ step)

/-- Where every unfinished state of an invariant has a step to a smaller one, a
run finishes. -/
theorem exists_finished (holds finished : State → Prop) (weight : State → Nat)
    (progress : ∀ state, holds state → ¬ finished state →
      ∃ action after, next state action after ∧ holds after ∧ weight after < weight state) :
    ∀ (bound : Nat) (state : State), weight state ≤ bound → holds state →
      ∃ actions last, Run next state actions last ∧ holds last ∧ finished last := by
  intro bound
  induction bound with
  | zero =>
    intro state light held
    by_cases ended : finished state
    · exact ⟨[], state, .nil, held, ended⟩
    · obtain ⟨_, _, _, _, smaller⟩ := progress state held ended
      omega
  | succ bound ih =>
    intro state light held
    by_cases ended : finished state
    · exact ⟨[], state, .nil, held, ended⟩
    · obtain ⟨action, after, step, kept, smaller⟩ := progress state held ended
      obtain ⟨actions, last, run, final⟩ := ih after (by omega) kept
      have first : Run next state ([] ++ [action]) after := Run.nil.snoc step
      exact ⟨_, last, first.append run, final⟩

end Run

/-! ## Steps that a function computes -/

/-- The relation of a partial step function. -/
def Steps (step : State → Action → Option State) (before : State) (action : Action)
    (after : State) : Prop :=
  step before action = some after

/-- The steps of a relation that are taken where the condition holds. -/
def Along (guard : State → Action → Prop) (next : State → Action → State → Prop) (before : State)
    (action : Action) (after : State) : Prop :=
  next before action after ∧ guard before action

/-- The steps of a relation that lead to a state where the condition holds. -/
def Reaching (holds : State → Prop) (next : State → Action → State → Prop) (before : State)
    (action : Action) (after : State) : Prop :=
  next before action after ∧ holds after

theorem Run.along_forall {next : State → Action → State → Prop} {guard : Action → Prop}
    {actions : List Action}
    (run : Run (Along (fun _ action => guard action) next) start actions last) :
    ∀ action ∈ actions, guard action := by
  induction run with
  | nil => exact nofun
  | snoc _ step ih =>
    intro action member
    rcases List.mem_append.mp member with early | newest
    · exact ih action early
    · rw [List.mem_singleton.mp newest]
      exact step.2

/-- Where a guard is what a step needs to keep the condition, the runs that keep it
throughout are those whose steps all meet the guard. -/
theorem Run.reaching_iff {next : State → Action → State → Prop} {holds : State → Prop}
    {guard : State → Action → Prop} (initial : holds start)
    (exact_ : ∀ past before action after, Run next start past before → holds before →
      next before action after → (holds after ↔ guard before action)) (past : List Action)
    (last : State) :
    Run (Reaching holds next) start past last ↔ Run (Along guard next) start past last := by
  constructor
  · intro run
    suffices both : Run (Along guard next) start past last ∧ holds last from both.1
    induction run with
    | nil => exact ⟨.nil, initial⟩
    | @snoc past before after action earlier step ih =>
      have plain : Run next start past before := earlier.mono fun _ _ _ step => step.1
      exact ⟨ih.1.snoc ⟨step.1, (exact_ _ _ _ _ plain ih.2 step.1).mp step.2⟩, step.2⟩
  · intro run
    suffices both : Run (Reaching holds next) start past last ∧ holds last from both.1
    induction run with
    | nil => exact ⟨.nil, initial⟩
    | @snoc past before after action earlier step ih =>
      have plain : Run next start past before := earlier.mono fun _ _ _ step => step.1
      have held := (exact_ _ _ _ _ plain ih.2 step.1).mpr step.2
      exact ⟨ih.1.snoc ⟨step.1, held⟩, held⟩

def runSteps (step : State → Action → Option State) : State → List Action → Option State
  | state, [] => some state
  | state, action :: rest =>
    match step state action with
    | none => none
    | some after => runSteps step after rest

theorem runSteps_run (step : State → Action → Option State) (start last : State)
    (actions : List Action) (computed : runSteps step start actions = some last) :
    Run (Steps step) start actions last := by
  induction actions generalizing start with
  | nil =>
    cases computed
    exact .nil
  | cons action rest ih =>
    rw [runSteps] at computed
    split at computed
    · cases computed
    rename_i after stepped
    have first : Run (Steps step) start ([] ++ [action]) after := Run.nil.snoc stepped
    exact first.append (ih after computed)

theorem runSteps_along (step : State → Action → Option State) (guard : State → Action → Prop)
    [∀ state action, Decidable (guard state action)] (start last : State) (actions : List Action)
    (computed : runSteps (fun state action => if guard state action then step state action
      else none) start actions = some last) :
    Run (Along guard (Steps step)) start actions last := by
  apply (runSteps_run _ start last actions computed).mono
  intro before action after stepped
  simp only [Steps] at stepped
  split at stepped
  · rename_i met
    exact ⟨stepped, met⟩
  · cases stepped

section Reached

variable (step : State → Action → Option State) (start : State) (actions : List Action)
  (goal : State → Prop)

theorem runSteps_reaches (reached : ∃ last ∈ runSteps step start actions, goal last) :
    ∃ last, Run (Steps step) start actions last ∧ goal last := by
  obtain ⟨last, computed, holds⟩ := reached
  exact ⟨last, runSteps_run step start last actions computed, holds⟩

theorem runSteps_reaches_along (guard : State → Action → Prop)
    [∀ state action, Decidable (guard state action)]
    (reached : ∃ last ∈ runSteps (fun state action => if guard state action then step state action
      else none) start actions, goal last) :
    ∃ last, Run (Along guard (Steps step)) start actions last ∧ goal last := by
  obtain ⟨last, computed, holds⟩ := reached
  exact ⟨last, runSteps_along step guard start last actions computed, holds⟩

end Reached

/-! ## Counting along a run -/

/-- How many of the steps the test picks out, up to the first that cannot be taken. -/
def countAlong (step : State → Action → Option State) (event : State → Action → Bool) :
    State → List Action → Nat
  | _, [] => 0
  | state, action :: rest =>
    match step state action with
    | none => 0
    | some after => (if event state action then 1 else 0) + countAlong step event after rest

section Counting

variable {step : State → Action → Option State} {start middle : State} {past : List Action}

variable (event : State → Action → Bool)

theorem countAlong_cons (stepped : step start action = some after) (rest : List Action) :
    countAlong step event start (action :: rest) =
      (if event start action then 1 else 0) + countAlong step event after rest := by
  rw [countAlong, stepped]

theorem countAlong_append (run : Run (Steps step) start past middle) (future : List Action) :
    countAlong step event start (past ++ future) =
      countAlong step event start past + countAlong step event middle future := by
  induction past generalizing start with
  | nil =>
    rw [run.eq_start, List.nil_append, countAlong, Nat.zero_add]
  | cons action rest ih =>
    obtain ⟨before, after, none_, stepped, later⟩ := @Run.split _ _ _ _ [] rest action middle run
    cases none_.eq_start
    rw [List.cons_append, countAlong_cons event stepped, countAlong_cons event stepped,
      ih later, Nat.add_assoc]

theorem countAlong_snoc (run : Run (Steps step) start past middle)
    (stepped : step middle action = some after) :
    countAlong step event start (past ++ [action]) =
      countAlong step event start past + if event middle action then 1 else 0 := by
  rw [countAlong_append event run, countAlong_cons event stepped, countAlong, Nat.add_zero]

end Counting

/-! ## What a run shows of another system -/

section Simulation

variable {Spec Operation : Type} {step : State → Action → Option State}
  {apply : Spec → Operation → Option Spec} {shown : State → Action → State → List Operation}

/-- The operations that the steps show, up to the first that cannot be taken. -/
def shownAlong (step : State → Action → Option State)
    (shown : State → Action → State → List Operation) : State → List Action → List Operation
  | _, [] => []
  | state, action :: rest =>
    match step state action with
    | none => []
    | some after => shown state action after ++ shownAlong step shown after rest

theorem shownAlong_cons (stepped : step start action = some after) (rest : List Action) :
    shownAlong step shown start (action :: rest) =
      shown start action after ++ shownAlong step shown after rest := by
  rw [shownAlong, stepped]

/-- Where the operations that a step shows can be followed, those of a run can. -/
theorem Run.simulates (related : State → Spec → Prop)
    (follows : ∀ state spec action after, related state spec → step state action = some after →
      ∃ later, Run (Steps apply) spec (shown state action after) later ∧ related after later)
    {spec : Spec} (run : Run (Steps step) start past last) (together : related start spec) :
    ∃ later, Run (Steps apply) spec (shownAlong step shown start past) later ∧
      related last later := by
  induction past generalizing start spec with
  | nil => exact ⟨spec, .nil, run.eq_start ▸ together⟩
  | cons action rest ih =>
    obtain ⟨before, after, none_, stepped, future⟩ := @Run.split _ _ _ _ [] rest action last run
    cases none_.eq_start
    obtain ⟨middle, first, between⟩ := follows start spec action after together stepped
    obtain ⟨later, second, final⟩ := ih future between
    rw [shownAlong_cons stepped]
    exact ⟨later, first.append second, final⟩

end Simulation

end Libknock.Foundation
