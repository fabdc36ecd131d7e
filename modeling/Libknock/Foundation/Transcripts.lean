import Mathlib.Tactic

/-!
# Machines that answer

A machine takes an action, answers it and moves on; its transcript is the list
of its answers.  Each action carries an instant.  Two rules: a simulation that
holds step by step gives equal transcripts, and a machine that remembers each
grant for a span grants the same thing no two times within that span.
-/

set_option autoImplicit false

namespace Libknock.Foundation

variable {State Abstract Action Answer Grant : Type}

def transcript (step : State → Action → Answer × State) : State → List Action → List Answer
  | _, [] => []
  | state, action :: rest => (step state action).1 :: transcript step (step state action).2 rest

def afterAll (step : State → Action → Answer × State) : State → List Action → State
  | state, [] => state
  | state, action :: rest => afterAll step (step state action).2 rest

theorem transcript_action {step : State → Action → Answer × State} {state : State}
    {actions : List Action} {j : Nat} {answer : Answer}
    (answered : (transcript step state actions)[j]? = some answer) :
    ∃ action, actions[j]? = some action := by
  induction actions generalizing state j with
  | nil => simp [transcript] at answered
  | cons head rest ih =>
    cases j with
    | zero => exact ⟨head, rfl⟩
    | succ j =>
      rw [transcript, List.getElem?_cons_succ] at answered
      exact ih answered

/-! ## Simulation -/

/-- The relation may depend on the instant of the last action. -/
theorem transcript_simulates (concrete : State → Action → Answer × State)
    (abstract : Abstract → Action → Answer × Abstract) (clock : Action → Int)
    (valid : Action → Prop) (related : Int → State → Abstract → Prop)
    (step : ∀ now state spec action, related now state spec → now ≤ clock action → valid action →
      (concrete state action).1 = (abstract spec action).1 ∧
        related (clock action) (concrete state action).2 (abstract spec action).2)
    (actions : List Action) :
    ∀ now state spec, related now state spec → (now :: actions.map clock).Pairwise (· ≤ ·) →
      (∀ action ∈ actions, valid action) →
      transcript concrete state actions = transcript abstract spec actions ∧
        ∃ last ∈ now :: actions.map clock,
          related last (afterAll concrete state actions) (afterAll abstract spec actions) := by
  induction actions with
  | nil =>
    intro now state spec start ordered valid
    exact ⟨rfl, now, List.mem_singleton_self now, start⟩
  | cons action rest ih =>
    intro now state spec start ordered allValid
    rw [List.map_cons, List.pairwise_cons] at ordered
    obtain ⟨same, next⟩ := step now state spec action start
      (ordered.1 _ List.mem_cons_self) (allValid action List.mem_cons_self)
    obtain ⟨answers, last, member, final⟩ := ih (clock action) _ _ next ordered.2
      fun later inside => allValid later (List.mem_cons_of_mem action inside)
    refine ⟨?_, last, List.mem_cons_of_mem now member, final⟩
    rw [transcript, transcript, same, answers]

/-! ## Memory of grants -/

section Memory

variable (step : State → Action → Answer × State) (clock : Action → Int)
  (grants : Answer → Option Grant)

/-- `remembers state grant instant`: the grant is not given before the instant. -/
structure Remembering (holds : State → Prop) (remembers : State → Grant → Int → Prop)
    (span : Int) : Prop where
  invariant : ∀ state action, holds state → holds (step state action).2
  keeps : ∀ state action grant until_, holds state → remembers state grant until_ →
    clock action < until_ → remembers (step state action).2 grant until_
  marks : ∀ state action grant, holds state → grants (step state action).1 = some grant →
    remembers (step state action).2 grant (clock action + span)
  refuses : ∀ state action grant until_, holds state → remembers state grant until_ →
    grants (step state action).1 = some grant → until_ ≤ clock action

variable {step clock grants} {holds : State → Prop} {remembers : State → Grant → Int → Prop}
  {span : Int}

section

variable (memory : Remembering step clock grants holds remembers span)

include memory

theorem Remembering.refuses_until (actions : List Action) :
    ∀ (state : State) (grant : Grant) (until_ : Int), holds state → remembers state grant until_ →
      (actions.map clock).Pairwise (· ≤ ·) →
      ∀ (j : Nat) (action : Action) (answer : Answer), actions[j]? = some action →
        (transcript step state actions)[j]? = some answer → grants answer = some grant →
        until_ ≤ clock action := by
  induction actions with
  | nil =>
    intro state grant until_ start known ordered j action answer at_
    simp at at_
  | cons head rest ih =>
    intro state grant until_ start known ordered j action answer at_ answered granted
    rw [List.map_cons, List.pairwise_cons] at ordered
    rw [transcript] at answered
    cases j with
    | zero =>
      simp only [List.getElem?_cons_zero, Option.some.injEq] at at_ answered
      subst at_ answered
      exact memory.refuses state head grant until_ start known granted
    | succ j =>
      rw [List.getElem?_cons_succ] at at_ answered
      by_cases early : clock head < until_
      · exact ih _ grant until_ (memory.invariant state head start)
          (memory.keeps state head grant until_ start known early) ordered.2 j action answer at_
          answered granted
      · have later := ordered.1 _ (List.mem_map_of_mem (List.mem_of_getElem? at_))
        omega

/-- Two answers that grant the same thing are a span apart. -/
theorem Remembering.spaced (actions : List Action) :
    ∀ (state : State), holds state → (actions.map clock).Pairwise (· ≤ ·) →
      ∀ (i j : Nat) (early late : Action) (first second : Answer) (grant : Grant), i < j →
        actions[i]? = some early → actions[j]? = some late →
        (transcript step state actions)[i]? = some first →
        (transcript step state actions)[j]? = some second →
        grants first = some grant → grants second = some grant →
        clock early + span ≤ clock late := by
  induction actions with
  | nil =>
    intro state start ordered i j early late first second grant before earlyAt
    simp at earlyAt
  | cons head rest ih =>
    intro state start ordered i j early late first second grant before earlyAt lateAt firstAt
      secondAt firstGrants secondGrants
    rw [List.map_cons, List.pairwise_cons] at ordered
    obtain ⟨k, rfl⟩ : ∃ k, j = k + 1 := ⟨j - 1, by omega⟩
    rw [transcript] at firstAt secondAt
    rw [List.getElem?_cons_succ] at lateAt secondAt
    have next := memory.invariant state head start
    cases i with
    | zero =>
      simp only [List.getElem?_cons_zero, Option.some.injEq] at earlyAt firstAt
      subst earlyAt firstAt
      exact memory.refuses_until rest _ grant _ next
        (memory.marks state head grant start firstGrants) ordered.2 k late second lateAt secondAt
        secondGrants
    | succ i =>
      rw [List.getElem?_cons_succ] at earlyAt firstAt
      exact ih _ next ordered.2 i k early late first second grant (by omega) earlyAt lateAt
        firstAt secondAt firstGrants secondGrants

theorem Remembering.answered (actions : List Action) :
    ∀ (state : State), holds state →
      ∀ (j : Nat) (action : Action) (answer : Answer), actions[j]? = some action →
        (transcript step state actions)[j]? = some answer →
        ∃ before, holds before ∧ (step before action).1 = answer := by
  induction actions with
  | nil =>
    intro state start j action answer at_
    simp at at_
  | cons head rest ih =>
    intro state start j action answer at_ answered
    rw [transcript] at answered
    cases j with
    | zero =>
      simp only [List.getElem?_cons_zero, Option.some.injEq] at at_ answered
      subst at_ answered
      exact ⟨state, start, rfl⟩
    | succ j =>
      rw [List.getElem?_cons_succ] at at_ answered
      exact ih _ (memory.invariant state head start) j action answer at_ answered

end

end Memory

end Libknock.Foundation
