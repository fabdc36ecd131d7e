import Libknock.Foundation.Runs
import Libknock.Knock.UDPSequence

/-!
# Runs of the UDP sequence tracker

The calls that a tracker gets, and what it answers, make up a run.  A sequence is
complete at the call that brings the last of its parts, and only there: the state
of a key marks exactly the parts accepted since it was opened.  The clock is read
by the caller, once for each call.
-/

set_option autoImplicit false

namespace Libknock.Knock

open Foundation Protocol Auth Cache
open SequenceTracker

structure SequenceEvent where
  call : SequenceCall
  answer : Except AuthError Bool

structure Delivery where
  info : KnockInfo
  now : Int
  answer : Except AuthError Bool
  deriving DecidableEq

def Delivery.accepted (part : Delivery) : Bool :=
  match part.answer with
  | .ok _ => true
  | .error _ => false

/-- The frame of a call where it is a part of a sequence. -/
def SequenceCall.part (call : SequenceCall) : Option KnockInfo :=
  call.info.filter fun info => info.frameType = knockFrameTypeUDPSequence

def SequenceEvent.delivery (key : Bytes) (event : SequenceEvent) : Option Delivery :=
  match event.call.part with
  | none => none
  | some info =>
    if sequenceStateKey event.call.src info = key then
      some ⟨info, event.call.now, event.answer⟩
    else none

def deliveries (key : Bytes) (events : List SequenceEvent) : List Delivery :=
  events.filterMap fun event => event.delivery key

def accepted (key : Bytes) (events : List SequenceEvent) : List Delivery :=
  (deliveries key events).filter Delivery.accepted

def indices (parts : List Delivery) : List Int := parts.map fun part => part.info.sequenceIndex

def Adds (t : SequenceTracker) (event : SequenceEvent) (next : SequenceTracker) : Prop :=
  t.add event.call = (event.answer, next)

variable {key : Bytes} {t next : SequenceTracker} {event : SequenceEvent} {part : Delivery}

/-! ## Steps -/

def SequenceEvent.pruned (event : SequenceEvent) (t : SequenceTracker) : SequenceTracker :=
  t.pruneLocked event.call.order event.call.now

variable {state : SeqState} {start : SequenceTracker} {past : List SequenceEvent}
  {opts : SequenceOptions} {parts : List Delivery} {opened : Int}

theorem SequenceEvent.pruned_slot (found : (event.pruned t).states.lookup key = some state) :
    t.states.lookup key = some state := by
  rw [SequenceEvent.pruned, prune_slot, Option.filter_eq_some_iff] at found
  exact found.1

theorem add_eq (t : SequenceTracker) (call : SequenceCall) :
    t.add call = match call.part with
      | none => (.error .invalidFrame, t)
      | some info => (t.pruneLocked call.order call.now).addPruned call.src info call.now := by
  unfold SequenceTracker.add SequenceCall.part
  cases call.info with
  | none => rfl
  | some info =>
    by_cases sequence : info.frameType = knockFrameTypeUDPSequence
    · simp [Option.filter, sequence]
    · simp [Option.filter, sequence]

theorem SequenceEvent.delivery_eq_some (own : event.delivery key = some part) :
    event.call.part = some part.info ∧ sequenceStateKey event.call.src part.info = key ∧
      part.now = event.call.now ∧ part.answer = event.answer := by
  unfold SequenceEvent.delivery at own
  split at own
  · cases own
  rename_i info found
  split at own
  · rename_i same
    cases own
    exact ⟨found, same, rfl, rfl⟩
  · cases own

theorem Adds.own (step : Adds t event next) (opens : 0 ≤ t.opts.window)
    (own : event.delivery key = some part) :
    Outcome key event.call.src part.info part.now (event.pruned t) part.answer next := by
  obtain ⟨found, same, now, answer⟩ := SequenceEvent.delivery_eq_some own
  unfold Adds at step
  simp only [add_eq, found] at step
  have young := prune_young (sequenceStateKey event.call.src part.info) event.call.order
    event.call.now t
  have outcome := addPruned_outcome (by rw [(prune_fixed ..).opts]; exact opens) young
  rw [step, same] at outcome
  rw [now, answer]
  exact outcome

theorem Adds.other (step : Adds t event next) (other : event.delivery key = none) :
    event.call.part = none ∧ next = t ∨ Beside key event.call.now (event.pruned t) next := by
  unfold Adds at step
  rw [add_eq] at step
  unfold SequenceEvent.delivery at other
  cases found : event.call.part with
  | none =>
    simp only [found, Prod.mk.injEq] at step
    exact Or.inl ⟨rfl, step.2.symm⟩
  | some info =>
    simp only [found] at step other
    split at other
    · cases other
    rename_i different
    have beside := addPruned_beside (Ne.symm different) event.call.now (event.pruned t)
    unfold SequenceEvent.pruned at beside
    rw [step] at beside
    exact Or.inr beside

theorem Adds.beside (step : Adds t event next) (other : event.delivery key = none)
    (young : Young key event.call.now t) : Beside key event.call.now t next := by
  rcases step.other other with ⟨_, rfl⟩ | beside
  · exact Beside.refl
  · exact (prune_beside young event.call.order).trans beside

/-- No part has the empty key, so that every call leaves what is beside it. -/
theorem Adds.fixed (step : Adds t event next) : Fixed t next := by
  have other : event.delivery [] = none := by
    cases own : event.delivery [] with
    | none => rfl
    | some part =>
      have empty := (SequenceEvent.delivery_eq_some own).2.1
      simp [sequenceStateKey] at empty
  rcases step.other other with ⟨_, rfl⟩ | beside
  · exact Fixed.refl
  · exact (prune_fixed event.call.order event.call.now t).trans beside.toFixed

theorem new_window (opts : SequenceOptions) (nonceTTL : Duration) :
    0 ≤ (newSequenceTracker opts nonceTTL).opts.window := by
  simp only [newSequenceTracker, normalizedSequenceOptions]
  split
  · decide
  · rename_i positive
    exact Int64.le_of_lt (Int64.not_le.mp positive)

theorem run_fixed : ∀ past t, Run Adds start past t → Fixed start t := by
  apply Run.invariant
  · exact Fixed.refl
  · intro past before event after _ fixed step
    exact fixed.trans step.fixed

theorem run_window (opens : 0 ≤ start.opts.window) (run : Run Adds start past t) :
    0 ≤ t.opts.window :=
  (run_fixed past t run).opts ▸ opens

/-! ## What a state has gathered -/

/-- The state of a key that was opened at `opened` and has taken these parts. -/
structure Gathered (opts : SequenceOptions) (opened : Int) (parts : List Delivery)
    (state : SeqState) : Prop where
  firstSeen : state.firstSeen = opened
  total : state.total = opts.length
  sessions : ∀ part ∈ parts, part.info.sessionID = state.sessionID
  timely : ∀ part ∈ parts, ¬ opts.window < since part.now opened
  inside : ∀ index ∈ indices parts, 0 ≤ index ∧ index < opts.length
  nodup : (indices parts).Nodup
  marks : state.parts = (List.range opts.length.toNat).map fun (index : Nat) =>
    decide ((index : Int) ∈ indices parts)

def allIndices (opts : SequenceOptions) : List Int :=
  (List.range opts.length.toNat).map fun (index : Nat) => (index : Int)

theorem mem_allIndices {index : Int} :
    index ∈ allIndices opts ↔ 0 ≤ index ∧ index < opts.length := by
  simp only [allIndices, List.mem_map, List.mem_range]
  constructor
  · rintro ⟨natural, small, rfl⟩
    omega
  · intro inside
    exact ⟨index.toNat, by omega, by omega⟩

theorem allIndices_nodup (opts : SequenceOptions) : (allIndices opts).Nodup :=
  List.nodup_range.map fun _ _ same => Int.ofNat.inj same

theorem valid_bounds {info : KnockInfo} (valid : t.invalidPart info = false) :
    info.sequenceTotal = t.opts.length ∧ 2 ≤ t.opts.length ∧ 0 ≤ info.sequenceIndex ∧
      info.sequenceIndex < t.opts.length := by
  simp only [invalidPart, decide_eq_false_iff_not, not_or, not_not, not_lt] at valid
  omega

theorem gathered_fresh {info : KnockInfo} (now : Int) (valid : t.invalidPart info = false) :
    Gathered t.opts now [] (freshState info now) := by
  obtain ⟨total, _⟩ := valid_bounds valid
  refine ⟨rfl, total, by simp, by simp, by simp [indices], by simp [indices], ?_⟩
  simp [freshState, indices, total, List.map_const']

theorem Gathered.marked (gathered : Gathered opts opened parts state) (index : Int)
    (inside : 0 ≤ index ∧ index < opts.length) :
    state.parts.getD index.toNat false = decide (index ∈ indices parts) := by
  have small : index.toNat < opts.length.toNat := by omega
  have back : (index.toNat : Int) = index := by omega
  rw [gathered.marks, List.getD, List.getElem?_map, List.getElem?_range small, Option.map_some,
    Option.getD_some, back]

theorem Gathered.receive (gathered : Gathered t.opts opened parts state)
    (accepts : Accepts key part.info part.now t state) :
    Gathered t.opts opened (parts ++ [part]) (received state part.info part.now) := by
  obtain ⟨_, _, inside⟩ := valid_bounds accepts.valid
  have missing : part.info.sequenceIndex ∉ indices parts := by
    have unset := accepts.missing
    rw [gathered.marked _ inside] at unset
    simpa using unset
  have joined : indices (parts ++ [part]) = indices parts ++ [part.info.sequenceIndex] := by
    simp [indices]
  refine ⟨gathered.firstSeen, gathered.total, ?_, ?_, ?_, ?_, ?_⟩
  · intro other member
    rcases List.mem_append.mp member with earlier | own
    · exact gathered.sessions other earlier
    · rw [List.mem_singleton.mp own]
      exact accepts.session.symm
  · intro other member
    rcases List.mem_append.mp member with earlier | own
    · exact gathered.timely other earlier
    · rw [List.mem_singleton.mp own, ← gathered.firstSeen]
      simpa [expired] using accepts.young
  · intro index member
    rw [joined] at member
    rcases List.mem_append.mp member with earlier | own
    · exact gathered.inside index earlier
    · rw [List.mem_singleton.mp own]
      exact inside
  · rw [joined, List.nodup_append]
    refine ⟨gathered.nodup, List.nodup_singleton _, ?_⟩
    intro index earlier other own
    rw [List.mem_singleton.mp own]
    rintro rfl
    exact missing earlier
  · rw [joined]
    show state.parts.set _ true = _
    apply List.ext_getElem?
    intro place
    rw [gathered.marks, List.getElem?_set]
    simp only [List.length_map, List.length_range, List.getElem?_map, List.mem_append,
      List.mem_singleton]
    split
    · rename_i same
      split
      · rename_i small
        rw [← same, List.getElem?_range small]
        have back : (part.info.sequenceIndex.toNat : Int) = part.info.sequenceIndex := by omega
        simp [back]
      · rename_i large
        omega
    · rename_i different
      by_cases small : place < t.opts.length.toNat
      · rw [List.getElem?_range small]
        have apart : (place : Int) ≠ part.info.sequenceIndex := by omega
        simp [apart]
      · rw [List.getElem?_eq_none (by simpa using small)]
        rfl

theorem Gathered.full_iff (gathered : Gathered opts opened parts state) :
    state.parts.all id = true ↔ (indices parts).Perm (allIndices opts) := by
  have covers : state.parts.all id = true ↔ ∀ index ∈ allIndices opts, index ∈ indices parts := by
    rw [gathered.marks]
    simp [allIndices]
  rw [covers]
  constructor
  · intro all
    rw [List.perm_ext_iff_of_nodup gathered.nodup (allIndices_nodup opts)]
    intro index
    constructor
    · intro member
      exact mem_allIndices.mpr (gathered.inside index member)
    · exact all index
  · intro perm index member
    exact perm.mem_iff.mpr member

/-! ## Completion -/

theorem deliveries_append (key : Bytes) (front back : List SequenceEvent) :
    deliveries key (front ++ back) = deliveries key front ++ deliveries key back :=
  List.filterMap_append

theorem accepted_append (key : Bytes) (front back : List SequenceEvent) :
    accepted key (front ++ back) = accepted key front ++ accepted key back := by
  rw [accepted, deliveries_append, List.filter_append]
  rfl

theorem deliveries_own (own : event.delivery key = some part) : deliveries key [event] = [part] := by
  simp [deliveries, own]

theorem deliveries_other (other : event.delivery key = none) : deliveries key [event] = [] := by
  simp [deliveries, other]

theorem accepted_own (own : event.delivery key = some part) (taken : part.accepted = true) :
    accepted key [event] = [part] := by
  simp [accepted, deliveries_own own, taken]

theorem accepted_none (refused : ∀ part, event.delivery key = some part → part.accepted = false) :
    accepted key [event] = [] := by
  cases own : event.delivery key with
  | none => simp [accepted, deliveries_other own]
  | some part => simp [accepted, deliveries_own own, refused part own]

/-- The call after these that opens a state of the key: before it there is none,
and its part is accepted. -/
def Opens (start : SequenceTracker) (key : Bytes) (earlier : List SequenceEvent)
    (opening : SequenceEvent) : Prop :=
  ∃ before, Run Adds start earlier before ∧ (opening.pruned before).states.lookup key = none ∧
    ∃ part, opening.delivery key = some part ∧ part.accepted = true

/-- A state holds the parts accepted since the call that opened it. -/
def Traced (start : SequenceTracker) (key : Bytes) (past : List SequenceEvent)
    (state : SeqState) : Prop :=
  ∃ earlier opening later, past = earlier ++ opening :: later ∧ Opens start key earlier opening ∧
    Gathered start.opts opening.call.now (accepted key (opening :: later)) state

theorem Traced.later (traced : Traced start key past state) (idle : accepted key [event] = []) :
    Traced start key (past ++ [event]) state := by
  obtain ⟨earlier, opening, later, rfl, opens, gathered⟩ := traced
  refine ⟨earlier, opening, later ++ [event], by simp, opens, ?_⟩
  rw [← List.cons_append, accepted_append, idle, List.append_nil]
  exact gathered

theorem Traced.receive (run : Run Adds start past t)
    (traced : ∀ state, t.states.lookup key = some state → Traced start key past state)
    (own : event.delivery key = some part) (taken : part.accepted = true)
    (accepts : Accepts key part.info part.now (event.pruned t) state) :
    Traced start key (past ++ [event]) (received state part.info part.now) := by
  have now := (SequenceEvent.delivery_eq_some own).2.2.1
  have fixed : (event.pruned t).opts = start.opts :=
    ((run_fixed past t run).trans (prune_fixed event.call.order event.call.now t)).opts
  rcases accepts.source with found | ⟨absent, fresh⟩
  · obtain ⟨earlier, opening, later, rfl, opens, gathered⟩ :=
      traced state (SequenceEvent.pruned_slot found)
    refine ⟨earlier, opening, later ++ [event], by simp, opens, ?_⟩
    rw [← List.cons_append, accepted_append, accepted_own own taken, ← fixed]
    rw [← fixed] at gathered
    exact gathered.receive accepts
  · refine ⟨past, event, [], rfl, ⟨t, run, absent, part, own, taken⟩, ?_⟩
    rw [accepted_own own taken, ← fixed, ← now]
    subst fresh
    exact (gathered_fresh part.now accepts.valid).receive accepts

theorem run_traced (opens : 0 ≤ start.opts.window) (empty : start.states.lookup key = none) :
    ∀ past t, Run Adds start past t →
      ∀ state, t.states.lookup key = some state → Traced start key past state := by
  apply Run.invariant
  · intro state found
    rw [empty] at found
    cases found
  · intro past before event after run traced step state found
    cases own : event.delivery key with
    | none =>
      have idle : accepted key [event] = [] := accepted_none (by simp [own])
      rcases step.other own with ⟨_, rfl⟩ | beside
      · exact (traced state found).later idle
      · rw [beside.slot] at found
        exact (traced state (SequenceEvent.pruned_slot found)).later idle
    | some part =>
      have outcome := step.own (run_window opens run) own
      cases answer : part.answer with
      | error reason =>
        have idle : accepted key [event] = [] := by
          apply accepted_none
          intro other same
          cases own.symm.trans same
          simp [Delivery.accepted, answer]
        rw [answer] at outcome
        cases outcome with
        | refused _ beside =>
          rw [beside.slot] at found
          exact (traced state (SequenceEvent.pruned_slot found)).later idle
      | ok done =>
        have taken : part.accepted = true := by simp [Delivery.accepted, answer]
        rw [answer] at outcome
        cases outcome with
        | stored held accepts _ _ slot =>
          cases slot.symm.trans found
          exact Traced.receive run traced own taken accepts
        | completed held filled _ _ _ _ =>
          rw [remove_slot] at found
          cases found

theorem completed_traced (opens : 0 ≤ start.opts.window) (empty : start.states.lookup key = none)
    (run : Run Adds start (past ++ [event]) next) (own : event.delivery key = some part)
    (complete : part.answer = .ok true) :
    ∃ state, Traced start key (past ++ [event]) state ∧ state.parts.all id = true := by
  obtain ⟨before, after, early, step, _⟩ := run.split
  have outcome := step.own (run_window opens early) own
  rw [complete] at outcome
  cases outcome with
  | completed state filled accepts full _ _ =>
    refine ⟨received state part.info part.now, ?_, full⟩
    exact Traced.receive early (run_traced opens empty past before early) own
      (by simp [Delivery.accepted, complete]) accepts

def eventsFrom : SequenceTracker → List SequenceCall → List SequenceEvent
  | _, [] => []
  | t, call :: rest => ⟨call, (t.add call).1⟩ :: eventsFrom (t.add call).2 rest

def afterCalls (t : SequenceTracker) (calls : List SequenceCall) : SequenceTracker :=
  calls.foldl (fun t call => (t.add call).2) t

theorem run_calls (calls : List SequenceCall) : ∀ t : SequenceTracker,
    Run Adds t (eventsFrom t calls) (afterCalls t calls) := by
  induction calls with
  | nil => exact fun t => .nil
  | cons call rest ih =>
    intro t
    have first : Run Adds t ([] ++ [⟨call, (t.add call).1⟩]) (t.add call).2 := Run.nil.snoc rfl
    exact first.append (ih _)

end Libknock.Knock
