import Libknock.Foundation.Tally
import Libknock.Knock.UDPSequenceCompletion

/-!
# The counters of the UDP sequence tracker

`perIP` and `total` are kept beside the map of the states: a new state counts them
up, a complete one and one that is too old count them down.  The source that is
counted down is the one of the call, or, when the loop over the states removes a
key, the first segment of that key.

Whatever `add` does to a tracker is made of a few moves.  They are listed once,
and each invariant of the maps is shown move by move.
-/

set_option autoImplicit false

namespace Libknock.Knock

open Foundation Auth Cache

namespace SequenceTracker

variable {key : Bytes} {now : Int} {t next : SequenceTracker} {src : IPText} {info : KnockInfo}

/-! ## Moves -/

inductive Move (t : SequenceTracker) : SequenceTracker → Prop
  | forget (completed : TTLLRU Bytes Unit)
      (fewer : ∀ entry ∈ completed.order, entry ∈ t.completed.order)
      (size : completed.len ≤ t.completed.len) : Move t { t with completed := completed }
  | mark (key : Bytes) (now : Int) (held : key ∈ t.states) : Move t (t.markCompletedLocked key now)
  | store (key : Bytes) (state : SeqState) (held : key ∈ t.states) :
      Move t { t with states := t.states.insert key state }
  | close (key : Bytes) (held : key ∈ t.states) : Move t (t.removeLocked key (sourceText key))
  | start (key : Bytes) (src : IPText) (state : SeqState) (own : sourceText key = src.text)
      (absent : key ∉ t.states) (roomIP : t.inflight src.text < t.opts.maxInflightPerIP)
      (room : t.total < t.opts.maxTotalInflight) : Move t (t.openState key src state)

abbrev Moves : SequenceTracker → SequenceTracker → Prop := Relation.ReflTransGen Move

theorem sweep_move (now : Int) (t : SequenceTracker) :
    Move t { t with completed := (t.completed.sweep now).2 } :=
  .forget _ (fun _ member => (TTLLRU.mem_sweep.mp member).1) (List.length_filter_le _ _)

theorem getAt_move (key : Bytes) (now : Int) (t : SequenceTracker) :
    Move t { t with completed := (t.completed.getAt key now).2 } :=
  .forget _ (fun _ member => (TTLLRU.mem_getAt.mp member).1)
    (TTLLRU.getAt_length key now t.completed)

theorem mem_of_lookup {state : SeqState} (found : t.states.lookup key = some state) :
    key ∈ t.states :=
  AList.lookup_isSome.mp (by rw [found]; rfl)

theorem mark_close_moves (now : Int) (held : key ∈ t.states) :
    Moves t ((t.markCompletedLocked key now).removeLocked key (sourceText key)) :=
  .tail (.single (.mark key now held)) (.close key held)

theorem pruneKey_moves (now : Int) (t : SequenceTracker) (visited : Bytes) :
    Moves t (t.pruneKey now visited) := by
  rcases pruneKey_cases now t visited with same | ⟨⟨state, found, _⟩, removed⟩
  · rw [same]
  · rw [removed]
    exact mark_close_moves now (mem_of_lookup found)

theorem prune_loop_moves (now : Int) (visited : List Bytes) :
    ∀ t : SequenceTracker, Moves t (visited.foldl (pruneKey now) t) := by
  induction visited with
  | nil => exact fun t => .refl
  | cons head rest ih => exact fun t => (pruneKey_moves now t head).trans (ih _)

theorem prune_moves (order : KeyOrder) (now : Int) (t : SequenceTracker) :
    Moves t (t.pruneLocked order now) :=
  (prune_loop_moves now _ t).tail (sweep_move now _)

theorem addToState_moves (own : sourceText key = src.text) (held : key ∈ t.states)
    (info : KnockInfo) (now : Int) (state : SeqState) :
    Moves t (t.addToState key src info now state).2 := by
  unfold addToState
  rw [← own]
  split
  · exact .single (.close key held)
  split
  · exact .refl
  split
  · exact .refl
  have stored : Moves t { t with states := t.states.insert key (received state info now) } :=
    .single (.store key _ held)
  dsimp only
  split
  · exact stored.trans (mark_close_moves now (AList.mem_insert _ |>.mpr (Or.inl rfl)))
  · exact stored

theorem addPart_moves (own : sourceText key = src.text) (info : KnockInfo) (now : Int) :
    Moves t (t.addPart key src info now).2 := by
  unfold addPart
  split
  · rename_i state found
    exact addToState_moves own (mem_of_lookup found) info now state
  · rename_i absent
    split
    · exact .refl
    rename_i roomIP
    split
    · exact .refl
    rename_i room
    have opened : Moves t (t.openState key src (freshState info now)) :=
      .single (.start key src _ own (AList.lookup_eq_none.mp absent) (not_le.mp roomIP)
        (not_le.mp room))
    exact opened.trans
      (addToState_moves own (AList.mem_insert _ |>.mpr (Or.inl rfl)) info now _)

theorem addPruned_moves (t : SequenceTracker) (src : IPText) (info : KnockInfo) (now : Int) :
    Moves t (t.addPruned src info now).2 := by
  unfold addPruned
  split
  · exact .refl
  have read := getAt_move (sequenceStateKey src info) now t
  split
  · rename_i completed hit
    rw [hit] at read
    exact .single read
  · rename_i completed miss
    rw [miss] at read
    exact (Relation.ReflTransGen.single read).trans
      (addPart_moves (sourceText_sequenceStateKey src info) info now)

theorem add_moves (t : SequenceTracker) (call : SequenceCall) : Moves t (t.add call).2 := by
  unfold add
  split
  · exact .refl
  split
  · exact .refl
  · exact (prune_moves call.order call.now t).trans (addPruned_moves _ _ _ _)

/-! ## The counters -/

def Tallied (t : SequenceTracker) : Prop :=
  Tally sourceText t.states.keys (counterAt t.perIP) t.total

theorem remove_counters (held : key ∈ t.states) (tallied : t.Tallied) :
    counterAt (t.removeLocked key (sourceText key)).perIP =
        Function.update (counterAt t.perIP) (sourceText key) (t.inflight (sourceText key) - 1) ∧
      (t.removeLocked key (sourceText key)).total = t.total - 1 := by
  obtain ⟨counted, some_⟩ :=
    Tally.pos_of_perm tallied (keys_perm_erase held)
  constructor
  · rw [← counterAt_insert]
    exact congrArg counterAt (if_pos counted)
  · exact if_pos some_

theorem Tallied.move (tallied : t.Tallied) (move : Move t next) : next.Tallied := by
  cases move with
  | forget | mark => exact tallied
  | store key state held => exact Tally.perm tallied (keys_insert_of_mem held state).symm
  | close key held =>
    obtain ⟨counters, total⟩ := remove_counters held tallied
    have left := Tally.leave tallied (keys_perm_erase held)
    unfold Tallied
    rw [counters, total]
    exact left
  | start key src state own absent _ _ =>
    have entered := Tally.enter tallied key
    unfold Tallied
    rw [openState, counterAt_insert, keys_insert_of_notMem absent, ← own]
    exact entered

theorem Move.total_le (move : Move t next) (tallied : t.Tallied)
    (limited : t.total ≤ t.opts.maxTotalInflight) : next.total ≤ next.opts.maxTotalInflight := by
  cases move with
  | forget | mark | store => exact limited
  | close key held =>
    rw [(remove_counters held tallied).2]
    exact Int.le_of_lt (Int.sub_one_lt_of_le limited)
  | start key src state _ _ _ room => exact Int.add_one_le_iff.mpr room

theorem Move.perIP_le (move : Move t next) (tallied : t.Tallied)
    (limited : ∀ ip, t.inflight ip ≤ t.opts.maxInflightPerIP) (ip : Bytes) :
    next.inflight ip ≤ next.opts.maxInflightPerIP := by
  cases move with
  | forget | mark | store => exact limited ip
  | close key held =>
    have counted := congrFun (remove_counters held tallied).1 ip
    rw [Function.update_apply] at counted
    show counterAt _ ip ≤ t.opts.maxInflightPerIP
    rw [counted]
    split
    · exact Int.le_of_lt (Int.sub_one_lt_of_le (limited _))
    · exact limited ip
  | start key src state _ _ roomIP _ =>
    show counterAt (t.perIP.insert src.text (t.inflight src.text + 1)) ip ≤ _
    rw [counterAt_insert, Function.update_apply]
    split
    · exact Int.add_one_le_iff.mpr roomIP
    · exact limited ip

structure Balanced (t : SequenceTracker) : Prop where
  tallied : t.Tallied
  total_le : t.total ≤ t.opts.maxTotalInflight
  perIP_le : ∀ ip, t.inflight ip ≤ t.opts.maxInflightPerIP

theorem Balanced.moves (balanced : t.Balanced) (moves : Moves t next) : next.Balanced := by
  refine moves_keep Balanced moves ?_ balanced
  intro before after move held
  exact ⟨held.tallied.move move, move.total_le held.tallied held.total_le,
    move.perIP_le held.tallied held.perIP_le⟩

end SequenceTracker

open SequenceTracker

theorem Adds.moves {t next : SequenceTracker} {event : SequenceEvent} (step : Adds t event next) :
    Moves t next := by
  have moves := add_moves t event.call
  rw [step] at moves
  exact moves

theorem new_tallied (opts : SequenceOptions) (nonceTTL : Duration) :
    (newSequenceTracker opts nonceTTL).Tallied :=
  Tally.empty sourceText

/-! ## Runs -/

def statesFrom (past : List SequenceEvent) (src : IPText) (t : SequenceTracker) : Set Bytes :=
  {key | key ∈ t.states ∧ ∃ event ∈ past, event.call.src = src ∧ (event.delivery key).isSome}

/-- `total` and `perIP` are the numbers of states in flight, and within the limits. -/
structure Accounted (opts : SequenceOptions) (past : List SequenceEvent) (t : SequenceTracker) :
    Prop where
  total : t.total = t.states.keys.length
  total_le : t.total ≤ opts.maxTotalInflight
  perIP : ∀ src : IPText, t.inflight src.text = (statesFrom past src t).ncard
  perIP_le : ∀ src : IPText, t.inflight src.text ≤ opts.maxInflightPerIP

section Runs

variable {opts : SequenceOptions} {nonceTTL : Duration} {past : List SequenceEvent}
  {t : SequenceTracker} {key : Bytes}

theorem source_of_delivery {event : SequenceEvent} (came : (event.delivery key).isSome) :
    sourceText key = event.call.src.text := by
  obtain ⟨part, own⟩ := Option.isSome_iff_exists.mp came
  rw [← (SequenceEvent.delivery_eq_some own).2.1, sourceText_sequenceStateKey]

theorem run_came (run : Run Adds (newSequenceTracker opts nonceTTL) past t)
    (held : key ∈ t.states) : ∃ event ∈ past, (event.delivery key).isSome := by
  obtain ⟨state, found⟩ := Option.isSome_iff_exists.mp (AList.lookup_isSome.mpr held)
  obtain ⟨earlier, opening, later, rfl, ⟨_, _, _, part, own, _⟩, _⟩ :=
    run_traced (new_window opts nonceTTL) rfl past t run state found
  exact ⟨opening, by simp, by rw [own]; rfl⟩

theorem mem_statesFrom (came : ∀ key ∈ t.states, ∃ event ∈ past, (event.delivery key).isSome)
    (src : IPText) (key : Bytes) :
    key ∈ statesFrom past src t ↔ key ∈ t.states ∧ sourceText key = src.text := by
  constructor
  · rintro ⟨held, event, _, rfl, delivered⟩
    exact ⟨held, source_of_delivery delivered⟩
  · rintro ⟨held, named⟩
    obtain ⟨event, member, delivered⟩ := came key held
    refine ⟨held, event, member, ?_, delivered⟩
    have same := (source_of_delivery delivered).symm.trans named
    generalize event.call.src = other at same
    cases other
    cases src
    cases same
    rfl

theorem SequenceTracker.Tallied.ncard (tallied : t.Tallied)
    (came : ∀ key ∈ t.states, ∃ event ∈ past, (event.delivery key).isSome) (src : IPText) :
    t.inflight src.text = (statesFrom past src t).ncard := by
  have listed : statesFrom past src t =
      ((t.states.keys.filter fun key => decide (sourceText key = src.text)).toFinset : Set Bytes) := by
    ext key
    rw [mem_statesFrom came src key]
    simp [AList.mem_keys]
  rw [listed, Set.ncard_coe_finset, List.toFinset_card_of_nodup (t.states.keys_nodup.filter _)]
  exact Tally.count_eq_length_filter tallied src.text

theorem SequenceTracker.Balanced.accounted (balanced : t.Balanced)
    (came : ∀ key ∈ t.states, ∃ event ∈ past, (event.delivery key).isSome)
    (total : t.opts.maxTotalInflight = opts.maxTotalInflight)
    (perIP : t.opts.maxInflightPerIP = opts.maxInflightPerIP) : Accounted opts past t where
  total := balanced.tallied.total
  total_le := total ▸ balanced.total_le
  perIP := balanced.tallied.ncard came
  perIP_le := fun src => perIP ▸ balanced.perIP_le src.text

theorem new_balanced (total : 0 ≤ (newSequenceTracker opts nonceTTL).opts.maxTotalInflight)
    (perIP : 0 ≤ (newSequenceTracker opts nonceTTL).opts.maxInflightPerIP) :
    (newSequenceTracker opts nonceTTL).Balanced :=
  ⟨new_tallied opts nonceTTL, total, fun _ => perIP⟩

theorem run_balanced {start : SequenceTracker} (balanced : start.Balanced) :
    ∀ past t, Run Adds start past t → t.Balanced := by
  apply Run.invariant
  · exact balanced
  · intro past before event after _ held step
    exact held.moves step.moves

/-- After every run, and when the loop over the states of the next call has run,
`total` and `perIP` are the numbers of the states in flight.  The calls may come in
any order of time, and with any client IDs: the source stands first in a key. -/
theorem udp_sequence_accounted (opts : SequenceOptions) (nonceTTL : Duration)
    (positive : 0 < opts.maxTotalInflight) (positiveIP : 0 < opts.maxInflightPerIP)
    (past : List SequenceEvent) (t : SequenceTracker)
    (run : Run Adds (newSequenceTracker opts nonceTTL) past t) :
    Accounted opts past t ∧ ∀ order now, Accounted opts past (t.pruneLocked order now) := by
  have total : (newSequenceTracker opts nonceTTL).opts.maxTotalInflight = opts.maxTotalInflight :=
    if_neg (Int.ne_of_gt positive)
  have perIP : (newSequenceTracker opts nonceTTL).opts.maxInflightPerIP = opts.maxInflightPerIP :=
    if_neg (Int.ne_of_gt positiveIP)
  have fixed := (run_fixed past t run).opts
  have balanced := run_balanced (new_balanced (by rw [total]; exact Int.le_of_lt positive)
    (by rw [perIP]; exact Int.le_of_lt positiveIP)) past t run
  have came : ∀ key ∈ t.states, ∃ event ∈ past, (event.delivery key).isSome :=
    fun key held => run_came run held
  constructor
  · exact balanced.accounted came (by rw [fixed, total]) (by rw [fixed, perIP])
  intro order now
  have pruned := (prune_fixed order now t).opts
  refine (balanced.moves (prune_moves order now t)).accounted ?_ (by rw [pruned, fixed, total])
    (by rw [pruned, fixed, perIP])
  intro key held
  obtain ⟨state, found⟩ := Option.isSome_iff_exists.mp (AList.lookup_isSome.mpr held)
  rw [prune_slot, Option.filter_eq_some_iff] at found
  exact came key (mem_of_lookup found.1)

/-- Two clients of one source, of which one completes; the other runs out. -/
theorem sample_accounted :
    (afterCalls sampleStart sampleCalls).total = 1 ∧
      Accounted (sampleSequence 8) (eventsFrom sampleStart sampleCalls)
        (afterCalls sampleStart sampleCalls) ∧
      ((afterCalls sampleStart sampleCalls).pruneLocked sampleOrder 2000000000).total = 0 ∧
      Accounted (sampleSequence 8) (eventsFrom sampleStart sampleCalls)
        ((afterCalls sampleStart sampleCalls).pruneLocked sampleOrder 2000000000) := by
  have accounted := udp_sequence_accounted (sampleSequence 8) minute (by decide) (by decide) _ _
    (run_calls sampleCalls sampleStart)
  exact ⟨by decide +kernel, accounted.1, by decide +kernel, accounted.2 _ _⟩

end Runs

end Libknock.Knock
