import Libknock.Knock.UDPSequenceAccounting

/-!
# The memory of the UDP sequence tracker

The tracker keeps three maps.  The states and the completed keys are bounded by
`MaxTotalInflight`.  A counter of `perIP` that has gone down to zero stays in the
map, so that this one has an entry for every source that ever opened a state.
-/

set_option autoImplicit false

namespace Libknock.Knock

open Foundation Auth Cache

namespace SequenceTracker

variable {key : Bytes} {now : Int} {t next : SequenceTracker} {src : IPText} {info : KnockInfo}

/-- Each of the maps has at most `MaxTotalInflight` keys. -/
structure Bounded (t : SequenceTracker) : Prop where
  states : (t.states.keys.length : Int) ≤ t.opts.maxTotalInflight
  perIP : (t.perIP.keys.length : Int) ≤ t.opts.maxTotalInflight
  completed : (t.completed.len : Int) ≤ t.opts.maxTotalInflight

/-! ## The sources of the keys -/

/-- The source of every key in flight has a counter. -/
def Sourced (t : SequenceTracker) : Prop := ∀ key ∈ t.states, sourceText key ∈ t.perIP

/-- Counting down keeps the sources. -/
theorem remove_sources (key ip : Bytes) (t : SequenceTracker) :
    (t.removeLocked key ip).perIP.keys.Perm t.perIP.keys := by
  simp only [removeLocked]
  split
  · rename_i counted
    exact keys_insert_of_mem (mem_of_counterAt_ne_zero (Int.ne_of_gt counted)) _
  · exact .refl _

theorem mem_perIP_of_perm (same : next.perIP.keys.Perm t.perIP.keys) (ip : Bytes) :
    ip ∈ next.perIP ↔ ip ∈ t.perIP := by
  rw [AList.mem_keys, AList.mem_keys, same.mem_iff]

theorem Sourced.move (sourced : t.Sourced) (move : Move t next) : next.Sourced := by
  cases move with
  | forget | mark => exact sourced
  | store key state held =>
    intro other member
    rcases (AList.mem_insert _).mp member with rfl | old
    · exact sourced other held
    · exact sourced other old
  | close key held =>
    intro other member
    have same := mem_perIP_of_perm (remove_sources key (sourceText key) t)
    exact (same _).mpr (sourced other (AList.mem_erase.mp member).2)
  | start key src state own _ _ _ =>
    intro other member
    refine (AList.mem_insert _).mpr ?_
    rcases (AList.mem_insert _).mp member with rfl | old
    · exact Or.inl own
    · exact Or.inr (sourced other old)

/-! ## The completed keys -/

theorem swept_len_le (now : Int) (t : SequenceTracker) : (t.swept now).len ≤ t.completed.len := by
  unfold swept
  split
  · exact List.length_filter_le _ _
  · exact Nat.le_refl _

theorem setUntil_len_le (key : Bytes) (expiresAt : Int) (cache : TTLLRU Bytes Unit) :
    (cache.setUntil key () expiresAt).len ≤ cache.len + 1 := by
  unfold TTLLRU.setUntil
  split
  · exact Nat.le_succ _
  · exact TTLLRU.setLocked_length_le ..

theorem Move.completed_le (move : Move t next)
    (bounded : (t.completed.len : Int) ≤ t.opts.maxTotalInflight) :
    (next.completed.len : Int) ≤ next.opts.maxTotalInflight := by
  cases move with
  | forget completed _ size => exact le_trans (Int.ofNat_le.mpr size) bounded
  | mark key now _ =>
    have swept := swept_len_le now t
    rw [markCompletedLocked_eq]
    dsimp only
    split
    · have grown := setUntil_len_le key (addDuration now t.nonceTT) (t.swept now)
      omega
    · omega
  | store | close | start => exact bounded

/-! ## The counters of a call -/

theorem prune_loop_sources (now : Int) (visited : List Bytes) :
    ∀ t : SequenceTracker, (visited.foldl (pruneKey now) t).perIP.keys.Perm t.perIP.keys := by
  induction visited with
  | nil => exact fun t => .refl _
  | cons head rest ih =>
    intro t
    refine (ih (t.pruneKey now head)).trans ?_
    rcases pruneKey_cases now t head with same | ⟨_, removed⟩
    · rw [same]
    · rw [removed]
      exact remove_sources head (sourceText head) (t.markCompletedLocked head now)

theorem prune_sources (order : KeyOrder) (now : Int) (t : SequenceTracker) :
    (t.pruneLocked order now).perIP.keys.Perm t.perIP.keys :=
  prune_loop_sources now _ t

theorem addToState_sources (t : SequenceTracker) (key : Bytes) (src : IPText) (info : KnockInfo)
    (now : Int) (state : SeqState) :
    (t.addToState key src info now state).2.perIP.keys.Perm t.perIP.keys := by
  unfold addToState
  split
  · exact remove_sources key src.text t
  split
  · exact .refl _
  split
  · exact .refl _
  dsimp only
  split
  · exact remove_sources key src.text
      (({ t with states := t.states.insert key (received state info now) } :
        SequenceTracker).markCompletedLocked key now)
  · exact .refl _

theorem openState_accepts (opens : 0 ≤ t.opts.window) (key : Bytes) (src : IPText)
    (info : KnockInfo) (now : Int) :
    ((t.openState key src (freshState info now)).addToState key src info now
      (freshState info now)).1.isOk = true := by
  have young : (t.openState key src (freshState info now)).expired now (freshState info now) =
      false := fresh_young now info opens
  have agrees : ¬ ((freshState info now).total ≠ info.sequenceTotal ∨
      (freshState info now).sessionID ≠ info.sessionID) := by simp [freshState]
  have missing := fresh_missing info now info.sequenceIndex.toNat
  unfold addToState
  rw [if_neg (Bool.eq_false_iff.mp young), if_neg agrees, if_neg (Bool.eq_false_iff.mp missing)]
  by_cases full : (received (freshState info now) info now).parts.all id = true
  · rw [if_pos full]
    rfl
  · rw [if_neg full]
    rfl

theorem addPart_perIP (opens : 0 ≤ t.opts.window) (sourced : t.Sourced)
    (own : sourceText key = src.text) (info : KnockInfo) (now : Int) (ip : Bytes) :
    ip ∈ (t.addPart key src info now).2.perIP ↔
      ip ∈ t.perIP ∨ (t.addPart key src info now).1.isOk = true ∧ ip = src.text := by
  unfold addPart
  split
  · rename_i state found
    have counted : src.text ∈ t.perIP := own ▸ sourced key (mem_of_lookup found)
    rw [mem_perIP_of_perm (addToState_sources ..)]
    refine ⟨Or.inl, ?_⟩
    rintro (old | ⟨-, rfl⟩)
    · exact old
    · exact counted
  split
  · simp [Except.isOk, Except.toBool]
  split
  · simp [Except.isOk, Except.toBool]
  · rw [mem_perIP_of_perm (addToState_sources ..), openState_accepts opens]
    exact (AList.mem_insert _).trans (by rw [eq_self, true_and, or_comm])

theorem addPruned_perIP (opens : 0 ≤ t.opts.window) (sourced : t.Sourced) (src : IPText)
    (info : KnockInfo) (now : Int) (ip : Bytes) :
    ip ∈ (t.addPruned src info now).2.perIP ↔
      ip ∈ t.perIP ∨ (t.addPruned src info now).1.isOk = true ∧ ip = src.text := by
  unfold addPruned
  split
  · simp [Except.isOk, Except.toBool]
  split
  · simp [Except.isOk, Except.toBool]
  · rename_i completed _
    exact addPart_perIP (t := { t with completed := completed }) opens sourced
      (sourceText_sequenceStateKey src info) info now ip

/-- A counter comes with a call that returns no error, and none goes. -/
theorem add_perIP (opens : 0 ≤ t.opts.window) (sourced : t.Sourced) (call : SequenceCall)
    (ip : Bytes) : ip ∈ (t.add call).2.perIP ↔
      ip ∈ t.perIP ∨ (t.add call).1.isOk = true ∧ ip = call.src.text := by
  rw [add_eq]
  split
  · simp [Except.isOk, Except.toBool]
  · rename_i info _
    have pruned : (t.pruneLocked call.order call.now).Sourced := by
      refine moves_keep Sourced (prune_moves call.order call.now t) ?_ sourced
      exact fun before after move held => held.move move
    have window : 0 ≤ (t.pruneLocked call.order call.now).opts.window := by
      rw [(prune_fixed call.order call.now t).opts]
      exact opens
    rw [addPruned_perIP window pruned, mem_perIP_of_perm (prune_sources call.order call.now t)]

/-! ## Runs -/

/-- What the maps keep to in every run. -/
structure Kept (t : SequenceTracker) : Prop where
  tallied : t.Tallied
  sourced : t.Sourced
  total_le : t.total ≤ t.opts.maxTotalInflight
  completed_le : (t.completed.len : Int) ≤ t.opts.maxTotalInflight

theorem Kept.moves (kept : t.Kept) (moves : Moves t next) : next.Kept := by
  refine moves_keep Kept moves ?_ kept
  intro before after move held
  exact ⟨held.tallied.move move, held.sourced.move move, move.total_le held.tallied held.total_le,
    move.completed_le held.completed_le⟩

theorem Kept.bounded_iff (kept : t.Kept) :
    t.Bounded ↔ (t.perIP.keys.length : Int) ≤ t.opts.maxTotalInflight := by
  constructor
  · exact Bounded.perIP
  · intro few
    exact ⟨kept.tallied.total ▸ kept.total_le, few, kept.completed_le⟩

theorem new_kept {opts : SequenceOptions} {nonceTTL : Duration}
    (nonneg : 0 ≤ (newSequenceTracker opts nonceTTL).opts.maxTotalInflight) :
    (newSequenceTracker opts nonceTTL).Kept where
  tallied := new_tallied opts nonceTTL
  sourced := fun _ held => absurd held (AList.notMem_empty _)
  total_le := nonneg
  completed_le := nonneg

end SequenceTracker

open SequenceTracker

theorem run_kept {start : SequenceTracker} (kept : start.Kept) :
    ∀ past t, Run Adds start past t → t.Kept := by
  apply Run.invariant
  · exact kept
  · intro past before event after _ held step
    exact held.moves step.moves

/-- The sources with a call that returned no error. -/
def openers (past : List SequenceEvent) : Finset Bytes :=
  ((past.filter fun event => event.answer.isOk).map fun event => event.call.src.text).toFinset

section

variable {past : List SequenceEvent} {event : SequenceEvent} {t next : SequenceTracker}
  {opts : SequenceOptions} {nonceTTL : Duration}

theorem mem_openers {ip : Bytes} :
    ip ∈ openers past ↔ ∃ event ∈ past, event.answer.isOk = true ∧ event.call.src.text = ip := by
  simp [openers, and_assoc]

theorem mem_openers_snoc {ip : Bytes} :
    ip ∈ openers (past ++ [event]) ↔
      ip ∈ openers past ∨ event.answer.isOk = true ∧ ip = event.call.src.text := by
  rw [mem_openers, mem_openers]
  constructor
  · rintro ⟨chosen, member, accepted, rfl⟩
    rcases List.mem_append.mp member with early | last
    · exact Or.inl ⟨chosen, early, accepted, rfl⟩
    · cases List.mem_singleton.mp last
      exact Or.inr ⟨accepted, rfl⟩
  · rintro (⟨chosen, early, accepted, same⟩ | ⟨accepted, rfl⟩)
    · exact ⟨chosen, List.mem_append_left _ early, accepted, same⟩
    · exact ⟨event, by simp, accepted, rfl⟩

/-- A call that returns no error brings a part. -/
theorem Adds.delivered (step : Adds t event next) (accepted : event.answer.isOk = true) :
    ∃ key part, event.delivery key = some part ∧ part.accepted = true := by
  unfold Adds at step
  rw [add_eq] at step
  cases found : event.call.part with
  | none =>
    rw [found] at step
    rw [← (Prod.mk.inj step).1] at accepted
    cases accepted
  | some info =>
    refine ⟨sequenceStateKey event.call.src info, ⟨info, event.call.now, event.answer⟩, ?_, ?_⟩
    · simp [SequenceEvent.delivery, found]
    · cases answer : event.answer with
      | ok => rfl
      | error =>
        rw [answer] at accepted
        cases accepted

/-- A source has a call that returned no error exactly when it has opened a state. -/
theorem mem_openers_iff (run : Run Adds (newSequenceTracker opts nonceTTL) past t) (ip : Bytes) :
    ip ∈ openers past ↔ ∃ key earlier opening later, past = earlier ++ opening :: later ∧
      Opens (newSequenceTracker opts nonceTTL) key earlier opening ∧
      opening.call.src.text = ip := by
  rw [mem_openers]
  constructor
  · rintro ⟨event, member, accepted, rfl⟩
    obtain ⟨front, back, rfl⟩ := List.append_of_mem member
    obtain ⟨before, after, early, step, -⟩ := run.split
    obtain ⟨key, part, own, taken⟩ := step.delivered accepted
    cases found : (event.pruned before).states.lookup key with
    | none => exact ⟨key, front, event, back, rfl, ⟨before, early, found, part, own, taken⟩, rfl⟩
    | some state =>
      -- the state goes back to a call of the same source
      obtain ⟨earlier, opening, later, rfl, opened, -⟩ :=
        run_traced (new_window opts nonceTTL) rfl front before early state
          (SequenceEvent.pruned_slot found)
      have source : sourceText key = opening.call.src.text := by
        obtain ⟨-, -, -, first, delivered, -⟩ := opened
        exact source_of_delivery (by rw [delivered]; rfl)
      refine ⟨key, earlier, opening, later ++ event :: back, by simp, opened, ?_⟩
      rw [← source, source_of_delivery (by rw [own]; rfl)]
  · rintro ⟨key, earlier, opening, later, rfl, ⟨-, -, -, part, own, taken⟩, same⟩
    refine ⟨opening, by simp, ?_, same⟩
    rw [← (SequenceEvent.delivery_eq_some own).2.2.2]
    cases answer : part.answer with
    | ok => rfl
    | error =>
      rw [Delivery.accepted, answer] at taken
      cases taken

/-- The counters are those of the sources that have opened a state. -/
theorem run_perIP (nonneg : 0 ≤ (newSequenceTracker opts nonceTTL).opts.maxTotalInflight) :
    ∀ past t, Run Adds (newSequenceTracker opts nonceTTL) past t →
      ∀ ip, ip ∈ t.perIP ↔ ip ∈ openers past := by
  apply Run.invariant
  · intro ip
    exact ⟨fun held => absurd held (AList.notMem_empty _), nofun⟩
  · intro past before event after run same step ip
    have kept := run_kept (new_kept nonneg) past before run
    have added := add_perIP (run_window (new_window opts nonceTTL) run) kept.sourced event.call ip
    rw [step] at added
    rw [mem_openers_snoc, ← same ip]
    exact added

theorem run_bounded_iff (nonneg : 0 ≤ (newSequenceTracker opts nonceTTL).opts.maxTotalInflight)
    (run : Run Adds (newSequenceTracker opts nonceTTL) past t) :
    t.Bounded ↔
      ((openers past).card : Int) ≤ (newSequenceTracker opts nonceTTL).opts.maxTotalInflight := by
  have keys : openers past = t.perIP.keys.toFinset := by
    ext ip
    rw [← run_perIP nonneg past t run ip, List.mem_toFinset, AList.mem_keys]
  rw [(run_kept (new_kept nonneg) past t run).bounded_iff, (run_fixed past t run).opts, keys,
    List.toFinset_card_of_nodup t.perIP.keys_nodup]

theorem openers_card_le (past : List SequenceEvent) (event : SequenceEvent) :
    (openers past).card ≤ (openers (past ++ [event])).card :=
  Finset.card_le_card fun _ member => mem_openers_snoc.mpr (Or.inl member)

end

/-- The maps stay bounded by `MaxTotalInflight` in exactly the runs in which at most
`MaxTotalInflight` sources open a state. -/
theorem udp_memory_bounded_iff (opts : SequenceOptions) (nonceTTL : Duration)
    (past : List SequenceEvent) (t : SequenceTracker) :
    (((newSequenceTracker opts nonceTTL).Bounded ∧
        Run (Reaching Bounded Adds) (newSequenceTracker opts nonceTTL) past t) ↔
      0 ≤ (newSequenceTracker opts nonceTTL).opts.maxTotalInflight ∧
        Run Adds (newSequenceTracker opts nonceTTL) past t ∧
        ((openers past).card : Int) ≤
          (newSequenceTracker opts nonceTTL).opts.maxTotalInflight) ∧
      (Run Adds (newSequenceTracker opts nonceTTL) past t → ∀ ip, ip ∈ openers past ↔
        ∃ key earlier opening later, past = earlier ++ opening :: later ∧
          Opens (newSequenceTracker opts nonceTTL) key earlier opening ∧
          opening.call.src.text = ip) := by
  have initial : (newSequenceTracker opts nonceTTL).Bounded ↔
      0 ≤ (newSequenceTracker opts nonceTTL).opts.maxTotalInflight :=
    ⟨Bounded.states, fun nonneg => ⟨nonneg, nonneg, nonneg⟩⟩
  refine ⟨?_, mem_openers_iff⟩
  rw [initial, and_congr_right_iff]
  intro nonneg
  constructor
  · intro bounded
    have run : Run Adds (newSequenceTracker opts nonceTTL) past t :=
      bounded.mono fun _ _ _ step => step.1
    refine ⟨run, (run_bounded_iff nonneg run).mp ?_⟩
    cases bounded with
    | nil => exact initial.mpr nonneg
    | snoc _ step => exact step.2
  · rintro ⟨run, few⟩
    -- the openers only grow, so that the bound holds after every call
    induction run with
    | nil => exact .nil
    | @snoc past before after event earlier step ih =>
      have grown := openers_card_le past event
      exact (ih (by omega)).snoc ⟨step, (run_bounded_iff nonneg (earlier.snoc step)).mpr few⟩

def otherSource : IPText := ⟨ascii "192.0.2.2", by decide⟩

/-- A sequence from each of two sources, one after the other. -/
def sampleVisits : List SequenceCall :=
  [⟨sampleSource, some (samplePart (ascii "alice") 0), 5, sampleOrder⟩,
    ⟨sampleSource, some (samplePart (ascii "alice") 1), 6, sampleOrder⟩,
    ⟨otherSource, some (samplePart (ascii "bob") 0), 2000000000, sampleOrder⟩,
    ⟨otherSource, some (samplePart (ascii "bob") 1), 2000000001, sampleOrder⟩]

/-- One sequence may be in flight, and none is, but there are two counters. -/
theorem counters_outlive_sequences :
    ∃ past t, Run Adds (newSequenceTracker (sampleSequence 1) minute) past t ∧
      (past.map fun event => event.call.now) = [5, 6, 2000000000, 2000000001] ∧
      t.states.keys = [] ∧ t.total = 0 ∧ t.opts.maxTotalInflight = 1 ∧ (openers past).card = 2 ∧
      t.perIP.keys = [otherSource.text, sampleSource.text] ∧ ¬ t.Bounded := by
  refine ⟨_, _, run_calls sampleVisits _, by decide +kernel, by decide +kernel, by decide +kernel,
    by decide +kernel, by decide +kernel, by decide +kernel, ?_⟩
  intro bounded
  have few := bounded.perIP
  revert few
  decide +kernel

end Libknock.Knock
