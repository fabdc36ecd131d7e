import Libknock.Knock.UDPSequenceCompletion

/-!
# Sequences that are over

The key of a sequence that is complete, or too old, is marked, and while the mark
lasts its parts are refused.  The set of the marks is bounded: where it is full of
live ones a further key is not marked.
-/

set_option autoImplicit false

namespace Libknock.Knock

open Foundation Auth Cache
open SequenceTracker

variable {key : Bytes} {t next : SequenceTracker} {event : SequenceEvent} {part : Delivery}

/-! ## Keys that are closed -/

/-- The key has no state, and a mark that lasts up to the limit. -/
structure Closed (key : Bytes) (limit : Int) (t : SequenceTracker) : Prop where
  sized : t.Sized
  absent : t.states.lookup key = none
  marked : ∃ entry ∈ t.completed.order, entry.key = key ∧ limit ≤ entry.expiresAt

def Delivery.Refused (part : Delivery) : Prop :=
  part.answer = .error .replayDetected ∨ part.answer = .error invalidPartError

variable {limit : Int}

theorem Closed.beside {now : Int} (closed : Closed key limit t) (beside : Beside key now t next)
    (early : now < limit) : Closed key limit next where
  sized := beside.sized closed.sized
  absent := beside.slot.trans closed.absent
  marked := by
    obtain ⟨entry, member, same, lasts⟩ := closed.marked
    have live : entry.live now = true := decide_eq_true (by omega)
    exact ⟨entry, beside.keeps closed.sized entry member same live, same, lasts⟩

theorem Closed.not_unmarked {now : Int} (closed : Closed key limit t) (early : now < limit) :
    ¬ Unmarked key now t := by
  intro unmarked
  obtain ⟨entry, member, same, lasts⟩ := closed.marked
  have live : entry.live now = true := decide_eq_true (by omega)
  rw [unmarked entry member same] at live
  cases live

theorem Closed.pruned (closed : Closed key limit (event.pruned t)) (step : Adds t event next)
    (opens : 0 ≤ t.opts.window) (early : event.call.now < limit)
    (prunes : event.call.part.isSome = true) :
    Closed key limit next ∧ ∀ part, event.delivery key = some part → part.Refused := by
  cases own : event.delivery key with
  | none =>
    rcases step.other own with ⟨absent, _⟩ | beside
    · rw [absent] at prunes
      cases prunes
    · exact ⟨closed.beside beside early, by simp⟩
  | some part =>
    obtain ⟨_, _, now, _⟩ := SequenceEvent.delivery_eq_some own
    have early : part.now < limit := now ▸ early
    have marked := closed.not_unmarked early
    have outcome := step.own opens own
    have refused : Closed key limit next ∧ part.Refused := by
      unfold Delivery.Refused
      generalize part.answer = answer at outcome
      cases outcome with
      | refused reason beside =>
        refine ⟨closed.beside beside early, ?_⟩
        cases reason with
        | invalid _ => exact Or.inr rfl
        | replayed _ _ _ _ => exact Or.inl rfl
        | crowdedIP unmarked | crowded unmarked | mismatched unmarked | duplicate unmarked =>
          exact absurd unmarked marked
      | stored _ accepts _ _ _ => exact absurd accepts.unmarked marked
      | completed _ _ accepts _ _ _ => exact absurd accepts.unmarked marked
    refine ⟨refused.1, ?_⟩
    intro other same
    cases same
    exact refused.2

theorem Closed.step (closed : Closed key limit t) (step : Adds t event next)
    (opens : 0 ≤ t.opts.window) (early : event.call.now < limit) :
    Closed key limit next ∧ ∀ part, event.delivery key = some part → part.Refused := by
  have young : Young key event.call.now t := young_of_absent _ closed.absent
  cases prunes : event.call.part with
  | none =>
    have other : event.delivery key = none := by simp [SequenceEvent.delivery, prunes]
    exact ⟨closed.beside (step.beside other young) early, by simp [other]⟩
  | some info =>
    exact (closed.beside (prune_beside young event.call.order) early).pruned step opens early
      (by rw [prunes]; rfl)

theorem Closed.run {after : SequenceTracker} (closed : Closed key limit after)
    (opens : 0 ≤ after.opts.window) : ∀ past last, Run Adds after past last →
      (∀ event ∈ past, event.call.now < limit) →
      Closed key limit last ∧ ∀ part ∈ deliveries key past, part.Refused := by
  apply Run.invariant
  · exact fun _ => ⟨closed, by simp [deliveries]⟩
  intro past before event next run held step early
  obtain ⟨closed, refused⟩ := held fun other member =>
    early other (List.mem_append_left _ member)
  obtain ⟨still, newest⟩ := closed.step step (run_window opens run) (early event (by simp))
  refine ⟨still, ?_⟩
  intro part member
  rw [deliveries_append] at member
  rcases List.mem_append.mp member with earlier | last
  · exact refused part earlier
  apply newest part
  cases own : event.delivery key with
  | none => simp [deliveries_other own] at last
  | some other =>
    rw [deliveries_own own] at last
    rw [List.mem_singleton.mp last]

theorem closed_marked {now : Int} (sized : t.Sized) (roomy : t.Roomy now)
    (dated : isZero (addDuration now t.nonceTT) = false) (ip : Bytes) :
    Closed key (addDuration now t.nonceTT) ((t.markCompletedLocked key now).removeLocked key ip) where
  sized := (mark_fixed.trans remove_fixed).sized sized
  absent := remove_slot key ip _
  marked := ⟨_, mark_records key roomy dated, rfl, Int.le_refl _⟩

def Completes (key : Bytes) (event : SequenceEvent) : Prop :=
  ∃ part, event.delivery key = some part ∧ part.answer = .ok true

def Prunes (key : Bytes) (t : SequenceTracker) (event : SequenceEvent) : Prop :=
  event.call.part.isSome = true ∧
    ∃ state, t.states.lookup key = some state ∧ t.expired event.call.now state = true

theorem Completes.closed (completes : Completes key event) (step : Adds t event next)
    (opens : 0 ≤ t.opts.window) (sized : t.Sized) (roomy : (event.pruned t).Roomy event.call.now)
    (dated : isZero (addDuration event.call.now t.nonceTT) = false) :
    Closed key (addDuration event.call.now t.nonceTT) next := by
  obtain ⟨part, own, complete⟩ := completes
  have now := (SequenceEvent.delivery_eq_some own).2.2.1
  have fixed : Fixed t (event.pruned t) := prune_fixed event.call.order event.call.now t
  have outcome := step.own opens own
  rw [complete, now] at outcome
  cases outcome with
  | completed state filled _ _ recalls size =>
    have kept : filled.nonceTT = t.nonceTT := recalls.nonceTT.trans fixed.nonceTT
    have room : filled.Roomy event.call.now := by
      have pruned : (event.pruned t).completed.activeLen event.call.now =
          (event.pruned t).completed.len := prune_activeLen ..
      have fewer : filled.completed.activeLen event.call.now ≤ filled.completed.len :=
        List.length_filter_le _ _
      unfold Roomy at roomy ⊢
      rw [recalls.opts]
      omega
    rw [← kept] at dated ⊢
    exact closed_marked ((fixed.trans recalls.toFixed).sized sized) room dated _

theorem Prunes.closed (prunes : Prunes key t event) (sized : t.Sized)
    (lasting : 0 < t.nonceTT.toInt)
    (roomy : (t.atTurn event.call.order event.call.now key).Roomy event.call.now)
    (dated : isZero (addDuration event.call.now t.nonceTT) = false) :
    Closed key (addDuration event.call.now t.nonceTT) (event.pruned t) := by
  obtain ⟨_, state, found, old⟩ := prunes
  obtain ⟨before, after⟩ := prune_old event.call.order found old
  rw [← before.nonceTT] at dated ⊢
  refine (closed_marked (before.sized sized) roomy dated _).beside after ?_
  rw [before.nonceTT, addDuration]
  omega

theorem new_nonceTT (opts : SequenceOptions) (nonceTTL : Duration) :
    0 < (newSequenceTracker opts nonceTTL).nonceTT.toInt := by
  have opens := Int64.le_iff_toInt_le.mp (new_window opts nonceTTL)
  simp only [newSequenceTracker] at opens ⊢
  split
  · decide
  · rename_i longer
    have longer := Int64.lt_iff_toInt_lt.mp (Int64.not_le.mp longer)
    have zero : (0 : Duration).toInt = 0 := by decide
    omega

/-- A key that completes or times out while fewer than `MaxTotalInflight` completed
keys are live is refused for `nonceTTL`, and never has a state in that time. -/
theorem closed_key_refused (opts : SequenceOptions) (nonceTTL : Duration) (key : Bytes) :
    ∀ past t, Run Adds (newSequenceTracker opts nonceTTL) past t →
    ∀ closing after, Adds t closing after →
      (Completes key closing ∧ (closing.pruned t).Roomy closing.call.now ∨
        Prunes key t closing ∧
          (t.atTurn closing.call.order closing.call.now key).Roomy closing.call.now) →
      isZero (addDuration closing.call.now (newSequenceTracker opts nonceTTL).nonceTT) = false →
      after.states.lookup key = none ∧
      (¬ Completes key closing → ∀ part, closing.delivery key = some part → part.Refused) ∧
      ∀ future further last, Run Adds after (future ++ [further]) last →
        ((closing :: (future ++ [further])).map fun event => event.call.now).Pairwise (· ≤ ·) →
        further.call.now <
          addDuration closing.call.now (newSequenceTracker opts nonceTTL).nonceTT →
        last.states.lookup key = none ∧
          ∀ part, further.delivery key = some part → part.Refused := by
  intro past t reached closing after step closes dated
  have fixed := run_fixed past t reached
  have sized : t.Sized := fixed.sized (new_sized opts nonceTTL)
  have opens := run_window (new_window opts nonceTTL) reached
  have lasting : 0 < t.nonceTT.toInt := fixed.nonceTT ▸ new_nonceTT opts nonceTTL
  rw [← fixed.nonceTT] at dated ⊢
  have closed : Closed key (addDuration closing.call.now t.nonceTT) after ∧
      (¬ Completes key closing → ∀ part, closing.delivery key = some part → part.Refused) := by
    rcases closes with ⟨completes, roomy⟩ | ⟨prunes, roomy⟩
    · exact ⟨completes.closed step opens sized roomy dated,
        fun unfinished => absurd completes unfinished⟩
    · have early : closing.call.now < addDuration closing.call.now t.nonceTT := by
        rw [addDuration]
        omega
      obtain ⟨closed, refused⟩ :=
        (prunes.closed sized lasting roomy dated).pruned step opens early prunes.1
      exact ⟨closed, fun _ => refused⟩
  refine ⟨closed.1.absent, closed.2, ?_⟩
  intro future further last run ordered early
  rw [List.map_cons, List.pairwise_cons, List.map_append, List.pairwise_append] at ordered
  have soon : ∀ event ∈ future ++ [further],
      event.call.now < addDuration closing.call.now t.nonceTT := by
    intro event member
    rcases List.mem_append.mp member with earlier | newest
    · have before := ordered.2.2.2 _ (List.mem_map_of_mem earlier) further.call.now (by simp)
      omega
    · rw [List.mem_singleton.mp newest]
      exact early
  have usable : 0 ≤ after.opts.window := step.fixed.opts ▸ opens
  obtain ⟨still, refused⟩ := closed.1.run usable _ last run soon
  refine ⟨still.absent, ?_⟩
  intro part own
  apply refused part
  rw [deliveries_append, deliveries_own own]
  simp

def sampleReplay : SequenceCall := samplePartCall (ascii "alice") 1 9

theorem closed_key_refused_sample :
    ((afterCalls sampleStart sampleCalls).add sampleReplay).2.states.lookup
        (sampleKey (ascii "alice")) = none ∧
      Delivery.Refused ⟨samplePart (ascii "alice") 1, 9,
        ((afterCalls sampleStart sampleCalls).add sampleReplay).1⟩ := by
  obtain ⟨_, _, further⟩ := closed_key_refused (sampleSequence 8) minute
    (sampleKey (ascii "alice")) (eventsFrom sampleStart (sampleCalls.take 2))
    (afterCalls sampleStart (sampleCalls.take 2)) (run_calls _ _)
    ⟨samplePartCall (ascii "alice") 0 7, .ok true⟩ (afterCalls sampleStart sampleCalls)
    (Prod.ext (by decide +kernel) rfl)
    (Or.inl ⟨⟨⟨samplePart (ascii "alice") 0, 7, .ok true⟩, by decide +kernel, rfl⟩,
      by decide +kernel⟩) (by decide +kernel)
  obtain ⟨absent, refused⟩ := further [] ⟨sampleReplay, _⟩ _ (Run.nil.snoc rfl) (by decide)
    (by decide +kernel)
  exact ⟨absent, refused _ rfl⟩

def sampleCrowd : List SequenceCall :=
  [samplePartCall (ascii "alice") 0 1, samplePartCall (ascii "alice") 1 2,
    samplePartCall (ascii "bob") 0 3, samplePartCall (ascii "bob") 1 4,
    samplePartCall (ascii "bob") 0 5, samplePartCall (ascii "bob") 1 6]

/-- With room for one mark, which the first sequence holds, the second one completes
twice within two nanoseconds. -/
theorem unmarked_key_completes_again :
    Run Adds (newSequenceTracker (sampleSequence 1) minute)
        (eventsFrom (newSequenceTracker (sampleSequence 1) minute) sampleCrowd)
        (afterCalls (newSequenceTracker (sampleSequence 1) minute) sampleCrowd) ∧
      (sampleCrowd.map SequenceCall.now).Pairwise (· ≤ ·) ∧
      (deliveries (sampleKey (ascii "bob"))
          (eventsFrom (newSequenceTracker (sampleSequence 1) minute) sampleCrowd)).map
          (fun part => (part.now, part.answer)) =
        [(3, .ok false), (4, .ok true), (5, .ok false), (6, .ok true)] ∧
      6 < addDuration 4 (newSequenceTracker (sampleSequence 1) minute).nonceTT :=
  ⟨run_calls _ _, by decide, by decide +kernel, by decide +kernel⟩

end Libknock.Knock
