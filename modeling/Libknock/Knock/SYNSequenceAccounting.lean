import Libknock.Foundation.Runs
import Libknock.Foundation.Tally
import Libknock.Knock.Replay
import Libknock.Knock.SYNSequence

/-!
# The counters of the SYN sequence tracker

A state in flight is counted once, when its first part comes, and counted down
when the sequence is complete or too old.  A first part is stored under its source,
client and slot whether or not a state is kept there already, and counted all the
same: the state that it replaces is never counted down.
-/

set_option autoImplicit false

namespace Libknock.Knock

open Foundation Protocol Auth

theorem SYNSeqState.sourceText_key (st : SYNSeqState) : sourceText st.key = st.ip.text :=
  sourceText_append st.ip _

theorem SYNSeqState.cut_key (st : SYNSeqState) : cut st.key = some (sourceText st.key) :=
  if_pos (by simp [SYNSeqState.key])

namespace SYNSeqTracker

variable {Cache : Type} {t next : SYNSeqTracker Cache} {now : Int} {st : SYNSeqState}

def keys (t : SYNSeqTracker Cache) : List Bytes := t.states.map SYNSeqState.key

def Distinct (t : SYNSeqTracker Cache) : Prop := t.keys.Nodup

/-- `total` and `perIP` are the numbers of states in flight, and `perIP` has no entry
for a source without any. -/
structure Accounted (t : SYNSeqTracker Cache) : Prop where
  total : t.total = t.states.length
  perIP : ∀ ip, t.perIP ip = t.states.countP fun st => decide (st.ip.text = ip)
  nonzero : ∀ ip ∈ t.counters, t.perIP ip ≠ 0

theorem accounted_iff : t.Accounted ↔
    Tally sourceText t.keys (counterAt t.counters) t.total ∧
      ∀ ip ∈ t.counters, t.perIP ip ≠ 0 := by
  have counts : ∀ ip, t.keys.countP (fun key => decide (sourceText key = ip)) =
      t.states.countP fun st => decide (st.ip.text = ip) := by
    intro ip
    rw [keys, List.countP_map]
    refine List.countP_congr fun st _ => ?_
    rw [Function.comp_apply, st.sourceText_key]
  constructor
  · intro accounted
    refine ⟨⟨?_, ?_⟩, accounted.nonzero⟩
    · rw [accounted.total, keys, List.length_map]
    · intro ip
      rw [counts]
      exact accounted.perIP ip
  · rintro ⟨tally, nonzero⟩
    refine ⟨?_, ?_, nonzero⟩
    · rw [tally.total, keys, List.length_map]
    · intro ip
      rw [← counts]
      exact tally.count ip

/-! ## Moves -/

inductive Move (t : SYNSeqTracker Cache) : SYNSeqTracker Cache → Prop
  | remember (replay : Cache) : Move t { t with replay := replay }
  | step (st : SYNSeqState) (now : Int) (held : st ∈ t.states) : Move t (t.put (advance now st))
  | close (st : SYNSeqState) (held : st ∈ t.states) :
      Move t ((t.delete st.key).decInflightLocked (sourceText st.key))
  | start (st : SYNSeqState) (absent : st.key ∉ t.keys) :
      Move t { t.put st with
        counters := t.counters.insert st.ip.text (t.perIP st.ip.text + 1)
        total := t.total + 1 }

theorem keys_delete (key : Bytes) (t : SYNSeqTracker Cache) :
    (t.delete key).keys = t.keys.filter fun other => decide (other ≠ key) := by
  rw [keys, keys, List.filter_map]
  rfl

theorem Distinct.split (distinct : t.Distinct) (held : st ∈ t.states) :
    t.keys.Perm (st.key :: (t.delete st.key).keys) := by
  have member : st.key ∈ t.keys := List.mem_map_of_mem held
  have left : (st.key :: (t.delete st.key).keys).Nodup := by
    rw [keys_delete, List.nodup_cons]
    exact ⟨by simp, distinct.filter _⟩
  refine (List.perm_ext_iff_of_nodup distinct left).mpr fun key => ?_
  rw [keys_delete]
  by_cases own : key = st.key
  · simp [own, member]
  · simp [own]

theorem Distinct.delete (distinct : t.Distinct) (key : Bytes) : (t.delete key).Distinct := by
  unfold Distinct
  rw [keys_delete]
  exact distinct.filter _

theorem Distinct.put (distinct : t.Distinct) (st : SYNSeqState) : (t.put st).Distinct := by
  show (st.key :: (t.delete st.key).keys).Nodup
  rw [List.nodup_cons, keys_delete]
  exact ⟨by simp, distinct.filter _⟩

theorem Distinct.move (distinct : t.Distinct) (move : Move t next) : next.Distinct := by
  cases move with
  | remember replay => exact distinct
  | step st now _ => exact distinct.put (advance now st)
  | close st _ => exact distinct.delete st.key
  | start st _ => exact distinct.put st

theorem decInflight_counters {ip : Bytes} (counted : 0 < t.perIP ip) :
    counterAt (t.decInflightLocked ip).counters =
      Function.update (counterAt t.counters) ip (t.perIP ip - 1) := by
  simp only [decInflightLocked, dropTotal, if_pos counted]
  split
  · rename_i last
    rw [counterAt_erase, last]
  · rw [counterAt_insert]

theorem decInflight_nonzero {ip : Bytes} (nonzero : ∀ other ∈ t.counters, t.perIP other ≠ 0) :
    ∀ other ∈ (t.decInflightLocked ip).counters, (t.decInflightLocked ip).perIP other ≠ 0 := by
  intro other member
  by_cases counted : 0 < t.perIP ip
  · have value := congrFun (decInflight_counters counted) other
    rw [Function.update_apply] at value
    show counterAt _ other ≠ 0
    rw [value]
    simp only [decInflightLocked, dropTotal, if_pos counted] at member
    split at member
    · obtain ⟨apart, old⟩ := AList.mem_erase.mp member
      rw [if_neg apart]
      exact nonzero other old
    · rename_i more
      split
      · exact more
      · rename_i apart
        exact nonzero other ((AList.mem_insert _).mp member |>.resolve_left apart)
  · simp only [decInflightLocked, dropTotal, if_neg counted] at member ⊢
    exact nonzero other member

theorem Accounted.move (distinct : t.Distinct) (accounted : t.Accounted) (move : Move t next) :
    next.Accounted := by
  obtain ⟨tally, nonzero⟩ := accounted_iff.mp accounted
  rw [accounted_iff]
  cases move with
  | remember replay => exact ⟨tally, nonzero⟩
  | step st now held =>
    have split := distinct.split held
    exact ⟨tally.perm split, nonzero⟩
  | close st held =>
    obtain ⟨counted, some_⟩ := tally.pos_of_perm (distinct.split held)
    have left := tally.leave (distinct.split held)
    have counters : counterAt ((t.delete st.key).decInflightLocked (sourceText st.key)).counters =
        _ := decInflight_counters (t := t.delete st.key) counted
    have total : ((t.delete st.key).decInflightLocked (sourceText st.key)).total = t.total - 1 :=
      if_pos some_
    refine ⟨?_, decInflight_nonzero (t := t.delete st.key) nonzero⟩
    rw [counters, total]
    exact left
  | start st absent =>
    have entered := tally.enter st.key
    have own := st.sourceText_key
    have kept : (t.delete st.key).keys = t.keys := by
      rw [keys_delete, List.filter_eq_self]
      intro key member
      have apart : key ≠ st.key := fun same => absent (same ▸ member)
      simpa using apart
    refine ⟨?_, ?_⟩
    · show Tally sourceText (st.key :: (t.delete st.key).keys)
        (counterAt (t.counters.insert st.ip.text (t.perIP st.ip.text + 1))) (t.total + 1)
      rw [kept, counterAt_insert, ← own]
      exact entered
    · intro ip member
      have nonneg : 0 ≤ t.perIP st.ip.text := tally.nonneg st.ip.text
      show counterAt (t.counters.insert st.ip.text (t.perIP st.ip.text + 1)) ip ≠ 0
      rw [counterAt_insert, Function.update_apply]
      split
      · omega
      · rename_i apart
        exact nonzero ip ((AList.mem_insert _).mp member |>.resolve_left apart)

/-! ## Pruning -/

/-- The states that the loop of a call at `now` leaves. -/
def inFlight (now : Int) (t : SYNSeqTracker Cache) : List SYNSeqState :=
  t.states.filter fun st => !t.expired now st

theorem prune_loop_states (now : Int) (visited : List SYNSeqState) :
    ∀ t : SYNSeqTracker Cache, (visited.foldl (pruneState now) t).states =
      t.states.filter fun st => visited.all fun old => !t.expired now old || old.key != st.key := by
  induction visited with
  | nil =>
    intro t
    simp
  | cons head rest ih =>
    intro t
    obtain ⟨opts, _, states⟩ := pruneState_cases now t head
    have same : ∀ st, (t.pruneState now head).expired now st = t.expired now st := by
      intro st
      rw [expired, opts]
      rfl
    rw [List.foldl_cons, ih, states]
    simp only [same, List.all_cons]
    cases t.expired now head with
    | false => simp
    | true =>
      simp only [if_true, delete, List.filter_filter]
      refine List.filter_congr fun st _ => ?_
      by_cases own : st.key = head.key
      · simp [own]
      · simp [own, Ne.symm own]

theorem Distinct.pruneLocked_states (distinct : t.Distinct) (now : Int) :
    (t.pruneLocked now).states = t.inFlight now := by
  rw [pruneLocked, prune_loop_states, inFlight]
  refine List.filter_congr fun st member => ?_
  cases old : t.expired now st with
  | true =>
    simp only [Bool.not_true, List.all_eq_false]
    exact ⟨st, member, by simp [old]⟩
  | false =>
    simp only [Bool.not_false, List.all_eq_true]
    intro other inside
    by_cases same : other.key = st.key
    · have own : other = st := List.inj_on_of_nodup_map distinct inside member same
      simp [own, old]
    · simp [same]

theorem prune_loop_moves (now : Int) (visited : List SYNSeqState)
    (apart : (visited.map SYNSeqState.key).Nodup) :
    ∀ t : SYNSeqTracker Cache, (∀ st ∈ visited, st ∈ t.states) →
      Relation.ReflTransGen Move t (visited.foldl (pruneState now) t) := by
  induction visited with
  | nil => exact fun t _ => .refl
  | cons head rest ih =>
    intro t held
    rw [List.map_cons, List.nodup_cons] at apart
    obtain ⟨_, _, states⟩ := pruneState_cases now t head
    have later : ∀ st ∈ rest, st ∈ (t.pruneState now head).states := by
      intro st member
      have there := held st (List.mem_cons_of_mem head member)
      rw [states]
      split
      · have other : st.key ≠ head.key := fun same =>
          apart.1 (same ▸ List.mem_map_of_mem member)
        simpa [delete] using ⟨there, other⟩
      · exact there
    refine Relation.ReflTransGen.trans ?_ (ih apart.2 _ later)
    unfold pruneState
    split
    · rw [head.cut_key]
      exact .single (.close head (held head List.mem_cons_self))
    · exact .refl

theorem prune_moves (distinct : t.Distinct) (now : Int) :
    Relation.ReflTransGen Move t (t.pruneLocked now) :=
  prune_loop_moves now t.states distinct t fun _ held => held

theorem Accounted.pruneLocked (accounted : t.Accounted) (distinct : t.Distinct) (now : Int) :
    (t.pruneLocked now).Accounted ∧ (t.pruneLocked now).Distinct := by
  refine moves_keep (fun t : SYNSeqTracker Cache => t.Accounted ∧ t.Distinct)
    (prune_moves distinct now) ?_ ⟨accounted, distinct⟩
  exact fun before after move held => ⟨held.1.move held.2 move, held.2.move move⟩

/-! ## First parts -/

section Steps

variable (crypto : Crypto) (checkAndMark : CheckAndMark Cache) (clients : List ClientSecret)
  (protectedPort : Int)

/-- The packet is the first part of a longer sequence, and neither the limits nor
the replay cache refuse it. -/
structure TakesFirst (t : SYNSeqTracker Cache) (call : SYNSeqCall) (client : Bytes) (slot : Int) :
    Prop where
  verified : t.verify crypto clients protectedPort call 0 = some (client, slot)
  roomIP : t.perIP call.src.text < t.opts.maxInflightPerIP
  room : t.total < t.opts.maxTotalInflight
  unseen : (checkSYNReplay checkAndMark client call.fields protectedPort call.mark
    t.replay).1 = .ok ()
  long : t.opts.length ≠ 1

def opened (t : SYNSeqTracker Cache) (replay : Cache) (st : SYNSeqState) : SYNSeqTracker Cache :=
  { ({ t with replay } : SYNSeqTracker Cache).put st with
    counters := t.counters.insert st.ip.text (t.perIP st.ip.text + 1)
    total := t.total + 1 }

theorem addFirst_cases (t : SYNSeqTracker Cache) (call : SYNSeqCall) :
    ((∀ client slot, ¬ t.TakesFirst crypto checkAndMark clients protectedPort call client slot) ∧
        ∃ replay, (t.addFirst crypto checkAndMark clients protectedPort call).2 =
          { t with replay := replay }) ∨
      ∃ client slot replay, t.TakesFirst crypto checkAndMark clients protectedPort call client slot ∧
        (t.addFirst crypto checkAndMark clients protectedPort call).2 =
          t.opened replay (start call client slot) := by
  unfold addFirst
  cases verified : t.verify crypto clients protectedPort call 0 with
  | none =>
    refine Or.inl ⟨fun client slot takes => ?_, t.replay, rfl⟩
    cases verified.symm.trans takes.verified
  | some found =>
    obtain ⟨client, slot⟩ := found
    dsimp only
    split
    · rename_i full
      refine Or.inl ⟨fun _ _ takes => ?_, t.replay, rfl⟩
      have roomIP := takes.roomIP
      have room := takes.room
      omega
    rename_i room
    cases checked : checkSYNReplay checkAndMark client call.fields protectedPort call.mark
        t.replay with
    | mk answer replay =>
      cases answer with
      | error reason =>
        refine Or.inl ⟨fun other another takes => ?_, replay, rfl⟩
        cases verified.symm.trans takes.verified
        have unseen := takes.unseen
        rw [checked] at unseen
        cases unseen
      | ok _ =>
        dsimp only
        split
        · rename_i short
          exact Or.inl ⟨fun _ _ takes => takes.long short, replay, rfl⟩
        · rename_i long
          have unseen : (checkSYNReplay checkAndMark client call.fields protectedPort call.mark
              t.replay).1 = .ok () := by
            rw [checked]
          exact Or.inr ⟨client, slot, replay, ⟨verified, by omega, by omega, unseen, long⟩, rfl⟩

/-- A first part under a key that is in flight: one more is counted than there are. -/
theorem Accounted.not_opened (accounted : t.Accounted) (distinct : t.Distinct) (replay : Cache)
    (present : st.key ∈ t.keys) : ¬ (t.opened replay st).Accounted := by
  intro after
  obtain ⟨held, member, same⟩ := List.mem_map.mp present
  have split := (distinct.split member).length_eq
  have before := accounted.total
  have total : t.total + 1 = (st :: (t.delete st.key).states).length := after.total
  rw [same] at split
  simp only [keys, List.length_map, List.length_cons] at split total
  omega

theorem Accounted.opened (accounted : t.Accounted) (distinct : t.Distinct) (replay : Cache)
    (absent : st.key ∉ t.keys) : (t.opened replay st).Accounted := by
  have remembered := accounted.move distinct (.remember replay)
  exact remembered.move (distinct.move (.remember replay)) (.start st absent)

/-- The packet starts a sequence under a key that is in flight. -/
def Doubles (t : SYNSeqTracker Cache) (call : SYNSeqCall) : Prop :=
  ∃ client slot,
    t.verify crypto clients protectedPort call 0 = some (client, slot) ∧
    (start call client slot).key ∈ (t.inFlight call.now).map SYNSeqState.key ∧
    (∀ st ∈ t.inFlight call.now, t.continues crypto clients protectedPort call st = false) ∧
    ((t.inFlight call.now).countP fun st => decide (st.ip.text = call.src.text)) <
      t.opts.maxInflightPerIP ∧
    (t.inFlight call.now).length < t.opts.maxTotalInflight ∧
    (checkSYNReplay checkAndMark client call.fields protectedPort call.mark t.replay).1 = .ok () ∧
    t.opts.length ≠ 1

variable {crypto checkAndMark clients protectedPort} {call : SYNSeqCall}

theorem Accounted.doubles_iff (accounted : t.Accounted) (distinct : t.Distinct) :
    t.Doubles crypto checkAndMark clients protectedPort call ↔
      (∀ st ∈ (t.pruneLocked call.now).states,
          (t.pruneLocked call.now).continues crypto clients protectedPort call st = false) ∧
        ∃ client slot, (t.pruneLocked call.now).TakesFirst crypto checkAndMark clients protectedPort
          call client slot ∧ (start call client slot).key ∈ (t.pruneLocked call.now).keys := by
  have states := distinct.pruneLocked_states call.now
  have opts := pruneLocked_opts call.now t
  have replay := pruneLocked_replay call.now t
  obtain ⟨exact_, _⟩ := accounted.pruneLocked distinct call.now
  have total := exact_.total
  have perIP := exact_.perIP call.src.text
  rw [states] at total perIP
  generalize t.pruneLocked call.now = pruned at *
  have verify : ∀ index, pruned.verify crypto clients protectedPort call index =
      t.verify crypto clients protectedPort call index := by
    intro index
    rw [SYNSeqTracker.verify, SYNSeqTracker.verify, opts]
  have continues : ∀ st, pruned.continues crypto clients protectedPort call st =
      t.continues crypto clients protectedPort call st := by
    intro st
    rw [SYNSeqTracker.continues, SYNSeqTracker.continues, verify]
  simp only [continues, keys, states]
  constructor
  · rintro ⟨client, slot, verified, present, ends, roomIP, room, unseen, long⟩
    refine ⟨ends, client, slot, ⟨?_, ?_, ?_, ?_, ?_⟩, present⟩
    · rw [verify, verified]
    · rw [perIP, opts]
      exact roomIP
    · rw [total, opts]
      exact room
    · rw [replay, unseen]
    · rw [opts]
      exact long
  · rintro ⟨ends, client, slot, takes, present⟩
    refine ⟨client, slot, ?_, present, ends, ?_, ?_, ?_, ?_⟩
    · rw [← verify, takes.verified]
    · rw [← perIP, ← opts]
      exact takes.roomIP
    · rw [← total, ← opts]
      exact takes.room
    · rw [← replay, takes.unseen]
    · rw [← opts]
      exact takes.long

theorem Accounted.add_iff (accounted : t.Accounted) (distinct : t.Distinct) (call : SYNSeqCall) :
    (t.add crypto checkAndMark clients protectedPort call).2.Accounted ↔
      ¬ t.Doubles crypto checkAndMark clients protectedPort call := by
  rw [accounted.doubles_iff distinct, add]
  obtain ⟨pruned, apart⟩ := accounted.pruneLocked distinct call.now
  generalize t.pruneLocked call.now = p at pruned apart ⊢
  unfold addPruned
  cases found : (call.order.visit p.states).find?
      (p.continues crypto clients protectedPort call) with
  | some st =>
    -- A state goes on, or is complete.
    have held := (call.order.perm _).mem_iff.mp (List.mem_of_find?_eq_some found)
    have own := List.find?_some found
    have ip := ((p.continues_iff call st).mp own).1
    refine iff_of_true ?_ ?_
    · dsimp only
      split
      · have closed := pruned.move apart (.close st held)
        rw [st.sourceText_key, ip] at closed
        exact closed
      · exact pruned.move apart (.step st call.now held)
    · rintro ⟨ends, _⟩
      rw [ends st held] at own
      cases own
  | none =>
    have ends : ∀ st ∈ p.states, p.continues crypto clients protectedPort call st = false := by
      intro st held
      simpa using List.find?_eq_none.mp found st ((call.order.perm _).mem_iff.mpr held)
    dsimp only
    rcases addFirst_cases crypto checkAndMark clients protectedPort p call with
      ⟨refused, replay, same⟩ | ⟨client, slot, replay, takes, same⟩
    · rw [same]
      refine iff_of_true (pruned.move apart (.remember replay)) ?_
      rintro ⟨_, client, slot, takes, _⟩
      exact refused client slot takes
    · rw [same]
      by_cases present : (start call client slot).key ∈ p.keys
      · refine iff_of_false (pruned.not_opened apart replay present) ?_
        rw [not_not]
        exact ⟨ends, client, slot, takes, present⟩
      · refine iff_of_true (pruned.opened apart replay present) ?_
        rintro ⟨_, other, another, again, inside⟩
        cases takes.verified.symm.trans again.verified
        exact present inside

theorem Distinct.addFirst (distinct : t.Distinct) (call : SYNSeqCall) :
    (t.addFirst crypto checkAndMark clients protectedPort call).2.Distinct := by
  rcases addFirst_cases crypto checkAndMark clients protectedPort t call with
    ⟨_, replay, same⟩ | ⟨client, slot, replay, _, same⟩
  · rw [same]
    exact distinct.move (.remember replay)
  · rw [same]
    exact (distinct.move (.remember replay)).put (start call client slot)

theorem Distinct.add (distinct : t.Distinct) (call : SYNSeqCall) :
    (t.add crypto checkAndMark clients protectedPort call).2.Distinct := by
  have pruned := moves_keep Distinct (prune_moves distinct call.now)
    (fun before after move held => held.move move) distinct
  rw [SYNSeqTracker.add]
  unfold addPruned
  split
  · exact pruned.addFirst call
  · rename_i st _
    split
    · exact pruned.delete st.key
    · exact pruned.put (advance call.now st)

end Steps

end SYNSeqTracker

/-! ## Runs -/

section Runs

variable {Cache : Type} (crypto : Crypto) (checkAndMark : CheckAndMark Cache)
  (clients : List ClientSecret) (protectedPort : Int)

def AddsSYN (t : SYNSeqTracker Cache) (call : SYNSeqCall) (next : SYNSeqTracker Cache) : Prop :=
  (t.add crypto checkAndMark clients protectedPort call).2 = next

theorem runSYN_distinct {start : SYNSeqTracker Cache} (distinct : start.Distinct) :
    ∀ past t, Run (AddsSYN crypto checkAndMark clients protectedPort) start past t →
      t.Distinct := by
  apply Run.invariant
  · exact distinct
  · intro past before call after _ held step
    subst step
    exact held.add call

open SYNSeqTracker in
/-- The counters are exact throughout in exactly the runs in which no packet starts
a sequence under a key that is in flight. -/
theorem syn_sequence_accounted_iff (opts : SequenceOptions) (replay : Cache)
    (past : List SYNSeqCall) (t : SYNSeqTracker Cache) :
    Run (Reaching Accounted (AddsSYN crypto checkAndMark clients protectedPort))
        (newSYNSequenceTracker opts replay) past t ↔
      Run (Along (fun t call => ¬ t.Doubles crypto checkAndMark clients protectedPort call)
        (AddsSYN crypto checkAndMark clients protectedPort))
        (newSYNSequenceTracker opts replay) past t := by
  have initial : (newSYNSequenceTracker opts replay).Accounted :=
    accounted_iff.mpr ⟨Tally.empty sourceText, fun _ member => absurd member (AList.notMem_empty _)⟩
  have distinct : (newSYNSequenceTracker opts replay).Distinct := List.nodup_nil
  apply Run.reaching_iff initial
  intro past before call after run accounted step
  subst step
  exact accounted.add_iff
    (runSYN_distinct crypto checkAndMark clients protectedPort distinct past before run) call

end Runs

/-- A digest that shows the length of what it is of, and so the label. -/
def labelCrypto : Crypto :=
  { keyTagCrypto with
    hmacSHA256 := fun secret data =>
      FixedBytes.copy 32 (0 :: 0 :: UInt8.ofNat data.length :: (data.reverse ++ secret)) }

def legacyClient : ClientSecret := ⟨ascii "client", ascii "0123456789abcdef0123456789abcdef"⟩

/-- Two parts make a sequence, and the legacy parts are accepted. -/
def legacyOptions : SequenceOptions := ⟨2, 30, 5 * second, 80 * millisecond, 0, 8, 4096, true⟩

theorem legacySource_clean : 0 ∉ ascii "192.0.2.10" := by decide

def legacySource : IPText := ⟨ascii "192.0.2.10", legacySource_clean⟩

def firstPartCall (legacy : Bool) (now : Int) : SYNSeqCall :=
  let part := computeSYNSeqPart labelCrypto legacyClient.secret legacyClient.clientID 443 10 legacy 0
  ⟨legacySource, part.port, part.fields, now, now, ⟨id, List.Perm.refl⟩⟩

/-- A packet that is no part of anything, when all is too old. -/
def strayCall : SYNSeqCall :=
  ⟨legacySource, 80, ⟨0, 1, 0⟩, 320000000000, 320000000000, ⟨id, List.Perm.refl⟩⟩

/-- The replay cache is the one that a tracker makes for itself, three slots long. -/
def legacyTracker : SYNSeqTracker SYNReplayCache :=
  .newSYNSequenceTracker legacyOptions (.newSYNReplayCache (90 * second))

def afterFirstParts : SYNSeqTracker SYNReplayCache :=
  let add := fun t call => (SYNSeqTracker.add labelCrypto SYNReplayCache.checkAndMark
    [legacyClient] 443 t call).2
  add (add legacyTracker (firstPartCall false 300000000000)) (firstPartCall true 301000000000)

def afterStray : SYNSeqTracker SYNReplayCache :=
  (afterFirstParts.add labelCrypto SYNReplayCache.checkAndMark [legacyClient] 443 strayCall).2

/-- The first part of a slot in its new and then in its legacy form: one state, counted
twice, and when it is too old one slot stays occupied. -/
theorem slot_stays_occupied :
    Run (AddsSYN labelCrypto SYNReplayCache.checkAndMark [legacyClient] 443) legacyTracker
        [firstPartCall false 300000000000, firstPartCall true 301000000000] afterFirstParts ∧
      afterFirstParts.states.length = 1 ∧ afterFirstParts.total = 2 ∧
      afterFirstParts.perIP legacySource.text = 2 ∧ ¬ afterFirstParts.Accounted ∧
      AddsSYN labelCrypto SYNReplayCache.checkAndMark [legacyClient] 443 afterFirstParts strayCall
        afterStray ∧
      afterStray.states = [] ∧ afterStray.total = 1 ∧ afterStray.perIP legacySource.text = 1 := by
  have first : Run (AddsSYN labelCrypto SYNReplayCache.checkAndMark [legacyClient] 443)
      legacyTracker ([] ++ [firstPartCall false 300000000000]) _ := Run.nil.snoc rfl
  have kept : afterFirstParts.states.length = 1 := by decide +kernel
  have counted : afterFirstParts.total = 2 := by decide +kernel
  refine ⟨first.snoc rfl, kept, counted, by decide +kernel, ?_, rfl, by decide +kernel,
    by decide +kernel, by decide +kernel⟩
  intro accounted
  have total := accounted.total
  rw [kept, counted] at total
  cases total

end Libknock.Knock
