import Libknock.Foundation.Tally
import Libknock.Foundation.Transcripts
import Libknock.Knock.SYN

/-!
# The tracker of SYN sequences

`knock/synseq_tracker.go`.  A state is kept under the text of its source
address, its client and its slot, separated by NUL bytes; the states of one
source are those whose key begins with that address.  The map is visited in any
order.
-/

set_option autoImplicit false

namespace Libknock.Knock

open Foundation Protocol Auth

/-- The text of a source address. -/
structure IPText where
  text : Bytes
  clean : 0 ∉ text
  deriving DecidableEq

/-- An entry of the map: the address under which it is kept and the state. -/
structure SYNSeqState where
  ip : IPText
  firstSeen : Int
  lastSeen : Int
  matched : Nat
  clientID : Bytes
  slot : Int
  started : 0 < matched
  deriving DecidableEq

def SYNSeqState.key (st : SYNSeqState) : Bytes :=
  st.ip.text ++ 0 :: (st.clientID ++ 0 :: ascii (toString st.slot))

structure SYNSeqTracker (Cache : Type) where
  opts : SequenceOptions
  replay : Cache
  states : List SYNSeqState
  /-- The map `perIP`. -/
  counters : AList fun _ : Bytes => Int
  total : Int

/-- An order in which the states are visited. -/
structure VisitOrder where
  visit : List SYNSeqState → List SYNSeqState
  perm : ∀ states, (visit states).Perm states

structure SYNSeqCall where
  src : IPText
  dstPort : Int
  fields : SYNFields
  now : Int
  /-- The clock reading of the replay cache. -/
  mark : Int
  order : VisitOrder

def SYNSeqCall.part (call : SYNSeqCall) : SYNSeqPart := ⟨call.dstPort, call.fields⟩

/-- The text before the first NUL. -/
def cut (key : Bytes) : Option Bytes :=
  if 0 ∈ key then some (key.takeWhile fun byte => byte ≠ 0) else none

namespace SYNSeqTracker

variable {Cache : Type}

def newSYNSequenceTracker (opts : SequenceOptions) (replay : Cache) : SYNSeqTracker Cache :=
  ⟨normalizedSequenceOptions opts, replay, [], ∅, 0⟩

/-- `t.perIP[ip]`: zero where the map has no entry. -/
def perIP (t : SYNSeqTracker Cache) (ip : Bytes) : Int := counterAt t.counters ip

def dropTotal (t : SYNSeqTracker Cache) : SYNSeqTracker Cache :=
  { t with total := if 0 < t.total then t.total - 1 else t.total }

def decInflightLocked (ip : Bytes) (t : SYNSeqTracker Cache) : SYNSeqTracker Cache :=
  dropTotal
    { t with
      counters := if 0 < t.perIP ip then
          if t.perIP ip - 1 = 0 then t.counters.erase ip
          else t.counters.insert ip (t.perIP ip - 1)
        else t.counters }

def delete (key : Bytes) (t : SYNSeqTracker Cache) : SYNSeqTracker Cache :=
  { t with states := t.states.filter fun st => st.key ≠ key }

def expired (now : Int) (t : SYNSeqTracker Cache) (st : SYNSeqState) : Bool :=
  t.opts.window < since now st.firstSeen

def pruneState (now : Int) (t : SYNSeqTracker Cache) (st : SYNSeqState) : SYNSeqTracker Cache :=
  if t.expired now st then
    match cut st.key with
    | some ip => (t.delete st.key).decInflightLocked ip
    | none => (t.delete st.key).dropTotal
  else t

def pruneLocked (now : Int) (t : SYNSeqTracker Cache) : SYNSeqTracker Cache :=
  t.states.foldl (pruneState now) t

section Add

variable (crypto : Crypto) (checkAndMark : CheckAndMark Cache) (clients : List ClientSecret)
  (protectedPort : Int)

def verify (t : SYNSeqTracker Cache) (call : SYNSeqCall) (index : Nat) : Option (Bytes × Int) :=
  verifySYNSeqPart crypto call.fields call.dstPort clients protectedPort call.now
    t.opts.slotSeconds t.opts.length index t.opts.allowLegacySYNSeq

def continues (t : SYNSeqTracker Cache) (call : SYNSeqCall) (st : SYNSeqState) : Bool :=
  st.key.take (call.src.text ++ [0]).length = call.src.text ++ [0] ∧
    t.verify crypto clients protectedPort call st.matched = some (st.clientID, st.slot)

def advance (now : Int) (st : SYNSeqState) : SYNSeqState :=
  { st with matched := st.matched + 1, lastSeen := now, started := st.matched.succ_pos }

/-- `t.states[key]` is replaced, whether it was there or not. -/
def put (st : SYNSeqState) (t : SYNSeqTracker Cache) : SYNSeqTracker Cache :=
  { t with states := st :: (t.delete st.key).states }

def start (call : SYNSeqCall) (client : Bytes) (slot : Int) : SYNSeqState :=
  ⟨call.src, call.now, call.now, 1, client, slot, Nat.one_pos⟩

/-- The part of `add` after the loop: a first part. -/
def addFirst (t : SYNSeqTracker Cache) (call : SYNSeqCall) : (Bool × Bytes) × SYNSeqTracker Cache :=
  match t.verify crypto clients protectedPort call 0 with
  | none => ((false, []), t)
  | some (client, slot) =>
    if t.opts.maxInflightPerIP ≤ t.perIP call.src.text ∨ t.opts.maxTotalInflight ≤ t.total then
      ((false, []), t)
    else
      match checkSYNReplay checkAndMark client call.fields protectedPort call.mark t.replay with
      | (.error _, replay) => ((false, []), { t with replay })
      | (.ok (), replay) =>
        if t.opts.length = 1 then ((true, client), { t with replay })
        else
          ((false, []),
            { ({ t with replay } : SYNSeqTracker Cache).put (start call client slot) with
              counters := t.counters.insert call.src.text (t.perIP call.src.text + 1)
              total := t.total + 1 })

def addPruned (t : SYNSeqTracker Cache) (call : SYNSeqCall) :
    (Bool × Bytes) × SYNSeqTracker Cache :=
  match (call.order.visit t.states).find? (t.continues crypto clients protectedPort call) with
  | none => t.addFirst crypto checkAndMark clients protectedPort call
  | some st =>
    if t.opts.length ≤ (st.matched + 1 : Nat) then
      ((true, st.clientID), (t.delete st.key).decInflightLocked call.src.text)
    else ((false, []), t.put (advance call.now st))

def add (t : SYNSeqTracker Cache) (call : SYNSeqCall) : (Bool × Bytes) × SYNSeqTracker Cache :=
  (t.pruneLocked call.now).addPruned crypto checkAndMark clients protectedPort call

end Add

end SYNSeqTracker

/-! ## Keys -/

def sourceText (key : Bytes) : Bytes := key.takeWhile fun byte => byte ≠ 0

theorem sourceText_append (src : IPText) (rest : Bytes) :
    sourceText (src.text ++ 0 :: rest) = src.text := by
  rw [sourceText, List.takeWhile_append_of_pos]
  · simp
  · intro byte member
    have nonzero : byte ≠ 0 := fun zero => src.clean (zero ▸ member)
    simpa using nonzero

theorem SYNSeqState.take_key_iff (st : SYNSeqState) (src : IPText) :
    st.key.take (src.text ++ [0]).length = src.text ++ [0] ↔ st.ip = src := by
  constructor
  · intro begins
    have split := List.take_append_drop (src.text ++ [0]).length st.key
    rw [begins, SYNSeqState.key, List.append_assoc, List.singleton_append] at split
    obtain ⟨same, _⟩ := append_separator_inj src.clean st.ip.clean split
    cases src
    cases ip : st.ip
    simp_all
  · rintro rfl
    have split : st.key =
        (st.ip.text ++ [0]) ++ (st.clientID ++ 0 :: ascii (toString st.slot)) := by
      simp [SYNSeqState.key]
    rw [split, List.take_left]

theorem SYNSeqState.ip_eq_of_key {st other : SYNSeqState} (same : st.key = other.key) :
    st.ip = other.ip := by
  apply (st.take_key_iff other.ip).mp
  rw [same]
  exact (other.take_key_iff other.ip).mpr rfl

/-! ## The state of a sequence -/

variable {call : SYNSeqCall} {slot : Int} {client : ClientSecret} {src : IPText}

namespace SYNSeqTracker

variable {Cache : Type}

/-- The tracker holds the state, and no other under its key. -/
def Holds (t : SYNSeqTracker Cache) (st : SYNSeqState) : Prop :=
  st ∈ t.states ∧ ∀ other ∈ t.states, other.key = st.key → other = st

variable {t : SYNSeqTracker Cache} {st : SYNSeqState}

theorem Holds.delete (held : t.Holds st) {key : Bytes}
    (apart : st.key ≠ key) : (t.delete key).Holds st := by
  unfold Holds SYNSeqTracker.delete
  simp only [List.mem_filter, decide_eq_true_eq]
  exact ⟨⟨held.1, apart⟩, fun other inside => held.2 other inside.1⟩

theorem Holds.put (held : t.Holds st)
    {other : SYNSeqState} (apart : st.key ≠ other.key) : (t.put other).Holds st := by
  have kept := held.delete apart
  refine ⟨List.mem_cons_of_mem _ kept.1, ?_⟩
  intro another inside same
  rcases List.mem_cons.mp inside with rfl | inside
  · exact absurd same.symm apart
  · exact kept.2 another inside same

theorem holds_put (t : SYNSeqTracker Cache) (st : SYNSeqState) : (t.put st).Holds st := by
  refine ⟨List.mem_cons_self, ?_⟩
  intro other inside same
  rcases List.mem_cons.mp inside with rfl | inside
  · rfl
  · simp [SYNSeqTracker.delete, same] at inside

theorem Holds.of_states {next : SYNSeqTracker Cache} (held : t.Holds st)
    (same : next.states = t.states) : next.Holds st := by
  unfold Holds
  rw [same]
  exact held

theorem pruneState_cases (now : Int) (t : SYNSeqTracker Cache) (st : SYNSeqState) :
    (t.pruneState now st).opts = t.opts ∧ (t.pruneState now st).replay = t.replay ∧
      (t.pruneState now st).states =
        if t.expired now st then (t.delete st.key).states else t.states := by
  unfold pruneState
  split
  · cases cut st.key with
    | none | some => exact ⟨rfl, rfl, rfl⟩
  · exact ⟨rfl, rfl, rfl⟩

theorem prune_loop_settings (now : Int) (visited : List SYNSeqState) :
    ∀ t : SYNSeqTracker Cache, (visited.foldl (pruneState now) t).opts = t.opts ∧
      (visited.foldl (pruneState now) t).replay = t.replay := by
  induction visited with
  | nil => exact fun t => ⟨rfl, rfl⟩
  | cons head rest ih =>
    intro t
    obtain ⟨opts, replay, _⟩ := pruneState_cases now t head
    obtain ⟨restOpts, restReplay⟩ := ih (t.pruneState now head)
    exact ⟨restOpts.trans opts, restReplay.trans replay⟩

@[simp] theorem pruneLocked_opts (now : Int) (t : SYNSeqTracker Cache) :
    (t.pruneLocked now).opts = t.opts :=
  (prune_loop_settings now t.states t).1

@[simp] theorem pruneLocked_replay (now : Int) (t : SYNSeqTracker Cache) :
    (t.pruneLocked now).replay = t.replay :=
  (prune_loop_settings now t.states t).2

theorem Holds.prune_loop {now : Int} (visited : List SYNSeqState) :
    ∀ t : SYNSeqTracker Cache, t.Holds st → t.expired now st = false →
      (∀ other ∈ visited, other.key = st.key → other = st) →
      (visited.foldl (pruneState now) t).Holds st := by
  induction visited with
  | nil => exact fun t held _ _ => held
  | cons head rest ih =>
    intro t held fresh only
    obtain ⟨opts, _, states⟩ := pruneState_cases now t head
    have kept : (t.pruneState now head).Holds st := by
      split at states
      · rename_i old
        refine (held.delete ?_).of_states states
        intro same
        rw [only head List.mem_cons_self same.symm, fresh] at old
        cases old
      · exact held.of_states states
    have still : (t.pruneState now head).expired now st = false := by
      rw [expired, opts]
      exact fresh
    exact ih _ kept still fun other inside => only other (List.mem_cons_of_mem head inside)

theorem Holds.pruneLocked {now : Int}
    (held : t.Holds st) (fresh : t.expired now st = false) : (t.pruneLocked now).Holds st :=
  held.prune_loop t.states t fresh held.2

section Steps

variable {crypto : Crypto} {checkAndMark : CheckAndMark Cache} {clients : List ClientSecret}
  {protectedPort : Int}

theorem continues_iff (t : SYNSeqTracker Cache) (call : SYNSeqCall) (st : SYNSeqState) :
    t.continues crypto clients protectedPort call st = true ↔
      st.ip = call.src ∧
        t.verify crypto clients protectedPort call st.matched = some (st.clientID, st.slot) := by
  rw [continues, decide_eq_true_eq, st.take_key_iff]

variable {t : SYNSeqTracker Cache}

theorem addFirst_keeps (held : t.Holds st) (other : st.ip ≠ call.src) :
    (t.addFirst crypto checkAndMark clients protectedPort call).2.Holds st ∧
      (t.addFirst crypto checkAndMark clients protectedPort call).2.opts = t.opts := by
  unfold addFirst
  cases t.verify crypto clients protectedPort call 0 with
  | none => exact ⟨held, rfl⟩
  | some found =>
    obtain ⟨client, slot⟩ := found
    simp only
    split
    · exact ⟨held, rfl⟩
    cases checkSYNReplay checkAndMark client call.fields protectedPort call.mark t.replay with
    | mk answer replay =>
      cases answer with
      | error err => exact ⟨held.of_states rfl, rfl⟩
      | ok _ =>
        simp only
        split
        · exact ⟨held.of_states rfl, rfl⟩
        · have apart : st.key ≠ (start call client slot).key := by
            intro same
            exact other (SYNSeqState.ip_eq_of_key same)
          exact ⟨(held.put apart).of_states rfl, rfl⟩

variable (crypto checkAndMark clients protectedPort) in
theorem add_keeps (held : t.Holds st) (fresh : t.expired call.now st = false)
    (other : st.ip ≠ call.src) :
    (t.add crypto checkAndMark clients protectedPort call).2.Holds st ∧
      (t.add crypto checkAndMark clients protectedPort call).2.opts = t.opts := by
  have kept := held.pruneLocked fresh
  rw [← pruneLocked_opts call.now t, add]
  generalize t.pruneLocked call.now = pruned at kept ⊢
  unfold addPruned
  cases found : (call.order.visit pruned.states).find?
      (pruned.continues crypto clients protectedPort call) with
  | none => exact addFirst_keeps kept other
  | some hit =>
    have own := ((pruned.continues_iff call hit).mp (List.find?_some found)).1
    have apart : st.key ≠ hit.key := by
      intro same
      exact other ((SYNSeqState.ip_eq_of_key same).trans own)
    simp only
    split
    · exact ⟨(kept.delete apart).of_states rfl, rfl⟩
    · exact ⟨kept.put apart, rfl⟩

/-- A packet that is a part of one sequence only, at one index: what the tracker
verifies of it. -/
def VerifiesOnly (crypto : Crypto) (clients : List ClientSecret) (protectedPort : Int)
    (opts : SequenceOptions) (call : SYNSeqCall) (index : Nat) (client : Bytes) (slot : Int) :
    Prop :=
  ∀ other found, verifySYNSeqPart crypto call.fields call.dstPort clients protectedPort call.now
    opts.slotSeconds opts.length other opts.allowLegacySYNSeq = some found ↔
      other = index ∧ found = (client, slot)

variable (checkAndMark) in
theorem add_continues (held : t.Holds st) (fresh : t.expired call.now st = false)
    (own : st.ip = call.src)
    (verified : VerifiesOnly crypto clients protectedPort t.opts call st.matched st.clientID
      st.slot) :
    (t.add crypto checkAndMark clients protectedPort call).1 =
        (if t.opts.length ≤ (st.matched + 1 : Nat) then (true, st.clientID) else (false, [])) ∧
      (t.add crypto checkAndMark clients protectedPort call).2.opts = t.opts ∧
      (¬ t.opts.length ≤ (st.matched + 1 : Nat) →
        (t.add crypto checkAndMark clients protectedPort call).2.Holds (advance call.now st)) := by
  have kept := held.pruneLocked fresh
  rw [← pruneLocked_opts call.now t] at verified ⊢
  rw [add]
  generalize t.pruneLocked call.now = pruned at kept verified ⊢
  have hits : pruned.continues crypto clients protectedPort call st = true :=
    (pruned.continues_iff call st).mpr ⟨own, (verified _ _).mpr ⟨rfl, rfl⟩⟩
  unfold addPruned
  cases found : (call.order.visit pruned.states).find?
      (pruned.continues crypto clients protectedPort call) with
  | none =>
    have missed := List.find?_eq_none.mp found st ((call.order.perm _).mem_iff.mpr kept.1)
    exact absurd hits missed
  | some hit =>
    -- The state found has the source, the client and the slot of the sequence.
    obtain ⟨ip, taken⟩ := (pruned.continues_iff call hit).mp (List.find?_some found)
    obtain ⟨client, slot⟩ := Prod.mk.inj ((verified _ _).mp taken).2
    have same : hit = st := by
      apply kept.2 hit ((call.order.perm _).mem_iff.mp (List.mem_of_find?_eq_some found))
      rw [SYNSeqState.key, SYNSeqState.key, ip, own, client, slot]
    subst same
    simp only
    split
    · rename_i complete
      exact ⟨rfl, rfl, fun incomplete => absurd complete incomplete⟩
    · exact ⟨rfl, rfl, fun _ => holds_put _ _⟩

theorem add_starts {client : Bytes}
    (verified : VerifiesOnly crypto clients protectedPort t.opts call 0 client slot)
    (long : t.opts.length ≠ 1)
    (room : (t.pruneLocked call.now).perIP call.src.text < t.opts.maxInflightPerIP ∧
      (t.pruneLocked call.now).total < t.opts.maxTotalInflight)
    (unseen : (checkSYNReplay checkAndMark client call.fields protectedPort call.mark
      t.replay).1 = .ok ()) :
    (t.add crypto checkAndMark clients protectedPort call).1 = (false, []) ∧
      (t.add crypto checkAndMark clients protectedPort call).2.opts = t.opts ∧
      (t.add crypto checkAndMark clients protectedPort call).2.Holds (start call client slot) := by
  rw [← pruneLocked_opts call.now t] at verified long room ⊢
  rw [← pruneLocked_replay call.now t] at unseen
  rw [add]
  generalize t.pruneLocked call.now = pruned at verified long room unseen ⊢
  have none_ : (call.order.visit pruned.states).find?
      (pruned.continues crypto clients protectedPort call) = none := by
    apply List.find?_eq_none.mpr
    intro st _ hits
    have first := ((verified _ _).mp ((pruned.continues_iff call st).mp hits).2).1
    have started := st.started
    omega
  have first : pruned.verify crypto clients protectedPort call 0 = some (client, slot) :=
    (verified 0 (client, slot)).mpr ⟨rfl, rfl⟩
  cases checked : checkSYNReplay checkAndMark client call.fields protectedPort call.mark
      pruned.replay with
  | mk answer replay =>
    rw [checked] at unseen
    simp only at unseen
    subst unseen
    have limits : ¬ (pruned.opts.maxInflightPerIP ≤ pruned.perIP call.src.text ∨
        pruned.opts.maxTotalInflight ≤ pruned.total) := by
      omega
    rw [addPruned, none_]
    simp only
    rw [addFirst, first]
    simp only
    rw [if_neg limits, checked]
    simp only
    rw [if_neg long]
    exact ⟨rfl, rfl, (holds_put pruned (start call client slot)).of_states rfl⟩

end Steps

end SYNSeqTracker

/-! ## Honest sequences -/

section Sender

variable (crypto : Crypto) (clients : List ClientSecret) (protectedPort : Int)

/-- The parts of a sender are no other parts of the sequences that are tried
within a slot of it. -/
def PartsApart (client : ClientSecret) (slot total : Int) : Prop :=
  ∀ other ∈ clients, ∀ another ∈ [slot - 2, slot - 1, slot, slot + 1, slot + 2],
    ∀ index < synSeqTotal total, ∀ place < synSeqTotal total,
    (computeSYNSeqPart crypto client.secret client.clientID protectedPort slot false index).fields =
      (computeSYNSeqPart crypto other.secret other.clientID protectedPort another false
        place).fields →
    other.clientID = client.clientID ∧ another = slot ∧ place = index

def NearSlot (slotSeconds slot now : Int) : Prop :=
  slot - 1 ≤ seqSlotFor now slotSeconds ∧ seqSlotFor now slotSeconds ≤ slot + 1

variable {crypto clients protectedPort}

theorem verifiesOnly_part {opts : SequenceOptions} {index : Nat} (member : client ∈ clients)
    (apart : PartsApart crypto clients protectedPort client slot opts.length)
    (modern : opts.allowLegacySYNSeq = false) (inside : index < synSeqTotal opts.length)
    (part : call.part =
      computeSYNSeqPart crypto client.secret client.clientID protectedPort slot false index)
    (near : NearSlot opts.slotSeconds slot call.now) :
    SYNSeqTracker.VerifiesOnly crypto clients protectedPort opts call index client.clientID slot := by
  unfold SYNSeqTracker.VerifiesOnly
  rw [modern]
  have only : ∀ other found, verifySYNSeqPart crypto call.fields call.dstPort clients protectedPort
      call.now opts.slotSeconds opts.length other false = some found →
      other = index ∧ found = (client.clientID, slot) := by
    rintro place ⟨found, another⟩ verified
    obtain ⟨other, otherMember, rfl, ⟨legacy, absent, same⟩, placed, low, high⟩ :=
      verifySYNSeqPart_some verified
    cases legacy with
    | true => cases absent rfl
    | false =>
      have tried : another ∈ [slot - 2, slot - 1, slot, slot + 1, slot + 2] := by
        unfold NearSlot at near
        simp only [List.mem_cons, List.not_mem_nil, or_false]
        omega
      obtain ⟨named, slots, places⟩ := apart other otherMember another tried index inside place
        placed (congrArg SYNSeqPart.fields (part.symm.trans same.symm))
      exact ⟨places, Prod.ext named slots⟩
  intro other found
  constructor
  · exact only other found
  rintro ⟨rfl, rfl⟩
  have accepted : (verifySYNSeqPart crypto call.fields call.dstPort clients protectedPort call.now
      opts.slotSeconds opts.length other false).isSome = true := by
    refine @tryClients_isSome clients _ slot _ client member ?_ (by have := near.2; omega)
      (by have := near.1; omega)
    rw [Bool.or_eq_true, synSeqPartMatches_iff]
    exact Or.inl ⟨inside, part.symm⟩
  obtain ⟨answer, verified⟩ := Option.isSome_iff_exists.mp accepted
  rw [verified, (only other answer verified).2]

def answersTo (src : IPText) (calls : List SYNSeqCall) (answers : List (Bool × Bytes)) :
    List (Bool × Bytes) :=
  ((calls.zip answers).filter fun pair => pair.1.src = src).map Prod.snd

theorem answersTo_cons_own (call : SYNSeqCall) (calls : List SYNSeqCall) (answer : Bool × Bytes)
    (answers : List (Bool × Bytes)) :
    answersTo call.src (call :: calls) (answer :: answers) =
      answer :: answersTo call.src calls answers := by
  simp [answersTo]

theorem answersTo_cons_other (other : call.src ≠ src) (calls : List SYNSeqCall)
    (answer : Bool × Bytes) (answers : List (Bool × Bytes)) :
    answersTo src (call :: calls) (answer :: answers) = answersTo src calls answers := by
  simp [answersTo, other]

theorem answersTo_silent {calls : List SYNSeqCall}
    (silent : calls.filter (fun call => call.src = src) = []) (answers : List (Bool × Bytes)) :
    answersTo src calls answers = [] := by
  rw [List.filter_eq_nil_iff] at silent
  unfold answersTo
  rw [List.map_eq_nil_iff, List.filter_eq_nil_iff]
  intro pair inside
  exact silent pair.1 (List.of_mem_zip inside).1

variable (crypto clients protectedPort)

/-- The parts of a sender from the given index on arrive from `src`, in order,
among the packets of other sources, the last of them within the window of
`firstSeen`. -/
structure Arrives (opts : SequenceOptions) (client : ClientSecret) (slot : Int) (src : IPText)
    (firstSeen : Int) (index : Nat) (calls : List SYNSeqCall) : Prop where
  parts : (calls.filter fun call => call.src = src).map SYNSeqCall.part =
    (computeSYNSeqParts crypto client.secret client.clientID protectedPort slot opts.length
      false).drop index
  ordered : (calls.map SYNSeqCall.now).Pairwise (· ≤ ·)
  within : ∀ call ∈ calls, call.src = src → call.now - firstSeen ≤ opts.window.toInt
  near : ∀ call ∈ calls, call.src = src → NearSlot opts.slotSeconds slot call.now

def partAnswer (length : Int) (client : Bytes) (index : Nat) : Bool × Bytes :=
  if length ≤ (index + 1 : Nat) then (true, client) else (false, [])

variable {crypto clients protectedPort}

section Arrival

variable {opts : SequenceOptions} {client : ClientSecret} {slot firstSeen : Int} {src : IPText}
  {index : Nat} {call : SYNSeqCall} {calls : List SYNSeqCall}

theorem Arrives.tail_other (arrives : Arrives crypto protectedPort opts client slot src firstSeen
    index (call :: calls)) (other : call.src ≠ src) :
    Arrives crypto protectedPort opts client slot src firstSeen index calls where
  parts := by
    have parts := arrives.parts
    rwa [List.filter_cons_of_neg (by simpa using other)] at parts
  ordered := (List.pairwise_cons.mp arrives.ordered).2
  within := fun later inside => arrives.within later (List.mem_cons_of_mem call inside)
  near := fun later inside => arrives.near later (List.mem_cons_of_mem call inside)

theorem Arrives.tail_own (arrives : Arrives crypto protectedPort opts client slot src firstSeen
    index (call :: calls)) (own : call.src = src) :
    index < synSeqTotal opts.length ∧
      call.part =
        computeSYNSeqPart crypto client.secret client.clientID protectedPort slot false index ∧
      Arrives crypto protectedPort opts client slot src firstSeen (index + 1) calls := by
  have parts := arrives.parts
  rw [List.filter_cons_of_pos (by simpa using own), List.map_cons] at parts
  have inside : index < (computeSYNSeqParts crypto client.secret client.clientID protectedPort slot
      opts.length false).length := by
    by_contra beyond
    rw [List.drop_eq_nil_of_le (by omega)] at parts
    cases parts
  rw [List.drop_eq_getElem_cons inside] at parts
  obtain ⟨part, rest⟩ := List.cons.inj parts
  refine ⟨by simpa [computeSYNSeqParts] using inside, ?_, rest, ?_, ?_, ?_⟩
  · rw [part]
    simp [computeSYNSeqParts]
  · exact (List.pairwise_cons.mp arrives.ordered).2
  · exact fun later inside => arrives.within later (List.mem_cons_of_mem call inside)
  · exact fun later inside => arrives.near later (List.mem_cons_of_mem call inside)

theorem Arrives.silent (arrives : Arrives crypto protectedPort opts client slot src firstSeen index
    calls) (done : synSeqTotal opts.length ≤ index) :
    calls.filter (fun call => call.src = src) = [] := by
  have parts := arrives.parts
  rw [List.drop_eq_nil_of_le (by simpa [computeSYNSeqParts] using done)] at parts
  exact List.map_eq_nil_iff.mp parts

theorem Arrives.fresh (arrives : Arrives crypto protectedPort opts client slot src firstSeen index
    (call :: calls)) (awaited : index < synSeqTotal opts.length) :
    ¬ opts.window < since call.now firstSeen := by
  have parts := arrives.parts
  have some_ : (call :: calls).filter (fun call => call.src = src) ≠ [] := by
    intro none_
    rw [none_, List.map_nil, eq_comm, List.drop_eq_nil_iff] at parts
    simp [computeSYNSeqParts] at parts
    omega
  obtain ⟨part, member⟩ := List.exists_mem_of_ne_nil _ some_
  obtain ⟨inside, own⟩ := List.mem_filter.mp member
  have due := arrives.within part inside (of_decide_eq_true own)
  have before : call.now ≤ part.now := by
    rcases List.mem_cons.mp inside with rfl | later
    · exact Int.le_refl _
    · exact (List.pairwise_cons.mp arrives.ordered).1 _ (List.mem_map_of_mem later)
  have low := Int64.le_toInt opts.window
  rw [Int64.lt_iff_toInt_lt, since, saturate_toInt]
  omega

end Arrival

theorem synSeqTotal_le (length : Int) (long : 2 ≤ length) : (synSeqTotal length : Int) ≤ length := by
  unfold synSeqTotal
  split
  · omega
  · omega

theorem answers_after_first {Cache : Type} {checkAndMark : CheckAndMark Cache}
    {opts : SequenceOptions} {firstSeen : Int} (member : client ∈ clients)
    (apart : PartsApart crypto clients protectedPort client slot opts.length)
    (modern : opts.allowLegacySYNSeq = false) (long : 2 ≤ opts.length) (calls : List SYNSeqCall) :
    ∀ (t : SYNSeqTracker Cache) (st : SYNSeqState), t.opts = opts → t.Holds st → st.ip = src →
      st.clientID = client.clientID → st.slot = slot → st.firstSeen = firstSeen →
      Arrives crypto protectedPort opts client slot src firstSeen st.matched calls →
      answersTo src calls
          (transcript (SYNSeqTracker.add crypto checkAndMark clients protectedPort) t calls) =
        ((List.range (synSeqTotal opts.length)).drop st.matched).map
          (partAnswer opts.length client.clientID) := by
  induction calls with
  | nil =>
    intro t st settings held ip named slots seen arrives
    have parts := arrives.parts
    rw [List.filter_nil, List.map_nil, eq_comm, List.drop_eq_nil_iff] at parts
    rw [List.drop_eq_nil_of_le (by simpa [computeSYNSeqParts] using parts)]
    rfl
  | cons call rest ih =>
    intro t st settings held ip named slots seen arrives
    by_cases awaited : st.matched < synSeqTotal opts.length
    · have fresh : t.expired call.now st = false := by
        rw [SYNSeqTracker.expired, settings, seen]
        exact decide_eq_false (arrives.fresh awaited)
      rw [transcript]
      by_cases own : call.src = src
      · obtain ⟨inside, part, later⟩ := arrives.tail_own own
        have verified : SYNSeqTracker.VerifiesOnly crypto clients protectedPort t.opts call
            st.matched st.clientID st.slot := by
          rw [settings, named, slots]
          exact verifiesOnly_part member apart modern inside part
            (arrives.near call List.mem_cons_self own)
        obtain ⟨answer, kept, next⟩ := SYNSeqTracker.add_continues checkAndMark held fresh
          (ip.trans own.symm) verified
        rw [← own, answersTo_cons_own, own, answer, settings, named,
          List.drop_eq_getElem_cons (by simpa using awaited), List.map_cons, List.getElem_range]
        refine congrArg₂ List.cons rfl ?_
        by_cases complete : opts.length ≤ (st.matched + 1 : Nat)
        · have short := synSeqTotal_le opts.length long
          rw [answersTo_silent (later.silent (by omega)),
            List.drop_eq_nil_of_le (by rw [List.length_range]; omega)]
          rfl
        · rw [settings] at next kept
          exact ih _ (SYNSeqTracker.advance call.now st) kept (next complete) ip named slots seen
            later
      · obtain ⟨kept, same⟩ := SYNSeqTracker.add_keeps crypto checkAndMark clients protectedPort
          held fresh fun same => own (same.symm.trans ip)
        rw [answersTo_cons_other own]
        exact ih _ st (same.trans settings) kept ip named slots seen (arrives.tail_other own)
    · rw [answersTo_silent (arrives.silent (by omega)),
        List.drop_eq_nil_of_le (by simpa using awaited)]
      rfl

/-- The answers to all parts of a sequence whose first part is taken. -/
theorem answers_to_parts {Cache : Type} {checkAndMark : CheckAndMark Cache}
    {t : SYNSeqTracker Cache} {first : SYNSeqCall} {rest : List SYNSeqCall}
    (member : client ∈ clients)
    (apart : PartsApart crypto clients protectedPort client slot t.opts.length)
    (modern : t.opts.allowLegacySYNSeq = false) (long : 2 ≤ t.opts.length)
    (arrives : Arrives crypto protectedPort t.opts client slot first.src first.now 0 (first :: rest))
    (room : (t.pruneLocked first.now).perIP first.src.text < t.opts.maxInflightPerIP ∧
      (t.pruneLocked first.now).total < t.opts.maxTotalInflight)
    (unseen : (checkSYNReplay checkAndMark client.clientID first.fields protectedPort first.mark
      t.replay).1 = .ok ()) :
    answersTo first.src (first :: rest)
        (transcript (SYNSeqTracker.add crypto checkAndMark clients protectedPort) t
          (first :: rest)) =
      (List.range (synSeqTotal t.opts.length)).map (partAnswer t.opts.length client.clientID) := by
  obtain ⟨inside, part, later⟩ := arrives.tail_own rfl
  have verified := verifiesOnly_part member apart modern inside part
    (arrives.near first List.mem_cons_self rfl)
  obtain ⟨answer, kept, held⟩ := SYNSeqTracker.add_starts verified (by omega) room unseen
  have following : answersTo first.src rest
      (transcript (SYNSeqTracker.add crypto checkAndMark clients protectedPort)
        (t.add crypto checkAndMark clients protectedPort first).2 rest) =
      ((List.range (synSeqTotal t.opts.length)).drop 1).map
        (partAnswer t.opts.length client.clientID) :=
    answers_after_first member apart modern long rest _ _ kept held rfl rfl rfl rfl later
  have incomplete : partAnswer t.opts.length client.clientID 0 = (false, []) := if_neg (by omega)
  have split : List.range (synSeqTotal t.opts.length) =
      0 :: (List.range (synSeqTotal t.opts.length)).drop 1 := by
    obtain ⟨rest, counted⟩ := Nat.exists_eq_add_of_lt inside
    rw [counted, Nat.zero_add, List.range_succ_eq_map, List.drop_one, List.tail_cons]
  rw [transcript, answersTo_cons_own, answer, following]
  conv_rhs => rw [split, List.map_cons, incomplete]

end Sender

end Libknock.Knock
