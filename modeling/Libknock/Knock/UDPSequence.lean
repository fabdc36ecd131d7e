import Mathlib.Data.List.AList
import Libknock.Foundation.Fields
import Libknock.Cache.TTLLRU
import Libknock.Knock.Replay
import Libknock.Knock.Frame
import Libknock.Knock.SYNSequence

/-!
# The tracker of UDP sequences

`sequenceTracker` of `knock/udp_seq.go`.  The parts of a sequence are collected
under the text of its source address, its client, its sequence ID, its port and
its method, separated by NUL bytes.  The keys of sequences that are complete, or
too old, are kept for a while.  The map of the sequences is visited in any order.
-/

set_option autoImplicit false

namespace Libknock.Knock

open Foundation Auth Cache

structure SeqState where
  firstSeen : Int
  lastSeen : Int
  parts : List Bool
  sessionID : Bytes
  total : Int
  deriving DecidableEq

structure SequenceTracker where
  opts : SequenceOptions
  states : AList fun _ : Bytes => SeqState
  perIP : AList fun _ : Bytes => Int
  total : Int
  completed : TTLLRU Bytes Unit
  nonceTT : Duration

structure KeyOrder where
  visit : List Bytes → List Bytes
  perm : ∀ keys, (visit keys).Perm keys

structure SequenceCall where
  src : IPText
  info : Option KnockInfo
  now : Int
  order : KeyOrder

def sequenceStateKey (src : IPText) (info : KnockInfo) : Bytes :=
  src.text ++ 0 :: (info.clientID ++ 0 :: (hexEncode info.sequenceID ++ 0 ::
    (ascii (toString info.serverPort) ++ 0 :: info.method)))

/-- The loop of `splitStateKey`, with the segment in hand. -/
def splitLoop : Bytes → Bytes → List Bytes
  | segment, [] => [segment]
  | segment, byte :: rest =>
    if byte = 0 then segment :: splitLoop [] rest else splitLoop (segment ++ [byte]) rest

def splitStateKey (key : Bytes) : List Bytes := splitLoop [] key

namespace SequenceTracker

def newSequenceTracker (opts : SequenceOptions) (nonceTTL : Duration) : SequenceTracker :=
  let normalized := normalizedSequenceOptions opts
  { opts := normalized
    states := ∅
    perIP := ∅
    total := 0
    completed := TTLLRU.new Bytes Unit normalized.maxTotalInflight
    nonceTT := if nonceTTL ≤ normalized.window then 2 * minute else nonceTTL }

def inflight (ip : Bytes) (t : SequenceTracker) : Int := (t.perIP.lookup ip).getD 0

def markCompletedLocked (key : Bytes) (now : Int) (t : SequenceTracker) : SequenceTracker :=
  let completed := if t.opts.maxTotalInflight ≤ t.completed.len then (t.completed.sweep now).2
    else t.completed
  { t with
    completed := if completed.len < t.opts.maxTotalInflight then
        completed.setUntil key () (addDuration now t.nonceTT)
      else completed }

def removeLocked (key ip : Bytes) (t : SequenceTracker) : SequenceTracker :=
  { t with
    states := t.states.erase key
    perIP := if 0 < t.inflight ip then t.perIP.insert ip (t.inflight ip - 1) else t.perIP
    total := if 0 < t.total then t.total - 1 else t.total }

/-- `now.Sub(state.firstSeen) > t.opts.Window`. -/
def expired (now : Int) (t : SequenceTracker) (state : SeqState) : Bool :=
  t.opts.window < since now state.firstSeen

def pruneKey (now : Int) (t : SequenceTracker) (key : Bytes) : SequenceTracker :=
  match t.states.lookup key with
  | none => t
  | some state =>
    if t.expired now state then
      match splitStateKey key with
      | [] => t
      | ip :: _ => (t.markCompletedLocked key now).removeLocked key ip
    else t

def pruneLocked (order : KeyOrder) (now : Int) (t : SequenceTracker) : SequenceTracker :=
  let pruned := (order.visit t.states.keys).foldl (pruneKey now) t
  { pruned with completed := (pruned.completed.sweep now).2 }

def invalidPart (t : SequenceTracker) (info : KnockInfo) : Bool :=
  info.sequenceTotal ≠ t.opts.length ∨ info.sequenceTotal < 2 ∨
    defaultSequenceMaxParts < info.sequenceTotal ∨ info.sequenceIndex < 0 ∨
    info.sequenceTotal ≤ info.sequenceIndex

def freshState (info : KnockInfo) (now : Int) : SeqState :=
  ⟨now, zeroTime, List.replicate info.sequenceTotal.toNat false, info.sessionID,
    info.sequenceTotal⟩

/-- `state.parts[info.SequenceIndex] = true` and `state.lastSeen = now`. -/
def received (state : SeqState) (info : KnockInfo) (now : Int) : SeqState :=
  { state with parts := state.parts.set info.sequenceIndex.toNat true, lastSeen := now }

def timeoutError : AuthError := .text (ascii "sequence_timeout")
def duplicateError : AuthError := .text (ascii "duplicate_part")
def invalidPartError : AuthError := .text (ascii "invalid udp sequence index or total")
def perIPError : AuthError := .text (ascii "sequence_inflight_per_ip_exceeded")
def totalError : AuthError := .text (ascii "sequence_inflight_total_exceeded")

/-- `add` from the point where the state of the key is known. -/
def addToState (t : SequenceTracker) (key : Bytes) (src : IPText) (info : KnockInfo) (now : Int)
    (state : SeqState) : Except AuthError Bool × SequenceTracker :=
  if t.expired now state then (.error timeoutError, t.removeLocked key src.text)
  else if state.total ≠ info.sequenceTotal ∨ state.sessionID ≠ info.sessionID then
    (.error .authFailed, t)
  else if state.parts.getD info.sequenceIndex.toNat false then (.error duplicateError, t)
  else
    let after := { t with states := t.states.insert key (received state info now) }
    if (received state info now).parts.all id then
      (.ok true, (after.markCompletedLocked key now).removeLocked key src.text)
    else (.ok false, after)

/-- `t.states[key] = state` with the counters. -/
def openState (t : SequenceTracker) (key : Bytes) (src : IPText) (state : SeqState) :
    SequenceTracker :=
  { t with
    states := t.states.insert key state
    perIP := t.perIP.insert src.text (t.inflight src.text + 1)
    total := t.total + 1 }

/-- `add` for a part whose key is not among the completed ones. -/
def addPart (t : SequenceTracker) (key : Bytes) (src : IPText) (info : KnockInfo) (now : Int) :
    Except AuthError Bool × SequenceTracker :=
  match t.states.lookup key with
  | some state => t.addToState key src info now state
  | none =>
    if t.opts.maxInflightPerIP ≤ t.inflight src.text then (.error perIPError, t)
    else if t.opts.maxTotalInflight ≤ t.total then (.error totalError, t)
    else (t.openState key src (freshState info now)).addToState key src info now
      (freshState info now)

def addPruned (t : SequenceTracker) (src : IPText) (info : KnockInfo) (now : Int) :
    Except AuthError Bool × SequenceTracker :=
  if t.invalidPart info then (.error invalidPartError, t)
  else
    match t.completed.getAt (sequenceStateKey src info) now with
    | (some _, completed) => (.error .replayDetected, { t with completed := completed })
    | (none, completed) =>
      ({ t with completed := completed } : SequenceTracker).addPart (sequenceStateKey src info) src
        info now

def add (t : SequenceTracker) (call : SequenceCall) : Except AuthError Bool × SequenceTracker :=
  match call.info with
  | none => (.error .invalidFrame, t)
  | some info =>
    if info.frameType ≠ knockFrameTypeUDPSequence then (.error .invalidFrame, t)
    else (t.pruneLocked call.order call.now).addPruned call.src info call.now

end SequenceTracker

/-! ## Keys -/

/-- A key stands for one source, client, sequence ID, port and method, where the
client IDs hold no NUL, as those of a server do. -/
theorem sequenceStateKey_inj {src other : IPText} {info another : KnockInfo}
    (clean : 0 ∉ info.clientID) (otherClean : 0 ∉ another.clientID)
    (same : sequenceStateKey src info = sequenceStateKey other another) :
    src = other ∧ info.clientID = another.clientID ∧ info.sequenceID = another.sequenceID ∧
      info.serverPort = another.serverPort ∧ info.method = another.method := by
  unfold sequenceStateKey at same
  obtain ⟨sources, same⟩ := append_separator_inj src.clean other.clean same
  obtain ⟨clients, same⟩ := append_separator_inj clean otherClean same
  obtain ⟨sequences, same⟩ := append_separator_inj (zero_notMem_hexEncode _)
    (zero_notMem_hexEncode _) same
  obtain ⟨ports, methods⟩ := append_separator_inj (zero_notMem_ascii_toString _)
    (zero_notMem_ascii_toString _) same
  refine ⟨?_, clients, hexEncode_injective sequences, ascii_toString_inj ports, methods⟩
  cases src
  cases other
  cases sources
  rfl

theorem sourceText_sequenceStateKey (src : IPText) (info : KnockInfo) :
    sourceText (sequenceStateKey src info) = src.text :=
  sourceText_append src _

theorem splitLoop_head (key : Bytes) :
    ∀ segment, ∃ rest, splitLoop segment key = (segment ++ sourceText key) :: rest := by
  induction key with
  | nil =>
    intro segment
    exact ⟨[], by simp [splitLoop, sourceText]⟩
  | cons byte tail ih =>
    intro segment
    rw [splitLoop]
    split
    · rename_i zero
      exact ⟨splitLoop [] tail, by simp [sourceText, zero]⟩
    · rename_i nonzero
      obtain ⟨rest, split⟩ := ih (segment ++ [byte])
      refine ⟨rest, ?_⟩
      rw [split, List.append_assoc, List.singleton_append, sourceText, sourceText,
        List.takeWhile_cons_of_pos (by simpa using nonzero)]

theorem splitStateKey_head (key : Bytes) : ∃ rest, splitStateKey key = sourceText key :: rest :=
  splitLoop_head key []

variable {second third : SequenceTracker} {own : Bytes}

namespace SequenceTracker

/-! ## What stays beside a key -/

structure Fixed (t next : SequenceTracker) : Prop where
  opts : next.opts = t.opts
  nonceTT : next.nonceTT = t.nonceTT
  capacity : next.completed.maxEntries = t.completed.maxEntries

theorem Fixed.refl {t : SequenceTracker} : Fixed t t := ⟨rfl, rfl, rfl⟩

variable (order : KeyOrder) (visited : List Bytes) {first : SequenceTracker} {state : SeqState}

theorem Fixed.trans (early : Fixed first second) (late : Fixed second third) : Fixed first third :=
  ⟨late.opts.trans early.opts, late.nonceTT.trans early.nonceTT,
    late.capacity.trans early.capacity⟩

/-- The guard of `markCompletedLocked` leaves room in the cache. -/
def Sized (t : SequenceTracker) : Prop := t.opts.maxTotalInflight ≤ t.completed.maxEntries

theorem Fixed.sized {t next : SequenceTracker} (fixed : Fixed t next) (sized : t.Sized) :
    next.Sized := by
  unfold Sized
  rw [fixed.opts, fixed.capacity]
  exact sized

theorem new_sized (opts : SequenceOptions) (nonceTTL : Duration) :
    (newSequenceTracker opts nonceTTL).Sized := by
  simp only [Sized, newSequenceTracker, TTLLRU.new]
  split
  · omega
  · omega

/-- A change that, as long as it lives, keeps what is known of the completion of a
key, and adds nothing to it. -/
structure Recalls (key : Bytes) (now : Int) (t next : SequenceTracker) : Prop extends
    Fixed t next where
  fewer : ∀ entry ∈ next.completed.order, entry.key = key → entry ∈ t.completed.order
  keeps : t.Sized → ∀ entry ∈ t.completed.order, entry.key = key → entry.live now = true →
    entry ∈ next.completed.order

structure Beside (key : Bytes) (now : Int) (t next : SequenceTracker) : Prop extends
    Recalls key now t next where
  slot : next.states.lookup key = t.states.lookup key

variable {key : Bytes} {now : Int} {t next : SequenceTracker}

theorem Recalls.trans (early : Recalls key now first second) (late : Recalls key now second third) :
    Recalls key now first third where
  toFixed := early.toFixed.trans late.toFixed
  fewer := fun entry member same => early.fewer entry (late.fewer entry member same) same
  keeps := fun sized entry member same live =>
    late.keeps (early.sized sized) entry (early.keeps sized entry member same live) same live

theorem Recalls.of_completed (opts : next.opts = t.opts) (nonceTT : next.nonceTT = t.nonceTT)
    (completed : next.completed = t.completed) : Recalls key now t next where
  opts := opts
  nonceTT := nonceTT
  capacity := by rw [completed]
  fewer := by
    rw [completed]
    exact fun _ member _ => member
  keeps := by
    rw [completed]
    exact fun _ _ member _ _ => member

theorem Beside.refl : Beside key now t t := ⟨.of_completed rfl rfl rfl, rfl⟩

theorem Beside.trans (early : Beside key now first second) (late : Beside key now second third) :
    Beside key now first third :=
  ⟨early.toRecalls.trans late.toRecalls, late.slot.trans early.slot⟩

theorem sweep_beside : Beside key now t { t with completed := (t.completed.sweep now).2 } where
  opts := rfl
  nonceTT := rfl
  capacity := rfl
  slot := rfl
  fewer := fun _ member _ => (TTLLRU.mem_sweep.mp member).1
  keeps := fun _ _ member _ live => TTLLRU.mem_sweep.mpr ⟨member, live⟩

theorem getAt_beside (key other : Bytes) (now : Int) (t : SequenceTracker) :
    Beside key now t { t with completed := (t.completed.getAt other now).2 } where
  opts := rfl
  nonceTT := rfl
  capacity := TTLLRU.getAt_maxEntries ..
  slot := rfl
  fewer := fun _ member _ => (TTLLRU.mem_getAt.mp member).1
  keeps := fun _ _ member _ live => TTLLRU.mem_getAt.mpr ⟨member, fun _ => live⟩

/-! ## Marks -/

def swept (now : Int) (t : SequenceTracker) : TTLLRU Bytes Unit :=
  if t.opts.maxTotalInflight ≤ t.completed.len then (t.completed.sweep now).2 else t.completed

theorem markCompletedLocked_eq (key : Bytes) (now : Int) (t : SequenceTracker) :
    t.markCompletedLocked key now = { t with
      completed := if (t.swept now).len < t.opts.maxTotalInflight then
          (t.swept now).setUntil key () (addDuration now t.nonceTT)
        else t.swept now } := rfl

theorem swept_maxEntries (now : Int) (t : SequenceTracker) :
    (t.swept now).maxEntries = t.completed.maxEntries := by
  unfold swept
  split
  · rfl
  · rfl

theorem mem_swept {entry : Entry Bytes Unit} (member : entry ∈ (t.swept now).order) :
    entry ∈ t.completed.order := by
  unfold swept at member
  split at member
  · exact (TTLLRU.mem_sweep.mp member).1
  · exact member

theorem swept_keeps (now : Int) (t : SequenceTracker) (entry : Entry Bytes Unit)
    (member : entry ∈ t.completed.order) (live : entry.live now = true) :
    entry ∈ (t.swept now).order := by
  unfold swept
  split
  · exact TTLLRU.mem_sweep.mpr ⟨member, live⟩
  · exact member

theorem setUntil_maxEntries (key : Bytes) (expiresAt : Int) (cache : TTLLRU Bytes Unit) :
    (cache.setUntil key () expiresAt).maxEntries = cache.maxEntries := by
  unfold TTLLRU.setUntil
  split
  · rfl
  · exact TTLLRU.setLocked_maxEntries ..

theorem mark_fixed : Fixed t (t.markCompletedLocked key now) := by
  refine ⟨rfl, rfl, ?_⟩
  rw [markCompletedLocked_eq]
  split
  · rw [setUntil_maxEntries, swept_maxEntries]
  · exact swept_maxEntries now t

theorem mark_beside {other : Bytes} (different : key ≠ other) :
    Beside key now t (t.markCompletedLocked other now) := by
  refine ⟨⟨mark_fixed, ?_, ?_⟩, rfl⟩
  · intro entry member same
    rw [markCompletedLocked_eq] at member
    apply mem_swept
    split at member
    · unfold TTLLRU.setUntil at member
      split at member
      · exact member
      · rcases TTLLRU.mem_of_mem_setLocked member with rfl | kept
        · exact absurd same.symm different
        · exact kept.1
    · exact member
  · intro sized entry member same live
    have kept := swept_keeps now t entry member live
    rw [markCompletedLocked_eq]
    split
    · rename_i room
      unfold TTLLRU.setUntil
      split
      · exact kept
      refine TTLLRU.mem_setLocked_of_room _ _ (Or.inr ?_) kept (same ▸ different)
      have capacity := swept_maxEntries now t
      unfold Sized at sized
      unfold TTLLRU.len at room
      omega
    · exact kept

def Roomy (now : Int) (t : SequenceTracker) : Prop :=
  (t.completed.activeLen now : Int) < t.opts.maxTotalInflight

instance (now : Int) (t : SequenceTracker) : Decidable (t.Roomy now) :=
  inferInstanceAs (Decidable ((t.completed.activeLen now : Int) < t.opts.maxTotalInflight))

theorem mark_records (key : Bytes) (roomy : t.Roomy now)
    (dated : isZero (addDuration now t.nonceTT) = false) :
    ⟨key, (), addDuration now t.nonceTT⟩ ∈ (t.markCompletedLocked key now).completed.order := by
  have room : ((t.swept now).len : Int) < t.opts.maxTotalInflight := by
    unfold swept
    split
    · exact roomy
    · omega
  rw [markCompletedLocked_eq, if_pos room]
  simp only [TTLLRU.setUntil, dated]
  exact TTLLRU.mem_setLocked_self

theorem remove_fixed {ip : Bytes} : Fixed t (t.removeLocked key ip) := ⟨rfl, rfl, rfl⟩

theorem remove_beside {other ip : Bytes} (different : key ≠ other) :
    Beside key now t (t.removeLocked other ip) :=
  ⟨.of_completed rfl rfl rfl, AList.lookup_erase_ne different⟩

@[simp] theorem remove_slot (key ip : Bytes) (t : SequenceTracker) :
    (t.removeLocked key ip).states.lookup key = none := AList.lookup_erase key t.states

/-! ## Pruning -/

def Young (key : Bytes) (now : Int) (t : SequenceTracker) : Prop :=
  ∀ state ∈ t.states.lookup key, t.expired now state = false

theorem young_of_absent (now : Int) (absent : t.states.lookup key = none) : Young key now t := by
  unfold Young
  rw [absent]
  intro state found
  cases found

theorem Beside.young (beside : Beside key now t next) (young : Young key now t) :
    Young key now next := by
  intro state found
  rw [beside.slot] at found
  rw [expired, beside.opts]
  exact young state found

/-- A turn of the loop that finds a state which is too old marks its key and
removes it, for the source that the key names. -/
theorem pruneKey_old (found : t.states.lookup key = some state) (old : t.expired now state = true) :
    t.pruneKey now key =
      (t.markCompletedLocked key now).removeLocked key (sourceText key) := by
  obtain ⟨rest, split⟩ := splitStateKey_head key
  simp only [pruneKey, found, old, if_true, split]

theorem pruneKey_cases (now : Int) (t : SequenceTracker) (visited : Bytes) :
    t.pruneKey now visited = t ∨
      (∃ state, t.states.lookup visited = some state ∧ t.expired now state = true) ∧
        t.pruneKey now visited =
          (t.markCompletedLocked visited now).removeLocked visited (sourceText visited) := by
  cases found : t.states.lookup visited with
  | none => exact Or.inl (by simp only [pruneKey, found])
  | some state =>
    cases old : t.expired now state with
    | false => exact Or.inl (by simp [pruneKey, found, old])
    | true => exact Or.inr ⟨⟨state, rfl, old⟩, pruneKey_old found old⟩

theorem pruneKey_fixed {visited : Bytes} : Fixed t (t.pruneKey now visited) := by
  rcases pruneKey_cases now t visited with same | ⟨_, same⟩
  · rw [same]
    exact Fixed.refl
  · rw [same]
    exact mark_fixed.trans remove_fixed

theorem pruneKey_other {visited : Bytes} (different : key ≠ visited) :
    Beside key now t (t.pruneKey now visited) := by
  rcases pruneKey_cases now t visited with same | ⟨_, same⟩
  · rw [same]
    exact Beside.refl
  · rw [same]
    exact (mark_beside different).trans (remove_beside different)

theorem pruneKey_young (young : Young key now t) (visited : Bytes) :
    Beside key now t (t.pruneKey now visited) := by
  by_cases own : key = visited
  · subst own
    rcases pruneKey_cases now t key with same | ⟨⟨state, found, old⟩, _⟩
    · rw [same]
      exact Beside.refl
    · rw [young state found] at old
      cases old
  · exact pruneKey_other own

theorem prune_loop_fixed (now : Int) (visited : List Bytes) :
    ∀ t : SequenceTracker, Fixed t (visited.foldl (pruneKey now) t) := by
  induction visited with
  | nil => exact fun t => Fixed.refl
  | cons head rest ih => exact fun t => pruneKey_fixed.trans (ih _)

theorem prune_fixed (now : Int) (t : SequenceTracker) : Fixed t (t.pruneLocked order now) :=
  (prune_loop_fixed now _ t).trans (@sweep_beside [] now _).toFixed

theorem prune_loop_young :
    ∀ t : SequenceTracker, Young key now t →
      Beside key now t (visited.foldl (pruneKey now) t) := by
  induction visited with
  | nil => exact fun t _ => Beside.refl
  | cons head rest ih =>
    intro t young
    have first := pruneKey_young young head
    exact first.trans (ih _ (first.young young))

theorem prune_loop_other (absent : key ∉ visited) :
    ∀ t : SequenceTracker, Beside key now t (visited.foldl (pruneKey now) t) := by
  induction visited with
  | nil => exact fun t => Beside.refl
  | cons head rest ih =>
    intro t
    have different : key ≠ head := fun same => absent (same ▸ List.mem_cons_self)
    exact (pruneKey_other different).trans
      (ih (fun member => absent (List.mem_cons_of_mem head member)) _)

theorem prune_beside (young : Young key now t) (order : KeyOrder) :
    Beside key now t (t.pruneLocked order now) :=
  (prune_loop_young _ t young).trans sweep_beside

/-- The tracker that the loop over the states has made when it comes to a key. -/
def atTurn (order : KeyOrder) (now : Int) (key : Bytes) (t : SequenceTracker) : SequenceTracker :=
  ((order.visit t.states.keys).takeWhile fun other => other ≠ key).foldl (pruneKey now) t

theorem takeWhile_front {front back : List Bytes} (absent : key ∉ front) :
    (front ++ key :: back).takeWhile (fun other => decide (other ≠ key)) = front := by
  rw [List.takeWhile_append_of_pos]
  · simp
  · intro other member
    have different : other ≠ key := fun same => absent (same ▸ member)
    simpa using different

theorem prune_old (order : KeyOrder)
    (found : t.states.lookup key = some state) (old : t.expired now state = true) :
    Beside key now t (t.atTurn order now key) ∧
      Beside key now
        (((t.atTurn order now key).markCompletedLocked key now).removeLocked key (sourceText key))
        (t.pruneLocked order now) := by
  have member : key ∈ order.visit t.states.keys := by
    rw [(order.perm _).mem_iff, ← AList.mem_keys, ← AList.lookup_isSome, found]
    rfl
  obtain ⟨front, back, visits, absent⟩ := List.eq_append_cons_of_mem member
  have turn : t.atTurn order now key = front.foldl (pruneKey now) t := by
    rw [atTurn, visits, takeWhile_front absent]
  have before : Beside key now t (t.atTurn order now key) := by
    rw [turn]
    exact prune_loop_other front absent t
  refine ⟨before, ?_⟩
  have own : (t.atTurn order now key).pruneKey now key =
      ((t.atTurn order now key).markCompletedLocked key now).removeLocked key
        (sourceText key) := by
    apply pruneKey_old (before.slot.trans found)
    rw [expired, before.opts]
    exact old
  have loop : (order.visit t.states.keys).foldl (pruneKey now) t =
      back.foldl (pruneKey now)
        (((t.atTurn order now key).markCompletedLocked key now).removeLocked key
          (sourceText key)) := by
    rw [visits, List.foldl_append, List.foldl_cons, ← turn, own]
  rw [pruneLocked, loop]
  exact (prune_loop_young back _ (young_of_absent now (remove_slot ..))).trans
    sweep_beside

theorem prune_slot (key : Bytes) (order : KeyOrder) (now : Int) (t : SequenceTracker) :
    (t.pruneLocked order now).states.lookup key =
      (t.states.lookup key).filter fun state => !t.expired now state := by
  cases found : t.states.lookup key with
  | none =>
    rw [(prune_beside (young_of_absent now found) order).slot, found]
    rfl
  | some state =>
    cases old : t.expired now state with
    | false =>
      have young : Young key now t := by
        intro other same
        rw [found] at same
        cases same
        exact old
      rw [(prune_beside young order).slot, found]
      simp only [Option.filter, old]
      rfl
    | true =>
      obtain ⟨_, after⟩ := prune_old order found old
      rw [after.slot, remove_slot]
      simp only [Option.filter, old]
      rfl

theorem prune_young (key : Bytes) (order : KeyOrder) (now : Int) (t : SequenceTracker) :
    Young key now (t.pruneLocked order now) := by
  intro state found
  rw [prune_slot, Option.mem_def, Option.filter_eq_some_iff] at found
  have young : t.expired now state = false := by simpa using found.2
  rw [expired, (prune_fixed order now t).opts]
  exact young

theorem prune_activeLen (now : Int) (t : SequenceTracker) :
    (t.pruneLocked order now).completed.activeLen now = (t.pruneLocked order now).completed.len := by
  simp [pruneLocked, TTLLRU.activeLen, TTLLRU.len, TTLLRU.sweep, TTLLRU.retain, List.filter_filter]

/-! ## A part of another key -/

theorem insert_beside (different : key ≠ own) (now : Int) (state : SeqState) (t : SequenceTracker) :
    Beside key now t { t with states := t.states.insert own state } :=
  ⟨.of_completed rfl rfl rfl, AList.lookup_insert_ne different⟩

theorem addToState_beside (different : key ≠ own) {src : IPText} {info : KnockInfo} :
    Beside key now t (t.addToState own src info now state).2 := by
  unfold addToState
  split
  · exact remove_beside different
  split
  · exact Beside.refl
  split
  · exact Beside.refl
  have stored := insert_beside different now (received state info now) t
  dsimp only
  split
  · exact stored.trans ((mark_beside different).trans (remove_beside different))
  · exact stored

theorem addPart_beside (different : key ≠ own) {src : IPText} {info : KnockInfo} :
    Beside key now t (t.addPart own src info now).2 := by
  unfold addPart
  split
  · exact addToState_beside different
  split
  · exact Beside.refl
  split
  · exact Beside.refl
  have opened : Beside key now t (t.openState own src (freshState info now)) :=
    ⟨.of_completed rfl rfl rfl, AList.lookup_insert_ne different⟩
  exact opened.trans (addToState_beside different)

theorem addPruned_beside {src : IPText} {info : KnockInfo}
    (different : key ≠ sequenceStateKey src info) (now : Int) (t : SequenceTracker) :
    Beside key now t (t.addPruned src info now).2 := by
  unfold addPruned
  split
  · exact Beside.refl
  have read := getAt_beside key (sequenceStateKey src info) now t
  split
  · rename_i completed hit
    rw [hit] at read
    exact read
  · rename_i completed miss
    rw [miss] at read
    exact read.trans (addPart_beside different)

/-! ## A part of the key -/

def Unmarked (key : Bytes) (now : Int) (t : SequenceTracker) : Prop :=
  ∀ entry ∈ t.completed.order, entry.key = key → entry.live now = false

inductive Refusal (key : Bytes) (src : IPText) (info : KnockInfo) (now : Int)
    (t : SequenceTracker) : AuthError → Prop
  | invalid (bad : t.invalidPart info = true) : Refusal key src info now t invalidPartError
  | replayed (entry : Entry Bytes Unit) (member : entry ∈ t.completed.order)
      (same : entry.key = key) (live : entry.live now = true) :
      Refusal key src info now t .replayDetected
  | crowdedIP (unmarked : Unmarked key now t) (absent : t.states.lookup key = none)
      (full : t.opts.maxInflightPerIP ≤ t.inflight src.text) :
      Refusal key src info now t perIPError
  | crowded (unmarked : Unmarked key now t) (absent : t.states.lookup key = none)
      (full : t.opts.maxTotalInflight ≤ t.total) :
      Refusal key src info now t totalError
  | mismatched (unmarked : Unmarked key now t) (state : SeqState)
      (found : t.states.lookup key = some state)
      (differs : state.total ≠ info.sequenceTotal ∨ state.sessionID ≠ info.sessionID) :
      Refusal key src info now t .authFailed
  | duplicate (unmarked : Unmarked key now t) (state : SeqState)
      (found : t.states.lookup key = some state)
      (seen : state.parts.getD info.sequenceIndex.toNat false = true) :
      Refusal key src info now t duplicateError

/-- The state of the key, or a fresh one, takes the part. -/
structure Accepts (key : Bytes) (info : KnockInfo) (now : Int) (t : SequenceTracker)
    (state : SeqState) : Prop where
  valid : t.invalidPart info = false
  unmarked : Unmarked key now t
  source : t.states.lookup key = some state ∨
    t.states.lookup key = none ∧ state = freshState info now
  young : t.expired now state = false
  total : state.total = info.sequenceTotal
  session : state.sessionID = info.sessionID
  missing : state.parts.getD info.sequenceIndex.toNat false = false

inductive Outcome (key : Bytes) (src : IPText) (info : KnockInfo) (now : Int)
    (t : SequenceTracker) : Except AuthError Bool → SequenceTracker → Prop
  | refused {error : AuthError} {next : SequenceTracker}
      (reason : Refusal key src info now t error) (beside : Beside key now t next) :
      Outcome key src info now t (.error error) next
  | stored {next : SequenceTracker} (state : SeqState) (accepts : Accepts key info now t state)
      (short : (received state info now).parts.all id = false) (recalls : Recalls key now t next)
      (slot : next.states.lookup key = some (received state info now)) :
      Outcome key src info now t (.ok false) next
  | completed (state : SeqState) (filled : SequenceTracker)
      (accepts : Accepts key info now t state)
      (full : (received state info now).parts.all id = true)
      (recalls : Recalls key now t filled) (size : filled.completed.len ≤ t.completed.len) :
      Outcome key src info now t (.ok true)
        ((filled.markCompletedLocked key now).removeLocked key src.text)

variable {src : IPText} {info : KnockInfo}

theorem Accepts.outcome {cur : SequenceTracker} (accepts : Accepts key info now t state)
    (recalls : Recalls key now t cur) (size : cur.completed.len ≤ t.completed.len) :
    Outcome key src info now t (cur.addToState key src info now state).1
      (cur.addToState key src info now state).2 := by
  have young : cur.expired now state = false := by
    rw [expired, recalls.opts]
    exact accepts.young
  have agrees : ¬ (state.total ≠ info.sequenceTotal ∨ state.sessionID ≠ info.sessionID) := by
    simp [accepts.total, accepts.session]
  have stored : Recalls key now t
      { cur with states := cur.states.insert key (received state info now) } :=
    recalls.trans (.of_completed rfl rfl rfl)
  unfold addToState
  simp only [young, agrees, accepts.missing, Bool.false_eq_true, if_false]
  split
  · rename_i full
    exact .completed state _ accepts full stored size
  · rename_i short
    exact .stored state accepts (by simpa using short) stored (AList.lookup_insert _)

theorem addToState_mismatched (young : t.expired now state = false)
    (differs : state.total ≠ info.sequenceTotal ∨ state.sessionID ≠ info.sessionID) :
    t.addToState key src info now state = (.error .authFailed, t) := by
  unfold addToState
  simp only [young, differs, Bool.false_eq_true, if_false, if_true]

theorem addToState_duplicate (young : t.expired now state = false)
    (agrees : ¬ (state.total ≠ info.sequenceTotal ∨ state.sessionID ≠ info.sessionID))
    (seen : state.parts.getD info.sequenceIndex.toNat false = true) :
    t.addToState key src info now state = (.error duplicateError, t) := by
  unfold addToState
  simp only [young, agrees, seen, Bool.false_eq_true, if_false, if_true]

theorem fresh_young (now : Int) (info : KnockInfo) (opens : 0 ≤ t.opts.window) :
    t.expired now (freshState info now) = false := by
  have closed : ¬ t.opts.window < 0 := Int64.not_lt.mpr opens
  simpa [expired, freshState, since_self] using closed

theorem fresh_missing (info : KnockInfo) (now : Int) (index : Nat) :
    (freshState info now).parts.getD index false = false := by
  simp only [freshState, List.getD, List.getElem?_replicate]
  split
  · rfl
  · rfl

theorem addPruned_outcome (opens : 0 ≤ t.opts.window)
    (young : Young (sequenceStateKey src info) now t) :
    Outcome (sequenceStateKey src info) src info now t (t.addPruned src info now).1
      (t.addPruned src info now).2 := by
  generalize own : sequenceStateKey src info = key at young ⊢
  unfold addPruned
  rw [own]
  have read := getAt_beside key key now t
  have hits := TTLLRU.getAt_isSome_iff key now t.completed
  have size := TTLLRU.getAt_length key now t.completed
  split
  · rename_i bad
    exact .refused (.invalid bad) (Beside.refl)
  rename_i valid
  split
  · rename_i completed hit
    rw [hit] at read hits
    obtain ⟨entry, member, same, live⟩ := hits.mp rfl
    exact .refused (.replayed entry member same live) read
  rename_i completed miss
  rw [miss] at read hits size
  have unmarked : Unmarked key now t := by
    intro entry member same
    by_contra live
    have hit := hits.mpr ⟨entry, member, same, by simpa using live⟩
    cases hit
  unfold addPart
  split
  · rename_i state found
    have young := young state found
    have still : ({ t with completed := completed } : SequenceTracker).expired now state = false :=
      young
    by_cases differs : state.total ≠ info.sequenceTotal ∨ state.sessionID ≠ info.sessionID
    · rw [addToState_mismatched still differs]
      exact .refused (.mismatched unmarked state found differs) read
    cases seen : state.parts.getD info.sequenceIndex.toNat false with
    | true =>
      rw [addToState_duplicate still differs seen]
      exact .refused (.duplicate unmarked state found seen) read
    | false =>
      have agrees : state.total = info.sequenceTotal ∧ state.sessionID = info.sessionID := by
        simpa [not_or] using differs
      exact Accepts.outcome ⟨by simpa using valid, unmarked, Or.inl found, young, agrees.1,
        agrees.2, seen⟩ read.toRecalls size
  · rename_i absent
    split
    · rename_i full
      exact .refused (.crowdedIP unmarked absent full) read
    split
    · rename_i full
      exact .refused (.crowded unmarked absent full) read
    have opened : Recalls key now t (({ t with completed := completed } : SequenceTracker).openState
        key src (freshState info now)) :=
      read.toRecalls.trans (.of_completed rfl rfl rfl)
    exact Accepts.outcome ⟨by simpa using valid, unmarked, Or.inr ⟨absent, rfl⟩,
      fresh_young now info opens, rfl, rfl, fresh_missing info now _⟩ opened size

end SequenceTracker

end Libknock.Knock
