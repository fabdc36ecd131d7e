import Libknock.Knock.FrameReplay
import Libknock.Knock.SYN

/-!
# Replayed SYN knocks

The SYN listeners of the relay check the fields of a packet at one reading of
the clock and mark them in the cache at another.  Fields are taken for three
slots; the cache forgets them after `KnockReplayTTL` of the time window, which
is not derived from the slot.
-/

set_option autoImplicit false

namespace Libknock.Knock

open Foundation Protocol Auth

structure SYNCall where
  fields : SYNFields
  dstPort : Int
  clock : KnockReadings

/-- What a listener does with a packet: `verify`, then the replay cache. -/
def synStep (verify : SYNCall → Option Bytes) (serverPort : Int) (c : MemoryReplayCache)
    (call : SYNCall) : Option (Bytes × SYNFields) × MemoryReplayCache :=
  match verify call with
  | none => (none, c)
  | some clientID =>
    match checkSYNReplay MemoryReplayCache.checkAndMark clientID call.fields serverPort
        call.clock.mark c with
    | (.error _, next) => (none, next)
    | (.ok (), next) => (some (clientID, call.fields), next)

section Listeners

variable (crypto : Crypto) (clients : List ClientSecret) (serverPort : Int)

def listenSYN (window : Duration) (call : SYNCall) : Option Bytes :=
  verifySYNFields crypto call.fields clients serverPort call.clock.check window

/-- The first parts of the `tcp-syn-seq` listener. -/
def listenSYNSequence (slotSeconds total : Int) (allowLegacy : Bool) (call : SYNCall) :
    Option Bytes :=
  (verifySYNSeqPart crypto call.fields call.dstPort clients serverPort call.clock.check slotSeconds
    total 0 allowLegacy).map Prod.fst

end Listeners

/-! ## Memory of the marks -/

theorem synStep_cases (verify : SYNCall → Option Bytes) (serverPort : Int) (c : MemoryReplayCache)
    (call : SYNCall) :
    synStep verify serverPort c call = (none, c) ∨
      ∃ clientID, verify call = some clientID ∧
        (synStep verify serverPort c call).2 =
          (c.checkAndMark clientID (synReplayNonce call.fields serverPort) call.clock.mark).2 ∧
        ∀ granted, (synStep verify serverPort c call).1 = some granted →
          granted = (clientID, call.fields) ∧
            (c.checkAndMark clientID (synReplayNonce call.fields serverPort) call.clock.mark).1 =
              .ok () := by
  unfold synStep checkSYNReplay
  cases verify call with
  | none => exact Or.inl rfl
  | some clientID =>
    right
    refine ⟨clientID, rfl, ?_⟩
    simp only
    cases c.checkAndMark clientID (synReplayNonce call.fields serverPort) call.clock.mark with
    | mk answer next =>
      cases answer with
      | error | ok => exact ⟨rfl, by simp⟩

variable {call : SYNCall}

theorem synStep_granted {verify : SYNCall → Option Bytes} {serverPort : Int} {c : MemoryReplayCache}
    {granted : Bytes × SYNFields} (accepted : (synStep verify serverPort c call).1 = some granted) :
    verify call = some granted.1 ∧ call.fields = granted.2 ∧
      c.checkAndMark granted.1 (synReplayNonce granted.2 serverPort) call.clock.mark =
        (.ok (), (synStep verify serverPort c call).2) := by
  rcases synStep_cases verify serverPort c call with refused | ⟨clientID, verified, next, grants⟩
  · rw [refused] at accepted
    cases accepted
  · obtain ⟨rfl, marked⟩ := grants granted accepted
    exact ⟨verified, rfl, Prod.ext marked next.symm⟩

theorem synStep_remembering (verify : SYNCall → Option Bytes) (serverPort : Int) (ttl : Duration) :
    Remembering (synStep verify serverPort) (fun call => call.clock.mark) id
      (fun c => c.Counted ∧ c.ttl = ttl)
      (fun c granted until_ =>
        ⟨replayKey granted.1 (synReplayNonce granted.2 serverPort), (), until_⟩ ∈ c.entries.order)
      ttl.toInt := by
  refine @MemoryReplayCache.remembering _ _ _ _ _ _
    (fun granted : Bytes × SYNFields => (granted.1, synReplayNonce granted.2 serverPort)) ttl ?_ ?_
  · intro c call
    rcases synStep_cases verify serverPort c call with refused | ⟨clientID, _, next, _⟩
    · exact Or.inl (congrArg Prod.snd refused)
    · exact Or.inr ⟨_, _, next⟩
  · intro c call granted accepted
    exact (synStep_granted accepted).2.2

/-! ## Runs -/

def AcceptsOnce (verify : SYNCall → Option Bytes) (serverPort : Int) (c : MemoryReplayCache)
    (calls : List SYNCall) : Prop :=
  ∀ (i j : Nat) (first later : Bytes × SYNFields), i < j →
    (transcript (synStep verify serverPort) c calls)[i]? = some (some first) →
    (transcript (synStep verify serverPort) c calls)[j]? = some (some later) →
    first.2 ≠ later.2

def triedSlots (size : Int) (calls : List SYNCall) : List Int :=
  calls.flatMap fun call =>
    [(unix call.clock.check).tdiv size - 1, (unix call.clock.check).tdiv size,
      (unix call.clock.check).tdiv size + 1]

theorem mem_triedSlots {size : Int} {calls : List SYNCall} (member : call ∈ calls) {slot : Int}
    (near : (unix call.clock.check).tdiv size - 1 ≤ slot ∧
      slot ≤ (unix call.clock.check).tdiv size + 1) : slot ∈ triedSlots size calls := by
  refine List.mem_flatMap.mpr ⟨call, member, ?_⟩
  simp only [List.mem_cons, List.not_mem_nil, or_false]
  omega

/-- Three slots and the delay between the two readings of a call are covered by
the lifetime of a nonce. -/
def SlotsCovered (size : Int) (ttl : Duration) (call : SYNCall) : Prop :=
  3 * size * 1000000000 + (call.clock.mark - call.clock.check) ≤ ttl.toInt

/-- Readings of a clock that never goes back, after the epoch. -/
structure Clocked (calls : List SYNCall) : Prop where
  ordered : (calls.map fun call => call.clock.mark).Pairwise (· ≤ ·)
  readings : ∀ call ∈ calls, 0 ≤ call.clock.check ∧ call.clock.check ≤ call.clock.mark

theorem synStep_acceptsOnce (verify : SYNCall → Option Bytes) (serverPort size : Int)
    (positive : 0 < size) (c : MemoryReplayCache) (counted : c.Counted) (calls : List SYNCall)
    (clocked : Clocked calls) (covered : ∀ call ∈ calls, SlotsCovered size c.ttl call)
    (same : ∀ early ∈ calls, ∀ late ∈ calls, ∀ clientID otherID, early.fields = late.fields →
      verify early = some clientID → verify late = some otherID →
      clientID = otherID ∧ ∃ slot, slot ≤ (unix early.clock.check).tdiv size + 1 ∧
        (unix late.clock.check).tdiv size - 1 ≤ slot) :
    AcceptsOnce verify serverPort c calls := by
  intro i j first later before firstAt laterAt fields
  have memory := synStep_remembering verify serverPort c.ttl
  obtain ⟨early, earlyAt⟩ := transcript_action firstAt
  obtain ⟨late, lateAt⟩ := transcript_action laterAt
  have earlyMember := List.mem_of_getElem? earlyAt
  have lateMember := List.mem_of_getElem? lateAt
  obtain ⟨_, _, earlyStep⟩ := memory.answered calls c ⟨counted, rfl⟩ i early _ earlyAt firstAt
  obtain ⟨_, _, lateStep⟩ := memory.answered calls c ⟨counted, rfl⟩ j late _ lateAt laterAt
  obtain ⟨earlyVerified, earlyFields, _⟩ := synStep_granted earlyStep
  obtain ⟨lateVerified, lateFields, _⟩ := synStep_granted lateStep
  obtain ⟨sameClient, slot, earlySlot, lateSlot⟩ := same early earlyMember late lateMember _ _
    (earlyFields.trans (fields.trans lateFields.symm)) earlyVerified lateVerified
  have spaced := memory.spaced calls c ⟨counted, rfl⟩ clocked.ordered i j early late _ _ later before
    earlyAt lateAt firstAt laterAt (congrArg some (Prod.ext sameClient fields)) rfl
  have earlyReadings := clocked.readings early earlyMember
  have lateReadings := clocked.readings late lateMember
  have close := tried_within earlyReadings.1 lateReadings.1 positive earlySlot lateSlot
  have room := covered late lateMember
  unfold SlotsCovered at room
  omega

section Relay

variable (crypto : Crypto) (clients : List ClientSecret) (serverPort : Int)

/-- Among the clients and the slots a run tries, fields name their client and
slot. -/
def SYNFieldsApart (size : Int) (calls : List SYNCall) : Prop :=
  ∀ client ∈ clients, ∀ other ∈ clients, ∀ slot ∈ triedSlots size calls,
    ∀ another ∈ triedSlots size calls,
    computeSYNFields crypto client.secret client.clientID serverPort slot =
      computeSYNFields crypto other.secret other.clientID serverPort another →
    client.clientID = other.clientID ∧ slot = another

def FirstPartsApart (size : Int) (calls : List SYNCall) : Prop :=
  ∀ client ∈ clients, ∀ other ∈ clients, ∀ slot ∈ triedSlots size calls,
    ∀ another ∈ triedSlots size calls, ∀ legacy older : Bool,
    (computeSYNSeqPart crypto client.secret client.clientID serverPort slot legacy 0).fields =
      (computeSYNSeqPart crypto other.secret other.clientID serverPort another older 0).fields →
    client.clientID = other.clientID ∧ slot = another

variable {crypto clients serverPort}

theorem listenSYN_some {window : Duration} {clientID : Bytes}
    (verified : listenSYN crypto clients serverPort window call = some clientID) :
    ∃ client ∈ clients, ∃ slot, client.clientID = clientID ∧
      computeSYNFields crypto client.secret client.clientID serverPort slot = call.fields ∧
      slotFor call.clock.check window - 1 ≤ slot ∧ slot ≤ slotFor call.clock.check window + 1 := by
  obtain ⟨⟨found, slot⟩, tried, rfl⟩ := Option.map_eq_some_iff.mp verified
  obtain ⟨client, member, named, accepted, near⟩ := tryClients_some tried
  exact ⟨client, member, slot, named, (of_decide_eq_true accepted).2, near⟩

theorem listenSYNSequence_some {slotSeconds total : Int} {allowLegacy : Bool} {clientID : Bytes}
    (verified : listenSYNSequence crypto clients serverPort slotSeconds total allowLegacy call =
      some clientID) :
    ∃ client ∈ clients, ∃ slot legacy, client.clientID = clientID ∧
      (computeSYNSeqPart crypto client.secret client.clientID serverPort slot legacy 0).fields =
        call.fields ∧
      seqSlotFor call.clock.check slotSeconds - 1 ≤ slot ∧
      slot ≤ seqSlotFor call.clock.check slotSeconds + 1 := by
  obtain ⟨⟨found, slot⟩, tried, rfl⟩ := Option.map_eq_some_iff.mp verified
  obtain ⟨client, member, named, ⟨legacy, _, part⟩, _, near⟩ := verifySYNSeqPart_some tried
  exact ⟨client, member, slot, legacy, named, congrArg SYNSeqPart.fields part, near⟩

/-- With the cache of the relay, the fields of a SYN knock and the first part of
a SYN sequence are accepted at most once in every run whose calls are covered by
the lifetime of a nonce. -/
theorem synKnocks_accepted_once (crypto : Crypto) (clients : List ClientSecret) (serverPort : Int)
    (window : Duration) (calls : List SYNCall) (clocked : Clocked calls) :
    (SYNFieldsApart crypto clients serverPort (slotSize window) calls →
      (∀ call ∈ calls, SlotsCovered (slotSize window) (knockReplayTTL window) call) →
      AcceptsOnce (listenSYN crypto clients serverPort window) serverPort
        (.new (knockReplayTTL window)) calls) ∧
    ∀ (slotSeconds total : Int) (allowLegacy : Bool),
      FirstPartsApart crypto clients serverPort (seqSlotSize slotSeconds) calls →
      (∀ call ∈ calls, SlotsCovered (seqSlotSize slotSeconds) (knockReplayTTL window) call) →
      AcceptsOnce (listenSYNSequence crypto clients serverPort slotSeconds total allowLegacy)
        serverPort (.new (knockReplayTTL window)) calls := by
  have counted : (MemoryReplayCache.new (knockReplayTTL window)).Counted :=
    MemoryReplayCache.newWithLimit_counted _ _
  have lifetime := new_ttl _ (knockReplayTTL_pos window)
  constructor
  · intro apart covered
    refine synStep_acceptsOnce _ serverPort (slotSize window) (slotSize_pos window) _ counted calls
      clocked (by rw [lifetime]; exact covered) ?_
    intro early earlyMember late lateMember clientID otherID sameFields earlyVerified lateVerified
    obtain ⟨client, member, slot, rfl, fields, near⟩ := listenSYN_some earlyVerified
    obtain ⟨other, otherMember, another, rfl, otherFields, otherNear⟩ := listenSYN_some lateVerified
    obtain ⟨sameClient, rfl⟩ := apart client member other otherMember slot
      (mem_triedSlots earlyMember near) another (mem_triedSlots lateMember otherNear)
      (fields.trans (sameFields.trans otherFields.symm))
    exact ⟨sameClient, slot, near.2, otherNear.1⟩
  · intro slotSeconds total allowLegacy apart covered
    refine synStep_acceptsOnce _ serverPort (seqSlotSize slotSeconds) (seqSlotSize_pos slotSeconds) _
      counted calls clocked (by rw [lifetime]; exact covered) ?_
    intro early earlyMember late lateMember clientID otherID sameFields earlyVerified lateVerified
    obtain ⟨client, member, slot, legacy, rfl, fields, near⟩ := listenSYNSequence_some earlyVerified
    obtain ⟨other, otherMember, another, older, rfl, otherFields, otherNear⟩ :=
      listenSYNSequence_some lateVerified
    obtain ⟨sameClient, rfl⟩ := apart client member other otherMember slot
      (mem_triedSlots earlyMember near) another (mem_triedSlots lateMember otherNear) legacy older
      (fields.trans (sameFields.trans otherFields.symm))
    exact ⟨sameClient, slot, near.2, otherNear.1⟩

end Relay

/-! ## Slots that outlast the cache -/

def sampleSYNClients : List ClientSecret := [⟨ascii "alice", sampleSecret⟩]

/-- Packets with the fields of slot 10, at the given seconds. -/
def sampleSYNCalls (fields : SYNFields) (early late : Int) : List SYNCall :=
  [⟨fields, 443, ⟨early * 1000000000, early * 1000000000⟩⟩,
    ⟨fields, 443, ⟨late * 1000000000, late * 1000000000⟩⟩]

def sampleSYNFields : SYNFields :=
  computeSYNFields keyTagCrypto sampleSecret (ascii "alice") 443 10

def sampleFirstPart : SYNFields :=
  (computeSYNSeqPart keyTagCrypto sampleSecret (ascii "alice") 443 10 false 0).fields

theorem synKnocks_accepted_once_sample :
    AcceptsOnce (listenSYN keyTagCrypto sampleSYNClients 443 (30 * second)) 443
        (.new (knockReplayTTL (30 * second))) (sampleSYNCalls sampleSYNFields 300 320) ∧
      AcceptsOnce (listenSYNSequence keyTagCrypto sampleSYNClients 443 60 3 false) 443
        (.new (knockReplayTTL (30 * second))) (sampleSYNCalls sampleFirstPart 600 620) :=
  ⟨(synKnocks_accepted_once keyTagCrypto sampleSYNClients 443 (30 * second)
      (sampleSYNCalls sampleSYNFields 300 320) ⟨by decide, by decide⟩).1
      (by unfold SYNFieldsApart; decide +kernel) (by unfold SlotsCovered; decide +kernel),
    (synKnocks_accepted_once keyTagCrypto sampleSYNClients 443 (30 * second)
      (sampleSYNCalls sampleFirstPart 600 620) ⟨by decide, by decide⟩).2 60 3 false
      (by unfold FirstPartsApart; decide +kernel) (by unfold SlotsCovered; decide +kernel)⟩

/-- In slots of two minutes a packet is taken in the first second of the slot
before its own and again in the last second of the slot after it, six minutes
later; the cache has forgotten it after five.  The window sets the slot in one
case, `slot_seconds` in the other. -/
theorem synKnocks_accepted_twice :
    (SYNFieldsApart keyTagCrypto sampleSYNClients 443 (slotSize (120 * second))
        (sampleSYNCalls sampleSYNFields 1080 1439) ∧
      transcript (synStep (listenSYN keyTagCrypto sampleSYNClients 443 (120 * second)) 443)
          (.new (knockReplayTTL (120 * second))) (sampleSYNCalls sampleSYNFields 1080 1439) =
        [some (ascii "alice", sampleSYNFields), some (ascii "alice", sampleSYNFields)]) ∧
    FirstPartsApart keyTagCrypto sampleSYNClients 443 (seqSlotSize 120)
        (sampleSYNCalls sampleFirstPart 1080 1439) ∧
      transcript (synStep (listenSYNSequence keyTagCrypto sampleSYNClients 443 120 3 false) 443)
          (.new (knockReplayTTL (30 * second))) (sampleSYNCalls sampleFirstPart 1080 1439) =
        [some (ascii "alice", sampleFirstPart), some (ascii "alice", sampleFirstPart)] := by
  unfold SYNFieldsApart FirstPartsApart
  refine ⟨⟨?_, ?_⟩, ?_, ?_⟩
  · decide +kernel
  · decide +kernel
  · decide +kernel
  · decide +kernel

end Libknock.Knock
