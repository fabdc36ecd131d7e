import Libknock.Knock.Types
import Libknock.Protocol.Frame

/-!
# SYN knocks

`knock/frame.go` and the SYN parts of `knock/sequence.go`: the header fields of
a SYN packet that a client derives from a time slot, alone or as the parts of a
sequence.  Slots are integers; they are written as 64-bit words.
-/

set_option autoImplicit false

namespace Libknock.Knock

open Foundation Protocol Auth

structure SequenceOptions where
  length : Int
  slotSeconds : Int
  window : Duration
  packetInterval : Duration
  maxJitter : Duration
  maxInflightPerIP : Int
  maxTotalInflight : Int
  allowLegacySYNSeq : Bool
  deriving DecidableEq

def millisecond : Duration := 1000000

def normalizedSequenceOptions (opts : SequenceOptions) : SequenceOptions :=
  { opts with
    length := if opts.length = 0 then 3 else opts.length
    slotSeconds := if opts.slotSeconds = 0 then 30 else opts.slotSeconds
    window := if opts.window ≤ 0 then 10 * second else opts.window
    packetInterval := if opts.packetInterval ≤ 0 then 80 * millisecond else opts.packetInterval
    maxInflightPerIP := if opts.maxInflightPerIP = 0 then 8 else opts.maxInflightPerIP
    maxTotalInflight := if opts.maxTotalInflight = 0 then 4096 else opts.maxTotalInflight }

def synKnockPurpose : Bytes := ascii "syn-knock"
def synSeqLabel : Bytes := ascii "libknock/tcp-syn-seq/v1"
def legacySYNSeqLabel : Bytes := ascii "knock-proxy/tcp-syn-seq/v1"

structure SYNFields where
  sequence : UInt32
  window : UInt16
  timestamp : UInt32
  deriving DecidableEq

structure SYNSeqPart where
  port : Int
  fields : SYNFields
  deriving DecidableEq

def writeString (s : Bytes) : Bytes := putUint16 (UInt16.ofNat s.length) ++ s

def writeInt64 (v : Int) : Bytes := putUint64 (UInt64.ofInt v)

/-- A window of zero is sent as one. -/
def nonzeroWindow (window : UInt16) : UInt16 := if window = 0 then 1 else window

/-! ## Slots -/

def unix (t : Int) : Int := t / 1000000000

def slotSize (window : Duration) : Int :=
  let positive := if window ≤ 0 then 30 * second else window
  let whole := if positive < second then second else positive
  (whole / second).toInt

def slotFor (t : Int) (window : Duration) : Int := (unix t).tdiv (slotSize window)

/-- The loop over the clients and, for each, over the slots around the current
one. -/
def tryClients (clients : List ClientSecret) (current : Int)
    (accepts : ClientSecret → Int → Bool) : Option (Bytes × Int) :=
  clients.findSome? fun client =>
    ([-1, 0, 1].find? fun delta => accepts client (current + delta)).map fun delta =>
      (client.clientID, current + delta)

section Fields

variable (crypto : Crypto)

/-! ## Single knocks -/

def computeSYNTag (secret clientID : Bytes) (serverPort slot : Int) : Bytes :=
  (crypto.hmacSHA256 secret (synKnockPurpose ++ writeString clientID ++
    putUint16 (uint16OfInt serverPort) ++ writeInt64 slot)).bytes

def computeSYNFields (secret clientID : Bytes) (serverPort slot : Int) : SYNFields :=
  let tag := computeSYNTag crypto secret clientID serverPort slot
  { sequence := uint32 (slice 0 4 tag)
    window := nonzeroWindow (uint16 (slice 4 6 tag))
    timestamp := uint32 (slice 6 10 tag) }

def verifySYNFields (fields : SYNFields) (clients : List ClientSecret) (serverPort now : Int)
    (window : Duration) : Option Bytes :=
  (tryClients clients (slotFor now window) fun client slot =>
    validateClientSecret client = .ok () ∧
      computeSYNFields crypto client.secret client.clientID serverPort slot = fields).map Prod.fst

/-! ## Sequences -/

/-- The number of parts is 2 to 5, else 3. -/
def synSeqTotal (total : Int) : Nat := if total < 2 ∨ 5 < total then 3 else total.toNat

def computeSYNSeqTag (secret clientID : Bytes) (protectedPort slot : Int) (index : Nat)
    (legacyRandomPorts : Bool) : Bytes :=
  (crypto.hmacSHA256 secret ((if legacyRandomPorts then legacySYNSeqLabel else synSeqLabel) ++
    writeString clientID ++ putUint16 (uint16OfInt protectedPort) ++ writeInt64 slot ++
    putUint16 (UInt16.ofNat index))).bytes

def computeSYNSeqPart (secret clientID : Bytes) (protectedPort slot : Int)
    (legacyRandomPorts : Bool) (index : Nat) : SYNSeqPart :=
  let tag := computeSYNSeqTag crypto secret clientID protectedPort slot index legacyRandomPorts
  { port := if legacyRandomPorts then 1024 + (uint16 (slice 0 2 tag)).toNat % 64511
      else protectedPort
    fields :=
      { sequence := uint32 (slice 2 6 tag)
        window := nonzeroWindow (uint16 (slice 6 8 tag))
        timestamp := uint32 (slice 8 12 tag) } }

/-- `computeSYNSeqParts`; without legacy ports it is `ComputeSYNSeqParts`. -/
def computeSYNSeqParts (secret clientID : Bytes) (protectedPort slot total : Int)
    (legacyRandomPorts : Bool) : List SYNSeqPart :=
  (List.range (synSeqTotal total)).map
    (computeSYNSeqPart crypto secret clientID protectedPort slot legacyRandomPorts)

def synSeqPartMatches (parts : List SYNSeqPart) (index : Nat) (dstPort : Int) (fields : SYNFields) :
    Bool :=
  parts[index]? = some ⟨dstPort, fields⟩

def seqSlotSize (slotSeconds : Int) : Int := if slotSeconds ≤ 0 then 30 else slotSeconds

def seqSlotFor (now slotSeconds : Int) : Int := (unix now).tdiv (seqSlotSize slotSeconds)

def verifySYNSeqPart (fields : SYNFields) (dstPort : Int) (clients : List ClientSecret)
    (protectedPort now slotSeconds total : Int) (index : Nat) (allowLegacy : Bool) :
    Option (Bytes × Int) :=
  tryClients clients (seqSlotFor now slotSeconds) fun client slot =>
    synSeqPartMatches (computeSYNSeqParts crypto client.secret client.clientID protectedPort slot
      total false) index dstPort fields ||
    (allowLegacy && synSeqPartMatches (computeSYNSeqParts crypto client.secret client.clientID
      protectedPort slot total true) index dstPort fields)

end Fields

/-- The nonce under which a SYN knock is remembered. -/
def synReplayNonce (fields : SYNFields) (serverPort : Int) : Bytes :=
  putUint32 fields.sequence ++ putUint16 fields.window ++ putUint32 fields.timestamp ++
    putUint16 (uint16OfInt serverPort) ++ putUint16 (UInt16.ofNat synKnockPurpose.length)

def checkSYNReplay {Cache : Type} (checkAndMark : CheckAndMark Cache) (clientID : Bytes)
    (fields : SYNFields) (serverPort now : Int) (cache : Cache) : Except AuthError Unit × Cache :=
  checkAndMark clientID (synReplayNonce fields serverPort) now cache

/-! ## What the loops find -/

theorem tryClients_some {clients : List ClientSecret} {current slot : Int}
    {accepts : ClientSecret → Int → Bool} {clientID : Bytes}
    (found : tryClients clients current accepts = some (clientID, slot)) :
    ∃ client ∈ clients, client.clientID = clientID ∧ accepts client slot = true ∧
      current - 1 ≤ slot ∧ slot ≤ current + 1 := by
  obtain ⟨client, member, tried⟩ := List.exists_of_findSome?_eq_some found
  obtain ⟨delta, hit, same⟩ := Option.map_eq_some_iff.mp tried
  cases same
  have accepted := List.find?_some hit
  have near := List.mem_of_find?_eq_some hit
  refine ⟨client, member, rfl, accepted, ?_⟩
  simp only [List.mem_cons, List.not_mem_nil, or_false] at near
  omega

theorem tryClients_isSome {clients : List ClientSecret} {current slot : Int}
    {accepts : ClientSecret → Int → Bool} {client : ClientSecret} (member : client ∈ clients)
    (accepted : accepts client slot = true) (early : current - 1 ≤ slot) (late : slot ≤ current + 1) :
    (tryClients clients current accepts).isSome = true := by
  rw [tryClients, List.findSome?_isSome_iff]
  refine ⟨client, member, ?_⟩
  rw [Option.isSome_map, List.find?_isSome]
  refine ⟨slot - current, ?_, ?_⟩
  · simp only [List.mem_cons, List.not_mem_nil, or_false]
    omega
  · rw [show current + (slot - current) = slot by omega]
    exact accepted

theorem synSeqPartMatches_iff (crypto : Crypto) (secret clientID : Bytes)
    (protectedPort slot total dstPort : Int) (legacy : Bool) (index : Nat) (fields : SYNFields) :
    synSeqPartMatches (computeSYNSeqParts crypto secret clientID protectedPort slot total legacy)
        index dstPort fields = true ↔
      index < synSeqTotal total ∧
        computeSYNSeqPart crypto secret clientID protectedPort slot legacy index =
          ⟨dstPort, fields⟩ := by
  simp only [synSeqPartMatches, computeSYNSeqParts, decide_eq_true_eq, List.getElem?_map]
  by_cases inside : index < synSeqTotal total
  · simp [inside]
  · simp [inside]

theorem verifySYNSeqPart_some {crypto : Crypto} {fields : SYNFields} {dstPort : Int}
    {clients : List ClientSecret} {protectedPort now slotSeconds total : Int} {index : Nat}
    {allowLegacy : Bool} {clientID : Bytes} {slot : Int}
    (found : verifySYNSeqPart crypto fields dstPort clients protectedPort now slotSeconds total index
      allowLegacy = some (clientID, slot)) :
    ∃ client ∈ clients, client.clientID = clientID ∧
      (∃ legacy, (legacy = true → allowLegacy = true) ∧
        computeSYNSeqPart crypto client.secret client.clientID protectedPort slot legacy index =
          ⟨dstPort, fields⟩) ∧ index < synSeqTotal total ∧
      seqSlotFor now slotSeconds - 1 ≤ slot ∧ slot ≤ seqSlotFor now slotSeconds + 1 := by
  obtain ⟨client, member, named, accepted, near⟩ := tryClients_some found
  rw [Bool.or_eq_true, Bool.and_eq_true, synSeqPartMatches_iff, synSeqPartMatches_iff] at accepted
  rcases accepted with ⟨inside, part⟩ | ⟨allowed, inside, part⟩
  · exact ⟨client, member, named, ⟨false, nofun, part⟩, inside, near⟩
  · exact ⟨client, member, named, ⟨true, fun _ => allowed, part⟩, inside, near⟩

theorem slotSize_pos (window : Duration) : 0 < slotSize window := by
  have unit : second.toInt = 1000000000 := by decide
  have whole : ∀ span : Duration, second ≤ span → 0 < (span / second).toInt := by
    intro span long
    rw [Int64.le_iff_toInt_le, unit] at long
    rw [Int64.toInt_div_of_ne_right _ _ (by decide), unit, Int.tdiv_eq_ediv_of_nonneg (by omega)]
    omega
  unfold slotSize
  generalize (if window ≤ 0 then 30 * second else window) = span
  simp only
  split
  · exact whole second (Int64.le_refl second)
  · rename_i long
    exact whole _ (Int64.not_lt.mp long)

theorem seqSlotSize_pos (slotSeconds : Int) : 0 < seqSlotSize slotSeconds := by
  unfold seqSlotSize
  split
  · decide
  · omega

theorem slot_bounds {t size : Int} (modern : 0 ≤ t) (positive : 0 < size) :
    (unix t).tdiv size * size * 1000000000 ≤ t ∧
      t < ((unix t).tdiv size * size + size) * 1000000000 := by
  have seconds : 0 ≤ unix t := Int.ediv_nonneg modern (by decide)
  rw [Int.tdiv_eq_ediv_of_nonneg seconds]
  have low := Int.ediv_mul_le (unix t) (Int.ne_of_gt positive)
  have high := Int.lt_ediv_add_one_mul_self (unix t) positive
  rw [Int.add_mul, Int.one_mul] at high
  unfold unix at low high ⊢
  omega

/-- Two instants at which the same slot is tried are less than three slots
apart. -/
theorem tried_within {early late size slot : Int} (earlyModern : 0 ≤ early) (lateModern : 0 ≤ late)
    (positive : 0 < size) (earlySlot : slot ≤ (unix early).tdiv size + 1)
    (lateSlot : (unix late).tdiv size - 1 ≤ slot) : late < early + 3 * size * 1000000000 := by
  have earlyBounds := slot_bounds earlyModern positive
  have lateBounds := slot_bounds lateModern positive
  have steps : (unix late).tdiv size * size ≤ ((unix early).tdiv size + 2) * size :=
    Int.mul_le_mul_of_nonneg_right (by omega) (by omega)
  rw [Int.add_mul] at steps
  omega

end Libknock.Knock
