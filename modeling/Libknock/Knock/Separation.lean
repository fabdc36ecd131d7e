import Libknock.Foundation.Fields
import Libknock.Knock.Frame
import Libknock.Knock.SYN

/-!
# What is hashed and what is bound

Ten purposes share the secret of a client as a key of HMAC.  Each feeds it a
label of its own and then its arguments.  No label begins another and every
argument but the last has a known width, so that equal strings come from equal
purposes and arguments.  The associated data of the two sealed formats are read
off in the same way.
-/

set_option autoImplicit false

namespace Libknock.Knock

open Foundation Protocol Auth

/-! ## Purposes -/

inductive Purpose where
  | keyHint
  | routeHint
  | knockKeyHint
  | clientIDHash
  | knockClientIDHash
  | serverProof
  | envelopeV2ServerProof
  | synTag
  | synSeqTag
  | legacySYNSeqTag
  deriving DecidableEq

def Purpose.label : Purpose → Bytes
  | .keyHint => ascii "hint"
  | .routeHint => ascii "libknock tcp-auth hint v2"
  | .knockKeyHint => ascii "libknock udp-knock hint v1"
  | .clientIDHash => ascii "client-id"
  | .knockClientIDHash => ascii "libknock client-id v1"
  | .serverProof => ascii "server-proof-v1"
  | .envelopeV2ServerProof => ascii "server-proof-v2"
  | .synTag => synKnockPurpose
  | .synSeqTag => synSeqLabel
  | .legacySYNSeqTag => legacySYNSeqLabel

def Purpose.all : List Purpose :=
  [.keyHint, .routeHint, .knockKeyHint, .clientIDHash, .knockClientIDHash, .serverProof,
    .envelopeV2ServerProof, .synTag, .synSeqTag, .legacySYNSeqTag]

theorem Purpose.mem_all (purpose : Purpose) : purpose ∈ Purpose.all := by
  cases purpose <;> decide

theorem Purpose.label_free (left right : Purpose) (begins : left.label <+: right.label) :
    left = right := by
  have table : ∀ left ∈ Purpose.all, ∀ right ∈ Purpose.all,
      left.label <+: right.label → left = right := by
    decide +kernel
  exact table left left.mem_all right right.mem_all begins

/-- One use of the key, with its arguments. -/
inductive KeyedHash where
  | keyHint (nonce : FixedBytes 16) (serverPort : Int)
  | routeHint (prefixRandom : FixedBytes 24) (serverPort : Int)
  | knockKeyHint (nonce : FixedBytes 16) (serverPort : Int)
  | clientIDHash (clientID : Bytes)
  | knockClientIDHash (clientID : Bytes)
  | serverProof (nonce : FixedBytes 16) (keyHint : UInt64) (serverPort : Int)
  | envelopeV2ServerProof (prefixRandom : FixedBytes 24) (routeHint : UInt64) (serverPort : Int)
  | synTag (clientID : Bytes) (serverPort slot : Int)
  | synSeqTag (clientID : Bytes) (protectedPort slot : Int) (index : Nat)
  | legacySYNSeqTag (clientID : Bytes) (protectedPort slot : Int) (index : Nat)
  deriving DecidableEq

namespace KeyedHash

def purpose : KeyedHash → Purpose
  | keyHint _ _ => .keyHint
  | routeHint _ _ => .routeHint
  | knockKeyHint _ _ => .knockKeyHint
  | clientIDHash _ => .clientIDHash
  | knockClientIDHash _ => .knockClientIDHash
  | serverProof _ _ _ => .serverProof
  | envelopeV2ServerProof _ _ _ => .envelopeV2ServerProof
  | synTag _ _ _ => .synTag
  | synSeqTag _ _ _ _ => .synSeqTag
  | legacySYNSeqTag _ _ _ _ => .legacySYNSeqTag

def synBody (clientID : Bytes) (port slot : Int) (rest : Bytes) : Bytes :=
  writeString clientID ++ (putUint16 (uint16OfInt port) ++ (writeInt64 slot ++ rest))

def body : KeyedHash → Bytes
  | keyHint nonce serverPort => nonce.bytes ++ putUint16 (uint16OfInt serverPort)
  | routeHint prefixRandom serverPort => prefixRandom.bytes ++ putUint16 (uint16OfInt serverPort)
  | knockKeyHint nonce serverPort => nonce.bytes ++ putUint16 (uint16OfInt serverPort)
  | clientIDHash clientID => clientID
  | knockClientIDHash clientID => clientID
  | serverProof nonce hint serverPort =>
    nonce.bytes ++ (putUint64 hint ++ putUint16 (uint16OfInt serverPort))
  | envelopeV2ServerProof prefixRandom hint serverPort =>
    prefixRandom.bytes ++ (putUint64 hint ++ putUint16 (uint16OfInt serverPort))
  | synTag clientID serverPort slot => synBody clientID serverPort slot []
  | synSeqTag clientID protectedPort slot index
  | legacySYNSeqTag clientID protectedPort slot index =>
    synBody clientID protectedPort slot (putUint16 (UInt16.ofNat index))

def hashes : KeyedHash → Bool
  | keyHint _ serverPort | routeHint _ serverPort | serverProof _ _ serverPort
  | envelopeV2ServerProof _ _ serverPort => portInRange serverPort
  | knockKeyHint _ serverPort => 1 ≤ serverPort ∧ serverPort ≤ 65535
  | _ => true

def fed (use : KeyedHash) : Option Bytes :=
  if use.hashes then some (use.purpose.label ++ use.body) else none

/-- The ranges of the arguments: client IDs as long as the configurations allow,
slots that fit a 64-bit word. -/
def InRange : KeyedHash → Prop
  | keyHint _ serverPort | routeHint _ serverPort | knockKeyHint _ serverPort
  | serverProof _ _ serverPort | envelopeV2ServerProof _ _ serverPort =>
    0 ≤ serverPort ∧ serverPort ≤ 65535
  | clientIDHash clientID | knockClientIDHash clientID => clientID.length ≤ 65535
  | synTag clientID serverPort slot =>
    clientID.length ≤ 65535 ∧ (0 ≤ serverPort ∧ serverPort ≤ 65535) ∧
      (-2 ^ 63 ≤ slot ∧ slot < 2 ^ 63)
  | synSeqTag clientID protectedPort slot index
  | legacySYNSeqTag clientID protectedPort slot index =>
    clientID.length ≤ 65535 ∧ (0 ≤ protectedPort ∧ protectedPort ≤ 65535) ∧
      (-2 ^ 63 ≤ slot ∧ slot < 2 ^ 63) ∧ index ≤ 65535

end KeyedHash

/-! ## The functions of the source -/

/-- Each function that uses the key is HMAC of what its purpose feeds, or has a
fixed result where nothing is fed. -/
structure HashesFed (crypto : Crypto) (secret : Bytes) : Prop where
  keyHint : ∀ nonce serverPort, computeKeyHint crypto secret nonce serverPort =
    (KeyedHash.keyHint nonce serverPort).fed.elim 0 (crypto.hmacTrunc64 secret)
  routeHint : ∀ prefixRandom serverPort,
    computeEnvelopeV2RouteHint crypto secret prefixRandom serverPort =
      (KeyedHash.routeHint prefixRandom serverPort).fed.elim 0 (crypto.hmacTrunc64 secret)
  knockKeyHint : ∀ nonce serverPort, computeKnockKeyHint crypto secret nonce serverPort =
    (KeyedHash.knockKeyHint nonce serverPort).fed.elim 0 (crypto.hmacTrunc64 secret)
  clientIDHash : ∀ clientID, some (computeClientIDHash crypto secret clientID) =
    (KeyedHash.clientIDHash clientID).fed.map (crypto.hmacTrunc128 secret)
  knockClientIDHash : ∀ clientID, some (computeKnockClientIDHash crypto secret clientID) =
    (KeyedHash.knockClientIDHash clientID).fed.map (crypto.hmacTrunc128 secret)
  serverProof : ∀ h serverPort, computeServerProof crypto secret h serverPort =
    (KeyedHash.serverProof h.nonce h.keyHint serverPort).fed.elim []
      fun data => (crypto.hmacSHA256 secret data).bytes
  envelopeV2ServerProof : ∀ h serverPort, computeEnvelopeV2ServerProof crypto secret h serverPort =
    (KeyedHash.envelopeV2ServerProof h.prefixRandom h.routeHint serverPort).fed.elim []
      fun data => (crypto.hmacSHA256 secret data).bytes
  synTag : ∀ clientID serverPort slot, some (computeSYNTag crypto secret clientID serverPort slot) =
    (KeyedHash.synTag clientID serverPort slot).fed.map
      fun data => (crypto.hmacSHA256 secret data).bytes
  synSeqTag : ∀ clientID protectedPort slot index legacy,
    some (computeSYNSeqTag crypto secret clientID protectedPort slot index legacy) =
      (if legacy then KeyedHash.legacySYNSeqTag clientID protectedPort slot index
        else KeyedHash.synSeqTag clientID protectedPort slot index).fed.map
        fun data => (crypto.hmacSHA256 secret data).bytes

theorem hashesFed (crypto : Crypto) (secret : Bytes) : HashesFed crypto secret where
  keyHint nonce serverPort := by
    unfold computeKeyHint KeyedHash.fed KeyedHash.hashes
    split <;> simp [KeyedHash.purpose, KeyedHash.body, Purpose.label]
  routeHint prefixRandom serverPort := by
    unfold computeEnvelopeV2RouteHint KeyedHash.fed KeyedHash.hashes
    split <;> simp [KeyedHash.purpose, KeyedHash.body, Purpose.label]
  knockKeyHint nonce serverPort := by
    unfold computeKnockKeyHint KeyedHash.fed KeyedHash.hashes
    split
    · rename_i outside
      rw [if_neg]
      · rfl
      · rw [decide_eq_true_eq]
        omega
    · rename_i inside
      rw [if_pos]
      · simp [KeyedHash.purpose, KeyedHash.body, Purpose.label]
      · rw [decide_eq_true_eq]
        omega
  clientIDHash clientID := rfl
  knockClientIDHash clientID := rfl
  serverProof h serverPort := by
    unfold computeServerProof KeyedHash.fed KeyedHash.hashes
    split <;> simp [KeyedHash.purpose, KeyedHash.body, Purpose.label]
  envelopeV2ServerProof h serverPort := by
    unfold computeEnvelopeV2ServerProof KeyedHash.fed KeyedHash.hashes
    split <;> simp [KeyedHash.purpose, KeyedHash.body, Purpose.label]
  synTag clientID serverPort slot := by
    simp [computeSYNTag, KeyedHash.fed, KeyedHash.hashes, KeyedHash.purpose, KeyedHash.body,
      KeyedHash.synBody, Purpose.label]
  synSeqTag clientID protectedPort slot index legacy := by
    cases legacy with
    | false | true => simp [computeSYNSeqTag, KeyedHash.fed, KeyedHash.hashes, KeyedHash.purpose,
        KeyedHash.body, KeyedHash.synBody, Purpose.label]

/-! ## Equal strings -/

theorem port_inj {left right : Int} (leftRange : 0 ≤ left ∧ left ≤ 65535)
    (rightRange : 0 ≤ right ∧ right ≤ 65535)
    (same : putUint16 (uint16OfInt left) = putUint16 (uint16OfInt right)) : left = right := by
  have words := congrArg uint16 same
  rw [uint16_putUint16, uint16_putUint16] at words
  exact uint16OfInt_inj leftRange.1 leftRange.2 rightRange.1 rightRange.2 words

variable {rightRest leftRest : Bytes} {rightPort leftPort : Int}

theorem writeString_append_inj {left right : Bytes} (leftFits : left.length ≤ 65535)
    (rightFits : right.length ≤ 65535)
    (same : writeString left ++ leftRest = writeString right ++ rightRest) :
    left = right ∧ leftRest = rightRest := by
  simp only [writeString, List.append_assoc] at same
  obtain ⟨lengths, rests⟩ := putUint16_append_inj same
  exact List.append_inj rests (uint16_ofNat_inj leftFits rightFits lengths)

theorem KeyedHash.synBody_inj {leftID rightID : Bytes} {leftSlot rightSlot : Int}
    (leftFits : leftID.length ≤ 65535) (rightFits : rightID.length ≤ 65535)
    (leftRange : 0 ≤ leftPort ∧ leftPort ≤ 65535) (rightRange : 0 ≤ rightPort ∧ rightPort ≤ 65535)
    (leftWord : -2 ^ 63 ≤ leftSlot ∧ leftSlot < 2 ^ 63)
    (rightWord : -2 ^ 63 ≤ rightSlot ∧ rightSlot < 2 ^ 63)
    (same : synBody leftID leftPort leftSlot leftRest = synBody rightID rightPort rightSlot rightRest) :
    leftID = rightID ∧ leftPort = rightPort ∧ leftSlot = rightSlot ∧ leftRest = rightRest := by
  obtain ⟨clients, afterID⟩ := writeString_append_inj leftFits rightFits same
  obtain ⟨ports, afterPort⟩ := putUint16_append_inj afterID
  obtain ⟨slots, rests⟩ := putUint64_append_inj afterPort
  exact ⟨clients, uint16OfInt_inj leftRange.1 leftRange.2 rightRange.1 rightRange.2 ports,
    uint64_ofInt_inj leftWord.1 leftWord.2 rightWord.1 rightWord.2 slots, rests⟩

theorem KeyedHash.body_inj {left right : KeyedHash} (purposes : left.purpose = right.purpose)
    (leftRange : left.InRange) (rightRange : right.InRange) (same : left.body = right.body) :
    left = right := by
  cases left <;> cases right <;> cases purposes
  case keyHint.keyHint | knockKeyHint.knockKeyHint =>
    obtain ⟨rfl, ports⟩ := FixedBytes.append_inj same
    rw [port_inj leftRange rightRange ports]
  case routeHint.routeHint =>
    obtain ⟨rfl, ports⟩ := FixedBytes.append_inj same
    rw [port_inj leftRange rightRange ports]
  case clientIDHash.clientIDHash | knockClientIDHash.knockClientIDHash =>
    exact congrArg _ same
  case serverProof.serverProof =>
    obtain ⟨rfl, hints⟩ := FixedBytes.append_inj same
    obtain ⟨rfl, ports⟩ := putUint64_append_inj hints
    rw [port_inj leftRange rightRange ports]
  case envelopeV2ServerProof.envelopeV2ServerProof =>
    obtain ⟨rfl, hints⟩ := FixedBytes.append_inj same
    obtain ⟨rfl, ports⟩ := putUint64_append_inj hints
    rw [port_inj leftRange rightRange ports]
  case synTag.synTag =>
    obtain ⟨rfl, rfl, rfl, _⟩ := synBody_inj leftRange.1 rightRange.1 leftRange.2.1 rightRange.2.1
      leftRange.2.2 rightRange.2.2 same
    rfl
  case synSeqTag.synSeqTag | legacySYNSeqTag.legacySYNSeqTag =>
    obtain ⟨rfl, rfl, rfl, indexes⟩ := synBody_inj leftRange.1 rightRange.1 leftRange.2.1
      rightRange.2.1 leftRange.2.2.1 rightRange.2.2.1 same
    have words := congrArg uint16 indexes
    rw [uint16_putUint16, uint16_putUint16] at words
    rw [uint16_ofNat_inj leftRange.2.2.2 rightRange.2.2.2 words]

theorem KeyedHash.fed_inj {left right : KeyedHash} (leftRange : left.InRange)
    (rightRange : right.InRange) {data : Bytes} (leftFed : left.fed = some data)
    (rightFed : right.fed = some data) : left = right := by
  unfold fed at leftFed rightFed
  split at leftFed
  · split at rightFed
    · have same := (Option.some.inj leftFed).trans (Option.some.inj rightFed).symm
      obtain ⟨purposes, bodies⟩ := label_append_inj Purpose.label_free same
      exact body_inj purposes leftRange rightRange bodies
    · cases rightFed
  · cases leftFed

/-! ## Associated data -/

structure BoundHeader (h : EnvelopeV2Header) : Prop where
  known : h.hintMode = .routeHint ∨ h.hintMode = .none
  low : 0 ≤ h.bucketSize
  high : h.bucketSize ≤ 65535

theorem hintBytes_append_inj {left right : EnvelopeV2Header} (leftBound : BoundHeader left)
    (rightBound : BoundHeader right) (rests : leftRest.length = rightRest.length)
    (same : hintBytes left.hintMode left.routeHint ++ leftRest =
      hintBytes right.hintMode right.routeHint ++ rightRest) :
    left.hintMode = right.hintMode ∧
      (left.hintMode = .routeHint → left.routeHint = right.routeHint) ∧ leftRest = rightRest := by
  have lengths := congrArg List.length same
  rw [List.length_append, List.length_append, rests] at lengths
  rcases leftBound.known with leftMode | leftMode
  · rcases rightBound.known with rightMode | rightMode
    · simp only [hintBytes, leftMode, rightMode, if_true] at same
      obtain ⟨hints, after⟩ := putUint64_append_inj same
      exact ⟨leftMode.trans rightMode.symm, fun _ => hints, after⟩
    · simp [hintBytes, leftMode, rightMode] at lengths
  · rcases rightBound.known with rightMode | rightMode
    · simp [hintBytes, leftMode, rightMode] at lengths
    · refine ⟨leftMode.trans rightMode.symm, ?_, ?_⟩
      · rw [leftMode]
        intro hinted
        cases hinted
      · simpa [hintBytes, leftMode, rightMode] using same

theorem envelopeV2AAD_inj {left right : EnvelopeV2Header} (leftBound : BoundHeader left)
    (rightBound : BoundHeader right) (leftRange : 0 ≤ leftPort ∧ leftPort ≤ 65535)
    (rightRange : 0 ≤ rightPort ∧ rightPort ≤ 65535)
    (same : envelopeV2AAD left leftPort = envelopeV2AAD right rightPort) :
    left.prefixRandom = right.prefixRandom ∧ left.hintMode = right.hintMode ∧
      (left.hintMode = .routeHint → left.routeHint = right.routeHint) ∧
      left.bucketSize = right.bucketSize ∧ leftPort = rightPort := by
  simp only [envelopeV2AAD, List.append_assoc] at same
  obtain ⟨prefixes, afterPrefix⟩ := FixedBytes.append_inj same
  obtain ⟨modes, hints, afterHint⟩ := hintBytes_append_inj leftBound rightBound (by simp) afterPrefix
  obtain ⟨buckets, afterBucket⟩ := putUint16_append_inj afterHint
  obtain ⟨ports, _⟩ := putUint16_append_inj afterBucket
  exact ⟨prefixes, modes, hints,
    uint16OfInt_inj leftBound.low leftBound.high rightBound.low rightBound.high buckets,
    uint16OfInt_inj leftRange.1 leftRange.2 rightRange.1 rightRange.2 ports⟩

theorem knockAAD_inj {left right : KnockFrameHeader} (leftRange : 0 ≤ leftPort ∧ leftPort ≤ 65535)
    (rightRange : 0 ≤ rightPort ∧ rightPort ≤ 65535)
    (same : knockAAD left leftPort = knockAAD right rightPort) :
    left = right ∧ leftPort = rightPort := by
  obtain ⟨nonce, keyHint, sealedLen, flags, reserved⟩ := left
  obtain ⟨otherNonce, otherHint, otherLen, otherFlags, otherReserved⟩ := right
  simp only [knockAAD, encodeKnockHeader, List.append_assoc] at same
  obtain ⟨rfl, afterNonce⟩ := FixedBytes.append_inj same
  obtain ⟨rfl, afterHint⟩ := putUint64_append_inj afterNonce
  obtain ⟨rfl, afterLen⟩ := putUint16_append_inj afterHint
  simp only [List.cons_append, List.nil_append, List.cons.injEq, true_and] at afterLen
  obtain ⟨rfl, rfl, ports⟩ := afterLen
  exact ⟨rfl, port_inj leftRange rightRange ports⟩

/-- Purposes that share a client's secret never hash the same string, and each
sealed header is bound by its associated data. -/
theorem keyedStrings_separated :
    (∀ crypto secret, HashesFed crypto secret) ∧
    (∀ left right : KeyedHash, left.InRange → right.InRange → ∀ data, left.fed = some data →
      right.fed = some data → left = right) ∧
    (∀ (left right : EnvelopeV2Header) (leftPort rightPort : Int), BoundHeader left →
      BoundHeader right → 0 ≤ leftPort ∧ leftPort ≤ 65535 → 0 ≤ rightPort ∧ rightPort ≤ 65535 →
      envelopeV2AAD left leftPort = envelopeV2AAD right rightPort →
      left.prefixRandom = right.prefixRandom ∧ left.hintMode = right.hintMode ∧
        (left.hintMode = .routeHint → left.routeHint = right.routeHint) ∧
        left.bucketSize = right.bucketSize ∧ leftPort = rightPort) ∧
    (∀ (left right : KnockFrameHeader) (leftPort rightPort : Int),
      0 ≤ leftPort ∧ leftPort ≤ 65535 → 0 ≤ rightPort ∧ rightPort ≤ 65535 →
      knockAAD left leftPort = knockAAD right rightPort → left = right ∧ leftPort = rightPort) := by
  refine ⟨hashesFed, ?_, ?_, ?_⟩
  · intro left right leftRange rightRange data leftFed rightFed
    exact KeyedHash.fed_inj leftRange rightRange leftFed rightFed
  · intro left right leftPort rightPort leftBound rightBound leftRange rightRange same
    exact envelopeV2AAD_inj leftBound rightBound leftRange rightRange same
  · intro left right leftPort rightPort leftRange rightRange same
    exact knockAAD_inj leftRange rightRange same

/-- One client ID hashed for the two protocols, and one prefix bound with and
without a hint. -/
theorem keyedStrings_separated_sample :
    (KeyedHash.clientIDHash (ascii "alice")).fed ≠
        (KeyedHash.knockClientIDHash (ascii "alice")).fed ∧
      envelopeV2AAD ⟨FixedBytes.copy 24 [], 0, 128, .routeHint⟩ 443 ≠
        envelopeV2AAD ⟨FixedBytes.copy 24 [], 0, 128, .none⟩ 443 ∧
      knockAAD ⟨FixedBytes.copy 16 [], 0, 64, 0, 0⟩ 443 ≠
        knockAAD ⟨FixedBytes.copy 16 [], 0, 64, 1, 0⟩ 443 := by
  refine ⟨?_, ?_, ?_⟩
  · intro same
    have uses := keyedStrings_separated.2.1 (.clientIDHash (ascii "alice"))
      (.knockClientIDHash (ascii "alice")) (by decide +kernel : _ ≤ _) (by decide +kernel : _ ≤ _) _
      same rfl
    cases uses
  · intro same
    have fields := keyedStrings_separated.2.2.1 _ _ 443 443 ⟨Or.inl rfl, by decide, by decide⟩
      ⟨Or.inr rfl, by decide, by decide⟩ (by decide) (by decide) same
    cases fields.2.1
  · intro same
    have headers := keyedStrings_separated.2.2.2 _ _ 443 443 (by decide) (by decide) same
    cases headers.1

end Libknock.Knock
