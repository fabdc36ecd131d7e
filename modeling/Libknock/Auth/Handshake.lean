import Libknock.Auth.Client
import Libknock.Auth.Soundness

/-!
# Completeness of the handshake

What a client builds, a server that shares its secret accepts, and both ends
report the same peer.  The server finds the sender by trial, so that nothing
else the resolver offers may open the frame is a hypothesis about the
primitives on this one frame.
-/

set_option autoImplicit false

namespace Libknock.Auth

open Foundation Protocol
open Foundation.BufferedReader (Advances)

/-! ## Resolvers -/

def SecretResolver.pairs : SecretResolver → List SecretCandidate
  | .static secrets => secrets.entries.map fun client => ⟨client.1, client.2⟩
  | .rotating secrets => secrets.entries.flatMap fun client =>
    client.2.map fun secret => ⟨client.1, secret⟩
  | .custom _ => []

theorem mem_sorted {V : Type} (clients : ClientMap V) (entry : Bytes × V) :
    entry ∈ clients.sorted ↔ entry ∈ clients.entries := by
  rw [ClientMap.sorted]
  exact List.mem_insertionSort _

variable {resolver : SecretResolver}

theorem resolveCandidates_pairs {crypto : Crypto} {frame : FrameMeta} (own : resolver.pairs ≠ []) :
    ∃ candidates, resolveCandidates crypto frame resolver = .ok candidates ∧
      ∀ candidate, candidate ∈ candidates ↔
        candidate ∈ resolver.pairs ∧ offersSecret crypto frame candidate.secret = true := by
  cases resolver with
  | static secrets =>
    refine ⟨_, rfl, ?_⟩
    intro candidate
    simp only [SecretResolver.pairs, List.mem_map, List.mem_filter, mem_sorted]
    constructor
    · rintro ⟨client, ⟨member, offered⟩, rfl⟩
      exact ⟨⟨client, member, rfl⟩, offered⟩
    · rintro ⟨⟨client, member, rfl⟩, offered⟩
      exact ⟨client, ⟨member, offered⟩, rfl⟩
  | rotating secrets =>
    refine ⟨_, rfl, ?_⟩
    intro candidate
    simp only [SecretResolver.pairs, List.mem_flatMap, List.mem_map, List.mem_filter, mem_sorted]
    constructor
    · rintro ⟨client, member, secret, ⟨listed, offered⟩, rfl⟩
      exact ⟨⟨client, member, secret, listed, rfl⟩, offered⟩
    · rintro ⟨⟨client, member, secret, listed, rfl⟩, offered⟩
      exact ⟨client, member, secret, ⟨listed, offered⟩, rfl⟩
  | custom resolve => exact absurd rfl own

/-! ## The bucket search finds the frame -/

section Search

variable (crypto : Crypto) {R K P : Type} (cfg : ServerConfig R K P)

def bucketsUpTo (bucket : Int) (buckets : List Int) : Nat :=
  (buckets.filter fun other => other ≤ bucket).length

theorem bucketsUpTo_cons {first bucket : Int} (low : first ≤ bucket) (rest : List Int) :
    bucketsUpTo bucket (first :: rest) = bucketsUpTo bucket rest + 1 := by
  simp [bucketsUpTo, low]

variable (candidates : List SecretCandidate) (h : EnvelopeV2Header) (serverPort : Int)
  (remote : NetAddr)

/-- What a candidate makes of the bytes that are pending when it is tried with a
bucket. -/
abbrev attempt (pending : Bytes) (bucket : Int) : SecretCandidate → Except AuthError PeerInfo :=
  authenticateEnvelopeV2Candidate crypto { h with bucketSize := bucket }
    (pending.take (sealedNeed h bucket)) serverPort remote

/-- A bucket that no candidate opens costs an attempt for each of them. -/
theorem searchBuckets_moves_on {first : Int} (rest : List Int) {pending : Bytes}
    (tried : BucketTried cfg h first) (small : sealedNeed h first ≤ bufferSize)
    (sent : sealedNeed h first ≤ pending.length) {attempts : Nat}
    (room : ((attempts + candidates.length : Nat) : Int) ≤ cfg.maxAuthAttempts)
    (unopened : ∀ other ∈ candidates, ∀ claimed,
      attempt crypto h serverPort remote pending first other ≠ .ok claimed)
    (reader : StreamReader) (calm : reader.err = none) (same : reader.pending = pending) :
    ∃ peeked, searchBuckets crypto cfg candidates h serverPort remote attempts (first :: rest)
          reader =
        searchBuckets crypto cfg candidates h serverPort remote (attempts + candidates.length) rest
          peeked ∧
      Advances reader peeked [] ∧ peeked.pending = pending := by
  obtain ⟨large, deep⟩ := tried
  push_cast at deep
  obtain ⟨peeked, peekRun, advanced, _⟩ := reader.peek_sent (sealedNeed h first) calm small
    (by rw [same]; exact sent)
  have exhausted := tryCandidates_of_none (attempt crypto h serverPort remote pending first)
    cfg.maxAuthAttempts attempts candidates room unopened
  refine ⟨peeked, ?_, advanced, advanced.pending_eq.trans same⟩
  rw [same] at peekRun
  unfold sealedNeed at peekRun
  unfold attempt sealedNeed at exhausted
  rw [searchBuckets, if_neg (by omega)]
  simp only [peekRun, exhausted]

theorem searchBuckets_finds (bucket : Int) (target : SecretCandidate)
    (peer : PeerInfo) (pending : Bytes) (tried : BucketTried cfg h bucket)
    (small : sealedNeed h bucket ≤ bufferSize) (sent : sealedNeed h bucket ≤ pending.length)
    (offered : target ∈ candidates)
    (opens : attempt crypto h serverPort remote pending bucket target = .ok peer)
    (only : ∀ other ∈ candidates, ∀ claimed,
      attempt crypto h serverPort remote pending bucket other = .ok claimed → other = target)
    (buckets : List Int) :
    ∀ (attempts : Nat) (reader : StreamReader), reader.err = none → reader.pending = pending →
      buckets.Pairwise (· ≤ ·) → bucket ∈ buckets →
      ((attempts + bucketsUpTo bucket buckets * candidates.length : Nat) : Int) ≤
        cfg.maxAuthAttempts →
      (∀ smaller ∈ buckets, smaller < bucket → ∀ other ∈ candidates, ∀ claimed,
        attempt crypto h serverPort remote pending smaller other ≠ .ok claimed) →
      ∃ next, searchBuckets crypto cfg candidates h serverPort remote attempts buckets reader =
          .ok (⟨target, { h with bucketSize := bucket }, peer⟩, next) ∧
        Advances reader next (pending.take (sealedNeed h bucket)) := by
  induction buckets with
  | nil =>
    intro attempts reader calm same sorted member
    cases member
  | cons first rest ih =>
    intro attempts reader calm same sorted member room silent
    rw [List.pairwise_cons] at sorted
    obtain ⟨least, sorted⟩ := sorted
    have low : first ≤ bucket := by
      rcases List.mem_cons.mp member with rfl | later
      · exact Int.le_refl _
      · exact least bucket later
    rw [bucketsUpTo_cons low, Nat.add_mul, Nat.one_mul] at room
    have roomHere : ((attempts + candidates.length : Nat) : Int) ≤ cfg.maxAuthAttempts :=
      Int.le_trans (Int.ofNat_le.mpr (by omega)) room
    by_cases hit : first = bucket
    · subst hit
      rw [searchBuckets]
      obtain ⟨large, deep⟩ := tried
      push_cast at deep
      rw [if_neg (by omega)]
      obtain ⟨peeked, peekRun, advanced, held⟩ := reader.peek_sent (sealedNeed h first) calm small
        (by rw [same]; exact sent)
      have found := tryCandidates_of_only (attempt crypto h serverPort remote pending first)
        cfg.maxAuthAttempts attempts candidates roomHere target peer offered opens only
      have step := advanced.discard_peeked (sealedNeed h first) held
      rw [same] at step
      refine ⟨peeked.discard (sealedNeed h first), ?_, step⟩
      rw [same] at peekRun
      unfold sealedNeed at peekRun ⊢
      unfold attempt sealedNeed at found
      simp only [peekRun, found]
    · have later : bucket ∈ rest := by
        rcases List.mem_cons.mp member with same | later
        · exact absurd same.symm hit
        · exact later
      have silentRest : ∀ smaller ∈ rest, smaller < bucket → ∀ other ∈ candidates, ∀ claimed,
          attempt crypto h serverPort remote pending smaller other ≠ .ok claimed :=
        fun smaller smallerMember => silent smaller (List.mem_cons_of_mem first smallerMember)
      by_cases skipped : first > cfg.maxFrameSize ∨
          first < envelopeV2PrefixLen h.hintMode + overhead
      · rw [searchBuckets, if_pos skipped]
        apply ih attempts reader calm same sorted later _ silentRest
        exact Int.le_trans (Int.ofNat_le.mpr (by omega)) room
      · have shorter : sealedNeed h first ≤ sealedNeed h bucket := by
          unfold sealedNeed
          omega
        have firstTried : BucketTried cfg h first := by
          refine ⟨by omega, ?_⟩
          push_cast
          omega
        obtain ⟨peeked, moved, advanced, peekedPending⟩ := searchBuckets_moves_on crypto cfg
          candidates h serverPort remote rest firstTried (shorter.trans small)
          (shorter.trans sent) roomHere (silent first (List.mem_cons_self ..) (by omega)) reader
          calm same
        obtain ⟨next, run, step⟩ := ih (attempts + candidates.length) peeked advanced.calm
          peekedPending sorted later
          (Int.le_trans (Int.ofNat_le.mpr (by omega)) room) silentRest
        have whole := advanced.trans step
        rw [List.nil_append] at whole
        exact ⟨next, moved.trans run, whole⟩

end Search

/-! ## What the primitives must tell apart -/

section Binding

variable (crypto : Crypto) (resolver : SecretResolver) (target : SecretCandidate)

/-- The identity hash of another client that shares the secret is different. -/
def HashesApart : Prop :=
  ∀ other ∈ resolver.pairs, other.secret = target.secret → other.clientID ≠ target.clientID →
    computeClientIDHash crypto other.secret other.clientID ≠
      computeClientIDHash crypto target.secret target.clientID

variable {resolver target} in
theorem HashesApart.eq_target (hashed : HashesApart crypto resolver target)
    (other : SecretCandidate) (listed : other ∈ resolver.pairs)
    (sameSecret : other.secret = target.secret)
    (sameHash : computeClientIDHash crypto other.secret other.clientID =
      computeClientIDHash crypto target.secret target.clientID) : other = target := by
  by_cases sameClient : other.clientID = target.clientID
  · obtain ⟨otherClient, otherSecret⟩ := other
    cases sameSecret
    cases sameClient
    rfl
  · exact absurd sameHash (hashed other listed sameSecret sameClient)

/-- The sealed part does not open under another secret of the resolver, nor, for
an envelope, when it is cut to a smaller bucket. -/
def OpensOnlyFor (buckets : List Int) (serverPort : Int) (frame : Bytes) : ClientHeader → Prop
  | .frameV1 h => ∀ other ∈ resolver.pairs, other.secret ≠ target.secret →
      openPayload crypto other.secret h (frame.drop headerSize) = none
  | .envelopeV2 h =>
    (∀ other ∈ resolver.pairs, other.secret ≠ target.secret →
      openEnvelopeV2Sealed crypto other.secret h serverPort
        (frame.drop (envelopeV2PrefixLen h.hintMode)) = none) ∧
    (∀ bucket ∈ buckets, bucket < h.bucketSize → ∀ other ∈ resolver.pairs,
      openEnvelopeV2Sealed crypto other.secret { h with bucketSize := bucket } serverPort
        ((frame.drop (envelopeV2PrefixLen h.hintMode)).take (sealedNeed h bucket)) = none)

end Binding

/-! ## The two protocols -/

section Protocols

variable (crypto : Crypto) {R K P : Type} (cfg : ServerConfig R K P)

section Frame

variable {c : ClientConfig} {serverPort now : Int} {flags : UInt8} {nonce : FixedBytes 16}
  {frame : Bytes} {h : Header} {plain : Bytes}
  (built : FrameBuilt crypto c.clientID c.secret serverPort now flags c.method c.sessionID
    c.extensions nonce frame h plain)

include built

theorem authenticateCandidate_of_built (sealing : crypto.SealsOpenly) (remote : NetAddr) :
    authenticateCandidate crypto h (sealPayload crypto c.secret h plain) serverPort remote
        ⟨c.clientID, c.secret⟩ = .ok (newClientFramePeer crypto c h serverPort now remote) := by
  have hint : computeKeyHint crypto c.secret h.nonce serverPort = h.keyHint := by
    rw [built.header]
  apply (authenticateCandidate_ok_iff crypto).mpr
  exact ⟨plain, _, ⟨built.named, built.secretSize, hint, sealing.open_seal _ _ _ _,
    decodePayload_encodePayload built.encoded, rfl⟩, rfl⟩

theorem matchFrameV1_complete (sealing : crypto.SealsOpenly) {app : Bytes}
    (fits : (frame.length : Int) ≤ cfg.maxFrameSize)
    (shared : ⟨c.clientID, c.secret⟩ ∈ resolver.pairs)
    (hashed : HashesApart crypto resolver ⟨c.clientID, c.secret⟩)
    (keyed : ∀ other ∈ resolver.pairs, other.secret ≠ c.secret →
      openPayload crypto other.secret h (frame.drop headerSize) = none) (conn : Conn)
    {reader : StreamReader} (calm : reader.err = none) (pending : reader.pending = frame ++ app) :
    ∃ next, matchFrameV1 crypto cfg resolver conn serverPort reader =
        .ok (frameV1Result crypto h serverPort ⟨c.clientID, c.secret⟩
          (newClientFramePeer crypto c h serverPort now conn.remoteAddr) next) ∧
      Advances reader next frame := by
  have accepted : FrameAccepted cfg.maxFrameSize h (sealPayload crypto c.secret h plain) :=
    built.accepted sealing.seal_length (le_frameLimit fits)
  have body : frame.drop headerSize = sealPayload crypto c.secret h plain := by
    rw [built.frame, ← encodeHeader_length h, List.drop_left]
  rw [body] at keyed
  obtain ⟨next, read, advanced⟩ := readFrame_sent cfg.maxFrameSize h
    (sealPayload crypto c.secret h plain) app accepted reader calm
    (by rw [pending, built.frame, List.append_assoc])
  rw [← built.frame] at advanced
  obtain ⟨candidates, resolved, membership⟩ := resolveCandidates_pairs (List.ne_nil_of_mem shared)
  have hint : computeKeyHint crypto c.secret h.nonce serverPort = h.keyHint := by
    rw [built.header]
  have long := built.secretSize
  have offers : offersSecret crypto (frameV1Meta h serverPort) c.secret = true := by
    have nonempty : c.secret.length ≠ 0 := by
      simp only [minSecretSize] at long
      omega
    simp [offersSecret, frameV1Meta, nonempty, hint]
  have opens := authenticateCandidate_of_built crypto built sealing conn.remoteAddr
  have first := firstCandidate_of_only _ ((membership _).mpr ⟨shared, offers⟩) opens (by
      intro other member claimed success
      obtain ⟨opened, payload, evidence, _⟩ :=
        (authenticateCandidate_ok_iff crypto).mp success
      have listed := ((membership other).mp member).1
      by_cases sameSecret : other.secret = c.secret
      · apply HashesApart.eq_target crypto hashed other listed sameSecret
        have decoded := evidence.decoded
        have own : opened = plain := by
          have := evidence.opened
          rw [sameSecret] at this
          exact Option.some.inj (this.symm.trans (sealing.open_seal _ _ _ _))
        rw [own, decodePayload_encodePayload built.encoded] at decoded
        have identity := evidence.identity
        cases decoded
        exact identity.symm
      · have := keyed other listed sameSecret
        rw [evidence.opened] at this
        cases this)
  refine ⟨next, ?_, advanced⟩
  exact (matchFrameV1_ok_iff crypto cfg).mpr
    ⟨h, _, next, candidates, _, _, read, resolved, first, rfl⟩

end Frame

theorem unopened_of_cut {h : EnvelopeV2Header} {smaller serverPort : Int} (remote : NetAddr)
    {candidate : SecretCandidate} {sealed rest : Bytes}
    (shorter : sealedNeed h smaller ≤ sealed.length)
    (closed : openEnvelopeV2Sealed crypto candidate.secret { h with bucketSize := smaller } serverPort
      (sealed.take (sealedNeed h smaller)) = none) (claimed : PeerInfo) :
    attempt crypto h serverPort remote (sealed ++ rest) smaller candidate ≠ .ok claimed := by
  intro success
  obtain ⟨opened, claim, found, _⟩ := (authenticateEnvelopeV2Candidate_ok_iff crypto).mp success
  have cut := found.opened
  rw [List.take_append_of_le_length shorter, closed] at cut
  cases cut

section Envelope

variable {c : ClientConfig} {serverPort now : Int} {flags : UInt8} {envelope : EnvelopeV2Config}
  {frame : Bytes} {h : EnvelopeV2Header} {payload : EnvelopeV2Payload} {body : Bytes}
  (built : EnvelopeBuilt crypto c.clientID c.secret serverPort now flags c.method c.sessionID
    c.extensions envelope frame h payload body)

include built

theorem offersSecret_of_built :
    offersSecret crypto (envelopeV2Meta { h with bucketSize := 0 } serverPort) c.secret = true := by
  have nonempty : c.secret.length ≠ 0 := by
    have long := built.secretSize
    simp only [minSecretSize] at long
    omega
  have mode := built.mode
  have hint := built.routeHint
  rcases built.known with routed | silent
  · rw [routed] at mode
    rw [if_pos routed] at hint
    simp [offersSecret, envelopeV2Meta, mode, nonempty, h.prefixRandom.length_eq,
      envelopeV2PrefixSize, FixedBytes.copy_bytes, hint]
  · rw [silent] at mode
    simp [offersSecret, envelopeV2Meta, mode, nonempty]

section

variable (sealing : crypto.SealsOpenly)

include sealing

theorem opensEnvelopeV2_of_built :
    OpensEnvelopeV2 crypto h (sealEnvelopeV2 crypto c.secret h serverPort body) serverPort
      ⟨c.clientID, c.secret⟩ body payload := by
  refine ⟨built.named, built.secretSize, ?_, sealing.open_seal _ _ _ _, built.parsed, ?_⟩
  · intro routed
    have hint := built.routeHint
    rw [← built.mode, if_pos routed] at hint
    exact hint.symm
  · rw [built.request]

theorem authenticateEnvelopeV2Candidate_of_built (remote : NetAddr) :
    authenticateEnvelopeV2Candidate crypto h (sealEnvelopeV2 crypto c.secret h serverPort body)
      serverPort remote ⟨c.clientID, c.secret⟩ =
        .ok (newClientEnvelopePeer crypto c h serverPort now flags remote) := by
  apply (authenticateEnvelopeV2Candidate_ok_iff crypto).mpr
  refine ⟨body, payload, opensEnvelopeV2_of_built crypto built sealing, ?_⟩
  rw [built.request]
  rfl

/-- A candidate that opens the client's envelope at its own bucket is the client. -/
theorem sender_of_built (hashed : HashesApart crypto resolver ⟨c.clientID, c.secret⟩)
    (keyed : ∀ other ∈ resolver.pairs, other.secret ≠ c.secret →
      openEnvelopeV2Sealed crypto other.secret h serverPort
        (sealEnvelopeV2 crypto c.secret h serverPort body) = none) {remote : NetAddr}
    {other : SecretCandidate} (listed : other ∈ resolver.pairs) {claimed : PeerInfo}
    (success : authenticateEnvelopeV2Candidate crypto h
      (sealEnvelopeV2 crypto c.secret h serverPort body) serverPort remote other = .ok claimed) :
    other = ⟨c.clientID, c.secret⟩ := by
  have evidence := opensEnvelopeV2_of_built crypto built sealing
  obtain ⟨opened, claim, found, _⟩ :=
    (authenticateEnvelopeV2Candidate_ok_iff crypto).mp success
  by_cases sameSecret : other.secret = c.secret
  · apply HashesApart.eq_target crypto hashed other listed sameSecret
    have own : opened = body := by
      have := found.opened
      rw [sameSecret] at this
      exact Option.some.inj (this.symm.trans evidence.opened)
    have parsed := found.parsed
    rw [own, built.parsed] at parsed
    cases parsed
    rw [← found.identity, evidence.identity]
  · have closed := keyed other listed sameSecret
    rw [found.opened] at closed
    cases closed

theorem sizes_of_built :
    frame.drop (envelopeV2PrefixLen h.hintMode) = sealEnvelopeV2 crypto c.secret h serverPort body ∧
      sealedNeed h h.bucketSize = (sealEnvelopeV2 crypto c.secret h serverPort body).length ∧
      (frame.length : Int) = h.bucketSize ∧
      (envelopeV2PrefixLen h.hintMode + body.length + overhead : Int) = h.bucketSize := by
  have whole : frame = prefixBytes h ++ sealEnvelopeV2 crypto c.secret h serverPort body := built.frame
  have sealedLength : (sealEnvelopeV2 crypto c.secret h serverPort body).length =
      body.length + overhead := sealing.seal_length _ _ _ _
  have prefixLength : (prefixBytes h).length = envelopeV2PrefixLen h.hintMode := prefixBytes_length h
  have size := built.size
  rw [← built.mode] at size
  push_cast at size
  refine ⟨?_, ?_, ?_, by omega⟩
  · rw [whole, ← prefixLength, List.drop_left]
  · rw [sealedNeed, sealedLength]
    omega
  · rw [whole, List.length_append, prefixLength, sealedLength]
    push_cast
    omega

end

theorem prefix_of_built (app : Bytes) (reader : StreamReader)
    (calm : reader.err = none) (pending : reader.pending = frame ++ app) :
    ∃ afterPrefix, readEnvelopeV2Prefix envelope.hintMode reader =
        .ok ({ h with bucketSize := 0 }, afterPrefix) ∧
      Advances reader afterPrefix (prefixBytes h) ∧
      afterPrefix.pending = sealEnvelopeV2 crypto c.secret h serverPort body ++ app := by
  have whole : frame = prefixBytes h ++ sealEnvelopeV2 crypto c.secret h serverPort body := built.frame
  obtain ⟨afterPrefix, read, prefixStep⟩ := readEnvelopeV2Prefix_sent
    envelope.hintMode { h with bucketSize := 0 }
    (sealEnvelopeV2 crypto c.secret h serverPort body ++ app)
    ⟨built.mode, built.known, by
      intro silent
      have hint := built.routeHint
      rw [silent] at hint
      exact hint, rfl⟩
    reader calm (by rw [pending, whole, List.append_assoc]; rfl)
  refine ⟨afterPrefix, read, prefixStep, ?_⟩
  have split := prefixStep.pending
  rw [pending, whole, List.append_assoc] at split
  exact (List.append_cancel_left split).symm

theorem matchEnvelopeV2_complete (sealing : crypto.SealsOpenly) {app : Bytes}
    (sameMode : cfg.envelopeV2.withDefaults.hintMode = envelope.hintMode)
    (included : h.bucketSize ∈ cfg.buckets)
    (fits : (frame.length : Int) ≤ cfg.maxFrameSize)
    (attempts : ∀ candidates, resolveCandidates crypto
        (envelopeV2Meta { h with bucketSize := 0 } serverPort) resolver = .ok candidates →
      ((bucketsUpTo h.bucketSize cfg.buckets * candidates.length : Nat) : Int) ≤
        cfg.maxAuthAttempts)
    (shared : ⟨c.clientID, c.secret⟩ ∈ resolver.pairs)
    (hashed : HashesApart crypto resolver ⟨c.clientID, c.secret⟩)
    (opensOnly : OpensOnlyFor crypto resolver ⟨c.clientID, c.secret⟩ cfg.buckets serverPort frame
      (.envelopeV2 h)) (conn : Conn) {reader : StreamReader} (calm : reader.err = none)
    (pending : reader.pending = frame ++ app) :
    ∃ next, matchEnvelopeV2 crypto cfg resolver conn serverPort reader =
        .ok (envelopeV2Result crypto serverPort ⟨⟨c.clientID, c.secret⟩, h,
          newClientEnvelopePeer crypto c h serverPort now flags conn.remoteAddr⟩ next) ∧
      Advances reader next frame := by
  have whole : frame = prefixBytes h ++ sealEnvelopeV2 crypto c.secret h serverPort body := built.frame
  obtain ⟨sealedPart, need, total, size⟩ := sizes_of_built crypto built sealing
  have range := supported_range _ (envelopeV2Buckets_supported built.bucket)
  obtain ⟨keyed, sized⟩ := opensOnly
  rw [sealedPart] at keyed sized
  -- the prefix, and who may have sent it
  obtain ⟨afterPrefix, read, prefixStep, remaining⟩ := prefix_of_built crypto built app
    reader calm pending
  rw [← sameMode] at read
  obtain ⟨candidates, resolved, membership⟩ := resolveCandidates_pairs (List.ne_nil_of_mem shared)
  have offered : (⟨c.clientID, c.secret⟩ : SecretCandidate) ∈ candidates :=
    (membership _).mpr ⟨shared, offersSecret_of_built crypto built⟩
  have room := attempts candidates resolved
  -- the sealed part at its own bucket
  have front : afterPrefix.pending.take (sealedNeed h h.bucketSize) =
      sealEnvelopeV2 crypto c.secret h serverPort body := by
    rw [remaining, need, List.take_left]
  have opens := authenticateEnvelopeV2Candidate_of_built crypto built sealing conn.remoteAddr
  rw [← front] at opens
  have only : ∀ other ∈ candidates, ∀ claimed, authenticateEnvelopeV2Candidate crypto h
      (sealEnvelopeV2 crypto c.secret h serverPort body) serverPort conn.remoteAddr other =
        .ok claimed → other = ⟨c.clientID, c.secret⟩ := by
    intro other member claimed success
    exact sender_of_built crypto built sealing hashed keyed ((membership other).mp member).1 success
  rw [← front] at only
  have silent : ∀ smaller ∈ cfg.buckets,
      smaller < h.bucketSize → ∀ other ∈ candidates, ∀ claimed,
        attempt crypto h serverPort conn.remoteAddr afterPrefix.pending smaller other ≠
          .ok claimed := by
    intro smaller member below other otherMember
    have shorter : sealedNeed h smaller ≤
        (sealEnvelopeV2 crypto c.secret h serverPort body).length := by
      rw [← need]
      unfold sealedNeed
      omega
    rw [remaining]
    exact unopened_of_cut crypto conn.remoteAddr shorter
      (sized smaller member below other ((membership other).mp otherMember).1)
  have tried : BucketTried cfg h h.bucketSize := by
    refine ⟨by omega, ?_⟩
    push_cast
    omega
  obtain ⟨next, searched, step⟩ := searchBuckets_finds crypto cfg candidates
    { h with bucketSize := 0 } serverPort conn.remoteAddr h.bucketSize ⟨c.clientID, c.secret⟩
    (newClientEnvelopePeer crypto c h serverPort now flags conn.remoteAddr) afterPrefix.pending tried
    (by show sealedNeed h h.bucketSize ≤ _; unfold sealedNeed bufferSize; omega)
    (by
      show sealedNeed h h.bucketSize ≤ _
      rw [need, remaining, List.length_append]
      omega)
    offered opens only
    cfg.buckets 0 afterPrefix prefixStep.calm rfl (envelopeV2Buckets_sorted _) included
    (by simpa using room) silent
  have few : ¬ (cfg.envelopeV2.withDefaults.hintMode = .none ∧
      candidates.length > cfg.maxAuthAttempts) := by
    rintro ⟨_, many⟩
    have counted : 1 ≤ bucketsUpTo h.bucketSize cfg.buckets :=
      List.length_pos_of_mem (List.mem_filter.mpr ⟨included, by simp⟩)
    have atLeast := Nat.le_mul_of_pos_left candidates.length counted
    have bound := Int.le_trans (Int.ofNat_le.mpr atLeast) room
    omega
  refine ⟨next, ?_, ?_⟩
  · exact (matchEnvelopeV2_ok_iff crypto cfg).mpr
      ⟨_, afterPrefix, candidates, _, next, read, resolved, List.ne_nil_of_mem offered, few, searched,
        rfl⟩
  · have both := prefixStep.trans step
    have cut : afterPrefix.pending.take (sealedNeed { h with bucketSize := 0 } h.bucketSize) =
        sealEnvelopeV2 crypto c.secret h serverPort body := front
    rw [cut] at both
    rw [whole]
    exact both

end Envelope

end Protocols

/-! ## The join -/

section Join

variable (crypto : Crypto) {R K P : Type} (cfg : ServerConfig R K P)

/-- The server's side of the agreement on protocol, port, hints and sizes. -/
def ServerTakes (resolver : SecretResolver) (c : ClientConfig) (serverPort : Int)
    (frame : Bytes) : ClientHeader → Prop
  | .frameV1 _ => .frameV1 ∈ cfg.acceptProtocols ∧ (frame.length : Int) ≤ cfg.maxFrameSize
  | .envelopeV2 h =>
    .envelopeV2 ∈ cfg.acceptProtocols ∧ (frame.length : Int) ≤ cfg.maxFrameSize ∧
    cfg.envelopeV2.withDefaults.hintMode = c.envelopeV2.withDefaults.hintMode ∧
    h.bucketSize ∈ envelopeV2Buckets cfg.envelopeV2.withDefaults.frameSizeBuckets ∧
    ∀ candidates, resolveCandidates crypto
        (envelopeV2Meta { h with bucketSize := 0 } serverPort) resolver = .ok candidates →
      ((bucketsUpTo h.bucketSize
          (envelopeV2Buckets cfg.envelopeV2.withDefaults.frameSizeBuckets) *
        candidates.length : Nat) : Int) ≤ cfg.maxAuthAttempts

theorem protocolOf_frameV1 (pending : Bytes) (first : pending.getD 0 0 = version)
    (nonempty : pending ≠ []) (accepted : .frameV1 ∈ cfg.acceptProtocols) :
    protocolOf cfg pending = some .frameV1 := by
  cases pending with
  | nil => exact absurd rfl nonempty
  | cons byte rest =>
    simp only [List.getD_cons_zero] at first
    unfold protocolOf
    rw [if_neg (fun only => only.2 accepted)]
    split
    · rfl
    · rw [if_neg (fun none => none.1 accepted)]
      exact if_pos first

theorem protocolOf_envelopeV2 (pending : Bytes) (first : pending.getD 0 0 ≠ version)
    (nonempty : pending ≠ []) (accepted : .envelopeV2 ∈ cfg.acceptProtocols) :
    protocolOf cfg pending = some .envelopeV2 := by
  cases pending with
  | nil => exact absurd rfl nonempty
  | cons byte rest =>
    simp only [List.getD_cons_zero] at first
    unfold protocolOf
    split
    · rfl
    · rw [if_neg (fun only => only.2 accepted), if_neg (fun none => none.2 accepted)]
      exact if_neg first

theorem getD_zero_append (front rest : Bytes) (nonempty : 0 < front.length) :
    (front ++ rest).getD 0 0 = front.getD 0 0 := by
  cases front with
  | nil => simp at nonempty
  | cons byte others => rfl

theorem clientFlags_requested (c : ClientConfig) :
    decide (clientFlags c &&& flagServerProof ≠ 0) = c.requireServerProof := by
  unfold clientFlags
  cases c.requireServerProof <;> decide

/-- The result the server's matching stage reaches on a client's frame. -/
theorem matchConfiguredProtocol_complete (sealing : crypto.SealsOpenly) (c : ClientConfig)
    (serverPort now : Int) (clientRemote : NetAddr) (draws : ClientDraws) (hello : ClientHello)
    (built : clientHello crypto c serverPort now clientRemote draws = .ok hello)
    (resolver : SecretResolver) (shared : ⟨c.clientID, c.secret⟩ ∈ resolver.pairs)
    (hashed : HashesApart crypto resolver ⟨c.clientID, c.secret⟩)
    (opensOnly : OpensOnlyFor crypto resolver ⟨c.clientID, c.secret⟩
      (envelopeV2Buckets cfg.envelopeV2.withDefaults.frameSizeBuckets) serverPort hello.frame
      hello.header)
    (takes : ServerTakes crypto cfg resolver c serverPort hello.frame hello.header)
    (conn : Conn) (samePort : effectivePort cfg.serverPort conn.localAddr = serverPort) (app : Bytes)
    (reader : StreamReader) (calm : reader.err = none)
    (pending : reader.pending = hello.frame ++ app) :
    ∃ result, matchConfiguredProtocol crypto cfg resolver conn reader = .ok result ∧
      result.peer = { hello.peer with remoteAddr := conn.remoteAddr } ∧
      result.serverProofRequested = c.requireServerProof ∧
      (c.requireServerProof = true →
        verifyClientProof crypto result.serverProof c.secret serverPort hello.header = true) ∧
      Advances reader result.reader hello.frame := by
  unfold clientHello at built
  simp only at built
  split at built
  · split at built
    · cases built
    rename_i frame h options
    cases built
    obtain ⟨payload, body, evidence⟩ := buildEnvelopeV2_ok options
    obtain ⟨accepted, fits, sameMode, included, attempts⟩ := takes
    simp only at pending opensOnly
    have first : frame.getD 0 0 = h.prefixRandom.bytes.getD 0 0 := by
      rw [evidence.frame, envelopeV2Frame, List.append_assoc]
      exact getD_zero_append _ _ (by rw [h.prefixRandom.length_eq]; decide)
    have nonempty : frame ≠ [] := by
      rw [evidence.frame, envelopeV2Frame]
      intro empty
      have := congrArg List.length empty
      simp [h.prefixRandom.length_eq] at this
    have chosen : protocolOf cfg reader.pending = some .envelopeV2 := by
      rw [pending, protocolOf_append cfg frame app nonempty]
      exact protocolOf_envelopeV2 cfg frame (by rw [first]; exact evidence.unlikeV1) nonempty
        accepted
    obtain ⟨middle, choice, step⟩ := chooseProtocol_sent cfg calm chosen
    obtain ⟨next, matched, advanced⟩ := matchEnvelopeV2_complete crypto cfg evidence sealing
      sameMode included fits attempts shared hashed opensOnly conn step.calm
      (by rw [← pending, step.pending, List.nil_append])
    refine ⟨_, (matchConfiguredProtocol_ok_iff crypto cfg resolver conn reader calm _).mpr
      (Or.inr ⟨middle, choice, by rw [samePort]; exact matched⟩), rfl, ?_, ?_, step.trans advanced⟩
    · exact clientFlags_requested c
    intro required
    have requested := clientFlags_requested c
    rw [required] at requested
    refine (congrArg (fun proof => verifyClientProof crypto proof c.secret serverPort _)
      (if_pos requested)).trans ?_
    exact verifyEnvelopeV2ServerProof_build crypto c.secret h serverPort evidence.port
  · split at built
    · cases built
    rename_i frame h options
    cases built
    obtain ⟨plain, evidence⟩ := buildFrame_ok options
    obtain ⟨accepted, fits⟩ := takes
    simp only at pending opensOnly
    have first : frame.getD 0 0 = version := by
      rw [evidence.frame, evidence.header]
      rfl
    have nonempty : frame ≠ [] := by
      rw [evidence.frame]
      intro empty
      have := congrArg List.length empty
      simp [headerSize] at this
    have chosen : protocolOf cfg reader.pending = some .frameV1 := by
      rw [pending, protocolOf_append cfg frame app nonempty]
      exact protocolOf_frameV1 cfg frame first nonempty accepted
    obtain ⟨middle, choice, step⟩ := chooseProtocol_sent cfg calm chosen
    obtain ⟨next, matched, advanced⟩ := matchFrameV1_complete crypto cfg evidence sealing fits
        shared hashed opensOnly conn step.calm
        (by rw [← pending, step.pending, List.nil_append])
    have flags : h.flags = clientFlags c := by rw [evidence.header]
    refine ⟨_, (matchConfiguredProtocol_ok_iff crypto cfg resolver conn reader calm _).mpr
      (Or.inl ⟨middle, choice, by rw [samePort]; exact matched⟩), rfl, ?_, ?_, step.trans advanced⟩
    · simp only [frameV1Result, flags]
      exact clientFlags_requested c
    · intro required
      have requested := clientFlags_requested c
      rw [required, ← flags] at requested
      refine (congrArg (fun proof => verifyClientProof crypto proof c.secret serverPort _)
        (if_pos requested)).trans ?_
      exact verifyServerProof_buildServerProof crypto c.secret h serverPort evidence.port

theorem clientHello_peer (c : ClientConfig) (serverPort now : Int) (remote : NetAddr)
    (draws : ClientDraws) (hello : ClientHello)
    (built : clientHello crypto c serverPort now remote draws = .ok hello) :
    hello.peer.clientID = c.clientID ∧ hello.peer.timestamp = toUnixMilli now ∧
      hello.peer.serverPort = serverPort := by
  unfold clientHello at built
  simp only at built
  split at built
  · split at built
    · cases built
    cases built
    exact ⟨rfl, rfl, rfl⟩
  · split at built
    · cases built
    cases built
    exact ⟨rfl, rfl, rfl⟩

theorem verifyClientProof_length {proof secret : Bytes} {serverPort : Int} {header : ClientHeader}
    (verified : verifyClientProof crypto proof secret serverPort header = true) :
    proof.length = serverProofSize := by
  cases header with
  | frameV1 | envelopeV2 =>
    have checks := of_decide_eq_true verified
    exact checks.1

theorem clientAuthWithInfo_accepts (client : ClientConfig) (conn : Conn) (now : Int)
    (draws : ClientDraws) (serverPort : Int)
    (port : effectivePort client.withDefaults.serverPort conn.remoteAddr = serverPort)
    (hello : ClientHello)
    (built : clientHello crypto client.withDefaults serverPort now conn.remoteAddr draws = .ok hello)
    (valid : client.withDefaults.validateRuntime = .ok ()) (writable : conn.writeError = none)
    (proof rest : Bytes) (received : conn.incoming.chunks.flatten = proof ++ rest)
    (proves : client.requireServerProof = true →
      verifyClientProof crypto proof client.secret serverPort hello.header = true) :
    clientAuthWithInfo crypto client conn now draws = (.ok hello.peer, hello.frame) := by
  have settings : client.withDefaults.requireServerProof = client.requireServerProof := rfl
  rw [clientAuthWithInfo]
  simp only [valid, port, built, writable, settings]
  cases required : client.requireServerProof with
  | false => rfl
  | true =>
    have accepted : verifyClientProof crypto proof client.withDefaults.secret serverPort
        hello.header = true := proves required
    obtain ⟨next, read⟩ := readProof_sent (verifyClientProof_length crypto accepted) received
    simp only [if_true, read, accepted]

/-- The client's frame, followed by anything and cut into any chunks, is
accepted; both ends report the same peer, and the client, reading what the
server wrote, verifies the proof it asked for and succeeds. -/
theorem handshake_completes (sealing : crypto.SealsOpenly) (client : ClientConfig)
    (clientConn : Conn) (now : Int) (draws : ClientDraws) (serverPort : Int)
    (clientPort : effectivePort client.withDefaults.serverPort clientConn.remoteAddr = serverPort)
    (hello : ClientHello)
    (built : clientHello crypto client.withDefaults serverPort now clientConn.remoteAddr draws =
      .ok hello)
    (resolver : SecretResolver) (held : cfg.secrets = some resolver)
    (shared : ⟨client.clientID, client.secret⟩ ∈ resolver.pairs)
    (hashed : HashesApart crypto resolver ⟨client.clientID, client.secret⟩)
    (opensOnly : OpensOnlyFor crypto resolver ⟨client.clientID, client.secret⟩
      (envelopeV2Buckets cfg.envelopeV2.withDefaults.frameSizeBuckets) serverPort hello.frame
      hello.header)
    (takes : ServerTakes crypto cfg resolver client.withDefaults serverPort hello.frame hello.header)
    (conn : Conn) (samePort : effectivePort cfg.serverPort conn.localAddr = serverPort) (app : Bytes)
    (stream : conn.incoming.chunks.flatten = hello.frame ++ app) (clock : Readings)
    (state : ServerState R K P) (noPolicy : cfg.policy = none) (noKnock : cfg.requireKnock = false)
    (proof : client.requireServerProof = true →
      cfg.serverProof = true ∧ conn.writeError = none)
    (fresh : WithinWindow cfg.timeWindow clock.check (toUnixMilli now))
    (unseen : (state.replay.checkAndMark cfg.customReplay client.clientID hello.peer.nonce
      clock.mark).1 = .ok ()) :
    ∃ auth final, serverAuthNormalized crypto cfg conn clock state = (.ok auth, final) ∧
      auth.peer = { hello.peer with remoteAddr := conn.remoteAddr } ∧
      (client.requireServerProof = true →
        verifyClientProof crypto auth.written client.secret serverPort hello.header = true) ∧
      ∀ (received : Source) (rest : Bytes), client.withDefaults.validateRuntime = .ok () →
        clientConn.writeError = none → received.chunks.flatten = auth.written ++ rest →
        clientAuthWithInfo crypto client { clientConn with incoming := received } now draws =
          (.ok hello.peer, hello.frame) := by
  obtain ⟨result, matched, peer, requested, verified, _⟩ :=
    matchConfiguredProtocol_complete crypto cfg sealing client.withDefaults serverPort now
      clientConn.remoteAddr draws hello built resolver shared hashed opensOnly takes conn samePort
      app (BufferedReader.new conn.incoming) rfl stream
  obtain ⟨sameClient, stamped, ported⟩ := clientHello_peer crypto client.withDefaults serverPort now
    clientConn.remoteAddr draws hello built
  have validated : validatePeerCommon cfg result.peer (effectivePort cfg.serverPort conn.localAddr)
      conn.remoteAddr result.hint clock (admittedState cfg conn state) =
        (.ok (), { admittedState cfg conn state with
          replay := (state.replay.checkAndMark cfg.customReplay client.clientID hello.peer.nonce
            clock.mark).2 }) := by
    apply (validatePeerCommon_ok_iff cfg _ _ _ _ clock _ _).mpr
    rw [peer, samePort, (admittedState_frame cfg conn state).1]
    refine ⟨fun _ => ported, ?_, _, ?_, rfl⟩
    · simp only [stamped]
      exact fresh
    · simp only [sameClient]
      exact Prod.ext unseen rfl
  have asked : result.serverProofRequested = client.requireServerProof := requested
  obtain ⟨written, wrote, proves⟩ : ∃ written, writeServerProof cfg conn result = .ok written ∧
      (client.requireServerProof = true →
        verifyClientProof crypto written client.secret serverPort hello.header = true) := by
    cases required : client.requireServerProof with
    | false =>
      rw [required] at asked
      exact ⟨[], (writeServerProof_ok_iff cfg conn result []).mpr (Or.inl ⟨asked, rfl⟩), by simp⟩
    | true =>
      rw [required] at asked
      obtain ⟨configured, writable⟩ := proof required
      exact ⟨result.serverProof, (writeServerProof_ok_iff cfg conn result _).mpr
        (Or.inr ⟨asked, configured, writable, rfl⟩), fun _ => verified required⟩
  refine ⟨⟨result.reader, result.peer, written⟩, _,
    (serverAuthNormalized_ok_iff crypto cfg conn clock state _ _).mpr
      ⟨resolver, result, _, _, held, ?_, matched, validated,
        (consumeKnock_ok_iff cfg conn _ clock _ _).mpr (Or.inl ⟨noKnock, rfl⟩), wrote, rfl, rfl, rfl⟩,
    peer, proves, ?_⟩
  · simp only [policyAllows, noPolicy]
  · intro received rest valid writable answered
    exact clientAuthWithInfo_accepts crypto client { clientConn with incoming := received } now draws
      serverPort clientPort hello built valid writable written rest answered proves

end Join

def sampleClient : ClientConfig where
  clientID := ascii "client"
  secret := sampleSecret
  serverPort := 443
  authTimeout := defaultAuthTimeout
  protocol := .envelopeV2
  envelopeV2 := ⟨.routeHint, [128, 192], .none⟩
  method := ascii "tcp"
  sessionID := ascii "s"
  extensions := []
  requireServerProof := true

def sampleDraws : ClientDraws :=
  ⟨sampleNonce, [FixedBytes.copy 24 [9]], 1, fun count => FixedBytes.copy count []⟩

def sampleHello : ClientHello :=
  (clientHello keyTagCrypto sampleClient.withDefaults 443 1000000000 (.tcp [] 443)
    sampleDraws).toOption.get (by decide +kernel)

theorem eq_ok_get {ε α : Type} (outcome : Except ε α) (success : outcome.toOption.isSome = true) :
    outcome = .ok (outcome.toOption.get success) := by
  cases outcome with
  | error failure => cases success
  | ok value => rfl

/-- A server that also takes frame v1 tries the smaller bucket first, finds the
sender in the drawn one, and its answer passes the client's check. -/
theorem handshake_completes_sample :
    ∃ auth final, serverAuthNormalized keyTagCrypto
        (sampleServer [.frameV1, .envelopeV2] false true)
        (sampleConn (sampleHello.frame ++ ascii "GET")) sampleClock
        sampleState = (.ok auth, final) ∧
      auth.peer.clientID = ascii "client" ∧
      clientAuthWithInfo keyTagCrypto sampleClient ⟨.nil, .tcp [] 443, Source.ofChunk auth.written,
        none⟩ 1000000000 sampleDraws = (.ok sampleHello.peer, sampleHello.frame) := by
  have built := eq_ok_get (clientHello keyTagCrypto sampleClient.withDefaults 443 1000000000
    (.tcp [] 443) sampleDraws) (by decide +kernel)
  obtain ⟨auth, final, run, peer, _, agreed⟩ := handshake_completes keyTagCrypto
    (sampleServer [.frameV1, .envelopeV2] false true) keyTagCrypto_sealsOpenly sampleClient
    ⟨.nil, .tcp [] 443, Source.ofChunk [], none⟩ 1000000000 sampleDraws 443 rfl sampleHello built
    (.static ⟨[(ascii "client", sampleSecret)], by simp⟩) rfl (by decide +kernel)
    (by unfold HashesApart; decide +kernel)
    ⟨by decide +kernel, by decide +kernel⟩
    ⟨by decide +kernel, by decide +kernel, by decide +kernel, by decide +kernel, by
      intro candidates resolved
      cases resolved
      decide +kernel⟩
    (sampleConn (sampleHello.frame ++ ascii "GET")) rfl (ascii "GET")
    (by decide +kernel) sampleClock sampleState rfl rfl
    (fun _ => ⟨rfl, rfl⟩) (by unfold WithinWindow; decide +kernel) (by decide +kernel)
  refine ⟨auth, final, run, ?_, agreed (Source.ofChunk auth.written) [] (by decide +kernel) rfl ?_⟩
  · rw [peer]
    decide +kernel
  · simp [Source.ofChunk_flatten]

end Libknock.Auth
