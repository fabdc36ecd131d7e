import Libknock.Auth.Outcome

/-!
# Soundness of acceptance

A connection is handed to the application only after its stream has been
checked in full: which bytes were opened, under which secret and associated
data, and which of the server's gates were passed.  Nothing is assumed of the
primitives.
-/

set_option autoImplicit false

namespace Libknock.Auth

open Foundation Protocol
open Foundation.BufferedReader (Advances)

variable (crypto : Crypto) {R K P : Type} (cfg : ServerConfig R K P)

/-! ## The bucket search -/

abbrev ServerConfig.buckets : List Int :=
  envelopeV2Buckets cfg.envelopeV2.withDefaults.frameSizeBuckets

def sealedNeed (h : EnvelopeV2Header) (bucket : Int) : Nat :=
  (bucket - envelopeV2PrefixLen h.hintMode).toNat

def BucketTried (h : EnvelopeV2Header) (bucket : Int) : Prop :=
  bucket ≤ cfg.maxFrameSize ∧ ((envelopeV2PrefixLen h.hintMode + overhead : Nat) : Int) ≤ bucket

theorem searchBuckets_ok (candidates : List SecretCandidate) (h : EnvelopeV2Header)
    (serverPort : Int) (remote : NetAddr) (attempts : Nat) (buckets : List Int)
    (reader next : StreamReader) (found : EnvelopeMatch) (calm : reader.err = none)
    (success : searchBuckets crypto cfg candidates h serverPort remote attempts buckets reader =
      .ok (found, next)) :
    ∃ bucket ∈ buckets, BucketTried cfg h bucket ∧
      found.header = { h with bucketSize := bucket } ∧ found.candidate ∈ candidates ∧
      sealedNeed h bucket ≤ reader.pending.length ∧
      authenticateEnvelopeV2Candidate crypto found.header
        (reader.pending.take (sealedNeed h bucket)) serverPort remote found.candidate =
          .ok found.peer ∧
      Advances reader next (reader.pending.take (sealedNeed h bucket)) := by
  induction buckets generalizing attempts reader with
  | nil => cases success
  | cons bucket rest ih =>
    rw [searchBuckets] at success
    split at success
    · obtain ⟨other, member, facts⟩ := ih attempts reader calm success
      exact ⟨other, List.mem_cons_of_mem bucket member, facts⟩
    · rename_i tried
      simp only at success
      split at success
      · cases success
      rename_i sealed peeked peekRun
      obtain ⟨sent, sealedEq, advanced, held⟩ :=
        BufferedReader.peek_ok (sealedNeed h bucket) calm peekRun
      have same := advanced.pending_eq
      split at success
      · cases success
      · rename_i made _
        obtain ⟨other, member, facts⟩ := ih made peeked advanced.calm success
        obtain ⟨otherTried, header, candidate, length, opens, step⟩ := facts
        rw [same] at length opens step
        refine ⟨other, List.mem_cons_of_mem bucket member, otherTried, header, candidate, length,
          opens, ?_⟩
        simpa using advanced.trans step
      · rename_i candidate peer hit
        cases success
        obtain ⟨candidateMember, opens⟩ := tryCandidates_hit _ _ _ _ _ _ hit
        push Not at tried
        refine ⟨bucket, List.mem_cons_self .., ⟨tried.1, by exact_mod_cast tried.2⟩, rfl,
          candidateMember, sent, ?_, ?_⟩
        · rw [← sealedEq]
          exact opens
        · exact advanced.discard_peeked (sealedNeed h bucket) held

/-! ## What was verified -/

/-- The call has verified a frame v1 at the start of its stream. -/
structure VerifiedFrameV1 (conn : Conn) (clock : Readings) (auth : AuthenticatedConn)
    (serverPort : Int) (candidates : List SecretCandidate) (h : Header) (sealed rest : Bytes)
    (candidate : SecretCandidate) (plain : Bytes) (payload : Payload) : Prop where
  accepted : .frameV1 ∈ cfg.acceptProtocols
  stream : conn.incoming.chunks.flatten = encodeHeader h ++ (sealed ++ rest)
  offered : candidate ∈ candidates
  client : auth.peer.clientID = candidate.clientID
  nonce : auth.peer.nonce = h.nonce.bytes
  secretSize : minSecretSize ≤ candidate.secret.length
  opened : crypto.aeadOpen (deriveAEADKey crypto candidate.secret h) (aeadNonce h) sealed
    (conn.incoming.chunks.flatten.take headerSize) = some plain
  keyHint : h.keyHint = computeKeyHint crypto candidate.secret h.nonce serverPort
  decoded : decodePayload plain = .ok payload
  identity : payload.clientIDHash = computeClientIDHash crypto candidate.secret auth.peer.clientID
  port : serverPort > 0 → payload.serverPort = serverPort
  fresh : WithinWindow cfg.timeWindow clock.check payload.timestampUnixMS
  proof : h.flags &&& flagServerProof ≠ 0 → cfg.serverProof = true ∧ conn.writeError = none ∧
    auth.written = buildServerProof crypto candidate.secret h serverPort

/-- The call has verified an envelope v2 at the start of its stream. -/
structure VerifiedEnvelopeV2 (conn : Conn) (clock : Readings) (auth : AuthenticatedConn)
    (serverPort : Int) (candidates : List SecretCandidate) (h : EnvelopeV2Header)
    (sealed rest : Bytes) (candidate : SecretCandidate) (plain : Bytes)
    (payload : EnvelopeV2Payload) : Prop where
  accepted : .envelopeV2 ∈ cfg.acceptProtocols
  mode : h.hintMode = cfg.envelopeV2.withDefaults.hintMode
  stream : conn.incoming.chunks.flatten = prefixBytes h ++ (sealed ++ rest)
  bucket : h.bucketSize ∈ envelopeV2Buckets cfg.envelopeV2.withDefaults.frameSizeBuckets
  size : ((prefixBytes h ++ sealed).length : Int) = h.bucketSize
  fits : h.bucketSize ≤ cfg.maxFrameSize
  offered : candidate ∈ candidates
  client : auth.peer.clientID = candidate.clientID
  nonce : auth.peer.nonce = h.prefixRandom.bytes
  secretSize : minSecretSize ≤ candidate.secret.length
  opened : crypto.aeadOpen (deriveEnvelopeV2Key crypto candidate.secret h.prefixRandom)
    (envelopeV2Nonce h.prefixRandom) sealed
    (conn.incoming.chunks.flatten.take (envelopeV2PrefixLen h.hintMode) ++
      putUint16 (uint16OfInt h.bucketSize) ++ putUint16 (uint16OfInt serverPort) ++
      envelopeV2ProtocolLabel) = some plain
  routeHint : h.hintMode = .routeHint →
    h.routeHint = computeEnvelopeV2RouteHint crypto candidate.secret h.prefixRandom serverPort
  parsed : parseEnvelopeV2Body plain = .ok payload
  identity : payload.clientIDHash = computeClientIDHash crypto candidate.secret auth.peer.clientID
  port : serverPort > 0 → payload.serverPort = serverPort
  fresh : WithinWindow cfg.timeWindow clock.check payload.timestampUnixMS
  proof : payload.flags &&& envelopeV2FlagServerProof ≠ 0 → cfg.serverProof = true ∧
    conn.writeError = none ∧
    auth.written = buildEnvelopeV2ServerProof crypto candidate.secret h serverPort

theorem written_of_requested {conn : Conn} {result : AuthResult} {written : Bytes}
    (wrote : writeServerProof cfg conn result = .ok written)
    (requested : result.serverProofRequested = true) :
    cfg.serverProof = true ∧ conn.writeError = none ∧ written = result.serverProof := by
  rcases (writeServerProof_ok_iff cfg conn result written).mp wrote with
    ⟨silent, _⟩ | ⟨_, configured, writable, same⟩
  · rw [requested] at silent
    cases silent
  · exact ⟨configured, writable, same⟩

section Matched

variable {resolver : SecretResolver} {conn : Conn} {clock : Readings} {auth : AuthenticatedConn}
  {chosen : StreamReader} {result : AuthResult} {state next : ServerState R K P} {serverPort : Int}
  (calm : chosen.err = none) (pending : chosen.pending = conn.incoming.chunks.flatten)
  (validated : validatePeerCommon cfg result.peer serverPort conn.remoteAddr result.hint clock state =
    (.ok (), next))
  (wrote : writeServerProof cfg conn result = .ok auth.written) (peer : auth.peer = result.peer)

include calm pending validated wrote peer

theorem matchFrameV1_verified (accepted : .frameV1 ∈ cfg.acceptProtocols)
    (matched : matchFrameV1 crypto cfg resolver conn serverPort chosen = .ok result) :
    ∃ candidates h sealed rest candidate plain payload,
      resolveCandidates crypto (frameV1Meta h serverPort) resolver = .ok candidates ∧
      VerifiedFrameV1 crypto cfg conn clock auth serverPort candidates h sealed rest candidate plain
        payload := by
  obtain ⟨h, sealed, after, candidates, candidate, found, read, resolved, first, rfl⟩ :=
    (matchFrameV1_ok_iff crypto cfg).mp matched
  obtain ⟨offered, success⟩ := firstCandidate_some _ first
  obtain ⟨plain, payload, evidence, rfl⟩ :=
    (authenticateCandidate_ok_iff crypto).mp success
  obtain ⟨frame, advanced⟩ := readFrame_ok calm read
  obtain ⟨port, fresh, _⟩ := (validatePeerCommon_ok_iff cfg _ _ _ _ clock state next).mp validated
  have stream : conn.incoming.chunks.flatten = encodeHeader h ++ (sealed ++ after.pending) := by
    rw [← pending, advanced.pending, List.append_assoc]
  have header : conn.incoming.chunks.flatten.take headerSize = aad h := by
    rw [stream, ← encodeHeader_length h, List.take_left]
    rfl
  refine ⟨candidates, h, sealed, after.pending, candidate, plain, payload, resolved, ?_⟩
  exact
    { accepted := accepted
      stream := stream
      offered := offered
      client := by rw [peer]; rfl
      nonce := by rw [peer]; rfl
      secretSize := evidence.secretSize
      opened := by rw [header]; exact evidence.opened
      keyHint := evidence.keyHint.symm
      decoded := evidence.decoded
      identity := by rw [peer]; exact evidence.identity
      port := port
      fresh := fresh
      proof := by
        intro requested
        have asked : (frameV1Result crypto h serverPort candidate
            (newPeerInfoFromV1 candidate payload h conn.remoteAddr) after).serverProofRequested =
              true := decide_eq_true requested
        obtain ⟨configured, writable, same⟩ := written_of_requested cfg wrote asked
        refine ⟨configured, writable, ?_⟩
        rw [same]
        simp [frameV1Result, requested] }

theorem matchEnvelopeV2_verified (accepted : .envelopeV2 ∈ cfg.acceptProtocols)
    (matched : matchEnvelopeV2 crypto cfg resolver conn serverPort chosen = .ok result) :
    ∃ candidates h sealed rest candidate plain payload,
      resolveCandidates crypto (envelopeV2Meta h serverPort) resolver = .ok candidates ∧
      VerifiedEnvelopeV2 crypto cfg conn clock auth serverPort candidates h sealed rest candidate
        plain payload := by
  obtain ⟨h, afterPrefix, candidates, found, after, read, resolved, _, _, searched, rfl⟩ :=
    (matchEnvelopeV2_ok_iff crypto cfg).mp matched
  obtain ⟨known, prefixStep⟩ := readEnvelopeV2Prefix_ok calm read
  obtain ⟨bucket, bucketMember, tried, header, offered, sent, success, step⟩ :=
    searchBuckets_ok crypto cfg candidates h _ conn.remoteAddr 0 _ afterPrefix after found
      prefixStep.calm searched
  obtain ⟨plain, payload, evidence, peerEq⟩ :=
    (authenticateEnvelopeV2Candidate_ok_iff crypto).mp success
  obtain ⟨port, fresh, _⟩ := (validatePeerCommon_ok_iff cfg _ _ _ _ clock state next).mp validated
  obtain ⟨candidate, sized, foundPeer⟩ := found
  simp only at header offered evidence peerEq
  subst header peerEq
  have prefixLength : (prefixBytes h).length = envelopeV2PrefixLen h.hintMode :=
    prefixBytes_length h
  have stream : conn.incoming.chunks.flatten =
      prefixBytes h ++ (afterPrefix.pending.take (sealedNeed h bucket) ++ after.pending) := by
    rw [← pending, prefixStep.pending, ← step.pending]
  have front : conn.incoming.chunks.flatten.take (envelopeV2PrefixLen h.hintMode) =
      prefixBytes h := by
    rw [stream, ← prefixLength, List.take_left]
  have sealedLength : (afterPrefix.pending.take (sealedNeed h bucket)).length =
      sealedNeed h bucket := by
    rw [List.length_take]
    omega
  refine ⟨candidates, { h with bucketSize := bucket }, afterPrefix.pending.take (sealedNeed h bucket),
    after.pending, candidate, plain, payload, resolved, ?_⟩
  exact
    { accepted := accepted
      mode := known.mode
      stream := stream
      bucket := bucketMember
      size := by
        have large := tried.2
        have whole : (prefixBytes { h with bucketSize := bucket }).length =
            envelopeV2PrefixLen h.hintMode := prefixLength
        rw [List.length_append, whole, sealedLength, sealedNeed]
        push_cast at large ⊢
        omega
      fits := tried.1
      offered := offered
      client := by rw [peer]; rfl
      nonce := by rw [peer]; rfl
      secretSize := evidence.secretSize
      opened := by rw [front]; exact evidence.opened
      routeHint := fun routed => (evidence.routeHint routed).symm
      parsed := evidence.parsed
      identity := by rw [peer]; exact evidence.identity
      port := port
      fresh := fresh
      proof := by
        intro requested
        have asked : (envelopeV2Result crypto serverPort ⟨candidate, { h with bucketSize := bucket },
            newPeerInfoFromEnvelopeV2 candidate payload { h with bucketSize := bucket }
              conn.remoteAddr⟩ after).serverProofRequested = true := decide_eq_true requested
        obtain ⟨configured, writable, same⟩ := written_of_requested cfg wrote asked
        refine ⟨configured, writable, ?_⟩
        rw [same]
        simp [envelopeV2Result, newPeerInfoFromEnvelopeV2, requested] }

end Matched

/-- The replay cache and the knock store after an accepted call are what they answered it
with. -/
theorem serverAuthNormalized_takes {conn : Conn} {clock : Readings} {state final : ServerState R K P}
    {auth : AuthenticatedConn}
    (success : serverAuthNormalized crypto cfg conn clock state = (.ok auth, final)) :
    WithinWindow cfg.timeWindow clock.check auth.peer.timestamp ∧
      state.replay.checkAndMark cfg.customReplay auth.peer.clientID auth.peer.nonce clock.mark =
        (.ok (), final.replay) ∧
      (cfg.requireKnock = true → ∃ store, cfg.knockStore = some store ∧
        store.checkAndConsume auth.peer conn.remoteAddr clock.consume state.knock =
          (.ok (), final.knock)) := by
  obtain ⟨_, result, _, consumed, _, _, _, validated, knocked, _, _, peer, rfl⟩ :=
    (serverAuthNormalized_ok_iff crypto cfg conn clock state final auth).mp success
  obtain ⟨sameReplay, sameKnock⟩ := admittedState_frame cfg conn state
  obtain ⟨_, fresh, replay, took, rfl⟩ :=
    (validatePeerCommon_ok_iff cfg _ _ _ _ clock _ _).mp validated
  rw [sameReplay, ← peer] at took
  rw [emit_replay, emit_knock, peer]
  rcases (consumeKnock_ok_iff cfg conn _ clock _ consumed).mp knocked with
    ⟨unneeded, rfl⟩ | ⟨_, store, knock, present, taken, rfl⟩
  · refine ⟨fresh, peer ▸ took, fun required => ?_⟩
    rw [required] at unneeded
    cases unneeded
  · exact ⟨fresh, peer ▸ took, fun _ => ⟨store, present, sameKnock ▸ taken⟩⟩

/-- Whatever the server accepts has passed every gate: the stream starts with a
frame of an accepted protocol that opens under an offered secret of the claimed
client with the received header as associated data, the replay cache took its
nonce, and a required knock session was consumed. -/
theorem serverAuthNormalized_sound (conn : Conn) (clock : Readings)
    (state final : ServerState R K P) (auth : AuthenticatedConn)
    (success : serverAuthNormalized crypto cfg conn clock state = (.ok auth, final)) :
    ∃ resolver, cfg.secrets = some resolver ∧
      ((∃ candidates h sealed rest candidate plain payload,
          resolveCandidates crypto (frameV1Meta h (effectivePort cfg.serverPort conn.localAddr))
            resolver = .ok candidates ∧
          VerifiedFrameV1 crypto cfg conn clock auth (effectivePort cfg.serverPort conn.localAddr)
            candidates h sealed rest candidate plain payload) ∨
        (∃ candidates h sealed rest candidate plain payload,
          resolveCandidates crypto (envelopeV2Meta h (effectivePort cfg.serverPort conn.localAddr))
            resolver = .ok candidates ∧
          VerifiedEnvelopeV2 crypto cfg conn clock auth
            (effectivePort cfg.serverPort conn.localAddr) candidates h sealed rest candidate plain
            payload)) ∧
      state.replay.checkAndMark cfg.customReplay auth.peer.clientID auth.peer.nonce clock.mark =
        (.ok (), final.replay) ∧
      (cfg.requireKnock = true → ∃ store, cfg.knockStore = some store ∧
        store.checkAndConsume auth.peer conn.remoteAddr clock.consume state.knock =
          (.ok (), final.knock)) := by
  obtain ⟨resolver, result, marked, consumed, held, _, matched, validated, knocked, wrote, _, peer,
    _⟩ := (serverAuthNormalized_ok_iff crypto cfg conn clock state final auth).mp success
  have calm : (BufferedReader.new conn.incoming : StreamReader).err = none := rfl
  refine ⟨resolver, held, ?_, (serverAuthNormalized_takes crypto cfg success).2⟩
  rcases (matchConfiguredProtocol_ok_iff crypto cfg resolver conn _ calm result).mp matched with
    ⟨chosen, choice, found⟩ | ⟨chosen, choice, found⟩
  · obtain ⟨protocol, step⟩ := chooseProtocol_ok cfg _ chosen calm _ choice
    exact Or.inl (matchFrameV1_verified crypto cfg step.calm step.pending.symm validated wrote peer
      (protocolOf_accepted cfg _ _ protocol) found)
  · obtain ⟨protocol, step⟩ := chooseProtocol_ok cfg _ chosen calm _ choice
    exact Or.inr (matchEnvelopeV2_verified crypto cfg step.calm step.pending.symm validated wrote
      peer (protocolOf_accepted cfg _ _ protocol) found)

/-! ## An accepted connection -/

theorem exists_ok_of_isOk {ε α σ : Type} (outcome : Except ε α × σ)
    (success : outcome.1.isOk = true) : ∃ value final, outcome = (.ok value, final) := by
  obtain ⟨result, final⟩ := outcome
  cases result with
  | error failure => cases success
  | ok value => exact ⟨value, final, rfl⟩

def sampleSecret : Bytes := ascii "0123456789abcdef"

def sampleServer (accepts : List AuthProtocol) (requireKnock serverProof : Bool) :
    ServerConfig Unit Unit Unit where
  serverPort := 443
  secrets := some (.static ⟨[(ascii "client", sampleSecret)], by simp⟩)
  customReplay := ⟨fun _ _ state => (.ok (), state), fun _ => (0, 0)⟩
  authTimeout := defaultAuthTimeout
  timeWindow := defaultTimeWindow
  maxFrameSize := defaultMaxFrameSize
  protocol := .frameV1
  acceptProtocols := accepts
  envelopeV2 := ⟨.routeHint, [128, 192], .none⟩
  requireKnock := requireKnock
  knockStore := none
  serverProof := serverProof
  failDelayJitterMin := 0
  failDelayJitterMax := 0
  drainOnFailBytes := 0
  drainOnFailTimeout := 0
  maxAuthAttempts := defaultMaxAuthAttempts
  events := true
  policy := none

def sampleNonce : FixedBytes 16 := FixedBytes.copy 16 [7]

def sampleFrame (now : Int) (flags : UInt8) : Bytes :=
  match buildFrame keyTagCrypto (ascii "client") sampleSecret 443 now flags [] (ascii "s") []
      sampleNonce with
  | .ok (frame, _) => frame
  | .error _ => []

def sampleConn (chunk : Bytes) : Conn where
  localAddr := .tcp [] 443
  remoteAddr := .tcp [192, 0, 2, 1] 50000
  incoming := Source.ofChunk chunk
  writeError := none

def sampleClock : Readings := ⟨2000000000, 2000000000, 2000000000⟩

def sampleState : ServerState Unit Unit Unit :=
  ⟨.memory (MemoryReplayCache.new (defaultTimeWindow * 2)), (), (), []⟩

theorem serverAuthNormalized_sound_sample :
    ∃ auth final, serverAuthNormalized keyTagCrypto (sampleServer [.frameV1] false true)
        (sampleConn (sampleFrame 1000000000 1)) sampleClock sampleState =
          (.ok auth, final) ∧
      sampleState.replay.checkAndMark (sampleServer [.frameV1] false true).customReplay
        auth.peer.clientID auth.peer.nonce 2000000000 = (.ok (), final.replay) := by
  have succeeds : (serverAuthNormalized keyTagCrypto (sampleServer [.frameV1] false true)
      (sampleConn (sampleFrame 1000000000 1)) sampleClock
      sampleState).1.isOk = true := by decide +kernel
  obtain ⟨auth, final, run⟩ := exists_ok_of_isOk _ succeeds
  obtain ⟨_, _, _, marked, _⟩ := serverAuthNormalized_sound _ _ _ _ _ _ _ run
  exact ⟨auth, final, run, marked⟩

end Libknock.Auth
