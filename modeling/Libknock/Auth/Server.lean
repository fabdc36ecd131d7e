import Libknock.Auth.Replay

/-!
# The server side of TCP authentication

`auth/server.go`.  A call reads one connection through a buffered reader and
passes on the state its configuration's interfaces hold: replay cache, knock
store, policy and event log.  Everything before `validatePeerCommon` depends on
the stream and the secrets only, and is a pure function here; the clock is read
three times and the readings are arguments.  Deadlines show as read and write
errors; draining and delaying a failed connection has no effect on the result.
-/

set_option autoImplicit false

namespace Libknock.Auth

open Foundation Protocol

/-- The replay cache a server holds: the package's own or a caller's. -/
inductive ReplayCache (R : Type) where
  | memory (cache : MemoryReplayCache)
  | custom (state : R)

namespace ReplayCache

variable {R : Type}

def checkAndMark (custom : CustomReplayCache R) (clientID nonce : Bytes) (now : Int) :
    ReplayCache R → Except AuthError Unit × ReplayCache R
  | .memory cache =>
    ((cache.checkAndMark clientID nonce now).1, .memory (cache.checkAndMark clientID nonce now).2)
  | .custom state =>
    ((custom.checkAndMark clientID nonce state).1,
      .custom (custom.checkAndMark clientID nonce state).2)

/-- `replayCacheStats`. -/
def stats (custom : CustomReplayCache R) : ReplayCache R → Int × Int
  | .memory cache => (cache.len, cache.cap)
  | .custom state => custom.stats state

end ReplayCache

inductive Event where
  | accept (remote : NetAddr)
  | authOK (peer : PeerInfo)
  | authFail (remote : NetAddr) (reason : AuthError)
  | replay (remote : NetAddr) (peerHint : UInt64)
  | replayCacheFull (remote : NetAddr) (peerHint : UInt64) (length capacity : Int)
  | rateLimited (remote : NetAddr)
  deriving DecidableEq

structure ServerState (R K P : Type) where
  replay : ReplayCache R
  knock : K
  policy : P
  events : List Event

structure Conn where
  localAddr : NetAddr
  remoteAddr : NetAddr
  incoming : Source
  writeError : Option ReadError

/-- The readings of the clock in one call: for the timestamp, in
`CheckAndMark`, and in `CheckAndConsume`. -/
structure Readings where
  check : Int
  mark : Int
  consume : Int

/-- `authResult` of an authentication that succeeded, with the reader it left. -/
structure AuthResult where
  peer : PeerInfo
  hint : UInt64
  serverProofRequested : Bool
  serverProof : Bytes
  reader : StreamReader

/-- `authResult` of one that failed, with the error. -/
structure AuthFailure where
  peer : Option PeerInfo
  hint : UInt64
  failure : AuthError

structure AuthenticatedConn where
  reader : StreamReader
  peer : PeerInfo
  written : Bytes

/-! ## Candidates -/

section Candidates

variable (crypto : Crypto)

def newPeerInfoFromV1 (candidate : SecretCandidate) (payload : Payload) (h : Header)
    (remote : NetAddr) : PeerInfo where
  clientID := candidate.clientID
  clientIDHash := payload.clientIDHash
  keyHint := h.keyHint
  nonce := h.nonce.bytes
  timestamp := payload.timestampUnixMS
  serverPort := payload.serverPort
  method := payload.method
  sessionID := payload.sessionID
  extensions := payload.extensions
  remoteAddr := remote
  protocol := .unset
  flags := 0

def newPeerInfoFromEnvelopeV2 (candidate : SecretCandidate) (payload : EnvelopeV2Payload)
    (h : EnvelopeV2Header) (remote : NetAddr) : PeerInfo where
  clientID := candidate.clientID
  clientIDHash := payload.clientIDHash
  keyHint := h.routeHint
  nonce := h.prefixRandom.bytes
  timestamp := payload.timestampUnixMS
  serverPort := payload.serverPort
  method := payload.method
  sessionID := payload.sessionID
  extensions := payload.extensions
  remoteAddr := remote
  protocol := .envelopeV2
  flags := payload.flags

def authenticateCandidate (h : Header) (sealed : Bytes) (serverPort : Int) (remote : NetAddr)
    (candidate : SecretCandidate) : Except AuthError PeerInfo :=
  if candidate.clientID = [] ∨ candidate.secret.length < minSecretSize then .error .authFailed
  else if computeKeyHint crypto candidate.secret h.nonce serverPort ≠ h.keyHint then
    .error .authFailed
  else
    match openPayload crypto candidate.secret h sealed with
    | none => .error .authFailed
    | some plain =>
      match decodePayload plain with
      | .error failure => .error (mapProtocolError failure)
      | .ok payload =>
        if payload.clientIDHash ≠ computeClientIDHash crypto candidate.secret candidate.clientID
        then .error .authFailed
        else .ok (newPeerInfoFromV1 candidate payload h remote)

def authenticateEnvelopeV2Candidate (h : EnvelopeV2Header) (sealed : Bytes) (serverPort : Int)
    (remote : NetAddr) (candidate : SecretCandidate) : Except AuthError PeerInfo :=
  if candidate.clientID = [] ∨ candidate.secret.length < minSecretSize then .error .authFailed
  else if h.hintMode = .routeHint ∧
      computeEnvelopeV2RouteHint crypto candidate.secret h.prefixRandom serverPort ≠ h.routeHint then
    .error .authFailed
  else
    match openEnvelopeV2Payload crypto candidate.secret h serverPort sealed with
    | .error failure => .error (mapProtocolError failure)
    | .ok payload =>
      if payload.clientIDHash ≠ computeClientIDHash crypto candidate.secret candidate.clientID
      then .error .authFailed
      else .ok (newPeerInfoFromEnvelopeV2 candidate payload h remote)

/-- The loop of frame v1: the first candidate that authenticates. -/
def firstCandidate (attempt : SecretCandidate → Except AuthError PeerInfo) :
    List SecretCandidate → Option (SecretCandidate × PeerInfo)
  | [] => none
  | candidate :: rest =>
    match attempt candidate with
    | .error _ => firstCandidate attempt rest
    | .ok peer => some (candidate, peer)

/-- The inner loop of envelope v2.  It ends with a candidate that
authenticates, or with the number of attempts made when none does. -/
def tryCandidates (maxAuthAttempts : Int) (attempt : SecretCandidate → Except AuthError PeerInfo) :
    Nat → List SecretCandidate → Except AuthError (Nat ⊕ (SecretCandidate × PeerInfo))
  | attempts, [] => .ok (.inl attempts)
  | attempts, candidate :: rest =>
    if maxAuthAttempts ≤ attempts then .error .tooManyCandidates
    else
      match attempt candidate with
      | .error _ => tryCandidates maxAuthAttempts attempt (attempts + 1) rest
      | .ok peer => .ok (.inr (candidate, peer))

end Candidates

/-! ## The two protocols -/

section Protocols

variable (crypto : Crypto) {R K P : Type} (cfg : ServerConfig R K P)

def frameV1Meta (h : Header) (serverPort : Int) : FrameMeta :=
  ⟨h.keyHint, h.nonce, serverPort, .unset, .unset, []⟩

def frameV1Result (h : Header) (serverPort : Int) (candidate : SecretCandidate) (peer : PeerInfo)
    (reader : StreamReader) : AuthResult :=
  let requested : Bool := h.flags &&& flagServerProof ≠ 0
  { peer := peer
    hint := h.keyHint
    serverProofRequested := requested
    serverProof := if requested then buildServerProof crypto candidate.secret h serverPort else []
    reader := reader }

/-- `authenticateFrameV1` up to `validatePeerCommon`. -/
def matchFrameV1 (resolver : SecretResolver) (conn : Conn) (serverPort : Int)
    (reader : StreamReader) : Except AuthFailure AuthResult :=
  match readFrame cfg.maxFrameSize reader with
  | .error failure => .error ⟨none, 0, mapProtocolError failure⟩
  | .ok ((h, sealed), afterFrame) =>
    match resolveCandidates crypto (frameV1Meta h serverPort) resolver with
    | .error failure => .error ⟨none, h.keyHint, .join .secretResolverFailed failure⟩
    | .ok [] => .error ⟨none, h.keyHint, .unknownClient⟩
    | .ok (first :: rest) =>
      match firstCandidate (authenticateCandidate crypto h sealed serverPort conn.remoteAddr)
          (first :: rest) with
      | none => .error ⟨none, h.keyHint, .authFailed⟩
      | some (candidate, peer) =>
        .ok (frameV1Result crypto h serverPort candidate peer afterFrame)

def envelopeV2Meta (h : EnvelopeV2Header) (serverPort : Int) : FrameMeta :=
  if h.hintMode = .routeHint then
    ⟨h.routeHint, FixedBytes.copy 16 (h.prefixRandom.bytes.take 16), serverPort, .envelopeV2,
      h.hintMode, h.prefixRandom.bytes⟩
  else ⟨0, FixedBytes.copy 16 [], serverPort, .envelopeV2, h.hintMode, h.prefixRandom.bytes⟩

structure EnvelopeMatch where
  candidate : SecretCandidate
  header : EnvelopeV2Header
  peer : PeerInfo
  deriving DecidableEq

/-- The outer loop of envelope v2, over the buckets in ascending order. -/
def searchBuckets (candidates : List SecretCandidate) (h : EnvelopeV2Header) (serverPort : Int)
    (remote : NetAddr) :
    Nat → List Int → StreamReader → Except AuthError (EnvelopeMatch × StreamReader)
  | _, [], _ => .error .authFailed
  | attempts, bucket :: rest, reader =>
    if bucket > cfg.maxFrameSize ∨ bucket < envelopeV2PrefixLen h.hintMode + overhead then
      searchBuckets candidates h serverPort remote attempts rest reader
    else
      let need := (bucket - envelopeV2PrefixLen h.hintMode).toNat
      match reader.peek need with
      | .error failure => .error (mapProtocolError (.io failure))
      | .ok (sealed, peeked) =>
        let sized := { h with bucketSize := bucket }
        match tryCandidates cfg.maxAuthAttempts
            (authenticateEnvelopeV2Candidate crypto sized sealed serverPort remote)
            attempts candidates with
        | .error failure => .error failure
        | .ok (.inl made) => searchBuckets candidates h serverPort remote made rest peeked
        | .ok (.inr (candidate, peer)) => .ok (⟨candidate, sized, peer⟩, peeked.discard need)

def envelopeV2Result (serverPort : Int) (found : EnvelopeMatch) (reader : StreamReader) :
    AuthResult :=
  let requested : Bool := found.peer.flags &&& envelopeV2FlagServerProof ≠ 0
  { peer := found.peer
    hint := found.header.routeHint
    serverProofRequested := requested
    serverProof := if requested then
      buildEnvelopeV2ServerProof crypto found.candidate.secret found.header serverPort else []
    reader := reader }

/-- `authenticateEnvelopeV2` up to `validatePeerCommon`. -/
def matchEnvelopeV2 (resolver : SecretResolver) (conn : Conn) (serverPort : Int)
    (reader : StreamReader) : Except AuthFailure AuthResult :=
  let envCfg := cfg.envelopeV2.withDefaults
  match readEnvelopeV2Prefix envCfg.hintMode reader with
  | .error failure => .error ⟨none, 0, mapProtocolError failure⟩
  | .ok (h, afterPrefix) =>
    match resolveCandidates crypto (envelopeV2Meta h serverPort) resolver with
    | .error failure => .error ⟨none, h.routeHint, .join .secretResolverFailed failure⟩
    | .ok candidates =>
      if candidates = [] then .error ⟨none, h.routeHint, .unknownClient⟩
      else if envCfg.hintMode = .none ∧ candidates.length > cfg.maxAuthAttempts then
        .error ⟨none, h.routeHint, .tooManyCandidates⟩
      else
        match searchBuckets crypto cfg candidates h serverPort conn.remoteAddr 0
            (envelopeV2Buckets envCfg.frameSizeBuckets) afterPrefix with
        | .error failure => .error ⟨none, h.routeHint, failure⟩
        | .ok (found, afterFrame) =>
          .ok (envelopeV2Result crypto serverPort found afterFrame)

/-- The dispatch of `authenticateConfiguredProtocol`, with the reader it left. -/
def chooseProtocol (reader : StreamReader) : Except AuthFailure (AuthProtocol × StreamReader) :=
  if .envelopeV2 ∈ cfg.acceptProtocols ∧ .frameV1 ∉ cfg.acceptProtocols then
    .ok (.envelopeV2, reader)
  else if .frameV1 ∈ cfg.acceptProtocols ∧ .envelopeV2 ∉ cfg.acceptProtocols then
    .ok (.frameV1, reader)
  else if .frameV1 ∉ cfg.acceptProtocols ∧ .envelopeV2 ∉ cfg.acceptProtocols then
    .error ⟨none, 0, .unsupportedVersion⟩
  else
    match reader.peek 1 with
    | .error failure => .error ⟨none, 0, .protocol (.io failure)⟩
    | .ok (first, peeked) =>
      if first.getD 0 0 = version then .ok (.frameV1, peeked) else .ok (.envelopeV2, peeked)

def matchConfiguredProtocol (resolver : SecretResolver) (conn : Conn) (reader : StreamReader) :
    Except AuthFailure AuthResult :=
  let serverPort := effectivePort cfg.serverPort conn.localAddr
  match chooseProtocol cfg reader with
  | .error failure => .error failure
  | .ok (.frameV1, chosen) => matchFrameV1 crypto cfg resolver conn serverPort chosen
  | .ok (_, chosen) => matchEnvelopeV2 crypto cfg resolver conn serverPort chosen

end Protocols

/-! ## The call -/

section Call

variable (crypto : Crypto) {R K P : Type} (cfg : ServerConfig R K P)

def emit (event : Event) (state : ServerState R K P) : ServerState R K P :=
  if cfg.events then { state with events := state.events ++ [event] } else state

/-- The event `validatePeerCommon` reports for an error of the replay cache. -/
def emitReplay (remote : NetAddr) (hint : UInt64) (failure : AuthError)
    (state : ServerState R K P) : ServerState R K P :=
  if AuthError.is .replayDetected failure then emit cfg (.replay remote hint) state
  else if AuthError.is .replayCacheFull failure then
    let stats := state.replay.stats cfg.customReplay
    emit cfg (.replayCacheFull remote hint stats.1 stats.2) state
  else state

def validatePeerCommon (peer : PeerInfo) (serverPort : Int) (remote : NetAddr) (hint : UInt64)
    (clock : Readings) (state : ServerState R K P) : Except AuthError Unit × ServerState R K P :=
  if serverPort > 0 ∧ peer.serverPort ≠ serverPort then (.error .authFailed, state)
  else
    let age := since clock.check (unixMilli peer.timestamp)
    if age < -cfg.timeWindow ∨ age > cfg.timeWindow then (.error .timeSkew, state)
    else
      match state.replay.checkAndMark cfg.customReplay peer.clientID peer.nonce clock.mark with
      | (.error failure, replay) =>
        (.error failure, emitReplay cfg remote hint failure { state with replay := replay })
      | (.ok (), replay) => (.ok (), { state with replay := replay })

def authenticateConfiguredProtocol (resolver : SecretResolver) (conn : Conn) (clock : Readings)
    (reader : StreamReader) (state : ServerState R K P) :
    Except AuthFailure AuthResult × ServerState R K P :=
  match matchConfiguredProtocol crypto cfg resolver conn reader with
  | .error failure => (.error failure, state)
  | .ok matched =>
    match validatePeerCommon cfg matched.peer (effectivePort cfg.serverPort conn.localAddr)
        conn.remoteAddr matched.hint clock state with
    | (.error failure, next) => (.error ⟨some matched.peer, matched.hint, failure⟩, next)
    | (.ok (), next) => (.ok matched, next)

def fail (conn : Conn) (peer : Option PeerInfo) (failure : AuthError)
    (state : ServerState R K P) : Except AuthError AuthenticatedConn × ServerState R K P :=
  let remote := match peer with
    | none => conn.remoteAddr
    | some peer => if peer.remoteAddr = .nil then conn.remoteAddr else peer.remoteAddr
  (.error (publicError failure), emit cfg (.authFail remote (publicError failure)) state)

def policyAllows (conn : Conn) (state : ServerState R K P) : Bool × ServerState R K P :=
  match cfg.policy with
  | none => (true, state)
  | some policy =>
    ((policy.allow conn.remoteAddr state.policy).1,
      { state with policy := (policy.allow conn.remoteAddr state.policy).2 })

def consumeKnock (conn : Conn) (peer : PeerInfo) (clock : Readings) (state : ServerState R K P) :
    Except AuthError Unit × ServerState R K P :=
  if ¬ cfg.requireKnock then (.ok (), state)
  else
    match cfg.knockStore with
    | none => (.error .knockRequired, state)
    | some store =>
      match store.checkAndConsume peer conn.remoteAddr clock.consume state.knock with
      | (.error failure, knock) =>
        (.error (.join .knockRequired failure), { state with knock := knock })
      | (.ok (), knock) => (.ok (), { state with knock := knock })

/-- The bytes written when the client asked for a proof. -/
def writeServerProof (conn : Conn) (result : AuthResult) : Except AuthError Bytes :=
  if ¬ result.serverProofRequested then .ok []
  else if ¬ cfg.serverProof then .error .serverProofRequired
  else
    match conn.writeError with
    | some failure => .error (.protocol (.io failure))
    | none => .ok result.serverProof

def serverAuthNormalized (conn : Conn) (clock : Readings) (state : ServerState R K P) :
    Except AuthError AuthenticatedConn × ServerState R K P :=
  match cfg.secrets with
  | none => (.error .missingSecretResolver, state)
  | some resolver =>
    match policyAllows cfg conn (emit cfg (.accept conn.remoteAddr) state) with
    | (false, limited) =>
      fail cfg conn none .rateLimited (emit cfg (.rateLimited conn.remoteAddr) limited)
    | (true, admitted) =>
      match authenticateConfiguredProtocol crypto cfg resolver conn clock
          (BufferedReader.new conn.incoming) admitted with
      | (.error failed, after) => fail cfg conn failed.peer failed.failure after
      | (.ok result, marked) =>
        match consumeKnock cfg conn result.peer clock marked with
        | (.error failure, after) => fail cfg conn (some result.peer) failure after
        | (.ok (), consumed) =>
          match writeServerProof cfg conn result with
          | .error failure => fail cfg conn (some result.peer) failure consumed
          | .ok written =>
            (.ok ⟨result.reader, result.peer, written⟩,
              emit cfg (.authOK result.peer) consumed)

/-- `NewServer`: the normalized configuration and the replay cache it uses. -/
def newServer (supplied : Option (ReplayCache R)) :
    Except AuthError (ServerConfig R K P × ReplayCache R) :=
  let normalized := cfg.withDefaults
  match normalized.validate with
  | .error failure => .error failure
  | .ok () =>
    if normalized.secrets.isNone then .error .missingSecretResolver
    else
      .ok (normalized,
        supplied.getD (.memory (MemoryReplayCache.new (normalized.timeWindow * 2))))

/-- `ServerAuth` on a connection, with the caller's replay cache in the state. -/
def serverAuth (conn : Conn) (clock : Readings) (state : ServerState R K P) :
    Except AuthError AuthenticatedConn × ServerState R K P :=
  let normalized := cfg.withDefaults
  match normalized.validate with
  | .error failure => (.error failure, state)
  | .ok () => serverAuthNormalized crypto normalized conn clock state

end Call

end Libknock.Auth
