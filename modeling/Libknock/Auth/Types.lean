import Libknock.Foundation.Net
import Libknock.Protocol.EnvelopeV2

/-!
# Configurations, peers, secrets and errors of TCP authentication

`auth/types.go`, `auth/errors.go` and `auth/net.go`.  Strings are byte strings,
the string-valued modes are enumerations with a case for the empty and one for
every other string, and the interface values a server holds are described by
the operations they offer on a state that the server passes along.
-/

set_option autoImplicit false

namespace Libknock.Auth

open Foundation Protocol

/-! ## Errors -/

/-- The sentinels of the package, what it passes on from below, and `errors.Join`. -/
inductive AuthError where
  | nilConn
  | invalidFrame
  | frameTooLarge
  | unknownClient
  | authFailed
  | replayDetected
  | replayCacheFull
  | timeSkew
  | knockRequired
  | unsupportedVersion
  | invalidClientID
  | invalidSecret
  | missingSecretResolver
  | missingReplayCache
  | rateLimited
  | serverProofRequired
  | serverProofFailed
  | unsupportedFlags
  | secretResolverFailed
  | tooManyCandidates
  | hintModeNoneTooBroad
  | protocol (failure : ProtocolError)
  | text (message : Bytes)
  | join (first second : AuthError)
  deriving DecidableEq

/-- `errors.Is` for a sentinel. -/
def AuthError.is (target : AuthError) : AuthError → Bool
  | .join first second => AuthError.is target first || AuthError.is target second
  | failure => failure = target

def publicErrors : List AuthError :=
  [.nilConn, .invalidFrame, .frameTooLarge, .unknownClient, .authFailed, .replayDetected,
    .timeSkew, .knockRequired, .unsupportedVersion, .unsupportedFlags, .secretResolverFailed,
    .rateLimited, .serverProofRequired, .serverProofFailed, .tooManyCandidates,
    .hintModeNoneTooBroad]

def publicError (failure : AuthError) : AuthError :=
  if publicErrors.any fun target => AuthError.is target failure then failure else .authFailed

def mapProtocolError : ProtocolError → AuthError
  | .frameTooLarge => .frameTooLarge
  | .unsupportedVersion => .unsupportedVersion
  | .unsupportedFlags => .unsupportedFlags
  | .invalidFrame => .invalidFrame
  | failure => .protocol failure

/-! ## Ports -/

def effectivePort (configured : Int) (addr : NetAddr) : Int :=
  if configured > 0 then configured
  else
    match addr with
    | .tcp _ port => port
    | .nil => 0
    | .other text =>
      match splitHostPort text with
      | none => 0
      | some (_, port) =>
        match atoi port with
        | none => 0
        | some n => if n < 0 ∨ n > 65535 then 0 else n

/-! ## Peers and secrets -/

inductive AuthProtocol where
  | unset
  | frameV1
  | envelopeV2
  | unrecognized
  deriving DecidableEq

def defaultAuthProtocol : AuthProtocol := .envelopeV2

structure PeerInfo where
  clientID : Bytes
  clientIDHash : FixedBytes 16
  keyHint : UInt64
  nonce : Bytes
  timestamp : Int64
  serverPort : Int
  method : Bytes
  sessionID : Bytes
  extensions : Bytes
  remoteAddr : NetAddr
  protocol : AuthProtocol
  flags : UInt8
  deriving DecidableEq

structure FrameMeta where
  hint : UInt64
  nonce : FixedBytes 16
  serverPort : Int
  protocol : AuthProtocol
  hintMode : EnvelopeV2HintMode
  prefixRandom : Bytes

structure SecretCandidate where
  clientID : Bytes
  secret : Bytes
  deriving DecidableEq

/-- A Go map from client IDs: every key at most once, in no order. -/
structure ClientMap (V : Type) where
  entries : List (Bytes × V)
  unique : (entries.map Prod.fst).Nodup

/-- The entries in the order of `sort.Strings` on their keys. -/
def ClientMap.sorted {V : Type} (clients : ClientMap V) : List (Bytes × V) :=
  clients.entries.insertionSort fun left right => left.1 ≤ right.1

/-- A secret resolver: the two of the package, or the caller's own. -/
inductive SecretResolver where
  | static (secrets : ClientMap Bytes)
  | rotating (secrets : ClientMap (List Bytes))
  | custom (resolve : FrameMeta → Except AuthError (List SecretCandidate))

def offersSecret (crypto : Crypto) (frame : FrameMeta) (secret : Bytes) : Bool :=
  if secret.length = 0 then false
  else if frame.protocol = .envelopeV2 then
    if frame.hintMode ≠ .none then
      frame.prefixRandom.length = envelopeV2PrefixSize ∧
        computeEnvelopeV2RouteHint crypto secret (FixedBytes.copy 24 frame.prefixRandom)
          frame.serverPort = frame.hint
    else true
  else computeKeyHint crypto secret frame.nonce frame.serverPort = frame.hint

def resolveCandidates (crypto : Crypto) (frame : FrameMeta) :
    SecretResolver → Except AuthError (List SecretCandidate)
  | .static secrets =>
    .ok ((secrets.sorted.filter fun client => offersSecret crypto frame client.2).map
      fun client => ⟨client.1, client.2⟩)
  | .rotating secrets =>
    .ok (secrets.sorted.flatMap fun client =>
      (client.2.filter (offersSecret crypto frame)).map fun secret => ⟨client.1, secret⟩)
  | .custom resolve => resolve frame

def staticCandidateCount : Option SecretResolver → Nat
  | some (.static secrets) => secrets.entries.length
  | some (.rotating secrets) => (secrets.entries.map fun client => client.2.length).sum
  | _ => 0

/-! ## Configurations -/

def defaultAuthTimeout : Duration := 3 * second

def defaultTimeWindow : Duration := 30 * second

def defaultMaxAuthAttempts : Int := 64

/-- A replay cache of the caller's. -/
structure CustomReplayCache (R : Type) where
  checkAndMark : (clientID nonce : Bytes) → R → Except AuthError Unit × R
  stats : R → Int × Int

structure KnockStore (K : Type) where
  checkAndConsume : PeerInfo → NetAddr → (now : Int) → K → Except AuthError Unit × K

structure Policy (P : Type) where
  allow : NetAddr → P → Bool × P

structure ServerConfig (R K P : Type) where
  serverPort : Int
  secrets : Option SecretResolver
  customReplay : CustomReplayCache R
  authTimeout : Duration
  timeWindow : Duration
  maxFrameSize : Int
  protocol : AuthProtocol
  acceptProtocols : List AuthProtocol
  envelopeV2 : EnvelopeV2Config
  requireKnock : Bool
  knockStore : Option (KnockStore K)
  serverProof : Bool
  failDelayJitterMin : Duration
  failDelayJitterMax : Duration
  drainOnFailBytes : Int
  drainOnFailTimeout : Duration
  maxAuthAttempts : Int
  events : Bool
  policy : Option (Policy P)

structure ClientConfig where
  clientID : Bytes
  secret : Bytes
  serverPort : Int
  authTimeout : Duration
  protocol : AuthProtocol
  envelopeV2 : EnvelopeV2Config
  method : Bytes
  sessionID : Bytes
  extensions : Bytes
  requireServerProof : Bool

namespace ServerConfig

variable {R K P : Type}

def withDefaults (c : ServerConfig R K P) : ServerConfig R K P :=
  let protocol := if c.protocol = .unset then defaultAuthProtocol else c.protocol
  let jitterMin := if c.failDelayJitterMin < 0 then 0 else c.failDelayJitterMin
  let jitterMax := if c.failDelayJitterMax < 0 then 0 else c.failDelayJitterMax
  let swapped := jitterMax > 0 ∧ jitterMin > jitterMax
  { c with
    authTimeout := if c.authTimeout ≤ 0 then defaultAuthTimeout else c.authTimeout
    timeWindow := if c.timeWindow ≤ 0 then defaultTimeWindow else c.timeWindow
    maxFrameSize := if c.maxFrameSize ≤ 0 then defaultMaxFrameSize else c.maxFrameSize
    protocol := protocol
    acceptProtocols := if c.acceptProtocols = [] then [protocol] else c.acceptProtocols
    envelopeV2 := c.envelopeV2.withDefaults
    failDelayJitterMin := if swapped then jitterMax else jitterMin
    failDelayJitterMax := if swapped then jitterMin else jitterMax
    drainOnFailBytes := if c.drainOnFailBytes < 0 then 0 else c.drainOnFailBytes
    drainOnFailTimeout := if c.drainOnFailTimeout < 0 then 0 else c.drainOnFailTimeout
    maxAuthAttempts :=
      if c.maxAuthAttempts ≤ 0 then defaultMaxAuthAttempts else c.maxAuthAttempts }

/-- The decrypt attempts a hint-free envelope can cost. -/
def envelopeV2NoneAttemptCost (resolver : Option SecretResolver) (envelope : EnvelopeV2Config)
    (maxFrameSize : Int) : Int :=
  let candidates := staticCandidateCount resolver
  if candidates = 0 then 0
  else
    let buckets := (envelopeV2Buckets envelope.withDefaults.frameSizeBuckets).filter
      fun bucket => bucket ≤ maxFrameSize
    (candidates * buckets.length : Nat)

def validate (config : ServerConfig R K P) : Except AuthError Unit :=
  let c := config.withDefaults
  if c.maxFrameSize < headerSize then .error .frameTooLarge
  else if c.protocol ≠ .unset ∧ c.protocol ≠ .frameV1 ∧ c.protocol ≠ .envelopeV2 then
    .error .unsupportedVersion
  else if c.acceptProtocols.any fun p => p ≠ .frameV1 ∧ p ≠ .envelopeV2 then
    .error .unsupportedVersion
  else if c.protocol = .envelopeV2 ∨ c.acceptProtocols = [] ∨ .envelopeV2 ∈ c.acceptProtocols then
    match c.envelopeV2.withDefaults.validate c.maxFrameSize with
    | .error failure => .error (.protocol failure)
    | .ok () =>
      if c.envelopeV2.withDefaults.hintMode = .none ∧
          envelopeV2NoneAttemptCost c.secrets c.envelopeV2 c.maxFrameSize > c.maxAuthAttempts then
        .error .hintModeNoneTooBroad
      else .ok ()
  else .ok ()

end ServerConfig

namespace ClientConfig

def withDefaults (c : ClientConfig) : ClientConfig :=
  { c with
    authTimeout := if c.authTimeout ≤ 0 then defaultAuthTimeout else c.authTimeout
    protocol := if c.protocol = .unset then defaultAuthProtocol else c.protocol
    envelopeV2 := c.envelopeV2.withDefaults }

def validateRuntime (config : ClientConfig) : Except AuthError Unit :=
  let c := config.withDefaults
  if c.clientID = [] ∨ c.clientID.length > 65535 ∨ 0 ∈ c.clientID then .error .invalidClientID
  else if c.secret.length < minSecretSize then .error .invalidSecret
  else if c.serverPort < 0 ∨ c.serverPort > 65535 then .error .invalidFrame
  else if c.authTimeout ≤ 0 then .error .invalidFrame
  else if c.protocol ≠ .frameV1 ∧ c.protocol ≠ .envelopeV2 then .error .unsupportedVersion
  else if c.protocol = .envelopeV2 then
    match c.envelopeV2.withDefaults.validate envelopeV2DefaultMaxSize with
    | .error failure => .error (.protocol failure)
    | .ok () => .ok ()
  else .ok ()

end ClientConfig

end Libknock.Auth
