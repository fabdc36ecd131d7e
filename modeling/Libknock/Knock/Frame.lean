import Libknock.Auth.Outcome
import Libknock.Codec.TLV
import Libknock.Knock.Types

/-!
# UDP knock frames

`knock/binary_frame.go`.  The bytes drawn and the clock are arguments of the
builder.  Opening passes the replay cache through: the two clock readings are
those of the timestamp check and of the cache.
-/

set_option autoImplicit false

namespace Libknock.Knock

open Foundation Codec Protocol Auth

def knockFrameVersion : UInt8 := 1
def knockFrameHeaderSize : Nat := 16 + 8 + 2 + 1 + 1
def defaultMaxKnockFrameSize : Int := 1024
def knockSessionIDMinBytes : Nat := 16
def knockSequenceIDBytes : Nat := 16
def knockFrameTypeUDP : UInt8 := 1
def knockFrameTypeUDPSequence : UInt8 := 2
def knockFlagSequence : UInt8 := 1
def knockFlagSession : UInt8 := 2
def knockFlagExtensions : UInt8 := 4
def allowedKnockFlags : UInt8 := knockFlagSequence ||| knockFlagSession ||| knockFlagExtensions
def udpMethod : Bytes := ascii "udp"

structure KnockFrameOptions where
  clientID : Bytes
  secret : Bytes
  method : Bytes := []
  serverPort : Int
  sessionID : Bytes := []
  sequenceID : Bytes := []
  sequenceIndex : Int := 0
  sequenceTotal : Int := 0
  clientRandom : Bytes := []
  extensions : List TLV := []
  nonce : Bytes := []
  keyHint : UInt64 := 0
  timestamp : Int := zeroTime
  maxFrameSize : Int := 0

/-- What the builder takes from outside its options: the clock and the bytes of
`rand.Read`. -/
structure KnockDraws where
  now : Int
  clientRandom : FixedBytes 16
  nonce : FixedBytes 16

structure ServerConfig where
  clients : List ClientSecret
  serverPort : Int
  method : Bytes := []
  timeWindow : Duration := 0
  maxFrameSize : Int := 0
  allowSequence : Bool := false

structure KnockInfo where
  clientID : Bytes
  clientIDHash : Bytes
  method : Bytes
  serverPort : Int
  timestamp : Int
  sessionID : Bytes
  sequenceID : Bytes
  sequenceIndex : Int
  sequenceTotal : Int
  clientRandom : Bytes
  extensions : List TLV
  nonce : Bytes
  keyHint : UInt64
  frameType : UInt8
  flags : UInt8
  deriving DecidableEq

structure KnockFrameHeader where
  nonce : FixedBytes 16
  keyHint : UInt64
  sealedLen : UInt16
  flags : UInt8
  reserved : UInt8
  deriving DecidableEq

structure KnockPayload where
  frameType : UInt8
  clientIDHash : FixedBytes 16
  timestampMS : Int64
  method : Bytes
  serverPort : Int
  sessionID : Bytes
  sequenceID : Bytes
  sequenceIndex : Int
  sequenceTotal : Int
  clientRandom : Bytes
  extensions : List TLV
  deriving DecidableEq

/-! ## Header, keys and payload -/

def encodeKnockHeader (h : KnockFrameHeader) : Bytes :=
  h.nonce.bytes ++ (putUint64 h.keyHint ++ (putUint16 h.sealedLen ++ [h.flags, h.reserved]))

def decodeKnockHeader (src : Bytes) : KnockFrameHeader :=
  if src.length < knockFrameHeaderSize then ⟨FixedBytes.copy 16 [], 0, 0, 0, 0⟩
  else
    { nonce := FixedBytes.copy 16 (slice 0 16 src)
      keyHint := uint64 (slice 16 24 src)
      sealedLen := uint16 (slice 24 26 src)
      flags := src.getD 26 0
      reserved := src.getD 27 0 }

section Keys

variable (crypto : Crypto)

def computeKnockKeyHint (secret : Bytes) (nonce : FixedBytes 16) (serverPort : Int) : UInt64 :=
  if serverPort < 1 ∨ 65535 < serverPort then 0
  else
    crypto.hmacTrunc64 secret (ascii "libknock udp-knock hint v1" ++ nonce.bytes ++
      putUint16 (uint16OfInt serverPort))

def computeKnockClientIDHash (secret clientID : Bytes) : FixedBytes 16 :=
  crypto.hmacTrunc128 secret (ascii "libknock client-id v1" ++ clientID)

def deriveKnockAEADKey (secret : Bytes) (nonce : FixedBytes 16) : Bytes :=
  (crypto.hkdfSHA256 secret nonce.bytes (ascii "libknock udp-knock frame v1") keySize).bytes

def knockAAD (h : KnockFrameHeader) (serverPort : Int) : Bytes :=
  encodeKnockHeader h ++ [knockFrameVersion] ++ putUint16 (uint16OfInt serverPort)

/-- `h.Nonce[:chacha20poly1305.NonceSize]`. -/
def knockAEADNonce (h : KnockFrameHeader) : Bytes := h.nonce.bytes.take 12

def sealKnockPayload (secret : Bytes) (h : KnockFrameHeader) (serverPort : Int) (plain : Bytes) :
    Bytes :=
  crypto.aeadSeal (deriveKnockAEADKey crypto secret h.nonce) (knockAEADNonce h) plain
    (knockAAD h serverPort)

def openKnockPayload (secret : Bytes) (h : KnockFrameHeader) (serverPort : Int) (sealed : Bytes) :
    Option Bytes :=
  crypto.aeadOpen (deriveKnockAEADKey crypto secret h.nonce) (knockAEADNonce h) sealed
    (knockAAD h serverPort)

end Keys

def mapProtocolFrameError : ProtocolError → AuthError
  | .frameTooLarge => .frameTooLarge
  | .invalidFrame => .invalidFrame
  | err => .protocol err

def writeByteLen (field : Bytes) : Bytes := UInt8.ofNat field.length :: field

def encodeKnockPayloadHead (p : KnockPayload) : Bytes :=
  [p.frameType] ++ (p.clientIDHash.bytes ++ (putUint64 p.timestampMS.toUInt64 ++
    (writeByteLen p.method ++ (putUint16 (uint16OfInt p.serverPort) ++
    (writeByteLen p.sessionID ++ (writeByteLen p.sequenceID ++
    (([uint8OfInt p.sequenceIndex] ++ [uint8OfInt p.sequenceTotal]) ++
      writeByteLen p.clientRandom)))))))

def encodeKnockPayload (p : KnockPayload) : Except AuthError Bytes :=
  if p.method = [] ∨ 255 < p.method.length ∨ 255 < p.sessionID.length ∨
      255 < p.sequenceID.length ∨ 255 < p.clientRandom.length then
    .error .invalidFrame
  else if p.serverPort < 1 ∨ 65535 < p.serverPort then .error .invalidFrame
  else
    match encodeTLVs p.extensions ProtocolError.frameTooLarge with
    | .error err => .error (mapProtocolFrameError err)
    | .ok ext =>
      if 65535 < ext.length then .error .frameTooLarge
      else
        .ok (encodeKnockPayloadHead p ++ (putUint16 (UInt16.ofNat ext.length) ++ ext))

def readByteLen : Decoder AuthError Bytes := do
  let n ← readByte
  readVarBytes n.toNat true

def readSequenceIndexes : Decoder AuthError (Int × Int) := do
  let index ← readByte
  let total ← readByte
  pure (index.toNat, total.toNat)

def readMethod : Decoder AuthError Bytes := do
  let methodLen ← readByte
  if methodLen = 0 then throw .invalidFrame else readVarBytes methodLen.toNat false

def decodeKnockPayloadHead : Decoder AuthError KnockPayload := do
  let frameType ← readByte
  let id ← readFixed 16
  let ts ← readUint64
  let method ← readMethod
  let port ← readUint16
  let sessionID ← readByteLen
  let sequenceID ← readByteLen
  let indexes ← readSequenceIndexes
  let clientRandom ← readByteLen
  pure ⟨frameType, FixedBytes.copy 16 id, ts.toInt64, method, port.toNat, sessionID, sequenceID,
    indexes.1, indexes.2, clientRandom, []⟩

/-- The extensions take what is left of the payload. -/
def decodeKnockExtensions (reader : BinaryReader AuthError) : Except AuthError (List TLV) :=
  match readUint16 reader with
  | .error err => .error err
  | .ok (extLen, afterLen) =>
    if extLen.toNat ≠ afterLen.remaining then .error .invalidFrame
    else
      match readFixed extLen.toNat afterLen with
      | .error err => .error err
      | .ok (ext, _) =>
        match decodeTLVs ext ProtocolError.invalidFrame with
        | .error err => .error (mapProtocolFrameError err)
        | .ok tlvs => .ok tlvs

def decodeKnockPayload (raw : Bytes) : Except AuthError KnockPayload :=
  match decodeKnockPayloadHead (newReader raw .invalidFrame) with
  | .error err => .error err
  | .ok (p, reader) =>
    match decodeKnockExtensions reader with
    | .error err => .error err
    | .ok tlvs =>
      if 0 < p.sessionID.length ∧ p.sessionID.length < knockSessionIDMinBytes then
        .error .invalidFrame
      else .ok { p with extensions := tlvs }

def validateKnockFlags (flags : UInt8) (payload : KnockPayload) : Except AuthError Unit :=
  if flags &&& ~~~allowedKnockFlags ≠ 0 then .error .unsupportedFlags
  else if ¬ ((flags &&& knockFlagSequence ≠ 0) ↔ payload.frameType = knockFrameTypeUDPSequence) then
    .error .invalidFrame
  else if ¬ ((flags &&& knockFlagSession ≠ 0) ↔ knockSessionIDMinBytes ≤ payload.sessionID.length)
      then
    .error .invalidFrame
  else if ¬ ((flags &&& knockFlagExtensions ≠ 0) ↔ 0 < payload.extensions.length) then
    .error .invalidFrame
  else .ok ()

/-! ## Building -/

section Build

variable (crypto : Crypto)

namespace KnockFrameOptions

/-- The defaults of the first lines of `BuildKnockFrame`. -/
def withDefaults (opts : KnockFrameOptions) (draws : KnockDraws) : KnockFrameOptions :=
  { opts with
    method := if opts.method = [] then udpMethod else opts.method
    timestamp := if isZero opts.timestamp then draws.now else opts.timestamp
    maxFrameSize := if opts.maxFrameSize ≤ 0 then defaultMaxKnockFrameSize else opts.maxFrameSize }

def isSequence (opts : KnockFrameOptions) : Bool := 0 < opts.sequenceTotal ∨ 0 < opts.sequenceID.length

def validateParts (opts : KnockFrameOptions) : Except AuthError Unit :=
  if 0 < opts.sessionID.length ∧ opts.sessionID.length < knockSessionIDMinBytes then
    .error .invalidFrame
  else if opts.isSequence then
    if opts.sequenceID.length ≠ knockSequenceIDBytes then .error .invalidFrame
    else if opts.sequenceTotal < 2 ∨ defaultSequenceMaxParts < opts.sequenceTotal ∨
        opts.sequenceIndex < 0 ∨ opts.sequenceTotal ≤ opts.sequenceIndex then
      .error .invalidFrame
    else .ok ()
  else .ok ()

def payload (opts : KnockFrameOptions) (draws : KnockDraws) : KnockPayload :=
  { frameType := if opts.isSequence then knockFrameTypeUDPSequence else knockFrameTypeUDP
    clientIDHash := computeKnockClientIDHash crypto opts.secret opts.clientID
    timestampMS := toUnixMilli opts.timestamp
    method := opts.method
    serverPort := opts.serverPort
    sessionID := opts.sessionID
    sequenceID := if opts.isSequence then opts.sequenceID else []
    sequenceIndex := if opts.isSequence then opts.sequenceIndex else 0
    sequenceTotal := if opts.isSequence then opts.sequenceTotal else 0
    clientRandom := if opts.clientRandom.length = 0 then draws.clientRandom.bytes
      else opts.clientRandom
    extensions := opts.extensions }

def frameNonce (opts : KnockFrameOptions) (draws : KnockDraws) : Except AuthError (FixedBytes 16) :=
  if 0 < opts.nonce.length then
    if opts.nonce.length ≠ 16 then .error .invalidFrame else .ok (FixedBytes.copy 16 opts.nonce)
  else .ok draws.nonce

def header (opts : KnockFrameOptions) (nonce : FixedBytes 16) (payload : KnockPayload)
    (plainLen : Nat) : KnockFrameHeader :=
  { nonce := nonce
    keyHint := if opts.keyHint ≠ 0 then opts.keyHint
      else computeKnockKeyHint crypto opts.secret nonce opts.serverPort
    sealedLen := UInt16.ofNat (plainLen + overhead)
    flags := (if payload.frameType = knockFrameTypeUDPSequence then knockFlagSequence else 0) |||
      (if 0 < payload.sessionID.length then knockFlagSession else 0) |||
      (if 0 < payload.extensions.length then knockFlagExtensions else 0)
    reserved := 0 }

end KnockFrameOptions

def buildKnockFrame (options : KnockFrameOptions) (draws : KnockDraws) : Except AuthError Bytes :=
  let opts := options.withDefaults draws
  match validateClientSecret ⟨opts.clientID, opts.secret⟩ with
  | .error err => .error err
  | .ok () =>
    match validateProtectedPort opts.serverPort with
    | .error err => .error err
    | .ok () =>
      match opts.validateParts with
      | .error err => .error err
      | .ok () =>
        let payload := opts.payload crypto draws
        match encodeKnockPayload payload with
        | .error err => .error err
        | .ok plain =>
          match opts.frameNonce draws with
          | .error err => .error err
          | .ok nonce =>
            let h := opts.header crypto nonce payload plain.length
            if 65535 < plain.length + overhead ∨
                opts.maxFrameSize < knockFrameHeaderSize + (plain.length + overhead) then
              .error .frameTooLarge
            else
              .ok (encodeKnockHeader h ++
                sealKnockPayload crypto opts.secret h opts.serverPort plain)

end Build

/-! ## Opening -/

section Open

variable (crypto : Crypto)

namespace ServerConfig

def withDefaults (cfg : ServerConfig) : ServerConfig :=
  { cfg with
    maxFrameSize := if cfg.maxFrameSize ≤ 0 then defaultMaxKnockFrameSize else cfg.maxFrameSize
    timeWindow := if cfg.timeWindow ≤ 0 then 30 * second else cfg.timeWindow }

def parse (cfg : ServerConfig) (packet : Bytes) : Except AuthError (KnockFrameHeader × Bytes) :=
  match validateProtectedPort cfg.serverPort with
  | .error err => .error err
  | .ok () =>
    if packet.length < knockFrameHeaderSize then .error .invalidFrame
    else if cfg.maxFrameSize < packet.length then .error .frameTooLarge
    else
      let h := decodeKnockHeader (packet.take knockFrameHeaderSize)
      if h.reserved ≠ 0 then .error .invalidFrame
      else if h.flags &&& ~~~allowedKnockFlags ≠ 0 then .error .unsupportedFlags
      else if h.sealedLen = 0 then .error .invalidFrame
      else if knockFrameHeaderSize + h.sealedLen.toNat ≠ packet.length then
        if cfg.maxFrameSize < knockFrameHeaderSize + h.sealedLen.toNat then .error .frameTooLarge
        else .error .invalidFrame
      else .ok (h, packet.drop knockFrameHeaderSize)

/-- The loop over the clients, up to the first whose secret opens the frame and
whose ID it names; the source returns in that iteration, whatever follows. -/
def findClient (cfg : ServerConfig) (h : KnockFrameHeader) (sealed : Bytes) :
    Bool → List ClientSecret → Except AuthError (ClientSecret × KnockPayload)
  | sawHint, [] => .error (if sawHint then .authFailed else .unknownClient)
  | sawHint, client :: rest =>
    if validateClientSecret client ≠ .ok () then findClient cfg h sealed sawHint rest
    else if computeKnockKeyHint crypto client.secret h.nonce cfg.serverPort ≠ h.keyHint then
      findClient cfg h sealed sawHint rest
    else
      match openKnockPayload crypto client.secret h cfg.serverPort sealed with
      | none => findClient cfg h sealed true rest
      | some plain =>
        match decodeKnockPayload plain with
        | .error err => .error err
        | .ok payload =>
          if payload.clientIDHash ≠
              computeKnockClientIDHash crypto client.secret client.clientID then
            findClient cfg h sealed true rest
          else .ok (client, payload)

def validatePayload (cfg : ServerConfig) (h : KnockFrameHeader) (payload : KnockPayload)
    (now : Int) : Except AuthError Unit :=
  if payload.serverPort ≠ cfg.serverPort then .error .authFailed
  else
    match validateKnockFlags h.flags payload with
    | .error err => .error err
    | .ok () =>
      if cfg.method ≠ [] ∧ payload.method ≠ cfg.method then .error .authFailed
      else if payload.frameType = knockFrameTypeUDPSequence ∧ cfg.allowSequence = false then
        .error .invalidFrame
      else if payload.frameType = knockFrameTypeUDPSequence ∧
          (payload.sequenceID.length ≠ knockSequenceIDBytes ∨ payload.sequenceTotal < 2 ∨
            defaultSequenceMaxParts < payload.sequenceTotal ∨ payload.sequenceIndex < 0 ∨
            payload.sequenceTotal ≤ payload.sequenceIndex) then
        .error .invalidFrame
      else if payload.frameType ≠ knockFrameTypeUDPSequence ∧
          payload.frameType ≠ knockFrameTypeUDP then
        .error .invalidFrame
      else
        let age := since now (unixMilli payload.timestampMS)
        if age < -cfg.timeWindow ∨ cfg.timeWindow < age then .error .timeSkew
        else .ok ()

end ServerConfig

def knockInfo (client : ClientSecret) (h : KnockFrameHeader) (payload : KnockPayload) : KnockInfo :=
  { clientID := client.clientID
    clientIDHash := payload.clientIDHash.bytes
    method := payload.method
    serverPort := payload.serverPort
    timestamp := unixMilli payload.timestampMS
    sessionID := payload.sessionID
    sequenceID := payload.sequenceID
    sequenceIndex := payload.sequenceIndex
    sequenceTotal := payload.sequenceTotal
    clientRandom := payload.clientRandom
    extensions := payload.extensions
    nonce := h.nonce.bytes
    keyHint := h.keyHint
    frameType := payload.frameType
    flags := h.flags }

structure KnockReadings where
  check : Int
  mark : Int

variable {Cache : Type} (checkAndMark : CheckAndMark Cache)

/-- `openKnockFrame`; without a cache nothing is marked. -/
def openKnockFrame (config : ServerConfig) (packet : Bytes) (clock : KnockReadings)
    (replay : Option Cache) : Except AuthError KnockInfo × Option Cache :=
  let cfg := config.withDefaults
  match cfg.parse packet with
  | .error err => (.error err, replay)
  | .ok (h, sealed) =>
    match cfg.findClient crypto h sealed false cfg.clients with
    | .error err => (.error err, replay)
    | .ok (client, payload) =>
      match cfg.validatePayload h payload clock.check with
      | .error err => (.error err, replay)
      | .ok () =>
        match replay with
        | none => (.ok (knockInfo client h payload), none)
        | some cache =>
          match checkAndMark client.clientID h.nonce.bytes clock.mark cache with
          | (.error err, next) => (.error err, some next)
          | (.ok (), next) => (.ok (knockInfo client h payload), some next)

/-- `OpenKnockFrame`: a server must bring a cache. -/
def openKnockFrameChecked (config : ServerConfig) (packet : Bytes) (clock : KnockReadings)
    (replay : Option Cache) : Except AuthError KnockInfo × Option Cache :=
  match replay with
  | none => (.error .missingReplayCache, none)
  | some cache => openKnockFrame crypto checkAndMark config packet clock (some cache)

end Open

/-! ## What the checks of a payload establish -/

structure ServerConfig.Validates (cfg : ServerConfig) (h : KnockFrameHeader)
    (payload : KnockPayload) (now : Int) : Prop where
  port : payload.serverPort = cfg.serverPort
  flags : validateKnockFlags h.flags payload = .ok ()
  method : cfg.method = [] ∨ payload.method = cfg.method
  kind : payload.frameType = knockFrameTypeUDPSequence ∨ payload.frameType = knockFrameTypeUDP
  sequence : payload.frameType = knockFrameTypeUDPSequence →
    cfg.allowSequence = true ∧ payload.sequenceID.length = knockSequenceIDBytes ∧
      2 ≤ payload.sequenceTotal ∧ payload.sequenceTotal ≤ defaultSequenceMaxParts ∧
      0 ≤ payload.sequenceIndex ∧ payload.sequenceIndex < payload.sequenceTotal
  timely : WithinWindow cfg.timeWindow now payload.timestampMS

theorem ServerConfig.validatePayload_ok_iff {cfg : ServerConfig} {h : KnockFrameHeader}
    {payload : KnockPayload} {now : Int} :
    cfg.validatePayload h payload now = .ok () ↔ cfg.Validates h payload now := by
  constructor
  · intro valid
    unfold validatePayload at valid
    split at valid
    · cases valid
    rename_i port
    split at valid
    · cases valid
    rename_i flags
    split at valid
    · cases valid
    rename_i method
    split at valid
    · cases valid
    rename_i allowed
    split at valid
    · cases valid
    rename_i parts
    split at valid
    · cases valid
    rename_i kind
    simp only at valid
    split at valid
    · cases valid
    rename_i young
    refine ⟨not_not.mp port, flags, ?_, ?_, ?_, ?_⟩
    · by_contra other
      exact method (not_or.mp other)
    · by_contra other
      exact kind (not_or.mp other)
    · intro sequence
      simp only [sequence, true_and, Bool.not_eq_false] at allowed
      simp only [sequence, true_and, not_or, not_not, not_lt, not_le] at parts
      exact ⟨allowed, parts⟩
    · rw [not_or] at young
      exact ⟨Int64.not_lt.mp young.1, Int64.not_lt.mp young.2⟩
  · intro valid
    have young : ¬ (since now (unixMilli payload.timestampMS) < -cfg.timeWindow ∨
        cfg.timeWindow < since now (unixMilli payload.timestampMS)) := by
      rintro (early | late)
      · exact absurd valid.timely.1 (Int64.not_le.mpr early)
      · exact absurd valid.timely.2 (Int64.not_le.mpr late)
    rw [validatePayload, if_neg (not_not_intro valid.port), valid.flags]
    simp only
    rw [if_neg, if_neg, if_neg, if_neg, if_neg young]
    · rintro ⟨notSequence, notSingle⟩
      exact valid.kind.elim notSequence notSingle
    · rintro ⟨sequence, wrong⟩
      have parts := (valid.sequence sequence).2
      omega
    · rintro ⟨sequence, refused⟩
      rw [(valid.sequence sequence).1] at refused
      cases refused
    · rintro ⟨named, other⟩
      exact valid.method.elim named other

end Libknock.Knock
