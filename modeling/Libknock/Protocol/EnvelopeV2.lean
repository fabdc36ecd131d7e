import Libknock.Protocol.Frame

/-!
# TCP auth envelope v2

`protocol/envelope_v2.go`: an unframed prefix of 24 random bytes, an optional
route hint and a sealed payload padded to one of five bucket sizes.  What the
builder draws from the system's randomness is an argument.
-/

set_option autoImplicit false

namespace Libknock.Protocol

open Foundation Codec

def envelopeV2Version : UInt8 := 2

def envelopeV2PrefixSize : Nat := 24

def envelopeV2RouteHintSize : Nat := 8

def envelopeV2DefaultMaxSize : Int := 512

def envelopeV2ProtocolLabel : Bytes := ascii "tcp-auth-envelope-v2"

def envelopeV2FlagServerProof : UInt8 := flagServerProof

def envelopeV2DefaultBuckets : List Int := [128, 192, 256, 384, 512]

/-- The two modes, the empty string and every other string. -/
inductive EnvelopeV2HintMode where
  | unset
  | none
  | routeHint
  | unrecognized
  deriving DecidableEq

inductive EnvelopeV2PaddingPolicy where
  | unset
  | none
  | randomBucket
  | unrecognized
  deriving DecidableEq

structure EnvelopeV2Config where
  hintMode : EnvelopeV2HintMode
  frameSizeBuckets : List Int
  paddingPolicy : EnvelopeV2PaddingPolicy
  deriving DecidableEq

structure EnvelopeV2Header where
  prefixRandom : FixedBytes 24
  routeHint : UInt64
  bucketSize : Int
  hintMode : EnvelopeV2HintMode
  deriving DecidableEq

structure EnvelopeV2Payload where
  version : UInt8
  flags : UInt8
  timestampUnixMS : Int64
  clientIDHash : FixedBytes 16
  serverPort : Int
  method : Bytes
  sessionID : Bytes
  extensions : Bytes
  deriving DecidableEq

def EnvelopeV2Config.withDefaults (c : EnvelopeV2Config) : EnvelopeV2Config where
  hintMode := if c.hintMode = .unset then .routeHint else c.hintMode
  frameSizeBuckets :=
    if c.frameSizeBuckets = [] then envelopeV2DefaultBuckets else c.frameSizeBuckets
  paddingPolicy := if c.paddingPolicy = .unset then .randomBucket else c.paddingPolicy

def envelopeV2SupportedBucket (bucket : Int) : Bool := bucket ∈ envelopeV2DefaultBuckets

/-- The loop over the buckets; the flag is `seenValid`. -/
def checkBuckets (maxFrameSize : Int) : Bool → List Int → Except ProtocolError Bool
  | seenValid, [] => .ok seenValid
  | _, bucket :: rest =>
    if ¬ envelopeV2SupportedBucket bucket then .error .invalidFrameSizeBucket
    else if bucket > maxFrameSize then .error .frameTooLarge
    else checkBuckets maxFrameSize true rest

def EnvelopeV2Config.validate (config : EnvelopeV2Config) (maxFrameSize : Int) :
    Except ProtocolError Unit :=
  let c := config.withDefaults
  if c.hintMode ≠ .routeHint ∧ c.hintMode ≠ .none then .error .invalidFrame
  else if c.paddingPolicy ≠ .randomBucket ∧ c.paddingPolicy ≠ .none then .error .invalidFrame
  else
    let limit := if maxFrameSize ≤ 0 then envelopeV2DefaultMaxSize else maxFrameSize
    if c.frameSizeBuckets = [] then .error .frameTooLarge
    else
      match checkBuckets limit false c.frameSizeBuckets with
      | .error err => .error err
      | .ok seenValid => if seenValid then .ok () else .error .frameTooLarge

/-! ## Buckets -/

def supportedOnce : List Int → List Int → List Int
  | _, [] => []
  | seen, v :: rest =>
    if ¬ envelopeV2SupportedBucket v ∨ v ∈ seen then supportedOnce seen rest
    else v :: supportedOnce (v :: seen) rest

/-- The in-place insertion sort: the sorted part is kept with its largest
element first, and each next element sinks below the strictly larger ones. -/
def sortBuckets (out : List Int) : List Int :=
  (out.foldl (fun sorted v => sorted.orderedInsert (· ≥ ·) v) []).reverse

def envelopeV2Buckets (buckets : List Int) : List Int :=
  if buckets = [] then envelopeV2DefaultBuckets else sortBuckets (supportedOnce [] buckets)

/-! ## Keys, nonces and associated data -/

/-- The route hint as it stands in the frame and in the associated data. -/
def hintBytes (hintMode : EnvelopeV2HintMode) (routeHint : UInt64) : Bytes :=
  if hintMode = .routeHint then putUint64 routeHint else []

def envelopeV2PrefixLen (hintMode : EnvelopeV2HintMode) : Nat :=
  if hintMode = .routeHint then envelopeV2PrefixSize + envelopeV2RouteHintSize
  else envelopeV2PrefixSize

def envelopeV2Nonce (prefixRandom : FixedBytes 24) : Bytes := prefixRandom.bytes

def envelopeV2AAD (h : EnvelopeV2Header) (serverPort : Int) : Bytes :=
  h.prefixRandom.bytes ++ hintBytes h.hintMode h.routeHint ++
    putUint16 (uint16OfInt h.bucketSize) ++ putUint16 (uint16OfInt serverPort) ++
    envelopeV2ProtocolLabel

section Keys

variable (crypto : Crypto)

def deriveEnvelopeV2Key (secret : Bytes) (prefixRandom : FixedBytes 24) : Bytes :=
  (crypto.hkdfSHA256 secret prefixRandom.bytes (ascii "libknock tcp-auth envelope v2")
    keySize).bytes

def sealEnvelopeV2 (secret : Bytes) (h : EnvelopeV2Header) (serverPort : Int) (plain : Bytes) :
    Bytes :=
  crypto.aeadSeal (deriveEnvelopeV2Key crypto secret h.prefixRandom)
    (envelopeV2Nonce h.prefixRandom) plain (envelopeV2AAD h serverPort)

def openEnvelopeV2Sealed (secret : Bytes) (h : EnvelopeV2Header) (serverPort : Int)
    (sealed : Bytes) : Option Bytes :=
  crypto.aeadOpen (deriveEnvelopeV2Key crypto secret h.prefixRandom)
    (envelopeV2Nonce h.prefixRandom) sealed (envelopeV2AAD h serverPort)

def computeEnvelopeV2RouteHint (secret : Bytes) (prefixRandom : FixedBytes 24)
    (serverPort : Int) : UInt64 :=
  if portInRange serverPort then
    crypto.hmacTrunc64 secret (ascii "libknock tcp-auth hint v2" ++ prefixRandom.bytes ++
      putUint16 (uint16OfInt serverPort))
  else 0

def computeEnvelopeV2ServerProof (secret : Bytes) (h : EnvelopeV2Header) (serverPort : Int) :
    Bytes :=
  if portInRange serverPort then
    (crypto.hmacSHA256 secret (ascii "server-proof-v2" ++ h.prefixRandom.bytes ++
      putUint64 h.routeHint ++ putUint16 (uint16OfInt serverPort))).bytes
  else []

def buildEnvelopeV2ServerProof (secret : Bytes) (h : EnvelopeV2Header) (serverPort : Int) : Bytes :=
  proofFrame envelopeV2Version (h.prefixRandom.bytes.take 16)
    (computeEnvelopeV2ServerProof crypto secret h serverPort)

def verifyEnvelopeV2ServerProof (proof secret : Bytes) (h : EnvelopeV2Header)
    (serverPort : Int) : Bool :=
  verifyProofFrame envelopeV2Version (h.prefixRandom.bytes.take 16)
    (computeEnvelopeV2ServerProof crypto secret h serverPort) proof

end Keys

/-! ## The payload codec -/

def encodeEnvelopeV2Payload (p : EnvelopeV2Payload) : Except ProtocolError Bytes :=
  if ¬ portInRange p.serverPort then .error (.portOutOfRange p.serverPort)
  else if 255 < p.method.length ∨ 255 < p.sessionID.length ∨ 65535 < p.extensions.length then
    .error .frameTooLarge
  else
    .ok ([p.version] ++ ([p.flags] ++ (putUint64 p.timestampUnixMS.toUInt64 ++
      (p.clientIDHash.bytes ++ (putUint16 (uint16OfInt p.serverPort) ++
      ([UInt8.ofNat p.method.length] ++ (p.method ++ ([UInt8.ofNat p.sessionID.length] ++
      (p.sessionID ++ (putUint16 (UInt16.ofNat p.extensions.length) ++ p.extensions))))))))))

def envelopeV2PayloadDecoder : Decoder ProtocolError EnvelopeV2Payload := do
  let version ← readByte
  let flags ← readByte
  let ts ← readUint64
  let id ← readFixed 16
  let port ← readUint16
  let methodLen ← readByte
  let method ← readVarBytes methodLen.toNat false
  let sessionLen ← readByte
  let sessionID ← readVarBytes sessionLen.toNat true
  let extLen ← readUint16
  let extensions ← readVarBytes extLen.toNat true
  pure ⟨version, flags, ts.toInt64, FixedBytes.copy 16 id, port.toNat, method, sessionID,
    extensions⟩

def decodeEnvelopeV2PayloadWithLength (raw : Bytes) :
    Except ProtocolError (EnvelopeV2Payload × Nat) :=
  match envelopeV2PayloadDecoder (newReader raw .invalidFrame) with
  | .error err => .error err
  | .ok (p, reader) => .ok (p, reader.pos)

def decodeEnvelopeV2Payload (raw : Bytes) : Except ProtocolError EnvelopeV2Payload :=
  match decodeEnvelopeV2PayloadWithLength raw with
  | .error err => .error err
  | .ok (p, next) => if next ≠ raw.length then .error .invalidFrame else .ok p

/-- The checks `OpenEnvelopeV2Payload` makes on the decrypted body. -/
def parseEnvelopeV2Body (plain : Bytes) : Except ProtocolError EnvelopeV2Payload :=
  match decodeEnvelopeV2PayloadWithLength plain with
  | .error err => .error err
  | .ok (payload, next) =>
    if next + 2 > plain.length then .error .invalidFrame
    else
      let paddingLen := (uint16 (slice next (next + 2) plain)).toNat
      if next + 2 + paddingLen ≠ plain.length then .error .invalidFrame
      else if payload.version ≠ envelopeV2Version then .error .unsupportedVersion
      else if unsupportedFlags payload.flags then .error .unsupportedFlags
      else .ok payload

def openEnvelopeV2Payload (crypto : Crypto) (secret : Bytes) (h : EnvelopeV2Header)
    (serverPort : Int) (sealed : Bytes) : Except ProtocolError EnvelopeV2Payload :=
  match openEnvelopeV2Sealed crypto secret h serverPort sealed with
  | none => .error .openFailed
  | some plain => parseEnvelopeV2Body plain

/-! ## Building and reading -/

/-- What `BuildEnvelopeV2` takes from the system: the successive 24-byte reads
until the source fails, the number drawn for the bucket, and padding bytes. -/
structure EnvelopeV2Draws where
  prefixes : List (FixedBytes 24)
  bucket : Nat
  padding : (count : Nat) → FixedBytes count

/-- Redrawing until the first byte differs from the version byte of frame v1. -/
def drawPrefixRandom : List (FixedBytes 24) → Except ProtocolError (FixedBytes 24)
  | [] => .error .noEntropy
  | draw :: rest =>
    if draw.bytes.getD 0 0 ≠ version then .ok draw else drawPrefixRandom rest

/-- The plaintext with its padding, `paddingLen` bytes of it. -/
def envelopeV2Body (policy : EnvelopeV2PaddingPolicy) (padding : (count : Nat) → FixedBytes count)
    (plain : Bytes) (paddingLen : Nat) : Except ProtocolError Bytes :=
  let head := plain ++ putUint16 (UInt16.ofNat paddingLen)
  if 0 < paddingLen then
    if policy = .randomBucket then .ok (head ++ (padding paddingLen).bytes)
    else if policy ≠ .none then .error .invalidFrame
    else .ok (head ++ List.replicate paddingLen 0)
  else .ok head

/-- The bytes on the wire: prefix, hint when the mode has one, sealed body. -/
def envelopeV2Frame (h : EnvelopeV2Header) (sealed : Bytes) : Bytes :=
  h.prefixRandom.bytes ++ hintBytes h.hintMode h.routeHint ++ sealed

/-- The second half of `BuildEnvelopeV2`, once the payload is encoded. -/
def finishEnvelopeV2 (crypto : Crypto) (secret : Bytes) (serverPort : Int)
    (cfg : EnvelopeV2Config) (draws : EnvelopeV2Draws) (prefixRandom : FixedBytes 24)
    (routeHint : UInt64) (plain : Bytes) : Except ProtocolError (Bytes × EnvelopeV2Header) :=
  let headLen := envelopeV2PrefixLen cfg.hintMode
  let minSize : Int := headLen + plain.length + overhead
  let candidates := (envelopeV2Buckets cfg.frameSizeBuckets).filter fun bucket => bucket ≥ minSize
  if candidates = [] then .error .frameTooLarge
  else
    let bucket := candidates.getD (draws.bucket % candidates.length) 0
    let h : EnvelopeV2Header := ⟨prefixRandom, routeHint, bucket, cfg.hintMode⟩
    let paddingLen : Int := bucket - headLen - overhead - plain.length - 2
    if paddingLen < 0 then .error .frameTooLarge
    else
      match envelopeV2Body cfg.paddingPolicy draws.padding plain paddingLen.toNat with
      | .error err => .error err
      | .ok body => .ok (envelopeV2Frame h (sealEnvelopeV2 crypto secret h serverPort body), h)

def buildEnvelopeV2 (crypto : Crypto) (clientID secret : Bytes) (serverPort now : Int)
    (flags : UInt8) (method sessionID extensions : Bytes) (config : EnvelopeV2Config)
    (draws : EnvelopeV2Draws) : Except ProtocolError (Bytes × EnvelopeV2Header) :=
  let cfg := config.withDefaults
  match cfg.validate envelopeV2DefaultMaxSize with
  | .error err => .error err
  | .ok () =>
    if clientID = [] ∨ secret.length < minSecretSize then .error .invalidFrame
    else if unsupportedFlags flags then .error .unsupportedFlags
    else if ¬ portInRange serverPort then .error (.portOutOfRange serverPort)
    else
      match drawPrefixRandom draws.prefixes with
      | .error err => .error err
      | .ok prefixRandom =>
        if cfg.hintMode ≠ .routeHint ∧ cfg.hintMode ≠ .none then .error .invalidFrame
        else
          let routeHint := if cfg.hintMode = .routeHint then
            computeEnvelopeV2RouteHint crypto secret prefixRandom serverPort else 0
          match encodeEnvelopeV2Payload ⟨envelopeV2Version, flags, toUnixMilli now,
              computeClientIDHash crypto secret clientID, serverPort, method, sessionID,
              extensions⟩ with
          | .error err => .error err
          | .ok plain =>
            finishEnvelopeV2 crypto secret serverPort cfg draws prefixRandom routeHint plain

def readEnvelopeV2Prefix (hintMode : EnvelopeV2HintMode) (reader : StreamReader) :
    Except ProtocolError (EnvelopeV2Header × StreamReader) :=
  match readFull envelopeV2PrefixSize reader with
  | .error err => .error err
  | .ok (random, afterRandom) =>
    if hintMode = .routeHint then
      match readFull envelopeV2RouteHintSize afterRandom with
      | .error err => .error err
      | .ok (raw, afterHint) =>
        .ok (⟨FixedBytes.copy 24 random, uint64 raw, 0, hintMode⟩, afterHint)
    else if hintMode ≠ .none then .error .invalidFrame
    else .ok (⟨FixedBytes.copy 24 random, 0, 0, hintMode⟩, afterRandom)

/-! ## The bucket list -/

theorem mem_supportedOnce (seen buckets : List Int) (bucket : Int) :
    bucket ∈ supportedOnce seen buckets ↔
      bucket ∈ buckets ∧ envelopeV2SupportedBucket bucket = true ∧ bucket ∉ seen := by
  induction buckets generalizing seen with
  | nil => simp [supportedOnce]
  | cons v rest ih =>
    rw [supportedOnce]
    split
    · rename_i skipped
      rw [ih]
      constructor
      · rintro ⟨member, supported, fresh⟩
        exact ⟨List.mem_cons_of_mem v member, supported, fresh⟩
      · rintro ⟨member, supported, fresh⟩
        rcases List.mem_cons.mp member with rfl | member
        · rcases skipped with unsupported | repeated
          · exact absurd supported unsupported
          · exact absurd repeated fresh
        · exact ⟨member, supported, fresh⟩
    · rename_i taken
      push Not at taken
      simp only [List.mem_cons, ih, not_or]
      constructor
      · rintro (rfl | ⟨member, supported, _, fresh⟩)
        · exact ⟨Or.inl rfl, taken.1, taken.2⟩
        · exact ⟨Or.inr member, supported, fresh⟩
      · rintro ⟨rfl | member, supported, fresh⟩
        · exact Or.inl rfl
        · by_cases same : bucket = v
          · exact Or.inl same
          · exact Or.inr ⟨member, supported, same, fresh⟩

theorem supportedOnce_nodup (seen buckets : List Int) : (supportedOnce seen buckets).Nodup := by
  induction buckets generalizing seen with
  | nil => exact List.nodup_nil
  | cons v rest ih =>
    rw [supportedOnce]
    split
    · exact ih seen
    · refine List.nodup_cons.mpr ⟨?_, ih (v :: seen)⟩
      intro again
      exact ((mem_supportedOnce _ _ _).mp again).2.2 (List.mem_cons_self ..)

variable (crypto : Crypto) (secret : Bytes) (h : EnvelopeV2Header) (out : List Int) (bucket : Int)
  (p : EnvelopeV2Payload) (serverPort : Int)

theorem sortLoop_perm (sorted : List Int) :
    (out.foldl (fun sorted v => sorted.orderedInsert (· ≥ ·) v) sorted).Perm (sorted ++ out) := by
  induction out generalizing sorted with
  | nil => simp
  | cons v rest ih =>
    have inserted : (sorted.orderedInsert (· ≥ ·) v).Perm (v :: sorted) :=
      List.perm_orderedInsert _ v sorted
    have moved : (v :: sorted ++ rest).Perm (sorted ++ v :: rest) :=
      List.perm_middle.symm
    exact (ih _).trans ((inserted.append_right rest).trans moved)

theorem sortLoop_sorted (sorted : List Int) (start : sorted.Pairwise (· ≥ ·)) :
    (out.foldl (fun sorted v => sorted.orderedInsert (· ≥ ·) v) sorted).Pairwise (· ≥ ·) := by
  induction out generalizing sorted with
  | nil => exact start
  | cons v rest ih => exact ih _ (List.Pairwise.orderedInsert (r := (· ≥ ·)) v sorted start)

theorem sortBuckets_perm : (sortBuckets out).Perm out :=
  (List.reverse_perm _).trans (sortLoop_perm out [])

theorem mem_sortBuckets : bucket ∈ sortBuckets out ↔ bucket ∈ out :=
  (sortBuckets_perm out).mem_iff

theorem sortBuckets_sorted : (sortBuckets out).Pairwise (· ≤ ·) := by
  rw [sortBuckets, List.pairwise_reverse]
  exact sortLoop_sorted out [] List.Pairwise.nil

theorem envelopeV2Buckets_sorted (buckets : List Int) :
    (envelopeV2Buckets buckets).Pairwise (· ≤ ·) := by
  unfold envelopeV2Buckets
  split
  · decide
  · exact sortBuckets_sorted _

theorem envelopeV2Buckets_strict (buckets : List Int) :
    (envelopeV2Buckets buckets).Pairwise (· < ·) := by
  have distinct : (envelopeV2Buckets buckets).Nodup := by
    unfold envelopeV2Buckets
    split
    · decide
    · exact (sortBuckets_perm _).nodup_iff.mpr (supportedOnce_nodup [] buckets)
  refine (envelopeV2Buckets_sorted buckets).imp₂ ?_ distinct
  intro smaller larger ordered apart
  omega

theorem mem_envelopeV2Buckets (buckets : List Int) (some_ : buckets ≠ []) (bucket : Int) :
    bucket ∈ envelopeV2Buckets buckets ↔
      bucket ∈ buckets ∧ envelopeV2SupportedBucket bucket = true := by
  rw [envelopeV2Buckets, if_neg some_, mem_sortBuckets, mem_supportedOnce]
  simp

theorem envelopeV2Buckets_supported {buckets : List Int} {bucket : Int}
    (member : bucket ∈ envelopeV2Buckets buckets) : bucket ∈ envelopeV2DefaultBuckets := by
  unfold envelopeV2Buckets at member
  split at member
  · exact member
  · rw [mem_sortBuckets, mem_supportedOnce] at member
    exact of_decide_eq_true member.2.1

theorem supported_range (supported : bucket ∈ envelopeV2DefaultBuckets) :
    128 ≤ bucket ∧ bucket ≤ 512 := by
  simp only [envelopeV2DefaultBuckets, List.mem_cons, List.not_mem_nil, or_false] at supported
  omega

/-! ## Round trips -/

def envelopeV2PayloadBytes (p : EnvelopeV2Payload) : Bytes :=
  [p.version] ++ ([p.flags] ++ (putUint64 p.timestampUnixMS.toUInt64 ++ (p.clientIDHash.bytes ++
    (putUint16 (uint16OfInt p.serverPort) ++ ([UInt8.ofNat p.method.length] ++ (p.method ++
    ([UInt8.ofNat p.sessionID.length] ++ (p.sessionID ++
    (putUint16 (UInt16.ofNat p.extensions.length) ++ p.extensions)))))))))

theorem encodeEnvelopeV2Payload_ok_iff {p : EnvelopeV2Payload} {raw : Bytes} :
    encodeEnvelopeV2Payload p = .ok raw ↔
      FieldsFit p.serverPort p.method p.sessionID p.extensions ∧ envelopeV2PayloadBytes p = raw :=
  checked_ok_iff

theorem envelopeV2PayloadDecoder_reads (raw : Bytes)
    (encoded : encodeEnvelopeV2Payload p = .ok raw) :
    Reads envelopeV2PayloadDecoder raw p := by
  obtain ⟨fit, rfl⟩ := encodeEnvelopeV2Payload_ok_iff.mp encoded
  refine reads_bind (readByte_reads _) (reads_bind (readByte_reads _)
    (reads_bind (readUint64_reads _) (reads_bind (readFixed_reads_array _)
    (reads_bind (readUint16_reads _) (reads_counted fit.method (reads_counted fit.session
    (reads_bind (readUint16_reads _) ?_)))))))
  rw [fit.extLen]
  have last := reads_map (readFixed_reads (ε := ProtocolError) p.extensions) fun extensions =>
    ({ p with extensions := extensions } : EnvelopeV2Payload)
  simpa [FixedBytes.copy_bytes, fit.portBack, readVarBytes] using last

theorem decodeEnvelopeV2PayloadWithLength_append (raw tail : Bytes)
    (encoded : encodeEnvelopeV2Payload p = .ok raw) :
    decodeEnvelopeV2PayloadWithLength (raw ++ tail) = .ok (p, raw.length) := by
  have run := envelopeV2PayloadDecoder_reads p raw encoded [] tail .invalidFrame
  rw [decodeEnvelopeV2PayloadWithLength, newReader_eq_readerAt, run]
  simp

theorem parseEnvelopeV2Body_padded (raw padding : Bytes)
    (encoded : encodeEnvelopeV2Payload p = .ok raw) (small : padding.length < 65536)
    (current : p.version = envelopeV2Version) (supported : unsupportedFlags p.flags = false) :
    parseEnvelopeV2Body (raw ++ putUint16 (UInt16.ofNat padding.length) ++ padding) = .ok p := by
  have decoded := decodeEnvelopeV2PayloadWithLength_append p raw
    (putUint16 (UInt16.ofNat padding.length) ++ padding) encoded
  rw [← List.append_assoc] at decoded
  have sized : slice raw.length (raw.length + 2)
      (raw ++ putUint16 (UInt16.ofNat padding.length) ++ padding) =
        putUint16 (UInt16.ofNat padding.length) := by
    simp [slice, List.append_assoc]
  have total : (raw ++ putUint16 (UInt16.ofNat padding.length) ++ padding).length =
      raw.length + 2 + padding.length := by simp [Nat.add_assoc]
  have padded : (UInt16.ofNat padding.length).toNat = padding.length := by
    rw [UInt16.toNat_ofNat', Nat.mod_eq_of_lt small]
  rw [parseEnvelopeV2Body, decoded]
  simp only [sized, total, uint16_putUint16, padded]
  rw [if_neg (by omega), if_neg (by simp), if_neg (not_not_intro current),
    if_neg (by simp [supported])]

/-! ## What the prefix reader accepts -/

theorem hintBytes_length (hintMode : EnvelopeV2HintMode) (routeHint : UInt64) :
    24 + (hintBytes hintMode routeHint).length = envelopeV2PrefixLen hintMode := by
  unfold hintBytes envelopeV2PrefixLen
  split <;> simp [envelopeV2PrefixSize, envelopeV2RouteHintSize]

/-- The header a reader in this mode can return: it has no bucket yet, and no
hint when the mode has none. -/
structure PrefixAccepted (hintMode : EnvelopeV2HintMode) (h : EnvelopeV2Header) : Prop where
  mode : h.hintMode = hintMode
  known : hintMode = .routeHint ∨ hintMode = .none
  hintless : hintMode = .none → h.routeHint = 0
  unsized : h.bucketSize = 0

def prefixBytes (h : EnvelopeV2Header) : Bytes :=
  h.prefixRandom.bytes ++ hintBytes h.hintMode h.routeHint

theorem prefixBytes_length : (prefixBytes h).length = envelopeV2PrefixLen h.hintMode := by
  rw [prefixBytes, List.length_append, h.prefixRandom.length_eq, hintBytes_length]

theorem readEnvelopeV2Prefix_sent (hintMode : EnvelopeV2HintMode) (h : EnvelopeV2Header)
    (rest : Bytes) (accepted : PrefixAccepted hintMode h) (reader : StreamReader)
    (calm : reader.err = none) (pending : reader.pending = prefixBytes h ++ rest) :
    ∃ next, readEnvelopeV2Prefix hintMode reader = .ok (h, next) ∧
      BufferedReader.Advances reader next (prefixBytes h) := by
  obtain ⟨mode, known, hintless, unsized⟩ := accepted
  obtain ⟨⟨random, full⟩, routeHint, bucketSize, headerMode⟩ := h
  simp only at mode hintless unsized
  subst mode unsized
  simp only [prefixBytes, List.append_assoc] at pending ⊢
  obtain ⟨middle, randomRun, randomStep⟩ := readFull_sent 24 reader calm
    (by rw [pending, List.length_append, full]; omega)
  have front : reader.pending.take 24 = random := by
    rw [pending, ← full, List.take_left]
  rw [front] at randomRun randomStep
  have remaining : middle.pending = hintBytes headerMode routeHint ++ rest := by
    have split := randomStep.pending
    rw [pending] at split
    exact (List.append_cancel_left split).symm
  have copied : FixedBytes.copy 24 random = ⟨random, full⟩ :=
    FixedBytes.ext_bytes (FixedBytes.copy_bytes_of_length random full)
  rw [readEnvelopeV2Prefix, envelopeV2PrefixSize, randomRun]
  rcases known with rfl | rfl
  · simp only [hintBytes, if_true] at remaining ⊢
    obtain ⟨next, hintRun, hintStep⟩ := readFull_sent 8 middle randomStep.calm
      (by rw [remaining, List.length_append, putUint64_length]; omega)
    have hint : middle.pending.take 8 = putUint64 routeHint := by
      rw [remaining, ← putUint64_length routeHint, List.take_left]
    rw [hint] at hintRun hintStep
    rw [envelopeV2RouteHintSize, hintRun]
    exact ⟨next, by simp [copied], randomStep.trans hintStep⟩
  · have absent : routeHint = 0 := hintless rfl
    subst absent
    refine ⟨middle, by simp [copied], ?_⟩
    simpa [hintBytes] using randomStep

theorem readEnvelopeV2Prefix_ok {hintMode : EnvelopeV2HintMode} {h : EnvelopeV2Header}
    {reader next : StreamReader} (calm : reader.err = none)
    (success : readEnvelopeV2Prefix hintMode reader = .ok (h, next)) :
    PrefixAccepted hintMode h ∧ BufferedReader.Advances reader next (prefixBytes h) := by
  unfold readEnvelopeV2Prefix at success
  split at success
  · cases success
  rename_i random middle randomRun
  obtain ⟨sent, randomEq, randomStep⟩ := readFull_ok calm randomRun
  have full : random.length = 24 := by
    rw [randomEq, List.length_take]
    simp only [envelopeV2PrefixSize] at sent ⊢
    omega
  have copied : (FixedBytes.copy 24 random).bytes = random :=
    FixedBytes.copy_bytes_of_length random full
  split at success
  · rename_i routed
    subst routed
    split at success
    · cases success
    rename_i raw afterHint hintRun
    cases success
    obtain ⟨hintSent, rawEq, hintStep⟩ :=
      readFull_ok randomStep.calm hintRun
    have eight : raw.length = 8 := by
      rw [rawEq, List.length_take]
      simp only [envelopeV2RouteHintSize] at hintSent ⊢
      omega
    refine ⟨⟨rfl, Or.inl rfl, by simp, rfl⟩, ?_⟩
    simp only [prefixBytes, hintBytes, if_true, copied, putUint64_uint64 raw eight]
    exact randomStep.trans hintStep
  · rename_i unrouted
    split at success
    · cases success
    rename_i silent
    push Not at silent
    subst silent
    cases success
    refine ⟨⟨rfl, Or.inr rfl, fun _ => rfl, rfl⟩, ?_⟩
    simpa [prefixBytes, hintBytes, copied] using randomStep

/-! ## What the builder produces -/

theorem drawPrefixRandom_ok {draws : List (FixedBytes 24)} {prefixRandom : FixedBytes 24}
    (drawn : drawPrefixRandom draws = .ok prefixRandom) :
    prefixRandom.bytes.getD 0 0 ≠ version := by
  induction draws with
  | nil => cases drawn
  | cons draw rest ih =>
    rw [drawPrefixRandom] at drawn
    split at drawn
    · rename_i different
      cases drawn
      exact different
    · exact ih drawn

theorem envelopeV2Body_ok {policy : EnvelopeV2PaddingPolicy}
    {padding : (count : Nat) → FixedBytes count} {plain body : Bytes} {paddingLen : Nat}
    (built : envelopeV2Body policy padding plain paddingLen = .ok body) :
    ∃ filler : Bytes, filler.length = paddingLen ∧
      body = plain ++ putUint16 (UInt16.ofNat filler.length) ++ filler := by
  unfold envelopeV2Body at built
  simp only at built
  split at built
  · split at built
    · cases built
      exact ⟨(padding paddingLen).bytes, (padding paddingLen).length_eq, by
        rw [(padding paddingLen).length_eq]⟩
    · split at built
      · cases built
      cases built
      exact ⟨List.replicate paddingLen 0, List.length_replicate, by
        rw [List.length_replicate]⟩
  · rename_i empty
    have zero : paddingLen = 0 := by omega
    subst zero
    cases built
    exact ⟨[], rfl, by simp⟩

theorem getD_mod_mem (candidates : List Int) (available : candidates ≠ []) (draw : Nat) :
    candidates.getD (draw % candidates.length) 0 ∈ candidates := by
  have inside : draw % candidates.length < candidates.length :=
    Nat.mod_lt _ (List.length_pos_iff.mpr available)
  have found : candidates.getD (draw % candidates.length) 0 = candidates.get ⟨_, inside⟩ := by
    simp [inside]
  rw [found]
  exact List.get_mem candidates _

section Builder

variable {crypto : Crypto} {clientID secret method sessionID extensions frame : Bytes}
  {serverPort now : Int} {flags : UInt8} {cfg : EnvelopeV2Config} {draws : EnvelopeV2Draws}
  {h : EnvelopeV2Header}

theorem finishEnvelopeV2_ok {prefixRandom : FixedBytes 24} {routeHint : UInt64} {plain : Bytes}
    (built : finishEnvelopeV2 crypto secret serverPort cfg draws prefixRandom routeHint plain =
      .ok (frame, h)) :
    ∃ bucket filler, bucket ∈ envelopeV2Buckets cfg.frameSizeBuckets ∧
      h = ⟨prefixRandom, routeHint, bucket, cfg.hintMode⟩ ∧ filler.length < 65536 ∧
      ((envelopeV2PrefixLen cfg.hintMode + (plain.length + 2 + filler.length + overhead) : Nat) :
        Int) = bucket ∧
      frame = envelopeV2Frame h (sealEnvelopeV2 crypto secret h serverPort
        (plain ++ putUint16 (UInt16.ofNat filler.length) ++ filler)) := by
  unfold finishEnvelopeV2 at built
  simp only at built
  split at built
  · cases built
  rename_i available
  split at built
  · cases built
  rename_i padded
  split at built
  · cases built
  rename_i body filled
  cases built
  obtain ⟨filler, fillerLength, bodyEq⟩ := envelopeV2Body_ok filled
  have offered := List.mem_of_mem_filter (getD_mod_mem _ available draws.bucket)
  have range := supported_range _ (envelopeV2Buckets_supported offered)
  refine ⟨_, filler, offered, rfl, ?_, ?_, by rw [bodyEq]⟩
  · omega
  · omega

/-- The tests that a successful `BuildEnvelopeV2` has passed on its way to the
buckets. -/
structure EnvelopeChecked (crypto : Crypto) (clientID secret : Bytes) (serverPort now : Int)
    (flags : UInt8) (method sessionID extensions : Bytes) (cfg : EnvelopeV2Config)
    (draws : EnvelopeV2Draws) (frame : Bytes) (h : EnvelopeV2Header) (prefixRandom : FixedBytes 24)
    (plain : Bytes) : Prop where
  named : clientID ≠ []
  secretSize : minSecretSize ≤ secret.length
  supported : unsupportedFlags flags = false
  port : portInRange serverPort = true
  drawn : drawPrefixRandom draws.prefixes = .ok prefixRandom
  known : cfg.hintMode = .routeHint ∨ cfg.hintMode = .none
  encoded : encodeEnvelopeV2Payload ⟨envelopeV2Version, flags, toUnixMilli now,
    computeClientIDHash crypto secret clientID, serverPort, method, sessionID, extensions⟩ =
      .ok plain
  finished : finishEnvelopeV2 crypto secret serverPort cfg draws prefixRandom
    (if cfg.hintMode = .routeHint then
      computeEnvelopeV2RouteHint crypto secret prefixRandom serverPort else 0) plain =
        .ok (frame, h)

theorem buildEnvelopeV2_checked
    (built : buildEnvelopeV2 crypto clientID secret serverPort now flags method sessionID
      extensions cfg draws = .ok (frame, h)) :
    ∃ prefixRandom plain, EnvelopeChecked crypto clientID secret serverPort now flags method
      sessionID extensions cfg.withDefaults draws frame h prefixRandom plain := by
  unfold buildEnvelopeV2 at built
  simp only at built
  split at built
  · cases built
  split at built
  · cases built
  rename_i identity
  split at built
  · cases built
  rename_i supported
  split at built
  · cases built
  rename_i port
  split at built
  · cases built
  rename_i prefixRandom drawn
  split at built
  · cases built
  rename_i mode
  split at built
  · cases built
  rename_i plain encoded
  push Not at identity
  refine ⟨prefixRandom, plain, identity.1, identity.2, by simpa using supported,
    by simpa using port, drawn, ?_, encoded, built⟩
  by_contra other
  exact mode (not_or.mp other)

/-- What a successful `BuildEnvelopeV2` has checked and put together. -/
structure EnvelopeBuilt (crypto : Crypto) (clientID secret : Bytes) (serverPort now : Int)
    (flags : UInt8) (method sessionID extensions : Bytes) (cfg : EnvelopeV2Config)
    (frame : Bytes) (h : EnvelopeV2Header) (payload : EnvelopeV2Payload) (body : Bytes) :
    Prop where
  named : clientID ≠ []
  secretSize : minSecretSize ≤ secret.length
  port : portInRange serverPort = true
  unlikeV1 : h.prefixRandom.bytes.getD 0 0 ≠ version
  mode : h.hintMode = cfg.hintMode
  known : cfg.hintMode = .routeHint ∨ cfg.hintMode = .none
  routeHint : h.routeHint = if cfg.hintMode = .routeHint then
    computeEnvelopeV2RouteHint crypto secret h.prefixRandom serverPort else 0
  bucket : h.bucketSize ∈ envelopeV2Buckets cfg.frameSizeBuckets
  request : payload = ⟨envelopeV2Version, flags, toUnixMilli now,
    computeClientIDHash crypto secret clientID, serverPort, method, sessionID, extensions⟩
  parsed : parseEnvelopeV2Body body = .ok payload
  size : ((envelopeV2PrefixLen cfg.hintMode + (body.length + overhead) : Nat) : Int) = h.bucketSize
  frame : frame = envelopeV2Frame h (sealEnvelopeV2 crypto secret h serverPort body)

theorem buildEnvelopeV2_ok
    (built : buildEnvelopeV2 crypto clientID secret serverPort now flags method sessionID
      extensions cfg draws = .ok (frame, h)) :
    ∃ payload body, EnvelopeBuilt crypto clientID secret serverPort now flags method sessionID
      extensions cfg.withDefaults frame h payload body := by
  obtain ⟨prefixRandom, plain, checked⟩ := buildEnvelopeV2_checked built
  obtain ⟨bucket, filler, offered, header, small, size, frameEq⟩ :=
    finishEnvelopeV2_ok checked.finished
  have parsed := parseEnvelopeV2Body_padded _ plain filler checked.encoded small rfl
    checked.supported
  subst header
  refine ⟨_, _, checked.named, checked.secretSize, checked.port,
    drawPrefixRandom_ok checked.drawn, rfl, checked.known, rfl, offered, rfl, parsed, ?_,
    frameEq⟩
  simpa [Nat.add_assoc] using size

end Builder

/-! ## Server proofs -/

theorem verifyEnvelopeV2ServerProof_build (port : portInRange serverPort = true) :
    verifyEnvelopeV2ServerProof crypto (buildEnvelopeV2ServerProof crypto secret h serverPort)
      secret h serverPort = true := by
  refine verifyProofFrame_proofFrame envelopeV2Version ?_ ?_
  · rw [List.length_take, h.prefixRandom.length_eq]
    rfl
  · rw [computeEnvelopeV2ServerProof, if_pos port]
    exact FixedBytes.length_eq _

end Libknock.Protocol
