import Libknock.Protocol.EnvelopeV2

/-!
# The size of an envelope and its bucket

`BuildEnvelopeV2` keeps the buckets that hold the head, the payload and the tag,
draws one of them and then puts two bytes more into it.  A bucket that lacks only
these two bytes is drawn and refused.
-/

set_option autoImplicit false

namespace Libknock.Protocol

open Foundation

/-! ## Valid configurations -/

theorem EnvelopeV2Config.withDefaults_withDefaults (config : EnvelopeV2Config) :
    config.withDefaults.withDefaults = config.withDefaults := by
  obtain ⟨mode, buckets, policy⟩ := config
  cases mode <;> cases policy <;> cases buckets <;> simp [withDefaults, envelopeV2DefaultBuckets]

variable {limit : Int} {plain : Bytes}

theorem checkBuckets_ok {buckets : List Int} :
    ∀ {seen last : Bool}, checkBuckets limit seen buckets = .ok last →
      ∀ bucket ∈ buckets, envelopeV2SupportedBucket bucket = true ∧ bucket ≤ limit := by
  induction buckets with
  | nil =>
    intro seen last passed bucket member
    cases member
  | cons head rest ih =>
    intro seen last passed bucket member
    rw [checkBuckets] at passed
    split at passed
    · cases passed
    rename_i supported
    split at passed
    · cases passed
    rename_i fits
    rcases List.mem_cons.mp member with rfl | inside
    · exact ⟨not_not.mp supported, Int.not_lt.mp fits⟩
    · exact ih passed bucket inside

structure EnvelopeV2Config.Valid (config : EnvelopeV2Config) (limit : Int) : Prop where
  mode : config.withDefaults.hintMode = .routeHint ∨ config.withDefaults.hintMode = .none
  policy : config.withDefaults.paddingPolicy = .randomBucket ∨
    config.withDefaults.paddingPolicy = .none
  some_bucket : config.withDefaults.frameSizeBuckets ≠ []
  buckets : ∀ bucket ∈ config.withDefaults.frameSizeBuckets,
    envelopeV2SupportedBucket bucket = true ∧
      bucket ≤ if limit ≤ 0 then envelopeV2DefaultMaxSize else limit

theorem EnvelopeV2Config.validate_ok {config : EnvelopeV2Config}
    (passed : config.validate limit = .ok ()) : config.Valid limit := by
  unfold validate at passed
  simp only at passed
  split at passed
  · cases passed
  rename_i mode
  split at passed
  · cases passed
  rename_i policy
  split at passed
  · cases passed
  rename_i nonempty
  split at passed
  · cases passed
  rename_i seen checked
  refine ⟨?_, ?_, nonempty, checkBuckets_ok checked⟩
  · by_contra other
    exact mode (not_or.mp other)
  · by_contra other
    exact policy (not_or.mp other)

theorem EnvelopeV2Config.Valid.mem_buckets {config : EnvelopeV2Config} (valid : config.Valid limit)
    (bucket : Int) :
    bucket ∈ envelopeV2Buckets config.withDefaults.frameSizeBuckets ↔
      bucket ∈ config.withDefaults.frameSizeBuckets := by
  rw [mem_envelopeV2Buckets _ valid.some_bucket]
  exact and_iff_left_of_imp fun member => (valid.buckets bucket member).1

/-! ## Sizes -/

def envelopeV2PayloadSize (method sessionID extensions : Bytes) : Nat :=
  1 + 1 + 8 + 16 + 2 + 1 + method.length + 1 + sessionID.length + 2 + extensions.length

theorem encodeEnvelopeV2Payload_length {p : EnvelopeV2Payload} {raw : Bytes}
    (encoded : encodeEnvelopeV2Payload p = .ok raw) :
    raw.length = envelopeV2PayloadSize p.method p.sessionID p.extensions := by
  obtain ⟨-, rfl⟩ := encodeEnvelopeV2Payload_ok_iff.mp encoded
  simp only [envelopeV2PayloadBytes, List.length_append, List.length_cons, List.length_nil,
    putUint64_length, putUint16_length, p.clientIDHash.length_eq, envelopeV2PayloadSize]
  omega

/-- What a frame takes: prefix, hint, payload, the length of the padding, tag. -/
def envelopeV2FrameSize (mode : EnvelopeV2HintMode) (method sessionID extensions : Bytes) : Int :=
  (envelopeV2PrefixLen mode + envelopeV2PayloadSize method sessionID extensions + 2 + overhead : Nat)

theorem envelopeV2Body_known {policy : EnvelopeV2PaddingPolicy}
    (known : policy = .randomBucket ∨ policy = .none) (padding : (count : Nat) → FixedBytes count)
    (plain : Bytes) (paddingLen : Nat) :
    ∃ body, envelopeV2Body policy padding plain paddingLen = .ok body := by
  unfold envelopeV2Body
  rcases known with rfl | rfl
  · split <;> exact ⟨_, rfl⟩
  · split <;> exact ⟨_, rfl⟩

def envelopeV2Candidates (cfg : EnvelopeV2Config) (plain : Bytes) : List Int :=
  (envelopeV2Buckets cfg.frameSizeBuckets).filter fun bucket =>
    bucket ≥ (envelopeV2PrefixLen cfg.hintMode + plain.length + overhead : Int)

theorem finishEnvelopeV2_drawn (crypto : Crypto) (secret : Bytes) (serverPort : Int)
    {cfg : EnvelopeV2Config} {draws : EnvelopeV2Draws} (prefixRandom : FixedBytes 24)
    (routeHint : UInt64) {bucket : Int}
    (known : cfg.paddingPolicy = .randomBucket ∨ cfg.paddingPolicy = .none)
    (available : envelopeV2Candidates cfg plain ≠ []) (drawn : (envelopeV2Candidates cfg plain).getD
      (draws.bucket % (envelopeV2Candidates cfg plain).length) 0 = bucket) :
    (bucket < (envelopeV2PrefixLen cfg.hintMode + plain.length + 2 + overhead : Nat) ∧
      finishEnvelopeV2 crypto secret serverPort cfg draws prefixRandom routeHint plain =
        .error .frameTooLarge) ∨
    ((envelopeV2PrefixLen cfg.hintMode + plain.length + 2 + overhead : Nat) ≤ bucket ∧
      ∃ built, finishEnvelopeV2 crypto secret serverPort cfg draws prefixRandom routeHint plain =
        .ok built) := by
  unfold envelopeV2Candidates at available drawn
  unfold finishEnvelopeV2
  simp only [drawn]
  rw [if_neg available]
  split
  · rename_i short
    exact Or.inl ⟨by omega, rfl⟩
  · rename_i room
    obtain ⟨body, filled⟩ := envelopeV2Body_known known draws.padding plain
      (bucket - envelopeV2PrefixLen cfg.hintMode - overhead - plain.length - 2).toNat
    rw [filled]
    exact Or.inr ⟨by omega, _, rfl⟩

/-! ## The builder -/

structure EnvelopeV2Request where
  clientID : Bytes
  secret : Bytes
  serverPort : Int
  now : Int
  flags : UInt8
  method : Bytes
  sessionID : Bytes
  extensions : Bytes
  config : EnvelopeV2Config

namespace EnvelopeV2Request

def build (crypto : Crypto) (request : EnvelopeV2Request) (draws : EnvelopeV2Draws) :
    Except ProtocolError (Bytes × EnvelopeV2Header) :=
  buildEnvelopeV2 crypto request.clientID request.secret request.serverPort request.now
    request.flags request.method request.sessionID request.extensions request.config draws

def payload (crypto : Crypto) (request : EnvelopeV2Request) : EnvelopeV2Payload :=
  ⟨envelopeV2Version, request.flags, toUnixMilli request.now,
    computeClientIDHash crypto request.secret request.clientID, request.serverPort, request.method,
    request.sessionID, request.extensions⟩

/-- A valid configuration, and arguments that the checks and the encoder accept. -/
structure Accepted (crypto : Crypto) (request : EnvelopeV2Request) : Prop where
  valid : request.config.validate envelopeV2DefaultMaxSize = .ok ()
  named : request.clientID ≠ []
  secretSize : minSecretSize ≤ request.secret.length
  supported : unsupportedFlags request.flags = false
  encoded : ∃ plain, encodeEnvelopeV2Payload (request.payload crypto) = .ok plain

def size (request : EnvelopeV2Request) : Int :=
  envelopeV2FrameSize request.config.withDefaults.hintMode request.method request.sessionID
    request.extensions

def buckets (request : EnvelopeV2Request) : List Int := request.config.withDefaults.frameSizeBuckets

/-- A configured bucket holds the frame. -/
def Fits (request : EnvelopeV2Request) : Prop := ∃ bucket ∈ request.buckets, request.size ≤ bucket

/-- A configured bucket holds the frame but for one or two bytes. -/
def Tight (request : EnvelopeV2Request) : Prop :=
  ∃ bucket ∈ request.buckets, request.size - 2 ≤ bucket ∧ bucket < request.size

variable {crypto : Crypto} {request : EnvelopeV2Request}

section

variable (accepted : request.Accepted crypto)

include accepted

theorem Accepted.known : request.config.Valid envelopeV2DefaultMaxSize :=
  EnvelopeV2Config.validate_ok accepted.valid

theorem Accepted.build_eq (draws : EnvelopeV2Draws) {prefixRandom : FixedBytes 24}
    (drawn : drawPrefixRandom draws.prefixes = .ok prefixRandom)
    (encoded : encodeEnvelopeV2Payload (request.payload crypto) = .ok plain) :
    request.build crypto draws =
      finishEnvelopeV2 crypto request.secret request.serverPort request.config.withDefaults draws
        prefixRandom (if request.config.withDefaults.hintMode = .routeHint then
          computeEnvelopeV2RouteHint crypto request.secret prefixRandom request.serverPort else 0)
        plain := by
  have port : portInRange request.serverPort = true :=
    (encodeEnvelopeV2Payload_ok_iff.mp encoded).1.port
  have revalid : request.config.withDefaults.validate envelopeV2DefaultMaxSize = .ok () := by
    have valid := accepted.valid
    unfold EnvelopeV2Config.validate at valid ⊢
    rwa [EnvelopeV2Config.withDefaults_withDefaults]
  rw [build, buildEnvelopeV2]
  simp only [revalid]
  rw [if_neg (by simp [accepted.named, accepted.secretSize]), if_neg (by simp [accepted.supported]),
    if_neg (by simp [port])]
  simp only [drawn]
  rw [if_neg (by rcases accepted.known.mode with mode | mode <;> simp [mode])]
  simp only [payload] at encoded
  simp only [encoded]

theorem Accepted.mem_candidates
    (encoded : encodeEnvelopeV2Payload (request.payload crypto) = .ok plain) (bucket : Int) :
    bucket ∈ envelopeV2Candidates request.config.withDefaults plain ↔
      bucket ∈ request.buckets ∧ request.size - 2 ≤ bucket := by
  have length := encodeEnvelopeV2Payload_length encoded
  simp only [payload] at length
  simp only [envelopeV2Candidates, List.mem_filter, accepted.known.mem_buckets, decide_eq_true_eq,
    buckets, size, envelopeV2FrameSize, ← length]
  apply and_congr_right
  intro _
  omega

theorem Accepted.build_drawn (draws : EnvelopeV2Draws) {prefixRandom : FixedBytes 24}
    (drawn : drawPrefixRandom draws.prefixes = .ok prefixRandom)
    (encoded : encodeEnvelopeV2Payload (request.payload crypto) = .ok plain) {bucket : Int}
    (available : envelopeV2Candidates request.config.withDefaults plain ≠ [])
    (chosen : (envelopeV2Candidates request.config.withDefaults plain).getD
      (draws.bucket % (envelopeV2Candidates request.config.withDefaults plain).length) 0 = bucket) :
    (bucket < request.size ∧ request.build crypto draws = .error .frameTooLarge) ∨
      (request.size ≤ bucket ∧ ∃ built, request.build crypto draws = .ok built) := by
  have length := encodeEnvelopeV2Payload_length encoded
  simp only [payload] at length
  have outcome := finishEnvelopeV2_drawn crypto request.secret request.serverPort prefixRandom
    (if request.config.withDefaults.hintMode = .routeHint then
      computeEnvelopeV2RouteHint crypto request.secret prefixRandom request.serverPort else 0)
        accepted.known.policy available chosen
  rw [accepted.build_eq draws drawn encoded, size, envelopeV2FrameSize, ← length]
  exact outcome

end

/-- What the buckets should decide, whichever of them is drawn. -/
def Decided (crypto : Crypto) (request : EnvelopeV2Request) (draws : EnvelopeV2Draws) : Prop :=
  (request.Fits → ∃ built, request.build crypto draws = .ok built) ∧
    (¬ request.Fits → request.build crypto draws = .error .frameTooLarge)

/-- The buckets decide for every draw unless one of them lacks at most two
bytes while another one holds the frame. -/
theorem build_decided_iff (crypto : Crypto) (request : EnvelopeV2Request)
    (accepted : request.Accepted crypto) (prefixes : List (FixedBytes 24))
    (padding : (count : Nat) → FixedBytes count)
    (drawn : ∃ prefixRandom, drawPrefixRandom prefixes = .ok prefixRandom) :
    (∀ bucket, request.Decided crypto ⟨prefixes, bucket, padding⟩) ↔
      ¬ (request.Tight ∧ request.Fits) := by
  obtain ⟨prefixRandom, drawn⟩ := drawn
  obtain ⟨plain, encoded⟩ := accepted.encoded
  have members := accepted.mem_candidates encoded
  constructor
  · rintro decided ⟨⟨tight, offered, near, short⟩, fits⟩
    have member := (members tight).mpr ⟨offered, near⟩
    obtain ⟨index, inside, found⟩ := List.getElem_of_mem member
    -- the draw that picks the tight bucket
    have chosen : (envelopeV2Candidates request.config.withDefaults plain).getD
        (index % (envelopeV2Candidates request.config.withDefaults plain).length) 0 = tight := by
      rw [Nat.mod_eq_of_lt inside, List.getD, List.getElem?_eq_getElem inside, found]
      rfl
    obtain ⟨built, success⟩ := (decided index).1 fits
    rcases accepted.build_drawn ⟨prefixes, index, padding⟩ drawn encoded
      (List.ne_nil_of_mem member) chosen with ⟨_, refused⟩ | ⟨long, _⟩
    · rw [refused] at success
      cases success
    · omega
  · intro apart bucket
    by_cases available : envelopeV2Candidates request.config.withDefaults plain = []
    · have none : ¬ request.Fits := by
        rintro ⟨wide, offered, holds⟩
        have member := (members wide).mpr ⟨offered, by omega⟩
        rw [available] at member
        cases member
      refine ⟨fun fits => absurd fits none, fun _ => ?_⟩
      rw [accepted.build_eq ⟨prefixes, bucket, padding⟩ drawn encoded, finishEnvelopeV2]
      unfold envelopeV2Candidates at available
      simp only [available, if_true]
    · obtain ⟨offered, near⟩ := (members _).mp (getD_mod_mem _ available bucket)
      rcases accepted.build_drawn ⟨prefixes, bucket, padding⟩ drawn encoded available
        rfl with ⟨short, refused⟩ | ⟨long, success⟩
      · refine ⟨fun fits => ?_, fun _ => refused⟩
        exact absurd ⟨⟨_, offered, near, short⟩, fits⟩ apart
      · exact ⟨fun _ => success, fun none => absurd ⟨_, offered, long⟩ none⟩

/-- A knock session and 31 bytes of extensions: the frame takes 129 bytes. -/
def tightRequest : EnvelopeV2Request :=
  ⟨ascii "alice", List.replicate 16 1, 443, 0, 0, [], List.replicate 16 2, List.replicate 31 3,
    ⟨.unset, [], .unset⟩⟩

/-- The same with one byte less, in the smallest bucket to the last byte. -/
def snugRequest : EnvelopeV2Request := { tightRequest with extensions := List.replicate 30 3 }

def sampleDraws (bucket : Nat) : EnvelopeV2Draws :=
  ⟨[FixedBytes.copy 24 []], bucket, fun count => FixedBytes.copy count []⟩

theorem build_decided_iff_sample :
    snugRequest.size = 128 ∧ ∀ bucket, snugRequest.Decided keyTagCrypto (sampleDraws bucket) := by
  refine ⟨by decide +kernel, ?_⟩
  refine (build_decided_iff keyTagCrypto snugRequest ⟨by decide +kernel, by decide +kernel,
    by decide +kernel, by decide +kernel, _, rfl⟩ [FixedBytes.copy 24 []]
    (fun count => FixedBytes.copy count []) ⟨_, rfl⟩).mpr ?_
  rintro ⟨⟨bucket, offered, near, short⟩, _⟩
  have size : snugRequest.size = 128 := by decide +kernel
  have listed : bucket ∈ envelopeV2DefaultBuckets := offered
  simp only [envelopeV2DefaultBuckets, List.mem_cons, List.not_mem_nil, or_false] at listed
  omega

/-- With the default buckets the first draw fails and the second succeeds. -/
theorem build_depends_on_draw :
    tightRequest.Accepted keyTagCrypto ∧ tightRequest.Fits ∧
      tightRequest.build keyTagCrypto (sampleDraws 0) = .error .frameTooLarge ∧
      (tightRequest.build keyTagCrypto (sampleDraws 1)).isOk = true ∧
      ¬ tightRequest.Decided keyTagCrypto (sampleDraws 0) := by
  have fits : tightRequest.Fits := ⟨192, by decide +kernel, by decide +kernel⟩
  have refused : tightRequest.build keyTagCrypto (sampleDraws 0) = .error .frameTooLarge := by
    decide +kernel
  refine ⟨⟨by decide +kernel, by decide +kernel, by decide +kernel, by decide +kernel, _, rfl⟩, fits,
    refused, by decide +kernel, ?_⟩
  intro decided
  obtain ⟨built, success⟩ := decided.1 fits
  rw [refused] at success
  cases success

end EnvelopeV2Request

end Libknock.Protocol
