import Libknock.Codec.Reader
import Libknock.Foundation.Clock
import Libknock.Protocol.Crypto

/-!
# TCP auth frame v1

`protocol/frame.go`: the 29-byte header, the sealed payload, key hints and
server proofs.  The drawn nonce is an argument of the builder.
-/

set_option autoImplicit false

namespace Libknock.Protocol

open Foundation Codec

def version : UInt8 := 1

def headerSize : Nat := 1 + 1 + 1 + 16 + 8 + 2

def defaultMaxFrameSize : Int := 1024

structure Header where
  version : UInt8
  flags : UInt8
  reserved : UInt8
  nonce : FixedBytes 16
  keyHint : UInt64
  sealedLen : UInt16
  deriving DecidableEq

structure Payload where
  clientIDHash : FixedBytes 16
  timestampUnixMS : Int64
  serverPort : Int
  method : Bytes
  sessionID : Bytes
  extensions : Bytes
  deriving DecidableEq

def zeroHeader : Header := ⟨0, 0, 0, FixedBytes.copy 16 [], 0, 0⟩

def encodeHeader (h : Header) : Bytes :=
  [h.version, h.flags, h.reserved] ++ h.nonce.bytes ++ putUint64 h.keyHint ++ putUint16 h.sealedLen

def slice (low high : Nat) (raw : Bytes) : Bytes := (raw.drop low).take (high - low)

def decodeHeader (src : Bytes) : Header :=
  if src.length < headerSize then zeroHeader
  else
    { version := src.getD 0 0
      flags := src.getD 1 0
      reserved := src.getD 2 0
      nonce := FixedBytes.copy 16 (slice 3 19 src)
      keyHint := uint64 (slice 19 27 src)
      sealedLen := uint16 (slice 27 29 src) }

def aad (h : Header) : Bytes := encodeHeader h

def aeadNonce (h : Header) : Bytes := h.nonce.bytes ++ putUint64 h.keyHint

section Keys

variable (crypto : Crypto)

def deriveAEADKey (secret : Bytes) (h : Header) : Bytes :=
  (crypto.hkdfSHA256 secret h.nonce.bytes (ascii "libknock aead v1" ++ putUint64 h.keyHint)
    keySize).bytes

def sealPayload (secret : Bytes) (h : Header) (plain : Bytes) : Bytes :=
  crypto.aeadSeal (deriveAEADKey crypto secret h) (aeadNonce h) plain (aad h)

def openPayload (secret : Bytes) (h : Header) (sealed : Bytes) : Option Bytes :=
  crypto.aeadOpen (deriveAEADKey crypto secret h) (aeadNonce h) sealed (aad h)

def portInRange (serverPort : Int) : Bool := 0 ≤ serverPort ∧ serverPort ≤ 65535

def computeKeyHint (secret : Bytes) (nonce : FixedBytes 16) (serverPort : Int) : UInt64 :=
  if portInRange serverPort then
    crypto.hmacTrunc64 secret (ascii "hint" ++ nonce.bytes ++ putUint16 (uint16OfInt serverPort))
  else 0

def computeClientIDHash (secret clientID : Bytes) : FixedBytes 16 :=
  crypto.hmacTrunc128 secret (ascii "client-id" ++ clientID)

/-- The 32-byte proof, or nothing for a port outside the 16-bit range. -/
def computeServerProof (secret : Bytes) (h : Header) (serverPort : Int) : Bytes :=
  if portInRange serverPort then
    (crypto.hmacSHA256 secret (ascii "server-proof-v1" ++ h.nonce.bytes ++
      putUint64 h.keyHint ++ putUint16 (uint16OfInt serverPort))).bytes
  else []

/-- The proof frame shared by both versions: a version byte, the type, the
echoed nonce and the tag, copied into a zeroed buffer of fixed size. -/
def proofFrame (versionByte : UInt8) (echo : Bytes) (tag : Bytes) : Bytes :=
  [versionByte, serverProofType] ++ echo ++ (FixedBytes.copy 32 tag).bytes

def buildServerProof (secret : Bytes) (h : Header) (serverPort : Int) : Bytes :=
  proofFrame version h.nonce.bytes (computeServerProof crypto secret h serverPort)

def verifyProofFrame (versionByte : UInt8) (echo tag proof : Bytes) : Bool :=
  proof.length = serverProofSize ∧ proof.getD 0 0 = versionByte ∧
    proof.getD 1 0 = serverProofType ∧ slice 2 18 proof = echo ∧ proof.drop 18 = tag

def verifyServerProof (proof secret : Bytes) (h : Header) (serverPort : Int) : Bool :=
  verifyProofFrame version h.nonce.bytes (computeServerProof crypto secret h serverPort) proof

end Keys

/-! ## The payload codec -/

def encodePayload (p : Payload) : Except ProtocolError Bytes :=
  if ¬ portInRange p.serverPort then .error (.portOutOfRange p.serverPort)
  else if 255 < p.method.length ∨ 255 < p.sessionID.length ∨ 65535 < p.extensions.length then
    .error .frameTooLarge
  else
    .ok (p.clientIDHash.bytes ++ (putUint64 p.timestampUnixMS.toUInt64 ++
      (putUint16 (uint16OfInt p.serverPort) ++ ([UInt8.ofNat p.method.length] ++ (p.method ++
      ([UInt8.ofNat p.sessionID.length] ++ (p.sessionID ++
      (putUint16 (UInt16.ofNat p.extensions.length) ++ p.extensions))))))))

/-- The fields before the extensions, and the length announced for those. -/
def decodePayloadHead : Decoder ProtocolError (Payload × UInt16) := do
  let id ← readFixed 16
  let ts ← readUint64
  let port ← readUint16
  let methodLen ← readByte
  let method ← readVarBytes methodLen.toNat false
  let sessionLen ← readByte
  let sessionID ← readVarBytes sessionLen.toNat true
  let extLen ← readUint16
  pure (⟨FixedBytes.copy 16 id, ts.toInt64, port.toNat, method, sessionID, []⟩, extLen)

def decodePayload (raw : Bytes) : Except ProtocolError Payload :=
  match decodePayloadHead (newReader raw .invalidFrame) with
  | .error err => .error err
  | .ok ((p, extLen), reader) =>
    if extLen.toNat ≠ reader.remaining then .error .invalidFrame
    else
      match readVarBytes extLen.toNat true reader with
      | .error err => .error err
      | .ok (extensions, _) => .ok { p with extensions := extensions }

/-! ## Frames -/

def buildFrame (crypto : Crypto) (clientID secret : Bytes) (serverPort now : Int) (flags : UInt8)
    (method sessionID extensions : Bytes) (nonce : FixedBytes 16) :
    Except ProtocolError (Bytes × Header) :=
  if clientID = [] ∨ secret.length < minSecretSize then .error .invalidFrame
  else if unsupportedFlags flags then .error .unsupportedFlags
  else if ¬ portInRange serverPort then .error (.portOutOfRange serverPort)
  else
    let keyHint := computeKeyHint crypto secret nonce serverPort
    match encodePayload ⟨computeClientIDHash crypto secret clientID, toUnixMilli now, serverPort,
        method, sessionID, extensions⟩ with
    | .error err => .error err
    | .ok plain =>
      let sealedLen := plain.length + overhead
      if (sealedLen : Int) > defaultMaxFrameSize - headerSize then .error .frameTooLarge
      else
        let h : Header := ⟨version, flags, 0, nonce, keyHint, UInt16.ofNat sealedLen⟩
        .ok (encodeHeader h ++ sealPayload crypto secret h plain, h)

def frameLimit (maxFrameSize : Int) : Int :=
  if maxFrameSize ≤ 0 then defaultMaxFrameSize else maxFrameSize

def readFrame (maxFrameSize : Int) (reader : StreamReader) :
    Except ProtocolError ((Header × Bytes) × StreamReader) :=
  if frameLimit maxFrameSize < headerSize then .error .frameTooLarge
  else
    match readFull headerSize reader with
    | .error err => .error err
    | .ok (raw, afterHeader) =>
      let h := decodeHeader raw
      if h.version ≠ version then .error .unsupportedVersion
      else if h.reserved ≠ 0 then .error .invalidFrame
      else if unsupportedFlags h.flags then .error .unsupportedFlags
      else if h.sealedLen = 0 ∨ (headerSize + h.sealedLen.toNat : Int) > frameLimit maxFrameSize
          then
        .error .frameTooLarge
      else
        match readFull h.sealedLen.toNat afterHeader with
        | .error err => .error err
        | .ok (sealed, afterFrame) => .ok ((h, sealed), afterFrame)

/-! ## Round trips -/

@[simp] theorem encodeHeader_length (h : Header) : (encodeHeader h).length = headerSize := by
  simp [encodeHeader, h.nonce.length_eq, headerSize]

theorem decodeHeader_encodeHeader (h : Header) : decodeHeader (encodeHeader h) = h := by
  have long : ¬ (encodeHeader h).length < headerSize := by simp
  obtain ⟨version, flags, reserved, ⟨nonce, sixteen⟩, keyHint, sealedLen⟩ := h
  have hint : (putUint64 keyHint).length = 8 := putUint64_length keyHint
  have size : (putUint16 sealedLen).length = 2 := putUint16_length sealedLen
  rw [decodeHeader, if_neg long]
  have nonceSlice : slice 3 19 (encodeHeader ⟨version, flags, reserved, ⟨nonce, sixteen⟩, keyHint,
      sealedLen⟩) = nonce := by
    simp [slice, encodeHeader, sixteen]
  have hintSlice : slice 19 27 (encodeHeader ⟨version, flags, reserved, ⟨nonce, sixteen⟩, keyHint,
      sealedLen⟩) = putUint64 keyHint := by
    simp [slice, encodeHeader, sixteen, hint]
  have sizeSlice : slice 27 29 (encodeHeader ⟨version, flags, reserved, ⟨nonce, sixteen⟩, keyHint,
      sealedLen⟩) = putUint16 sealedLen := by
    have gone : nonce.drop 24 = [] := List.drop_eq_nil_of_le (by omega)
    simp [slice, encodeHeader, List.drop_append, sixteen, hint, gone, List.take_of_length_le, size]
  rw [nonceSlice, hintSlice, sizeSlice, uint64_putUint64, uint16_putUint16]
  congr 1
  exact FixedBytes.ext_bytes (FixedBytes.copy_bytes_of_length nonce sixteen)

theorem slice_length (low high : Nat) (raw : Bytes) (ordered : low ≤ high)
    (inside : high ≤ raw.length) : (slice low high raw).length = high - low := by
  simp only [slice, List.length_take, List.length_drop]
  omega

theorem encodeHeader_decodeHeader (raw : Bytes) (exact : raw.length = headerSize) :
    encodeHeader (decodeHeader raw) = raw := by
  have long : ¬ raw.length < headerSize := by omega
  have size : raw.length = 29 := exact
  rw [decodeHeader, if_neg long, encodeHeader]
  rw [FixedBytes.copy_bytes_of_length _ (slice_length 3 19 raw (by omega) (by omega)),
    putUint64_uint64 _ (slice_length 19 27 raw (by omega) (by omega)),
    putUint16_uint16 _ (slice_length 27 29 raw (by omega) (by omega))]
  match raw, size with
  | first :: second :: third :: rest, size =>
    have tail : rest.length = 26 := by simpa using size
    have nonce : slice 3 19 (first :: second :: third :: rest) = rest.take 16 := rfl
    have hint : slice 19 27 (first :: second :: third :: rest) = (rest.drop 16).take 8 := rfl
    have sealedLen : slice 27 29 (first :: second :: third :: rest) = rest.drop 24 := by
      have : (rest.drop 24).length ≤ 2 := by simp [tail]
      simp [slice, List.take_of_length_le this]
    rw [nonce, hint, sealedLen]
    have hintEnd : (rest.drop 16).take 8 ++ rest.drop 24 = rest.drop 16 := by
      have split := List.take_append_drop 8 (rest.drop 16)
      rwa [List.drop_drop] at split
    simp only [List.append_assoc, hintEnd, List.take_append_drop]
    rfl

/-- The bounds that both payload encoders check. -/
structure FieldsFit (serverPort : Int) (method sessionID extensions : Bytes) : Prop where
  port : portInRange serverPort = true
  method : method.length ≤ 255
  session : sessionID.length ≤ 255
  extensions : extensions.length ≤ 65535

section

variable {serverPort : Int} {method sessionID extensions : Bytes}

theorem FieldsFit.portBack (fit : FieldsFit serverPort method sessionID extensions) :
    ((uint16OfInt serverPort).toNat : Int) = serverPort := by
  have bounds : 0 ≤ serverPort ∧ serverPort ≤ 65535 := of_decide_eq_true fit.port
  exact uint16OfInt_toNat bounds.1 bounds.2

theorem FieldsFit.extLen (fit : FieldsFit serverPort method sessionID extensions) :
    (UInt16.ofNat extensions.length).toNat = extensions.length := by
  rw [UInt16.toNat_ofNat', Nat.mod_eq_of_lt (Nat.lt_succ_of_le fit.extensions)]

theorem checked_ok_iff {written raw : Bytes} :
    (if ¬ portInRange serverPort then .error (.portOutOfRange serverPort)
      else if 255 < method.length ∨ 255 < sessionID.length ∨ 65535 < extensions.length then
        .error .frameTooLarge
      else .ok written : Except ProtocolError Bytes) = .ok raw ↔
      FieldsFit serverPort method sessionID extensions ∧ written = raw := by
  constructor
  · intro encoded
    split at encoded
    · cases encoded
    rename_i port
    split at encoded
    · cases encoded
    rename_i lengths
    push Not at port lengths
    exact ⟨⟨port, lengths.1, lengths.2.1, lengths.2.2⟩, Except.ok.inj encoded⟩
  · rintro ⟨⟨port, method, session, extensions⟩, rfl⟩
    rw [if_neg (not_not_intro port), if_neg (by omega)]

end

def payloadHead (p : Payload) (extLen : UInt16) : Bytes :=
  p.clientIDHash.bytes ++ (putUint64 p.timestampUnixMS.toUInt64 ++
    (putUint16 (uint16OfInt p.serverPort) ++ ([UInt8.ofNat p.method.length] ++ (p.method ++
    ([UInt8.ofNat p.sessionID.length] ++ (p.sessionID ++ putUint16 extLen))))))

theorem encodePayload_ok_iff {p : Payload} {raw : Bytes} :
    encodePayload p = .ok raw ↔ FieldsFit p.serverPort p.method p.sessionID p.extensions ∧
      payloadHead p (UInt16.ofNat p.extensions.length) ++ p.extensions = raw := by
  rw [encodePayload, checked_ok_iff]
  simp only [payloadHead, List.append_assoc]

theorem decodePayloadHead_reads (p : Payload)
    (fit : FieldsFit p.serverPort p.method p.sessionID p.extensions) (ext : UInt16) :
    Reads decodePayloadHead (payloadHead p ext) ({ p with extensions := [] }, ext) := by
  refine reads_bind (readFixed_reads_array _) (reads_bind (readUint64_reads _)
    (reads_bind (readUint16_reads _) (reads_counted fit.method (reads_counted fit.session ?_))))
  have last := reads_map (readUint16_reads (ε := ProtocolError) ext) fun extLen =>
    (({ p with extensions := [] } : Payload), extLen)
  simpa [FixedBytes.copy_bytes, fit.portBack] using last

theorem decodePayload_encodePayload {p : Payload} {raw : Bytes}
    (encoded : encodePayload p = .ok raw) : decodePayload raw = .ok p := by
  obtain ⟨fit, rfl⟩ := encodePayload_ok_iff.mp encoded
  have head := decodePayloadHead_reads p fit (UInt16.ofNat p.extensions.length) [] p.extensions
    .invalidFrame
  have tail := readFixed_reads (ε := ProtocolError) p.extensions
    ([] ++ payloadHead p (UInt16.ofNat p.extensions.length)) [] .invalidFrame
  rw [List.append_nil] at tail
  rw [decodePayload, newReader_eq_readerAt, head]
  simp only [readerAt_remaining, fit.extLen, ne_eq, not_true_eq_false, if_false, readVarBytes, tail]

/-! ## What the reader accepts -/

variable {maxFrameSize : Int}

theorem le_frameLimit {size : Nat} (fits : (size : Int) ≤ maxFrameSize) :
    (size : Int) ≤ frameLimit maxFrameSize := by
  unfold frameLimit
  split
  · simp only [defaultMaxFrameSize]
    omega
  · exact fits

structure FrameAccepted (maxFrameSize : Int) (h : Header) (sealed : Bytes) : Prop where
  version : h.version = version
  reserved : h.reserved = 0
  flags : unsupportedFlags h.flags = false
  nonempty : h.sealedLen ≠ 0
  fits : (headerSize + h.sealedLen.toNat : Int) ≤ frameLimit maxFrameSize
  sealed : sealed.length = h.sealedLen.toNat

theorem readFrame_sent (maxFrameSize : Int) (h : Header) (sealed rest : Bytes)
    (accepted : FrameAccepted maxFrameSize h sealed) (reader : StreamReader)
    (calm : reader.err = none) (pending : reader.pending = encodeHeader h ++ (sealed ++ rest)) :
    ∃ next, readFrame maxFrameSize reader = .ok ((h, sealed), next) ∧
      BufferedReader.Advances reader next (encodeHeader h ++ sealed) := by
  have length : (encodeHeader h).length = headerSize := encodeHeader_length h
  obtain ⟨middle, headerRun, headerStep⟩ := readFull_sent headerSize reader calm
    (by rw [pending, List.length_append, length]; omega)
  have raw : reader.pending.take headerSize = encodeHeader h := by
    rw [pending, ← length, List.take_left]
  rw [raw] at headerRun headerStep
  have remaining : middle.pending = sealed ++ rest := by
    have split := headerStep.pending
    rw [pending] at split
    exact (List.append_cancel_left split).symm
  obtain ⟨next, bodyRun, bodyStep⟩ := readFull_sent h.sealedLen.toNat middle headerStep.calm
    (by rw [remaining, List.length_append, accepted.sealed]; omega)
  have body : middle.pending.take h.sealedLen.toNat = sealed := by
    rw [remaining, ← accepted.sealed, List.take_left]
  rw [body] at bodyRun bodyStep
  refine ⟨next, ?_, headerStep.trans bodyStep⟩
  have large : ¬ frameLimit maxFrameSize < headerSize := by
    have := accepted.fits
    omega
  have inside : ¬ (h.sealedLen = 0 ∨
      (headerSize + h.sealedLen.toNat : Int) > frameLimit maxFrameSize) := by
    rintro (zero | large)
    · exact accepted.nonempty zero
    · have := accepted.fits
      omega
  rw [readFrame, if_neg large, headerRun]
  simp only [decodeHeader_encodeHeader]
  rw [if_neg (not_not_intro accepted.version), if_neg (not_not_intro accepted.reserved),
    if_neg (by simp [accepted.flags]), if_neg inside, bodyRun]

theorem readFrame_ok {h : Header} {sealed : Bytes} {reader next : StreamReader}
    (calm : reader.err = none) (success : readFrame maxFrameSize reader = .ok ((h, sealed), next)) :
    FrameAccepted maxFrameSize h sealed ∧
      BufferedReader.Advances reader next (encodeHeader h ++ sealed) := by
  unfold readFrame at success
  split at success
  · cases success
  split at success
  · cases success
  rename_i raw middle headerRun
  obtain ⟨headerSent, rawEq, headerStep⟩ := readFull_ok calm headerRun
  have rawLength : raw.length = headerSize := by
    rw [rawEq, List.length_take]
    omega
  have rebuilt := encodeHeader_decodeHeader raw rawLength
  simp only at success
  split at success
  · cases success
  rename_i known
  split at success
  · cases success
  rename_i reserved
  split at success
  · cases success
  rename_i supported
  split at success
  · cases success
  rename_i sized
  split at success
  · cases success
  rename_i body afterFrame bodyRun
  cases success
  obtain ⟨bodySent, bodyEq, bodyStep⟩ :=
    readFull_ok headerStep.calm bodyRun
  push Not at known reserved sized
  refine ⟨⟨known, reserved, by simpa using supported, sized.1, sized.2, ?_⟩, ?_⟩
  · rw [bodyEq, List.length_take]
    omega
  · rw [rebuilt]
    exact headerStep.trans bodyStep

/-! ## What the builder produces -/

/-- What a successful `BuildFrame` has checked and put together. -/
structure FrameBuilt (crypto : Crypto) (clientID secret : Bytes) (serverPort now : Int)
    (flags : UInt8) (method sessionID extensions : Bytes) (nonce : FixedBytes 16)
    (frame : Bytes) (h : Header) (plain : Bytes) : Prop where
  named : clientID ≠ []
  secretSize : minSecretSize ≤ secret.length
  supported : unsupportedFlags flags = false
  port : portInRange serverPort = true
  encoded : encodePayload ⟨computeClientIDHash crypto secret clientID, toUnixMilli now, serverPort,
    method, sessionID, extensions⟩ = .ok plain
  fits : plain.length + overhead + headerSize ≤ 1024
  header : h = ⟨version, flags, 0, nonce, computeKeyHint crypto secret nonce serverPort,
    UInt16.ofNat (plain.length + overhead)⟩
  frame : frame = encodeHeader h ++ sealPayload crypto secret h plain

theorem FrameBuilt.accepted {crypto : Crypto} {clientID secret : Bytes} {serverPort now : Int}
    {flags : UInt8} {method sessionID extensions : Bytes} {nonce : FixedBytes 16} {frame : Bytes}
    {h : Header} {plain : Bytes}
    (built : FrameBuilt crypto clientID secret serverPort now flags method sessionID extensions
      nonce frame h plain) (tagged : ∀ key nonce plain aad,
      (crypto.aeadSeal key nonce plain aad).length = plain.length + overhead)
    (fits : (frame.length : Int) ≤ frameLimit maxFrameSize) :
    FrameAccepted maxFrameSize h (sealPayload crypto secret h plain) := by
  have size : (sealPayload crypto secret h plain).length = plain.length + overhead :=
    tagged _ _ _ _
  have counted : h.sealedLen.toNat = plain.length + overhead := by
    have room := built.fits
    rw [built.header, UInt16.toNat_ofNat', Nat.mod_eq_of_lt (by omega)]
  have total : frame.length = headerSize + (plain.length + overhead) := by
    rw [built.frame, List.length_append, encodeHeader_length, size]
  refine ⟨by rw [built.header], by rw [built.header], by rw [built.header]; exact built.supported,
    ?_, by rw [counted]; omega, by rw [counted, size]⟩
  intro zero
  rw [zero] at counted
  simp [overhead] at counted

theorem buildFrame_ok {crypto : Crypto} {clientID secret method sessionID extensions frame : Bytes}
    {serverPort now : Int} {flags : UInt8} {nonce : FixedBytes 16} {h : Header}
    (built : buildFrame crypto clientID secret serverPort now flags method sessionID extensions
      nonce = .ok (frame, h)) :
    ∃ plain, FrameBuilt crypto clientID secret serverPort now flags method sessionID extensions
      nonce frame h plain := by
  unfold buildFrame at built
  split at built
  · cases built
  rename_i identity
  split at built
  · cases built
  rename_i supported
  split at built
  · cases built
  rename_i port
  simp only at built
  split at built
  · cases built
  rename_i plain encoded
  split at built
  · cases built
  rename_i small
  cases built
  push Not at identity small
  refine ⟨plain, identity.1, identity.2, by simpa using supported, by simpa using port,
    encoded, ?_, rfl, rfl⟩
  simp only [defaultMaxFrameSize] at small
  omega

/-! ## Server proofs -/

theorem verifyProofFrame_proofFrame (versionByte : UInt8) {echo tag : Bytes}
    (sixteen : echo.length = 16) (full : tag.length = 32) :
    verifyProofFrame versionByte echo tag (proofFrame versionByte echo tag) = true := by
  have copied : (FixedBytes.copy 32 tag).bytes = tag := FixedBytes.copy_bytes_of_length tag full
  simp [verifyProofFrame, proofFrame, copied, sixteen, full, serverProofSize, slice]

theorem verifyServerProof_buildServerProof (crypto : Crypto) (secret : Bytes) (h : Header)
    (serverPort : Int) (port : portInRange serverPort = true) :
    verifyServerProof crypto (buildServerProof crypto secret h serverPort) secret h serverPort =
      true := by
  refine verifyProofFrame_proofFrame version h.nonce.length_eq ?_
  rw [computeServerProof, if_pos port]
  exact FixedBytes.length_eq _

end Libknock.Protocol
