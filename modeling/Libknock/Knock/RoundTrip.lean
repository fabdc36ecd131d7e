import Libknock.Knock.Frame
import Libknock.Knock.Replay

/-!
# Knock frames come back

Everything `BuildKnockFrame` puts into a packet is what `openKnockFrame`
reports, at whatever place of the client list the sender stands.
-/

set_option autoImplicit false

namespace Libknock.Knock

open Foundation Codec Protocol Auth

/-! ## Round trips of the parts -/

@[simp] theorem encodeKnockHeader_length (h : KnockFrameHeader) :
    (encodeKnockHeader h).length = knockFrameHeaderSize := by
  simp [encodeKnockHeader, h.nonce.length_eq, knockFrameHeaderSize]

theorem decodeKnockHeader_encodeKnockHeader (h : KnockFrameHeader) :
    decodeKnockHeader (encodeKnockHeader h) = h := by
  have long : ¬ (encodeKnockHeader h).length < knockFrameHeaderSize := by simp
  obtain ⟨⟨nonce, sixteen⟩, keyHint, sealedLen, flags, reserved⟩ := h
  have hint : (putUint64 keyHint).length = 8 := putUint64_length keyHint
  have size : (putUint16 sealedLen).length = 2 := putUint16_length sealedLen
  rw [decodeKnockHeader, if_neg long]
  have nonceSlice : slice 0 16 (encodeKnockHeader ⟨⟨nonce, sixteen⟩, keyHint, sealedLen, flags,
      reserved⟩) = nonce := by
    simp [slice, encodeKnockHeader, sixteen]
  have hintSlice : slice 16 24 (encodeKnockHeader ⟨⟨nonce, sixteen⟩, keyHint, sealedLen, flags,
      reserved⟩) = putUint64 keyHint := by
    simp [slice, encodeKnockHeader, sixteen, hint]
  have sizeSlice : slice 24 26 (encodeKnockHeader ⟨⟨nonce, sixteen⟩, keyHint, sealedLen, flags,
      reserved⟩) = putUint16 sealedLen := by
    have gone : nonce.drop 24 = [] := List.drop_eq_nil_of_le (by omega)
    simp [slice, encodeKnockHeader, List.drop_append, sixteen, hint, gone, size]
  have flagsByte : (encodeKnockHeader ⟨⟨nonce, sixteen⟩, keyHint, sealedLen, flags,
      reserved⟩).getD 26 0 = flags := by
    simp [encodeKnockHeader, sixteen, hint, size]
  have reservedByte : (encodeKnockHeader ⟨⟨nonce, sixteen⟩, keyHint, sealedLen, flags,
      reserved⟩).getD 27 0 = reserved := by
    simp [encodeKnockHeader, sixteen, hint, size]
  rw [nonceSlice, hintSlice, sizeSlice, flagsByte, reservedByte, uint64_putUint64, uint16_putUint16]
  congr 1
  exact FixedBytes.ext_bytes (FixedBytes.copy_bytes_of_length nonce sixteen)

theorem readByteLen_reads {field : Bytes} (short : field.length ≤ 255) :
    Reads readByteLen (writeByteLen field) field := by
  show Reads readByteLen ([UInt8.ofNat field.length] ++ field) field
  refine reads_bind (readByte_reads _) ?_
  rw [toNat_ofNat_of_le short]
  exact readFixed_reads field

theorem readMethod_reads (method : Bytes) (named : method ≠ []) (short : method.length ≤ 255) :
    Reads readMethod (writeByteLen method) method := by
  have positive : 0 < method.length := List.length_pos_iff.mpr named
  have length := toNat_ofNat_of_le short
  show Reads readMethod ([UInt8.ofNat method.length] ++ method) method
  refine reads_bind (readByte_reads _) ?_
  have some_ : ¬ UInt8.ofNat method.length = 0 := by
    intro zero
    rw [zero] at length
    have : (0 : UInt8).toNat = 0 := rfl
    omega
  rw [if_neg some_, length]
  exact readFixed_reads method

theorem readSequenceIndexes_reads (index total : UInt8) :
    Reads readSequenceIndexes ([index] ++ [total]) ((index.toNat : Int), (total.toNat : Int)) :=
  reads_bind (readByte_reads index) (reads_map (readByte_reads total) fun total =>
    ((index.toNat : Int), (total.toNat : Int)))

/-- The payloads the codec carries without loss. -/
structure KnockPayload.Carried (p : KnockPayload) : Prop where
  named : p.method ≠ []
  method : p.method.length ≤ 255
  session : p.sessionID.length ≤ 255
  sequence : p.sequenceID.length ≤ 255
  random : p.clientRandom.length ≤ 255
  port : 1 ≤ p.serverPort ∧ p.serverPort ≤ 65535
  index : 0 ≤ p.sequenceIndex ∧ p.sequenceIndex ≤ 255
  total : 0 ≤ p.sequenceTotal ∧ p.sequenceTotal ≤ 255
  sessionSize : p.sessionID.length = 0 ∨ knockSessionIDMinBytes ≤ p.sessionID.length

theorem decodeKnockPayloadHead_reads (p : KnockPayload) (carried : p.Carried) :
    Reads decodeKnockPayloadHead (encodeKnockPayloadHead p) { p with extensions := [] } := by
  have portBack : ((uint16OfInt p.serverPort).toNat : Int) = p.serverPort :=
    uint16OfInt_toNat (by have := carried.port; omega) carried.port.2
  have indexBack : ((uint8OfInt p.sequenceIndex).toNat : Int) = p.sequenceIndex :=
    uint8OfInt_toNat carried.index.1 carried.index.2
  have totalBack : ((uint8OfInt p.sequenceTotal).toNat : Int) = p.sequenceTotal :=
    uint8OfInt_toNat carried.total.1 carried.total.2
  refine reads_bind (readByte_reads _) (reads_bind (readFixed_reads_array _)
    (reads_bind (readUint64_reads _)
    (reads_bind (readMethod_reads p.method carried.named carried.method)
    (reads_bind (readUint16_reads _) (reads_bind (readByteLen_reads carried.session)
    (reads_bind (readByteLen_reads carried.sequence)
    (reads_bind (readSequenceIndexes_reads _ _) ?_)))))))
  have last := reads_map (readByteLen_reads carried.random) fun random =>
    ({ p with clientRandom := random, extensions := [] } : KnockPayload)
  simpa [FixedBytes.copy_bytes, portBack, indexBack, totalBack] using last

theorem decodeKnockExtensions_written {extensions : List TLV} {ext : Bytes} (done : Bytes)
    (encoded : encodeTLVs extensions ProtocolError.frameTooLarge = .ok ext) (err : AuthError) :
    decodeKnockExtensions (readerAt done (putUint16 (UInt16.ofNat ext.length) ++ ext) err) =
      .ok extensions := by
  obtain ⟨decoded, short⟩ := decodeTLVs_encodeTLVs extensions ProtocolError.frameTooLarge
    ProtocolError.invalidFrame ext encoded
  have length : (UInt16.ofNat ext.length).toNat = ext.length := by
    rw [UInt16.toNat_ofNat', Nat.mod_eq_of_lt (by omega)]
  have tail := readFixed_reads (ε := AuthError) ext (done ++ putUint16 (UInt16.ofNat ext.length)) []
    err
  rw [List.append_nil] at tail
  rw [decodeKnockExtensions, readUint16_reads _ done ext err]
  simp only [readerAt_remaining, length, ne_eq, not_true_eq_false, if_false, tail, decoded]

theorem decodeKnockPayload_encodeKnockPayload (p : KnockPayload) (carried : p.Carried) (raw : Bytes)
    (encoded : encodeKnockPayload p = .ok raw) : decodeKnockPayload raw = .ok p := by
  unfold encodeKnockPayload at encoded
  split at encoded
  · cases encoded
  split at encoded
  · cases encoded
  split at encoded
  · cases encoded
  rename_i ext written
  split at encoded
  · cases encoded
  cases encoded
  have head := decodeKnockPayloadHead_reads p carried []
    (putUint16 (UInt16.ofNat ext.length) ++ ext) .invalidFrame
  have tail := decodeKnockExtensions_written ([] ++ encodeKnockPayloadHead p) written .invalidFrame
  have session : ¬ (0 < p.sessionID.length ∧
      p.sessionID.length < knockSessionIDMinBytes) := by
    have := carried.sessionSize
    omega
  rw [decodeKnockPayload, newReader_eq_readerAt, head]
  simp only [tail, if_neg session]

/-! ## What the builder produces -/

section Built

variable (crypto : Crypto)

/-- What a frame of these options says, in the terms of the reader. -/
def KnockFrameOptions.info (options : KnockFrameOptions) (draws : KnockDraws) : KnockInfo :=
  { clientID := options.clientID
    clientIDHash := (computeKnockClientIDHash crypto options.secret options.clientID).bytes
    method := if options.method = [] then udpMethod else options.method
    serverPort := options.serverPort
    timestamp := unixMilli (toUnixMilli (if isZero options.timestamp then draws.now
      else options.timestamp))
    sessionID := options.sessionID
    sequenceID := options.sequenceID
    sequenceIndex := if options.isSequence then options.sequenceIndex else 0
    sequenceTotal := if options.isSequence then options.sequenceTotal else 0
    clientRandom := if options.clientRandom = [] then draws.clientRandom.bytes
      else options.clientRandom
    extensions := options.extensions
    nonce := if options.nonce = [] then draws.nonce.bytes else options.nonce
    keyHint := computeKnockKeyHint crypto options.secret
      (if options.nonce = [] then draws.nonce else FixedBytes.copy 16 options.nonce)
      options.serverPort
    frameType := if options.isSequence then knockFrameTypeUDPSequence else knockFrameTypeUDP
    flags := (if options.isSequence then knockFlagSequence else 0) |||
      (if options.sessionID = [] then 0 else knockFlagSession) |||
      (if options.extensions = [] then 0 else knockFlagExtensions) }

namespace KnockFrameOptions

def builtPayload (options : KnockFrameOptions) (draws : KnockDraws) : KnockPayload :=
  (options.withDefaults draws).payload crypto draws

def builtHeader (options : KnockFrameOptions) (draws : KnockDraws) (nonce : FixedBytes 16)
    (plain : Bytes) : KnockFrameHeader :=
  (options.withDefaults draws).header crypto nonce (options.builtPayload crypto draws) plain.length

end KnockFrameOptions

/-- What a successful `BuildKnockFrame` has checked and put together. -/
structure KnockBuilt (options : KnockFrameOptions) (draws : KnockDraws) (packet plain : Bytes)
    (nonce : FixedBytes 16) : Prop where
  client : validateClientSecret ⟨options.clientID, options.secret⟩ = .ok ()
  port : 1 ≤ options.serverPort ∧ options.serverPort ≤ 65535
  parts : (options.withDefaults draws).validateParts = .ok ()
  encoded : encodeKnockPayload (options.builtPayload crypto draws) = .ok plain
  drawn : (options.withDefaults draws).frameNonce draws = .ok nonce
  short : plain.length + overhead ≤ 65535
  framed : packet = encodeKnockHeader (options.builtHeader crypto draws nonce plain) ++
    sealKnockPayload crypto options.secret (options.builtHeader crypto draws nonce plain)
      options.serverPort plain

theorem buildKnockFrame_ok (options : KnockFrameOptions) (draws : KnockDraws) (packet : Bytes)
    (built : buildKnockFrame crypto options draws = .ok packet) :
    ∃ plain nonce, KnockBuilt crypto options draws packet plain nonce := by
  unfold buildKnockFrame at built
  simp only at built
  split at built
  · cases built
  rename_i client
  split at built
  · cases built
  rename_i port
  split at built
  · cases built
  rename_i parts
  split at built
  · cases built
  rename_i plain encoded
  split at built
  · cases built
  rename_i nonce drawn
  split at built
  · cases built
  rename_i short
  push Not at short
  cases built
  exact ⟨plain, nonce, client, (validateProtectedPort_ok_iff _).mp port, parts, encoded,
    drawn, short.1, rfl⟩

variable {crypto} {options : KnockFrameOptions} {draws : KnockDraws} {packet plain : Bytes}
  {nonce : FixedBytes 16}

theorem validateParts_ok (options : KnockFrameOptions) (valid : options.validateParts = .ok ()) :
    (options.sessionID.length = 0 ∨ knockSessionIDMinBytes ≤ options.sessionID.length) ∧
      (options.isSequence = true → options.sequenceID.length = knockSequenceIDBytes ∧
        2 ≤ options.sequenceTotal ∧ options.sequenceTotal ≤ defaultSequenceMaxParts ∧
        0 ≤ options.sequenceIndex ∧ options.sequenceIndex < options.sequenceTotal) ∧
      (options.isSequence = false → options.sequenceID = []) := by
  unfold KnockFrameOptions.validateParts at valid
  split at valid
  · cases valid
  rename_i session
  refine ⟨by omega, ?_, ?_⟩
  · intro sequence
    rw [if_pos sequence] at valid
    split at valid
    · cases valid
    rename_i size
    split at valid
    · cases valid
    rename_i range
    push Not at size range
    exact ⟨size, range⟩
  · intro single
    simp only [KnockFrameOptions.isSequence, decide_eq_false_iff_not, not_or] at single
    exact List.length_eq_zero_iff.mp (by omega)

theorem encodeKnockPayload_ok (p : KnockPayload) (raw : Bytes)
    (encoded : encodeKnockPayload p = .ok raw) :
    p.method ≠ [] ∧ p.method.length ≤ 255 ∧ p.sessionID.length ≤ 255 ∧
      p.sequenceID.length ≤ 255 ∧ p.clientRandom.length ≤ 255 := by
  unfold encodeKnockPayload at encoded
  split at encoded
  · cases encoded
  rename_i lengths
  push Not at lengths
  exact lengths

theorem KnockBuilt.carried (built : KnockBuilt crypto options draws packet plain nonce) :
    (options.builtPayload crypto draws).Carried := by
  obtain ⟨named, method, session, sequence, random⟩ := encodeKnockPayload_ok _ plain built.encoded
  obtain ⟨sessionSize, sequenceParts, _⟩ := validateParts_ok _ built.parts
  have most : defaultSequenceMaxParts = 8 := rfl
  refine ⟨named, method, session, sequence, random, built.port, ?_, ?_, sessionSize⟩
  · simp only [KnockFrameOptions.builtPayload, KnockFrameOptions.payload]
    split
    · rename_i isSequence
      have := sequenceParts isSequence
      omega
    · omega
  · simp only [KnockFrameOptions.builtPayload, KnockFrameOptions.payload]
    split
    · rename_i isSequence
      have := sequenceParts isSequence
      omega
    · omega

theorem builtPayload_frameType (options : KnockFrameOptions) (draws : KnockDraws) :
    (options.builtPayload crypto draws).frameType = knockFrameTypeUDPSequence ↔
      options.isSequence = true := by
  show (if options.isSequence then knockFrameTypeUDPSequence else knockFrameTypeUDP) = _ ↔ _
  cases options.isSequence with
  | true => decide
  | false => decide

theorem builtHeader_flags (options : KnockFrameOptions) (draws : KnockDraws)
    (nonce : FixedBytes 16) (plain : Bytes) :
    (options.builtHeader crypto draws nonce plain).flags =
      (if options.isSequence then knockFlagSequence else 0) |||
      (if options.sessionID = [] then 0 else knockFlagSession) |||
      (if options.extensions = [] then 0 else knockFlagExtensions) := by
  simp only [KnockFrameOptions.builtHeader, KnockFrameOptions.header, builtPayload_frameType]
  have session : (0 < (options.builtPayload crypto draws).sessionID.length) ↔
      options.sessionID ≠ [] := List.length_pos_iff
  have extensions : (0 < (options.builtPayload crypto draws).extensions.length) ↔
      options.extensions ≠ [] := List.length_pos_iff
  simp only [session, extensions, ne_eq, ite_not]

theorem flags_allowed {sequence session extensions : Prop} [Decidable sequence] [Decidable session]
    [Decidable extensions] {flags : UInt8}
    (same : flags = (if sequence then knockFlagSequence else 0) |||
      (if session then 0 else knockFlagSession) ||| (if extensions then 0 else knockFlagExtensions)) :
    flags &&& ~~~allowedKnockFlags = 0 ∧ ((flags &&& knockFlagSequence ≠ 0) ↔ sequence) ∧
      ((flags &&& knockFlagSession ≠ 0) ↔ ¬ session) ∧
      ((flags &&& knockFlagExtensions ≠ 0) ↔ ¬ extensions) := by
  subst same
  by_cases first : sequence <;> by_cases second : session <;> by_cases third : extensions <;>
    simp only [first, second, third, if_true, if_false] <;> decide

theorem KnockBuilt.split (built : KnockBuilt crypto options draws packet plain nonce) :
    packet.take knockFrameHeaderSize =
        encodeKnockHeader (options.builtHeader crypto draws nonce plain) ∧
      packet.drop knockFrameHeaderSize = sealKnockPayload crypto options.secret
        (options.builtHeader crypto draws nonce plain) options.serverPort plain := by
  rw [built.framed, ← encodeKnockHeader_length (options.builtHeader crypto draws nonce plain)]
  exact ⟨List.take_left, List.drop_left⟩

theorem KnockBuilt.parsed (built : KnockBuilt crypto options draws packet plain nonce)
    (sealing : crypto.SealsOpenly) (config : ServerConfig)
    (samePort : config.serverPort = options.serverPort)
    (size : (packet.length : Int) ≤ config.maxFrameSize) :
    config.parse packet = .ok (options.builtHeader crypto draws nonce plain,
      sealKnockPayload crypto options.secret (options.builtHeader crypto draws nonce plain)
        options.serverPort plain) := by
  have port : validateProtectedPort config.serverPort = .ok () :=
    (validateProtectedPort_ok_iff _).mpr (samePort ▸ built.port)
  have headerLength := encodeKnockHeader_length (options.builtHeader crypto draws nonce plain)
  have sealedLength : (sealKnockPayload crypto options.secret
      (options.builtHeader crypto draws nonce plain) options.serverPort plain).length =
        plain.length + overhead := sealing.seal_length _ _ _ _
  have announced : (options.builtHeader crypto draws nonce plain).sealedLen.toNat =
      plain.length + overhead := by
    have short := built.short
    show (UInt16.ofNat (plain.length + overhead)).toNat = _
    rw [UInt16.toNat_ofNat', Nat.mod_eq_of_lt (by omega)]
  have length : packet.length = knockFrameHeaderSize + (plain.length + overhead) := by
    rw [built.framed, List.length_append, headerLength, sealedLength]
  have allowed := (flags_allowed (@builtHeader_flags crypto options draws nonce plain)).1
  have some_ : (options.builtHeader crypto draws nonce plain).sealedLen ≠ 0 := by
    intro zero
    rw [zero] at announced
    have : (0 : UInt16).toNat = 0 := rfl
    have : overhead = 16 := rfl
    omega
  have reserved : (options.builtHeader crypto draws nonce plain).reserved = 0 := rfl
  rw [ServerConfig.parse, port]
  simp only [built.split, decodeKnockHeader_encodeKnockHeader, announced]
  rw [if_neg (by omega), if_neg (by omega), if_neg (not_not_intro reserved),
    if_neg (not_not_intro allowed), if_neg some_, if_neg (by omega)]

def OpensOnlyFor (crypto : Crypto) (clients : List ClientSecret) (secret : Bytes)
    (h : KnockFrameHeader) (serverPort : Int) (sealed : Bytes) : Prop :=
  ∀ client ∈ clients,
    deriveKnockAEADKey crypto client.secret h.nonce ≠ deriveKnockAEADKey crypto secret h.nonce →
    openKnockPayload crypto client.secret h serverPort sealed = none

def HashesApart (crypto : Crypto) (clients : List ClientSecret) (target : ClientSecret) : Prop :=
  ∀ client ∈ clients, client.clientID ≠ target.clientID →
    computeKnockClientIDHash crypto client.secret client.clientID ≠
      computeKnockClientIDHash crypto target.secret target.clientID

theorem findClient_built (cfg : ServerConfig) (target : ClientSecret) (h : KnockFrameHeader)
    (sealed plain : Bytes) (payload : KnockPayload)
    (valid : validateClientSecret target = .ok ())
    (hint : computeKnockKeyHint crypto target.secret h.nonce cfg.serverPort = h.keyHint)
    (opened : openKnockPayload crypto target.secret h cfg.serverPort sealed = some plain)
    (decoded : decodeKnockPayload plain = .ok payload)
    (named : payload.clientIDHash = computeKnockClientIDHash crypto target.secret target.clientID)
    (clients : List ClientSecret) (member : target ∈ clients)
    (opensOnly : OpensOnlyFor crypto clients target.secret h cfg.serverPort sealed)
    (apart : HashesApart crypto clients target) (sawHint : Bool) :
    ∃ client, cfg.findClient crypto h sealed sawHint clients = .ok (client, payload) ∧
      client.clientID = target.clientID := by
  induction clients generalizing sawHint with
  | nil => cases member
  | cons head rest ih =>
    have later : head ≠ target → ∀ saw : Bool,
        ∃ client, cfg.findClient crypto h sealed saw rest = .ok (client, payload) ∧
          client.clientID = target.clientID := by
      intro other saw
      have inside : target ∈ rest := (List.mem_cons.mp member).resolve_left (Ne.symm other)
      exact ih inside (fun client later => opensOnly client (List.mem_cons_of_mem head later))
        (fun client later => apart client (List.mem_cons_of_mem head later)) saw
    rw [ServerConfig.findClient]
    by_cases invalid : validateClientSecret head = .ok ()
    · rw [if_neg (not_not_intro invalid)]
      by_cases hinted : computeKnockKeyHint crypto head.secret h.nonce cfg.serverPort = h.keyHint
      · rw [if_neg (not_not_intro hinted)]
        by_cases key : deriveKnockAEADKey crypto head.secret h.nonce =
            deriveKnockAEADKey crypto target.secret h.nonce
        · -- the same key opens the same plaintext, so only the hash can differ
          have same : openKnockPayload crypto head.secret h cfg.serverPort sealed = some plain := by
            rw [openKnockPayload, key]
            exact opened
          simp only [same, decoded]
          by_cases hash : payload.clientIDHash =
              computeKnockClientIDHash crypto head.secret head.clientID
          · rw [if_neg (not_not_intro hash)]
            refine ⟨head, rfl, ?_⟩
            by_contra other
            exact apart head List.mem_cons_self other (hash.symm.trans named)
          · rw [if_pos hash]
            refine later ?_ true
            rintro rfl
            exact hash named
        · simp only [opensOnly head List.mem_cons_self key]
          refine later ?_ true
          rintro rfl
          exact key rfl
      · rw [if_pos hinted]
        refine later ?_ sawHint
        rintro rfl
        exact hinted hint
    · rw [if_pos invalid]
      refine later ?_ sawHint
      rintro rfl
      exact invalid valid

theorem KnockBuilt.validated (built : KnockBuilt crypto options draws packet plain nonce)
    (cfg : ServerConfig) (samePort : cfg.serverPort = options.serverPort)
    (method : cfg.method = [] ∨ cfg.method = (options.withDefaults draws).method)
    (sequence : options.isSequence = true → cfg.allowSequence = true) (now : Int)
    (fresh : WithinWindow cfg.timeWindow now (toUnixMilli (options.withDefaults draws).timestamp)) :
    cfg.validatePayload (options.builtHeader crypto draws nonce plain)
      (options.builtPayload crypto draws) now = .ok () := by
  obtain ⟨sessionSize, sequenceParts, _⟩ := validateParts_ok _ built.parts
  obtain ⟨allowed, sequenceBit, sessionBit, extensionsBit⟩ := flags_allowed
    (@builtHeader_flags crypto options draws nonce plain)
  have kind : (options.builtPayload crypto draws).frameType = knockFrameTypeUDPSequence ↔
      options.isSequence = true := @builtPayload_frameType crypto options draws
  have sessionLong : ¬ options.sessionID = [] ↔
      knockSessionIDMinBytes ≤ (options.builtPayload crypto draws).sessionID.length := by
    rw [← ne_eq, ← List.length_pos_iff]
    have size : options.sessionID.length = 0 ∨ 16 ≤ options.sessionID.length := sessionSize
    show 0 < options.sessionID.length ↔ 16 ≤ options.sessionID.length
    omega
  have extensionsSome : ¬ options.extensions = [] ↔
      0 < (options.builtPayload crypto draws).extensions.length := List.length_pos_iff.symm
  have flags : validateKnockFlags (options.builtHeader crypto draws nonce plain).flags
      (options.builtPayload crypto draws) = .ok () := by
    rw [validateKnockFlags, if_neg (not_not_intro allowed),
      if_neg (not_not_intro (sequenceBit.trans kind.symm)),
      if_neg (not_not_intro (sessionBit.trans sessionLong)),
      if_neg (not_not_intro (extensionsBit.trans extensionsSome))]
  rw [ServerConfig.validatePayload_ok_iff]
  refine ⟨samePort.symm, flags, method.imp_right Eq.symm, ?_, ?_, fresh⟩
  · by_cases sequenced : options.isSequence = true
    · exact Or.inl (kind.mpr sequenced)
    · right
      show (if options.isSequence then knockFrameTypeUDPSequence else knockFrameTypeUDP) = _
      rw [if_neg sequenced]
  · intro isSequence
    have sequenced := kind.mp isSequence
    have same : (options.withDefaults draws).isSequence = true := sequenced
    refine ⟨sequence sequenced, ?_⟩
    simp only [KnockFrameOptions.builtPayload, KnockFrameOptions.payload, same, if_true]
    exact sequenceParts sequenced

theorem frameNonce_ok (drawn : options.frameNonce draws = .ok nonce) :
    nonce = (if options.nonce = [] then draws.nonce else FixedBytes.copy 16 options.nonce) ∧
      nonce.bytes = if options.nonce = [] then draws.nonce.bytes else options.nonce := by
  unfold KnockFrameOptions.frameNonce at drawn
  by_cases none : options.nonce = []
  · rw [if_neg (by simp [none])] at drawn
    cases drawn
    rw [if_pos none, if_pos none]
    exact ⟨rfl, rfl⟩
  · rw [if_pos (List.length_pos_iff.mpr none)] at drawn
    split at drawn
    · cases drawn
    rename_i sixteen
    push Not at sixteen
    cases drawn
    rw [if_neg none, if_neg none]
    exact ⟨rfl, FixedBytes.copy_bytes_of_length options.nonce sixteen⟩

theorem KnockBuilt.knockInfo_eq (built : KnockBuilt crypto options draws packet plain nonce)
    (noHint : options.keyHint = 0) (client : ClientSecret)
    (named : client.clientID = options.clientID) :
    knockInfo client (options.builtHeader crypto draws nonce plain)
      (options.builtPayload crypto draws) = options.info crypto draws := by
  obtain ⟨_, _, unsequenced⟩ := validateParts_ok _ built.parts
  have sequenceID : (if options.isSequence then options.sequenceID else []) = options.sequenceID := by
    cases sequence : options.isSequence with
    | true => rfl
    | false => exact (unsequenced sequence).symm
  obtain ⟨nonceEq, nonceBytes⟩ := frameNonce_ok built.drawn
  have hint : (options.builtHeader crypto draws nonce plain).keyHint =
      computeKnockKeyHint crypto options.secret nonce options.serverPort :=
    if_neg (not_not_intro noHint)
  have random : (if options.clientRandom.length = 0 then draws.clientRandom.bytes
      else options.clientRandom) = if options.clientRandom = [] then draws.clientRandom.bytes
      else options.clientRandom := by
    simp only [List.length_eq_zero_iff]
  unfold knockInfo KnockFrameOptions.info
  rw [hint, builtHeader_flags, named, ← random]
  congr 1
  exact congrArg (fun drawn => computeKnockKeyHint crypto options.secret drawn options.serverPort)
    nonceEq

/-- A frame that was built is opened as what it says, by every server that
takes its port, method, size and kind, whose clock is within the window of the
frame's timestamp and whose cache takes the nonce. -/
theorem openKnockFrame_built {Cache : Type} (checkAndMark : CheckAndMark Cache)
    (sealing : crypto.SealsOpenly) (options : KnockFrameOptions) (draws : KnockDraws)
    (packet : Bytes) (built : buildKnockFrame crypto options draws = .ok packet)
    (noHint : options.keyHint = 0) (config : ServerConfig)
    (samePort : config.serverPort = options.serverPort)
    (method : config.method = [] ∨ config.method = (options.info crypto draws).method)
    (size : (packet.length : Int) ≤ config.withDefaults.maxFrameSize)
    (sequence : options.isSequence = true → config.allowSequence = true) (clock : KnockReadings)
    (fresh : WithinWindow config.withDefaults.timeWindow clock.check
      (toUnixMilli (options.withDefaults draws).timestamp))
    (replay : Option Cache)
    (unseen : ∀ cache ∈ replay, (checkAndMark options.clientID (options.info crypto draws).nonce
      clock.mark cache).1 = .ok ())
    (member : ⟨options.clientID, options.secret⟩ ∈ config.clients)
    (opensOnly : OpensOnlyFor crypto config.clients options.secret
      (decodeKnockHeader (packet.take knockFrameHeaderSize)) options.serverPort
      (packet.drop knockFrameHeaderSize))
    (apart : HashesApart crypto config.clients ⟨options.clientID, options.secret⟩) :
    (openKnockFrame crypto checkAndMark config packet clock replay).1 =
      .ok (options.info crypto draws) := by
  obtain ⟨plain, nonce, built⟩ := buildKnockFrame_ok crypto options draws packet built
  rw [built.split.1, built.split.2, decodeKnockHeader_encodeKnockHeader] at opensOnly
  have port : config.withDefaults.serverPort = options.serverPort := samePort
  have parsed := built.parsed sealing config.withDefaults port size
  have hint : computeKnockKeyHint crypto options.secret
      (options.builtHeader crypto draws nonce plain).nonce config.withDefaults.serverPort =
        (options.builtHeader crypto draws nonce plain).keyHint := by
    rw [port]
    exact (if_neg (not_not_intro noHint)).symm
  have opened : openKnockPayload crypto options.secret
      (options.builtHeader crypto draws nonce plain) config.withDefaults.serverPort
      (sealKnockPayload crypto options.secret (options.builtHeader crypto draws nonce plain)
        options.serverPort plain) = some plain := by
    rw [port]
    exact sealing.open_seal _ _ _ _
  obtain ⟨client, found, named⟩ := findClient_built config.withDefaults
    ⟨options.clientID, options.secret⟩ _ _ plain (options.builtPayload crypto draws) built.client
    hint opened (decodeKnockPayload_encodeKnockPayload _ built.carried plain built.encoded) rfl
    config.clients member (port ▸ opensOnly) apart false
  have validated := built.validated config.withDefaults port method sequence clock.check fresh
  have info := built.knockInfo_eq noHint client named
  have nonceBytes : (options.builtHeader crypto draws nonce plain).nonce.bytes =
      (options.info crypto draws).nonce := congrArg KnockInfo.nonce info
  unfold openKnockFrame
  simp only [parsed]
  rw [show config.withDefaults.clients = config.clients from rfl, found]
  simp only [validated]
  cases replay with
  | none => exact congrArg Except.ok info
  | some cache =>
    have marked := unseen cache rfl
    simp only [named, nonceBytes]
    cases outcome : checkAndMark options.clientID (options.info crypto draws).nonce clock.mark
        cache with
    | mk answer next =>
      rw [outcome] at marked
      simp only at marked
      rw [marked]
      exact congrArg Except.ok info

end Built

/-! ## A sample -/

def sampleSecret : Bytes := List.replicate 16 7

/-- Stamped half a millisecond into its millisecond. -/
def sampleKnock : KnockFrameOptions :=
  { clientID := ascii "alice"
    secret := sampleSecret
    serverPort := 443
    sessionID := List.replicate 16 5
    extensions := [⟨1, [2, 3]⟩]
    nonce := List.replicate 16 9
    timestamp := 1000000000000500000 }

def sampleDraws : KnockDraws := ⟨0, FixedBytes.copy 16 [4], FixedBytes.copy 16 []⟩

/-- Another client shares the secret and comes first. -/
def sampleServer : ServerConfig :=
  { clients := [⟨ascii "bob", sampleSecret⟩, ⟨ascii "alice", sampleSecret⟩]
    serverPort := 443
    timeWindow := 10 * second }

def samplePacket : Bytes :=
  match buildKnockFrame keyTagCrypto sampleKnock sampleDraws with
  | .error _ => []
  | .ok packet => packet

theorem openKnockFrame_built_sample :
    (openKnockFrame keyTagCrypto MemoryReplayCache.checkAndMark sampleServer samplePacket
      ⟨1000000000000600000, 1000000000000700000⟩ (some (.newWithLimit second 1))).1 =
      .ok (sampleKnock.info keyTagCrypto sampleDraws) :=
  openKnockFrame_built MemoryReplayCache.checkAndMark keyTagCrypto_sealsOpenly sampleKnock
    sampleDraws samplePacket (by decide +kernel) rfl sampleServer rfl (Or.inl rfl)
    (by decide +kernel) (by decide +kernel) ⟨1000000000000600000, 1000000000000700000⟩
    (by unfold WithinWindow; decide +kernel) (some (.newWithLimit second 1))
    (by rintro cache ⟨⟩; decide +kernel) (by decide)
    (by unfold OpensOnlyFor; decide +kernel) (by unfold HashesApart; decide +kernel)

/-- A cache for one nonce that holds another. -/
def sampleFullCache : MemoryReplayCache :=
  ((MemoryReplayCache.newWithLimit minute 1).checkAndMark (ascii "bob") [1] 1000000000000500000).2

/-- A cache that has not seen the nonce refuses it when it is full, and a clock
exactly a window after the moment the frame was stamped is more than a window
after the millisecond the frame carries. -/
theorem openKnockFrame_refuses_built :
    buildKnockFrame keyTagCrypto sampleKnock sampleDraws = .ok samplePacket ∧
      (∀ entry ∈ sampleFullCache.entries.order,
        entry.key ≠ replayKey sampleKnock.clientID sampleKnock.nonce) ∧
      (openKnockFrame keyTagCrypto MemoryReplayCache.checkAndMark sampleServer samplePacket
        ⟨sampleKnock.timestamp, sampleKnock.timestamp⟩ (some sampleFullCache)).1 =
        .error .replayCacheFull ∧
      (openKnockFrame keyTagCrypto MemoryReplayCache.checkAndMark sampleServer samplePacket
        ⟨addDuration sampleKnock.timestamp sampleServer.timeWindow,
          addDuration sampleKnock.timestamp sampleServer.timeWindow⟩
        (some (.newWithLimit second 1))).1 = .error .timeSkew := by
  refine ⟨?_, ?_, ?_, ?_⟩
  · decide +kernel
  · decide +kernel
  · decide +kernel
  · decide +kernel

end Libknock.Knock
