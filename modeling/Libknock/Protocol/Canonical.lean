import Libknock.Protocol.EnvelopeFit

/-!
# The payload encodings are canonical

The decoders of both protocol versions accept nothing but what the encoders
write, and an encoded v2 payload ends where its own length fields say.  The
frame reader and the envelope opener give back what the builders put together.
-/

set_option autoImplicit false

namespace Libknock.Protocol

open Foundation Codec

theorem portInRange_natCast (port : UInt16) : portInRange (port.toNat : Int) = true := by
  have bound : port.toNat < 65536 := port.toNat_lt
  simp only [portInRange, decide_eq_true_eq]
  omega

/-! ## Payload v1 -/

theorem decodePayloadHead_readsOnly :
    ReadsOnly decodePayloadHead fun head item =>
      item = payloadHead head.1 head.2 ∧ portInRange head.1.serverPort = true ∧
        head.1.method.length ≤ 255 ∧ head.1.sessionID.length ≤ 255 := by
  refine readsOnly_bind (readFixed_readsOnly 16) ?_
  rintro _ id ⟨rfl, sixteen⟩
  refine readsOnly_bind readUint64_readsOnly ?_
  rintro ts _ rfl
  refine readsOnly_bind readUint16_readsOnly ?_
  rintro port _ rfl
  refine readsOnly_counted fun method methodShort => ?_
  refine readsOnly_counted fun sessionID sessionShort => ?_
  refine readsOnly_bind readUint16_readsOnly ?_
  rintro extLen _ rfl
  refine readsOnly_pure _ ⟨?_, portInRange_natCast port, methodShort, sessionShort⟩
  simp only [payloadHead, FixedBytes.copy_bytes_of_length id sixteen, UInt64.toUInt64_toInt64,
    uint16OfInt_natCast, List.append_nil]

theorem encodePayload_decodePayload (raw : Bytes) (p : Payload)
    (decoded : decodePayload raw = .ok p) : encodePayload p = .ok raw := by
  unfold decodePayload at decoded
  rw [newReader_eq_readerAt] at decoded
  cases head : decodePayloadHead (readerAt [] raw .invalidFrame) with
  | error err => simp [head] at decoded
  | ok step =>
    obtain ⟨⟨front, extLen⟩, reader⟩ := step
    obtain ⟨item, left, rfl, rfl, rfl, port, method, session⟩ :=
      decodePayloadHead_readsOnly [] raw .invalidFrame (front, extLen) reader head
    simp only [head, readerAt_remaining] at decoded
    split at decoded
    · cases decoded
    rename_i counted
    push Not at counted
    -- the extensions are all that is left
    have body := readFixed_reads (ε := ProtocolError) left (payloadHead front extLen) []
      .invalidFrame
    rw [List.append_nil, ← counted] at body
    simp only [readVarBytes, List.nil_append, body, Except.ok.injEq] at decoded
    subst decoded
    have bound : extLen.toNat < 65536 := extLen.toNat_lt
    refine encodePayload_ok_iff.mpr ⟨⟨port, method, session, by simp only; omega⟩, ?_⟩
    simp only [← counted, UInt16.ofNat_toNat, payloadHead]

/-! ## Frames v1 -/

/-- The codecs of version 1 are bijections between the payloads whose fields fit,
or the headers, and the byte strings that the decoders accept; the frame reader
takes a built frame off the stream and nothing more. -/
theorem payload_and_frame_canonical :
    (∀ p : Payload, 0 ≤ p.serverPort → p.serverPort ≤ 65535 → p.method.length ≤ 255 →
      p.sessionID.length ≤ 255 → p.extensions.length ≤ 65535 →
      ∃ raw, encodePayload p = .ok raw ∧ decodePayload raw = .ok p) ∧
    (∀ (raw : Bytes) (p : Payload), decodePayload raw = .ok p → encodePayload p = .ok raw) ∧
    (∀ h : Header, decodeHeader (encodeHeader h) = h) ∧
    (∀ raw : Bytes, raw.length = headerSize → encodeHeader (decodeHeader raw) = raw) ∧
    ∀ (crypto : Crypto), (∀ key nonce plain aad,
        (crypto.aeadSeal key nonce plain aad).length = plain.length + overhead) →
      ∀ (clientID secret : Bytes) (serverPort now : Int) (flags : UInt8)
        (method sessionID extensions : Bytes) (nonce : FixedBytes 16) (frame : Bytes) (h : Header)
        (maxFrameSize : Int) (suffix : Bytes) (reader : StreamReader),
        buildFrame crypto clientID secret serverPort now flags method sessionID extensions nonce =
          .ok (frame, h) →
        (frame.length : Int) ≤ frameLimit maxFrameSize →
        reader.err = none → reader.pending = frame ++ suffix →
        ∃ sealed next, frame = encodeHeader h ++ sealed ∧
          readFrame maxFrameSize reader = .ok ((h, sealed), next) ∧ next.err = none ∧
          next.pending = suffix := by
  refine ⟨?_, encodePayload_decodePayload, decodeHeader_encodeHeader, encodeHeader_decodeHeader,
    ?_⟩
  · intro p low high method session extensions
    have encoded : encodePayload p = .ok _ := encodePayload_ok_iff.mpr
      ⟨⟨by simp [portInRange, low, high], method, session, extensions⟩, rfl⟩
    exact ⟨_, encoded, decodePayload_encodePayload encoded⟩
  · intro crypto tagged clientID secret serverPort now flags method sessionID extensions nonce frame
      h maxFrameSize suffix reader success fits calm sent
    obtain ⟨plain, built⟩ := buildFrame_ok success
    have whole := built.frame
    rw [whole, List.append_assoc] at sent
    obtain ⟨next, read, step⟩ := readFrame_sent maxFrameSize h _ suffix
      (built.accepted tagged fits) reader calm sent
    refine ⟨_, next, whole, read, step.calm, ?_⟩
    have rest := step.pending
    rw [sent, ← List.append_assoc] at rest
    exact (List.append_cancel_left rest).symm

def samplePayload : Payload :=
  ⟨FixedBytes.copy 16 [1, 2, 3], 5, 443, ascii "tcp", [9], [7, 7]⟩

def sampleFrame : Except ProtocolError (Bytes × Header) :=
  buildFrame keyTagCrypto (ascii "alice") (List.replicate 16 1) 443 0 0 (ascii "tcp") [9] []
    (FixedBytes.copy 16 [4])

theorem payload_and_frame_canonical_sample :
    (∃ raw, encodePayload samplePayload = .ok raw ∧ decodePayload raw = .ok samplePayload) ∧
      ∃ frame h sealed next, sampleFrame = .ok (frame, h) ∧ frame = encodeHeader h ++ sealed ∧
        readFrame 0 (BufferedReader.new (Source.ofChunk (frame ++ [1, 2, 3]))) =
          .ok ((h, sealed), next) ∧
        next.err = none ∧ next.pending = [1, 2, 3] := by
  obtain ⟨payloads, _, _, _, frames⟩ := payload_and_frame_canonical
  refine ⟨payloads samplePayload (by decide) (by decide) (by decide) (by decide) (by decide), ?_⟩
  obtain ⟨⟨frame, h⟩, built⟩ : ∃ result, sampleFrame = .ok result := ⟨_, rfl⟩
  have length : sampleFrame.toOption.map (fun result => result.1.length) = some 79 := by
    decide +kernel
  rw [built] at length
  have short : (frame.length : Int) ≤ frameLimit 0 := by
    have size : frame.length = 79 := Option.some.inj length
    rw [size]
    decide
  obtain ⟨sealed, next, whole, read, calm, rest⟩ := frames keyTagCrypto
    keyTagCrypto_sealsOpenly.seal_length _ _ _ _ _ _ _ _ _ frame h 0 [1, 2, 3]
    (BufferedReader.new (Source.ofChunk (frame ++ [1, 2, 3]))) built short rfl
    (Source.ofChunk_flatten _)
  exact ⟨frame, h, sealed, next, built, whole, read, calm, rest⟩

/-! ## Payload v2 -/

theorem envelopeV2PayloadDecoder_readsOnly :
    ReadsOnly envelopeV2PayloadDecoder fun p item => encodeEnvelopeV2Payload p = .ok item := by
  refine readsOnly_bind readByte_readsOnly ?_
  rintro version _ rfl
  refine readsOnly_bind readByte_readsOnly ?_
  rintro flags _ rfl
  refine readsOnly_bind readUint64_readsOnly ?_
  rintro ts _ rfl
  refine readsOnly_bind (readFixed_readsOnly 16) ?_
  rintro _ id ⟨rfl, sixteen⟩
  refine readsOnly_bind readUint16_readsOnly ?_
  rintro port _ rfl
  refine readsOnly_counted fun method methodShort => ?_
  refine readsOnly_counted fun sessionID sessionShort => ?_
  refine readsOnly_bind readUint16_readsOnly ?_
  rintro extLen _ rfl
  refine readsOnly_bind (readFixed_readsOnly extLen.toNat) ?_
  rintro _ extensions ⟨rfl, extCounted⟩
  have bound : extLen.toNat < 65536 := extLen.toNat_lt
  refine readsOnly_pure _ (encodeEnvelopeV2Payload_ok_iff.mpr ⟨⟨portInRange_natCast port,
    methodShort, sessionShort, by simp only; omega⟩, ?_⟩)
  simp only [envelopeV2PayloadBytes, FixedBytes.copy_bytes_of_length id sixteen,
    UInt64.toUInt64_toInt64, uint16OfInt_natCast, extCounted, UInt16.ofNat_toNat, List.append_nil]

theorem decodeEnvelopeV2PayloadWithLength_ok {raw : Bytes} {p : EnvelopeV2Payload} {next : Nat}
    (decoded : decodeEnvelopeV2PayloadWithLength raw = .ok (p, next)) :
    encodeEnvelopeV2Payload p = .ok (raw.take next) := by
  unfold decodeEnvelopeV2PayloadWithLength at decoded
  rw [newReader_eq_readerAt] at decoded
  cases run : envelopeV2PayloadDecoder (readerAt [] raw .invalidFrame) with
  | error err => simp [run] at decoded
  | ok step =>
    obtain ⟨payload, reader⟩ := step
    obtain ⟨item, left, rfl, rfl, encoded⟩ :=
      envelopeV2PayloadDecoder_readsOnly [] raw .invalidFrame payload reader run
    simp only [run, Except.ok.injEq, Prod.mk.injEq, readerAt_pos, List.nil_append] at decoded
    obtain ⟨rfl, rfl⟩ := decoded
    rwa [List.take_left]

/-! ## Envelopes -/

def drawnBucket (cfg : EnvelopeV2Config) (draws : EnvelopeV2Draws) (plain : Bytes) : Int :=
  (envelopeV2Candidates cfg plain).getD
    (draws.bucket % (envelopeV2Candidates cfg plain).length) 0

theorem finishEnvelopeV2_bucket {crypto : Crypto} {secret : Bytes} {serverPort : Int}
    {cfg : EnvelopeV2Config} {draws : EnvelopeV2Draws} {prefixRandom : FixedBytes 24}
    {routeHint : UInt64} {plain frame : Bytes} {h : EnvelopeV2Header}
    (built : finishEnvelopeV2 crypto secret serverPort cfg draws prefixRandom routeHint plain =
      .ok (frame, h)) : h.bucketSize = drawnBucket cfg draws plain := by
  unfold finishEnvelopeV2 at built
  simp only at built
  split at built
  · cases built
  split at built
  · cases built
  split at built
  · cases built
  cases built
  rfl

theorem envelopeV2Frame_length (h : EnvelopeV2Header) (sealed : Bytes) :
    (envelopeV2Frame h sealed).length = envelopeV2PrefixLen h.hintMode + sealed.length := by
  rw [envelopeV2Frame, List.length_append, ← prefixBytes, prefixBytes_length]

theorem envelopeV2Frame_drop (h : EnvelopeV2Header) (sealed : Bytes) :
    (envelopeV2Frame h sealed).drop (envelopeV2PrefixLen h.hintMode) = sealed := by
  rw [envelopeV2Frame, ← prefixBytes, ← prefixBytes_length h, List.drop_left]

theorem openEnvelopeV2Payload_seal {crypto : Crypto} (openly : crypto.SealsOpenly) (secret : Bytes)
    (h : EnvelopeV2Header) (serverPort : Int) (body : Bytes) :
    openEnvelopeV2Payload crypto secret h serverPort (sealEnvelopeV2 crypto secret h serverPort body) =
      parseEnvelopeV2Body body := by
  rw [openEnvelopeV2Payload, openEnvelopeV2Sealed, sealEnvelopeV2, openly.open_seal]

/-- An encoded payload of version 2 shows where it ends, nothing else decodes,
and a built envelope fills the bucket drawn and opens to what was put in. -/
theorem envelopeV2_payload_self_delimiting :
    (∀ (p : EnvelopeV2Payload) (raw suffix : Bytes), encodeEnvelopeV2Payload p = .ok raw →
      decodeEnvelopeV2PayloadWithLength (raw ++ suffix) = .ok (p, raw.length)) ∧
    (∀ (raw : Bytes) (p : EnvelopeV2Payload) (next : Nat),
      decodeEnvelopeV2PayloadWithLength raw = .ok (p, next) →
      encodeEnvelopeV2Payload p = .ok (raw.take next)) ∧
    ∀ crypto : Crypto, crypto.SealsOpenly →
      ∀ (clientID secret : Bytes) (serverPort now : Int) (flags : UInt8)
        (method sessionID extensions : Bytes) (config : EnvelopeV2Config) (draws : EnvelopeV2Draws)
        (frame : Bytes) (h : EnvelopeV2Header),
        buildEnvelopeV2 crypto clientID secret serverPort now flags method sessionID extensions
          config draws = .ok (frame, h) →
        ∃ payload plain padding,
          payload = ⟨envelopeV2Version, flags, toUnixMilli now,
            computeClientIDHash crypto secret clientID, serverPort, method, sessionID,
            extensions⟩ ∧
          encodeEnvelopeV2Payload payload = .ok plain ∧
          frame.drop (envelopeV2PrefixLen h.hintMode) = sealEnvelopeV2 crypto secret h serverPort
            (plain ++ putUint16 (UInt16.ofNat padding.length) ++ padding) ∧
          padding.length ≤ 65535 ∧
          h.bucketSize = drawnBucket config.withDefaults draws plain ∧
          (frame.length : Int) = h.bucketSize ∧
          openEnvelopeV2Payload crypto secret h serverPort
            (frame.drop (envelopeV2PrefixLen h.hintMode)) = .ok payload := by
  refine ⟨decodeEnvelopeV2PayloadWithLength_append,
    fun raw p next => decodeEnvelopeV2PayloadWithLength_ok, ?_⟩
  intro crypto openly clientID secret serverPort now flags method sessionID extensions config draws
    frame h built
  obtain ⟨prefixRandom, plain, checked⟩ := buildEnvelopeV2_checked built
  obtain ⟨bucket, padding, _, header, small, size, whole⟩ := finishEnvelopeV2_ok checked.finished
  have parsed := parseEnvelopeV2Body_padded _ plain padding checked.encoded small rfl
    checked.supported
  have mode : h.hintMode = config.withDefaults.hintMode := by rw [header]
  have sealedLength := openly.seal_length (deriveEnvelopeV2Key crypto secret h.prefixRandom)
    (envelopeV2Nonce h.prefixRandom) (plain ++ putUint16 (UInt16.ofNat padding.length) ++ padding)
    (envelopeV2AAD h serverPort)
  refine ⟨_, plain, padding, rfl, checked.encoded, ?_, by omega,
    finishEnvelopeV2_bucket checked.finished, ?_, ?_⟩
  · rw [whole, envelopeV2Frame_drop]
  · rw [whole, envelopeV2Frame_length, sealEnvelopeV2, sealedLength, mode]
    have drawn : h.bucketSize = bucket := by rw [header]
    rw [drawn, ← size]
    simp only [List.length_append, putUint16_length]
  · rw [whole, envelopeV2Frame_drop, openEnvelopeV2Payload_seal openly, parsed]

open EnvelopeV2Request in
/-- Where the second bucket is drawn, 64 bytes of padding follow the payload. -/
theorem envelopeV2_payload_self_delimiting_sample :
    ∃ frame h plain padding, snugRequest.build keyTagCrypto (sampleDraws 1) = .ok (frame, h) ∧
      frame.drop (envelopeV2PrefixLen h.hintMode) = sealEnvelopeV2 keyTagCrypto snugRequest.secret h
        snugRequest.serverPort (plain ++ putUint16 (UInt16.ofNat padding.length) ++ padding) ∧
      padding.length = 64 ∧ frame.length = 192 ∧
      openEnvelopeV2Payload keyTagCrypto snugRequest.secret h snugRequest.serverPort
        (frame.drop (envelopeV2PrefixLen h.hintMode)) = .ok (snugRequest.payload keyTagCrypto) := by
  obtain ⟨_, _, envelopes⟩ := envelopeV2_payload_self_delimiting
  obtain ⟨⟨frame, h⟩, built⟩ :
      ∃ result, snugRequest.build keyTagCrypto (sampleDraws 1) = .ok result := ⟨_, rfl⟩
  have sizes : (snugRequest.build keyTagCrypto (sampleDraws 1)).map (fun result =>
      (result.1.length, envelopeV2PrefixLen result.2.hintMode)) = .ok (192, 32) := by decide +kernel
  obtain ⟨payload, plain, padding, request, encoded, dropped, _, _, _, opened⟩ :=
    envelopes keyTagCrypto keyTagCrypto_sealsOpenly _ _ _ _ _ _ _ _ _ _ frame h built
  subst request
  have short : (encodeEnvelopeV2Payload (snugRequest.payload keyTagCrypto)).map List.length =
      .ok 78 := by decide +kernel
  rw [built] at sizes
  rw [show encodeEnvelopeV2Payload (snugRequest.payload keyTagCrypto) = .ok plain from encoded] at short
  obtain ⟨long, front⟩ := Prod.mk.inj (Except.ok.inj sizes)
  have length := congrArg List.length dropped
  rw [List.length_drop, front, sealEnvelopeV2, keyTagCrypto_sealsOpenly.seal_length,
    List.length_append, List.length_append, putUint16_length, Except.ok.inj short, long] at length
  exact ⟨frame, h, plain, padding, built, dropped, by simp [overhead] at length; omega, long, opened⟩

end Libknock.Protocol
