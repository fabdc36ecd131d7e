import Libknock.Auth.Handshake

/-!
# Stream transparency

Authentication takes the frame off the stream and nothing else.  Acceptance of
a frame is stable: whatever follows the frame, and however the bytes are cut
into reads, the same candidate is found, the same bytes are taken, and no read
finds the connection empty.
-/

set_option autoImplicit false

namespace Libknock.Auth

open Foundation Protocol
open Foundation.BufferedReader (Advances)

variable (crypto : Crypto) {R K P : Type} (cfg : ServerConfig R K P)

/-! ## The bucket search is stable -/

theorem sealedNeed_le (h : EnvelopeV2Header) {small large : Int} (ordered : small ≤ large) :
    sealedNeed h small ≤ sealedNeed h large := by
  unfold sealedNeed
  omega

theorem sealedNeed_buffered (h : EnvelopeV2Header) (bucket : Int)
    (buckets : List Int) (member : bucket ∈ envelopeV2Buckets buckets) :
    sealedNeed h bucket ≤ bufferSize := by
  have range := supported_range bucket (envelopeV2Buckets_supported member)
  unfold sealedNeed bufferSize
  omega

variable {serverPort : Int}

/-- A search that found its bucket finds it again on any stream that agrees up
to the end of that bucket: smaller buckets are cut from the same bytes, and
larger ones are not reached. -/
theorem searchBuckets_stable {candidates : List SecretCandidate} {h : EnvelopeV2Header}
    {remote : NetAddr} {buckets : List Int} :
    ∀ (attempts : Nat) (reader next other : StreamReader) (found : EnvelopeMatch),
      reader.err = none → other.err = none → buckets.Pairwise (· ≤ ·) →
      (∀ bucket ∈ buckets, sealedNeed h bucket ≤ bufferSize) →
      searchBuckets crypto cfg candidates h serverPort remote attempts buckets reader =
        .ok (found, next) →
      sealedNeed h found.header.bucketSize ≤ other.pending.length →
      other.pending.take (sealedNeed h found.header.bucketSize) =
        reader.pending.take (sealedNeed h found.header.bucketSize) →
      ∃ last, searchBuckets crypto cfg candidates h serverPort remote attempts buckets other =
          .ok (found, last) ∧
        Advances other last (other.pending.take (sealedNeed h found.header.bucketSize)) := by
  induction buckets with
  | nil =>
    intro attempts reader next other found _ _ _ _ success
    cases success
  | cons bucket rest ih =>
    intro attempts reader next other found calm otherCalm sorted small success long agree
    rw [List.pairwise_cons] at sorted
    obtain ⟨least, sorted⟩ := sorted
    have smallRest : ∀ larger ∈ rest, sealedNeed h larger ≤ bufferSize :=
      fun larger member => small larger (List.mem_cons_of_mem bucket member)
    rw [searchBuckets] at success ⊢
    by_cases skipped : bucket > cfg.maxFrameSize ∨
        bucket < envelopeV2PrefixLen h.hintMode + overhead
    · rw [if_pos skipped] at success ⊢
      exact ih attempts reader next other found calm otherCalm sorted smallRest success long agree
    · rw [if_neg skipped] at success ⊢
      simp only at success ⊢
      cases peekRun : reader.peek (sealedNeed h bucket) with
      | error failure =>
        rw [sealedNeed] at peekRun
        rw [peekRun] at success
        cases success
      | ok cut =>
        obtain ⟨sealed, peeked⟩ := cut
        obtain ⟨_, sealedEq, advanced, _⟩ :=
          BufferedReader.peek_ok (sealedNeed h bucket) calm peekRun
        have same := advanced.pending_eq
        rw [sealedNeed] at peekRun
        simp only [peekRun] at success
        -- the bucket in hand is at most the one found, so both streams give the same cut
        have low : bucket ≤ found.header.bucketSize := by
          split at success
          · cases success
          · rename_i made _
            obtain ⟨larger, member, _, header, _⟩ := searchBuckets_ok crypto cfg candidates h
              serverPort remote made rest peeked next found advanced.calm success
            rw [header]
            exact least larger member
          · cases success
            exact Int.le_refl _
        have need := sealedNeed_le h low
        obtain ⟨otherPeeked, otherRun, otherAdvanced, otherHeld⟩ :=
          other.peek_sent (sealedNeed h bucket) otherCalm
            (small bucket (List.mem_cons_self ..)) (need.trans long)
        have otherSame := otherAdvanced.pending_eq
        have cutSame : other.pending.take (sealedNeed h bucket) = sealed := by
          rw [sealedEq, ← Nat.min_eq_left need, ← List.take_take, ← List.take_take, agree]
        rw [cutSame, sealedNeed] at otherRun
        simp only [otherRun]
        split at success
        · cases success
        · rename_i made _
          obtain ⟨last, run, step⟩ := ih made peeked next otherPeeked found advanced.calm
            otherAdvanced.calm sorted smallRest success (by rw [otherSame]; exact long)
            (by rw [otherSame, same]; exact agree)
          refine ⟨last, run, ?_⟩
          rw [otherSame] at step
          simpa using otherAdvanced.trans step
        · cases success
          exact ⟨_, rfl, otherAdvanced.discard_peeked (sealedNeed h bucket) otherHeld⟩

/-! ## Frames -/

/-- No offered secret opens what follows the header when it is cut to another
bucket than this one. -/
def OpensOnlyAt (resolver : SecretResolver) (serverPort : Int) (h : EnvelopeV2Header) (own : Int)
    (body : Bytes) : Prop :=
  ∀ candidates, resolveCandidates crypto (envelopeV2Meta h serverPort) resolver = .ok candidates →
    ∀ candidate ∈ candidates,
      ∀ bucket ∈ envelopeV2Buckets cfg.envelopeV2.withDefaults.frameSizeBuckets, bucket ≠ own →
        openEnvelopeV2Sealed crypto candidate.secret { h with bucketSize := bucket } serverPort
          (body.take (sealedNeed h bucket)) = none

/-- The bytes are one frame of the protocol the dispatch selects for them; for
an envelope, one that the primitives do not open under a wrong bucket of the
stream it heads. -/
def HeadsStream (resolver : SecretResolver) (serverPort : Int) (frame stream : Bytes) : Prop :=
  match protocolOf cfg frame with
  | none => False
  | some .frameV1 => ∃ h sealed, frame = encodeHeader h ++ sealed ∧
      sealed.length = h.sealedLen.toNat
  | some _ => ∃ h sealed, frame = prefixBytes h ++ sealed ∧
      PrefixAccepted cfg.envelopeV2.withDefaults.hintMode h ∧
      OpensOnlyAt crypto cfg resolver serverPort h frame.length
        (stream.drop (prefixBytes h).length)

theorem matchFrameV1_stable {resolver : SecretResolver} {conn : Conn} {frame rest app : Bytes}
    {reader other : StreamReader} {result : AuthResult}
    (framed : ∃ h sealed, frame = encodeHeader h ++ sealed ∧ sealed.length = h.sealedLen.toNat)
    (calm : reader.err = none) (otherCalm : other.err = none)
    (pending : reader.pending = frame ++ rest) (otherPending : other.pending = frame ++ app)
    (success : matchFrameV1 crypto cfg resolver conn serverPort reader = .ok result) :
    ∃ last, matchFrameV1 crypto cfg resolver conn serverPort other =
        .ok { result with reader := last } ∧ Advances other last frame := by
  obtain ⟨h, sealed, next, candidates, candidate, peer, read, resolved, first, rfl⟩ :=
    (matchFrameV1_ok_iff crypto cfg).mp success
  obtain ⟨accepted, advanced⟩ := readFrame_ok calm read
  have shape : frame = encodeHeader h ++ sealed := by
    obtain ⟨sent, body, rfl, bodyLength⟩ := framed
    have stream : encodeHeader sent ++ (body ++ rest) =
        encodeHeader h ++ (sealed ++ next.pending) := by
      rw [← List.append_assoc, ← pending, advanced.pending, List.append_assoc]
    obtain ⟨headers, bodies⟩ := List.append_inj stream
      (by rw [encodeHeader_length, encodeHeader_length])
    have sameHeader : sent = h := by
      have decoded := congrArg decodeHeader headers
      rw [decodeHeader_encodeHeader, decodeHeader_encodeHeader] at decoded
      exact decoded
    subst sameHeader
    obtain ⟨sameBody, _⟩ := List.append_inj bodies (by rw [bodyLength, accepted.sealed])
    rw [sameBody]
  obtain ⟨last, otherRead, otherAdvanced⟩ := readFrame_sent cfg.maxFrameSize h sealed app accepted
    other otherCalm (by rw [otherPending, shape, List.append_assoc])
  refine ⟨last, ?_, by rw [shape]; exact otherAdvanced⟩
  exact (matchFrameV1_ok_iff crypto cfg).mpr
    ⟨h, sealed, last, candidates, candidate, peer, otherRead, resolved, first, rfl⟩

theorem matchEnvelopeV2_stable {resolver : SecretResolver} {conn : Conn} {frame rest app : Bytes}
    {reader other : StreamReader} {result : AuthResult}
    (framed : ∃ h sealed, frame = prefixBytes h ++ sealed ∧
      PrefixAccepted cfg.envelopeV2.withDefaults.hintMode h ∧
      OpensOnlyAt crypto cfg resolver serverPort h frame.length
        ((frame ++ rest).drop (prefixBytes h).length)) (calm : reader.err = none)
    (otherCalm : other.err = none) (pending : reader.pending = frame ++ rest)
    (otherPending : other.pending = frame ++ app)
    (success : matchEnvelopeV2 crypto cfg resolver conn serverPort reader = .ok result) :
    ∃ last, matchEnvelopeV2 crypto cfg resolver conn serverPort other =
        .ok { result with reader := last } ∧ Advances other last frame := by
  obtain ⟨h, afterPrefix, candidates, found, next, read, resolved, some, few, searched, rfl⟩ :=
    (matchEnvelopeV2_ok_iff crypto cfg).mp success
  obtain ⟨sent, sealed, frameEq, accepted, onlyAt⟩ := framed
  obtain ⟨expected, expectedRead, prefixStep⟩ := readEnvelopeV2Prefix_sent _ sent (sealed ++ rest)
    accepted reader calm (by rw [pending, frameEq, List.append_assoc])
  rw [read] at expectedRead
  cases expectedRead
  have afterEq : afterPrefix.pending = sealed ++ rest := by
    apply (List.append_right_inj (prefixBytes h)).mp
    rw [← prefixStep.pending, pending, frameEq, List.append_assoc]
  have body : (frame ++ rest).drop (prefixBytes h).length = afterPrefix.pending := by
    rw [frameEq, List.append_assoc, List.drop_left, afterEq]
  rw [body] at onlyAt
  obtain ⟨bucket, member, tried, header, offered, _, opens, _⟩ :=
    searchBuckets_ok crypto cfg candidates h serverPort conn.remoteAddr 0 _ afterPrefix next found
      prefixStep.calm searched
  have whole : bucket = frame.length := by
    by_contra wrong
    obtain ⟨plain, payload, evidence, _⟩ :=
      (authenticateEnvelopeV2Candidate_ok_iff crypto).mp opens
    have opened := evidence.opened
    rw [header, onlyAt candidates resolved found.candidate offered bucket member wrong] at opened
    cases opened
  have need : sealedNeed h found.header.bucketSize = sealed.length := by
    rw [header]
    simp only [sealedNeed, whole, frameEq, List.length_append, prefixBytes_length]
    omega
  obtain ⟨otherAfter, otherRead, otherStep⟩ := readEnvelopeV2Prefix_sent _ h (sealed ++ app)
    accepted other otherCalm (by rw [otherPending, frameEq, List.append_assoc])
  have otherAfterEq : otherAfter.pending = sealed ++ app := by
    apply (List.append_right_inj (prefixBytes h)).mp
    rw [← otherStep.pending, otherPending, frameEq, List.append_assoc]
  obtain ⟨last, otherSearched, lastStep⟩ := searchBuckets_stable crypto cfg 0 afterPrefix
    next otherAfter found prefixStep.calm otherStep.calm (envelopeV2Buckets_sorted _)
    (sealedNeed_buffered h · _) searched
    (by rw [need, otherAfterEq, List.length_append]; omega)
    (by rw [need, otherAfterEq, afterEq, List.take_left, List.take_left])
  rw [need, otherAfterEq, List.take_left] at lastStep
  refine ⟨last, ?_, by rw [frameEq]; exact otherStep.trans lastStep⟩
  exact (matchEnvelopeV2_ok_iff crypto cfg).mpr
    ⟨h, otherAfter, candidates, found, last, otherRead, resolved, some, few, otherSearched, rfl⟩

theorem protocolOf_extends {front : Bytes} (rest : Bytes) {protocol : AuthProtocol}
    (chosen : protocolOf cfg front = some protocol) :
    protocolOf cfg (front ++ rest) = some protocol := by
  cases front with
  | cons first others => exact chosen
  | nil =>
    unfold protocolOf at chosen ⊢
    split at chosen
    · rename_i only
      rw [if_pos only]
      exact chosen
    · rename_i notV2
      split at chosen
      · rename_i only
        rw [if_neg notV2, if_pos only]
        exact chosen
      · simp at chosen

/-! ## The call -/

theorem matchConfiguredProtocol_stable (resolver : SecretResolver) (conn : Conn)
    (incoming : Source) (frame rest app : Bytes) (result : AuthResult)
    (heads : HeadsStream crypto cfg resolver (effectivePort cfg.serverPort conn.localAddr) frame
      (frame ++ rest))
    (stream : conn.incoming.chunks.flatten = frame ++ rest)
    (otherStream : incoming.chunks.flatten = frame ++ app)
    (success : matchConfiguredProtocol crypto cfg resolver conn (BufferedReader.new conn.incoming) =
      .ok result) :
    ∃ last, matchConfiguredProtocol crypto cfg resolver { conn with incoming := incoming }
        (BufferedReader.new incoming) = .ok { result with reader := last } ∧
      Advances (BufferedReader.new incoming) last frame := by
  have calm : (BufferedReader.new conn.incoming : StreamReader).err = none := rfl
  have otherCalm : (BufferedReader.new incoming : StreamReader).err = none := rfl
  have pending : (BufferedReader.new conn.incoming : StreamReader).pending = frame ++ rest := stream
  have otherPending : (BufferedReader.new incoming : StreamReader).pending = frame ++ app :=
    otherStream
  unfold HeadsStream at heads
  cases selected : protocolOf cfg frame with
  | none =>
    rw [selected] at heads
    cases heads
  | some protocol =>
    rw [selected] at heads
    have here := protocolOf_extends cfg rest selected
    have there := protocolOf_extends cfg app selected
    rw [← pending] at here
    rw [← otherPending] at there
    obtain ⟨middle, choice, step⟩ := chooseProtocol_sent cfg calm here
    obtain ⟨other, otherChoice, otherStep⟩ := chooseProtocol_sent cfg otherCalm there
    have middlePending : middle.pending = frame ++ rest := by
      rw [← pending, step.pending, List.nil_append]
    have otherMiddle : other.pending = frame ++ app := by
      rw [← otherPending, otherStep.pending, List.nil_append]
    rcases (matchConfiguredProtocol_ok_iff crypto cfg resolver conn _ calm result).mp success with
      ⟨chosen, choice', matched⟩ | ⟨chosen, choice', matched⟩
    · rw [choice] at choice'
      cases choice'
      obtain ⟨last, run, advanced⟩ := matchFrameV1_stable crypto cfg heads step.calm otherStep.calm
        middlePending otherMiddle matched
      refine ⟨last, ?_, by simpa using otherStep.trans advanced⟩
      exact (matchConfiguredProtocol_ok_iff crypto cfg resolver _ _ otherCalm _).mpr
        (Or.inl ⟨other, otherChoice, run⟩)
    · rw [choice] at choice'
      cases choice'
      obtain ⟨last, run, advanced⟩ := matchEnvelopeV2_stable crypto cfg heads step.calm
        otherStep.calm middlePending otherMiddle matched
      refine ⟨last, ?_, by simpa using otherStep.trans advanced⟩
      exact (matchConfiguredProtocol_ok_iff crypto cfg resolver _ _ otherCalm _).mpr
        (Or.inr ⟨other, otherChoice, run⟩)

/-- Once a frame is accepted at the head of one stream, it is accepted at the
head of every stream, in any chunks and with anything or nothing after it.  The
outcome is the same, the connection handed out reads exactly what follows the
frame, and no read has waited for a byte beyond it. -/
theorem serverAuthNormalized_transparent (conn : Conn) (clock : Readings)
    (state final : ServerState R K P) (auth : AuthenticatedConn) (resolver : SecretResolver)
    (held : cfg.secrets = some resolver) (frame rest : Bytes)
    (stream : conn.incoming.chunks.flatten = frame ++ rest)
    (heads : HeadsStream crypto cfg resolver (effectivePort cfg.serverPort conn.localAddr) frame
      (frame ++ rest))
    (success : serverAuthNormalized crypto cfg conn clock state = (.ok auth, final)) :
    ∀ (incoming : Source) (app : Bytes), incoming.chunks.flatten = frame ++ app →
      ∃ reader, serverAuthNormalized crypto cfg { conn with incoming := incoming } clock state =
          (.ok { auth with reader := reader }, final) ∧
        (∀ limit, 0 < limit → reader.readAll limit = (app, some incoming.ending)) ∧
        reader.source.starved = incoming.starved := by
  intro incoming app otherStream
  obtain ⟨own, result, marked, consumed, ownHeld, admitted, matched, validated, knocked, wrote,
    readerEq, peer, finalEq⟩ :=
      (serverAuthNormalized_ok_iff crypto cfg conn clock state final auth).mp success
  rw [held] at ownHeld
  cases ownHeld
  obtain ⟨last, run, advanced⟩ := matchConfiguredProtocol_stable crypto cfg resolver conn incoming
    frame rest app result heads stream otherStream matched
  have left : last.pending = app := by
    apply (List.append_right_inj frame).mp
    rw [← advanced.pending, ← otherStream]
    rfl
  refine ⟨last, ?_, ?_, advanced.starved⟩
  · apply (serverAuthNormalized_ok_iff crypto cfg _ clock state final _).mpr
    exact ⟨resolver, { result with reader := last }, marked, consumed, held, admitted, run,
      validated, knocked, wrote, rfl, peer, finalEq⟩
  · intro limit positive
    have whole := BufferedReader.readAll_pending (by decide) limit advanced.calm positive
    rw [whole, left, advanced.ending]
    rfl

/-- The sample envelope, followed by three bytes, is accepted from one read;
so it is byte by byte with nothing after it. -/
theorem serverAuthNormalized_transparent_sample :
    ∃ auth final, serverAuthNormalized keyTagCrypto
        (sampleServer [.frameV1, .envelopeV2] false true)
        (sampleConn (sampleHello.frame ++ ascii "GET")) sampleClock
        sampleState = (.ok auth, final) ∧
      ∀ (incoming : Source), incoming.chunks.flatten = sampleHello.frame ++ [] →
        ∃ reader, serverAuthNormalized keyTagCrypto
            (sampleServer [.frameV1, .envelopeV2] false true)
            { sampleConn (sampleHello.frame ++ ascii "GET") with incoming := incoming }
            sampleClock sampleState =
              (.ok { auth with reader := reader }, final) ∧
          reader.source.starved = incoming.starved := by
  have succeeds : (serverAuthNormalized keyTagCrypto
      (sampleServer [.frameV1, .envelopeV2] false true)
      (sampleConn (sampleHello.frame ++ ascii "GET")) sampleClock
      sampleState).1.isOk = true := by decide +kernel
  obtain ⟨auth, final, run⟩ := exists_ok_of_isOk _ succeeds
  refine ⟨auth, final, run, ?_⟩
  intro incoming alone
  have prefixed : sampleHello.frame = prefixBytes ⟨FixedBytes.copy 24 [9],
      computeEnvelopeV2RouteHint keyTagCrypto sampleSecret (FixedBytes.copy 24 [9]) 443, 0,
      .routeHint⟩ ++ sampleHello.frame.drop 32 := by decide +kernel
  have heads : HeadsStream keyTagCrypto (sampleServer [.frameV1, .envelopeV2] false true)
      (.static ⟨[(ascii "client", sampleSecret)], by simp⟩) 443 sampleHello.frame
      (sampleHello.frame ++ ascii "GET") := by
    have selected : protocolOf (sampleServer [.frameV1, .envelopeV2] false true)
        sampleHello.frame = some .envelopeV2 := by decide +kernel
    rw [HeadsStream, selected]
    refine ⟨_, _, prefixed, ⟨rfl, Or.inl rfl, nofun, rfl⟩, ?_⟩
    intro candidates resolved
    cases resolved
    decide +kernel
  obtain ⟨reader, accepted, _, starved⟩ := serverAuthNormalized_transparent _ _ _ _ _ _ _ _ rfl
    sampleHello.frame (ascii "GET") (Source.ofChunk_flatten _) heads run incoming [] alone
  exact ⟨reader, accepted, starved⟩

end Libknock.Auth
