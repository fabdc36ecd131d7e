import Libknock.Auth.Attempts
import Libknock.Auth.Handshake

/-!
# The attempt budget of routed envelopes

A route hint leaves one candidate, but the search still spends one attempt on
every bucket up to the one the client drew.  `Validate` counts attempts only for
hint-free envelopes, so a valid configuration may refuse its own clients.
-/

set_option autoImplicit false

namespace Libknock.Auth

open Foundation Protocol

/-! ## One candidate -/

theorem resolveCandidates_only {crypto : Crypto} {frame : FrameMeta} {secrets : ClientMap Bytes}
    (distinct : (secrets.entries.map Prod.snd).Nodup) {target : SecretCandidate}
    (listed : (target.clientID, target.secret) ∈ secrets.entries)
    (offered : offersSecret crypto frame target.secret = true)
    (apart : ∀ other ∈ secrets.entries, other.2 ≠ target.secret →
      offersSecret crypto frame other.2 = false) :
    resolveCandidates crypto frame (.static secrets) = .ok [target] := by
  have sorted : secrets.sorted.Perm secrets.entries := List.perm_insertionSort _ _
  have only : ∀ entry ∈ secrets.sorted, offersSecret crypto frame entry.2 =
      decide (entry = (target.clientID, target.secret)) := by
    intro entry member
    have entryListed := sorted.mem_iff.mp member
    by_cases same : entry.2 = target.secret
    · have entryEq : entry = (target.clientID, target.secret) :=
        List.inj_on_of_nodup_map distinct entryListed listed same
      rw [same, offered, decide_eq_true entryEq]
    · have other : entry ≠ (target.clientID, target.secret) := fun entryEq => same (by rw [entryEq])
      rw [apart entry entryListed same, decide_eq_false other]
  have once : secrets.sorted.count (target.clientID, target.secret) = 1 :=
    List.count_eq_one_of_mem (sorted.nodup_iff.mpr secrets.unique.of_map)
      (sorted.mem_iff.mpr listed)
  rw [resolveCandidates, List.filter_congr only]
  have kept : secrets.sorted.filter
      (fun entry => decide (entry = (target.clientID, target.secret))) =
        [(target.clientID, target.secret)] := by
    rw [List.filter_eq, once]
    rfl
  rw [kept]
  rfl

/-! ## One attempt for each bucket -/

section Search

variable (crypto : Crypto) {R K P : Type} (cfg : ServerConfig R K P)

theorem bucketsUpTo_above {bucket : Int} {buckets : List Int}
    (above : ∀ other ∈ buckets, bucket < other) : bucketsUpTo bucket buckets = 0 := by
  rw [bucketsUpTo, List.length_eq_zero_iff, List.filter_eq_nil_iff]
  intro other member low
  have := above other member
  have := of_decide_eq_true low
  omega

/-- The search for a single candidate runs out of attempts before it reaches a
bucket that more than the budget lie below. -/
theorem searchBuckets_exhausted (target : SecretCandidate) (h : EnvelopeV2Header) (serverPort : Int)
    (remote : NetAddr) (bucket : Int) (pending : Bytes) (small : sealedNeed h bucket ≤ bufferSize)
    (sent : sealedNeed h bucket ≤ pending.length) (buckets : List Int) :
    ∀ (attempts : Nat) (reader : StreamReader), reader.err = none → reader.pending = pending →
      buckets.Pairwise (· < ·) → (∀ other ∈ buckets, BucketTried cfg h other) →
      (attempts : Int) ≤ cfg.maxAuthAttempts →
      cfg.maxAuthAttempts < ((attempts + bucketsUpTo bucket buckets : Nat) : Int) →
      (∀ smaller ∈ buckets, smaller < bucket → ∀ claimed,
        attempt crypto h serverPort remote pending smaller target ≠ .ok claimed) →
      searchBuckets crypto cfg [target] h serverPort remote attempts buckets reader =
        .error .tooManyCandidates := by
  induction buckets with
  | nil =>
    intro attempts reader calm same sorted tried within beyond
    rw [bucketsUpTo, List.filter_nil, List.length_nil] at beyond
    omega
  | cons first rest ih =>
    intro attempts reader calm same sorted tried within beyond silent
    rw [List.pairwise_cons] at sorted
    obtain ⟨least, sorted⟩ := sorted
    have low : first ≤ bucket := by
      by_contra high
      have none : bucketsUpTo bucket (first :: rest) = 0 := by
        apply bucketsUpTo_above
        intro other member
        rcases List.mem_cons.mp member with rfl | later
        · omega
        · have := least other later
          omega
      omega
    rw [bucketsUpTo_cons low] at beyond
    have shorter : sealedNeed h first ≤ sealedNeed h bucket := by
      unfold sealedNeed
      omega
    have firstTried := tried first (List.mem_cons_self ..)
    by_cases spent : cfg.maxAuthAttempts ≤ attempts
    · obtain ⟨large, deep⟩ := firstTried
      push_cast at deep
      obtain ⟨peeked, peekRun, _, _⟩ := reader.peek_sent (sealedNeed h first) calm
        (shorter.trans small) (by rw [same]; exact shorter.trans sent)
      unfold sealedNeed at peekRun
      rw [searchBuckets, if_neg (by omega)]
      simp only [peekRun]
      rw [tryCandidates, if_pos spent]
    · -- the budget ends before the drawn bucket, so this one is smaller
      have below : first < bucket := by
        by_contra reached
        have none : bucketsUpTo bucket rest = 0 := by
          apply bucketsUpTo_above
          intro other later
          have := least other later
          omega
        omega
      have unopened : ∀ other ∈ [target], ∀ claimed,
          attempt crypto h serverPort remote pending first other ≠ .ok claimed := by
        intro other member
        rw [List.mem_singleton.mp member]
        exact silent first (List.mem_cons_self ..) below
      have room : ((attempts + [target].length : Nat) : Int) ≤ cfg.maxAuthAttempts := by
        rw [List.length_singleton]
        omega
      obtain ⟨peeked, moved, advanced, peekedPending⟩ := searchBuckets_moves_on crypto cfg
        [target] h serverPort remote rest firstTried (shorter.trans small) (shorter.trans sent)
        room unopened reader calm same
      rw [moved]
      exact ih (attempts + 1) peeked advanced.calm peekedPending sorted
        (fun other later => tried other (List.mem_cons_of_mem first later)) (by omega)
        (by push_cast at beyond ⊢; omega)
        (fun smaller later => silent smaller (List.mem_cons_of_mem first later))

end Search

/-! ## The client's own envelope -/

section Call

variable (crypto : Crypto) {R K P : Type}

theorem bucketTried_of_ready {cfg : ServerConfig R K P} (ready : cfg.EnvelopeReady)
    (h : EnvelopeV2Header) {bucket : Int} (member : bucket ∈ cfg.buckets) :
    BucketTried cfg h bucket := by
  have low := (supported_range _ (envelopeV2Buckets_supported member)).1
  have prefixLen : envelopeV2PrefixLen h.hintMode ≤ 32 := by
    unfold envelopeV2PrefixLen
    split <;> decide
  refine ⟨bucket_le_maxFrameSize ready member, ?_⟩
  simp only [overhead]
  omega

/-- With the client as the only candidate the search of its envelope either finds
it or, when the budget ends before the drawn bucket, gives up. -/
theorem searchBuckets_of_built (sealing : crypto.SealsOpenly) (cfg : ServerConfig R K P)
    (ready : cfg.EnvelopeReady)
    (c : ClientConfig) (serverPort now : Int) (flags : UInt8) (envelope : EnvelopeV2Config)
    (frame : Bytes) (h : EnvelopeV2Header) (payload : EnvelopeV2Payload) (body app : Bytes)
    (built : EnvelopeBuilt crypto c.clientID c.secret serverPort now flags c.method c.sessionID
      c.extensions envelope frame h payload body)
    (included : h.bucketSize ∈ cfg.buckets)
    (sized : ∀ bucket ∈ cfg.buckets, bucket < h.bucketSize →
      openEnvelopeV2Sealed crypto c.secret { h with bucketSize := bucket } serverPort
        ((frame.drop (envelopeV2PrefixLen h.hintMode)).take (sealedNeed h bucket)) = none)
    (remote : NetAddr) (reader : StreamReader) (calm : reader.err = none)
    (pending : reader.pending = sealEnvelopeV2 crypto c.secret h serverPort body ++ app) :
    if (bucketsUpTo h.bucketSize cfg.buckets : Int) ≤ cfg.maxAuthAttempts
    then ∃ found, searchBuckets crypto cfg [⟨c.clientID, c.secret⟩] { h with bucketSize := 0 }
      serverPort remote 0 cfg.buckets reader = .ok found
    else searchBuckets crypto cfg [⟨c.clientID, c.secret⟩] { h with bucketSize := 0 } serverPort
      remote 0 cfg.buckets reader = .error .tooManyCandidates := by
  obtain ⟨sealedPart, need, _, size⟩ := sizes_of_built crypto built sealing
  have range := supported_range _ (envelopeV2Buckets_supported included)
  have small : sealedNeed h h.bucketSize ≤ bufferSize := by
    unfold sealedNeed bufferSize
    omega
  have sent : sealedNeed h h.bucketSize ≤ reader.pending.length := by
    rw [need, pending, List.length_append]
    omega
  have tried : ∀ bucket ∈ cfg.buckets, BucketTried cfg h bucket :=
    fun bucket member => bucketTried_of_ready ready h member
  have silent : ∀ smaller ∈ cfg.buckets, smaller < h.bucketSize → ∀ claimed,
      attempt crypto h serverPort remote reader.pending smaller ⟨c.clientID, c.secret⟩ ≠
        .ok claimed := by
    intro smaller member below
    have shorter : sealedNeed h smaller ≤
        (sealEnvelopeV2 crypto c.secret h serverPort body).length := by
      rw [← need]
      unfold sealedNeed
      omega
    have closed := sized smaller member below
    rw [sealedPart] at closed
    rw [pending]
    exact unopened_of_cut crypto remote shorter closed
  split
  · rename_i room
    have front : reader.pending.take (sealedNeed h h.bucketSize) =
        sealEnvelopeV2 crypto c.secret h serverPort body := by
      rw [pending, need, List.take_left]
    have opens := authenticateEnvelopeV2Candidate_of_built crypto built sealing remote
    rw [← front] at opens
    obtain ⟨next, searched, _⟩ := searchBuckets_finds crypto cfg
      [⟨c.clientID, c.secret⟩] { h with bucketSize := 0 } serverPort remote h.bucketSize
      ⟨c.clientID, c.secret⟩ _ reader.pending (tried _ included) small sent
      (List.mem_singleton.mpr rfl) opens
      (fun other member _ _ => List.mem_singleton.mp member) _ 0 reader calm rfl
      (envelopeV2Buckets_sorted _) included (by simpa using room)
      (fun smaller member below other only => by
        rw [List.mem_singleton.mp only]
        exact silent smaller member below)
    exact ⟨_, searched⟩
  · rename_i short
    exact searchBuckets_exhausted crypto cfg ⟨c.clientID, c.secret⟩
      { h with bucketSize := 0 } serverPort remote h.bucketSize reader.pending small sent _ 0 reader
      calm rfl (envelopeV2Buckets_strict _) tried ready.attempts
      (by rw [Nat.zero_add]; omega) silent

theorem matchEnvelopeV2_of_only (cfg : ServerConfig R K P) (resolver : SecretResolver) (conn : Conn)
    (serverPort : Int) (reader afterPrefix : StreamReader) (h : EnvelopeV2Header)
    (target : SecretCandidate)
    (routed : cfg.envelopeV2.withDefaults.hintMode = .routeHint)
    (read : readEnvelopeV2Prefix cfg.envelopeV2.withDefaults.hintMode reader =
      .ok (h, afterPrefix))
    (resolved : resolveCandidates crypto (envelopeV2Meta h serverPort) resolver = .ok [target]) :
    matchEnvelopeV2 crypto cfg resolver conn serverPort reader =
      ((searchBuckets crypto cfg [target] h serverPort conn.remoteAddr 0
          (envelopeV2Buckets cfg.envelopeV2.withDefaults.frameSizeBuckets) afterPrefix).mapError
        fun failure => ⟨none, h.routeHint, failure⟩).map
        fun found => envelopeV2Result crypto serverPort found.1 found.2 := by
  rw [matchEnvelopeV2]
  simp only [read, resolved]
  rw [if_neg (List.cons_ne_nil _ _), if_neg (by simp [routed])]
  cases searchBuckets crypto cfg [target] h serverPort conn.remoteAddr 0
      (envelopeV2Buckets cfg.envelopeV2.withDefaults.frameSizeBuckets) afterPrefix with
  | error failure => rfl
  | ok found => rfl

theorem candidates_of_built (secrets : ClientMap Bytes)
    (distinct : (secrets.entries.map Prod.snd).Nodup) (c : ClientConfig) (serverPort now : Int)
    (flags : UInt8) (envelope : EnvelopeV2Config) (frame : Bytes) (h : EnvelopeV2Header)
    (payload : EnvelopeV2Payload) (body : Bytes)
    (built : EnvelopeBuilt crypto c.clientID c.secret serverPort now flags c.method c.sessionID
      c.extensions envelope frame h payload body)
    (routed : envelope.hintMode = .routeHint)
    (listed : (c.clientID, c.secret) ∈ secrets.entries)
    (apart : ∀ other ∈ secrets.entries, other.2 ≠ c.secret →
      computeEnvelopeV2RouteHint crypto other.2 h.prefixRandom serverPort ≠
        computeEnvelopeV2RouteHint crypto c.secret h.prefixRandom serverPort) :
    resolveCandidates crypto (envelopeV2Meta { h with bucketSize := 0 } serverPort)
      (.static secrets) = .ok [⟨c.clientID, c.secret⟩] := by
  have mode := built.mode
  have hint := built.routeHint
  rw [routed] at mode
  rw [if_pos routed] at hint
  apply resolveCandidates_only distinct listed (offersSecret_of_built crypto built)
  intro other member different
  have unlike := apart other member different
  simp [offersSecret, envelopeV2Meta, mode, h.prefixRandom.length_eq, envelopeV2PrefixSize,
    FixedBytes.copy_bytes, hint, unlike]

/-- A valid configuration that routes by hint does not run out of attempts on the
envelope of its own client exactly when the budget covers the buckets up to the
one the client drew. -/
theorem routed_envelope_within_budget_iff (sealing : crypto.SealsOpenly)
    (config : ServerConfig R K P) (secrets : ClientMap Bytes)
    (static : config.secrets = some (.static secrets))
    (distinct : (secrets.entries.map Prod.snd).Nodup) (valid : config.validate = .ok ())
    (accepts : .envelopeV2 ∈ config.withDefaults.acceptProtocols)
    (routed : config.withDefaults.envelopeV2.withDefaults.hintMode = .routeHint)
    (silent : config.customReplay.Silent)
    (c : ClientConfig) (listed : (c.clientID, c.secret) ∈ secrets.entries)
    (serverPort now : Int) (flags : UInt8) (envelope : EnvelopeV2Config)
    (routing : envelope.withDefaults.hintMode = .routeHint) (draws : EnvelopeV2Draws)
    (frame : Bytes) (h : EnvelopeV2Header)
    (built : buildEnvelopeV2 crypto c.clientID c.secret serverPort now flags c.method c.sessionID
      c.extensions envelope draws = .ok (frame, h))
    (included : h.bucketSize ∈
      envelopeV2Buckets config.withDefaults.envelopeV2.withDefaults.frameSizeBuckets)
    (apart : ∀ other ∈ secrets.entries, other.2 ≠ c.secret →
      computeEnvelopeV2RouteHint crypto other.2 h.prefixRandom serverPort ≠
        computeEnvelopeV2RouteHint crypto c.secret h.prefixRandom serverPort)
    (sized : ∀ bucket ∈ envelopeV2Buckets
        config.withDefaults.envelopeV2.withDefaults.frameSizeBuckets, bucket < h.bucketSize →
      openEnvelopeV2Sealed crypto c.secret { h with bucketSize := bucket } serverPort
        ((frame.drop (envelopeV2PrefixLen h.hintMode)).take (sealedNeed h bucket)) = none)
    (resolver : SecretResolver) (configured : config.secrets = some resolver)
    (conn : Conn) (clock : Readings) (state : ServerState R K P) (reader : StreamReader)
    (app : Bytes) (calm : reader.err = none) (pending : reader.pending = frame ++ app) :
    (∀ failure, (authenticateEnvelopeV2 crypto config.withDefaults resolver conn serverPort clock
        reader state).1 = .error failure →
      AuthError.is .tooManyCandidates failure.failure = false) ↔
    (bucketsUpTo h.bucketSize (envelopeV2Buckets
        config.withDefaults.envelopeV2.withDefaults.frameSizeBuckets) : Int) ≤
      config.withDefaults.maxAuthAttempts := by
  obtain rfl : resolver = .static secrets := Option.some.inj (configured.symm.trans static)
  obtain ⟨payload, body, parts⟩ := buildEnvelopeV2_ok built
  obtain ⟨ready, _⟩ := ServerConfig.validate_envelope valid accepts
  obtain ⟨afterPrefix, read, prefixStep, remaining⟩ := prefix_of_built crypto parts app
    reader calm pending
  rw [routing, ← routed] at read
  have resolved := candidates_of_built crypto secrets distinct c serverPort now flags
    envelope.withDefaults frame h payload body parts routing listed apart
  have matching := matchEnvelopeV2_of_only crypto config.withDefaults (.static secrets) conn
    serverPort reader afterPrefix _ _ routed read resolved
  have searched := searchBuckets_of_built crypto sealing config.withDefaults ready c
    serverPort now flags envelope.withDefaults frame h payload body app parts included sized
    conn.remoteAddr afterPrefix prefixStep.calm remaining
  constructor
  · intro never
    by_contra short
    rw [if_neg short] at searched
    rw [searched] at matching
    have refused : matchEnvelopeV2 crypto config.withDefaults (.static secrets) conn serverPort
        reader = .error ⟨none, h.routeHint, .tooManyCandidates⟩ := matching
    have reported := never ⟨none, h.routeHint, .tooManyCandidates⟩ (by
      rw [authenticateEnvelopeV2, refused])
    cases reported
  · intro room
    rw [if_pos room] at searched
    obtain ⟨found, searched⟩ := searched
    rw [searched] at matching
    have quiet : config.withDefaults.customReplay.Silent := silent
    apply authenticateEnvelopeV2_silent crypto quiet
    intro failure failed
    cases matching.symm.trans failed

end Call

/-- Primitives whose hints tell secrets apart by their first bytes. -/
def hintingCrypto : Crypto :=
  { keyTagCrypto with
    hmacSHA256 := fun secret data => FixedBytes.copy 32 (secret.take 4 ++ data.reverse) }

theorem hintingCrypto_sealsOpenly : hintingCrypto.SealsOpenly :=
  ⟨keyTagCrypto_sealsOpenly.seal_length, keyTagCrypto_sealsOpenly.open_seal⟩

def otherSecret : Bytes := ascii "fedcba9876543210"

def routedSecrets : ClientMap Bytes :=
  ⟨[(ascii "client", sampleSecret), (ascii "other", otherSecret)], by decide⟩

def routedServer (maxAuthAttempts : Int) : ServerConfig Unit Unit Unit :=
  { sampleServer [.envelopeV2] false false with
    secrets := some (.static routedSecrets)
    maxAuthAttempts := maxAuthAttempts }

def routedEnvelope : Bytes × EnvelopeV2Header :=
  (buildEnvelopeV2 hintingCrypto sampleClient.clientID sampleClient.secret 443 1000000000 0
    sampleClient.method sampleClient.sessionID sampleClient.extensions sampleClient.envelopeV2
    sampleDraws.envelope).toOption.get (by decide +kernel)

theorem routedEnvelope_built :
    buildEnvelopeV2 hintingCrypto sampleClient.clientID sampleClient.secret 443 1000000000 0
      sampleClient.method sampleClient.sessionID sampleClient.extensions sampleClient.envelopeV2
      sampleDraws.envelope = .ok routedEnvelope :=
  eq_ok_get _ _

theorem routed_envelope_within_budget_iff_sample :
    (routedServer 2).validate = .ok () ∧ routedEnvelope.2.bucketSize = 192 ∧
      ∀ failure, (authenticateEnvelopeV2 hintingCrypto (routedServer 2).withDefaults
          (.static routedSecrets) (sampleConn []) 443 ⟨0, 0, 0⟩
          (BufferedReader.new (Source.ofChunk routedEnvelope.1)) sampleState).1 = .error failure →
        AuthError.is .tooManyCandidates failure.failure = false := by
  refine ⟨by decide +kernel, by decide +kernel, ?_⟩
  refine (routed_envelope_within_budget_iff hintingCrypto hintingCrypto_sealsOpenly
    (routedServer 2) routedSecrets rfl (by decide +kernel) (by decide +kernel) (by decide +kernel)
    rfl ?_ sampleClient (by decide +kernel) 443 1000000000 0 sampleClient.envelopeV2 rfl
    sampleDraws.envelope routedEnvelope.1 routedEnvelope.2 routedEnvelope_built (by decide +kernel)
    (by decide +kernel) (by decide +kernel) _ rfl _ _ _ _ [] rfl (by decide +kernel)).mpr
    (by decide +kernel)
  intro clientID nonce state failure failed
  cases failed

theorem exists_error {ε α : Type} (outcome : Except ε α) (test : ε → Bool)
    (failed : (match outcome with | .error failure => test failure | .ok _ => false) = true) :
    ∃ failure, outcome = .error failure ∧ test failure = true := by
  cases outcome with
  | error failure => exact ⟨failure, rfl, failed⟩
  | ok value => cases failed

/-- With a budget of one the same envelope is refused: `Validate` passes, the hint
leaves one candidate, and the search gives up at the second bucket. -/
theorem routed_envelope_refused :
    (routedServer 1).validate = .ok () ∧
      (routedSecrets.entries.map Prod.snd).Nodup ∧
      .envelopeV2 ∈ (routedServer 1).withDefaults.acceptProtocols ∧
      (routedServer 1).withDefaults.envelopeV2.withDefaults.hintMode = .routeHint ∧
      (sampleClient.clientID, sampleClient.secret) ∈ routedSecrets.entries ∧
      buildEnvelopeV2 hintingCrypto sampleClient.clientID sampleClient.secret 443 1000000000 0
        sampleClient.method sampleClient.sessionID sampleClient.extensions sampleClient.envelopeV2
        sampleDraws.envelope = .ok routedEnvelope ∧
      routedEnvelope.2.bucketSize ∈
        envelopeV2Buckets (routedServer 1).withDefaults.envelopeV2.withDefaults.frameSizeBuckets ∧
      computeEnvelopeV2RouteHint hintingCrypto otherSecret routedEnvelope.2.prefixRandom 443 ≠
        computeEnvelopeV2RouteHint hintingCrypto sampleSecret routedEnvelope.2.prefixRandom 443 ∧
      openEnvelopeV2Sealed hintingCrypto sampleSecret
        { routedEnvelope.2 with bucketSize := 128 } 443
        ((routedEnvelope.1.drop (envelopeV2PrefixLen .routeHint)).take 96) = none ∧
      ∃ failure, (authenticateEnvelopeV2 hintingCrypto (routedServer 1).withDefaults
          (.static routedSecrets) (sampleConn []) 443 ⟨0, 0, 0⟩
          (BufferedReader.new (Source.ofChunk routedEnvelope.1)) sampleState).1 = .error failure ∧
        AuthError.is .tooManyCandidates failure.failure = true := by
  refine ⟨by decide +kernel, by decide +kernel, by decide +kernel, rfl, by decide +kernel,
    routedEnvelope_built, by decide +kernel, by decide +kernel, by decide +kernel, ?_⟩
  exact exists_error _
    (fun failure : AuthFailure => AuthError.is .tooManyCandidates failure.failure)
    (by decide +kernel)

end Libknock.Auth
