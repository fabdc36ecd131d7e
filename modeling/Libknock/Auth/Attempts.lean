import Libknock.Auth.Soundness
import Libknock.Protocol.EnvelopeFit

/-!
# The attempt budget of hint-free envelopes

Without a hint every candidate is tried with every bucket.  `Validate` bounds
that product by the budget of a call, and the loops of `authenticateEnvelopeV2`
stay below it.
-/

set_option autoImplicit false

namespace Libknock.Auth

open Foundation Protocol

/-! ## The function and its counter -/

section Function

variable (crypto : Crypto) {R K P : Type} (cfg : ServerConfig R K P)

def authenticateEnvelopeV2 (resolver : SecretResolver) (conn : Conn) (serverPort : Int)
    (clock : Readings) (reader : StreamReader) (state : ServerState R K P) :
    Except AuthFailure AuthResult × ServerState R K P :=
  match matchEnvelopeV2 crypto cfg resolver conn serverPort reader with
  | .error failure => (.error failure, state)
  | .ok matched =>
    match validatePeerCommon cfg matched.peer serverPort conn.remoteAddr matched.hint clock state
        with
    | (.error failure, next) => (.error ⟨some matched.peer, matched.hint, failure⟩, next)
    | (.ok (), next) => (.ok matched, next)

/-- `attempts` when the inner loop ends. -/
def candidateAttempts (maxAuthAttempts : Int)
    (attempt : SecretCandidate → Except AuthError PeerInfo) : Nat → List SecretCandidate → Nat
  | attempts, [] => attempts
  | attempts, candidate :: rest =>
    if maxAuthAttempts ≤ attempts then attempts
    else
      match attempt candidate with
      | .error _ => candidateAttempts maxAuthAttempts attempt (attempts + 1) rest
      | .ok _ => attempts + 1

def bucketAttempts (candidates : List SecretCandidate) (h : EnvelopeV2Header) (serverPort : Int)
    (remote : NetAddr) : Nat → List Int → StreamReader → Nat
  | attempts, [], _ => attempts
  | attempts, bucket :: rest, reader =>
    if bucket > cfg.maxFrameSize ∨ bucket < envelopeV2PrefixLen h.hintMode + overhead then
      bucketAttempts candidates h serverPort remote attempts rest reader
    else
      match reader.peek (bucket - envelopeV2PrefixLen h.hintMode).toNat with
      | .error _ => attempts
      | .ok (sealed, peeked) =>
        let attempt := authenticateEnvelopeV2Candidate crypto { h with bucketSize := bucket }
          sealed serverPort remote
        let made := candidateAttempts cfg.maxAuthAttempts attempt attempts candidates
        match tryCandidates cfg.maxAuthAttempts attempt attempts candidates with
        | .ok (.inl _) => bucketAttempts candidates h serverPort remote made rest peeked
        | _ => made

def envelopeV2Attempts (resolver : SecretResolver) (conn : Conn) (serverPort : Int)
    (reader : StreamReader) : Nat :=
  match readEnvelopeV2Prefix cfg.envelopeV2.withDefaults.hintMode reader with
  | .error _ => 0
  | .ok (h, afterPrefix) =>
    match resolveCandidates crypto (envelopeV2Meta h serverPort) resolver with
    | .error _ => 0
    | .ok candidates =>
      bucketAttempts crypto cfg candidates h serverPort conn.remoteAddr 0
        (envelopeV2Buckets cfg.envelopeV2.withDefaults.frameSizeBuckets) afterPrefix

end Function

/-! ## The loops -/

variable {candidates : List SecretCandidate} {resolver : SecretResolver}

section Loops

/-- Within the budget the inner loop makes at most one attempt for each candidate,
and none of them is refused. -/
theorem tryCandidates_within (maxAuthAttempts : Int)
    (attempt : SecretCandidate → Except AuthError PeerInfo) (candidates : List SecretCandidate) :
    ∀ attempts : Nat, ((attempts + candidates.length : Nat) : Int) ≤ maxAuthAttempts →
      candidateAttempts maxAuthAttempts attempt attempts candidates ≤ attempts + candidates.length ∧
      (tryCandidates maxAuthAttempts attempt attempts candidates =
          .ok (.inl (candidateAttempts maxAuthAttempts attempt attempts candidates)) ∨
        ∃ found, tryCandidates maxAuthAttempts attempt attempts candidates = .ok (.inr found)) := by
  induction candidates with
  | nil =>
    intro attempts budget
    exact ⟨Nat.le_refl _, Or.inl rfl⟩
  | cons candidate rest ih =>
    intro attempts budget
    rw [List.length_cons] at budget
    have free : ¬ maxAuthAttempts ≤ attempts := by omega
    rw [candidateAttempts, tryCandidates, if_neg free, if_neg free, List.length_cons]
    cases tried : attempt candidate with
    | error failure =>
      obtain ⟨bound, outcome⟩ := ih (attempts + 1) (by omega)
      exact ⟨by simp only; omega, outcome⟩
    | ok peer => exact ⟨by simp only; omega, Or.inr ⟨(candidate, peer), rfl⟩⟩

def triedBuckets (maxFrameSize : Int) (buckets : List Int) : List Int :=
  buckets.filter fun bucket => bucket ≤ maxFrameSize

theorem triedBuckets_skip (maxFrameSize bucket : Int) (rest : List Int) :
    (triedBuckets maxFrameSize rest).length ≤ (triedBuckets maxFrameSize (bucket :: rest)).length := by
  unfold triedBuckets
  rw [List.filter_cons]
  split
  · exact Nat.le_succ _
  · exact Nat.le_refl _

theorem triedBuckets_take {maxFrameSize bucket : Int} (fits : bucket ≤ maxFrameSize)
    (rest : List Int) : (triedBuckets maxFrameSize (bucket :: rest)).length =
      (triedBuckets maxFrameSize rest).length + 1 := by
  unfold triedBuckets
  rw [List.filter_cons, if_pos (decide_eq_true fits), List.length_cons]

theorem searchBuckets_within (crypto : Crypto) {R K P : Type} {cfg : ServerConfig R K P}
    (h : EnvelopeV2Header) (serverPort : Int) (remote : NetAddr) {buckets : List Int} :
    ∀ (attempts : Nat) (reader : StreamReader),
      ((attempts + candidates.length * (triedBuckets cfg.maxFrameSize buckets).length : Nat) : Int) ≤
        cfg.maxAuthAttempts →
      bucketAttempts crypto cfg candidates h serverPort remote attempts buckets reader ≤
          attempts + candidates.length * (triedBuckets cfg.maxFrameSize buckets).length ∧
        ∀ failure, searchBuckets crypto cfg candidates h serverPort remote attempts buckets reader =
          .error failure → AuthError.is .tooManyCandidates failure = false := by
  induction buckets with
  | nil =>
    intro attempts reader budget
    refine ⟨Nat.le_add_right _ _, ?_⟩
    intro failure failed
    cases failed
    rfl
  | cons bucket rest ih =>
    intro attempts reader budget
    rw [bucketAttempts, searchBuckets]
    have skip := Nat.mul_le_mul_left candidates.length
      (triedBuckets_skip cfg.maxFrameSize bucket rest)
    by_cases skipped : bucket > cfg.maxFrameSize ∨
        bucket < envelopeV2PrefixLen h.hintMode + overhead
    · rw [if_pos skipped, if_pos skipped]
      obtain ⟨bound, sound⟩ := ih attempts reader (by omega)
      exact ⟨by omega, sound⟩
    · rw [if_neg skipped, if_neg skipped]
      have fits : bucket ≤ cfg.maxFrameSize := Int.not_lt.mp (not_or.mp skipped).1
      rw [triedBuckets_take fits, Nat.mul_succ] at budget ⊢
      simp only
      cases reader.peek (bucket - envelopeV2PrefixLen h.hintMode).toNat with
      | error failure =>
        refine ⟨Nat.le_add_right _ _, ?_⟩
        intro other failed
        cases failed
        rfl
      | ok peeked =>
        obtain ⟨sealed, next⟩ := peeked
        simp only
        generalize authenticateEnvelopeV2Candidate crypto { h with bucketSize := bucket } sealed
          serverPort remote = attempt
        obtain ⟨made, outcome | ⟨found, outcome⟩⟩ := tryCandidates_within cfg.maxAuthAttempts
          attempt candidates attempts (by omega)
        · rw [outcome]
          obtain ⟨bound, sound⟩ := ih
            (candidateAttempts cfg.maxAuthAttempts attempt attempts candidates) next (by omega)
          exact ⟨bound.trans (by omega), sound⟩
        · rw [outcome]
          refine ⟨by simp only; omega, ?_⟩
          intro failure failed
          cases failed

end Loops

/-! ## The bound of `Validate` -/

def SecretResolver.builtin : SecretResolver → Bool
  | .static _ | .rotating _ => true
  | .custom _ => false

theorem flatMap_filter_length_le {Key Value : Type} (keep : Value → Bool)
    (pairUp : Key → Value → SecretCandidate) (clients : List (Key × List Value)) :
    (clients.flatMap fun client => (client.2.filter keep).map (pairUp client.1)).length ≤
      (clients.map fun client => client.2.length).sum := by
  induction clients with
  | nil => exact Nat.le_refl 0
  | cons client rest ih =>
    rw [List.flatMap_cons, List.length_append, List.length_map, List.map_cons, List.sum_cons]
    exact Nat.add_le_add (List.length_filter_le _ _) ih

theorem resolveCandidates_length {crypto : Crypto} {frame : FrameMeta}
    (own : resolver.builtin = true)
    (resolved : resolveCandidates crypto frame resolver = .ok candidates) :
    candidates.length ≤ staticCandidateCount (some resolver) := by
  cases resolver with
  | static secrets =>
    cases resolved
    rw [List.length_map, staticCandidateCount]
    refine (List.length_filter_le _ _).trans (Nat.le_of_eq ?_)
    exact (List.perm_insertionSort _ _).length_eq
  | rotating secrets =>
    cases resolved
    refine (flatMap_filter_length_le _ SecretCandidate.mk _).trans (Nat.le_of_eq ?_)
    have sorted : secrets.sorted.Perm secrets.entries := List.perm_insertionSort _ _
    exact (sorted.map fun client => client.2.length).sum_eq
  | custom resolve => cases own

section Validated

variable {R K P : Type}

variable {config cfg : ServerConfig R K P}

/-- What a server that accepts envelopes is normalized to. -/
structure ServerConfig.EnvelopeReady (cfg : ServerConfig R K P) : Prop where
  frameSize : 0 < cfg.maxFrameSize
  attempts : 0 ≤ cfg.maxAuthAttempts
  envelope : cfg.envelopeV2.withDefaults.validate cfg.maxFrameSize = .ok ()

/-- What `Validate` has checked of a configuration that accepts envelopes. -/
theorem ServerConfig.validate_envelope (valid : config.validate = .ok ())
    (accepts : .envelopeV2 ∈ config.withDefaults.acceptProtocols) :
    config.withDefaults.EnvelopeReady ∧
      (config.withDefaults.envelopeV2.withDefaults.hintMode = .none →
        ServerConfig.envelopeV2NoneAttemptCost config.withDefaults.secrets
            config.withDefaults.envelopeV2 config.withDefaults.maxFrameSize ≤
          config.withDefaults.maxAuthAttempts) := by
  unfold ServerConfig.validate at valid
  simp only at valid
  split at valid
  · cases valid
  split at valid
  · cases valid
  split at valid
  · cases valid
  rw [if_pos (Or.inr (Or.inr accepts))] at valid
  split at valid
  · cases valid
  rename_i envelope
  split at valid
  · cases valid
  rename_i narrow
  rw [not_and] at narrow
  refine ⟨⟨?_, ?_, envelope⟩, fun hintless => Int.not_lt.mp (narrow hintless)⟩
  all_goals
    simp only [ServerConfig.withDefaults]
    split
    · decide
    · omega

theorem bucket_le_maxFrameSize (ready : cfg.EnvelopeReady) {bucket : Int}
    (member : bucket ∈ cfg.buckets) : bucket ≤ cfg.maxFrameSize := by
  have limit := ready.frameSize
  have checked := EnvelopeV2Config.validate_ok ready.envelope
  rw [ServerConfig.buckets, ← EnvelopeV2Config.withDefaults_withDefaults, checked.mem_buckets]
    at member
  have bound := (checked.buckets bucket member).2
  rw [if_neg (by omega)] at bound
  exact bound

theorem triedBuckets_pos (ready : cfg.EnvelopeReady) :
    0 < (triedBuckets cfg.maxFrameSize cfg.buckets).length := by
  have checked := EnvelopeV2Config.validate_ok ready.envelope
  obtain ⟨bucket, member⟩ := List.exists_mem_of_ne_nil _ checked.some_bucket
  have listed := (checked.mem_buckets bucket).mpr member
  rw [EnvelopeV2Config.withDefaults_withDefaults] at listed
  exact List.length_pos_of_mem
    (List.mem_filter.mpr ⟨listed, decide_eq_true (bucket_le_maxFrameSize ready listed)⟩)

theorem candidates_within (own : resolver.builtin = true) (secrets : cfg.secrets = some resolver)
    {crypto : Crypto} {frame : FrameMeta}
    (resolved : resolveCandidates crypto frame resolver = .ok candidates) :
    ((candidates.length * (triedBuckets cfg.maxFrameSize cfg.buckets).length : Nat) : Int) ≤
      ServerConfig.envelopeV2NoneAttemptCost cfg.secrets cfg.envelopeV2 cfg.maxFrameSize := by
  have bound := resolveCandidates_length own resolved
  unfold ServerConfig.envelopeV2NoneAttemptCost
  simp only [secrets]
  split
  · rename_i nobody
    have empty : candidates.length = 0 := by omega
    rw [empty, Nat.zero_mul]
    exact Int.le_refl 0
  · exact Int.ofNat_le.mpr (Nat.mul_le_mul_right _ bound)

end Validated

/-! ## The call -/

theorem MemoryReplayCache.checkAndMark_error {clientID nonce : Bytes} {now : Int}
    {cache : MemoryReplayCache} {failure : AuthError}
    (failed : (cache.checkAndMark clientID nonce now).1 = .error failure) :
    failure = .replayDetected ∨ failure = .replayCacheFull := by
  unfold checkAndMark at failed
  simp only at failed
  split at failed
  · split at failed
    · cases failed
      exact Or.inl rfl
    · cases failed
      exact Or.inr rfl
  · split at failed
    · cases failed
      exact Or.inl rfl
    · cases failed

section Call

variable {R K P : Type}

def CustomReplayCache.Silent (custom : CustomReplayCache R) : Prop :=
  ∀ clientID nonce state failure, (custom.checkAndMark clientID nonce state).1 = .error failure →
    AuthError.is .tooManyCandidates failure = false

theorem validatePeerCommon_silent {cfg : ServerConfig R K P} (silent : cfg.customReplay.Silent)
    {peer : PeerInfo} {serverPort : Int} {remote : NetAddr} {hint : UInt64} {clock : Readings}
    {state : ServerState R K P} {failure : AuthError}
    (failed : (validatePeerCommon cfg peer serverPort remote hint clock state).1 = .error failure) :
    AuthError.is .tooManyCandidates failure = false := by
  unfold validatePeerCommon at failed
  simp only at failed
  split at failed
  · cases failed
    rfl
  · split at failed
    · cases failed
      rfl
    · split at failed
      · rename_i reported replay marked
        cases failed
        cases held : state.replay with
        | memory cache =>
          rw [held, ReplayCache.checkAndMark, Prod.mk.injEq] at marked
          rcases MemoryReplayCache.checkAndMark_error marked.1 with rfl | rfl
          · rfl
          · rfl
        | custom own =>
          rw [held, ReplayCache.checkAndMark, Prod.mk.injEq] at marked
          exact silent _ _ _ _ marked.1
      · cases failed

theorem matchEnvelopeV2_within (crypto : Crypto) {cfg : ServerConfig R K P}
    (own : resolver.builtin = true) (secrets : cfg.secrets = some resolver)
    (ready : cfg.EnvelopeReady)
    (budget : ServerConfig.envelopeV2NoneAttemptCost cfg.secrets cfg.envelopeV2 cfg.maxFrameSize ≤
      cfg.maxAuthAttempts) (conn : Conn) (serverPort : Int) (reader : StreamReader) :
    (envelopeV2Attempts crypto cfg resolver conn serverPort reader : Int) ≤
        ServerConfig.envelopeV2NoneAttemptCost cfg.secrets cfg.envelopeV2 cfg.maxFrameSize ∧
      ∀ failure, matchEnvelopeV2 crypto cfg resolver conn serverPort reader = .error failure →
        AuthError.is .tooManyCandidates failure.failure = false := by
  have cost : 0 ≤ ServerConfig.envelopeV2NoneAttemptCost cfg.secrets cfg.envelopeV2
      cfg.maxFrameSize := by
    unfold ServerConfig.envelopeV2NoneAttemptCost
    simp only
    split
    · exact Int.le_refl 0
    · exact Int.natCast_nonneg _
  unfold envelopeV2Attempts matchEnvelopeV2
  simp only
  cases readEnvelopeV2Prefix cfg.envelopeV2.withDefaults.hintMode reader with
  | error failure =>
    refine ⟨cost, ?_⟩
    intro other failed
    cases failed
    cases failure <;> rfl
  | ok accepted =>
    obtain ⟨h, afterPrefix⟩ := accepted
    simp only
    cases resolved : resolveCandidates crypto (envelopeV2Meta h serverPort) resolver with
    | error failure =>
      cases resolver with
      | static | rotating => cases resolved
      | custom resolve => cases own
    | ok candidates =>
      have within := candidates_within own secrets resolved
      have few := Nat.le_mul_of_pos_right candidates.length (triedBuckets_pos ready)
      obtain ⟨bound, sound⟩ := searchBuckets_within crypto h serverPort conn.remoteAddr 0
        afterPrefix (by rw [Nat.zero_add]; exact within.trans budget)
      unfold ServerConfig.buckets at within few bound
      simp only
      refine ⟨by omega, ?_⟩
      intro failure failed
      split at failed
      · cases failed
        rfl
      · split at failed
        · rename_i broad
          omega
        · split at failed
          · rename_i reported searched
            cases failed
            exact sound _ searched
          · cases failed

theorem authenticateEnvelopeV2_silent (crypto : Crypto) {cfg : ServerConfig R K P}
    (silent : cfg.customReplay.Silent) {conn : Conn} {serverPort : Int} {clock : Readings}
    {reader : StreamReader} {state : ServerState R K P}
    (sound : ∀ failure, matchEnvelopeV2 crypto cfg resolver conn serverPort reader =
      .error failure → AuthError.is .tooManyCandidates failure.failure = false)
    (failure : AuthFailure) (failed : (authenticateEnvelopeV2 crypto cfg resolver conn serverPort
      clock reader state).1 = .error failure) :
    AuthError.is .tooManyCandidates failure.failure = false := by
  unfold authenticateEnvelopeV2 at failed
  split at failed
  · rename_i reported unmatched
    cases failed
    exact sound _ unmatched
  · rename_i matched found
    split at failed
    · rename_i reported next invalid
      have refused : (validatePeerCommon cfg matched.peer serverPort conn.remoteAddr matched.hint
          clock state).1 = .error reported := by
        rw [invalid]
      cases failed
      exact validatePeerCommon_silent silent refused
    · cases failed

/-- A configuration that passes `Validate` never runs out of attempts on a
hint-free envelope, whatever the stream: `Validate` has counted them all. -/
theorem authenticateEnvelopeV2_within_budget (crypto : Crypto) (config : ServerConfig R K P)
    (resolver : SecretResolver) (own : resolver.builtin = true)
    (secrets : config.secrets = some resolver) (valid : config.validate = .ok ())
    (accepts : .envelopeV2 ∈ config.withDefaults.acceptProtocols)
    (hintless : config.envelopeV2.hintMode = .none) (silent : config.customReplay.Silent)
    (conn : Conn) (serverPort : Int) (clock : Readings) (reader : StreamReader)
    (state : ServerState R K P) :
    (∀ failure, (authenticateEnvelopeV2 crypto config.withDefaults resolver conn serverPort clock
        reader state).1 = .error failure →
      AuthError.is .tooManyCandidates failure.failure = false) ∧
    (envelopeV2Attempts crypto config.withDefaults resolver conn serverPort reader : Int) ≤
      ServerConfig.envelopeV2NoneAttemptCost config.secrets config.envelopeV2
        config.withDefaults.maxFrameSize := by
  have mode : config.withDefaults.envelopeV2.withDefaults.hintMode = .none := by
    simp [ServerConfig.withDefaults, EnvelopeV2Config.withDefaults, hintless]
  obtain ⟨ready, counted⟩ := ServerConfig.validate_envelope valid accepts
  have kept : config.withDefaults.secrets = some resolver := secrets
  obtain ⟨bound, sound⟩ := matchEnvelopeV2_within crypto own kept ready (counted mode) conn
    serverPort reader
  have same : ServerConfig.envelopeV2NoneAttemptCost config.withDefaults.secrets
      config.withDefaults.envelopeV2 config.withDefaults.maxFrameSize =
        ServerConfig.envelopeV2NoneAttemptCost config.secrets config.envelopeV2
          config.withDefaults.maxFrameSize := by
    simp only [ServerConfig.envelopeV2NoneAttemptCost, ServerConfig.withDefaults,
      EnvelopeV2Config.withDefaults_withDefaults]
  refine ⟨?_, same ▸ bound⟩
  have quiet : config.withDefaults.customReplay.Silent := silent
  exact authenticateEnvelopeV2_silent crypto quiet sound

end Call

def hintlessServer : ServerConfig Unit Unit Unit :=
  { sampleServer [.envelopeV2] false false with
    secrets := some (.static ⟨[(ascii "alice", sampleSecret), (ascii "bob", sampleSecret)],
      by decide⟩)
    envelopeV2 := ⟨.none, [128, 192], .none⟩
    maxAuthAttempts := 4 }

/-- A stream that no client sent costs the whole budget and is refused. -/
theorem authenticateEnvelopeV2_within_budget_sample :
    ∃ resolver, hintlessServer.secrets = some resolver ∧
      envelopeV2Attempts keyTagCrypto hintlessServer.withDefaults resolver (sampleConn []) 443
        (BufferedReader.new (Source.ofChunk (List.replicate 192 0))) = 4 ∧
      ∀ failure, (authenticateEnvelopeV2 keyTagCrypto hintlessServer.withDefaults resolver
          (sampleConn []) 443 ⟨0, 0, 0⟩ (BufferedReader.new (Source.ofChunk (List.replicate 192 0)))
          sampleState).1 = .error failure →
        AuthError.is .tooManyCandidates failure.failure = false := by
  refine ⟨_, rfl, by decide +kernel, ?_⟩
  refine (authenticateEnvelopeV2_within_budget keyTagCrypto hintlessServer _ rfl rfl
    (by decide +kernel) (by decide +kernel) rfl ?_ _ _ _ _ _).1
  intro clientID nonce state failure failed
  cases failed

end Libknock.Auth
