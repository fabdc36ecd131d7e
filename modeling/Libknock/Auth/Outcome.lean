import Libknock.Auth.Server

/-!
# What a successful call has done

For each stage of the server call, exactly what its success means: candidates,
the two protocols, the dispatch between them, and the call as a whole.  Later
results use these equivalences and do not unfold the stages.
-/

set_option autoImplicit false

namespace Libknock.Auth

open Foundation Protocol
open Foundation.BufferedReader (Advances)

/-! ## Candidates -/

variable {candidate : SecretCandidate} {serverPort : Int} {peer : PeerInfo} {reader : StreamReader}

section Candidates

variable (crypto : Crypto)

/-- The candidate's secret opens the frame and its identity is the one inside. -/
structure OpensFrameV1 (h : Header) (sealed : Bytes) (serverPort : Int)
    (candidate : SecretCandidate) (plain : Bytes) (payload : Payload) : Prop where
  named : candidate.clientID ≠ []
  secretSize : minSecretSize ≤ candidate.secret.length
  keyHint : computeKeyHint crypto candidate.secret h.nonce serverPort = h.keyHint
  opened : openPayload crypto candidate.secret h sealed = some plain
  decoded : decodePayload plain = .ok payload
  identity : payload.clientIDHash = computeClientIDHash crypto candidate.secret candidate.clientID

structure OpensEnvelopeV2 (h : EnvelopeV2Header) (sealed : Bytes) (serverPort : Int)
    (candidate : SecretCandidate) (plain : Bytes) (payload : EnvelopeV2Payload) : Prop where
  named : candidate.clientID ≠ []
  secretSize : minSecretSize ≤ candidate.secret.length
  routeHint : h.hintMode = .routeHint →
    computeEnvelopeV2RouteHint crypto candidate.secret h.prefixRandom serverPort = h.routeHint
  opened : openEnvelopeV2Sealed crypto candidate.secret h serverPort sealed = some plain
  parsed : parseEnvelopeV2Body plain = .ok payload
  identity : payload.clientIDHash = computeClientIDHash crypto candidate.secret candidate.clientID

theorem authenticateCandidate_ok_iff {h : Header} {sealed : Bytes} {remote : NetAddr} :
    authenticateCandidate crypto h sealed serverPort remote candidate = .ok peer ↔
      ∃ plain payload, OpensFrameV1 crypto h sealed serverPort candidate plain payload ∧
        peer = newPeerInfoFromV1 candidate payload h remote := by
  constructor
  · intro success
    unfold authenticateCandidate at success
    split at success
    · cases success
    rename_i usable
    push Not at usable
    split at success
    · cases success
    rename_i hinted
    push Not at hinted
    split at success
    · cases success
    rename_i plain opened
    split at success
    · cases success
    rename_i payload decoded
    split at success
    · cases success
    rename_i identity
    push Not at identity
    cases success
    exact ⟨plain, payload, ⟨usable.1, usable.2, hinted, opened, decoded, identity⟩, rfl⟩
  · rintro ⟨plain, payload, evidence, rfl⟩
    have usable : ¬ (candidate.clientID = [] ∨ candidate.secret.length < minSecretSize) :=
      not_or.mpr ⟨evidence.named, not_lt.mpr evidence.secretSize⟩
    rw [authenticateCandidate, if_neg usable, if_neg (not_not_intro evidence.keyHint),
      evidence.opened]
    simp only [evidence.decoded]
    rw [if_neg (not_not_intro evidence.identity)]

theorem authenticateEnvelopeV2Candidate_ok_iff {h : EnvelopeV2Header} {sealed : Bytes}
    {remote : NetAddr} :
    authenticateEnvelopeV2Candidate crypto h sealed serverPort remote candidate = .ok peer ↔
      ∃ plain payload, OpensEnvelopeV2 crypto h sealed serverPort candidate plain payload ∧
        peer = newPeerInfoFromEnvelopeV2 candidate payload h remote := by
  constructor
  · intro success
    unfold authenticateEnvelopeV2Candidate openEnvelopeV2Payload at success
    split at success
    · cases success
    rename_i usable
    push Not at usable
    split at success
    · cases success
    rename_i hinted
    push Not at hinted
    cases opened : openEnvelopeV2Sealed crypto candidate.secret h serverPort sealed with
    | none =>
      rw [opened] at success
      cases success
    | some plain =>
      rw [opened] at success
      simp only at success
      split at success
      · cases success
      rename_i payload parsed
      split at success
      · cases success
      rename_i identity
      push Not at identity
      cases success
      exact ⟨plain, payload, ⟨usable.1, usable.2, hinted, opened, parsed, identity⟩, rfl⟩
  · rintro ⟨plain, payload, evidence, rfl⟩
    have usable : ¬ (candidate.clientID = [] ∨ candidate.secret.length < minSecretSize) :=
      not_or.mpr ⟨evidence.named, not_lt.mpr evidence.secretSize⟩
    have hinted : ¬ (h.hintMode = .routeHint ∧ computeEnvelopeV2RouteHint crypto candidate.secret
        h.prefixRandom serverPort ≠ h.routeHint) :=
      fun wrong => wrong.2 (evidence.routeHint wrong.1)
    rw [authenticateEnvelopeV2Candidate, if_neg usable, if_neg hinted, openEnvelopeV2Payload,
      evidence.opened]
    simp only [evidence.parsed]
    rw [if_neg (not_not_intro evidence.identity)]

end Candidates

section Loops

variable (attempt : SecretCandidate → Except AuthError PeerInfo)

theorem firstCandidate_some {candidates : List SecretCandidate}
    (found : firstCandidate attempt candidates = some (candidate, peer)) :
    candidate ∈ candidates ∧ attempt candidate = .ok peer := by
  induction candidates with
  | nil => cases found
  | cons head rest ih =>
    rw [firstCandidate] at found
    split at found
    · obtain ⟨member, success⟩ := ih found
      exact ⟨List.mem_cons_of_mem head member, success⟩
    · rename_i success
      cases found
      exact ⟨List.mem_cons_self .., success⟩

theorem firstCandidate_of_only {candidates : List SecretCandidate} {target : SecretCandidate}
    (member : target ∈ candidates) (success : attempt target = .ok peer)
    (only : ∀ other ∈ candidates, ∀ claimed, attempt other = .ok claimed → other = target) :
    firstCandidate attempt candidates = some (target, peer) := by
  induction candidates with
  | nil => cases member
  | cons head rest ih =>
    rw [firstCandidate]
    split
    · rename_i failed
      have later : target ∈ rest := by
        rcases List.mem_cons.mp member with rfl | later
        · rw [success] at failed
          cases failed
        · exact later
      apply ih later
      intro other otherMember
      exact only other (List.mem_cons_of_mem head otherMember)
    · rename_i claimed opened
      have same := only head (List.mem_cons_self ..) claimed opened
      subst same
      rw [success] at opened
      cases opened
      rfl

variable (maxAuthAttempts : Int) (attempts : Nat) (candidates : List SecretCandidate)

theorem tryCandidates_hit (candidate : SecretCandidate) (peer : PeerInfo)
    (found : tryCandidates maxAuthAttempts attempt attempts candidates =
      .ok (.inr (candidate, peer))) :
    candidate ∈ candidates ∧ attempt candidate = .ok peer := by
  induction candidates generalizing attempts with
  | nil => cases found
  | cons head rest ih =>
    rw [tryCandidates] at found
    split at found
    · cases found
    split at found
    · obtain ⟨member, success⟩ := ih (attempts + 1) found
      exact ⟨List.mem_cons_of_mem head member, success⟩
    · rename_i success
      cases found
      exact ⟨List.mem_cons_self .., success⟩

theorem tryCandidates_of_none
    (room : ((attempts + candidates.length : Nat) : Int) ≤ maxAuthAttempts)
    (none : ∀ candidate ∈ candidates, ∀ claimed, attempt candidate ≠ .ok claimed) :
    tryCandidates maxAuthAttempts attempt attempts candidates =
      .ok (.inl (attempts + candidates.length)) := by
  induction candidates generalizing attempts with
  | nil => rfl
  | cons head rest ih =>
    simp only [List.length_cons] at room
    rw [tryCandidates, if_neg (by omega)]
    split
    · rw [ih (attempts + 1) (by omega) fun candidate member =>
        none candidate (List.mem_cons_of_mem head member), List.length_cons]
      congr 2
      omega
    · rename_i claimed opened
      exact absurd opened (none head (List.mem_cons_self ..) claimed)

theorem tryCandidates_of_only
    (room : ((attempts + candidates.length : Nat) : Int) ≤ maxAuthAttempts)
    (target : SecretCandidate) (peer : PeerInfo) (member : target ∈ candidates)
    (success : attempt target = .ok peer)
    (only : ∀ other ∈ candidates, ∀ claimed, attempt other = .ok claimed → other = target) :
    tryCandidates maxAuthAttempts attempt attempts candidates = .ok (.inr (target, peer)) := by
  induction candidates generalizing attempts with
  | nil => cases member
  | cons head rest ih =>
    simp only [List.length_cons] at room
    rw [tryCandidates, if_neg (by omega)]
    split
    · rename_i failed
      have later : target ∈ rest := by
        rcases List.mem_cons.mp member with rfl | later
        · rw [success] at failed
          cases failed
        · exact later
      apply ih (attempts + 1) (by omega) later
      intro other otherMember
      exact only other (List.mem_cons_of_mem head otherMember)
    · rename_i claimed opened
      have same := only head (List.mem_cons_self ..) claimed opened
      subst same
      rw [success] at opened
      cases opened
      rfl

end Loops

/-! ## The two protocols -/

section Protocols

variable (crypto : Crypto) {R K P : Type} (cfg : ServerConfig R K P)

theorem matchFrameV1_ok_iff {resolver : SecretResolver} {conn : Conn} {result : AuthResult} :
    matchFrameV1 crypto cfg resolver conn serverPort reader = .ok result ↔
      ∃ h sealed next candidates candidate peer,
        readFrame cfg.maxFrameSize reader = .ok ((h, sealed), next) ∧
        resolveCandidates crypto (frameV1Meta h serverPort) resolver = .ok candidates ∧
        firstCandidate (authenticateCandidate crypto h sealed serverPort conn.remoteAddr)
          candidates = some (candidate, peer) ∧
        result = frameV1Result crypto h serverPort candidate peer next := by
  constructor
  · intro success
    unfold matchFrameV1 at success
    split at success
    · cases success
    rename_i h sealed next read
    split at success
    · cases success
    · cases success
    rename_i first rest resolved
    split at success
    · cases success
    rename_i candidate peer found
    cases success
    exact ⟨h, sealed, next, first :: rest, candidate, peer, read, resolved, found, rfl⟩
  · rintro ⟨h, sealed, next, candidates, candidate, peer, read, resolved, found, rfl⟩
    rw [matchFrameV1, read]
    simp only [resolved]
    cases candidates with
    | nil => cases found
    | cons first rest => simp only [found]

theorem matchEnvelopeV2_ok_iff {resolver : SecretResolver} {conn : Conn} {result : AuthResult} :
    matchEnvelopeV2 crypto cfg resolver conn serverPort reader = .ok result ↔
      ∃ h afterPrefix candidates found next,
        readEnvelopeV2Prefix cfg.envelopeV2.withDefaults.hintMode reader = .ok (h, afterPrefix) ∧
        resolveCandidates crypto (envelopeV2Meta h serverPort) resolver = .ok candidates ∧
        candidates ≠ [] ∧
        ¬ (cfg.envelopeV2.withDefaults.hintMode = .none ∧
          candidates.length > cfg.maxAuthAttempts) ∧
        searchBuckets crypto cfg candidates h serverPort conn.remoteAddr 0
          (envelopeV2Buckets cfg.envelopeV2.withDefaults.frameSizeBuckets) afterPrefix =
            .ok (found, next) ∧
        result = envelopeV2Result crypto serverPort found next := by
  constructor
  · intro success
    unfold matchEnvelopeV2 at success
    simp only at success
    split at success
    · cases success
    rename_i h afterPrefix read
    split at success
    · cases success
    rename_i candidates resolved
    split at success
    · cases success
    rename_i some
    split at success
    · cases success
    rename_i few
    split at success
    · cases success
    rename_i found next searched
    cases success
    exact ⟨h, afterPrefix, candidates, found, next, read, resolved, some, few, searched,
      rfl⟩
  · rintro ⟨h, afterPrefix, candidates, found, next, read, resolved, some, few, searched, rfl⟩
    rw [matchEnvelopeV2]
    simp only [read, resolved]
    rw [if_neg some, if_neg few, searched]

/-! ## The dispatch -/

def protocolOf (pending : Bytes) : Option AuthProtocol :=
  if .envelopeV2 ∈ cfg.acceptProtocols ∧ .frameV1 ∉ cfg.acceptProtocols then some .envelopeV2
  else if .frameV1 ∈ cfg.acceptProtocols ∧ .envelopeV2 ∉ cfg.acceptProtocols then some .frameV1
  else if .frameV1 ∉ cfg.acceptProtocols ∧ .envelopeV2 ∉ cfg.acceptProtocols then none
  else
    match pending with
    | [] => none
    | first :: _ => if first = version then some .frameV1 else some .envelopeV2

theorem protocolOf_accepted (pending : Bytes) (protocol : AuthProtocol)
    (chosen : protocolOf cfg pending = some protocol) : protocol ∈ cfg.acceptProtocols := by
  unfold protocolOf at chosen
  split at chosen
  · rename_i only
    cases chosen
    exact only.1
  · split at chosen
    · rename_i only
      cases chosen
      exact only.1
    · rename_i notV2 notV1
      split at chosen
      · cases chosen
      rename_i some
      have both : .frameV1 ∈ cfg.acceptProtocols ∧ .envelopeV2 ∈ cfg.acceptProtocols := by
        by_cases first : .frameV1 ∈ cfg.acceptProtocols
        · by_cases second : .envelopeV2 ∈ cfg.acceptProtocols
          · exact ⟨first, second⟩
          · exact absurd ⟨first, second⟩ notV1
        · by_cases second : .envelopeV2 ∈ cfg.acceptProtocols
          · exact absurd ⟨second, first⟩ notV2
          · exact absurd ⟨first, second⟩ some
      split at chosen
      · cases chosen
      split at chosen
      · cases chosen
        exact both.1
      · cases chosen
        exact both.2

theorem protocolOf_append (front rest : Bytes) (nonempty : front ≠ []) :
    protocolOf cfg (front ++ rest) = protocolOf cfg front := by
  cases front with
  | nil => exact absurd rfl nonempty
  | cons first others => rfl

theorem chooseProtocol_sent (calm : reader.err = none) {protocol : AuthProtocol}
    (chosen : protocolOf cfg reader.pending = some protocol) :
    ∃ next, chooseProtocol cfg reader = .ok (protocol, next) ∧ Advances reader next [] := by
  unfold protocolOf at chosen
  unfold chooseProtocol
  split at chosen
  · rename_i only
    cases chosen
    exact ⟨reader, if_pos only, .refl calm⟩
  · rename_i notV2
    rw [if_neg notV2]
    split at chosen
    · rename_i only
      cases chosen
      exact ⟨reader, if_pos only, .refl calm⟩
    · rename_i notV1
      rw [if_neg notV1]
      split at chosen
      · cases chosen
      rename_i some
      rw [if_neg some]
      split at chosen
      · cases chosen
      rename_i first rest pending
      obtain ⟨next, peeked, advanced, _⟩ := reader.peek_sent 1 calm (by decide)
        (by rw [pending]; simp)
      rw [pending] at peeked
      rw [peeked]
      simp only [List.take_succ_cons, List.take_zero, List.getD_cons_zero]
      split at chosen
      · rename_i v1
        cases chosen
        exact ⟨next, by rw [if_pos v1], advanced⟩
      · rename_i v2
        cases chosen
        exact ⟨next, by rw [if_neg v2], advanced⟩

theorem chooseProtocol_ok (reader next : StreamReader) (calm : reader.err = none)
    (protocol : AuthProtocol) (success : chooseProtocol cfg reader = .ok (protocol, next)) :
    protocolOf cfg reader.pending = some protocol ∧ Advances reader next [] := by
  cases chosen : protocolOf cfg reader.pending with
  | some expected =>
    obtain ⟨after, run, advanced⟩ := chooseProtocol_sent cfg calm chosen
    rw [run] at success
    cases success
    exact ⟨rfl, advanced⟩
  | none =>
    exfalso
    unfold protocolOf at chosen
    unfold chooseProtocol at success
    split_ifs at chosen with onlyV2 onlyV1 neither
    · rw [if_neg onlyV2, if_neg onlyV1, if_pos neither] at success
      cases success
    · rw [if_neg onlyV2, if_neg onlyV1, if_neg neither] at success
      split at success
      · cases success
      rename_i data peeked run
      obtain ⟨sent, _⟩ := BufferedReader.peek_ok 1 calm run
      cases pending : reader.pending with
      | nil =>
        rw [pending] at sent
        simp at sent
      | cons first rest =>
        rw [pending] at chosen
        simp only at chosen
        split at chosen <;> cases chosen

theorem protocolOf_two {pending : Bytes} {protocol : AuthProtocol}
    (chosen : protocolOf cfg pending = some protocol) :
    protocol = .frameV1 ∨ protocol = .envelopeV2 := by
  unfold protocolOf at chosen
  split_ifs at chosen
  · cases chosen
    exact Or.inr rfl
  · cases chosen
    exact Or.inl rfl
  · split at chosen
    · cases chosen
    · split at chosen <;> cases chosen
      · exact Or.inl rfl
      · exact Or.inr rfl

theorem matchConfiguredProtocol_ok_iff (resolver : SecretResolver) (conn : Conn)
    (reader : StreamReader) (calm : reader.err = none) (result : AuthResult) :
    matchConfiguredProtocol crypto cfg resolver conn reader = .ok result ↔
      (∃ chosen, chooseProtocol cfg reader = .ok (.frameV1, chosen) ∧
        matchFrameV1 crypto cfg resolver conn (effectivePort cfg.serverPort conn.localAddr)
          chosen = .ok result) ∨
      (∃ chosen, chooseProtocol cfg reader = .ok (.envelopeV2, chosen) ∧
        matchEnvelopeV2 crypto cfg resolver conn (effectivePort cfg.serverPort conn.localAddr)
          chosen = .ok result) := by
  constructor
  · intro success
    unfold matchConfiguredProtocol at success
    simp only at success
    split at success
    · cases success
    · rename_i chosen choice
      exact Or.inl ⟨chosen, choice, success⟩
    · rename_i protocol chosen notV1 choice
      obtain ⟨selected, _⟩ := chooseProtocol_ok cfg reader chosen calm protocol choice
      rcases protocolOf_two cfg selected with rfl | rfl
      · exact absurd rfl notV1
      · exact Or.inr ⟨chosen, choice, success⟩
  · rintro (⟨chosen, choice, success⟩ | ⟨chosen, choice, success⟩)
    · rw [matchConfiguredProtocol]
      simp only [choice, success]
    · rw [matchConfiguredProtocol]
      simp only [choice, success]

end Protocols

/-! ## The call -/

section Call

variable (crypto : Crypto) {R K P : Type} (cfg : ServerConfig R K P)

/-- The timestamp test, as the source computes it: the saturated age is within
the window on both sides. -/
def WithinWindow (window : Duration) (now : Int) (timestamp : Int64) : Prop :=
  -window ≤ since now (unixMilli timestamp) ∧ since now (unixMilli timestamp) ≤ window

theorem validatePeerCommon_ok_iff (peer : PeerInfo) (serverPort : Int) (remote : NetAddr)
    (hint : UInt64) (clock : Readings) (state next : ServerState R K P) :
    validatePeerCommon cfg peer serverPort remote hint clock state = (.ok (), next) ↔
      (serverPort > 0 → peer.serverPort = serverPort) ∧
      WithinWindow cfg.timeWindow clock.check peer.timestamp ∧
      ∃ replay, state.replay.checkAndMark cfg.customReplay peer.clientID peer.nonce clock.mark =
          (.ok (), replay) ∧ next = { state with replay := replay } := by
  unfold validatePeerCommon WithinWindow
  constructor
  · intro success
    split at success
    · cases success
    rename_i port
    simp only at success
    split at success
    · cases success
    rename_i fresh
    split at success
    · cases success
    rename_i replay marked
    cases success
    push Not at port fresh
    refine ⟨port, ?_, replay, marked, rfl⟩
    exact ⟨Int64.not_lt.mp fresh.1, Int64.not_lt.mp fresh.2⟩
  · rintro ⟨port, ⟨low, high⟩, replay, marked, rfl⟩
    have fresh : ¬ (since clock.check (unixMilli peer.timestamp) < -cfg.timeWindow ∨
        since clock.check (unixMilli peer.timestamp) > cfg.timeWindow) := by
      rintro (early | late)
      · exact Int64.not_lt.mpr low early
      · exact Int64.not_lt.mpr high late
    rw [if_neg (fun wrong => wrong.2 (port wrong.1))]
    simp only
    rw [if_neg fresh, marked]

theorem consumeKnock_ok_iff (conn : Conn) (peer : PeerInfo) (clock : Readings)
    (state next : ServerState R K P) :
    consumeKnock cfg conn peer clock state = (.ok (), next) ↔
      (cfg.requireKnock = false ∧ next = state) ∨
      (cfg.requireKnock = true ∧ ∃ store knock, cfg.knockStore = some store ∧
        store.checkAndConsume peer conn.remoteAddr clock.consume state.knock = (.ok (), knock) ∧
        next = { state with knock := knock }) := by
  unfold consumeKnock
  cases required : cfg.requireKnock with
  | false =>
    simp only [Bool.false_eq_true, not_false_eq_true, if_true, true_and, false_and, or_false,
      Prod.mk.injEq, true_and]
    exact eq_comm
  | true =>
    simp only [not_true_eq_false, if_false, Bool.true_eq_false, false_and, true_and, false_or]
    cases held : cfg.knockStore with
    | none => simp
    | some store =>
      simp only [Option.some.injEq, exists_and_left, exists_eq_left']
      constructor
      · intro success
        split at success
        · cases success
        rename_i knock consumed
        cases success
        exact ⟨knock, consumed, rfl⟩
      · rintro ⟨knock, consumed, rfl⟩
        rw [consumed]

theorem writeServerProof_ok_iff (conn : Conn) (result : AuthResult) (written : Bytes) :
    writeServerProof cfg conn result = .ok written ↔
      (result.serverProofRequested = false ∧ written = []) ∨
      (result.serverProofRequested = true ∧ cfg.serverProof = true ∧ conn.writeError = none ∧
        written = result.serverProof) := by
  unfold writeServerProof
  cases requested : result.serverProofRequested with
  | false =>
    simp only [Bool.false_eq_true, not_false_eq_true, if_true, Except.ok.injEq, true_and,
      false_and, or_false]
    exact eq_comm
  | true =>
    simp only [not_true_eq_false, if_false, Bool.true_eq_false, false_and, true_and, false_or]
    cases configured : cfg.serverProof with
    | false => simp
    | true =>
      cases fault : conn.writeError with
      | some failure => simp
      | none =>
        simp only [not_true_eq_false, if_false, Except.ok.injEq, true_and]
        exact eq_comm

theorem emit_replay (event : Event) (state : ServerState R K P) :
    (emit cfg event state).replay = state.replay := by
  unfold emit
  split <;> rfl

theorem emit_knock (event : Event) (state : ServerState R K P) :
    (emit cfg event state).knock = state.knock := by
  unfold emit
  split <;> rfl

theorem policyAllows_frame (conn : Conn) (state : ServerState R K P) :
    (policyAllows cfg conn state).2.replay = state.replay ∧
      (policyAllows cfg conn state).2.knock = state.knock := by
  unfold policyAllows
  split
  · exact ⟨rfl, rfl⟩
  · exact ⟨rfl, rfl⟩

def admittedState (conn : Conn) (state : ServerState R K P) : ServerState R K P :=
  (policyAllows cfg conn (emit cfg (.accept conn.remoteAddr) state)).2

theorem admittedState_frame (conn : Conn) (state : ServerState R K P) :
    (admittedState cfg conn state).replay = state.replay ∧
      (admittedState cfg conn state).knock = state.knock := by
  obtain ⟨replay, knock⟩ :=
    policyAllows_frame cfg conn (emit cfg (.accept conn.remoteAddr) state)
  exact ⟨replay.trans (emit_replay cfg _ state), knock.trans (emit_knock cfg _ state)⟩

/-- A call succeeds exactly when every stage does, and its effects are theirs. -/
theorem serverAuthNormalized_ok_iff (conn : Conn) (clock : Readings)
    (state final : ServerState R K P) (auth : AuthenticatedConn) :
    serverAuthNormalized crypto cfg conn clock state = (.ok auth, final) ↔
      ∃ resolver result marked consumed, cfg.secrets = some resolver ∧
        (policyAllows cfg conn (emit cfg (.accept conn.remoteAddr) state)).1 = true ∧
        matchConfiguredProtocol crypto cfg resolver conn (BufferedReader.new conn.incoming) =
          .ok result ∧
        validatePeerCommon cfg result.peer (effectivePort cfg.serverPort conn.localAddr)
          conn.remoteAddr result.hint clock (admittedState cfg conn state) = (.ok (), marked) ∧
        consumeKnock cfg conn result.peer clock marked = (.ok (), consumed) ∧
        writeServerProof cfg conn result = .ok auth.written ∧
        auth.reader = result.reader ∧ auth.peer = result.peer ∧
        final = emit cfg (.authOK result.peer) consumed := by
  constructor
  · intro success
    unfold serverAuthNormalized at success
    split at success
    · cases success
    rename_i resolver held
    split at success
    · cases success
    rename_i admitted allowed
    unfold authenticateConfiguredProtocol at success
    split at success
    · cases success
    rename_i result marked authenticated
    split at authenticated
    · cases authenticated
    rename_i matched found
    split at authenticated
    · cases authenticated
    rename_i next validated
    cases authenticated
    split at success
    · cases success
    rename_i consumed knocked
    split at success
    · cases success
    rename_i written wrote
    cases success
    have entry : admittedState cfg conn state = admitted := by
      rw [admittedState, allowed]
    refine ⟨resolver, result, marked, consumed, held, by rw [allowed], found, ?_,
      knocked, wrote, rfl, rfl, rfl⟩
    rw [entry]
    exact validated
  · rintro ⟨resolver, result, marked, consumed, held, allowed, found, validated, knocked, wrote,
      sameReader, samePeer, rfl⟩
    have entry : policyAllows cfg conn (emit cfg (.accept conn.remoteAddr) state) =
        (true, admittedState cfg conn state) := by
      rw [admittedState, ← allowed]
    obtain ⟨reader, peer, written⟩ := auth
    simp only at wrote sameReader samePeer
    subst sameReader samePeer
    rw [serverAuthNormalized, held]
    simp only [entry, authenticateConfiguredProtocol, found, validated, knocked, wrote]

end Call

end Libknock.Auth
