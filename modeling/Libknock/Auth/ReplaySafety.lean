import Libknock.Auth.ReplayStore
import Libknock.Auth.Soundness

/-!
# Replays

A run of calls on one server, each on an arbitrary connection and in whatever
state the knock store and the policy are by then; only the replay cache is
carried from call to call.  A pair of client and nonce that was accepted is
refused as long as the cache remembers it, which is twice the window: a frame
stamped a window ahead is still fresh at the very instant its entry expires.
-/

set_option autoImplicit false

namespace Libknock.Auth

open Foundation Protocol

structure AuthCall (K P : Type) where
  conn : Conn
  clock : Readings
  knock : K
  policy : P

section Runs

variable (crypto : Crypto) {R K P : Type} (cfg : ServerConfig R K P)

/-- `Server.Auth` on one connection. -/
def authStep (replay : ReplayCache R) (call : AuthCall K P) :
    Except AuthError AuthenticatedConn × ReplayCache R :=
  let outcome := serverAuthNormalized crypto cfg call.conn call.clock
    ⟨replay, call.knock, call.policy, []⟩
  (outcome.1, outcome.2.replay)

def runAuth : ReplayCache R → List (AuthCall K P) → List (Except AuthError AuthenticatedConn) :=
  transcript (authStep crypto cfg)

/-! ## One call and the cache -/

theorem fail_replay (conn : Conn) (peer : Option PeerInfo) (failure : AuthError)
    (state : ServerState R K P) : (fail cfg conn peer failure state).2.replay = state.replay :=
  emit_replay cfg _ state

theorem emitReplay_replay (remote : NetAddr) (hint : UInt64) (failure : AuthError)
    (state : ServerState R K P) :
    (emitReplay cfg remote hint failure state).replay = state.replay := by
  unfold emitReplay
  split
  · exact emit_replay cfg _ state
  · split
    · exact emit_replay cfg _ state
    · rfl

theorem consumeKnock_replay (conn : Conn) (peer : PeerInfo) (clock : Readings)
    (state : ServerState R K P) :
    (consumeKnock cfg conn peer clock state).2.replay = state.replay := by
  unfold consumeKnock
  split
  · rfl
  split
  · rfl
  · split
    · rfl
    · rfl

/-- The cache after a call is the one before it, or that one after one mark at
the instant the call read for it. -/
def TouchedAt (custom : CustomReplayCache R) (now : Int) (before after : ReplayCache R) : Prop :=
  after = before ∨ ∃ clientID nonce, after = (before.checkAndMark custom clientID nonce now).2

theorem validatePeerCommon_touched (peer : PeerInfo) (serverPort : Int) (remote : NetAddr)
    (hint : UInt64) (clock : Readings) (state : ServerState R K P) :
    TouchedAt cfg.customReplay clock.mark state.replay
      (validatePeerCommon cfg peer serverPort remote hint clock state).2.replay := by
  unfold validatePeerCommon
  split
  · exact Or.inl rfl
  simp only
  split
  · exact Or.inl rfl
  split
  · rename_i failure replay marked
    right
    refine ⟨peer.clientID, peer.nonce, ?_⟩
    rw [emitReplay_replay, marked]
  · rename_i replay marked
    right
    refine ⟨peer.clientID, peer.nonce, ?_⟩
    rw [marked]

theorem serverAuthNormalized_touched (conn : Conn) (clock : Readings) (state : ServerState R K P) :
    TouchedAt cfg.customReplay clock.mark state.replay
      (serverAuthNormalized crypto cfg conn clock state).2.replay := by
  have entry := (admittedState_frame cfg conn state).1
  unfold serverAuthNormalized
  split
  · exact Or.inl rfl
  split
  · rename_i limited refused
    left
    have same : admittedState cfg conn state = limited := by rw [admittedState, refused]
    rw [fail_replay, emit_replay, ← same, entry]
  · rename_i admitted allowed
    have same : admittedState cfg conn state = admitted := by rw [admittedState, allowed]
    rw [same] at entry
    unfold authenticateConfiguredProtocol
    split
    · rename_i failed after authenticated
      rw [fail_replay, ← entry]
      split at authenticated
      · cases authenticated
        exact Or.inl rfl
      · rename_i matched _
        split at authenticated
        · rename_i failure next validated
          cases authenticated
          have touched := validatePeerCommon_touched cfg matched.peer
            (effectivePort cfg.serverPort conn.localAddr) conn.remoteAddr matched.hint clock
            admitted
          rwa [validated] at touched
        · cases authenticated
    · rename_i result marked authenticated
      have touched : TouchedAt cfg.customReplay clock.mark state.replay marked.replay := by
        rw [← entry]
        split at authenticated
        · cases authenticated
        rename_i matched _
        split at authenticated
        · cases authenticated
        rename_i next validated
        cases authenticated
        have touched := validatePeerCommon_touched cfg result.peer
          (effectivePort cfg.serverPort conn.localAddr) conn.remoteAddr result.hint clock
          admitted
        rwa [validated] at touched
      have kept := consumeKnock_replay cfg conn result.peer clock marked
      split
      · rename_i failure after consumed
        rw [consumed] at kept
        rw [fail_replay, kept]
        exact touched
      · rename_i consumedState consumed
        rw [consumed] at kept
        split
        · rw [fail_replay, kept]
          exact touched
        · rw [emit_replay, kept]
          exact touched

/-- The step of a server with a cache of its own, on that cache. -/
def ownStep (c : MemoryReplayCache) (call : AuthCall K P) :
    Except AuthError AuthenticatedConn × MemoryReplayCache :=
  ((authStep crypto cfg (.memory c) call).1,
    match (authStep crypto cfg (.memory c) call).2 with
    | .memory next => next
    | .custom _ => c)

theorem ownStep_touches (c : MemoryReplayCache) (call : AuthCall K P) :
    (authStep crypto cfg (.memory c) call).2 = .memory (ownStep crypto cfg c call).2 ∧
      ((ownStep crypto cfg c call).2 = c ∨ ∃ clientID nonce, (ownStep crypto cfg c call).2 =
        (c.checkAndMark clientID nonce call.clock.mark).2) := by
  unfold ownStep
  rcases serverAuthNormalized_touched crypto cfg call.conn call.clock
      ⟨.memory c, call.knock, call.policy, []⟩ with same | ⟨clientID, nonce, marked⟩
  · have stored : (authStep crypto cfg (.memory c) call).2 = .memory c := same
    rw [stored]
    exact ⟨rfl, Or.inl rfl⟩
  · have stored : (authStep crypto cfg (.memory c) call).2 =
        .memory (c.checkAndMark clientID nonce call.clock.mark).2 := marked
    rw [stored]
    exact ⟨rfl, Or.inr ⟨clientID, nonce, rfl⟩⟩

theorem runAuth_own (c : MemoryReplayCache) (calls : List (AuthCall K P)) :
    runAuth crypto cfg (.memory c) calls = transcript (ownStep crypto cfg) c calls := by
  unfold runAuth
  induction calls generalizing c with
  | nil => rfl
  | cons call rest ih =>
    rw [transcript, transcript, (ownStep_touches crypto cfg c call).1, ih]
    rfl

/-- The call's stream starts with a frame that authenticates as this peer. -/
def Presents (call : AuthCall K P) (peer : PeerInfo) : Prop :=
  ∃ resolver result, cfg.secrets = some resolver ∧
    matchConfiguredProtocol crypto cfg resolver call.conn
      (BufferedReader.new call.conn.incoming) = .ok result ∧ result.peer = peer

theorem ownStep_accepted (c : MemoryReplayCache) (call : AuthCall K P) (auth : AuthenticatedConn)
    (accepted : (ownStep crypto cfg c call).1 = .ok auth) :
    Presents crypto cfg call auth.peer ∧
      WithinWindow cfg.timeWindow call.clock.check auth.peer.timestamp ∧
      c.checkAndMark auth.peer.clientID auth.peer.nonce call.clock.mark =
        (.ok (), (ownStep crypto cfg c call).2) := by
  have run : serverAuthNormalized crypto cfg call.conn call.clock
      ⟨.memory c, call.knock, call.policy, []⟩ = (.ok auth, _) := Prod.ext accepted rfl
  obtain ⟨resolver, result, _, _, held, _, matched, _, _, _, _, peer, _⟩ :=
    (serverAuthNormalized_ok_iff crypto cfg _ _ _ _ auth).mp run
  obtain ⟨fresh, took, _⟩ := serverAuthNormalized_takes crypto cfg run
  have own := (congrArg Prod.snd took).trans (ownStep_touches crypto cfg c call).1
  exact ⟨⟨resolver, result, held, matched, peer.symm⟩, fresh,
    Prod.ext (congrArg Prod.fst took :) (ReplayCache.memory.inj own)⟩

/-! ## Runs -/

def admittedPair : Except AuthError AuthenticatedConn → Option (Bytes × Bytes)
  | .ok auth => some (auth.peer.clientID, auth.peer.nonce)
  | .error _ => none

theorem admittedPair_some {outcome : Except AuthError AuthenticatedConn} {pair : Bytes × Bytes}
    (admitted : admittedPair outcome = some pair) :
    ∃ auth, outcome = .ok auth ∧ pair = (auth.peer.clientID, auth.peer.nonce) := by
  cases outcome with
  | error err => cases admitted
  | ok auth => exact ⟨auth, rfl, (Option.some.inj admitted).symm⟩

theorem ownStep_remembering (ttl : Duration) :
    Remembering (ownStep crypto cfg) (fun call => call.clock.mark) admittedPair
      (fun c => c.Counted ∧ c.ttl = ttl)
      (fun c pair until_ => ⟨replayKey pair.1 pair.2, (), until_⟩ ∈ c.entries.order) ttl.toInt := by
  refine MemoryReplayCache.remembering ttl (fun c call => (ownStep_touches crypto cfg c call).2) ?_
  intro c call pair admitted
  obtain ⟨auth, accepted, rfl⟩ := admittedPair_some admitted
  exact (ownStep_accepted crypto cfg c call auth accepted).2.2

/-! ## Servers built by `NewServer` -/

theorem withDefaults_timeWindow_pos : 0 < cfg.withDefaults.timeWindow := by
  simp only [ServerConfig.withDefaults]
  split
  · decide
  · rename_i positive
    exact Int64.not_le.mp positive

theorem newServer_own_cache (normalized : ServerConfig R K P) (replay : ReplayCache R)
    (built : newServer cfg none = .ok (normalized, replay))
    (fits : normalized.timeWindow.toInt * 2 < 2 ^ 63) :
    ∃ c, replay = .memory c ∧ c.Counted ∧ c.ttl.toInt = normalized.timeWindow.toInt * 2 := by
  unfold newServer at built
  simp only at built
  split at built
  · cases built
  split at built
  · cases built
  cases built
  have positive : (0 : Int) < cfg.withDefaults.timeWindow.toInt :=
    Int64.lt_iff_toInt_lt.mp (withDefaults_timeWindow_pos cfg)
  have doubled : (cfg.withDefaults.timeWindow * 2).toInt =
      cfg.withDefaults.timeWindow.toInt * 2 := by
    rw [Int64.toInt_mul]
    exact Int.bmod_eq_of_le (by simp; omega) (by simp; omega)
  have lasting : ¬ cfg.withDefaults.timeWindow * 2 ≤ 0 := by
    rw [Int64.le_iff_toInt_le, doubled]
    simp
    omega
  refine ⟨_, rfl, MemoryReplayCache.newWithLimit_counted _ _, ?_⟩
  simp only [MemoryReplayCache.new, MemoryReplayCache.newWithLimit, if_neg lasting]
  exact doubled

/-- No pair of client and nonce is accepted by two calls of a run, as long as
calls that present the same pair, both fresh when their timestamps are checked,
mark it less than two windows apart. -/
theorem newServer_accepts_once (normalized : ServerConfig R K P) (replay : ReplayCache R)
    (built : newServer cfg none = .ok (normalized, replay))
    (fits : normalized.timeWindow.toInt * 2 < 2 ^ 63) (calls : List (AuthCall K P))
    (ordered : (calls.map fun call => call.clock.mark).Pairwise (· ≤ ·))
    (inside : ∀ (i j : Nat) (early late : AuthCall K P) (first second : PeerInfo), i < j →
      calls[i]? = some early → calls[j]? = some late →
      Presents crypto normalized early first → Presents crypto normalized late second →
      first.clientID = second.clientID → first.nonce = second.nonce →
      WithinWindow normalized.timeWindow early.clock.check first.timestamp →
      WithinWindow normalized.timeWindow late.clock.check second.timestamp →
      late.clock.mark < early.clock.mark + normalized.timeWindow.toInt * 2) :
    ∀ (i j : Nat) (first second : AuthenticatedConn), i < j →
      (runAuth crypto normalized replay calls)[i]? = some (.ok first) →
      (runAuth crypto normalized replay calls)[j]? = some (.ok second) →
      ¬ (first.peer.clientID = second.peer.clientID ∧ first.peer.nonce = second.peer.nonce) := by
  intro i j first second before firstOk secondOk same
  obtain ⟨c, rfl, counted, lifetime⟩ := newServer_own_cache cfg normalized replay built fits
  rw [runAuth_own] at firstOk secondOk
  obtain ⟨early, earlyAt⟩ := transcript_action firstOk
  obtain ⟨late, lateAt⟩ := transcript_action secondOk
  have memory := ownStep_remembering crypto normalized c.ttl
  have spaced := memory.spaced calls c ⟨counted, rfl⟩ ordered i j early late _ _
    (second.peer.clientID, second.peer.nonce) before earlyAt lateAt firstOk secondOk
    (by rw [admittedPair, same.1, same.2]) rfl
  obtain ⟨earlyCache, _, earlyStep⟩ :=
    memory.answered calls c ⟨counted, rfl⟩ i early _ earlyAt firstOk
  obtain ⟨lateCache, _, lateStep⟩ := memory.answered calls c ⟨counted, rfl⟩ j late _ lateAt secondOk
  obtain ⟨earlyPresents, earlyFresh, _⟩ :=
    ownStep_accepted crypto normalized earlyCache early first earlyStep
  obtain ⟨latePresents, lateFresh, _⟩ :=
    ownStep_accepted crypto normalized lateCache late second lateStep
  have close := inside i j early late first.peer second.peer before earlyAt lateAt earlyPresents
    latePresents same.1 same.2 earlyFresh lateFresh
  rw [lifetime] at spaced
  omega

end Runs

/-! ## The edge of the window -/

def sampleCall (now : Int) (frame : Bytes) : AuthCall Unit Unit :=
  ⟨sampleConn frame, ⟨now, now, now⟩, (), ()⟩

def acceptedPeer : Except AuthError AuthenticatedConn → Option PeerInfo
  | .ok auth => some auth.peer
  | .error _ => none

def samplePeer (timestamp : Int64) : PeerInfo where
  clientID := ascii "client"
  clientIDHash := computeClientIDHash keyTagCrypto sampleSecret (ascii "client")
  keyHint := computeKeyHint keyTagCrypto sampleSecret sampleNonce 443
  nonce := sampleNonce.bytes
  timestamp := timestamp
  serverPort := 443
  method := []
  sessionID := ascii "s"
  extensions := []
  remoteAddr := .tcp [192, 0, 2, 1] 50000
  protocol := .unset
  flags := 0

/-- A frame stamped thirty seconds ahead is accepted, and again sixty seconds
later, at the instant its entry expires and its age is exactly the window. -/
theorem newServer_accepts_replay_at_edge :
    ∃ normalized replay, newServer (sampleServer [.frameV1] false false) none =
        .ok (normalized, replay) ∧ normalized.timeWindow.toInt * 2 < 2 ^ 63 ∧
      (runAuth keyTagCrypto normalized replay
        [sampleCall 1000000000000 (sampleFrame 1030000000000 0),
          sampleCall 1060000000000 (sampleFrame 1030000000000 0)]).map acceptedPeer =
        [some (samplePeer 1030000), some (samplePeer 1030000)] := by
  refine ⟨(sampleServer [.frameV1] false false).withDefaults, _, rfl, by decide, ?_⟩
  decide +kernel

def sampleReplay : List (AuthCall Unit Unit) :=
  [sampleCall 1000000000000 (sampleFrame 1030000000000 0),
    sampleCall 1001000000000 (sampleFrame 1030000000000 0)]

/-- One second after the first acceptance the replay is refused. -/
theorem newServer_accepts_once_sample :
    ∃ normalized replay first, newServer (sampleServer [.frameV1] false false) none =
        .ok (normalized, replay) ∧
      (runAuth keyTagCrypto normalized replay sampleReplay)[0]? = some (.ok first) ∧
      ∀ second, (runAuth keyTagCrypto normalized replay sampleReplay)[1]? = some (.ok second) →
        ¬ (first.peer.clientID = second.peer.clientID ∧
          first.peer.nonce = second.peer.nonce) := by
  have accepted : (runAuth keyTagCrypto (sampleServer [.frameV1] false false).withDefaults
      sampleState.replay sampleReplay)[0]?.bind acceptedPeer = some (samplePeer 1030000) := by
    decide +kernel
  obtain ⟨outcome, firstOk, peer⟩ := Option.bind_eq_some_iff.mp accepted
  cases outcome with
  | error failure => cases peer
  | ok first =>
    refine ⟨_, _, first, rfl, firstOk, ?_⟩
    intro second secondOk
    refine newServer_accepts_once keyTagCrypto (sampleServer [.frameV1] false false) _ _ rfl
      (by decide) sampleReplay (by decide) ?_ 0 1 first second (by decide) firstOk secondOk
    intro i j early late _ _ before earlyAt lateAt _ _ _ _ _ _
    match i, j, before, earlyAt, lateAt with
    | 0, 1, _, earlyAt, lateAt =>
      cases earlyAt
      cases lateAt
      decide
    | 1, j + 2, _, _, lateAt => simp [sampleReplay] at lateAt
    | 0, j + 2, _, _, lateAt => simp [sampleReplay] at lateAt
    | i + 2, j, _, earlyAt, _ => simp [sampleReplay] at earlyAt

end Libknock.Auth
