import Libknock.Auth.Soundness
import Libknock.Relay.Admission

/-!
# What a failed authentication spends

The server consumes a use of the knock session before it looks at the client's
request for a proof.  Every failure up to and including the consumption leaves
the live sessions as they were; a failure after it has spent a use.
-/

set_option autoImplicit false

namespace Libknock.Relay

open Foundation Cache Protocol Auth

section Spend

variable {R P : Type} (crypto : Crypto) (cfg : ServerConfig R KnockSessionStore P)

/-- The unexpired sessions, with their remaining uses, are the same. -/
def SameLive (now : Int) (before after : KnockSessionStore) : Prop :=
  ∀ entry : Entry SessionKey Session, entry.live now = true →
    (entry ∈ before.sessions.order ↔ entry ∈ after.sessions.order)

def Authenticates (conn : Conn) (clock : Readings) (state : ServerState R KnockSessionStore P)
    (result : AuthResult) : Prop :=
  ∃ resolver, cfg.secrets = some resolver ∧
    (policyAllows cfg conn (emit cfg (.accept conn.remoteAddr) state)).1 = true ∧
    (authenticateConfiguredProtocol crypto cfg resolver conn clock
      (BufferedReader.new conn.incoming) (admittedState cfg conn state)).1 = .ok result

/-- The frame authenticates, a live session admits it, and it asks for a proof
that the server does not give or cannot write. -/
def ProofWithheld (conn : Conn) (clock : Readings) (state : ServerState R KnockSessionStore P) :
    Prop :=
  ∃ result, Authenticates crypto cfg conn clock state result ∧
    (∃ addr entry, addrFromNet conn.remoteAddr = some addr ∧
      state.knock.Admits addr result.peer clock.consume entry) ∧
    result.serverProofRequested = true ∧ (cfg.serverProof = false ∨ conn.writeError ≠ none)

/-! ## The consumption -/

theorem sameLive_of_refused (s next : KnockSessionStore) (peer : PeerInfo) (remote : NetAddr)
    (now : Int) (failure : AuthError)
    (refused : s.checkAndConsume peer remote now = (.error failure, next)) :
    SameLive now s next := by
  intro entry live
  obtain ⟨older, kept⟩ :=
    KnockSessionStore.mem_checkAndConsume_error s refused entry
  exact ⟨fun stored => kept stored live, older⟩

theorem not_sameLive_of_consumed (s next : KnockSessionStore) (peer : PeerInfo) (remote : NetAddr)
    (now : Int) (consumed : s.checkAndConsume peer remote now = (.ok (), next)) :
    ¬ SameLive now s next := by
  obtain ⟨addr, entry, _, admits, rfl⟩ :=
    (KnockSessionStore.checkAndConsume_ok_iff s peer remote now next).mp consumed
  intro same
  have stays := (same entry admits.live).mp admits.stored
  rcases (KnockSessionStore.mem_consumeUse s admits.stored).mp stays with
    ⟨_, different⟩ | ⟨_, used⟩
  · exact different rfl
  · have fewer := congrArg (fun stored => stored.value.remaining) used
    simp only at fewer
    omega

theorem writeServerProof_error_iff (conn : Conn) (result : AuthResult) :
    (writeServerProof cfg conn result).isOk = false ↔
      result.serverProofRequested = true ∧ (cfg.serverProof = false ∨ conn.writeError ≠ none) := by
  unfold writeServerProof
  cases result.serverProofRequested with
  | false => simp [Except.isOk, Except.toBool]
  | true =>
    cases cfg.serverProof with
    | false => simp [Except.isOk, Except.toBool]
    | true =>
      cases conn.writeError with
      | none | some => simp [Except.isOk, Except.toBool]

/-! ## The stages before it -/

theorem emitReplay_knock (remote : NetAddr) (hint : UInt64) (failure : AuthError)
    (state : ServerState R KnockSessionStore P) :
    (emitReplay cfg remote hint failure state).knock = state.knock := by
  unfold emitReplay
  split
  · exact emit_knock cfg _ state
  · split
    · exact emit_knock cfg _ state
    · rfl

theorem validatePeerCommon_knock (peer : PeerInfo) (serverPort : Int) (remote : NetAddr)
    (hint : UInt64) (clock : Readings) (state : ServerState R KnockSessionStore P) :
    (validatePeerCommon cfg peer serverPort remote hint clock state).2.knock = state.knock := by
  unfold validatePeerCommon
  split
  · rfl
  simp only
  split
  · rfl
  · split
    · exact emitReplay_knock cfg _ _ _ _
    · rfl

theorem authenticateConfiguredProtocol_knock (resolver : SecretResolver) (conn : Conn)
    (clock : Readings) (reader : StreamReader) (state : ServerState R KnockSessionStore P) :
    (authenticateConfiguredProtocol crypto cfg resolver conn clock reader state).2.knock =
      state.knock := by
  unfold authenticateConfiguredProtocol
  split
  · rfl
  rename_i matched found
  have kept := validatePeerCommon_knock cfg matched.peer
    (effectivePort cfg.serverPort conn.localAddr) conn.remoteAddr matched.hint clock state
  split
  · rename_i failure next validated
    rw [validated] at kept
    exact kept
  · rename_i next validated
    rw [validated] at kept
    exact kept

theorem consumeKnock_store (required : cfg.requireKnock = true)
    (store : cfg.knockStore = some KnockSessionStore.knockStore) (conn : Conn) (peer : PeerInfo)
    (clock : Readings) (state : ServerState R KnockSessionStore P) :
    (consumeKnock cfg conn peer clock state).2.knock =
        (state.knock.checkAndConsume peer conn.remoteAddr clock.consume).2 ∧
      (consumeKnock cfg conn peer clock state).1.isOk =
        (state.knock.checkAndConsume peer conn.remoteAddr clock.consume).1.isOk := by
  simp only [consumeKnock, required, store, KnockSessionStore.knockStore]
  cases state.knock.checkAndConsume peer conn.remoteAddr clock.consume with
  | mk answer next =>
    cases answer with
    | error | ok => exact ⟨rfl, rfl⟩

/-- A call either stops before the consumption, with the store as it was, or
authenticates its frame and ends as the consumption and the proof do. -/
theorem serverAuthNormalized_spends (required : cfg.requireKnock = true)
    (store : cfg.knockStore = some KnockSessionStore.knockStore) (conn : Conn) (clock : Readings)
    (state : ServerState R KnockSessionStore P) :
    ((∀ result, ¬ Authenticates crypto cfg conn clock state result) ∧
        (serverAuthNormalized crypto cfg conn clock state).2.knock = state.knock) ∨
      ∃ result, Authenticates crypto cfg conn clock state result ∧
        (serverAuthNormalized crypto cfg conn clock state).2.knock =
          (state.knock.checkAndConsume result.peer conn.remoteAddr clock.consume).2 ∧
        (serverAuthNormalized crypto cfg conn clock state).1.isOk =
          ((state.knock.checkAndConsume result.peer conn.remoteAddr clock.consume).1.isOk &&
            (writeServerProof cfg conn result).isOk) := by
  have entered := (admittedState_frame cfg conn state).2
  rw [serverAuthNormalized]
  cases held : cfg.secrets with
  | none =>
    refine Or.inl ⟨?_, rfl⟩
    rintro result ⟨resolver, held', -⟩
    rw [held] at held'
    cases held'
  | some resolver =>
    cases policy : policyAllows cfg conn (emit cfg (.accept conn.remoteAddr) state) with
    | mk allowed admitted =>
      have admittedEq : admittedState cfg conn state = admitted := by
        rw [admittedState, policy]
      rw [admittedEq] at entered
      cases allowed with
      | false =>
        refine Or.inl ⟨?_, ?_⟩
        · rintro result ⟨-, -, allowed, -⟩
          rw [policy] at allowed
          cases allowed
        · simp only [fail, emit_knock]
          exact entered
      | true =>
        have kept := authenticateConfiguredProtocol_knock crypto cfg resolver conn clock
          (BufferedReader.new conn.incoming) admitted
        cases authenticated : authenticateConfiguredProtocol crypto cfg resolver conn clock
            (BufferedReader.new conn.incoming) admitted with
        | mk outcome marked =>
          rw [authenticated, entered] at kept
          cases outcome with
          | error failed =>
            refine Or.inl ⟨?_, ?_⟩
            · rintro result ⟨resolver', held', -, success⟩
              rw [held] at held'
              cases held'
              rw [admittedEq, authenticated] at success
              cases success
            · simp only [authenticated, fail, emit_knock]
              exact kept
          | ok result =>
            refine Or.inr ⟨result, ⟨resolver, held, by rw [policy], ?_⟩, ?_⟩
            · rw [admittedEq, authenticated]
            · have spends := consumeKnock_store cfg required store conn result.peer
                clock marked
              rw [kept] at spends
              cases consumed : consumeKnock cfg conn result.peer clock marked with
              | mk answer next =>
                rw [consumed] at spends
                rw [← spends.1, ← spends.2]
                cases answer with
                | error failure =>
                  simp [authenticated, consumed, fail, emit_knock, Except.isOk,
                    Except.toBool]
                | ok nothing =>
                  cases wrote : writeServerProof cfg conn result with
                  | error failure =>
                    simp [authenticated, consumed, wrote, fail, emit_knock,
                      Except.isOk, Except.toBool]
                  | ok written =>
                    simp [authenticated, consumed, wrote, emit_knock, Except.isOk,
                      Except.toBool]

/-! ## The whole call -/

theorem Authenticates.unique (conn : Conn) (clock : Readings)
    (state : ServerState R KnockSessionStore P) (one two : AuthResult)
    (first : Authenticates crypto cfg conn clock state one)
    (second : Authenticates crypto cfg conn clock state two) : one = two := by
  obtain ⟨resolver, held, _, success⟩ := first
  obtain ⟨resolver', held', _, success'⟩ := second
  rw [held] at held'
  cases held'
  rw [success] at success'
  exact Except.ok.inj success'

/-- A failed authentication leaves the live sessions with their uses, except
exactly where it fails on a proof it withholds. -/
theorem failed_auth_unspent_iff (required : cfg.requireKnock = true)
    (store : cfg.knockStore = some KnockSessionStore.knockStore) (conn : Conn) (clock : Readings)
    (state : ServerState R KnockSessionStore P) :
    ((serverAuthNormalized crypto cfg conn clock state).1.isOk = false →
        SameLive clock.consume state.knock
          (serverAuthNormalized crypto cfg conn clock state).2.knock) ↔
      ¬ ProofWithheld crypto cfg conn clock state := by
  rcases serverAuthNormalized_spends crypto cfg required store conn clock state with
    ⟨stops, kept⟩ | ⟨result, authenticates, knock, ends⟩
  · constructor
    · intro _ ⟨result, authenticates, _⟩
      exact stops result authenticates
    · intro _ _
      rw [kept]
      exact fun _ _ => Iff.rfl
  · rw [knock, ends]
    cases consumed : state.knock.checkAndConsume result.peer conn.remoteAddr clock.consume with
    | mk answer next =>
      cases answer with
      | error failure =>
        constructor
        · intro _ ⟨other, authenticates', ⟨addr, entry, known, admits⟩, _⟩
          cases Authenticates.unique crypto cfg conn clock state _ _ authenticates authenticates'
          have passes := (KnockSessionStore.checkAndConsume_ok_iff state.knock result.peer
            conn.remoteAddr clock.consume _).mpr ⟨addr, entry, known, admits, rfl⟩
          rw [consumed] at passes
          cases passes
        · intro _ _
          exact sameLive_of_refused _ _ _ _ _ failure consumed
      | ok nothing =>
        have spent := not_sameLive_of_consumed _ _ _ _ _ consumed
        have withheld := writeServerProof_error_iff cfg conn result
        obtain ⟨addr, entry, known, admits, _⟩ :=
          (KnockSessionStore.checkAndConsume_ok_iff state.knock result.peer conn.remoteAddr
            clock.consume next).mp consumed
        constructor
        · intro unspent ⟨other, authenticates', _, proof⟩
          cases Authenticates.unique crypto cfg conn clock state _ _ authenticates authenticates'
          apply spent
          apply unspent
          rw [withheld.mpr proof, Bool.and_false]
        · intro given failed
          have refused : (writeServerProof cfg conn result).isOk = false := by
            simpa [Except.isOk, Except.toBool] using failed
          exact absurd ⟨result, authenticates, ⟨addr, entry, known, admits⟩,
            withheld.mp refused⟩ given

end Spend

def sampleKnockServer : ServerConfig Unit KnockSessionStore Unit :=
  { sampleServer [.frameV1] true false with knockStore := some KnockSessionStore.knockStore }

/-- The frame asks for a proof. -/
def sampleAsking : Conn := sampleConn (sampleFrame 1000000000 1)

/-- One session with one use. -/
def sampleKnockState (sessionID : Bytes) : ServerState Unit KnockSessionStore Unit :=
  ⟨sampleState.replay, (KnockSessionStore.newWithLimit 16).addSessionForPort sampleAddr
    (ascii "client") sessionID 443 (second * 60) 1 1000000000, (), []⟩

/-- A frame that asks for a proof from a server without proofs is refused, and
the only use of its knock session is gone. -/
theorem refused_proof_spends_knock :
    (serverAuthNormalized keyTagCrypto sampleKnockServer sampleAsking sampleClock
        (sampleKnockState (ascii "s"))).1.isOk = false ∧
      ((sampleKnockState (ascii "s")).knock.sessions.order.filter fun entry =>
        entry.live 2000000000).length = 1 ∧
      (serverAuthNormalized keyTagCrypto sampleKnockServer sampleAsking sampleClock
        (sampleKnockState (ascii "s"))).2.knock.sessions.order = [] := by
  decide +kernel

/-- The same frame where the session of the store has another ID: it authenticates, the
store refuses it, and nothing is spent. -/
theorem failed_auth_unspent_iff_sample :
    (∃ result, Authenticates keyTagCrypto sampleKnockServer sampleAsking sampleClock
        (sampleKnockState (ascii "t")) result) ∧
      (serverAuthNormalized keyTagCrypto sampleKnockServer sampleAsking sampleClock
        (sampleKnockState (ascii "t"))).1.isOk = false ∧
      ¬ ProofWithheld keyTagCrypto sampleKnockServer sampleAsking sampleClock
        (sampleKnockState (ascii "t")) := by
  have authenticates : (authenticateConfiguredProtocol keyTagCrypto sampleKnockServer
      (.static ⟨[(ascii "client", sampleSecret)], by simp⟩) sampleAsking sampleClock
      (BufferedReader.new sampleAsking.incoming) (admittedState sampleKnockServer sampleAsking
        (sampleKnockState (ascii "t")))).1.isOk = true := by decide +kernel
  obtain ⟨result, final, success⟩ := exists_ok_of_isOk _ authenticates
  refine ⟨⟨result, _, rfl, rfl, congrArg Prod.fst success⟩, by decide +kernel, ?_⟩
  apply (failed_auth_unspent_iff keyTagCrypto sampleKnockServer rfl rfl _ _ _).mp
  intro _
  have kept : (serverAuthNormalized keyTagCrypto sampleKnockServer sampleAsking sampleClock
      (sampleKnockState (ascii "t"))).2.knock.sessions.order =
        (sampleKnockState (ascii "t")).knock.sessions.order := by decide +kernel
  intro entry _
  rw [kept]

end Libknock.Relay
