import Libknock.Auth.Server

/-!
# The client side of TCP authentication

`auth/client.go`.  The two protocol branches of `ClientAuthWithInfo` differ in
the frame they build, the proof they accept and the peer they return; that is
a `ClientHello`, and the rest is shared.
-/

set_option autoImplicit false

namespace Libknock.Auth

open Foundation Protocol

/-- What the frame builders draw from the system's randomness. -/
structure ClientDraws where
  nonce : FixedBytes 16
  envelope : EnvelopeV2Draws

inductive ClientHeader where
  | frameV1 (h : Header)
  | envelopeV2 (h : EnvelopeV2Header)

structure ClientHello where
  frame : Bytes
  header : ClientHeader
  peer : PeerInfo

section Client

variable (crypto : Crypto)

def buildClientFrameOptions (cfg : ClientConfig) (serverPort now : Int) (flags : UInt8)
    (nonce : FixedBytes 16) : Except ProtocolError (Bytes × Header) :=
  buildFrame crypto cfg.clientID cfg.secret serverPort now flags cfg.method cfg.sessionID
    cfg.extensions nonce

def buildEnvelopeOptions (cfg : ClientConfig) (serverPort now : Int) (flags : UInt8)
    (draws : EnvelopeV2Draws) : Except ProtocolError (Bytes × EnvelopeV2Header) :=
  buildEnvelopeV2 crypto cfg.clientID cfg.secret serverPort now flags cfg.method cfg.sessionID
    cfg.extensions cfg.envelopeV2 draws

def newClientFramePeer (cfg : ClientConfig) (h : Header) (serverPort now : Int)
    (remote : NetAddr) : PeerInfo where
  clientID := cfg.clientID
  clientIDHash := computeClientIDHash crypto cfg.secret cfg.clientID
  keyHint := h.keyHint
  nonce := h.nonce.bytes
  timestamp := toUnixMilli now
  serverPort := serverPort
  method := cfg.method
  sessionID := cfg.sessionID
  extensions := cfg.extensions
  remoteAddr := remote
  protocol := .unset
  flags := 0

def newClientEnvelopePeer (cfg : ClientConfig) (h : EnvelopeV2Header) (serverPort now : Int)
    (flags : UInt8) (remote : NetAddr) : PeerInfo where
  clientID := cfg.clientID
  clientIDHash := computeClientIDHash crypto cfg.secret cfg.clientID
  keyHint := h.routeHint
  nonce := h.prefixRandom.bytes
  timestamp := toUnixMilli now
  serverPort := serverPort
  method := cfg.method
  sessionID := cfg.sessionID
  extensions := cfg.extensions
  remoteAddr := remote
  protocol := .envelopeV2
  flags := flags

def clientFlags (cfg : ClientConfig) : UInt8 :=
  if cfg.requireServerProof then flagServerProof else 0

def clientHello (cfg : ClientConfig) (serverPort now : Int) (remote : NetAddr)
    (draws : ClientDraws) : Except ProtocolError ClientHello :=
  let flags := clientFlags cfg
  if cfg.protocol = .envelopeV2 then
    match buildEnvelopeOptions crypto cfg serverPort now flags draws.envelope with
    | .error failure => .error failure
    | .ok (frame, h) =>
      .ok ⟨frame, .envelopeV2 h, newClientEnvelopePeer crypto cfg h serverPort now flags remote⟩
  else
    match buildClientFrameOptions crypto cfg serverPort now flags draws.nonce with
    | .error failure => .error failure
    | .ok (frame, h) => .ok ⟨frame, .frameV1 h, newClientFramePeer crypto cfg h serverPort now remote⟩

def verifyClientProof (proof secret : Bytes) (serverPort : Int) : ClientHeader → Bool
  | .frameV1 h => verifyServerProof crypto proof secret h serverPort
  | .envelopeV2 h => verifyEnvelopeV2ServerProof crypto proof secret h serverPort

/-- `io.ReadFull` on the bare connection: a buffer of one byte is never used,
since no request is smaller. -/
def readProof (conn : Conn) : Except ReadError (Bytes × BufferedReader 1) :=
  (BufferedReader.new conn.incoming).readFull serverProofSize

/-- The result of `ClientAuthWithInfo` and what it has written by then. -/
def clientAuthWithInfo (config : ClientConfig) (conn : Conn) (now : Int) (draws : ClientDraws) :
    Except AuthError PeerInfo × Bytes :=
  let cfg := config.withDefaults
  match cfg.validateRuntime with
  | .error failure => (.error failure, [])
  | .ok () =>
    let serverPort := effectivePort cfg.serverPort conn.remoteAddr
    match clientHello crypto cfg serverPort now conn.remoteAddr draws with
    | .error failure => (.error (mapProtocolError failure), [])
    | .ok hello =>
      match conn.writeError with
      | some failure => (.error (.protocol (.io failure)), [])
      | none =>
        if cfg.requireServerProof then
          match readProof conn with
          | .error _ => (.error .serverProofFailed, hello.frame)
          | .ok (proof, _) =>
            if verifyClientProof crypto proof cfg.secret serverPort hello.header then
              (.ok hello.peer, hello.frame)
            else (.error .serverProofFailed, hello.frame)
        else (.ok hello.peer, hello.frame)

end Client

/-! ## Reading the proof -/

theorem readProof_sent {conn : Conn} {proof rest : Bytes} (full : proof.length = serverProofSize)
    (sent : conn.incoming.chunks.flatten = proof ++ rest) :
    ∃ next, readProof conn = .ok (proof, next) := by
  have pending : (BufferedReader.new conn.incoming : BufferedReader 1).pending = proof ++ rest := sent
  obtain ⟨next, run, _⟩ := BufferedReader.readFull_sent (by decide)
    (rfl : (BufferedReader.new conn.incoming : BufferedReader 1).err = none) serverProofSize
    (by rw [pending, List.length_append, full]; omega)
  rw [pending, ← full, List.take_left] at run
  exact ⟨next, by rw [readProof, ← full, run]⟩

end Libknock.Auth
