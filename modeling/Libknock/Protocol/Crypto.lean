import Libknock.Foundation.BufferedReader

/-!
# Cryptographic primitives and protocol errors

`internal/cryptox` and the two packages it and `protocol` import.  HMAC-SHA256,
HKDF-SHA256 and XChaCha20-Poly1305 are parameters; what a result needs of them
is a hypothesis of that result.  HKDF returns as many bytes as it is asked for,
so the AEAD constructor, which only checks the key length, never fails.
-/

set_option autoImplicit false

namespace Libknock.Protocol

open Foundation

structure Crypto where
  hmacSHA256 : (secret data : Bytes) → FixedBytes 32
  hkdfSHA256 : (secret salt info : Bytes) → (size : Nat) → FixedBytes size
  aeadSeal : (key nonce plain aad : Bytes) → Bytes
  aeadOpen : (key nonce sealed aad : Bytes) → Option Bytes

/-- `chacha20poly1305.Overhead`. -/
def overhead : Nat := 16

/-- `chacha20poly1305.KeySize`. -/
def keySize : Nat := 32

/-- What sealing promises: the tag is appended, and opening under the same key,
nonce and associated data gives the plaintext back. -/
structure Crypto.SealsOpenly (crypto : Crypto) : Prop where
  seal_length : ∀ key nonce plain aad,
    (crypto.aeadSeal key nonce plain aad).length = plain.length + overhead
  open_seal : ∀ key nonce plain aad,
    crypto.aeadOpen key nonce (crypto.aeadSeal key nonce plain aad) aad = some plain

/-- Primitives that can be evaluated: the tag is the start of the key, so that
another key does not open, and the digest depends on the end of its data. -/
def keyTagCrypto : Crypto where
  hmacSHA256 secret data := FixedBytes.copy 32 (data.reverse ++ secret)
  hkdfSHA256 secret _ _ size := FixedBytes.copy size secret
  aeadSeal key _ plain _ := plain ++ (FixedBytes.copy overhead key).bytes
  aeadOpen key _ sealed _ :=
    if overhead ≤ sealed.length ∧
        sealed.drop (sealed.length - overhead) = (FixedBytes.copy overhead key).bytes then
      some (sealed.take (sealed.length - overhead))
    else none

theorem keyTagCrypto_sealsOpenly : keyTagCrypto.SealsOpenly := by
  refine ⟨?_, ?_⟩
  · intro key nonce plain aad
    simp [keyTagCrypto, (FixedBytes.copy overhead key).length_eq]
  · intro key nonce plain aad
    have tag := (FixedBytes.copy overhead key).length_eq
    simp [keyTagCrypto, tag]

def Crypto.hmacTrunc64 (crypto : Crypto) (secret data : Bytes) : UInt64 :=
  uint64 ((crypto.hmacSHA256 secret data).bytes.take 8)

def Crypto.hmacTrunc128 (crypto : Crypto) (secret data : Bytes) : FixedBytes 16 :=
  FixedBytes.copy 16 ((crypto.hmacSHA256 secret data).bytes.take 16)

/-- The sentinels of the package, the port error of the encoders, and the I/O
errors that the readers pass on. -/
inductive ProtocolError where
  | invalidFrame
  | frameTooLarge
  | invalidFrameSizeBucket
  | unsupportedVersion
  | unsupportedFlags
  | portOutOfRange (port : Int)
  | noEntropy
  | openFailed
  | io (failure : ReadError)
  deriving DecidableEq

/-- The size of `bufio.NewReader`'s buffer. -/
def bufferSize : Nat := 4096

abbrev StreamReader := BufferedReader bufferSize

/-- `io.ReadFull` on the buffered connection. -/
def readFull (want : Nat) (reader : StreamReader) : Except ProtocolError (Bytes × StreamReader) :=
  match reader.readFull want with
  | .error failure => .error (.io failure)
  | .ok result => .ok result

theorem readFull_sent (want : Nat) (reader : StreamReader) (calm : reader.err = none)
    (sent : want ≤ reader.pending.length) :
    ∃ next, readFull want reader = .ok (reader.pending.take want, next) ∧
      BufferedReader.Advances reader next (reader.pending.take want) := by
  obtain ⟨next, run, advanced⟩ := BufferedReader.readFull_sent (by decide) calm want sent
  exact ⟨next, by rw [readFull, run], advanced⟩

theorem readFull_ok {want : Nat} {reader next : StreamReader} {data : Bytes}
    (calm : reader.err = none) (success : readFull want reader = .ok (data, next)) :
    want ≤ reader.pending.length ∧ data = reader.pending.take want ∧
      BufferedReader.Advances reader next data := by
  unfold readFull at success
  split at success
  · cases success
  rename_i result run
  cases success
  exact BufferedReader.readFull_ok (by decide) calm run

def minSecretSize : Nat := 16

def flagServerProof : UInt8 := 1

/-- `flags &^ FlagServerProof != 0`. -/
def unsupportedFlags (flags : UInt8) : Bool := flags &&& ~~~flagServerProof ≠ 0

def serverProofType : UInt8 := 0x50

def serverProofSize : Nat := 1 + 1 + 16 + 32

end Libknock.Protocol
