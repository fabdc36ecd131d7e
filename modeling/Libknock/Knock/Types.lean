import Libknock.Auth.Types

/-!
# Knock clients and ports

`knock/types.go` and the checks of `knock/frame.go` that every knock method
shares.
-/

set_option autoImplicit false

namespace Libknock.Knock

open Foundation Protocol Auth

def defaultSequenceMaxParts : Int := 8

structure ClientSecret where
  clientID : Bytes
  secret : Bytes
  deriving DecidableEq

def validateClientSecret (client : ClientSecret) : Except AuthError Unit :=
  if client.clientID = [] ∨ 65535 < client.clientID.length ∨ 0 ∈ client.clientID then
    .error .invalidClientID
  else if client.secret.length < minSecretSize then .error .invalidSecret
  else .ok ()

def validateProtectedPort (port : Int) : Except AuthError Unit :=
  if port < 1 ∨ 65535 < port then .error (.text (ascii "protected port must be in 1..65535"))
  else .ok ()

/-- `auth.ReplayCache` as the listeners use it: any implementation, with the
clock reading of the call as an argument. -/
abbrev CheckAndMark (Cache : Type) :=
  (clientID nonce : Bytes) → (now : Int) → Cache → Except AuthError Unit × Cache

theorem validateProtectedPort_ok_iff (port : Int) :
    validateProtectedPort port = .ok () ↔ 1 ≤ port ∧ port ≤ 65535 := by
  unfold validateProtectedPort
  split
  · rename_i outside
    simp only [reduceCtorEq, false_iff, not_and_or]
    omega
  · rename_i inside
    simp only [true_iff]
    omega

end Libknock.Knock
