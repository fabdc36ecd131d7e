import Libknock.Relay.Lease

/-!
# Removal after authentication

`removeKnockAccess` deletes the session of its client and the lease and rule of
its address, in three steps between which anything may happen.  Sessions are
kept by client and rules by address, so a removal leaves every other session in
the store and every other pair open, but it closes its own pair for all
clients of the address, and takes the session of a later knock of its own client
with it.
-/

set_option autoImplicit false

namespace Libknock.Relay

open Foundation Cache
open Auth (PeerInfo)

variable {after g : Gateway}

section Removal

variable (cfg : KnockConfig)

/-- The actions that are steps of the removal, whatever stage it is in. -/
def Removal.takes (r : Removal) : Action → Bool
  | .removeSession step => { step with stage := r.stage } = r
  | .removeLease step => { step with stage := r.stage } = r
  | .revokeRemoved step => { step with stage := r.stage } = r
  | _ => false

/-- A step of another party takes away neither the session nor the opening. -/
def Spares (r : Removal) (entry : Entry SessionKey Session) (key : FirewallKey) (g : Gateway)
    (action : Action) : Prop :=
  r.takes action = false → ∀ after ∈ g.step cfg action,
    (entry ∈ g.store.sessions.order → entry ∈ after.store.sessions.order) ∧
      (key ∈ g.allowed → key ∈ after.allowed)

instance (r : Removal) (entry : Entry SessionKey Session) (key : FirewallKey) (g : Gateway)
    (action : Action) : Decidable (Spares cfg r entry key g action) :=
  inferInstanceAs (Decidable (r.takes action = false → ∀ after ∈ g.step cfg action,
    (entry ∈ g.store.sessions.order → entry ∈ after.store.sessions.order) ∧
      (key ∈ g.allowed → key ∈ after.allowed)))

theorem Removal.key_stage (r step : Removal) (same : { step with stage := r.stage } = r) :
    step.key cfg = r.key cfg := by
  rw [← same]
  rfl

theorem Removal.sessionKey_stage (r step : Removal) (same : { step with stage := r.stage } = r) :
    step.sessionKey = r.sessionKey := by
  rw [← same]
  rfl

/-! ## One step -/

theorem removal_step_session {r : Removal} {action : Action} (own : r.takes action = true)
    (stepped : g.step cfg action = some after) {entry : Entry SessionKey Session}
    (other : entry.key ≠ r.sessionKey) (stored : entry ∈ g.store.sessions.order) :
    entry ∈ after.store.sessions.order := by
  cases action with
  | removeSession step =>
    obtain ⟨_, _, rfl⟩ := removeSession_some stepped
    refine TTLLRU.mem_delete.mpr ⟨stored, ?_⟩
    intro clash
    exact other (clash.trans (r.sessionKey_stage step (of_decide_eq_true own)))
  | removeLease step =>
    obtain ⟨_, rfl⟩ := removeLease_some cfg stepped
    exact stored
  | revokeRemoved step =>
    obtain ⟨_, rfl⟩ := revokeRemoved_some cfg stepped
    exact stored
  | _ => cases own

theorem removal_step_opening {r : Removal} {action : Action} (own : r.takes action = true)
    (stepped : g.step cfg action = some after) {key : FirewallKey} (other : key ≠ r.key cfg)
    (allowed : key ∈ g.allowed) : key ∈ after.allowed := by
  cases action with
  | removeSession step =>
    obtain ⟨_, _, rfl⟩ := removeSession_some stepped
    exact allowed
  | removeLease step =>
    obtain ⟨_, rfl⟩ := removeLease_some cfg stepped
    exact allowed
  | revokeRemoved step =>
    obtain ⟨_, rfl⟩ := revokeRemoved_some cfg stepped
    refine Finset.mem_erase.mpr ⟨?_, allowed⟩
    rw [r.key_stage cfg step (of_decide_eq_true own)]
    exact other
  | _ => cases own

theorem authenticate_allowed {peer : PeerInfo} {remote localAddr : NetAddr} {completes : Bool}
    (stepped : g.authenticate cfg peer remote localAddr completes = some after) :
    after.allowed = g.allowed := by
  obtain ⟨_, rfl, _⟩ := authenticate_some cfg stepped
  rfl

theorem authenticate_keeps {peer : PeerInfo} {remote localAddr : NetAddr} {completes : Bool}
    {addr : Addr} (known : addrFromNet remote = some addr)
    (stepped : g.authenticate cfg peer remote localAddr completes = some after)
    (entry : Entry SessionKey Session) (stored : entry ∈ g.store.sessions.order)
    (live : entry.live g.now = true)
    (unspent : entry.key ≠ newSessionKeyForPort addr peer.clientID peer.serverPort) :
    entry ∈ after.store.sessions.order := by
  obtain ⟨started, rfl, _, _⟩ := authenticate_some cfg stepped
  cases outcome : g.store.checkAndConsume peer remote g.now with
  | mk result next =>
    cases result with
    | error failure =>
      exact (KnockSessionStore.mem_checkAndConsume_error g.store outcome entry).2 stored live
    | ok nothing =>
      obtain ⟨source, used, found, admits, rfl⟩ :=
        (KnockSessionStore.checkAndConsume_ok_iff g.store peer remote g.now next).mp outcome
      rw [known] at found
      cases found
      refine (KnockSessionStore.mem_consumeUse g.store admits.stored).mpr (Or.inl ⟨stored, ?_⟩)
      rw [admits.key]
      exact unspent

/-! ## Runs -/

theorem run_spares_session (r : Removal) (entry : Entry SessionKey Session) (key : FirewallKey)
    (other : entry.key ≠ r.sessionKey) (start last : Gateway) (actions : List Action)
    (run : Run (Along (Spares cfg r entry key) (Steps (Gateway.step cfg))) start actions last)
    (stored : entry ∈ start.store.sessions.order) : entry ∈ last.store.sessions.order := by
  induction run with
  | nil => exact stored
  | @snoc _ before after action _ step ih =>
    cases own : r.takes action with
    | true => exact removal_step_session cfg own step.1 other ih
    | false => exact (step.2 own after step.1).1 ih

theorem run_spares_opening (r : Removal) (entry : Entry SessionKey Session) (key : FirewallKey)
    (other : key ≠ r.key cfg) (start last : Gateway) (actions : List Action)
    (run : Run (Along (Spares cfg r entry key) (Steps (Gateway.step cfg))) start actions last)
    (allowed : key ∈ start.allowed) : key ∈ last.allowed := by
  induction run with
  | nil => exact allowed
  | @snoc _ before after action _ step ih =>
    cases own : r.takes action with
    | true => exact removal_step_opening cfg own step.1 other ih
    | false => exact (step.2 own after step.1).2 ih

/-- What the steps of a removal take away is taken whoever put it there. -/
theorem run_removes_own (r : Removal) {start last : Gateway} (front : List Action) :
    (Run (Steps (Gateway.step cfg)) start (front ++ [.removeSession r]) last →
        ∀ entry ∈ last.store.sessions.order, entry.key ≠ r.sessionKey) ∧
      (Run (Steps (Gateway.step cfg)) start (front ++ [.removeLease r]) last →
        ∀ lease ∈ last.store.firewall.order, lease.key ≠ r.key cfg) ∧
      (Run (Steps (Gateway.step cfg)) start (front ++ [.revokeRemoved r]) last →
        r.key cfg ∉ last.allowed) := by
  refine ⟨?_, ?_, ?_⟩
  · intro run entry member
    obtain ⟨before, after, _, removed, rest⟩ := run.split
    cases rest.eq_start
    obtain ⟨_, _, rfl⟩ := removeSession_some removed
    exact (TTLLRU.mem_delete.mp member).2
  · intro run lease member
    obtain ⟨before, after, _, removed, rest⟩ := run.split
    cases rest.eq_start
    obtain ⟨_, rfl⟩ := removeLease_some cfg removed
    exact (TTLLRU.mem_delete.mp member).2
  · intro run
    obtain ⟨before, after, _, revoked, rest⟩ := run.split
    cases rest.eq_start
    obtain ⟨_, rfl⟩ := revokeRemoved_some cfg revoked
    exact Finset.notMem_erase _ _

/-- An authentication leaves every live session but the one it uses, and every pair
open.  From any state after it on, its removal, interleaved with anything that itself
spares them, leaves every session with another key in the store and every other pair
open.  It takes away what is stored under its own keys, whoever's knock put it there. -/
theorem removal_spares_others (peer : PeerInfo) (remote localAddr : NetAddr) (addr : Addr)
    (known : addrFromNet remote = some addr) (before authed : Gateway)
    (authenticated : Steps (Gateway.step cfg) before (.authenticate peer remote localAddr true)
      authed) :
    (∀ entry ∈ before.store.sessions.order, entry.live before.now = true →
        entry.key ≠ newSessionKeyForPort addr peer.clientID peer.serverPort →
        entry ∈ authed.store.sessions.order) ∧
      authed.allowed = before.allowed ∧
      (∀ (early late : List Action) (middle after : Gateway) (entry : Entry SessionKey Session)
        (key : FirewallKey), Run (Steps (Gateway.step cfg)) authed early middle →
        Run (Along (Spares cfg (cfg.removal addr peer.clientID localAddr) entry key)
          (Steps (Gateway.step cfg))) middle late after →
        (entry ∈ middle.store.sessions.order →
          entry.key ≠ (cfg.removal addr peer.clientID localAddr).sessionKey →
          entry ∈ after.store.sessions.order) ∧
        (key ∈ middle.allowed → key ≠ (cfg.removal addr peer.clientID localAddr).key cfg →
          key ∈ after.allowed)) ∧
      ∀ (front : List Action) (last : Gateway),
        (Run (Steps (Gateway.step cfg)) authed
            (front ++ [.removeSession (cfg.removal addr peer.clientID localAddr)]) last →
          ∀ entry ∈ last.store.sessions.order,
            entry.key ≠ (cfg.removal addr peer.clientID localAddr).sessionKey) ∧
        (Run (Steps (Gateway.step cfg)) authed
            (front ++ [.removeLease { cfg.removal addr peer.clientID localAddr with
              stage := .lease }]) last →
          ∀ lease ∈ last.store.firewall.order,
            lease.key ≠ (cfg.removal addr peer.clientID localAddr).key cfg) ∧
        (Run (Steps (Gateway.step cfg)) authed
            (front ++ [.revokeRemoved { cfg.removal addr peer.clientID localAddr with
              stage := .rule }]) last →
          (cfg.removal addr peer.clientID localAddr).key cfg ∉ last.allowed) := by
  refine ⟨authenticate_keeps cfg known authenticated, authenticate_allowed cfg authenticated, ?_, ?_⟩
  · intro early late middle after entry key _ run
    constructor
    · intro stored other
      exact run_spares_session cfg _ entry key other middle after late run stored
    · intro allowed other
      exact run_spares_opening cfg _ entry key other middle after late run allowed
  · intro front last
    refine ⟨(run_removes_own cfg _ front).1, ?_, ?_⟩
    · exact (run_removes_own cfg { cfg.removal addr peer.clientID localAddr with
        stage := .lease } front).2.1
    · exact (run_removes_own cfg { cfg.removal addr peer.clientID localAddr with
        stage := .rule } front).2.2

end Removal

def sampleRemovingConfig : KnockConfig := { sampleKnockConfig with removeAfterAuth := true }

/-- The first client's authentication and the whole of its removal. -/
def sampleRemoving : List Action :=
  [.removeSession ⟨sampleAddr, ascii "a", 443, .session⟩,
    .removeLease ⟨sampleAddr, ascii "a", 443, .lease⟩,
    .revokeRemoved ⟨sampleAddr, ascii "a", 443, .rule⟩]

def sampleAuthenticates : Action :=
  .authenticate (sampleAdmitted (ascii "a") (ascii "s")) sampleRemote .nil true

/-- A client knocks and authenticates, and knocks again before the removal for the
authentication has begun. -/
def sampleReknock : List Action :=
  sampleHandling 1 (ascii "a") 1000000000 ++
    sampleAuthenticates :: sampleHandling 1 (ascii "a") 2000000000

/-- Two clients of one address have knocked.  The first one's removal closes the
pair under the second one, whose session is live and unused.  A client that has knocked
again loses the new session, its lease and its rule. -/
theorem removal_closes_shared_pair :
    (∃ before, Run (Steps (Gateway.step sampleRemovingConfig)) (Gateway.start 16 0)
        (sampleHandling 1 (ascii "a") 1000000000 ++ sampleHandling 1 (ascii "b") 2000000000)
        before ∧ before.allowed = {samplePair 1}) ∧
      (∃ after, Run (Steps (Gateway.step sampleRemovingConfig)) (Gateway.start 16 0)
          (sampleHandling 1 (ascii "a") 1000000000 ++ sampleHandling 1 (ascii "b") 2000000000 ++
            sampleAuthenticates :: sampleRemoving) after ∧
        (after.store.checkAndConsume (sampleAdmitted (ascii "b") (ascii "s")) sampleRemote
          after.now).1.isOk = true ∧ after.allowed = ∅) ∧
      (∃ before, Run (Steps (Gateway.step sampleRemovingConfig)) (Gateway.start 16 0)
          sampleReknock before ∧
        (before.store.checkAndConsume (sampleAdmitted (ascii "a") (ascii "s")) sampleRemote
          before.now).1.isOk = true ∧ before.store.sessions.order.length = 1 ∧
        before.store.firewall.order.length = 1 ∧ before.allowed = {samplePair 1}) ∧
      ∃ after, Run (Steps (Gateway.step sampleRemovingConfig)) (Gateway.start 16 0)
          (sampleReknock ++ sampleRemoving) after ∧
        after.store.sessions.order.length = 0 ∧ after.store.firewall.order.length = 0 ∧
        after.allowed = ∅ := by
  exact ⟨runSteps_reaches _ _ _ _ (by decide +kernel), runSteps_reaches _ _ _ _ (by decide +kernel),
    runSteps_reaches _ _ _ _ (by decide +kernel), runSteps_reaches _ _ _ _ (by decide +kernel)⟩

/-- The session of a client at another address. -/
def sampleBystander (host : UInt8) (clientID : Bytes) (expiresAt : Int) :
    Entry SessionKey Session :=
  ⟨newSessionKeyForPort (samplePair host).remote clientID 443, ⟨1, 443, ascii "s"⟩, expiresAt⟩

/-- One bystander knocks before the authentication and one between it and the removal. -/
theorem removal_spares_others_sample :
    ∃ before authed middle after, Run (Steps (Gateway.step sampleRemovingConfig))
        (Gateway.start 16 0)
        (sampleHandling 1 (ascii "a") 1000000000 ++ sampleHandling 2 (ascii "b") 2000000000)
        before ∧
      Steps (Gateway.step sampleRemovingConfig) before sampleAuthenticates authed ∧
      sampleBystander 2 (ascii "b") 62000000000 ∈ authed.store.sessions.order ∧
      Run (Steps (Gateway.step sampleRemovingConfig)) authed
        (sampleHandling 3 (ascii "c") 3000000000) middle ∧
      Run (Steps (Gateway.step sampleRemovingConfig)) middle sampleRemoving after ∧
      sampleBystander 3 (ascii "c") 63000000000 ∈ after.store.sessions.order ∧
      samplePair 3 ∈ after.allowed ∧ samplePair 1 ∉ after.allowed := by
  obtain ⟨before, run, ⟨stored, live⟩, authed, authenticated, middle, knocks, ⟨newer, opened⟩, after,
      removes, -⟩ := runSteps_reaches (Gateway.step sampleRemovingConfig) (Gateway.start 16 0)
    (sampleHandling 1 (ascii "a") 1000000000 ++ sampleHandling 2 (ascii "b") 2000000000)
    (fun g => (sampleBystander 2 (ascii "b") 62000000000 ∈ g.store.sessions.order ∧
        (sampleBystander 2 (ascii "b") 62000000000).live g.now = true) ∧
      ∃ authed ∈ g.step sampleRemovingConfig sampleAuthenticates,
      ∃ middle ∈ runSteps (Gateway.step sampleRemovingConfig) authed
        (sampleHandling 3 (ascii "c") 3000000000),
      (sampleBystander 3 (ascii "c") 63000000000 ∈ middle.store.sessions.order ∧
        samplePair 3 ∈ middle.allowed) ∧
      ∃ after ∈ runSteps (fun state action => if Spares sampleRemovingConfig
          ⟨sampleAddr, ascii "a", 443, .session⟩ (sampleBystander 3 (ascii "c") 63000000000)
          (samplePair 3) state action then
        state.step sampleRemovingConfig action else none) middle sampleRemoving, True)
    (by decide +kernel)
  have handled := runSteps_run _ authed middle _ knocks
  have removal := runSteps_along _ _ middle after sampleRemoving removes
  have removed := removal.mono fun _ _ _ step => step.1
  obtain ⟨keeps, -, spares, takes⟩ := removal_spares_others sampleRemovingConfig _ sampleRemote
    .nil sampleAddr (by decide) before authed authenticated
  obtain ⟨session, opening⟩ := spares _ sampleRemoving middle after _ (samplePair 3) handled removal
  have closed := (takes (sampleHandling 3 (ascii "c") 3000000000 ++ sampleRemoving.take 2) after).2.2
    (handled.append removed)
  exact ⟨before, authed, middle, after, run, authenticated,
    keeps _ stored live (by decide), handled, removed, session newer (by decide),
    opening opened (by decide), closed⟩

end Libknock.Relay
