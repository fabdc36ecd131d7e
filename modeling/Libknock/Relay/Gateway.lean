import Libknock.Foundation.Runs
import Libknock.Relay.Session

/-!
# Knock handlers, lease timers and removals

The handlers of `relay/knock.go` and `gate/gate.go` and `removeKnockAccess` of
`relay/auth.go` as a transition system, for a firewall that is revoked by hand:
the pairs it allows, the store, the handler in progress (listeners call it one
knock at a time), the armed timers, the callbacks of timers that have fired,
and the removals in progress.  Each call on the store or the firewall is one
step, and steps of different parties interleave freely.  A call that reads the
clock before it takes the store's lock carries its reading, from any instant
since the step before.
-/

set_option autoImplicit false

namespace Libknock.Relay

open Foundation Cache
open Auth (PeerInfo effectivePort)

/-! ## States -/

inductive HandlerStage where
  | allowed
  | refused
  | marked (leaseID : UInt64)
  | recorded (leaseID : UInt64)
  deriving DecidableEq

/-- A knock handler that has called `Allow` for its pair. -/
structure Handler where
  key : FirewallKey
  clientID : Bytes
  sessionID : Bytes
  since : Int
  stage : HandlerStage
  deriving DecidableEq

structure LeaseTimer where
  key : FirewallKey
  clientID : Bytes
  leaseID : UInt64
  due : Int
  deriving DecidableEq

inductive CallbackStage where
  | fired
  | expiring
  | revoking
  deriving DecidableEq

/-- The function of a timer that has fired. -/
structure Callback where
  key : FirewallKey
  clientID : Bytes
  leaseID : UInt64
  since : Int
  stage : CallbackStage
  deriving DecidableEq

inductive RemovalStage where
  | session
  | lease
  | rule
  deriving DecidableEq

/-- A call of `removeKnockAccess`. -/
structure Removal where
  addr : Addr
  clientID : Bytes
  port : Int
  stage : RemovalStage
  deriving DecidableEq

structure Gateway where
  now : Int
  store : KnockSessionStore
  allowed : Finset FirewallKey
  handler : Option Handler
  timers : List LeaseTimer
  callbacks : List Callback
  removals : List Removal

def Gateway.start (limit now : Int) : Gateway :=
  ⟨now, KnockSessionStore.newWithLimit limit, ∅, none, [], [], []⟩

/-- No handler is mid-way, and every timer has fired and finished. -/
def Gateway.Quiet (g : Gateway) : Prop :=
  g.handler = none ∧ g.timers = [] ∧ g.callbacks = [] ∧ g.removals = []

instance (g : Gateway) : Decidable g.Quiet :=
  inferInstanceAs (Decidable (_ ∧ _ ∧ _ ∧ _))

/-! ## Steps -/

variable {reading : Int} {r : Removal}

section Steps

variable (cfg : KnockConfig)

def firewallOnlyClientID : Bytes := ascii "*"

def KnockConfig.storeClientID (clientID : Bytes) : Bytes :=
  if cfg.firewallOnly then firewallOnlyClientID else clientID

/-- The pair whose lease and rule `removeKnockAccess` removes. -/
def Removal.key (r : Removal) : FirewallKey :=
  ⟨r.addr, if r.port ≤ 0 then cfg.listenPort else r.port⟩

def Removal.sessionKey (r : Removal) : SessionKey := newSessionKeyForPort r.addr r.clientID r.port

def Gateway.knock (ev : KnockEvent) (g : Gateway) : Option Gateway :=
  if g.handler = none then
    match addrFromIP ev.sourceIP with
    | none => some g
    | some remote =>
      let key : FirewallKey := ⟨remote, cfg.port⟩
      some { g with
        allowed := insert key g.allowed
        handler := some ⟨key, cfg.storeClientID ev.clientID, ev.sessionID, g.now, .allowed⟩ }
  else none

def Gateway.markFirewall (reading : Int) (g : Gateway) : Option Gateway :=
  match g.handler with
  | none => none
  | some h =>
    if h.stage = .allowed ∧ h.since ≤ reading ∧ reading ≤ g.now then
      let outcome := g.store.markFirewall h.key.remote h.key.port cfg.ttl reading
      let stage := match outcome.1 with
        | none => HandlerStage.refused
        | some leaseID => .marked leaseID
      some { g with store := outcome.2, handler := some { h with since := g.now, stage := stage } }
    else none

/-- The handler's `Revoke` after a mark that failed. -/
def Gateway.revokeRefused (g : Gateway) : Option Gateway :=
  match g.handler with
  | none => none
  | some h =>
    if h.stage = .refused then some { g with allowed := g.allowed.erase h.key, handler := none }
    else none

def Gateway.addSession (reading : Int) (g : Gateway) : Option Gateway :=
  match g.handler with
  | none => none
  | some h =>
    match h.stage with
    | .marked leaseID =>
      if h.since ≤ reading ∧ reading ≤ g.now then
        let store := if cfg.firewallOnly then
            g.store.addSession h.key.remote h.clientID [] cfg.ttl cfg.maxConnectionsPerKnock
              reading
          else
            g.store.addSessionForPort h.key.remote h.clientID h.sessionID h.key.port cfg.ttl
              cfg.maxConnectionsPerKnock reading
        some { g with
          store := store
          handler := some { h with since := g.now, stage := .recorded leaseID } }
      else none
    | _ => none

def Gateway.armTimer (g : Gateway) : Option Gateway :=
  match g.handler with
  | none => none
  | some h =>
    match h.stage with
    | .recorded leaseID => some { g with
        timers := g.timers ++ [⟨h.key, h.clientID, leaseID, addDuration g.now cfg.ttl⟩]
        handler := none }
    | _ => none

def Gateway.fire (timer : LeaseTimer) (g : Gateway) : Option Gateway :=
  if timer ∈ g.timers ∧ timer.due ≤ g.now then
    some { g with
      timers := g.timers.erase timer
      callbacks := g.callbacks ++ [⟨timer.key, timer.clientID, timer.leaseID, g.now, .fired⟩] }
  else none

def Gateway.expireSessions (c : Callback) (reading : Int) (g : Gateway) : Option Gateway :=
  if c ∈ g.callbacks ∧ c.stage = .fired ∧ c.since ≤ reading ∧ reading ≤ g.now then
    some { g with
      store := (g.store.expire c.key.remote c.clientID reading).2
      callbacks := g.callbacks.erase c ++ [{ c with since := g.now, stage := .expiring }] }
  else none

def Gateway.expireFirewall (c : Callback) (reading : Int) (g : Gateway) : Option Gateway :=
  if c ∈ g.callbacks ∧ c.stage = .expiring ∧ c.since ≤ reading ∧ reading ≤ g.now then
    let outcome := g.store.expireFirewall c.key.remote c.key.port c.leaseID reading
    some { g with
      store := outcome.2
      callbacks := g.callbacks.erase c ++
        if outcome.1 then [{ c with since := g.now, stage := .revoking }] else [] }
  else none

def Gateway.revokeExpired (c : Callback) (g : Gateway) : Option Gateway :=
  if c ∈ g.callbacks ∧ c.stage = .revoking then
    some { g with allowed := g.allowed.erase c.key, callbacks := g.callbacks.erase c }
  else none

def KnockConfig.removalPort (localAddr : NetAddr) : Int :=
  if cfg.port ≤ 0 then listenerPort localAddr else cfg.port

def KnockConfig.removal (addr : Addr) (clientID : Bytes) (localAddr : NetAddr) : Removal :=
  ⟨addr, clientID, cfg.removalPort localAddr, .session⟩

/-- A TCP authentication from its consumption of a knock session on; `completes`
tells whether the rest of it succeeds. -/
def Gateway.authenticate (peer : PeerInfo) (remote localAddr : NetAddr) (completes : Bool)
    (g : Gateway) : Option Gateway :=
  let port := effectivePort cfg.port localAddr
  if cfg.firewallOnly = false ∧ (port > 0 → peer.serverPort = port) then
    let outcome := g.store.checkAndConsume peer remote g.now
    let removal := match addrFromNet remote with
      | some addr => if outcome.1.isOk ∧ completes ∧ cfg.removeAfterAuth then
          [cfg.removal addr peer.clientID localAddr] else []
      | none => []
    some { g with store := outcome.2, removals := g.removals ++ removal }
  else none

/-- A connection taken by the listener of a gate without TCP authentication:
its peer is the wildcard client, with no port and no session identifier. -/
def Gateway.accept (peer : PeerInfo) (remote : NetAddr) (g : Gateway) : Option Gateway :=
  if cfg.firewallOnly = true ∧ peer.clientID = firewallOnlyClientID ∧ peer.serverPort = 0 ∧
      peer.sessionID = [] then
    some { g with store := (g.store.checkAndConsume peer remote g.now).2 }
  else none

def Gateway.removeSession (r : Removal) (g : Gateway) : Option Gateway :=
  if r ∈ g.removals ∧ r.stage = .session then
    some { g with
      store := (g.store.removeForPort r.addr r.clientID r.port).2
      removals := g.removals.erase r ++ [{ r with stage := .lease }] }
  else none

def Gateway.removeLease (r : Removal) (g : Gateway) : Option Gateway :=
  if r ∈ g.removals ∧ r.stage = .lease then
    some { g with
      store := (g.store.removeFirewall (r.key cfg).remote (r.key cfg).port).2
      removals := g.removals.erase r ++ [{ r with stage := .rule }] }
  else none

def Gateway.revokeRemoved (r : Removal) (g : Gateway) : Option Gateway :=
  if r ∈ g.removals ∧ r.stage = .rule then
    some { g with allowed := g.allowed.erase (r.key cfg), removals := g.removals.erase r }
  else none

def Gateway.tick (now : Int) (g : Gateway) : Option Gateway :=
  if g.now ≤ now then some { g with now := now } else none

inductive Action where
  | tick (now : Int)
  | knock (ev : KnockEvent)
  | markFirewall (reading : Int)
  | revokeRefused
  | addSession (reading : Int)
  | armTimer
  | fire (timer : LeaseTimer)
  | expireSessions (c : Callback) (reading : Int)
  | expireFirewall (c : Callback) (reading : Int)
  | revokeExpired (c : Callback)
  | authenticate (peer : PeerInfo) (remote localAddr : NetAddr) (completes : Bool)
  | accept (peer : PeerInfo) (remote : NetAddr)
  | removeSession (r : Removal)
  | removeLease (r : Removal)
  | revokeRemoved (r : Removal)

def Gateway.step (g : Gateway) : Action → Option Gateway
  | .tick now => g.tick now
  | .knock ev => g.knock cfg ev
  | .markFirewall reading => g.markFirewall cfg reading
  | .revokeRefused => g.revokeRefused
  | .addSession reading => g.addSession cfg reading
  | .armTimer => g.armTimer cfg
  | .fire timer => g.fire timer
  | .expireSessions c reading => g.expireSessions c reading
  | .expireFirewall c reading => g.expireFirewall c reading
  | .revokeExpired c => g.revokeExpired c
  | .authenticate peer remote localAddr completes =>
    g.authenticate cfg peer remote localAddr completes
  | .accept peer remote => g.accept cfg peer remote
  | .removeSession r => g.removeSession r
  | .removeLease r => g.removeLease cfg r
  | .revokeRemoved r => g.revokeRemoved cfg r

/-! ## What the steps of a handler do -/

theorem knock_some {ev : KnockEvent} {g after : Gateway} (stepped : g.knock cfg ev = some after) :
    g.handler = none ∧ (after = g ∨ ∃ remote, addrFromIP ev.sourceIP = some remote ∧ after = { g with
      allowed := insert ⟨remote, cfg.port⟩ g.allowed
      handler := some ⟨⟨remote, cfg.port⟩, cfg.storeClientID ev.clientID, ev.sessionID, g.now,
        .allowed⟩ }) := by
  unfold Gateway.knock at stepped
  split at stepped
  · rename_i idle
    split at stepped
    · cases stepped
      exact ⟨idle, Or.inl rfl⟩
    · rename_i remote source
      cases stepped
      exact ⟨idle, Or.inr ⟨remote, source, rfl⟩⟩
  · cases stepped

theorem markFirewall_some {g after : Gateway} (stepped : g.markFirewall cfg reading = some after) :
    ∃ h, g.handler = some h ∧ h.stage = .allowed ∧ h.since ≤ reading ∧ reading ≤ g.now ∧
      ((∃ id next, g.store.markFirewall h.key.remote h.key.port cfg.ttl reading = (some id, next) ∧
          after = { g with
            store := next, handler := some { h with since := g.now, stage := .marked id } }) ∨
        ∃ next, g.store.markFirewall h.key.remote h.key.port cfg.ttl reading = (none, next) ∧
          after = { g with
            store := next, handler := some { h with since := g.now, stage := .refused } }) := by
  unfold Gateway.markFirewall at stepped
  cases running : g.handler with
  | none => simp [running] at stepped
  | some h =>
    simp only [running, Option.ite_none_right_eq_some, Option.some.injEq] at stepped
    obtain ⟨⟨stage, since, past⟩, rfl⟩ := stepped
    refine ⟨h, rfl, stage, since, past, ?_⟩
    cases outcome : g.store.markFirewall h.key.remote h.key.port cfg.ttl reading with
    | mk answer next =>
      cases answer with
      | none => exact Or.inr ⟨next, rfl, rfl⟩
      | some id => exact Or.inl ⟨id, next, rfl, rfl⟩

variable {c : Callback} {g after : Gateway}

theorem revokeRefused_some (stepped : g.revokeRefused = some after) :
    ∃ h, g.handler = some h ∧ h.stage = .refused ∧
      after = { g with allowed := g.allowed.erase h.key, handler := none } := by
  unfold Gateway.revokeRefused at stepped
  cases running : g.handler with
  | none => simp [running] at stepped
  | some h =>
    simp only [running, Option.ite_none_right_eq_some, Option.some.injEq] at stepped
    exact ⟨h, rfl, stepped.1, stepped.2.symm⟩

theorem addSession_some (stepped : g.addSession cfg reading = some after) :
    ∃ h id store, g.handler = some h ∧ h.stage = .marked id ∧ h.since ≤ reading ∧
      reading ≤ g.now ∧ store.firewall = g.store.firewall ∧ after = { g with
        store := store, handler := some { h with since := g.now, stage := .recorded id } } := by
  unfold Gateway.addSession at stepped
  cases running : g.handler with
  | none => simp [running] at stepped
  | some h =>
    simp only [running] at stepped
    split at stepped
    · rename_i id stage
      simp only [Option.ite_none_right_eq_some, Option.some.injEq] at stepped
      refine ⟨h, id, _, rfl, stage, stepped.1.1, stepped.1.2, ?_, stepped.2.symm⟩
      split
      · exact KnockSessionStore.addSessionForPort_firewall ..
      · exact KnockSessionStore.addSessionForPort_firewall ..
    · cases stepped

theorem armTimer_some (stepped : g.armTimer cfg = some after) :
    ∃ h id, g.handler = some h ∧ h.stage = .recorded id ∧ after = { g with
      timers := g.timers ++ [⟨h.key, h.clientID, id, addDuration g.now cfg.ttl⟩]
      handler := none } := by
  unfold Gateway.armTimer at stepped
  cases running : g.handler with
  | none => simp [running] at stepped
  | some h =>
    simp only [running] at stepped
    split at stepped
    · rename_i id stage
      cases stepped
      exact ⟨h, id, rfl, stage, rfl⟩
    · cases stepped

/-! ## What the other steps do -/

theorem tick_some {now : Int} (stepped : g.tick now = some after) :
    g.now ≤ now ∧ after = { g with now := now } := by
  simpa [Gateway.tick, eq_comm] using stepped

theorem fire_some (timer : LeaseTimer) (g after : Gateway) (stepped : g.fire timer = some after) :
    timer.due ≤ g.now ∧ after = { g with
      timers := g.timers.erase timer
      callbacks := g.callbacks ++ [⟨timer.key, timer.clientID, timer.leaseID, g.now, .fired⟩] } := by
  simp only [Gateway.fire, Option.ite_none_right_eq_some, Option.some.injEq] at stepped
  exact ⟨stepped.1.2, stepped.2.symm⟩

theorem expireSessions_some (stepped : g.expireSessions c reading = some after) :
    c.stage = .fired ∧ c.since ≤ reading ∧ reading ≤ g.now ∧ after = { g with
      store := (g.store.expire c.key.remote c.clientID reading).2
      callbacks := g.callbacks.erase c ++ [{ c with since := g.now, stage := .expiring }] } := by
  simp only [Gateway.expireSessions, Option.ite_none_right_eq_some, Option.some.injEq] at stepped
  obtain ⟨⟨_, stage, since, past⟩, rfl⟩ := stepped
  exact ⟨stage, since, past, rfl⟩

theorem expireFirewall_some (stepped : g.expireFirewall c reading = some after) :
    c.stage = .expiring ∧ c.since ≤ reading ∧ reading ≤ g.now ∧
      ((∃ next, g.store.expireFirewall c.key.remote c.key.port c.leaseID reading = (true, next) ∧
          after = { g with
            store := next
            callbacks := g.callbacks.erase c ++ [{ c with since := g.now, stage := .revoking }] }) ∨
        ∃ next, g.store.expireFirewall c.key.remote c.key.port c.leaseID reading = (false, next) ∧
          after = { g with store := next, callbacks := g.callbacks.erase c ++ [] }) := by
  simp only [Gateway.expireFirewall, Option.ite_none_right_eq_some, Option.some.injEq] at stepped
  obtain ⟨⟨_, stage, since, past⟩, rfl⟩ := stepped
  refine ⟨stage, since, past, ?_⟩
  cases outcome : g.store.expireFirewall c.key.remote c.key.port c.leaseID reading with
  | mk expired next =>
    cases expired with
    | true => exact Or.inl ⟨next, rfl, rfl⟩
    | false => exact Or.inr ⟨next, rfl, rfl⟩

theorem revokeExpired_some (stepped : g.revokeExpired c = some after) :
    c ∈ g.callbacks ∧ c.stage = .revoking ∧
      after = { g with allowed := g.allowed.erase c.key, callbacks := g.callbacks.erase c } := by
  simp only [Gateway.revokeExpired, Option.ite_none_right_eq_some, Option.some.injEq] at stepped
  exact ⟨stepped.1.1, stepped.1.2, stepped.2.symm⟩

theorem accept_some {peer : PeerInfo} {remote : NetAddr}
    (stepped : g.accept cfg peer remote = some after) :
    after = { g with store := (g.store.checkAndConsume peer remote g.now).2 } := by
  simp only [Gateway.accept, Option.ite_none_right_eq_some, Option.some.injEq] at stepped
  exact stepped.2.symm

theorem removeSession_some (stepped : g.removeSession r = some after) :
    r ∈ g.removals ∧ r.stage = .session ∧ after = { g with
      store := (g.store.removeForPort r.addr r.clientID r.port).2
      removals := g.removals.erase r ++ [{ r with stage := .lease }] } := by
  simp only [Gateway.removeSession, Option.ite_none_right_eq_some, Option.some.injEq] at stepped
  exact ⟨stepped.1.1, stepped.1.2, stepped.2.symm⟩

theorem removeLease_some (stepped : g.removeLease cfg r = some after) :
    r ∈ g.removals ∧ after = { g with
      store := (g.store.removeFirewall (r.key cfg).remote (r.key cfg).port).2
      removals := g.removals.erase r ++ [{ r with stage := .rule }] } := by
  simp only [Gateway.removeLease, Option.ite_none_right_eq_some, Option.some.injEq] at stepped
  exact ⟨stepped.1.1, stepped.2.symm⟩

theorem revokeRemoved_some (stepped : g.revokeRemoved cfg r = some after) :
    r ∈ g.removals ∧ after = { g with
      allowed := g.allowed.erase (r.key cfg), removals := g.removals.erase r } := by
  simp only [Gateway.revokeRemoved, Option.ite_none_right_eq_some, Option.some.injEq] at stepped
  exact ⟨stepped.1.1, stepped.2.symm⟩

theorem authenticate_some {peer : PeerInfo} {remote localAddr : NetAddr} {completes : Bool}
    (stepped : g.authenticate cfg peer remote localAddr completes = some after) :
    ∃ started, after = { g with
        store := (g.store.checkAndConsume peer remote g.now).2, removals := g.removals ++ started } ∧
      (cfg.removeAfterAuth = false → started = []) ∧ ∀ r ∈ started, r.stage = .session := by
  simp only [Gateway.authenticate, Option.ite_none_right_eq_some, Option.some.injEq] at stepped
  refine ⟨_, stepped.2.symm, ?_, ?_⟩
  · intro kept
    cases addrFromNet remote with
    | none => rfl
    | some addr => simp [kept]
  · intro r member
    split at member
    · split at member
      · rw [List.mem_singleton.mp member]
        rfl
      · cases member
    · cases member

end Steps

end Libknock.Relay
