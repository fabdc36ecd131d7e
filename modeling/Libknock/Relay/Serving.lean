import Libknock.Foundation.Runs
import Libknock.Gatewaycore.Resources
import Libknock.Netx.Limiter

/-!
# The relay gateway as it serves

`Gateway.run` of `relay/gateway.go` from the point where its setup has
succeeded, as a transition system: the accept loop with its deferred calls, the
auth workers, the relay goroutines, the knock listener, the goroutine that waits
for the context, and the lease timers.  A connection is named by its place in
the order of arrival, and its record says how far the goroutine that has it has
come with it.
-/

set_option autoImplicit false

namespace Libknock.Relay

open Foundation Gatewaycore
open Netx (Limiter)

structure ServeConfig where
  maxPendingAuth : Int
  maxPendingAuthPerSource : Int
  maxAuthWorkers : Int
  /-- `KnockMethod` is not empty. -/
  knocks : Bool
  removeAfterAuth : Bool
  /-- `ShouldManualRevoke` of the backend. -/
  manualRevoke : Bool

namespace ServeConfig

def pendingAuth (cfg : ServeConfig) : Nat :=
  if 0 < cfg.maxPendingAuth then cfg.maxPendingAuth.toNat else 128

def authWorkers (cfg : ServeConfig) : Nat :=
  if 0 < cfg.maxAuthWorkers then cfg.maxAuthWorkers.toNat else 32

end ServeConfig

inductive ConnStage (workers : Nat) where
  | acquiring
  | adding
  | offering
  | dropping
  | dropped
  | queued
  | authenticating (worker : Fin workers)
  | removing (worker : Fin workers)
  | authenticated (worker : Fin workers) (ok : Bool)
  | released (worker : Fin workers) (ok : Bool)
  | relaying
  | relayed
  | gone
  deriving DecidableEq

structure ServedConn (Key : Type) (workers : Nat) where
  source : Option Key
  stage : ConnStage workers
  closed : Bool
  /-- A member of `activeConnections`. -/
  active : Bool
  acquired : Bool
  /-- Calls of the release function of its slot. -/
  releases : Nat

/-- `run` itself: the accept loop, and from `returning` on its deferred calls. -/
inductive RunPhase where
  | accepting
  | sleeping
  | handling (conn : Nat)
  | leaving (conn : Nat)
  | returning
  | cancelled
  | pendingClosed
  | waited
  | cleaned
  | stopping
  | stopped
  | returned
  deriving DecidableEq

inductive RunResult where
  | ok
  | child
  | accept
  deriving DecidableEq

inductive WorkerState where
  | waiting
  | busy (conn : Nat)
  | ended
  deriving DecidableEq

/-- The goroutine of the knock listener, in whose handler the knocks are. -/
inductive KnockPhase where
  | listening
  | allowed
  | refused
  | marked
  | failing
  | failed
  | ended
  deriving DecidableEq

/-- The goroutine that waits for the context; `closing` is the loop of
`CloseAll` over the connections it has read. -/
inductive WatchPhase where
  | waiting
  | fired
  | closing (conns : List Nat)
  | ended
  deriving DecidableEq

/-- `workers` is the number of auth workers; `firewall` has the operations that
took effect, newest first. -/
structure Serving (Key : Type) (workers : Nat) where
  perSource : Limiter Key
  conns : Nat → ServedConn Key workers
  count : Nat
  phase : RunPhase
  result : RunResult
  childErr : Bool
  pending : List Nat
  worker : Fin workers → WorkerState
  activeClosed : Bool
  ctxDone : Bool
  lnClosed : Bool
  knock : KnockPhase
  watch : WatchPhase
  wg : Int
  timers : TimerSet
  firewall : List FirewallOp

inductive ServeAction (Key : Type) (workers : Nat) where
  | cancel
  | accept (source : Option Key)
  | acceptError (temporary : Bool)
  | wake
  | sleepAborted
  | acquire
  | add
  | enqueue
  | offerDone
  | offerFull
  | dropRemove
  | dropClose
  | take (i : Fin workers)
  | drained (i : Fin workers)
  | authenticate (conn : Nat) (ok : Bool)
  | removeAccess (conn : Nat) (revoked : Bool)
  | release (conn : Nat)
  | finish (conn : Nat)
  | relayReturn (conn : Nat)
  | relayRemove (conn : Nat)
  | allow (ok : Bool)
  | mark (ok : Bool)
  | revokeRefused (revoked : Bool)
  | armTimer
  | listenReturn (failed : Bool)
  | knockCancel
  | knockCloseListener
  | watchDone
  | closeAll
  | closeNext
  | fire
  | callback (revoked : Bool)
  | deferCancel
  | closePending
  | waitGroup
  | cleanup
  | stopAll
  | waitCallbacks
  | closeListener

def RunPhase.conn : RunPhase → Option Nat
  | .handling conn | .leaving conn => some conn
  | _ => none

namespace Serving

variable {Key : Type} {workers : Nat}

/-- `run` after its setup: the goroutines are started and counted. -/
def start (cfg : ServeConfig) : Serving Key workers where
  perSource := Limiter.new cfg.maxPendingAuthPerSource
  conns := fun _ => ⟨none, .gone, false, false, false, 0⟩
  count := 0
  phase := .accepting
  result := .ok
  childErr := false
  pending := []
  worker := fun _ => .waiting
  activeClosed := false
  ctxDone := false
  lnClosed := false
  knock := if cfg.knocks then .listening else .ended
  watch := .waiting
  wg := (if cfg.knocks then 1 else 0) + 1 + workers
  timers := TimerSet.new
  firewall := [.init]

def setConn (conn : Nat) (record : ServedConn Key workers) (g : Serving Key workers) :
    Serving Key workers :=
  { g with conns := Function.update g.conns conn record }

def setWorker (i : Fin workers) (state : WorkerState) (g : Serving Key workers) :
    Serving Key workers :=
  { g with worker := Function.update g.worker i state }

def record (op : FirewallOp) (tookEffect : Bool) (g : Serving Key workers) : Serving Key workers :=
  { g with firewall := if tookEffect then op :: g.firewall else g.firewall }

def holds (stage : ConnStage workers) (g : Serving Key workers) : Option Nat :=
  g.phase.conn.filter fun conn => (g.conns conn).stage = stage

/-- `return` of the child's error, or of the one given. -/
def leave (result : RunResult) (g : Serving Key workers) : Serving Key workers :=
  { g with phase := .returning, result := if g.childErr then .child else result }

/-! ## The accept loop -/

def acceptStep (source : Option Key) (g : Serving Key workers) : Option (Serving Key workers) :=
  if g.phase = .accepting ∧ g.lnClosed = false then
    some
      { g.setConn g.count ⟨source, .acquiring, false, false, false, 0⟩ with
        count := g.count + 1
        phase := .handling g.count }
  else none

/-- `Accept` may fail at any time; a closed listener's error is not temporary. -/
def acceptErrorStep (temporary : Bool) (g : Serving Key workers) : Option (Serving Key workers) :=
  if g.phase = .accepting ∧ (temporary = true → g.lnClosed = false) then
    some
      (if g.childErr || g.ctxDone then g.leave .ok
      else if temporary then { g with phase := .sleeping }
      else g.leave .accept)
  else none

def wakeStep (g : Serving Key workers) : Option (Serving Key workers) :=
  if g.phase = .sleeping then some { g with phase := .accepting } else none

def sleepAbortedStep (g : Serving Key workers) : Option (Serving Key workers) :=
  if g.phase = .sleeping ∧ g.ctxDone then some (g.leave .ok) else none

def acquireStep [DecidableEq Key] (g : Serving Key workers) : Option (Serving Key workers) := do
  let conn ← g.holds .acquiring
  match g.perSource.acquire (g.conns conn).source with
  | none =>
    some { g.setConn conn { g.conns conn with closed := true, stage := .gone } with
      phase := .accepting }
  | some perSource =>
    some { g.setConn conn { g.conns conn with acquired := true, stage := .adding } with perSource }

/-- `active.Add` closes the connection instead once `CloseAll` has run. -/
def addStep (g : Serving Key workers) : Option (Serving Key workers) := do
  let conn ← g.holds .adding
  let record := g.conns conn
  some (g.setConn conn
    { record with
      stage := .offering
      closed := record.closed || g.activeClosed
      active := record.active || !g.activeClosed })

/-- The send to `pending`; with a cancelled context the select may still choose it. -/
def enqueueStep (maxPending : Nat) (g : Serving Key workers) : Option (Serving Key workers) := do
  let conn ← g.holds .offering
  if g.pending.length < maxPending then
    some { g.setConn conn { g.conns conn with stage := .queued } with
      pending := g.pending ++ [conn]
      phase := .accepting }
  else none

section Slots

variable [DecidableEq Key]

/-- The release function of a connection's slot is called. -/
def releaseSlot (conn : Nat) (stage : ConnStage workers) (g : Serving Key workers) :
    Serving Key workers :=
  { g.setConn conn { g.conns conn with releases := (g.conns conn).releases + 1, stage } with
    perSource := g.perSource.release (g.conns conn).source }

def offerDoneStep (g : Serving Key workers) : Option (Serving Key workers) := do
  let conn ← g.holds .offering
  if g.ctxDone then some { g.releaseSlot conn .dropping with phase := .leaving conn } else none

/-- The default of the select: neither case is ready. -/
def offerFullStep (maxPending : Nat) (g : Serving Key workers) : Option (Serving Key workers) := do
  let conn ← g.holds .offering
  if maxPending ≤ g.pending.length ∧ g.ctxDone = false then some (g.releaseSlot conn .dropping)
  else none

end Slots

def dropRemoveStep (g : Serving Key workers) : Option (Serving Key workers) := do
  let conn ← g.holds .dropping
  some (g.setConn conn { g.conns conn with active := false, stage := .dropped })

def dropCloseStep (g : Serving Key workers) : Option (Serving Key workers) := do
  let conn ← g.holds .dropped
  let next := g.setConn conn { g.conns conn with closed := true, stage := .gone }
  some (if g.phase = .leaving conn then next.leave .ok else { next with phase := .accepting })

/-! ## The workers and the relay goroutines -/

def takeStep (i : Fin workers) (g : Serving Key workers) : Option (Serving Key workers) :=
  match g.pending with
  | [] => none
  | conn :: rest =>
    if g.worker i = .waiting then
      some
        { (g.setConn conn { g.conns conn with stage := .authenticating i }).setWorker i
            (.busy conn) with
          pending := rest }
    else none

/-- The range over a closed and empty `pending` ends. -/
def drainedStep (i : Fin workers) (closed : Bool) (g : Serving Key workers) :
    Option (Serving Key workers) :=
  if g.worker i = .waiting ∧ g.pending = [] ∧ closed then
    some { g.setWorker i .ended with wg := g.wg - 1 }
  else none

def authenticateStep (removeAfterAuth : Bool) (conn : Nat) (ok : Bool) (g : Serving Key workers) :
    Option (Serving Key workers) :=
  match (g.conns conn).stage with
  | .authenticating i =>
    some (g.setConn conn
      { g.conns conn with
        closed := (g.conns conn).closed || !ok
        stage := if ok && removeAfterAuth then .removing i else .authenticated i ok })
  | _ => none

/-- `removeKnockAccess`, of which only the revocation is seen here. -/
def removeAccessStep (conn : Nat) (revoked : Bool) (g : Serving Key workers) :
    Option (Serving Key workers) :=
  match (g.conns conn).stage with
  | .removing i =>
    some ((g.setConn conn { g.conns conn with stage := .authenticated i true }).record .revoke
      revoked)
  | _ => none

def releaseStep [DecidableEq Key] (conn : Nat) (g : Serving Key workers) :
    Option (Serving Key workers) :=
  match (g.conns conn).stage with
  | .authenticated i ok => some (g.releaseSlot conn (.released i ok))
  | _ => none

/-- What the worker does after the release: without a session it forgets the
connection, with one it starts the relay goroutine. -/
def finishStep (conn : Nat) (g : Serving Key workers) : Option (Serving Key workers) :=
  match (g.conns conn).stage with
  | .released i false =>
    some ((g.setConn conn { g.conns conn with active := false, stage := .gone }).setWorker i
      .waiting)
  | .released i true =>
    some { (g.setConn conn { g.conns conn with stage := .relaying }).setWorker i .waiting with
      wg := g.wg + 1 }
  | _ => none

/-- `relaySession` returns, its deferred calls run. -/
def relayReturnStep (conn : Nat) (g : Serving Key workers) : Option (Serving Key workers) :=
  if (g.conns conn).stage = .relaying then
    some (g.setConn conn { g.conns conn with closed := true, stage := .relayed })
  else none

def relayRemoveStep (conn : Nat) (g : Serving Key workers) : Option (Serving Key workers) :=
  if (g.conns conn).stage = .relayed then
    some { g.setConn conn { g.conns conn with active := false, stage := .gone } with
      wg := g.wg - 1 }
  else none

/-! ## The knock listener -/

def allowStep (ok : Bool) (g : Serving Key workers) : Option (Serving Key workers) :=
  if g.knock = .listening then
    some (({ g with knock := if ok then .allowed else .listening } : Serving Key workers).record
      .allow ok)
  else none

def markStep (ok : Bool) (g : Serving Key workers) : Option (Serving Key workers) :=
  if g.knock = .allowed then some { g with knock := if ok then .marked else .refused } else none

def revokeRefusedStep (manualRevoke revoked : Bool) (g : Serving Key workers) :
    Option (Serving Key workers) :=
  if g.knock = .refused then
    some (({ g with knock := .listening } : Serving Key workers).record .revoke
      (manualRevoke && revoked))
  else none

def armTimerStep (g : Serving Key workers) : Option (Serving Key workers) :=
  if g.knock = .marked then some { g with knock := .listening, timers := g.timers.afterFunc } else none

def endKnock (g : Serving Key workers) : Serving Key workers :=
  { g with knock := .ended, wg := g.wg - 1 }

/-- `listenKnock` returns, with an error or without one. -/
def listenReturnStep (failed : Bool) (g : Serving Key workers) : Option (Serving Key workers) :=
  if g.knock = .listening then
    some (if failed && !g.ctxDone then { g with knock := .failing, childErr := true }
      else g.endKnock)
  else none

def knockCancelStep (g : Serving Key workers) : Option (Serving Key workers) :=
  if g.knock = .failing then some { g with knock := .failed, ctxDone := true } else none

def knockCloseListenerStep (g : Serving Key workers) : Option (Serving Key workers) :=
  if g.knock = .failed then some { g.endKnock with lnClosed := true } else none

/-! ## The goroutine that waits for the context -/

def watchDoneStep (g : Serving Key workers) : Option (Serving Key workers) :=
  if g.watch = .waiting ∧ g.ctxDone then some { g with watch := .fired, lnClosed := true } else none

/-- The locked part of `CloseAll`. -/
def closeAllStep (g : Serving Key workers) : Option (Serving Key workers) :=
  if g.watch = .fired then
    some
      { g with
        watch := .closing ((List.range g.count).filter fun conn => (g.conns conn).active)
        activeClosed := true }
  else none

def closeNextStep (g : Serving Key workers) : Option (Serving Key workers) :=
  match g.watch with
  | .closing (conn :: rest) =>
    some { g.setConn conn { g.conns conn with closed := true } with watch := .closing rest }
  | .closing [] => some { g with watch := .ended, wg := g.wg - 1 }
  | _ => none

/-! ## The lease timers -/

def fireStep (g : Serving Key workers) : Option (Serving Key workers) := do
  let timers ← g.timers.fire
  some { g with timers }

def callbackStep (manualRevoke revoked : Bool) (g : Serving Key workers) :
    Option (Serving Key workers) := do
  let timers ← g.timers.callbackDone
  some (({ g with timers } : Serving Key workers).record .revoke (manualRevoke && revoked))

/-! ## The deferred calls, last deferred first -/

def deferCancelStep (g : Serving Key workers) : Option (Serving Key workers) :=
  if g.phase = .returning then some { g with phase := .cancelled, ctxDone := true } else none

def closePendingStep (g : Serving Key workers) : Option (Serving Key workers) :=
  if g.phase = .cancelled then some { g with phase := .pendingClosed } else none

def waitGroupStep (g : Serving Key workers) : Option (Serving Key workers) :=
  if g.phase = .pendingClosed ∧ g.wg = 0 then some { g with phase := .waited } else none

def cleanupStep (g : Serving Key workers) : Option (Serving Key workers) :=
  if g.phase = .waited then
    some (({ g with phase := .cleaned } : Serving Key workers).record .cleanup true)
  else none

def stopAllStep (g : Serving Key workers) : Option (Serving Key workers) :=
  if g.phase = .cleaned then some { g with phase := .stopping, timers := g.timers.stop } else none

def waitCallbacksStep (g : Serving Key workers) : Option (Serving Key workers) :=
  if g.phase = .stopping ∧ g.timers.Idle then some { g with phase := .stopped } else none

def closeListenerStep (g : Serving Key workers) : Option (Serving Key workers) :=
  if g.phase = .stopped then some { g with phase := .returned, lnClosed := true } else none

def pendingIsClosed (g : Serving Key workers) : Bool :=
  match g.phase with
  | .pendingClosed | .waited | .cleaned | .stopping | .stopped | .returned => true
  | _ => false

def step [DecidableEq Key] (cfg : ServeConfig) (g : Serving Key workers) :
    ServeAction Key workers → Option (Serving Key workers)
  | .cancel => some { g with ctxDone := true }
  | .accept source => g.acceptStep source
  | .acceptError temporary => g.acceptErrorStep temporary
  | .wake => g.wakeStep
  | .sleepAborted => g.sleepAbortedStep
  | .acquire => g.acquireStep
  | .add => g.addStep
  | .enqueue => g.enqueueStep cfg.pendingAuth
  | .offerDone => g.offerDoneStep
  | .offerFull => g.offerFullStep cfg.pendingAuth
  | .dropRemove => g.dropRemoveStep
  | .dropClose => g.dropCloseStep
  | .take i => g.takeStep i
  | .drained i => g.drainedStep i g.pendingIsClosed
  | .authenticate conn ok => g.authenticateStep cfg.removeAfterAuth conn ok
  | .removeAccess conn revoked => g.removeAccessStep conn revoked
  | .release conn => g.releaseStep conn
  | .finish conn => g.finishStep conn
  | .relayReturn conn => g.relayReturnStep conn
  | .relayRemove conn => g.relayRemoveStep conn
  | .allow ok => g.allowStep ok
  | .mark ok => g.markStep ok
  | .revokeRefused revoked => g.revokeRefusedStep cfg.manualRevoke revoked
  | .armTimer => g.armTimerStep
  | .listenReturn failed => g.listenReturnStep failed
  | .knockCancel => g.knockCancelStep
  | .knockCloseListener => g.knockCloseListenerStep
  | .watchDone => g.watchDoneStep
  | .closeAll => g.closeAllStep
  | .closeNext => g.closeNextStep
  | .fire => g.fireStep
  | .callback revoked => g.callbackStep cfg.manualRevoke revoked
  | .deferCancel => g.deferCancelStep
  | .closePending => g.closePendingStep
  | .waitGroup => g.waitGroupStep
  | .cleanup => g.cleanupStep
  | .stopAll => g.stopAllStep
  | .waitCallbacks => g.waitCallbacksStep
  | .closeListener => g.closeListenerStep

end Serving

end Libknock.Relay
