import Libknock.Foundation.Runs
import Libknock.Gatewaycore.Resources

/-!
# The life of a gate

`gate/gate.go` as a transition system: one call of `Wrap`, the body of `Close`,
which `closeOnce` runs once and every caller of `Close` waits for, the goroutine
that waits for the knock context, the goroutine that serves the knock listener
and runs its handler, and the lease timers.
-/

set_option autoImplicit false

namespace Libknock.Gates

open Gatewaycore

inductive Mode where
  | authOnly
  | knockAuthOnly
  | knockFirewallAuth
  | knockFirewallOnly
  deriving DecidableEq

def Mode.requiresFirewallCleanup : Mode → Bool
  | .knockFirewallAuth | .knockFirewallOnly => true
  | _ => false

inductive WrapResult where
  | ok
  | closed
  | started
  | failed
  deriving DecidableEq

inductive WrapPhase where
  | idle
  | configuring
  | initializing
  | opening
  | cleaning
  | publishing
  | counting
  | wrapping
  | closing
  | returned (result : WrapResult)
  deriving DecidableEq

/-- The body of `Close`, with whether it read a cancel function. -/
inductive ClosePhase where
  | idle
  | captured (cancel : Bool)
  | cancelled (cancel : Bool)
  | stopping (cancel : Bool)
  | stopped (cancel : Bool)
  | waited (cancel : Bool)
  | finished (cancel : Bool)
  deriving DecidableEq

def ClosePhase.returned : ClosePhase → Bool
  | .finished _ => true
  | _ => false

/-- The goroutine that waits for the knock context. -/
inductive WatchPhase where
  | absent
  | waiting
  | cleaned
  | knockClosed
  | ended
  deriving DecidableEq

/-- The goroutine of `listener.Serve`. -/
inductive ServePhase where
  | absent
  | serving
  | allowed
  | refused
  | granted
  | ended
  deriving DecidableEq

inductive Socket where
  | unopened
  | listening
  | closed
  deriving DecidableEq

/-- `ctxDone` is the state of the knock context and, before there is one, of the
context given to `Wrap`; `firewall` has the operations that took effect, newest
first. -/
structure Gate where
  started : Bool
  closed : Bool
  /-- `g.cancel` is set. -/
  published : Bool
  wrap : WrapPhase
  closer : ClosePhase
  ctxDone : Bool
  knockListener : Socket
  lnClosed : Bool
  watch : WatchPhase
  serve : ServePhase
  wg : Int
  timers : TimerSet
  firewall : List FirewallOp

inductive GateAction where
  | cancelParent
  | beginLifecycle
  | configure (ok : Bool)
  | initFirewall (ok : Bool)
  | openKnockListener (ok : Bool)
  | cleanupFailed
  | publish
  | spawn
  | wrapListener (ok : Bool)
  | wrapClosed
  | watchDone
  | closeKnock
  | closeLn
  | allow (ok : Bool)
  | markFirewall (ok : Bool)
  | revokeRefused (revoked : Bool)
  | session
  | armTimer
  | serveCloses
  | serveReturn (failed : Bool)
  | fire
  | callback (revoked : Bool)
  | closeBegin
  | closeCancel
  | closeStop
  | closeStopped
  | closeWait
  | closeCleanup

namespace Gate

def new : Gate where
  started := false
  closed := false
  published := false
  wrap := .idle
  closer := .idle
  ctxDone := false
  knockListener := .unopened
  lnClosed := false
  watch := .absent
  serve := .absent
  wg := 0
  timers := TimerSet.new
  firewall := []

def record (op : FirewallOp) (tookEffect : Bool) (g : Gate) : Gate :=
  { g with firewall := if tookEffect then op :: g.firewall else g.firewall }

/-! ## `Wrap` -/

def beginLifecycleStep (g : Gate) : Option Gate :=
  if g.wrap = .idle then
    some
      (if g.closed then { g with wrap := .returned .closed }
      else if g.started then { g with wrap := .returned .started }
      else { g with started := true, wrap := .configuring })
  else none

/-- `Wrap` closes the listener it was given and returns an error. -/
def failWrap (g : Gate) : Gate := { g with wrap := .returned .failed, lnClosed := true }

/-- `configureFirewallPort` and `ValidateDropUDPKnockPort`. -/
def configureStep (mode : Mode) (ok : Bool) (g : Gate) : Option Gate :=
  if g.wrap = .configuring then
    some
      (if ok then
        match mode with
        | .authOnly => { g with wrap := .wrapping }
        | .knockAuthOnly => { g with wrap := .opening }
        | .knockFirewallAuth | .knockFirewallOnly => { g with wrap := .initializing }
      else g.failWrap)
  else none

def initFirewallStep (ok : Bool) (g : Gate) : Option Gate :=
  if g.wrap = .initializing then
    some (({ g with wrap := if ok then .opening else .cleaning } : Gate).record .init ok)
  else none

def openKnockListenerStep (mode : Mode) (ok : Bool) (g : Gate) : Option Gate :=
  if g.wrap = .opening then
    some
      (if ok then { g with wrap := .publishing, knockListener := .listening }
      else if mode.requiresFirewallCleanup then { g with wrap := .cleaning }
      else g.failWrap)
  else none

def cleanupFailedStep (g : Gate) : Option Gate :=
  if g.wrap = .cleaning then some (g.failWrap.record .cleanup true) else none

def publishStep (g : Gate) : Option Gate :=
  if g.wrap = .publishing then some { g with wrap := .counting, published := true } else none

/-- `g.wg.Add(2)` and the two goroutines. -/
def spawnStep (mode : Mode) (g : Gate) : Option Gate :=
  if g.wrap = .counting then
    some
      { g with
        wrap := if mode = .knockFirewallOnly then .returned .ok else .wrapping
        watch := .waiting
        serve := .serving
        wg := g.wg + 2 }
  else none

/-- `WrapListenerWithConfigE`; when it fails in a knock mode, `Wrap` calls `Close`. -/
def wrapListenerStep (mode : Mode) (ok : Bool) (g : Gate) : Option Gate :=
  if g.wrap = .wrapping then
    some
      (if ok then { g with wrap := .returned .ok }
      else if mode = .authOnly then g.failWrap
      else { g with wrap := .closing })
  else none

def wrapClosedStep (g : Gate) : Option Gate :=
  if g.wrap = .closing ∧ g.closer.returned then some g.failWrap else none

/-! ## The goroutines -/

def watchDoneStep (mode : Mode) (g : Gate) : Option Gate :=
  if g.watch = .waiting ∧ g.ctxDone then
    some (({ g with watch := .cleaned } : Gate).record .cleanup mode.requiresFirewallCleanup)
  else none

def closeKnockStep (g : Gate) : Option Gate :=
  if g.watch = .cleaned then some { g with watch := .knockClosed, knockListener := .closed }
  else none

def closeLnStep (g : Gate) : Option Gate :=
  if g.watch = .knockClosed then some { g with watch := .ended, lnClosed := true, wg := g.wg - 1 }
  else none

/-- `knockHandler` up to the answer of the backend. -/
def allowStep (mode : Mode) (ok : Bool) (g : Gate) : Option Gate :=
  if g.serve = .serving ∧ mode.requiresFirewallCleanup then
    some (({ g with serve := if ok then .allowed else .serving } : Gate).record .allow ok)
  else none

def markFirewallStep (ok : Bool) (g : Gate) : Option Gate :=
  if g.serve = .allowed then some { g with serve := if ok then .granted else .refused } else none

def revokeRefusedStep (manualRevoke revoked : Bool) (g : Gate) : Option Gate :=
  if g.serve = .refused then
    some (({ g with serve := .serving } : Gate).record .revoke (manualRevoke && revoked))
  else none

/-- `knockSessionOnlyHandler` up to its timer. -/
def sessionStep (mode : Mode) (g : Gate) : Option Gate :=
  if g.serve = .serving ∧ mode = .knockAuthOnly then some { g with serve := .granted } else none

def armTimerStep (g : Gate) : Option Gate :=
  if g.serve = .granted then some { g with serve := .serving, timers := g.timers.afterFunc }
  else none

/-- `Serve` itself closes the listener when its context is done. -/
def serveClosesStep (g : Gate) : Option Gate :=
  if g.serve ≠ .absent ∧ g.ctxDone then some { g with knockListener := .closed } else none

def serveReturnStep (failed : Bool) (g : Gate) : Option Gate :=
  if g.serve = .serving then
    some
      { g with
        serve := .ended
        knockListener := .closed
        lnClosed := g.lnClosed || failed && !g.ctxDone
        wg := g.wg - 1 }
  else none

def fireStep (g : Gate) : Option Gate := do
  let timers ← g.timers.fire
  some { g with timers }

/-- The backend is called in the firewall modes only. -/
def callbackStep (revokes revoked : Bool) (g : Gate) : Option Gate := do
  let timers ← g.timers.callbackDone
  some (({ g with timers } : Gate).record .revoke (revokes && revoked))

/-! ## `Close` -/

def closeBeginStep (g : Gate) : Option Gate :=
  if g.closer = .idle then some { g with closed := true, closer := .captured g.published } else none

def closeCancelStep (g : Gate) : Option Gate :=
  match g.closer with
  | .captured cancel => some { g with ctxDone := g.ctxDone || cancel, closer := .cancelled cancel }
  | _ => none

def closeStopStep (g : Gate) : Option Gate :=
  match g.closer with
  | .cancelled cancel => some { g with timers := g.timers.stop, closer := .stopping cancel }
  | _ => none

def closeStoppedStep (g : Gate) : Option Gate :=
  match g.closer with
  | .stopping cancel => if g.timers.Idle then some { g with closer := .stopped cancel } else none
  | _ => none

def closeWaitStep (g : Gate) : Option Gate :=
  match g.closer with
  | .stopped cancel => if g.wg = 0 then some { g with closer := .waited cancel } else none
  | _ => none

def closeCleanupStep (mode : Mode) (g : Gate) : Option Gate :=
  match g.closer with
  | .waited cancel =>
    some (({ g with closer := .finished cancel } : Gate).record .cleanup
      (mode.requiresFirewallCleanup && !cancel))
  | _ => none

/-- `manualRevoke` is `ShouldManualRevoke` of the backend. -/
def step (mode : Mode) (manualRevoke : Bool) (g : Gate) : GateAction → Option Gate
  | .cancelParent => some { g with ctxDone := true }
  | .beginLifecycle => g.beginLifecycleStep
  | .configure ok => g.configureStep mode ok
  | .initFirewall ok => g.initFirewallStep ok
  | .openKnockListener ok => g.openKnockListenerStep mode ok
  | .cleanupFailed => g.cleanupFailedStep
  | .publish => g.publishStep
  | .spawn => g.spawnStep mode
  | .wrapListener ok => g.wrapListenerStep mode ok
  | .wrapClosed => g.wrapClosedStep
  | .watchDone => g.watchDoneStep mode
  | .closeKnock => g.closeKnockStep
  | .closeLn => g.closeLnStep
  | .allow ok => g.allowStep mode ok
  | .markFirewall ok => g.markFirewallStep ok
  | .revokeRefused revoked => g.revokeRefusedStep manualRevoke revoked
  | .session => g.sessionStep mode
  | .armTimer => g.armTimerStep
  | .serveCloses => g.serveClosesStep
  | .serveReturn failed => g.serveReturnStep failed
  | .fire => g.fireStep
  | .callback revoked => g.callbackStep (mode.requiresFirewallCleanup && manualRevoke) revoked
  | .closeBegin => g.closeBeginStep
  | .closeCancel => g.closeCancelStep
  | .closeStop => g.closeStopStep
  | .closeStopped => g.closeStoppedStep
  | .closeWait => g.closeWaitStep
  | .closeCleanup => g.closeCleanupStep mode

end Gate

end Libknock.Gates
