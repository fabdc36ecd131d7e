import Libknock.Foundation.Runs
import Libknock.Netx.Limiter

/-!
# The authenticated listener

`netx/listener.go` as a transition system: the accept loop, the auth workers,
the callers of `Accept` and `Close`, over the queue of pending connections, the
set of connections in flight and the `done` signal.  A connection is named by
its place in the order of arrival.  What touches nothing shared is taken
together with the step before it.
-/

set_option autoImplicit false

namespace Libknock.Netx

open Foundation

/-- What has become of a connection that the underlying listener returned. -/
structure Accepted (Key : Type) where
  source : Option Key
  closed : Bool
  handed : Bool
  acquired : Bool
  released : Bool

inductive LoopPhase where
  | accepting
  | sleeping
  | acquiring (conn : Nat)
  | offering (conn : Nat)
  | failing
  | returning
  | ended
  deriving DecidableEq

inductive WorkerPhase where
  | waiting
  | tracking (conn : Nat)
  | authenticating (conn : Nat)
  | untracking (conn : Nat) (clean : Bool)
  | releasing (conn : Nat) (clean : Bool)
  | handing (conn : Nat)
  | ended
  deriving DecidableEq

/-- The body of `Close`, which `closeOnce` runs once. -/
inductive ClosePhase where
  | idle
  | cancelled
  | signalled
  | listenerClosed
  | finished
  deriving DecidableEq

/-- `workers` is the number of auth workers. -/
structure AuthListener (Key : Type) (workers : Nat) where
  maxPending : Nat
  perSource : Limiter Key
  conns : Nat → Accepted Key
  count : Nat
  loop : LoopPhase
  pending : List Nat
  worker : Fin workers → WorkerPhase
  inFlight : List Nat
  /-- Calls of `Accept` that wait. -/
  callers : Nat
  done : Bool
  listenerClosed : Bool
  closer : ClosePhase

inductive ListenerAction (Key : Type) (workers : Nat) where
  | callAccept
  | accept (source : Option Key)
  | acceptTemporary
  | wake
  | sleepAborted
  | acceptFatal
  | failed
  | acquire
  | enqueue
  | offerDone
  | offerFull
  | loopReturn
  | take (i : Fin workers)
  | drained (i : Fin workers)
  | track (i : Fin workers)
  | authenticate (i : Fin workers) (clean : Bool)
  | untrack (i : Fin workers)
  | releaseSource (i : Fin workers)
  | handOut (i : Fin workers)
  | abandon (i : Fin workers)
  | closeBegin
  | closeDone
  | closeListener
  | closeInFlight

namespace AuthListener

variable {Key : Type} {workers : Nat}

def start (maxPending : Nat) (maxPerSource : Int) : AuthListener Key workers where
  maxPending
  perSource := Limiter.new maxPerSource
  conns := fun _ => ⟨none, false, false, false, false⟩
  count := 0
  loop := .accepting
  pending := []
  worker := fun _ => .waiting
  inFlight := []
  callers := 0
  done := false
  listenerClosed := false
  closer := .idle

def setConn (conn : Nat) (record : Accepted Key) (l : AuthListener Key workers) :
    AuthListener Key workers :=
  { l with conns := Function.update l.conns conn record }

def setWorker (i : Fin workers) (phase : WorkerPhase) (l : AuthListener Key workers) :
    AuthListener Key workers :=
  { l with worker := Function.update l.worker i phase }

def closeConn (conn : Nat) (l : AuthListener Key workers) : AuthListener Key workers :=
  l.setConn conn { l.conns conn with closed := true }

section Slots

variable [DecidableEq Key]

/-- `releaseSource`, for a connection whose release function is registered. -/
def release (conn : Nat) (l : AuthListener Key workers) : AuthListener Key workers :=
  { l.setConn conn { l.conns conn with released := true } with
    perSource := l.perSource.release (l.conns conn).source }

end Slots

/-! ## The accept loop -/

def acceptStep (source : Option Key) (l : AuthListener Key workers) :
    Option (AuthListener Key workers) :=
  if l.loop = .accepting ∧ l.listenerClosed = false then
    some
      { l.setConn l.count { l.conns l.count with source, acquired := false } with
        count := l.count + 1
        loop := .acquiring l.count }
  else none

def acquireStep [DecidableEq Key] (l : AuthListener Key workers) : Option (AuthListener Key workers) :=
  match l.loop with
  | .acquiring conn =>
    match l.perSource.acquire (l.conns conn).source with
    | none => some { l.closeConn conn with loop := .accepting }
    | some perSource =>
      some
        { l.setConn conn { l.conns conn with acquired := true } with
          perSource
          loop := .offering conn }
  | _ => none

/-- The send to `pending`; with a closed `done` the select may still choose it. -/
def enqueueStep (l : AuthListener Key workers) : Option (AuthListener Key workers) :=
  match l.loop with
  | .offering conn =>
    if l.pending.length < l.maxPending then
      some { l with pending := l.pending ++ [conn], loop := .accepting }
    else none
  | _ => none

def offerDoneStep [DecidableEq Key] (l : AuthListener Key workers) : Option (AuthListener Key workers) :=
  match l.loop with
  | .offering conn =>
    if l.done then some { (l.release conn).closeConn conn with loop := .returning } else none
  | _ => none

/-- The default of the select: neither case is ready. -/
def offerFullStep [DecidableEq Key] (l : AuthListener Key workers) : Option (AuthListener Key workers) :=
  match l.loop with
  | .offering conn =>
    if l.maxPending ≤ l.pending.length ∧ l.done = false then
      some { (l.release conn).closeConn conn with loop := .accepting }
    else none
  | _ => none

def moveLoop (before after : LoopPhase) (l : AuthListener Key workers) :
    Option (AuthListener Key workers) :=
  if l.loop = before then some { l with loop := after } else none

/-! ## The workers -/

def takeStep (i : Fin workers) (l : AuthListener Key workers) : Option (AuthListener Key workers) :=
  match l.worker i, l.pending with
  | .waiting, conn :: rest => some { l.setWorker i (.tracking conn) with pending := rest }
  | _, _ => none

/-- The queue is empty and closed. -/
def drainedStep (i : Fin workers) (l : AuthListener Key workers) :
    Option (AuthListener Key workers) :=
  if l.worker i = .waiting ∧ l.pending = [] ∧ l.loop = .ended then some (l.setWorker i .ended)
  else none

def trackStep (i : Fin workers) (l : AuthListener Key workers) :
    Option (AuthListener Key workers) :=
  match l.worker i with
  | .tracking conn =>
    if l.done then some ((l.closeConn conn).setWorker i (.authenticating conn))
    else some { l.setWorker i (.authenticating conn) with inFlight := conn :: l.inFlight }
  | _ => none

/-- Authentication ends; when it fails it has closed the connection. -/
def authenticateStep (i : Fin workers) (clean : Bool) (l : AuthListener Key workers) :
    Option (AuthListener Key workers) :=
  match l.worker i with
  | .authenticating conn =>
    if clean then some (l.setWorker i (.untracking conn true))
    else some ((l.closeConn conn).setWorker i (.untracking conn false))
  | _ => none

def untrackStep (i : Fin workers) (l : AuthListener Key workers) :
    Option (AuthListener Key workers) :=
  match l.worker i with
  | .untracking conn clean =>
    some
      { l.setWorker i (.releasing conn clean) with
        inFlight := l.inFlight.filter fun other => other ≠ conn }
  | _ => none

def releaseStep [DecidableEq Key] (i : Fin workers) (l : AuthListener Key workers) :
    Option (AuthListener Key workers) :=
  match l.worker i with
  | .releasing conn clean =>
    some ((l.release conn).setWorker i (if clean then .handing conn else .waiting))
  | _ => none

/-- The send to `ready` meets a call of `Accept`. -/
def handOutStep (i : Fin workers) (l : AuthListener Key workers) :
    Option (AuthListener Key workers) :=
  match l.worker i with
  | .handing conn =>
    if 0 < l.callers then
      some
        { (l.setConn conn { l.conns conn with handed := true }).setWorker i .waiting with
          callers := l.callers - 1 }
    else none
  | _ => none

/-- The other case of that select: the worker closes the connection and is
gone. -/
def abandonStep (i : Fin workers) (l : AuthListener Key workers) :
    Option (AuthListener Key workers) :=
  match l.worker i with
  | .handing conn => if l.done then some ((l.closeConn conn).setWorker i .ended) else none
  | _ => none

/-! ## Close -/

def moveCloser (before after : ClosePhase) (l : AuthListener Key workers) :
    Option (AuthListener Key workers) :=
  if l.closer = before then some { l with closer := after } else none

def closeInFlightStep (l : AuthListener Key workers) : Option (AuthListener Key workers) :=
  if l.closer = .listenerClosed then
    some
      { l with
        conns := fun conn =>
          { l.conns conn with closed := (l.conns conn).closed || decide (conn ∈ l.inFlight) }
        closer := .finished }
  else none

def step [DecidableEq Key] (l : AuthListener Key workers) :
    ListenerAction Key workers → Option (AuthListener Key workers)
  | .callAccept => some { l with callers := l.callers + 1 }
  | .accept source => l.acceptStep source
  | .acceptTemporary => l.moveLoop .accepting .sleeping
  | .wake => l.moveLoop .sleeping .accepting
  | .sleepAborted => if l.done then l.moveLoop .sleeping .returning else none
  | .acceptFatal => l.moveLoop .accepting .failing
  | .failed => (l.moveLoop .failing .returning).map fun after => { after with done := true }
  | .acquire => l.acquireStep
  | .enqueue => l.enqueueStep
  | .offerDone => l.offerDoneStep
  | .offerFull => l.offerFullStep
  | .loopReturn => l.moveLoop .returning .ended
  | .take i => l.takeStep i
  | .drained i => l.drainedStep i
  | .track i => l.trackStep i
  | .authenticate i clean => l.authenticateStep i clean
  | .untrack i => l.untrackStep i
  | .releaseSource i => l.releaseStep i
  | .handOut i => l.handOutStep i
  | .abandon i => l.abandonStep i
  | .closeBegin => l.moveCloser .idle .cancelled
  | .closeDone => (l.moveCloser .cancelled .signalled).map fun after => { after with done := true }
  | .closeListener =>
    (l.moveCloser .signalled .listenerClosed).map fun after =>
      { after with listenerClosed := true }
  | .closeInFlight => l.closeInFlightStep

def Terminated (l : AuthListener Key workers) : Prop :=
  l.loop = .ended ∧ ∀ i, l.worker i = .ended

def Settled (l : AuthListener Key workers) (conn : Nat) : Prop :=
  ((l.conns conn).closed = true ∨ (l.conns conn).handed = true) ∧
    ((l.conns conn).acquired = true → (l.conns conn).released = true)

end AuthListener

end Libknock.Netx
