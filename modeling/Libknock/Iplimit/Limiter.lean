import Libknock.Iplimit.Key
import Libknock.Foundation.Runs
import Libknock.Foundation.Tally
import Libknock.Foundation.Threads

/-!
# The limiter under concurrent calls

`Limiter` of `internal/iplimit/iplimit.go`.  Every call of `Acquire` and every
call of a release function is a thread of its own, and a step of one of them is
one statement: taking the mutex, looking at the counter, changing it, giving the
mutex back.  A release function outlives the call that made it and may be called
any number of times; its `sync.Once` lets one call run the body and makes the
others wait for it.
-/

set_option autoImplicit false

namespace Libknock.Iplimit

open Foundation

structure Limiter where
  max : Int
  n : AList fun _ : Bytes => Int
  deriving DecidableEq

/-- `New`; without a result it is the nil limiter, which never limits. -/
def new (max : Int) : Option Limiter := if max ≤ 0 then none else some ⟨max, ∅⟩

/-- Where a call of `Acquire` stands.  `unlimited`, `failed` and `succeeded` have
returned. -/
inductive AcquirePhase where
  | called
  | unlimited
  | locked
  | full
  | room
  | counted
  | failed
  | succeeded
  deriving DecidableEq

/-- Where the body of a release function stands, of which there is one run. -/
inductive OncePhase where
  | fresh
  | entered
  | locked
  | last
  | several
  | removed
  | unlocked
  | done
  deriving DecidableEq

structure AcquireCall where
  source : Option Bytes
  phase : AcquirePhase
  once : OncePhase
  deriving DecidableEq

inductive ReleasePhase where
  | called
  | running
  | returned
  deriving DecidableEq

/-- A call of the release function that the `Acquire` call `slot` returned. -/
structure ReleaseCall where
  slot : Nat
  phase : ReleasePhase
  deriving DecidableEq

/-- Who holds the mutex: a call of `Acquire`, or the body of its release function. -/
inductive Party where
  | acquire (index : Nat)
  | once (slot : Nat)
  deriving DecidableEq

structure System where
  limiter : Option Limiter
  holder : Option Party
  acquires : List AcquireCall
  releases : List ReleaseCall
  deriving DecidableEq

inductive Action where
  | acquire (addr : SourceAddr)
  | acquireStep (index : Nat)
  | release (slot : Nat)
  | releaseStep (index : Nat)
  deriving DecidableEq

namespace System

def start (max : Int) : System := ⟨new max, none, [], []⟩

def setAcquire (index : Nat) (call : AcquireCall) (s : System) : System :=
  { s with acquires := s.acquires.set index call }

def setRelease (index : Nat) (call : ReleaseCall) (s : System) : System :=
  { s with releases := s.releases.set index call }

def acquireStep (index : Nat) (s : System) : Option System :=
  match s.acquires[index]? with
  | none => none
  | some call =>
    match call.phase, s.limiter, call.source with
    | .called, some _, some _ =>
      if s.holder = none then
        some { s.setAcquire index { call with phase := .locked } with
          holder := some (.acquire index) }
      else none
    -- a nil limiter, or an address without a key
    | .called, _, _ => some (s.setAcquire index { call with phase := .unlimited })
    | .locked, some l, some key =>
      some (s.setAcquire index
        { call with phase := if l.max ≤ counterAt l.n key then .full else .room })
    | .full, _, _ =>
      some { s.setAcquire index { call with phase := .failed } with holder := none }
    | .room, some l, some key =>
      some { s.setAcquire index { call with phase := .counted } with
        limiter := some { l with n := l.n.insert key (counterAt l.n key + 1) } }
    | .counted, _, _ =>
      some { s.setAcquire index { call with phase := .succeeded } with holder := none }
    | _, _, _ => none

/-- A statement of the body of a release function, run by one of its calls. -/
def onceStep (slot : Nat) (call : AcquireCall) (s : System) : Option System :=
  match call.once, s.limiter, call.source with
  | .entered, _, _ =>
    if s.holder = none then
      some { s.setAcquire slot { call with once := .locked } with holder := some (.once slot) }
    else none
  | .locked, some l, some key =>
    some (s.setAcquire slot
      { call with once := if counterAt l.n key ≤ 1 then .last else .several })
  | .last, some l, some key =>
    some { s.setAcquire slot { call with once := .removed } with
      limiter := some { l with n := l.n.erase key } }
  | .several, some l, some key =>
    some { s.setAcquire slot { call with once := .removed } with
      limiter := some { l with n := l.n.insert key (counterAt l.n key - 1) } }
  | .removed, _, _ =>
    some { s.setAcquire slot { call with once := .unlocked } with holder := none }
  | _, _, _ => none

def releaseStep (index : Nat) (s : System) : Option System :=
  match s.releases[index]? with
  | none => none
  | some release =>
    match s.acquires[release.slot]? with
    | none => none
    | some call =>
      match release.phase with
      | .returned => none
      | .called =>
        if call.phase = .unlimited then
          some (s.setRelease index { release with phase := .returned })
        else
          match call.once with
          | .fresh => some ((s.setAcquire release.slot { call with once := .entered }).setRelease
              index { release with phase := .running })
          | .done => some (s.setRelease index { release with phase := .returned })
          -- another call is in the body
          | _ => none
      | .running =>
        if call.once = .unlocked then
          some ((s.setAcquire release.slot { call with once := .done }).setRelease
            index { release with phase := .returned })
        else s.onceStep release.slot call

/-- A release function exists once its `Acquire` has returned it. -/
def release (slot : Nat) (s : System) : Option System :=
  match s.acquires[slot]? with
  | none => none
  | some call =>
    if call.phase = .succeeded ∨ call.phase = .unlimited then
      some { s with releases := s.releases ++ [⟨slot, .called⟩] }
    else none

def step (s : System) : Action → Option System
  | .acquire addr => some { s with acquires := s.acquires ++ [⟨key addr, .called, .fresh⟩] }
  | .acquireStep index => s.acquireStep index
  | .release slot => s.release slot
  | .releaseStep index => s.releaseStep index

end System

/-! ## What one step does -/

/-- What a statement does to the call it belongs to, to the limiter and to the
mutex. -/
inductive CallMoves (limiter : Option Limiter) (holder : Option Party) (index : Nat)
    (call : AcquireCall) : AcquireCall → Option Limiter → Option Party → Prop
  | passes : call.phase = .called → limiter = none ∨ call.source = none →
      CallMoves limiter holder index call { call with phase := .unlimited } limiter holder
  | locks {l : Limiter} {key : Bytes} : call.phase = .called → limiter = some l →
      call.source = some key → holder = none →
      CallMoves limiter holder index call { call with phase := .locked } limiter
        (some (.acquire index))
  | refuses {l : Limiter} {key : Bytes} : call.phase = .locked → limiter = some l →
      call.source = some key → l.max ≤ counterAt l.n key →
      CallMoves limiter holder index call { call with phase := .full } limiter holder
  | admits {l : Limiter} {key : Bytes} : call.phase = .locked → limiter = some l →
      call.source = some key → counterAt l.n key < l.max →
      CallMoves limiter holder index call { call with phase := .room } limiter holder
  | fails : call.phase = .full →
      CallMoves limiter holder index call { call with phase := .failed } limiter none
  | counts {l : Limiter} {key : Bytes} : call.phase = .room → limiter = some l →
      call.source = some key →
      CallMoves limiter holder index call { call with phase := .counted }
        (some { l with n := l.n.insert key (counterAt l.n key + 1) }) holder
  | succeeds : call.phase = .counted →
      CallMoves limiter holder index call { call with phase := .succeeded } limiter none
  | enters : call.phase = .succeeded → call.once = .fresh →
      CallMoves limiter holder index call { call with once := .entered } limiter holder
  | onceLocks : call.once = .entered → holder = none →
      CallMoves limiter holder index call { call with once := .locked } limiter
        (some (.once index))
  | findsLast {l : Limiter} {key : Bytes} : call.once = .locked → limiter = some l →
      call.source = some key → counterAt l.n key ≤ 1 →
      CallMoves limiter holder index call { call with once := .last } limiter holder
  | findsSeveral {l : Limiter} {key : Bytes} : call.once = .locked → limiter = some l →
      call.source = some key → 1 < counterAt l.n key →
      CallMoves limiter holder index call { call with once := .several } limiter holder
  | deletes {l : Limiter} {key : Bytes} : call.once = .last → limiter = some l →
      call.source = some key →
      CallMoves limiter holder index call { call with once := .removed }
        (some { l with n := l.n.erase key }) holder
  | decrements {l : Limiter} {key : Bytes} : call.once = .several → limiter = some l →
      call.source = some key →
      CallMoves limiter holder index call { call with once := .removed }
        (some { l with n := l.n.insert key (counterAt l.n key - 1) }) holder
  | unlocks : call.once = .removed →
      CallMoves limiter holder index call { call with once := .unlocked } limiter none
  | finishes : call.once = .unlocked →
      CallMoves limiter holder index call { call with once := .done } limiter holder

def AcquireCall.Returned (call : AcquireCall) : Prop :=
  call.phase = .succeeded ∨ call.phase = .unlimited

variable {after s : System} {index : Nat}

namespace System

inductive Moves (s : System) : Action → System → Prop
  | begins (addr : SourceAddr) :
      Moves s (.acquire addr) { s with acquires := s.acquires ++ [⟨key addr, .called, .fresh⟩] }
  | works {index : Nat} {call next : AcquireCall} {limiter : Option Limiter}
      {holder : Option Party} : s.acquires[index]? = some call →
      CallMoves s.limiter s.holder index call next limiter holder → next.once = call.once →
      Moves s (.acquireStep index) ⟨limiter, holder, s.acquires.set index next, s.releases⟩
  | releases {slot : Nat} {call : AcquireCall} : s.acquires[slot]? = some call → call.Returned →
      Moves s (.release slot) { s with releases := s.releases ++ [⟨slot, .called⟩] }
  | returns {index : Nat} {release : ReleaseCall} {call : AcquireCall} :
      s.releases[index]? = some release → s.acquires[release.slot]? = some call →
      call.phase = .unlimited ∨ call.once = .done →
      Moves s (.releaseStep index) (s.setRelease index { release with phase := .returned })
  | runs (phase : ReleasePhase) {index : Nat} {release : ReleaseCall} {call next : AcquireCall}
      {limiter : Option Limiter} {holder : Option Party} : s.releases[index]? = some release →
      s.acquires[release.slot]? = some call →
      CallMoves s.limiter s.holder release.slot call next limiter holder →
      next.phase = call.phase → (phase = .returned → next.once = .done) →
      Moves s (.releaseStep index) ⟨limiter, holder, s.acquires.set release.slot next,
        s.releases.set index { release with phase := phase }⟩

/-- Every release function that is called was returned by its `Acquire`; where a
call of it has returned, its body has been run or there was nothing to give back. -/
def Linked (s : System) : Prop :=
  ∀ release ∈ s.releases, ∃ call, s.acquires[release.slot]? = some call ∧ call.Returned ∧
    (release.phase = .returned → call.phase = .unlimited ∨ call.once = .done)

theorem acquireStep_moves (stepped : s.acquireStep index = some after) :
    s.Moves (.acquireStep index) after := by
  unfold acquireStep at stepped
  split at stepped
  · cases stepped
  rename_i call found
  split at stepped
  · rename_i called limiter source
    split at stepped
    · rename_i free
      cases stepped
      exact .works found (.locks called limiter source free) rfl
    · cases stepped
  · rename_i called uncounted
    cases stepped
    refine .works found (.passes called ?_) rfl
    cases limiter : s.limiter with
    | none => exact Or.inl rfl
    | some l =>
      cases source : call.source with
      | none => exact Or.inr rfl
      | some key => exact absurd source (uncounted l key limiter)
  · rename_i l key checking limiter source
    cases stepped
    split
    · rename_i full
      exact .works found (.refuses checking limiter source full) rfl
    · rename_i room
      exact .works found (.admits checking limiter source (not_le.mp room)) rfl
  · rename_i full
    cases stepped
    exact .works found (.fails full) rfl
  · rename_i l key room limiter source
    cases stepped
    exact .works found (.counts room limiter source) rfl
  · rename_i counted
    cases stepped
    exact .works found (.succeeds counted) rfl
  · cases stepped

theorem onceStep_moves {release : ReleaseCall} {call : AcquireCall}
    (made : s.releases[index]? = some release) (found : s.acquires[release.slot]? = some call)
    (running : release.phase = .running) (stepped : s.onceStep release.slot call = some after) :
    s.Moves (.releaseStep index) after := by
  have runs : ∀ {next : AcquireCall} {limiter : Option Limiter} {holder : Option Party},
      CallMoves s.limiter s.holder release.slot call next limiter holder →
      next.phase = call.phase → s.Moves (.releaseStep index)
        ⟨limiter, holder, s.acquires.set release.slot next, s.releases⟩ := by
    intro next limiter holder moves same
    have result := Moves.runs .running made found moves same nofun
    rw [← running] at result
    rwa [set_self made] at result
  unfold onceStep at stepped
  split at stepped
  · rename_i entered
    split at stepped
    · rename_i free
      cases stepped
      exact runs (.onceLocks entered free) rfl
    · cases stepped
  · rename_i l key checking limiter source
    cases stepped
    split
    · rename_i last
      exact runs (.findsLast checking limiter source last) rfl
    · rename_i several
      exact runs (.findsSeveral checking limiter source (not_le.mp several)) rfl
  · rename_i l key last limiter source
    cases stepped
    exact runs (.deletes last limiter source) rfl
  · rename_i l key several limiter source
    cases stepped
    exact runs (.decrements several limiter source) rfl
  · rename_i removed
    cases stepped
    exact runs (.unlocks removed) rfl
  · cases stepped

theorem releaseStep_moves (linked : s.Linked) (stepped : s.releaseStep index = some after) :
    s.Moves (.releaseStep index) after := by
  unfold releaseStep at stepped
  split at stepped
  · cases stepped
  rename_i release made
  obtain ⟨call, found, returned, -⟩ := linked release (List.mem_of_getElem? made)
  rw [found] at stepped
  simp only at stepped
  split at stepped
  · cases stepped
  · split at stepped
    · rename_i unlimited
      cases stepped
      exact .returns made found (Or.inl unlimited)
    · rename_i limited
      split at stepped
      · rename_i fresh
        cases stepped
        exact .runs .running made found (.enters (returned.resolve_right limited) fresh) rfl nofun
      · rename_i done
        cases stepped
        exact .returns made found (Or.inr done)
      · cases stepped
  · rename_i running
    split at stepped
    · rename_i unlocked
      cases stepped
      exact .runs .returned made found (.finishes unlocked) rfl fun _ => rfl
    · exact onceStep_moves made found running stepped

theorem step_moves {action : Action} (linked : s.Linked) (stepped : s.step action = some after) :
    s.Moves action after := by
  cases action with
  | acquire addr =>
    cases stepped
    exact .begins addr
  | acquireStep index => exact acquireStep_moves stepped
  | release slot =>
    simp only [step, System.release] at stepped
    split at stepped
    · cases stepped
    rename_i call found
    split at stepped
    · rename_i returned
      cases stepped
      exact .releases found returned
    · cases stepped
  | releaseStep index => exact releaseStep_moves linked stepped

end System

end Libknock.Iplimit
