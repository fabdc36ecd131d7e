import Libknock.Foundation.Clock
import Libknock.Foundation.Runs

/-!
# The relay between two connections

`relay/pipe.go`: two copy loops, one for each direction, over the connection
that authentication returned and the connection to the upstream.  The peers
send, finish and fail at any time; the loops take their steps in any order.  A
loop is named after the side it reads from.
-/

set_option autoImplicit false

namespace Libknock.Relay

open Foundation

inductive Side where
  | client
  | upstream
  deriving DecidableEq

namespace Side

def other : Side → Side
  | client => upstream
  | upstream => client

@[simp] theorem other_other (side : Side) : side.other.other = side := by
  cases side <;> rfl

@[simp] theorem other_ne (side : Side) : side.other ≠ side := by
  cases side <;> decide

@[simp] theorem ne_other (side : Side) : side ≠ side.other := by
  cases side <;> decide

end Side

/-- The types of connection that reach the relay.  `authenticatedConn` embeds
the interface of the connection it wraps. -/
inductive ConnType where
  | tcpConn
  | authenticatedConn (raw : ConnType)
  deriving DecidableEq

/-- The type has `CloseRead` and `CloseWrite`; an embedded interface promotes
neither. -/
def ConnType.halfCloses : ConnType → Bool
  | tcpConn => true
  | authenticatedConn _ => false

inductive CopyError where
  | closed
  | deadlineExceeded
  | reset
  deriving DecidableEq

/-- A connection of the relay and the peer at its other end. -/
structure PipeConn where
  kind : ConnType
  /-- What authentication has read ahead. -/
  buffered : Bytes
  arrived : Bytes
  /-- What the peer has still to send. -/
  unsent : Bytes
  finished : Bool
  failed : Bool
  /-- What was written to the peer. -/
  received : Bytes
  closed : Bool
  readClosed : Bool
  writeClosed : Bool
  deadline : Option Int

inductive ReadResult where
  | data (chunk : Bytes)
  | eof
  | error (err : CopyError)

namespace PipeConn

def copyBufferSize : Nat := 32 * 1024

def takes (size : Nat) (available : Bytes) : Prop :=
  0 < size ∧ size ≤ available.length ∧ size ≤ copyBufferSize

instance (size : Nat) (available : Bytes) : Decidable (takes size available) :=
  inferInstanceAs (Decidable (_ ∧ _ ∧ _))

/-- A read that returns; nothing while it waits.  The bytes read ahead are
served whatever has become of the connection. -/
def read (size : Nat) (c : PipeConn) : Option (ReadResult × PipeConn) :=
  if c.buffered ≠ [] then
    if takes size c.buffered then
      some (.data (c.buffered.take size), { c with buffered := c.buffered.drop size })
    else none
  else if c.closed then some (.error .closed, c)
  else if c.failed then some (.error .reset, c)
  else if c.arrived ≠ [] then
    if takes size c.arrived then
      some (.data (c.arrived.take size), { c with arrived := c.arrived.drop size })
    else none
  else if c.finished ∨ c.readClosed then some (.eof, c)
  else none

/-- The read deadline has passed while a read waits or as it begins. -/
def expires (now : Int) (c : PipeConn) : Prop :=
  c.buffered = [] ∧ c.closed = false ∧ ∃ instant ∈ c.deadline, instant ≤ now

instance (now : Int) (c : PipeConn) : Decidable (c.expires now) :=
  inferInstanceAs (Decidable (_ ∧ _ ∧ _))

def write (chunk : Bytes) (c : PipeConn) : Except CopyError PipeConn :=
  if c.closed then .error .closed
  else if c.failed ∨ c.writeClosed then .error .reset
  else .ok { c with received := c.received ++ chunk }

def close (c : PipeConn) : PipeConn := { c with closed := true }

def closeWrite (c : PipeConn) : PipeConn :=
  if c.kind.halfCloses then { c with writeClosed := true } else c.close

def closeRead (c : PipeConn) : PipeConn :=
  if c.kind.halfCloses then { c with readClosed := true } else c.close

def setReadDeadline (idleTimeout : Duration) (now : Int) (c : PipeConn) : PipeConn :=
  if 0 < idleTimeout then { c with deadline := some (addDuration now idleTimeout) } else c

end PipeConn

/-- Where `copyHalf` is: `starting` before its own deadline, `arming` before the
deadline of a read, then in the read or in the write of a chunk, and at last in
the two closes with the error of the copy. -/
inductive Phase where
  | starting
  | arming
  | reading
  | writing (chunk : Bytes)
  | closingWrite (err : Option CopyError)
  | closingRead (err : Option CopyError)
  | done (err : Option CopyError)
  deriving DecidableEq

def Phase.copies : Phase → Bool
  | .starting | .arming | .reading | .writing _ => true
  | _ => false

structure Loop where
  phase : Phase
  count : Nat
  /-- When the loop last moved data, at first when it began. -/
  moved : Int

structure Pipe where
  now : Int
  conn : Side → PipeConn
  loop : Side → Loop

inductive PipeAction where
  | send (side : Side) (size : Nat)
  | finish (side : Side)
  | fail (side : Side)
  | tick (instant : Int)
  | cancel
  | arm (side : Side)
  | read (side : Side) (size : Nat)
  | expire (side : Side)
  | write (side : Side)
  | closeWrite (side : Side)
  | closeRead (side : Side)
  deriving DecidableEq

namespace Pipe

def setConn (side : Side) (c : PipeConn) (s : Pipe) : Pipe :=
  { s with conn := Function.update s.conn side c }

def setPhase (side : Side) (phase : Phase) (s : Pipe) : Pipe :=
  { s with loop := Function.update s.loop side { s.loop side with phase } }

def afterRead : ReadResult → Phase
  | .data chunk => .writing chunk
  | .eof => .closingWrite none
  | .error err => .closingWrite (some err)

def armStep (idleTimeout : Duration) (side : Side) (s : Pipe) : Option Pipe :=
  match (s.loop side).phase with
  | .starting =>
    some ((s.setConn side ((s.conn side).setReadDeadline idleTimeout s.now)).setPhase side .arming)
  | .arming =>
    some ((s.setConn side ((s.conn side).setReadDeadline idleTimeout s.now)).setPhase side
      .reading)
  | _ => none

def readStep (side : Side) (size : Nat) (s : Pipe) : Option Pipe :=
  if (s.loop side).phase = .reading then
    ((s.conn side).read size).map fun result =>
      (s.setConn side result.2).setPhase side (afterRead result.1)
  else none

def expireStep (side : Side) (s : Pipe) : Option Pipe :=
  if (s.loop side).phase = .reading ∧ (s.conn side).expires s.now then
    some (s.setPhase side (.closingWrite (some .deadlineExceeded)))
  else none

def writeStep (side : Side) (s : Pipe) : Option Pipe :=
  match (s.loop side).phase with
  | .writing chunk =>
    match (s.conn side.other).write chunk with
    | .error err => some (s.setPhase side (.closingWrite (some err)))
    | .ok c =>
      some
        { s.setConn side.other c with
          loop := Function.update s.loop side
            ⟨.arming, (s.loop side).count + chunk.length, s.now⟩ }
  | _ => none

def closeWriteStep (side : Side) (s : Pipe) : Option Pipe :=
  match (s.loop side).phase with
  | .closingWrite err =>
    some ((s.setConn side.other (s.conn side.other).closeWrite).setPhase side (.closingRead err))
  | _ => none

def closeReadStep (side : Side) (s : Pipe) : Option Pipe :=
  match (s.loop side).phase with
  | .closingRead err =>
    some ((s.setConn side (s.conn side).closeRead).setPhase side (.done err))
  | _ => none

def sendStep (side : Side) (size : Nat) (s : Pipe) : Option Pipe :=
  let c := s.conn side
  if 0 < size ∧ size ≤ c.unsent.length then
    some (s.setConn side
      { c with arrived := c.arrived ++ c.unsent.take size, unsent := c.unsent.drop size })
  else none

def finishStep (side : Side) (s : Pipe) : Option Pipe :=
  if (s.conn side).unsent = [] then some (s.setConn side { s.conn side with finished := true })
  else none

def step (idleTimeout : Duration) (s : Pipe) : PipeAction → Option Pipe
  | .send side size => s.sendStep side size
  | .finish side => s.finishStep side
  | .fail side => some (s.setConn side { s.conn side with failed := true })
  | .tick instant => if s.now ≤ instant then some { s with now := instant } else none
  | .cancel => some { s with conn := fun side => (s.conn side).close }
  | .arm side => s.armStep idleTimeout side
  | .read side size => s.readStep side size
  | .expire side => s.expireStep side
  | .write side => s.writeStep side
  | .closeWrite side => s.closeWriteStep side
  | .closeRead side => s.closeReadStep side

end Pipe

structure Stats where
  rx : Nat
  tx : Nat
  deriving DecidableEq

/-- The errors that are reported; the call returns nil when there are none. -/
def relayCopyError (errs : List (Option CopyError)) : List CopyError :=
  errs.filterMap fun err => if err = some .closed then none else err

/-- What `BidirectionalContext` returns, once both loops are done. -/
def Pipe.returns (s : Pipe) : Option (Stats × List CopyError) :=
  match (s.loop .upstream).phase, (s.loop .client).phase with
  | .done errA, .done errB =>
    some (⟨(s.loop .upstream).count, (s.loop .client).count⟩, relayCopyError [errA, errB])
  | _, _ => none

/-! ## What the steps do -/

theorem Side.eq_or_other (side which : Side) : which = side ∨ which = side.other := by
  cases side <;> cases which <;> simp [Side.other]

def PipeConn.rest (c : PipeConn) : Bytes := c.buffered ++ c.arrived ++ c.unsent

theorem PipeConn.read_some {c next : PipeConn} {size : Nat} {result : ReadResult}
    (returned : c.read size = some (result, next)) :
    (∃ chunk, result = .data chunk ∧ 0 < chunk.length ∧ c.rest = chunk ++ next.rest ∧
      ∃ buffered arrived, next = { c with buffered, arrived }) ∨
    (result = .eof ∧ next = c ∧ c.buffered = [] ∧ c.arrived = [] ∧
      (c.finished = true ∨ c.readClosed = true)) ∨
    (result = .error .closed ∧ next = c ∧ c.closed = true) ∨
    (result = .error .reset ∧ next = c ∧ c.failed = true) := by
  unfold PipeConn.read at returned
  by_cases ahead : c.buffered = []
  · rw [if_neg (not_not_intro ahead)] at returned
    by_cases closed : c.closed = true
    · rw [if_pos closed] at returned
      cases returned
      exact Or.inr (Or.inr (Or.inl ⟨rfl, rfl, closed⟩))
    rw [if_neg closed] at returned
    by_cases failed : c.failed = true
    · rw [if_pos failed] at returned
      cases returned
      exact Or.inr (Or.inr (Or.inr ⟨rfl, rfl, failed⟩))
    rw [if_neg failed] at returned
    by_cases waiting : c.arrived = []
    · rw [if_neg (not_not_intro waiting), Option.ite_none_right_eq_some] at returned
      obtain ⟨ended, same⟩ := returned
      cases same
      exact Or.inr (Or.inl ⟨rfl, rfl, ahead, waiting, ended⟩)
    · rw [if_pos waiting, Option.ite_none_right_eq_some] at returned
      obtain ⟨⟨positive, inside, _⟩, same⟩ := returned
      cases same
      refine Or.inl ⟨_, rfl, ?_, ?_, _, _, rfl⟩
      · rw [List.length_take]
        omega
      · simp only [PipeConn.rest, ahead, List.nil_append]
        rw [← List.append_assoc, List.take_append_drop]
  · rw [if_pos ahead, Option.ite_none_right_eq_some] at returned
    obtain ⟨⟨positive, inside, _⟩, same⟩ := returned
    cases same
    refine Or.inl ⟨_, rfl, ?_, ?_, _, _, rfl⟩
    · rw [List.length_take]
      omega
    · simp only [PipeConn.rest, ← List.append_assoc, List.take_append_drop]

theorem PipeConn.write_cases (chunk : Bytes) (c : PipeConn) :
    (c.write chunk = .error .closed ∧ c.closed = true) ∨
    (c.write chunk = .error .reset ∧ (c.failed = true ∨ c.writeClosed = true)) ∨
    (c.write chunk = .ok { c with received := c.received ++ chunk } ∧ c.closed = false) := by
  unfold PipeConn.write
  by_cases closed : c.closed = true
  · exact Or.inl ⟨if_pos closed, closed⟩
  · rw [if_neg closed]
    by_cases broken : c.failed = true ∨ c.writeClosed = true
    · exact Or.inr (Or.inl ⟨if_pos broken, broken⟩)
    · exact Or.inr (Or.inr ⟨if_neg broken, Bool.not_eq_true _ ▸ closed⟩)

theorem PipeConn.eq_of_write {chunk : Bytes} {c next : PipeConn}
    (written : c.write chunk = .ok next) : next = { c with received := c.received ++ chunk } := by
  rcases c.write_cases chunk with ⟨answer, _⟩ | ⟨answer, _⟩ | ⟨answer, _⟩ <;>
    rw [answer] at written <;> cases written
  rfl

/-- A connection that was open is closed whole only if its type has no
half-close. -/
theorem PipeConn.closeWrite_cases (c : PipeConn) :
    ∃ closed writeClosed, c.closeWrite = { c with closed, writeClosed } ∧
      (closed = true → c.closed = true ∨ c.kind.halfCloses = false) := by
  unfold PipeConn.closeWrite
  by_cases half : c.kind.halfCloses = true
  · rw [if_pos half]
    exact ⟨_, _, rfl, Or.inl⟩
  · rw [if_neg half]
    exact ⟨_, _, rfl, fun _ => Or.inr (Bool.eq_false_iff.mpr half)⟩

theorem PipeConn.closeRead_cases (c : PipeConn) :
    ∃ closed readClosed, c.closeRead = { c with closed, readClosed } ∧
      (closed = true → c.closed = true ∨ c.kind.halfCloses = false) := by
  unfold PipeConn.closeRead
  by_cases half : c.kind.halfCloses = true
  · rw [if_pos half]
    exact ⟨_, _, rfl, Or.inl⟩
  · rw [if_neg half]
    exact ⟨_, _, rfl, fun _ => Or.inr (Bool.eq_false_iff.mpr half)⟩

namespace Pipe

variable (side : Side) (c : PipeConn) (phase : Phase) (s : Pipe)

@[simp] theorem setConn_conn_self : (s.setConn side c).conn side = c := by
  simp [setConn]

@[simp] theorem setConn_conn_other : (s.setConn side c).conn side.other = s.conn side.other := by
  simp [setConn]

@[simp] theorem setConn_other_conn : (s.setConn side.other c).conn side = s.conn side := by
  simp [setConn]

@[simp] theorem setConn_self : s.setConn side (s.conn side) = s := by
  simp [setConn]

@[simp] theorem setConn_loop : (s.setConn side c).loop = s.loop := rfl

@[simp] theorem setConn_now : (s.setConn side c).now = s.now := rfl

@[simp] theorem setPhase_conn : (s.setPhase side phase).conn = s.conn := rfl

@[simp] theorem setPhase_loop_self :
    (s.setPhase side phase).loop side = { s.loop side with phase } := by
  simp [setPhase]

@[simp] theorem setPhase_loop_other :
    (s.setPhase side phase).loop side.other = s.loop side.other := by
  simp [setPhase]

variable {s next : Pipe} {side : Side} {size : Nat} {idleTimeout : Duration}

theorem armStep_some (stepped : s.armStep idleTimeout side = some next) :
    (∃ phase, ((s.loop side).phase = .starting ∧ phase = .arming ∨
        (s.loop side).phase = .arming ∧ phase = .reading) ∧
      next = (s.setConn side ((s.conn side).setReadDeadline idleTimeout s.now)).setPhase side
        phase) := by
  unfold armStep at stepped
  split at stepped
  · rename_i at_
    cases stepped
    exact ⟨_, Or.inl ⟨at_, rfl⟩, rfl⟩
  · rename_i at_
    cases stepped
    exact ⟨_, Or.inr ⟨at_, rfl⟩, rfl⟩
  · cases stepped

theorem readStep_some (stepped : s.readStep side size = some next) :
    (s.loop side).phase = .reading ∧ ∃ result c, (s.conn side).read size = some (result, c) ∧
      next = (s.setConn side c).setPhase side (afterRead result) := by
  rw [readStep, Option.ite_none_right_eq_some] at stepped
  obtain ⟨at_, mapped⟩ := stepped
  obtain ⟨⟨result, c⟩, returned, same⟩ := Option.map_eq_some_iff.mp mapped
  exact ⟨at_, result, c, returned, same.symm⟩

theorem expireStep_some (stepped : s.expireStep side = some next) :
    (s.loop side).phase = .reading ∧ (s.conn side).expires s.now ∧
      next = s.setPhase side (.closingWrite (some .deadlineExceeded)) := by
  rw [expireStep, Option.ite_none_right_eq_some] at stepped
  obtain ⟨⟨at_, expires⟩, same⟩ := stepped
  exact ⟨at_, expires, (Option.some.inj same).symm⟩

theorem writeStep_some (stepped : s.writeStep side = some next) :
    ∃ chunk, (s.loop side).phase = .writing chunk ∧
      ((∃ err, (s.conn side.other).write chunk = .error err ∧
          next = s.setPhase side (.closingWrite (some err))) ∨
        ∃ c, (s.conn side.other).write chunk = .ok c ∧
          next =
            { s.setConn side.other c with
              loop := Function.update s.loop side
                ⟨.arming, (s.loop side).count + chunk.length, s.now⟩ }) := by
  unfold writeStep at stepped
  split at stepped
  · rename_i chunk at_
    refine ⟨chunk, at_, ?_⟩
    split at stepped
    · rename_i err failed
      exact Or.inl ⟨err, failed, (Option.some.inj stepped).symm⟩
    · rename_i c written
      exact Or.inr ⟨c, written, (Option.some.inj stepped).symm⟩
  · cases stepped

theorem closeWriteStep_some (stepped : s.closeWriteStep side = some next) :
    ∃ err, (s.loop side).phase = .closingWrite err ∧
      next = (s.setConn side.other (s.conn side.other).closeWrite).setPhase side
        (.closingRead err) := by
  unfold closeWriteStep at stepped
  split at stepped
  · rename_i err at_
    exact ⟨err, at_, (Option.some.inj stepped).symm⟩
  · cases stepped

theorem closeReadStep_some (stepped : s.closeReadStep side = some next) :
    ∃ err, (s.loop side).phase = .closingRead err ∧
      next = (s.setConn side (s.conn side).closeRead).setPhase side (.done err) := by
  unfold closeReadStep at stepped
  split at stepped
  · rename_i err at_
    exact ⟨err, at_, (Option.some.inj stepped).symm⟩
  · cases stepped

theorem sendStep_some (stepped : s.sendStep side size = some next) :
    next = s.setConn side
      { s.conn side with
        arrived := (s.conn side).arrived ++ (s.conn side).unsent.take size
        unsent := (s.conn side).unsent.drop size } := by
  unfold sendStep at stepped
  simp only [Option.ite_none_right_eq_some, Option.some.injEq] at stepped
  exact stepped.2.symm

theorem finishStep_some (stepped : s.finishStep side = some next) :
    (s.conn side).unsent = [] ∧ next = s.setConn side { s.conn side with finished := true } := by
  rw [finishStep, Option.ite_none_right_eq_some] at stepped
  exact ⟨stepped.1, (Option.some.inj stepped.2).symm⟩

end Pipe

end Libknock.Relay
