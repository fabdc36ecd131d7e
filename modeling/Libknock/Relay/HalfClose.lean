import Libknock.Relay.Pipe

/-!
# Half-closed streams

Without an idle timeout a loop copies the stream of its source to the end.  It
then half-closes both connections; one whose type has no half-close is closed
whole, and with it the other direction.
-/

set_option autoImplicit false

namespace Libknock.Relay

open Foundation

/-- What a loop has copied of a stream: all but the chunk in its hand and the
rest, and all of it once it has ended, of itself or because its connection was
closed. -/
def Carried (stream received rest : Bytes) : Phase → Prop
  | .starting | .arming | .reading => received ++ rest = stream
  | .writing chunk => received ++ chunk ++ rest = stream
  | .closingWrite err | .closingRead err | .done err =>
    received = stream ∧ (err = none ∨ err = some .closed)

/-- A loop between its source and its destination. -/
structure Flow (stream : Bytes) (src dst : PipeConn) (l : Loop) : Prop where
  carried : Carried stream dst.received src.rest l.phase
  counted : l.count = dst.received.length
  finished : src.finished = true → src.unsent = []
  unfailed : src.failed = false
  endless : src.deadline = none
  readShut : src.readClosed = true → ∃ err, l.phase = .done err
  writeShut : dst.writeClosed = true → ∃ err, l.phase = .closingRead err ∨ l.phase = .done err

variable {stream : Bytes} {src dst : PipeConn} {l : Loop}

theorem Flow.congr_dst {after : PipeConn} {l : Loop}
    (flow : Flow stream src dst l) (received : after.received = dst.received)
    (writeClosed : after.writeClosed = dst.writeClosed) : Flow stream src after l where
  carried := received ▸ flow.carried
  counted := received ▸ flow.counted
  finished := flow.finished
  unfailed := flow.unfailed
  endless := flow.endless
  readShut := flow.readShut
  writeShut := writeClosed ▸ flow.writeShut

theorem Flow.unshut (flow : Flow stream src dst l)
    (copying : l.phase.copies = true) : src.readClosed = false ∧ dst.writeClosed = false := by
  constructor
  · apply Bool.eq_false_iff.mpr
    intro shut
    obtain ⟨err, ended⟩ := flow.readShut shut
    rw [ended] at copying
    cases copying
  · apply Bool.eq_false_iff.mpr
    intro shut
    obtain ⟨err, ended | ended⟩ := flow.writeShut shut
    · rw [ended] at copying
      cases copying
    · rw [ended] at copying
      cases copying

theorem Flow.moves {after : Loop} (flow : Flow stream src dst l) (copying : l.phase.copies = true)
    {buffered arrived received : Bytes}
    (carried : Carried stream received
      (PipeConn.rest { src with buffered := buffered, arrived := arrived }) after.phase)
    (counted : after.count = received.length) :
    Flow stream { src with buffered := buffered, arrived := arrived }
      { dst with received := received } after where
  carried := carried
  counted := counted
  finished := flow.finished
  unfailed := flow.unfailed
  endless := flow.endless
  readShut := by
    intro shut
    rw [(flow.unshut copying).1] at shut
    cases shut
  writeShut := by
    intro shut
    rw [(flow.unshut copying).2] at shut
    cases shut

theorem Flow.ended (flow : Flow stream src dst l)
    (stopped : l.phase.copies = false) : dst.received = stream := by
  have carried := flow.carried
  cases at_ : l.phase with
  | starting | arming | reading | writing => simp [at_, Phase.copies] at stopped
  | closingWrite | closingRead | done =>
    rw [at_] at carried
    exact carried.1

namespace Pipe

def Delivered (streams : Side → Bytes) (s : Pipe) (source : Side) : Prop :=
  (s.conn source.other).received = streams source

instance (streams : Side → Bytes) (s : Pipe) (source : Side) :
    Decidable (s.Delivered streams source) :=
  inferInstanceAs (Decidable (_ = _))

/-- The relay is not cancelled and no peer fails; a loop closes a connection
whole only when the other direction has been delivered. -/
def ClosesAfter (streams : Side → Bytes) (s : Pipe) : PipeAction → Prop
  | .cancel => False
  | .fail _ => False
  | .closeWrite side =>
    (s.conn side.other).kind.halfCloses = false → s.Delivered streams side.other
  | .closeRead side => (s.conn side).kind.halfCloses = false → s.Delivered streams side.other
  | _ => True

instance (streams : Side → Bytes) (s : Pipe) (action : PipeAction) :
    Decidable (s.ClosesAfter streams action) :=
  match action with
  | .cancel | .fail _ => inferInstanceAs (Decidable False)
  | .closeWrite _ | .closeRead _ => inferInstanceAs (Decidable (_ → _))
  | .send _ _ | .finish _ | .tick _ | .arm _ | .read _ _ | .expire _ | .write _ =>
    inferInstanceAs (Decidable True)

structure Streams (streams : Side → Bytes) (s : Pipe) : Prop where
  flow : ∀ side, Flow (streams side) (s.conn side) (s.conn side.other) (s.loop side)
  closed : ∀ which, (s.conn which).closed = true → ∀ side, s.Delivered streams side

/-! ## Steps -/

variable {streams : Side → Bytes} {s next : Pipe} {side : Side} {size : Nat}
  {idleTimeout : Duration}

theorem Streams.of_side (side : Side)
    (own : Flow (streams side) (s.conn side) (s.conn side.other) (s.loop side))
    (opposite : Flow (streams side.other) (s.conn side.other) (s.conn side) (s.loop side.other))
    (closed : (s.conn side).closed = true ∨ (s.conn side.other).closed = true →
      s.Delivered streams side ∧ s.Delivered streams side.other) : s.Streams streams where
  flow := by
    intro which
    rcases side.eq_or_other which with rfl | rfl
    · exact own
    · simpa using opposite
  closed := by
    intro which shut
    have both : s.Delivered streams side ∧ s.Delivered streams side.other := by
      apply closed
      rcases side.eq_or_other which with rfl | rfl
      · exact Or.inl shut
      · exact Or.inr shut
    intro source
    rcases side.eq_or_other source with rfl | rfl
    · exact both.1
    · exact both.2

section

variable (held : s.Streams streams)

include held

theorem Streams.opposite (side : Side) :
    Flow (streams side.other) (s.conn side.other) (s.conn side) (s.loop side.other) := by
  simpa using held.flow side.other

theorem Streams.delivered {side : Side}
    (shut : (s.conn side).closed = true ∨ (s.conn side.other).closed = true) :
    s.Delivered streams side ∧ s.Delivered streams side.other := by
  rcases shut with shut | shut
  · exact ⟨held.closed side shut side, held.closed side shut side.other⟩
  · exact ⟨held.closed side.other shut side, held.closed side.other shut side.other⟩

/-- Nothing changes but the loop of a side and what its connection has to read. -/
theorem Streams.of_own (side : Side)
    (own : Flow (streams side) (next.conn side) (next.conn side.other) (next.loop side))
    (rest : next.conn side.other = s.conn side.other ∧ next.loop side.other = s.loop side.other)
    (same : (next.conn side).received = (s.conn side).received ∧
      (next.conn side).writeClosed = (s.conn side).writeClosed ∧
      (next.conn side).closed = (s.conn side).closed) : next.Streams streams := by
  obtain ⟨conn, loop⟩ := rest
  obtain ⟨received, writeClosed, closed⟩ := same
  apply Streams.of_side side own
  · rw [conn, loop]
    exact (held.opposite side).congr_dst received writeClosed
  · intro shut
    rw [conn, closed] at shut
    rw [Delivered, Delivered, Side.other_other, conn, received]
    simpa [Delivered] using held.delivered shut

theorem Streams.send (stepped : s.sendStep side size = some next) : next.Streams streams := by
  rw [sendStep_some stepped]
  have flow := held.flow side
  refine held.of_own side ?_ (by simp) (by simp)
  simp only [setConn_conn_self, setConn_conn_other, setConn_loop]
  refine { flow with carried := ?_, finished := ?_ }
  · have rest : PipeConn.rest { s.conn side with
        arrived := (s.conn side).arrived ++ (s.conn side).unsent.take size
        unsent := (s.conn side).unsent.drop size } = (s.conn side).rest := by
      simp [PipeConn.rest]
    rw [rest]
    exact flow.carried
  · intro finished
    simp [flow.finished finished]

theorem Streams.finish (stepped : s.finishStep side = some next) : next.Streams streams := by
  obtain ⟨sent, rfl⟩ := finishStep_some stepped
  refine held.of_own side ?_ (by simp) (by simp)
  simp only [setConn_conn_self, setConn_conn_other, setConn_loop]
  exact { held.flow side with finished := fun _ => sent }

theorem Streams.arm (never : idleTimeout ≤ 0) (stepped : s.armStep idleTimeout side = some next) :
    next.Streams streams := by
  obtain ⟨phase, moves, rfl⟩ := armStep_some stepped
  have flow := held.flow side
  have same : (s.conn side).setReadDeadline idleTimeout s.now = s.conn side :=
    if_neg (Int64.not_lt.mpr never)
  rw [same, setConn_self]
  have copying : (s.loop side).phase.copies = true := by
    rcases moves with ⟨at_, _⟩ | ⟨at_, _⟩
    · rw [at_]
      rfl
    · rw [at_]
      rfl
  have carried := flow.carried
  refine held.of_own side ?_ (by simp) (by simp)
  simp only [setPhase_conn, setPhase_loop_self]
  refine flow.moves copying ?_ flow.counted
  rcases moves with ⟨at_, rfl⟩ | ⟨at_, rfl⟩
  · rw [at_] at carried
    exact carried
  · rw [at_] at carried
    exact carried

theorem Streams.ends {err : Option CopyError} (copying : (s.loop side).phase.copies = true)
    (delivered : s.Delivered streams side) (cause : err = none ∨ err = some .closed) :
    (s.setPhase side (.closingWrite err)).Streams streams := by
  refine held.of_own side ?_ (by simp) (by simp)
  simp only [setPhase_conn, setPhase_loop_self]
  exact (held.flow side).moves copying ⟨delivered, cause⟩ (held.flow side).counted

theorem Streams.read (stepped : s.readStep side size = some next) : next.Streams streams := by
  obtain ⟨at_, result, c, returned, rfl⟩ := readStep_some stepped
  have flow := held.flow side
  have carried := flow.carried
  have copying : (s.loop side).phase.copies = true := by
    rw [at_]
    rfl
  rw [at_] at carried
  rcases PipeConn.read_some returned with
    ⟨chunk, rfl, _, split, buffered, arrived, rfl⟩ | ⟨rfl, rfl, ahead, waiting, ended⟩ |
      ⟨rfl, rfl, closed⟩ | ⟨rfl, rfl, failed⟩
  · refine held.of_own side ?_ (by simp) (by simp)
    simp only [setPhase_conn, setPhase_loop_self, setConn_conn_self, setConn_conn_other,
      setConn_loop]
    refine flow.moves copying ?_ flow.counted
    rw [split] at carried
    simpa [Carried, afterRead] using carried
  · -- At the end of the stream nothing is left to read.
    rw [setConn_self]
    apply held.ends copying _ (Or.inl rfl)
    have sent : (s.conn side).unsent = [] := by
      rcases ended with finished | shut
      · exact flow.finished finished
      · obtain ⟨err, done⟩ := flow.readShut shut
        rw [at_] at done
        cases done
    simpa [Delivered, Carried, PipeConn.rest, ahead, waiting, sent] using carried
  · rw [setConn_self]
    exact held.ends copying (held.closed side closed side) (Or.inr rfl)
  · rw [flow.unfailed] at failed
    cases failed

theorem Streams.no_expiry : s.expireStep side = none := by
  cases stepped : s.expireStep side with
  | none => rfl
  | some next =>
    exfalso
    obtain ⟨_, ⟨_, _, instant, member, _⟩, _⟩ := expireStep_some stepped
    rw [(held.flow side).endless] at member
    cases member

theorem Streams.write (stepped : s.writeStep side = some next) : next.Streams streams := by
  obtain ⟨chunk, at_, written⟩ := writeStep_some stepped
  have flow := held.flow side
  have carried := flow.carried
  have copying : (s.loop side).phase.copies = true := by
    rw [at_]
    rfl
  rw [at_] at carried
  rcases (s.conn side.other).write_cases chunk with ⟨answer, closed⟩ | ⟨answer, broken⟩ |
    ⟨answer, _⟩
  · rw [answer] at written
    simp only [Except.error.injEq, reduceCtorEq, false_and, exists_false, or_false] at written
    obtain ⟨err, rfl, rfl⟩ := written
    exact held.ends copying (held.closed side.other closed side) (Or.inr rfl)
  · exfalso
    rcases broken with failed | shut
    · rw [(held.flow side.other).unfailed] at failed
      cases failed
    · rw [(flow.unshut copying).2] at shut
      cases shut
  · rw [answer] at written
    simp only [reduceCtorEq, false_and, exists_false, Except.ok.injEq, false_or] at written
    obtain ⟨c, rfl, rfl⟩ := written
    apply Streams.of_side side
    · simp only [setConn_conn_self, setConn_other_conn, Function.update_self]
      refine flow.moves copying carried ?_
      rw [List.length_append, flow.counted]
    · have opposite := held.opposite side
      simp only [setConn_conn_self, setConn_other_conn, ne_eq, Side.other_ne, not_false_eq_true,
        Function.update_of_ne]
      exact ⟨opposite.carried, opposite.counted, opposite.finished, opposite.unfailed,
        opposite.endless, opposite.readShut, opposite.writeShut⟩
    · intro shut
      simp only [setConn_conn_self, setConn_other_conn] at shut
      obtain ⟨own, opposite⟩ := held.delivered shut
      -- Nothing was left to write.
      have nothing : chunk = [] := by
        rw [Delivered] at own
        simp only [Carried, own, List.append_assoc, List.append_right_eq_self] at carried
        exact (List.append_eq_nil_iff.mp carried).1
      simp only [Delivered, setConn_conn_self, Side.other_other, setConn_other_conn, nothing,
        List.append_nil]
      exact ⟨own, by simpa [Delivered] using opposite⟩

theorem Streams.closeWrite (stepped : s.closeWriteStep side = some next)
    (after : s.ClosesAfter streams (.closeWrite side)) : next.Streams streams := by
  obtain ⟨err, at_, rfl⟩ := closeWriteStep_some stepped
  obtain ⟨closed, writeClosed, shape, whole⟩ := (s.conn side.other).closeWrite_cases
  have flow := held.flow side
  have opposite := held.opposite side
  have carried := flow.carried
  rw [at_] at carried
  rw [shape]
  apply Streams.of_side side
  · simp only [setPhase_conn, setPhase_loop_self, setConn_conn_self, setConn_other_conn,
      setConn_loop]
    refine ⟨carried, flow.counted, flow.finished, flow.unfailed, flow.endless, ?_,
      fun _ => ⟨err, Or.inl rfl⟩⟩
    intro shut
    obtain ⟨_, done⟩ := flow.readShut shut
    rw [at_] at done
    cases done
  · simp only [setPhase_conn, setPhase_loop_other, setConn_conn_self, setConn_other_conn,
      setConn_loop]
    exact ⟨opposite.carried, opposite.counted, opposite.finished, opposite.unfailed,
      opposite.endless, opposite.readShut, opposite.writeShut⟩
  · intro shut
    simp only [setPhase_conn, setConn_conn_self, setConn_other_conn] at shut
    have other : s.Delivered streams side.other := by
      rcases shut with shut | shut
      · exact held.closed side shut side.other
      · rcases whole shut with shut | lacking
        · exact held.closed side.other shut side.other
        · exact after lacking
    simp only [Delivered, setPhase_conn, setConn_conn_self, Side.other_other, setConn_other_conn]
    exact ⟨carried.1, by simpa [Delivered] using other⟩

theorem Streams.closeRead (stepped : s.closeReadStep side = some next)
    (after : s.ClosesAfter streams (.closeRead side)) : next.Streams streams := by
  obtain ⟨err, at_, rfl⟩ := closeReadStep_some stepped
  obtain ⟨closed, readClosed, shape, whole⟩ := (s.conn side).closeRead_cases
  have flow := held.flow side
  have carried := flow.carried
  rw [at_] at carried
  rw [shape]
  apply Streams.of_side side
  · simp only [setPhase_conn, setPhase_loop_self, setConn_conn_self, setConn_conn_other,
      setConn_loop]
    exact ⟨carried, flow.counted, flow.finished, flow.unfailed, flow.endless,
      fun _ => ⟨err, rfl⟩, fun _ => ⟨err, Or.inr rfl⟩⟩
  · simp only [setPhase_conn, setPhase_loop_other, setConn_conn_self, setConn_conn_other,
      setConn_loop]
    exact (held.opposite side).congr_dst rfl rfl
  · intro shut
    simp only [setPhase_conn, setConn_conn_self, setConn_conn_other] at shut
    have other : s.Delivered streams side.other := by
      rcases shut with shut | shut
      · rcases whole shut with shut | lacking
        · exact held.closed side shut side.other
        · exact after lacking
      · exact held.closed side.other shut side.other
    simp only [Delivered, setPhase_conn, setConn_conn_self, Side.other_other, setConn_conn_other]
    exact ⟨carried.1, by simpa [Delivered] using other⟩

theorem Streams.step (never : idleTimeout ≤ 0) {action : PipeAction}
    (stepped : s.step idleTimeout action = some next) (after : s.ClosesAfter streams action) :
    next.Streams streams := by
  cases action with
  | send side size => exact held.send stepped
  | finish side => exact held.finish stepped
  | fail side => cases after
  | tick instant =>
    rw [Pipe.step, Option.ite_none_right_eq_some] at stepped
    obtain ⟨_, same⟩ := stepped
    cases same
    exact ⟨held.flow, held.closed⟩
  | cancel => cases after
  | arm side => exact held.arm never stepped
  | read side size => exact held.read stepped
  | expire side =>
    rw [Pipe.step, held.no_expiry] at stepped
    cases stepped
  | write side => exact held.write stepped
  | closeWrite side => exact held.closeWrite stepped after
  | closeRead side => exact held.closeRead stepped after

theorem Streams.returns {stats : Stats} {errs : List CopyError}
    (returned : s.returns = some (stats, errs)) :
    errs = [] ∧ stats = ⟨(streams .upstream).length, (streams .client).length⟩ ∧
      ∀ side, s.Delivered streams side := by
  unfold Pipe.returns at returned
  split at returned
  · rename_i errA errB upstream client
    have up := held.flow .upstream
    have down := held.flow .client
    have upCarried := up.carried
    have downCarried := down.carried
    rw [upstream] at upCarried
    rw [client] at downCarried
    cases returned
    refine ⟨?_, ?_, ?_⟩
    · rcases upCarried.2 with rfl | rfl
      · rcases downCarried.2 with rfl | rfl
        · rfl
        · rfl
      · rcases downCarried.2 with rfl | rfl
        · rfl
        · rfl
    · rw [up.counted, down.counted, upCarried.1, downCarried.1]
    · intro side
      cases side with
      | client => exact downCarried.1
      | upstream => exact upCarried.1
  · cases returned

end

end Pipe

/-! ## Progress -/

theorem PipeConn.read_isSome {c : PipeConn} (unfailed : c.failed = false)
    (finished : c.finished = true) : ∃ size, (c.read size).isSome = true := by
  have full : ∀ bytes : Bytes, bytes ≠ [] →
      PipeConn.takes (min bytes.length PipeConn.copyBufferSize) bytes := by
    intro bytes some_
    have positive := List.length_pos_iff.mpr some_
    unfold PipeConn.takes PipeConn.copyBufferSize
    omega
  by_cases ahead : c.buffered = []
  · by_cases closed : c.closed = true
    · exact ⟨0, by simp [PipeConn.read, ahead, closed]⟩
    · by_cases waiting : c.arrived = []
      · exact ⟨0, by simp [PipeConn.read, ahead, closed, unfailed, waiting, finished]⟩
      · refine ⟨min c.arrived.length PipeConn.copyBufferSize, ?_⟩
        simp [PipeConn.read, ahead, closed, unfailed, waiting, full _ waiting]
  · refine ⟨min c.buffered.length PipeConn.copyBufferSize, ?_⟩
    simp [PipeConn.read, ahead, full _ ahead]

def Phase.weight : Phase → Nat
  | .starting => 9
  | .arming => 8
  | .reading => 7
  | .writing chunk => 5 * chunk.length + 9
  | .closingWrite _ => 2
  | .closingRead _ => 1
  | .done _ => 0

def PipeConn.weight (c : PipeConn) : Nat :=
  12 * c.unsent.length + 10 * (c.buffered.length + c.arrived.length) + if c.finished then 0 else 1

namespace Pipe

variable {streams : Side → Bytes} {s next : Pipe} {side : Side} {size : Nat}

def weightOf (s : Pipe) (side : Side) : Nat :=
  (s.conn side).weight + (s.loop side).phase.weight

def weight (s : Pipe) : Nat := s.weightOf .client + s.weightOf .upstream

theorem weight_lt (side : Side) (own : next.weightOf side < s.weightOf side)
    (opposite : next.weightOf side.other = s.weightOf side.other) : next.weight < s.weight := by
  cases side with
  | client | upstream =>
    rw [Side.other] at opposite
    unfold weight
    omega

theorem send_lighter (stepped : s.sendStep side size = some next) (positive : 0 < size)
    (inside : size ≤ (s.conn side).unsent.length) : next.weight < s.weight := by
  rw [sendStep_some stepped]
  apply weight_lt side
  · simp [weightOf, PipeConn.weight]
    omega
  · simp [weightOf]

theorem finish_lighter (stepped : s.finishStep side = some next)
    (open_ : (s.conn side).finished = false) : next.weight < s.weight := by
  rw [(finishStep_some stepped).2]
  apply weight_lt side
  · simp [weightOf, PipeConn.weight, open_]
  · simp [weightOf]

theorem arm_lighter {idleTimeout : Duration} (stepped : s.armStep idleTimeout side = some next) :
    next.weight < s.weight := by
  obtain ⟨phase, moves, rfl⟩ := armStep_some stepped
  have same : ((s.conn side).setReadDeadline idleTimeout s.now).weight = (s.conn side).weight := by
    unfold PipeConn.setReadDeadline
    split
    · rfl
    · rfl
  apply weight_lt side
  · rcases moves with ⟨at_, rfl⟩ | ⟨at_, rfl⟩
    · simp [weightOf, same, at_, Phase.weight]
    · simp [weightOf, same, at_, Phase.weight]
  · simp [weightOf]

theorem read_lighter (stepped : s.readStep side size = some next) : next.weight < s.weight := by
  obtain ⟨at_, result, c, returned, rfl⟩ := readStep_some stepped
  apply weight_lt side
  · rcases PipeConn.read_some returned with
      ⟨chunk, rfl, positive, split, buffered, arrived, rfl⟩ | ⟨rfl, rfl, _⟩ | ⟨rfl, rfl, _⟩ |
        ⟨rfl, rfl, _⟩
    · have lengths := congrArg List.length split
      simp only [PipeConn.rest, List.length_append] at lengths
      simp only [weightOf, setPhase_conn, setConn_conn_self, setPhase_loop_self, afterRead, at_,
        Phase.weight, PipeConn.weight]
      omega
    · simp [weightOf, afterRead, at_, Phase.weight]
    · simp [weightOf, afterRead, at_, Phase.weight]
    · simp [weightOf, afterRead, at_, Phase.weight]
  · simp [weightOf]

theorem write_lighter (stepped : s.writeStep side = some next) : next.weight < s.weight := by
  obtain ⟨chunk, at_, ⟨err, _, rfl⟩ | ⟨c, written, rfl⟩⟩ := writeStep_some stepped
  · apply weight_lt side
    · simp only [weightOf, setPhase_conn, setPhase_loop_self, at_, Phase.weight]
      omega
    · simp [weightOf]
  · have same : c.weight = (s.conn side.other).weight := by
      rw [PipeConn.eq_of_write written]
      rfl
    apply weight_lt side
    · simp only [weightOf, setConn_other_conn, Function.update_self, at_, Phase.weight]
      omega
    · simp [weightOf, same]

theorem closeWrite_lighter (stepped : s.closeWriteStep side = some next) :
    next.weight < s.weight := by
  obtain ⟨err, at_, rfl⟩ := closeWriteStep_some stepped
  obtain ⟨closed, writeClosed, shape, _⟩ := (s.conn side.other).closeWrite_cases
  rw [shape]
  apply weight_lt side
  · simp [weightOf, at_, Phase.weight]
  · simp [weightOf, PipeConn.weight]

theorem closeRead_lighter (stepped : s.closeReadStep side = some next) :
    next.weight < s.weight := by
  obtain ⟨err, at_, rfl⟩ := closeReadStep_some stepped
  obtain ⟨closed, readClosed, shape, _⟩ := (s.conn side).closeRead_cases
  rw [shape]
  apply weight_lt side
  · simp [weightOf, at_, Phase.weight, PipeConn.weight]
  · simp [weightOf]

/-- Some step that the peers and the loops can take brings the call nearer to its
return. -/
def Nears (streams : Side → Bytes) (idleTimeout : Duration) (s : Pipe) : Prop :=
  ∃ action after, s.step idleTimeout action = some after ∧ s.ClosesAfter streams action ∧
    after.weight < s.weight

theorem Nears.of_step {idleTimeout : Duration} (action : PipeAction)
    (possible : (s.step idleTimeout action).isSome = true)
    (allowed : s.ClosesAfter streams action)
    (lighter : ∀ after, s.step idleTimeout action = some after → after.weight < s.weight) :
    s.Nears streams idleTimeout := by
  obtain ⟨after, stepped⟩ := Option.isSome_iff_exists.mp possible
  exact ⟨action, after, stepped, allowed, lighter after stepped⟩

theorem Streams.copies_on (held : s.Streams streams) (idleTimeout : Duration)
    (finished : (s.conn side).finished = true) (copying : (s.loop side).phase.copies = true) :
    s.Nears streams idleTimeout := by
  cases at_ : (s.loop side).phase with
  | starting | arming =>
    refine .of_step (.arm side) ?_ trivial fun _ => arm_lighter
    simp [Pipe.step, armStep, at_]
  | reading =>
    obtain ⟨size, returns⟩ := PipeConn.read_isSome (held.flow side).unfailed finished
    refine .of_step (.read side size) ?_ trivial fun _ => read_lighter
    rw [Pipe.step, readStep, if_pos at_, Option.isSome_map]
    exact returns
  | writing chunk =>
    refine .of_step (.write side) ?_ trivial fun _ => write_lighter
    rw [Pipe.step, writeStep, at_]
    simp only
    split
    · rfl
    · rfl
  | closingWrite | closingRead | done => simp [at_, Phase.copies] at copying

theorem Streams.closes_on (held : s.Streams streams) (idleTimeout : Duration)
    (stopped : ∀ side, (s.loop side).phase.copies = false)
    (running : ∀ err, (s.loop side).phase ≠ .done err) : s.Nears streams idleTimeout := by
  have delivered : ∀ side, s.Delivered streams side :=
    fun side => (held.flow side).ended (stopped side)
  have ended := stopped side
  cases at_ : (s.loop side).phase with
  | starting | arming | reading | writing => simp [at_, Phase.copies] at ended
  | closingWrite err =>
    refine .of_step (.closeWrite side) ?_ (fun _ => delivered side.other)
      fun _ => closeWrite_lighter
    simp [Pipe.step, closeWriteStep, at_]
  | closingRead err =>
    refine .of_step (.closeRead side) ?_ (fun _ => delivered side.other)
      fun _ => closeRead_lighter
    simp [Pipe.step, closeReadStep, at_]
  | done err => exact absurd at_ (running err)

theorem returns_isSome (clientDone : ∃ err, (s.loop .client).phase = .done err)
    (upstreamDone : ∃ err, (s.loop .upstream).phase = .done err) : s.returns.isSome = true := by
  obtain ⟨errB, client⟩ := clientDone
  obtain ⟨errA, upstream⟩ := upstreamDone
  simp [Pipe.returns, client, upstream]

/-- Until the call returns, a step brings it nearer: the peers send and finish,
then the loops copy, then they close. -/
theorem Streams.progress (held : s.Streams streams) (idleTimeout : Duration)
    (pending : ¬ s.returns.isSome = true) : s.Nears streams idleTimeout := by
  by_cases sending : ∃ side, (s.conn side).unsent ≠ []
  · obtain ⟨side, unsent⟩ := sending
    have positive := List.length_pos_iff.mpr unsent
    refine .of_step (.send side (s.conn side).unsent.length) ?_ trivial
      fun _ stepped => send_lighter stepped positive (Nat.le_refl _)
    simp [Pipe.step, sendStep, positive]
  push Not at sending
  by_cases opened : ∃ side, (s.conn side).finished = false
  · obtain ⟨side, opened⟩ := opened
    refine .of_step (.finish side) ?_ trivial fun _ stepped => finish_lighter stepped opened
    simp [Pipe.step, finishStep, sending side]
  push Not at opened
  by_cases copying : ∃ side, (s.loop side).phase.copies = true
  · obtain ⟨side, copying⟩ := copying
    exact held.copies_on idleTimeout (Bool.eq_true_of_not_eq_false (opened side)) copying
  push Not at copying
  have stopped : ∀ side, (s.loop side).phase.copies = false :=
    fun side => Bool.eq_false_iff.mpr (copying side)
  by_cases client : ∃ err, (s.loop .client).phase = .done err
  · by_cases upstream : ∃ err, (s.loop .upstream).phase = .done err
    · exact absurd (returns_isSome client upstream) pending
    · exact held.closes_on idleTimeout stopped (not_exists.mp upstream)
  · exact held.closes_on idleTimeout stopped (not_exists.mp client)

end Pipe

/-! ## Runs -/

/-- The relay as `relaySession` begins it: nothing has been relayed, no deadline
is set, and what each peer sends is what was read ahead and what is unsent. -/
structure Pipe.Relays (streams : Side → Bytes) (s : Pipe) : Prop where
  loops : ∀ side, (s.loop side).phase = .starting ∧ (s.loop side).count = 0
  conns : ∀ side, ∃ kind buffered unsent, buffered ++ unsent = streams side ∧
    s.conn side = ⟨kind, buffered, [], unsent, false, false, [], false, false, false, none⟩

theorem Pipe.Relays.streams {streams : Side → Bytes} {start : Pipe} (relays : start.Relays streams) :
    start.Streams streams where
  flow := by
    intro side
    obtain ⟨phase, count⟩ := relays.loops side
    obtain ⟨kind, buffered, unsent, whole, src⟩ := relays.conns side
    obtain ⟨_, _, _, _, dst⟩ := relays.conns side.other
    rw [src, dst]
    refine ⟨?_, count, nofun, rfl, rfl, nofun, nofun⟩
    rw [phase]
    simpa [Carried, PipeConn.rest] using whole
  closed := by
    intro which shut
    obtain ⟨_, _, _, _, conn⟩ := relays.conns which
    rw [conn] at shut
    cases shut

/-- Without an idle timeout, in every run in which a connection is closed whole
only after the other direction has been delivered, the call returns nil with
every byte of both streams delivered, and the run can always go on until it
returns.  Connections that half-close need no such care. -/
theorem bidirectional_delivers (idleTimeout : Duration) (never : idleTimeout ≤ 0)
    (streams : Side → Bytes) (start : Pipe) (relays : start.Relays streams)
    (actions : List PipeAction) (last : Pipe)
    (run : Run (Along (Pipe.ClosesAfter streams) (Steps (Pipe.step idleTimeout))) start actions
      last) :
    (∀ stats errs, last.returns = some (stats, errs) →
      errs = [] ∧ stats = ⟨(streams .upstream).length, (streams .client).length⟩ ∧
        ∀ side, last.Delivered streams side) ∧
    ∃ future final, Run (Along (Pipe.ClosesAfter streams) (Steps (Pipe.step idleTimeout))) last
      future final ∧ final.returns.isSome = true := by
  have held : ∀ past state, Run (Along (Pipe.ClosesAfter streams) (Steps (Pipe.step idleTimeout)))
      start past state → state.Streams streams := by
    apply Run.invariant fun _ state => Pipe.Streams streams state
    · exact relays.streams
    · intro past before action after _ holds stepped
      exact holds.step never stepped.1 stepped.2
  have now := held actions last run
  refine ⟨fun stats errs returned => now.returns returned, ?_⟩
  obtain ⟨future, final, rest, _, returned⟩ : ∃ future final,
      Run (Along (Pipe.ClosesAfter streams) (Steps (Pipe.step idleTimeout))) last future final ∧
        final.Streams streams ∧ final.returns.isSome = true := by
    apply Run.exists_finished (Pipe.Streams streams) (fun state => state.returns.isSome = true)
      Pipe.weight _ last.weight last (Nat.le_refl _) now
    intro state holds pending
    obtain ⟨action, after, stepped, allowed, lighter⟩ := holds.progress idleTimeout pending
    exact ⟨action, after, ⟨stepped, allowed⟩, holds.step never stepped allowed, lighter⟩
  exact ⟨future, final, rest, returned⟩

/-! ## A request and its answer -/

def sampleStreams : Side → Bytes
  | .client => ascii "request"
  | .upstream => ascii "answer"

/-- The client is the connection that authentication returned, with two bytes
read ahead; the upstream is a TCP connection. -/
def sampleRelay : Pipe where
  now := 0
  conn := fun
    | .client => ⟨.authenticatedConn .tcpConn, ascii "re", [], ascii "quest", false, false, [],
        false, false, false, none⟩
    | .upstream => ⟨.tcpConn, [], [], ascii "answer", false, false, [], false, false, false, none⟩
  loop := fun _ => ⟨.starting, 0, 0⟩

theorem sampleRelay_relays : sampleRelay.Relays sampleStreams := by
  constructor
  · intro side
    exact ⟨rfl, rfl⟩
  · intro side
    cases side with
    | client | upstream => exact ⟨_, _, _, by decide, rfl⟩

/-- The client sends its request and ends its stream; the relay delivers it. -/
def sampleRequest : List PipeAction :=
  [.arm .client, .arm .client, .arm .upstream, .arm .upstream, .read .client 2, .write .client,
    .send .client 5, .finish .client, .arm .client, .read .client 5, .write .client, .arm .client,
    .read .client 0]

def sampleAnswer : List PipeAction :=
  [.send .upstream 6, .finish .upstream, .read .upstream 6, .write .upstream]

def sampleClose (side : Side) : List PipeAction := [.closeWrite side, .closeRead side]

def sampleExchange : List PipeAction :=
  sampleRequest ++ sampleAnswer ++ [.arm .upstream, .read .upstream 0] ++ sampleClose .client ++
    sampleClose .upstream

theorem bidirectional_delivers_sample :
    ∃ last, Run (Along (Pipe.ClosesAfter sampleStreams) (Steps (Pipe.step 0))) sampleRelay
        sampleExchange last ∧
      last.returns = some (⟨6, 7⟩, []) ∧ ∀ side, last.Delivered sampleStreams side := by
  obtain ⟨last, run, returned⟩ := runSteps_reaches_along (Pipe.step 0) sampleRelay
    sampleExchange (fun last => last.returns = some (⟨6, 7⟩, [])) (Pipe.ClosesAfter sampleStreams)
    (by decide +kernel)
  exact ⟨last, run, returned, ((bidirectional_delivers 0 (by decide) sampleStreams sampleRelay
    sampleRelay_relays _ last run).1 _ _ returned).2.2⟩

/-- The client ends its stream after the request.  The loop from the client then
closes the whole connection to it, the answer cannot be written, and the call
returns nil. -/
theorem bidirectional_loses_answer :
    sampleRelay.Relays sampleStreams ∧
    ∃ last, Run (Steps (Pipe.step 0)) sampleRelay
        (sampleRequest ++ sampleClose .client ++ sampleAnswer ++ sampleClose .upstream) last ∧
      last.returns = some (⟨0, 7⟩, []) ∧ ¬ last.Delivered sampleStreams .upstream :=
  ⟨sampleRelay_relays, runSteps_reaches _ _ _ _ (by decide +kernel)⟩

end Libknock.Relay
