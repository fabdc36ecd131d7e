import Libknock.Relay.Pipe

/-!
# Idle relays

With an idle timeout every read waits at most that long.  Each loop arms the
deadline of its own connection, so data in one direction does not extend the
wait of the other.
-/

set_option autoImplicit false

namespace Libknock.Relay

open Foundation

def Phase.waits : Phase → Bool
  | .starting | .arming | .reading => true
  | _ => false

def Phase.error : Phase → Option CopyError
  | .closingWrite err | .closingRead err | .done err => err
  | _ => none

namespace Pipe

/-- The loop has moved data within the timeout, or has just begun. -/
def MovedWithin (idleTimeout : Duration) (s : Pipe) (instant : Int) (side : Side) : Prop :=
  instant < (s.loop side).moved + idleTimeout.toInt

instance (idleTimeout : Duration) (s : Pipe) (instant : Int) (side : Side) :
    Decidable (s.MovedWithin idleTimeout instant side) :=
  inferInstanceAs (Decidable (_ < _))

/-- The relay is not cancelled, and whenever the clock moves one of the
directions has moved data within the timeout. -/
def OneMoves (idleTimeout : Duration) (s : Pipe) : PipeAction → Prop
  | .cancel => False
  | .tick instant => ∃ side ∈ [Side.client, .upstream], s.MovedWithin idleTimeout instant side
  | _ => True

/-- The same of each direction that waits for data. -/
def EachMoves (idleTimeout : Duration) (s : Pipe) : PipeAction → Prop
  | .cancel => False
  | .tick instant => ∀ side ∈ [Side.client, .upstream], (s.loop side).phase.waits = true →
      s.MovedWithin idleTimeout instant side
  | _ => True

instance (idleTimeout : Duration) (s : Pipe) (action : PipeAction) :
    Decidable (s.OneMoves idleTimeout action) :=
  match action with
  | .cancel => inferInstanceAs (Decidable False)
  | .tick _ => inferInstanceAs (Decidable (∃ side ∈ [Side.client, .upstream], _))
  | .send _ _ | .finish _ | .fail _ | .arm _ | .read _ _ | .expire _ | .write _ | .closeWrite _
  | .closeRead _ => inferInstanceAs (Decidable True)

instance (idleTimeout : Duration) (s : Pipe) (action : PipeAction) :
    Decidable (s.EachMoves idleTimeout action) :=
  match action with
  | .cancel => inferInstanceAs (Decidable False)
  | .tick _ => inferInstanceAs (Decidable (∀ side ∈ [Side.client, .upstream], _ → _))
  | .send _ _ | .finish _ | .fail _ | .arm _ | .read _ _ | .expire _ | .write _ | .closeWrite _
  | .closeRead _ => inferInstanceAs (Decidable True)

def PeersOpen (s : Pipe) : Prop :=
  ∀ side, (s.conn side).finished = false ∧ (s.conn side).failed = false

def OpenConn (c : PipeConn) : Prop :=
  c.closed = false ∧ c.readClosed = false ∧ c.writeClosed = false

/-- No loop has ended on a deadline, and none has ended at all, nor has a
connection been closed, while the peers are there. -/
structure KeptOpen (s : Pipe) : Prop where
  unexpired : ∀ side, (s.loop side).phase.error ≠ some .deadlineExceeded
  copying : s.PeersOpen → ∀ side, (s.loop side).phase.copies = true ∧ OpenConn (s.conn side)

/-- The deadline of a waiting read lies at least the timeout after the last data
of its loop. -/
structure Watched (idleTimeout : Duration) (s : Pipe) : Prop extends KeptOpen s where
  past : ∀ side, (s.loop side).moved ≤ s.now
  recent : ∀ side, (s.loop side).phase.waits = true → s.MovedWithin idleTimeout s.now side
  armed : ∀ side, (s.loop side).phase = .reading →
    ∃ instant, (s.conn side).deadline = some instant ∧
      (s.loop side).moved + idleTimeout.toInt ≤ instant

/-! ## Steps -/

variable {idleTimeout : Duration} {s next : Pipe} {side : Side}

section

variable (watched : s.Watched idleTimeout)

include watched

theorem Watched.setConn {c : PipeConn} (peers : c.finished = false ∧ c.failed = false →
      (s.conn side).finished = false ∧ (s.conn side).failed = false)
    (opened : s.PeersOpen → OpenConn c)
    (deadline : (s.loop side).phase = .reading → c.deadline = (s.conn side).deadline) :
    (s.setConn side c).Watched idleTimeout where
  unexpired := watched.unexpired
  copying := by
    intro peersOpen
    have before : s.PeersOpen := by
      intro which
      rcases side.eq_or_other which with rfl | rfl
      · exact peers (by simpa using peersOpen which)
      · simpa using peersOpen side.other
    intro which
    refine ⟨(watched.copying before which).1, ?_⟩
    rcases side.eq_or_other which with rfl | rfl
    · simpa using opened before
    · simpa using (watched.copying before side.other).2
  past := watched.past
  recent := watched.recent
  armed := by
    intro which at_
    rcases side.eq_or_other which with rfl | rfl
    · obtain ⟨instant, set, late⟩ := watched.armed which at_
      exact ⟨instant, by simpa [deadline at_] using set, late⟩
    · simpa using watched.armed side.other at_

theorem Watched.setLoop {l : Loop} (unexpired : l.phase.error ≠ some .deadlineExceeded)
    (copying : s.PeersOpen → l.phase.copies = true) (past : l.moved ≤ s.now)
    (recent : l.phase.waits = true → s.now < l.moved + idleTimeout.toInt)
    (armed : l.phase = .reading → ∃ instant, (s.conn side).deadline = some instant ∧
      l.moved + idleTimeout.toInt ≤ instant) :
    Watched idleTimeout { s with loop := Function.update s.loop side l } where
  unexpired := by
    intro which
    rcases side.eq_or_other which with rfl | rfl
    · simpa using unexpired
    · simpa using watched.unexpired side.other
  copying := by
    intro peersOpen which
    refine ⟨?_, (watched.copying peersOpen which).2⟩
    rcases side.eq_or_other which with rfl | rfl
    · simpa using copying peersOpen
    · simpa using (watched.copying peersOpen side.other).1
  past := by
    intro which
    rcases side.eq_or_other which with rfl | rfl
    · simpa using past
    · simpa using watched.past side.other
  recent := by
    intro which waits
    rcases side.eq_or_other which with rfl | rfl
    · simp only [Function.update_self] at waits
      simpa [MovedWithin] using recent waits
    · simp only [ne_eq, Side.other_ne, not_false_eq_true, Function.update_of_ne] at waits
      simpa [MovedWithin] using watched.recent side.other waits
  armed := by
    intro which at_
    rcases side.eq_or_other which with rfl | rfl
    · simp only [Function.update_self] at at_
      simpa using armed at_
    · simp only [ne_eq, Side.other_ne, not_false_eq_true, Function.update_of_ne] at at_
      simpa using watched.armed side.other at_

theorem Watched.ends {phase : Phase} (unexpired : phase.error ≠ some .deadlineExceeded)
    (stops : phase.waits = false)
    (reason : ¬ s.PeersOpen) : (s.setPhase side phase).Watched idleTimeout := by
  apply watched.setLoop unexpired
  · exact fun peersOpen => absurd peersOpen reason
  · exact watched.past side
  · intro waits
    rw [stops] at waits
    cases waits
  · intro at_
    simp only at at_
    rw [at_] at stops
    cases stops

theorem Watched.arm (positive : 0 < idleTimeout) (stepped : s.armStep idleTimeout side = some next) :
    next.Watched idleTimeout := by
  obtain ⟨phase, moves, rfl⟩ := armStep_some stepped
  have waits : (s.loop side).phase.waits = true ∧ (s.loop side).phase ≠ .reading := by
    rcases moves with ⟨at_, _⟩ | ⟨at_, _⟩
    · rw [at_]
      exact ⟨rfl, nofun⟩
    · rw [at_]
      exact ⟨rfl, nofun⟩
  have after : phase.waits = true ∧ phase.copies = true ∧ phase.error = none := by
    rcases moves with ⟨_, rfl⟩ | ⟨_, rfl⟩
    · exact ⟨rfl, rfl, rfl⟩
    · exact ⟨rfl, rfl, rfl⟩
  have set : (s.conn side).setReadDeadline idleTimeout s.now =
      { s.conn side with deadline := some (addDuration s.now idleTimeout) } :=
    if_pos positive
  have armed : (s.setConn side ((s.conn side).setReadDeadline idleTimeout s.now)).Watched
      idleTimeout := by
    rw [set]
    apply watched.setConn
    · exact id
    · exact fun peersOpen => (watched.copying peersOpen side).2
    · exact fun at_ => absurd at_ waits.2
  have past := watched.past side
  apply armed.setLoop
  · simp [after.2.2]
  · exact fun _ => after.2.1
  · exact past
  · exact fun _ => watched.recent side waits.1
  · intro _
    refine ⟨addDuration s.now idleTimeout, by simp [set], ?_⟩
    simp only [setConn_loop, addDuration]
    omega

theorem Watched.read {size : Nat} (stepped : s.readStep side size = some next) :
    next.Watched idleTimeout := by
  obtain ⟨at_, result, c, returned, rfl⟩ := readStep_some stepped
  rcases PipeConn.read_some returned with
    ⟨chunk, rfl, _, _, buffered, arrived, rfl⟩ | ⟨rfl, rfl, _, _, ended⟩ | ⟨rfl, rfl, closed⟩ |
      ⟨rfl, rfl, failed⟩
  · have took : (s.setConn side { s.conn side with buffered, arrived }).Watched idleTimeout := by
      apply watched.setConn
      · exact id
      · exact fun peersOpen => (watched.copying peersOpen side).2
      · exact fun _ => rfl
    apply took.setLoop
    · simp [afterRead, Phase.error]
    · exact fun _ => rfl
    · exact watched.past side
    · exact nofun
    · exact nofun
  · -- The end of the stream: the peer has finished, or the loop had ended before.
    rw [setConn_self]
    apply watched.ends
    · simp [afterRead, Phase.error]
    · rfl
    intro peersOpen
    rcases ended with finished | readClosed
    · rw [(peersOpen side).1] at finished
      cases finished
    · rw [(watched.copying peersOpen side).2.2.1] at readClosed
      cases readClosed
  · rw [setConn_self]
    apply watched.ends
    · simp [afterRead, Phase.error]
    · rfl
    · intro peersOpen
      rw [(watched.copying peersOpen side).2.1] at closed
      cases closed
  · rw [setConn_self]
    apply watched.ends
    · simp [afterRead, Phase.error]
    · rfl
    · intro peersOpen
      rw [(peersOpen side).2] at failed
      cases failed

theorem Watched.no_expiry : s.expireStep side = none := by
  cases stepped : s.expireStep side with
  | none => rfl
  | some next =>
    exfalso
    obtain ⟨at_, ⟨_, _, instant, member, passed⟩, _⟩ := expireStep_some stepped
    obtain ⟨armed, set, late⟩ := watched.armed side at_
    have recent := watched.recent side (by rw [at_]; rfl)
    rw [set, Option.mem_some_iff] at member
    unfold MovedWithin at recent
    omega

theorem Watched.write (positive : 0 < idleTimeout) (stepped : s.writeStep side = some next) :
    next.Watched idleTimeout := by
  obtain ⟨chunk, at_, ⟨err, failed, rfl⟩ | ⟨c, written, rfl⟩⟩ := writeStep_some stepped
  · have broken : err ≠ .deadlineExceeded ∧ ¬ s.PeersOpen := by
      rcases (s.conn side.other).write_cases chunk with ⟨answer, closed⟩ | ⟨answer, reset⟩ |
        ⟨answer, _⟩
      · rw [answer] at failed
        cases failed
        refine ⟨nofun, fun peersOpen => ?_⟩
        rw [(watched.copying peersOpen side.other).2.1] at closed
        cases closed
      · rw [answer] at failed
        cases failed
        refine ⟨nofun, fun peersOpen => ?_⟩
        rcases reset with reset | shut
        · rw [(peersOpen side.other).2] at reset
          cases reset
        · rw [(watched.copying peersOpen side.other).2.2.2] at shut
          cases shut
      · rw [answer] at failed
        cases failed
    apply watched.ends
    · simpa [Phase.error] using broken.1
    · rfl
    · exact broken.2
  · have delivered : (s.setConn side.other c).Watched idleTimeout := by
      rw [PipeConn.eq_of_write written]
      apply watched.setConn
      · exact id
      · exact fun peersOpen => (watched.copying peersOpen side.other).2
      · exact fun _ => rfl
    have span := Int64.lt_iff_toInt_lt.mp positive
    rw [Int64.toInt_zero] at span
    apply delivered.setLoop
    · simp [Phase.error]
    · exact fun _ => rfl
    · exact Int.le_refl _
    · intro _
      simp only [setConn_now]
      omega
    · exact nofun

theorem Watched.closes {which : Side} {c : PipeConn} {phase : Phase}
    (stopped : (s.loop side).phase.copies = false) (deadline : c.deadline = (s.conn which).deadline)
    (stops : phase.waits = false) (same : phase.error = (s.loop side).phase.error)
    (peers : c.finished = (s.conn which).finished ∧ c.failed = (s.conn which).failed) :
    ((s.setConn which c).setPhase side phase).Watched idleTimeout := by
  have ended : ¬ s.PeersOpen := by
    intro peersOpen
    rw [(watched.copying peersOpen side).1] at stopped
    cases stopped
  have shut : (s.setConn which c).Watched idleTimeout := by
    apply watched.setConn
    · rw [peers.1, peers.2]
      exact id
    · exact fun peersOpen => absurd peersOpen ended
    · exact fun _ => deadline
  apply shut.ends
  · rw [same]
    exact watched.unexpired side
  · exact stops
  intro peersOpen
  apply ended
  intro another
  rcases which.eq_or_other another with rfl | rfl
  · have still := peersOpen another
    rw [setConn_conn_self, peers.1, peers.2] at still
    exact still
  · simpa using peersOpen which.other

theorem Watched.step (positive : 0 < idleTimeout) {action : PipeAction}
    (stepped : s.step idleTimeout action = some next)
    (moves : s.EachMoves idleTimeout action) : next.Watched idleTimeout := by
  cases action with
  | send side size =>
    rw [sendStep_some stepped]
    apply watched.setConn
    · exact id
    · exact fun peersOpen => (watched.copying peersOpen side).2
    · exact fun _ => rfl
  | finish side =>
    rw [(finishStep_some stepped).2]
    apply watched.setConn
    · exact fun peers => nomatch peers.1
    · exact fun peersOpen => (watched.copying peersOpen side).2
    · exact fun _ => rfl
  | fail side =>
    cases stepped
    apply watched.setConn
    · exact fun peers => nomatch peers.2
    · exact fun peersOpen => (watched.copying peersOpen side).2
    · exact fun _ => rfl
  | tick instant =>
    rw [Pipe.step, Option.ite_none_right_eq_some] at stepped
    obtain ⟨later, same⟩ := stepped
    cases same
    refine ⟨⟨watched.unexpired, watched.copying⟩, ?_, ?_, watched.armed⟩
    · exact fun side => Int.le_trans (watched.past side) later
    · intro side waits
      exact moves side (by cases side <;> simp) waits
  | cancel => cases moves
  | arm side => exact watched.arm positive stepped
  | read side size => exact watched.read stepped
  | expire side =>
    rw [Pipe.step, watched.no_expiry] at stepped
    cases stepped
  | write side => exact watched.write positive stepped
  | closeWrite side =>
    obtain ⟨err, at_, rfl⟩ := closeWriteStep_some stepped
    obtain ⟨closed, writeClosed, shape, _⟩ := (s.conn side.other).closeWrite_cases
    rw [shape]
    apply watched.closes
    · rw [at_]
      rfl
    · rfl
    · rfl
    · rw [at_]
      rfl
    · exact ⟨rfl, rfl⟩
  | closeRead side =>
    obtain ⟨err, at_, rfl⟩ := closeReadStep_some stepped
    obtain ⟨closed, readClosed, shape, _⟩ := (s.conn side).closeRead_cases
    rw [shape]
    apply watched.closes
    · rw [at_]
      rfl
    · rfl
    · rfl
    · rw [at_]
      rfl
    · exact ⟨rfl, rfl⟩

end

end Pipe

/-! ## Runs -/

/-- A relay that begins: nothing is closed, both peers are there. -/
structure Pipe.Begins (s : Pipe) : Prop where
  loops : ∀ side, (s.loop side).phase = .starting ∧ (s.loop side).moved = s.now
  conns : ∀ side, Pipe.OpenConn (s.conn side)

/-- While each direction that waits for data has moved some within the timeout,
the relay ends no direction on a deadline and closes nothing before a peer
does. -/
theorem idleTimeout_keeps_moving (idleTimeout : Duration) (positive : 0 < idleTimeout)
    (start : Pipe) (begins : start.Begins) (actions : List PipeAction) (last : Pipe)
    (run : Run (Along (Pipe.EachMoves idleTimeout) (Steps (Pipe.step idleTimeout))) start actions
      last) : last.KeptOpen := by
  have watched : ∀ past state, Run (Along (Pipe.EachMoves idleTimeout)
      (Steps (Pipe.step idleTimeout))) start past state → state.Watched idleTimeout := by
    apply Run.invariant fun _ state => Pipe.Watched idleTimeout state
    · have span := Int64.lt_iff_toInt_lt.mp positive
      rw [Int64.toInt_zero] at span
      constructor
      · constructor
        · intro side
          rw [(begins.loops side).1]
          exact nofun
        · intro _ side
          rw [(begins.loops side).1]
          exact ⟨rfl, begins.conns side⟩
      · exact fun side => Int.le_of_eq (begins.loops side).2
      · intro side _
        rw [Pipe.MovedWithin, (begins.loops side).2]
        omega
      · intro side at_
        rw [(begins.loops side).1] at at_
        cases at_
    · intro past before action after _ holds stepped
      exact holds.step positive stepped.1 stepped.2
  exact (watched actions last run).toKeptOpen

/-! ## A download -/

def samplePipe : Pipe where
  now := 0
  conn := fun
    | .client => ⟨.authenticatedConn .tcpConn, [], [], ascii "xyz", false, false, [], false, false,
        false, none⟩
    | .upstream => ⟨.tcpConn, [], [], ascii "abcdef", false, false, [], false, false, false, none⟩
  loop := fun _ => ⟨.starting, 0, 0⟩

def sampleBegin : List PipeAction :=
  [.arm .client, .arm .client, .arm .upstream, .arm .upstream]

def sampleByte (side : Side) (instant : Int) : List PipeAction :=
  [.tick (instant * 1000000000), .send side 1, .read side 1, .write side, .arm side]

theorem samplePipe_begins : samplePipe.Begins := by
  constructor
  · intro side
    exact ⟨rfl, rfl⟩
  · intro side
    cases side
    · exact ⟨rfl, rfl, rfl⟩
    · exact ⟨rfl, rfl, rfl⟩

def sampleTalk : List PipeAction :=
  sampleBegin ++ sampleByte .upstream 4 ++ sampleByte .client 6 ++ sampleByte .upstream 12 ++
    sampleByte .client 15

/-- Both send, the client 9 seconds after its last byte. -/
theorem idleTimeout_keeps_moving_sample :
    ∃ last, Run (Along (Pipe.EachMoves (10 * second)) (Steps (Pipe.step (10 * second)))) samplePipe
        sampleTalk last ∧ last.now = 15000000000 ∧ (last.conn .client).received = ascii "ab" ∧
      (last.conn .upstream).received = ascii "xy" ∧ last.KeptOpen := by
  obtain ⟨last, run, now, client, upstream⟩ := runSteps_reaches_along (Pipe.step (10 * second))
    samplePipe sampleTalk (fun last => last.now = 15000000000 ∧
      (last.conn .client).received = ascii "ab" ∧ (last.conn .upstream).received = ascii "xy")
    (Pipe.EachMoves (10 * second)) (by decide +kernel)
  exact ⟨last, run, now, client, upstream,
    idleTimeout_keeps_moving (10 * second) (by decide) samplePipe samplePipe_begins _ last run⟩

/-- The upstream sends a byte every four seconds and the client nothing: after
ten seconds the read from the client expires, and the connection to it is
closed in the middle of the download. -/
theorem idleTimeout_ends_download :
    samplePipe.Begins ∧
    ∃ last, Run (Along (Pipe.OneMoves (10 * second)) (Steps (Pipe.step (10 * second)))) samplePipe
        (sampleBegin ++ sampleByte .upstream 4 ++ sampleByte .upstream 8 ++
          [.tick 10000000000, .expire .client, .closeWrite .client, .closeRead .client]) last ∧
      (last.loop .client).phase = .done (some .deadlineExceeded) ∧
      (last.conn .client).closed = true ∧ last.PeersOpen := by
  obtain ⟨last, run, ended, closed, client, upstream⟩ := runSteps_reaches_along
    (Pipe.step (10 * second)) samplePipe
    (sampleBegin ++ sampleByte .upstream 4 ++ sampleByte .upstream 8 ++
      [.tick 10000000000, .expire .client, .closeWrite .client, .closeRead .client])
    (fun last => (last.loop .client).phase = .done (some .deadlineExceeded) ∧
      (last.conn .client).closed = true ∧
      ((last.conn .client).finished = false ∧ (last.conn .client).failed = false) ∧
      (last.conn .upstream).finished = false ∧ (last.conn .upstream).failed = false)
    (Pipe.OneMoves (10 * second)) (by decide +kernel)
  refine ⟨samplePipe_begins, last, run, ended, closed, ?_⟩
  intro side
  cases side with
  | client => exact client
  | upstream => exact upstream

end Libknock.Relay
