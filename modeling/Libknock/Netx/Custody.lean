import Libknock.Foundation.Tally
import Libknock.Netx.Listener

/-!
# Who has a connection

At every moment a connection of the authenticated listener is in the hands of
the accept loop or of a worker, waits in the queue, or is settled, and the
limiter counts the slots of those that have not given theirs back.  Once all
have terminated every connection is settled, provided that none is left in the
queue alone: the last worker must not leave through `done` while one waits, and
the accept loop must not put one there after it.
-/

set_option autoImplicit false

namespace Libknock.Netx

open Foundation

def LoopPhase.holds : LoopPhase → Nat → Prop
  | .acquiring held, conn | .offering held, conn => held = conn
  | _, _ => False

def WorkerPhase.holds : WorkerPhase → Nat → Prop
  | .tracking held, conn | .authenticating held, conn | .untracking held _, conn
  | .releasing held _, conn | .handing held, conn => held = conn
  | _, _ => False

def WorkerPhase.refused : WorkerPhase → Nat → Prop
  | .untracking held false, conn | .releasing held false, conn => held = conn
  | _, _ => False

/-- The worker that leaves through `done`. -/
def ListenerAction.abandons {Key : Type} {workers : Nat} :
    ListenerAction Key workers → Option (Fin workers)
  | .abandon i => some i
  | _ => none

def ListenerAction.enqueues {Key : Type} {workers : Nat} : ListenerAction Key workers → Bool
  | .enqueue => true
  | _ => false

/-- The connection whose slot the accept loop has taken. -/
def LoopPhase.slot : LoopPhase → Multiset Nat
  | .offering conn => {conn}
  | _ => 0

def WorkerPhase.slot : WorkerPhase → Multiset Nat
  | .tracking conn | .authenticating conn | .untracking conn _ | .releasing conn _ => {conn}
  | _ => 0

variable {conn : Nat}

theorem LoopPhase.slot_of_free {phase : LoopPhase} (free : ∀ conn, ¬ phase.holds conn) :
    phase.slot = 0 := by
  cases phase with
  | offering conn => exact absurd rfl (free conn)
  | _ => rfl

namespace AuthListener

variable {Key : Type} {workers : Nat}

/-- Someone has the connection, or it is settled. -/
def Kept (l : AuthListener Key workers) (conn : Nat) : Prop :=
  l.Settled conn ∨ l.loop.holds conn ∨ conn ∈ l.pending ∨ ∃ i, (l.worker i).holds conn

/-- The connections whose slots are taken. -/
def slots (l : AuthListener Key workers) : Multiset Nat :=
  l.loop.slot + l.pending + ∑ i, (l.worker i).slot

def source (l : AuthListener Key workers) (conn : Nat) : Option Key := (l.conns conn).source

/-- A worker leaves through `done` only while another works or when nothing
waits, and a connection is queued only while a worker works. -/
def LeavesAttended (l : AuthListener Key workers) (action : ListenerAction Key workers) : Prop :=
  (∀ i ∈ action.abandons, (∃ j, j ≠ i ∧ l.worker j ≠ .ended) ∨ l.pending = []) ∧
    (action.enqueues = true → ∃ i, l.worker i ≠ .ended)

instance (l : AuthListener Key workers) (action : ListenerAction Key workers) :
    Decidable (l.LeavesAttended action) :=
  inferInstanceAs (Decidable (_ ∧ _))

/-- What is true of a connection stays true; only the accept loop takes slots. -/
structure Grows (l next : AuthListener Key workers) : Prop where
  source : ∀ conn < l.count, next.source conn = l.source conn
  count : l.count ≤ next.count
  closed : ∀ conn, (l.conns conn).closed = true → (next.conns conn).closed = true
  handed : ∀ conn, (l.conns conn).handed = true → (next.conns conn).handed = true
  released : ∀ conn, (l.conns conn).released = true → (next.conns conn).released = true
  acquired : ∀ conn, (next.conns conn).acquired = true →
    (l.conns conn).acquired = true ∨ next.loop = .offering conn

variable {l next : AuthListener Key workers}

theorem Grows.kept (grows : l.Grows next) (settled : l.Settled conn) : next.Kept conn := by
  by_cases offered : next.loop = .offering conn
  · exact Or.inr (Or.inl (by rw [offered]; rfl))
  left
  constructor
  · rcases settled.1 with closed | handed
    · exact Or.inl (grows.closed conn closed)
    · exact Or.inr (grows.handed conn handed)
  · intro acquired
    rcases grows.acquired conn acquired with before | now
    · exact grows.released conn (settled.2 before)
    · exact absurd now offered

theorem Grows.of_conns (same : next.conns = l.conns) (count : next.count = l.count) :
    l.Grows next := by
  constructor
  · exact fun conn _ => congrArg (fun conns => (conns conn).source) same
  · exact count.ge
  · exact fun conn closed => same ▸ closed
  · exact fun conn handed => same ▸ handed
  · exact fun conn released => same ▸ released
  · exact fun conn acquired => Or.inl (same ▸ acquired)

theorem Grows.of_update {record : Accepted Key}
    (same : next.conns = Function.update l.conns conn record) (count : l.count ≤ next.count)
    (source : conn < l.count → record.source = l.source conn)
    (closed : (l.conns conn).closed = true → record.closed = true)
    (handed : (l.conns conn).handed = true → record.handed = true)
    (released : (l.conns conn).released = true → record.released = true)
    (acquired : record.acquired = true →
      (l.conns conn).acquired = true ∨ next.loop = .offering conn) : l.Grows next := by
  refine ⟨?_, count, ?_, ?_, ?_, ?_⟩
  · intro which below
    by_cases own : which = conn
    · subst own
      simpa [AuthListener.source, same] using source below
    · simp [AuthListener.source, same, own]
  all_goals
    intro which
    rw [same]
    by_cases own : which = conn
    · subst own
      rw [Function.update_self]
      assumption
    · rw [Function.update_of_ne own]
      first
      | exact id
      | exact Or.inl

variable [DecidableEq Key]

structure Custody (l : AuthListener Key workers) : Prop where
  kept : ∀ conn < l.count, l.Kept conn
  untaken : ∀ conn, l.loop = .acquiring conn → (l.conns conn).acquired = false
  freed : ∀ i conn, l.worker i = .handing conn → (l.conns conn).released = true
  shut : ∀ i conn, (l.worker i).refused conn → (l.conns conn).closed = true
  attended : (∃ i, l.worker i ≠ .ended) ∨ l.pending = []
  known : ∀ conn, l.loop.holds conn ∨ conn ∈ l.slots → conn < l.count
  counted : l.perSource.Holds (l.slots.map l.source)

/-- What the step does to the slots of the connections that have one. -/
def Exchanges (l next : AuthListener Key workers) : Prop :=
  ∃ old new rest : Multiset Nat, l.slots = old + rest ∧ next.slots = new + rest ∧
    (∀ conn ∈ new, l.loop.holds conn ∨ conn ∈ old) ∧
    l.perSource.Moves (old.map l.source) next.perSource (new.map l.source)

variable {i : Fin workers}

theorem Exchanges.same (slots : next.slots = l.slots) (perSource : next.perSource = l.perSource) :
    l.Exchanges next := by
  refine ⟨0, 0, l.slots, (zero_add _).symm, slots.trans (zero_add _).symm, nofun, ?_⟩
  rw [perSource]
  exact .stays

theorem Exchanges.worker {phase : WorkerPhase}
    (worker : next.worker = Function.update l.worker i phase) (loop : next.loop = l.loop)
    (pending : next.pending = l.pending) (mine : phase.slot ⊆ (l.worker i).slot)
    (moves : l.perSource.Moves ((l.worker i).slot.map l.source) next.perSource
      (phase.slot.map l.source)) : l.Exchanges next := by
  obtain ⟨rest, before, after⟩ := sum_update_split WorkerPhase.slot l.worker (Finset.mem_univ i)
  refine ⟨_, _, l.loop.slot + l.pending + rest, ?_, ?_, fun _ taken => Or.inr (mine taken), moves⟩
  · rw [slots, before, add_left_comm]
  · rw [slots, worker, loop, pending, after, add_left_comm]

section

variable (custody : l.Custody) (grows : l.Grows next)

include custody grows

theorem Custody.exchange (exchanges : l.Exchanges next) :
    (∀ conn ∈ next.slots, conn < next.count) ∧ next.perSource.Holds (next.slots.map next.source) := by
  obtain ⟨old, new, rest, before, after, mine, moves⟩ := exchanges
  have below : ∀ conn ∈ next.slots, conn < l.count := by
    intro conn member
    apply custody.known
    rw [before, Multiset.mem_add]
    rw [after, Multiset.mem_add] at member
    rcases member with taken | kept
    · exact (mine conn taken).imp_right Or.inl
    · exact Or.inr (Or.inr kept)
  refine ⟨fun conn member => (below conn member).trans_le grows.count, ?_⟩
  rw [Multiset.map_congr rfl fun conn member => grows.source conn (below conn member), after,
    Multiset.map_add]
  refine Limiter.Holds.moves ?_ moves
  rw [← Multiset.map_add, ← before]
  exact custody.counted

theorem Custody.loop_step (workers : next.worker = l.worker)
    (fresh : ∀ conn < next.count, conn < l.count ∨ next.loop.holds conn)
    (known : ∀ conn, next.loop.holds conn → conn < next.count)
    (untaken : ∀ conn, next.loop = .acquiring conn → (next.conns conn).acquired = false)
    (waiting : ∀ conn ∈ l.pending, conn ∈ next.pending)
    (held : ∀ conn, l.loop.holds conn → next.Kept conn)
    (attended : next.pending = l.pending ∨ ∃ i, l.worker i ≠ .ended)
    (exchanges : l.Exchanges next) : next.Custody where
  kept := by
    intro conn inside
    rcases fresh conn inside with before | now
    · rcases custody.kept conn before with settled | loop | queued | ⟨i, worker⟩
      · exact grows.kept settled
      · exact held conn loop
      · exact Or.inr (Or.inr (Or.inl (waiting conn queued)))
      · exact Or.inr (Or.inr (Or.inr ⟨i, workers ▸ worker⟩))
    · exact Or.inr (Or.inl now)
  untaken := untaken
  freed := by
    intro i conn handing
    rw [workers] at handing
    exact grows.released conn (custody.freed i conn handing)
  shut := by
    intro i conn refused
    rw [workers] at refused
    exact grows.closed conn (custody.shut i conn refused)
  attended := by
    rw [workers]
    rcases attended with same | busy
    · rw [same]
      exact custody.attended
    · exact Or.inl busy
  known := by
    rintro conn (holds | taken)
    · exact known conn holds
    · exact (custody.exchange grows exchanges).1 conn taken
  counted := (custody.exchange grows exchanges).2

theorem Custody.worker_step (i : Fin workers)
    {phase : WorkerPhase} (worker : next.worker = Function.update l.worker i phase)
    (count : next.count = l.count) (loop : next.loop = l.loop)
    (waiting : ∀ conn ∈ l.pending, conn ∈ next.pending ∨ phase.holds conn)
    (held : ∀ conn, (l.worker i).holds conn → phase.holds conn ∨ next.Settled conn)
    (freed : ∀ conn, phase = .handing conn → (next.conns conn).released = true)
    (shut : ∀ conn, phase.refused conn → (next.conns conn).closed = true)
    (attended : phase ≠ .ended ∨ (∃ j, j ≠ i ∧ l.worker j ≠ .ended) ∨ next.pending = [])
    (exchanges : l.Exchanges next) : next.Custody where
  kept := by
    have own : ∀ conn, phase.holds conn → next.Kept conn := by
      intro conn holds
      refine Or.inr (Or.inr (Or.inr ⟨i, ?_⟩))
      simpa [worker] using holds
    intro conn inside
    rw [count] at inside
    rcases custody.kept conn inside with settled | loopHeld | queued | ⟨j, workerHeld⟩
    · exact grows.kept settled
    · exact Or.inr (Or.inl (loop ▸ loopHeld))
    · rcases waiting conn queued with still | taken
      · exact Or.inr (Or.inr (Or.inl still))
      · exact own conn taken
    · by_cases same : j = i
      · subst same
        rcases held conn workerHeld with still | settled
        · exact own conn still
        · exact Or.inl settled
      · refine Or.inr (Or.inr (Or.inr ⟨j, ?_⟩))
        simpa [worker, same] using workerHeld
  untaken := by
    intro conn acquiring
    apply Bool.eq_false_iff.mpr
    intro acquired
    rcases grows.acquired conn acquired with before | offered
    · rw [custody.untaken conn (loop ▸ acquiring)] at before
      cases before
    · rw [acquiring] at offered
      cases offered
  freed := by
    intro j conn handing
    by_cases same : j = i
    · subst same
      rw [worker, Function.update_self] at handing
      exact freed conn handing
    · rw [worker, Function.update_of_ne same] at handing
      exact grows.released conn (custody.freed j conn handing)
  shut := by
    intro j conn refused
    by_cases same : j = i
    · subst same
      rw [worker, Function.update_self] at refused
      exact shut conn refused
    · rw [worker, Function.update_of_ne same] at refused
      exact grows.closed conn (custody.shut j conn refused)
  attended := by
    rcases attended with busy | ⟨j, other, busy⟩ | idle
    · refine Or.inl ⟨i, ?_⟩
      simpa [worker] using busy
    · refine Or.inl ⟨j, ?_⟩
      simpa [worker, other] using busy
    · exact Or.inr idle
  known := by
    rintro conn (holds | taken)
    · exact (custody.known conn (Or.inl (loop ▸ holds))).trans_le grows.count
    · exact (custody.exchange grows exchanges).1 conn taken
  counted := (custody.exchange grows exchanges).2

theorem Custody.worker_keeps {before phase : WorkerPhase} (at_ : l.worker i = before)
    (worker : next.worker = Function.update l.worker i phase) (count : next.count = l.count)
    (loop : next.loop = l.loop) (pending : next.pending = l.pending)
    (held : ∀ conn, before.holds conn = phase.holds conn) (unfreed : ∀ conn, phase ≠ .handing conn)
    (shut : ∀ conn, phase.refused conn → (next.conns conn).closed = true) (running : phase ≠ .ended)
    (slot : phase.slot = before.slot) (perSource : next.perSource = l.perSource) :
    next.Custody := by
  apply custody.worker_step grows i worker count loop
  · intro conn queued
    exact Or.inl (pending ▸ queued)
  · intro conn holds
    rw [at_] at holds
    exact Or.inl (held conn ▸ holds)
  · intro conn handing
    exact absurd handing (unfreed conn)
  · exact shut
  · exact Or.inl running
  · apply Exchanges.worker worker loop pending
    · rw [at_, slot]
      exact fun _ => id
    · rw [at_, slot, perSource]
      exact .stays

end

/-! ## Steps -/

section

variable (custody : l.Custody)

include custody

theorem Custody.idle_step (conns : next.conns = l.conns)
    (workers : next.worker = l.worker) (count : next.count = l.count)
    (pending : next.pending = l.pending) (perSource : next.perSource = l.perSource)
    (loop : next.loop = l.loop ∨ (∀ conn, ¬ l.loop.holds conn) ∧ ∀ conn, ¬ next.loop.holds conn) :
    next.Custody := by
  have grows := Grows.of_conns conns count
  rcases loop with same | ⟨free, after⟩
  · refine custody.loop_step grows workers (fun conn inside => Or.inl (count ▸ inside)) ?_ ?_
      (fun conn queued => pending ▸ queued) (fun conn held => Or.inr (Or.inl (same ▸ held)))
      (Or.inl pending) (.same (by rw [slots, slots, same, workers, pending]) perSource)
    · intro conn holds
      exact count ▸ custody.known conn (Or.inl (same ▸ holds))
    · intro conn acquiring
      rw [conns]
      exact custody.untaken conn (same ▸ acquiring)
  · refine custody.loop_step grows workers (fun conn inside => Or.inl (count ▸ inside))
      (fun conn holds => absurd holds (after conn)) ?_ (fun conn queued => pending ▸ queued)
      (fun conn held => absurd held (free conn)) (Or.inl pending) (.same ?_ perSource)
    · intro conn acquiring
      exact absurd (by rw [acquiring]; rfl) (after conn)
    · rw [slots, slots, workers, pending, LoopPhase.slot_of_free free, LoopPhase.slot_of_free after]

theorem Custody.moveLoop {before after : LoopPhase} (stepped : l.moveLoop before after = some next)
    (free : ∀ conn, ¬ before.holds conn) (other : ∀ conn, ¬ after.holds conn) : next.Custody := by
  rw [AuthListener.moveLoop, Option.ite_none_right_eq_some] at stepped
  obtain ⟨at_, same⟩ := stepped
  cases same
  refine custody.idle_step rfl rfl rfl rfl rfl (Or.inr ⟨?_, other⟩)
  rw [at_]
  exact free

theorem Custody.moveCloser {before after : ClosePhase}
    (stepped : l.moveCloser before after = some next) : next.Custody := by
  rw [AuthListener.moveCloser, Option.ite_none_right_eq_some] at stepped
  rw [← Option.some.inj stepped.2]
  exact custody.idle_step rfl rfl rfl rfl rfl (Or.inl rfl)

theorem Custody.accept {source : Option Key}
    (stepped : l.acceptStep source = some next) : next.Custody := by
  rw [acceptStep, Option.ite_none_right_eq_some] at stepped
  obtain ⟨⟨at_, _⟩, same⟩ := stepped
  cases same
  apply custody.loop_step
  · exact Grows.of_update rfl (Nat.le_succ _) (fun below => absurd below (Nat.lt_irrefl _)) id id id
      nofun
  · rfl
  · intro conn inside
    rcases Nat.lt_succ_iff_lt_or_eq.mp inside with before | rfl
    · exact Or.inl before
    · exact Or.inr rfl
  · intro conn holds
    rw [← show l.count = conn from holds]
    exact Nat.lt_succ_self _
  · intro conn acquiring
    cases acquiring
    simp [setConn]
  · exact fun _ queued => queued
  · intro conn held
    rw [at_] at held
    cases held
  · exact Or.inl rfl
  · refine .same ?_ rfl
    simp [slots, setConn, at_, LoopPhase.slot]

theorem Custody.loop_settles (conn : Nat) (grows : l.Grows next) (workers : next.worker = l.worker)
    (count : next.count = l.count) (pending : next.pending = l.pending)
    (held : ∀ other, l.loop.holds other → other = conn) (free : ∀ other, ¬ next.loop.holds other)
    (settled : next.Settled conn) (exchanges : l.Exchanges next) : next.Custody := by
  refine custody.loop_step grows workers (fun other inside => Or.inl (count ▸ inside))
    (fun other holds => absurd holds (free other)) ?_ (fun other queued => pending ▸ queued) ?_
    (Or.inl pending) exchanges
  · intro other acquiring
    exact absurd (by rw [acquiring]; rfl) (free other)
  · intro other holds
    rw [held other holds]
    exact Or.inl settled

theorem Custody.enqueue (stepped : l.enqueueStep = some next) (busy : ∃ i, l.worker i ≠ .ended) :
    next.Custody := by
  unfold enqueueStep at stepped
  split at stepped
  · rename_i conn at_
    obtain ⟨_, ⟨⟩⟩ := Option.ite_none_right_eq_some.mp stepped
    apply custody.loop_step
    · exact Grows.of_conns rfl rfl
    · rfl
    · exact fun _ inside => Or.inl inside
    · exact nofun
    · exact nofun
    · exact fun _ queued => List.mem_append_left _ queued
    · intro held holds
      rw [at_] at holds
      rw [← show conn = held from holds]
      exact Or.inr (Or.inr (Or.inl (by simp)))
    · exact Or.inr busy
    · refine .same ?_ rfl
      simp [slots, at_, LoopPhase.slot, ← Multiset.coe_add, add_comm]
  · cases stepped

theorem Custody.take (stepped : l.takeStep i = some next) : next.Custody := by
  unfold takeStep at stepped
  split at stepped
  · rename_i conn rest at_ queue
    cases stepped
    refine custody.worker_step (Grows.of_conns rfl rfl) i rfl rfl rfl ?_ ?_ nofun nofun
      (Or.inl nofun) (.same ?_ rfl)
    · intro which queued
      rw [queue] at queued
      rcases List.mem_cons.mp queued with first | later
      · exact Or.inr first.symm
      · exact Or.inl later
    · intro which holds
      rw [at_] at holds
      cases holds
    · obtain ⟨others, before, after⟩ :=
        sum_update_split WorkerPhase.slot l.worker (Finset.mem_univ i)
      rw [slots, slots, before, at_, queue]
      show l.loop.slot + rest + ∑ j, (Function.update l.worker i (.tracking conn) j).slot =
        l.loop.slot + (conn :: rest : List Nat) + (0 + others)
      rw [after, ← Multiset.cons_coe, ← Multiset.singleton_add]
      show l.loop.slot + rest + ({conn} + others) = _
      abel
  · cases stepped

theorem Custody.drained (stepped : l.drainedStep i = some next) : next.Custody := by
  rw [drainedStep, Option.ite_none_right_eq_some] at stepped
  obtain ⟨⟨at_, empty, _⟩, same⟩ := stepped
  cases same
  refine custody.worker_step (Grows.of_conns rfl rfl) i rfl rfl rfl (fun _ => Or.inl) ?_ nofun nofun
    (Or.inr (Or.inr empty)) (.worker rfl rfl rfl nofun ?_)
  · intro conn held
    rw [at_] at held
    cases held
  · rw [at_]
    exact .stays

theorem Custody.track (stepped : l.trackStep i = some next) : next.Custody := by
  unfold trackStep at stepped
  split at stepped
  · rename_i conn at_
    split at stepped
    · cases stepped
      exact custody.worker_keeps (Grows.of_update rfl le_rfl (fun _ => rfl) (fun _ => rfl) id id
        Or.inl) at_ rfl rfl rfl rfl (fun _ => rfl) nofun nofun nofun rfl rfl
    · cases stepped
      exact custody.worker_keeps (Grows.of_conns rfl rfl) at_ rfl rfl rfl rfl (fun _ => rfl) nofun
        nofun nofun rfl rfl
  · cases stepped

theorem Custody.authenticate {clean : Bool} (stepped : l.authenticateStep i clean = some next) :
    next.Custody := by
  unfold authenticateStep at stepped
  split at stepped
  · rename_i conn at_
    split at stepped
    · cases stepped
      exact custody.worker_keeps (Grows.of_conns rfl rfl) at_ rfl rfl rfl rfl (fun _ => rfl) nofun
        nofun nofun rfl rfl
    · cases stepped
      refine custody.worker_keeps (Grows.of_update rfl le_rfl (fun _ => rfl) (fun _ => rfl) id id
        Or.inl) at_ rfl rfl rfl rfl (fun _ => rfl) nofun ?_ nofun rfl rfl
      intro refused same
      rw [← show conn = refused from same]
      simp [closeConn, setConn, setWorker]
  · cases stepped

theorem Custody.untrack (stepped : l.untrackStep i = some next) : next.Custody := by
  unfold untrackStep at stepped
  split at stepped
  · rename_i conn clean at_
    cases stepped
    refine custody.worker_keeps (Grows.of_conns rfl rfl) at_ rfl rfl rfl rfl (fun _ => rfl) nofun ?_
      nofun rfl rfl
    intro held refused
    cases clean with
    | true => cases refused
    | false => exact custody.shut i held (by rw [at_]; exact refused)
  · cases stepped

theorem Custody.handOut (stepped : l.handOutStep i = some next) : next.Custody := by
  unfold handOutStep at stepped
  split at stepped
  · rename_i conn at_
    obtain ⟨_, ⟨⟩⟩ := Option.ite_none_right_eq_some.mp stepped
    refine custody.worker_step (Grows.of_update rfl le_rfl (fun _ => rfl) id (fun _ => rfl) id Or.inl)
      i rfl rfl rfl (fun _ => Or.inl) ?_ nofun nofun (Or.inl nofun) (.worker rfl rfl rfl nofun ?_)
    · intro held holds
      rw [at_] at holds
      rw [← show conn = held from holds]
      right
      simp [Settled, setConn, setWorker, custody.freed i conn at_]
    · rw [at_]
      exact .stays
  · cases stepped

theorem Custody.abandon (stepped : l.abandonStep i = some next)
    (attended : (∃ j, j ≠ i ∧ l.worker j ≠ .ended) ∨ l.pending = []) : next.Custody := by
  unfold abandonStep at stepped
  split at stepped
  · rename_i conn at_
    obtain ⟨_, ⟨⟩⟩ := Option.ite_none_right_eq_some.mp stepped
    refine custody.worker_step (Grows.of_update rfl le_rfl (fun _ => rfl) (fun _ => rfl) id id Or.inl)
      i rfl rfl rfl (fun _ => Or.inl) ?_ nofun nofun (Or.inr attended) (.worker rfl rfl rfl nofun ?_)
    · intro held holds
      rw [at_] at holds
      rw [← show conn = held from holds]
      right
      simp [Settled, closeConn, setConn, setWorker, custody.freed i conn at_]
    · rw [at_]
      exact .stays
  · cases stepped

theorem Custody.closeInFlight (stepped : l.closeInFlightStep = some next) : next.Custody := by
  rw [closeInFlightStep, Option.ite_none_right_eq_some] at stepped
  rw [← Option.some.inj stepped.2]
  apply custody.loop_step
  · refine ⟨fun _ _ => rfl, le_rfl, ?_, fun _ => id, fun _ => id, fun _ => Or.inl⟩
    intro conn closed
    simp [closed]
  · rfl
  · exact fun _ inside => Or.inl inside
  · exact fun conn holds => custody.known conn (Or.inl holds)
  · exact custody.untaken
  · exact fun _ queued => queued
  · exact fun _ holds => Or.inr (Or.inl holds)
  · exact Or.inl rfl
  · exact .same rfl rfl

theorem Custody.acquire (stepped : l.acquireStep = some next) : next.Custody := by
  unfold acquireStep at stepped
  split at stepped
  · rename_i conn at_
    have untaken := custody.untaken conn at_
    split at stepped
    · -- The source has no slot left: the connection is closed without one.
      cases stepped
      refine custody.loop_settles conn (Grows.of_update rfl le_rfl (fun _ => rfl) (fun _ => rfl) id
        id Or.inl) rfl rfl rfl ?_ nofun ?_ (.same ?_ rfl)
      · intro other holds
        rw [at_] at holds
        exact holds.symm
      · simp [Settled, closeConn, setConn, untaken]
      · simp [slots, closeConn, setConn, at_, LoopPhase.slot]
    · rename_i perSource taken
      cases stepped
      apply custody.loop_step
      · exact Grows.of_update rfl le_rfl (fun _ => rfl) id id id fun _ => Or.inr rfl
      · rfl
      · exact fun _ inside => Or.inl inside
      · exact fun held holds => custody.known held (Or.inl (by rw [at_]; exact holds))
      · exact nofun
      · exact fun _ queued => queued
      · intro held holds
        rw [at_] at holds
        exact Or.inr (Or.inl holds)
      · exact Or.inl rfl
      · refine ⟨0, {conn}, l.slots, (zero_add _).symm, ?_, ?_, .takes taken⟩
        · rw [slots, slots, at_, ← add_assoc, ← add_assoc]
          rfl
        · intro held member
          rw [at_, Multiset.mem_singleton.mp member]
          exact Or.inl rfl
  · cases stepped

theorem Custody.offer_ends (at_ : l.loop = .offering conn) {after : LoopPhase}
    (free : ∀ other, ¬ after.holds other) :
    Custody { (l.release conn).closeConn conn with loop := after } := by
  have conns : ((l.release conn).closeConn conn).conns =
      Function.update l.conns conn { l.conns conn with closed := true, released := true } := by
    simp [release, closeConn, setConn]
  refine custody.loop_settles conn (Grows.of_update conns le_rfl (fun _ => rfl) (fun _ => rfl) id
    (fun _ => rfl) Or.inl) rfl rfl rfl ?_ free ?_ ⟨{conn}, 0, l.pending + ∑ i, (l.worker i).slot, ?_,
      ?_, nofun, .frees⟩
  · intro other holds
    rw [at_] at holds
    exact holds.symm
  · simp [Settled, release, closeConn, setConn]
  · rw [slots, at_, add_assoc]
    rfl
  · rw [slots, LoopPhase.slot_of_free free, add_assoc]
    rfl

theorem Custody.offerDone (stepped : l.offerDoneStep = some next) : next.Custody := by
  unfold offerDoneStep at stepped
  split at stepped
  · rename_i conn at_
    obtain ⟨_, ⟨⟩⟩ := Option.ite_none_right_eq_some.mp stepped
    exact custody.offer_ends at_ nofun
  · cases stepped

theorem Custody.offerFull (stepped : l.offerFullStep = some next) : next.Custody := by
  unfold offerFullStep at stepped
  split at stepped
  · rename_i conn at_
    obtain ⟨_, ⟨⟩⟩ := Option.ite_none_right_eq_some.mp stepped
    exact custody.offer_ends at_ nofun
  · cases stepped

theorem Custody.releases (stepped : l.releaseStep i = some next) : next.Custody := by
  unfold releaseStep at stepped
  split at stepped
  · rename_i conn clean at_
    cases stepped
    refine custody.worker_step (Grows.of_update rfl le_rfl (fun _ => rfl) id id (fun _ => rfl) Or.inl)
      i rfl rfl rfl (fun _ => Or.inl) ?_ ?_ ?_ ?_ (.worker rfl rfl rfl ?_ ?_)
    · intro held holds
      rw [at_] at holds
      have same : conn = held := holds
      subst same
      cases clean with
      | true => exact Or.inl rfl
      | false =>
        right
        have closed := custody.shut i conn (by rw [at_]; rfl)
        simp [Settled, release, setConn, setWorker, closed]
    · intro held handing
      cases clean with
      | true =>
        cases handing
        simp [release, setConn, setWorker]
      | false => cases handing
    · intro held refused
      cases clean <;> cases refused
    · left
      cases clean <;> exact nofun
    · cases clean <;> exact nofun
    · rw [at_]
      cases clean <;> exact .frees
  · cases stepped

theorem Custody.step {action : ListenerAction Key workers}
    (stepped : l.step action = some next) (leaves : l.LeavesAttended action) : next.Custody := by
  cases action with
  | callAccept =>
    cases stepped
    exact ⟨custody.kept, custody.untaken, custody.freed, custody.shut, custody.attended,
      custody.known, custody.counted⟩
  | accept source => exact custody.accept stepped
  | acceptTemporary | wake | acceptFatal | loopReturn =>
    exact custody.moveLoop stepped nofun nofun
  | sleepAborted =>
    rw [AuthListener.step, Option.ite_none_right_eq_some] at stepped
    exact custody.moveLoop stepped.2 nofun nofun
  | failed =>
    obtain ⟨after, moved, rfl⟩ := Option.map_eq_some_iff.mp stepped
    have kept := custody.moveLoop moved nofun nofun
    exact ⟨kept.kept, kept.untaken, kept.freed, kept.shut, kept.attended, kept.known, kept.counted⟩
  | acquire => exact custody.acquire stepped
  | enqueue => exact custody.enqueue stepped (leaves.2 rfl)
  | offerDone => exact custody.offerDone stepped
  | offerFull => exact custody.offerFull stepped
  | take i => exact custody.take stepped
  | drained i => exact custody.drained stepped
  | track i => exact custody.track stepped
  | authenticate i clean => exact custody.authenticate stepped
  | untrack i => exact custody.untrack stepped
  | releaseSource i => exact custody.releases stepped
  | handOut i => exact custody.handOut stepped
  | abandon i => exact custody.abandon stepped (leaves.1 i rfl)
  | closeBegin => exact custody.moveCloser stepped
  | closeDone | closeListener =>
    obtain ⟨after, moved, rfl⟩ := Option.map_eq_some_iff.mp stepped
    have kept := custody.moveCloser moved
    exact ⟨kept.kept, kept.untaken, kept.freed, kept.shut, kept.attended, kept.known, kept.counted⟩
  | closeInFlight => exact custody.closeInFlight stepped

end

theorem start_custody (maxPending : Nat) (maxPerSource : Int) (positive : 0 < workers) :
    (start maxPending maxPerSource : AuthListener Key workers).Custody where
  kept := fun _ inside => absurd inside (Nat.not_lt_zero _)
  untaken := fun _ _ => rfl
  freed := nofun
  shut := nofun
  attended := Or.inl ⟨⟨0, positive⟩, nofun⟩
  known := by
    rintro conn (holds | taken)
    · cases holds
    · simp [slots, start, LoopPhase.slot, WorkerPhase.slot] at taken
  counted := by
    simpa [slots, start, LoopPhase.slot, WorkerPhase.slot] using Limiter.Holds.new maxPerSource

end AuthListener

/-! ## Runs -/

/-- In every run in which no connection is left in the queue alone, whenever the
accept loop and all workers have terminated every connection has been handed out
or closed and its slot is released, and the limiter counts no slot as taken. -/
theorem connections_settled {Key : Type} [DecidableEq Key] {workers : Nat} (positive : 0 < workers)
    (maxPending : Nat) (maxPerSource : Int) (actions : List (ListenerAction Key workers))
    (last : AuthListener Key workers)
    (run : Run (Along AuthListener.LeavesAttended (Steps AuthListener.step))
      (AuthListener.start maxPending maxPerSource) actions last) (terminated : last.Terminated) :
    (∀ conn < last.count, last.Settled conn) ∧ ∀ key, last.perSource.n key = 0 := by
  have custody : ∀ past state, Run (Along AuthListener.LeavesAttended (Steps AuthListener.step))
      (AuthListener.start maxPending maxPerSource) past state →
      AuthListener.Custody (state : AuthListener Key workers) := by
    apply Run.invariant fun _ state => AuthListener.Custody state
    · exact AuthListener.start_custody maxPending maxPerSource positive
    · intro past before action after _ held stepped
      exact held.step stepped.1 stepped.2
  have held := custody actions last run
  obtain ⟨loopEnded, workersEnded⟩ := terminated
  have empty : last.pending = [] := by
    rcases held.attended with ⟨i, running⟩ | empty
    · exact absurd (workersEnded i) running
    · exact empty
  constructor
  · intro conn inside
    rcases held.kept conn inside with settled | loop | queued | ⟨i, worker⟩
    · exact settled
    · rw [loopEnded] at loop
      cases loop
    · rw [empty] at queued
      cases queued
    · rw [workersEnded i] at worker
      cases worker
  · intro key
    have none_ : last.slots = 0 := by
      simp [AuthListener.slots, loopEnded, empty, workersEnded, LoopPhase.slot, WorkerPhase.slot]
    have counted := held.counted key
    rw [none_] at counted
    exact counted

/-! ## A worker that leaves -/

section Samples

variable {workers : Nat}

def sampleArrival (source : Nat) : List (ListenerAction Nat workers) :=
  [.accept (some source), .acquire, .enqueue]

def sampleAuth (i : Fin workers) (clean : Bool) : List (ListenerAction Nat workers) :=
  [.take i, .track i, .authenticate i clean, .untrack i, .releaseSource i]

def sampleClosing : List (ListenerAction Nat workers) :=
  [.closeBegin, .closeDone, .closeListener, .closeInFlight, .acceptFatal, .failed, .loopReturn]

end Samples

/-- Two workers.  A connection that no one accepts and one in the queue when the listener is
closed: the first worker leaves with its connection, and the other takes the queued one. -/
def sampleLeaving : List (ListenerAction Nat 2) :=
  sampleArrival 7 ++ sampleAuth 0 true ++ sampleArrival 8 ++ sampleClosing ++ [.abandon 0] ++
    sampleAuth 1 false ++ [.drained 1]

theorem connections_settled_sample :
    ∃ last : AuthListener Nat 2, Run (Along AuthListener.LeavesAttended (Steps AuthListener.step))
        (AuthListener.start 128 1) sampleLeaving last ∧
      last.count = 2 ∧ last.Settled 0 ∧ last.Settled 1 ∧ last.perSource.n 8 = 0 := by
  obtain ⟨last, run, count, loop, worker⟩ := runSteps_reaches_along AuthListener.step
    (AuthListener.start 128 1 : AuthListener Nat 2) sampleLeaving
    (fun last => last.count = 2 ∧ last.loop = .ended ∧ ∀ i, last.worker i = .ended)
    AuthListener.LeavesAttended (by decide +kernel)
  obtain ⟨settled, free⟩ := connections_settled Nat.two_pos 128 1 _ last run ⟨loop, worker⟩
  rw [count] at settled
  exact ⟨last, run, count, settled 0 (by decide), settled 1 (by decide), free 8⟩

/-- One worker, whose connection no one accepts, and a second connection in the
queue when the listener is closed: the worker leaves, and the second connection
is neither handed out nor closed and keeps its slot. -/
theorem connection_left_in_queue :
    ∃ last : AuthListener Nat 1, Run (Steps AuthListener.step) (AuthListener.start 128 1)
        (sampleArrival 7 ++ sampleAuth 0 true ++ sampleArrival 8 ++ sampleClosing ++ [.abandon 0])
        last ∧
      last.Terminated ∧ 1 < last.count ∧ ¬ last.Settled 1 ∧ (last.conns 1).closed = false ∧
      (last.conns 1).handed = false ∧ last.perSource.n 8 = 1 := by
  obtain ⟨last, run, ⟨loop, worker⟩, count, closed, handed, slot⟩ := runSteps_reaches
    AuthListener.step (AuthListener.start 128 1 : AuthListener Nat 1)
    (sampleArrival 7 ++ sampleAuth 0 true ++ sampleArrival 8 ++ sampleClosing ++ [.abandon 0])
    (fun last => (last.loop = .ended ∧ last.worker 0 = .ended) ∧ 1 < last.count ∧
      (last.conns 1).closed = false ∧ (last.conns 1).handed = false ∧ last.perSource.n 8 = 1)
    (by decide +kernel)
  refine ⟨last, run, ⟨loop, ?_⟩, count, ?_, closed, handed, slot⟩
  · intro i
    rw [Subsingleton.elim i 0]
    exact worker
  · intro settled
    rcases settled.1 with shut | given
    · rw [closed] at shut
      cases shut
    · rw [handed] at given
      cases given

end Libknock.Netx
