import Libknock.Foundation.Tally
import Libknock.Relay.Serving

/-!
# Who has which connection

A connection's stage tells which goroutine has it and what has been done for it.
The wait group counts the goroutines that are left, the relay goroutines among
them by the stages of their connections.
-/

set_option autoImplicit false

namespace Libknock.Relay

open Foundation

variable {Key : Type} {workers : Nat}

/-! ## What the stage of a connection means -/

def RunPhase.rank : RunPhase → Nat
  | .accepting | .sleeping | .handling _ | .leaving _ | .returning => 0
  | .cancelled => 1
  | .pendingClosed => 2
  | .waited => 3
  | .cleaned => 4
  | .stopping => 5
  | .stopped => 6
  | .returned => 7

variable {conn : Nat} {i : Fin workers}

theorem RunPhase.rank_of_conn {phase : RunPhase} (held : phase.conn = some conn) :
    phase.rank = 0 := by
  cases phase <;> simp_all [RunPhase.conn, RunPhase.rank]

theorem Serving.pendingIsClosed_eq (g : Serving Key workers) :
    g.pendingIsClosed = decide (2 ≤ g.phase.rank) := by
  unfold Serving.pendingIsClosed
  cases g.phase <;> rfl

def ServedConn.FitsAt (r : ServedConn Key workers) : ConnStage workers → Prop
  | .acquiring => r.acquired = false ∧ r.releases = 0 ∧ r.active = false
  | .adding => r.acquired = true ∧ r.releases = 0 ∧ r.active = false
  | .offering | .queued | .authenticating _ | .removing _ => r.acquired = true ∧ r.releases = 0
  | .authenticated _ ok => r.acquired = true ∧ r.releases = 0 ∧ (ok = false → r.closed = true)
  | .released _ ok => r.acquired = true ∧ r.releases = 1 ∧ (ok = false → r.closed = true)
  | .dropping | .relaying => r.acquired = true ∧ r.releases = 1
  | .dropped => r.acquired = true ∧ r.releases = 1 ∧ r.active = false
  | .relayed => r.acquired = true ∧ r.releases = 1 ∧ r.closed = true
  | .gone => r.closed = true ∧ r.active = false ∧ r.releases = if r.acquired then 1 else 0

theorem ServedConn.FitsAt.close {r : ServedConn Key workers} {stage : ConnStage workers}
    (fits : r.FitsAt stage) : ServedConn.FitsAt { r with closed := true } stage := by
  cases stage <;> simp_all [ServedConn.FitsAt]

def Held (phase : RunPhase) (pending : List Nat) (worker : Fin workers → WorkerState) (conn : Nat) :
    ConnStage workers → Prop
  | .acquiring | .adding | .offering | .dropping | .dropped => phase.conn = some conn
  | .queued => conn ∈ pending
  | .authenticating i | .removing i | .authenticated i _ | .released i _ => worker i = .busy conn
  | .relaying | .relayed | .gone => True

/-- The relay goroutine of a connection is counted in its last two stages. -/
def ConnStage.live : ConnStage workers → Int
  | .relaying | .relayed => 1
  | _ => 0

def WorkerState.live : WorkerState → Int
  | .ended => 0
  | _ => 1

def KnockPhase.live : KnockPhase → Int
  | .ended => 0
  | _ => 1

def WatchPhase.live : WatchPhase → Int
  | .ended => 0
  | _ => 1

/-! ## The connections -/

structure Attended (count : Nat) (conns : Nat → ServedConn Key workers) (phase : RunPhase)
    (pending : List Nat) (worker : Fin workers → WorkerState) : Prop where
  fresh : ∀ conn, count ≤ conn → (conns conn).stage = .gone ∧ (conns conn).active = false
  fits : ∀ conn, conn < count → (conns conn).FitsAt (conns conn).stage
  held : ∀ conn, conn < count → Held phase pending worker conn (conns conn).stage
  queue : pending.Nodup
  queued : ∀ conn ∈ pending, (conns conn).stage = .queued
  drained : ∀ i, worker i = .ended → pending = [] ∧ 2 ≤ phase.rank

namespace Attended

variable {count : Nat} {conns : Nat → ServedConn Key workers} {phase phase' : RunPhase}
  {pending pending' : List Nat} {worker worker' : Fin workers → WorkerState} {conn : Nat}
  {stage : ConnStage workers} {record : ServedConn Key workers}

section

variable (inv : Attended count conns phase pending worker) (at_ : (conns conn).stage = stage)
  (busy : stage ≠ .gone)

include inv at_ busy

theorem known : conn < count := by
  by_contra beyond
  exact busy (at_.symm.trans (inv.fresh conn (by omega)).1)

theorem fits_at : (conns conn).FitsAt stage := by
  have fits := inv.fits conn (inv.known at_ busy)
  rwa [at_] at fits

theorem held_at : Held phase pending worker conn stage := by
  have held := inv.held conn (inv.known at_ busy)
  rwa [at_] at held

end

section

variable (inv : Attended count conns phase pending worker)

include inv

theorem move (below : conn < count)
    (fits : record.FitsAt record.stage) (held : Held phase' pending' worker' conn record.stage)
    (others : ∀ other, other ≠ conn → Held phase pending worker other (conns other).stage →
      Held phase' pending' worker' other (conns other).stage)
    (queue : pending'.Nodup)
    (queued : ∀ other ∈ pending', (Function.update conns conn record other).stage = .queued)
    (drained : ∀ i, worker' i = .ended → pending' = [] ∧ 2 ≤ phase'.rank) :
    Attended count (Function.update conns conn record) phase' pending' worker' where
  fresh := by
    intro other beyond
    rw [Function.update_of_ne (by omega)]
    exact inv.fresh other beyond
  fits := by
    intro other known
    by_cases same : other = conn
    · rw [same, Function.update_self]
      exact fits
    · rw [Function.update_of_ne same]
      exact inv.fits other known
  held := by
    intro other known
    by_cases same : other = conn
    · rw [same, Function.update_self]
      exact held
    · rw [Function.update_of_ne same]
      exact others other same (inv.held other known)
  queue := queue
  queued := queued
  drained := drained

theorem queued_update (elsewhere : (conns conn).stage ≠ .queued) :
    ∀ other ∈ pending, (Function.update conns conn record other).stage = .queued := by
  intro other member
  have waits := inv.queued other member
  rw [Function.update_of_ne]
  · exact waits
  · intro same
    exact elsewhere (same ▸ waits)

theorem stay (at_ : (conns conn).stage = stage) (busy : stage ≠ .gone) (elsewhere : stage ≠ .queued)
    (fits : record.FitsAt record.stage) (held : Held phase pending worker conn record.stage) :
    Attended count (Function.update conns conn record) phase pending worker := by
  apply inv.move (inv.known at_ busy) fits held
  · intro _ _ held
    exact held
  · exact inv.queue
  · exact inv.queued_update (at_ ▸ elsewhere)
  · exact inv.drained

theorem awake_of_conn (mine : phase.conn = some conn) (i : Fin workers) : worker i ≠ .ended := by
  intro ended
  have later := (inv.drained i ended).2
  rw [RunPhase.rank_of_conn mine] at later
  omega

end

theorem others_of_conn (mine : phase.conn = some conn) (more : ∀ other ∈ pending, other ∈ pending') :
    ∀ other, other ≠ conn → Held phase pending worker other (conns other).stage →
      Held phase' pending' worker other (conns other).stage := by
  intro other ne held
  have away : phase.conn ≠ some other := by
    rw [mine]
    intro same
    exact ne (Option.some.inj same).symm
  cases stage : (conns other).stage <;> rw [stage] at held <;>
    first | exact absurd held away | exact more other held | exact held

theorem letGo (inv : Attended count conns phase pending worker) (mine : phase.conn = some conn)
    (at_ : (conns conn).stage = stage) (busy : stage ≠ .gone) (elsewhere : stage ≠ .queued)
    (fits : record.FitsAt record.stage) (held : Held phase' pending worker conn record.stage) :
    Attended count (Function.update conns conn record) phase' pending worker := by
  apply inv.move (inv.known at_ busy) fits held (others_of_conn mine fun _ member => member) inv.queue
  · exact inv.queued_update (at_ ▸ elsewhere)
  · intro i ended
    exact absurd ended (inv.awake_of_conn mine i)

theorem enqueue (inv : Attended count conns phase pending worker) (mine : phase.conn = some conn)
    (at_ : (conns conn).stage = .offering) :
    Attended count (Function.update conns conn { conns conn with stage := .queued }) .accepting
      (pending ++ [conn]) worker := by
  have elsewhere : (conns conn).stage ≠ .queued := by simp [at_]
  have busy : ConnStage.offering ≠ (ConnStage.gone : ConnStage workers) := by simp
  have absent : conn ∉ pending := fun member => elsewhere (inv.queued conn member)
  refine inv.move (inv.known at_ busy) ?_ ?_
    (others_of_conn mine fun _ member => List.mem_append_left _ member) ?_ ?_ ?_
  · exact inv.fits_at at_ busy
  · exact List.mem_append_right _ (List.mem_singleton_self conn)
  · rw [← List.concat_eq_append]
    exact inv.queue.concat absent
  · intro other member
    rcases List.mem_append.mp member with waits | newest
    · exact inv.queued_update elsewhere other waits
    · rw [List.mem_singleton.mp newest, Function.update_self]
  · intro i ended
    exact absurd ended (inv.awake_of_conn mine i)

theorem others_of_worker {state : WorkerState}
    (mine : ∀ other, other ≠ conn → worker i ≠ .busy other)
    (kept : ∀ other, other ≠ conn → other ∈ pending → other ∈ pending') :
    ∀ other, other ≠ conn → Held phase pending worker other (conns other).stage →
      Held phase pending' (Function.update worker i state) other (conns other).stage := by
  intro other ne held
  have apart : ∀ j, worker j = .busy other → Function.update worker i state j = .busy other := by
    intro j has
    rw [Function.update_of_ne]
    · exact has
    · intro same
      exact mine other ne (same ▸ has)
  cases stage : (conns other).stage <;> rw [stage] at held <;>
    first | exact held | exact kept other ne held | exact apart _ held

theorem finish (inv : Attended count conns phase pending worker) (mine : worker i = .busy conn)
    (at_ : (conns conn).stage = stage) (busy : stage ≠ .gone) (elsewhere : stage ≠ .queued)
    (fits : record.FitsAt record.stage)
    (held : Held phase pending (Function.update worker i .waiting) conn record.stage) :
    Attended count (Function.update conns conn record) phase pending
      (Function.update worker i .waiting) := by
  apply inv.move (inv.known at_ busy) fits held
  · apply others_of_worker
    · intro other ne has
      rw [mine] at has
      exact ne (WorkerState.busy.inj has).symm
    · intro _ _ member
      exact member
  · exact inv.queue
  · exact inv.queued_update (at_ ▸ elsewhere)
  intro j ended
  by_cases same : j = i
  · rw [same, Function.update_self] at ended
    cases ended
  · rw [Function.update_of_ne same] at ended
    exact inv.drained j ended

theorem take {rest : List Nat} (inv : Attended count conns phase (conn :: rest) worker)
    (idle : worker i = .waiting) :
    Attended count (Function.update conns conn { conns conn with stage := .authenticating i }) phase
      rest (Function.update worker i (.busy conn)) := by
  have at_ : (conns conn).stage = .queued := inv.queued conn (by simp)
  have busy : ConnStage.queued ≠ (ConnStage.gone : ConnStage workers) := by simp
  obtain ⟨absent, queue⟩ := List.nodup_cons.mp inv.queue
  refine inv.move (inv.known at_ busy) ?_ ?_ ?_ queue ?_ ?_
  · exact inv.fits_at at_ busy
  · exact Function.update_self ..
  · apply others_of_worker
    · intro other ne has
      rw [idle] at has
      cases has
    · intro other ne member
      exact (List.mem_cons.mp member).resolve_left ne
  · intro other member
    have ne : other ≠ conn := fun same => absent (same ▸ member)
    rw [Function.update_of_ne ne]
    exact inv.queued other (List.mem_cons_of_mem _ member)
  · intro j ended
    by_cases same : j = i
    · rw [same, Function.update_self] at ended
      cases ended
    · rw [Function.update_of_ne same] at ended
      cases (inv.drained j ended).1

theorem close (inv : Attended count conns phase pending worker) (conn : Nat) :
    Attended count (Function.update conns conn { conns conn with closed := true }) phase pending
      worker := by
  have stages : ∀ other, (Function.update conns conn { conns conn with closed := true } other).stage
      = (conns other).stage := by
    intro other
    by_cases same : other = conn
    · rw [same, Function.update_self]
    · rw [Function.update_of_ne same]
  refine ⟨?_, ?_, ?_, inv.queue, ?_, inv.drained⟩
  · intro other beyond
    refine ⟨(stages other).trans (inv.fresh other beyond).1, ?_⟩
    by_cases same : other = conn
    · rw [same, Function.update_self]
      exact (inv.fresh conn (same ▸ beyond)).2
    · rw [Function.update_of_ne same]
      exact (inv.fresh other beyond).2
  · intro other below
    rw [stages]
    by_cases same : other = conn
    · rw [same, Function.update_self]
      exact (inv.fits conn (same ▸ below)).close
    · rw [Function.update_of_ne same]
      exact inv.fits other below
  · intro other below
    rw [stages]
    exact inv.held other below
  · intro other member
    exact (stages other).trans (inv.queued other member)

theorem goOn (inv : Attended count conns phase pending worker) (free : phase.conn = none)
    (later : phase.rank ≤ phase'.rank) : Attended count conns phase' pending worker where
  fresh := inv.fresh
  fits := inv.fits
  held := by
    intro conn below
    have held := inv.held conn below
    have away : phase.conn ≠ some conn := by simp [free]
    cases stage : (conns conn).stage <;> rw [stage] at held <;>
      first | exact absurd held away | exact held
  queue := inv.queue
  queued := inv.queued
  drained := by
    intro i ended
    obtain ⟨empty, closed⟩ := inv.drained i ended
    exact ⟨empty, closed.trans later⟩

theorem accept (inv : Attended count conns .accepting pending worker) (source : Option Key) :
    Attended (count + 1)
      (Function.update conns count ⟨source, .acquiring, false, false, false, 0⟩) (.handling count)
      pending worker where
  fresh := by
    intro conn beyond
    rw [Function.update_of_ne (by omega)]
    exact inv.fresh conn (by omega)
  fits := by
    intro conn below
    by_cases same : conn = count
    · rw [same, Function.update_self]
      exact ⟨rfl, rfl, rfl⟩
    · rw [Function.update_of_ne same]
      exact inv.fits conn (by omega)
  held := by
    intro conn below
    by_cases same : conn = count
    · rw [same, Function.update_self]
      rfl
    · rw [Function.update_of_ne same]
      exact (inv.goOn rfl (Nat.zero_le _)).held conn (by omega)
  queue := inv.queue
  queued := by
    apply inv.queued_update
    rw [(inv.fresh count (Nat.le_refl _)).1]
    simp
  drained := by
    intro i ended
    exact absurd (inv.drained i ended).2 (by decide)

theorem drain (inv : Attended count conns phase [] worker) (i : Fin workers)
    (idle : worker i = .waiting) (closed : 2 ≤ phase.rank) :
    Attended count conns phase [] (Function.update worker i .ended) where
  fresh := inv.fresh
  fits := inv.fits
  held := by
    intro conn below
    have held := inv.held conn below
    have apart : ∀ j, worker j = .busy conn → Function.update worker i .ended j = .busy conn := by
      intro j has
      rw [Function.update_of_ne]
      · exact has
      · intro same
        rw [same, idle] at has
        cases has
    cases stage : (conns conn).stage <;> rw [stage] at held <;>
      first | exact held | exact apart _ held
  queue := inv.queue
  queued := inv.queued
  drained := fun _ _ => ⟨rfl, closed⟩

theorem gone [NeZero workers] (inv : Attended count conns phase pending worker)
    (free : phase.conn = none) (ended : ∀ i, worker i = .ended)
    (relayed : ∀ conn, conn < count → (conns conn).stage.live = 0) (conn : Nat) :
    (conns conn).stage = .gone := by
  by_cases below : conn < count
  · have held := inv.held conn below
    have idle := relayed conn below
    have empty := (inv.drained 0 (ended 0)).1
    cases stage : (conns conn).stage <;>
      simp_all [Held, ConnStage.live]
  · exact (inv.fresh conn (by omega)).1

end Attended

/-! ## The wait group -/

/-- The goroutines that have not called `wg.Done`. -/
def goroutines (knock : KnockPhase) (watch : WatchPhase) (worker : Fin workers → WorkerState)
    (count : Nat) (conns : Nat → ServedConn Key workers) : Int :=
  knock.live + watch.live + ∑ i, (worker i).live +
    ∑ conn ∈ Finset.range count, (conns conn).stage.live

theorem KnockPhase.live_nonneg (knock : KnockPhase) : 0 ≤ knock.live := by
  cases knock <;> decide

theorem WatchPhase.live_nonneg (watch : WatchPhase) : 0 ≤ watch.live := by
  cases watch <;> simp [WatchPhase.live]

theorem WorkerState.live_nonneg (state : WorkerState) : 0 ≤ state.live := by
  cases state <;> simp [WorkerState.live]

theorem ConnStage.live_nonneg (stage : ConnStage workers) : 0 ≤ stage.live := by
  cases stage <;> simp [ConnStage.live]

section Goroutines

variable {knock : KnockPhase} {watch : WatchPhase} {worker : Fin workers → WorkerState} {count : Nat}
  {conns : Nat → ServedConn Key workers}

theorem workers_nonneg : 0 ≤ ∑ i, (worker i).live :=
  Finset.sum_nonneg fun i _ => (worker i).live_nonneg

theorem relays_nonneg : 0 ≤ ∑ conn ∈ Finset.range count, (conns conn).stage.live :=
  Finset.sum_nonneg fun conn _ => (conns conn).stage.live_nonneg

theorem goroutines_eq_zero (none_ : goroutines knock watch worker count conns = 0) :
    knock.live = 0 ∧ watch.live = 0 ∧ (∀ i, (worker i).live = 0) ∧
      ∀ conn, conn < count → (conns conn).stage.live = 0 := by
  unfold goroutines at none_
  have knocks := knock.live_nonneg
  have watches := watch.live_nonneg
  have works : 0 ≤ ∑ i, (worker i).live := workers_nonneg
  have relays : 0 ≤ ∑ conn ∈ Finset.range count, (conns conn).stage.live := relays_nonneg
  have idle : ∑ i, (worker i).live = 0 := by omega
  have quiet : ∑ conn ∈ Finset.range count, (conns conn).stage.live = 0 := by omega
  rw [Finset.sum_eq_zero_iff_of_nonneg fun i _ => (worker i).live_nonneg] at idle
  rw [Finset.sum_eq_zero_iff_of_nonneg fun conn _ => (conns conn).stage.live_nonneg] at quiet
  refine ⟨by omega, by omega, fun i => idle i (Finset.mem_univ i), ?_⟩
  intro conn below
  exact quiet conn (Finset.mem_range.mpr below)

theorem goroutines_setConn (below : conn < count) (record : ServedConn Key workers) :
    goroutines knock watch worker count (Function.update conns conn record) =
      goroutines knock watch worker count conns - (conns conn).stage.live + record.stage.live := by
  unfold goroutines
  obtain ⟨rest, before, after⟩ := sum_update_split
    (fun r : ServedConn Key workers => r.stage.live) conns (Finset.mem_range.mpr below)
  rw [after record, before]
  ring

theorem goroutines_setWorker (i : Fin workers) (state : WorkerState) :
    goroutines knock watch (Function.update worker i state) count conns =
      goroutines knock watch worker count conns - (worker i).live + state.live := by
  unfold goroutines
  obtain ⟨rest, before, after⟩ := sum_update_split WorkerState.live worker (Finset.mem_univ i)
  rw [after state, before]
  ring

theorem goroutines_same {record : ServedConn Key workers}
    (same : record.stage.live = (conns conn).stage.live) :
    goroutines knock watch worker count (Function.update conns conn record) =
      goroutines knock watch worker count conns := by
  rw [goroutines, sum_update_same (fun r : ServedConn Key workers => r.stage.live) same, goroutines]

theorem goroutines_accept (source : Option Key) :
    goroutines knock watch worker (count + 1)
      (Function.update conns count ⟨source, .acquiring, false, false, false, 0⟩) =
      goroutines knock watch worker count conns := by
  rw [goroutines, sum_range_update (fun r : ServedConn Key workers => r.stage.live) rfl, goroutines]

end Goroutines

/-! ## The slots -/

/-- The slot that a connection has taken and not given back. -/
def ServedConn.slot (r : ServedConn Key workers) : Multiset (Option Key) :=
  if r.acquired = true ∧ r.releases = 0 then {r.source} else 0

def slots (count : Nat) (conns : Nat → ServedConn Key workers) : Multiset (Option Key) :=
  ∑ conn ∈ Finset.range count, (conns conn).slot

end Libknock.Relay
