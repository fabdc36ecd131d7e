import Libknock.Relay.Goroutines

/-!
# Shutdown of the relay gateway

When `run` has waited, no goroutine is left, so that every connection is done
with.  The knock handler is over as well, so that the cleanup of the firewall
and `StopAll`, which come after the wait, are final.
-/

set_option autoImplicit false

namespace Libknock.Relay

open Foundation Gatewaycore
open Netx (Limiter)

variable {Key : Type} {workers : Nat}

/-! ## The deferred calls -/

structure Late (phase : RunPhase) (wg : Int) (timers : TimerSet) (firewall : List FirewallOp) :
    Prop where
  waited : 3 ≤ phase.rank → wg = 0
  cleaned : 4 ≤ phase.rank → CleanedUp firewall
  stopped : 5 ≤ phase.rank → timers.armed = 0
  awaited : 6 ≤ phase.rank → timers.Idle

theorem Late.early {phase : RunPhase} (early : phase.rank < 3) (wg : Int) (timers : TimerSet)
    (firewall : List FirewallOp) : Late phase wg timers firewall := by
  constructor <;> intro later <;> omega

/-! ## The invariant -/

variable {stage : ConnStage workers} {conn : Nat} {g next : Serving Key workers}

theorem Serving.holds_some (held : g.holds stage = some conn) :
    g.phase.conn = some conn ∧ (g.conns conn).stage = stage := by
  simpa [holds, Option.filter_eq_some_iff] using held

variable [DecidableEq Key]

structure Serving.Kept (g : Serving Key workers) : Prop where
  attended : Attended g.count g.conns g.phase g.pending g.worker
  counted : g.wg = goroutines g.knock g.watch g.worker g.count g.conns
  late : Late g.phase g.wg g.timers g.firewall
  held : g.perSource.Holds (slots g.count g.conns)

theorem ServedConn.frees {before after : ServedConn Key workers} {perSource : Limiter Key}
    (acquired : before.acquired = true) (releases : before.releases = 0)
    (gives : after.releases = before.releases + 1) :
    perSource.Moves before.slot (perSource.release before.source) after.slot := by
  rw [ServedConn.slot, if_pos ⟨acquired, releases⟩, ServedConn.slot, if_neg (by simp [gives])]
  exact .frees

namespace Serving.Kept

theorem initial (cfg : ServeConfig) : (start cfg : Serving Key workers).Kept where
  attended := by
    refine ⟨fun _ _ => ⟨rfl, rfl⟩, ?_, ?_, List.nodup_nil, ?_, ?_⟩
    · intro conn below
      cases below
    · intro conn below
      cases below
    · intro conn member
      cases member
    · intro i ended
      cases ended
  counted := by
    cases knocks : cfg.knocks <;>
      simp [start, goroutines, knocks, KnockPhase.live, WatchPhase.live, WorkerState.live]
  late := by
    apply Late.early
    exact Nat.zero_lt_succ 2
  held := Limiter.Holds.new _

section

variable (kept : g.Kept)

include kept

theorem early_of_live (live : goroutines g.knock g.watch g.worker g.count g.conns ≠ 0) :
    g.phase.rank < 3 := by
  by_contra later
  exact live (kept.counted.symm.trans (kept.late.waited (by omega)))

theorem early_of_knock (live : g.knock.live ≠ 0) : g.phase.rank < 3 :=
  kept.early_of_live fun none_ => live (goroutines_eq_zero none_).1

theorem early_of_watch (live : g.watch.live ≠ 0) : g.phase.rank < 3 :=
  kept.early_of_live fun none_ => live (goroutines_eq_zero none_).2.1

theorem early_of_worker {i : Fin workers} (live : (g.worker i).live ≠ 0) : g.phase.rank < 3 :=
  kept.early_of_live fun none_ => live ((goroutines_eq_zero none_).2.2.1 i)

theorem early_of_relay (below : conn < g.count) (live : (g.conns conn).stage.live ≠ 0) :
    g.phase.rank < 3 :=
  kept.early_of_live fun none_ => live ((goroutines_eq_zero none_).2.2.2 conn below)

theorem exchange (below : conn < g.count) {record : ServedConn Key workers}
    {perSource : Limiter Key}
    (moves : g.perSource.Moves (g.conns conn).slot perSource record.slot) :
    perSource.Holds (slots g.count (Function.update g.conns conn record)) := by
  obtain ⟨rest, before, after⟩ := sum_update_split ServedConn.slot g.conns (Finset.mem_range.mpr below)
  have held := kept.held
  rw [slots, before] at held
  rw [slots, after]
  exact held.moves moves

theorem stay (at_ : (g.conns conn).stage = stage) (busy : stage ≠ .gone)
    (elsewhere : stage ≠ .queued) (record : ServedConn Key workers)
    (fits : record.FitsAt record.stage) (held : Held g.phase g.pending g.worker conn record.stage)
    (same : record.stage.live = stage.live) (perSource : Limiter Key)
    (moves : g.perSource.Moves (g.conns conn).slot perSource record.slot) :
    Kept { g.setConn conn record with perSource } where
  attended := kept.attended.stay at_ busy elsewhere fits held
  counted := kept.counted.trans (goroutines_same (same.trans (congrArg _ at_.symm))).symm
  late := kept.late
  held := kept.exchange (kept.attended.known at_ busy) moves

theorem letGo (mine : g.phase.conn = some conn) (at_ : (g.conns conn).stage = stage)
    (busy : stage ≠ .gone) (elsewhere : stage ≠ .queued) (record : ServedConn Key workers)
    (fits : record.FitsAt record.stage) (phase : RunPhase)
    (held : Held phase g.pending g.worker conn record.stage) (same : record.stage.live = stage.live)
    (early : phase.rank = 0) (perSource : Limiter Key)
    (moves : g.perSource.Moves (g.conns conn).slot perSource record.slot) (result : RunResult) :
    Kept { g.setConn conn record with phase, perSource, result } where
  attended := kept.attended.letGo mine at_ busy elsewhere fits held
  counted := kept.counted.trans (goroutines_same (same.trans (congrArg _ at_.symm))).symm
  late := Late.early (early ▸ Nat.zero_lt_succ 2) ..
  held := kept.exchange (kept.attended.known at_ busy) moves

theorem goOn {before : RunPhase} (at_ : g.phase = before) (free : before.conn = none)
    (phase : RunPhase) (later : before.rank ≤ phase.rank) (early : phase.rank < 3)
    (result : RunResult) (ctxDone : Bool) : Kept { g with phase, result, ctxDone } where
  attended := kept.attended.goOn (at_ ▸ free) (at_ ▸ later)
  counted := kept.counted
  late := Late.early early ..
  held := kept.held

/-! ### The accept loop -/

theorem acceptStep (source : Option Key) (stepped : g.acceptStep source = some next) :
    next.Kept := by
  simp only [Serving.acceptStep, Option.ite_none_right_eq_some] at stepped
  obtain ⟨⟨accepting, _⟩, result⟩ := stepped
  cases result
  have attended := kept.attended
  rw [accepting] at attended
  refine ⟨attended.accept source, ?_, Late.early ?_ .., ?_⟩
  · exact kept.counted.trans (goroutines_accept source).symm
  · exact Nat.zero_lt_succ 2
  · show g.perSource.Holds (slots (g.count + 1) (Function.update g.conns g.count _))
    rw [slots, sum_range_update ServedConn.slot rfl]
    exact kept.held

theorem acceptErrorStep (temporary : Bool) (stepped : g.acceptErrorStep temporary = some next) :
    next.Kept := by
  simp only [Serving.acceptErrorStep, Option.ite_none_right_eq_some] at stepped
  obtain ⟨⟨accepting, _⟩, result⟩ := stepped
  cases result
  split
  · exact kept.goOn accepting rfl .returning (by decide) (by decide) _ _
  · split
    · exact kept.goOn accepting rfl .sleeping (by decide) (by decide) _ _
    · exact kept.goOn accepting rfl .returning (by decide) (by decide) _ _

theorem acquireStep (stepped : g.acquireStep = some next) : next.Kept := by
  obtain ⟨conn, held, stepped⟩ := Option.bind_eq_some_iff.mp stepped
  obtain ⟨mine, at_⟩ := holds_some held
  obtain ⟨acquired, releases, active⟩ := kept.attended.fits_at at_ nofun
  split at stepped
  · cases stepped
    refine kept.letGo mine at_ nofun nofun _ ?_ .accepting ?_ ?_ rfl _ ?_ _
    · exact ⟨rfl, active, by simp [acquired, releases]⟩
    · trivial
    · rfl
    · exact .stays
  · rename_i taken
    cases stepped
    refine kept.stay at_ nofun nofun _ ?_ ?_ ?_ _ ?_
    · exact ⟨rfl, releases, active⟩
    · exact mine
    · rfl
    · rw [ServedConn.slot, if_neg (by simp [acquired]), ServedConn.slot, if_pos ⟨rfl, releases⟩]
      exact .takes taken

theorem addStep (stepped : g.addStep = some next) : next.Kept := by
  obtain ⟨conn, held, stepped⟩ := Option.bind_eq_some_iff.mp stepped
  obtain ⟨mine, at_⟩ := holds_some held
  obtain ⟨acquired, releases, _⟩ := kept.attended.fits_at at_ nofun
  cases stepped
  refine kept.stay at_ nofun nofun _ ?_ ?_ ?_ _ ?_
  · exact ⟨acquired, releases⟩
  · exact mine
  · rfl
  · exact .stays

theorem enqueueStep (maxPending : Nat) (stepped : g.enqueueStep maxPending = some next) :
    next.Kept := by
  obtain ⟨conn, held, stepped⟩ := Option.bind_eq_some_iff.mp stepped
  obtain ⟨mine, at_⟩ := holds_some held
  obtain ⟨_, ⟨⟩⟩ := Option.ite_none_right_eq_some.mp stepped
  refine ⟨kept.attended.enqueue mine at_, ?_, Late.early ?_ ..,
    kept.exchange (kept.attended.known at_ nofun) .stays⟩
  · refine kept.counted.trans (goroutines_same ?_).symm
    rw [at_]
    rfl
  · exact Nat.zero_lt_succ 2

theorem offerDoneStep (stepped : g.offerDoneStep = some next) : next.Kept := by
  obtain ⟨conn, held, stepped⟩ := Option.bind_eq_some_iff.mp stepped
  obtain ⟨mine, at_⟩ := holds_some held
  obtain ⟨acquired, releases⟩ := kept.attended.fits_at at_ nofun
  obtain ⟨_, ⟨⟩⟩ := Option.ite_none_right_eq_some.mp stepped
  refine kept.letGo mine at_ nofun nofun _ ?_ (.leaving conn) ?_ ?_ rfl _ ?_ _
  · exact ⟨acquired, congrArg (· + 1) releases⟩
  · rfl
  · rfl
  · exact ServedConn.frees acquired releases rfl

theorem offerFullStep (maxPending : Nat) (stepped : g.offerFullStep maxPending = some next) :
    next.Kept := by
  obtain ⟨conn, held, stepped⟩ := Option.bind_eq_some_iff.mp stepped
  obtain ⟨mine, at_⟩ := holds_some held
  obtain ⟨acquired, releases⟩ := kept.attended.fits_at at_ nofun
  obtain ⟨_, ⟨⟩⟩ := Option.ite_none_right_eq_some.mp stepped
  refine kept.stay at_ nofun nofun _ ?_ ?_ ?_ _ ?_
  · exact ⟨acquired, congrArg (· + 1) releases⟩
  · exact mine
  · rfl
  · exact ServedConn.frees acquired releases rfl

theorem dropRemoveStep (stepped : g.dropRemoveStep = some next) : next.Kept := by
  obtain ⟨conn, held, stepped⟩ := Option.bind_eq_some_iff.mp stepped
  obtain ⟨mine, at_⟩ := holds_some held
  obtain ⟨acquired, releases⟩ := kept.attended.fits_at at_ nofun
  cases stepped
  refine kept.stay at_ nofun nofun _ ?_ ?_ ?_ _ ?_
  · exact ⟨acquired, releases, rfl⟩
  · exact mine
  · rfl
  · exact .stays

theorem dropCloseStep (stepped : g.dropCloseStep = some next) : next.Kept := by
  obtain ⟨conn, held, stepped⟩ := Option.bind_eq_some_iff.mp stepped
  obtain ⟨mine, at_⟩ := holds_some held
  obtain ⟨acquired, releases, active⟩ := kept.attended.fits_at at_ nofun
  have slot : (g.conns conn).releases = if (g.conns conn).acquired then 1 else 0 := by
    simp [acquired, releases]
  cases stepped
  split
  · refine kept.letGo mine at_ nofun nofun _ ?_ .returning ?_ ?_ rfl _ ?_ _
    · exact ⟨rfl, active, slot⟩
    · trivial
    · rfl
    · exact .stays
  · refine kept.letGo mine at_ nofun nofun _ ?_ .accepting ?_ ?_ rfl _ ?_ _
    · exact ⟨rfl, active, slot⟩
    · trivial
    · rfl
    · exact .stays

/-! ### The workers and the relay goroutines -/

theorem takeStep (i : Fin workers) (stepped : g.takeStep i = some next) : next.Kept := by
  rw [Serving.takeStep] at stepped
  split at stepped
  · cases stepped
  rename_i conn rest queue
  obtain ⟨idle, ⟨⟩⟩ := Option.ite_none_right_eq_some.mp stepped
  have attended := kept.attended
  rw [queue] at attended
  have at_ := attended.queued conn (List.mem_cons_self ..)
  refine ⟨attended.take idle, ?_, kept.late, kept.exchange (kept.attended.known at_ nofun) .stays⟩
  show g.wg = goroutines g.knock g.watch (Function.update g.worker i _) g.count
    (Function.update g.conns conn _)
  rw [goroutines_same (by rw [at_]; rfl), goroutines_setWorker, idle, kept.counted]
  simp [WorkerState.live]

theorem drainedStep (i : Fin workers) (stepped : g.drainedStep i g.pendingIsClosed = some next) :
    next.Kept := by
  simp only [Serving.drainedStep, Option.ite_none_right_eq_some, pendingIsClosed_eq,
    decide_eq_true_eq] at stepped
  obtain ⟨⟨idle, empty, closed⟩, result⟩ := stepped
  cases result
  have attended := kept.attended
  rw [empty] at attended
  refine ⟨?_, ?_, Late.early (kept.early_of_worker (i := i) (by rw [idle]; decide)) .., kept.held⟩
  · show Attended g.count g.conns g.phase g.pending (Function.update g.worker i _)
    rw [empty]
    exact attended.drain i idle closed
  · show g.wg - 1 = goroutines g.knock g.watch (Function.update g.worker i _) g.count g.conns
    rw [goroutines_setWorker, idle, kept.counted]
    simp [WorkerState.live]

theorem authenticateStep (removeAfterAuth : Bool) (conn : Nat) (ok : Bool)
    (stepped : g.authenticateStep removeAfterAuth conn ok = some next) : next.Kept := by
  rw [Serving.authenticateStep] at stepped
  split at stepped
  · rename_i i at_
    obtain ⟨acquired, releases⟩ := kept.attended.fits_at at_ nofun
    have mine := kept.attended.held_at at_ nofun
    cases stepped
    apply kept.stay at_ nofun nofun
    · cases ok <;> cases removeAfterAuth <;>
        simp [ServedConn.FitsAt, acquired, releases]
    · cases ok <;> cases removeAfterAuth <;> exact mine
    · cases ok <;> cases removeAfterAuth <;> rfl
    · exact .stays
  · cases stepped

theorem removeAccessStep (conn : Nat) (revoked : Bool)
    (stepped : g.removeAccessStep conn revoked = some next) : next.Kept := by
  rw [Serving.removeAccessStep] at stepped
  split at stepped
  · rename_i i at_
    obtain ⟨acquired, releases⟩ := kept.attended.fits_at at_ nofun
    have mine := kept.attended.held_at at_ nofun
    cases stepped
    have moved := kept.stay at_ nofun nofun { g.conns conn with stage := .authenticated i true }
      ⟨acquired, releases, nofun⟩ mine rfl g.perSource .stays
    refine ⟨moved.attended, moved.counted, ?_, moved.held⟩
    exact ⟨kept.late.waited, fun later => (kept.late.cleaned later).revoke revoked,
      kept.late.stopped, kept.late.awaited⟩
  · cases stepped

theorem releaseStep (conn : Nat) (stepped : g.releaseStep conn = some next) : next.Kept := by
  rw [Serving.releaseStep] at stepped
  split at stepped
  · rename_i i ok at_
    obtain ⟨acquired, releases, closed⟩ := kept.attended.fits_at at_ nofun
    have mine := kept.attended.held_at at_ nofun
    cases stepped
    refine kept.stay at_ nofun nofun _ ?_ ?_ ?_ _ ?_
    · exact ⟨acquired, congrArg (· + 1) releases, closed⟩
    · exact mine
    · rfl
    · exact ServedConn.frees acquired releases rfl
  · cases stepped

theorem finishStep (conn : Nat) (stepped : g.finishStep conn = some next) : next.Kept := by
  rw [Serving.finishStep] at stepped
  split at stepped
  · rename_i i at_
    obtain ⟨acquired, releases, closed⟩ := kept.attended.fits_at at_ (by simp)
    have mine := kept.attended.held_at at_ (by simp)
    cases stepped
    refine ⟨kept.attended.finish mine at_ (by simp) (by simp) ⟨closed rfl, rfl, ?_⟩ trivial, ?_,
      kept.late, kept.exchange (kept.attended.known at_ (by simp)) .stays⟩
    · simp [acquired, releases]
    · show g.wg = goroutines g.knock g.watch (Function.update g.worker i _) g.count
        (Function.update g.conns conn _)
      rw [goroutines_same (by rw [at_]; rfl), goroutines_setWorker, mine, kept.counted]
      simp [WorkerState.live]
  · rename_i i at_
    obtain ⟨acquired, releases, _⟩ := kept.attended.fits_at at_ (by simp)
    have mine := kept.attended.held_at at_ (by simp)
    have below := kept.attended.known at_ (by simp)
    cases stepped
    refine ⟨kept.attended.finish mine at_ (by simp) (by simp) ⟨acquired, releases⟩ trivial, ?_,
      Late.early (kept.early_of_worker (i := i) (by rw [mine]; simp [WorkerState.live])) ..,
      kept.exchange below .stays⟩
    show g.wg + 1 = goroutines g.knock g.watch (Function.update g.worker i _) g.count
      (Function.update g.conns conn _)
    rw [goroutines_setConn below, goroutines_setWorker, mine, at_, kept.counted]
    simp [WorkerState.live, ConnStage.live]
  · cases stepped

theorem relayReturnStep (conn : Nat) (stepped : g.relayReturnStep conn = some next) :
    next.Kept := by
  obtain ⟨at_, result⟩ := Option.ite_none_right_eq_some.mp stepped
  obtain ⟨acquired, releases⟩ := kept.attended.fits_at at_ nofun
  cases result
  refine kept.stay at_ nofun nofun _ ?_ ?_ ?_ _ ?_
  · exact ⟨acquired, releases, rfl⟩
  · exact trivial
  · rfl
  · exact .stays

theorem relayRemoveStep (conn : Nat) (stepped : g.relayRemoveStep conn = some next) :
    next.Kept := by
  obtain ⟨at_, result⟩ := Option.ite_none_right_eq_some.mp stepped
  obtain ⟨acquired, releases, closed⟩ := kept.attended.fits_at at_ nofun
  have below := kept.attended.known at_ nofun
  cases result
  refine ⟨kept.attended.stay at_ nofun nofun ⟨closed, rfl, ?_⟩ trivial, ?_, Late.early
    (kept.early_of_relay below (by simp [at_, ConnStage.live])) .., kept.exchange below .stays⟩
  · simp [acquired, releases]
  · show g.wg - 1 = goroutines g.knock g.watch g.worker g.count (Function.update g.conns conn _)
    rw [goroutines_setConn below, at_, kept.counted]
    simp [ConnStage.live]

/-! ### The knock listener -/

theorem listen {phase : KnockPhase} (at_ : g.knock = phase) (live : phase.live = 1)
    {knock : KnockPhase} (still : knock.live = 1) (childErr ctxDone : Bool) (timers : TimerSet)
    (firewall : List FirewallOp) : Kept { g with knock, childErr, ctxDone, timers, firewall } where
  attended := kept.attended
  counted := by
    have counted := kept.counted
    unfold goroutines at counted ⊢
    dsimp only
    rw [counted, at_, live, still]
  late := Late.early (kept.early_of_knock (by rw [at_, live]; decide)) ..
  held := kept.held

theorem endKnock {phase : KnockPhase} (at_ : g.knock = phase) (live : phase.live = 1)
    (lnClosed : Bool) : Kept { g.endKnock with lnClosed } where
  attended := kept.attended
  counted := by
    have counted := kept.counted
    unfold goroutines at counted ⊢
    simp only [Serving.endKnock, KnockPhase.live]
    rw [counted, at_, live]
    ring
  late := Late.early (kept.early_of_knock (by rw [at_, live]; decide)) ..
  held := kept.held

theorem listenReturnStep (failed : Bool) (stepped : g.listenReturnStep failed = some next) :
    next.Kept := by
  obtain ⟨at_, ⟨⟩⟩ := Option.ite_none_right_eq_some.mp stepped
  split
  · exact kept.listen at_ rfl rfl ..
  · exact kept.endKnock at_ rfl g.lnClosed

/-! ### The goroutine that waits for the context -/

theorem watch {phase : WatchPhase} (at_ : g.watch = phase) (live : phase.live = 1)
    (watch : WatchPhase) (still : watch.live = 1) (lnClosed activeClosed : Bool) :
    Kept { g with watch, lnClosed, activeClosed } where
  attended := kept.attended
  counted := by
    have counted := kept.counted
    unfold goroutines at counted ⊢
    dsimp only
    rw [counted, at_, live, still]
  late := kept.late
  held := kept.held

theorem closeConn (conn : Nat) : (g.setConn conn { g.conns conn with closed := true }).Kept where
  attended := kept.attended.close conn
  counted := by
    refine kept.counted.trans (goroutines_same ?_).symm
    rfl
  late := kept.late
  held := by
    have same : slots g.count (Function.update g.conns conn { g.conns conn with closed := true }) =
        slots g.count g.conns := sum_update_same ServedConn.slot rfl
    exact same.symm ▸ kept.held

theorem closeNextStep (stepped : g.closeNextStep = some next) : next.Kept := by
  rw [Serving.closeNextStep] at stepped
  split at stepped
  · rename_i conn rest at_
    cases stepped
    exact (kept.watch at_ rfl (.closing rest) rfl g.lnClosed g.activeClosed).closeConn conn
  · rename_i at_
    have counted := kept.counted
    cases stepped
    refine ⟨kept.attended, ?_, Late.early (kept.early_of_watch ?_) .., kept.held⟩
    · unfold goroutines at counted ⊢
      simp only [at_, WatchPhase.live] at counted ⊢
      omega
    · simp [at_, WatchPhase.live]
  · cases stepped

/-! ### The lease timers and the deferred calls -/

theorem fireStep (stepped : g.fireStep = some next) : next.Kept := by
  obtain ⟨timers, fired, result⟩ := Option.bind_eq_some_iff.mp stepped
  cases result
  have early : ¬ 5 ≤ g.phase.rank := by
    intro later
    have armed := TimerSet.fire_some fired
    rw [kept.late.stopped later] at armed
    omega
  exact ⟨kept.attended, kept.counted, ⟨kept.late.waited, kept.late.cleaned,
    fun later => absurd later early, fun later => absurd (Nat.le_of_succ_le later) early⟩, kept.held⟩

theorem callbackStep (manualRevoke revoked : Bool)
    (stepped : g.callbackStep manualRevoke revoked = some next) : next.Kept := by
  obtain ⟨timers, done, result⟩ := Option.bind_eq_some_iff.mp stepped
  cases result
  refine ⟨kept.attended, kept.counted, ⟨kept.late.waited, ?_, ?_, ?_⟩, kept.held⟩
  · intro later
    exact (kept.late.cleaned later).revoke _
  · intro later
    exact (TimerSet.callbackDone_some done).2.trans (kept.late.stopped later)
  · intro later
    rw [(kept.late.awaited later).callbackDone] at done
    cases done

/-- A deferred call after the wait. -/
theorem deferred {before : RunPhase} (at_ : g.phase = before) (free : before.conn = none)
    {phase : RunPhase} (later : before.rank ≤ phase.rank) {timers : TimerSet}
    {firewall : List FirewallOp} (late : Late before g.wg g.timers g.firewall →
      Late phase g.wg timers firewall) {lnClosed : Bool} :
    Kept { g with phase, timers, firewall, lnClosed } where
  attended := kept.attended.goOn (at_ ▸ free) (at_ ▸ later)
  counted := kept.counted
  late := late (at_ ▸ kept.late)
  held := kept.held

theorem waitGroupStep (stepped : g.waitGroupStep = some next) : next.Kept := by
  obtain ⟨⟨at_, none_⟩, ⟨⟩⟩ := Option.ite_none_right_eq_some.mp stepped
  apply kept.deferred at_ rfl (by decide)
  exact fun _ => ⟨fun _ => none_, nofun, nofun, nofun⟩

theorem cleanupStep (stepped : g.cleanupStep = some next) : next.Kept := by
  obtain ⟨at_, ⟨⟩⟩ := Option.ite_none_right_eq_some.mp stepped
  apply kept.deferred at_ rfl (show _ ≤ RunPhase.cleaned.rank by decide)
  exact fun late => ⟨fun _ => late.waited (by decide), fun _ => CleanedUp.cleanup g.firewall, nofun,
    nofun⟩

theorem stopAllStep (stepped : g.stopAllStep = some next) : next.Kept := by
  obtain ⟨at_, ⟨⟩⟩ := Option.ite_none_right_eq_some.mp stepped
  apply kept.deferred at_ rfl (by decide)
  exact fun late => ⟨fun _ => late.waited (by decide), fun _ => late.cleaned (by decide),
    fun _ => rfl, nofun⟩

theorem waitCallbacksStep (stepped : g.waitCallbacksStep = some next) : next.Kept := by
  obtain ⟨⟨at_, awaited⟩, ⟨⟩⟩ := Option.ite_none_right_eq_some.mp stepped
  apply kept.deferred at_ rfl (by decide)
  exact fun late => ⟨fun _ => late.waited (by decide), fun _ => late.cleaned (by decide),
    fun _ => late.stopped (by decide), fun _ => awaited⟩

theorem closeListenerStep (stepped : g.closeListenerStep = some next) : next.Kept := by
  obtain ⟨at_, ⟨⟩⟩ := Option.ite_none_right_eq_some.mp stepped
  apply kept.deferred at_ rfl (by decide)
  exact fun late => ⟨fun _ => late.waited (by decide), fun _ => late.cleaned (by decide),
    fun _ => late.stopped (by decide), fun _ => late.awaited (by decide)⟩

end

theorem step (cfg : ServeConfig) (kept : g.Kept) (action : ServeAction Key workers)
    (stepped : g.step cfg action = some next) : next.Kept := by
  cases action with
  | cancel =>
    cases stepped
    exact ⟨kept.attended, kept.counted, kept.late, kept.held⟩
  | accept source => exact kept.acceptStep source stepped
  | acceptError temporary => exact kept.acceptErrorStep temporary stepped
  | wake =>
    obtain ⟨asleep, ⟨⟩⟩ := Option.ite_none_right_eq_some.mp stepped
    exact kept.goOn asleep rfl .accepting (by decide) (by decide) _ _
  | sleepAborted =>
    obtain ⟨⟨asleep, _⟩, ⟨⟩⟩ := Option.ite_none_right_eq_some.mp stepped
    exact kept.goOn asleep rfl .returning (by decide) (by decide) _ _
  | acquire => exact kept.acquireStep stepped
  | add => exact kept.addStep stepped
  | enqueue => exact kept.enqueueStep _ stepped
  | offerDone => exact kept.offerDoneStep stepped
  | offerFull => exact kept.offerFullStep _ stepped
  | dropRemove => exact kept.dropRemoveStep stepped
  | dropClose => exact kept.dropCloseStep stepped
  | take i => exact kept.takeStep i stepped
  | drained i => exact kept.drainedStep i stepped
  | authenticate conn ok => exact kept.authenticateStep _ conn ok stepped
  | removeAccess conn revoked => exact kept.removeAccessStep conn revoked stepped
  | release conn => exact kept.releaseStep conn stepped
  | finish conn => exact kept.finishStep conn stepped
  | relayReturn conn => exact kept.relayReturnStep conn stepped
  | relayRemove conn => exact kept.relayRemoveStep conn stepped
  | allow ok | mark ok =>
    obtain ⟨at_, ⟨⟩⟩ := Option.ite_none_right_eq_some.mp stepped
    apply kept.listen at_ rfl
    cases ok <;> rfl
  | revokeRefused | armTimer | knockCancel =>
    obtain ⟨at_, ⟨⟩⟩ := Option.ite_none_right_eq_some.mp stepped
    exact kept.listen at_ rfl rfl ..
  | listenReturn failed => exact kept.listenReturnStep failed stepped
  | knockCloseListener =>
    obtain ⟨at_, ⟨⟩⟩ := Option.ite_none_right_eq_some.mp stepped
    exact kept.endKnock at_ rfl true
  | watchDone =>
    obtain ⟨⟨at_, _⟩, ⟨⟩⟩ := Option.ite_none_right_eq_some.mp stepped
    exact kept.watch at_ rfl .fired rfl ..
  | closeAll =>
    obtain ⟨at_, ⟨⟩⟩ := Option.ite_none_right_eq_some.mp stepped
    exact kept.watch at_ rfl (.closing _) rfl ..
  | closeNext => exact kept.closeNextStep stepped
  | fire => exact kept.fireStep stepped
  | callback revoked => exact kept.callbackStep _ revoked stepped
  | deferCancel | closePending =>
    obtain ⟨at_, ⟨⟩⟩ := Option.ite_none_right_eq_some.mp stepped
    exact kept.goOn at_ rfl _ (by decide) (by decide) _ _
  | waitGroup => exact kept.waitGroupStep stepped
  | cleanup => exact kept.cleanupStep stepped
  | stopAll => exact kept.stopAllStep stepped
  | waitCallbacks => exact kept.waitCallbacksStep stepped
  | closeListener => exact kept.closeListenerStep stepped

end Serving.Kept

/-! ## After `run` has returned -/

theorem ServeConfig.authWorkers_pos (cfg : ServeConfig) : 0 < cfg.authWorkers := by
  unfold ServeConfig.authWorkers
  split
  · omega
  · decide

/-- Nothing is left of the connections, the slots, the goroutines, the timers
and the allowances. -/
structure Serving.LeavesNothing (g : Serving Key workers) : Prop where
  closed : ∀ conn, conn < g.count → (g.conns conn).closed = true
  inactive : ∀ conn, (g.conns conn).active = false
  released : ∀ conn, conn < g.count →
    (g.conns conn).releases = if (g.conns conn).acquired then 1 else 0
  slotsFree : ∀ key, g.perSource.n key = 0
  workersEnded : ∀ i, g.worker i = .ended
  relaysEnded : ∀ conn, (g.conns conn).stage = .gone
  listenerEnded : g.knock = .ended ∧ g.watch = .ended
  timersStopped : g.timers.Idle
  cleanedUp : CleanedUp g.firewall

theorem Serving.Kept.leavesNothing [NeZero workers] {g : Serving Key workers} (kept : g.Kept)
    (returned : g.phase = .returned) : g.LeavesNothing := by
  have late := kept.late
  rw [returned] at late
  have none_ := kept.counted.symm.trans (late.waited (by decide))
  obtain ⟨knock, watch, worker, relays⟩ := goroutines_eq_zero none_
  have ended : ∀ i, g.worker i = .ended := by
    intro i
    have idle := worker i
    cases state : g.worker i <;> simp_all [WorkerState.live]
  have free : g.phase.conn = none := by
    rw [returned]
    rfl
  have gone := kept.attended.gone free ended relays
  have fits : ∀ conn, conn < g.count → (g.conns conn).FitsAt .gone := by
    intro conn below
    have fits := kept.attended.fits conn below
    rwa [gone conn] at fits
  have free : slots g.count g.conns = 0 := by
    refine Finset.sum_eq_zero fun conn inside => ?_
    have released := (fits conn (Finset.mem_range.mp inside)).2.2
    cases acquired : (g.conns conn).acquired <;> simp_all [ServedConn.slot]
  refine ⟨fun conn below => (fits conn below).1, ?_, fun conn below => (fits conn below).2.2, ?_, ended,
    gone, ⟨?_, ?_⟩, late.awaited (by decide), late.cleaned (by decide)⟩
  · intro conn
    by_cases below : conn < g.count
    · exact (fits conn below).2.1
    · exact (kept.attended.fresh conn (by omega)).2
  · intro key
    have held := kept.held key
    rw [free] at held
    exact held
  · cases state : g.knock <;> simp_all [KnockPhase.live]
  · cases state : g.watch <;> simp_all [WatchPhase.live]

/-- Whenever `run` returns, it leaves nothing behind. -/
theorem run_leavesNothing (cfg : ServeConfig)
    (actions : List (ServeAction Key cfg.authWorkers)) (g : Serving Key cfg.authWorkers)
    (run : Run (Steps (Serving.step cfg)) (Serving.start cfg) actions g)
    (returned : g.phase = .returned) : g.LeavesNothing := by
  have kept : g.Kept := Run.invariant (fun _ state => Serving.Kept state) (.initial cfg)
    (fun _ _ action _ _ kept step => kept.step cfg action step) actions g run
  have : NeZero cfg.authWorkers := ⟨cfg.authWorkers_pos.ne'⟩
  exact kept.leavesNothing returned

def sampleServe : ServeConfig where
  maxPendingAuth := 1
  maxPendingAuthPerSource := 1
  maxAuthWorkers := 1
  knocks := true
  removeAfterAuth := false
  manualRevoke := true

/-- One connection is relayed, another comes as the context is cancelled. -/
def sampleServed : List (ServeAction Nat sampleServe.authWorkers) :=
  [.allow true, .mark true, .armTimer,
    .accept (some 7), .acquire, .add, .enqueue, .take ⟨0, by decide⟩, .authenticate 0 true,
    .release 0, .finish 0,
    .accept (some 7), .acquire, .add, .cancel, .offerDone,
    .watchDone, .closeAll, .dropRemove, .closeNext, .dropClose, .closeNext, .closeNext,
    .deferCancel, .closePending, .drained ⟨0, by decide⟩, .relayReturn 0, .relayRemove 0,
    .listenReturn false, .waitGroup, .fire, .cleanup, .stopAll, .callback true, .waitCallbacks,
    .closeListener]

theorem run_leavesNothing_sample :
    ∃ g, Run (Steps (Serving.step sampleServe)) (Serving.start sampleServe) sampleServed g ∧
      g.phase = .returned ∧ g.count = 2 ∧ g.LeavesNothing := by
  obtain ⟨g, run, returned, count⟩ := runSteps_reaches (Serving.step sampleServe)
    (Serving.start sampleServe) sampleServed (fun g => g.phase = .returned ∧ g.count = 2)
    (by decide +kernel)
  exact ⟨g, run, returned, count, run_leavesNothing sampleServe sampleServed g run returned⟩

end Libknock.Relay
