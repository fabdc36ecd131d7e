import Libknock.Gate.Lifecycle

/-!
# When the shutdown of a gate is final

`Close` reads the cancel function once.  If it does so while `Wrap` is starting
the knock listener, or if a handler arms its timer after `StopAll`, something is
left.  In runs without that, where no allowance takes effect under a cancelled
context, nothing is.
-/

set_option autoImplicit false

namespace Libknock.Gates

open Foundation Gatewaycore

/-! ## The condition -/

/-- Between `beginLifecycle` and the two goroutines of the knock listener. -/
def WrapPhase.starting : WrapPhase → Bool
  | .configuring | .initializing | .opening | .cleaning | .publishing | .counting => true
  | _ => false

def WrapPhase.early : WrapPhase → Bool
  | .configuring | .initializing | .opening | .cleaning => true
  | _ => false

theorem WrapPhase.starting_of_early {wrap : WrapPhase} (early : wrap.early = true) :
    wrap.starting = true := by
  cases wrap <;> simp_all [WrapPhase.early, WrapPhase.starting]

def ClosePhase.rank : ClosePhase → Nat
  | .idle => 0
  | .captured _ => 1
  | .cancelled _ => 2
  | .stopping _ => 3
  | .stopped _ => 4
  | .waited _ => 5
  | .finished _ => 6

/-- `Close` does not begin while `Wrap` starts the knock listener, no timer is
armed after `StopAll`, and no backend allows a source under a cancelled context. -/
def Gate.orderly (g : Gate) : GateAction → Bool
  | .closeBegin => !g.wrap.starting
  | .armTimer => decide (g.closer.rank < 3)
  | .allow ok => !(ok && g.ctxDone)
  | _ => true

/-! ## The invariant -/

def ClosePhase.cancel : ClosePhase → Option Bool
  | .idle => none
  | .captured cancel | .cancelled cancel | .stopping cancel | .stopped cancel | .waited cancel
  | .finished cancel => some cancel

def WatchPhase.live : WatchPhase → Int
  | .absent | .ended => 0
  | _ => 1

def ServePhase.live : ServePhase → Int
  | .absent | .ended => 0
  | _ => 1

def WatchPhase.holds : WatchPhase → Bool
  | .waiting | .cleaned => true
  | _ => false

def WatchPhase.past : WatchPhase → Bool
  | .cleaned | .knockClosed | .ended => true
  | _ => false

/-- There are no goroutines and no listener yet or at all, or `Wrap` is starting
them and no `Close` has begun, or they have been started. -/
inductive Placed (wrap : WrapPhase) (closer : ClosePhase) (published : Bool) (watch : WatchPhase)
    (serve : ServePhase) (knockListener : Socket) : Prop
  | without (notStarting : wrap.starting = false) (unpublished : published = false)
      (noWatch : watch = .absent) (noServe : serve = .absent)
      (unheard : knockListener ≠ .listening) : Placed wrap closer published watch serve knockListener
  | starting (starts : wrap.starting = true) (unclosed : closer = .idle)
      (publishes : published = true ↔ wrap = .counting) (noWatch : watch = .absent)
      (noServe : serve = .absent)
      (heard : knockListener = .listening → wrap = .publishing ∨ wrap = .counting) :
      Placed wrap closer published watch serve knockListener
  | running (notStarting : wrap.starting = false) (notIdle : wrap ≠ .idle)
      (isPublished : published = true) (watches : watch ≠ .absent)
      (held : knockListener = .listening → watch.holds = true) :
      Placed wrap closer published watch serve knockListener

/-- What `Close` has done so far. -/
structure Stopped (closer : ClosePhase) (wg : Int) (timers : TimerSet) : Prop where
  stopping : 3 ≤ closer.rank → timers.armed = 0
  stopped : 4 ≤ closer.rank → timers.Idle
  waited : 5 ≤ closer.rank → wg = 0

/-- Who has cleaned up. -/
structure Cleaned (mode : Mode) (closer : ClosePhase) (watch : WatchPhase) (ctxDone : Bool)
    (firewall : List FirewallOp) : Prop where
  cancelled : watch.past = true → ctxDone = true
  watched : watch.past = true → mode.requiresFirewallCleanup = true → CleanedUp firewall
  closed : closer = .finished false → mode.requiresFirewallCleanup = true → CleanedUp firewall

structure Gate.Kept (mode : Mode) (g : Gate) : Prop where
  placed : Placed g.wrap g.closer g.published g.watch g.serve g.knockListener
  shut : g.closer ≠ .idle → g.closed = true
  captured : ∀ cancel, g.closer.cancel = some cancel → cancel = g.published
  counted : g.wg = g.watch.live + g.serve.live
  stopped : Stopped g.closer g.wg g.timers
  cleaned : Cleaned mode g.closer g.watch g.ctxDone g.firewall

theorem Gate.Kept.initial (mode : Mode) : Gate.new.Kept mode where
  placed := .without rfl rfl rfl rfl nofun
  shut := nofun
  captured := nofun
  counted := rfl
  stopped := ⟨nofun, nofun, nofun⟩
  cleaned := ⟨nofun, nofun, nofun⟩

/-! ## `Wrap` -/

namespace Placed

variable {wrap wrap' : WrapPhase} {closer closer' : ClosePhase} {published : Bool}
  {watch watch' : WatchPhase} {serve serve' : ServePhase} {knockListener knockListener' : Socket}

section

variable (placed : Placed wrap closer published watch serve knockListener)

include placed

theorem rewrap (settled : wrap.starting = false) (notStarting : wrap'.starting = false)
    (notIdle : wrap' ≠ .idle) :
    Placed wrap' closer published watch serve knockListener := by
  cases placed with
  | without _ unpublished noWatch noServe unheard =>
    exact .without notStarting unpublished noWatch noServe unheard
  | starting starts =>
    rw [settled] at starts
    cases starts
  | running _ _ isPublished watches held => exact .running notStarting notIdle isPublished watches held

theorem reclose (settled : wrap.starting = false ∨ closer ≠ .idle) :
    Placed wrap closer' published watch serve knockListener := by
  cases placed with
  | without notStarting unpublished noWatch noServe unheard =>
    exact .without notStarting unpublished noWatch noServe unheard
  | starting starts unclosed =>
    rcases settled with settled | begun
    · rw [settled] at starts
      cases starts
    · exact absurd unclosed begun
  | running notStarting notIdle isPublished watches held =>
    exact .running notStarting notIdle isPublished watches held

theorem rerun (present : watch ≠ .absent ∨ serve ≠ .absent)
    (watches : watch ≠ .absent → watch' ≠ .absent)
    (held : (knockListener = .listening → watch.holds = true) →
      knockListener' = .listening → watch'.holds = true) :
    Placed wrap closer published watch' serve' knockListener' := by
  cases placed with
  | without _ _ noWatch noServe => simp [noWatch, noServe] at present
  | starting _ _ _ noWatch noServe => simp [noWatch, noServe] at present
  | running notStarting notIdle isPublished present' held' =>
    exact .running notStarting notIdle isPublished (watches present') (held held')

theorem published_of_serve (serves : serve ≠ .absent) : published = true := by
  cases placed with
  | without _ _ _ noServe => exact absurd noServe serves
  | starting _ _ _ _ noServe => exact absurd noServe serves
  | running _ _ isPublished => exact isPublished

end

end Placed

variable {phase : WrapPhase}

namespace Gate.Kept

variable {mode : Mode} {g next : Gate}

/-- Before `Close` has begun and the knock context is done with, there is
nothing to say about either. -/
theorem unclosed (unclosed : g.closer = .idle) (waits : g.watch.past = false)
    (placed : Placed g.wrap g.closer g.published g.watch g.serve g.knockListener)
    (counted : g.wg = g.watch.live + g.serve.live) : g.Kept mode where
  placed := placed
  shut begun := absurd unclosed begun
  captured := by
    rw [unclosed]
    exact nofun
  counted := counted
  stopped := by
    rw [unclosed]
    exact ⟨nofun, nofun, nofun⟩
  cleaned := by
    rw [unclosed]
    refine ⟨?_, ?_, nofun⟩
    · intro past
      rw [waits] at past
      cases past
    · intro past
      rw [waits] at past
      cases past

section

variable (kept : g.Kept mode)

include kept

theorem of_starting (starts : g.wrap.starting = true) :
    g.closer = .idle ∧ (g.published = true ↔ g.wrap = .counting) ∧ g.watch = .absent ∧
      g.serve = .absent ∧
      (g.knockListener = .listening → g.wrap = .publishing ∨ g.wrap = .counting) := by
  cases kept.placed with
  | without notStarting | running notStarting =>
    rw [notStarting] at starts
    cases starts
  | starting _ unclosed publishes noWatch noServe heard =>
    exact ⟨unclosed, publishes, noWatch, noServe, heard⟩

/-- Before `Close`, and before the goroutines, all there is to say is where things are. -/
theorem place (unclosed : g.closer = .idle) (noWatch : g.watch = .absent) {wrap : WrapPhase}
    {published started lnClosed : Bool} {knockListener : Socket} {firewall : List FirewallOp}
    (placed : Placed wrap g.closer published g.watch g.serve knockListener) :
    ({ g with wrap, published, started, lnClosed, knockListener, firewall } : Gate).Kept mode :=
  Kept.unclosed unclosed (congrArg WatchPhase.past noWatch) placed kept.counted

theorem of_early (early : g.wrap.early = true) :
    g.published = false ∧ g.knockListener ≠ .listening := by
  obtain ⟨_, publishes, _, _, heard⟩ := kept.of_starting (WrapPhase.starting_of_early early)
  constructor
  · by_contra published
    rw [publishes.mp (by simpa using published)] at early
    cases early
  · intro listening
    rcases heard listening with at_ | at_
    · rw [at_] at early
      cases early
    · rw [at_] at early
      cases early

theorem goOn (at_ : g.wrap = phase) (early : phase.early = true) (wrap : WrapPhase)
    (starts : wrap.starting = true) (uncounted : wrap ≠ .counting) (firewall : List FirewallOp) :
    ({ g with wrap, firewall } : Gate).Kept mode := by
  rw [← at_] at early
  obtain ⟨unclosed, _, noWatch, noServe, _⟩ :=
    kept.of_starting (WrapPhase.starting_of_early early)
  obtain ⟨unpublished, unheard⟩ := kept.of_early early
  apply kept.place unclosed noWatch
  refine .starting starts unclosed ?_ noWatch noServe fun listening => absurd listening unheard
  simp [unpublished, uncounted]

theorem giveUp (at_ : g.wrap = phase) (early : phase.early = true) {wrap : WrapPhase}
    (notStarting : wrap.starting = false) (lnClosed : Bool) (firewall : List FirewallOp) :
    ({ g with wrap, lnClosed, firewall } : Gate).Kept mode := by
  rw [← at_] at early
  obtain ⟨unclosed, _, noWatch, noServe, _⟩ :=
    kept.of_starting (WrapPhase.starting_of_early early)
  obtain ⟨unpublished, unheard⟩ := kept.of_early early
  exact kept.place unclosed noWatch (.without notStarting unpublished noWatch noServe unheard)

theorem rewrap (at_ : g.wrap = phase) (settled : phase.starting = false) (wrap : WrapPhase)
    (notStarting : wrap.starting = false) (notIdle : wrap ≠ .idle)
    (lnClosed : Bool) : ({ g with wrap, lnClosed } : Gate).Kept mode :=
  ⟨kept.placed.rewrap (at_ ▸ settled) notStarting notIdle, kept.shut, kept.captured, kept.counted,
    kept.stopped, kept.cleaned⟩

theorem beginLifecycleStep (stepped : g.beginLifecycleStep = some next) : next.Kept mode := by
  obtain ⟨idle, ⟨⟩⟩ := Option.ite_none_right_eq_some.mp stepped
  have settled : g.wrap.starting = false := by
    rw [idle]
    rfl
  split
  · exact kept.rewrap idle rfl (.returned .closed) rfl nofun _
  rename_i isOpen
  split
  · exact kept.rewrap idle rfl (.returned .started) rfl nofun _
  have unclosed : g.closer = .idle := by
    by_contra begun
    exact isOpen (kept.shut begun)
  cases kept.placed with
  | without _ unpublished noWatch noServe unheard =>
    apply kept.place unclosed noWatch
    refine .starting rfl unclosed ?_ noWatch noServe fun heard => absurd heard unheard
    simp [unpublished]
  | starting starts =>
    rw [settled] at starts
    cases starts
  | running _ notIdle => exact absurd idle notIdle

theorem configureStep (ok : Bool) (stepped : g.configureStep mode ok = some next) :
    next.Kept mode := by
  obtain ⟨at_, ⟨⟩⟩ := Option.ite_none_right_eq_some.mp stepped
  split
  · cases mode with
    | authOnly => exact kept.giveUp at_ rfl rfl _ _
    | knockAuthOnly => exact kept.goOn at_ rfl .opening rfl nofun _
    | knockFirewallAuth | knockFirewallOnly => exact kept.goOn at_ rfl .initializing rfl nofun _
  · exact kept.giveUp at_ rfl rfl _ _

theorem openKnockListenerStep (ok : Bool) (stepped : g.openKnockListenerStep mode ok = some next) :
    next.Kept mode := by
  obtain ⟨at_, ⟨⟩⟩ := Option.ite_none_right_eq_some.mp stepped
  split
  · have early : g.wrap.early = true := by
      rw [at_]
      rfl
    obtain ⟨unclosed, _, noWatch, noServe, _⟩ :=
      kept.of_starting (WrapPhase.starting_of_early early)
    apply kept.place unclosed noWatch
    refine .starting rfl unclosed ?_ noWatch noServe fun _ => .inl rfl
    simp [(kept.of_early early).1]
  · split
    · exact kept.goOn at_ rfl .cleaning rfl nofun _
    · exact kept.giveUp at_ rfl rfl _ _

theorem publishStep (stepped : g.publishStep = some next) : next.Kept mode := by
  obtain ⟨at_, ⟨⟩⟩ := Option.ite_none_right_eq_some.mp stepped
  have starts : g.wrap.starting = true := by
    rw [at_]
    rfl
  obtain ⟨unclosed, _, noWatch, noServe, _⟩ := kept.of_starting starts
  apply kept.place unclosed noWatch
  exact .starting rfl unclosed (iff_of_true rfl rfl) noWatch noServe fun _ => .inr rfl

theorem spawnStep (stepped : g.spawnStep mode = some next) : next.Kept mode := by
  obtain ⟨at_, ⟨⟩⟩ := Option.ite_none_right_eq_some.mp stepped
  have starts : g.wrap.starting = true := by
    rw [at_]
    rfl
  obtain ⟨unclosed, publishes, noWatch, noServe, _⟩ := kept.of_starting starts
  have counted := kept.counted
  rw [noWatch, noServe] at counted
  apply Kept.unclosed
  · exact unclosed
  · rfl
  · refine .running ?_ ?_ (publishes.mpr at_) nofun fun _ => rfl
    · dsimp only
      split <;> rfl
    · dsimp only
      split <;> exact nofun
  · show g.wg + 2 = _
    rw [counted]
    rfl

theorem wrapListenerStep (ok : Bool) (stepped : g.wrapListenerStep mode ok = some next) :
    next.Kept mode := by
  obtain ⟨at_, ⟨⟩⟩ := Option.ite_none_right_eq_some.mp stepped
  split
  · exact kept.rewrap at_ rfl (.returned .ok) rfl nofun _
  · split
    · exact kept.rewrap at_ rfl (.returned .failed) rfl nofun _
    · exact kept.rewrap at_ rfl .closing rfl nofun _

/-! ## The goroutines -/

theorem unwaited (live : g.watch.live + g.serve.live ≠ 0) : ¬ 5 ≤ g.closer.rank := by
  intro late
  exact live (kept.counted.symm.trans (kept.stopped.waited late))

/-- `Close` did not read a cancel function that was set, or it is not the one to
clean up. -/
theorem finished_running (serves : g.serve ≠ .absent) : g.closer ≠ .finished false := by
  intro finished
  have captured := kept.captured false (by rw [finished]; rfl)
  rw [kept.placed.published_of_serve serves] at captured
  cases captured

theorem watchDoneStep (stepped : g.watchDoneStep mode = some next) : next.Kept mode := by
  obtain ⟨⟨at_, done⟩, ⟨⟩⟩ := Option.ite_none_right_eq_some.mp stepped
  have counted := kept.counted
  rw [at_] at counted
  have cleans : mode.requiresFirewallCleanup = true →
      CleanedUp (if mode.requiresFirewallCleanup then .cleanup :: g.firewall else g.firewall) := by
    intro requires
    rw [if_pos requires]
    exact CleanedUp.cleanup g.firewall
  refine ⟨?_, kept.shut, kept.captured, counted, kept.stopped, ⟨fun _ => done, fun _ => cleans,
    fun _ => cleans⟩⟩
  exact kept.placed.rerun (.inl (by rw [at_]; exact nofun)) (fun _ => nofun) fun _ _ => rfl

theorem closeKnockStep (stepped : g.closeKnockStep = some next) : next.Kept mode := by
  obtain ⟨at_, ⟨⟩⟩ := Option.ite_none_right_eq_some.mp stepped
  have counted := kept.counted
  have cleaned := kept.cleaned
  rw [at_] at counted cleaned
  refine ⟨?_, kept.shut, kept.captured, counted, kept.stopped, ⟨fun _ => cleaned.cancelled rfl,
    fun _ => cleaned.watched rfl, cleaned.closed⟩⟩
  exact kept.placed.rerun (.inl (by rw [at_]; exact nofun)) (fun _ => nofun) fun _ => nofun

theorem closeLnStep (stepped : g.closeLnStep = some next) : next.Kept mode := by
  obtain ⟨at_, ⟨⟩⟩ := Option.ite_none_right_eq_some.mp stepped
  have counted := kept.counted
  have cleaned := kept.cleaned
  rw [at_] at counted cleaned
  have unwaited : ¬ 5 ≤ g.closer.rank := by
    apply kept.unwaited
    rw [at_]
    cases g.serve <;> decide
  refine ⟨?_, kept.shut, kept.captured, ?_, ⟨kept.stopped.stopping, kept.stopped.stopped, ?_⟩,
    ⟨fun _ => cleaned.cancelled rfl, fun _ => cleaned.watched rfl, cleaned.closed⟩⟩
  · refine kept.placed.rerun (.inl (by rw [at_]; exact nofun)) (fun _ => nofun) fun held listening => ?_
    have holds := held listening
    rw [at_] at holds
    cases holds
  · show g.wg - 1 = WatchPhase.ended.live + g.serve.live
    rw [counted]
    simp [WatchPhase.live]
  · intro late
    exact absurd late unwaited

theorem handle {phase : ServePhase} (at_ : g.serve = phase) (live : phase.live = 1)
    {serve : ServePhase} (still : serve.live = 1) {timers : TimerSet}
    (stopped : Stopped g.closer g.wg timers) {firewall : List FirewallOp}
    (cleaned : Cleaned mode g.closer g.watch g.ctxDone firewall) :
    ({ g with serve, timers, firewall } : Gate).Kept mode := by
  rw [← at_] at live
  refine ⟨?_, kept.shut, kept.captured, ?_, stopped, cleaned⟩
  · have present : g.serve ≠ .absent := by
      intro absent
      rw [absent] at live
      cases live
    exact kept.placed.rerun (.inr present) id id
  · show g.wg = g.watch.live + serve.live
    rw [kept.counted, live, still]

theorem allowStep (ok : Bool) (orderly : g.orderly (.allow ok) = true)
    (stepped : g.allowStep mode ok = some next) : next.Kept mode := by
  obtain ⟨⟨at_, _⟩, ⟨⟩⟩ := Option.ite_none_right_eq_some.mp stepped
  cases ok with
  | false => exact kept.handle at_ rfl rfl kept.stopped kept.cleaned
  | true =>
    have undone : g.ctxDone = false := by simpa [Gate.orderly] using orderly
    have waits : g.watch.past ≠ true := by
      intro past
      rw [kept.cleaned.cancelled past] at undone
      cases undone
    apply kept.handle at_ rfl rfl kept.stopped
    refine ⟨kept.cleaned.cancelled, fun past => absurd past waits, fun finished => ?_⟩
    exact absurd finished (kept.finished_running (by rw [at_]; exact nofun))

theorem revoke (revoked : Bool) :
    Cleaned mode g.closer g.watch g.ctxDone (if revoked then .revoke :: g.firewall else g.firewall) :=
  ⟨kept.cleaned.cancelled, fun past requires => (kept.cleaned.watched past requires).revoke revoked,
    fun finished requires => (kept.cleaned.closed finished requires).revoke revoked⟩

theorem armTimerStep (orderly : g.orderly .armTimer = true) (stepped : g.armTimerStep = some next) :
    next.Kept mode := by
  obtain ⟨at_, ⟨⟩⟩ := Option.ite_none_right_eq_some.mp stepped
  have early : g.closer.rank < 3 := of_decide_eq_true orderly
  refine kept.handle at_ rfl rfl ?_ kept.cleaned
  constructor <;> intro late <;> omega

theorem serveClosesStep (stepped : g.serveClosesStep = some next) : next.Kept mode := by
  obtain ⟨⟨present, _⟩, ⟨⟩⟩ := Option.ite_none_right_eq_some.mp stepped
  exact ⟨kept.placed.rerun (.inr present) id fun _ => nofun, kept.shut, kept.captured, kept.counted,
    kept.stopped, kept.cleaned⟩

theorem serveReturnStep (failed : Bool) (stepped : g.serveReturnStep failed = some next) :
    next.Kept mode := by
  obtain ⟨at_, ⟨⟩⟩ := Option.ite_none_right_eq_some.mp stepped
  have counted := kept.counted
  rw [at_] at counted
  have unwaited : ¬ 5 ≤ g.closer.rank := by
    apply kept.unwaited
    rw [at_]
    cases g.watch <;> decide
  refine ⟨?_, kept.shut, kept.captured, ?_, ⟨kept.stopped.stopping, kept.stopped.stopped, ?_⟩,
    kept.cleaned⟩
  · exact kept.placed.rerun (.inr (by rw [at_]; exact nofun)) id fun _ => nofun
  · show g.wg - 1 = g.watch.live + ServePhase.ended.live
    rw [counted]
    simp [ServePhase.live]
  · intro late
    exact absurd late unwaited

theorem fireStep (stepped : g.fireStep = some next) : next.Kept mode := by
  obtain ⟨timers, fired, result⟩ := Option.bind_eq_some_iff.mp stepped
  cases result
  have early : ¬ 3 ≤ g.closer.rank := by
    intro late
    have armed := TimerSet.fire_some fired
    rw [kept.stopped.stopping late] at armed
    omega
  exact ⟨kept.placed, kept.shut, kept.captured, kept.counted, ⟨fun late => absurd late early,
    fun late => absurd (Nat.le_of_succ_le late) early, kept.stopped.waited⟩, kept.cleaned⟩

theorem callbackStep (revokes revoked : Bool) (stepped : g.callbackStep revokes revoked = some next) :
    next.Kept mode := by
  obtain ⟨timers, done, result⟩ := Option.bind_eq_some_iff.mp stepped
  cases result
  refine ⟨kept.placed, kept.shut, kept.captured, kept.counted, ⟨?_, ?_, kept.stopped.waited⟩,
    kept.revoke _⟩
  · intro late
    exact (TimerSet.callbackDone_some done).2.trans (kept.stopped.stopping late)
  · intro late
    rw [(kept.stopped.stopped late).callbackDone] at done
    cases done

/-! ## `Close` -/

theorem closeBeginStep (orderly : g.orderly .closeBegin = true)
    (stepped : g.closeBeginStep = some next) : next.Kept mode := by
  obtain ⟨_, ⟨⟩⟩ := Option.ite_none_right_eq_some.mp stepped
  have settled : g.wrap.starting = false := by simpa [Gate.orderly] using orderly
  refine ⟨kept.placed.reclose (.inl settled), fun _ => rfl, ?_, kept.counted, ⟨nofun, nofun, nofun⟩,
    ⟨kept.cleaned.cancelled, kept.cleaned.watched, nofun⟩⟩
  intro cancel read
  exact (Option.some.inj read).symm

theorem reclose {cancel : Bool} (read : g.closer.cancel = some cancel) (closer : ClosePhase)
    (same : closer.cancel = some cancel) (ctxDone : Bool)
    (done : g.ctxDone = true → ctxDone = true) (timers : TimerSet)
    (stopped : Stopped closer g.wg timers) (firewall : List FirewallOp)
    (watched : g.watch.past = true → mode.requiresFirewallCleanup = true → CleanedUp firewall)
    (closed : closer = .finished false → mode.requiresFirewallCleanup = true → CleanedUp firewall) :
    ({ g with closer, ctxDone, timers, firewall } : Gate).Kept mode := by
  have begun : g.closer ≠ .idle := by
    intro idle
    rw [idle] at read
    cases read
  refine ⟨kept.placed.reclose (.inr begun), fun _ => kept.shut begun, ?_, kept.counted, stopped,
    ⟨fun past => done (kept.cleaned.cancelled past), watched, closed⟩⟩
  intro other again
  rw [same] at again
  exact (Option.some.inj again).symm.trans (kept.captured cancel read)

theorem closeCancelStep (stepped : g.closeCancelStep = some next) : next.Kept mode := by
  rw [Gate.closeCancelStep] at stepped
  split at stepped
  · rename_i cancel at_
    cases stepped
    refine kept.reclose (congrArg _ at_) (.cancelled cancel) rfl _ ?_ _ ⟨nofun, nofun, nofun⟩ _
      kept.cleaned.watched nofun
    intro done
    simp [done]
  · cases stepped

theorem closeStopStep (stepped : g.closeStopStep = some next) : next.Kept mode := by
  rw [Gate.closeStopStep] at stepped
  split at stepped
  · rename_i cancel at_
    cases stepped
    exact kept.reclose (congrArg _ at_) (.stopping cancel) rfl _ id _ ⟨fun _ => rfl, nofun, nofun⟩ _
      kept.cleaned.watched nofun
  · cases stepped

theorem closeStoppedStep (stepped : g.closeStoppedStep = some next) : next.Kept mode := by
  rw [Gate.closeStoppedStep] at stepped
  split at stepped
  · rename_i cancel at_
    obtain ⟨idle, ⟨⟩⟩ := Option.ite_none_right_eq_some.mp stepped
    exact kept.reclose (congrArg _ at_) (.stopped cancel) rfl _ id _
      ⟨fun _ => idle.1, fun _ => idle, nofun⟩ _ kept.cleaned.watched nofun
  · cases stepped

theorem closeWaitStep (stepped : g.closeWaitStep = some next) : next.Kept mode := by
  rw [Gate.closeWaitStep] at stepped
  split at stepped
  · rename_i cancel at_
    obtain ⟨none_, ⟨⟩⟩ := Option.ite_none_right_eq_some.mp stepped
    have idle : g.timers.Idle := kept.stopped.stopped (by rw [at_]; exact Nat.le_refl 4)
    exact kept.reclose (congrArg _ at_) (.waited cancel) rfl _ id _
      ⟨fun _ => idle.1, fun _ => idle, fun _ => none_⟩ _ kept.cleaned.watched nofun
  · cases stepped

theorem closeCleanupStep (stepped : g.closeCleanupStep mode = some next) : next.Kept mode := by
  rw [Gate.closeCleanupStep] at stepped
  split at stepped
  · rename_i cancel at_
    cases stepped
    have stopped := kept.stopped
    rw [at_] at stopped
    apply kept.reclose (congrArg _ at_) (.finished cancel) rfl _ id
    · exact ⟨fun _ => stopped.stopping (by simp [ClosePhase.rank]),
        fun _ => stopped.stopped (by simp [ClosePhase.rank]),
        fun _ => stopped.waited (by simp [ClosePhase.rank])⟩
    · intro past requires
      cases cancel with
      | true => simpa [record] using kept.cleaned.watched past requires
      | false => simpa [record, requires] using CleanedUp.cleanup g.firewall
    · intro finished requires
      cases ClosePhase.finished.inj finished
      simpa [record, requires] using CleanedUp.cleanup g.firewall
  · cases stepped

end

theorem step (manualRevoke : Bool) (kept : g.Kept mode) (action : GateAction)
    (orderly : g.orderly action = true) (stepped : g.step mode manualRevoke action = some next) :
    next.Kept mode := by
  cases action with
  | cancelParent =>
    cases stepped
    exact ⟨kept.placed, kept.shut, kept.captured, kept.counted, kept.stopped, ⟨fun _ => rfl,
      kept.cleaned.watched, kept.cleaned.closed⟩⟩
  | beginLifecycle => exact kept.beginLifecycleStep stepped
  | configure ok => exact kept.configureStep ok stepped
  | initFirewall ok =>
    obtain ⟨at_, ⟨⟩⟩ := Option.ite_none_right_eq_some.mp stepped
    cases ok with
    | false => exact kept.goOn at_ rfl .cleaning rfl nofun _
    | true => exact kept.goOn at_ rfl .opening rfl nofun _
  | openKnockListener ok => exact kept.openKnockListenerStep ok stepped
  | cleanupFailed =>
    obtain ⟨at_, ⟨⟩⟩ := Option.ite_none_right_eq_some.mp stepped
    exact kept.giveUp at_ rfl rfl _ _
  | publish => exact kept.publishStep stepped
  | spawn => exact kept.spawnStep stepped
  | wrapListener ok => exact kept.wrapListenerStep ok stepped
  | wrapClosed =>
    obtain ⟨⟨at_, _⟩, ⟨⟩⟩ := Option.ite_none_right_eq_some.mp stepped
    exact kept.rewrap at_ rfl (.returned .failed) rfl nofun _
  | watchDone => exact kept.watchDoneStep stepped
  | closeKnock => exact kept.closeKnockStep stepped
  | closeLn => exact kept.closeLnStep stepped
  | allow ok => exact kept.allowStep ok orderly stepped
  | markFirewall ok =>
    obtain ⟨at_, ⟨⟩⟩ := Option.ite_none_right_eq_some.mp stepped
    refine kept.handle at_ rfl ?_ kept.stopped kept.cleaned
    cases ok <;> rfl
  | revokeRefused =>
    obtain ⟨at_, ⟨⟩⟩ := Option.ite_none_right_eq_some.mp stepped
    exact kept.handle at_ rfl rfl kept.stopped (kept.revoke _)
  | session =>
    obtain ⟨⟨at_, _⟩, ⟨⟩⟩ := Option.ite_none_right_eq_some.mp stepped
    exact kept.handle at_ rfl rfl kept.stopped kept.cleaned
  | armTimer => exact kept.armTimerStep orderly stepped
  | serveCloses => exact kept.serveClosesStep stepped
  | serveReturn failed => exact kept.serveReturnStep failed stepped
  | fire => exact kept.fireStep stepped
  | callback revoked => exact kept.callbackStep _ revoked stepped
  | closeBegin => exact kept.closeBeginStep orderly stepped
  | closeCancel => exact kept.closeCancelStep stepped
  | closeStop => exact kept.closeStopStep stepped
  | closeStopped => exact kept.closeStoppedStep stepped
  | closeWait => exact kept.closeWaitStep stepped
  | closeCleanup => exact kept.closeCleanupStep stepped

end Gate.Kept

/-! ## After `Close` has returned -/

structure Gate.ShutDown (mode : Mode) (g : Gate) : Prop where
  knockClosed : g.knockListener ≠ .listening
  timersIdle : g.timers.Idle
  cleanedUp : mode.requiresFirewallCleanup = true → CleanedUp g.firewall

theorem Gate.Kept.shutDown {mode : Mode} {g : Gate} (kept : g.Kept mode)
    (closed : g.closer.returned = true) : g.ShutDown mode := by
  obtain ⟨cancel, finished⟩ : ∃ cancel, g.closer = .finished cancel := by
    cases at_ : g.closer with
    | finished cancel => exact ⟨cancel, rfl⟩
    | _ =>
      rw [at_] at closed
      cases closed
  have stopped := kept.stopped
  rw [finished] at stopped
  have idle := stopped.stopped (by simp [ClosePhase.rank])
  cases kept.placed with
  | without _ unpublished _ _ unheard =>
    have read := kept.captured cancel (congrArg _ finished)
    rw [unpublished] at read
    exact ⟨unheard, idle, kept.cleaned.closed (read ▸ finished)⟩
  | starting _ unclosed =>
    rw [finished] at unclosed
    cases unclosed
  | running _ _ _ watches held =>
    have ended : g.watch = .ended := by
      have counted := kept.counted
      rw [stopped.waited (by simp [ClosePhase.rank])] at counted
      cases at_ : g.watch <;> cases serving : g.serve <;>
        simp_all [WatchPhase.live, ServePhase.live]
    refine ⟨?_, idle, kept.cleaned.watched ?_⟩
    · intro listening
      have holds := held listening
      rw [ended] at holds
      cases holds
    · rw [ended]
      rfl

/-- In an orderly run the shutdown is final once `Close` has returned, whether
`Wrap` has returned or not. -/
theorem shutdown_final (mode : Mode) (manualRevoke : Bool) (actions : List GateAction) (g : Gate)
    (run : Run (Along (fun state action => state.orderly action = true)
      (Steps (Gate.step mode manualRevoke))) Gate.new actions g)
    (closed : g.closer.returned = true) : g.ShutDown mode := by
  have kept : g.Kept mode := Run.invariant (fun _ state => Gate.Kept mode state) (.initial mode)
    (fun _ _ action _ _ kept step => kept.step manualRevoke action step.2 step.1) actions g run
  exact kept.shutDown closed

/-- `Wrap` and a knock, then `Close` with the timer armed. -/
def sampleClosing : List GateAction :=
  [.beginLifecycle, .configure true, .initFirewall true, .openKnockListener true, .publish, .spawn,
    .wrapListener true, .allow true, .markFirewall true, .armTimer, .closeBegin, .closeCancel,
    .watchDone, .serveReturn true, .fire, .closeKnock, .closeStop, .callback true, .closeStopped,
    .closeLn, .closeWait, .closeCleanup]

theorem shutdown_final_sample :
    ∃ g, Run (Along (fun state action => state.orderly action = true)
        (Steps (Gate.step .knockFirewallAuth true))) Gate.new sampleClosing g ∧
      g.wrap = .returned .ok ∧ g.firewall = [.revoke, .cleanup, .allow, .init] ∧
      g.ShutDown .knockFirewallAuth := by
  obtain ⟨g, run, closed, wrapped, ops⟩ := runSteps_reaches_along
    (Gate.step .knockFirewallAuth true) Gate.new sampleClosing
    (fun g => g.closer.returned = true ∧ g.wrap = .returned .ok ∧
      g.firewall = [.revoke, .cleanup, .allow, .init])
    (fun state action => state.orderly action = true) (by decide +kernel)
  exact ⟨g, run, wrapped, ops, shutdown_final .knockFirewallAuth true sampleClosing g run closed⟩

/-- `Close` runs while `Wrap` has not yet called `Init`. -/
def closeWhileStarting : List GateAction :=
  [.beginLifecycle, .closeBegin, .closeCancel, .closeStop, .closeStopped, .closeWait, .closeCleanup,
    .configure true, .initFirewall true, .openKnockListener true, .publish, .spawn]

/-- A handler reaches its timer after `StopAll`. -/
def timerAfterStop : List GateAction :=
  [.beginLifecycle, .configure true, .openKnockListener true, .publish, .spawn, .wrapListener true,
    .session, .closeBegin, .closeCancel, .closeStop, .closeStopped, .armTimer, .watchDone,
    .closeKnock, .closeLn, .serveReturn true, .closeWait, .closeCleanup]

/-- A `Close` in the middle of `Wrap` leaves the firewall initialized and the
knock listener open; one in the middle of a handler leaves a timer. -/
theorem shutdown_leaves_something :
    (∃ g, Run (Steps (Gate.step .knockFirewallOnly true)) Gate.new closeWhileStarting g ∧
      g.closer.returned = true ∧ g.wrap = .returned .ok ∧ g.knockListener = .listening ∧
      g.firewall = [.init, .cleanup] ∧ ¬ CleanedUp g.firewall ∧ ¬ g.ShutDown .knockFirewallOnly) ∧
    ∃ g, Run (Steps (Gate.step .knockAuthOnly true)) Gate.new timerAfterStop g ∧
      g.closer.returned = true ∧ g.wrap = .returned .ok ∧ g.timers = ⟨1, 0⟩ ∧
      ¬ g.ShutDown .knockAuthOnly := by
  constructor
  · obtain ⟨g, run, closed, wrapped, listening, ops⟩ := runSteps_reaches
      (Gate.step .knockFirewallOnly true) Gate.new closeWhileStarting
      (fun g => g.closer.returned = true ∧ g.wrap = .returned .ok ∧
        g.knockListener = .listening ∧ g.firewall = [.init, .cleanup]) (by decide +kernel)
    have opened : ¬ CleanedUp g.firewall := by
      rw [ops]
      exact not_cleanedUp_cons nofun nofun
    refine ⟨g, run, closed, wrapped, listening, ops, opened, ?_⟩
    intro final
    exact final.knockClosed listening
  · obtain ⟨g, run, closed, wrapped, armed⟩ := runSteps_reaches (Gate.step .knockAuthOnly true)
      Gate.new timerAfterStop
      (fun g => g.closer.returned = true ∧ g.wrap = .returned .ok ∧ g.timers = ⟨1, 0⟩)
      (by decide +kernel)
    refine ⟨g, run, closed, wrapped, armed, ?_⟩
    intro final
    have idle := final.timersIdle.1
    rw [armed] at idle
    cases idle

end Libknock.Gates
