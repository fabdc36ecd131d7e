import Libknock.Relay.Gateway
import Libknock.Relay.Dials

/-!
# Openings and leases

Every pair the firewall allows is some party's to close: the handler that
opened it, the timer or callback of the lease recorded for it, or a callback
or removal that is about to revoke it.  A lease swept for another pair's mark
before its own callback ran breaks this, and its opening stays.
-/

set_option autoImplicit false

namespace Libknock.Relay

open Foundation Cache

variable {after g : Gateway} {reading : Int} {c : Callback} {r : Removal}

section Leased

variable (cfg : KnockConfig)

/-- The lease has run out by the time the party that expires it looks at it. -/
def Owned (g : Gateway) (lease : Entry FirewallKey FirewallLease) : Prop :=
  (∃ h, g.handler = some h ∧ h.key = lease.key ∧
    (h.stage = .marked lease.value.id ∨ h.stage = .recorded lease.value.id) ∧
      lease.expiresAt ≤ addDuration h.since cfg.ttl) ∨
  (∃ timer ∈ g.timers, timer.key = lease.key ∧ timer.leaseID = lease.value.id ∧
    lease.expiresAt ≤ timer.due) ∨
  ∃ c ∈ g.callbacks, c.key = lease.key ∧ c.leaseID = lease.value.id ∧ c.stage ≠ .revoking ∧
    lease.expiresAt ≤ c.since

def Opening (g : Gateway) (key : FirewallKey) : Prop :=
  ∃ h, g.handler = some h ∧ h.key = key ∧ (h.stage = .allowed ∨ h.stage = .refused)

def Leasing (g : Gateway) (key : FirewallKey) : Prop :=
  ∃ lease ∈ g.store.firewall.order, lease.key = key ∧ lease.value.id ≠ 0 ∧ Owned cfg g lease

def Closing (g : Gateway) (key : FirewallKey) : Prop :=
  (∃ c ∈ g.callbacks, c.key = key ∧ c.stage = .revoking) ∨
    ∃ r ∈ g.removals, r.key cfg = key ∧ r.stage = .rule

/-- Some party will close the pair. -/
def Covered (g : Gateway) (key : FirewallKey) : Prop :=
  Opening g key ∨ Leasing cfg g key ∨ Closing cfg g key

structure Leased (g : Gateway) : Prop where
  modern : 0 ≤ g.now
  since : ∀ h, g.handler = some h → 0 ≤ h.since ∧ h.since ≤ g.now
  covered : ∀ key ∈ g.allowed, Covered cfg g key

def Action.sweeps : Action → Option Int
  | .markFirewall reading => some reading
  | _ => none

/-- A mark sweeps no lease of another pair, and its identifier is not the zero
that `ExpireFirewall` refuses. -/
def SweepsNoOther (g : Gateway) (action : Action) : Prop :=
  ∀ reading ∈ action.sweeps, g.store.nextID + 1 ≠ 0 ∧ ∀ h ∈ g.handler,
    ∀ lease ∈ g.store.firewall.order, lease.key ≠ h.key → lease.live reading = true

instance (g : Gateway) (action : Action) : Decidable (SweepsNoOther g action) :=
  inferInstanceAs (Decidable (∀ reading ∈ action.sweeps, _ ∧ _))

/-! ## One step -/

theorem addDuration_mono {early late : Int} (span : Duration) (ordered : early ≤ late) :
    addDuration early span ≤ addDuration late span := by
  unfold addDuration
  omega

theorem tick_leased {now : Int} (leased : Leased cfg g) (stepped : g.tick now = some after) :
    Leased cfg after := by
  obtain ⟨later, rfl⟩ := tick_some stepped
  refine ⟨leased.modern.trans later, ?_, leased.covered⟩
  intro h running
  exact ⟨(leased.since h running).1, (leased.since h running).2.trans later⟩

theorem Covered.keep {next : Gateway} {key : FirewallKey} (covered : Covered cfg g key)
    (opening : Opening g key → Opening next key)
    (leases : ∀ lease ∈ g.store.firewall.order, lease.key = key → lease.value.id ≠ 0 →
      Owned cfg g lease → lease ∈ next.store.firewall.order ∧ Owned cfg next lease)
    (closing : Closing cfg g key → Closing cfg next key) : Covered cfg next key := by
  rcases covered with held | ⟨lease, stored, same, nonzero, owned⟩ | closed
  · exact Or.inl (opening held)
  · obtain ⟨stays, keeps⟩ := leases lease stored same nonzero owned
    exact Or.inr (Or.inl ⟨lease, stays, same, nonzero, keeps⟩)
  · exact Or.inr (Or.inr (closing closed))

theorem knock_leased {ev : KnockEvent} (leased : Leased cfg g)
    (stepped : g.knock cfg ev = some after) : Leased cfg after := by
  obtain ⟨idle, rfl | ⟨remote, _, rfl⟩⟩ := knock_some cfg stepped
  · exact leased
  refine ⟨leased.modern, ?_, ?_⟩
  · intro h running
    cases running
    exact ⟨leased.modern, le_refl _⟩
  · intro key member
    rcases Finset.mem_insert.mp member with rfl | old
    · exact Or.inl ⟨_, rfl, rfl, Or.inl rfl⟩
    refine (leased.covered key old).keep cfg ?_ ?_ id
    · intro ⟨h, running, _⟩
      cases idle.symm.trans running
    · intro lease stored _ _ owned
      refine ⟨stored, ?_⟩
      rcases owned with ⟨h, running, _⟩ | others
      · cases idle.symm.trans running
      · exact Or.inr others

theorem Covered.of_other {store : KnockSessionStore} (allowed : Finset FirewallKey)
    (handler : Option Handler) {h : Handler} (running : g.handler = some h)
    (unmarked : h.stage = .allowed ∨ h.stage = .refused)
    (leases : ∀ lease ∈ g.store.firewall.order, lease.key ≠ h.key → lease ∈ store.firewall.order)
    {key : FirewallKey} (other : key ≠ h.key) (covered : Covered cfg g key) :
    Covered cfg { g with store := store, allowed := allowed, handler := handler } key := by
  refine covered.keep cfg ?_ ?_ id
  · intro ⟨h', running', same, _⟩
    cases running.symm.trans running'
    exact absurd same.symm other
  · intro lease stored same _ owned
    refine ⟨leases lease stored (by rw [same]; exact other), ?_⟩
    rcases owned with ⟨h', running', _, marked, _⟩ | others
    · cases running.symm.trans running'
      rcases unmarked with stage | stage
      · simp [stage] at marked
      · simp [stage] at marked
    · exact Or.inr others

theorem markFirewall_leased (leased : Leased cfg g)
    (spares : SweepsNoOther g (.markFirewall reading))
    (stepped : g.markFirewall cfg reading = some after) : Leased cfg after := by
  obtain ⟨h, running, stage, since, past, outcome⟩ := markFirewall_some cfg stepped
  obtain ⟨fresh, live⟩ := spares reading rfl
  have modern : 0 ≤ reading := (leased.since h running).1.trans since
  rcases outcome with ⟨id, next, marked, rfl⟩ | ⟨next, refused, rfl⟩
  · obtain ⟨idEq, _, _, members⟩ := KnockSessionStore.mem_markFirewall g.store modern marked
    refine ⟨leased.modern, ?_, ?_⟩
    · intro h' running'
      cases running'
      exact ⟨leased.modern, le_refl _⟩
    · intro key member
      by_cases same : key = h.key
      · -- The new lease is the handler's until it arms the timer.
        refine Or.inr (Or.inl ⟨_, (members _).mpr (Or.inl rfl), same.symm, ?_, Or.inl ?_⟩)
        · rw [idEq]
          exact fresh
        · exact ⟨_, rfl, rfl, Or.inl rfl, addDuration_mono cfg.ttl past⟩
      · refine Covered.of_other cfg g.allowed _ running (Or.inl stage) ?_ same
          (leased.covered key member)
        intro lease stored other
        exact (members lease).mpr (Or.inr ⟨⟨stored, live h running lease stored other⟩, other⟩)
  · refine ⟨leased.modern, ?_, ?_⟩
    · intro h' running'
      cases running'
      exact ⟨leased.modern, le_refl _⟩
    · intro key member
      by_cases same : key = h.key
      · exact Or.inl ⟨_, rfl, same.symm, Or.inr rfl⟩
      refine Covered.of_other cfg g.allowed _ running (Or.inl stage) ?_ same
        (leased.covered key member)
      intro lease stored other
      rcases KnockSessionStore.mem_markFirewall_full g.store refused with
        ⟨rfl, _⟩ | ⟨members, _⟩
      · exact stored
      · exact (members lease).mpr ⟨stored, live h running lease stored other⟩

theorem revokeRefused_leased (leased : Leased cfg g) (stepped : g.revokeRefused = some after) :
    Leased cfg after := by
  obtain ⟨h, running, stage, rfl⟩ := revokeRefused_some stepped
  refine ⟨leased.modern, nofun, ?_⟩
  intro key member
  obtain ⟨other, old⟩ := Finset.mem_erase.mp member
  exact Covered.of_other cfg _ none running (Or.inr stage) (fun _ stored _ => stored) other
    (leased.covered key old)

theorem addSession_leased (leased : Leased cfg g) (stepped : g.addSession cfg reading = some after) :
    Leased cfg after := by
  obtain ⟨h, id, store, running, stage, since, past, leases, rfl⟩ :=
    addSession_some cfg stepped
  refine ⟨leased.modern, ?_, ?_⟩
  · intro h' running'
    cases running'
    exact ⟨leased.modern, le_refl _⟩
  · intro key member
    refine (leased.covered key member).keep cfg ?_ ?_ (fun closed => closed)
    · intro ⟨h', running', _, unmarked⟩
      cases running.symm.trans running'
      simp [stage] at unmarked
    · intro lease stored _ _ owned
      refine ⟨by rw [leases]; exact stored, ?_⟩
      rcases owned with ⟨h', running', same, marked, soon⟩ | others
      · cases running.symm.trans running'
        have own : id = lease.value.id := by simpa [stage] using marked
        refine Or.inl ⟨_, rfl, same, Or.inr (by rw [own]), soon.trans ?_⟩
        exact addDuration_mono cfg.ttl (since.trans past)
      · exact Or.inr others

theorem armTimer_leased (leased : Leased cfg g) (stepped : g.armTimer cfg = some after) :
    Leased cfg after := by
  obtain ⟨h, id, running, stage, rfl⟩ := armTimer_some cfg stepped
  refine ⟨leased.modern, nofun, ?_⟩
  intro key member
  refine (leased.covered key member).keep cfg ?_ ?_ (fun closed => closed)
  · intro ⟨h', running', _, unmarked⟩
    cases running.symm.trans running'
    simp [stage] at unmarked
  · intro lease stored _ _ owned
    refine ⟨stored, ?_⟩
    rcases owned with ⟨h', running', same, marked, soon⟩ | ⟨timer, armed, due⟩ | fired
    · cases running.symm.trans running'
      have own : id = lease.value.id := by simpa [stage] using marked
      refine Or.inr (Or.inl ⟨_, List.mem_append_right _ (List.mem_singleton_self _), same, own,
        soon.trans ?_⟩)
      exact addDuration_mono cfg.ttl (leased.since h running).2
    · exact Or.inr (Or.inl ⟨timer, List.mem_append_left _ armed, due⟩)
    · exact Or.inr (Or.inr fired)

theorem fire_leased {timer : LeaseTimer} (leased : Leased cfg g)
    (stepped : g.fire timer = some after) : Leased cfg after := by
  obtain ⟨due, rfl⟩ := fire_some timer g after stepped
  refine ⟨leased.modern, leased.since, ?_⟩
  intro key member
  refine (leased.covered key member).keep cfg id ?_ ?_
  · intro lease stored _ _ owned
    refine ⟨stored, ?_⟩
    rcases owned with held | ⟨other, armed, same, own, soon⟩ | ⟨c, fired, waits⟩
    · exact Or.inl held
    · by_cases fires : other = timer
      · subst fires
        exact Or.inr (Or.inr ⟨_, List.mem_append_right _ (List.mem_singleton_self _), same, own,
          nofun, soon.trans due⟩)
      · exact Or.inr (Or.inl ⟨other, (List.mem_erase_of_ne fires).mpr armed, same, own, soon⟩)
    · exact Or.inr (Or.inr ⟨c, List.mem_append_left _ fired, waits⟩)
  · intro closed
    rcases closed with ⟨c, fired, revokes⟩ | removes
    · exact Or.inl ⟨c, List.mem_append_left _ fired, revokes⟩
    · exact Or.inr removes

theorem mem_advance {callbacks : List Callback} {other : Callback} (moved : List Callback)
    (member : other ∈ callbacks) (different : other ≠ c) : other ∈ callbacks.erase c ++ moved :=
  List.mem_append_left _ ((List.mem_erase_of_ne different).mpr member)

theorem Closing.advance {next : Gateway} {key : FirewallKey} {moved : List Callback}
    (waiting : c.stage ≠ .revoking) (callbacks : next.callbacks = g.callbacks.erase c ++ moved)
    (removals : next.removals = g.removals) (closed : Closing cfg g key) :
    Closing cfg next key := by
  rcases closed with ⟨other, fired, same, revokes⟩ | removes
  · refine Or.inl ⟨other, ?_, same, revokes⟩
    rw [callbacks]
    apply mem_advance moved fired
    rintro rfl
    exact waiting revokes
  · rw [← removals] at removes
    exact Or.inr removes

theorem expireSessions_leased (leased : Leased cfg g)
    (stepped : g.expireSessions c reading = some after) :
    Leased cfg after := by
  obtain ⟨stage, since, past, rfl⟩ := expireSessions_some stepped
  refine ⟨leased.modern, leased.since, ?_⟩
  intro key member
  refine (leased.covered key member).keep cfg id ?_ ?_
  · intro lease stored _ _ owned
    refine ⟨stored, ?_⟩
    rcases owned with held | armed | ⟨other, fired, same, own, waits, soon⟩
    · exact Or.inl held
    · exact Or.inr (Or.inl armed)
    by_cases moves : other = c
    · subst moves
      exact Or.inr (Or.inr ⟨_, List.mem_append_right _ (List.mem_singleton_self _), same, own,
        nofun, soon.trans (since.trans past)⟩)
    · exact Or.inr (Or.inr ⟨other, mem_advance _ fired moves, same, own, waits, soon⟩)
  · exact Closing.advance cfg (by rw [stage]; nofun) rfl rfl

theorem expireFirewall_leased (leased : Leased cfg g)
    (stepped : g.expireFirewall c reading = some after) :
    Leased cfg after := by
  obtain ⟨stage, since, past, outcome⟩ := expireFirewall_some stepped
  have waiting : c.stage ≠ .revoking := by
    rw [stage]
    nofun
  rcases outcome with ⟨next, expired, rfl⟩ | ⟨next, kept, rfl⟩
  · have members := KnockSessionStore.mem_expireFirewall g.store expired
    refine ⟨leased.modern, leased.since, ?_⟩
    intro key member
    by_cases same : key = c.key
    · exact Or.inr (Or.inr (Or.inl ⟨{ c with since := g.now, stage := .revoking },
        List.mem_append_right _ (List.mem_singleton_self _), same.symm, rfl⟩))
    · refine (leased.covered key member).keep cfg id ?_ ?_
      · intro lease stored own _ owned
        have other : lease.key ≠ c.key := by
          rw [own]
          exact same
        refine ⟨(members lease).mpr ⟨stored, other⟩, ?_⟩
        rcases owned with held | armed | ⟨party, fired, theirs, rest⟩
        · exact Or.inl held
        · exact Or.inr (Or.inl armed)
        · refine Or.inr (Or.inr ⟨party, mem_advance _ fired ?_, theirs, rest⟩)
          rintro rfl
          exact other theirs.symm
      · exact Closing.advance cfg waiting rfl rfl
  · obtain ⟨rfl, unexpired⟩ :=
      KnockSessionStore.expireFirewall_false g.store kept
    refine ⟨leased.modern, leased.since, ?_⟩
    intro key member
    refine (leased.covered key member).keep cfg id ?_ ?_
    · intro lease stored own nonzero owned
      refine ⟨stored, ?_⟩
      rcases owned with held | armed | ⟨party, fired, theirs, named, waits, soon⟩
      · exact Or.inl held
      · exact Or.inr (Or.inl armed)
      refine Or.inr (Or.inr ⟨party, mem_advance _ fired ?_, theirs, named, waits, soon⟩)
      -- The callback's own lease would have been expired.
      rintro rfl
      have live := unexpired (by rw [named]; exact nonzero) lease stored theirs.symm named.symm
      simp only [Entry.live, decide_eq_true_eq] at live
      omega
    · exact Closing.advance cfg waiting rfl rfl

theorem revokeExpired_leased (leased : Leased cfg g) (stepped : g.revokeExpired c = some after) :
    Leased cfg after := by
  obtain ⟨_, stage, rfl⟩ := revokeExpired_some stepped
  refine ⟨leased.modern, leased.since, ?_⟩
  intro key member
  obtain ⟨other, old⟩ := Finset.mem_erase.mp member
  refine (leased.covered key old).keep cfg id ?_ ?_
  · intro lease stored _ _ owned
    refine ⟨stored, ?_⟩
    rcases owned with held | armed | ⟨party, fired, theirs, named, waits, soon⟩
    · exact Or.inl held
    · exact Or.inr (Or.inl armed)
    · refine Or.inr (Or.inr ⟨party, (List.mem_erase_of_ne ?_).mpr fired, theirs, named, waits,
        soon⟩)
      rintro rfl
      exact waits stage
  · intro closed
    rcases closed with ⟨party, fired, same, revokes⟩ | removes
    · refine Or.inl ⟨party, (List.mem_erase_of_ne ?_).mpr fired, same, revokes⟩
      rintro rfl
      exact other same.symm
    · exact Or.inr removes

theorem Leased.sessions {next : Gateway} (leased : Leased cfg g) (now : next.now = g.now)
    (handler : next.handler = g.handler) (allowed : next.allowed = g.allowed)
    (leases : next.store.firewall = g.store.firewall) (timers : next.timers = g.timers)
    (callbacks : next.callbacks = g.callbacks)
    (removals : ∀ r ∈ g.removals, r.stage = .rule → r ∈ next.removals) : Leased cfg next := by
  refine ⟨by rw [now]; exact leased.modern, by rw [handler, now]; exact leased.since, ?_⟩
  intro key member
  rw [allowed] at member
  refine (leased.covered key member).keep cfg ?_ ?_ ?_
  · intro held
    rw [Opening, handler]
    exact held
  · intro lease stored _ _ owned
    rw [Owned, handler, timers, callbacks, leases]
    exact ⟨stored, owned⟩
  · intro closed
    rw [Closing, callbacks]
    rcases closed with revokes | ⟨r, removing, same, stage⟩
    · exact Or.inl revokes
    · exact Or.inr ⟨r, removals r removing stage, same, stage⟩

theorem removeSession_leased (leased : Leased cfg g) (stepped : g.removeSession r = some after) :
    Leased cfg after := by
  obtain ⟨_, stage, rfl⟩ := removeSession_some stepped
  refine leased.sessions cfg rfl rfl rfl rfl rfl rfl ?_
  intro other removing rule
  refine List.mem_append_left _ ((List.mem_erase_of_ne ?_).mpr removing)
  rintro rfl
  rw [stage] at rule
  cases rule

theorem removeLease_leased (leased : Leased cfg g) (stepped : g.removeLease cfg r = some after) :
    Leased cfg after := by
  obtain ⟨_, rfl⟩ := removeLease_some cfg stepped
  refine ⟨leased.modern, leased.since, ?_⟩
  intro key member
  by_cases same : key = r.key cfg
  · exact Or.inr (Or.inr (Or.inr ⟨{ r with stage := .rule },
      List.mem_append_right _ (List.mem_singleton_self _), same.symm, rfl⟩))
  · refine (leased.covered key member).keep cfg id ?_ ?_
    · intro lease stored own _ owned
      refine ⟨TTLLRU.mem_delete.mpr ⟨stored, ?_⟩, owned⟩
      rw [own]
      exact same
    · intro closed
      rcases closed with revokes | ⟨other, removing, theirs, rule⟩
      · exact Or.inl revokes
      · refine Or.inr ⟨other, List.mem_append_left _ ((List.mem_erase_of_ne ?_).mpr removing),
          theirs, rule⟩
        rintro rfl
        exact same theirs.symm

theorem revokeRemoved_leased (leased : Leased cfg g) (stepped : g.revokeRemoved cfg r = some after) :
    Leased cfg after := by
  obtain ⟨_, rfl⟩ := revokeRemoved_some cfg stepped
  refine ⟨leased.modern, leased.since, ?_⟩
  intro key member
  obtain ⟨other, old⟩ := Finset.mem_erase.mp member
  refine (leased.covered key old).keep cfg id ?_ ?_
  · intro lease stored _ _ owned
    exact ⟨stored, owned⟩
  · intro closed
    rcases closed with revokes | ⟨party, removing, theirs, rule⟩
    · exact Or.inl revokes
    · refine Or.inr ⟨party, (List.mem_erase_of_ne ?_).mpr removing, theirs, rule⟩
      rintro rfl
      exact other theirs.symm

theorem step_leased (before after : Gateway) (action : Action) (leased : Leased cfg before)
    (spares : SweepsNoOther before action) (stepped : before.step cfg action = some after) :
    Leased cfg after := by
  cases action with
  | tick now => exact tick_leased cfg leased stepped
  | knock ev => exact knock_leased cfg leased stepped
  | markFirewall reading => exact markFirewall_leased cfg leased spares stepped
  | revokeRefused => exact revokeRefused_leased cfg leased stepped
  | addSession reading => exact addSession_leased cfg leased stepped
  | armTimer => exact armTimer_leased cfg leased stepped
  | fire timer => exact fire_leased cfg leased stepped
  | expireSessions c reading => exact expireSessions_leased cfg leased stepped
  | expireFirewall c reading => exact expireFirewall_leased cfg leased stepped
  | revokeExpired c => exact revokeExpired_leased cfg leased stepped
  | authenticate peer remote localAddr completes =>
    obtain ⟨started, rfl, _, _⟩ := authenticate_some cfg stepped
    exact leased.sessions cfg rfl rfl rfl (by simp) rfl rfl
      (fun _ removing _ => List.mem_append_left _ removing)
  | accept peer remote =>
    cases accept_some cfg stepped
    exact leased.sessions cfg rfl rfl rfl (by simp) rfl rfl
      (fun _ removing _ => removing)
  | removeSession r => exact removeSession_leased cfg leased stepped
  | removeLease r => exact removeLease_leased cfg leased stepped
  | revokeRemoved r => exact revokeRemoved_leased cfg leased stepped

/-! ## Runs -/

theorem start_leased (limit clock : Int) (modern : 0 ≤ clock) :
    Leased cfg (Gateway.start limit clock) := by
  refine ⟨modern, nofun, ?_⟩
  intro key member
  cases member

theorem run_leased (limit clock : Int) (modern : 0 ≤ clock) (actions : List Action) (g : Gateway)
    (run : Run (Along SweepsNoOther (Steps (Gateway.step cfg))) (Gateway.start limit clock)
      actions g) : Leased cfg g := by
  induction run with
  | nil => exact start_leased cfg limit clock modern
  | snoc _ step ih => exact step_leased cfg _ _ _ ih step.2 step.1

/-- No opening outlives its lease, in a run in which no mark sweeps the lease of
another pair: once no handler is mid-way and every timer has fired and
finished, the firewall allows nothing. -/
theorem quiet_allows_nothing (limit clock : Int) (modern : 0 ≤ clock) (actions : List Action)
    (g : Gateway)
    (run : Run (Along SweepsNoOther (Steps (Gateway.step cfg))) (Gateway.start limit clock)
      actions g) (quiet : g.Quiet) : g.allowed = ∅ := by
  have leased := run_leased cfg limit clock modern actions g run
  obtain ⟨idle, timers, callbacks, removals⟩ := quiet
  apply Finset.eq_empty_of_forall_notMem
  intro key member
  rcases leased.covered key member with ⟨h, running, _⟩ | ⟨lease, _, _, _, owned⟩ | closed
  · cases idle.symm.trans running
  · rw [Owned, idle, timers, callbacks] at owned
    simp at owned
  · rw [Closing, callbacks, removals] at closed
    simp at closed

end Leased

def samplePair (host : UInt8) : FirewallKey := ⟨.v4 (FixedBytes.copy 4 [192, 0, 2, host]), 443⟩

def sampleHandling (host : UInt8) (clientID : Bytes) (now : Int) : List Action :=
  [.tick now, .knock ⟨[192, 0, 2, host], clientID, ascii "s"⟩, .markFirewall now, .addSession now,
    .armTimer]

/-- A callback's run, up to its `ExpireFirewall`, for a timer that is due. -/
def sampleExpiring (host : UInt8) (clientID : Bytes) (id : UInt64) (now : Int) : List Action :=
  [.tick now, .fire ⟨samplePair host, clientID, id, now⟩,
    .expireSessions ⟨samplePair host, clientID, id, now, .fired⟩ now,
    .expireFirewall ⟨samplePair host, clientID, id, now, .expiring⟩ now]

def sampleRevoking (host : UInt8) (clientID : Bytes) (id : UInt64) (now : Int) : Action :=
  .revokeExpired ⟨samplePair host, clientID, id, now, .revoking⟩

/-- A knock from a second host sweeps the first host's lease in the instant it
runs out, before its timer: the timer finds no lease, and the opening stays. -/
theorem opening_outlives_swept_lease :
    ∃ g, Run (Steps (Gateway.step sampleKnockConfig)) (Gateway.start 16 0)
        (sampleHandling 1 (ascii "a") 1000000000 ++ sampleHandling 2 (ascii "b") 61000000000 ++
          sampleExpiring 1 (ascii "a") 1 61000000000 ++
          sampleExpiring 2 (ascii "b") 2 121000000000 ++
          [sampleRevoking 2 (ascii "b") 2 121000000000]) g ∧
      g.Quiet ∧ g.allowed = {samplePair 1} :=
  runSteps_reaches _ _ _ _ (by decide +kernel)

/-- Two hosts knock half a lease apart, and both timers run to their ends. -/
def sampleLeases : List Action :=
  sampleHandling 1 (ascii "a") 1000000000 ++ sampleHandling 2 (ascii "b") 31000000000 ++
    sampleExpiring 1 (ascii "a") 1 61000000000 ++ [sampleRevoking 1 (ascii "a") 1 61000000000] ++
    sampleExpiring 2 (ascii "b") 2 91000000000 ++ [sampleRevoking 2 (ascii "b") 2 91000000000]

theorem quiet_allows_nothing_sample :
    ∃ g, Run (Along SweepsNoOther (Steps (Gateway.step sampleKnockConfig))) (Gateway.start 16 0)
        sampleLeases g ∧ g.Quiet ∧ g.allowed = ∅ := by
  obtain ⟨g, run, quiet⟩ := runSteps_reaches_along (Gateway.step sampleKnockConfig)
    (Gateway.start 16 0) sampleLeases Gateway.Quiet SweepsNoOther (by decide +kernel)
  exact ⟨g, run, quiet, quiet_allows_nothing sampleKnockConfig 16 0 (by decide) _ g run quiet⟩

end Libknock.Relay
