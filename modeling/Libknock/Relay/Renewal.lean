import Libknock.Relay.Lease

/-!
# Renewed leases

A lease stands for a rule: while a pair has a lease the firewall allows it.
The handler allows before it marks, and a callback revokes after it has
expired the lease, so this holds as long as neither of these two spans of one
pair begins inside the other.
-/

set_option autoImplicit false

namespace Libknock.Relay

open Foundation Cache

variable {after g : Gateway}

section Renewal

variable (cfg : KnockConfig)

def Action.opens : Action → Option FirewallKey
  | .knock ev => (addrFromIP ev.sourceIP).map fun remote => ⟨remote, cfg.port⟩
  | _ => none

def Action.expires : Action → Option (Callback × Int)
  | .expireFirewall c reading => some (c, reading)
  | _ => none

/-- No knock opens a pair that a callback is about to revoke, and no callback
expires a lease that has run out while a handler is between allowing its pair
and marking it. -/
def SpansApart (g : Gateway) (action : Action) : Prop :=
  (∀ key ∈ action.opens cfg, ∀ c ∈ g.callbacks, c.key = key → c.stage ≠ .revoking) ∧
    ∀ expiry ∈ action.expires, ∀ h ∈ g.handler, h.key = expiry.1.key → h.stage = .allowed →
      ∀ lease ∈ g.store.firewall.order, lease.key = h.key → lease.value.id = expiry.1.leaseID →
        lease.live expiry.2 = true

instance (g : Gateway) (action : Action) : Decidable (SpansApart cfg g action) :=
  inferInstanceAs (Decidable (_ ∧ _))

def Unleased (g : Gateway) (key : FirewallKey) : Prop :=
  ∀ lease ∈ g.store.firewall.order, lease.key ≠ key

structure Standing (g : Gateway) : Prop where
  modern : 0 ≤ g.now
  since : ∀ h, g.handler = some h → 0 ≤ h.since
  usable : ∀ lease ∈ g.store.firewall.order,
    lease.key.remote.isValid = true ∧ 0 < lease.key.port
  allowed : ∀ lease ∈ g.store.firewall.order, lease.key ∈ g.allowed
  revoking : ∀ c ∈ g.callbacks, c.stage = .revoking → Unleased g c.key ∧
    ∀ h, g.handler = some h → h.key = c.key → h.stage ≠ .allowed
  opened : ∀ h, g.handler = some h → h.stage = .allowed → h.key ∈ g.allowed
  refused : ∀ h, g.handler = some h → h.stage = .refused → Unleased g h.key
  unremoved : g.removals = []

/-! ## One step -/

theorem KnockConfig.ttl_positive : ¬ cfg.ttl ≤ 0 := by
  unfold KnockConfig.ttl
  split
  · decide
  · rename_i given
    exact given

theorem Standing.keep {next : Gateway} (standing : Standing g) (now : g.now ≤ next.now)
    (leases : ∀ lease ∈ next.store.firewall.order, lease ∈ g.store.firewall.order)
    (allowed : next.allowed = g.allowed)
    (handler : ∀ h, next.handler = some h →
      g.handler = some h ∨ (0 ≤ h.since ∧ h.stage ≠ .allowed ∧ h.stage ≠ .refused))
    (callbacks : ∀ c ∈ next.callbacks, c.stage = .revoking → c ∈ g.callbacks)
    (removals : next.removals = []) : Standing next where
  modern := standing.modern.trans now
  since := by
    intro h running
    rcases handler h running with same | ⟨since, _⟩
    · exact standing.since h same
    · exact since
  usable := fun lease stored => standing.usable lease (leases lease stored)
  allowed := by
    intro lease stored
    rw [allowed]
    exact standing.allowed lease (leases lease stored)
  revoking := by
    intro c fired stage
    obtain ⟨unleased, apart⟩ := standing.revoking c (callbacks c fired stage) stage
    refine ⟨fun lease stored => unleased lease (leases lease stored), ?_⟩
    intro h running own
    rcases handler h running with same | ⟨_, past, _⟩
    · exact apart h same own
    · exact past
  opened := by
    intro h running stage
    rw [allowed]
    rcases handler h running with same | ⟨_, past, _⟩
    · exact standing.opened h same stage
    · exact absurd stage past
  refused := by
    intro h running stage lease stored
    rcases handler h running with same | ⟨_, _, past⟩
    · exact standing.refused h same stage lease (leases lease stored)
    · exact absurd stage past
  unremoved := removals

theorem knock_standing {ev : KnockEvent} (standing : Standing g)
    (spans : SpansApart cfg g (.knock ev)) (stepped : g.knock cfg ev = some after) :
    Standing after := by
  obtain ⟨idle, rfl | ⟨remote, source, rfl⟩⟩ := knock_some cfg stepped
  · exact standing
  have apart := spans.1 ⟨remote, cfg.port⟩ (by simp [Action.opens, source])
  refine ⟨standing.modern, ?_, standing.usable, ?_, ?_, ?_, ?_, standing.unremoved⟩
  · intro h running
    cases running
    exact standing.modern
  · intro lease stored
    exact Finset.mem_insert_of_mem (standing.allowed lease stored)
  · intro c fired stage
    refine ⟨(standing.revoking c fired stage).1, ?_⟩
    intro h running own
    cases running
    exact absurd stage (apart c fired own.symm)
  · intro h running stage
    cases running
    exact Finset.mem_insert_self _ _
  · intro h running stage
    cases running
    cases stage

theorem markFirewall_standing {reading : Int} (standing : Standing g)
    (stepped : g.markFirewall cfg reading = some after) : Standing after := by
  obtain ⟨h, running, stage, since, past, outcome⟩ := markFirewall_some cfg stepped
  have modern : 0 ≤ reading := (standing.since h running).trans since
  rcases outcome with ⟨id, next, marked, rfl⟩ | ⟨next, refused, rfl⟩
  · obtain ⟨_, valid, port, members⟩ := KnockSessionStore.mem_markFirewall g.store modern marked
    have stored : ∀ lease ∈ next.firewall.order,
        lease.key = h.key ∨ lease ∈ g.store.firewall.order := by
      intro lease member
      rcases (members lease).mp member with rfl | ⟨⟨old, _⟩, _⟩
      · exact Or.inl rfl
      · exact Or.inr old
    refine ⟨standing.modern, ?_, ?_, ?_, ?_, ?_, ?_, standing.unremoved⟩
    · intro h' running'
      cases running'
      exact standing.modern
    · intro lease member
      rcases stored lease member with same | old
      · rw [same]
        exact ⟨valid, port⟩
      · exact standing.usable lease old
    · intro lease member
      rcases stored lease member with same | old
      · rw [same]
        exact standing.opened h running stage
      · exact standing.allowed lease old
    · intro c fired revokes
      obtain ⟨unleased, apart⟩ := standing.revoking c fired revokes
      refine ⟨?_, ?_⟩
      · intro lease member clash
        rcases stored lease member with same | old
        · exact apart h running (same.symm.trans clash) stage
        · exact unleased lease old clash
      · intro h' running' _
        cases running'
        nofun
    · intro h' running' allowed
      cases running'
      cases allowed
    · intro h' running' refused
      cases running'
      cases refused
  · have facts : (∀ lease ∈ next.firewall.order, lease ∈ g.store.firewall.order) ∧
        ∀ lease ∈ next.firewall.order, lease.key ≠ h.key := by
      rcases KnockSessionStore.mem_markFirewall_full g.store refused with
        ⟨rfl, unusable⟩ | ⟨members, none⟩
      · refine ⟨fun _ stored => stored, ?_⟩
        -- The call refused its arguments; a lease of this pair shows they are usable.
        intro lease stored same
        obtain ⟨valid, port⟩ := standing.usable lease stored
        rw [same] at valid port
        rcases unusable with invalid | low | short
        · rw [valid] at invalid
          cases invalid
        · omega
        · exact cfg.ttl_positive short
      · exact ⟨fun lease stored => ((members lease).mp stored).1, none⟩
    refine ⟨standing.modern, ?_, ?_, ?_, ?_, ?_, ?_, standing.unremoved⟩
    · intro h' running'
      cases running'
      exact standing.modern
    · exact fun lease stored => standing.usable lease (facts.1 lease stored)
    · exact fun lease stored => standing.allowed lease (facts.1 lease stored)
    · intro c fired revokes
      refine ⟨fun lease stored => (standing.revoking c fired revokes).1 lease
        (facts.1 lease stored), ?_⟩
      intro h' running' _
      cases running'
      nofun
    · intro h' running' allowed
      cases running'
      cases allowed
    · intro h' running' _
      cases running'
      exact facts.2

theorem Standing.revoke (standing : Standing g) (key : FirewallKey)
    (unleased : Unleased g key) (handler : Option Handler)
    (same : ∀ h, handler = some h → g.handler = some h)
    (apart : ∀ h, handler = some h → h.key = key → h.stage ≠ .allowed) (callbacks : List Callback)
    (fewer : ∀ c ∈ callbacks, c ∈ g.callbacks) :
    Standing { g with
      allowed := g.allowed.erase key, handler := handler, callbacks := callbacks } where
  modern := standing.modern
  since := fun h running => standing.since h (same h running)
  usable := standing.usable
  allowed := fun lease stored =>
    Finset.mem_erase.mpr ⟨unleased lease stored, standing.allowed lease stored⟩
  revoking := by
    intro c fired stage
    obtain ⟨free, open_⟩ := standing.revoking c (fewer c fired) stage
    exact ⟨free, fun h running => open_ h (same h running)⟩
  opened := by
    intro h running stage
    refine Finset.mem_erase.mpr ⟨?_, standing.opened h (same h running) stage⟩
    intro own
    exact apart h running own stage
  refused := fun h running => standing.refused h (same h running)
  unremoved := standing.unremoved

theorem expireFirewall_standing {c : Callback} {reading : Int} (standing : Standing g)
    (spans : SpansApart cfg g (.expireFirewall c reading))
    (stepped : g.expireFirewall c reading = some after) : Standing after := by
  obtain ⟨_, _, _, outcome⟩ := expireFirewall_some stepped
  rcases outcome with ⟨next, expired, rfl⟩ | ⟨next, kept, rfl⟩
  · have members := KnockSessionStore.mem_expireFirewall g.store expired
    obtain ⟨lease, stored, own, named, ranOut⟩ :=
      KnockSessionStore.expireFirewall_true g.store expired
    refine ⟨standing.modern, standing.since, ?_, ?_, ?_, standing.opened, ?_, standing.unremoved⟩
    · exact fun lease stored => standing.usable lease ((members lease).mp stored).1
    · exact fun lease stored => standing.allowed lease ((members lease).mp stored).1
    · intro other fired stage
      rcases List.mem_append.mp fired with old | new
      · obtain ⟨unleased, apart⟩ := standing.revoking other (List.mem_of_mem_erase old) stage
        exact ⟨fun lease stored => unleased lease ((members lease).mp stored).1, apart⟩
      · cases List.mem_singleton.mp new
        refine ⟨fun lease stored => ((members lease).mp stored).2, ?_⟩
        -- A handler that had allowed the pair would have found the lease live.
        intro h running same stage
        have live := spans.2 (c, reading) rfl h running same stage lease stored
          (own.trans same.symm) named
        rw [ranOut] at live
        cases live
    · intro h running stage lease stored
      exact standing.refused h running stage lease ((members lease).mp stored).1
  · obtain ⟨rfl, _⟩ := KnockSessionStore.expireFirewall_false g.store kept
    refine standing.keep (le_refl _) (fun _ stored => stored) rfl
      (fun _ running => Or.inl running) ?_ standing.unremoved
    intro other fired _
    rw [List.append_nil] at fired
    exact List.mem_of_mem_erase fired

theorem step_standing (kept : cfg.removeAfterAuth = false) (before after : Gateway)
    (action : Action) (standing : Standing before) (spans : SpansApart cfg before action)
    (stepped : before.step cfg action = some after) : Standing after := by
  cases action with
  | tick now =>
    obtain ⟨later, rfl⟩ := tick_some stepped
    exact standing.keep later (fun _ stored => stored) rfl
      (fun _ running => Or.inl running) (fun _ fired _ => fired) standing.unremoved
  | knock ev => exact knock_standing cfg standing spans stepped
  | markFirewall reading => exact markFirewall_standing cfg standing stepped
  | revokeRefused =>
    obtain ⟨h, running, stage, rfl⟩ := revokeRefused_some stepped
    exact standing.revoke h.key (standing.refused h running stage) none nofun
      nofun before.callbacks (fun _ fired => fired)
  | addSession reading =>
    obtain ⟨h, id, store, running, stage, _, _, leases, rfl⟩ :=
      addSession_some cfg stepped
    refine standing.keep (le_refl _) ?_ rfl ?_ (fun _ fired _ => fired)
      standing.unremoved
    · intro lease stored
      rw [← leases]
      exact stored
    · intro h' running'
      cases running'
      exact Or.inr ⟨standing.modern, nofun, nofun⟩
  | armTimer =>
    obtain ⟨h, id, _, _, rfl⟩ := armTimer_some cfg stepped
    exact standing.keep (le_refl _) (fun _ stored => stored) rfl nofun
      (fun _ fired _ => fired) standing.unremoved
  | fire timer =>
    obtain ⟨_, rfl⟩ := fire_some timer before after stepped
    refine standing.keep (le_refl _) (fun _ stored => stored) rfl
      (fun _ running => Or.inl running) ?_ standing.unremoved
    intro c fired stage
    rcases List.mem_append.mp fired with old | new
    · exact old
    · rw [List.mem_singleton.mp new] at stage
      cases stage
  | expireSessions c reading =>
    obtain ⟨_, _, _, rfl⟩ := expireSessions_some stepped
    refine standing.keep (le_refl _) (fun _ stored => stored) rfl
      (fun _ running => Or.inl running) ?_ standing.unremoved
    intro other fired stage
    rcases List.mem_append.mp fired with old | new
    · exact List.mem_of_mem_erase old
    · rw [List.mem_singleton.mp new] at stage
      cases stage
  | expireFirewall c reading =>
    exact expireFirewall_standing cfg standing spans stepped
  | revokeExpired c =>
    obtain ⟨fired, stage, rfl⟩ := revokeExpired_some stepped
    obtain ⟨unleased, apart⟩ := standing.revoking c fired stage
    exact standing.revoke c.key unleased before.handler (fun _ same => same) apart
      _ (fun _ other => List.mem_of_mem_erase other)
  | authenticate peer remote localAddr completes =>
    obtain ⟨started, rfl, none, _⟩ :=
      authenticate_some cfg stepped
    refine standing.keep (le_refl _) (fun lease stored => ?_) rfl
      (fun _ running => Or.inl running) (fun _ fired _ => fired) ?_
    · simpa using stored
    · rw [none kept, standing.unremoved]
      rfl
  | accept peer remote =>
    cases accept_some cfg stepped
    refine standing.keep (le_refl _) (fun lease stored => ?_) rfl
      (fun _ running => Or.inl running) (fun _ fired _ => fired) standing.unremoved
    simpa using stored
  | removeSession r =>
    have removing := (removeSession_some stepped).1
    simp [standing.unremoved] at removing
  | removeLease r =>
    have removing := (removeLease_some cfg stepped).1
    simp [standing.unremoved] at removing
  | revokeRemoved r =>
    have removing := (revokeRemoved_some cfg stepped).1
    simp [standing.unremoved] at removing

/-! ## Runs -/

theorem start_standing (limit clock : Int) (modern : 0 ≤ clock) :
    Standing (Gateway.start limit clock) :=
  ⟨modern, nofun, nofun, nofun, nofun, nofun, nofun, rfl⟩

variable (kept : cfg.removeAfterAuth = false) (limit clock : Int) (modern : 0 ≤ clock)
  (actions : List Action) (g : Gateway)
  (run : Run (Along (SpansApart cfg) (Steps (Gateway.step cfg))) (Gateway.start limit clock)
    actions g)

include kept modern run

theorem run_standing : Standing g := by
  induction run with
  | nil => exact start_standing limit clock modern
  | snoc _ step ih => exact step_standing cfg kept _ _ _ ih step.2 step.1

/-- A renewed lease is not closed early, in a run in which the handler's span
from allowing to marking and a callback's span from expiring to revoking stay
apart: in every state, and so between handler runs, the pair of every lease the
store holds, expired or not, is allowed. -/
theorem leased_pair_allowed (lease : Entry FirewallKey FirewallLease)
    (stored : lease ∈ g.store.firewall.order) : lease.key ∈ g.allowed :=
  (run_standing cfg kept limit clock modern actions g run).allowed lease stored

end Renewal

/-- A callback that expired the old lease revokes the pair after a whole
renewal: the new lease is live and the firewall closed. -/
theorem renewed_lease_revoked :
    ∃ g, Run (Steps (Gateway.step sampleKnockConfig)) (Gateway.start 16 0)
        (sampleHandling 1 (ascii "a") 1000000000 ++ sampleExpiring 1 (ascii "a") 1 61000000000 ++
          sampleHandling 1 (ascii "a") 61000000000 ++
          [sampleRevoking 1 (ascii "a") 1 61000000000]) g ∧
      g.handler = none ∧ g.store.activeLease (samplePair 1) g.now = true ∧ g.allowed = ∅ :=
  runSteps_reaches _ _ _ _ (by decide +kernel)

theorem leased_pair_allowed_sample :
    ∃ g, Run (Along (SpansApart sampleKnockConfig) (Steps (Gateway.step sampleKnockConfig)))
        (Gateway.start 16 0)
        (sampleHandling 1 (ascii "a") 1000000000 ++ sampleHandling 1 (ascii "a") 31000000000 ++
          sampleExpiring 1 (ascii "a") 1 61000000000) g ∧ samplePair 1 ∈ g.allowed := by
  obtain ⟨g, run, reached⟩ := runSteps_reaches_along (Gateway.step sampleKnockConfig)
    (Gateway.start 16 0)
    (sampleHandling 1 (ascii "a") 1000000000 ++ sampleHandling 1 (ascii "a") 31000000000 ++
      sampleExpiring 1 (ascii "a") 1 61000000000)
    (fun g => g.store.activeLease (samplePair 1) g.now = true) (SpansApart sampleKnockConfig)
    (by decide +kernel)
  obtain ⟨lease, stored, same, _⟩ :=
    (KnockSessionStore.activeLease_iff g.store (samplePair 1) g.now).mp reached
  refine ⟨g, run, ?_⟩
  rw [← same]
  exact leased_pair_allowed sampleKnockConfig rfl 16 0 (by decide) _ g run lease stored

end Libknock.Relay
