import Libknock.Firewall.Leases
import Libknock.Foundation.Runs

/-!
# Commands that fail for a while

After a start, each call for a lease may find some of its commands failing
without effect.  The managed chains then still hold the accept rules of a set of
addresses, as long as no call adds a rule that is there already.
-/

set_option autoImplicit false

namespace Libknock.Firewall

open Foundation

/-- A call for a lease, with the text of the error of each command that fails in
it whatever the table holds. -/
structure DisturbedCall where
  call : LeaseCall
  fails : Program → Invocation → Option Bytes

variable {fails : Program → Invocation → Option Bytes}
  {reports : Program → Invocation → Failure → Bytes} {program : Program} {invocation : Invocation}
  {host : Host}

namespace Iptables

section

variable (backend : Iptables) (reports : Program → Invocation → Failure → Bytes)

def disturbed (host : Host) (action : DisturbedCall) : Option FirewallError × Host :=
  backend.call ⟨reports, action.fails⟩ host action.call

def disturbedStep (host : Host) (action : DisturbedCall) : Option Host :=
  some (backend.disturbed reports host action).2

def Open (host : Host) (addr : Addr) : Prop :=
  ∃ rules ∈ (host.tables (programOf addr)).rules backend.chain,
    acceptRule backend.cfg.port addr ∈ rules

instance (host : Host) (addr : Addr) : Decidable (backend.Open host addr) :=
  inferInstanceAs (Decidable (∃ rules ∈ (host.tables (programOf addr)).rules backend.chain,
    acceptRule backend.cfg.port addr ∈ rules))

/-- While the rule of an address is there, an `Allow` for it does not add it once
more because the check fails, and a `Revoke` for it neither takes a failed
deletion for a missing rule nor finds both probes of `ip6tables` failing. -/
def Harmless (host : Host) (action : DisturbedCall) : Prop :=
  backend.Open host action.call.addr →
    match action.call with
    | .allow addr _ =>
      action.fails (programOf addr)
          (.filter (.check backend.chain (acceptRule backend.cfg.port addr))) = none ∨
        action.fails (programOf addr)
          (.filter (.insert backend.chain (acceptRule backend.cfg.port addr))) ≠ none
    | .revoke addr _ =>
      (∀ text ∈ action.fails (programOf addr)
          (.filter (.delete backend.chain (acceptRule backend.cfg.port addr))),
        isMissingFirewallObject text = false) ∧
      (backend.cfg.enableIPv6 = none → backend.cfg.customRunner = true →
        programOf addr = .ip6tables →
        action.fails .ip6tables .help = none ∨ action.fails .ip6tables .version = none)

instance (host : Host) : (action : DisturbedCall) → Decidable (backend.Harmless host action)
  | ⟨.allow _ _, _⟩ => inferInstanceAs (Decidable (_ → _))
  | ⟨.revoke _ _, _⟩ => inferInstanceAs (Decidable (_ → _))

end

theorem run_undisturbed (reports : Program → Invocation → Failure → Bytes)
    (obeyed : fails program invocation = none) (host : Host) :
    host.run ⟨reports, fails⟩ program invocation =
      host.run ⟨reports, fun _ _ => none⟩ program invocation := by
  simp only [Host.run, obeyed]

theorem run_disturbed (reports : Program → Invocation → Failure → Bytes) {text : Bytes}
    (failed : fails program invocation = some text) (host : Host) :
    host.run ⟨reports, fails⟩ program invocation = (some text, host) := by
  simp only [Host.run, failed]

theorem run_isNone_of_disturbed
    (ran : (host.run ⟨reports, fails⟩ program invocation).1.isNone = true) :
    (host.run ⟨reports, fun _ _ => none⟩ program invocation).1.isNone = true := by
  cases failed : fails program invocation with
  | none =>
    rw [← run_undisturbed reports failed]
    exact ran
  | some text =>
    rw [run_disturbed reports failed] at ran
    cases ran

theorem serves_of_disturbed {backend : Iptables}
    (served : backend.serves ⟨reports, fails⟩ host program = true) :
    backend.serves ⟨reports, fun _ _ => none⟩ host program = true := by
  cases program with
  | iptables => rfl
  | ip6tables =>
    simp only [serves, ipv6Enabled] at served ⊢
    split at served
    · exact served
    unfold firewallCommandExists at served ⊢
    split at served
    · rename_i custom
      rw [Bool.or_eq_true] at served
      rw [if_pos custom, Bool.or_eq_true]
      exact served.imp (run_isNone_of_disturbed) (run_isNone_of_disturbed)
    · rename_i found
      rw [if_neg found]
      exact served

theorem serves_disturbed {backend : Iptables}
    (served : backend.serves ⟨reports, fun _ _ => none⟩ host program = true)
    (available : host.programs program = true)
    (probed : backend.cfg.enableIPv6 = none → backend.cfg.customRunner = true →
      program = .ip6tables → fails .ip6tables .help = none ∨ fails .ip6tables .version = none) :
    backend.serves ⟨reports, fails⟩ host program = true := by
  cases program with
  | iptables => rfl
  | ip6tables =>
    simp only [serves, ipv6Enabled] at served ⊢
    split at served
    · exact served
    rename_i unset
    unfold firewallCommandExists at served ⊢
    split at served
    · rename_i custom
      rw [if_pos custom, Bool.or_eq_true]
      rcases probed unset custom rfl with help | version
      · left
        simp only [Host.run, help, available, if_true, Option.isNone_none]
      · right
        simp only [Host.run, version, available, if_true, Option.isNone_none]
    · rename_i found
      rw [if_neg found]
      exact served

section Disturbed

variable {backend : Iptables} {reports : Program → Invocation → Failure → Bytes}
  {origin host : Host}
  {base : Program → Bytes → Option (List Rule)} {allowed : List Addr}

section

variable (serving : Serving backend ⟨reports, fun _ _ => none⟩ origin base allowed host)

include serving

theorem Serving.open_iff {addr : Addr}
    (served : backend.serves ⟨reports, fun _ _ => none⟩ origin (programOf addr) = true) :
    backend.Open host addr ↔ addr ∈ allowed := by
  rw [← mem_managedChain backend allowed addr]
  simp only [Open, serving.chain served, Option.mem_some_iff, exists_eq_left']

/-- The commands of an `Allow` add the rule only where it is not there. -/
theorem Serving.ensured_disturbed (fails : Program → Invocation → Option Bytes) (addr : Addr)
    (served : backend.serves ⟨reports, fun _ _ => none⟩ origin (programOf addr) = true)
    (harmless : addr ∈ allowed →
      fails (programOf addr)
          (.filter (.check backend.chain (acceptRule backend.cfg.port addr))) = none ∨
        fails (programOf addr)
          (.filter (.insert backend.chain (acceptRule backend.cfg.port addr))) ≠ none) :
    ∃ after, Serving backend ⟨reports, fun _ _ => none⟩ origin base after
      (ensureInserted ⟨reports, fails⟩ (programOf addr) backend.chain
        (acceptRule backend.cfg.port addr) host).2 := by
  have checked := serving.checked (fun _ _ => rfl) served
  -- an `-I` that is not made to fail adds the rule, and one that is changes nothing
  have inserts : addr ∉ allowed ∨ fails (programOf addr)
        (.filter (.insert backend.chain (acceptRule backend.cfg.port addr))) ≠ none →
      ∃ after, Serving backend ⟨reports, fun _ _ => none⟩ origin base after
        (runIptables ⟨reports, fails⟩ (programOf addr)
          (.insert backend.chain (acceptRule backend.cfg.port addr)) host).2 := by
    intro choice
    cases failed : fails (programOf addr)
        (.filter (.insert backend.chain (acceptRule backend.cfg.port addr))) with
    | some text =>
      rw [runIptables, run_disturbed reports failed]
      exact ⟨allowed, serving⟩
    | none =>
      rcases choice with absent | failing
      · obtain ⟨next, ran, after⟩ := serving.inserted (fun _ _ => rfl) served absent
        rw [runIptables, run_undisturbed reports failed]
        rw [runIptables] at ran
        rw [ran]
        exact ⟨_, after⟩
      · exact absurd failed failing
  cases failed : fails (programOf addr)
      (.filter (.check backend.chain (acceptRule backend.cfg.port addr))) with
  | some text =>
    have result : runIptables ⟨reports, fails⟩ (programOf addr)
        (.check backend.chain (acceptRule backend.cfg.port addr)) host = (some text, host) :=
      run_disturbed reports failed host
    simp only [ensureInserted, result]
    apply inserts
    by_cases member : addr ∈ allowed
    · rcases harmless member with obeyed | failing
      · rw [failed] at obeyed
        cases obeyed
      · exact Or.inr failing
    · exact Or.inl member
  | none =>
    have result : runIptables ⟨reports, fails⟩ (programOf addr)
        (.check backend.chain (acceptRule backend.cfg.port addr)) host =
        runIptables ⟨reports, fun _ _ => none⟩ (programOf addr)
          (.check backend.chain (acceptRule backend.cfg.port addr)) host :=
      run_undisturbed reports failed host
    by_cases member : addr ∈ allowed
    · rw [if_pos member] at checked
      simp only [ensureInserted, result, checked]
      exact ⟨allowed, serving⟩
    · rw [if_neg member] at checked
      obtain ⟨text, checked⟩ := checked
      simp only [ensureInserted, result, checked]
      exact inserts (Or.inl member)

/-- The command of a `Revoke` that returns nil leaves no rule. -/
theorem Serving.deleted_disturbed (fails : Program → Invocation → Option Bytes) (addr : Addr)
    (served : backend.serves ⟨reports, fun _ _ => none⟩ origin (programOf addr) = true)
    (harmless : addr ∈ allowed → ∀ text ∈ fails (programOf addr)
      (.filter (.delete backend.chain (acceptRule backend.cfg.port addr))),
        isMissingFirewallObject text = false) :
    ∃ after, Serving backend ⟨reports, fun _ _ => none⟩ origin base after
        (runIptables ⟨reports, fails⟩ (programOf addr)
          (.delete backend.chain (acceptRule backend.cfg.port addr)) host).2 ∧
      (ignoreMissingFirewallObject (runIptables ⟨reports, fails⟩ (programOf addr)
          (.delete backend.chain (acceptRule backend.cfg.port addr)) host).1 = none →
        addr ∉ after) := by
  cases failed : fails (programOf addr)
      (.filter (.delete backend.chain (acceptRule backend.cfg.port addr))) with
  | some text =>
    rw [runIptables, run_disturbed reports failed]
    refine ⟨allowed, serving, ?_⟩
    intro ignored member
    have kept := harmless member text failed
    simp only [ignoreMissingFirewallObject, kept] at ignored
    cases ignored
  | none =>
    rw [runIptables, run_undisturbed reports failed]
    refine ⟨allowed.erase addr, serving.deleted (fun _ _ => rfl) served, ?_⟩
    exact fun _ => serving.distinct.not_mem_erase

/-- One call keeps the managed chains those of a set of addresses, and a `Revoke`
that returns nil leaves its address out of the set. -/
theorem Serving.disturbed (action : DisturbedCall) (harmless : backend.Harmless host action) :
    ∃ after, Serving backend ⟨reports, fun _ _ => none⟩ origin base after
        (backend.disturbed reports host action).2 ∧
      (action.call.opens = false → (backend.disturbed reports host action).1 = none →
        backend.serves ⟨reports, fun _ _ => none⟩ origin (programOf action.call.addr) = true →
        action.call.addr ∉ after) := by
  obtain ⟨call, fails⟩ := action
  have calm : Runner.Calm ⟨reports, fun _ _ => none⟩ := fun _ _ => rfl
  have same := serves_congr backend calm serving.programs
  cases bound : validateBoundFirewallPort name backend.cfg.port call.port with
  | some err =>
    rw [Iptables.disturbed, call_refused _ host bound]
    exact ⟨allowed, serving, fun _ answered => by cases answered⟩
  | none =>
    cases enabled : backend.serves ⟨reports, fails⟩ host (programOf call.addr) with
    | false =>
      rw [Iptables.disturbed, call_unserved bound enabled]
      refine ⟨allowed, serving, ?_⟩
      intro closing _ served member
      have opened := (serving.open_iff served).mpr member
      have probes := harmless opened
      cases call with
      | allow addr port => cases closing
      | revoke addr port =>
        have again := serves_disturbed (by rw [same]; exact served)
          (by rw [serving.programs]; exact serving.available _ served) probes.2
        rw [show backend.serves ⟨reports, fails⟩ host (programOf addr) = false from enabled]
          at again
        cases again
    | true =>
      have served : backend.serves ⟨reports, fun _ _ => none⟩ origin (programOf call.addr) =
          true := by
        rw [← same]
        exact serves_of_disturbed enabled
      have opened := serving.open_iff served
      cases call with
      | allow addr port =>
        have ported : port = backend.cfg.port := validateBound_eq bound
        subst ported
        obtain ⟨after, kept⟩ := serving.ensured_disturbed fails addr served
          fun member => harmless (opened.mpr member)
        refine ⟨after, ?_, fun closing => by cases closing⟩
        rw [Iptables.disturbed, Iptables.call, allow_served backend _ host addr bound enabled]
        exact kept
      | revoke addr port =>
        have ported : port = backend.cfg.port := validateBound_eq bound
        subst ported
        obtain ⟨after, kept, gone⟩ := serving.deleted_disturbed fails addr served
          fun member => (harmless (opened.mpr member)).1
        rw [Iptables.disturbed, Iptables.call,
          revoke_served backend _ host addr bound enabled]
        refine ⟨after, kept, ?_⟩
        intro _ answered _
        exact gone (Option.map_eq_none_iff.mp answered)

end

end Disturbed

theorem managedChain_closed (backend : Iptables) (program : Program) (allowed : List Addr)
    (addr : Addr) (absent : addr ∈ allowed → programOf addr ≠ program) :
    ∀ rule ∈ backend.managedChain program allowed,
      rule.source = some addr → rule.target ≠ .accept := by
  intro rule member source
  rcases List.mem_append.mp member with accepting | fresh
  · obtain ⟨other, inside, rfl⟩ := List.mem_map.mp accepting
    rw [List.mem_filter] at inside
    cases source
    exact absurd (of_decide_eq_true inside.2) (absent inside.1)
  · simp only [freshChain, List.mem_cons, List.not_mem_nil, or_false] at fresh
    rcases fresh with rfl | rfl
    · cases source
    · cases source

/-- In a run of harmless calls, a `Revoke` that returns nil leaves no accept rule
for its address in the managed chains. -/
theorem revoke_closes (backend : Iptables) (reports : Program → Invocation → Failure → Bytes)
    (host : Host) (started : (backend.init ⟨reports, fun _ _ => none⟩ host).1 = none)
    (actions : List DisturbedCall) (before : Host)
    (run : Run (Along backend.Harmless (Steps (backend.disturbedStep reports)))
      (backend.init ⟨reports, fun _ _ => none⟩ host).2 actions before)
    (addr : Addr) (port : Int) (fails : Program → Invocation → Option Bytes)
    (harmless : backend.Harmless before ⟨.revoke addr port, fails⟩)
    (revoked : (backend.revoke ⟨reports, fails⟩ addr port before).1 = none) (program : Program)
    (served : backend.serves ⟨reports, fun _ _ => none⟩ host program = true) (rules : List Rule)
    (found : ((backend.revoke ⟨reports, fails⟩ addr port before).2.tables program).rules
      backend.chain = some rules) :
    ∀ rule ∈ rules, rule.source = some addr → rule.target ≠ .accept := by
  have calm : Runner.Calm ⟨reports, fun _ _ => none⟩ := fun _ _ => rfl
  obtain ⟨_, _, start⟩ := init_serving backend calm host started
  obtain ⟨allowed, serving⟩ := Run.invariant
    (fun _ state => ∃ allowed, Serving backend ⟨reports, fun _ _ => none⟩ host _ allowed state)
    ⟨[], start⟩ (by
      rintro _ state action after _ ⟨allowed, serving⟩ ⟨stepped, met⟩
      obtain ⟨next, kept, _⟩ := serving.disturbed action met
      cases stepped
      exact ⟨next, kept⟩)
    actions before run
  obtain ⟨after, kept, gone⟩ := serving.disturbed ⟨.revoke addr port, fails⟩ harmless
  have chain := kept.chain served
  rw [show backend.disturbed reports before ⟨.revoke addr port, fails⟩ =
    backend.revoke ⟨reports, fails⟩ addr port before from rfl, found] at chain
  cases chain
  apply managedChain_closed backend program after addr
  intro member same
  subst same
  exact gone rfl revoked served member

def lockHeld : Bytes := ascii "Another app is currently holding the xtables lock."

def locked : Program → Invocation → Option Bytes := fun _ _ => some lockHeld

def checkLocked : Program → Invocation → Option Bytes
  | _, .filter (.check _ _) => some lockHeld
  | _, _ => none

/-- An `Allow`, a second one that never gets the lock, and a `Revoke`. -/
theorem revoke_closes_sample :
    ∃ before, Run (Along (newIptables sampleConfig).Harmless
        (Steps ((newIptables sampleConfig).disturbedStep sampleRunner.reports)))
        ((newIptables sampleConfig).init sampleRunner sampleHost).2
        [⟨.allow (sampleAddr 10) 443, fun _ _ => none⟩, ⟨.allow (sampleAddr 10) 443, locked⟩]
        before ∧
      ((newIptables sampleConfig).revoke sampleRunner (sampleAddr 10) 443 before).1 = none ∧
      ∀ rules, (((newIptables sampleConfig).revoke sampleRunner (sampleAddr 10) 443
          before).2.tables .iptables).rules (newIptables sampleConfig).chain = some rules →
        ∀ rule ∈ rules, rule.source = some (sampleAddr 10) → rule.target ≠ .accept := by
  obtain ⟨before, run, harmless, revoked⟩ := runSteps_reaches_along
    ((newIptables sampleConfig).disturbedStep sampleRunner.reports)
    ((newIptables sampleConfig).init sampleRunner sampleHost).2
    [⟨.allow (sampleAddr 10) 443, fun _ _ => none⟩, ⟨.allow (sampleAddr 10) 443, locked⟩]
    (fun before => (newIptables sampleConfig).Harmless before
        ⟨.revoke (sampleAddr 10) 443, fun _ _ => none⟩ ∧
      ((newIptables sampleConfig).revoke sampleRunner (sampleAddr 10) 443 before).1 = none)
    (newIptables sampleConfig).Harmless (by decide +kernel)
  exact ⟨before, run, revoked, fun rules found => revoke_closes (newIptables sampleConfig)
    sampleRunner.reports sampleHost sample_started _ before run (sampleAddr 10) 443
    (fun _ _ => none) harmless revoked .iptables rfl rules found⟩

/-- An `Allow`, a second one whose check does not get the lock, and a `Revoke`
that returns nil: one of the two rules is left. -/
theorem failed_check_leaves_rule :
    ∃ actions before, Run (Steps ((newIptables sampleConfig).disturbedStep sampleRunner.reports))
        ((newIptables sampleConfig).init sampleRunner sampleHost).2 actions before ∧
      ((newIptables sampleConfig).revoke sampleRunner (sampleAddr 10) 443 before).1.isNone = true ∧
      (newIptables sampleConfig).Open
        ((newIptables sampleConfig).revoke sampleRunner (sampleAddr 10) 443 before).2
        (sampleAddr 10) := by
  exact ⟨[⟨.allow (sampleAddr 10) 443, fun _ _ => none⟩, ⟨.allow (sampleAddr 10) 443, checkLocked⟩],
    runSteps_reaches _ _ _ _ (by decide +kernel)⟩

end Iptables

end Libknock.Firewall
