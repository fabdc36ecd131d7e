import Libknock.Firewall.Effects
import Libknock.Foundation.Transcripts

/-!
# The leases of the iptables backend

A set of addresses is what the managed chain is for: after a start, the chain is
an accept rule for each address of the set in front of the two rules of the
start, and calls for leases change the set as their names say.
-/

set_option autoImplicit false

namespace Libknock.Firewall

open Foundation

inductive LeaseCall where
  | allow (addr : Addr) (port : Int)
  | revoke (addr : Addr) (port : Int)
  deriving DecidableEq

namespace LeaseCall

def addr : LeaseCall → Addr
  | allow addr _ => addr
  | revoke addr _ => addr

def port : LeaseCall → Int
  | allow _ port => port
  | revoke _ port => port

def opens : LeaseCall → Bool
  | allow _ _ => true
  | revoke _ _ => false

def lastOpens (addr : Addr) (calls : List LeaseCall) : Bool :=
  calls.foldl (fun opened call => if call.addr = addr then call.opens else opened) false

end LeaseCall

def Runner.Calm (runner : Runner) : Prop :=
  ∀ program invocation, runner.fails program invocation = none

namespace Iptables

def call (backend : Iptables) (runner : Runner) (host : Host) :
    LeaseCall → Option FirewallError × Host
  | .allow addr port => backend.allow runner addr port host
  | .revoke addr port => backend.revoke runner addr port host

def serves (backend : Iptables) (runner : Runner) (host : Host) : Program → Bool
  | .iptables => true
  | .ip6tables => ipv6Enabled backend.cfg runner host

variable (backend : Iptables) (runner : Runner) (host : Host)

theorem not_serves_iff (program : Program) :
    (program = .ip6tables ∧ ipv6Enabled backend.cfg runner host = false) ↔
      backend.serves runner host program = false := by
  cases program <;> simp [serves]

theorem serves_congr {runner : Runner} (calm : runner.Calm) {host other : Host}
    (same : host.programs = other.programs) :
    backend.serves runner host = backend.serves runner other := by
  funext program
  cases program with
  | iptables => rfl
  | ip6tables =>
    simp only [serves, ipv6Enabled, firewallCommandExists, Host.run, calm _ _, same]
    split
    · rfl
    · split
      · split <;> rfl
      · rfl

theorem validateBound_eq {backend : Iptables} {port : Int}
    (bound : validateBoundFirewallPort name backend.cfg.port port = none) :
    port = backend.cfg.port := by
  unfold validateBoundFirewallPort at bound
  split at bound
  · cases bound
  split at bound
  · cases bound
  rename_i same
  exact not_not.mp same

theorem call_refused {backend : Iptables} (runner : Runner) (host : Host) {call : LeaseCall}
    {err : FirewallError}
    (refused : validateBoundFirewallPort name backend.cfg.port call.port = some err) :
    backend.call runner host call = (some err, host) := by
  cases call with
  | allow addr port =>
    simp only [LeaseCall.port] at refused
    simp only [call, allow, refused]
  | revoke addr port =>
    simp only [LeaseCall.port] at refused
    simp only [call, revoke, refused]

theorem call_unserved {backend : Iptables} {runner : Runner} {host : Host} {call : LeaseCall}
    (bound : validateBoundFirewallPort name backend.cfg.port call.port = none)
    (unserved : backend.serves runner host (programOf call.addr) = false) :
    (backend.call runner host call).2 = host := by
  have disabled := (not_serves_iff backend runner host (programOf call.addr)).mpr unserved
  cases call with
  | allow addr port =>
    simp only [LeaseCall.port, LeaseCall.addr] at bound disabled
    simp only [call, allow, bound]
    rw [if_pos disabled]
  | revoke addr port =>
    simp only [LeaseCall.port, LeaseCall.addr] at bound disabled
    simp only [call, revoke, bound]
    rw [if_pos disabled]

theorem allow_served (addr : Addr)
    (bound : validateBoundFirewallPort name backend.cfg.port backend.cfg.port = none)
    (served : backend.serves runner host (programOf addr) = true) :
    backend.allow runner addr backend.cfg.port host =
      let inserted := ensureInserted runner (programOf addr) backend.chain
        (acceptRule backend.cfg.port addr) host
      (inserted.1.map .command, inserted.2) := by
  have enabled := mt (not_serves_iff backend runner host (programOf addr)).mp (by simp [served])
  simp only [allow, bound]
  rw [if_neg enabled]

theorem revoke_served (addr : Addr)
    (bound : validateBoundFirewallPort name backend.cfg.port backend.cfg.port = none)
    (served : backend.serves runner host (programOf addr) = true) :
    backend.revoke runner addr backend.cfg.port host =
      let deleted := runIptables runner (programOf addr)
        (.delete backend.chain (acceptRule backend.cfg.port addr)) host
      ((ignoreMissingFirewallObject deleted.1).map .command, deleted.2) := by
  have enabled := mt (not_serves_iff backend runner host (programOf addr)).mp (by simp [served])
  simp only [revoke, bound]
  rw [if_neg enabled]

def managedChain (backend : Iptables) (program : Program) (allowed : List Addr) : List Rule :=
  (allowed.filter fun addr => decide (programOf addr = program)).map
    (acceptRule backend.cfg.port) ++ backend.freshChain

/-- The rules of a table at the end of a start that found it so. -/
def startedRules (backend : Iptables) (table : Table) : Bytes → Option (List Rule) :=
  Function.update table.rules inputChain
    (some (backend.installedInput ((table.rules inputChain).getD [])))

/-- The backend serves leases for a set of addresses; nothing but the managed
chains has changed since the rules of the tables were `base`. -/
structure Serving (backend : Iptables) (runner : Runner) (origin : Host)
    (base : Program → Bytes → Option (List Rule)) (allowed : List Addr) (host : Host) : Prop where
  programs : host.programs = origin.programs
  available : ∀ program, backend.serves runner origin program = true →
    origin.programs program = true
  managed : ∀ program, backend.serves runner origin program = true →
    (host.tables program).rules = Function.update (base program) backend.chain
      (some (backend.managedChain program allowed))
  idle : ∀ program, backend.serves runner origin program = false →
    (host.tables program).rules = base program
  distinct : allowed.Nodup

/-! ## One call -/

def leased (backend : Iptables) (served : Program → Bool) (call : LeaseCall)
    (allowed : List Addr) : List Addr :=
  if validateBoundFirewallPort name backend.cfg.port call.port = none ∧
      served (programOf call.addr) = true then
    if call.opens then (if call.addr ∈ allowed then allowed else call.addr :: allowed)
    else allowed.erase call.addr
  else allowed

theorem mem_leased {backend : Iptables} {served : Program → Bool} {call : LeaseCall}
    {allowed : List Addr} (distinct : allowed.Nodup) {addr : Addr}
    (bound : validateBoundFirewallPort name backend.cfg.port call.port = none)
    (served_addr : served (programOf addr) = true) :
    addr ∈ backend.leased served call allowed ↔
      if call.addr = addr then call.opens = true else addr ∈ allowed := by
  by_cases same : call.addr = addr
  · subst same
    rw [leased, if_pos ⟨bound, served_addr⟩, if_pos rfl]
    cases opening : call.opens with
    | true =>
      by_cases member : call.addr ∈ allowed
      · simp [member]
      · simp [member]
    | false => simp [distinct.mem_erase_iff]
  · rw [if_neg same, leased]
    have different : addr ≠ call.addr := fun equal => same equal.symm
    split
    · split
      · split
        · exact Iff.rfl
        · simp [different]
      · rw [distinct.mem_erase_iff]
        simp [different]
    · exact Iff.rfl

end Iptables

theorem acceptRule_injective (port : Int) : Function.Injective (acceptRule port) := by
  intro left right same
  simpa [acceptRule] using same

theorem acceptRule_notMem_fresh (backend : Iptables) (port : Int) (addr : Addr) :
    acceptRule port addr ∉ backend.freshChain := by
  simp [Iptables.freshChain, acceptRule, establishedRule, dropRule]

variable {runner : Runner} {program : Program} {host : Host}

namespace Iptables

variable (cfg : Config) (backend : Iptables)

theorem mem_managedChain (allowed : List Addr) (addr : Addr) :
    acceptRule backend.cfg.port addr ∈ backend.managedChain (programOf addr) allowed ↔
      addr ∈ allowed := by
  simp only [managedChain, List.mem_append, acceptRule_notMem_fresh, or_false]
  rw [List.mem_map_of_injective (acceptRule_injective backend.cfg.port)]
  simp

theorem managedChain_cons (program : Program) (allowed : List Addr) (addr : Addr) :
    backend.managedChain program (addr :: allowed) =
      if programOf addr = program then
        acceptRule backend.cfg.port addr :: backend.managedChain program allowed
      else backend.managedChain program allowed := by
  unfold managedChain
  split
  · rename_i same
    rw [List.filter_cons_of_pos (by simpa using same)]
    rfl
  · rename_i different
    rw [List.filter_cons_of_neg (by simpa using different)]

theorem managedChain_erase (program : Program) (addr : Addr) (allowed : List Addr) :
    backend.managedChain program (allowed.erase addr) =
      if programOf addr = program then
        (backend.managedChain program allowed).erase (acceptRule backend.cfg.port addr)
      else backend.managedChain program allowed := by
  induction allowed with
  | nil =>
    split
    · exact (List.erase_of_not_mem (acceptRule_notMem_fresh backend _ addr)).symm
    · rfl
  | cons head tail ih =>
    by_cases same : head = addr
    · subst same
      rw [List.erase_cons_head, managedChain_cons]
      split
      · rw [List.erase_cons_head]
      · rfl
    · have different : ¬ (acceptRule backend.cfg.port head == acceptRule backend.cfg.port addr) =
          true := by
        intro equal
        exact same (acceptRule_injective _ (beq_iff_eq.mp equal))
      rw [List.erase_cons_tail (by simpa using same), managedChain_cons, managedChain_cons, ih]
      split
      · split
        · rw [List.erase_cons_tail different]
        · rfl
      · rfl

section Call

variable {backend : Iptables} {runner : Runner} {origin host : Host}
  {base : Program → Bytes → Option (List Rule)} {allowed : List Addr}

section

variable (serving : Serving backend runner origin base allowed host)

include serving

theorem Serving.steady (calm : runner.Calm) (served : backend.serves runner origin program = true) :
    Steady runner program host :=
  ⟨calm program, by rw [serving.programs]; exact serving.available program served⟩

theorem Serving.chain (served : backend.serves runner origin program = true) :
    (host.tables program).rules backend.chain = some (backend.managedChain program allowed) := by
  rw [serving.managed program served, Function.update_self]

/-- A change of one managed chain to that of another set, which for the other
program is no change. -/
theorem Serving.set (served : backend.serves runner origin program = true) (table : Table)
    (after : List Addr) (distinct : after.Nodup)
    (rules : table.rules = Function.update (host.tables program).rules backend.chain
      (some (backend.managedChain program after))) (others : ∀ other, other ≠ program →
      backend.managedChain other after = backend.managedChain other allowed) :
    Serving backend runner origin base after (host.set program table) := by
  refine ⟨serving.programs, serving.available, ?_, ?_, distinct⟩
  · intro other servedOther
    by_cases same : other = program
    · subst same
      rw [Host.set_tables_self, rules, serving.managed other servedOther, Function.update_idem]
    · rw [Host.set_tables_of_ne same, serving.managed other servedOther, others other same]
  · intro other unserved
    have same : other ≠ program := by
      rintro rfl
      rw [served] at unserved
      cases unserved
    rw [Host.set_tables_of_ne same, serving.idle other unserved]

variable (calm : runner.Calm)

include calm

section

variable {addr : Addr} (served : backend.serves runner origin (programOf addr) = true)

include served

theorem Serving.checked :
    if addr ∈ allowed then
      runIptables runner (programOf addr) (.check backend.chain (acceptRule backend.cfg.port addr))
        host = (none, host)
    else ∃ text,
      runIptables runner (programOf addr) (.check backend.chain (acceptRule backend.cfg.port addr))
        host = (some text, host) := by
  have steady := serving.steady calm served
  split
  · rename_i member
    have ran := steady.run_ok (FilterTable.apply_check (known_of_jump_none rfl)
      (serving.chain served) ((mem_managedChain backend allowed addr).mpr member))
    rw [Host.set_self] at ran
    exact ran
  · rename_i absent
    have inside := fun member => absent ((mem_managedChain backend allowed addr).mp member)
    exact ⟨_, steady.run_error (FilterTable.apply_check_missing (known_of_jump_none rfl)
      (serving.chain served) inside)⟩

theorem Serving.inserted (absent : addr ∉ allowed) :
    ∃ next, runIptables runner (programOf addr)
        (.insert backend.chain (acceptRule backend.cfg.port addr)) host = (none, next) ∧
      Serving backend runner origin base (addr :: allowed) next := by
  obtain ⟨table, ran, rules⟩ := (serving.steady calm served).run_effect
    (FilterTable.apply_insert
      (known_of_jump_none (rfl : (acceptRule backend.cfg.port addr).jump = none))
      (serving.chain served))
  refine ⟨_, ran, serving.set served table _ (List.nodup_cons.mpr ⟨absent, serving.distinct⟩) ?_ ?_⟩
  · rw [rules, managedChain_cons, if_pos rfl]
  · intro other different
    rw [managedChain_cons, if_neg different.symm]

theorem Serving.deleted :
    Serving backend runner origin base (allowed.erase addr)
      (runIptables runner (programOf addr) (.delete backend.chain
        (acceptRule backend.cfg.port addr)) host).2 := by
  by_cases member : addr ∈ allowed
  · obtain ⟨table, ran, rules⟩ := (serving.steady calm served).run_effect
      (FilterTable.apply_delete (known_of_jump_none rfl) (serving.chain served)
        ((mem_managedChain backend allowed addr).mpr member))
    rw [runIptables, ran]
    apply serving.set served table _ (serving.distinct.erase addr)
    · rw [rules, managedChain_erase, if_pos rfl]
    · intro other different
      rw [managedChain_erase, if_neg different.symm]
  · have refused := (serving.steady calm served).run_error
      (FilterTable.apply_delete_missing (known_of_jump_none rfl) (serving.chain served)
        (fun inside => member ((mem_managedChain backend allowed addr).mp inside)))
    rw [runIptables, refused, List.erase_of_not_mem member]
    exact serving

theorem Serving.ensured :
    Serving backend runner origin base (if addr ∈ allowed then allowed else addr :: allowed)
      (ensureInserted runner (programOf addr) backend.chain (acceptRule backend.cfg.port addr)
        host).2 := by
  have checked := serving.checked calm served
  by_cases member : addr ∈ allowed
  · rw [if_pos member] at checked ⊢
    simp only [ensureInserted, checked]
    exact serving
  · rw [if_neg member] at checked ⊢
    obtain ⟨text, checked⟩ := checked
    obtain ⟨next, ran, after⟩ := serving.inserted calm served member
    simp only [ensureInserted, checked, ran]
    exact after

end

theorem Serving.call (call : LeaseCall) :
    Serving backend runner origin base
      (backend.leased (backend.serves runner origin) call allowed)
      (backend.call runner host call).2 := by
  have same := serves_congr backend calm serving.programs
  cases bound : validateBoundFirewallPort name backend.cfg.port call.port with
  | some err =>
    rw [call_refused runner host bound, leased, if_neg (by simp [bound])]
    exact serving
  | none =>
    cases served : backend.serves runner origin (programOf call.addr) with
    | false =>
      rw [call_unserved bound (by rw [same, served]), leased, if_neg (by simp [served])]
      exact serving
    | true =>
      rw [leased, if_pos ⟨bound, served⟩]
      cases call with
      | allow addr port =>
        have ported : port = backend.cfg.port := validateBound_eq bound
        subst ported
        rw [Iptables.call,
          allow_served backend runner host addr bound (by rw [same]; exact served)]
        exact serving.ensured calm served
      | revoke addr port =>
        have ported : port = backend.cfg.port := validateBound_eq bound
        subst ported
        rw [Iptables.call,
          revoke_served backend runner host addr bound (by rw [same]; exact served)]
        exact serving.deleted calm served

end

end Call

/-! ## The start -/

variable {backend} in
theorem cleanupDetached_ne_none {runner : Runner} {err : FirewallError} {host : Host} :
    (backend.cleanupDetached runner err host).1 ≠ none := by
  simp [cleanupDetached, joinErrors]

theorem init_ok (runner : Runner) (host : Host) (started : (backend.init runner host).1 = none) :
    validateIptablesConfig backend.chain = none ∧
      (backend.cleanupCommand runner .iptables host).1 = none ∧
      ∃ first, first = backend.initCommand runner .iptables
          (backend.cleanupCommand runner .iptables host).2 ∧ first.1 = none ∧
        (ipv6Enabled backend.cfg runner first.2 = false ∧ (backend.init runner host).2 = first.2 ∨
          ipv6Enabled backend.cfg runner first.2 = true ∧
            ∃ second, second = backend.initCommand runner .ip6tables
                (backend.cleanupCommand runner .ip6tables first.2).2 ∧ second.1 = none ∧
              (backend.init runner host).2 = second.2) := by
  cases valid : validateIptablesConfig backend.chain with
  | some err =>
    simp only [init, valid] at started
    cases started
  | none =>
    simp only [init, valid] at started ⊢
    cases cleaned : (backend.cleanupCommand runner .iptables host).1 with
    | some err =>
      simp only [cleaned] at started
      cases started
    | none =>
      refine ⟨trivial, rfl, _, rfl, ?_⟩
      simp only [cleaned] at started ⊢
      generalize backend.initCommand runner .iptables
        (backend.cleanupCommand runner .iptables host).2 = first at started ⊢
      cases firstOk : first.1 with
      | some err =>
        simp only [firstOk] at started
        exact absurd started cleanupDetached_ne_none
      | none =>
        simp only [firstOk] at started ⊢
        refine ⟨trivial, ?_⟩
        cases enabled : ipv6Enabled backend.cfg runner first.2 with
        | false => exact Or.inl ⟨rfl, rfl⟩
        | true =>
          simp only [enabled, if_true] at started ⊢
          refine Or.inr ⟨trivial, _, rfl, ?_⟩
          cases cleaned6 : (backend.cleanupCommand runner .ip6tables first.2).1 with
          | some err =>
            simp only [cleaned6] at started
            exact absurd started cleanupDetached_ne_none
          | none =>
            simp only [cleaned6] at started ⊢
            generalize backend.initCommand runner .ip6tables
              (backend.cleanupCommand runner .ip6tables first.2).2 = second at started ⊢
            cases secondOk : second.1 with
            | some err =>
              simp only [secondOk] at started
              exact absurd started cleanupDetached_ne_none
            | none =>
              simp only [and_self]

theorem builtin_of_valid {chain : Bytes} (valid : validateIptablesConfig chain = none) :
    filterShape.builtin chain = false := by
  cases builtin : filterShape.builtin chain with
  | false => rfl
  | true =>
    have named := of_decide_eq_true builtin
    simp only [List.mem_cons, List.not_mem_nil, or_false] at named
    exfalso
    revert valid
    rcases named with rfl | rfl | rfl <;> decide

theorem separate_of_valid {chain : Bytes} (valid : validateIptablesConfig chain = none) :
    chain ≠ inputChain := by
  rintro rfl
  revert valid
  decide

theorem setUp_effect {backend : Iptables} (calm : runner.Calm)
    (separate : backend.chain ≠ inputChain) {cmd : Program}
    (started : (backend.initCommand runner cmd
      (backend.cleanupCommand runner cmd host).2).1 = none) :
    host.programs cmd = true ∧ ∃ cleaned table : Table,
      (backend.cleanupCommand runner cmd host).2.tables cmd = cleaned ∧
      (backend.initCommand runner cmd (backend.cleanupCommand runner cmd host).2).2 =
        host.set cmd table ∧
      table.rules = Function.update (backend.startedRules cleaned) backend.chain
        (some (backend.managedChain cmd [])) := by
  have available := initCommand_available backend started
  obtain ⟨cleaned, changed⟩ := cleanupCommand_set backend runner cmd host
  rw [changed, Host.set_programs] at available
  obtain ⟨held, input⟩ := input_present cleaned
  have steady : Steady runner cmd (host.set cmd cleaned) := ⟨calm cmd, available⟩
  obtain ⟨table, ran, rules⟩ := initCommand_effect backend steady separate held
    (by rwa [Host.set_tables_self])
  refine ⟨available, cleaned, table, ?_, ?_, ?_⟩
  · rw [changed, Host.set_tables_self]
  · rw [changed, ran, Host.set_set]
  · rw [rules, Host.set_tables_self, startedRules, input]
    rfl

theorem Serving.start {backend : Iptables} {origin : Host}
    {base : Program → Bytes → Option (List Rule)} (programs : host.programs = origin.programs)
    (tables : ∀ program, if backend.serves runner origin program then
        origin.programs program = true ∧ (host.tables program).rules =
          Function.update (base program) backend.chain (some (backend.managedChain program []))
      else (host.tables program).rules = base program) :
    Serving backend runner origin base [] host := by
  refine ⟨programs, ?_, ?_, ?_, List.nodup_nil⟩
  · intro program served
    have table := tables program
    rw [if_pos served] at table
    exact table.1
  · intro program served
    have table := tables program
    rw [if_pos served] at table
    exact table.2
  · intro program unserved
    have table := tables program
    rw [if_neg (by simp [unserved])] at table
    exact table

theorem init_serving (calm : runner.Calm) (host : Host)
    (started : (backend.init runner host).1 = none) :
    ∃ cleaned : Program → Table,
      (∀ program, backend.serves runner host program = true →
        ∃ before : Host, before.tables program = host.tables program ∧
          before.programs = host.programs ∧
          (backend.cleanupCommand runner program before).2.tables program = cleaned program) ∧
      Serving backend runner host (fun program => if backend.serves runner host program then
          backend.startedRules (cleaned program) else (host.tables program).rules) []
        (backend.init runner host).2 := by
  obtain ⟨valid, _, first, isFirst, firstOk, rest⟩ := init_ok backend runner host started
  have separate := separate_of_valid valid
  rw [isFirst] at firstOk
  obtain ⟨available, cleaned, table, isCleaned, ran, rules⟩ :=
    setUp_effect calm separate firstOk
  rw [isFirst, ran] at rest
  have same : ipv6Enabled backend.cfg runner (host.set .iptables table) =
      backend.serves runner host .ip6tables :=
    congrFun (serves_congr backend calm (Host.set_programs host .iptables table)) .ip6tables
  rw [same] at rest
  rcases rest with ⟨disabled, final⟩ | ⟨enabled, second, isSecond, secondOk, final⟩
  · refine ⟨fun _ => cleaned, ?_, ?_⟩
    · intro program served
      cases program with
      | iptables => exact ⟨host, rfl, rfl, isCleaned⟩
      | ip6tables =>
        rw [disabled] at served
        cases served
    · rw [final]
      refine Serving.start rfl fun program => ?_
      cases program with
      | iptables =>
        rw [if_pos (by rfl), Host.set_tables_self, rules]
        exact ⟨available, rfl⟩
      | ip6tables =>
        rw [if_neg (by simp [disabled]), Host.set_tables_of_ne (by decide)]
        simp [disabled]
  · rw [isSecond] at secondOk
    obtain ⟨available6, cleaned6, table6, isCleaned6, ran6, rules6⟩ :=
      setUp_effect calm separate secondOk
    rw [isSecond, ran6] at final
    refine ⟨fun program => if program = .iptables then cleaned else cleaned6, ?_, ?_⟩
    · intro program served
      cases program with
      | iptables => exact ⟨host, rfl, rfl, isCleaned⟩
      | ip6tables =>
        exact ⟨host.set .iptables table, Host.set_tables_of_ne (by decide), rfl,
          isCleaned6⟩
    · rw [final]
      refine Serving.start rfl fun program => ?_
      cases program with
      | iptables =>
        rw [if_pos (by rfl), Host.set_tables_of_ne (by decide), Host.set_tables_self, rules]
        exact ⟨available, rfl⟩
      | ip6tables =>
        rw [if_pos enabled, Host.set_tables_self, rules6]
        exact ⟨available6, by simp [enabled]⟩

/-! ## The verdict -/

/-- What the managed chain of its program does to a packet. -/
def verdict (backend : Iptables) (others : List Bytes → Packet → Bool) (packet : Packet)
    (host : Host) : Option Target :=
  ((host.tables (programOf packet.source)).rules backend.chain).bind (firstMatch others packet)

theorem acceptRule_matches (others : List Bytes → Packet → Bool) {packet : Packet}
    (tcp : packet.protocol = .tcp) (addr : Addr) :
    (acceptRule packet.dport addr).matches others packet = decide (addr = packet.source) := by
  simp [Rule.matches, acceptRule, tcp]

theorem firstMatch_managedChain {backend : Iptables} (others : List Bytes → Packet → Bool)
    {packet : Packet} (tcp : packet.protocol = .tcp) (port : packet.dport = backend.cfg.port)
    (unknown : packet.state ∉ [ConnState.established, .related]) (allowed : List Addr) :
    firstMatch others packet (backend.managedChain (programOf packet.source) allowed) =
      some (if packet.source ∈ allowed then .accept else .drop) := by
  induction allowed with
  | nil =>
    have passes : establishedRule.matches others packet = false := by
      simpa [Rule.matches, establishedRule] using unknown
    have matched : (dropRule backend.cfg.port).matches others packet = true := by
      simp [Rule.matches, dropRule, tcp, port]
    show firstMatch others packet [establishedRule, dropRule backend.cfg.port] = _
    rw [firstMatch_cons, passes, firstMatch_cons, matched]
    rfl
  | cons head tail ih =>
    rw [managedChain_cons]
    split
    · by_cases same : head = packet.source
      · have matched : (acceptRule backend.cfg.port head).matches others packet = true := by
          rw [← port, acceptRule_matches others tcp]
          exact decide_eq_true same
        rw [firstMatch_cons, matched, if_pos rfl, if_pos (by simp [same])]
        rfl
      · have passes : (acceptRule backend.cfg.port head).matches others packet = false := by
          rw [← port, acceptRule_matches others tcp, decide_eq_false same]
        have member : packet.source ∈ head :: tail ↔ packet.source ∈ tail := by
          simp [Ne.symm same]
        rw [firstMatch_cons, passes]
        simp only [member]
        exact ih
    · rename_i different
      have member : packet.source ∈ head :: tail ↔ packet.source ∈ tail := by
        have same : packet.source ≠ head := fun equal => different (by rw [equal])
        simp [same]
      simp only [member]
      exact ih

theorem Serving.afterAll {backend : Iptables} {origin : Host}
    {base : Program → Bytes → Option (List Rule)} (calm : runner.Calm) (calls : List LeaseCall) :
    ∀ (allowed : List Addr) (host : Host), Serving backend runner origin base allowed host →
      ∃ after, Serving backend runner origin base after
          (afterAll (backend.call runner) host calls) ∧
        ((∀ call ∈ calls, validateBoundFirewallPort name backend.cfg.port call.port = none) →
          ∀ addr, backend.serves runner origin (programOf addr) = true →
            (addr ∈ after ↔ calls.foldl (fun opened call =>
              if call.addr = addr then call.opens else opened) (decide (addr ∈ allowed)) = true)) := by
  induction calls with
  | nil =>
    intro allowed host serving
    exact ⟨allowed, serving, fun _ addr _ => by simp⟩
  | cons call rest ih =>
    intro allowed host serving
    obtain ⟨after, served, members⟩ := ih _ _ (serving.call calm call)
    refine ⟨after, served, ?_⟩
    intro bound addr enabled
    have now := mem_leased serving.distinct (bound call (by simp)) enabled
    rw [members (fun other member => bound other (by simp [member])) addr enabled,
      List.foldl_cons]
    by_cases same : call.addr = addr
    · rw [if_pos same] at now ⊢
      simp only [now, Bool.decide_eq_true]
    · rw [if_neg same] at now ⊢
      simp only [now]

theorem withConfig_ok {cfg : Config} {backend : Iptables} (made : withConfig cfg = .ok backend) :
    backend.cfg = cfg ∧ validateBoundFirewallPort name backend.cfg.port backend.cfg.port = none := by
  unfold withConfig at made
  split at made
  · cases made
  rename_i port
  split at made
  · cases made
  cases made
  refine ⟨rfl, ?_⟩
  simp only [newIptables, validateBoundFirewallPort, port]
  simp

/-- After a start and any calls on the protected port the backend serves the
addresses whose last call was an `Allow`. -/
theorem serving_after {cfg : Config} {backend : Iptables} (made : withConfig cfg = .ok backend)
    (calm : runner.Calm) (started : (backend.init runner host).1 = none) {calls : List LeaseCall}
    (bound : ∀ call ∈ calls, call.port = cfg.port) :
    ∃ base allowed, Serving backend runner host base allowed
        (afterAll (backend.call runner) (backend.init runner host).2 calls) ∧
      ∀ addr, backend.serves runner host (programOf addr) = true →
        (addr ∈ allowed ↔ LeaseCall.lastOpens addr calls = true) := by
  obtain ⟨sameCfg, valid⟩ := withConfig_ok made
  obtain ⟨_, _, serving⟩ := init_serving backend calm host started
  obtain ⟨allowed, served, members⟩ := Serving.afterAll calm calls [] _ serving
  refine ⟨_, allowed, served, ?_⟩
  exact members fun call member => by
    rw [bound call member, ← sameCfg]
    exact valid

/-- `IsAllowed` reports whether the last call for the address was an `Allow`, and
changes nothing. -/
theorem isAllowed_after (made : withConfig cfg = .ok backend) (calm : runner.Calm)
    (started : (backend.init runner host).1 = none) (calls : List LeaseCall)
    (bound : ∀ call ∈ calls, call.port = cfg.port) (addr : Addr)
    (enabled : backend.serves runner host (programOf addr) = true) :
    let last := afterAll (backend.call runner) (backend.init runner host).2 calls
    (backend.isAllowed runner addr cfg.port last).1 = LeaseCall.lastOpens addr calls ∧
      (backend.isAllowed runner addr cfg.port last).2.2 = last := by
  obtain ⟨sameCfg, valid⟩ := withConfig_ok made
  obtain ⟨_, allowed, served, members⟩ := serving_after made calm started bound
  have serves := serves_congr backend calm served.programs
  have on := mt (not_serves_iff backend runner _ (programOf addr)).mp
    (by rw [serves, enabled]; simp)
  have checked := served.checked calm enabled
  have member := members addr enabled
  rw [← sameCfg]
  simp only [isAllowed, valid, if_neg on]
  cases opened : LeaseCall.lastOpens addr calls with
  | true =>
    rw [if_pos (member.mpr opened)] at checked
    simp only [checked, and_self]
  | false =>
    have absent : addr ∉ allowed := by simp [member, opened]
    rw [if_neg absent] at checked
    obtain ⟨text, checked⟩ := checked
    simp only [checked, and_self]

/-- The managed chain accepts exactly the addresses whose last call was an
`Allow`, drops the others, and a call for one address leaves the verdict on
another as it was. -/
theorem verdict_exact (cfg : Config) (backend : Iptables) (made : withConfig cfg = .ok backend)
    (runner : Runner) (calm : runner.Calm) (host : Host)
    (started : (backend.init runner host).1 = none) (calls : List LeaseCall)
    (bound : ∀ call ∈ calls, call.port = cfg.port) (others : List Bytes → Packet → Bool)
    (packet : Packet) (tcp : packet.protocol = .tcp) (port : packet.dport = cfg.port)
    (unknown : packet.state ∉ [ConnState.established, .related])
    (enabled : backend.serves runner host (programOf packet.source) = true) :
    backend.verdict others packet
        (afterAll (backend.call runner) (backend.init runner host).2 calls) =
      some (if LeaseCall.lastOpens packet.source calls then .accept else .drop) ∧
    ∀ call : LeaseCall, call.port = cfg.port → call.addr ≠ packet.source →
      backend.verdict others packet
          (afterAll (backend.call runner) (backend.init runner host).2 (calls ++ [call])) =
        backend.verdict others packet
          (afterAll (backend.call runner) (backend.init runner host).2 calls) := by
  obtain ⟨sameCfg, _⟩ := withConfig_ok made
  have after : ∀ calls : List LeaseCall, (∀ call ∈ calls, call.port = cfg.port) →
      backend.verdict others packet
          (afterAll (backend.call runner) (backend.init runner host).2 calls) =
        some (if LeaseCall.lastOpens packet.source calls then .accept else .drop) := by
    intro calls bound
    obtain ⟨_, allowed, served, members⟩ := serving_after made calm started bound
    rw [verdict, served.chain enabled, Option.bind_some,
      firstMatch_managedChain others tcp (by rw [port, sameCfg]) unknown]
    simp only [members packet.source enabled]
  refine ⟨after calls bound, ?_⟩
  intro call callPort different
  have extended : ∀ other ∈ calls ++ [call], other.port = cfg.port := by
    intro other member
    rcases List.mem_append.mp member with old | new
    · exact bound other old
    · rw [List.mem_singleton.mp new, callPort]
  have same : LeaseCall.lastOpens packet.source (calls ++ [call]) =
      LeaseCall.lastOpens packet.source calls := by
    simp [LeaseCall.lastOpens, List.foldl_append, different]
  rw [after _ extended, after calls bound, same]

def sampleConfig : Config := ⟨443, false, true, 0, some true, []⟩

def sampleHost : Host := ⟨fun _ => plainTable [dropRule 22] (by decide), fun _ => true⟩

def sampleRunner : Runner :=
  ⟨fun _ _ _ => ascii "Bad rule (does a matching rule exist in that chain?).", fun _ _ => none⟩

def sampleAddr (last : UInt8) : Addr := .v4 (FixedBytes.copy 4 [192, 0, 2, last])

theorem sample_started : ((newIptables sampleConfig).init sampleRunner sampleHost).1 = none := by
  have started : ((newIptables sampleConfig).init sampleRunner sampleHost).1.isNone = true := by
    decide +kernel
  exact Option.isNone_iff_eq_none.mp started

/-- Two addresses are allowed and one of them is revoked again. -/
def sampleCalls : List LeaseCall :=
  [.allow (sampleAddr 10) 443, .allow (sampleAddr 11) 443, .revoke (sampleAddr 10) 443]

theorem verdict_exact_sample :
    (newIptables sampleConfig).verdict (fun _ _ => false) ⟨sampleAddr 11, .tcp, 443, .new⟩
        (afterAll ((newIptables sampleConfig).call sampleRunner)
          ((newIptables sampleConfig).init sampleRunner sampleHost).2 sampleCalls) = some .accept ∧
    (newIptables sampleConfig).verdict (fun _ _ => false) ⟨sampleAddr 10, .tcp, 443, .new⟩
        (afterAll ((newIptables sampleConfig).call sampleRunner)
          ((newIptables sampleConfig).init sampleRunner sampleHost).2 sampleCalls) = some .drop := by
  have exact := fun last => verdict_exact sampleConfig (newIptables sampleConfig) rfl sampleRunner
    (fun _ _ => rfl) sampleHost sample_started sampleCalls (by decide) (fun _ _ => false)
    ⟨sampleAddr last, .tcp, 443, .new⟩ rfl rfl (by simp) rfl
  refine ⟨(exact 11).1.trans ?_, (exact 10).1.trans ?_⟩
  · decide
  · decide

end Iptables

end Libknock.Firewall
