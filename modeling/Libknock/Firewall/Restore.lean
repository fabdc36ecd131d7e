import Libknock.Firewall.Leases

/-!
# Starting and cleaning up

Where the errors for missing objects are recognised, a start followed by any
calls and a cleanup gives the host back as it was.  With the texts that the
programs print, they are not all recognised, and a start on a host without the
chain fails.
-/

set_option autoImplicit false

namespace Libknock.Firewall

open Foundation

theorem joinErrors_pair_eq_none (left right : Option FirewallError) :
    joinErrors [left, right] = none ↔ left = none ∧ right = none := by
  cases left <;> cases right <;> simp [joinErrors]

namespace Iptables

/-! ## The host is given back -/

structure Untouched (backend : Iptables) (table : Table) : Prop where
  absent : table.rules backend.chain = none
  unused : ∀ held, table.rules inputChain = some held →
    ∀ rule ∈ backend.inputRules, rule ∉ held

theorem Untouched.cleaned {backend : Iptables} {runner : Runner} {cmd : Program} {host : Host}
    (untouched : Untouched backend (host.tables cmd)) (steady : Steady runner cmd host)
    (recognised : runner.Recognised) : backend.cleanupCommand runner cmd host = (none, host) := by
  apply cleanupCommand_clean backend steady recognised untouched.absent
  intro drops held input
  apply untouched.unused held input
  simp [inputRules, drops]

theorem Serving.cleanupCommand {backend : Iptables} {runner : Runner} {origin host other : Host}
    {base : Program → Bytes → Option (List Rule)} {allowed : List Addr}
    (serving : Serving backend runner origin base allowed host) (calm : runner.Calm)
    (recognised : runner.Recognised) (added : filterShape.builtin backend.chain = false)
    (program : Program) (served : backend.serves runner origin program = true)
    (untouched : Untouched backend (origin.tables program))
    (start : base program = backend.startedRules (origin.tables program))
    (same : other.tables program = host.tables program) (programs : other.programs = host.programs) :
    backend.cleanupCommand runner program other = (none, other.set program (origin.tables program)) := by
  obtain ⟨held, input⟩ := input_present (origin.tables program)
  have steady : Steady runner program other :=
    ⟨calm program, by rw [programs]; exact (serving.steady calm served).available⟩
  apply cleanupCommand_installed steady recognised added
    untouched.absent input (untouched.unused held input)
  rw [same, serving.managed program served, start, startedRules, input]
  rfl

/-- A start, any calls and a cleanup leave the host as it was. -/
theorem cleanup_restores (backend : Iptables) (runner : Runner) (calm : runner.Calm)
    (recognised : runner.Recognised) (host : Host)
    (untouched : ∀ program, Untouched backend (host.tables program))
    (started : (backend.init runner host).1 = none) (calls : List LeaseCall) :
    backend.cleanup runner (afterAll (backend.call runner) (backend.init runner host).2 calls) =
      (none, host) := by
  have valid := (init_ok backend runner host started).1
  have added := builtin_of_valid valid
  obtain ⟨cleaned, origin, serving⟩ := init_serving backend calm host started
  -- the cleaning at the start has found nothing
  have unchanged : ∀ program, backend.serves runner host program = true →
      cleaned program = host.tables program := by
    intro program served
    obtain ⟨before, same, programs, result⟩ := origin program served
    have steady : Steady runner program before :=
      ⟨calm program, by rw [programs]; exact serving.available program served⟩
    have nothing : Untouched backend (before.tables program) := same ▸ untouched program
    rw [nothing.cleaned steady recognised] at result
    rw [← result, same]
  obtain ⟨allowed, final, _⟩ := Serving.afterAll calm calls [] _ serving
  generalize afterAll (backend.call runner) (backend.init runner host).2 calls = last at final ⊢
  have start : ∀ program, (served : backend.serves runner host program = true) →
      (if backend.serves runner host program then backend.startedRules (cleaned program)
        else (host.tables program).rules) = backend.startedRules (host.tables program) := by
    intro program served
    rw [if_pos served, unchanged program served]
  have first := final.cleanupCommand calm recognised added .iptables rfl
    (untouched .iptables) (start .iptables rfl) rfl rfl
  have programs : (last.set .iptables (host.tables .iptables)).programs = host.programs :=
    final.programs
  have enabled : ipv6Enabled backend.cfg runner (last.set .iptables (host.tables .iptables)) =
      backend.serves runner host .ip6tables :=
    congrFun (serves_congr backend calm programs) .ip6tables
  simp only [cleanup, valid, first, enabled]
  cases served : backend.serves runner host .ip6tables with
  | true =>
    have second := final.cleanupCommand calm recognised added .ip6tables served
      (untouched .ip6tables) (start .ip6tables served)
      (@Host.set_tables_of_ne last .iptables .ip6tables (host.tables .iptables) (by decide)) rfl
    simp only [second, if_true]
    refine Prod.ext rfl (Host.ext (funext fun program => ?_) final.programs)
    cases program with
    | iptables => rw [Host.set_tables_of_ne (by decide), Host.set_tables_self]
    | ip6tables => rw [Host.set_tables_self]
  | false =>
    refine Prod.ext rfl (Host.ext (funext fun program => ?_) final.programs)
    cases program with
    | iptables => exact Host.set_tables_self ..
    | ip6tables =>
      apply FilterTable.ext_rules
      rw [if_neg Bool.false_ne_true, Host.set_tables_of_ne (by decide),
        final.idle .ip6tables served, if_neg (by simp [served])]

/-- A host with its own rules, two leases of which one is revoked, both programs
and the drop rule for the knock port. -/
theorem cleanup_restores_sample :
    (newIptables sampleConfig).cleanup sampleRunner
        (afterAll ((newIptables sampleConfig).call sampleRunner)
          ((newIptables sampleConfig).init sampleRunner sampleHost).2 sampleCalls) =
      (none, sampleHost) := by
  refine cleanup_restores (newIptables sampleConfig) sampleRunner (fun _ _ => rfl) ?_ sampleHost ?_
    sample_started _
  · have recognised : isMissingFirewallObject
        (ascii "Bad rule (does a matching rule exist in that chain?).") = true := by decide +kernel
    exact fun _ _ _ _ => recognised
  · intro program
    refine ⟨by cases program <;> decide +kernel, ?_⟩
    intro held input
    have input : some [dropRule 22] = some held := input
    cases input
    decide +kernel

/-! ## A start on a clean host -/

/-- The texts that the programs print for what is missing. -/
structure StandardReports (runner : Runner) : Prop where
  missingChain : ∀ program chain, ∀ command ∈ [FilterCommand.flush chain, .deleteChain chain],
    ascii "No chain/target/match by that name." <:+:
      runner.reports program (.filter command) (.filter .missingChain)
  missingRule : ∀ program chain rule, ∀ command ∈ [FilterCommand.delete chain rule, .check chain rule],
    ascii "Bad rule (does a matching rule exist in that chain?)." <:+:
      runner.reports program (.filter command) (.filter .missingRule)
  missingTarget : ∀ program command,
    ascii "No such file or directory" <:+:
      runner.reports program (.filter command) (.filter .missingTarget)

theorem missingChain_not_recognised (text : Bytes)
    (reported : ascii "No chain/target/match by that name." <:+: text) :
    isMissingFirewallObject text = false := by
  have lowered : (ascii "No chain/target/match by that name.").map lowerByte <:+:
      text.map lowerByte := reported.map lowerByte
  have start : ascii "no chain/target/match by that name" <:+:
      (ascii "No chain/target/match by that name.").map lowerByte := by decide +kernel
  have found : lowerContains text "no chain/target/match by that name" = true :=
    decide_eq_true (start.trans lowered)
  rw [isMissingFirewallObject, if_pos (Or.inl found)]

theorem deleteLoop_absent (runner : Runner) (cmd : Program) (rule : Rule) (chain : Bytes)
    (rounds : Nat) :
    ∀ (err : Option FirewallError) (host : Host), Steady runner cmd host →
      (host.tables cmd).rules chain = none →
      Steady runner cmd (deleteLoop runner cmd rule rounds err host).2 ∧
        ((deleteLoop runner cmd rule rounds err host).2.tables cmd).rules chain = none := by
  induction rounds with
  | zero => exact fun err host steady absent => ⟨steady, absent⟩
  | succ rounds ih =>
    intro err host steady absent
    cases result : (host.tables cmd).apply (.delete inputChain rule) with
    | error failure =>
      simp only [deleteLoop, runIptables, steady.run_error result]
      exact ⟨steady, absent⟩
    | ok after =>
      obtain ⟨held, input, _, rules⟩ := FilterTable.apply_delete_inv result
      have different : chain ≠ inputChain := by
        rintro rfl
        rw [absent] at input
        cases input
      simp only [deleteLoop, runIptables, steady.run_ok result]
      apply ih err (host.set cmd after) (steady.set cmd after)
      rw [Host.set_tables_self, rules, Function.update_of_ne different, absent]

/-- On a host without the chain the cleaning at the start fails, and with it the
start. -/
theorem init_fails_without_chain (backend : Iptables) (runner : Runner) (calm : runner.Calm)
    (standard : StandardReports runner) (host : Host) (available : host.programs .iptables = true)
    (clean : ∀ program, (host.tables program).rules backend.chain = none) :
    (backend.init runner host).1 ≠ none := by
  intro started
  have cleaned := (init_ok backend runner host started).2.1
  simp only [cleanupCommand, cleanupIptablesRules] at cleaned
  generalize dropped : (if backend.cfg.dropUDPKnockPort then
      deleteLoop runner .iptables (udpDropRule (udpKnockPort backend.cfg)) maxCleanupDeletes none
        host
      else (none, host)) = udp at cleaned
  have afterUDP : Steady runner .iptables udp.2 ∧
      (udp.2.tables .iptables).rules backend.chain = none := by
    have steady : Steady runner .iptables host := ⟨calm .iptables, available⟩
    rw [← dropped]
    split
    · exact deleteLoop_absent runner .iptables _ _ _ none host steady (clean .iptables)
    · exact ⟨steady, clean .iptables⟩
  obtain ⟨steady, absent⟩ := deleteLoop_absent runner .iptables
    (jumpRule backend.cfg.port backend.chain) backend.chain maxCleanupDeletes udp.1 udp.2
    afterUDP.1 afterUDP.2
  have flushed := steady.run_error (FilterTable.apply_flush_missing absent)
  have refused := missingChain_not_recognised _
    (standard.missingChain .iptables backend.chain (.flush backend.chain) (by simp))
  simp only [runIptables, flushed, ignoreMissingFirewallObject, refused, joinErrors_pair_eq_none]
    at cleaned
  simp at cleaned

def standardRunner : Runner where
  reports := fun _ _ failure =>
    match failure with
    | .filter .missingChain => ascii "iptables: No chain/target/match by that name."
    | .filter .missingRule => ascii "iptables: Bad rule (does a matching rule exist in that chain?)."
    | .filter .missingTarget => ascii "Couldn't load target:No such file or directory"
    | _ => ascii "iptables: Chain already exists."
  fails := fun _ _ => none

theorem standardRunner_reports : StandardReports standardRunner := by
  have chain : ascii "No chain/target/match by that name." <:+:
      ascii "iptables: No chain/target/match by that name." := by decide +kernel
  have rule : ascii "Bad rule (does a matching rule exist in that chain?)." <:+:
      ascii "iptables: Bad rule (does a matching rule exist in that chain?)." := by decide +kernel
  have target : ascii "No such file or directory" <:+:
      ascii "Couldn't load target:No such file or directory" := by decide +kernel
  exact ⟨fun _ _ _ _ => chain, fun _ _ _ _ _ => rule, fun _ _ => target⟩

theorem init_fails_without_chain_sample :
    StandardReports standardRunner ∧
      ((newIptables sampleConfig).init standardRunner sampleHost).1 ≠ none := by
  refine ⟨standardRunner_reports, init_fails_without_chain (newIptables sampleConfig) standardRunner
    (fun _ _ => rfl) standardRunner_reports sampleHost rfl ?_⟩
  intro program
  cases program <;> decide +kernel

/-- A start on a host with one rule in `INPUT` fails, and leaves no chain. -/
theorem init_leaves_no_chain :
    ((newIptables sampleConfig).init standardRunner sampleHost).1.isSome = true ∧
      (((newIptables sampleConfig).init standardRunner sampleHost).2.tables .iptables).rules
        (ascii "KNOCK_GATEWAY") = none := by
  decide +kernel

end Iptables

end Libknock.Firewall
