import Libknock.Firewall.Iptables

/-!
# What the commands of the backend leave in a table

For a program whose commands fail only for what its table holds, each sequence of
commands that the backend runs has one effect on the rules of the table.
-/

set_option autoImplicit false

namespace Libknock.Firewall

open Foundation

theorem input_present (table : Table) : ∃ held, table.rules inputChain = some held :=
  (table.mem_chains_iff inputChain).mp (table.present inputChain (by decide))

theorem known_of_jump_none {table : Table} {rule : Rule} (plain : rule.jump = none) :
    table.Known rule := by
  intro target jumps
  have found : rule.jump = some target := jumps
  rw [plain] at found
  cases found

def ensured (rule : Rule) (held : List Rule) : List Rule :=
  if rule ∈ held then held else rule :: held

def Iptables.installedInput (backend : Iptables) (held : List Rule) : List Rule :=
  let jumping := ensured (jumpRule backend.cfg.port backend.chain) held
  if backend.cfg.dropUDPKnockPort then ensured (udpDropRule (udpKnockPort backend.cfg)) jumping
  else jumping

section Effects

variable {runner : Runner} {cmd : Program} {host : Host}

theorem ensureInserted_effect (steady : Steady runner cmd host) (chain : Bytes) (rule : Rule)
    (held : List Rule) (known : (host.tables cmd).Known rule)
    (found : (host.tables cmd).rules chain = some held) :
    ∃ table : Table, ensureInserted runner cmd chain rule host = (none, host.set cmd table) ∧
      table.rules = Function.update (host.tables cmd).rules chain (some (ensured rule held)) := by
  by_cases member : rule ∈ held
  · have checked := steady.run_ok (FilterTable.apply_check known found member)
    refine ⟨host.tables cmd, ?_, ?_⟩
    · simp only [ensureInserted, runIptables, checked]
    · rw [ensured, if_pos member, ← found, Function.update_eq_self]
  · have checked := steady.run_error (FilterTable.apply_check_missing known found member)
    obtain ⟨table, inserted, rules⟩ := steady.run_effect
      (FilterTable.apply_insert known found)
    refine ⟨table, ?_, ?_⟩
    · simp only [ensureInserted, runIptables, checked, inserted]
    · rw [ensured, if_neg member, rules]

/-- `-N` and `-F` leave an empty chain, whether there was one or not. -/
theorem emptied_effect (steady : Steady runner cmd host) (chain : Bytes) :
    ∃ table : Table, (runIptables runner cmd (.flush chain)
        (runIptables runner cmd (.newChain chain) host).2).2 = host.set cmd table ∧
      table.rules = Function.update (host.tables cmd).rules chain (some []) := by
  cases found : (host.tables cmd).rules chain with
  | none =>
    obtain ⟨created, ran, rules⟩ := steady.run_effect (FilterTable.apply_newChain found)
    have empty : ((host.set cmd created).tables cmd).rules chain = some [] := by
      rw [Host.set_tables_self, rules, Function.update_self]
    obtain ⟨flushed, again, same⟩ := (steady.set cmd created).run_effect
      (FilterTable.apply_flush empty)
    refine ⟨flushed, ?_, ?_⟩
    · simp only [runIptables, ran, again, Host.set_set]
    · rw [same, Host.set_tables_self, rules, Function.update_idem]
  | some held =>
    have refused := steady.run_error (FilterTable.apply_newChain_exists found)
    obtain ⟨flushed, ran, rules⟩ := steady.run_effect (FilterTable.apply_flush found)
    refine ⟨flushed, ?_, rules⟩
    simp only [runIptables, refused, ran]

def Iptables.freshChain (backend : Iptables) : List Rule :=
  [establishedRule, dropRule backend.cfg.port]

theorem appended_effect (backend : Iptables) (steady : Steady runner cmd host)
    (empty : (host.tables cmd).rules backend.chain = some []) :
    ∃ table middle : Table,
      runIptables runner cmd (.append backend.chain establishedRule) host =
        (none, host.set cmd middle) ∧
      runIptables runner cmd (.append backend.chain (dropRule backend.cfg.port))
        (host.set cmd middle) = (none, host.set cmd table) ∧
      table.rules = Function.update (host.tables cmd).rules backend.chain
        (some backend.freshChain) := by
  obtain ⟨middle, first, rules⟩ := steady.run_effect
    (FilterTable.apply_append (known_of_jump_none (rfl : establishedRule.jump = none)) empty)
  have one : ((host.set cmd middle).tables cmd).rules backend.chain = some [establishedRule] := by
    rw [Host.set_tables_self, rules, Function.update_self]
    rfl
  obtain ⟨table, second, final⟩ := (steady.set cmd middle).run_effect
    (FilterTable.apply_append
      (known_of_jump_none (rfl : (dropRule backend.cfg.port).jump = none)) one)
  rw [Host.set_set] at second
  refine ⟨table, middle, first, second, ?_⟩
  rw [final, Host.set_tables_self, rules, Function.update_idem]
  rfl

theorem initCommand_effect (backend : Iptables) (steady : Steady runner cmd host)
    (separate : backend.chain ≠ inputChain) (held : List Rule)
    (input : (host.tables cmd).rules inputChain = some held) :
    ∃ table : Table, backend.initCommand runner cmd host = (none, host.set cmd table) ∧
      table.rules = Function.update (Function.update (host.tables cmd).rules inputChain
        (some (backend.installedInput held))) backend.chain (some backend.freshChain) := by
  obtain ⟨emptied, cleared, emptyRules⟩ := emptied_effect steady backend.chain
  have emptyChain : emptied.rules backend.chain = some [] := by
    rw [emptyRules, Function.update_self]
  have sameInput : emptied.rules inputChain = some held := by
    rw [emptyRules, Function.update_of_ne separate.symm, input]
  have known : emptied.Known (jumpRule backend.cfg.port backend.chain) := by
    intro target jumps
    cases jumps
    exact (emptied.mem_chains_iff backend.chain).mpr ⟨[], emptyChain⟩
  obtain ⟨jumping, jumped, jumpRules⟩ := ensureInserted_effect (steady.set cmd emptied) inputChain
    (jumpRule backend.cfg.port backend.chain) held (by rwa [Host.set_tables_self])
    (by rwa [Host.set_tables_self])
  rw [Host.set_set] at jumped
  rw [Host.set_tables_self] at jumpRules
  -- the drop rule for the knock port, where it is asked for
  obtain ⟨ready, dropped, readyRules⟩ : ∃ ready : Table,
      (if backend.cfg.dropUDPKnockPort then
          ensureInserted runner cmd inputChain (udpDropRule (udpKnockPort backend.cfg))
            (host.set cmd jumping)
        else (none, host.set cmd jumping)) = (none, host.set cmd ready) ∧
      ready.rules = Function.update emptied.rules inputChain
        (some (backend.installedInput held)) := by
    cases udp : backend.cfg.dropUDPKnockPort with
    | false =>
      refine ⟨jumping, rfl, ?_⟩
      rw [jumpRules, Iptables.installedInput, udp]
      rfl
    | true =>
      have found : ((host.set cmd jumping).tables cmd).rules inputChain =
          some (ensured (jumpRule backend.cfg.port backend.chain) held) := by
        rw [Host.set_tables_self, jumpRules, Function.update_self]
      obtain ⟨ready, inserted, rules⟩ := ensureInserted_effect (steady.set cmd jumping) inputChain
        (udpDropRule (udpKnockPort backend.cfg)) _ (known_of_jump_none rfl) found
      refine ⟨ready, ?_, ?_⟩
      · rw [if_pos rfl, inserted, Host.set_set]
      · rw [rules, Host.set_tables_self, jumpRules, Function.update_idem, Iptables.installedInput,
          udp]
        rfl
  have readyChain : ((host.set cmd ready).tables cmd).rules backend.chain = some [] := by
    rw [Host.set_tables_self, readyRules, Function.update_of_ne separate, emptyChain]
  obtain ⟨table, middle, first, second, rules⟩ :=
    appended_effect backend (steady.set cmd ready) readyChain
  rw [Host.set_set] at first second
  refine ⟨table, ?_, ?_⟩
  · simp only [Iptables.initCommand, cleared, jumped, dropped, first, second, Option.map_none,
      Host.set_set]
  · rw [rules, Host.set_tables_self, readyRules, emptyRules,
      Function.update_comm separate, Function.update_idem]

theorem initCommand_available (backend : Iptables)
    (started : (backend.initCommand runner cmd host).1 = none) : host.programs cmd = true := by
  by_contra unavailable
  rw [Bool.not_eq_true] at unavailable
  have refused := fun command =>
    Host.run_unavailable runner cmd (.filter command) host unavailable
  obtain ⟨_, created⟩ := refused (.newChain backend.chain)
  obtain ⟨_, flushed⟩ := refused (.flush backend.chain)
  obtain ⟨_, checked⟩ := refused (.check inputChain (jumpRule backend.cfg.port backend.chain))
  obtain ⟨_, inserted⟩ := refused (.insert inputChain (jumpRule backend.cfg.port backend.chain))
  simp only [Iptables.initCommand, ensureInserted, runIptables, created, flushed, checked,
    inserted] at started
  cases started

end Effects

/-! ## Cleaning up -/

/-- The errors for missing objects are told from the others. -/
def Runner.Recognised (runner : Runner) : Prop :=
  ∀ program command, ∀ failure ∈ [FilterFailure.missingChain, .missingTarget, .missingRule],
    isMissingFirewallObject (runner.reports program (.filter command) (.filter failure)) = true

theorem filter_ne_erase (rule : Rule) (held : List Rule) :
    (held.erase rule).filter (fun other => decide (other ≠ rule)) =
      held.filter fun other => decide (other ≠ rule) := by
  induction held with
  | nil => rfl
  | cons head tail ih =>
    by_cases same : head = rule
    · subst same
      simp
    · have kept : decide (head ≠ rule) = true := decide_eq_true same
      rw [List.erase_cons_tail (by simpa using same)]
      simp only [List.filter_cons, kept, if_true, ih]

variable {held : List Rule} {rule : Rule}

theorem filter_ne_of_notMem (absent : rule ∉ held) :
    (held.filter fun other => decide (other ≠ rule)) = held := by
  apply List.filter_eq_self.mpr
  intro other inside
  apply decide_eq_true
  rintro rfl
  exact absent inside

theorem known_update {table after : Table} (known : table.Known rule) (name : Bytes)
    (held : List Rule) (rules : after.rules = Function.update table.rules name (some held)) :
    after.Known rule := by
  intro target jumps
  obtain ⟨old, found⟩ := (table.mem_chains_iff target).mp (known target jumps)
  apply (after.mem_chains_iff target).mpr
  rw [rules]
  by_cases same : target = name
  · exact ⟨held, by rw [same, Function.update_self]⟩
  · exact ⟨old, by rw [Function.update_of_ne same, found]⟩

section Cleanup

variable {runner : Runner} {cmd : Program} {host : Host}

theorem deleteLoop_set (runner : Runner) (cmd : Program) (rule : Rule) (rounds : Nat) :
    ∀ (err : Option FirewallError) (host : Host),
      ∃ table, (deleteLoop runner cmd rule rounds err host).2 = host.set cmd table := by
  induction rounds with
  | zero => exact fun err host => ⟨host.tables cmd, (Host.set_self host cmd).symm⟩
  | succ rounds ih =>
    intro err host
    obtain ⟨table, ran⟩ := Host.run_set runner cmd (.filter (.delete inputChain rule)) host
    simp only [deleteLoop, runIptables]
    split
    · rw [ran]
      obtain ⟨last, looped⟩ := ih err (host.set cmd table)
      exact ⟨last, by rw [looped, Host.set_set]⟩
    · exact ⟨table, ran⟩

theorem cleanupCommand_set (backend : Iptables) (runner : Runner) (cmd : Program) (host : Host) :
    ∃ table, (backend.cleanupCommand runner cmd host).2 = host.set cmd table := by
  obtain ⟨first, udp⟩ : ∃ table, (if backend.cfg.dropUDPKnockPort then
      deleteLoop runner cmd (udpDropRule (udpKnockPort backend.cfg)) maxCleanupDeletes none host
      else (none, host)).2 = host.set cmd table := by
    split
    · exact deleteLoop_set runner cmd _ _ _ host
    · exact ⟨host.tables cmd, (Host.set_self host cmd).symm⟩
  simp only [Iptables.cleanupCommand, cleanupIptablesRules, runIptables]
  generalize (if backend.cfg.dropUDPKnockPort then
      deleteLoop runner cmd (udpDropRule (udpKnockPort backend.cfg)) maxCleanupDeletes none host
      else (none, host)) = dropped at udp ⊢
  obtain ⟨second, jump⟩ := deleteLoop_set runner cmd
    (jumpRule backend.cfg.port backend.chain) maxCleanupDeletes dropped.1 (host.set cmd first)
  obtain ⟨third, flushed⟩ := Host.run_set runner cmd (.filter (.flush backend.chain))
    (host.set cmd second)
  obtain ⟨fourth, deleted⟩ := Host.run_set runner cmd (.filter (.deleteChain backend.chain))
    (host.set cmd third)
  rw [Host.set_set] at jump flushed deleted
  rw [udp, jump, flushed, deleted]
  exact ⟨fourth, rfl⟩

theorem deleteLoop_refused (steady : Steady runner cmd host) (recognised : runner.Recognised)
    {failure : FilterFailure}
    (missing : failure ∈ [FilterFailure.missingChain, .missingTarget, .missingRule])
    (refused : (host.tables cmd).apply (.delete inputChain rule) = .error failure) (rounds : Nat)
    (err : Option FirewallError) :
    deleteLoop runner cmd rule (rounds + 1) err host = (err, host) := by
  simp only [deleteLoop, runIptables, steady.run_error refused,
    recognised cmd (.delete inputChain rule) failure missing, if_true]

/-- The loop takes every copy of its rule away, if it has a round more than there
are copies. -/
theorem deleteLoop_effect (recognised : runner.Recognised) (rule : Rule)
    (err : Option FirewallError) (rounds : Nat) :
    ∀ (host : Host) (held : List Rule), Steady runner cmd host → (host.tables cmd).Known rule →
      (host.tables cmd).rules inputChain = some held → held.count rule < rounds →
      ∃ table : Table, deleteLoop runner cmd rule rounds err host = (err, host.set cmd table) ∧
        table.rules = Function.update (host.tables cmd).rules inputChain
          (some (held.filter fun other => decide (other ≠ rule))) := by
  induction rounds with
  | zero =>
    intro host held _ _ _ few
    omega
  | succ rounds ih =>
    intro host held steady known found few
    by_cases member : rule ∈ held
    · obtain ⟨table, deleted, rules⟩ := steady.run_effect
        (FilterTable.apply_delete known found member)
      have fewer : (held.erase rule).count rule < rounds := by
        rw [List.count_erase_self]
        have := List.count_pos_iff.mpr member
        omega
      obtain ⟨last, looped, lastRules⟩ := ih (host.set cmd table) (held.erase rule)
        (steady.set cmd table)
        (by rw [Host.set_tables_self]; exact known_update known inputChain _ rules)
        (by rw [Host.set_tables_self, rules, Function.update_self]) fewer
      refine ⟨last, ?_, ?_⟩
      · simp only [deleteLoop, runIptables, deleted, looped, Host.set_set]
      · rw [lastRules, Host.set_tables_self, rules, Function.update_idem, filter_ne_erase]
    · refine ⟨host.tables cmd, ?_, ?_⟩
      · rw [deleteLoop_refused steady recognised (by simp)
          (FilterTable.apply_delete_missing known found member), Host.set_self]
      · rw [filter_ne_of_notMem member, ← found, Function.update_eq_self]

theorem cleanupCommand_clean (backend : Iptables) (steady : Steady runner cmd host)
    (recognised : runner.Recognised)
    (absent : (host.tables cmd).rules backend.chain = none)
    (unused : backend.cfg.dropUDPKnockPort = true → ∀ held,
      (host.tables cmd).rules inputChain = some held →
      udpDropRule (udpKnockPort backend.cfg) ∉ held) :
    backend.cleanupCommand runner cmd host = (none, host) := by
  have udp : (if backend.cfg.dropUDPKnockPort then
      deleteLoop runner cmd (udpDropRule (udpKnockPort backend.cfg)) maxCleanupDeletes none host
      else (none, host)) = (none, host) := by
    split
    · rename_i drops
      obtain ⟨held, input⟩ := input_present (host.tables cmd)
      exact deleteLoop_refused steady recognised (by simp)
        (FilterTable.apply_delete_missing (known_of_jump_none rfl) input (unused drops held input))
        _ none
    · rfl
  have unknown : ¬ (host.tables cmd).Known (jumpRule backend.cfg.port backend.chain) := by
    intro known
    obtain ⟨held, found⟩ := ((host.tables cmd).mem_chains_iff backend.chain).mp (known _ rfl)
    rw [absent] at found
    cases found
  have jump : deleteLoop runner cmd (jumpRule backend.cfg.port backend.chain) maxCleanupDeletes none
      host = (none, host) :=
    deleteLoop_refused steady recognised (by simp)
      (FilterTable.apply_missingTarget inputChain _ unknown).2.2.2 _ none
  have flushed := steady.run_error (FilterTable.apply_flush_missing absent)
  have deleted := steady.run_error (FilterTable.apply_deleteChain_missing absent)
  have flushIgnored := recognised cmd (.flush backend.chain) .missingChain (by simp)
  have deleteIgnored := recognised cmd (.deleteChain backend.chain) .missingChain (by simp)
  simp only [Iptables.cleanupCommand, cleanupIptablesRules, udp, jump, runIptables, flushed, deleted,
    ignoreMissingFirewallObject, flushIgnored, deleteIgnored, if_true, Option.map_none]
  rfl

def Iptables.inputRules (backend : Iptables) : List Rule :=
  (if backend.cfg.dropUDPKnockPort then [udpDropRule (udpKnockPort backend.cfg)] else []) ++
    [jumpRule backend.cfg.port backend.chain]

theorem installedInput_unused (backend : Iptables) (held : List Rule)
    (unused : ∀ rule ∈ backend.inputRules, rule ∉ held) :
    backend.installedInput held = backend.inputRules ++ held := by
  have jump : jumpRule backend.cfg.port backend.chain ∉ held := unused _ (by simp [Iptables.inputRules])
  cases udp : backend.cfg.dropUDPKnockPort with
  | false => simp [Iptables.installedInput, Iptables.inputRules, udp, ensured, jump]
  | true =>
    have drop : udpDropRule (udpKnockPort backend.cfg) ∉ held :=
      unused _ (by simp [Iptables.inputRules, udp])
    have different : udpDropRule (udpKnockPort backend.cfg) ≠
        jumpRule backend.cfg.port backend.chain := by simp [udpDropRule, jumpRule]
    simp [Iptables.installedInput, Iptables.inputRules, udp, ensured, jump, drop, different]

theorem deleteLoops_effect {backend : Iptables} (steady : Steady runner cmd host)
    (recognised : runner.Recognised) {managed : List Rule}
    (unused : ∀ rule ∈ backend.inputRules, rule ∉ held)
    (input : (host.tables cmd).rules inputChain = some (backend.inputRules ++ held))
    (found : (host.tables cmd).rules backend.chain = some managed) :
    ∃ middle table : Table,
      (if backend.cfg.dropUDPKnockPort then
          deleteLoop runner cmd (udpDropRule (udpKnockPort backend.cfg)) maxCleanupDeletes none host
        else (none, host)) = (none, host.set cmd middle) ∧
      deleteLoop runner cmd (jumpRule backend.cfg.port backend.chain) maxCleanupDeletes none
        (host.set cmd middle) = (none, host.set cmd table) ∧
      table.rules = Function.update (host.tables cmd).rules inputChain (some held) := by
  have jumpUnused : jumpRule backend.cfg.port backend.chain ∉ held :=
    unused _ (by simp [Iptables.inputRules])
  have jumpCount : held.count (jumpRule backend.cfg.port backend.chain) = 0 :=
    List.count_eq_zero.mpr jumpUnused
  have known : (host.tables cmd).Known (jumpRule backend.cfg.port backend.chain) := by
    intro target jumps
    cases jumps
    exact ((host.tables cmd).mem_chains_iff backend.chain).mpr ⟨managed, found⟩
  obtain ⟨middle, first, rules⟩ : ∃ middle : Table,
      (if backend.cfg.dropUDPKnockPort then
          deleteLoop runner cmd (udpDropRule (udpKnockPort backend.cfg)) maxCleanupDeletes none host
        else (none, host)) = (none, host.set cmd middle) ∧
      middle.rules = Function.update (host.tables cmd).rules inputChain
        (some (jumpRule backend.cfg.port backend.chain :: held)) := by
    cases udp : backend.cfg.dropUDPKnockPort with
    | false =>
      refine ⟨host.tables cmd, by simp, ?_⟩
      simp only [Iptables.inputRules, udp, Bool.false_eq_true, if_false, List.nil_append,
        List.singleton_append] at input
      rw [← input, Function.update_eq_self]
    | true =>
      simp only [Iptables.inputRules, udp, if_true, List.cons_append, List.nil_append] at input unused
      have dropUnused : udpDropRule (udpKnockPort backend.cfg) ∉
          jumpRule backend.cfg.port backend.chain :: held := by
        have := unused (udpDropRule (udpKnockPort backend.cfg)) (by simp)
        simp [udpDropRule, jumpRule] at this ⊢
        exact this
      obtain ⟨middle, looped, rules⟩ := deleteLoop_effect recognised
        (udpDropRule (udpKnockPort backend.cfg)) none maxCleanupDeletes host _ steady
        (known_of_jump_none rfl) input (by
          rw [List.count_cons_self, List.count_eq_zero.mpr dropUnused]
          decide)
      refine ⟨middle, by rw [if_pos rfl, looped], ?_⟩
      rw [rules, List.filter_cons_of_neg (by simp), filter_ne_of_notMem dropUnused]
  obtain ⟨table, second, final⟩ := deleteLoop_effect recognised
    (jumpRule backend.cfg.port backend.chain) none maxCleanupDeletes (host.set cmd middle) _
    (steady.set cmd middle) (by rw [Host.set_tables_self]; exact known_update known _ _ rules)
    (by rw [Host.set_tables_self, rules, Function.update_self]) (by
      rw [List.count_cons_self, jumpCount]
      decide)
  rw [Host.set_set] at second
  refine ⟨middle, table, first, second, ?_⟩
  rw [final, Host.set_tables_self, rules, Function.update_idem,
    List.filter_cons_of_neg (by simp), filter_ne_of_notMem jumpUnused]

/-- Cleaning up what a start and any leases have left gives back the table from
before the start. -/
theorem cleanupCommand_installed {backend : Iptables} (steady : Steady runner cmd host)
    (recognised : runner.Recognised) (added : filterShape.builtin backend.chain = false)
    {before : Table} (absent : before.rules backend.chain = none) {managed : List Rule}
    (input : before.rules inputChain = some held)
    (unused : ∀ rule ∈ backend.inputRules, rule ∉ held)
    (rules : (host.tables cmd).rules = Function.update (Function.update before.rules inputChain
      (some (backend.installedInput held))) backend.chain (some managed)) :
    backend.cleanupCommand runner cmd host = (none, host.set cmd before) := by
  have separate : backend.chain ≠ inputChain := by
    intro same
    rw [same] at added
    revert added
    decide
  have found : (host.tables cmd).rules backend.chain = some managed := by
    rw [rules, Function.update_self]
  have full : (host.tables cmd).rules inputChain = some (backend.inputRules ++ held) := by
    rw [rules, Function.update_of_ne separate.symm, Function.update_self,
      installedInput_unused backend held unused]
  obtain ⟨middle, looped, first, second, loopedRules⟩ :=
    deleteLoops_effect steady recognised unused full found
  have loopedChain : ((host.set cmd looped).tables cmd).rules backend.chain = some managed := by
    rw [Host.set_tables_self, loopedRules, Function.update_of_ne separate, found]
  obtain ⟨flushed, third, flushedRules⟩ := (steady.set cmd looped).run_effect
    (FilterTable.apply_flush loopedChain)
  -- the table is the one from before the start, and an empty chain
  have left : flushed.rules = Function.update before.rules backend.chain (some []) := by
    rw [flushedRules, Host.set_tables_self, loopedRules, rules,
      Function.update_comm separate, Function.update_idem, Function.update_idem,
      ← input, Function.update_eq_self]
  have free : ¬ flushed.Referenced backend.chain := by
    rw [FilterTable.referenced_iff, left]
    rintro ⟨other, others, lookup, rule, member, jumps⟩
    by_cases same : other = backend.chain
    · rw [same, Function.update_self] at lookup
      cases lookup
      cases member
    · rw [Function.update_of_ne same] at lookup
      obtain ⟨chain, present⟩ := (before.mem_chains_iff _).mp
        (before.closed other others lookup rule member _ jumps)
      rw [absent] at present
      cases present
  have empty : ((host.set cmd flushed).tables cmd).rules backend.chain = some [] := by
    rw [Host.set_tables_self, left, Function.update_self]
  obtain ⟨last, fourth, lastRules⟩ := (steady.set cmd flushed).run_effect
    (FilterTable.apply_deleteChain empty added (by rwa [Host.set_tables_self]))
  have restored : last = before := by
    apply FilterTable.ext_rules
    rw [lastRules, Host.set_tables_self, left, Function.update_idem, ← absent,
      Function.update_eq_self]
  rw [Host.set_set] at third fourth
  simp only [Iptables.cleanupCommand, cleanupIptablesRules, first, second, runIptables, third,
    fourth, restored]
  rfl

end Cleanup

end Libknock.Firewall
