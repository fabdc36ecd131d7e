import Libknock.Foundation.FilterTable
import Libknock.Foundation.Net

/-!
# The host of the iptables backend

The filter tables of a host and the two programs that change them.  A command
runs as `firewall/interface.go` has it run: its error, where it has one, is known
by its text.  A table takes any source address; the commands it refuses are those
that name something missing, or something that is there already.
-/

set_option autoImplicit false

namespace Libknock.Firewall

open Foundation

inductive Program where
  | iptables
  | ip6tables
  deriving DecidableEq

inductive Protocol where
  | tcp
  | udp
  deriving DecidableEq

inductive ConnState where
  | new
  | established
  | related
  | invalid
  | untracked
  deriving DecidableEq

inductive Target where
  | accept
  | drop
  | extension (name : Bytes)
  | chain (name : Bytes)
  deriving DecidableEq

/-- A rule: the options that the backend writes, and as text the others that
rules of the host may have. -/
structure Rule where
  source : Option Addr := none
  protocol : Option Protocol := none
  dport : Option Int := none
  ctstate : Option (List ConnState) := none
  comment : Option Bytes := none
  more : List Bytes := []
  target : Target
  deriving DecidableEq

def Rule.jump (rule : Rule) : Option Bytes :=
  match rule.target with
  | .chain name => some name
  | _ => none

def inputChain : Bytes := ascii "INPUT"

def filterShape : FilterShape Bytes Rule where
  jump := Rule.jump
  builtin := fun name => decide (name ∈ [inputChain, ascii "FORWARD", ascii "OUTPUT"])

def upperByte (byte : UInt8) : UInt8 := if 97 ≤ byte ∧ byte ≤ 122 then byte - 32 else byte

def reservedChains : List Bytes :=
  ["INPUT", "OUTPUT", "FORWARD", "PREROUTING", "POSTROUTING", "ACCEPT", "DROP", "REJECT", "RETURN",
    "QUEUE", "LOG"].map ascii

def isReservedIptablesChain (chain : Bytes) : Bool := decide (chain.map upperByte ∈ reservedChains)

abbrev Table := FilterTable filterShape

abbrev Command := FilterCommand Bytes Rule

/-- A table with rules in `INPUT` only, none of which jumps to a chain. -/
def plainTable (rules : List Rule) (plain : ∀ rule ∈ rules, rule.jump = none) : Table where
  chains := ((Finmap.singleton (ascii "OUTPUT") []).insert (ascii "FORWARD") []).insert inputChain
    rules
  present := by
    intro name builtin
    have named := of_decide_eq_true builtin
    simpa [Finmap.mem_insert] using named
  closed := by
    intro name held lookup rule member target jumps
    by_cases same : name = inputChain
    · subst same
      rw [Finmap.lookup_insert] at lookup
      cases lookup
      have found : rule.jump = some target := jumps
      rw [plain rule member] at found
      cases found
    · rw [Finmap.lookup_insert_of_ne _ same] at lookup
      exfalso
      by_cases forward : name = ascii "FORWARD"
      · subst forward
        rw [Finmap.lookup_insert] at lookup
        cases lookup
        cases member
      · rw [Finmap.lookup_insert_of_ne _ forward] at lookup
        have output := Finmap.mem_of_lookup_eq_some lookup
        rw [Finmap.mem_singleton] at output
        subst output
        rw [Finmap.lookup_singleton_eq] at lookup
        cases lookup
        cases member

/-- What stands after the name of the program. -/
inductive Invocation where
  | filter (command : Command)
  | help
  | version
  deriving DecidableEq

inductive Failure where
  | filter (failure : FilterFailure)
  | noProgram
  deriving DecidableEq

/-- How commands come back: the text of the error for each failure, and the
commands that fail without effect whatever the table holds. -/
structure Runner where
  reports : Program → Invocation → Failure → Bytes
  fails : Program → Invocation → Option Bytes

@[ext]
structure Host where
  tables : Program → Table
  programs : Program → Bool

namespace Host

def set (host : Host) (program : Program) (table : Table) : Host :=
  { host with tables := Function.update host.tables program table }

/-- Runs a program; the answer is the text of the error, if there is one. -/
def run (runner : Runner) (program : Program) (invocation : Invocation) (host : Host) :
    Option Bytes × Host :=
  match runner.fails program invocation with
  | some text => (some text, host)
  | none =>
    if host.programs program then
      match invocation with
      | .filter command =>
        match (host.tables program).apply command with
        | .ok table => (none, host.set program table)
        | .error failure => (some (runner.reports program invocation (.filter failure)), host)
      | _ => (none, host)
    else (some (runner.reports program invocation .noProgram), host)

variable (host : Host) (program : Program) (table : Table)

@[simp] theorem set_tables_self :
    (host.set program table).tables program = table := Function.update_self ..

theorem set_tables_of_ne {host : Host} {program other : Program} {table : Table}
    (different : other ≠ program) : (host.set program table).tables other = host.tables other :=
  Function.update_of_ne different ..

@[simp] theorem set_programs : (host.set program table).programs = host.programs := rfl

@[simp] theorem set_set (first second : Table) :
    (host.set program first).set program second = host.set program second := by
  simp [set]

@[simp] theorem set_self : host.set program (host.tables program) = host := by
  simp [set]

theorem run_set (runner : Runner) (program : Program) (invocation : Invocation) (host : Host) :
    ∃ table, (host.run runner program invocation).2 = host.set program table := by
  have unchanged : ∃ table, host = host.set program table :=
    ⟨host.tables program, (set_self host program).symm⟩
  unfold run
  split
  · exact unchanged
  split
  · split
    · split
      · exact ⟨_, rfl⟩
      · exact unchanged
    · exact unchanged
  · exact unchanged

theorem run_unavailable (runner : Runner) (program : Program) (invocation : Invocation)
    (host : Host) (unavailable : host.programs program = false) :
    ∃ text, host.run runner program invocation = (some text, host) := by
  unfold run
  split
  · exact ⟨_, rfl⟩
  · rw [unavailable]
    exact ⟨_, rfl⟩

end Host

/-! ## Programs whose commands fail only for what the table holds -/

structure Steady (runner : Runner) (program : Program) (host : Host) : Prop where
  obeys : ∀ invocation, runner.fails program invocation = none
  available : host.programs program = true

variable {command : Command}

namespace Steady

variable {runner : Runner} {program : Program} {host : Host}

section

variable (steady : Steady runner program host)

include steady

theorem set (other : Program) (table : Table) :
    Steady runner program (host.set other table) := ⟨steady.obeys, steady.available⟩

theorem run_ok {table : Table} (applied : (host.tables program).apply command = .ok table) :
    host.run runner program (.filter command) = (none, host.set program table) := by
  simp only [Host.run, steady.obeys, steady.available, applied, if_true]

theorem run_error {failure : FilterFailure}
    (refused : (host.tables program).apply command = .error failure) :
    host.run runner program (.filter command) =
      (some (runner.reports program (.filter command) (.filter failure)), host) := by
  simp only [Host.run, steady.obeys, steady.available, refused, if_true]

theorem run_effect {rules : Bytes → Option (List Rule)}
    (effect : ∃ table, (host.tables program).apply command = .ok table ∧ table.rules = rules) :
    ∃ table : Table, host.run runner program (.filter command) = (none, host.set program table) ∧
      table.rules = rules := by
  obtain ⟨table, applied, same⟩ := effect
  exact ⟨table, steady.run_ok applied, same⟩

end

end Steady

/-! ## Packets -/

structure Packet where
  source : Addr
  protocol : Protocol
  dport : Int
  state : ConnState

/-- Whether a rule matches a packet; what the options this development does not
know match is a parameter. -/
def Rule.matches (others : List Bytes → Packet → Bool) (packet : Packet) (rule : Rule) : Bool :=
  rule.source.all (fun source => decide (source = packet.source)) &&
    rule.protocol.all (fun protocol => decide (protocol = packet.protocol)) &&
    rule.dport.all (fun dport => decide (dport = packet.dport)) &&
    rule.ctstate.all (fun states => decide (packet.state ∈ states)) &&
    (rule.more.isEmpty || others rule.more packet)

def firstMatch (others : List Bytes → Packet → Bool) (packet : Packet) (rules : List Rule) :
    Option Target :=
  (rules.find? fun rule => rule.matches others packet).map Rule.target

theorem firstMatch_cons (others : List Bytes → Packet → Bool) (packet : Packet) (rule : Rule)
    (rules : List Rule) :
    firstMatch others packet (rule :: rules) =
      if rule.matches others packet then some rule.target else firstMatch others packet rules := by
  cases matched : rule.matches others packet <;> simp [firstMatch, matched]

end Libknock.Firewall
