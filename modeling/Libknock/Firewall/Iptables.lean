import Libknock.Firewall.Host

/-!
# The iptables backend

`firewall/iptables.go` and `firewall/cleanup.go`, with what they use of
`firewall/interface.go`.  The `-w 5` that `runIptables` puts in front of every
command is not part of a command here, and a context that ends is one of the
ways in which a command fails.
-/

set_option autoImplicit false

namespace Libknock.Firewall

open Foundation

structure Config where
  port : Int
  /-- `Runner != nil`. -/
  customRunner : Bool
  dropUDPKnockPort : Bool
  udpKnockPort : Int
  enableIPv6 : Option Bool
  /-- `Iptables.Chain`. -/
  chain : Bytes

inductive FirewallError where
  /-- `invalid %s name %q`. -/
  | invalidName (label value : Bytes)
  /-- `unsafe iptables chain %q: ...`. -/
  | unsafeChain (chain : Bytes)
  /-- `firewall backend %s requires protected port in 1..65535`. -/
  | invalidPort (backend : Bytes)
  /-- `firewall backend %s is bound to protected port %d, got %d`. -/
  | otherPort (backend : Bytes) (bound got : Int)
  /-- `firewall backend %s received an IPv6 client address, ...`. -/
  | ipv6Unsupported (backend : Bytes)
  | command (text : Bytes)
  | joined (errors : List FirewallError)

/-- `errors.Join`. -/
def joinErrors (errors : List (Option FirewallError)) : Option FirewallError :=
  match errors.filterMap id with
  | [] => none
  | present => some (.joined present)

/-! ## Names, ports and addresses -/

def isLetter (byte : UInt8) : Bool := decide (65 ≤ byte ∧ byte ≤ 90 ∨ 97 ≤ byte ∧ byte ≤ 122)

def isDigit (byte : UInt8) : Bool := decide (48 ≤ byte ∧ byte ≤ 57)

/-- `^[A-Za-z_][A-Za-z0-9_]{0,30}$`. -/
def fwNameRE : Bytes → Bool
  | [] => false
  | first :: rest =>
    (isLetter first || decide (first = 95)) &&
      rest.all (fun byte => isLetter byte || isDigit byte || decide (byte = 95)) &&
      decide (rest.length ≤ 30)

def validateFirewallObjectName (label value : Bytes) : Option FirewallError :=
  if value.head? = some 45 ∨ (∃ byte ∈ value, byte ∈ ([32, 9, 10, 13, 59, 123, 125] : Bytes)) ∨
      fwNameRE value = false then
    some (.invalidName label value)
  else none

def lowerByte (byte : UInt8) : UInt8 := if 65 ≤ byte ∧ byte ≤ 90 then byte + 32 else byte

def validateIptablesConfig (chain : Bytes) : Option FirewallError :=
  if chain ≠ [] then
    match validateFirewallObjectName (ascii "iptables chain") chain with
    | some err => some err
    | none => if isReservedIptablesChain chain then some (.unsafeChain chain) else none
  else none

def validateFirewallPort (port : Int) (backend : Bytes) : Option FirewallError :=
  if port < 1 ∨ 65535 < port then some (.invalidPort backend) else none

def validateBoundFirewallPort (backend : Bytes) (bound got : Int) : Option FirewallError :=
  match validateFirewallPort bound backend with
  | some err => some err
  | none => if got ≠ bound then some (.otherPort backend bound got) else none

def udpKnockPort (cfg : Config) : Int := if 0 < cfg.udpKnockPort then cfg.udpKnockPort else cfg.port

/-- The program for an address: `ip6tables` where `toIP(addr).To4()` is nil. -/
def programOf : Addr → Program
  | .invalid => .ip6tables
  | .v4 _ => .iptables
  | .v6 ip _ => if ip.bytes.take 12 = Addr.mappedHead then .iptables else .ip6tables

/-! ## Errors of commands -/

/-- `strings.Contains(strings.ToLower(text), pattern)` of an ASCII text and pattern: Go
lowers the letters of Unicode, `lowerByte` those of ASCII. -/
def lowerContains (text : Bytes) (pattern : String) : Bool :=
  decide (ascii pattern <:+: text.map lowerByte)

def isMissingFirewallObject (text : Bytes) : Bool :=
  if lowerContains text "no chain/target/match by that name" ∨
      lowerContains text "permission denied" then false
  else
    lowerContains text "does not exist" || lowerContains text "no such file or directory" ||
      lowerContains text "not in the set" || lowerContains text "not in set" ||
      lowerContains text "no such table" || lowerContains text "it's not added" ||
      lowerContains text "bad rule (does a matching rule exist"

def ignoreMissingFirewallObject : Option Bytes → Option Bytes
  | none => none
  | some text => if isMissingFirewallObject text then none else some text

def runIptables (runner : Runner) (cmd : Program) (command : Command) (host : Host) :
    Option Bytes × Host :=
  host.run runner cmd (.filter command)

/-- `-C`, and `-I` at the front where the check fails. -/
def ensureInserted (runner : Runner) (cmd : Program) (chain : Bytes) (rule : Rule) (host : Host) :
    Option Bytes × Host :=
  let checked := runIptables runner cmd (.check chain rule) host
  match checked.1 with
  | none => (none, checked.2)
  | some _ => runIptables runner cmd (.insert chain rule) checked.2

/-- Whether `ip6tables` can be run: a custom runner is asked for its help and its
version, otherwise it is looked up in the path. -/
def firewallCommandExists (cfg : Config) (runner : Runner) (cmd : Program) (host : Host) : Bool :=
  if cfg.customRunner then
    (host.run runner cmd .help).1.isNone || (host.run runner cmd .version).1.isNone
  else host.programs cmd

def ipv6Enabled (cfg : Config) (runner : Runner) (host : Host) : Bool :=
  match cfg.enableIPv6 with
  | some enabled => enabled
  | none => firewallCommandExists cfg runner .ip6tables host

/-! ## The rules of the backend -/

def jumpRule (port : Int) (chain : Bytes) : Rule :=
  { protocol := some .tcp, dport := some port, target := .chain chain }

def udpDropRule (port : Int) : Rule :=
  { protocol := some .udp, dport := some port, comment := some (ascii "knockgate udp-passive"),
    target := .drop }

def establishedRule : Rule :=
  { ctstate := some [.established, .related], target := .accept }

def dropRule (port : Int) : Rule :=
  { protocol := some .tcp, dport := some port, target := .drop }

def acceptRule (port : Int) (addr : Addr) : Rule :=
  { source := some addr, protocol := some .tcp, dport := some port, target := .accept }

/-! ## Cleaning up -/

def maxCleanupDeletes : Nat := 1000

/-- Deletes a rule of `INPUT` until the deletion fails, a bounded number of times. -/
def deleteLoop (runner : Runner) (cmd : Program) (rule : Rule) :
    Nat → Option FirewallError → Host → Option FirewallError × Host
  | 0, err, host => (err, host)
  | rounds + 1, err, host =>
    let deleted := runIptables runner cmd (.delete inputChain rule) host
    match deleted.1 with
    | none => deleteLoop runner cmd rule rounds err deleted.2
    | some text =>
      (if isMissingFirewallObject text then err else joinErrors [err, some (.command text)],
        deleted.2)

def cleanupIptablesRules (cfg : Config) (runner : Runner) (cmd : Program) (chain : Bytes)
    (tcpPort udpPort : Int) (host : Host) : Option FirewallError × Host :=
  let udp := if cfg.dropUDPKnockPort then
      deleteLoop runner cmd (udpDropRule udpPort) maxCleanupDeletes none host
    else (none, host)
  let jump := deleteLoop runner cmd (jumpRule tcpPort chain) maxCleanupDeletes udp.1 udp.2
  let flushed := runIptables runner cmd (.flush chain) jump.2
  let err := joinErrors [jump.1, (ignoreMissingFirewallObject flushed.1).map .command]
  let deleted := runIptables runner cmd (.deleteChain chain) flushed.2
  (joinErrors [err, (ignoreMissingFirewallObject deleted.1).map .command], deleted.2)

/-! ## The backend -/

structure Iptables where
  cfg : Config
  chain : Bytes

namespace Iptables

def name : Bytes := ascii "iptables"

def newIptables (cfg : Config) : Iptables :=
  ⟨cfg, if cfg.chain = [] then ascii "KNOCK_GATEWAY" else cfg.chain⟩

def withConfig (cfg : Config) : Except FirewallError Iptables :=
  match validateFirewallPort cfg.port name with
  | some err => .error err
  | none =>
    match validateIptablesConfig cfg.chain with
    | some err => .error err
    | none => .ok (newIptables cfg)

def cleanupCommand (backend : Iptables) (runner : Runner) (cmd : Program) (host : Host) :
    Option FirewallError × Host :=
  cleanupIptablesRules backend.cfg runner cmd backend.chain backend.cfg.port
    (udpKnockPort backend.cfg) host

def initCommand (backend : Iptables) (runner : Runner) (cmd : Program) (host : Host) :
    Option FirewallError × Host :=
  let created := runIptables runner cmd (.newChain backend.chain) host
  let flushed := runIptables runner cmd (.flush backend.chain) created.2
  let jump := ensureInserted runner cmd inputChain (jumpRule backend.cfg.port backend.chain) flushed.2
  match jump.1 with
  | some text => (some (.command text), jump.2)
  | none =>
    let udp := if backend.cfg.dropUDPKnockPort then
        ensureInserted runner cmd inputChain (udpDropRule (udpKnockPort backend.cfg)) jump.2
      else (none, jump.2)
    match udp.1 with
    | some text => (some (.command text), udp.2)
    | none =>
      let established := runIptables runner cmd (.append backend.chain establishedRule) udp.2
      match established.1 with
      | some text => (some (.command text), established.2)
      | none =>
        let drop := runIptables runner cmd
          (.append backend.chain (dropRule backend.cfg.port)) established.2
        (drop.1.map .command, drop.2)

def cleanup (backend : Iptables) (runner : Runner) (host : Host) : Option FirewallError × Host :=
  match validateIptablesConfig backend.chain with
  | some err => (some err, host)
  | none =>
    let first := backend.cleanupCommand runner .iptables host
    if ipv6Enabled backend.cfg runner first.2 then
      let second := backend.cleanupCommand runner .ip6tables first.2
      (joinErrors [first.1, second.1], second.2)
    else first

def cleanupDetached (backend : Iptables) (runner : Runner) (err : FirewallError) (host : Host) :
    Option FirewallError × Host :=
  let cleaned := backend.cleanup runner host
  (joinErrors [some err, cleaned.1], cleaned.2)

def init (backend : Iptables) (runner : Runner) (host : Host) : Option FirewallError × Host :=
  match validateIptablesConfig backend.chain with
  | some err => (some err, host)
  | none =>
    let cleaned := backend.cleanupCommand runner .iptables host
    match cleaned.1 with
    | some err => (some err, cleaned.2)
    | none =>
      let started := backend.initCommand runner .iptables cleaned.2
      match started.1 with
      | some err => backend.cleanupDetached runner err started.2
      | none =>
        if ipv6Enabled backend.cfg runner started.2 then
          let cleaned6 := backend.cleanupCommand runner .ip6tables started.2
          match cleaned6.1 with
          | some err => backend.cleanupDetached runner err cleaned6.2
          | none =>
            let started6 := backend.initCommand runner .ip6tables cleaned6.2
            match started6.1 with
            | some err => backend.cleanupDetached runner err started6.2
            | none => (none, started6.2)
        else (none, started.2)

def allow (backend : Iptables) (runner : Runner) (addr : Addr) (port : Int) (host : Host) :
    Option FirewallError × Host :=
  match validateBoundFirewallPort name backend.cfg.port port with
  | some err => (some err, host)
  | none =>
    if programOf addr = .ip6tables ∧ ipv6Enabled backend.cfg runner host = false then
      (some (.ipv6Unsupported name), host)
    else
      let inserted := ensureInserted runner (programOf addr) backend.chain (acceptRule port addr)
        host
      (inserted.1.map .command, inserted.2)

def isAllowed (backend : Iptables) (runner : Runner) (addr : Addr) (port : Int) (host : Host) :
    Bool × Option FirewallError × Host :=
  match validateBoundFirewallPort name backend.cfg.port port with
  | some err => (false, some err, host)
  | none =>
    if programOf addr = .ip6tables ∧ ipv6Enabled backend.cfg runner host = false then
      (false, none, host)
    else
      let checked := runIptables runner (programOf addr)
        (.check backend.chain (acceptRule port addr)) host
      match checked.1 with
      | none => (true, none, checked.2)
      | some text =>
        (false, if isMissingFirewallObject text then none else some (.command text), checked.2)

def revoke (backend : Iptables) (runner : Runner) (addr : Addr) (port : Int) (host : Host) :
    Option FirewallError × Host :=
  match validateBoundFirewallPort name backend.cfg.port port with
  | some err => (some err, host)
  | none =>
    if programOf addr = .ip6tables ∧ ipv6Enabled backend.cfg runner host = false then (none, host)
    else
      let deleted := runIptables runner (programOf addr)
        (.delete backend.chain (acceptRule port addr)) host
      ((ignoreMissingFirewallObject deleted.1).map .command, deleted.2)

end Iptables

end Libknock.Firewall
