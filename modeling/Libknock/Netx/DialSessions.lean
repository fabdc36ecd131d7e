import Libknock.Foundation.Runs
import Libknock.Protocol.EnvelopeFit
import Libknock.Auth.Handshake

/-!
# Concurrent dials that share a knock sender

`Dialer.DialContext` of `netx/dialer.go`.  A session-bound sender is told the ID of
the session and then asked to knock, in two calls, and one mutex of the package is
held around the two.  Any number of calls run at once, on any dialers; what one of
them does between two accesses to what is shared is one step.  While it knocks, a
sender sends any number of packets, each with the ID that was last set on it.
-/

set_option autoImplicit false

namespace Libknock.Netx

open Foundation Protocol Auth

/-- A sender that is not session-bound is not told the ID. -/
inductive KnockSender (Sender : Type) where
  | plain
  | sessionBound (sender : Sender)

structure Dialer (Sender : Type) where
  config : ClientConfig
  knock : Option (KnockSender Sender)

/-- Why a dial fails: an error of the package `auth`, of the random source, of the
sender or of the base dialer. -/
inductive DialError where
  | auth (failure : AuthError)
  | random
  | knock
  | connect

inductive DialPhase (Sender : Type) where
  | called
  /-- At `sessionBoundKnockSenderMu.Lock()`. -/
  | waiting (sender : Sender)
  /-- The mutex is held, the ID is not yet set. -/
  | locked (sender : Sender)
  | knocking (sender : Sender)
  /-- `Knock` has returned, the mutex is held. -/
  | knocked (sender : Sender) (failed : Bool)
  /-- In the `Knock` of a sender that is not session-bound. -/
  | plainKnock
  | connecting
  | connected (conn : Conn)
  | finished (result : Except DialError Unit)

structure Dial (Sender : Type) where
  dialer : Dialer Sender
  cfg : ClientConfig
  phase : DialPhase Sender

/-- The mutex, and the ID last set on each sender. -/
structure Shared (Sender : Type) where
  holder : Option Nat
  lastSet : Sender → Bytes

inductive DialEvent where
  | prepare (random : Option (FixedBytes 16))
  | lock
  | setSessionID
  /-- A packet of the sender, with the session ID that it carries. -/
  | send (carried : Bytes)
  | knockReturns (failed : Bool)
  | unlock
  | connect (conn : Option Conn)
  /-- `ClientAuth`, with what it writes. -/
  | authenticate (now : Int) (draws : ClientDraws) (written : Bytes)

inductive DialAction (Sender : Type) where
  | call (index : Nat) (dialer : Dialer Sender)
  | step (index : Nat) (event : DialEvent)

structure DialSystem (Sender : Type) where
  dials : Nat → Option (Dial Sender)
  shared : Shared Sender

def DialSystem.initial {Sender : Type} (lastSet : Sender → Bytes) : DialSystem Sender :=
  ⟨fun _ => none, none, lastSet⟩

def drawSessionID (cfg : ClientConfig) (random : Option (FixedBytes 16)) : Option ClientConfig :=
  if cfg.sessionID = [] then random.map fun id => { cfg with sessionID := id.bytes } else some cfg

section Steps

variable {Sender : Type}

def afterKnock (failed : Bool) : DialPhase Sender :=
  if failed then .finished (.error .knock) else .connecting

def DialPhase.holding : DialPhase Sender → Bool
  | .locked _ => true
  | .knocking _ => true
  | .knocked _ _ => true
  | _ => false

namespace Dial

def prepare (random : Option (FixedBytes 16)) (d : Dial Sender) : Dial Sender :=
  let cfg := d.dialer.config.withDefaults
  match cfg.validateRuntime with
  | .error failure => { d with cfg := cfg, phase := .finished (.error (.auth failure)) }
  | .ok () =>
    match d.dialer.knock with
    | none => { d with cfg := cfg, phase := .connecting }
    | some sender =>
      match drawSessionID cfg random with
      | none => { d with cfg := cfg, phase := .finished (.error .random) }
      | some cfg =>
        match sender with
        | .plain => { d with cfg := cfg, phase := .plainKnock }
        | .sessionBound sender => { d with cfg := cfg, phase := .waiting sender }

variable [DecidableEq Sender] (crypto : Crypto)

def step (index : Nat) (shared : Shared Sender) (d : Dial Sender) :
    DialEvent → Option (Dial Sender × Shared Sender)
  | .prepare random =>
    match d.phase with
    | .called => some (d.prepare random, shared)
    | _ => none
  | .lock =>
    match d.phase with
    | .waiting sender =>
      if shared.holder = none then
        some ({ d with phase := .locked sender }, { shared with holder := some index })
      else none
    | _ => none
  | .setSessionID =>
    match d.phase with
    | .locked sender =>
      some ({ d with phase := .knocking sender },
        { shared with lastSet := Function.update shared.lastSet sender d.cfg.sessionID })
    | _ => none
  | .send carried =>
    match d.phase with
    | .knocking sender => if carried = shared.lastSet sender then some (d, shared) else none
    | _ => none
  | .knockReturns failed =>
    match d.phase with
    | .knocking sender => some ({ d with phase := .knocked sender failed }, shared)
    | .plainKnock => some ({ d with phase := afterKnock failed }, shared)
    | _ => none
  | .unlock =>
    match d.phase with
    | .knocked _ failed =>
      some ({ d with phase := afterKnock failed }, { shared with holder := none })
    | _ => none
  | .connect conn =>
    match d.phase with
    | .connecting =>
      match conn with
      | none => some ({ d with phase := .finished (.error .connect) }, shared)
      | some conn => some ({ d with phase := .connected conn }, shared)
    | _ => none
  | .authenticate now draws written =>
    match d.phase with
    | .connected conn =>
      let outcome := clientAuthWithInfo crypto d.cfg conn now draws
      if written = outcome.2 then
        match outcome.1 with
        | .error failure => some ({ d with phase := .finished (.error (.auth failure)) }, shared)
        | .ok _ => some ({ d with phase := .finished (.ok ()) }, shared)
      else none
    | _ => none

end Dial

variable [DecidableEq Sender] (crypto : Crypto)

def dialStep (s : DialSystem Sender) : DialAction Sender → Option (DialSystem Sender)
  | .call index dialer =>
    match s.dials index with
    | some _ => none
    | none =>
      some { s with
        dials := Function.update s.dials index (some ⟨dialer, dialer.config, .called⟩) }
  | .step index event =>
    match s.dials index with
    | none => none
    | some d =>
      match d.step crypto index s.shared event with
      | none => none
      | some (after, shared) =>
        some ⟨Function.update s.dials index (some after), shared⟩

end Steps

/-! ## What a step does -/

section Moves

variable {Sender : Type} [DecidableEq Sender] {crypto : Crypto} {index : Nat}
  {shared nextShared : Shared Sender} {d next : Dial Sender} {event : DialEvent}

variable (crypto index shared d) in
/-- The steps of a call, by the phase in which it stands. -/
inductive Moves : DialEvent → Dial Sender → Shared Sender → Prop
  | prepare (random : Option (FixedBytes 16)) (stands : d.phase = .called) :
      Moves (.prepare random) (d.prepare random) shared
  | lock (sender : Sender) (stands : d.phase = .waiting sender) (free : shared.holder = none) :
      Moves .lock { d with phase := .locked sender } { shared with holder := some index }
  | setSessionID (sender : Sender) (stands : d.phase = .locked sender) :
      Moves .setSessionID { d with phase := .knocking sender }
        { shared with lastSet := Function.update shared.lastSet sender d.cfg.sessionID }
  | send (sender : Sender) (stands : d.phase = .knocking sender) :
      Moves (.send (shared.lastSet sender)) d shared
  | knockReturns (sender : Sender) (failed : Bool) (stands : d.phase = .knocking sender) :
      Moves (.knockReturns failed) { d with phase := .knocked sender failed } shared
  | plainReturns (failed : Bool) (stands : d.phase = .plainKnock) :
      Moves (.knockReturns failed) { d with phase := afterKnock failed } shared
  | unlock (sender : Sender) (failed : Bool) (stands : d.phase = .knocked sender failed) :
      Moves .unlock { d with phase := afterKnock failed } { shared with holder := none }
  | refused (stands : d.phase = .connecting) :
      Moves (.connect none) { d with phase := .finished (.error .connect) } shared
  | connect (conn : Conn) (stands : d.phase = .connecting) :
      Moves (.connect (some conn)) { d with phase := .connected conn } shared
  | authenticate (conn : Conn) (stands : d.phase = .connected conn) (now : Int)
      (draws : ClientDraws) (result : Except DialError Unit) :
      Moves (.authenticate now draws (clientAuthWithInfo crypto d.cfg conn now draws).2)
        { d with phase := .finished result } shared

theorem Dial.step_moves (stepped : d.step crypto index shared event = some (next, nextShared)) :
    Moves crypto index shared d event next nextShared := by
  cases event with
  | prepare random =>
    simp only [Dial.step] at stepped
    split at stepped
    · rename_i stands
      cases stepped
      exact .prepare random stands
    · cases stepped
  | lock =>
    simp only [Dial.step] at stepped
    split at stepped
    · rename_i sender stands
      split at stepped
      · rename_i free
        cases stepped
        exact .lock sender stands free
      · cases stepped
    · cases stepped
  | setSessionID =>
    simp only [Dial.step] at stepped
    split at stepped
    · rename_i sender stands
      cases stepped
      exact .setSessionID sender stands
    · cases stepped
  | send carried =>
    simp only [Dial.step] at stepped
    split at stepped
    · rename_i sender stands
      split at stepped
      · rename_i own
        cases stepped
        rw [own]
        exact .send sender stands
      · cases stepped
    · cases stepped
  | knockReturns failed =>
    simp only [Dial.step] at stepped
    split at stepped
    · rename_i sender stands
      cases stepped
      exact .knockReturns sender failed stands
    · rename_i stands
      cases stepped
      exact .plainReturns failed stands
    · cases stepped
  | unlock =>
    simp only [Dial.step] at stepped
    split at stepped
    · rename_i sender failed stands
      cases stepped
      exact .unlock sender failed stands
    · cases stepped
  | connect conn =>
    simp only [Dial.step] at stepped
    split at stepped
    · rename_i stands
      split at stepped
      · cases stepped
        exact .refused stands
      · rename_i conn
        cases stepped
        exact .connect conn stands
    · cases stepped
  | authenticate now draws written =>
    simp only [Dial.step] at stepped
    split at stepped
    · rename_i conn stands
      split at stepped
      · rename_i own
        split at stepped
        · cases stepped
          rw [own]
          exact .authenticate conn stands now draws _
        · cases stepped
          rw [own]
          exact .authenticate conn stands now draws _
      · cases stepped
    · cases stepped

variable {action : DialAction Sender} {after s : DialSystem Sender}
  {past : List (DialAction Sender)}

theorem dialStep_cases (stepped : dialStep crypto s action = some after) :
    (∃ index dialer, action = .call index dialer ∧ s.dials index = none ∧
        after = { s with
          dials := Function.update s.dials index (some ⟨dialer, dialer.config, .called⟩) }) ∨
      ∃ index event d next shared, action = .step index event ∧ s.dials index = some d ∧
        Moves crypto index s.shared d event next shared ∧
        after = ⟨Function.update s.dials index (some next), shared⟩ := by
  cases action with
  | call index dialer =>
    simp only [dialStep] at stepped
    split at stepped
    · cases stepped
    rename_i absent
    cases stepped
    exact Or.inl ⟨index, dialer, rfl, absent, rfl⟩
  | step index event =>
    simp only [dialStep] at stepped
    split at stepped
    · cases stepped
    rename_i d found
    split at stepped
    · cases stepped
    rename_i next shared moved
    cases stepped
    exact Or.inr ⟨index, event, d, next, shared, rfl, found, Dial.step_moves moved, rfl⟩

section Table

variable {dials : Nat → Option (Dial Sender)} {other : Nat}

omit [DecidableEq Sender] in
theorem update_dials {e : Dial Sender}
    (there : Function.update dials index (some d) other = some e) :
    other = index ∧ e = d ∨ other ≠ index ∧ dials other = some e := by
  rw [Function.update_apply] at there
  split at there
  · rename_i same
    exact Or.inl ⟨same, (Option.some.inj there).symm⟩
  · rename_i apart
    exact Or.inr ⟨apart, there⟩

omit [DecidableEq Sender] in
theorem isSome_update_dials (known : other ≠ index → (dials other).isSome) :
    (Function.update dials index (some d) other).isSome := by
  rw [Function.update_apply]
  split
  · rfl
  · rename_i apart
    exact known apart

end Table

/-! ## The mutex -/

omit [DecidableEq Sender] in
theorem afterKnock_holding (failed : Bool) :
    (afterKnock failed : DialPhase Sender).holding = false := by
  cases failed with
  | true => rfl
  | false => rfl

omit [DecidableEq Sender] in
theorem prepare_holding (random : Option (FixedBytes 16)) (d : Dial Sender) :
    (d.prepare random).phase.holding = false := by
  unfold Dial.prepare
  dsimp only
  split
  · rfl
  split
  · rfl
  split
  · rfl
  split
  · rfl
  · rfl

/-- A call that holds the mutex is its holder, and the sender with which it knocks
has its ID. -/
structure Own (index : Nat) (d : Dial Sender) (shared : Shared Sender) : Prop where
  holds : d.phase.holding = true → shared.holder = some index
  told : ∀ sender, d.phase = .knocking sender → shared.lastSet sender = d.cfg.sessionID

omit [DecidableEq Sender] in
theorem own_of_free (free : d.phase.holding = false) : Own index d shared where
  holds := fun held => by
    rw [free] at held
    cases held
  told := fun sender stands => by
    rw [stands] at free
    cases free

theorem Own.move (own : Own index d shared) (move : Moves crypto index shared d event next nextShared) :
    Own index next nextShared := by
  cases move with
  | prepare random _ => exact own_of_free (prepare_holding random d)
  | lock sender _ _ => exact ⟨fun _ => rfl, nofun⟩
  | setSessionID sender stands =>
    refine ⟨fun _ => own.holds (by rw [stands]; rfl), ?_⟩
    rintro _ ⟨⟩
    exact Function.update_self ..
  | send sender _ => exact own
  | knockReturns sender failed stands =>
    exact ⟨fun _ => own.holds (by rw [stands]; rfl), nofun⟩
  | plainReturns failed _ => exact own_of_free (afterKnock_holding failed)
  | unlock sender failed _ => exact own_of_free (afterKnock_holding failed)
  | refused | connect | authenticate => exact own_of_free rfl

theorem Own.shared_eq (own : Own index d shared)
    (move : Moves crypto index shared d event next nextShared) {other : Nat}
    (held : shared.holder = some other) (apart : other ≠ index) : nextShared = shared := by
  have idle : d.phase.holding = false := by
    cases holding : d.phase.holding with
    | false => rfl
    | true => exact absurd (Option.some.inj (held.symm.trans (own.holds holding))) apart
  cases move with
  | lock sender _ free =>
    rw [held] at free
    cases free
  | setSessionID sender stands =>
    rw [stands] at idle
    cases idle
  | unlock sender failed stands =>
    rw [stands] at idle
    cases idle
  | prepare | send | knockReturns | plainReturns | refused | connect | authenticate => rfl

theorem Own.other (own : Own index d shared)
    (move : Moves crypto index shared d event next nextShared) {other : Nat} {e : Dial Sender}
    (theirs : Own other e shared) (apart : other ≠ index) : Own other e nextShared := by
  cases holding : e.phase.holding with
  | false => exact own_of_free holding
  | true =>
    rw [own.shared_eq move (theirs.holds holding) apart]
    exact theirs

def Serialised (s : DialSystem Sender) : Prop :=
  ∀ index d, s.dials index = some d → Own index d s.shared

theorem Serialised.step (serialised : Serialised s)
    (stepped : dialStep crypto s action = some after) :
    Serialised after := by
  rcases dialStep_cases stepped with
    ⟨index, dialer, _, _, rfl⟩ | ⟨index, event, d, next, shared, _, found, move, rfl⟩
  · intro other e there
    rcases update_dials there with ⟨_, rfl⟩ | ⟨_, earlier⟩
    · exact own_of_free rfl
    · exact serialised other e earlier
  · intro other e there
    rcases update_dials there with ⟨rfl, rfl⟩ | ⟨apart, earlier⟩
    · exact (serialised other d found).move move
    · exact (serialised index d found).other move (serialised other e earlier) apart

/-! ## What a call has sent -/

theorem drawSessionID_cfg {cfg drawn : ClientConfig} {random : Option (FixedBytes 16)}
    (draws : drawSessionID cfg random = some drawn) :
    drawn = { cfg with sessionID := drawn.sessionID } := by
  unfold drawSessionID at draws
  split at draws
  · obtain ⟨id, _, rfl⟩ := Option.map_eq_some_iff.mp draws
    rfl
  · cases draws
    rfl

omit [DecidableEq Sender] in
theorem prepare_keeps (random : Option (FixedBytes 16)) (d : Dial Sender) :
    (d.prepare random).dialer = d.dialer ∧ (d.prepare random).phase ≠ .called ∧
      (d.prepare random).cfg = { d.dialer.config.withDefaults with
        sessionID := (d.prepare random).cfg.sessionID } := by
  unfold Dial.prepare
  dsimp only
  split
  · exact ⟨rfl, nofun, rfl⟩
  split
  · exact ⟨rfl, nofun, rfl⟩
  split
  · exact ⟨rfl, nofun, rfl⟩
  rename_i drawn
  split
  · exact ⟨rfl, nofun, drawSessionID_cfg drawn⟩
  · exact ⟨rfl, nofun, drawSessionID_cfg drawn⟩

omit [DecidableEq Sender] in
theorem afterKnock_ne_called (failed : Bool) :
    (afterKnock failed : DialPhase Sender) ≠ .called := by
  cases failed with
  | true => nofun
  | false => nofun

theorem Moves.keeps (move : Moves crypto index shared d event next nextShared) :
    next.dialer = d.dialer ∧ next.phase ≠ .called ∧ (d.phase ≠ .called → next.cfg = d.cfg) := by
  cases move with
  | prepare random stands =>
    obtain ⟨dialer, prepared, _⟩ := prepare_keeps random d
    exact ⟨dialer, prepared, fun later => absurd stands later⟩
  | lock | setSessionID | knockReturns | refused | connect | authenticate =>
    exact ⟨rfl, nofun, fun _ => rfl⟩
  | send sender stands => exact ⟨rfl, by rw [stands]; nofun, fun _ => rfl⟩
  | plainReturns failed _ => exact ⟨rfl, afterKnock_ne_called failed, fun _ => rfl⟩
  | unlock sender failed _ => exact ⟨rfl, afterKnock_ne_called failed, fun _ => rfl⟩

/-- What the call with this index is now, from what it did so far. -/
structure Account (crypto : Crypto) (past : List (DialAction Sender)) (index : Nat)
    (d : Dial Sender) : Prop where
  called : .call index d.dialer ∈ past
  cfg : d.phase ≠ .called →
    d.cfg = { d.dialer.config.withDefaults with sessionID := d.cfg.sessionID }
  fresh : d.phase = .called → ∀ event, .step index event ∉ past
  sent : ∀ carried, .step index (.send carried) ∈ past → d.cfg.sessionID = carried
  framed : ∀ now draws written, .step index (.authenticate now draws written) ∈ past →
    ∃ conn, written = (clientAuthWithInfo crypto d.cfg conn now draws).2

theorem Account.move (account : Account crypto past index d) (own : Own index d shared)
    (move : Moves crypto index shared d event next nextShared) :
    Account crypto (past ++ [.step index event]) index next := by
  obtain ⟨dialer, prepared, kept⟩ := move.keeps
  -- Before it is prepared a call has done nothing that its configuration could contradict.
  have old : ∀ earlier, .step index earlier ∈ past → next.cfg = d.cfg := by
    intro earlier member
    exact kept fun stands => account.fresh stands earlier member
  refine ⟨?_, ?_, fun stands => absurd stands prepared, ?_, ?_⟩
  · rw [dialer]
    exact List.mem_append_left _ account.called
  · intro _
    rw [dialer]
    by_cases stands : d.phase = .called
    · cases move with
      | prepare random _ => exact (prepare_keeps random d).2.2
      | lock _ other _ | setSessionID _ other | send _ other | knockReturns _ _ other
      | plainReturns _ other | unlock _ _ other | refused other | connect _ other
      | authenticate _ other _ _ _ =>
        rw [other] at stands
        cases stands
    · rw [kept stands]
      exact account.cfg stands
  · intro carried member
    rcases List.mem_append.mp member with earlier | newest
    · rw [old _ earlier]
      exact account.sent carried earlier
    · cases List.mem_singleton.mp newest
      cases move with
      | send sender stands => exact (own.told sender stands).symm
  · intro now draws written member
    rcases List.mem_append.mp member with earlier | newest
    · rw [old _ earlier]
      exact account.framed now draws written earlier
    · cases List.mem_singleton.mp newest
      cases move with
      | authenticate conn _ _ _ result => exact ⟨conn, rfl⟩

omit [DecidableEq Sender] in
theorem Account.other (account : Account crypto past index d)
    (foreign : ∀ event, action ≠ .step index event) :
    Account crypto (past ++ [action]) index d := by
  have old : ∀ event, .step index event ∈ past ++ [action] → .step index event ∈ past := by
    intro event member
    rcases List.mem_append.mp member with earlier | newest
    · exact earlier
    · exact absurd (List.mem_singleton.mp newest).symm (foreign event)
  refine ⟨List.mem_append_left _ account.called, account.cfg, ?_, ?_, ?_⟩
  · intro stands event member
    exact account.fresh stands event (old event member)
  · intro carried member
    exact account.sent carried (old _ member)
  · intro now draws written member
    exact account.framed now draws written (old _ member)

omit [DecidableEq Sender] in
theorem Account.new (dialer : Dialer Sender) (unseen : ∀ event, .step index event ∉ past) :
    Account crypto (past ++ [.call index dialer]) index ⟨dialer, dialer.config, .called⟩ := by
  have still : ∀ event, .step index event ∉ past ++ [.call index dialer] := by
    intro event member
    rcases List.mem_append.mp member with earlier | newest
    · exact unseen event earlier
    · cases List.mem_singleton.mp newest
  refine ⟨?_, fun prepared => absurd rfl prepared, fun _ => still, ?_, ?_⟩
  · exact List.mem_append_right _ (List.mem_singleton_self _)
  · exact fun carried member => absurd member (still _)
  · exact fun now draws written member => absurd member (still _)

structure Recorded (crypto : Crypto) (past : List (DialAction Sender)) (s : DialSystem Sender) :
    Prop where
  account : ∀ index d, s.dials index = some d → Account crypto past index d
  known : ∀ index event, .step index event ∈ past → (s.dials index).isSome

theorem Recorded.step (recorded : Recorded crypto past s) (serialised : Serialised s)
    (stepped : dialStep crypto s action = some after) :
    Recorded crypto (past ++ [action]) after := by
  rcases dialStep_cases stepped with
    ⟨index, dialer, rfl, absent, rfl⟩ | ⟨index, event, d, next, shared, rfl, found, move, rfl⟩
  · refine ⟨?_, ?_⟩
    · intro other e there
      rcases update_dials there with ⟨rfl, rfl⟩ | ⟨_, earlier⟩
      · refine Account.new dialer fun event member => ?_
        have seen := recorded.known other event member
        rw [absent] at seen
        cases seen
      · exact (recorded.account other e earlier).other (nofun)
    · intro other event member
      refine isSome_update_dials fun _ => ?_
      rcases List.mem_append.mp member with earlier | newest
      · exact recorded.known other event earlier
      · cases List.mem_singleton.mp newest
  · refine ⟨?_, ?_⟩
    · intro other e there
      rcases update_dials there with ⟨rfl, rfl⟩ | ⟨apart, earlier⟩
      · exact (recorded.account other d found).move (serialised other d found) move
      · refine (recorded.account other e earlier).other ?_
        rintro _ ⟨⟩
        exact apart rfl
    · intro other later member
      refine isSome_update_dials fun apart => ?_
      rcases List.mem_append.mp member with earlier | newest
      · exact recorded.known other later earlier
      · cases List.mem_singleton.mp newest
        exact absurd rfl apart

theorem run_serialised (lastSet : Sender → Bytes) : ∀ past s,
    Run (Steps (dialStep crypto)) (DialSystem.initial lastSet) past s →
      Serialised s ∧ Recorded crypto past s := by
  apply Run.invariant
  · refine ⟨fun index d there => ?_, fun index d there => ?_, fun index event member => ?_⟩
    · exact absurd there (Option.some_ne_none d).symm
    · exact absurd there (Option.some_ne_none d).symm
    · exact absurd member List.not_mem_nil
  · intro past before action after _ held stepped
    exact ⟨held.1.step stepped, held.2.step held.1 stepped⟩

end Moves

/-! ## The auth frame -/

theorem withDefaults_of_set {c : ClientConfig} (lasting : ¬ c.authTimeout ≤ 0)
    (chosen : c.protocol ≠ .unset) (sized : c.envelopeV2.withDefaults = c.envelopeV2) :
    c.withDefaults = c := by
  unfold ClientConfig.withDefaults
  rw [if_neg lasting, if_neg chosen, sized]

theorem withDefaults_session (config : ClientConfig) (id : Bytes) :
    ({ config.withDefaults with sessionID := id } : ClientConfig).withDefaults =
      { config.withDefaults with sessionID := id } := by
  apply withDefaults_of_set
  · show ¬ (if config.authTimeout ≤ 0 then defaultAuthTimeout else config.authTimeout) ≤ 0
    split
    · decide
    · assumption
  · show (if config.protocol = .unset then defaultAuthProtocol else config.protocol) ≠ .unset
    split
    · decide
    · assumption
  · exact EnvelopeV2Config.withDefaults_withDefaults config.envelopeV2

/-- What `ClientAuth` writes, if anything, is the frame that its builders make. -/
theorem clientAuthWithInfo_written (crypto : Crypto) (config : ClientConfig) (conn : Conn)
    (now : Int) (draws : ClientDraws)
    (wrote : (clientAuthWithInfo crypto config conn now draws).2 ≠ []) :
    ∃ hello, clientHello crypto config.withDefaults
        (effectivePort config.withDefaults.serverPort conn.remoteAddr) now conn.remoteAddr draws =
          .ok hello ∧
      (clientAuthWithInfo crypto config conn now draws).2 = hello.frame := by
  unfold clientAuthWithInfo at wrote ⊢
  dsimp only at wrote ⊢
  split at wrote
  · exact absurd rfl wrote
  rename_i valid
  split at wrote
  · exact absurd rfl wrote
  rename_i hello built
  refine ⟨hello, built, ?_⟩
  split at wrote
  · exact absurd rfl wrote
  split
  · split
    · rfl
    · split
      · rfl
      · rfl
  · rfl

/-- What a server that tries the client's secret makes of the frame. -/
def readWith (crypto : Crypto) (candidate : SecretCandidate) (serverPort : Int) (remote : NetAddr)
    (hello : ClientHello) : Except AuthError PeerInfo :=
  match hello.header with
  | .frameV1 h =>
    authenticateCandidate crypto h (hello.frame.drop headerSize) serverPort remote candidate
  | .envelopeV2 h =>
    authenticateEnvelopeV2Candidate crypto h
      (hello.frame.drop (envelopeV2PrefixLen h.hintMode)) serverPort remote candidate

theorem readWith_clientHello {crypto : Crypto} (sealing : crypto.SealsOpenly) {c : ClientConfig}
    {serverPort now : Int} {clientRemote : NetAddr} {draws : ClientDraws} {hello : ClientHello}
    (built : clientHello crypto c serverPort now clientRemote draws = .ok hello)
    (remote : NetAddr) :
    ∃ peer, readWith crypto ⟨c.clientID, c.secret⟩ serverPort remote hello = .ok peer ∧
      peer.sessionID = c.sessionID := by
  unfold clientHello at built
  dsimp only at built
  split at built
  · split at built
    · cases built
    rename_i frame h options
    cases built
    obtain ⟨payload, body, evidence⟩ := buildEnvelopeV2_ok options
    have sealed_ := (sizes_of_built crypto evidence sealing).1
    refine ⟨newClientEnvelopePeer crypto c h serverPort now (clientFlags c) remote, ?_, rfl⟩
    dsimp only [readWith]
    rw [sealed_]
    exact authenticateEnvelopeV2Candidate_of_built crypto evidence sealing remote
  · split at built
    · cases built
    rename_i frame h options
    cases built
    obtain ⟨plain, evidence⟩ := buildFrame_ok options
    have body : frame.drop headerSize = sealPayload crypto c.secret h plain := by
      rw [evidence.frame, ← encodeHeader_length h, List.drop_left]
    refine ⟨newClientFramePeer crypto c h serverPort now remote, ?_, rfl⟩
    dsimp only [readWith]
    rw [body]
    exact authenticateCandidate_of_built crypto evidence sealing remote

/-! ## The knock and the frame -/

/-- In every interleaving, the session ID that a knock of a call carries is the one
that the call then puts into its auth frame. -/
theorem knock_carries_session_of_frame {Sender : Type} [DecidableEq Sender] (crypto : Crypto)
    (lastSet : Sender → Bytes) (past : List (DialAction Sender)) (s : DialSystem Sender)
    (run : Run (Steps (dialStep crypto)) (DialSystem.initial lastSet) past s) (index : Nat)
    (carried : Bytes) (sent : .step index (.send carried) ∈ past) (now : Int) (draws : ClientDraws)
    (written : Bytes) (framed : .step index (.authenticate now draws written) ∈ past)
    (wrote : written ≠ []) :
    ∃ (dialer : Dialer Sender) (conn : Conn) (hello : ClientHello), .call index dialer ∈ past ∧
      clientHello crypto { dialer.config.withDefaults with sessionID := carried }
        (effectivePort dialer.config.serverPort conn.remoteAddr) now conn.remoteAddr draws =
          .ok hello ∧
      written = hello.frame ∧
      (crypto.SealsOpenly → ∀ remote, ∃ peer,
        readWith crypto ⟨dialer.config.clientID, dialer.config.secret⟩
          (effectivePort dialer.config.serverPort conn.remoteAddr) remote hello = .ok peer ∧
        peer.sessionID = carried) := by
  obtain ⟨_, recorded⟩ := run_serialised lastSet past s run
  obtain ⟨d, found⟩ := Option.isSome_iff_exists.mp (recorded.known index _ sent)
  have account := recorded.account index d found
  obtain ⟨conn, rfl⟩ := account.framed now draws written framed
  obtain ⟨hello, built, frame⟩ := clientAuthWithInfo_written crypto d.cfg conn now draws wrote
  have prepared : d.phase ≠ .called := fun stands => account.fresh stands _ sent
  have cfg := account.cfg prepared
  rw [account.sent carried sent] at cfg
  rw [cfg, withDefaults_session] at built
  refine ⟨d.dialer, conn, hello, account.called, built, frame, ?_⟩
  intro sealing remote
  exact readWith_clientHello sealing built remote

def sampleConfig : ClientConfig :=
  { sampleClient with sessionID := [], requireServerProof := false }

def sampleDialer : Dialer Unit := ⟨sampleConfig, some (.sessionBound ())⟩

def sampleID (byte : UInt8) : FixedBytes 16 := FixedBytes.copy 16 [byte]

def sampleServerConn : Conn := ⟨.nil, .tcp [] 443, Source.ofChunk [], none⟩

def sampleFrame (byte : UInt8) : Bytes :=
  (clientAuthWithInfo keyTagCrypto
    { sampleConfig.withDefaults with sessionID := (sampleID byte).bytes } sampleServerConn 1000000000
    sampleDraws).2

/-- Two calls share a sender; the second waits while the first one knocks. -/
def sampleDials : List (DialAction Unit) :=
  [.call 0 sampleDialer, .call 1 sampleDialer,
    .step 1 (.prepare (some (sampleID 1))), .step 0 (.prepare (some (sampleID 7))),
    .step 0 .lock, .step 0 .setSessionID, .step 0 (.send (sampleID 7).bytes),
    .step 0 (.knockReturns false), .step 0 .unlock,
    .step 1 .lock, .step 0 (.connect (some sampleServerConn)), .step 1 .setSessionID,
    .step 1 (.send (sampleID 1).bytes), .step 1 (.knockReturns false),
    .step 0 (.authenticate 1000000000 sampleDraws (sampleFrame 7)), .step 1 .unlock,
    .step 1 (.connect (some sampleServerConn)),
    .step 1 (.authenticate 1000000000 sampleDraws (sampleFrame 1))]

/-- The first of them is read with its own ID, although the other one has been set on
the sender by then. -/
theorem sample_dials_keep_sessions :
    sampleFrame 7 ≠ [] ∧ sampleFrame 7 ≠ sampleFrame 1 ∧
      ∃ hello, sampleFrame 7 = hello.frame ∧ ∃ port peer,
        readWith keyTagCrypto ⟨sampleConfig.clientID, sampleConfig.secret⟩ port .nil hello =
          .ok peer ∧
        peer.sessionID = (sampleID 7).bytes := by
  have wrote : sampleFrame 7 ≠ [] := by decide +kernel
  obtain ⟨s, run, -⟩ := runSteps_reaches (dialStep keyTagCrypto)
    (DialSystem.initial fun _ : Unit => []) sampleDials (fun _ => True) (by decide +kernel)
  obtain ⟨dialer, conn, hello, called, _, frame, read⟩ :=
    knock_carries_session_of_frame keyTagCrypto (fun _ : Unit => []) sampleDials s run 0
      (sampleID 7).bytes (by simp [sampleDials])
      1000000000 sampleDraws (sampleFrame 7) (by simp [sampleDials]) wrote
  obtain ⟨peer, opened, session⟩ := read keyTagCrypto_sealsOpenly .nil
  have own : dialer = sampleDialer := by simpa [sampleDials] using called
  subst own
  exact ⟨wrote, by decide +kernel, hello, frame, _, peer, opened, session⟩

end Libknock.Netx
