import Libknock.Relay.Session
import Libknock.Foundation.Runs

/-!
# Knock admissions are bounded

Runs of operations on a store under a clock that does not go back.  Every
session of the store is charged to the latest operation that granted its key:
its expiry, its session identifier and its uses, less those spent since, are
the grant's, and nothing has removed it in between.
-/

set_option autoImplicit false

namespace Libknock.Relay

open Foundation Cache
open Auth (PeerInfo AuthError)

/-! ## Runs of a store -/

structure Grant where
  remote : Addr
  clientID : Bytes
  sessionID : Bytes
  port : Int
  ttl : Duration
  uses : Int
  deriving DecidableEq

def Grant.key (grant : Grant) : SessionKey :=
  newSessionKeyForPort grant.remote grant.clientID grant.port

inductive StoreOp where
  | addSessionForPort (grant : Grant)
  | addSession (remote : Addr) (clientID sessionID : Bytes) (ttl : Duration) (uses : Int)
  | checkAndConsume (peer : PeerInfo) (remote : NetAddr)
  | remove (remote : Addr) (clientID : Bytes)
  | removeForPort (remote : Addr) (clientID : Bytes) (port : Int)
  | expire (remote : Addr) (clientID : Bytes)
  | expireForPort (remote : Addr) (clientID : Bytes) (port : Int)

def StoreOp.granted : StoreOp → Option Grant
  | .addSessionForPort grant => some grant
  | .addSession remote clientID sessionID ttl uses =>
    some ⟨remote, clientID, sessionID, 0, ttl, uses⟩
  | _ => none

def StoreOp.ports : StoreOp → List Int
  | .addSessionForPort grant => [grant.port]
  | .checkAndConsume peer _ => [peer.serverPort]
  | .removeForPort _ _ port => [port]
  | .expireForPort _ _ port => [port]
  | _ => []

/-- The operation on a store; the flag tells a `CheckAndConsume` that returned
no error. -/
def StoreOp.apply : StoreOp → Int → KnockSessionStore → Bool × KnockSessionStore
  | .addSessionForPort grant, now, s => (false, s.addSessionForPort grant.remote grant.clientID
      grant.sessionID grant.port grant.ttl grant.uses now)
  | .addSession remote clientID sessionID ttl uses, now, s =>
    (false, s.addSession remote clientID sessionID ttl uses now)
  | .checkAndConsume peer remote, now, s =>
    ((s.checkAndConsume peer remote now).1.isOk, (s.checkAndConsume peer remote now).2)
  | .remove remote clientID, _, s => (false, (s.remove remote clientID).2)
  | .removeForPort remote clientID port, _, s => (false, (s.removeForPort remote clientID port).2)
  | .expire remote clientID, now, s => (false, (s.expire remote clientID now).2)
  | .expireForPort remote clientID port, now, s =>
    (false, (s.expireForPort remote clientID port now).2)

structure StoreEvent where
  op : StoreOp
  now : Int
  consumed : Bool

structure StoreState where
  store : KnockSessionStore
  clock : Int

def storeStep (before : StoreState) (event : StoreEvent) : Option StoreState :=
  let outcome := event.op.apply event.now before.store
  if before.clock ≤ event.now ∧ outcome.1 = event.consumed then some ⟨outcome.2, event.now⟩ else none

theorem storeStep_some (before : StoreState) (event : StoreEvent) (after : StoreState)
    (stepped : Steps storeStep before event after) :
    before.clock ≤ event.now ∧
      event.op.apply event.now before.store = (event.consumed, after.store) ∧
      after.clock = event.now := by
  simp only [Steps, storeStep] at stepped
  split at stepped
  · rename_i taken
    cases stepped
    exact ⟨taken.1, Prod.ext taken.2 rfl, rfl⟩
  · cases stepped

/-! ## Events of one key -/

def grantsKey (key : SessionKey) (event : StoreEvent) : Bool :=
  match event.op.granted with
  | some grant => grant.key = key
  | none => false

def removesKey (key : SessionKey) (event : StoreEvent) : Bool :=
  match event.op with
  | .remove remote clientID => sessionKeyMatches key remote clientID
  | .removeForPort remote clientID port => newSessionKeyForPort remote clientID port = key
  | _ => false

def spendsKey (key : SessionKey) (event : StoreEvent) : Bool :=
  match event.op with
  | .checkAndConsume peer remote =>
    event.consumed ∧ (addrFromNet remote).map
      (fun addr => newSessionKeyForPort addr peer.clientID peer.serverPort) = some key
  | _ => false

/-- The entry is what is left of the grant after the events since. -/
structure ChargedTo (entry : Entry SessionKey Session) (granting : StoreEvent) (grant : Grant)
    (since : List StoreEvent) : Prop where
  granted : granting.op.granted = some grant
  valid : grant.remote.isValid = true
  named : grant.clientID ≠ []
  key : entry.key = grant.key
  latest : ∀ event ∈ since, grantsKey entry.key event = false
  kept : ∀ event ∈ since, removesKey entry.key event = false
  expiry : entry.expiresAt = addDuration granting.now grant.ttl
  session : entry.value.sessionID = grant.sessionID
  balance : entry.value.remaining + since.countP (spendsKey entry.key) = max grant.uses 1
  usable : 0 < entry.value.remaining

def Charged (past : List StoreEvent) (store : KnockSessionStore) : Prop :=
  ∀ entry ∈ store.sessions.order, ∃ earlier granting grant since,
    past = earlier ++ granting :: since ∧ ChargedTo entry granting grant since

/-! ## One operation -/

section

variable {entry : Entry SessionKey Session} {granting event : StoreEvent} {grant : Grant}
  {since : List StoreEvent} (charged : ChargedTo entry granting grant since)
  (noGrant : grantsKey entry.key event = false) (noRemoval : removesKey entry.key event = false)

include charged noGrant noRemoval

theorem ChargedTo.other (noSpend : spendsKey entry.key event = false) :
    ChargedTo entry granting grant (since ++ [event]) := by
  refine { charged with latest := ?_, kept := ?_, balance := ?_ }
  · exact List.forall_mem_append.mpr ⟨charged.latest, List.forall_mem_singleton.mpr noGrant⟩
  · exact List.forall_mem_append.mpr ⟨charged.kept, List.forall_mem_singleton.mpr noRemoval⟩
  · rw [List.countP_append, List.countP_singleton, noSpend]
    simpa using charged.balance

theorem ChargedTo.spent (spend : spendsKey entry.key event = true)
    (more : 1 < entry.value.remaining) :
    ChargedTo { entry with value := { entry.value with remaining := entry.value.remaining - 1 } }
      granting grant (since ++ [event]) := by
  refine ⟨charged.granted, charged.valid, charged.named, charged.key, ?_, ?_, charged.expiry,
    charged.session, ?_, ?_⟩
  · exact List.forall_mem_append.mpr ⟨charged.latest, List.forall_mem_singleton.mpr noGrant⟩
  · exact List.forall_mem_append.mpr ⟨charged.kept, List.forall_mem_singleton.mpr noRemoval⟩
  · have balance := charged.balance
    rw [List.countP_append, List.countP_singleton, spend]
    simp only [if_true]
    push_cast
    omega
  · simp only
    omega

end

variable {past : List StoreEvent} {before : KnockSessionStore}

theorem Charged.keep (charged : Charged past before) (event : StoreEvent)
    (entry : Entry SessionKey Session) (member : entry ∈ before.sessions.order)
    (noGrant : ∀ grant : Grant, entry.key = grant.key → grant.clientID ≠ [] →
      grant.remote.isValid = true → grantsKey entry.key event = false)
    (noRemoval : removesKey entry.key event = false)
    (noSpend : spendsKey entry.key event = false) :
    ∃ earlier granting grant since, past ++ [event] = earlier ++ granting :: since ∧
      ChargedTo entry granting grant since := by
  obtain ⟨earlier, granting, grant, since, rfl, facts⟩ := charged entry member
  refine ⟨earlier, granting, grant, since ++ [event], by simp, ?_⟩
  apply facts.other _ noRemoval noSpend
  exact noGrant grant facts.key facts.named facts.valid

theorem Charged.add (charged : Charged past before) (event : StoreEvent) (grant : Grant)
    (granted : event.op.granted = some grant) (modern : 0 ≤ event.now)
    (noRemoval : ∀ key, removesKey key event = false) (noSpend : ∀ key, spendsKey key event = false) :
    Charged (past ++ [event]) (before.addSessionForPort grant.remote grant.clientID grant.sessionID
      grant.port grant.ttl grant.uses event.now) := by
  intro entry member
  rcases KnockSessionStore.mem_addSessionForPort before member with
    ⟨kept, other⟩ | ⟨named, valid, rfl⟩
  · refine charged.keep event entry kept ?_ (noRemoval _) (noSpend _)
    intro own same ownNamed ownValid
    simp only [grantsKey, granted, decide_eq_false_iff_not]
    intro clash
    have keys : own.key = grant.key := by rw [← same, clash]
    simp only [Grant.key, newSessionKeyForPort, SessionKey.mk.injEq] at keys
    apply other modern
    · rw [← keys.2.1]
      exact ownNamed
    · rw [← keys.1]
      exact ownValid
    · exact clash.symm
  · refine ⟨past, event, grant, [], by simp, ?_⟩
    refine ⟨granted, valid, named, rfl, by simp, by simp, rfl, rfl, ?_, ?_⟩
    · simp only [List.countP_nil]
      split
      · omega
      · omega
    · simp only
      split
      · omega
      · omega

theorem Charged.consume {after : KnockSessionStore} (charged : Charged past before)
    (peer : PeerInfo) (remote : NetAddr) (now : Int) (consumed : Bool)
    (applied : StoreOp.apply (.checkAndConsume peer remote) now before = (consumed, after)) :
    Charged (past ++ [⟨.checkAndConsume peer remote, now, consumed⟩]) after := by
  intro entry member
  simp only [StoreOp.apply, Prod.mk.injEq] at applied
  obtain ⟨flag, next⟩ := applied
  cases outcome : before.checkAndConsume peer remote now with
  | mk result store =>
    rw [outcome] at flag next
    subst next
    cases result with
    | error failure =>
      subst flag
      have kept := (KnockSessionStore.mem_checkAndConsume_error before outcome entry).1 member
      exact charged.keep _ entry kept (fun _ _ _ _ => rfl) rfl (by simp [spendsKey, Except.isOk,
        Except.toBool])
    | ok nothing =>
      subst flag
      obtain ⟨addr, stored, known, admits, rfl⟩ :=
        (KnockSessionStore.checkAndConsume_ok_iff before peer remote now store).mp outcome
      rcases (KnockSessionStore.mem_consumeUse before admits.stored).mp member with
        ⟨kept, other⟩ | ⟨more, rfl⟩
      · refine charged.keep _ entry kept (fun _ _ _ _ => rfl) rfl ?_
        simp only [spendsKey, known, Option.map_some, Option.some.injEq, ← admits.key,
          decide_eq_false_iff_not]
        intro spends
        exact other spends.2.symm
      · obtain ⟨earlier, granting, grant, since, rfl, facts⟩ := charged stored admits.stored
        refine ⟨earlier, granting, grant,
          since ++ [⟨.checkAndConsume peer remote, now, true⟩], by simp; rfl, ?_⟩
        apply facts.spent rfl rfl _ more
        simp [spendsKey, known, admits.key]

theorem Charged.step {before after : StoreState} {event : StoreEvent}
    (charged : Charged past before.store) (modern : 0 ≤ before.clock)
    (next : Steps storeStep before event after) : Charged (past ++ [event]) after.store := by
  obtain ⟨op, now, consumed⟩ := event
  obtain ⟨store, clock⟩ := after
  obtain ⟨ordered, applied, _⟩ := storeStep_some before _ _ next
  simp only at ordered applied
  have present : 0 ≤ now := modern.trans ordered
  cases op with
  | addSessionForPort grant =>
    cases applied
    exact charged.add _ grant rfl present (fun _ => rfl) (fun _ => rfl)
  | addSession remote clientID sessionID ttl uses =>
    cases applied
    exact charged.add _ ⟨remote, clientID, sessionID, 0, ttl, uses⟩ rfl present (fun _ => rfl)
      (fun _ => rfl)
  | checkAndConsume peer remote => exact charged.consume peer remote now consumed applied
  | remove remote clientID =>
    cases applied
    intro entry member
    obtain ⟨kept, other⟩ := TTLLRU.mem_deleteWhere.mp member
    exact charged.keep _ entry kept (fun _ _ _ _ => rfl) other rfl
  | removeForPort remote clientID port =>
    cases applied
    intro entry member
    obtain ⟨kept, other⟩ := TTLLRU.mem_delete.mp member
    exact charged.keep _ entry kept (fun _ _ _ _ => rfl) (decide_eq_false (Ne.symm other)) rfl
  | expire | expireForPort =>
    cases applied
    intro entry member
    obtain ⟨kept, _⟩ := TTLLRU.mem_deleteWhere.mp member
    exact charged.keep _ entry kept (fun _ _ _ _ => rfl) rfl rfl

theorem run_charged (limit clock : Int) (modern : 0 ≤ clock) (past : List StoreEvent)
    (state : StoreState)
    (run : Run (Steps storeStep) ⟨KnockSessionStore.newWithLimit limit, clock⟩ past state) :
    Charged past state.store ∧ 0 ≤ state.clock := by
  apply Run.invariant (fun past state => Charged past state.store ∧ 0 ≤ state.clock) _ _ past state
    run
  · refine ⟨?_, modern⟩
    intro entry member
    simp [KnockSessionStore.newWithLimit, TTLLRU.new] at member
  · rintro past before event after - ⟨charged, present⟩ next
    refine ⟨charged.step present next, ?_⟩
    obtain ⟨ordered, _, same⟩ := storeStep_some before event after next
    rw [same]
    exact present.trans ordered

/-! ## Admissions -/

def SameSlot (addr : Addr) (peer : PeerInfo) (grant : Grant) : Prop :=
  grant.remote = addr ∧ grant.clientID = peer.clientID ∧ grant.port = peer.serverPort

def RemovesSlot (addr : Addr) (peer : PeerInfo) : StoreOp → Prop
  | .remove remote clientID => remote = addr ∧ clientID = peer.clientID
  | .removeForPort remote clientID port =>
    remote = addr ∧ clientID = peer.clientID ∧ port = peer.serverPort
  | _ => False

def spendsSlot (addr : Addr) (peer : PeerInfo) (event : StoreEvent) : Bool :=
  match event.op with
  | .checkAndConsume other remote => event.consumed ∧ addrFromNet remote = some addr ∧
      other.clientID = peer.clientID ∧ other.serverPort = peer.serverPort
  | _ => false

theorem newSessionKeyForPort_inj (left right : Addr) (leftID rightID : Bytes)
    (leftPort rightPort : Int) (leftRange : 0 ≤ leftPort ∧ leftPort ≤ 65535)
    (rightRange : 0 ≤ rightPort ∧ rightPort ≤ 65535)
    (same : newSessionKeyForPort left leftID leftPort =
      newSessionKeyForPort right rightID rightPort) :
    left = right ∧ leftID = rightID ∧ leftPort = rightPort := by
  simp only [newSessionKeyForPort, SessionKey.mk.injEq] at same
  rw [if_neg (by omega), if_neg (by omega)] at same
  refine ⟨same.1, same.2.1, ?_⟩
  have ports := congrArg UInt16.toNat same.2.2
  simp only [UInt16.toNat_ofNat'] at ports
  omega

theorem StoreOp.granted_port (op : StoreOp) (grant : Grant) (granted : op.granted = some grant) :
    grant.port ∈ op.ports ∨ grant.port = 0 := by
  cases op with
  | addSessionForPort given =>
    cases granted
    exact Or.inl (List.mem_singleton_self _)
  | addSession remote clientID sessionID ttl uses =>
    cases granted
    exact Or.inr rfl
  | _ => cases granted

theorem removesKey_of_slot (addr : Addr) (peer : PeerInfo) (event : StoreEvent)
    (removes : RemovesSlot addr peer event.op) :
    removesKey (newSessionKeyForPort addr peer.clientID peer.serverPort) event = true := by
  unfold RemovesSlot at removes
  split at removes
  · rename_i remote clientID op
    simp [removesKey, op, sessionKeyMatches, newSessionKeyForPort, removes.1, removes.2]
  · rename_i remote clientID port op
    simp [removesKey, op, removes.1, removes.2.1, removes.2.2]
  · cases removes

/-- A successful `CheckAndConsume` is charged to the latest grant for the same
address, client and port: it comes less than the grant's lifetime after it, is
one of at most its uses, finds no removal in between, and carries its session
identifier. -/
theorem checkAndConsume_charged (limit clock : Int) (modern : 0 ≤ clock)
    (past future : List StoreEvent) (peer : PeerInfo) (remote : NetAddr) (now : Int)
    (last : StoreState)
    (run : Run (Steps storeStep) ⟨KnockSessionStore.newWithLimit limit, clock⟩
      (past ++ ⟨.checkAndConsume peer remote, now, true⟩ :: future) last)
    (ports : ∀ event ∈ past, ∀ port ∈ event.op.ports, 0 ≤ port ∧ port ≤ 65535)
    (peerPort : 0 ≤ peer.serverPort ∧ peer.serverPort ≤ 65535) :
    ∃ addr earlier granting grant since, addrFromNet remote = some addr ∧
      past = earlier ++ granting :: since ∧ granting.op.granted = some grant ∧
      SameSlot addr peer grant ∧
      (∀ event ∈ since, ∀ other, event.op.granted = some other → ¬ SameSlot addr peer other) ∧
      (∀ event ∈ since, ¬ RemovesSlot addr peer event.op) ∧
      now < addDuration granting.now grant.ttl ∧
      ((since.countP (spendsSlot addr peer) + 1 : Nat) : Int) ≤ max grant.uses 1 ∧
      (grant.sessionID ≠ [] → peer.sessionID = grant.sessionID) := by
  obtain ⟨before, after, early, step, _⟩ := run.split
  obtain ⟨charged, _⟩ := run_charged limit clock modern past before early
  obtain ⟨_, applied, _⟩ := storeStep_some before _ after step
  simp only [StoreOp.apply, Prod.mk.injEq] at applied
  obtain ⟨addr, entry, known, admits⟩ : ∃ addr entry, addrFromNet remote = some addr ∧
      before.store.Admits addr peer now entry := by
    cases outcome : before.store.checkAndConsume peer remote now with
    | mk result store =>
      rw [outcome] at applied
      cases result with
      | error failure => cases applied.1
      | ok nothing =>
        obtain ⟨addr, entry, known, admits, _⟩ :=
          (KnockSessionStore.checkAndConsume_ok_iff _ peer remote now store).mp outcome
        exact ⟨addr, entry, known, admits⟩
  obtain ⟨earlier, granting, grant, since, rfl, facts⟩ := charged entry admits.stored
  have slotKey : ∀ other : Grant, SameSlot addr peer other → other.key = entry.key := by
    intro other slot
    rw [admits.key, Grant.key, slot.1, slot.2.1, slot.2.2]
  refine ⟨addr, earlier, granting, grant, since, known, rfl, facts.granted, ?_, ?_, ?_, ?_, ?_, ?_⟩
  · have grantPort : 0 ≤ grant.port ∧ grant.port ≤ 65535 := by
      rcases StoreOp.granted_port granting.op grant facts.granted with listed | wildcard
      · exact ports granting (by simp) grant.port listed
      · omega
    exact newSessionKeyForPort_inj _ _ _ _ _ _ grantPort peerPort
      (facts.key.symm.trans admits.key)
  · intro event member other granted slot
    have clear := facts.latest event member
    simp only [grantsKey, granted, decide_eq_false_iff_not] at clear
    exact clear (slotKey other slot)
  · intro event member removes
    have clear := facts.kept event member
    rw [admits.key, removesKey_of_slot addr peer event removes] at clear
    cases clear
  · rw [← facts.expiry]
    exact of_decide_eq_true admits.live
  · have counted : since.countP (spendsSlot addr peer) ≤ since.countP (spendsKey entry.key) := by
      apply List.countP_mono_left
      intro event _ spends
      unfold spendsSlot at spends
      split at spends
      · rename_i other from_ op
        obtain ⟨flag, source, sameID, samePort⟩ := of_decide_eq_true spends
        simp only [spendsKey, op, source, Option.map_some, admits.key, sameID, samePort, flag,
          and_self, decide_true]
      · cases spends
    have balance := facts.balance
    have usable := facts.usable
    push_cast
    omega
  · intro bound
    rw [← facts.session]
    exact (admits.session (by rw [facts.session]; exact bound)).symm

def sampleAddr : Addr := .v4 (FixedBytes.copy 4 [192, 0, 2, 1])

def sampleRemote : NetAddr := .tcp [192, 0, 2, 1] 50000

def sampleAdmitted (clientID sessionID : Bytes) : PeerInfo where
  clientID := clientID
  clientIDHash := FixedBytes.copy 16 []
  keyHint := 0
  nonce := []
  timestamp := 0
  serverPort := 443
  method := []
  sessionID := sessionID
  extensions := []
  remoteAddr := sampleRemote
  protocol := .unset
  flags := 0

def sampleGrant (sessionID : Bytes) : Grant :=
  ⟨sampleAddr, ascii "client", sessionID, 443, second * 60, 1⟩

def sampleKnocked (sessionID : Bytes) (now : Int) : StoreEvent :=
  ⟨.addSessionForPort (sampleGrant sessionID), now, false⟩

def sampleSpent (sessionID : Bytes) (now : Int) : StoreEvent :=
  ⟨.checkAndConsume (sampleAdmitted (ascii "client") sessionID) sampleRemote, now, true⟩

theorem checkAndConsume_charged_sample :
    ∃ last, Run (Steps storeStep) ⟨KnockSessionStore.newWithLimit 16, 0⟩
        ([sampleKnocked (ascii "s") 1000000000] ++ [sampleSpent (ascii "s") 2000000000]) last ∧
      ∃ earlier granting grant since,
        [sampleKnocked (ascii "s") 1000000000] = earlier ++ granting :: since ∧
        granting.op.granted = some grant ∧ 2000000000 < addDuration granting.now grant.ttl := by
  obtain ⟨last, run, -⟩ := runSteps_reaches storeStep ⟨KnockSessionStore.newWithLimit 16, 0⟩
    ([sampleKnocked (ascii "s") 1000000000] ++ [sampleSpent (ascii "s") 2000000000])
    (fun _ => True) (by decide +kernel)
  refine ⟨last, run, ?_⟩
  obtain ⟨_, earlier, granting, grant, since, _, split, granted, _, _, _, inTime, _⟩ :=
    checkAndConsume_charged 16 0 (by decide) [_] [] _ sampleRemote 2000000000 last run (by decide)
      (by decide)
  exact ⟨earlier, granting, grant, since, split, granted, inTime⟩

end Libknock.Relay
