import Libknock.Relay.Admission

/-!
# Dials that share a slot

The gate's session-only mode: every accepted knock adds a session, every
authentication consumes one, and timers expire them.  A knock's session stays
in the store while it is live and has uses left, until the next knock of the
same client from the same address takes its slot.
-/

set_option autoImplicit false

namespace Libknock.Relay

open Foundation Cache
open Auth (PeerInfo AuthError)

/-! ## The gate -/

def KnockConfig.grant (cfg : KnockConfig) (remote : Addr) (clientID sessionID : Bytes) : Grant :=
  ⟨remote, clientID, sessionID, cfg.port, cfg.ttl, cfg.maxConnectionsPerKnock⟩

/-- What `knockSessionOnlyHandler` adds to the store for a knock. -/
def knockSessionOnlyHandler (cfg : KnockConfig) (ev : KnockEvent) : Option Grant :=
  (addrFromIP ev.sourceIP).map fun remote => cfg.grant remote ev.clientID ev.sessionID

/-- The operations of the gate on its store: knocks by the handler, while fewer
sessions are live than the store holds, authentications and expiry timers. -/
def DialStep (cfg : KnockConfig) (state : StoreState) (event : StoreEvent) : Prop :=
  match event.op with
  | .addSessionForPort grant => grant = cfg.grant grant.remote grant.clientID grant.sessionID ∧
      grant.remote.isValid = true ∧ grant.clientID ≠ [] ∧
      state.store.sessions.activeLen event.now < state.store.sessions.maxEntries
  | .checkAndConsume _ _ => True
  | .expireForPort _ _ _ => True
  | _ => False

instance (cfg : KnockConfig) (state : StoreState) :
    (event : StoreEvent) → Decidable (DialStep cfg state event)
  | ⟨.addSessionForPort grant, now, _⟩ => inferInstanceAs (Decidable
      (grant = cfg.grant grant.remote grant.clientID grant.sessionID ∧
        grant.remote.isValid = true ∧ grant.clientID ≠ [] ∧
        state.store.sessions.activeLen now < state.store.sessions.maxEntries))
  | ⟨.checkAndConsume _ _, _, _⟩ => isTrue trivial
  | ⟨.expireForPort _ _ _, _, _⟩ => isTrue trivial
  | ⟨.addSession _ _ _ _ _, _, _⟩ => isFalse id
  | ⟨.remove _ _, _, _⟩ => isFalse id
  | ⟨.removeForPort _ _ _, _, _⟩ => isFalse id
  | ⟨.expire _ _, _, _⟩ => isFalse id

theorem addrFromSlice_unmap_valid {ip : Bytes} {addr : Addr}
    (known : (Addr.addrFromSlice ip).map Addr.unmap = some addr) : addr.isValid = true := by
  unfold Addr.addrFromSlice at known
  split at known
  · cases known
    rfl
  · split at known
    · simp only [Option.map_some, Addr.unmap, Option.some.injEq] at known
      split at known
      · rw [← known]
        rfl
      · rw [← known]
        rfl
    · cases known

/-- A knock of a named client is a step of the gate while there is room. -/
theorem knockSessionOnlyHandler_dials (cfg : KnockConfig) (ev : KnockEvent) (grant : Grant)
    (handled : knockSessionOnlyHandler cfg ev = some grant) (named : ev.clientID ≠ [])
    (state : StoreState) (now : Int)
    (room : state.store.sessions.activeLen now < state.store.sessions.maxEntries) :
    DialStep cfg state ⟨.addSessionForPort grant, now, false⟩ := by
  obtain ⟨remote, known, rfl⟩ := Option.map_eq_some_iff.mp handled
  exact ⟨rfl, addrFromSlice_unmap_valid known, named, room⟩

/-! ## A session stays until it is used up, expires or is replaced -/

def usesSession (grant : Grant) (event : StoreEvent) : Bool :=
  spendsKey grant.key event && match event.op with
    | .checkAndConsume peer _ => decide (peer.sessionID = grant.sessionID)
    | _ => false

def Remains (past : List StoreEvent) (state : StoreState) : Prop :=
  ∀ (earlier since : List StoreEvent) (knocked : StoreEvent) (grant : Grant),
    past = earlier ++ knocked :: since → knocked.op.granted = some grant → grant.sessionID ≠ [] →
    (∀ event ∈ since, grantsKey grant.key event = false) →
    state.clock < addDuration knocked.now grant.ttl →
    (since.countP (usesSession grant) : Int) < max grant.uses 1 →
    (⟨grant.key, ⟨max grant.uses 1 - since.countP (usesSession grant), grant.port, grant.sessionID⟩,
      addDuration knocked.now grant.ttl⟩ : Entry SessionKey Session) ∈ state.store.sessions.order

structure Dialed (cfg : KnockConfig) (past : List StoreEvent) (state : StoreState) : Prop where
  modern : 0 ≤ state.clock
  ordered : state.store.sessions.ExpiryOrdered
  recent : ∀ entry ∈ state.store.sessions.order, entry.expiresAt ≤ addDuration state.clock cfg.ttl
  remains : Remains past state

variable {cfg : KnockConfig}

variable {before after : StoreState} {past : List StoreEvent}

theorem recent_of_expiries (recent : ∀ entry ∈ before.store.sessions.order,
      entry.expiresAt ≤ addDuration before.clock cfg.ttl) (ordered : before.clock ≤ after.clock)
    (sublist : after.store.expiries.Sublist before.store.expiries) :
    ∀ entry ∈ after.store.sessions.order, entry.expiresAt ≤ addDuration after.clock cfg.ttl := by
  intro entry member
  obtain ⟨old, oldMember, same⟩ := List.mem_map.mp
    (sublist.subset (List.mem_map_of_mem member : entry.expiresAt ∈ after.store.expiries))
  have bound := recent old oldMember
  rw [← same]
  unfold addDuration at bound ⊢
  omega

theorem Remains.keep {event : StoreEvent} (remains : Remains past before)
    (clock : before.clock ≤ event.now) (same : after.clock = event.now)
    (noGrant : event.op.granted = none) (noUse : ∀ grant, usesSession grant event = false)
    (survives : ∀ entry ∈ before.store.sessions.order, entry.live event.now = true →
      entry ∈ after.store.sessions.order) :
    Remains (past ++ [event]) after := by
  intro earlier since knocked grant split granted bound latest inTime unused
  rcases snoc_eq_append_cons split with ⟨rfl, rfl, rfl⟩ | ⟨front, rfl, rfl⟩
  · rw [noGrant] at granted
    cases granted
  · rw [List.countP_append, List.countP_singleton, noUse] at unused ⊢
    simp only [Bool.false_eq_true, if_false, Nat.add_zero] at unused ⊢
    rw [same] at inTime
    apply survives
    · exact remains earlier front knocked grant rfl granted bound
        (fun other member => latest other (List.mem_append_left _ member))
        (Int.lt_of_le_of_lt clock inTime) unused
    · exact decide_eq_true inTime

theorem Remains.knock (dialed : Dialed cfg past before) (grant : Grant) (now : Int)
    (clock : before.clock ≤ now) (valid : grant.remote.isValid = true) (named : grant.clientID ≠ [])
    (room : before.store.sessions.activeLen now < before.store.sessions.maxEntries) :
    Remains (past ++ [⟨.addSessionForPort grant, now, false⟩])
      ⟨before.store.addSessionForPort grant.remote grant.clientID grant.sessionID grant.port
        grant.ttl grant.uses now, now⟩ := by
  intro earlier since knocked kept split granted bound latest inTime unused
  simp only [KnockSessionStore.addSessionForPort_sessions before.store
    grant.sessionID grant.port grant.ttl grant.uses valid named (dialed.modern.trans clock)]
  rcases snoc_eq_append_cons split with ⟨rfl, rfl, rfl⟩ | ⟨front, rfl, rfl⟩
  · cases granted
    have uses : max grant.uses 1 - ((([] : List StoreEvent).countP (usesSession grant) : Nat) : Int) =
        if grant.uses ≤ 0 then 1 else grant.uses := by
      simp only [List.countP_nil]
      split
      · omega
      · omega
    rw [uses]
    exact TTLLRU.mem_setLocked_self
  · rw [List.countP_append, List.countP_singleton] at unused ⊢
    simp only [usesSession, spendsKey, Bool.false_and, Bool.false_eq_true, if_false,
      Nat.add_zero] at unused ⊢
    have other : kept.key ≠ grant.key := by
      have clear := latest _ (List.mem_append_right _ (List.mem_singleton_self _))
      simp only [grantsKey, StoreOp.granted, decide_eq_false_iff_not] at clear
      exact fun clash => clear clash.symm
    apply TTLLRU.mem_setLocked_of_live _ _ _ now _ dialed.ordered room
    · exact dialed.remains earlier front knocked kept rfl granted bound
        (fun event member => latest event (List.mem_append_left _ member))
        (Int.lt_of_le_of_lt clock inTime) unused
    · exact decide_eq_true inTime
    · exact other

theorem Remains.use (remains : Remains past before) {peer : PeerInfo} {remote : NetAddr} {now : Int}
    (clock : before.clock ≤ now) {addr : Addr} {stored : Entry SessionKey Session}
    (known : addrFromNet remote = some addr) (admits : before.store.Admits addr peer now stored) :
    Remains (past ++ [⟨.checkAndConsume peer remote, now, true⟩])
      ⟨before.store.consumeUse stored.key stored.value, now⟩ := by
  intro earlier since knocked grant split granted bound latest inTime unused
  rcases snoc_eq_append_cons split with ⟨rfl, rfl, rfl⟩ | ⟨front, rfl, rfl⟩
  · cases granted
  have present := remains earlier front knocked grant rfl granted bound
    (fun other member => latest other (List.mem_append_left _ member))
    (Int.lt_of_le_of_lt clock inTime)
    (Int.lt_of_le_of_lt (Int.ofNat_le.mpr (by simp [List.countP_append])) unused)
  apply (KnockSessionStore.mem_consumeUse before.store admits.stored).mpr
  have spends : ∀ key, spendsKey key ⟨.checkAndConsume peer remote, now, true⟩ =
      decide (stored.key = key) := by
    intro key
    simp [spendsKey, known, admits.key]
  by_cases same : stored.key = grant.key
  · right
    have found := before.store.sessions.eq_of_key_eq admits.stored present same
    have carried : peer.sessionID = grant.sessionID := by
      have session := admits.session
      rw [found] at session
      exact (session bound).symm
    have counted : usesSession grant ⟨.checkAndConsume peer remote, now, true⟩ = true := by
      simp [usesSession, spends, same, carried]
    rw [List.countP_append, List.countP_singleton, counted] at unused ⊢
    simp only [if_true] at unused ⊢
    push_cast at unused ⊢
    rw [found]
    refine ⟨by simp only; omega, ?_⟩
    simp only [Entry.mk.injEq, Session.mk.injEq, true_and, and_true]
    omega
  · left
    have uncounted : usesSession grant ⟨.checkAndConsume peer remote, now, true⟩ = false := by
      simp [usesSession, spends, same]
    rw [List.countP_append, List.countP_singleton, uncounted]
    simp only [Bool.false_eq_true, if_false, Nat.add_zero]
    exact ⟨present, fun clash => same clash.symm⟩

/-! ## Runs of the gate -/

theorem Dialed.knock (dialed : Dialed cfg past before) (grant : Grant) (now : Int)
    (clock : before.clock ≤ now)
    (uniform : grant = cfg.grant grant.remote grant.clientID grant.sessionID)
    (valid : grant.remote.isValid = true) (named : grant.clientID ≠ [])
    (room : before.store.sessions.activeLen now < before.store.sessions.maxEntries) :
    Dialed cfg (past ++ [⟨.addSessionForPort grant, now, false⟩])
      ⟨before.store.addSessionForPort grant.remote grant.clientID grant.sessionID grant.port
        grant.ttl grant.uses now, now⟩ := by
  have lifetime : grant.ttl = cfg.ttl := by
    rw [uniform]
    rfl
  have early : ∀ entry ∈ before.store.sessions.order,
      entry.expiresAt ≤ addDuration now grant.ttl := by
    intro entry member
    have bound := dialed.recent entry member
    rw [lifetime]
    unfold addDuration at bound ⊢
    omega
  have sessions := KnockSessionStore.addSessionForPort_sessions before.store grant.sessionID
    grant.port grant.ttl grant.uses valid named
    (dialed.modern.trans clock)
  refine ⟨dialed.modern.trans clock, ?_, ?_, Remains.knock dialed grant now clock valid named room⟩
  · simp only [sessions]
    exact TTLLRU.setLocked_expiryOrdered _ _ _ _ dialed.ordered early
  · intro entry member
    simp only [sessions] at member
    rw [← lifetime]
    rcases TTLLRU.mem_of_mem_setLocked member with rfl | ⟨kept, _⟩
    · exact Int.le_refl _
    · exact early entry kept

theorem Dialed.authenticate (dialed : Dialed cfg past before) (peer : PeerInfo) (remote : NetAddr)
    (now : Int) (consumed : Bool) (clock : before.clock ≤ now)
    (applied : StoreOp.apply (.checkAndConsume peer remote) now before.store =
      (consumed, after.store)) (same : after.clock = now) :
    Dialed cfg (past ++ [⟨.checkAndConsume peer remote, now, consumed⟩]) after := by
  obtain ⟨store, instant⟩ := after
  simp only [StoreOp.apply, Prod.mk.injEq] at applied same
  subst same
  have sublist := before.store.checkAndConsume_expiries peer remote instant
  rw [applied.2] at sublist
  refine ⟨dialed.modern.trans clock, dialed.ordered.sublist sublist,
    recent_of_expiries dialed.recent clock sublist, ?_⟩
  cases outcome : before.store.checkAndConsume peer remote instant with
  | mk result next =>
    rw [outcome] at applied
    obtain ⟨rfl, rfl⟩ := applied
    cases result with
    | error failure =>
      apply dialed.remains.keep clock rfl rfl
      · intro grant
        simp [usesSession, spendsKey, Except.isOk, Except.toBool]
      · intro entry member live
        exact (KnockSessionStore.mem_checkAndConsume_error before.store outcome entry).2 member live
    | ok nothing =>
      obtain ⟨addr, stored, known, admits, rfl⟩ :=
        (KnockSessionStore.checkAndConsume_ok_iff before.store peer remote instant next).mp
          outcome
      exact dialed.remains.use clock known admits

theorem Dialed.step {event : StoreEvent} (dialed : Dialed cfg past before)
    (next : Along (DialStep cfg) (Steps storeStep) before event after) :
    Dialed cfg (past ++ [event]) after := by
  obtain ⟨stepped, allowed⟩ := next
  obtain ⟨clock, applied, same⟩ := storeStep_some before event after stepped
  obtain ⟨op, now, consumed⟩ := event
  cases op with
  | addSessionForPort grant =>
    obtain ⟨uniform, valid, named, room⟩ := allowed
    obtain ⟨store, instant⟩ := after
    cases applied
    cases same
    exact dialed.knock grant now clock uniform valid named room
  | checkAndConsume peer remote =>
    exact dialed.authenticate peer remote now consumed clock applied same
  | expireForPort remote clientID port =>
    obtain ⟨store, instant⟩ := after
    cases applied
    cases same
    have sublist : (before.store.expireForPort remote clientID port now).2.expiries.Sublist
        before.store.expiries := List.filter_sublist.map _
    refine ⟨dialed.modern.trans clock, dialed.ordered.sublist sublist,
      recent_of_expiries dialed.recent clock sublist, ?_⟩
    apply dialed.remains.keep clock rfl rfl (fun _ => rfl)
    intro entry member live
    apply TTLLRU.mem_deleteWhere.mpr
    exact ⟨member, by simp only at live; simp [live]⟩
  | _ => cases allowed

theorem run_dialed (cfg : KnockConfig) (limit clock : Int) (modern : 0 ≤ clock)
    (past : List StoreEvent) (state : StoreState)
    (run : Run (Along (DialStep cfg) (Steps storeStep))
      ⟨KnockSessionStore.newWithLimit limit, clock⟩ past state) : Dialed cfg past state := by
  apply Run.invariant (Dialed cfg) _ _ past state run
  · refine ⟨modern, List.Pairwise.nil, ?_, ?_⟩
    · intro entry member
      cases member
    · intro earlier since knocked grant split
      simp at split
  · intro past before event after _ dialed next
    exact dialed.step next

/-- An authentication that carries the session identifier of a knock still live
and with uses left passes exactly when no other knock of that client, address
and port came after it. -/
theorem dial_passes_iff (cfg : KnockConfig) (limit clock : Int) (modern : 0 ≤ clock)
    (earlier since : List StoreEvent) (knocked : StoreEvent) (state : StoreState)
    (run : Run (Along (DialStep cfg) (Steps storeStep))
      ⟨KnockSessionStore.newWithLimit limit, clock⟩ (earlier ++ knocked :: since) state)
    (grant : Grant) (granted : knocked.op.granted = some grant) (bound : grant.sessionID ≠ [])
    (own : ∀ event ∈ since, ∀ other, event.op.granted = some other → other.key = grant.key →
      other.sessionID ≠ [] ∧ other.sessionID ≠ grant.sessionID)
    (peer : PeerInfo) (remote : NetAddr) (source : addrFromNet remote = some grant.remote)
    (client : peer.clientID = grant.clientID) (port : peer.serverPort = grant.port)
    (session : peer.sessionID = grant.sessionID) (now : Int) (ordered : state.clock ≤ now)
    (inTime : now < addDuration knocked.now grant.ttl)
    (unused : (since.countP (usesSession grant) : Int) < max grant.uses 1) :
    (state.store.checkAndConsume peer remote now).1 = .ok () ↔
      ∀ event ∈ since, grantsKey grant.key event = false := by
  have key : newSessionKeyForPort grant.remote peer.clientID peer.serverPort = grant.key := by
    rw [client, port, Grant.key]
  constructor
  · intro passes
    by_contra replaced
    push Not at replaced
    obtain ⟨addr, entry, known, admits, _⟩ :=
      (KnockSessionStore.checkAndConsume_ok_iff state.store peer remote now _).mp
        (Prod.ext passes rfl)
    rw [source] at known
    cases known
    obtain ⟨charged, _⟩ := run_charged limit clock modern _ state (run.mono fun _ _ _ next => next.1)
    obtain ⟨front, granting, latest, back, split, facts⟩ := charged entry admits.stored
    have entryKey : entry.key = grant.key := admits.key.trans key
    have after : granting ∈ since := by
      apply latest_after split (grantsKey grant.key)
      · obtain ⟨event, member, grants⟩ := replaced
        exact ⟨event, member, by simpa using grants⟩
      · intro event member
        rw [← entryKey]
        exact facts.latest event member
    obtain ⟨named, different⟩ := own granting after latest facts.granted
      (facts.key.symm.trans entryKey)
    apply different
    rw [← facts.session, ← session]
    exact admits.session (by rw [facts.session]; exact named)
  · intro latest
    have dialed := run_dialed cfg limit clock modern _ state run
    have present := dialed.remains earlier since knocked grant rfl granted bound latest
      (Int.lt_of_le_of_lt ordered inTime) unused
    have passes := (KnockSessionStore.checkAndConsume_ok_iff state.store peer remote now _).mpr
      ⟨grant.remote, _, source, ⟨present, key.symm, decide_eq_true inTime, fun _ => session.symm,
        fun _ _ => port.symm⟩, rfl⟩
    rw [passes]

def sampleKnockConfig : KnockConfig where
  allowTTL := second * 60
  maxConnectionsPerKnock := 1
  serverPort := 443
  listener := .nil
  listenPort := 443
  firewallOnly := false
  removeAfterAuth := false

/-- Two dials of one client: the second knock, accepted a second after the
first, makes the first one's authentication fail. -/
theorem dial_refused_after_second_knock :
    ∃ state, Run (Along (DialStep sampleKnockConfig) (Steps storeStep))
        ⟨KnockSessionStore.newWithLimit 16, 0⟩
        [sampleKnocked (ascii "a") 1000000000, sampleKnocked (ascii "b") 2000000000] state ∧
      3000000000 < addDuration 1000000000 sampleKnockConfig.ttl ∧
      (state.store.checkAndConsume (sampleAdmitted (ascii "client") (ascii "a")) sampleRemote
        3000000000).1 = .error (.text (ascii "knock session id mismatch")) := by
  exact runSteps_reaches_along _ _ _ _ _ (by decide +kernel)

/-- Another client of the same address knocks and authenticates. -/
def sampleOther : List StoreEvent :=
  [⟨.addSessionForPort (sampleKnockConfig.grant sampleAddr (ascii "other") (ascii "b")),
      1500000000, false⟩,
    ⟨.checkAndConsume (sampleAdmitted (ascii "other") (ascii "b")) sampleRemote, 2000000000, true⟩]

theorem dial_passes_iff_sample :
    ∃ state, Run (Along (DialStep sampleKnockConfig) (Steps storeStep))
        ⟨KnockSessionStore.newWithLimit 16, 0⟩
        ([] ++ sampleKnocked (ascii "a") 1000000000 :: sampleOther) state ∧
      (state.store.checkAndConsume (sampleAdmitted (ascii "client") (ascii "a")) sampleRemote
        3000000000).1 = .ok () := by
  obtain ⟨state, run, clock⟩ := runSteps_reaches_along storeStep
    ⟨KnockSessionStore.newWithLimit 16, 0⟩ ([] ++ sampleKnocked (ascii "a") 1000000000 :: sampleOther)
    (fun state => state.clock = 2000000000) (DialStep sampleKnockConfig) (by decide +kernel)
  refine ⟨state, run, ?_⟩
  apply (dial_passes_iff sampleKnockConfig 16 0 (by decide) [] sampleOther _ state run
    (sampleGrant (ascii "a")) rfl (by decide) (by decide +kernel) _ sampleRemote (by decide) rfl rfl
    rfl 3000000000 (by rw [clock]; decide) (by decide) (by decide)).mpr
  decide

end Libknock.Relay
