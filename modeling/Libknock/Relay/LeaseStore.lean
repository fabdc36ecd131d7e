import Libknock.Foundation.Runs
import Libknock.Cache.Ledger
import Libknock.Relay.Lease

/-!
# Runs of the lease store

`MarkFirewall`, `ExpireFirewall` and `RemoveFirewall` of `relay/session.go`,
called in any order while the clock does not go back.  The identifiers of the
leases are the values of one counter, so a timer of a lease that has been
renewed knows an identifier that no stored lease carries.
-/

set_option autoImplicit false

namespace Libknock.Relay

open Foundation Cache

/-! ## Calls and runs -/

inductive LeaseCall where
  | markFirewall (remote : Addr) (port : Int) (ttl : Duration) (now : Int)
  | expireFirewall (remote : Addr) (port : Int) (id : UInt64) (now : Int)
  | removeFirewall (remote : Addr) (port : Int)

inductive LeaseAnswer where
  | lease (id : Option UInt64)
  | removed (done : Bool)

structure LeaseEvent where
  call : LeaseCall
  answer : LeaseAnswer

structure LeaseStore where
  clock : Int
  store : KnockSessionStore

namespace LeaseCall

def key : LeaseCall → FirewallKey
  | markFirewall remote port _ _ => ⟨remote, port⟩
  | expireFirewall remote port _ _ => ⟨remote, port⟩
  | removeFirewall remote port => ⟨remote, port⟩

def apply : LeaseCall → KnockSessionStore → LeaseAnswer × KnockSessionStore
  | markFirewall remote port ttl now, s =>
    (.lease (s.markFirewall remote port ttl now).1, (s.markFirewall remote port ttl now).2)
  | expireFirewall remote port id now, s =>
    (.removed (s.expireFirewall remote port id now).1, (s.expireFirewall remote port id now).2)
  | removeFirewall remote port, s =>
    (.removed (s.removeFirewall remote port).1, (s.removeFirewall remote port).2)

/-- The clock at the end of a call; `RemoveFirewall` does not read it. -/
def reading (clock : Int) : LeaseCall → Int
  | markFirewall _ _ _ now => now
  | expireFirewall _ _ _ now => now
  | removeFirewall _ _ => clock

end LeaseCall

/-- One call, at a reading no earlier than the last one. -/
structure LeaseStep (before : LeaseStore) (event : LeaseEvent) (after : LeaseStore) : Prop where
  onward : before.clock ≤ event.call.reading before.clock
  answer : event.answer = (event.call.apply before.store).1
  clock : after.clock = event.call.reading before.clock
  store : after.store = (event.call.apply before.store).2

def LeaseStore.new (limit clock : Int) : LeaseStore := ⟨clock, .newWithLimit limit⟩

def LeaseEvent.issued (event : LeaseEvent) : Option UInt64 :=
  match event.answer with
  | .lease id => id
  | .removed _ => none

def issued (events : List LeaseEvent) : List UInt64 := events.filterMap LeaseEvent.issued

namespace KnockSessionStore

variable (s : KnockSessionStore)

def activePairs (now : Int) : Finset FirewallKey := s.firewall.activeKeys now

/-! ## One call -/

/-- What a call may do to the leases: it hands out the next identifier or none,
and what it leaves was there before or carries the new identifier. -/
structure Reissues (next : KnockSessionStore) (issued : Option UInt64) : Prop where
  counter : next.nextID = if issued.isSome then s.nextID + 1 else s.nextID
  identifier : ∀ id ∈ issued, id = s.nextID + 1
  members : ∀ lease ∈ next.firewall.order,
    lease ∈ s.firewall.order ∨ some lease.value.id = issued

theorem grantLease_reissues (key : FirewallKey) (ttl : Duration) (now : Int) :
    s.Reissues (s.grantLease key ttl now).2 (some (s.nextID + 1)) where
  counter := rfl
  identifier := by
    intro id handed
    exact (Option.some.inj handed).symm
  members := by
    intro lease member
    simp only [grantLease, TTLLRU.setUntil] at member
    split at member
    · exact Or.inl member
    · rcases TTLLRU.mem_of_mem_setLocked member with rfl | ⟨kept, _⟩
      · exact Or.inr rfl
      · exact Or.inl kept

theorem Reissues.none : s.Reissues s none := ⟨rfl, by simp, fun _ member => Or.inl member⟩

variable {s} in
theorem Reissues.of_swept {next : KnockSessionStore} {issued : Option UInt64} {now : Int}
    (reissues : ({ s with firewall := (s.firewall.sweep now).2 } : KnockSessionStore).Reissues
      next issued) : s.Reissues next issued where
  counter := reissues.counter
  identifier := reissues.identifier
  members := by
    intro lease member
    rcases reissues.members lease member with kept | fresh
    · exact Or.inl (TTLLRU.mem_sweep.mp kept).1
    · exact Or.inr fresh

variable (remote : Addr)

theorem markFirewall_reissues (port : Int) (ttl : Duration) (now : Int) :
    s.Reissues (s.markFirewall remote port ttl now).2 (s.markFirewall remote port ttl now).1 := by
  unfold markFirewall
  split
  · exact .none s
  simp only
  split
  · exact Reissues.of_swept (grantLease_reissues _ _ ttl now)
  · split
    · exact Reissues.of_swept (.none _)
    · exact Reissues.of_swept (grantLease_reissues _ _ ttl now)

theorem expireFirewall_reissues (port : Int) (id : UInt64) (now : Int) :
    s.Reissues (s.expireFirewall remote port id now).2 none := by
  cases outcome : s.expireFirewall remote port id now with
  | mk done next =>
    cases done with
    | false =>
      rw [(expireFirewall_false s outcome).1]
      exact .none s
    | true =>
      refine ⟨?_, by simp, fun lease member => ?_⟩
      · unfold expireFirewall at outcome
        split at outcome
        · cases outcome
        split at outcome
        · cases outcome
        split at outcome
        · cases outcome
        rw [← (Prod.mk.inj outcome).2]
        rfl
      · have left := mem_expireFirewall s outcome lease
        exact Or.inl (left.mp member).1

theorem removeFirewall_reissues (port : Int) :
    s.Reissues (s.removeFirewall remote port).2 none := by
  refine ⟨rfl, by simp, fun lease member => ?_⟩
  have left := @TTLLRU.mem_delete _ _ _ s.firewall lease ⟨remote, port⟩
  exact Or.inl (left.mp member).1

/-- The lease of a pair goes exactly when it has the identifier and has run out,
where no lease carries the identifier zero. -/
theorem expireFirewall_true_iff (port : Int) (id : UInt64) (now : Int)
    (numbered : ∀ lease ∈ s.firewall.order, lease.value.id ≠ 0) :
    (s.expireFirewall remote port id now).1 = true ↔
      ∃ lease ∈ s.firewall.order, lease.key = ⟨remote, port⟩ ∧ lease.value.id = id ∧
        lease.live now = false := by
  cases outcome : s.expireFirewall remote port id now with
  | mk done next =>
    cases done with
    | true =>
      simp only [true_iff]
      exact expireFirewall_true s outcome
    | false =>
      simp only [Bool.false_eq_true, false_iff]
      rintro ⟨lease, member, same, own, expired⟩
      have nonzero : id ≠ 0 := by
        rw [← own]
        exact numbered lease member
      have live := (expireFirewall_false s outcome).2 nonzero lease member same own
      rw [expired] at live
      cases live

theorem expireFirewall_leaves (port : Int) (id : UInt64) (now : Int) :
    ((s.expireFirewall remote port id now).1 = true →
        ∀ lease, lease ∈ (s.expireFirewall remote port id now).2.firewall.order ↔
          lease ∈ s.firewall.order ∧ lease.key ≠ ⟨remote, port⟩) ∧
      ((s.expireFirewall remote port id now).1 = false →
        (s.expireFirewall remote port id now).2 = s) := by
  cases outcome : s.expireFirewall remote port id now with
  | mk done next =>
    constructor
    · rintro rfl
      exact mem_expireFirewall s outcome
    · rintro rfl
      exact (expireFirewall_false s outcome).1

theorem markFirewall_none_iff (port : Int) (ttl : Duration) (now : Int)
    (valid : remote.isValid = true) (positive : 0 < port) (lasting : 0 < ttl) :
    (s.markFirewall remote port ttl now).1 = none ↔
      (⟨remote, port⟩ : FirewallKey) ∉ s.activePairs now ∧
        ((s.activePairs now).erase ⟨remote, port⟩).card = s.firewall.cap := by
  have usable : ¬ (remote.isValid = false ∨ port ≤ 0 ∨ ttl ≤ 0) := by
    rintro (invalid | low | short)
    · rw [valid] at invalid
      cases invalid
    · omega
    · exact absurd lasting (Int64.not_lt.mpr short)
  have swept : ({ s with firewall := (s.firewall.sweep now).2 } : KnockSessionStore).activeLease
      ⟨remote, port⟩ now = true ↔ (⟨remote, port⟩ : FirewallKey) ∈ s.activePairs now := by
    rw [activeLease_iff, activePairs, TTLLRU.mem_activeKeys_iff]
    constructor
    · rintro ⟨lease, member, same, live⟩
      exact ⟨lease, (TTLLRU.mem_sweep.mp member).1, same, live⟩
    · rintro ⟨lease, member, same, live⟩
      exact ⟨lease, TTLLRU.mem_sweep.mpr ⟨member, live⟩, same, live⟩
  have bounded : (s.activePairs now).card ≤ s.firewall.cap := by
    rw [activePairs, TTLLRU.card_activeKeys]
    exact s.firewall.activeLen_le now
  unfold markFirewall
  rw [if_neg usable]
  simp only
  split
  · rename_i active
    simp only [grantLease, reduceCtorEq, false_iff]
    exact fun idle => idle.1 (swept.mp active)
  · rename_i inactive
    have absent : (⟨remote, port⟩ : FirewallKey) ∉ s.activePairs now :=
      fun present => inactive (swept.mpr present)
    rw [Finset.erase_eq_of_notMem absent, activePairs, TTLLRU.card_activeKeys] at *
    split
    · rename_i full
      simp only [true_iff]
      exact ⟨absent, Nat.le_antisymm bounded full⟩
    · rename_i room
      simp only [grantLease, reduceCtorEq, false_iff]
      rintro ⟨_, full⟩
      exact room full.ge

/-- The eviction of the cache is out of reach: there is room after the sweep. -/
theorem markFirewall_keeps (port : Int) (ttl : Duration) (now : Int)
    (lease : Entry FirewallKey FirewallLease) (member : lease ∈ s.firewall.order)
    (live : lease.live now = true) (other : lease.key ≠ ⟨remote, port⟩) :
    lease ∈ (s.markFirewall remote port ttl now).2.firewall.order := by
  have kept : lease ∈ (s.firewall.sweep now).2.order :=
    TTLLRU.mem_sweep.mpr ⟨member, live⟩
  have granted : ((⟨remote, port⟩ : FirewallKey) ∈ (s.firewall.sweep now).2.keys ∨
        (s.firewall.sweep now).2.order.length < (s.firewall.sweep now).2.maxEntries) →
      lease ∈ (grantLease ⟨remote, port⟩ ttl now
        { s with firewall := (s.firewall.sweep now).2 }).2.firewall.order := by
    intro room
    simp only [grantLease, TTLLRU.setUntil]
    split
    · exact kept
    · exact TTLLRU.mem_setLocked_of_room _ _ room kept other
  unfold markFirewall
  split
  · exact member
  simp only
  split
  · rename_i active
    obtain ⟨own, ownMember, same, _⟩ := (activeLease_iff _ _ now).mp active
    refine granted (Or.inl ?_)
    rw [← same]
    exact List.mem_map_of_mem ownMember
  · split
    · exact kept
    · rename_i room
      exact granted (Or.inr (by simpa [TTLLRU.cap, TTLLRU.len] using room))

end KnockSessionStore

/-! ## Identifiers over a run -/

variable {event : LeaseEvent} {before after state : LeaseStore} {past events : List LeaseEvent}

theorem LeaseStep.reissues (step : LeaseStep before event after) :
    before.store.Reissues after.store event.issued := by
  obtain ⟨_, answer, _, store⟩ := step
  rw [store]
  cases event with
  | mk call reply =>
    cases call with
    | markFirewall remote port ttl now =>
      cases answer
      exact before.store.markFirewall_reissues remote port ttl now
    | expireFirewall remote port id now =>
      cases answer
      exact before.store.expireFirewall_reissues remote port id now
    | removeFirewall remote port =>
      cases answer
      exact before.store.removeFirewall_reissues remote port

theorem issued_snoc (past : List LeaseEvent) (event : LeaseEvent) :
    issued (past ++ [event]) = issued past ++ event.issued.toList := by
  cases handed : event.issued with
  | none | some => simp [issued, handed]

/-- The counter is the number of leases handed out, and the identifiers are the
numbers up to it. -/
structure Numbered (events : List LeaseEvent) (state : LeaseStore) : Prop where
  counter : state.store.nextID.toNat = (issued events).length
  identifiers : ∀ id ∈ issued events, 0 < id.toNat ∧ id.toNat ≤ (issued events).length
  increasing : (issued events).Pairwise (· < ·)
  stored : ∀ lease ∈ state.store.firewall.order, lease.value.id ∈ issued events

theorem LeaseStep.numbered (step : LeaseStep before event after) (numbered : Numbered past before)
    (few : (issued (past ++ [event])).length < 2 ^ 64) :
    Numbered (past ++ [event]) after := by
  have reissues := step.reissues
  have counter := numbered.counter
  rw [issued_snoc] at few
  cases handed : event.issued with
  | none =>
    rw [handed] at reissues few
    have same : issued (past ++ [event]) = issued past := by
      rw [issued_snoc, handed]
      exact List.append_nil _
    refine ⟨?_, ?_, ?_, ?_⟩
    · rw [same, reissues.counter]
      exact counter
    · rw [same]
      exact numbered.identifiers
    · rw [same]
      exact numbered.increasing
    · intro lease member
      rw [same]
      rcases reissues.members lease member with kept | fresh
      · exact numbered.stored lease kept
      · cases fresh
  | some id =>
    rw [handed] at reissues few
    have grown : issued (past ++ [event]) = issued past ++ [id] := by
      rw [issued_snoc, handed]
      rfl
    have next : id = before.store.nextID + 1 := reissues.identifier id rfl
    have value : id.toNat = (issued past).length + 1 := by
      simp only [Option.toList_some, List.length_append, List.length_singleton] at few
      rw [next, UInt64.toNat_add, counter]
      exact Nat.mod_eq_of_lt few
    refine ⟨?_, ?_, ?_, ?_⟩
    · rw [reissues.counter, grown, List.length_append, List.length_singleton, ← value, next]
      rfl
    · intro other member
      rw [grown] at member
      rw [grown, List.length_append, List.length_singleton]
      rcases List.mem_append.mp member with earlier | newest
      · have bounds := numbered.identifiers other earlier
        omega
      · rw [List.mem_singleton.mp newest]
        omega
    · rw [grown, List.pairwise_append]
      refine ⟨numbered.increasing, by simp, ?_⟩
      intro earlier member newest single
      have bounds := numbered.identifiers earlier member
      rw [List.mem_singleton.mp single, UInt64.lt_iff_toNat_lt]
      omega
    · intro lease member
      rw [grown]
      rcases reissues.members lease member with kept | fresh
      · exact List.mem_append_left _ (numbered.stored lease kept)
      · rw [Option.some.inj fresh]
        simp

theorem run_numbered (limit clock : Int) (events : List LeaseEvent) (state : LeaseStore)
    (run : Run LeaseStep (LeaseStore.new limit clock) events state) :
    (issued events).length < 2 ^ 64 → Numbered events state := by
  revert events state
  refine Run.invariant _ ?_ ?_
  · intro _
    exact ⟨rfl, by simp [issued], List.Pairwise.nil, by
      simp [LeaseStore.new, KnockSessionStore.newWithLimit, TTLLRU.new]⟩
  · intro past before event after _ ih step few
    refine step.numbered (ih ?_) few
    rw [issued_snoc, List.length_append] at few
    omega

theorem Numbered.nonzero (numbered : Numbered events state) :
    ∀ lease ∈ state.store.firewall.order, lease.value.id ≠ 0 := by
  intro lease member zero
  have bounds := numbered.identifiers lease.value.id (numbered.stored lease member)
  rw [zero] at bounds
  exact absurd bounds.1 (by decide)

/-! ## The leases that are held -/

/-- What each pair holds after an event: the lease it was given last, unless that
has been taken back. -/
def LeaseEvent.settle (held : Ledger FirewallKey FirewallLease) (event : LeaseEvent) :
    Ledger FirewallKey FirewallLease :=
  match event.call, event.answer with
  | .markFirewall remote port ttl now, .lease (some id) =>
    Function.update held ⟨remote, port⟩ (some (⟨id⟩, addDuration now ttl))
  | .expireFirewall remote port _ _, .removed true => Function.update held ⟨remote, port⟩ none
  | .removeFirewall remote port, .removed _ => Function.update held ⟨remote, port⟩ none
  | _, _ => held

def held (events : List LeaseEvent) : Ledger FirewallKey FirewallLease :=
  events.foldl LeaseEvent.settle (Ledger.empty FirewallKey FirewallLease)

theorem held_snoc (past : List LeaseEvent) (event : LeaseEvent) :
    held (past ++ [event]) = event.settle (held past) := by
  simp [held]

theorem LeaseStep.follows (step : LeaseStep before event after) (modern : 0 ≤ before.clock)
    (follows : Follows before.clock before.store.firewall.order (held past)) :
    Follows after.clock after.store.firewall.order (held (past ++ [event])) := by
  obtain ⟨onward, answer, clock, store⟩ := step
  have known := follows.later onward
  rw [held_snoc, store, clock]
  cases event with
  | mk call reply =>
    cases call with
    | markFirewall remote port ttl now =>
      cases answer
      simp only [LeaseCall.reading, LeaseCall.apply] at onward known ⊢
      cases outcome : before.store.markFirewall remote port ttl now with
      | mk id next =>
        cases id with
        | none =>
          rcases before.store.mem_markFirewall_full outcome with
            ⟨rfl, _⟩ | ⟨members, _⟩
          · exact known
          · refine known.congr fun lease live => ?_
            rw [members]
            exact and_iff_left live
        | some id =>
          obtain ⟨_, _, _, members⟩ := before.store.mem_markFirewall (modern.trans onward) outcome
          refine known.enter ⟨⟨remote, port⟩, ⟨id⟩, addDuration now ttl⟩ fun lease live => ?_
          rw [members, and_iff_left live]
    | expireFirewall remote port id now =>
      cases answer
      simp only [LeaseCall.reading, LeaseCall.apply] at known ⊢
      cases outcome : before.store.expireFirewall remote port id now with
      | mk done next =>
        cases done with
        | false =>
          rw [(before.store.expireFirewall_false outcome).1]
          exact known
        | true =>
          exact known.strike _ (before.store.mem_expireFirewall outcome)
    | removeFirewall remote port =>
      cases answer
      exact known.strike _ fun _ => TTLLRU.mem_delete

/-- An unexpired lease is in the store exactly when its pair was given it last
and it has not been taken back. -/
theorem run_follows (limit clock : Int) (modern : 0 ≤ clock) (events : List LeaseEvent)
    (state : LeaseStore) (run : Run LeaseStep (LeaseStore.new limit clock) events state) :
    0 ≤ state.clock ∧ Follows state.clock state.store.firewall.order (held events) := by
  revert events state
  refine Run.invariant _ ⟨modern, Follows.empty FirewallKey FirewallLease clock⟩ ?_
  intro past before event after _ ih step
  refine ⟨?_, step.follows ih.1 ih.2⟩
  rw [step.clock]
  exact ih.1.trans step.onward

/-- The pairs with an unexpired lease, from the answers of the run alone. -/
theorem mem_activePairs_iff {limit clock : Int} (modern : 0 ≤ clock)
    (run : Run LeaseStep (LeaseStore.new limit clock) events state) {now : Int}
    (onward : state.clock ≤ now) (key : FirewallKey) :
    key ∈ state.store.activePairs now ↔ (held events).Active now key := by
  have known := (run_follows limit clock modern events state run).2.later onward
  exact known.mem_activeKeys_iff key

/-! ## A lease that was superseded -/

def LeaseEvent.Grants (event : LeaseEvent) (key : FirewallKey) (id : UInt64) : Prop :=
  event.call.key = key ∧ event.issued = some id

theorem mem_issued {key : FirewallKey} {id : UInt64} (grants : event.Grants key id)
    (member : event ∈ events) :
    id ∈ issued events :=
  List.mem_filterMap.mpr ⟨event, member, grants.2⟩

theorem issued_lt {earlier middle later : List LeaseEvent} {first second : LeaseEvent}
    {old new : UInt64}
    (increasing : (issued (earlier ++ first :: (middle ++ second :: later))).Pairwise (· < ·))
    (handedOld : first.issued = some old) (handedNew : second.issued = some new) : old < new := by
  simp only [issued, List.filterMap_append, List.filterMap_cons, handedOld, handedNew] at increasing
  have tail := (List.pairwise_append.mp increasing).2.1
  exact (List.pairwise_cons.mp tail).1 new (by simp)

/-- The lease that is granted takes the place of those of its pair. -/
theorem LeaseStep.granted (step : LeaseStep before event after) (modern : 0 ≤ before.clock)
    {id : UInt64} (handed : event.issued = some id) :
    ∀ lease ∈ after.store.firewall.order, (lease.key = event.call.key ∧ lease.value.id = id) ∨
      (lease ∈ before.store.firewall.order ∧ lease.key ≠ event.call.key) := by
  obtain ⟨onward, answer, -, store⟩ := step
  rw [store]
  cases event with
  | mk call reply =>
    cases call with
    | markFirewall remote port ttl now =>
      cases answer
      simp only [LeaseCall.reading] at onward
      simp only [LeaseEvent.issued, LeaseCall.apply] at handed ⊢
      obtain ⟨-, -, -, members⟩ :=
        before.store.mem_markFirewall (modern.trans onward) (Prod.ext handed rfl)
      intro lease member
      rcases (members lease).mp member with rfl | ⟨⟨kept, -⟩, other⟩
      · exact Or.inl ⟨rfl, rfl⟩
      · exact Or.inr ⟨kept, other⟩
    | expireFirewall | removeFirewall =>
      cases answer
      cases handed

/-- The lease that a pair has in the store is the newest it was granted. -/
def Newest (events : List LeaseEvent) (state : LeaseStore) : Prop :=
  ∀ lease ∈ state.store.firewall.order, ∀ event ∈ events, ∀ id,
    event.Grants lease.key id → id ≤ lease.value.id

theorem LeaseStep.newest (step : LeaseStep before event after) (modern : 0 ≤ before.clock)
    (increasing : (issued (past ++ [event])).Pairwise (· < ·)) (newest : Newest past before) :
    Newest (past ++ [event]) after := by
  intro lease member chosen chosenMember id grants
  cases handed : event.issued with
  | none =>
    rcases List.mem_append.mp chosenMember with early | last
    · rcases step.reissues.members lease member with kept | fresh
      · exact newest lease kept chosen early id grants
      · rw [handed] at fresh
        cases fresh
    · rw [List.mem_singleton.mp last] at grants
      cases handed.symm.trans grants.2
  | some new =>
    rcases step.granted modern handed lease member with ⟨-, own⟩ | ⟨kept, other⟩
    · rw [own]
      rcases List.mem_append.mp chosenMember with early | last
      · rw [issued_snoc, handed, List.pairwise_append] at increasing
        exact UInt64.le_of_lt (increasing.2.2 id (mem_issued grants early) new (by simp))
      · rw [List.mem_singleton.mp last] at grants
        cases handed.symm.trans grants.2
        exact UInt64.le_refl _
    · rcases List.mem_append.mp chosenMember with early | last
      · exact newest lease kept chosen early id grants
      · rw [List.mem_singleton.mp last] at grants
        exact absurd grants.1.symm other

theorem run_newest (limit clock : Int) (modern : 0 ≤ clock) (events : List LeaseEvent)
    (state : LeaseStore) (run : Run LeaseStep (LeaseStore.new limit clock) events state) :
    (issued events).length < 2 ^ 64 → Newest events state := by
  revert events state
  refine Run.invariant _ (fun _ => nofun) ?_
  intro past before event after earlier ih step few
  have onward := (run_follows limit clock modern past before earlier).1
  have increasing := (run_numbered limit clock _ after (earlier.snoc step) few).increasing
  refine step.newest onward increasing (ih ?_)
  rw [issued_snoc, List.length_append] at few
  omega

theorem Newest.expireFirewall_superseded {earlier middle later : List LeaseEvent}
    {first second : LeaseEvent} {remote : Addr} {port : Int} {old new : UInt64}
    (newest : Newest (earlier ++ first :: (middle ++ second :: later)) state)
    (numbered : Numbered (earlier ++ first :: (middle ++ second :: later)) state)
    (granted : first.Grants ⟨remote, port⟩ old) (renewed : second.Grants ⟨remote, port⟩ new)
    (now : Int) : (state.store.expireFirewall remote port old now).1 = false := by
  rw [← Bool.not_eq_true, state.store.expireFirewall_true_iff remote port old now numbered.nonzero]
  rintro ⟨lease, member, same, own, -⟩
  have larger := issued_lt numbered.increasing granted.2 renewed.2
  have smaller := newest lease member second (by simp) new (same ▸ renewed)
  rw [own] at smaller
  exact absurd larger (UInt64.not_lt.mpr smaller)

/-! ## The store after a run -/

/-- The store of firewall leases after any run of its three operations.  After a run
that begins at the epoch or later, its unexpired leases are those that were granted and
not taken back. -/
theorem lease_store_exact (limit clock : Int) (events : List LeaseEvent) (state : LeaseStore)
    (run : Run LeaseStep (LeaseStore.new limit clock) events state)
    (few : (issued events).length < 2 ^ 64) :
    (issued events).Pairwise (· < ·) ∧
      (∀ (remote : Addr) (port : Int) (id : UInt64) (now : Int), state.clock ≤ now →
        ((state.store.expireFirewall remote port id now).1 = true ↔
          ∃ lease ∈ state.store.firewall.order, lease.key = ⟨remote, port⟩ ∧
            lease.value.id = id ∧ lease.live now = false) ∧
        ((state.store.expireFirewall remote port id now).1 = true →
          ∀ lease, lease ∈ (state.store.expireFirewall remote port id now).2.firewall.order ↔
            lease ∈ state.store.firewall.order ∧ lease.key ≠ ⟨remote, port⟩) ∧
        ((state.store.expireFirewall remote port id now).1 = false →
          (state.store.expireFirewall remote port id now).2 = state.store)) ∧
      (∀ (earlier middle later : List LeaseEvent) (first second : LeaseEvent) (remote : Addr)
        (port : Int) (old new : UInt64) (now : Int),
        events = earlier ++ first :: (middle ++ second :: later) →
        first.Grants ⟨remote, port⟩ old → second.Grants ⟨remote, port⟩ new →
        state.clock ≤ now →
        (∀ lease ∈ state.store.firewall.order, lease.value.id = new →
          lease ∈ (state.store.expireFirewall remote port old now).2.firewall.order) ∧
        (0 ≤ clock → (state.store.expireFirewall remote port old now).1 = false)) ∧
      (∀ (remote : Addr) (port : Int) (ttl : Duration) (now : Int), state.clock ≤ now →
        remote.isValid = true → 0 < port → 0 < ttl →
        ((state.store.markFirewall remote port ttl now).1 = none ↔
          (⟨remote, port⟩ : FirewallKey) ∉ state.store.activePairs now ∧
            ((state.store.activePairs now).erase ⟨remote, port⟩).card =
              state.store.firewall.cap)) ∧
      (∀ (remote : Addr) (port : Int) (ttl : Duration) (now : Int), state.clock ≤ now →
        ∀ lease ∈ state.store.firewall.order, lease.live now = true →
          lease.key ≠ ⟨remote, port⟩ →
          lease ∈ (state.store.markFirewall remote port ttl now).2.firewall.order) ∧
      (0 ≤ clock → Follows state.clock state.store.firewall.order (held events) ∧
        ∀ now, state.clock ≤ now → ∀ key,
          (key ∈ state.store.activePairs now ↔ (held events).Active now key)) := by
  have numbered := run_numbered limit clock events state run few
  refine ⟨numbered.increasing, ?_, ?_, ?_, ?_, ?_⟩
  · intro remote port id now _
    have leaves := state.store.expireFirewall_leaves remote port id now
    exact ⟨state.store.expireFirewall_true_iff remote port id now numbered.nonzero, leaves⟩
  · intro earlier middle later first second remote port old new now split granted renewed _
    subst split
    refine ⟨fun lease member own => ?_, fun modern => ?_⟩
    · have larger := issued_lt numbered.increasing granted.2 renewed.2
      cases answer : (state.store.expireFirewall remote port old now).1 with
      | false =>
        rw [(state.store.expireFirewall_leaves remote port old now).2 answer]
        exact member
      | true =>
        rw [(state.store.expireFirewall_leaves remote port old now).1 answer]
        refine ⟨member, fun same => ?_⟩
        -- the pair has one stored lease, and it would have both identifiers
        obtain ⟨found, foundMember, foundKey, foundID, _⟩ :=
          (state.store.expireFirewall_true_iff remote port old now numbered.nonzero).mp answer
        have equal := state.store.firewall.eq_of_key_eq member foundMember
          (same.trans foundKey.symm)
        rw [← equal, own] at foundID
        rw [foundID] at larger
        exact absurd larger (UInt64.lt_irrefl _)
    · have newest := run_newest limit clock modern _ state run few
      exact newest.expireFirewall_superseded numbered granted renewed now
  · intro remote port ttl now _ valid positive lasting
    exact state.store.markFirewall_none_iff remote port ttl now valid positive lasting
  · intro remote port ttl now _ lease member live other
    exact state.store.markFirewall_keeps remote port ttl now lease member live other
  · intro modern
    exact ⟨(run_follows limit clock modern events state run).2,
      fun now onward key => mem_activePairs_iff modern run onward key⟩

/-- A pair marked twice, on a store with room for one lease. -/
def sampleRenewal : List LeaseEvent :=
  [⟨.markFirewall (samplePair 1).remote 443 60 0, .lease (some 1)⟩,
    ⟨.markFirewall (samplePair 1).remote 443 60 5, .lease (some 2)⟩]

/-- The timer of the first lease comes after the second has run out, too, and
finds nothing to delete; that of the second does. -/
theorem renewed_lease_outlives_timer :
    ∃ state, Run LeaseStep (LeaseStore.new 1 0) sampleRenewal state ∧
      (issued sampleRenewal).length < 2 ^ 64 ∧
      state.store.firewall.order = [⟨samplePair 1, ⟨2⟩, 65⟩] ∧
      held sampleRenewal (samplePair 1) = some (⟨2⟩, 65) ∧
      samplePair 1 ∈ state.store.activePairs 64 ∧
      (state.store.expireFirewall (samplePair 1).remote 443 1 100).1 = false ∧
      (state.store.expireFirewall (samplePair 1).remote 443 2 100).1 = true := by
  have first : Run LeaseStep (LeaseStore.new 1 0) ([] ++ [sampleRenewal[0]]) ⟨0, _⟩ :=
    Run.nil.snoc ⟨by decide, by rfl, rfl, rfl⟩
  have second : Run LeaseStep (LeaseStore.new 1 0) ([] ++ [sampleRenewal[0]] ++ [sampleRenewal[1]])
      ⟨5, _⟩ := first.snoc ⟨by decide, by rfl, rfl, rfl⟩
  obtain ⟨-, expires, superseded, -, -, follows⟩ :=
    lease_store_exact 1 0 sampleRenewal _ second (by decide)
  have stored : samplePair 1 ∈ KnockSessionStore.activePairs _ 64 :=
    ((follows (by decide)).2 64 (by decide) (samplePair 1)).mpr ⟨⟨2⟩, 65, by decide, by decide⟩
  refine ⟨_, second, by decide, by decide, by decide, stored, ?_, ?_⟩
  · exact (superseded [] [] [] sampleRenewal[0] sampleRenewal[1] (samplePair 1).remote 443 1 2 100
      rfl ⟨rfl, rfl⟩ ⟨rfl, rfl⟩ (by decide)).2 (by decide)
  · exact (expires (samplePair 1).remote 443 2 100 (by decide)).1.mpr
      ⟨⟨samplePair 1, ⟨2⟩, 65⟩, by decide, rfl, rfl, by decide⟩

end Libknock.Relay
