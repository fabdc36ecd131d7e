import Libknock.Auth.Server
import Libknock.Cache.TTLLRU

/-!
# The knock session store

`relay/session.go` and the address conversions of `internal/gatewaycore`.  The
firewall key of the source is the text of an address and a port with a zero
byte between them; here it is the pair.  The pointer an entry of the cache
holds is written through by writing the entry's value.
-/

set_option autoImplicit false

namespace Libknock.Relay

open Foundation Cache
open Auth (PeerInfo AuthError KnockStore)

/-! ## Addresses -/

def addrFromIP (ip : Bytes) : Option Addr :=
  (Addr.addrFromSlice ip).map Addr.unmap

def addrFromNet : NetAddr → Option Addr
  | .tcp ip _ => (Addr.addrFromSlice ip).map Addr.unmap
  | .nil => none
  | .other text =>
    match splitHostPort text with
    | none => none
    | some (host, _) => (parseAddr host).map Addr.unmap

/-! ## Keys and records -/

structure SessionKey where
  remote : Addr
  clientID : Bytes
  port : UInt16
  deriving DecidableEq

structure FirewallKey where
  remote : Addr
  port : Int
  deriving DecidableEq

structure Session where
  remaining : Int
  port : Int
  sessionID : Bytes
  deriving DecidableEq

structure FirewallLease where
  id : UInt64
  deriving DecidableEq

def newSessionKeyForPort (addr : Addr) (clientID : Bytes) (port : Int) : SessionKey :=
  ⟨addr, clientID, if port < 0 ∨ port > 65535 then 0 else UInt16.ofNat port.toNat⟩

def newSessionKey (addr : Addr) (clientID : Bytes) : SessionKey :=
  newSessionKeyForPort addr clientID 0

def sessionKeyMatches (key : SessionKey) (addr : Addr) (clientID : Bytes) : Bool :=
  key.remote = addr ∧ key.clientID = clientID

def defaultMaxKnockSessions : Int := 4096

structure KnockSessionStore where
  sessions : TTLLRU SessionKey Session
  firewall : TTLLRU FirewallKey FirewallLease
  nextID : UInt64

variable {now : Int} {id : UInt64}

namespace KnockSessionStore

def newWithLimit (max : Int) : KnockSessionStore :=
  let limit := if max ≤ 0 then defaultMaxKnockSessions else max
  ⟨TTLLRU.new SessionKey Session limit, TTLLRU.new FirewallKey FirewallLease limit, 0⟩

/-! ## Sessions -/

def addSessionForPort (remote : Addr) (clientID sessionID : Bytes) (port : Int) (ttl : Duration)
    (uses now : Int) (s : KnockSessionStore) : KnockSessionStore :=
  if remote.isValid = false ∨ clientID = [] then s
  else
    { s with
      sessions := s.sessions.setUntil (newSessionKeyForPort remote clientID port)
        ⟨if uses ≤ 0 then 1 else uses, port, sessionID⟩ (addDuration now ttl) }

def addSession (remote : Addr) (clientID sessionID : Bytes) (ttl : Duration) (uses now : Int)
    (s : KnockSessionStore) : KnockSessionStore :=
  s.addSessionForPort remote clientID sessionID 0 ttl uses now

def add (remote : Addr) (clientID : Bytes) (ttl : Duration) (uses now : Int)
    (s : KnockSessionStore) : KnockSessionStore :=
  s.addSession remote clientID [] ttl uses now

/-- The three answers of `getSessionLocked`. -/
inductive Lookup where
  | absent
  | expired
  | found (sess : Session)

def getSessionLocked (key : SessionKey) (now : Int) (s : KnockSessionStore) :
    Lookup × KnockSessionStore :=
  match s.sessions.peek key with
  | none => (.absent, s)
  | some entry =>
    if entry.live now then (.found entry.value, s)
    else (.expired, { s with sessions := (s.sessions.delete key).2 })

/-- The lookups of `CheckAndConsume`: the key, and once more the wildcard key
for a peer without a port. -/
def findSession (addr : Addr) (peer : PeerInfo) (now : Int) (s : KnockSessionStore) :
    SessionKey × Lookup × KnockSessionStore :=
  let key := newSessionKeyForPort addr peer.clientID peer.serverPort
  match s.getSessionLocked key now with
  | (.absent, after) =>
    if peer.serverPort = 0 then
      let wildcard := newSessionKey addr peer.clientID
      (wildcard, after.getSessionLocked wildcard now)
    else (key, .absent, after)
  | (answer, after) => (key, answer, after)

/-- `sess.remaining--`, and the deletion of a session with no uses left. -/
def consumeUse (key : SessionKey) (sess : Session) (s : KnockSessionStore) : KnockSessionStore :=
  let used : Session := { sess with remaining := sess.remaining - 1 }
  let written := s.sessions.updateValue fun entry => if entry.key = key then used else entry.value
  if used.remaining ≤ 0 then { s with sessions := (written.delete key).2 }
  else { s with sessions := written }

def checkAndConsume (peer : PeerInfo) (remote : NetAddr) (now : Int) (s : KnockSessionStore) :
    Except AuthError Unit × KnockSessionStore :=
  match addrFromNet remote with
  | none => (.error (.text (ascii "remote address has no IP")), s)
  | some addr =>
    match s.findSession addr peer now with
    | (_, .expired, after) => (.error (.text (ascii "knock session expired")), after)
    | (_, .absent, after) => (.error (.text (ascii "no accepted knock session")), after)
    | (key, .found sess, after) =>
      if sess.sessionID ≠ [] ∧ sess.sessionID ≠ peer.sessionID then
        (.error (.text (ascii "knock session id mismatch")), after)
      else if sess.port > 0 ∧ peer.serverPort > 0 ∧ sess.port ≠ peer.serverPort then
        (.error (.text (ascii "knock session port mismatch")), after)
      else (.ok (), after.consumeUse key sess)

def knockStore : KnockStore KnockSessionStore := ⟨checkAndConsume⟩

def remove (remote : Addr) (clientID : Bytes) (s : KnockSessionStore) : Bool × KnockSessionStore :=
  let swept := s.sessions.deleteWhere fun entry => sessionKeyMatches entry.key remote clientID
  (0 < swept.1, { s with sessions := swept.2 })

def removeForPort (remote : Addr) (clientID : Bytes) (port : Int) (s : KnockSessionStore) :
    Bool × KnockSessionStore :=
  let removed := s.sessions.delete (newSessionKeyForPort remote clientID port)
  (removed.1, { s with sessions := removed.2 })

def expire (remote : Addr) (clientID : Bytes) (now : Int) (s : KnockSessionStore) :
    Bool × KnockSessionStore :=
  let swept := s.sessions.deleteWhere fun entry =>
    sessionKeyMatches entry.key remote clientID && !entry.live now
  (0 < swept.1, { s with sessions := swept.2 })

def expireForPort (remote : Addr) (clientID : Bytes) (port now : Int) (s : KnockSessionStore) :
    Bool × KnockSessionStore :=
  let swept := s.sessions.deleteWhere fun entry =>
    decide (newSessionKeyForPort remote clientID port = entry.key) && !entry.live now
  (0 < swept.1, { s with sessions := swept.2 })

/-! ## Firewall leases -/

/-- A lease with the next identifier, until `ttl` after the reading. -/
def grantLease (key : FirewallKey) (ttl : Duration) (now : Int) (s : KnockSessionStore) :
    Option UInt64 × KnockSessionStore :=
  (some (s.nextID + 1),
    { s with
      firewall := s.firewall.setUntil key ⟨s.nextID + 1⟩ (addDuration now ttl)
      nextID := s.nextID + 1 })

/-- `ok && entry.ExpiresAt.After(now)` for the lease of the pair. -/
def activeLease (key : FirewallKey) (now : Int) (s : KnockSessionStore) : Bool :=
  match s.firewall.peek key with
  | some entry => entry.live now
  | none => false

def markFirewall (remote : Addr) (port : Int) (ttl : Duration) (now : Int)
    (s : KnockSessionStore) : Option UInt64 × KnockSessionStore :=
  if remote.isValid = false ∨ port ≤ 0 ∨ ttl ≤ 0 then (none, s)
  else
    let swept := { s with firewall := (s.firewall.sweep now).2 }
    if swept.activeLease ⟨remote, port⟩ now then swept.grantLease ⟨remote, port⟩ ttl now
    else if swept.firewall.cap ≤ swept.firewall.len then (none, swept)
    else swept.grantLease ⟨remote, port⟩ ttl now

def expireFirewall (remote : Addr) (port : Int) (id : UInt64) (now : Int)
    (s : KnockSessionStore) : Bool × KnockSessionStore :=
  if id = 0 then (false, s)
  else
    match s.firewall.peek ⟨remote, port⟩ with
    | none => (false, s)
    | some lease =>
      if lease.value.id ≠ id ∨ lease.live now then (false, s)
      else
        let removed := s.firewall.delete ⟨remote, port⟩
        (removed.1, { s with firewall := removed.2 })

def removeFirewall (remote : Addr) (port : Int) (s : KnockSessionStore) :
    Bool × KnockSessionStore :=
  let removed := s.firewall.delete ⟨remote, port⟩
  (removed.1, { s with firewall := removed.2 })

/-! ## What the operations do to the sessions -/

variable (s : KnockSessionStore) {next : KnockSessionStore}

variable (peer : PeerInfo) {remote : Addr}

theorem mem_addSessionForPort {clientID sessionID : Bytes} {port : Int} {ttl : Duration}
    {uses : Int} {entry : Entry SessionKey Session}
    (member : entry ∈ (s.addSessionForPort remote clientID sessionID port ttl uses
      now).sessions.order) :
    (entry ∈ s.sessions.order ∧ (0 ≤ now → clientID ≠ [] → remote.isValid = true →
        entry.key ≠ newSessionKeyForPort remote clientID port)) ∨
      (clientID ≠ [] ∧ remote.isValid = true ∧
        entry = ⟨newSessionKeyForPort remote clientID port,
          ⟨if uses ≤ 0 then 1 else uses, port, sessionID⟩, addDuration now ttl⟩) := by
  unfold addSessionForPort at member
  split at member
  · rename_i refused
    refine Or.inl ⟨member, ?_⟩
    intro _ named valid
    rcases refused with invalid | unnamed
    · rw [valid] at invalid
      cases invalid
    · exact absurd unnamed named
  · rename_i usable
    push Not at usable
    obtain ⟨valid, named⟩ := usable
    simp only [TTLLRU.setUntil] at member
    split at member
    · rename_i zero
      refine Or.inl ⟨member, ?_⟩
      intro modern
      rw [addDuration_not_zero now ttl modern] at zero
      cases zero
    · rcases TTLLRU.mem_of_mem_setLocked member with rfl | ⟨kept, other⟩
      · exact Or.inr ⟨named, by simpa using valid, rfl⟩
      · exact Or.inl ⟨kept, fun _ _ _ => other⟩

theorem addSessionForPort_sessions {clientID : Bytes} (sessionID : Bytes) (port : Int)
    (ttl : Duration) (uses : Int) (valid : remote.isValid = true) (named : clientID ≠ [])
    (modern : 0 ≤ now) :
    (s.addSessionForPort remote clientID sessionID port ttl uses now).sessions =
      s.sessions.setLocked (newSessionKeyForPort remote clientID port)
        ⟨if uses ≤ 0 then 1 else uses, port, sessionID⟩ (addDuration now ttl) := by
  have usable : ¬ (remote.isValid = false ∨ clientID = []) := by simp [valid, named]
  have instant := addDuration_not_zero now ttl modern
  rw [addSessionForPort, if_neg usable]
  simp [TTLLRU.setUntil, instant]

theorem mem_getSessionLocked (key : SessionKey) (now : Int) (entry : Entry SessionKey Session) :
    entry ∈ (s.getSessionLocked key now).2.sessions.order ↔
      entry ∈ s.sessions.order ∧ (entry.key = key → entry.live now = true) := by
  unfold getSessionLocked TTLLRU.peek
  split
  · rename_i absent
    exact (TTLLRU.mem_live_of_none absent).symm
  · rename_i stored found
    rw [TTLLRU.mem_live_of_some found]
    split
    · rename_i live
      simp [live]
    · rename_i expired
      rw [TTLLRU.mem_delete]
      simp [expired]

theorem getSessionLocked_found_iff {key : SessionKey} {sess : Session} {after : KnockSessionStore} :
    s.getSessionLocked key now = (.found sess, after) ↔
      after = s ∧ ∃ entry ∈ s.sessions.order, entry.key = key ∧ entry.live now = true ∧
        entry.value = sess := by
  unfold getSessionLocked TTLLRU.peek
  constructor
  · intro answer
    split at answer
    · cases answer
    rename_i stored found
    obtain ⟨storedMember, storedKey⟩ := TTLLRU.lookup_mem found
    split at answer
    · rename_i live
      cases answer
      exact ⟨rfl, stored, storedMember, storedKey, live, rfl⟩
    · cases answer
  · rintro ⟨rfl, entry, member, same, live, rfl⟩
    rw [TTLLRU.lookup_eq_some_iff.mpr ⟨member, same⟩]
    simp only [live, if_true]

/-- The second lookup of `CheckAndConsume` is for the key of the first. -/
theorem findSession_eq (addr : Addr) (peer : PeerInfo) (now : Int) :
    s.findSession addr peer now =
      (newSessionKeyForPort addr peer.clientID peer.serverPort,
        s.getSessionLocked (newSessionKeyForPort addr peer.clientID peer.serverPort) now) := by
  unfold findSession
  simp only
  split
  · rename_i after first
    have unchanged : after = s := by
      unfold getSessionLocked at first
      split at first
      · cases first
        rfl
      · split at first
        · cases first
        · cases first
    subst unchanged
    split
    · rename_i wildcard
      rw [newSessionKey, ← wildcard]
    · rw [first]
  · rename_i answer after _ first
    rw [first]

/-- The session an authentication of this peer may use. -/
structure Admits (addr : Addr) (peer : PeerInfo) (now : Int) (entry : Entry SessionKey Session) :
    Prop where
  stored : entry ∈ s.sessions.order
  key : entry.key = newSessionKeyForPort addr peer.clientID peer.serverPort
  live : entry.live now = true
  session : entry.value.sessionID ≠ [] → entry.value.sessionID = peer.sessionID
  port : entry.value.port > 0 → peer.serverPort > 0 → entry.value.port = peer.serverPort

theorem checkAndConsume_ok_iff (remote : NetAddr) (now : Int) (next : KnockSessionStore) :
    s.checkAndConsume peer remote now = (.ok (), next) ↔
      ∃ addr entry, addrFromNet remote = some addr ∧ s.Admits addr peer now entry ∧
        next = s.consumeUse entry.key entry.value := by
  unfold checkAndConsume
  constructor
  · intro success
    split at success
    · cases success
    rename_i addr known
    rw [findSession_eq] at success
    split at success
    · cases success
    · cases success
    rename_i key sess after answer
    simp only [Prod.mk.injEq] at answer
    obtain ⟨rfl, answer⟩ := answer
    obtain ⟨rfl, entry, stored, same, live, rfl⟩ :=
      (getSessionLocked_found_iff s).mp answer
    split at success
    · cases success
    rename_i session
    split at success
    · cases success
    rename_i port
    cases success
    push Not at session port
    exact ⟨addr, entry, known, ⟨stored, same, live, session, port⟩, by rw [same]⟩
  · rintro ⟨addr, entry, known, admits, rfl⟩
    rw [known]
    have answer := (getSessionLocked_found_iff s).mpr
      ⟨rfl, entry, admits.stored, admits.key, admits.live, rfl⟩
    simp only [findSession_eq, answer]
    rw [if_neg (fun wrong => wrong.2 (admits.session wrong.1)),
      if_neg (fun wrong => wrong.2.2 (admits.port wrong.1 wrong.2.1)), admits.key]

theorem mem_checkAndConsume_error {peer : PeerInfo} {remote : NetAddr} {failure : AuthError}
    (refused : s.checkAndConsume peer remote now = (.error failure, next))
    (entry : Entry SessionKey Session) :
    (entry ∈ next.sessions.order → entry ∈ s.sessions.order) ∧
      (entry ∈ s.sessions.order → entry.live now = true → entry ∈ next.sessions.order) := by
  unfold checkAndConsume at refused
  split at refused
  · cases refused
    exact ⟨id, fun member _ => member⟩
  · rename_i addr known
    have looked : next = (s.getSessionLocked
        (newSessionKeyForPort addr peer.clientID peer.serverPort) now).2 := by
      rw [findSession_eq] at refused
      split at refused
      · rename_i key after answer
        simp only [Prod.mk.injEq] at answer
        cases refused
        rw [answer.2]
      · rename_i key after answer
        simp only [Prod.mk.injEq] at answer
        cases refused
        rw [answer.2]
      · rename_i key sess after answer
        simp only [Prod.mk.injEq] at answer
        rw [answer.2]
        split at refused
        · cases refused
          rfl
        · split at refused
          · cases refused
            rfl
          · cases refused
    subst looked
    rw [mem_getSessionLocked]
    exact ⟨fun kept => kept.1, fun member live => ⟨member, fun _ => live⟩⟩

theorem mem_consumeUse {stored entry : Entry SessionKey Session}
    (member : stored ∈ s.sessions.order) :
    entry ∈ (s.consumeUse stored.key stored.value).sessions.order ↔
      (entry ∈ s.sessions.order ∧ entry.key ≠ stored.key) ∨
        (1 < stored.value.remaining ∧ entry = { stored with value :=
          { stored.value with remaining := stored.value.remaining - 1 } }) := by
  have written : ∀ other, other ∈ (s.sessions.updateValue fun old => if old.key = stored.key then
      { stored.value with remaining := stored.value.remaining - 1 } else old.value).order ↔
        (other ∈ s.sessions.order ∧ other.key ≠ stored.key) ∨ other = { stored with value :=
          { stored.value with remaining := stored.value.remaining - 1 } } := by
    intro other
    rw [TTLLRU.mem_updateValue]
    constructor
    · rintro ⟨old, oldMember, rfl⟩
      by_cases same : old.key = stored.key
      · right
        rw [s.sessions.eq_of_key_eq oldMember member same]
        simp
      · left
        simp only [same, if_false]
        exact ⟨oldMember, same⟩
    · rintro (⟨kept, different⟩ | rfl)
      · exact ⟨other, kept, by simp [different]⟩
      · exact ⟨stored, member, by simp⟩
  unfold consumeUse
  simp only
  split
  · rename_i last
    rw [TTLLRU.mem_delete, written]
    constructor
    · rintro ⟨(kept | rfl), different⟩
      · exact Or.inl kept
      · exact absurd rfl different
    · rintro (kept | ⟨more, _⟩)
      · exact ⟨Or.inl kept, kept.2⟩
      · omega
  · rename_i more
    rw [written]
    constructor
    · rintro (kept | used)
      · exact Or.inl kept
      · exact Or.inr ⟨by omega, used⟩
    · rintro (kept | ⟨_, used⟩)
      · exact Or.inl kept
      · exact Or.inr used

def expiries : List Int := s.sessions.order.map Entry.expiresAt

theorem checkAndConsume_expiries (remote : NetAddr) (now : Int) :
    (s.checkAndConsume peer remote now).2.expiries.Sublist s.expiries := by
  have looked : ∀ key, (s.getSessionLocked key now).2.expiries.Sublist s.expiries := by
    intro key
    unfold getSessionLocked
    split
    · exact List.Sublist.refl _
    · split
      · exact List.Sublist.refl _
      · exact (TTLLRU.delete_sublist key s.sessions).map _
  cases outcome : s.checkAndConsume peer remote now with
  | mk result next =>
    cases result with
    | error failure =>
      unfold checkAndConsume at outcome
      split at outcome
      · cases outcome
        exact List.Sublist.refl _
      · rename_i addr known
        have found := looked (newSessionKeyForPort addr peer.clientID peer.serverPort)
        rw [findSession_eq] at outcome
        cases answer : s.getSessionLocked
            (newSessionKeyForPort addr peer.clientID peer.serverPort) now with
        | mk lookup after =>
          rw [answer] at outcome found
          cases lookup with
          | absent | expired =>
            cases outcome
            exact found
          | found sess =>
            simp only at outcome
            split at outcome
            · cases outcome
              exact found
            · split at outcome
              · cases outcome
                exact found
              · cases outcome
    | ok nothing =>
      obtain ⟨addr, entry, _, _, rfl⟩ :=
        (checkAndConsume_ok_iff s peer remote now next).mp outcome
      have written : ∀ change, ((s.sessions.updateValue change).order.map Entry.expiresAt) =
          s.expiries := by
        intro change
        simp only [TTLLRU.updateValue, List.map_map, expiries]
        rfl
      unfold consumeUse
      simp only
      split
      · rw [expiries, ← written]
        exact (TTLLRU.delete_sublist _ _).map _
      · rw [expiries, written]

/-! ## What the operations do to the leases -/

@[simp] theorem addSessionForPort_firewall (remote : Addr) (clientID sessionID : Bytes) (port : Int)
    (ttl : Duration) (uses now : Int) :
    (s.addSessionForPort remote clientID sessionID port ttl uses now).firewall = s.firewall := by
  unfold addSessionForPort
  split
  · rfl
  · rfl

@[simp] theorem checkAndConsume_firewall (remote : NetAddr) (now : Int) :
    (s.checkAndConsume peer remote now).2.firewall = s.firewall := by
  have looked : ∀ key, (s.getSessionLocked key now).2.firewall = s.firewall := by
    intro key
    unfold getSessionLocked
    split
    · rfl
    · split
      · rfl
      · rfl
  have used : ∀ (store : KnockSessionStore) key sess,
      (store.consumeUse key sess).firewall = store.firewall := by
    intro store key sess
    unfold consumeUse
    simp only
    split
    · rfl
    · rfl
  unfold checkAndConsume
  split
  · rfl
  rename_i addr known
  rw [findSession_eq]
  have found := looked (newSessionKeyForPort addr peer.clientID peer.serverPort)
  split
  · rename_i answer
    rw [← found, (Prod.mk.inj answer).2]
  · rename_i answer
    rw [← found, (Prod.mk.inj answer).2]
  · rename_i key sess after answer
    rw [(Prod.mk.inj answer).2] at found
    split
    · exact found
    · split
      · exact found
      · exact (used after key sess).trans found

theorem activeLease_iff (key : FirewallKey) (now : Int) :
    s.activeLease key now = true ↔
      ∃ lease ∈ s.firewall.order, lease.key = key ∧ lease.live now = true := by
  unfold activeLease TTLLRU.peek
  constructor
  · intro active
    split at active
    · rename_i lease found
      obtain ⟨member, same⟩ := TTLLRU.lookup_mem found
      exact ⟨lease, member, same, active⟩
    · cases active
  · rintro ⟨lease, member, same, live⟩
    rw [TTLLRU.lookup_eq_some_iff.mpr ⟨member, same⟩]
    exact live

theorem mem_grantLease {key : FirewallKey} (ttl : Duration) (modern : 0 ≤ now)
    (room : key ∈ s.firewall.keys ∨ s.firewall.order.length < s.firewall.maxEntries)
    (lease : Entry FirewallKey FirewallLease) :
    lease ∈ (s.grantLease key ttl now).2.firewall.order ↔
      lease = ⟨key, ⟨s.nextID + 1⟩, addDuration now ttl⟩ ∨
        lease ∈ s.firewall.order ∧ lease.key ≠ key := by
  simp only [grantLease, TTLLRU.setUntil, addDuration_not_zero now ttl modern, Bool.false_eq_true,
    if_false]
  exact TTLLRU.mem_setLocked_iff room

theorem mem_markFirewall {port : Int} {ttl : Duration} (modern : 0 ≤ now)
    (marked : s.markFirewall remote port ttl now = (some id, next)) :
    id = s.nextID + 1 ∧ remote.isValid = true ∧ 0 < port ∧
      ∀ lease, lease ∈ next.firewall.order ↔
        lease = ⟨⟨remote, port⟩, ⟨id⟩, addDuration now ttl⟩ ∨
          (lease ∈ s.firewall.order ∧ lease.live now = true) ∧ lease.key ≠ ⟨remote, port⟩ := by
  unfold markFirewall at marked
  split at marked
  · cases marked
  rename_i usable
  push Not at usable
  simp only at marked
  have granted : ((⟨remote, port⟩ : FirewallKey) ∈ (s.firewall.sweep now).2.keys ∨
        (s.firewall.sweep now).2.order.length < (s.firewall.sweep now).2.maxEntries) →
      (grantLease ⟨remote, port⟩ ttl now
      { s with firewall := (s.firewall.sweep now).2 }) = (some id, next) →
      id = s.nextID + 1 ∧ ∀ lease, lease ∈ next.firewall.order ↔
        lease = ⟨⟨remote, port⟩, ⟨id⟩, addDuration now ttl⟩ ∨
          (lease ∈ s.firewall.order ∧ lease.live now = true) ∧ lease.key ≠ ⟨remote, port⟩ := by
    intro room outcome
    have member := mem_grantLease { s with firewall := (s.firewall.sweep now).2 } ttl modern room
    rw [outcome] at member
    cases outcome
    refine ⟨rfl, fun lease => ?_⟩
    rw [member lease, TTLLRU.mem_sweep]
  have valid : remote.isValid = true := by simpa using usable.1
  split at marked
  · rename_i renewed
    have present : (⟨remote, port⟩ : FirewallKey) ∈ (s.firewall.sweep now).2.keys := by
      obtain ⟨lease, member, same, _⟩ := (activeLease_iff _ _ now).mp renewed
      rw [← same]
      exact List.mem_map_of_mem member
    obtain ⟨idEq, members⟩ := granted (Or.inl present) marked
    exact ⟨idEq, valid, usable.2.1, members⟩
  · split at marked
    · cases marked
    rename_i full
    obtain ⟨idEq, members⟩ := granted (Or.inr (by simpa [TTLLRU.cap, TTLLRU.len] using full))
      marked
    exact ⟨idEq, valid, usable.2.1, members⟩

theorem mem_markFirewall_full {port : Int} {ttl : Duration}
    (refused : s.markFirewall remote port ttl now = (none, next)) :
    (next = s ∧ (remote.isValid = false ∨ port ≤ 0 ∨ ttl ≤ 0)) ∨
      ((∀ lease, lease ∈ next.firewall.order ↔ lease ∈ s.firewall.order ∧ lease.live now = true) ∧
        ∀ lease ∈ next.firewall.order, lease.key ≠ ⟨remote, port⟩) := by
  unfold markFirewall at refused
  split at refused
  · rename_i unusable
    cases refused
    exact Or.inl ⟨rfl, unusable⟩
  · simp only at refused
    split at refused
    · cases refused
    rename_i stale
    split at refused
    · cases refused
      refine Or.inr ⟨fun lease => TTLLRU.mem_sweep, ?_⟩
      intro lease member clash
      have live := (TTLLRU.mem_sweep.mp member).2
      exact stale ((activeLease_iff _ _ now).mpr ⟨lease, member, clash, live⟩)
    · cases refused

theorem mem_expireFirewall {port : Int}
    (expired : s.expireFirewall remote port id now = (true, next)) :
    ∀ lease, lease ∈ next.firewall.order ↔
      lease ∈ s.firewall.order ∧ lease.key ≠ ⟨remote, port⟩ := by
  unfold expireFirewall at expired
  split at expired
  · cases expired
  split at expired
  · cases expired
  split at expired
  · cases expired
  simp only [Prod.mk.injEq] at expired
  intro lease
  rw [← expired.2]
  exact TTLLRU.mem_delete

theorem expireFirewall_true {port : Int}
    (expired : s.expireFirewall remote port id now = (true, next)) :
    ∃ lease ∈ s.firewall.order, lease.key = ⟨remote, port⟩ ∧ lease.value.id = id ∧
      lease.live now = false := by
  unfold expireFirewall at expired
  split at expired
  · cases expired
  split at expired
  · cases expired
  rename_i lease found
  obtain ⟨member, same⟩ := TTLLRU.lookup_mem found
  split at expired
  · cases expired
  rename_i own
  push Not at own
  exact ⟨lease, member, same, own.1, by simpa using own.2⟩

theorem expireFirewall_false {port : Int}
    (kept : s.expireFirewall remote port id now = (false, next)) :
    next = s ∧ (id ≠ 0 → ∀ lease ∈ s.firewall.order, lease.key = ⟨remote, port⟩ →
      lease.value.id = id → lease.live now = true) := by
  unfold expireFirewall at kept
  split at kept
  · rename_i zero
    cases kept
    exact ⟨rfl, fun nonzero => absurd zero nonzero⟩
  · split at kept
    · rename_i absent
      cases kept
      refine ⟨rfl, fun _ lease member same _ => ?_⟩
      exact absurd same (TTLLRU.lookup_eq_none_iff.mp absent lease member)
    · rename_i stored found
      obtain ⟨storedMember, storedKey⟩ := TTLLRU.lookup_mem found
      split at kept
      · rename_i current
        cases kept
        refine ⟨rfl, fun _ lease member same own => ?_⟩
        have equal := s.firewall.eq_of_key_eq member storedMember (same.trans storedKey.symm)
        subst equal
        rcases current with other | live
        · exact absurd own other
        · exact live
      · simp only [Prod.mk.injEq, TTLLRU.delete_fst] at kept
        have present : (s.firewall.lookup ⟨remote, port⟩).isSome = true := by
          rw [show s.firewall.lookup ⟨remote, port⟩ = some stored from found]
          rfl
        rw [present] at kept
        cases kept.1

end KnockSessionStore

/-! ## Knocks -/

/-- What a knock listener hands to its handler. -/
structure KnockEvent where
  sourceIP : Bytes
  clientID : Bytes
  sessionID : Bytes

/-- The settings of a gate or gateway that its handlers read; `listenPort` is
`ListenerPortFromString` of the configured listen address. -/
structure KnockConfig where
  allowTTL : Duration
  maxConnectionsPerKnock : Int
  serverPort : Int
  listener : NetAddr
  listenPort : Int
  firewallOnly : Bool
  removeAfterAuth : Bool

def KnockConfig.ttl (cfg : KnockConfig) : Duration :=
  if cfg.allowTTL ≤ 0 then second * 60 else cfg.allowTTL

def listenerPort : NetAddr → Int
  | .tcp _ port => port
  | _ => 0

def KnockConfig.port (cfg : KnockConfig) : Int :=
  if cfg.serverPort ≤ 0 then listenerPort cfg.listener else cfg.serverPort

end Libknock.Relay
