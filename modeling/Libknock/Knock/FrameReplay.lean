import Libknock.Knock.RoundTrip

/-!
# Replayed knock frames

A run of `OpenKnockFrame` calls that share a replay cache, each with its own
packet and configuration.  The cache remembers a nonce for two windows and a
second, which is longer than a timestamp can stay fresh; what comes back under
an old nonce must carry a newer timestamp.
-/

set_option autoImplicit false

namespace Libknock.Knock

open Foundation Protocol Auth

structure KnockCall where
  config : ServerConfig
  packet : Bytes
  clock : KnockReadings

section Runs

variable (crypto : Crypto)

def knockStep (c : MemoryReplayCache) (call : KnockCall) :
    Except AuthError KnockInfo × MemoryReplayCache :=
  let outcome := openKnockFrameChecked crypto MemoryReplayCache.checkAndMark call.config call.packet
    call.clock (some c)
  (outcome.1, outcome.2.getD c)

def acceptedPair : Except AuthError KnockInfo → Option (Bytes × Bytes)
  | .ok info => some (info.clientID, info.nonce)
  | .error _ => none

/-! ## One call -/

/-- What a packet says to a configuration before clock and cache are asked. -/
def Carries (config : ServerConfig) (packet : Bytes) (client : ClientSecret) (h : KnockFrameHeader)
    (payload : KnockPayload) : Prop :=
  ∃ sealed, config.withDefaults.parse packet = .ok (h, sealed) ∧
    config.withDefaults.findClient crypto h sealed false config.clients = .ok (client, payload)

theorem Carries.unique {crypto : Crypto} {config : ServerConfig} {packet : Bytes}
    {client other : ClientSecret} {h g : KnockFrameHeader} {payload content : KnockPayload}
    (first : Carries crypto config packet client h payload)
    (second : Carries crypto config packet other g content) :
    client = other ∧ h = g ∧ payload = content := by
  obtain ⟨sealed, parsed, found⟩ := first
  obtain ⟨body, parsedAgain, foundAgain⟩ := second
  rw [parsed] at parsedAgain
  cases parsedAgain
  rw [found] at foundAgain
  cases foundAgain
  exact ⟨rfl, rfl, rfl⟩

theorem knockStep_cases (c : MemoryReplayCache) (call : KnockCall) :
    (∃ err, knockStep crypto c call = (.error err, c)) ∨
      ∃ client h payload, Carries crypto call.config call.packet client h payload ∧
        call.config.withDefaults.validatePayload h payload call.clock.check = .ok () ∧
        (knockStep crypto c call).2 =
          (c.checkAndMark client.clientID h.nonce.bytes call.clock.mark).2 ∧
        (knockStep crypto c call).1 =
          (c.checkAndMark client.clientID h.nonce.bytes call.clock.mark).1.map
            fun _ => knockInfo client h payload := by
  unfold knockStep openKnockFrameChecked openKnockFrame
  simp only
  cases parsed : call.config.withDefaults.parse call.packet with
  | error err => exact Or.inl ⟨err, rfl⟩
  | ok frame =>
    obtain ⟨h, sealed⟩ := frame
    simp only
    cases found : call.config.withDefaults.findClient crypto h sealed false
        call.config.withDefaults.clients with
    | error err => exact Or.inl ⟨err, rfl⟩
    | ok result =>
      obtain ⟨client, payload⟩ := result
      simp only
      cases valid : call.config.withDefaults.validatePayload h payload call.clock.check with
      | error err => exact Or.inl ⟨err, rfl⟩
      | ok _ =>
        right
        refine ⟨client, h, payload, ⟨sealed, parsed, found⟩, valid, ?_⟩
        simp only
        cases c.checkAndMark client.clientID h.nonce.bytes call.clock.mark with
        | mk answer next =>
          cases answer with
          | error | ok => exact ⟨rfl, rfl⟩

theorem knockStep_accepted (c : MemoryReplayCache) (call : KnockCall) (info : KnockInfo)
    (accepted : (knockStep crypto c call).1 = .ok info) :
    ∃ client h payload, Carries crypto call.config call.packet client h payload ∧
      info = knockInfo client h payload ∧
      WithinWindow call.config.withDefaults.timeWindow call.clock.check payload.timestampMS ∧
      (c.checkAndMark info.clientID info.nonce call.clock.mark).1 = .ok () ∧
      (knockStep crypto c call).2 = (c.checkAndMark info.clientID info.nonce call.clock.mark).2 := by
  rcases knockStep_cases crypto c call with ⟨err, refused⟩ | ⟨client, h, payload, read, valid, next,
    answer⟩
  · rw [refused] at accepted
    cases accepted
  · rw [answer] at accepted
    cases marked : (c.checkAndMark client.clientID h.nonce.bytes call.clock.mark).1 with
    | error err =>
      rw [marked] at accepted
      cases accepted
    | ok _ =>
      rw [marked] at accepted
      cases accepted
      exact ⟨client, h, payload, read, rfl,
        (ServerConfig.validatePayload_ok_iff.mp valid).timely, marked, next⟩

/-! ## Runs -/

theorem knockStep_remembering (ttl : Duration) :
    Remembering (knockStep crypto) (fun call => call.clock.mark) acceptedPair
      (fun c => c.Counted ∧ c.ttl = ttl)
      (fun c pair until_ => ⟨replayKey pair.1 pair.2, (), until_⟩ ∈ c.entries.order) ttl.toInt := by
  refine MemoryReplayCache.remembering ttl ?_ ?_
  · intro c call
    rcases knockStep_cases crypto c call with ⟨err, refused⟩ | ⟨client, h, payload, _, _, next, _⟩
    · exact Or.inl (congrArg Prod.snd refused)
    · exact Or.inr ⟨_, _, next⟩
  · intro c call pair granted
    cases outcome : (knockStep crypto c call).1 with
    | error err =>
      rw [outcome] at granted
      cases granted
    | ok info =>
      rw [outcome] at granted
      cases granted
      obtain ⟨_, _, _, _, _, _, marked, next⟩ := knockStep_accepted crypto c call info outcome
      exact Prod.ext marked next.symm

end Runs

/-! ## The caches of the listeners -/

def effectiveWindow (window : Duration) : Duration :=
  if window ≤ 0 then 30 * second else window

variable (window : Duration)

theorem effectiveWindow_pos : 0 < (effectiveWindow window).toInt := by
  unfold effectiveWindow
  split
  · decide
  · rename_i positive
    exact Int64.lt_iff_toInt_lt.mp (Int64.not_le.mp positive)

theorem doubledWindow {window : Duration}
    (fits : 2 * (effectiveWindow window).toInt + second.toInt < 2 ^ 63) :
    (2 * effectiveWindow window + second).toInt =
      2 * (effectiveWindow window).toInt + second.toInt := by
  have positive := effectiveWindow_pos window
  have unit : second.toInt = 1000000000 := by decide
  have two : (2 : Int64).toInt = 2 := by decide
  have doubled : (2 * effectiveWindow window).toInt = 2 * (effectiveWindow window).toInt := by
    rw [Int64.toInt_mul, two]
    exact Int.bmod_eq_of_le (by simp; omega) (by simp; omega)
  rw [Int64.toInt_add, doubled]
  exact Int.bmod_eq_of_le (by simp; omega) (by simp; omega)

theorem new_ttl (ttl : Duration) (positive : 0 < ttl) : (MemoryReplayCache.new ttl).ttl = ttl := by
  have lasting : ¬ ttl ≤ 0 := Int64.not_le.mpr positive
  simp only [MemoryReplayCache.new, MemoryReplayCache.newWithLimit, if_neg lasting]

theorem knockReplayTTL_pos : 0 < knockReplayTTL window := by
  have floor : defaultKnockReplayTTL.toInt = 300000000000 := by decide
  unfold knockReplayTTL
  generalize (if window ≤ 0 then 30 * second else window) = effective
  simp only
  rw [Int64.lt_iff_toInt_lt]
  split
  · rw [floor]
    decide
  · rename_i long
    rw [Int64.lt_iff_toInt_lt, floor] at long
    exact Int.lt_of_lt_of_le (by decide) (Int.not_lt.mp long)

/-- A nonce is remembered for at least two windows and a second. -/
theorem knockReplayTTL_covers (fits : 2 * (effectiveWindow window).toInt + second.toInt < 2 ^ 63) :
    2 * (effectiveWindow window).toInt + second.toInt ≤ (knockReplayTTL window).toInt := by
  have doubled := doubledWindow fits
  have positive := effectiveWindow_pos window
  have unit : second.toInt = 1000000000 := by decide
  have floor : defaultKnockReplayTTL.toInt = 300000000000 := by decide
  unfold knockReplayTTL
  simp only
  rw [show (if window ≤ 0 then 30 * second else window) = effectiveWindow window from rfl]
  split
  · rename_i short
    rw [Int64.lt_iff_toInt_lt, doubled] at short
    omega
  · omega

theorem replayCache_covers (fits : 2 * (effectiveWindow window).toInt + second.toInt < 2 ^ 63) :
    2 * (effectiveWindow window).toInt + second.toInt ≤ (replayCache window).ttl.toInt := by
  have doubled := doubledWindow fits
  have positive := effectiveWindow_pos window
  have unit : second.toInt = 1000000000 := by decide
  have floor : (5 * minute).toInt = 300000000000 := by decide
  unfold replayCache
  simp only
  split
  · rename_i long
    have same : effectiveWindow window = window := if_neg (Int64.not_le.mpr long.1)
    rw [same] at doubled positive ⊢
    rw [new_ttl, doubled]
    rw [Int64.lt_iff_toInt_lt, doubled]
    simp
    omega
  · rename_i short
    rw [new_ttl _ (by decide), floor]
    by_cases default : window ≤ 0
    · have same : effectiveWindow window = 30 * second := if_pos default
      rw [same]
      decide
    · have same : effectiveWindow window = window := if_neg default
      rw [same] at doubled ⊢
      have bounded : ¬ 5 * minute < 2 * window + second := fun long =>
        short ⟨Int64.not_le.mp default, long⟩
      rw [Int64.lt_iff_toInt_lt, doubled, floor] at bounded
      omega

theorem fits_effective (fits : 2 * window.toInt + second.toInt < 2 ^ 63) :
    2 * (effectiveWindow window).toInt + second.toInt < 2 ^ 63 := by
  unfold effectiveWindow
  split
  · decide
  · exact fits

theorem withinWindow_bounds (now : Int) (timestamp : Int64) (positive : 0 < window.toInt)
    (room : window.toInt < 2 ^ 63 - 1) (fresh : WithinWindow window now timestamp) :
    unixMilli timestamp - now ≤ window.toInt ∧ now - unixMilli timestamp ≤ window.toInt :=
  ⟨(neg_le_since_iff now _ window positive).mp fresh.1, (since_le_iff now _ window room).mp fresh.2⟩

/-- Where two calls accept one pair of client and nonce, the later one's frame
was stamped later; in particular no packet is accepted twice by one
configuration. -/
theorem openKnockFrame_accepts_newer (crypto : Crypto) (window : Duration)
    (fits : 2 * window.toInt + second.toInt < 2 ^ 63) (c : MemoryReplayCache)
    (own : c = .new (knockReplayTTL window) ∨ c = replayCache window) (calls : List KnockCall)
    (configured : ∀ call ∈ calls, call.config.timeWindow = window)
    (ordered : (calls.map fun call => call.clock.mark).Pairwise (· ≤ ·))
    (prompt : ∀ call ∈ calls, call.clock.check ≤ call.clock.mark ∧
      call.clock.mark < call.clock.check + second.toInt)
    (i j : Nat) (early late : KnockCall) (first later : KnockInfo) (before : i < j)
    (earlyAt : calls[i]? = some early) (lateAt : calls[j]? = some late)
    (firstOk : (transcript (knockStep crypto) c calls)[i]? = some (.ok first))
    (laterOk : (transcript (knockStep crypto) c calls)[j]? = some (.ok later))
    (sameClient : first.clientID = later.clientID) (sameNonce : first.nonce = later.nonce) :
    first.timestamp < later.timestamp ∧ (early.config = late.config → early.packet ≠ late.packet) := by
  have wide := fits_effective window fits
  have positive := effectiveWindow_pos window
  have unit : second.toInt = 1000000000 := by decide
  have start : c.Counted := by
    rcases own with rfl | rfl
    · exact MemoryReplayCache.newWithLimit_counted _ _
    · exact MemoryReplayCache.newWithLimit_counted _ _
  have covers : 2 * (effectiveWindow window).toInt + second.toInt ≤ c.ttl.toInt := by
    rcases own with rfl | rfl
    · rw [new_ttl _ (knockReplayTTL_pos window)]
      exact knockReplayTTL_covers window wide
    · exact replayCache_covers window wide
  have memory := knockStep_remembering crypto c.ttl
  have spaced := memory.spaced calls c ⟨start, rfl⟩ ordered i j early late _ _
    (later.clientID, later.nonce) before earlyAt lateAt firstOk laterOk
    (by rw [acceptedPair, sameClient, sameNonce]) rfl
  obtain ⟨earlyCache, _, earlyStep⟩ := memory.answered calls c ⟨start, rfl⟩ i early _ earlyAt firstOk
  obtain ⟨lateCache, _, lateStep⟩ := memory.answered calls c ⟨start, rfl⟩ j late _ lateAt laterOk
  obtain ⟨_, _, earlyPayload, earlyRead, rfl, earlyFresh, _⟩ :=
    knockStep_accepted crypto earlyCache early first earlyStep
  obtain ⟨_, _, latePayload, lateRead, rfl, lateFresh, _⟩ :=
    knockStep_accepted crypto lateCache late later lateStep
  have earlyWindow : early.config.withDefaults.timeWindow = effectiveWindow window := by
    rw [← configured early (List.mem_of_getElem? earlyAt)]
    rfl
  have lateWindow : late.config.withDefaults.timeWindow = effectiveWindow window := by
    rw [← configured late (List.mem_of_getElem? lateAt)]
    rfl
  rw [earlyWindow] at earlyFresh
  rw [lateWindow] at lateFresh
  have earlyBounds := withinWindow_bounds _ _ _ positive (by omega) earlyFresh
  have lateBounds := withinWindow_bounds _ _ _ positive (by omega) lateFresh
  have earlyPrompt := prompt early (List.mem_of_getElem? earlyAt)
  have latePrompt := prompt late (List.mem_of_getElem? lateAt)
  have newer : unixMilli earlyPayload.timestampMS < unixMilli latePayload.timestampMS := by omega
  refine ⟨newer, ?_⟩
  rintro sameConfig samePacket
  rw [sameConfig, samePacket] at earlyRead
  obtain ⟨_, _, rfl⟩ := earlyRead.unique lateRead
  exact absurd newer (Int.lt_irrefl _)

/-! ## A nonce used again -/

def sampleKnockAt (timestamp : Int) : KnockFrameOptions :=
  { sampleKnock with timestamp := timestamp }

def sampleKnockCall (timestamp now : Int) : KnockCall :=
  ⟨sampleServer,
    match buildKnockFrame keyTagCrypto (sampleKnockAt timestamp) sampleDraws with
    | .error _ => []
    | .ok packet => packet,
    ⟨now, now⟩⟩

def sampleReuse : List KnockCall :=
  [sampleKnockCall 1000000000000000000 1000000000000000000,
    sampleKnockCall 1000000600000000000 1000000600000000000]

/-- A client that seals a second frame under a nonce it used ten minutes before
is accepted both times. -/
theorem openKnockFrame_accepts_nonce_again :
    (transcript (knockStep keyTagCrypto) (.new (knockReplayTTL (10 * second)))
      sampleReuse).map acceptedPair =
      [some (ascii "alice", sampleKnock.nonce), some (ascii "alice", sampleKnock.nonce)] := by
  decide +kernel

theorem openKnockFrame_accepts_newer_sample :
    (sampleKnockCall 1000000000000000000 1000000000000000000).packet ≠
      (sampleKnockCall 1000000600000000000 1000000600000000000).packet :=
  (openKnockFrame_accepts_newer keyTagCrypto (10 * second) (by decide)
    (.new (knockReplayTTL (10 * second))) (Or.inl rfl) sampleReuse (by decide) (by decide) (by decide)
    0 1 (sampleKnockCall 1000000000000000000 1000000000000000000)
    (sampleKnockCall 1000000600000000000 1000000600000000000)
    ((sampleKnockAt 1000000000000000000).info keyTagCrypto sampleDraws)
    ((sampleKnockAt 1000000600000000000).info keyTagCrypto sampleDraws) (by decide) rfl rfl
    (by decide +kernel) (by decide +kernel) (by decide +kernel) (by decide +kernel)).2 rfl

end Libknock.Knock
