import Libknock.Auth.Replay
import Libknock.Knock.SYNSequence

/-!
# Sequences as the command configures them

`sequenceOptions` of `cmd/knock-proxy/config.go`.  Server and client read the
same section.  Its bound on the length is the number of parts of a UDP
sequence, not that of a SYN sequence.
-/

set_option autoImplicit false

namespace Libknock.Cmd

open Foundation Protocol Auth Knock

inductive ConfigError (ParseError : Type) where
  | text (message : Bytes)
  | wrapped (message : Bytes) (err : ParseError)

structure SequenceConfig where
  length : Int
  slotSeconds : Int
  window : Bytes
  packetInterval : Bytes
  maxJitter : Bytes
  maxInflightPerIP : Int
  maxTotalInflight : Int

structure ReplayConfig where
  nonceTTL : Bytes

/-- The part of the `knock` section that `sequenceOptions` reads. -/
structure KnockConfig where
  sequenceWindow : Bytes
  sequenceMaxParts : Int
  sequence : SequenceConfig
  replay : ReplayConfig

def defaultInt (v fallback : Int) : Int := if v = 0 then fallback else v

section Options

variable {ParseError : Type} (parseDuration : Bytes → Except ParseError Duration)

def parseDurationDefault (v : Bytes) (d : Duration) : Except ParseError Duration :=
  if v = [] then .ok d else parseDuration v

/-- A duration of the section, with the name of its field before an error. -/
def durationField (field : Bytes) (v : Bytes) (d : Duration) :
    Except (ConfigError ParseError) Duration :=
  (parseDurationDefault parseDuration v d).mapError (.wrapped (field ++ ascii ": "))

def sequenceOptions (k : KnockConfig) :
    Except (ConfigError ParseError) (SequenceOptions × Duration) := do
  let maxParts := defaultInt k.sequenceMaxParts defaultSequenceMaxParts
  if maxParts < 2 ∨ defaultSequenceMaxParts < maxParts then
    throw (.text (ascii s!"knock.sequence_max_parts must be between 2 and {defaultSequenceMaxParts}"))
  let length := defaultInt k.sequence.length 3
  if length < 2 ∨ maxParts < length then
    throw (.text (ascii s!"knock.sequence.length must be between 2 and {maxParts}"))
  let slot := defaultInt k.sequence.slotSeconds 30
  if slot < 5 then
    throw (.text (ascii "knock.sequence.slot_seconds must be at least 5"))
  let windowText := if k.sequenceWindow ≠ [] then k.sequenceWindow else k.sequence.window
  let window ← durationField parseDuration (ascii "knock.sequence.window") windowText (5 * second)
  let interval ← durationField parseDuration (ascii "knock.sequence.packet_interval")
    k.sequence.packetInterval (80 * millisecond)
  let jitter ← durationField parseDuration (ascii "knock.sequence.max_jitter")
    k.sequence.maxJitter 0
  let nonceTTL ← durationField parseDuration (ascii "knock.replay.nonce_ttl") k.replay.nonceTTL
    (120 * second)
  if nonceTTL ≤ window then
    throw (.text (ascii "knock.replay.nonce_ttl must be greater than knock.sequence.window"))
  return (⟨length, slot, window, interval, jitter, defaultInt k.sequence.maxInflightPerIP 8,
    defaultInt k.sequence.maxTotalInflight 4096, false⟩, nonceTTL)

theorem sequenceOptions_ok {k : KnockConfig} {opts : SequenceOptions} {nonceTTL : Duration}
    (accepted : sequenceOptions parseDuration k = .ok (opts, nonceTTL)) :
    2 ≤ opts.length ∧ opts.length ≤ 8 ∧ 5 ≤ opts.slotSeconds ∧ opts.allowLegacySYNSeq = false := by
  simp only [sequenceOptions, bind, Except.bind, throw, throwThe, MonadExceptOf.throw, pure,
    Except.pure] at accepted
  split at accepted
  · cases accepted
  split at accepted
  · cases accepted
  split at accepted
  · cases accepted
  rename_i parts length slot
  -- The four durations, then the bound on the lifetime of a nonce.
  split at accepted
  · cases accepted
  split at accepted
  · cases accepted
  split at accepted
  · cases accepted
  split at accepted
  · cases accepted
  split at accepted
  · cases accepted
  cases accepted
  unfold defaultSequenceMaxParts at parts length
  exact ⟨by simp only; omega, by simp only; omega, by simp only; omega, rfl⟩

end Options

/-! ## Honest sequences -/

section Sequences

variable {Cache : Type} (crypto : Crypto) (checkAndMark : CheckAndMark Cache)
  (clients : List ClientSecret) (protectedPort : Int)

/-- Every part but the last is answered `false`, and the last completes the
sequence of the client. -/
def CompletesAtLast (client : ClientSecret) (slot : Int) (t : SYNSeqTracker Cache) (src : IPText)
    (calls : List SYNSeqCall) : Prop :=
  answersTo src calls
      (transcript (SYNSeqTracker.add crypto checkAndMark clients protectedPort) t calls) =
    List.replicate ((computeSYNSeqParts crypto client.secret client.clientID protectedPort slot
      t.opts.length false).length - 1) (false, []) ++ [(true, client.clientID)]

/-- The parts of a sequence that the command accepts complete it exactly when
there are as many as its length: up to five. -/
theorem synSequence_completes_iff {ParseError : Type}
    (parseDuration : Bytes → Except ParseError Duration) (k : KnockConfig) (opts : SequenceOptions)
    (nonceTTL : Duration) (accepted : sequenceOptions parseDuration k = .ok (opts, nonceTTL))
    (t : SYNSeqTracker Cache) (settings : t.opts = normalizedSequenceOptions opts)
    (client : ClientSecret) (member : client ∈ clients) (slot : Int)
    (apart : PartsApart crypto clients protectedPort client slot t.opts.length)
    (first : SYNSeqCall) (rest : List SYNSeqCall)
    (arrives : Arrives crypto protectedPort t.opts client slot first.src first.now 0 (first :: rest))
    (room : (t.pruneLocked first.now).perIP first.src.text < t.opts.maxInflightPerIP ∧
      (t.pruneLocked first.now).total < t.opts.maxTotalInflight)
    (unseen : (checkSYNReplay checkAndMark client.clientID first.fields protectedPort first.mark
      t.replay).1 = .ok ()) :
    CompletesAtLast crypto checkAndMark clients protectedPort client slot t first.src
        (first :: rest) ↔ opts.length ≤ 5 := by
  obtain ⟨low, high, _, modern⟩ := sequenceOptions_ok parseDuration accepted
  have length : t.opts.length = opts.length := by
    rw [settings]
    exact if_neg (by omega)
  have legacy : t.opts.allowLegacySYNSeq = false := by
    rw [settings]
    exact modern
  have answers := answers_to_parts member apart legacy (by omega) arrives room unseen
  have counted : (computeSYNSeqParts crypto client.secret client.clientID protectedPort slot
      t.opts.length false).length = synSeqTotal t.opts.length := by
    simp [computeSYNSeqParts]
  unfold CompletesAtLast
  rw [answers, counted, length]
  by_cases short : opts.length ≤ 5
  · have total : synSeqTotal opts.length = opts.length.toNat := if_neg (by omega)
    obtain ⟨last, count⟩ : ∃ last, opts.length.toNat = last + 1 := ⟨opts.length.toNat - 1, by omega⟩
    refine iff_of_true ?_ short
    rw [total, count, List.range_succ, List.map_append, Nat.add_sub_cancel]
    refine congrArg₂ (· ++ ·) ?_ ?_
    · rw [List.eq_replicate_iff]
      refine ⟨by simp, ?_⟩
      intro answer inside
      obtain ⟨index, before, rfl⟩ := List.mem_map.mp inside
      rw [List.mem_range] at before
      exact if_neg (by omega)
    · have complete : opts.length ≤ (last + 1 : Nat) := by omega
      rw [List.map_singleton, partAnswer, if_pos complete]
  · have total : synSeqTotal opts.length = 3 := if_pos (Or.inr (by omega))
    refine iff_of_false ?_ short
    rw [total]
    intro same
    have final := congrArg List.getLast? same
    have incomplete : partAnswer opts.length client.clientID 2 = (false, []) := if_neg (by omega)
    rw [List.getLast?_concat, List.range_succ, List.map_append, List.map_singleton,
      List.getLast?_concat, incomplete] at final
    cases final

end Sequences

/-! ## Lengths beyond five -/

/-- The digest begins with two bytes that the fields of a part do not show. -/
def sampleCrypto : Crypto :=
  { keyTagCrypto with
    hmacSHA256 := fun secret data => FixedBytes.copy 32 (0 :: 0 :: (data.reverse ++ secret)) }

def sampleConfig (length : Int) : KnockConfig := ⟨[], 0, ⟨length, 0, [], [], [], 0, 0⟩, ⟨[]⟩⟩

def sampleOptions (length : Int) : SequenceOptions :=
  ⟨length, 30, 5 * second, 80 * millisecond, 0, 8, 4096, false⟩

def sampleSource : IPText := ⟨ascii "192.0.2.10", by decide⟩

def sampleClient : ClientSecret := ⟨ascii "client", ascii "0123456789abcdef0123456789abcdef"⟩

def sampleCall (index : Nat) : SYNSeqCall :=
  let part := computeSYNSeqPart sampleCrypto sampleClient.secret sampleClient.clientID 443 10 false
    index
  ⟨sampleSource, part.port, part.fields, (300 + index) * 1000000000, (300 + index) * 1000000000,
    ⟨id, fun _ => List.Perm.refl _⟩⟩

def sampleTracker (length : Int) : SYNSeqTracker MemoryReplayCache :=
  .newSYNSequenceTracker (sampleOptions length) (.new (300 * second))

theorem sampleCalls_arrive (length : Int) (total : synSeqTotal (sampleTracker length).opts.length = 3) :
    Arrives sampleCrypto 443 (sampleTracker length).opts sampleClient 10 sampleSource 300000000000 0
      [sampleCall 0, sampleCall 1, sampleCall 2] where
  parts := by
    rw [computeSYNSeqParts, total]
    rfl
  ordered := by decide
  within := by
    change ∀ call ∈ [sampleCall 0, sampleCall 1, sampleCall 2], call.src = sampleSource →
      call.now - 300000000000 ≤ (5 * second).toInt
    decide
  near := by
    change ∀ call ∈ [sampleCall 0, sampleCall 1, sampleCall 2], call.src = sampleSource →
      10 - 1 ≤ seqSlotFor call.now 30 ∧ seqSlotFor call.now 30 ≤ 10 + 1
    decide

/-- A sequence of three parts. -/
theorem synSequence_completes_iff_sample :
    CompletesAtLast sampleCrypto MemoryReplayCache.checkAndMark [sampleClient] 443 sampleClient 10
      (sampleTracker 3) sampleSource [sampleCall 0, sampleCall 1, sampleCall 2] :=
  (synSequence_completes_iff sampleCrypto MemoryReplayCache.checkAndMark [sampleClient] 443
    (fun _ => Except.error ()) (sampleConfig 3) (sampleOptions 3) (120 * second) (by rfl)
    (sampleTracker 3) rfl sampleClient (by decide) 10 (by unfold PartsApart; decide +kernel)
    (sampleCall 0) [sampleCall 1, sampleCall 2] (sampleCalls_arrive 3 (by decide)) (by decide)
    (by decide +kernel)).mpr (by decide)

/-- For a length of six the sender sends three parts, each is answered `false`,
and the sequence is never complete. -/
theorem synSequence_of_six_incomplete :
    sequenceOptions (fun _ => Except.error ()) (sampleConfig 6) =
        .ok (sampleOptions 6, 120 * second) ∧
      PartsApart sampleCrypto [sampleClient] 443 sampleClient 10 (sampleTracker 6).opts.length ∧
      Arrives sampleCrypto 443 (sampleTracker 6).opts sampleClient 10 sampleSource 300000000000 0
        [sampleCall 0, sampleCall 1, sampleCall 2] ∧
      (sampleTracker 6).states = [] ∧
      (checkSYNReplay MemoryReplayCache.checkAndMark sampleClient.clientID (sampleCall 0).fields 443
        300000000000 (sampleTracker 6).replay).1 = .ok () ∧
      transcript (SYNSeqTracker.add sampleCrypto MemoryReplayCache.checkAndMark [sampleClient] 443)
          (sampleTracker 6) [sampleCall 0, sampleCall 1, sampleCall 2] =
        [(false, []), (false, []), (false, [])] ∧
      ¬ CompletesAtLast sampleCrypto MemoryReplayCache.checkAndMark [sampleClient] 443 sampleClient
        10 (sampleTracker 6) sampleSource [sampleCall 0, sampleCall 1, sampleCall 2] := by
  have answers : transcript (SYNSeqTracker.add sampleCrypto MemoryReplayCache.checkAndMark
      [sampleClient] 443) (sampleTracker 6) [sampleCall 0, sampleCall 1, sampleCall 2] =
      [(false, []), (false, []), (false, [])] := by
    decide +kernel
  refine ⟨by rfl, by unfold PartsApart; decide +kernel, sampleCalls_arrive 6 (by decide), rfl,
    by decide +kernel, answers, ?_⟩
  unfold CompletesAtLast
  rw [answers]
  decide +kernel

end Libknock.Cmd
