import Libknock.Knock.UDPSequenceRuns

/-!
# Completion of UDP sequences

A sequence is complete at the call that brings the last of its parts, and only
there.  The parts come from frames that `openKnockFrame` has checked.
-/

set_option autoImplicit false

namespace Libknock.Knock

open Foundation Protocol Auth Cache
open SequenceTracker

variable {key : Bytes} {t next : SequenceTracker} {event : SequenceEvent} {part : Delivery}

/-! ## Parts that a listener passes on -/

/-- What `openKnockFrame` has checked of a part. -/
structure SequencePart (info : KnockInfo) : Prop where
  clean : 0 ∉ info.clientID
  several : 2 ≤ info.sequenceTotal
  bounded : info.sequenceTotal ≤ defaultSequenceMaxParts
  inside : 0 ≤ info.sequenceIndex ∧ info.sequenceIndex < info.sequenceTotal

theorem findClient_clean {crypto : Crypto} {cfg : ServerConfig} {h : KnockFrameHeader}
    {sealed : Bytes} {client : ClientSecret} {payload : KnockPayload}
    {clients : List ClientSecret} : ∀ sawHint,
      cfg.findClient crypto h sealed sawHint clients = .ok (client, payload) →
        0 ∉ client.clientID := by
  induction clients with
  | nil =>
    intro sawHint found
    cases found
  | cons head rest ih =>
    intro sawHint found
    unfold ServerConfig.findClient at found
    split at found
    · exact ih _ found
    rename_i valid
    split at found
    · exact ih _ found
    split at found
    · exact ih _ found
    split at found
    · cases found
    split at found
    · exact ih _ found
    cases found
    intro member
    apply valid
    simp [validateClientSecret, member]

theorem openKnockFrame_sequencePart {Cache : Type} (crypto : Crypto)
    (checkAndMark : CheckAndMark Cache) (config : ServerConfig) (packet : Bytes)
    (clock : KnockReadings) (replay : Option Cache) (info : KnockInfo)
    (opened : (openKnockFrame crypto checkAndMark config packet clock replay).1 = .ok info)
    (sequence : info.frameType = knockFrameTypeUDPSequence) : SequencePart info := by
  have part : ∀ client h payload sealed,
      config.withDefaults.findClient crypto h sealed false config.withDefaults.clients =
        .ok (client, payload) →
      config.withDefaults.validatePayload h payload clock.check = .ok () →
      info = knockInfo client h payload → SequencePart info := by
    rintro client h payload sealed found valid rfl
    obtain ⟨_, _, several, bounded, inside⟩ :=
      (ServerConfig.validatePayload_ok_iff.mp valid).sequence sequence
    exact ⟨findClient_clean false found, several, bounded, inside⟩
  unfold openKnockFrame at opened
  simp only at opened
  split at opened
  · cases opened
  split at opened
  · cases opened
  rename_i client payload found
  split at opened
  · cases opened
  rename_i valid
  split at opened
  · cases opened
    exact part client _ payload _ found valid rfl
  split at opened
  · cases opened
  cases opened
  exact part client _ payload _ found valid rfl

/-! ## A sequence that arrives in time -/

structure Filling (key : Bytes) (opts : SequenceOptions) (opened : Int) (session : Bytes)
    (parts : List Delivery) (t : SequenceTracker) : Prop where
  configured : t.opts = opts
  unmarked : ∀ entry ∈ t.completed.order, entry.key ≠ key
  state : ∃ state, t.states.lookup key = some state ∧ Gathered opts opened parts state ∧
    state.sessionID = session

variable {opts : SequenceOptions} {opened : Int} {session : Bytes} {parts : List Delivery}

variable {now : Int}

theorem Filling.young (filling : Filling key opts opened session parts t)
    (timely : ¬ opts.window < since now opened) : Young key now t := by
  obtain ⟨state, found, gathered, _⟩ := filling.state
  intro other same
  rw [found] at same
  cases same
  rw [expired, filling.configured, gathered.firstSeen]
  simpa using timely

theorem Filling.beside (filling : Filling key opts opened session parts t)
    (beside : Beside key now t next) : Filling key opts opened session parts next where
  configured := beside.opts.trans filling.configured
  unmarked := fun entry member same =>
    filling.unmarked entry (beside.fewer entry member same) same
  state := by
    rw [beside.slot]
    exact filling.state

structure Fits (opts : SequenceOptions) (opened : Int) (session : Bytes) (part : Delivery) :
    Prop where
  checked : SequencePart part.info
  total : part.info.sequenceTotal = opts.length
  session : part.info.sessionID = session
  timely : ¬ opts.window < since part.now opened

theorem Fits.valid (fits : Fits opts opened session part) (same : t.opts = opts) :
    t.invalidPart part.info = false := by
  have total := fits.total
  have several := fits.checked.several
  have bounded := fits.checked.bounded
  have inside := fits.checked.inside
  simp only [invalidPart, decide_eq_false_iff_not, not_or, not_not, not_lt, not_le, same]
  omega

theorem Filling.takes (filling : Filling key opts opened session parts t)
    (fits : Fits opts opened session part) (missing : part.info.sequenceIndex ∉ indices parts)
    {src : IPText} (outcome : Outcome key src part.info part.now t part.answer next) :
    part.answer = .ok (decide ((indices (parts ++ [part])).Perm (allIndices opts))) ∧
      (¬ (indices (parts ++ [part])).Perm (allIndices opts) →
        Filling key opts opened session (parts ++ [part]) next) := by
  have young := filling.young fits.timely
  obtain ⟨state, found, gathered, belongs⟩ := filling.state
  have inside : 0 ≤ part.info.sequenceIndex ∧ part.info.sequenceIndex < opts.length :=
    fits.total ▸ fits.checked.inside
  have received_iff : ∀ held, Accepts key part.info part.now t held →
      held = state ∧ Gathered opts opened (parts ++ [part]) (received state part.info part.now) := by
    intro held accepts
    have same : held = state := by
      rcases accepts.source with stored | ⟨absent, _⟩
      · exact Option.some.inj (stored.symm.trans found)
      · cases absent.symm.trans found
    subst same
    refine ⟨rfl, ?_⟩
    have known := filling.configured
    subst known
    exact gathered.receive accepts
  generalize part.answer = answer at outcome
  cases outcome with
  | refused reason _ =>
    exfalso
    cases reason with
    | invalid bad =>
      rw [fits.valid filling.configured] at bad
      cases bad
    | replayed entry member same _ => exact filling.unmarked entry member same
    | crowdedIP _ absent | crowded _ absent => cases absent.symm.trans found
    | mismatched _ other same differs =>
      cases same.symm.trans found
      rcases differs with total | session
      · exact total (gathered.total.trans fits.total.symm)
      · exact session (belongs.trans fits.session.symm)
    | duplicate _ other same seen =>
      cases same.symm.trans found
      rw [gathered.marked _ inside] at seen
      exact missing (by simpa using seen)
  | stored held accepts short recalls slot =>
    obtain ⟨rfl, joined⟩ := received_iff held accepts
    have unfinished : ¬ (indices (parts ++ [part])).Perm (allIndices opts) := by
      rw [← joined.full_iff, short]
      simp
    refine ⟨by rw [decide_eq_false unfinished], fun _ => ?_⟩
    exact ⟨recalls.opts.trans filling.configured,
      fun entry member same => filling.unmarked entry (recalls.fewer entry member same) same,
      ⟨_, slot, joined, belongs⟩⟩
  | completed held filled accepts full _ _ =>
    obtain ⟨rfl, joined⟩ := received_iff held accepts
    have finished := joined.full_iff.mp full
    exact ⟨by rw [decide_eq_true finished], fun unfinished => absurd finished unfinished⟩

theorem perm_allIndices_iff (nodup : (indices parts).Nodup)
    (inside : ∀ index ∈ indices parts, 0 ≤ index ∧ index < opts.length) :
    parts.length ≤ opts.length.toNat ∧
      ((indices parts).Perm (allIndices opts) ↔ parts.length = opts.length.toNat) := by
  have within : (indices parts).Subperm (allIndices opts) :=
    nodup.subperm fun index member => mem_allIndices.mpr (inside index member)
  have size : (allIndices opts).length = opts.length.toNat := by simp [allIndices]
  have count : (indices parts).length = parts.length := by simp [indices]
  refine ⟨by rw [← count, ← size]; exact within.length_le, ?_, ?_⟩
  · intro perm
    rw [← count, ← size]
    exact perm.length_eq
  · intro same
    exact within.perm_of_length_le (by omega)

theorem Fits.inside (fits : ∀ part ∈ parts, Fits opts opened session part) :
    ∀ index ∈ indices parts, 0 ≤ index ∧ index < opts.length := by
  intro index member
  obtain ⟨part, own, rfl⟩ := List.mem_map.mp member
  exact (fits part own).total ▸ (fits part own).checked.inside

/-- How far a sequence is when, after the parts it had, these have come: some are
missing and the key is still filling, or the last of them has completed it. -/
def Progress (key : Bytes) (opts : SequenceOptions) (opened : Int) (session : Bytes)
    (parts arrived : List Delivery) (t : SequenceTracker) : Prop :=
  (parts ++ arrived).length < opts.length.toNat ∧
      Filling key opts opened session (parts ++ arrived) t ∧
      (∀ part ∈ arrived, part.answer = .ok false) ∨
    (parts ++ arrived).length = opts.length.toNat ∧
      ∃ others final, arrived = others ++ [final] ∧ final.answer = .ok true ∧
        ∀ part ∈ others, part.answer = .ok false

theorem Progress.other {arrived : List Delivery}
    (progress : Progress key opts opened session parts arrived t) (step : Adds t event next)
    (other : event.delivery key = none) (timely : ¬ opts.window < since event.call.now opened) :
    Progress key opts opened session parts arrived next := by
  rcases progress with ⟨fewer, filling, answers⟩ | complete
  · exact Or.inl ⟨fewer, filling.beside (step.beside other (filling.young timely)), answers⟩
  · exact Or.inr complete

theorem Progress.own {arrived : List Delivery}
    (progress : Progress key opts opened session parts arrived t) (step : Adds t event next)
    (opens : 0 ≤ opts.window) (own : event.delivery key = some part)
    (fits : ∀ other ∈ parts ++ (arrived ++ [part]), Fits opts opened session other)
    (nodup : (indices (parts ++ (arrived ++ [part]))).Nodup) :
    Progress key opts opened session parts (arrived ++ [part]) next := by
  rw [← List.append_assoc] at fits nodup
  obtain ⟨bound, perm_iff⟩ := perm_allIndices_iff nodup (Fits.inside fits)
  have longer : ((parts ++ arrived) ++ [part]).length = (parts ++ arrived).length + 1 :=
    List.length_append
  have mine : Fits opts opened session part := fits part (by simp)
  have timely : ¬ opts.window < since event.call.now opened :=
    (SequenceEvent.delivery_eq_some own).2.2.1 ▸ mine.timely
  unfold Progress
  rw [← List.append_assoc]
  rcases progress with ⟨_, filling, answers⟩ | ⟨complete, _⟩
  · have missing : part.info.sequenceIndex ∉ indices (parts ++ arrived) := by
      intro member
      rw [indices, List.map_append, List.nodup_append] at nodup
      exact nodup.2.2 _ member _ (by simp) rfl
    obtain ⟨answer, still⟩ :=
      (filling.beside (prune_beside (filling.young timely) event.call.order)).takes mine missing
        (step.own (filling.configured ▸ opens) own)
    by_cases last : ((parts ++ arrived) ++ [part]).length = opts.length.toNat
    · right
      rw [decide_eq_true (perm_iff.mpr last)] at answer
      exact ⟨last, _, part, rfl, answer, answers⟩
    · left
      have unfinished := mt perm_iff.mp last
      rw [decide_eq_false unfinished] at answer
      refine ⟨by omega, still unfinished, ?_⟩
      intro other member
      rcases List.mem_append.mp member with earlier | newest
      · exact answers other earlier
      · rw [List.mem_singleton.mp newest]
        exact answer
  · omega

theorem Filling.run (filling : Filling key opts opened session parts t)
    (opens : 0 ≤ opts.window) (short : parts.length < opts.length.toNat) :
    ∀ past last, Run Adds t past last →
      (∀ event ∈ past, ¬ opts.window < since event.call.now opened) →
      (∀ part ∈ parts ++ deliveries key past, Fits opts opened session part) →
      (indices (parts ++ deliveries key past)).Nodup →
      Progress key opts opened session parts (deliveries key past) last := by
  apply Run.invariant
  · intro _ _ _
    have none : deliveries key [] = [] := rfl
    rw [none, Progress, List.append_nil]
    exact Or.inl ⟨short, filling, by simp⟩
  · intro past before event after _ held step timely fits nodup
    rw [deliveries_append] at fits nodup ⊢
    have earlier : (indices (parts ++ deliveries key past)).Nodup := by
      rw [← List.append_assoc, indices, List.map_append] at nodup
      exact nodup.of_append_left
    have progress := held (fun other member => timely other (List.mem_append_left _ member))
      (fun part member => fits part (by
        rw [← List.append_assoc]
        exact List.mem_append_left _ member)) earlier
    cases own : event.delivery key with
    | none =>
      rw [deliveries_other own, List.append_nil]
      exact progress.other step own (timely event (by simp))
    | some part =>
      rw [deliveries_own own] at fits nodup ⊢
      exact progress.own step opens own fits nodup

/-- The first call for a key of which nothing is known, and that no limit
refuses. -/
structure Starts (key : Bytes) (t : SequenceTracker) (first : SequenceEvent) (part : Delivery) :
    Prop where
  own : first.delivery key = some part
  absent : (first.pruned t).states.lookup key = none
  uncompleted : ((first.pruned t).completed.getAt key first.call.now).1 = none
  admitted : first.answer ≠ .error perIPError ∧ first.answer ≠ .error totalError

theorem prune_live {order : KeyOrder} :
    ∀ entry ∈ (t.pruneLocked order now).completed.order, entry.live now = true :=
  fun _ member => (TTLLRU.mem_sweep.mp member).2

theorem Starts.filling {first : SequenceEvent} (starts : Starts key t first part)
    (step : Adds t first next) (opens : 0 ≤ t.opts.window)
    (fits : Fits t.opts first.call.now session part) :
    part.answer = .ok false ∧ Filling key t.opts first.call.now session [part] next := by
  obtain ⟨_, _, now, answered⟩ := SequenceEvent.delivery_eq_some starts.own
  have same : (first.pruned t).opts = t.opts := (prune_fixed ..).opts
  have unmarked : ∀ entry ∈ (first.pruned t).completed.order, entry.key ≠ key := by
    intro entry member own
    have live := prune_live entry member
    have hit := (TTLLRU.getAt_isSome_iff key first.call.now _).mpr ⟨entry, member, own, live⟩
    rw [starts.uncompleted] at hit
    cases hit
  have admitted := starts.admitted
  have joined : ∀ state, Accepts key part.info part.now (first.pruned t) state →
      Gathered t.opts first.call.now [part] (received state part.info part.now) ∧
        state.sessionID = session := by
    intro state accepts
    rcases accepts.source with found | ⟨_, rfl⟩
    · cases starts.absent.symm.trans found
    · have gathered := (gathered_fresh part.now accepts.valid).receive accepts
      rw [same, now] at gathered
      rw [now]
      exact ⟨gathered, fits.session⟩
  have outcome := step.own opens starts.own
  rw [← answered] at admitted
  generalize part.answer = answer at outcome admitted
  cases outcome with
  | refused reason _ =>
    exfalso
    cases reason with
    | invalid bad =>
      rw [fits.valid same] at bad
      cases bad
    | replayed entry member own _ => exact unmarked entry member own
    | crowdedIP _ _ _ => exact admitted.1 rfl
    | crowded _ _ _ => exact admitted.2 rfl
    | mismatched _ state found | duplicate _ state found => cases starts.absent.symm.trans found
  | stored state accepts _ recalls slot =>
    obtain ⟨gathered, belongs⟩ := joined state accepts
    exact ⟨rfl, recalls.opts.trans same,
      fun entry member own => unmarked entry (recalls.fewer entry member own) own,
      ⟨_, slot, gathered, belongs⟩⟩
  | completed state filled accepts full _ _ =>
    obtain ⟨gathered, _⟩ := joined state accepts
    have perm := (gathered.full_iff.mp full).length_eq
    have several := fits.total ▸ fits.checked.several
    simp [indices, allIndices] at perm
    omega

theorem cut_after_last (key : Bytes) (events : List SequenceEvent)
    (ordered : (events.map fun event => event.call.now).Pairwise (· ≤ ·)) :
    ∃ front back, events = front ++ back ∧ deliveries key back = [] ∧
      ∀ event ∈ front, ∃ part ∈ deliveries key events, event.call.now ≤ part.now := by
  induction events using List.reverseRecOn with
  | nil => exact ⟨[], [], rfl, rfl, by simp⟩
  | append_singleton past event ih =>
    rw [List.map_append, List.pairwise_append] at ordered
    obtain ⟨sorted, _, below⟩ := ordered
    rw [deliveries_append]
    cases own : event.delivery key with
    | none =>
      obtain ⟨front, back, rfl, idle, upTo⟩ := ih sorted
      refine ⟨front, back ++ [event], by simp, ?_, ?_⟩
      · rw [deliveries_append, idle, deliveries_other own]
        rfl
      · rw [deliveries_other own, List.append_nil]
        exact upTo
    | some part =>
      refine ⟨past ++ [event], [], by simp, rfl, ?_⟩
      have now := (SequenceEvent.delivery_eq_some own).2.2.1
      rw [deliveries_own own]
      intro other member
      refine ⟨part, by simp, ?_⟩
      rw [now]
      rcases List.mem_append.mp member with earlier | newest
      · exact below _ (List.mem_map_of_mem earlier) _ (by simp)
      · rw [List.mem_singleton.mp newest]

theorem answers_in_time {first : SequenceEvent} {rest : List SequenceEvent}
    {last : SequenceTracker} (run : Run Adds t (first :: rest) last) (opens : 0 ≤ t.opts.window)
    (ordered : (rest.map fun event => event.call.now).Pairwise (· ≤ ·))
    (starts : Starts key t first part)
    (fits : ∀ part ∈ deliveries key (first :: rest), Fits t.opts first.call.now session part)
    (all : (indices (deliveries key (first :: rest))).Perm (allIndices t.opts)) :
    (deliveries key (first :: rest)).map Delivery.answer =
      List.replicate (t.opts.length.toNat - 1) (.ok false) ++ [.ok true] := by
  have parts : deliveries key (first :: rest) = part :: deliveries key rest := by
    simp [deliveries, starts.own]
  rw [parts] at fits all ⊢
  have run : Run Adds t ([] ++ first :: rest) last := run
  obtain ⟨_, second, early, step, late⟩ := run.split
  cases early.eq_start
  have own := fits part List.mem_cons_self
  obtain ⟨answer, filling⟩ := starts.filling step opens own
  obtain ⟨front, back, rfl, idle, upTo⟩ := cut_after_last key rest ordered
  rw [deliveries_append, idle, List.append_nil] at fits all upTo ⊢
  obtain ⟨_, late, _⟩ := late.split_append
  have nodup : (indices ([part] ++ deliveries key front)).Nodup :=
    all.nodup_iff.mpr (allIndices_nodup t.opts)
  have length := (perm_allIndices_iff nodup (Fits.inside fits)).2.mp all
  have timely : ∀ event ∈ front, ¬ t.opts.window < since event.call.now first.call.now := by
    intro event member later
    obtain ⟨part, arrived, before⟩ := upTo event member
    exact (fits part (List.mem_cons_of_mem _ arrived)).timely
      (Int64.lt_of_lt_of_le later (since_mono _ before))
  have several : 2 ≤ t.opts.length := own.total ▸ own.checked.several
  rcases filling.run opens (by simp; omega) front _ late timely fits nodup with
    ⟨fewer, _⟩ | ⟨_, others, final, split, last, answers⟩
  · simp only [List.length_cons, List.length_append, List.length_nil] at length fewer
    omega
  · rw [split] at length ⊢
    have early : ((part :: others).map Delivery.answer) =
        List.replicate (t.opts.length.toNat - 1) (.ok false) := by
      rw [List.eq_replicate_iff]
      refine ⟨by simp at length ⊢; omega, ?_⟩
      intro value member
      obtain ⟨other, inside, rfl⟩ := List.mem_map.mp member
      rcases List.mem_cons.mp inside with rfl | later
      · exact answer
      · exact answers other later
    rw [← early, ← last]
    simp

/-- A sequence is complete exactly when its last part arrives.  A call for a key
is answered with true only where each index has been accepted once since the state
of the key was opened, for one session and within the window.  And where the parts
of a sequence arrive in any order, for one session and within the window, all but
the last are answered with false and the last with true, whatever comes between
them.  The key is that of one source, client, sequence ID, port and method. -/
theorem sequence_completes_exactly (opts : SequenceOptions) (nonceTTL : Duration) (key : Bytes) :
    (∀ past final part last,
      Run Adds (newSequenceTracker opts nonceTTL) (past ++ [final]) last →
      final.delivery key = some part → part.answer = .ok true →
      ∃ earlier opening later, past ++ [final] = earlier ++ opening :: later ∧
        Opens (newSequenceTracker opts nonceTTL) key earlier opening ∧
        (indices (accepted key (opening :: later))).Perm
          (allIndices (normalizedSequenceOptions opts)) ∧
        (∃ session, ∀ part ∈ accepted key (opening :: later), part.info.sessionID = session) ∧
        ∀ part ∈ accepted key (opening :: later),
          ¬ (normalizedSequenceOptions opts).window < since part.now opening.call.now) ∧
    (∀ past t, Run Adds (newSequenceTracker opts nonceTTL) past t →
      ∀ first rest last part session, Run Adds t (first :: rest) last →
      ((first :: rest).map fun event => event.call.now).Pairwise (· ≤ ·) →
      Starts key t first part →
      (∀ part ∈ deliveries key (first :: rest),
        Fits (normalizedSequenceOptions opts) first.call.now session part) →
      (indices (deliveries key (first :: rest))).Perm
        (allIndices (normalizedSequenceOptions opts)) →
      (deliveries key (first :: rest)).map Delivery.answer =
        List.replicate ((normalizedSequenceOptions opts).length.toNat - 1) (.ok false) ++
          [.ok true]) ∧
    ∀ (src other : IPText) (info another : KnockInfo), SequencePart info → SequencePart another →
      (sequenceStateKey src info = sequenceStateKey other another ↔
        src = other ∧ info.clientID = another.clientID ∧ info.sequenceID = another.sequenceID ∧
          info.serverPort = another.serverPort ∧ info.method = another.method) := by
  have opens := new_window opts nonceTTL
  refine ⟨?_, ?_, ?_⟩
  · intro past final part last run own complete
    obtain ⟨state, ⟨earlier, opening, later, split, opening_opens, gathered⟩, full⟩ :=
      completed_traced opens rfl run own complete
    exact ⟨earlier, opening, later, split, opening_opens, gathered.full_iff.mp full,
      ⟨state.sessionID, gathered.sessions⟩, gathered.timely⟩
  · intro past t reached first rest last part session run ordered starts fits all
    have same : t.opts = normalizedSequenceOptions opts := (run_fixed past t reached).opts
    rw [← same] at fits all ⊢
    have usable : 0 ≤ t.opts.window := same ▸ opens
    exact answers_in_time run usable ordered.of_cons starts fits all
  · intro src other info another checked checkedOther
    constructor
    · exact sequenceStateKey_inj checked.clean checkedOther.clean
    · rintro ⟨rfl, clients, sequences, ports, methods⟩
      rw [sequenceStateKey, sequenceStateKey, clients, sequences, ports, methods]

def sampleOrder : KeyOrder := ⟨id, List.Perm.refl⟩

def sampleSource : IPText := ⟨ascii "192.0.2.1", by decide⟩

def sampleSequence (maxTotalInflight : Int) : SequenceOptions :=
  ⟨2, 30, second, 0, 0, 8, maxTotalInflight, false⟩

def samplePart (clientID : Bytes) (index : Int) : KnockInfo where
  clientID := clientID
  clientIDHash := []
  method := ascii "udp-seq"
  serverPort := 443
  timestamp := 0
  sessionID := ascii "session-id-0001!"
  sequenceID := ascii "sequence-id-0001"
  sequenceIndex := index
  sequenceTotal := 2
  clientRandom := []
  extensions := []
  nonce := []
  keyHint := 0
  frameType := knockFrameTypeUDPSequence
  flags := 0

def samplePartCall (clientID : Bytes) (index now : Int) : SequenceCall :=
  ⟨sampleSource, some (samplePart clientID index), now, sampleOrder⟩

def sampleCalls : List SequenceCall :=
  [samplePartCall (ascii "alice") 1 5, samplePartCall (ascii "bob") 0 6,
    samplePartCall (ascii "alice") 0 7]

def sampleKey (clientID : Bytes) : Bytes := sequenceStateKey sampleSource (samplePart clientID 0)

def sampleStart : SequenceTracker := newSequenceTracker (sampleSequence 8) minute

theorem sample_deliveries :
    deliveries (sampleKey (ascii "alice")) (eventsFrom sampleStart sampleCalls) =
      [⟨samplePart (ascii "alice") 1, 5, .ok false⟩,
        ⟨samplePart (ascii "alice") 0, 7, .ok true⟩] := by
  decide +kernel

theorem samplePart_checked : ∀ index ∈ [0, 1], SequencePart (samplePart (ascii "alice") index) := by
  intro index member
  simp only [List.mem_cons, List.not_mem_nil, or_false] at member
  rcases member with rfl | rfl
  · exact ⟨by decide, by decide, by decide, by decide⟩
  · exact ⟨by decide, by decide, by decide, by decide⟩

theorem sequence_completes_exactly_sample :
    (∃ earlier opening later, eventsFrom sampleStart sampleCalls = earlier ++ opening :: later ∧
      Opens sampleStart (sampleKey (ascii "alice")) earlier opening ∧
      (indices (accepted (sampleKey (ascii "alice")) (opening :: later))).Perm [0, 1]) ∧
    (deliveries (sampleKey (ascii "alice")) (eventsFrom sampleStart sampleCalls)).map
      Delivery.answer = [.ok false, .ok true] := by
  have exactly := sequence_completes_exactly (sampleSequence 8) minute (sampleKey (ascii "alice"))
  have run : Run Adds sampleStart (eventsFrom sampleStart sampleCalls) _ := run_calls sampleCalls _
  constructor
  · obtain ⟨earlier, opening, later, split, opens, all, _⟩ := exactly.1
      (eventsFrom sampleStart (sampleCalls.take 2)) _
      ⟨samplePart (ascii "alice") 0, 7, .ok true⟩ _ run (by decide +kernel) rfl
    exact ⟨earlier, opening, later, split, opens, all⟩
  · refine exactly.2.1 [] sampleStart .nil _ _ _ ⟨samplePart (ascii "alice") 1, 5, .ok false⟩
      (ascii "session-id-0001!") run (by decide +kernel)
      ⟨by decide +kernel, by decide +kernel, by decide +kernel, by decide +kernel⟩ ?_ ?_
    · intro part member
      have listed : part ∈ deliveries (sampleKey (ascii "alice"))
        (eventsFrom sampleStart sampleCalls) := member
      rw [sample_deliveries] at listed
      simp only [List.mem_cons, List.not_mem_nil, or_false] at listed
      rcases listed with rfl | rfl
      · exact ⟨samplePart_checked 1 (by decide), rfl, rfl, by decide⟩
      · exact ⟨samplePart_checked 0 (by decide), rfl, rfl, by decide⟩
    · show (indices (deliveries (sampleKey (ascii "alice"))
        (eventsFrom sampleStart sampleCalls))).Perm _
      rw [sample_deliveries]
      decide

end Libknock.Knock
