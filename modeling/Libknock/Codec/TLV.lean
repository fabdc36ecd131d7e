import Libknock.Codec.Reader

/-!
# Lists of type-length-value items

`EncodeTLVs` and `DecodeTLVs` of `internal/codec/codec.go`.
-/

set_option autoImplicit false

namespace Libknock.Codec

open Foundation

variable {ε : Type}

structure TLV where
  typ : UInt16
  value : Bytes
  deriving DecidableEq, Repr

/-- The sizes are checked before anything is written. -/
def tlvTotal : Nat → List TLV → Option Nat
  | total, [] => some total
  | total, tlv :: rest =>
    if 65535 < tlv.value.length then none
    else if 65535 < total + (4 + tlv.value.length) then none
    else tlvTotal (total + (4 + tlv.value.length)) rest

def writeTLV (tlv : TLV) : Bytes :=
  putUint16 tlv.typ ++ (putUint16 (UInt16.ofNat tlv.value.length) ++ tlv.value)

def encodeTLVs (tlvs : List TLV) (frameTooLarge : ε) : Except ε Bytes :=
  match tlvTotal 0 tlvs with
  | none => .error frameTooLarge
  | some _ => .ok (tlvs.flatMap writeTLV)

def readTLV : Decoder ε TLV := do
  let typ ← readUint16
  let n ← readUint16
  let v ← readVarBytes n.toNat true
  pure ⟨typ, v⟩

/-- One item per unit of fuel; an item takes four bytes at least. -/
def decodeTLVLoop : Nat → BinaryReader ε → Except ε (List TLV)
  | 0, _ => .ok []
  | fuel + 1, reader =>
    if reader.remaining = 0 then .ok []
    else
      match readTLV reader with
      | .error err => .error err
      | .ok (tlv, next) =>
        match decodeTLVLoop fuel next with
        | .error err => .error err
        | .ok rest => .ok (tlv :: rest)

def decodeTLVs (raw : Bytes) (invalid : ε) : Except ε (List TLV) :=
  decodeTLVLoop raw.length (newReader raw invalid)

/-! ## The fuel is enough -/

variable {reader next : BinaryReader ε} {tlvs : List TLV}

theorem readFixed_ok {count : Nat} {item : Bytes}
    (success : readFixed count reader = .ok (item, next)) :
    next.remaining + count = reader.remaining := by
  unfold readFixed at success
  split at success
  · cases success
  rename_i enough
  cases success
  simp only [BinaryReader.remaining] at enough ⊢
  omega

theorem readUint16_ok {word : UInt16} (success : readUint16 reader = .ok (word, next)) :
    next.remaining + 2 = reader.remaining := by
  cases raw : readFixed 2 reader with
  | error err => simp [readUint16, bind, StateT.bind, raw, Except.bind] at success
  | ok result =>
    simp only [readUint16, bind, StateT.bind, raw, Except.bind] at success
    cases success
    exact readFixed_ok raw

theorem readTLV_ok {tlv : TLV} (success : readTLV reader = .ok (tlv, next)) :
    next.remaining + 4 ≤ reader.remaining := by
  simp only [readTLV, bind, StateT.bind, Except.bind] at success
  split at success
  · cases success
  rename_i first typ
  split at success
  · cases success
  rename_i second length
  split at success
  · cases success
  rename_i third value
  cases success
  have early := readUint16_ok typ
  have middle := readUint16_ok length
  have late := readFixed_ok value
  omega

/-- The loop of `DecodeTLVs` as it runs, with no bound on its rounds. -/
inductive DecodeRun : BinaryReader ε → Except ε (List TLV) → Prop where
  | done {reader : BinaryReader ε} (empty : reader.remaining = 0) : DecodeRun reader (.ok [])
  | fail {reader : BinaryReader ε} {err : ε} (more : reader.remaining ≠ 0)
      (failed : readTLV reader = .error err) : DecodeRun reader (.error err)
  | item {reader next : BinaryReader ε} {tlv : TLV} {result : Except ε (List TLV)}
      (more : reader.remaining ≠ 0) (read : readTLV reader = .ok (tlv, next))
      (rest : DecodeRun next result) : DecodeRun reader (result.map (tlv :: ·))

theorem decodeTLVLoop_runs (fuel : Nat) (reader : BinaryReader ε)
    (enough : reader.remaining ≤ fuel) : DecodeRun reader (decodeTLVLoop fuel reader) := by
  induction fuel generalizing reader with
  | zero => exact DecodeRun.done (by omega)
  | succ fuel ih =>
    rw [decodeTLVLoop]
    split
    · rename_i empty
      exact DecodeRun.done empty
    · rename_i more
      cases item : readTLV reader with
      | error err => exact DecodeRun.fail more item
      | ok step =>
        obtain ⟨tlv, next⟩ := step
        have shorter := readTLV_ok item
        have rest := DecodeRun.item more item (ih next (by omega))
        cases tail : decodeTLVLoop fuel next with
        | error | ok => simpa only [tail, Except.map] using rest

/-! ## Round trip -/

theorem tlvTotal_some {total bound : Nat} (fits : tlvTotal total tlvs = some bound) :
    (∀ tlv ∈ tlvs, tlv.value.length ≤ 65535) ∧ bound = total + (tlvs.flatMap writeTLV).length ∧
      (total ≤ 65535 → bound ≤ 65535) := by
  induction tlvs generalizing total with
  | nil =>
    cases fits
    simp
  | cons tlv rest ih =>
    rw [tlvTotal] at fits
    split at fits
    · cases fits
    rename_i small
    split at fits
    · cases fits
    rename_i inside
    obtain ⟨values, length, bounded⟩ := ih fits
    refine ⟨?_, ?_, ?_⟩
    · intro item member
      rcases List.mem_cons.mp member with rfl | later
      · omega
      · exact values item later
    · simp only [List.flatMap_cons, List.length_append, writeTLV, putUint16_length] at length ⊢
      omega
    · intro _
      exact bounded (by omega)

theorem readTLV_reads (tlv : TLV) (small : tlv.value.length ≤ 65535) :
    Reads (ε := ε) readTLV (writeTLV tlv) tlv := by
  have length : (UInt16.ofNat tlv.value.length).toNat = tlv.value.length := by
    rw [UInt16.toNat_ofNat', Nat.mod_eq_of_lt (by omega)]
  refine reads_bind (readUint16_reads _) (reads_bind (readUint16_reads _) ?_)
  rw [length]
  exact reads_map (readFixed_reads tlv.value) fun value => (⟨tlv.typ, value⟩ : TLV)

theorem decodeTLVLoop_written (tlvs : List TLV) (small : ∀ tlv ∈ tlvs, tlv.value.length ≤ 65535)
    (fuel : Nat) (enough : (tlvs.flatMap writeTLV).length ≤ fuel) (done : Bytes) (err : ε) :
    decodeTLVLoop fuel (readerAt done (tlvs.flatMap writeTLV) err) = .ok tlvs := by
  induction tlvs generalizing fuel done with
  | nil =>
    cases fuel with
    | zero => rfl
    | succ fuel => simp [decodeTLVLoop]
  | cons tlv rest ih =>
    have item : (writeTLV tlv).length = 4 + tlv.value.length := by
      simp only [writeTLV, List.length_append, putUint16_length]
      omega
    rw [List.flatMap_cons, List.length_append] at enough
    obtain ⟨less, rfl⟩ : ∃ less, fuel = less + 1 := ⟨fuel - 1, by omega⟩
    have some_ : ¬ (readerAt done (writeTLV tlv ++ rest.flatMap writeTLV) err).remaining = 0 := by
      rw [readerAt_remaining, List.length_append]
      omega
    rw [List.flatMap_cons, decodeTLVLoop, if_neg some_,
      readTLV_reads tlv (small tlv List.mem_cons_self) done (rest.flatMap writeTLV) err]
    simp only
    rw [ih (fun later member => small later (List.mem_cons_of_mem tlv member)) less (by omega)
      (done ++ writeTLV tlv)]

theorem decodeTLVs_written (tlvs : List TLV) (small : ∀ tlv ∈ tlvs, tlv.value.length ≤ 65535)
    (invalid : ε) : decodeTLVs (tlvs.flatMap writeTLV) invalid = .ok tlvs := by
  rw [decodeTLVs, newReader_eq_readerAt]
  exact decodeTLVLoop_written tlvs small _ (Nat.le_refl _) [] invalid

theorem decodeTLVs_encodeTLVs {δ : Type} (tlvs : List TLV) (frameTooLarge : ε) (invalid : δ)
    (raw : Bytes) (encoded : encodeTLVs tlvs frameTooLarge = .ok raw) :
    decodeTLVs raw invalid = .ok tlvs ∧ raw.length ≤ 65535 := by
  unfold encodeTLVs at encoded
  split at encoded
  · cases encoded
  rename_i bound fits
  cases encoded
  obtain ⟨values, length, bounded⟩ := tlvTotal_some fits
  refine ⟨?_, ?_⟩
  · exact decodeTLVs_written tlvs values invalid
  · have := bounded (by omega)
    omega

/-! ## What the decoder accepts -/

def TLVSequence (raw : Bytes) : Prop :=
  ∃ tlvs : List TLV, (∀ tlv ∈ tlvs, tlv.value.length ≤ 65535) ∧ raw = tlvs.flatMap writeTLV

theorem readTLV_readsOnly :
    ReadsOnly (ε := ε) readTLV fun tlv item => item = writeTLV tlv ∧ tlv.value.length ≤ 65535 := by
  refine readsOnly_bind readUint16_readsOnly ?_
  rintro typ _ rfl
  refine readsOnly_bind readUint16_readsOnly ?_
  rintro size _ rfl
  refine readsOnly_bind (readFixed_readsOnly size.toNat) ?_
  rintro _ value ⟨rfl, length⟩
  have bound := size.toNat_lt
  have small : value.length ≤ 65535 := by omega
  refine readsOnly_pure _ ⟨?_, small⟩
  rw [writeTLV, length, UInt16.ofNat_toNat, List.append_nil]

theorem decodeTLVLoop_ok (fuel : Nat) (done rest : Bytes) (err : ε) (enough : rest.length ≤ fuel)
    (tlvs : List TLV) (success : decodeTLVLoop fuel (readerAt done rest err) = .ok tlvs) :
    (∀ tlv ∈ tlvs, tlv.value.length ≤ 65535) ∧ rest = tlvs.flatMap writeTLV := by
  induction fuel generalizing done rest tlvs with
  | zero =>
    cases success
    exact ⟨by simp, by simpa using enough⟩
  | succ fuel ih =>
    rw [decodeTLVLoop, readerAt_remaining] at success
    split at success
    · rename_i empty
      cases success
      exact ⟨by simp, by simpa using empty⟩
    · cases item : readTLV (readerAt done rest err) with
      | error failure => simp [item] at success
      | ok step =>
        obtain ⟨tlv, next⟩ := step
        obtain ⟨front, left, rfl, rfl, rfl, small⟩ :=
          readTLV_readsOnly done rest err tlv next item
        have shorter := readTLV_ok item
        rw [readerAt_remaining, readerAt_remaining] at shorter
        simp only [item] at success
        cases tail : decodeTLVLoop fuel (readerAt (done ++ writeTLV tlv) left err) with
        | error failure => simp [tail] at success
        | ok items =>
          simp only [tail, Except.ok.injEq] at success
          subst success
          obtain ⟨values, rfl⟩ := ih _ left (by omega) items tail
          exact ⟨List.forall_mem_cons.mpr ⟨small, values⟩, by rw [List.flatMap_cons]⟩

theorem decodeTLVs_ok {raw : Bytes} {invalid : ε} (success : decodeTLVs raw invalid = .ok tlvs) :
    (∀ tlv ∈ tlvs, tlv.value.length ≤ 65535) ∧ raw = tlvs.flatMap writeTLV := by
  rw [decodeTLVs, newReader_eq_readerAt] at success
  exact decodeTLVLoop_ok raw.length [] raw invalid (Nat.le_refl _) tlvs success

/-! ## What the encoder accepts -/

def tlvSize (tlvs : List TLV) : Nat := (tlvs.map fun tlv => 4 + tlv.value.length).sum

theorem flatMap_writeTLV_length (tlvs : List TLV) : (tlvs.flatMap writeTLV).length = tlvSize tlvs := by
  induction tlvs with
  | nil => rfl
  | cons tlv rest ih =>
    simp only [List.flatMap_cons, List.length_append, ih, tlvSize, List.map_cons, List.sum_cons,
      writeTLV, putUint16_length]
    omega

theorem tlvTotal_eq (tlvs : List TLV) (total : Nat) (fits : total + tlvSize tlvs ≤ 65535) :
    tlvTotal total tlvs = some (total + tlvSize tlvs) := by
  induction tlvs generalizing total with
  | nil => rfl
  | cons tlv rest ih =>
    have split : tlvSize (tlv :: rest) = 4 + tlv.value.length + tlvSize rest := by
      simp [tlvSize]
    rw [split] at fits ⊢
    rw [tlvTotal, if_neg (by omega), if_neg (by omega), ih _ (by omega)]
    congr 1
    omega

theorem encodeTLVs_fits (fits : tlvSize tlvs ≤ 65535) (frameTooLarge : ε) :
    encodeTLVs tlvs frameTooLarge = .ok (tlvs.flatMap writeTLV) := by
  rw [encodeTLVs, tlvTotal_eq tlvs 0 (by omega)]

/-- Encoding and decoding are inverse to each other between the lists of at most
65535 bytes and the concatenations of complete items, and the decoder ends. -/
theorem tlv_codec_inverse {δ : Type} (frameTooLarge : ε) (invalid : δ) :
    (∀ tlvs : List TLV,
      ((∃ raw, encodeTLVs tlvs frameTooLarge = .ok raw) ↔
        (tlvs.map fun tlv => 4 + tlv.value.length).sum ≤ 65535) ∧
      ∀ raw, encodeTLVs tlvs frameTooLarge = .ok raw → decodeTLVs raw invalid = .ok tlvs) ∧
    ∀ raw : Bytes, raw.length ≤ 65535 →
      DecodeRun (newReader raw invalid) (decodeTLVs raw invalid) ∧
      (∀ tlvs, decodeTLVs raw invalid = .ok tlvs → encodeTLVs tlvs frameTooLarge = .ok raw) ∧
      ((∃ err, decodeTLVs raw invalid = .error err) ↔ ¬ TLVSequence raw) := by
  refine ⟨fun tlvs => ⟨⟨?_, ?_⟩, ?_⟩, fun raw short => ⟨?_, ?_, ?_⟩⟩
  · rintro ⟨raw, encoded⟩
    obtain ⟨decoded, bound⟩ := decodeTLVs_encodeTLVs tlvs frameTooLarge invalid raw encoded
    rw [(decodeTLVs_ok decoded).2, flatMap_writeTLV_length] at bound
    exact bound
  · intro fits
    exact ⟨_, encodeTLVs_fits fits frameTooLarge⟩
  · intro raw encoded
    exact (decodeTLVs_encodeTLVs tlvs frameTooLarge invalid raw encoded).1
  · refine decodeTLVLoop_runs _ _ ?_
    rw [newReader_eq_readerAt, readerAt_remaining]
  · intro tlvs decoded
    obtain ⟨_, rfl⟩ := decodeTLVs_ok decoded
    rw [flatMap_writeTLV_length] at short
    exact encodeTLVs_fits short frameTooLarge
  · constructor
    · rintro ⟨err, failed⟩ ⟨tlvs, small, rfl⟩
      rw [decodeTLVs_written tlvs small] at failed
      cases failed
    · intro incomplete
      cases outcome : decodeTLVs raw invalid with
      | error err => exact ⟨err, rfl⟩
      | ok tlvs =>
        obtain ⟨small, whole⟩ := decodeTLVs_ok outcome
        exact absurd ⟨tlvs, small, whole⟩ incomplete

/-- Two items, and the same bytes with the last one cut off. -/
theorem tlv_codec_inverse_sample :
    encodeTLVs [⟨1, [7]⟩, ⟨2, []⟩] "too large" = .ok [0, 1, 0, 1, 7, 0, 2, 0, 0] ∧
      ¬ TLVSequence [0, 1, 0, 1, 7, 0, 2, 0] := by
  obtain ⟨_, decoder⟩ := tlv_codec_inverse "too large" ()
  obtain ⟨_, back, _⟩ := decoder [0, 1, 0, 1, 7, 0, 2, 0, 0] (by decide)
  obtain ⟨_, _, fails⟩ := decoder [0, 1, 0, 1, 7, 0, 2, 0] (by decide)
  exact ⟨back [⟨1, [7]⟩, ⟨2, []⟩] (by rfl), fails.mp ⟨(), by rfl⟩⟩

end Libknock.Codec
