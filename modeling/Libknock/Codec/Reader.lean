import Libknock.Foundation.Bytes

/-!
# The bounds-checked binary reader

`internal/codec/codec.go`.  A reader is a buffer with a position and the error
it reports when the buffer is too short.  A decoder is a state-passing program
over readers; the error ends it.
-/

set_option autoImplicit false

namespace Libknock.Codec

open Foundation

structure BinaryReader (ε : Type) where
  buf : Bytes
  pos : Nat
  err : ε

abbrev Decoder (ε : Type) := StateT (BinaryReader ε) (Except ε)

variable {ε : Type}

def newReader (buf : Bytes) (invalid : ε) : BinaryReader ε := ⟨buf, 0, invalid⟩

def BinaryReader.remaining (reader : BinaryReader ε) : Nat := reader.buf.length - reader.pos

/-- `ReadFixed`; the counts of all callers come from unsigned fields or
constants, so the negative case of the source does not arise. -/
def readFixed (count : Nat) : Decoder ε Bytes := fun reader =>
  if reader.remaining < count then .error reader.err
  else .ok ((reader.buf.drop reader.pos).take count, { reader with pos := reader.pos + count })

def readByte : Decoder ε UInt8 := do
  let raw ← readFixed 1
  pure (raw.headD 0)

def readUint16 : Decoder ε UInt16 := do
  let raw ← readFixed 2
  pure (uint16 raw)

def readUint64 : Decoder ε UInt64 := do
  let raw ← readFixed 8
  pure (uint64 raw)

/-- `ReadVarBytes`: copying out does not change the bytes. -/
def readVarBytes (count : Nat) (_copyOut : Bool) : Decoder ε Bytes := readFixed count

/-! ## Reading what was written -/

def readerAt (done rest : Bytes) (err : ε) : BinaryReader ε := ⟨done ++ rest, done.length, err⟩

theorem newReader_eq_readerAt (buf : Bytes) (invalid : ε) :
    newReader buf invalid = readerAt [] buf invalid := rfl

@[simp] theorem readerAt_remaining (done rest : Bytes) (err : ε) :
    (readerAt done rest err).remaining = rest.length := by
  simp [readerAt, BinaryReader.remaining]

@[simp] theorem readerAt_pos (done rest : Bytes) (err : ε) :
    (readerAt done rest err).pos = done.length := rfl

/-- `decoder` reads exactly `item` and returns `value`, whatever follows. -/
def Reads {α : Type} (decoder : Decoder ε α) (item : Bytes) (value : α) : Prop :=
  ∀ done rest err, decoder (readerAt done (item ++ rest) err) =
    .ok (value, readerAt (done ++ item) rest err)

theorem readFixed_reads (item : Bytes) : Reads (ε := ε) (readFixed item.length) item item := by
  intro done rest err
  have enough : ¬ (readerAt done (item ++ rest) err).remaining < item.length := by simp
  rw [readFixed, if_neg enough]
  simp [readerAt]

theorem readFixed_reads_array {size : Nat} (item : FixedBytes size) :
    Reads (ε := ε) (readFixed size) item.bytes item.bytes := by
  have raw := readFixed_reads (ε := ε) item.bytes
  rwa [item.length_eq] at raw

theorem toNat_ofNat_of_le {count : Nat} (small : count ≤ 255) : (UInt8.ofNat count).toNat = count := by
  rw [UInt8.toNat_ofNat', Nat.mod_eq_of_lt (by omega)]

theorem reads_pure {α : Type} (value : α) : Reads (ε := ε) (pure value) [] value := by
  intro done rest err
  simp only [List.nil_append, List.append_nil]
  rfl

theorem reads_bind {α β : Type} {first : Decoder ε α} {second : α → Decoder ε β}
    {left right : Bytes} {value : α} {result : β} (early : Reads first left value)
    (late : Reads (second value) right result) :
    Reads (first >>= second) (left ++ right) result := by
  intro done rest err
  have start := early done (right ++ rest) err
  have finish := late (done ++ left) rest err
  show (first (readerAt done (left ++ right ++ rest) err)).bind (fun step => second step.1 step.2) = _
  rw [List.append_assoc, start]
  show second value (readerAt (done ++ left) (right ++ rest) err) = _
  rw [finish, List.append_assoc]

theorem reads_map {α β : Type} {first : Decoder ε α} {item : Bytes} {value : α}
    (early : Reads first item value) (convert : α → β) :
    Reads (first >>= fun raw => pure (convert raw)) item (convert value) := by
  have both := @reads_bind ε α β first (fun raw => pure (convert raw)) item [] value
    (convert value) early (reads_pure (convert value))
  rwa [List.append_nil] at both

theorem readByte_reads (byte : UInt8) : Reads (ε := ε) readByte [byte] byte :=
  reads_map (readFixed_reads [byte]) (fun raw => raw.headD 0)

theorem readUint16_reads (word : UInt16) : Reads (ε := ε) readUint16 (putUint16 word) word := by
  have raw : Reads (ε := ε) (readFixed 2) (putUint16 word) (putUint16 word) := by
    simpa using readFixed_reads (ε := ε) (putUint16 word)
  have converted := reads_map raw uint16
  rwa [uint16_putUint16] at converted

theorem readUint64_reads (word : UInt64) : Reads (ε := ε) readUint64 (putUint64 word) word := by
  have raw : Reads (ε := ε) (readFixed 8) (putUint64 word) (putUint64 word) := by
    simpa using readFixed_reads (ε := ε) (putUint64 word)
  have converted := reads_map raw uint64
  rwa [uint64_putUint64] at converted

/-! ## Reading only what was written -/

/-- Whatever `decoder` accepts it has taken off the front, and `form` says how
the value stood there. -/
def ReadsOnly {α : Type} (decoder : Decoder ε α) (form : α → Bytes → Prop) : Prop :=
  ∀ done rest err value next, decoder (readerAt done rest err) = .ok (value, next) →
    ∃ item left, rest = item ++ left ∧ next = readerAt (done ++ item) left err ∧ form value item

theorem readsOnly_pure {α : Type} {form : α → Bytes → Prop} (value : α) (formed : form value []) :
    ReadsOnly (ε := ε) (pure value) form := by
  intro done rest err result next success
  cases success
  exact ⟨[], rest, rfl, by rw [List.append_nil], formed⟩

/-- The rest of a decoder is judged with what has been read before it. -/
theorem readsOnly_bind {α β : Type} {first : Decoder ε α} {second : α → Decoder ε β}
    {form : α → Bytes → Prop} {goal : β → Bytes → Prop} (early : ReadsOnly first form)
    (late : ∀ value item, form value item →
      ReadsOnly (second value) fun result more => goal result (item ++ more)) :
    ReadsOnly (first >>= second) goal := by
  intro done rest err result next success
  cases run : first (readerAt done rest err) with
  | error failure => simp [bind, StateT.bind, run, Except.bind] at success
  | ok step =>
    obtain ⟨value, middle⟩ := step
    obtain ⟨item, left, rfl, rfl, formed⟩ := early done rest err value middle run
    simp only [bind, StateT.bind, run, Except.bind] at success
    obtain ⟨more, remaining, rfl, rfl, reached⟩ :=
      late value item formed (done ++ item) left err result next success
    exact ⟨item ++ more, remaining, by rw [List.append_assoc], by rw [List.append_assoc], reached⟩

theorem readFixed_readsOnly (count : Nat) :
    ReadsOnly (ε := ε) (readFixed count) fun value item => item = value ∧ value.length = count := by
  intro done rest err value next success
  unfold readFixed at success
  split at success
  · cases success
  rename_i enough
  rw [readerAt_remaining, not_lt] at enough
  cases success
  have front : ((readerAt done rest err).buf.drop (readerAt done rest err).pos).take count =
      rest.take count := by
    simp [readerAt]
  refine ⟨rest.take count, rest.drop count, (List.take_append_drop count rest).symm, ?_,
    front.symm, ?_⟩
  · simp [readerAt, List.take_append_drop, enough]
  · rw [front, List.length_take, Nat.min_eq_left enough]

theorem readByte_readsOnly : ReadsOnly (ε := ε) readByte fun value item => item = [value] := by
  refine readsOnly_bind (readFixed_readsOnly 1) ?_
  rintro _ raw ⟨rfl, one⟩
  obtain ⟨byte, rfl⟩ := List.length_eq_one_iff.mp one
  exact readsOnly_pure _ rfl

theorem readUint16_readsOnly :
    ReadsOnly (ε := ε) readUint16 fun value item => item = putUint16 value := by
  refine readsOnly_bind (readFixed_readsOnly 2) ?_
  rintro _ raw ⟨rfl, two⟩
  exact readsOnly_pure _ (by rw [putUint16_uint16 raw two, List.append_nil])

theorem readUint64_readsOnly :
    ReadsOnly (ε := ε) readUint64 fun value item => item = putUint64 value := by
  refine readsOnly_bind (readFixed_readsOnly 8) ?_
  rintro _ raw ⟨rfl, eight⟩
  exact readsOnly_pure _ (by rw [putUint64_uint64 raw eight, List.append_nil])

/-! ## Strings behind a byte that counts them -/

section Counted

variable {β : Type} {second : Bytes → Decoder ε β} {copyOut : Bool}

theorem reads_counted {item right : Bytes} {result : β} (short : item.length ≤ 255)
    (late : Reads (second item) right result) :
    Reads (readByte >>= fun count => readVarBytes count.toNat copyOut >>= second)
      ([UInt8.ofNat item.length] ++ (item ++ right)) result := by
  refine reads_bind (readByte_reads _) ?_
  rw [toNat_ofNat_of_le short]
  exact reads_bind (readFixed_reads item) late

theorem readsOnly_counted {goal : β → Bytes → Prop}
    (late : ∀ item : Bytes, item.length ≤ 255 → ReadsOnly (second item) fun result more =>
      goal result ([UInt8.ofNat item.length] ++ (item ++ more))) :
    ReadsOnly (readByte >>= fun count => readVarBytes count.toNat copyOut >>= second) goal := by
  refine readsOnly_bind readByte_readsOnly ?_
  rintro count _ rfl
  refine readsOnly_bind (readFixed_readsOnly count.toNat) ?_
  rintro _ item ⟨rfl, counted⟩
  have bound := count.toNat_lt
  have same : UInt8.ofNat item.length = count := by rw [counted, UInt8.ofNat_toNat]
  rw [← same]
  exact late item (by omega)

end Counted

end Libknock.Codec
