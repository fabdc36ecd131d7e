import Libknock.Foundation.Bytes

/-!
# A buffered reader over a chunked source

The source is the receiving side of a connection: bytes arrive in non-empty
chunks of arbitrary sizes and are followed by a final condition, the end of the
stream or the deadline of a peer that stays silent.  The reader follows Go's
documented `bufio.Reader` (`Read`, `Peek`, `Discard`) with `io.ReadFull` on top.

`pending` is what the reader has not handed out yet.  Every operation is
described by what it takes off `pending`, so that the chunking disappears from
the callers' proofs, and by `starved`, the number of reads that found the
source empty: as long as it does not move, no operation had to wait for a byte
beyond those that had been sent.
-/

set_option autoImplicit false

namespace Libknock.Foundation

inductive ReadError where
  | eof
  | unexpectedEOF
  | timeout
  | bufferFull
  | closed
  deriving DecidableEq

/-! ## Sources -/

structure Source where
  chunks : List Bytes
  ending : ReadError
  starved : Nat
  arrives : ∀ chunk ∈ chunks, chunk ≠ []

namespace Source

def ofChunk (chunk : Bytes) : Source where
  chunks := if chunk = [] then [] else [chunk]
  ending := .eof
  starved := 0
  arrives := by
    intro other member
    split at member
    · cases member
    rename_i nonempty
    rw [List.mem_singleton.mp member]
    exact nonempty

variable (limit : Nat) (chunk : Bytes)

theorem ofChunk_flatten : (ofChunk chunk).chunks.flatten = chunk := by
  unfold ofChunk
  split
  · rename_i empty
    exact empty.symm
  · simp

/-- The chunks left after `limit` bytes of the first one have been read. -/
def leftover (limit : Nat) (chunk : Bytes) (others : List Bytes) : List Bytes :=
  if chunk.length ≤ limit then others else chunk.drop limit :: others

theorem leftover_arrives (others : List Bytes) (arrives : ∀ other ∈ chunk :: others, other ≠ []) :
    ∀ other ∈ leftover limit chunk others, other ≠ [] := by
  intro other member
  unfold leftover at member
  split at member
  · exact arrives other (List.mem_cons_of_mem _ member)
  rcases List.mem_cons.mp member with rfl | member
  · intro empty
    have := List.drop_eq_nil_iff.mp empty
    omega
  · exact arrives other (List.mem_cons_of_mem _ member)

theorem leftover_flatten (others : List Bytes) :
    chunk.take limit ++ (leftover limit chunk others).flatten = chunk ++ others.flatten := by
  unfold leftover
  split
  · rename_i small
    rw [List.take_of_length_le small]
  · rw [List.flatten_cons, ← List.append_assoc, List.take_append_drop]

/-- One `Read` with room for `limit` bytes: a prefix of the next chunk, or the
final condition when every chunk has been delivered. -/
def read (limit : Nat) : Source → Except ReadError Bytes × Source
  | ⟨[], ending, starved, arrives⟩ => (.error ending, ⟨[], ending, starved + 1, arrives⟩)
  | ⟨chunk :: others, ending, starved, arrives⟩ =>
    (.ok (chunk.take limit), ⟨leftover limit chunk others, ending, starved,
      leftover_arrives limit chunk others arrives⟩)

theorem read_exhausted (source : Source) (none : source.chunks = []) :
    ∃ rest, source.read limit = (.error source.ending, rest) ∧ rest.chunks = [] := by
  obtain ⟨chunks, ending, starved, arrives⟩ := source
  cases none
  exact ⟨_, rfl, rfl⟩

theorem read_delivers (positive : 0 < limit) (source : Source) (more : source.chunks ≠ []) :
    ∃ data rest, source.read limit = (.ok data, rest) ∧ data ≠ [] ∧ data.length ≤ limit ∧
      source.chunks.flatten = data ++ rest.chunks.flatten ∧
      rest.ending = source.ending ∧ rest.starved = source.starved := by
  obtain ⟨chunks, ending, starved, arrives⟩ := source
  cases chunks with
  | nil => exact absurd rfl more
  | cons chunk others =>
    have nonempty : chunk ≠ [] := arrives chunk (List.mem_cons_self ..)
    refine ⟨chunk.take limit, _, rfl, ?_, by simp, ?_, rfl, rfl⟩
    · intro empty
      rcases List.take_eq_nil_iff.mp empty with zero | none
      · omega
      · exact nonempty none
    · exact (leftover_flatten limit chunk others).symm

end Source

/-! ## The reader -/

structure BufferedReader (size : Nat) where
  buffered : Bytes
  source : Source
  err : Option ReadError

namespace BufferedReader

variable {size : Nat}

def new (source : Source) : BufferedReader size := ⟨[], source, none⟩

/-- What has been sent and not yet been handed out. -/
def pending (reader : BufferedReader size) : Bytes :=
  reader.buffered ++ reader.source.chunks.flatten

def fill (reader : BufferedReader size) : BufferedReader size :=
  match reader.source.read (size - reader.buffered.length) with
  | (.ok data, source) => ⟨reader.buffered ++ data, source, none⟩
  | (.error failure, source) => ⟨reader.buffered, source, some failure⟩

/-- The filling loop of `Peek`.  A call adds a byte or records an error, so the
requested length is enough fuel. -/
def fillTo (want : Nat) : Nat → BufferedReader size → BufferedReader size
  | 0, reader => reader
  | fuel + 1, reader =>
    if reader.buffered.length < want ∧ reader.buffered.length < size ∧ reader.err = none then
      fillTo want fuel reader.fill
    else reader

def peek (want : Nat) (reader : BufferedReader size) :
    Except ReadError (Bytes × BufferedReader size) :=
  let filled := fillTo want want reader
  if size < want then .error .bufferFull
  else if filled.buffered.length < want then .error (filled.err.getD .bufferFull)
  else .ok (filled.buffered.take want, filled)

/-- One `Read` with room for `limit` bytes.  A request at least as large as the
buffer goes to the source directly when nothing is buffered. -/
def read (limit : Nat) (reader : BufferedReader size) :
    Except ReadError (Bytes × BufferedReader size) :=
  match reader.buffered, reader.err with
  | [], some failure => .error failure
  | [], none =>
    if size ≤ limit then
      match reader.source.read limit with
      | (.ok data, source) => .ok (data, ⟨[], source, none⟩)
      | (.error failure, _) => .error failure
    else
      match reader.source.read size with
      | (.ok data, source) => .ok (data.take limit, ⟨data.drop limit, source, none⟩)
      | (.error failure, _) => .error failure
  | byte :: rest, err =>
    .ok ((byte :: rest).take limit, ⟨(byte :: rest).drop limit, reader.source, err⟩)

/-- The loop of `io.ReadFull`.  Every round delivers a byte, so the number of
missing bytes is enough fuel. -/
def readFullLoop : Nat → Nat → Bytes → BufferedReader size →
    Except ReadError (Bytes × BufferedReader size)
  | _, 0, got, reader => .ok (got, reader)
  | 0, _ + 1, _, _ => .error .unexpectedEOF
  | fuel + 1, missing + 1, got, reader =>
    match reader.read (missing + 1) with
    | .error failure =>
      .error (if failure = .eof ∧ got ≠ [] then .unexpectedEOF else failure)
    | .ok (data, next) => readFullLoop fuel (missing + 1 - data.length) (got ++ data) next

def readFull (want : Nat) (reader : BufferedReader size) :
    Except ReadError (Bytes × BufferedReader size) :=
  readFullLoop want want [] reader

/-- The loop of `Discard`; its count and error are dropped by the callers. -/
def discardLoop : Nat → Nat → BufferedReader size → BufferedReader size
  | 0, _, reader => reader
  | fuel + 1, remain, reader =>
    let filled := if reader.buffered = [] then reader.fill else reader
    let skipped : BufferedReader size :=
      { filled with buffered := filled.buffered.drop remain }
    if remain ≤ filled.buffered.length then skipped
    else if skipped.err ≠ none then { skipped with err := none }
    else discardLoop fuel (remain - filled.buffered.length) skipped

def discard (count : Nat) (reader : BufferedReader size) : BufferedReader size :=
  if count = 0 then reader else discardLoop count count reader

/-- Reading to the end with requests of `limit` bytes; returns the bytes and
the condition that ended the stream. -/
def readAllLoop (limit : Nat) : Nat → Bytes → BufferedReader size → Bytes × Option ReadError
  | 0, got, _ => (got, none)
  | fuel + 1, got, reader =>
    match reader.read limit with
    | .error failure => (got, some failure)
    | .ok (data, next) => readAllLoop limit fuel (got ++ data) next

def readAll (limit : Nat) (reader : BufferedReader size) : Bytes × Option ReadError :=
  readAllLoop limit (reader.pending.length + 1) [] reader

/-! ## What the operations take -/

/-- `next` is `reader` after handing out `taken`, without an error and without
a read that found the source empty. -/
structure Advances (reader next : BufferedReader size) (taken : Bytes) : Prop where
  pending : reader.pending = taken ++ next.pending
  calm : next.err = none
  starved : next.source.starved = reader.source.starved
  ending : next.source.ending = reader.source.ending

variable {reader next : BufferedReader size}

theorem Advances.refl (calm : reader.err = none) : Advances reader reader [] :=
  ⟨rfl, calm, rfl, rfl⟩

theorem Advances.trans {first second third : BufferedReader size} {left right : Bytes}
    (early : Advances first second left) (late : Advances second third right) :
    Advances first third (left ++ right) := by
  refine ⟨?_, late.calm, late.starved.trans early.starved, late.ending.trans early.ending⟩
  rw [early.pending, late.pending, List.append_assoc]

theorem Advances.pending_eq (step : Advances reader next []) :
    next.pending = reader.pending := by
  simpa using step.pending.symm

theorem flatten_eq_nil (source : Source) (none : source.chunks.flatten = []) :
    source.chunks = [] := by
  obtain ⟨chunks, ending, starved, arrives⟩ := source
  cases chunks with
  | nil => rfl
  | cons chunk others =>
    have empty := (List.append_eq_nil_iff.mp (by simpa using none : chunk ++ others.flatten = [])).1
    exact absurd empty (arrives chunk (List.mem_cons_self ..))

theorem fill_advances (room : reader.buffered.length < size) (more : reader.source.chunks ≠ []) :
    Advances reader reader.fill [] ∧ reader.buffered.length < reader.fill.buffered.length := by
  obtain ⟨data, rest, delivered, nonempty, _, split, ending, starved⟩ :=
    reader.source.read_delivers (size - reader.buffered.length) (by omega) more
  have positive : 0 < data.length := List.length_pos_iff.mpr nonempty
  have shape : reader.fill = ⟨reader.buffered ++ data, rest, none⟩ := by
    rw [fill, delivered]
  rw [shape]
  refine ⟨⟨?_, rfl, starved, ending⟩, ?_⟩
  · simp only [pending, List.nil_append, split, List.append_assoc]
  · simp only [List.length_append]
    omega

theorem fill_pending (room : reader.buffered.length < size) :
    reader.fill.pending = reader.pending := by
  by_cases more : reader.source.chunks = []
  · obtain ⟨rest, failed, drained⟩ :=
      reader.source.read_exhausted (size - reader.buffered.length) more
    rw [fill, failed]
    simp [pending, more, drained]
  · exact (fill_advances room more).1.pending.symm

theorem fillTo_pending (want fuel : Nat) (reader : BufferedReader size) :
    (fillTo want fuel reader).pending = reader.pending := by
  induction fuel generalizing reader with
  | zero => rfl
  | succ fuel ih =>
    rw [fillTo]
    split
    · rename_i short
      rw [ih, fill_pending short.2.1]
    · rfl

theorem fillTo_advances {want : Nat} (fuel : Nat) (calm : reader.err = none)
    (fits : want ≤ size) (sent : want ≤ reader.pending.length)
    (enough : want ≤ fuel + reader.buffered.length) :
    Advances reader (fillTo want fuel reader) [] ∧
      want ≤ (fillTo want fuel reader).buffered.length := by
  induction fuel generalizing reader with
  | zero => exact ⟨.refl calm, by simpa [fillTo] using enough⟩
  | succ fuel ih =>
    rw [fillTo]
    by_cases short : reader.buffered.length < want
    · have room : reader.buffered.length < size := by omega
      rw [if_pos ⟨short, room, calm⟩]
      have more : reader.source.chunks ≠ [] := by
        intro none
        have : reader.pending.length = reader.buffered.length := by simp [pending, none]
        omega
      obtain ⟨advanced, longer⟩ := fill_advances room more
      have same : reader.fill.pending = reader.pending := fill_pending room
      obtain ⟨rest, filled⟩ := ih advanced.calm (by rw [same]; exact sent) (by omega)
      exact ⟨by simpa using advanced.trans rest, filled⟩
    · rw [if_neg (fun busy => short busy.1)]
      exact ⟨.refl calm, by omega⟩

theorem peek_sent (want : Nat) (reader : BufferedReader size) (calm : reader.err = none)
    (fits : want ≤ size) (sent : want ≤ reader.pending.length) :
    ∃ next, peek want reader = .ok (reader.pending.take want, next) ∧
      Advances reader next [] ∧ want ≤ next.buffered.length := by
  obtain ⟨advanced, filled⟩ := fillTo_advances want calm fits sent (by omega)
  refine ⟨fillTo want want reader, ?_, advanced, filled⟩
  have front : (fillTo want want reader).buffered.take want = reader.pending.take want := by
    rw [← fillTo_pending want want reader, pending, List.take_append_of_le_length filled]
  simp only [peek]
  rw [if_neg (by omega), if_neg (by omega), front]

theorem peek_ok (want : Nat) {data : Bytes} (calm : reader.err = none)
    (success : peek want reader = .ok (data, next)) :
    want ≤ reader.pending.length ∧ data = reader.pending.take want ∧
      Advances reader next [] ∧ want ≤ next.buffered.length := by
  have bounds : want ≤ size ∧ want ≤ (fillTo want want reader).buffered.length := by
    simp only [peek] at success
    split at success
    · cases success
    split at success
    · cases success
    · omega
  have sent : want ≤ reader.pending.length := by
    rw [← fillTo_pending want want reader, pending, List.length_append]
    omega
  obtain ⟨expected, run, advanced, filled⟩ := peek_sent want reader calm bounds.1 sent
  rw [run] at success
  cases success
  exact ⟨sent, rfl, advanced, filled⟩

section

variable (large : 0 < size) (limit : Nat) (calm : reader.err = none)

include calm in
theorem read_drained (drained : reader.pending = []) :
    read limit reader = .error reader.source.ending := by
  obtain ⟨buffered, source, err⟩ := reader
  cases calm
  obtain ⟨none, exhausted⟩ := List.append_eq_nil_iff.mp drained
  simp only at none exhausted
  subst none
  have chunks := flatten_eq_nil source exhausted
  simp only [read]
  split
  · obtain ⟨rest, failed, -⟩ := source.read_exhausted limit chunks
    rw [failed]
  · obtain ⟨rest, failed, -⟩ := source.read_exhausted size chunks
    rw [failed]

include large calm

theorem read_sent (positive : 0 < limit) (sent : reader.pending ≠ []) :
    ∃ data next, read limit reader = .ok (data, next) ∧ data ≠ [] ∧ data.length ≤ limit ∧
      Advances reader next data := by
  obtain ⟨buffered, source, err⟩ := reader
  cases calm
  cases buffered with
  | cons byte rest =>
    refine ⟨(byte :: rest).take limit, ⟨(byte :: rest).drop limit, source, none⟩, rfl, ?_, ?_, ?_⟩
    · intro empty
      rcases List.take_eq_nil_iff.mp empty with zero | none
      · omega
      · cases none
    · simp
    · refine ⟨?_, rfl, rfl, rfl⟩
      simp only [pending]
      rw [← List.append_assoc, List.take_append_drop]
  | nil =>
    have more : source.chunks ≠ [] := by
      intro none
      exact sent (by simp [pending, none])
    by_cases direct : size ≤ limit
    · obtain ⟨data, rest, delivered, nonempty, short, split, ending, starved⟩ :=
        source.read_delivers limit positive more
      refine ⟨data, ⟨[], rest, none⟩, ?_, nonempty, short, ⟨?_, rfl, starved, ending⟩⟩
      · simp only [read]
        rw [if_pos direct, delivered]
      · simpa [pending] using split
    · obtain ⟨data, rest, delivered, nonempty, _, split, ending, starved⟩ :=
        source.read_delivers size large more
      refine ⟨data.take limit, ⟨data.drop limit, rest, none⟩, ?_, ?_, by simp,
        ⟨?_, rfl, starved, ending⟩⟩
      · simp only [read]
        rw [if_neg direct, delivered]
      · intro empty
        rcases List.take_eq_nil_iff.mp empty with zero | none
        · omega
        · exact nonempty none
      · simp only [pending, List.nil_append]
        rw [split, ← List.append_assoc, List.take_append_drop]

theorem readFullLoop_sent (fuel missing : Nat) (got : Bytes)
    (sent : missing ≤ reader.pending.length) (enough : missing ≤ fuel) :
    ∃ next, readFullLoop fuel missing got reader =
        .ok (got ++ reader.pending.take missing, next) ∧
      Advances reader next (reader.pending.take missing) := by
  induction fuel generalizing missing got reader with
  | zero =>
    have : missing = 0 := by omega
    subst this
    exact ⟨reader, by simp [readFullLoop], by simpa using Advances.refl calm⟩
  | succ fuel ih =>
    cases missing with
    | zero => exact ⟨reader, by simp [readFullLoop], by simpa using Advances.refl calm⟩
    | succ missing =>
      have nonempty : reader.pending ≠ [] := by
        intro none
        simp [none] at sent
      obtain ⟨data, middle, delivered, some, short, advanced⟩ :=
        read_sent large (missing + 1) calm (by omega) nonempty
      have positive : 0 < data.length := List.length_pos_iff.mpr some
      have lengths : reader.pending.length = data.length + middle.pending.length := by
        rw [advanced.pending, List.length_append]
      obtain ⟨next, run, rest⟩ := ih advanced.calm (missing + 1 - data.length)
        (got ++ data) (by omega) (by omega)
      have whole : reader.pending.take (missing + 1) =
          data ++ middle.pending.take (missing + 1 - data.length) := by
        rw [advanced.pending, List.take_append, List.take_of_length_le short]
      refine ⟨next, ?_, ?_⟩
      · rw [readFullLoop, delivered]
        simp only
        rw [run, whole, List.append_assoc]
      · rw [whole]
        exact advanced.trans rest

theorem readFull_sent (want : Nat) (sent : want ≤ reader.pending.length) :
    ∃ next, readFull want reader = .ok (reader.pending.take want, next) ∧
      Advances reader next (reader.pending.take want) := by
  obtain ⟨next, run, advanced⟩ :=
    readFullLoop_sent large calm want want [] sent (Nat.le_refl want)
  exact ⟨next, by simpa [readFull] using run, advanced⟩

theorem readFullLoop_short (fuel missing : Nat) (got : Bytes)
    (short : reader.pending.length < missing) :
    ∃ failure, readFullLoop fuel missing got reader = .error failure := by
  induction fuel generalizing missing got reader with
  | zero =>
    cases missing with
    | zero => omega
    | succ missing => exact ⟨_, rfl⟩
  | succ fuel ih =>
    cases missing with
    | zero => omega
    | succ missing =>
      rw [readFullLoop]
      by_cases drained : reader.pending = []
      · rw [read_drained (missing + 1) calm drained]
        exact ⟨_, rfl⟩
      · obtain ⟨data, middle, delivered, _, _, advanced⟩ :=
          read_sent large (missing + 1) calm (by omega) drained
        have lengths : reader.pending.length = data.length + middle.pending.length := by
          rw [advanced.pending, List.length_append]
        rw [delivered]
        exact ih advanced.calm (missing + 1 - data.length) (got ++ data) (by omega)

theorem readFull_ok {want : Nat} {data : Bytes} (success : readFull want reader = .ok (data, next)) :
    want ≤ reader.pending.length ∧ data = reader.pending.take want ∧ Advances reader next data := by
  by_cases sent : want ≤ reader.pending.length
  · obtain ⟨expected, run, advanced⟩ := readFull_sent large calm want sent
    rw [run] at success
    cases success
    exact ⟨sent, rfl, advanced⟩
  · obtain ⟨failure, failed⟩ :=
      readFullLoop_short large calm want want [] (Nat.lt_of_not_le sent)
    rw [readFull, failed] at success
    cases success

theorem readAllLoop_pending (positive : 0 < limit) (fuel : Nat) (got : Bytes)
    (enough : reader.pending.length < fuel) :
    readAllLoop limit fuel got reader = (got ++ reader.pending, some reader.source.ending) := by
  induction fuel generalizing got reader with
  | zero => omega
  | succ fuel ih =>
    rw [readAllLoop]
    by_cases drained : reader.pending = []
    · rw [read_drained limit calm drained, drained, List.append_nil]
    · obtain ⟨data, next, delivered, some, _, advanced⟩ :=
        read_sent large limit calm positive drained
      have shorter : 0 < data.length := List.length_pos_iff.mpr some
      have lengths : reader.pending.length = data.length + next.pending.length := by
        rw [advanced.pending, List.length_append]
      rw [delivered]
      simp only
      rw [ih advanced.calm (got ++ data) (by omega), advanced.pending, advanced.ending,
        List.append_assoc]

theorem readAll_pending (positive : 0 < limit) :
    readAll limit reader = (reader.pending, some reader.source.ending) := by
  rw [readAll, readAllLoop_pending large limit calm positive _ [] (Nat.lt_succ_self _),
    List.nil_append]

end

theorem discard_buffered (count : Nat) (calm : reader.err = none)
    (held : count ≤ reader.buffered.length) :
    Advances reader (discard count reader) (reader.pending.take count) := by
  have front : reader.pending.take count = reader.buffered.take count :=
    List.take_append_of_le_length held
  rw [front, discard]
  split
  · rename_i zero
    subst zero
    simpa using Advances.refl calm
  · rename_i positive
    have nonempty : reader.buffered ≠ [] := by
      intro none
      simp [none] at held
      omega
    obtain ⟨fuel, rfl⟩ := Nat.exists_eq_succ_of_ne_zero positive
    rw [Nat.succ_eq_add_one, discardLoop]
    simp only [if_neg nonempty, if_pos held]
    refine ⟨?_, calm, rfl, rfl⟩
    simp only [pending]
    rw [← List.append_assoc, List.take_append_drop]

theorem Advances.discard_peeked {peeked : BufferedReader size}
    (peek : Advances reader peeked []) (count : Nat) (held : count ≤ peeked.buffered.length) :
    Advances reader (peeked.discard count) (reader.pending.take count) := by
  have both := peek.trans (discard_buffered count peek.calm held)
  rw [List.nil_append, peek.pending_eq] at both
  exact both

end BufferedReader

end Libknock.Foundation
