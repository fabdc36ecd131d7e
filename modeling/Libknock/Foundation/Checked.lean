import Libknock.Foundation.Bytes

/-!
# Programs that may fault

An index or slice expression that leaves its slice stops a Go program, and a
loop may go on for ever.  Both are faults here: a reader checks its bounds, and a
loop that has not ended after the given number of rounds says so.  `Decides` is
the judgement for a program that finds a value or none: it does not fault, and
it finds exactly the values of the specification.
-/

set_option autoImplicit false

namespace Libknock.Foundation

inductive Fault where
  | outOfRange
  | unfinished
  deriving DecidableEq, Repr

abbrev Checked := Except Fault

variable {raw front : Bytes} {i : Nat}

namespace Checked

@[simp] theorem ok_bind {α β : Type} (value : α) (rest : α → Checked β) :
    ((.ok value : Checked α) >>= rest) = rest value := rfl

/-! ## Readers -/

/-- `raw[i]`. -/
def index (raw : Bytes) (i : Nat) : Checked UInt8 :=
  match raw[i]? with
  | some byte => .ok byte
  | none => .error .outOfRange

/-- `raw[low:high]`, with the length of `raw` as the upper limit. -/
def slice (raw : Bytes) (low high : Nat) : Checked Bytes :=
  if low ≤ high ∧ high ≤ raw.length then .ok ((raw.drop low).take (high - low))
  else .error .outOfRange

/-- `binary.BigEndian.Uint16(raw[i : i+2])`. -/
def uint16At (raw : Bytes) (i : Nat) : Checked UInt16 := do
  let word ← slice raw i (i + 2)
  pure (uint16 word)

/-- `binary.BigEndian.Uint32(raw[i : i+4])`. -/
def uint32At (raw : Bytes) (i : Nat) : Checked UInt32 := do
  let word ← slice raw i (i + 4)
  pure (uint32 word)

def byte (raw : Bytes) (i : Nat) : UInt8 := raw.getD i 0

def word (raw : Bytes) (i : Nat) : UInt16 := uint16 ((raw.drop i).take 2)

def long (raw : Bytes) (i : Nat) : UInt32 := uint32 ((raw.drop i).take 4)

theorem index_ok (inside : i < raw.length) : index raw i = .ok (byte raw i) := by
  simp [index, byte, inside]

theorem slice_ok {low high : Nat} (ordered : low ≤ high) (inside : high ≤ raw.length) :
    slice raw low high = .ok ((raw.drop low).take (high - low)) :=
  if_pos ⟨ordered, inside⟩

theorem slice_to_end {low : Nat} (inside : low ≤ raw.length) :
    slice raw low raw.length = .ok (raw.drop low) := by
  rw [slice_ok inside (Nat.le_refl _), List.take_of_length_le (by rw [List.length_drop])]

theorem uint16At_ok (inside : i + 2 ≤ raw.length) : uint16At raw i = .ok (word raw i) := by
  rw [uint16At, slice_ok (by omega) inside, Nat.add_sub_cancel_left]
  rfl

theorem uint32At_ok (inside : i + 4 ≤ raw.length) : uint32At raw i = .ok (long raw i) := by
  rw [uint32At, slice_ok (by omega) inside, Nat.add_sub_cancel_left]
  rfl

/-! ## Bytes behind a header -/

theorem word_drop (raw : Bytes) (start i : Nat) : word (raw.drop start) i = word raw (start + i) := by
  rw [word, word, List.drop_drop]

theorem word_append_right (front back : Bytes) (i : Nat) :
    word (front ++ back) (front.length + i) = word back i := by
  rw [← word_drop, List.drop_left]

theorem word_append_left (inside : i + 2 ≤ front.length) (back : Bytes) :
    word (front ++ back) i = word front i := by
  rw [word, word, List.drop_append_of_le_length (by omega),
    List.take_append_of_le_length (by rw [List.length_drop]; omega)]

/-! ## Fields behind what is written before them -/

theorem byte_field (size : front.length = i) (value : UInt8) (rest : Bytes) :
    byte (front ++ value :: rest) i = value := by
  subst size
  simp [byte]

theorem word_field (size : front.length = i) (value : UInt16) (rest : Bytes) :
    word (front ++ (putUint16 value ++ rest)) i = value := by
  rw [word, List.drop_left' size, List.take_left' (putUint16_length value), uint16_putUint16]

theorem long_field {front : Bytes} {i : Nat} (size : front.length = i) (value : UInt32)
    (rest : Bytes) : long (front ++ (putUint32 value ++ rest)) i = value := by
  rw [long, List.drop_left' size, List.take_left' (putUint32_length value), uint32_putUint32]

/-! ## Programs that find a value or none -/

variable {α β : Type}

def Decides (run : Checked (Option α)) (spec : α → Prop) : Prop :=
  ∃ result, run = .ok result ∧ ∀ value, result = some value ↔ spec value

variable {spec : α → Prop} {run : Checked (Option α)}

theorem Decides.total (decides : Decides run spec) : ∃ result, run = .ok result := by
  obtain ⟨result, done, _⟩ := decides
  exact ⟨result, done⟩

theorem Decides.found_iff (decides : Decides run spec) (value : α) :
    run = .ok (some value) ↔ spec value := by
  obtain ⟨result, rfl, meets⟩ := decides
  rw [← meets, Except.ok.injEq]

theorem Decides.congr {other : α → Prop} (decides : Decides run spec)
    (same : ∀ value, spec value ↔ other value) : Decides run other := by
  obtain ⟨result, done, meets⟩ := decides
  exact ⟨result, done, fun value => (meets value).trans (same value)⟩

theorem decides_none (never : ∀ value, ¬ spec value) : Decides (pure none) spec :=
  ⟨none, rfl, fun value => ⟨fun found => (Option.some_ne_none value found.symm).elim,
    fun meets => (never value meets).elim⟩⟩

theorem decides_some (value : α) (only : ∀ other, spec other ↔ other = value) :
    Decides (pure (some value)) spec :=
  ⟨some value, rfl, fun other => by rw [only, Option.some.injEq, eq_comm]⟩

theorem decides_bind {step : Checked β} {rest : β → Checked (Option α)} {result : β}
    (done : step = .ok result) (decides : Decides (rest result) spec) :
    Decides (step >>= rest) spec := by
  subst done
  exact decides

theorem decides_unless {test : Prop} [Decidable test] {rest : Checked (Option α)}
    (rejected : test → ∀ value, ¬ spec value) (decides : ¬ test → Decides rest spec) :
    Decides (if test then pure none else rest) spec := by
  split
  · rename_i failed
    exact decides_none (rejected failed)
  · rename_i passed
    exact decides passed

/-- `x, ok := first(); if !ok { return }`. -/
def andThen (first : Checked (Option β)) (rest : β → Checked (Option α)) : Checked (Option α) := do
  match ← first with
  | none => pure none
  | some value => rest value

theorem decides_andThen {first : Checked (Option β)} {rest : β → Checked (Option α)}
    {found : β → Prop} {spec : β → α → Prop} (early : Decides first found)
    (late : ∀ value, found value → Decides (rest value) (spec value)) :
    Decides (andThen first rest) fun result => ∃ value, found value ∧ spec value result := by
  obtain ⟨result, rfl, meets⟩ := early
  cases result with
  | none =>
    refine decides_none ?_
    rintro value ⟨middle, reached, _⟩
    exact Option.some_ne_none middle ((meets middle).mpr reached).symm
  | some middle =>
    refine (late middle ((meets middle).mp rfl)).congr fun value => ⟨?_, ?_⟩
    · exact fun reached => ⟨middle, (meets middle).mp rfl, reached⟩
    · rintro ⟨other, reached, goal⟩
      cases (meets other).mpr reached
      exact goal

/-- `if x, ok := first(); ok { return x }`. -/
def orElse (first second : Checked (Option α)) : Checked (Option α) := do
  match ← first with
  | none => second
  | some value => pure (some value)

theorem decides_orElse {first second : Checked (Option α)} {found other : α → Prop}
    (early : Decides first found) (late : Decides second other) :
    Decides (orElse first second) fun value =>
      found value ∨ (∀ earlier, ¬ found earlier) ∧ other value := by
  obtain ⟨result, rfl, meets⟩ := early
  cases result with
  | none =>
    have never : ∀ earlier, ¬ found earlier := by
      intro earlier reached
      exact Option.some_ne_none earlier ((meets earlier).mpr reached).symm
    refine late.congr fun value => ⟨fun reached => Or.inr ⟨never, reached⟩, ?_⟩
    rintro (reached | ⟨_, reached⟩)
    · exact absurd reached (never value)
    · exact reached
  | some first =>
    refine decides_some first fun value => ⟨?_, ?_⟩
    · rintro (reached | ⟨never, _⟩)
      · exact (Option.some.inj ((meets value).mpr reached)).symm
      · exact absurd ((meets first).mp rfl) (never first)
    · rintro rfl
      exact Or.inl ((meets value).mp rfl)

/-! ## Loops over offsets -/

/-- `for ; i+width <= limit; i++ { if accepts(i) { return i } }; return -1`. -/
def scan (width limit : Nat) (accepts : Nat → Checked Bool) : Nat → Nat → Checked (Option Nat)
  | 0, _ => .error .unfinished
  | fuel + 1, i =>
    if i + width ≤ limit then do
      if ← accepts i then pure (some i) else scan width limit accepts fuel (i + 1)
    else pure none

/-- The first offset from `start` on at which something of this width fits and
is accepted. -/
structure FirstFrom (width limit : Nat) (accepted : Nat → Prop) (start i : Nat) : Prop where
  after : start ≤ i
  inside : i + width ≤ limit
  here : accepted i
  first : ∀ j, start ≤ j → j < i → ¬ accepted j

theorem scan_decides {width limit : Nat} {accepts : Nat → Checked Bool} {accepted : Nat → Prop}
    [DecidablePred accepted]
    (tests : ∀ i, i + width ≤ limit → accepts i = .ok (decide (accepted i))) (fuel start : Nat)
    (positive : 0 < fuel) (enough : limit + 2 ≤ fuel + start + width) :
    Decides (scan width limit accepts fuel start) (FirstFrom width limit accepted start) := by
  induction fuel generalizing start with
  | zero => omega
  | succ fuel ih =>
    rw [scan]
    split
    · rename_i inside
      refine decides_bind (tests start inside) ?_
      by_cases here : accepted start
      · rw [if_pos (by simpa using here)]
        refine decides_some start fun i => ⟨?_, ?_⟩
        · intro found
          by_contra other
          have after := found.after
          exact found.first start (Nat.le_refl _) (by omega) here
        · rintro rfl
          exact ⟨Nat.le_refl _, inside, here, by omega⟩
      · rw [if_neg (by simpa using here)]
        refine (ih (start + 1) (by omega) (by omega)).congr fun i => ⟨?_, ?_⟩
        · rintro ⟨after, fits, accepted, first⟩
          refine ⟨by omega, fits, accepted, fun j low high => ?_⟩
          rcases Nat.eq_or_lt_of_le low with rfl | later
          · exact here
          · exact first j later high
        · rintro ⟨after, fits, accepted, first⟩
          have moved : start ≠ i := by
            rintro rfl
            exact here accepted
          exact ⟨by omega, fits, accepted, fun j low high => first j (by omega) high⟩
    · rename_i beyond
      refine decides_none ?_
      rintro i ⟨after, fits, _, _⟩
      omega

end Checked

end Libknock.Foundation
