import Mathlib.Tactic

/-!
# Byte strings, fixed-size arrays and big-endian words

Byte strings are lists of `UInt8`.  A fixed-size array carries its length.
Words are written most significant byte first; the natural-number codec is
proved once and the 16- and 64-bit words are its instances.
-/

set_option autoImplicit false

namespace Libknock.Foundation

abbrev Bytes := List UInt8

/-- The bytes of an ASCII literal. -/
def ascii (text : String) : Bytes :=
  text.toList.map fun char => UInt8.ofNat char.toNat

/-! ## Cutting a text at a mark -/

section

variable {Char : Type} {mark : Char} {left right rest other : List Char}

def MarkedOrEmpty (mark : Char) (text : List Char) : Prop := ∀ char ∈ text.head?, char = mark

theorem marked_cons (mark : Char) (rest : List Char) : MarkedOrEmpty mark (mark :: rest) :=
  fun _ member => (Option.some.inj member).symm

theorem marked_nil (mark : Char) : MarkedOrEmpty mark [] := nofun

theorem cut_mark (ends : MarkedOrEmpty mark rest) (ends' : MarkedOrEmpty mark other)
    (plain : mark ∉ left) (plain' : mark ∉ right) (same : left ++ rest = right ++ other) :
    left = right ∧ rest = other := by
  induction left generalizing right with
  | nil =>
    cases right with
    | nil => exact ⟨rfl, same⟩
    | cons char right =>
      have head := ends char (by rw [show rest = _ from same]; rfl)
      exact absurd (head ▸ List.mem_cons_self) plain'
  | cons char left ih =>
    cases right with
    | nil =>
      have head := ends' char (by rw [← show _ = other from same]; rfl)
      exact absurd (head ▸ List.mem_cons_self) plain
    | cons char' right =>
      obtain ⟨head, tails⟩ := List.cons.inj same
      obtain ⟨lefts, rests⟩ := ih (List.not_mem_of_not_mem_cons plain)
        (List.not_mem_of_not_mem_cons plain') tails
      exact ⟨by rw [head, lefts], rests⟩

/-- Two texts cut at their first separator. -/
theorem append_separator_inj (plain : mark ∉ left) (plain' : mark ∉ right)
    (same : left ++ mark :: rest = right ++ mark :: other) : left = right ∧ rest = other := by
  obtain ⟨lefts, rests⟩ := cut_mark (marked_cons _ _) (marked_cons _ _) plain plain' same
  exact ⟨lefts, (List.cons.inj rests).2⟩

end

/-! ## Fixed-size arrays -/

structure FixedBytes (size : Nat) where
  bytes : Bytes
  length_eq : bytes.length = size
  deriving DecidableEq

namespace FixedBytes

variable {size : Nat}

theorem ext_bytes {left right : FixedBytes size} (same : left.bytes = right.bytes) :
    left = right := by
  cases left
  cases right
  cases same
  rfl

/-- `copy` into a zeroed array: the source is cut at the array's size and the
rest of the array keeps its zeros. -/
def copy (size : Nat) (source : Bytes) : FixedBytes size where
  bytes := source.take size ++ List.replicate (size - source.length) 0
  length_eq := by
    simp only [List.length_append, List.length_take, List.length_replicate]
    omega

theorem copy_bytes_of_length (source : Bytes) (exact : source.length = size) :
    (copy size source).bytes = source := by
  simp [copy, exact, List.take_of_length_le]

theorem copy_bytes (array : FixedBytes size) : copy size array.bytes = array :=
  ext_bytes (copy_bytes_of_length array.bytes array.length_eq)

end FixedBytes

/-! ## Big-endian words -/

/-- The low `width` base-256 digits of `value`, most significant first. -/
def bigEndian : Nat → Nat → Bytes
  | 0, _ => []
  | width + 1, value => bigEndian width (value / 256) ++ [UInt8.ofNat value]

def ofBigEndian (raw : Bytes) : Nat :=
  raw.foldl (fun acc byte => acc * 256 + byte.toNat) 0

@[simp] theorem bigEndian_length (width value : Nat) : (bigEndian width value).length = width := by
  induction width generalizing value with
  | zero => rfl
  | succ width ih => simp [bigEndian, ih]

theorem ofBigEndian_concat (raw : Bytes) (last : UInt8) :
    ofBigEndian (raw ++ [last]) = ofBigEndian raw * 256 + last.toNat := by
  simp [ofBigEndian]

theorem ofBigEndian_bigEndian (width value : Nat) (fits : value < 256 ^ width) :
    ofBigEndian (bigEndian width value) = value := by
  induction width generalizing value with
  | zero =>
    have : value = 0 := by simpa using fits
    subst this
    rfl
  | succ width ih =>
    have high : value / 256 < 256 ^ width := by
      rw [pow_succ] at fits
      exact Nat.div_lt_of_lt_mul (by omega)
    rw [bigEndian, ofBigEndian_concat, ih _ high]
    have low : (UInt8.ofNat value).toNat = value % 256 := by simp
    rw [low]
    omega

theorem ofBigEndian_lt (raw : Bytes) : ofBigEndian raw < 256 ^ raw.length := by
  induction raw using List.reverseRecOn with
  | nil => simp [ofBigEndian]
  | append_singleton raw last ih =>
    have digit := last.toNat_lt
    rw [ofBigEndian_concat, List.length_append, List.length_singleton, pow_succ]
    omega

theorem bigEndian_ofBigEndian (raw : Bytes) : bigEndian raw.length (ofBigEndian raw) = raw := by
  induction raw using List.reverseRecOn with
  | nil => rfl
  | append_singleton raw last ih =>
    have digit : last.toNat < 256 := last.toNat_lt
    rw [ofBigEndian_concat, List.length_append, List.length_singleton, bigEndian]
    have high : (ofBigEndian raw * 256 + last.toNat) / 256 = ofBigEndian raw := by omega
    have low : UInt8.ofNat (ofBigEndian raw * 256 + last.toNat) = last := by
      apply UInt8.toNat_inj.mp
      rw [UInt8.toNat_ofNat']
      omega
    rw [high, low, ih]

def putUint16 (word : UInt16) : Bytes := bigEndian 2 word.toNat

def putUint64 (word : UInt64) : Bytes := bigEndian 8 word.toNat

def putUint32 (word : UInt32) : Bytes := bigEndian 4 word.toNat

def uint16 (raw : Bytes) : UInt16 := UInt16.ofNat (ofBigEndian raw)

def uint64 (raw : Bytes) : UInt64 := UInt64.ofNat (ofBigEndian raw)

def uint32 (raw : Bytes) : UInt32 := UInt32.ofNat (ofBigEndian raw)

@[simp] theorem putUint16_length (word : UInt16) : (putUint16 word).length = 2 :=
  bigEndian_length 2 word.toNat

@[simp] theorem putUint64_length (word : UInt64) : (putUint64 word).length = 8 :=
  bigEndian_length 8 word.toNat

@[simp] theorem putUint32_length (word : UInt32) : (putUint32 word).length = 4 :=
  bigEndian_length 4 word.toNat

@[simp] theorem uint16_putUint16 (word : UInt16) : uint16 (putUint16 word) = word := by
  have fits : word.toNat < 256 ^ 2 := word.toNat_lt
  simp [uint16, putUint16, ofBigEndian_bigEndian 2 word.toNat fits]

@[simp] theorem uint64_putUint64 (word : UInt64) : uint64 (putUint64 word) = word := by
  have fits : word.toNat < 256 ^ 8 := word.toNat_lt
  simp [uint64, putUint64, ofBigEndian_bigEndian 8 word.toNat fits]

@[simp] theorem uint32_putUint32 (word : UInt32) : uint32 (putUint32 word) = word := by
  have fits : word.toNat < 256 ^ 4 := word.toNat_lt
  simp [uint32, putUint32, ofBigEndian_bigEndian 4 word.toNat fits]

theorem putUint16_uint16 (raw : Bytes) (two : raw.length = 2) : putUint16 (uint16 raw) = raw := by
  have fits : ofBigEndian raw < 2 ^ 16 := by
    have bound := ofBigEndian_lt raw
    rw [two] at bound
    exact bound
  rw [putUint16, uint16, UInt16.toNat_ofNat', Nat.mod_eq_of_lt fits, ← two]
  exact bigEndian_ofBigEndian raw

theorem putUint64_uint64 (raw : Bytes) (eight : raw.length = 8) : putUint64 (uint64 raw) = raw := by
  have fits : ofBigEndian raw < 2 ^ 64 := by
    have bound := ofBigEndian_lt raw
    rw [eight] at bound
    exact bound
  rw [putUint64, uint64, UInt64.toNat_ofNat', Nat.mod_eq_of_lt fits, ← eight]
  exact bigEndian_ofBigEndian raw

/-- Conversion of a machine integer to `uint16`: the value modulo `2 ^ 16`. -/
def uint16OfInt (value : Int) : UInt16 := UInt16.ofNat (value % 65536).toNat

theorem uint16OfInt_toNat {value : Int} (low : 0 ≤ value) (high : value ≤ 65535) :
    ((uint16OfInt value).toNat : Int) = value := by
  have reduced : value % 65536 = value := Int.emod_eq_of_lt low (by omega)
  have small : value.toNat < 65536 := by omega
  rw [uint16OfInt, reduced, UInt16.toNat_ofNat', Nat.mod_eq_of_lt small]
  exact Int.toNat_of_nonneg low

theorem uint16OfInt_natCast (word : UInt16) : uint16OfInt (word.toNat : Int) = word := by
  have bound : word.toNat < 65536 := word.toNat_lt
  rw [uint16OfInt, Int.emod_eq_of_lt (by omega) (by omega), Int.toNat_natCast, UInt16.ofNat_toNat]

def uint8OfInt (value : Int) : UInt8 := UInt8.ofNat (value % 256).toNat

theorem uint8OfInt_toNat {value : Int} (low : 0 ≤ value) (high : value ≤ 255) :
    ((uint8OfInt value).toNat : Int) = value := by
  have reduced : value % 256 = value := Int.emod_eq_of_lt low (by omega)
  have small : value.toNat < 256 := by omega
  rw [uint8OfInt, reduced, UInt8.toNat_ofNat', Nat.mod_eq_of_lt small]
  exact Int.toNat_of_nonneg low

end Libknock.Foundation
