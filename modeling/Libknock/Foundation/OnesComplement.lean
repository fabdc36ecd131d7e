import Libknock.Foundation.Bytes

/-!
# Ones-complement sums

Addition with end-around carry of words up to `ones`, the word whose bits are all
set, and the sums that such words have.  Such a sum is the sum of the words
modulo `ones`, with `ones` itself in place of zero for words that are not all
zero; the two representations of zero are why a valid sum is all ones.
-/

set_option autoImplicit false

namespace Libknock.Foundation.OnesComplement

variable {ones : Nat}

def add (ones left right : Nat) : Nat :=
  if left + right ≤ ones then left + right else left + right - ones

def sum (ones : Nat) (words : List Nat) : Nat := words.foldl (add ones) 0

theorem add_le {left right : Nat} (low : left ≤ ones) (high : right ≤ ones) :
    add ones left right ≤ ones := by
  unfold add
  split <;> omega

theorem add_modEq (left right : Nat) : add ones left right ≡ left + right [MOD ones] := by
  unfold add
  split
  · exact Nat.ModEq.refl _
  rename_i carry
  have whole : left + right - ones + ones = left + right := by omega
  have shifted : left + right - ones + ones ≡ left + right - ones [MOD ones] :=
    Nat.add_modulus_modEq_iff.mpr (Nat.ModEq.refl _)
  rw [whole] at shifted
  exact shifted.symm

theorem add_pos {left right : Nat} (positive : 0 < left + right) : 0 < add ones left right := by
  unfold add
  split <;> omega

theorem foldl_add_le (words : List Nat) (bounded : ∀ word ∈ words, word ≤ ones) (start : Nat)
    (low : start ≤ ones) : words.foldl (add ones) start ≤ ones := by
  induction words generalizing start with
  | nil => exact low
  | cons word rest ih =>
    obtain ⟨first, others⟩ := List.forall_mem_cons.mp bounded
    exact ih others (add ones start word) (add_le low first)

theorem foldl_add_modEq (words : List Nat) (start : Nat) :
    words.foldl (add ones) start ≡ start + words.sum [MOD ones] := by
  induction words generalizing start with
  | nil => exact Nat.ModEq.refl _
  | cons word rest ih =>
    calc (word :: rest).foldl (add ones) start
        ≡ add ones start word + rest.sum [MOD ones] := ih (add ones start word)
      _ ≡ start + word + rest.sum [MOD ones] := (add_modEq start word).add_right _
      _ = start + (word :: rest).sum := by rw [List.sum_cons, Nat.add_assoc]

theorem foldl_add_pos (words : List Nat) (start : Nat) (positive : 0 < start + words.sum) :
    0 < words.foldl (add ones) start := by
  induction words generalizing start with
  | nil => simpa using positive
  | cons word rest ih =>
    rw [List.sum_cons] at positive
    refine ih (add ones start word) ?_
    rcases Nat.eq_zero_or_pos (start + word) with none | some_
    · omega
    · exact Nat.add_pos_left (add_pos some_) _

theorem sum_eq_ones {words : List Nat} (bounded : ∀ word ∈ words, word ≤ ones)
    (positive : 0 < words.sum) (multiple : ones ∣ words.sum) : sum ones words = ones := by
  have low := foldl_add_le words bounded 0 (Nat.zero_le _)
  have high : 0 < sum ones words := foldl_add_pos words 0 (by omega)
  have same : sum ones words ≡ words.sum [MOD ones] := by
    rw [sum, ← Nat.zero_add words.sum]
    exact foldl_add_modEq words 0
  have divides : ones ∣ sum ones words := (Nat.ModEq.dvd_iff same (dvd_refl ones)).mpr multiple
  exact Nat.le_antisymm low (Nat.le_of_dvd high divides)

theorem dvd_add_complement {total folded : Nat} (low : folded ≤ ones)
    (same : folded ≡ total [MOD ones]) : ones ∣ total + (ones - folded) := by
  have shifted : total + (ones - folded) ≡ folded + (ones - folded) [MOD ones] :=
    same.symm.add_right _
  rw [Nat.add_sub_cancel' low] at shifted
  exact (Nat.ModEq.dvd_iff shifted (dvd_refl ones)).mpr (dvd_refl ones)

/-! ## Words of a byte string -/

/-- The 16-bit words of a byte string, an odd byte at the end being a high one. -/
def words : Bytes → List Nat
  | high :: low :: rest => (high.toNat * 256 + low.toNat) :: words rest
  | [last] => [last.toNat * 256]
  | [] => []

theorem words_le (raw : Bytes) : ∀ word ∈ words raw, word ≤ 65535 := by
  fun_induction words raw with
  | case1 high low rest ih =>
    have first := high.toNat_lt
    have second := low.toNat_lt
    exact List.forall_mem_cons.mpr ⟨by omega, ih⟩
  | case2 last =>
    have bound := last.toNat_lt
    simp only [List.mem_singleton, forall_eq]
    omega
  | case3 => simp

theorem words_sum_le (raw : Bytes) : (words raw).sum ≤ 65535 * raw.length := by
  fun_induction words raw with
  | case1 high low rest ih =>
    have first := high.toNat_lt
    have second := low.toNat_lt
    simp only [List.sum_cons, List.length_cons]
    omega
  | case2 last =>
    have bound := last.toNat_lt
    simp only [List.sum_cons, List.sum_nil, List.length_singleton]
    omega
  | case3 => simp

theorem words_append (front back : Bytes) (even : front.length % 2 = 0) :
    words (front ++ back) = words front ++ words back := by
  fun_induction words front with
  | case1 high low rest ih =>
    simp only [List.length_cons] at even
    rw [List.cons_append, List.cons_append, words, ih (by omega), List.cons_append]
  | case2 last => simp at even
  | case3 => rfl

theorem words_putUint16 (word : UInt16) : words (putUint16 word) = [word.toNat] := by
  have bound := word.toNat_lt
  have high : (UInt8.ofNat (word.toNat / 256)).toNat = word.toNat / 256 := by
    rw [UInt8.toNat_ofNat', Nat.mod_eq_of_lt (by omega)]
  have low : (UInt8.ofNat word.toNat).toNat = word.toNat % 256 := UInt8.toNat_ofNat'
  simp only [putUint16, bigEndian, List.nil_append, List.cons_append, words, high, low]
  congr 1
  omega

end Libknock.Foundation.OnesComplement
