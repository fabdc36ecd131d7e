import Libknock.Foundation.Bytes

/-!
# Fields laid end to end

Two strings that begin with a field of one width are equal only if the fields
are and the rests are.  A family of labels of which none begins another tells
apart the strings that begin with them.
-/

set_option autoImplicit false

namespace Libknock.Foundation

/-! ## Fixed widths -/

variable {rightRest leftRest : Bytes} {right left : Int}

theorem FixedBytes.append_inj {size : Nat} {left right : FixedBytes size}
    (same : left.bytes ++ leftRest = right.bytes ++ rightRest) :
    left = right ∧ leftRest = rightRest := by
  obtain ⟨bytes, rests⟩ := List.append_inj same (left.length_eq.trans right.length_eq.symm)
  exact ⟨FixedBytes.ext_bytes bytes, rests⟩

theorem putUint16_append_inj {left right : UInt16}
    (same : putUint16 left ++ leftRest = putUint16 right ++ rightRest) :
    left = right ∧ leftRest = rightRest := by
  obtain ⟨words, rests⟩ := List.append_inj same (by simp)
  refine ⟨?_, rests⟩
  rw [← uint16_putUint16 left, words, uint16_putUint16]

theorem putUint64_append_inj {left right : UInt64}
    (same : putUint64 left ++ leftRest = putUint64 right ++ rightRest) :
    left = right ∧ leftRest = rightRest := by
  obtain ⟨words, rests⟩ := List.append_inj same (by simp)
  refine ⟨?_, rests⟩
  rw [← uint64_putUint64 left, words, uint64_putUint64]

/-! ## Integers in the range of their word -/

theorem uint16OfInt_inj (leftLow : 0 ≤ left) (leftHigh : left ≤ 65535) (rightLow : 0 ≤ right)
    (rightHigh : right ≤ 65535) (same : uint16OfInt left = uint16OfInt right) : left = right := by
  rw [← uint16OfInt_toNat leftLow leftHigh, ← uint16OfInt_toNat rightLow rightHigh, same]

theorem uint16_ofNat_inj {left right : Nat} (leftFits : left ≤ 65535) (rightFits : right ≤ 65535)
    (same : UInt16.ofNat left = UInt16.ofNat right) : left = right := by
  have words := congrArg UInt16.toNat same
  rw [UInt16.toNat_ofNat', UInt16.toNat_ofNat', Nat.mod_eq_of_lt (by omega),
    Nat.mod_eq_of_lt (by omega)] at words
  exact words

theorem uint64_ofInt_inj (leftLow : -2 ^ 63 ≤ left) (leftHigh : left < 2 ^ 63)
    (rightLow : -2 ^ 63 ≤ right) (rightHigh : right < 2 ^ 63)
    (same : UInt64.ofInt left = UInt64.ofInt right) : left = right := by
  have words := congrArg UInt64.toNat same
  rw [UInt64.ofInt, UInt64.ofInt, UInt64.toNat_ofNat', UInt64.toNat_ofNat'] at words
  omega

/-! ## Labels -/

/-- Where no label begins another, equal labelled strings have one label and one
rest. -/
theorem label_append_inj {Label : Type} {text : Label → Bytes}
    (free : ∀ left right, text left <+: text right → left = right) {left right : Label}
    (same : text left ++ leftRest = text right ++ rightRest) :
    left = right ∧ leftRest = rightRest := by
  have leftBegins : text left <+: text right ++ rightRest := ⟨leftRest, same⟩
  have rightBegins : text right <+: text right ++ rightRest := List.prefix_append _ _
  have labels : left = right := by
    rcases List.prefix_or_prefix_of_prefix leftBegins rightBegins with inside | inside
    · exact free left right inside
    · exact (free right left inside).symm
  subst labels
  exact ⟨rfl, List.append_cancel_left same⟩

/-! ## Decimal numbers -/

def digitByte (char : Char) : UInt8 := UInt8.ofNat char.toNat

theorem ascii_toString_nat (number : Nat) :
    ascii (toString number) = (Nat.toDigits 10 number).map digitByte := by
  show (String.toList (Nat.repr number)).map digitByte = _
  rw [Nat.repr_eq_ofList_toDigits]
  simp

theorem ascii_toString_negSucc (number : Nat) :
    ascii (toString (Int.negSucc number)) = 45 :: ascii (toString (number + 1)) := by
  show ascii ("-" ++ toString (number + 1)) = _
  simp [ascii]

theorem digitByte_inj {left right : Nat} (leftSmall : left < 10) (rightSmall : right < 10)
    (same : digitByte left.digitChar = digitByte right.digitChar) : left = right := by
  have table : ∀ first < 10, ∀ second < 10,
      digitByte first.digitChar = digitByte second.digitChar → first = second := by decide
  exact table left leftSmall right rightSmall same

theorem mem_ascii_toString_nat {number : Nat} :
    ∀ byte ∈ ascii (toString number), ∃ digit < 10, byte = digitByte (Nat.digitChar digit) := by
  rw [ascii_toString_nat]
  induction number using Nat.strong_induction_on with
  | _ number ih =>
    intro byte member
    rw [Nat.toDigits_eq_if (by decide)] at member
    split at member
    · rename_i small
      exact ⟨number, small, by simpa using member⟩
    · rename_i large
      rw [List.map_append, List.mem_append] at member
      rcases member with front | last
      · exact ih (number / 10) (by omega) byte front
      · exact ⟨number % 10, by omega, by simpa using last⟩

theorem toDigits_bytes_inj (left : Nat) : ∀ right,
    (Nat.toDigits 10 left).map digitByte = (Nat.toDigits 10 right).map digitByte →
      left = right := by
  induction left using Nat.strong_induction_on with
  | _ left ih =>
    intro right same
    have positive := fun number => Nat.length_toDigits_pos (b := 10) (n := number)
    have length := congrArg List.length same
    rw [Nat.toDigits_eq_if (by decide), Nat.toDigits_eq_if (by decide) (n := right)] at same length
    split at same
    · rename_i leftSmall
      rw [if_pos leftSmall] at length
      split at same
      · rename_i rightSmall
        simp only [List.map_cons, List.map_nil, List.cons.injEq, and_true] at same
        exact digitByte_inj leftSmall rightSmall same
      · rename_i rightLarge
        have := positive (right / 10)
        simp [rightLarge] at length
    · rename_i leftLarge
      rw [if_neg leftLarge] at length
      split at same
      · rename_i rightSmall
        have := positive (left / 10)
        simp [rightSmall] at length
      · rw [List.map_append, List.map_append] at same
        obtain ⟨fronts, lasts⟩ := List.append_inj' same rfl
        have high := ih (left / 10) (by omega) (right / 10) fronts
        simp only [List.map_cons, List.map_nil, List.cons.injEq, and_true] at lasts
        have low := digitByte_inj (by omega) (by omega) lasts
        omega

theorem ascii_toString_nat_inj {left right : Nat}
    (same : ascii (toString left) = ascii (toString right)) : left = right := by
  rw [ascii_toString_nat, ascii_toString_nat] at same
  exact toDigits_bytes_inj left right same

theorem digitByte_plain : ∀ digit < 10,
    digitByte (Nat.digitChar digit) ≠ 0 ∧ digitByte (Nat.digitChar digit) ≠ 45 := by
  decide

theorem zero_notMem_ascii_toString (number : Int) : (0 : UInt8) ∉ ascii (toString number) := by
  have digits : ∀ natural : Nat, (0 : UInt8) ∉ ascii (toString natural) := by
    intro natural member
    obtain ⟨digit, small, same⟩ := mem_ascii_toString_nat 0 member
    exact (digitByte_plain digit small).1 same.symm
  cases number with
  | ofNat natural => exact digits natural
  | negSucc natural =>
    rw [ascii_toString_negSucc, List.mem_cons, not_or]
    exact ⟨by decide, digits (natural + 1)⟩

theorem ascii_toString_inj (same : ascii (toString left) = ascii (toString right)) :
    left = right := by
  have signless : ∀ (natural other : Nat),
      ascii (toString natural) ≠ 45 :: ascii (toString other) := by
    intro natural other equal
    obtain ⟨digit, small, minus⟩ := mem_ascii_toString_nat 45 (by rw [equal]; simp)
    exact (digitByte_plain digit small).2 minus.symm
  cases left with
  | ofNat left =>
    cases right with
    | ofNat right => exact congrArg Int.ofNat (ascii_toString_nat_inj same)
    | negSucc right =>
      rw [ascii_toString_negSucc] at same
      exact absurd same (signless left (right + 1))
  | negSucc left =>
    rw [ascii_toString_negSucc] at same
    cases right with
    | ofNat right => exact absurd same.symm (signless right (left + 1))
    | negSucc right =>
      rw [ascii_toString_negSucc] at same
      have numbers := ascii_toString_nat_inj (List.cons.inj same).2
      exact congrArg Int.negSucc (by omega)

end Libknock.Foundation
