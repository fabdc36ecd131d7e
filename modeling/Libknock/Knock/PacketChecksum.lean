import Libknock.Foundation.OnesComplement
import Libknock.Knock.Packet

/-!
# The checksums of built packets

`checksum` adds the 16-bit words in 32 bits, adds the carries back and takes the
complement.  Put into the field that was zero when it was computed, it makes the
ones-complement sum of the words all ones.
-/

set_option autoImplicit false

namespace Libknock.Knock

open Foundation
open Foundation.OnesComplement (words words_le words_sum_le words_append words_putUint16)

/-! ## The accumulator -/

def AddsExactly : UInt32 → Bytes → Prop
  | sum, high :: low :: rest =>
    sum.toNat + (uint16 [high, low]).toNat < 2 ^ 32 ∧
      AddsExactly (sum + (uint16 [high, low]).toUInt32) rest
  | sum, [last] => sum.toNat + last.toNat * 256 < 2 ^ 32
  | _, [] => True

theorem uint16_pair (high low : UInt8) :
    (uint16 [high, low]).toNat = high.toNat * 256 + low.toNat := by
  have first := high.toNat_lt
  have second := low.toNat_lt
  simp only [uint16, ofBigEndian, List.foldl_cons, List.foldl_nil, UInt16.toNat_ofNat']
  omega

theorem shiftByte_toNat (last : UInt8) : (last.toUInt32 <<< 8).toNat = last.toNat * 256 := by
  have bound := last.toNat_lt
  simp only [UInt32.toNat_shiftLeft, UInt8.toNat_toUInt32, Nat.shiftLeft_eq, UInt32.reduceToNat,
    Nat.reduceMod, Nat.reducePow]
  omega

theorem addWords_exact (sum : UInt32) (data : Bytes)
    (room : sum.toNat + (words data).sum < 2 ^ 32) :
    AddsExactly sum data ∧ (addWords sum data).toNat = sum.toNat + (words data).sum := by
  fun_induction addWords sum data with
  | case1 sum high low rest ih =>
    rw [words, List.sum_cons, ← uint16_pair] at room ⊢
    have next : (sum + (uint16 [high, low]).toUInt32).toNat =
        sum.toNat + (uint16 [high, low]).toNat := by
      rw [UInt32.toNat_add, UInt16.toNat_toUInt32, Nat.mod_eq_of_lt (by omega)]
    obtain ⟨exact_, total⟩ := ih (by omega)
    exact ⟨⟨by omega, exact_⟩, by omega⟩
  | case2 sum last =>
    simp only [words, List.sum_cons, List.sum_nil, Nat.add_zero] at room ⊢
    refine ⟨room, ?_⟩
    rw [UInt32.toNat_add, shiftByte_toNat, Nat.mod_eq_of_lt room]
  | case3 sum => exact ⟨trivial, by simp [words]⟩

/-! ## The carries -/

theorem fold_toNat (sum : UInt32) :
    ((sum &&& (0xffff : UInt32)) + (sum >>> 16)).toNat = sum.toNat % 65536 + sum.toNat / 65536 := by
  have bound := sum.toNat_lt
  have low : (sum &&& (0xffff : UInt32)).toNat = sum.toNat % 65536 := by
    rw [UInt32.toNat_and]
    exact Nat.and_two_pow_sub_one_eq_mod sum.toNat 16
  have high : (sum >>> 16).toNat = sum.toNat / 65536 := by
    rw [UInt32.toNat_shiftRight, Nat.shiftRight_eq_div_pow]
    rfl
  rw [UInt32.toNat_add, low, high]
  omega

theorem high_ne_zero_iff (sum : UInt32) : sum >>> 16 ≠ 0 ↔ 65536 ≤ sum.toNat := by
  have high : (sum >>> 16).toNat = sum.toNat / 65536 := by
    rw [UInt32.toNat_shiftRight, Nat.shiftRight_eq_div_pow]
    rfl
  rw [ne_eq, ← UInt32.toNat_inj, high, UInt32.toNat_zero]
  omega

theorem fold_modEq (total : Nat) : total % 65536 + total / 65536 ≡ total [MOD 65535] := by
  unfold Nat.ModEq
  omega

theorem foldCarries_ok (sum : UInt32) :
    ∃ folded, foldCarries 3 sum = .ok folded ∧ folded.toNat ≤ 65535 ∧
      folded.toNat ≡ sum.toNat [MOD 65535] ∧ (sum.toNat = 0 → folded.toNat = 0) := by
  -- three rounds: no carry, a carry of up to sixteen bits, a carry of one bit
  have bound := sum.toNat_lt
  unfold foldCarries
  split
  · rename_i first
    have once := fold_toNat sum
    rw [high_ne_zero_iff] at first
    have step := fold_modEq sum.toNat
    generalize (sum &&& (0xffff : UInt32)) + (sum >>> 16) = second at once
    rw [← once] at step
    unfold foldCarries
    split
    · rename_i carry
      rw [high_ne_zero_iff] at carry
      have twice := fold_toNat second
      have again := fold_modEq second.toNat
      generalize (second &&& (0xffff : UInt32)) + (second >>> 16) = third at twice
      rw [← twice] at again
      unfold foldCarries
      rw [if_neg (by rw [high_ne_zero_iff]; omega)]
      exact ⟨third, rfl, by omega, again.trans step, by omega⟩
    · rename_i done
      rw [high_ne_zero_iff] at done
      exact ⟨second, rfl, by omega, step, by omega⟩
  · rename_i done
    rw [high_ne_zero_iff] at done
    exact ⟨sum, rfl, by omega, Nat.ModEq.refl _, id⟩

theorem checksum_total (data : Bytes) : ∃ check, checksum data = .ok check := by
  obtain ⟨folded, run, _⟩ := foldCarries_ok (addWords 0 data)
  exact ⟨_, by rw [checksum, run]; rfl⟩

variable {check : UInt16} {src dst : Bytes}

theorem checksum_ok {data : Bytes} (room : (words data).sum < 2 ^ 32)
    (run : checksum data = .ok check) :
    ∃ folded, folded ≤ 65535 ∧ check.toNat = 65535 - folded ∧
      folded ≡ (words data).sum [MOD 65535] ∧ ((words data).sum = 0 → folded = 0) := by
  obtain ⟨folded, carries, small, same, zero⟩ := foldCarries_ok (addWords 0 data)
  rw [checksum, carries] at run
  cases run
  have total := (addWords_exact 0 data (by simpa using room)).2
  rw [UInt32.toNat_zero, Nat.zero_add] at total
  rw [total] at same zero
  refine ⟨folded.toNat, small, ?_, same, zero⟩
  rw [UInt16.toNat_not, UInt32.toNat_toUInt16, Nat.mod_eq_of_lt (by omega)]
  rfl

/-! ## The field -/

theorem checksum_valid {front back : Bytes} (even : front.length % 2 = 0)
    (short : front.length + back.length < 65536)
    (run : checksum (front ++ (putUint16 0 ++ back)) = .ok check) :
    OnesComplement.sum 0xffff (words (front ++ (putUint16 check ++ back))) = 0xffff := by
  have split : ∀ field : UInt16, (words (front ++ (putUint16 field ++ back))).sum =
      (words front).sum + (words back).sum + field.toNat := by
    intro field
    rw [words_append _ _ even, words_append _ _ (by rw [putUint16_length]), words_putUint16]
    simp only [List.sum_append, List.sum_cons, List.sum_nil]
    omega
  have frontBound := words_sum_le front
  have backBound := words_sum_le back
  have before := split 0
  rw [UInt16.toNat_zero, Nat.add_zero] at before
  obtain ⟨folded, small, complement, same, zero⟩ := checksum_ok (by rw [before]; omega) run
  rw [before] at same zero
  have multiple := OnesComplement.dvd_add_complement small same
  rw [← complement, ← split check] at multiple
  refine OnesComplement.sum_eq_ones (words_le _) ?_ multiple
  -- words that are all zero have the complement of zero, which is all ones
  rw [split check]
  omega

/-! ## Building -/

theorem buildSYNPacket_ok {srcIP dstIP : Bytes} (source : to4 srcIP = some src)
    (target : to4 dstIP = some dst) (srcPort dstPort : Int) (fields : SYNFields) (ipID : UInt16) :
    ∃ ipCheck tcpCheck, checksum (ipv4Header ipID 0 src dst) = .ok ipCheck ∧
      tcpChecksum src dst (synHeader srcPort dstPort fields 0) = .ok tcpCheck ∧
      buildSYNPacket srcIP dstIP srcPort dstPort fields (.ok ipID) = .ok (.ok
        (ipv4Header ipID ipCheck src dst ++ synHeader srcPort dstPort fields tcpCheck)) := by
  obtain ⟨ipCheck, ipRun⟩ := checksum_total (ipv4Header ipID 0 src dst)
  obtain ⟨tcpCheck, tcpRun⟩ := checksum_total (pseudoHeader src dst
    (synHeader srcPort dstPort fields 0).length ++ synHeader srcPort dstPort fields 0)
  refine ⟨ipCheck, tcpCheck, ipRun, tcpRun, ?_⟩
  simp only [buildSYNPacket, source, target, ipRun, Checked.ok_bind, tcpChecksum, tcpRun]
  rfl

theorem buildSYNPacketIPv6_ok (srcLong : src.length = 16) (dstLong : dst.length = 16)
    (srcPlain : to4 src = none) (dstPlain : to4 dst = none) (srcPort dstPort : Int)
    (fields : SYNFields) :
    ∃ tcpCheck, tcpChecksumIPv6 src dst (synHeader srcPort dstPort fields 0) = .ok tcpCheck ∧
      buildSYNPacketIPv6 src dst srcPort dstPort fields =
        .ok (.ok (ipv6Header src dst ++ synHeader srcPort dstPort fields tcpCheck)) := by
  obtain ⟨tcpCheck, tcpRun⟩ := checksum_total (pseudoHeaderIPv6 src dst
    (synHeader srcPort dstPort fields 0).length ++ synHeader srcPort dstPort fields 0)
  refine ⟨tcpCheck, tcpRun, ?_⟩
  simp only [buildSYNPacketIPv6, to16_of_length srcLong, to16_of_length dstLong, srcPlain, dstPlain,
    ne_eq, not_true_eq_false, or_self, if_false, tcpChecksumIPv6, tcpRun, Checked.ok_bind]
  rfl

theorem ipv4Header_length (ipID check : UInt16) (srcFour : src.length = 4)
    (dstFour : dst.length = 4) : (ipv4Header ipID check src dst).length = 20 := by
  simp [ipv4Header, srcFour, dstFour]

theorem ipv6Header_length (srcLong : src.length = 16) (dstLong : dst.length = 16) :
    (ipv6Header src dst).length = 40 := by
  simp [ipv6Header, srcLong, dstLong]

@[simp] theorem synHeader_length (srcPort dstPort : Int) (fields : SYNFields) (check : UInt16) :
    (synHeader srcPort dstPort fields check).length = 32 := by
  simp [synHeader]

/-! ## Around the checksum field -/

def ipv4Front (ipID : UInt16) : Bytes :=
  [ipv4VersionIHL, 0] ++ putUint16 (UInt16.ofNat (ipv4HeaderLen + tcpHeaderLenWithTSOpt)) ++
    putUint16 ipID ++ [0, 0] ++ [defaultPacketTTL, ipv4ProtocolTCP]

def synFront (srcPort dstPort : Int) (fields : SYNFields) : Bytes :=
  putUint16 (uint16OfInt srcPort) ++ putUint16 (uint16OfInt dstPort) ++ putUint32 fields.sequence ++
    putUint32 0 ++ [UInt8.ofNat (tcpHeaderLenWithTSOpt / 4) <<< (4 : UInt8), tcpFlagSYN] ++
    putUint16 fields.window

def synBack (fields : SYNFields) : Bytes :=
  putUint16 0 ++ [tcpOptionNOP, tcpOptionNOP, tcpOptionTS, 10] ++ putUint32 fields.timestamp ++
    putUint32 0

theorem ipv4Header_field (ipID check : UInt16) (src dst : Bytes) :
    ipv4Header ipID check src dst = ipv4Front ipID ++ (putUint16 check ++ (src ++ dst)) := by
  simp only [ipv4Header, ipv4Front, List.append_assoc]

theorem synHeader_field (srcPort dstPort : Int) (fields : SYNFields) (check : UInt16) :
    synHeader srcPort dstPort fields check =
      synFront srcPort dstPort fields ++ (putUint16 check ++ synBack fields) := by
  simp only [synHeader, synFront, synBack, List.append_assoc]

theorem pseudoHeader_eq (srcFour : src.length = 4) (dstFour : dst.length = 4) (tcpLen : Nat) :
    pseudoHeader src dst tcpLen = src ++ dst ++ [0, 6] ++ putUint16 (UInt16.ofNat tcpLen) := by
  rw [pseudoHeader, to4_of_length srcFour, to4_of_length dstFour, Option.getD_some,
    Option.getD_some, FixedBytes.copy_bytes_of_length src srcFour,
    FixedBytes.copy_bytes_of_length dst dstFour]
  rfl

theorem pseudoHeaderIPv6_eq (srcLong : src.length = 16) (dstLong : dst.length = 16) (tcpLen : Nat) :
    pseudoHeaderIPv6 src dst tcpLen =
      src ++ dst ++ putUint32 (UInt32.ofNat tcpLen) ++ [0, 0, 0, 6] := by
  rw [pseudoHeaderIPv6, to16_of_length srcLong, to16_of_length dstLong, Option.getD_some,
    Option.getD_some, FixedBytes.copy_bytes_of_length src srcLong,
    FixedBytes.copy_bytes_of_length dst dstLong]
  rfl

theorem synHeader_valid {pseudo : Bytes} (even : pseudo.length % 2 = 0)
    (short : pseudo.length ≤ 1000) {srcPort dstPort : Int} {fields : SYNFields}
    (run : checksum (pseudo ++ synHeader srcPort dstPort fields 0) = .ok check) :
    OnesComplement.sum 0xffff (words (pseudo ++ synHeader srcPort dstPort fields check)) =
      0xffff := by
  have front : (synFront srcPort dstPort fields).length = 16 := by simp [synFront]
  have back : (synBack fields).length = 14 := by simp [synBack]
  rw [synHeader_field, ← List.append_assoc] at run ⊢
  refine checksum_valid ?_ ?_ run
  · rw [List.length_append, front]
    omega
  · rw [List.length_append, front, back]
    omega

theorem addsExactly_short {data : Bytes} (short : data.length ≤ 1000) : AddsExactly 0 data := by
  have bound := words_sum_le data
  exact (addWords_exact 0 data (by rw [UInt32.toNat_zero]; omega)).1

/-- The checksums of a built packet are valid for the IPv4 header and for the TCP
segment behind its pseudo-header; the additions of `checksum` are exact and its
second loop ends. -/
theorem built_checksums_valid :
    (∀ (srcIP dstIP src dst : Bytes) (srcPort dstPort : Int) (fields : SYNFields) (ipID : UInt16),
      to4 srcIP = some src → to4 dstIP = some dst →
      ∃ packet, buildSYNPacket srcIP dstIP srcPort dstPort fields (.ok ipID) = .ok (.ok packet) ∧
        OnesComplement.sum 0xffff (words (packet.take 20)) = 0xffff ∧
        OnesComplement.sum 0xffff (words (src ++ dst ++ [0, 6] ++ putUint16 32 ++ packet.drop 20)) =
          0xffff ∧
        AddsExactly 0 (ipv4Header ipID 0 src dst) ∧
        AddsExactly 0 (pseudoHeader src dst 32 ++ synHeader srcPort dstPort fields 0)) ∧
    (∀ (src dst : Bytes) (srcPort dstPort : Int) (fields : SYNFields),
      src.length = 16 → dst.length = 16 → to4 src = none → to4 dst = none →
      ∃ packet, buildSYNPacketIPv6 src dst srcPort dstPort fields = .ok (.ok packet) ∧
        OnesComplement.sum 0xffff
          (words (src ++ dst ++ putUint32 32 ++ [0, 0, 0, 6] ++ packet.drop 40)) = 0xffff ∧
        AddsExactly 0 (pseudoHeaderIPv6 src dst 32 ++ synHeader srcPort dstPort fields 0)) ∧
    ∀ sum : UInt32, ∃ folded, foldCarries 3 sum = .ok folded := by
  refine ⟨?_, ?_, ?_⟩
  · intro srcIP dstIP src dst srcPort dstPort fields ipID source target
    have srcFour := to4_length source
    have dstFour := to4_length target
    obtain ⟨ipCheck, tcpCheck, ipRun, tcpRun, built⟩ :=
      buildSYNPacket_ok source target srcPort dstPort fields ipID
    have header := ipv4Header_length ipID ipCheck srcFour dstFour
    have pseudo := pseudoHeader_eq srcFour dstFour 32
    have pseudoLength : (pseudoHeader src dst 32).length = 12 := by
      simp [pseudo, srcFour, dstFour]
    rw [tcpChecksum, synHeader_length] at tcpRun
    refine ⟨_, built, ?_, ?_, addsExactly_short ?_, addsExactly_short ?_⟩
    · rw [List.take_left' header, ipv4Header_field]
      rw [ipv4Header_field] at ipRun
      refine checksum_valid (by simp [ipv4Front]) ?_ ipRun
      simp [ipv4Front, srcFour, dstFour]
    · rw [List.drop_left' header, ← show UInt16.ofNat 32 = 32 from rfl, ← pseudo]
      exact synHeader_valid (by rw [pseudoLength]) (by omega) tcpRun
    · rw [ipv4Header_length ipID 0 srcFour dstFour]
      omega
    · rw [List.length_append, pseudoLength, synHeader_length]
      omega
  · intro src dst srcPort dstPort fields srcLong dstLong srcPlain dstPlain
    obtain ⟨tcpCheck, tcpRun, built⟩ :=
      buildSYNPacketIPv6_ok srcLong dstLong srcPlain dstPlain srcPort dstPort fields
    have header := ipv6Header_length srcLong dstLong
    have pseudo := pseudoHeaderIPv6_eq srcLong dstLong 32
    have pseudoLength : (pseudoHeaderIPv6 src dst 32).length = 40 := by
      simp [pseudo, srcLong, dstLong]
    rw [tcpChecksumIPv6, synHeader_length] at tcpRun
    refine ⟨_, built, ?_, addsExactly_short ?_⟩
    · rw [List.drop_left' header, ← show UInt32.ofNat 32 = 32 from rfl, ← pseudo]
      exact synHeader_valid (by rw [pseudoLength]) (by omega) tcpRun
    · rw [List.length_append, pseudoLength, synHeader_length]
      omega
  · intro sum
    obtain ⟨folded, run, _⟩ := foldCarries_ok sum
    exact ⟨folded, run⟩

def sampleFields : SYNFields := ⟨0x01020304, 512, 0xfffefdfc⟩

/-- Loopback to loopback, and the same for IPv6. -/
theorem built_checksums_valid_sample :
    (∃ packet, buildSYNPacket [127, 0, 0, 1] [127, 0, 0, 1] 40000 443 sampleFields (.ok 7) =
        .ok (.ok packet) ∧ OnesComplement.sum 0xffff (words (packet.take 20)) = 0xffff) ∧
      ∃ packet, buildSYNPacketIPv6 (List.replicate 15 0 ++ [1]) (List.replicate 15 0 ++ [1]) 40000 443
        sampleFields = .ok (.ok packet) := by
  obtain ⟨ipv4, ipv6, _⟩ := built_checksums_valid
  obtain ⟨packet, built, valid, _⟩ := ipv4 [127, 0, 0, 1] [127, 0, 0, 1] [127, 0, 0, 1]
    [127, 0, 0, 1] 40000 443 sampleFields 7 (by decide) (by decide)
  obtain ⟨other, builtToo, _⟩ := ipv6 (List.replicate 15 0 ++ [1]) (List.replicate 15 0 ++ [1]) 40000
    443 sampleFields (by decide) (by decide) (by decide) (by decide)
  exact ⟨⟨packet, built, valid⟩, other, builtToo⟩

end Libknock.Knock
