import Libknock.Knock.PacketChecksum
import Libknock.Knock.PacketParsing

/-!
# Recognising a built packet

A SYN with a timestamp takes 32 bytes, so an IPv6 packet with one takes 72; a
built IPv4 packet is too short for the first attempt of the parsers, with or
without a link-layer header.  Behind an Ethernet header the EtherType then tells
where the packet begins.  In a raw capture the same two bytes are bytes of an
address.
-/

set_option autoImplicit false

namespace Libknock.Knock

open Foundation Foundation.Checked

/-- Both SYN parsers find this source, port and fields. -/
def Recognised (frame src : Bytes) (port : Int) (fields : SYNFields) : Prop :=
  parseSYNPacket frame = .ok (some (src, port, fields)) ∧
    parseSYNKnock frame port = .ok (some (src, fields))

instance (frame src : Bytes) (port : Int) (fields : SYNFields) :
    Decidable (Recognised frame src port fields) :=
  inferInstanceAs (Decidable (_ ∧ _))

/-! ## Which attempt succeeds -/

variable {frame src : Bytes} {fields : SYNFields} {port : Int} {offset : Nat}

theorem recognised_of_ipv6 (syn : IPv6SYN frame src port fields) :
    Recognised frame src port fields :=
  ⟨((parseSYNPacket_decides frame).found_iff (src, port, fields)).mpr (Or.inl syn),
    ((parseSYNKnock_decides frame port).found_iff (src, fields)).mpr (Or.inl syn)⟩

theorem recognised_of_ipv4 (syn : IPv4SYN frame src port fields)
    (alone : ∀ src port fields, ¬ IPv6SYN frame src port fields) :
    Recognised frame src port fields :=
  ⟨((parseSYNPacket_decides frame).found_iff (src, port, fields)).mpr
      (Or.inr ⟨fun _ => alone _ _ _, syn⟩),
    ((parseSYNKnock_decides frame port).found_iff (src, fields)).mpr
      (Or.inr ⟨fun _ => alone _ _ _, syn⟩)⟩

theorem Recognised.syn (recognised : Recognised frame src port fields) :
    IPv6SYN frame src port fields ∨ IPv4SYN frame src port fields := by
  rcases ((parseSYNPacket_decides frame).found_iff (src, port, fields)).mp recognised.1 with
    first | ⟨_, second⟩
  · exact Or.inl first
  · exact Or.inr second

theorem IPv6SYN.room (syn : IPv6SYN frame src port fields) :
    ∃ offset, IPv6At frame ipv4ProtocolTCP offset ∧ offset + 72 ≤ frame.length := by
  obtain ⟨offset, segment, place, carries, ⟨header, _⟩, _⟩ := syn
  have long := header.length_le
  have inside := carries.segment_length.2
  rw [List.length_drop] at inside
  exact ⟨offset, place, by omega⟩

theorem IPv4SYN.room (syn : IPv4SYN frame src port fields) :
    ∃ offset, IPv4At frame ipv4ProtocolTCP offset ∧ offset + 52 ≤ frame.length := by
  obtain ⟨offset, segment, place, carries, ⟨header, _⟩, _⟩ := syn
  have long := header.length_le
  have inside := carries.segment_length
  rw [List.length_drop] at inside
  exact ⟨offset, place, by omega⟩

theorem no_ipv6SYN_of_short (short : frame.length < 72) (src : Bytes) (port : Int)
    (fields : SYNFields) : ¬ IPv6SYN frame src port fields := by
  intro syn
  obtain ⟨offset, _, room⟩ := syn.room
  omega

/-! ## The built header -/

section Built

variable (srcPort dstPort : Int) (fields : SYNFields) (check : UInt16)

theorem synHeader_timestamp :
    Timestamp (((synHeader srcPort dstPort fields check).drop 20).take 12) fields.timestamp := by
  have options : ((synHeader srcPort dstPort fields check).drop 20).take 12 =
      tcpOptionNOP :: tcpOptionNOP :: tcpOptionTS :: 10 ::
        (putUint32 fields.timestamp ++ putUint32 0) := by
    rw [synHeader, List.append_assoc, List.append_assoc, List.drop_left' (by simp),
      List.take_of_length_le (by simp)]
    rfl
  have value : long (putUint32 fields.timestamp ++ putUint32 0) 0 = fields.timestamp :=
    @long_field [] 0 rfl fields.timestamp (putUint32 0)
  have room : 8 ≤ (putUint32 fields.timestamp ++ putUint32 0).length := by simp
  have found := Timestamp.found room
  rw [value] at found
  rw [options]
  exact (found.nop).nop

theorem synHeader_control :
    byte (synHeader srcPort dstPort fields check) 12 =
        UInt8.ofNat (tcpHeaderLenWithTSOpt / 4) <<< (4 : UInt8) ∧
      byte (synHeader srcPort dstPort fields check) 13 = tcpFlagSYN := by
  simp only [synHeader, List.append_assoc]
  rw [← List.append_assoc, ← List.append_assoc, ← List.append_assoc, List.cons_append]
  refine ⟨byte_field (by simp) _ _, ?_⟩
  rw [List.append_cons]
  exact byte_field (by simp) _ _

theorem synHeader_sequence : long (synHeader srcPort dstPort fields check) 4 = fields.sequence := by
  simp only [synHeader, List.append_assoc]
  rw [← List.append_assoc]
  exact long_field (by simp) _ _

theorem synHeader_window : word (synHeader srcPort dstPort fields check) 14 = fields.window := by
  simp only [synHeader, List.append_assoc]
  rw [← List.append_assoc, ← List.append_assoc, ← List.append_assoc, ← List.append_assoc]
  exact word_field (by simp) _ _

theorem synHeader_isSYN : SYNHeader (synHeader srcPort dstPort fields check) fields := by
  obtain ⟨dataOffset, flags⟩ := synHeader_control srcPort dstPort fields check
  have offset : (byte (synHeader srcPort dstPort fields check) 12 >>> 4).toNat * 4 = 32 := by
    rw [dataOffset]
    decide
  refine ⟨by rw [flags]; decide, by rw [flags]; decide, by omega, ?_, ?_, ?_, ?_⟩
  · rw [offset, synHeader_length]
  · rw [offset]
    exact synHeader_timestamp srcPort dstPort fields check
  · exact (synHeader_sequence srcPort dstPort fields check).symm
  · exact (synHeader_window srcPort dstPort fields check).symm

variable {dstPort}

theorem synHeader_destination (low : 0 ≤ dstPort) (high : dstPort ≤ 65535) :
    destination (synHeader srcPort dstPort fields check) = dstPort := by
  have port : word (synHeader srcPort dstPort fields check) 2 = uint16OfInt dstPort := by
    simp only [synHeader, List.append_assoc]
    exact word_field (by simp) _ _
  rw [destination, port]
  exact uint16OfInt_toNat low high

end Built

/-! ## The built packet -/

section IPv4

variable {src dst : Bytes} (srcFour : src.length = 4) (dstFour : dst.length = 4)
  (ipID ipCheck : UInt16) {srcPort dstPort : Int} {fields : SYNFields} {tcp : Bytes}

include srcFour dstFour

theorem ipv4Header_total (tcpLong : tcp.length = 32) :
    (ipv4Header ipID ipCheck src dst ++ tcp).length = 52 := by
  rw [List.length_append, ipv4Header_length ipID ipCheck srcFour dstFour, tcpLong]

omit srcFour dstFour in
theorem ipv4Header_announced : word (ipv4Header ipID ipCheck src dst ++ tcp) 2 = 52 := by
  have field : ((ipv4Header ipID ipCheck src dst ++ tcp).drop 2).take 2 =
      putUint16 (UInt16.ofNat (ipv4HeaderLen + tcpHeaderLenWithTSOpt)) := rfl
  rw [word, field, uint16_putUint16]
  decide

theorem ipv4Header_carries (tcpLong : tcp.length = 32) :
    IPv4Carries ipv4ProtocolTCP (ipv4Header ipID ipCheck src dst ++ tcp) tcp := by
  have header := ipv4Header_length ipID ipCheck srcFour dstFour
  have total := ipv4Header_total srcFour dstFour ipID ipCheck tcpLong
  have length : ipv4Length (ipv4Header ipID ipCheck src dst ++ tcp) = 20 := by
    have first : byte (ipv4Header ipID ipCheck src dst ++ tcp) 0 = ipv4VersionIHL := rfl
    rw [ipv4Length, first]
    decide
  refine ⟨?_, ?_, ?_, rfl, ?_⟩
  · rw [total]
    decide
  · rw [length]
  · rw [length, total]
    decide
  · rw [ipv4Total, length, ipv4Header_announced, total, if_neg (by decide), List.drop_left' header]
    exact (List.take_of_length_le (Nat.le_of_eq tcpLong)).symm

omit srcFour dstFour in
theorem ipv4Header_addresses :
    (ipv4Header ipID ipCheck src dst ++ tcp).drop 12 = src ++ (dst ++ tcp) := by
  simp only [ipv4Header, List.append_assoc]
  rfl

omit dstFour in
theorem ipv4Header_source : ipv4SourceOf (ipv4Header ipID ipCheck src dst ++ tcp) = src := by
  rw [ipv4SourceOf, ipv4Header_addresses, List.take_left' srcFour]

theorem built_ipv4SYN (place : IPv4At frame ipv4ProtocolTCP offset) {tcpCheck : UInt16}
    (rest : frame.drop offset =
      ipv4Header ipID ipCheck src dst ++ synHeader srcPort dstPort fields tcpCheck)
    (low : 0 ≤ dstPort) (high : dstPort ≤ 65535) : IPv4SYN frame src dstPort fields := by
  refine ⟨offset, synHeader srcPort dstPort fields tcpCheck, place, ?_,
    ⟨synHeader_isSYN srcPort dstPort fields tcpCheck,
      (synHeader_destination srcPort fields tcpCheck low high).symm⟩, ?_⟩
  · rw [rest]
    exact ipv4Header_carries srcFour dstFour ipID ipCheck (synHeader_length _ _ _ _)
  · rw [rest, ipv4Header_source srcFour]

end IPv4

section IPv6

variable {src dst : Bytes} (srcLong : src.length = 16) (dstLong : dst.length = 16)
  {srcPort dstPort : Int} {fields : SYNFields} {tcp : Bytes}

include srcLong dstLong

theorem ipv6Header_total (tcpLong : tcp.length = 32) : (ipv6Header src dst ++ tcp).length = 72 := by
  rw [List.length_append, ipv6Header_length srcLong dstLong, tcpLong]

omit srcLong dstLong in
theorem ipv6Header_announced : word (ipv6Header src dst ++ tcp) 4 = 32 := by
  have field : ((ipv6Header src dst ++ tcp).drop 4).take 2 =
      putUint16 (UInt16.ofNat tcpHeaderLenWithTSOpt) := rfl
  rw [word, field, uint16_putUint16]
  decide

theorem ipv6Header_carries (tcpLong : tcp.length = 32) :
    IPv6Carries ipv4ProtocolTCP 20 (ipv6Header src dst ++ tcp) tcp := by
  have total := ipv6Header_total srcLong dstLong tcpLong
  have announced : (word (ipv6Header src dst ++ tcp) 4).toNat = 32 := by
    rw [ipv6Header_announced]
    decide
  refine ⟨by omega, rfl, by omega, by omega, ?_⟩
  rw [announced, List.drop_left' (ipv6Header_length srcLong dstLong),
    List.take_of_length_le (by omega)]

omit srcLong dstLong in
theorem ipv6Header_addresses : (ipv6Header src dst ++ tcp).drop 8 = src ++ (dst ++ tcp) := by
  simp only [ipv6Header, List.append_assoc]
  rfl

omit dstLong in
theorem ipv6Header_source : ipv6SourceOf (ipv6Header src dst ++ tcp) = src := by
  rw [ipv6SourceOf, ipv6Header_addresses, List.take_left' srcLong]

theorem built_ipv6SYN (place : IPv6At frame ipv4ProtocolTCP offset) {tcpCheck : UInt16}
    (rest : frame.drop offset = ipv6Header src dst ++ synHeader srcPort dstPort fields tcpCheck)
    (low : 0 ≤ dstPort) (high : dstPort ≤ 65535) : IPv6SYN frame src dstPort fields := by
  refine ⟨offset, synHeader srcPort dstPort fields tcpCheck, place, ?_,
    ⟨synHeader_isSYN srcPort dstPort fields tcpCheck,
      (synHeader_destination srcPort fields tcpCheck low high).symm⟩, ?_⟩
  · rw [rest]
    exact ipv6Header_carries srcLong dstLong (synHeader_length _ _ _ _)
  · rw [rest, ipv6Header_source srcLong]

end IPv6

/-! ## Behind Ethernet -/

inductive TagProtocol where
  | dot1Q
  | dot1ad
  deriving DecidableEq

def TagProtocol.etherType : TagProtocol → UInt16
  | dot1Q => 0x8100
  | dot1ad => 0x88a8

structure VLANTag where
  protocol : TagProtocol
  control : UInt16
  deriving DecidableEq

def VLANTag.bytes (tag : VLANTag) : Bytes := putUint16 tag.protocol.etherType ++ putUint16 tag.control

def linkHeader (dstMAC srcMAC : FixedBytes 6) (tag : Option VLANTag) (etherType : UInt16) : Bytes :=
  dstMAC.bytes ++ srcMAC.bytes ++ (tag.map VLANTag.bytes).getD [] ++ putUint16 etherType

section Ethernet

variable (dstMAC srcMAC : FixedBytes 6) (tag : Option VLANTag) (etherType : UInt16)

theorem linkHeader_length_le : (linkHeader dstMAC srcMAC tag etherType).length ≤ 18 := by
  cases tag with
  | none => simp [linkHeader, dstMAC.length_eq, srcMAC.length_eq]
  | some tag => simp [linkHeader, VLANTag.bytes, dstMAC.length_eq, srcMAC.length_eq]

theorem linkHeader_etherTypeAt (packet : Bytes) :
    EtherTypeAt (linkHeader dstMAC srcMAC tag etherType ++ packet) etherType
      (linkHeader dstMAC srcMAC tag etherType).length := by
  have addresses : (dstMAC.bytes ++ srcMAC.bytes).length = 12 := by
    rw [List.length_append, dstMAC.length_eq, srcMAC.length_eq]
  cases tag with
  | none =>
    have length : (linkHeader dstMAC srcMAC none etherType).length = 14 := by
      simp [linkHeader, dstMAC.length_eq, srcMAC.length_eq]
    have field : word (linkHeader dstMAC srcMAC none etherType ++ packet) 12 = etherType := by
      have split : linkHeader dstMAC srcMAC none etherType ++ packet =
          (dstMAC.bytes ++ srcMAC.bytes) ++ (putUint16 etherType ++ packet) := by
        simp [linkHeader]
      rw [split]
      exact word_field addresses etherType packet
    exact Or.inl ⟨by rw [List.length_append]; omega, field, length⟩
  | some tag =>
    have length : (linkHeader dstMAC srcMAC (some tag) etherType).length = 18 := by
      simp [linkHeader, VLANTag.bytes, dstMAC.length_eq, srcMAC.length_eq]
    have split : linkHeader dstMAC srcMAC (some tag) etherType ++ packet =
        (dstMAC.bytes ++ srcMAC.bytes) ++ (putUint16 tag.protocol.etherType ++
          (putUint16 tag.control ++ (putUint16 etherType ++ packet))) := by
      simp [linkHeader, VLANTag.bytes]
    have outer : word (linkHeader dstMAC srcMAC (some tag) etherType ++ packet) 12 =
        tag.protocol.etherType := by
      rw [split]
      exact word_field addresses _ _
    have field : word (linkHeader dstMAC srcMAC (some tag) etherType ++ packet) 16 =
        etherType := by
      have front : ((dstMAC.bytes ++ srcMAC.bytes) ++ (putUint16 tag.protocol.etherType ++
          putUint16 tag.control)).length = 16 := by
        rw [List.length_append, addresses, List.length_append, putUint16_length, putUint16_length]
      rw [split, ← List.append_assoc (putUint16 tag.protocol.etherType),
        ← List.append_assoc (dstMAC.bytes ++ srcMAC.bytes)]
      exact word_field front etherType packet
    refine Or.inr ⟨by rw [List.length_append]; omega, ?_, field, length⟩
    rw [outer]
    cases tag.protocol with
    | dot1Q => exact Or.inl rfl
    | dot1ad => exact Or.inr rfl

end Ethernet

/-- Behind a link-layer header for its family a built packet is recognised. -/
theorem ethernet_syn_recognised (dstMAC srcMAC : FixedBytes 6) (tag : Option VLANTag)
    (srcPort dstPort : Int) (fields : SYNFields) (dstRange : 0 ≤ dstPort ∧ dstPort ≤ 65535) :
    (∀ (srcIP dstIP src dst : Bytes) (ipID : UInt16), to4 srcIP = some src → to4 dstIP = some dst →
      ∃ packet, buildSYNPacket srcIP dstIP srcPort dstPort fields (.ok ipID) = .ok (.ok packet) ∧
        Recognised (linkHeader dstMAC srcMAC tag 0x0800 ++ packet) src dstPort fields) ∧
    ∀ src dst : Bytes, src.length = 16 → dst.length = 16 → to4 src = none → to4 dst = none →
      ∃ packet, buildSYNPacketIPv6 src dst srcPort dstPort fields = .ok (.ok packet) ∧
        Recognised (linkHeader dstMAC srcMAC tag 0x86dd ++ packet) src dstPort fields := by
  refine ⟨?_, ?_⟩
  · intro srcIP dstIP src dst ipID source target
    obtain ⟨ipCheck, tcpCheck, _, _, built⟩ :=
      buildSYNPacket_ok source target srcPort dstPort fields ipID
    have place := linkHeader_etherTypeAt dstMAC srcMAC tag 0x0800
      (ipv4Header ipID ipCheck src dst ++ synHeader srcPort dstPort fields tcpCheck)
    refine ⟨_, built, recognised_of_ipv4 (built_ipv4SYN (to4_length source) (to4_length target)
      ipID ipCheck (Or.inl place) List.drop_left dstRange.1 dstRange.2) ?_⟩
    -- the frame has at most 70 bytes
    have link := linkHeader_length_le dstMAC srcMAC tag 0x0800
    have total := ipv4Header_total (to4_length source) (to4_length target) ipID ipCheck
      (synHeader_length srcPort dstPort fields tcpCheck)
    refine no_ipv6SYN_of_short ?_
    rw [List.length_append, total]
    omega
  · intro src dst srcLong dstLong srcPlain dstPlain
    obtain ⟨tcpCheck, _, built⟩ :=
      buildSYNPacketIPv6_ok srcLong dstLong srcPlain dstPlain srcPort dstPort fields
    have place := linkHeader_etherTypeAt dstMAC srcMAC tag 0x86dd
      (ipv6Header src dst ++ synHeader srcPort dstPort fields tcpCheck)
    exact ⟨_, built, recognised_of_ipv6 (built_ipv6SYN srcLong dstLong (Or.inl place)
      List.drop_left dstRange.1 dstRange.2)⟩

def sampleMAC : FixedBytes 6 := FixedBytes.copy 6 [2, 0, 0, 0, 0, 1]

theorem ethernet_syn_recognised_sample :
    ∃ packet, buildSYNPacket [192, 0, 2, 10] [192, 0, 2, 1] 40000 443 sampleFields (.ok 7) =
        .ok (.ok packet) ∧
      Recognised (linkHeader sampleMAC sampleMAC (some ⟨.dot1Q, 5⟩) 0x0800 ++ packet)
        [192, 0, 2, 10] 443 sampleFields :=
  (ethernet_syn_recognised sampleMAC sampleMAC (some ⟨.dot1Q, 5⟩) 40000 443 sampleFields
    (by decide)).1 [192, 0, 2, 10] [192, 0, 2, 1] [192, 0, 2, 10] [192, 0, 2, 1] 7 rfl rfl

/-! ## Raw captures -/

/-- The addresses of a raw IPv4 packet read as an EtherType: bytes 12 and 13 are
the first of the source, bytes 16 and 17 the first of the destination. -/
def IPv4Misread (src dst : Bytes) : Prop :=
  word src 0 = 0x0800 ∨ (word src 0 = 0x8100 ∨ word src 0 = 0x88a8) ∧ word dst 0 = 0x0800

/-- In a raw IPv6 packet the same bytes lie in the source. -/
def IPv6Misread (src : Bytes) : Prop :=
  word src 4 = 0x86dd ∨ (word src 4 = 0x8100 ∨ word src 4 = 0x88a8) ∧ word src 8 = 0x86dd

instance (src dst : Bytes) : Decidable (IPv4Misread src dst) :=
  inferInstanceAs (Decidable (_ ∨ (_ ∨ _) ∧ _))

instance (src : Bytes) : Decidable (IPv6Misread src) :=
  inferInstanceAs (Decidable (_ ∨ (_ ∨ _) ∧ _))

theorem etherTypeAt_iff (long : 18 ≤ frame.length) (kind : UInt16) :
    (∃ offset, EtherTypeAt frame kind offset) ↔
      word frame 12 = kind ∨ (word frame 12 = 0x8100 ∨ word frame 12 = 0x88a8) ∧
        word frame 16 = kind := by
  constructor
  · rintro ⟨offset, ⟨_, direct, _⟩ | ⟨_, tag, inner, _⟩⟩
    · exact Or.inl direct
    · exact Or.inr ⟨tag, inner⟩
  · rintro (direct | ⟨tag, inner⟩)
    · exact ⟨14, Or.inl ⟨by omega, direct, rfl⟩⟩
    · exact ⟨18, Or.inr ⟨long, tag, inner, rfl⟩⟩

theorem EtherTypeAt.offset_le {kind : UInt16} (place : EtherTypeAt frame kind offset) :
    14 ≤ offset := by
  rcases place with ⟨_, _, rfl⟩ | ⟨_, _, _, rfl⟩ <;> omega

theorem offset_le_of_typed {kind : UInt16} {scanned : Prop}
    (place : EtherTypeAt frame kind offset ∨ (∀ other, ¬ EtherTypeAt frame kind other) ∧ scanned)
    (typed : ∃ offset, EtherTypeAt frame kind offset) : 14 ≤ offset := by
  rcases place with direct | ⟨none, _⟩
  · exact direct.offset_le
  · obtain ⟨other, direct⟩ := typed
    exact absurd direct (none other)

section RawIPv4

variable {src dst : Bytes} (srcFour : src.length = 4) (dstFour : dst.length = 4)
  (ipID ipCheck : UInt16) {tcp : Bytes} (tcpLong : tcp.length = 32)

include srcFour dstFour tcpLong

theorem raw_ipv4_misread_iff :
    (∃ offset, EtherTypeAt (ipv4Header ipID ipCheck src dst ++ tcp) 0x0800 offset) ↔
      IPv4Misread src dst := by
  have total := ipv4Header_total srcFour dstFour ipID ipCheck tcpLong
  have first : word (ipv4Header ipID ipCheck src dst ++ tcp) 12 = word src 0 := by
    rw [← word_drop _ 12 0, ipv4Header_addresses, word_append_left (by omega)]
  have second : word (ipv4Header ipID ipCheck src dst ++ tcp) 16 = word dst 0 := by
    rw [← word_drop _ 12 4, ipv4Header_addresses, ← srcFour, ← Nat.add_zero src.length,
      word_append_right, word_append_left (by omega)]
  rw [etherTypeAt_iff (by omega), first, second]
  rfl

theorem raw_ipv4_at (plain : ¬ IPv4Misread src dst) :
    IPv4At (ipv4Header ipID ipCheck src dst ++ tcp) ipv4ProtocolTCP 0 := by
  have total := ipv4Header_total srcFour dstFour ipID ipCheck tcpLong
  rw [← raw_ipv4_misread_iff srcFour dstFour ipID ipCheck tcpLong] at plain
  have first : byte (ipv4Header ipID ipCheck src dst ++ tcp) 0 = ipv4VersionIHL := rfl
  have announced : word (ipv4Header ipID ipCheck src dst ++ tcp) (0 + 2) = 52 :=
    ipv4Header_announced ipID ipCheck
  refine Or.inr ⟨not_exists.mp plain, Nat.le_refl _, ?_, ⟨?_, ?_, rfl⟩, by omega⟩
  · rw [scanLimit, total]
    decide
  · rw [first]
    decide
  · rw [announced, total]
    decide

end RawIPv4

section RawIPv6

variable {src dst : Bytes} (srcLong : src.length = 16) (dstLong : dst.length = 16) {tcp : Bytes}
  (tcpLong : tcp.length = 32)

include srcLong dstLong tcpLong

theorem raw_ipv6_misread_iff :
    (∃ offset, EtherTypeAt (ipv6Header src dst ++ tcp) 0x86dd offset) ↔ IPv6Misread src := by
  have total := ipv6Header_total srcLong dstLong tcpLong
  have first : word (ipv6Header src dst ++ tcp) 12 = word src 4 := by
    rw [← word_drop _ 8 4, ipv6Header_addresses, word_append_left (by omega)]
  have second : word (ipv6Header src dst ++ tcp) 16 = word src 8 := by
    rw [← word_drop _ 8 8, ipv6Header_addresses, word_append_left (by omega)]
  rw [etherTypeAt_iff (by omega), first, second]
  rfl

theorem raw_ipv6_at (plain : ¬ IPv6Misread src) :
    IPv6At (ipv6Header src dst ++ tcp) ipv4ProtocolTCP 0 := by
  have total := ipv6Header_total srcLong dstLong tcpLong
  rw [← raw_ipv6_misread_iff srcLong dstLong tcpLong] at plain
  have first : byte (ipv6Header src dst ++ tcp) 0 = ipv6VersionTraffic := rfl
  have announced : word (ipv6Header src dst ++ tcp) (0 + 4) = 32 := ipv6Header_announced
  refine Or.inr ⟨not_exists.mp plain, Nat.le_refl _, ?_, ⟨?_, rfl, ?_, ?_⟩, by omega⟩
  · rw [scanLimit, total]
    decide
  · rw [first]
    decide
  · rw [announced]
    decide
  · rw [announced, total]
    decide

end RawIPv6

theorem IPv4SYN.source_length (syn : IPv4SYN frame src port fields) : src.length ≤ 4 := by
  obtain ⟨offset, segment, _, _, _, rfl⟩ := syn
  exact List.length_take_le _ _

/-- A built packet without a link-layer header is recognised unless its addresses
read like an EtherType where an Ethernet header would have one. -/
theorem raw_syn_recognised_iff (srcPort dstPort : Int) (fields : SYNFields)
    (dstRange : 0 ≤ dstPort ∧ dstPort ≤ 65535) :
    (∀ (srcIP dstIP src dst : Bytes) (ipID : UInt16), to4 srcIP = some src → to4 dstIP = some dst →
      ∃ packet, buildSYNPacket srcIP dstIP srcPort dstPort fields (.ok ipID) = .ok (.ok packet) ∧
        (Recognised packet src dstPort fields ↔ ¬ IPv4Misread src dst)) ∧
    ∀ src dst : Bytes, src.length = 16 → dst.length = 16 → to4 src = none → to4 dst = none →
      ∃ packet, buildSYNPacketIPv6 src dst srcPort dstPort fields = .ok (.ok packet) ∧
        (Recognised packet src dstPort fields ↔ ¬ IPv6Misread src) := by
  refine ⟨?_, ?_⟩
  · intro srcIP dstIP src dst ipID source target
    have srcFour := to4_length source
    have dstFour := to4_length target
    obtain ⟨ipCheck, tcpCheck, _, _, built⟩ :=
      buildSYNPacket_ok source target srcPort dstPort fields ipID
    have tcpLong := synHeader_length srcPort dstPort fields tcpCheck
    have total := ipv4Header_total srcFour dstFour ipID ipCheck tcpLong
    refine ⟨_, built, ?_, ?_⟩
    · intro recognised misread
      rw [← raw_ipv4_misread_iff srcFour dstFour ipID ipCheck tcpLong] at misread
      rcases recognised.syn with six | four
      · exact no_ipv6SYN_of_short (by omega) _ _ _ six
      · obtain ⟨offset, place, room⟩ := four.room
        have after := offset_le_of_typed place misread
        omega
    · intro plain
      exact recognised_of_ipv4 (built_ipv4SYN srcFour dstFour ipID ipCheck
        (raw_ipv4_at srcFour dstFour ipID ipCheck tcpLong plain) rfl dstRange.1 dstRange.2)
        (no_ipv6SYN_of_short (by omega))
  · intro src dst srcLong dstLong srcPlain dstPlain
    obtain ⟨tcpCheck, _, built⟩ :=
      buildSYNPacketIPv6_ok srcLong dstLong srcPlain dstPlain srcPort dstPort fields
    have tcpLong := synHeader_length srcPort dstPort fields tcpCheck
    have total := ipv6Header_total srcLong dstLong tcpLong
    refine ⟨_, built, ?_, ?_⟩
    · intro recognised misread
      rw [← raw_ipv6_misread_iff srcLong dstLong tcpLong] at misread
      rcases recognised.syn with six | four
      · obtain ⟨offset, place, room⟩ := six.room
        have after := offset_le_of_typed place misread
        omega
      · have short := four.source_length
        omega
    · intro plain
      exact recognised_of_ipv6 (built_ipv6SYN srcLong dstLong
        (raw_ipv6_at srcLong dstLong tcpLong plain) rfl dstRange.1 dstRange.2)

theorem raw_syn_recognised_iff_sample :
    ∃ packet, buildSYNPacket [192, 0, 2, 10] [192, 0, 2, 1] 40000 443 sampleFields (.ok 7) =
        .ok (.ok packet) ∧ Recognised packet [192, 0, 2, 10] 443 sampleFields := by
  obtain ⟨packet, built, found⟩ := (raw_syn_recognised_iff 40000 443 sampleFields (by decide)).1
    [192, 0, 2, 10] [192, 0, 2, 1] [192, 0, 2, 10] [192, 0, 2, 1] 7 rfl rfl
  exact ⟨packet, built, found.mpr (by decide)⟩

/-- A packet from 8.0.0.1 as it was built. -/
def lostPacket : Bytes :=
  [0x45, 0, 0, 52, 0, 7, 0, 0, 64, 6, 176, 187, 8, 0, 0, 1, 192, 0, 2, 1,
    156, 64, 1, 187, 1, 2, 3, 4, 0, 0, 0, 0, 0x80, 2, 2, 0, 10, 204, 0, 0,
    1, 1, 8, 10, 255, 254, 253, 252, 0, 0, 0, 0]

/-- Its first two source bytes read like the EtherType of IPv4. -/
theorem raw_syn_lost :
    buildSYNPacket [8, 0, 0, 1] [192, 0, 2, 1] 40000 443 sampleFields (.ok 7) =
        .ok (.ok lostPacket) ∧
      parseSYNPacket lostPacket = .ok none ∧ parseSYNKnock lostPacket 443 = .ok none ∧
      ¬ Recognised lostPacket [8, 0, 0, 1] 443 sampleFields := by
  decide +kernel

end Libknock.Knock
