import Libknock.Knock.PacketRecognition

/-!
# Two readings of one frame

The parsers try IPv6 first, and without an IPv6 EtherType they look for anything
that reads like an IPv6 header in the first 64 bytes, also in a frame whose
EtherType is IPv4.  When that reading holds a knock its source is returned, and
the two SYN parsers, which test the port at different points, may take different
readings.
-/

set_option autoImplicit false

namespace Libknock.Knock

open Foundation Foundation.Checked

/-! ## The source address -/

/-- A SYN for `port` behind the first place that reads like an IPv6 header. -/
def SYNInside (frame : Bytes) (port : Int) : Prop :=
  ∃ offset segment fields,
    FirstFrom 40 (scanLimit frame) (IPv6Like frame ipv4ProtocolTCP) 0 offset ∧
    IPv6Carries ipv4ProtocolTCP 20 (frame.drop offset) segment ∧
    SYNHeader segment fields ∧ port = destination segment

def DatagramInside (frame : Bytes) (port : Int) : Prop :=
  ∃ offset segment payload,
    FirstFrom 40 (scanLimit frame) (IPv6Like frame ipv4ProtocolUDP) 0 offset ∧
    IPv6Carries ipv4ProtocolUDP 8 (frame.drop offset) segment ∧
    UDPDatagram segment payload ∧ port = destination segment

variable {frame src : Bytes} {offset : Nat} {fields : SYNFields} {protocol : UInt8} {port : Int}

theorem EtherTypeAt.unique {kind other : UInt16} {place : Nat}
    (typed : EtherTypeAt frame kind offset) (again : EtherTypeAt frame other place)
    (plain : kind ≠ 0x8100 ∧ kind ≠ 0x88a8) (plainToo : other ≠ 0x8100 ∧ other ≠ 0x88a8) :
    kind = other ∧ offset = place := by
  rcases typed with ⟨_, direct, rfl⟩ | ⟨_, tag, inner, rfl⟩
  · rcases again with ⟨_, directToo, rfl⟩ | ⟨_, tagToo, _, _⟩
    · exact ⟨direct.symm.trans directToo, rfl⟩
    · rw [direct] at tagToo
      exact absurd tagToo (not_or.mpr plain)
  · rcases again with ⟨_, directToo, _⟩ | ⟨_, _, innerToo, rfl⟩
    · rw [directToo] at tag
      exact absurd tag (not_or.mpr plainToo)
    · exact ⟨inner.symm.trans innerToo, rfl⟩

section Typed

variable {frame : Bytes} {outer : Nat} (typed : EtherTypeAt frame 0x0800 outer)

include typed

/-- In a frame declared as IPv4 the IPv6 header can only come from the scan. -/
theorem ipv6At_iff_scanned :
    IPv6At frame protocol offset ↔
      FirstFrom 40 (scanLimit frame) (IPv6Like frame protocol) 0 offset := by
  have undeclared : ∀ other, ¬ EtherTypeAt frame 0x86dd other := by
    intro other declared
    have same := (typed.unique declared (by decide) (by decide)).1
    exact absurd same (by decide)
  constructor
  · rintro (declared | ⟨_, scanned⟩)
    · exact absurd declared (undeclared offset)
    · exact scanned
  · exact fun scanned => Or.inr ⟨undeclared, scanned⟩

theorem ipv4At_outer (place : IPv4At frame protocol offset) : offset = outer := by
  rcases place with declared | ⟨none, _⟩
  · exact (declared.unique typed (by decide) (by decide)).2
  · exact absurd typed (none outer)

theorem synInside_iff (port : Int) :
    SYNInside frame port ↔ ∃ src fields, IPv6SYN frame src port fields := by
  constructor
  · rintro ⟨offset, segment, fields, scanned, carries, header, port⟩
    exact ⟨_, fields, offset, segment, (ipv6At_iff_scanned typed).mpr scanned, carries,
      ⟨header, port⟩, rfl⟩
  · rintro ⟨_, fields, offset, segment, place, carries, ⟨header, port⟩, _⟩
    exact ⟨offset, segment, fields, (ipv6At_iff_scanned typed).mp place, carries, header, port⟩

theorem datagramInside_iff (port : Int) :
    DatagramInside frame port ↔ ∃ src payload, IPv6UDP frame src port payload := by
  constructor
  · rintro ⟨offset, segment, payload, scanned, carries, datagram, port⟩
    exact ⟨_, payload, offset, segment, (ipv6At_iff_scanned typed).mpr scanned, carries,
      ⟨datagram, port⟩, rfl⟩
  · rintro ⟨_, payload, offset, segment, place, carries, ⟨datagram, port⟩, _⟩
    exact ⟨offset, segment, payload, (ipv6At_iff_scanned typed).mp place, carries, datagram, port⟩

theorem IPv4SYN.source_outer (syn : IPv4SYN frame src port fields) :
    src = ipv4SourceOf (frame.drop outer) := by
  obtain ⟨offset, segment, place, _, _, source⟩ := syn
  rw [source, ipv4At_outer typed place]

theorem IPv4UDP.source_outer {payload : Bytes} (udp : IPv4UDP frame src port payload) :
    src = ipv4SourceOf (frame.drop outer) := by
  obtain ⟨offset, segment, place, _, _, source⟩ := udp
  rw [source, ipv4At_outer typed place]

end Typed

theorem ipv6Source_ne_ipv4Source {least : Nat} {ip segment : Bytes}
    (carries : IPv6Carries protocol least ip segment) (other : Bytes) :
    ipv6SourceOf ip ≠ ipv4SourceOf other := by
  intro same
  have header := carries.header
  have lengths := congrArg List.length same
  simp only [ipv6SourceOf, ipv4SourceOf, List.length_take, List.length_drop] at lengths
  omega

theorem IPv6SYN.source_ne (syn : IPv6SYN frame src port fields) (other : Bytes) :
    src ≠ ipv4SourceOf other := by
  obtain ⟨offset, segment, _, carries, _, rfl⟩ := syn
  exact ipv6Source_ne_ipv4Source carries other

theorem IPv6UDP.source_ne {payload : Bytes} (udp : IPv6UDP frame src port payload) (other : Bytes) :
    src ≠ ipv4SourceOf other := by
  obtain ⟨offset, segment, _, carries, _, rfl⟩ := udp
  exact ipv6Source_ne_ipv4Source carries other

/-- In a frame declared as IPv4 the source returned is that of the IPv4 header
unless the frame also reads as an IPv6 knock. -/
theorem source_is_outer_iff (frame : Bytes) (outer : Nat) (typed : EtherTypeAt frame 0x0800 outer) :
    ((∀ src port fields, parseSYNPacket frame = .ok (some (src, port, fields)) →
        src = ipv4SourceOf (frame.drop outer)) ↔ ¬ ∃ port, SYNInside frame port) ∧
    ∀ dstPort : Int,
      ((∀ src fields, parseSYNKnock frame dstPort = .ok (some (src, fields)) →
        src = ipv4SourceOf (frame.drop outer)) ↔ ¬ SYNInside frame dstPort) ∧
      ((∀ src payload, parseUDPKnockDatagram frame dstPort = .ok (some (src, payload)) →
        src = ipv4SourceOf (frame.drop outer)) ↔ ¬ DatagramInside frame dstPort) := by
  refine ⟨⟨?_, ?_⟩, fun dstPort => ⟨⟨?_, ?_⟩, ?_, ?_⟩⟩
  · rintro outside ⟨port, inside⟩
    obtain ⟨src, fields, syn⟩ := (synInside_iff typed port).mp inside
    have found := ((parseSYNPacket_decides frame).found_iff (src, port, fields)).mpr (Or.inl syn)
    exact syn.source_ne _ (outside src port fields found)
  · intro alone src port fields found
    rcases ((parseSYNPacket_decides frame).found_iff (src, port, fields)).mp found with
      syn | ⟨_, syn⟩
    · exact absurd ⟨port, (synInside_iff typed port).mpr ⟨src, fields, syn⟩⟩ alone
    · exact syn.source_outer typed
  · intro outside inside
    obtain ⟨src, fields, syn⟩ := (synInside_iff typed dstPort).mp inside
    have found := ((parseSYNKnock_decides frame dstPort).found_iff (src, fields)).mpr (Or.inl syn)
    exact syn.source_ne _ (outside src fields found)
  · intro alone src fields found
    rcases ((parseSYNKnock_decides frame dstPort).found_iff (src, fields)).mp found with
      syn | ⟨_, syn⟩
    · exact absurd ((synInside_iff typed dstPort).mpr ⟨src, fields, syn⟩) alone
    · exact syn.source_outer typed
  · intro outside inside
    obtain ⟨src, payload, udp⟩ := (datagramInside_iff typed dstPort).mp inside
    have found := ((parseUDPKnockDatagram_decides frame dstPort).found_iff (src, payload)).mpr
      (Or.inl udp)
    exact udp.source_ne _ (outside src payload found)
  · intro alone src payload found
    rcases ((parseUDPKnockDatagram_decides frame dstPort).found_iff (src, payload)).mp found with
      udp | ⟨_, udp⟩
    · exact absurd ((datagramInside_iff typed dstPort).mpr ⟨src, payload, udp⟩) alone
    · exact udp.source_outer typed

def typedFrame : Bytes := linkHeader sampleMAC sampleMAC none 0x0800 ++ lostPacket

theorem source_is_outer_iff_sample :
    EtherTypeAt typedFrame 0x0800 14 ∧
      ∀ src port fields, parseSYNPacket typedFrame = .ok (some (src, port, fields)) →
        src = [8, 0, 0, 1] := by
  have typed : EtherTypeAt typedFrame 0x0800 14 :=
    linkHeader_etherTypeAt sampleMAC sampleMAC none 0x0800 lostPacket
  have short : typedFrame.length < 72 := by decide
  refine ⟨typed, (source_is_outer_iff typedFrame 14 typed).1.mpr ?_⟩
  rintro ⟨port, inside⟩
  obtain ⟨src, fields, syn⟩ := (synInside_iff typed port).mp inside
  exact no_ipv6SYN_of_short short src port fields syn

/-- An IPv4 SYN from 1.0.6.9 with 96 for its hop limit and data behind its
header.  From the hop limit on it reads as an IPv6 packet: 256 bytes of payload,
next header 6, and a second SYN. -/
def crossFrame : Bytes :=
  List.replicate 12 2 ++ [0x08, 0x00] ++
    [0x45, 0, 0x01, 0x30, 0, 0, 0, 0, 0x60, 6, 0, 0, 1, 0, 6, 9, 192, 0, 2, 1] ++
    [156, 64, 0, 80, 9, 9, 9, 9, 0, 0, 0, 0, 0x80, 2, 4, 0, 0, 0, 0, 0, 1, 1, 8, 10, 7, 7, 7, 7] ++
    [156, 64, 1, 187, 1, 2, 3, 4, 0, 0, 0, 0, 0x80, 2, 2, 0, 0, 0, 0, 0, 1, 1, 8, 10, 5, 6, 7, 8] ++
    List.replicate 228 0

/-- The address of its destination and the bytes behind it. -/
def crossSource : Bytes := [192, 0, 2, 1, 156, 64, 0, 80, 9, 9, 9, 9, 0, 0, 0, 0]

/-- The source returned is taken from the middle of the packet. -/
theorem source_from_inside :
    EtherTypeAt crossFrame 0x0800 14 ∧ ipv4SourceOf (crossFrame.drop 14) = [1, 0, 6, 9] ∧
      parseSYNPacket crossFrame = .ok (some (crossSource, 443, ⟨0x01020304, 512, 0x05060708⟩)) ∧
      parseSYNKnock crossFrame 443 = .ok (some (crossSource, ⟨0x01020304, 512, 0x05060708⟩)) ∧
      crossSource ≠ ipv4SourceOf (crossFrame.drop 14) := by
  refine ⟨Or.inl ⟨by decide +kernel, by decide +kernel, rfl⟩, ?_⟩
  decide +kernel

/-! ## The two SYN parsers -/

theorem IPv6SYN.unique {other : Bytes} {place : Int} {more : SYNFields}
    (syn : IPv6SYN frame src port fields) (again : IPv6SYN frame other place more) :
    port = place := by
  have decides := parseSYNPacketIPv6_decides frame
  have first := (decides.found_iff (src, port, fields)).mpr syn
  have second := (decides.found_iff (other, place, more)).mpr again
  rw [first] at second
  cases second
  rfl

/-- The parsers agree on a port unless the frame reads as an IPv6 SYN for another
port and as an IPv4 SYN for this one. -/
theorem syn_parsers_agree_iff (frame : Bytes) (port : Int) :
    (∀ src fields, parseSYNKnock frame port = .ok (some (src, fields)) ↔
      parseSYNPacket frame = .ok (some (src, port, fields))) ↔
    ¬ ((∃ src other fields, other ≠ port ∧ IPv6SYN frame src other fields) ∧
      ∃ src fields, IPv4SYN frame src port fields) := by
  constructor
  · rintro agree ⟨⟨_, other, _, different, six⟩, src, fields, four⟩
    have knock := ((parseSYNKnock_decides frame port).found_iff (src, fields)).mpr
      (Or.inr ⟨fun _ syn => different (six.unique syn), four⟩)
    have packet := (agree src fields).mp knock
    rcases ((parseSYNPacket_decides frame).found_iff (src, port, fields)).mp packet with
      syn | ⟨none, _⟩
    · exact different (six.unique syn)
    · exact none (_, other, _) six
  · intro apart src fields
    rw [(parseSYNKnock_decides frame port).found_iff (src, fields),
      (parseSYNPacket_decides frame).found_iff (src, port, fields)]
    constructor
    · rintro (six | ⟨none, four⟩)
      · exact Or.inl six
      refine Or.inr ⟨?_, four⟩
      rintro ⟨other, place, more⟩ six
      rcases eq_or_ne place port with rfl | different
      · exact none (other, more) six
      · exact apart ⟨⟨other, place, more, different, six⟩, src, fields, four⟩
    · rintro (six | ⟨none, four⟩)
      · exact Or.inl six
      · exact Or.inr ⟨fun other => none (other.1, port, other.2), four⟩

/-- For port 80 one parser takes the IPv4 SYN and the other the SYN inside it. -/
theorem syn_parsers_disagree :
    parseSYNKnock crossFrame 80 = .ok (some ([1, 0, 6, 9], ⟨0x09090909, 1024, 0x07070707⟩)) ∧
      parseSYNPacket crossFrame ≠
        .ok (some ([1, 0, 6, 9], 80, ⟨0x09090909, 1024, 0x07070707⟩)) := by
  decide +kernel

end Libknock.Knock
