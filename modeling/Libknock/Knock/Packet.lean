import Libknock.Foundation.Checked
import Libknock.Foundation.Net
import Libknock.Knock.SYN

/-!
# SYN knock packets and their parsers

`knock/syn_packet.go` and `knock/udp_passive_parse.go`: the packets that a client
injects, and the parsers that read a captured frame.  A `net.IP` is its bytes.
The parsers run with the checks of the language, so that an index or slice that
leaves its bounds is a fault of the program, and so is a loop that does not end.
What the source repeats word for word in several parsers stands here once: the
steps from a frame to the segment behind its IP header, and the reading of a TCP
header from its flags on.
-/

set_option autoImplicit false

namespace Libknock.Knock

open Foundation
open Foundation.Checked (index uint16At uint32At andThen orElse scan)

def ipv4VersionIHL : UInt8 := 0x45
def ipv6VersionTraffic : UInt8 := 0x60
def defaultPacketTTL : UInt8 := 64
def ipv4HeaderLen : Nat := 20
def ipv6HeaderLen : Nat := 40
def tcpHeaderLenWithTSOpt : Nat := 32
def ipv4ProtocolTCP : UInt8 := 6
def ipv4ProtocolUDP : UInt8 := 17
def tcpFlagSYN : UInt8 := 0x02
def tcpFlagACK : UInt8 := 0x10
def tcpFlagRST : UInt8 := 0x04
def tcpOptionEOL : UInt8 := 0
def tcpOptionNOP : UInt8 := 1
def tcpOptionTS : UInt8 := 8

/-! ## Checksums -/

/-- The first loop of `checksum`; an odd byte at the end counts as the high one. -/
def addWords : UInt32 → Bytes → UInt32
  | sum, high :: low :: rest => addWords (sum + (uint16 [high, low]).toUInt32) rest
  | sum, [last] => sum + (last.toUInt32 <<< 8)
  | sum, [] => sum

/-- The second loop, with a bound on its rounds. -/
def foldCarries : Nat → UInt32 → Checked UInt32
  | 0, _ => .error .unfinished
  | fuel + 1, sum =>
    if sum >>> 16 ≠ 0 then foldCarries fuel ((sum &&& (0xffff : UInt32)) + (sum >>> 16)) else pure sum

/-- Two additions of the carry are enough for 32 bits; the third round ends. -/
def checksum (data : Bytes) : Checked UInt16 := do
  let sum ← foldCarries 3 (addWords 0 data)
  pure (~~~ sum.toUInt16)

def pseudoHeader (srcIP dstIP : Bytes) (tcpLen : Nat) : Bytes :=
  (FixedBytes.copy 4 ((to4 srcIP).getD [])).bytes ++ (FixedBytes.copy 4 ((to4 dstIP).getD [])).bytes ++
    [0, ipv4ProtocolTCP] ++ putUint16 (UInt16.ofNat tcpLen)

def tcpChecksum (srcIP dstIP tcp : Bytes) : Checked UInt16 :=
  checksum (pseudoHeader srcIP dstIP tcp.length ++ tcp)

def pseudoHeaderIPv6 (srcIP dstIP : Bytes) (tcpLen : Nat) : Bytes :=
  (FixedBytes.copy 16 ((to16 srcIP).getD [])).bytes ++
    (FixedBytes.copy 16 ((to16 dstIP).getD [])).bytes ++ putUint32 (UInt32.ofNat tcpLen) ++
    [0, 0, 0, ipv4ProtocolTCP]

def tcpChecksumIPv6 (srcIP dstIP tcp : Bytes) : Checked UInt16 :=
  checksum (pseudoHeaderIPv6 srcIP dstIP tcp.length ++ tcp)

/-! ## Building -/

inductive PacketError where
  | ipv4Required
  | ipv6Required
  | noEntropy
  deriving DecidableEq

/-- The fields of the IPv4 header in their order; those not set are zero. -/
def ipv4Header (ipID check : UInt16) (src4 dst4 : Bytes) : Bytes :=
  [ipv4VersionIHL, 0] ++ putUint16 (UInt16.ofNat (ipv4HeaderLen + tcpHeaderLenWithTSOpt)) ++
    putUint16 ipID ++ [0, 0] ++ [defaultPacketTTL, ipv4ProtocolTCP] ++ putUint16 check ++ src4 ++ dst4

def ipv6Header (src16 dst16 : Bytes) : Bytes :=
  [ipv6VersionTraffic, 0, 0, 0] ++ putUint16 (UInt16.ofNat tcpHeaderLenWithTSOpt) ++
    [ipv4ProtocolTCP, defaultPacketTTL] ++ src16 ++ dst16

/-- The TCP header with its one option; both builders write the same. -/
def synHeader (srcPort dstPort : Int) (fields : SYNFields) (check : UInt16) : Bytes :=
  putUint16 (uint16OfInt srcPort) ++ putUint16 (uint16OfInt dstPort) ++ putUint32 fields.sequence ++
    putUint32 0 ++ [UInt8.ofNat (tcpHeaderLenWithTSOpt / 4) <<< (4 : UInt8), tcpFlagSYN] ++
    putUint16 fields.window ++ putUint16 check ++ putUint16 0 ++
    [tcpOptionNOP, tcpOptionNOP, tcpOptionTS, 10] ++ putUint32 fields.timestamp ++ putUint32 0

/-- `buildSYNPacket`; what `randomUint16` returns is an argument. -/
def buildSYNPacket (srcIP dstIP : Bytes) (srcPort dstPort : Int) (fields : SYNFields)
    (randomUint16 : Except PacketError UInt16) : Checked (Except PacketError Bytes) :=
  match to4 srcIP, to4 dstIP with
  | some src4, some dst4 =>
    match randomUint16 with
    | .error err => pure (.error err)
    | .ok ipID => do
        let ipCheck ← checksum (ipv4Header ipID 0 src4 dst4)
        let tcpCheck ← tcpChecksum src4 dst4 (synHeader srcPort dstPort fields 0)
        pure (.ok (ipv4Header ipID ipCheck src4 dst4 ++ synHeader srcPort dstPort fields tcpCheck))
  | _, _ => pure (.error .ipv4Required)

def buildSYNPacketIPv6 (srcIP dstIP : Bytes) (srcPort dstPort : Int) (fields : SYNFields) :
    Checked (Except PacketError Bytes) :=
  match to16 srcIP, to16 dstIP with
  | some src16, some dst16 =>
    if to4 srcIP ≠ none ∨ to4 dstIP ≠ none then pure (.error .ipv6Required)
    else do
      let tcpCheck ← tcpChecksumIPv6 src16 dst16 (synHeader srcPort dstPort fields 0)
      pure (.ok (ipv6Header src16 dst16 ++ synHeader srcPort dstPort fields tcpCheck))
  | _, _ => pure (.error .ipv6Required)

/-! ## Finding the IP header -/

/-- The switch on the EtherType with which both searches begin. -/
def etherTypeOffset (kind : UInt16) (frame : Bytes) : Checked (Option Nat) :=
  if 14 ≤ frame.length then do
    let etherType ← uint16At frame 12
    if etherType = kind then pure (some 14)
    else if etherType = 0x8100 ∨ etherType = 0x88a8 then
      if 18 ≤ frame.length then do
        let inner ← uint16At frame 16
        pure (if inner = kind then some 18 else none)
      else pure none
    else pure none
  else pure none

def scanLimit (frame : Bytes) : Nat := if frame.length < 64 then frame.length else 64

def acceptsIPv4 (frame : Bytes) (protocol : UInt8) (i : Nat) : Checked Bool := do
  let first ← index frame i
  if first >>> 4 = 4 ∧ 5 ≤ first &&& 0x0f then
    let total ← uint16At frame (i + 2)
    if 20 ≤ total.toNat ∧ i + total.toNat ≤ frame.length then
      let proto ← index frame (i + 9)
      pure (proto = protocol)
    else pure false
  else pure false

def findIPv4OffsetForProtocol (frame : Bytes) (protocol : UInt8) : Checked (Option Nat) :=
  orElse (etherTypeOffset 0x0800 frame)
    (scan 20 (scanLimit frame) (acceptsIPv4 frame protocol) (scanLimit frame + 1) 0)

def findIPv4Offset (frame : Bytes) : Checked (Option Nat) :=
  findIPv4OffsetForProtocol frame ipv4ProtocolTCP

def acceptsIPv6 (frame : Bytes) (protocol : UInt8) (i : Nat) : Checked Bool := do
  let payloadLen ← uint16At frame (i + 4)
  let first ← index frame i
  if first >>> 4 = 6 then
    let next ← index frame (i + 6)
    pure (next = protocol ∧ 8 ≤ payloadLen.toNat ∧ i + 40 + payloadLen.toNat ≤ frame.length)
  else pure false

def findIPv6OffsetForProtocol (frame : Bytes) (protocol : UInt8) : Checked (Option Nat) :=
  orElse (etherTypeOffset 0x86dd frame)
    (scan 40 (scanLimit frame) (acceptsIPv6 frame protocol) (scanLimit frame + 1) 0)

def findIPv6Offset (frame : Bytes) : Checked (Option Nat) :=
  findIPv6OffsetForProtocol frame ipv4ProtocolTCP

/-! ## The segment behind the IP header -/

/-- A frame from its IP header on, and the part of it that the header is for. -/
structure IPPayload where
  ip : Bytes
  segment : Bytes
  deriving DecidableEq

/-- A total length that is too small or too large is replaced by what there is. -/
def ipv4Segment (frame : Bytes) (protocol : UInt8) (found : Checked (Option Nat)) :
    Checked (Option IPPayload) :=
  andThen found fun ipOff =>
    if frame.length < ipOff + 20 then pure none
    else do
      let ip ← Checked.slice frame ipOff frame.length
      let first ← index ip 0
      let ihl := (first &&& 0x0f).toNat * 4
      if ihl < 20 ∨ ip.length < ihl then pure none
      else
        let announced ← uint16At ip 2
        let total := if announced.toNat ≤ ihl ∨ ip.length < announced.toNat then ip.length
          else announced.toNat
        let proto ← index ip 9
        if proto ≠ protocol then pure none
        else
          let segment ← Checked.slice ip ihl total
          pure (some ⟨ip, segment⟩)

/-- `least` is the shortest payload that the caller takes. -/
def ipv6Segment (frame : Bytes) (protocol : UInt8) (least : Nat) (found : Checked (Option Nat)) :
    Checked (Option IPPayload) :=
  andThen found fun ipOff =>
    if frame.length < ipOff + 40 then pure none
    else do
      let ip ← Checked.slice frame ipOff frame.length
      let announced ← uint16At ip 4
      let next ← index ip 6
      if next ≠ protocol ∨ announced.toNat < least ∨ ip.length < 40 + announced.toNat then pure none
      else
        let segment ← Checked.slice ip 40 (40 + announced.toNat)
        pure (some ⟨ip, segment⟩)

/-- `net.IPv4(ip[12], ip[13], ip[14], ip[15]).To4()`. -/
def ipv4Source (ip : Bytes) : Checked Bytes := do
  let a ← index ip 12
  let b ← index ip 13
  let c ← index ip 14
  let d ← index ip 15
  pure [a, b, c, d]

def ipv6Source (ip : Bytes) : Checked Bytes := Checked.slice ip 8 24

/-! ## TCP -/

/-- The walk over the options from offset `i` on; every option but padding has a
length of two at least. -/
def timestampLoop (options : Bytes) : Nat → Nat → Checked (Option UInt32)
  | 0, _ => .error .unfinished
  | fuel + 1, i =>
    if i < options.length then do
      let kind ← index options i
      if kind = tcpOptionEOL then pure none
      else if kind = tcpOptionNOP then timestampLoop options fuel (i + 1)
      else if options.length ≤ i + 1 then pure none
      else
        let length ← index options (i + 1)
        if length.toNat < 2 ∨ options.length < i + length.toNat then pure none
        else if kind = tcpOptionTS ∧ length = 10 then
          let ts ← uint32At options (i + 2)
          pure (some ts)
        else timestampLoop options fuel (i + length.toNat)
    else pure none

def parseTimestamp (options : Bytes) : Checked (Option UInt32) :=
  timestampLoop options (options.length + 1) 0

/-- The three parsers from `flags := tcp[13]` on. -/
def synFields (tcp : Bytes) : Checked (Option SYNFields) := do
  let flags ← index tcp 13
  if flags &&& tcpFlagSYN = 0 ∨ flags &&& (tcpFlagACK ||| tcpFlagRST) ≠ 0 then pure none
  else
    let offset ← index tcp 12
    let tcpHeaderLen := (offset >>> 4).toNat * 4
    if tcpHeaderLen < 20 ∨ tcp.length < tcpHeaderLen then pure none
    else
      let options ← Checked.slice tcp 20 tcpHeaderLen
      andThen (parseTimestamp options) fun ts => do
        let sequence ← uint32At tcp 4
        let window ← uint16At tcp 14
        pure (some ⟨sequence, window, ts⟩)

def parseSYNFieldsFromTCP (tcp : Bytes) : Checked (Option (Int × SYNFields)) :=
  if tcp.length < 20 then pure none
  else
    andThen (synFields tcp) fun fields => do
      let dst ← uint16At tcp 2
      pure (some ((dst.toNat : Int), fields))

/-! ## `parseSYNPacket` -/

def parseSYNPacketIPv6 (frame : Bytes) : Checked (Option (Bytes × Int × SYNFields)) :=
  andThen (ipv6Segment frame ipv4ProtocolTCP 20 (findIPv6Offset frame)) fun packet =>
    andThen (parseSYNFieldsFromTCP packet.segment) fun found => do
      let src ← ipv6Source packet.ip
      pure (some (src, found.1, found.2))

/-- The second half of `parseSYNPacket`. -/
def parseSYNPacketIPv4 (frame : Bytes) : Checked (Option (Bytes × Int × SYNFields)) :=
  andThen (ipv4Segment frame ipv4ProtocolTCP (findIPv4Offset frame)) fun packet =>
    andThen (parseSYNFieldsFromTCP packet.segment) fun found => do
      let src ← ipv4Source packet.ip
      pure (some (src, found.1, found.2))

def parseSYNPacket (frame : Bytes) : Checked (Option (Bytes × Int × SYNFields)) :=
  orElse (parseSYNPacketIPv6 frame) (parseSYNPacketIPv4 frame)

/-! ## `parseSYNKnock` -/

/-- The length of the segment is not tested here: the payload length was. -/
def parseSYNKnockIPv6 (frame : Bytes) (dstPort : Int) : Checked (Option (Bytes × SYNFields)) :=
  andThen (ipv6Segment frame ipv4ProtocolTCP 20 (findIPv6Offset frame)) fun packet => do
    let dst ← uint16At packet.segment 2
    if (dst.toNat : Int) ≠ dstPort then pure none
    else
      andThen (synFields packet.segment) fun fields => do
        let src ← ipv6Source packet.ip
        pure (some (src, fields))

/-- The second half of `parseSYNKnock`. -/
def parseSYNKnockIPv4 (frame : Bytes) (dstPort : Int) : Checked (Option (Bytes × SYNFields)) :=
  andThen (ipv4Segment frame ipv4ProtocolTCP (findIPv4Offset frame)) fun packet =>
    if packet.segment.length < 20 then pure none
    else do
      let dst ← uint16At packet.segment 2
      if (dst.toNat : Int) ≠ dstPort then pure none
      else
        andThen (synFields packet.segment) fun fields => do
          let src ← ipv4Source packet.ip
          pure (some (src, fields))

def parseSYNKnock (frame : Bytes) (dstPort : Int) : Checked (Option (Bytes × SYNFields)) :=
  orElse (parseSYNKnockIPv6 frame dstPort) (parseSYNKnockIPv4 frame dstPort)

/-! ## `parseUDPKnockDatagram` -/

def parseUDPPayload (udp : Bytes) (dstPort : Int) : Checked (Option Bytes) :=
  if udp.length < 8 then pure none
  else do
    let dst ← uint16At udp 2
    if (dst.toNat : Int) ≠ dstPort then pure none
    else
      let udpLen ← uint16At udp 4
      if udpLen.toNat < 8 ∨ udp.length < udpLen.toNat then pure none
      else
        let payload ← Checked.slice udp 8 udpLen.toNat
        pure (some payload)

def parseUDPKnockIPv4 (frame : Bytes) (dstPort : Int) : Checked (Option (Bytes × Bytes)) :=
  andThen (ipv4Segment frame ipv4ProtocolUDP (findIPv4OffsetForProtocol frame ipv4ProtocolUDP))
    fun packet =>
      andThen (parseUDPPayload packet.segment dstPort) fun payload => do
        let src ← ipv4Source packet.ip
        pure (some (src, payload))

def parseUDPKnockIPv6 (frame : Bytes) (dstPort : Int) : Checked (Option (Bytes × Bytes)) :=
  andThen (ipv6Segment frame ipv4ProtocolUDP 8 (findIPv6OffsetForProtocol frame ipv4ProtocolUDP))
    fun packet =>
      andThen (parseUDPPayload packet.segment dstPort) fun payload => do
        let src ← ipv6Source packet.ip
        pure (some (src, payload))

def parseUDPKnockDatagram (frame : Bytes) (dstPort : Int) : Checked (Option (Bytes × Bytes)) :=
  orElse (parseUDPKnockIPv6 frame dstPort) (parseUDPKnockIPv4 frame dstPort)

end Libknock.Knock
