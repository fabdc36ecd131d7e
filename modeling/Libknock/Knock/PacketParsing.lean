import Libknock.Knock.Packet

/-!
# What the packet parsers accept

For every parser the frames it accepts, as a property of their bytes, and the
value it returns for them.  A parser decides its property: on no frame does it
read outside a slice or go round for ever.
-/

set_option autoImplicit false

namespace Libknock.Knock

open Foundation Foundation.Checked

/-! ## The IP header -/

/-- The frame has the EtherType `kind`, directly or behind one VLAN tag, and what
follows the link-layer header begins at `offset`. -/
def EtherTypeAt (frame : Bytes) (kind : UInt16) (offset : Nat) : Prop :=
  (14 ≤ frame.length ∧ word frame 12 = kind ∧ offset = 14) ∨
    (18 ≤ frame.length ∧ (word frame 12 = 0x8100 ∨ word frame 12 = 0x88a8) ∧
      word frame 16 = kind ∧ offset = 18)

theorem etherTypeOffset_decides {kind : UInt16} (plain : kind ≠ 0x8100 ∧ kind ≠ 0x88a8)
    (frame : Bytes) : Decides (etherTypeOffset kind frame) (EtherTypeAt frame kind) := by
  unfold etherTypeOffset
  split
  · rename_i ethernet
    refine decides_bind (uint16At_ok (by omega)) ?_
    split
    · rename_i direct
      refine decides_some 14 fun offset => ⟨?_, fun same => Or.inl ⟨ethernet, direct, same⟩⟩
      rintro (⟨_, _, same⟩ | ⟨_, tag, _, _⟩)
      · exact same
      · rw [direct] at tag
        exact absurd tag (not_or.mpr plain)
    · rename_i other
      split
      · rename_i tag
        split
        · rename_i tagged
          refine decides_bind (uint16At_ok (by omega)) ?_
          split
          · rename_i inner
            refine decides_some 18 fun offset =>
              ⟨?_, fun same => Or.inr ⟨tagged, tag, inner, same⟩⟩
            rintro (⟨_, direct, _⟩ | ⟨_, _, _, same⟩)
            · exact absurd direct other
            · exact same
          · rename_i inner
            refine decides_none ?_
            rintro offset (⟨_, direct, _⟩ | ⟨_, _, same, _⟩)
            · exact other direct
            · exact inner same
        · rename_i short
          refine decides_none ?_
          rintro offset (⟨_, direct, _⟩ | ⟨long, _⟩)
          · exact other direct
          · exact short long
      · rename_i untagged
        refine decides_none ?_
        rintro offset (⟨_, direct, _⟩ | ⟨_, tag, _⟩)
        · exact other direct
        · exact untagged tag
  · rename_i short
    refine decides_none ?_
    rintro offset (⟨long, _⟩ | ⟨long, _⟩) <;> omega

theorem scanLimit_le (frame : Bytes) : scanLimit frame ≤ frame.length ∧ scanLimit frame ≤ 64 := by
  unfold scanLimit
  split <;> omega

def IPv4Like (frame : Bytes) (protocol : UInt8) (i : Nat) : Prop :=
  (byte frame i >>> 4 = 4 ∧ 5 ≤ byte frame i &&& 0x0f) ∧
    (20 ≤ (word frame (i + 2)).toNat ∧ i + (word frame (i + 2)).toNat ≤ frame.length) ∧
    byte frame (i + 9) = protocol

instance (frame : Bytes) (protocol : UInt8) : DecidablePred (IPv4Like frame protocol) :=
  fun _ => inferInstanceAs (Decidable ((_ ∧ _) ∧ (_ ∧ _) ∧ _))

def IPv6Like (frame : Bytes) (protocol : UInt8) (i : Nat) : Prop :=
  byte frame i >>> 4 = 6 ∧ byte frame (i + 6) = protocol ∧ 8 ≤ (word frame (i + 4)).toNat ∧
    i + 40 + (word frame (i + 4)).toNat ≤ frame.length

instance (frame : Bytes) (protocol : UInt8) : DecidablePred (IPv6Like frame protocol) :=
  fun _ => inferInstanceAs (Decidable (_ ∧ _ ∧ _ ∧ _))

variable {frame segment ip : Bytes} {i : Nat}

theorem acceptsIPv4_ok (inside : i + 20 ≤ frame.length) (protocol : UInt8) :
    acceptsIPv4 frame protocol i = .ok (decide (IPv4Like frame protocol i)) := by
  rw [acceptsIPv4, index_ok (by omega), ok_bind, uint16At_ok (by omega), index_ok (by omega)]
  simp only [ok_bind, IPv4Like]
  split
  · rename_i version
    split
    · rename_i total
      simp only [version, total, true_and]
      rfl
    · rename_i total
      simp only [total, false_and, and_false, decide_false]
      rfl
  · rename_i version
    simp only [version, false_and, decide_false]
    rfl

theorem acceptsIPv6_ok (inside : i + 40 ≤ frame.length) (protocol : UInt8) :
    acceptsIPv6 frame protocol i = .ok (decide (IPv6Like frame protocol i)) := by
  rw [acceptsIPv6, index_ok (by omega), uint16At_ok (by omega), index_ok (by omega)]
  simp only [ok_bind, IPv6Like]
  split
  · rename_i version
    simp only [version, true_and]
    rfl
  · rename_i version
    simp only [version, false_and, decide_false]
    rfl

/-- The parser takes `offset` for the start of an IPv4 header: by the EtherType,
or as the first place that looks like one. -/
def IPv4At (frame : Bytes) (protocol : UInt8) (offset : Nat) : Prop :=
  EtherTypeAt frame 0x0800 offset ∨ (∀ other, ¬ EtherTypeAt frame 0x0800 other) ∧
    FirstFrom 20 (scanLimit frame) (IPv4Like frame protocol) 0 offset

def IPv6At (frame : Bytes) (protocol : UInt8) (offset : Nat) : Prop :=
  EtherTypeAt frame 0x86dd offset ∨ (∀ other, ¬ EtherTypeAt frame 0x86dd other) ∧
    FirstFrom 40 (scanLimit frame) (IPv6Like frame protocol) 0 offset

theorem findIPv4OffsetForProtocol_decides (frame : Bytes) (protocol : UInt8) :
    Decides (findIPv4OffsetForProtocol frame protocol) (IPv4At frame protocol) := by
  have limit := scanLimit_le frame
  refine decides_orElse (etherTypeOffset_decides (by decide) frame)
    (scan_decides ?_ _ 0 (by omega) (by omega))
  exact fun i inside => acceptsIPv4_ok (by omega) protocol

theorem findIPv6OffsetForProtocol_decides (frame : Bytes) (protocol : UInt8) :
    Decides (findIPv6OffsetForProtocol frame protocol) (IPv6At frame protocol) := by
  have limit := scanLimit_le frame
  refine decides_orElse (etherTypeOffset_decides (by decide) frame)
    (scan_decides ?_ _ 0 (by omega) (by omega))
  exact fun i inside => acceptsIPv6_ok (by omega) protocol

/-! ## The segment -/

def ipv4Length (ip : Bytes) : Nat := (byte ip 0 &&& 0x0f).toNat * 4

def ipv4Total (ip : Bytes) : Nat :=
  if (word ip 2).toNat ≤ ipv4Length ip ∨ ip.length < (word ip 2).toNat then ip.length
  else (word ip 2).toNat

structure IPv4Carries (protocol : UInt8) (ip segment : Bytes) : Prop where
  header : 20 ≤ ip.length
  least : 20 ≤ ipv4Length ip
  inside : ipv4Length ip ≤ ip.length
  protocol : byte ip 9 = protocol
  segment : segment = (ip.drop (ipv4Length ip)).take (ipv4Total ip - ipv4Length ip)

/-- An IPv6 header for the protocol, with a payload of `least` bytes or more. -/
structure IPv6Carries (protocol : UInt8) (least : Nat) (ip segment : Bytes) : Prop where
  header : 40 ≤ ip.length
  protocol : byte ip 6 = protocol
  least : least ≤ (word ip 4).toNat
  inside : 40 + (word ip 4).toNat ≤ ip.length
  segment : segment = (ip.drop 40).take (word ip 4).toNat

theorem IPv4Carries.segment_length {protocol : UInt8} (carries : IPv4Carries protocol ip segment) :
    segment.length + 20 ≤ ip.length := by
  have least := carries.least
  have inside := carries.inside
  rw [carries.segment, List.length_take, List.length_drop]
  omega

theorem IPv6Carries.segment_length {protocol : UInt8} {least : Nat}
    (carries : IPv6Carries protocol least ip segment) :
    least ≤ segment.length ∧ segment.length + 40 ≤ ip.length := by
  have bound := carries.least
  have inside := carries.inside
  rw [carries.segment, List.length_take, List.length_drop]
  omega

theorem ipv4Segment_decides {found : Checked (Option Nat)} {at_ : Nat → Prop}
    (search : Decides found at_) (protocol : UInt8) :
    Decides (ipv4Segment frame protocol found) fun packet =>
      ∃ offset, at_ offset ∧ packet.ip = frame.drop offset ∧
        IPv4Carries protocol packet.ip packet.segment := by
  refine decides_andThen search fun offset _ => ?_
  refine decides_unless ?_ fun long => ?_
  · rintro short packet ⟨rest, carries⟩
    have header := carries.header
    rw [rest, List.length_drop] at header
    omega
  · have header : 20 ≤ (frame.drop offset).length := by
      rw [List.length_drop]
      omega
    refine decides_bind (slice_to_end (by omega)) ?_
    refine decides_bind (index_ok (by omega)) ?_
    refine decides_unless ?_ fun fits => ?_
    · rintro bad packet ⟨rest, carries⟩
      have least := carries.least
      have inside := carries.inside
      rw [rest, ipv4Length] at least inside
      omega
    · push Not at fits
      refine decides_bind (uint16At_ok (by omega)) ?_
      refine decides_bind (index_ok (by omega)) ?_
      refine decides_unless ?_ fun same => ?_
      · rintro other packet ⟨rest, carries⟩
        have protocol := carries.protocol
        rw [rest] at protocol
        exact other protocol
      · push Not at same
        refine decides_bind (slice_ok ?_ ?_) ?_
        · split <;> omega
        · split <;> omega
        · refine decides_some _ fun packet => ⟨?_, ?_⟩
          · rintro ⟨rest, carries⟩
            have segment := carries.segment
            rw [rest] at segment
            obtain ⟨ip, part⟩ := packet
            simp only at rest segment
            rw [rest, segment]
            rfl
          · rintro rfl
            exact ⟨rfl, header, fits.1, fits.2, same, rfl⟩

theorem ipv6Segment_decides {found : Checked (Option Nat)} {at_ : Nat → Prop}
    (search : Decides found at_) (protocol : UInt8) (least : Nat) :
    Decides (ipv6Segment frame protocol least found) fun packet =>
      ∃ offset, at_ offset ∧ packet.ip = frame.drop offset ∧
        IPv6Carries protocol least packet.ip packet.segment := by
  refine decides_andThen search fun offset _ => ?_
  refine decides_unless ?_ fun long => ?_
  · rintro short packet ⟨rest, carries⟩
    have header := carries.header
    rw [rest, List.length_drop] at header
    omega
  · have header : 40 ≤ (frame.drop offset).length := by
      rw [List.length_drop]
      omega
    refine decides_bind (slice_to_end (by omega)) ?_
    refine decides_bind (uint16At_ok (by omega)) ?_
    refine decides_bind (index_ok (by omega)) ?_
    refine decides_unless ?_ fun fits => ?_
    · rintro bad packet ⟨rest, header, protocol, bound, inside, _⟩
      rw [rest] at protocol bound inside
      rcases bad with other | small | large
      · exact other protocol
      · omega
      · omega
    · push Not at fits
      obtain ⟨same, bound, inside⟩ := fits
      refine decides_bind (slice_ok (by omega) (by omega)) ?_
      refine decides_some _ fun packet => ⟨?_, ?_⟩
      · rintro ⟨rest, carries⟩
        have segment := carries.segment
        rw [rest] at segment
        obtain ⟨ip, part⟩ := packet
        simp only at rest segment
        rw [rest, segment, Nat.add_sub_cancel_left]
      · rintro rfl
        exact ⟨rfl, header, same, bound, inside, by rw [Nat.add_sub_cancel_left]⟩

/-- The source address in a header, in its four or sixteen bytes. -/
def ipv4SourceOf (ip : Bytes) : Bytes := (ip.drop 12).take 4

def ipv6SourceOf (ip : Bytes) : Bytes := (ip.drop 8).take 16

theorem ipv4Source_ok (inside : 20 ≤ ip.length) : ipv4Source ip = .ok (ipv4SourceOf ip) := by
  rw [ipv4Source, index_ok (by omega), index_ok (by omega), index_ok (by omega),
    index_ok (by omega)]
  match ip, inside with
  | _ :: _ :: _ :: _ :: _ :: _ :: _ :: _ :: _ :: _ :: _ :: _ :: _ :: _ :: _ :: _ :: _, _ => rfl

theorem ipv6Source_ok (inside : 40 ≤ ip.length) : ipv6Source ip = .ok (ipv6SourceOf ip) := by
  rw [ipv6Source, slice_ok (by omega) (by omega), ipv6SourceOf]

/-! ## TCP -/

/-- The first option of kind 8 and length 10 on a walk over well-formed options,
and the first four bytes of it. -/
inductive Timestamp : Bytes → UInt32 → Prop where
  | found {rest : Bytes} (room : 8 ≤ rest.length) :
      Timestamp (tcpOptionTS :: 10 :: rest) (long rest 0)
  | nop {rest : Bytes} {ts : UInt32} (later : Timestamp rest ts) :
      Timestamp (tcpOptionNOP :: rest) ts
  | skip {kind length : UInt8} {rest : Bytes} {ts : UInt32} (more : kind ≠ tcpOptionEOL)
      (wide : kind ≠ tcpOptionNOP) (other : ¬ (kind = tcpOptionTS ∧ length = 10))
      (least : 2 ≤ length.toNat) (room : length.toNat ≤ rest.length + 2)
      (later : Timestamp (rest.drop (length.toNat - 2)) ts) :
      Timestamp (kind :: length :: rest) ts

theorem Timestamp.length_le {options : Bytes} {ts : UInt32} (walk : Timestamp options ts) :
    10 ≤ options.length := by
  induction walk with
  | found room =>
    simp only [List.length_cons]
    omega
  | nop _ ih =>
    rw [List.length_cons]
    omega
  | skip _ _ _ _ _ _ ih =>
    simp only [List.length_cons, List.length_drop] at ih ⊢
    omega

theorem timestamp_nil (ts : UInt32) : ¬ Timestamp [] ts := by
  intro walk
  cases walk

theorem timestamp_eol (rest : Bytes) (ts : UInt32) : ¬ Timestamp (tcpOptionEOL :: rest) ts := by
  intro walk
  cases walk with
  | skip more => exact more rfl

theorem timestamp_nop_iff (rest : Bytes) (ts : UInt32) :
    Timestamp (tcpOptionNOP :: rest) ts ↔ Timestamp rest ts := by
  constructor
  · intro walk
    cases walk with
    | nop later => exact later
    | skip _ wide => exact absurd rfl wide
  · exact Timestamp.nop

theorem timestamp_found_iff (rest : Bytes) (room : 8 ≤ rest.length) (ts : UInt32) :
    Timestamp (tcpOptionTS :: 10 :: rest) ts ↔ ts = long rest 0 := by
  constructor
  · intro walk
    cases walk with
    | found _ => rfl
    | skip _ _ other => exact absurd ⟨rfl, rfl⟩ other
  · rintro rfl
    exact Timestamp.found room

theorem timestamp_option {kind length : UInt8} {rest : Bytes} {ts : UInt32}
    (wide : kind ≠ tcpOptionNOP) (walk : Timestamp (kind :: length :: rest) ts) :
    2 ≤ length.toNat ∧ length.toNat ≤ rest.length + 2 := by
  cases walk with
  | found room => exact ⟨by decide, by simpa using room⟩
  | nop _ => exact absurd rfl wide
  | skip _ _ _ least room _ => exact ⟨least, room⟩

theorem timestamp_skip_iff {kind length : UInt8} {rest : Bytes} (more : kind ≠ tcpOptionEOL)
    (wide : kind ≠ tcpOptionNOP) (other : ¬ (kind = tcpOptionTS ∧ length = 10))
    (least : 2 ≤ length.toNat) (room : length.toNat ≤ rest.length + 2) (ts : UInt32) :
    Timestamp (kind :: length :: rest) ts ↔ Timestamp (rest.drop (length.toNat - 2)) ts := by
  constructor
  · intro walk
    cases walk with
    | found _ => exact absurd ⟨rfl, rfl⟩ other
    | nop _ => exact absurd rfl wide
    | skip _ _ _ _ _ later => exact later
  · exact Timestamp.skip more wide other least room

theorem drop_eq_byte_cons {raw : Bytes} (inside : i < raw.length) :
    raw.drop i = byte raw i :: raw.drop (i + 1) := by
  rw [List.drop_eq_getElem_cons inside, byte, List.getD, List.getElem?_eq_getElem inside,
    Option.getD_some]

theorem timestampLoop_decides (options : Bytes) (fuel i : Nat)
    (enough : options.length < fuel + i) (positive : 0 < fuel) :
    Decides (timestampLoop options fuel i) (Timestamp (options.drop i)) := by
  induction fuel generalizing i with
  | zero => omega
  | succ fuel ih =>
    rw [timestampLoop]
    split
    · rename_i inside
      rw [drop_eq_byte_cons inside]
      refine decides_bind (index_ok inside) ?_
      refine decides_unless ?_ fun more => ?_
      · intro ends ts
        rw [ends]
        exact timestamp_eol _ ts
      · split
        · rename_i padding
          rw [padding]
          exact (ih (i + 1) (by omega) (by omega)).congr fun ts =>
            (timestamp_nop_iff _ ts).symm
        · rename_i wide
          refine decides_unless ?_ fun second => ?_
          · intro short ts walk
            have long := walk.length_le
            rw [List.length_cons, List.length_drop] at long
            omega
          · rw [drop_eq_byte_cons (by omega : i + 1 < options.length)]
            have left : (options.drop (i + 1 + 1)).length = options.length - (i + 2) :=
              List.length_drop
            refine decides_bind (index_ok (by omega)) ?_
            refine decides_unless ?_ fun fits => ?_
            · intro bad ts walk
              have bounds := timestamp_option wide walk
              omega
            · split
              · rename_i timestamp
                rw [timestamp.1, timestamp.2]
                rw [timestamp.2, show (10 : UInt8).toNat = 10 from rfl] at fits
                refine decides_bind (uint32At_ok (by omega)) (decides_some _ fun ts => ?_)
                rw [timestamp_found_iff _ (by omega), long, long, List.drop_zero]
              · rename_i other
                refine (ih _ (by omega) (by omega)).congr fun ts => ?_
                rw [timestamp_skip_iff more wide other (by omega) (by omega), List.drop_drop]
                have moved : i + 1 + 1 + ((byte options (i + 1)).toNat - 2) =
                    i + (byte options (i + 1)).toNat := by omega
                rw [moved]
    · rename_i past
      refine decides_none fun ts => ?_
      rw [List.drop_eq_nil_of_le (by omega)]
      exact timestamp_nil ts

theorem parseTimestamp_decides (options : Bytes) :
    Decides (parseTimestamp options) (Timestamp options) :=
  timestampLoop_decides options (options.length + 1) 0 (by omega) (by omega)

/-- A TCP header of a SYN, with a timestamp among its options. -/
structure SYNHeader (tcp : Bytes) (fields : SYNFields) : Prop where
  syn : byte tcp 13 &&& tcpFlagSYN ≠ 0
  alone : byte tcp 13 &&& (tcpFlagACK ||| tcpFlagRST) = 0
  least : 20 ≤ (byte tcp 12 >>> 4).toNat * 4
  inside : (byte tcp 12 >>> 4).toNat * 4 ≤ tcp.length
  timestamp : Timestamp ((tcp.drop 20).take ((byte tcp 12 >>> 4).toNat * 4 - 20)) fields.timestamp
  sequence : fields.sequence = long tcp 4
  window : fields.window = word tcp 14

theorem SYNHeader.length_le {tcp : Bytes} {fields : SYNFields} (header : SYNHeader tcp fields) :
    32 ≤ tcp.length := by
  have walk := header.timestamp.length_le
  have inside := header.inside
  rw [List.length_take] at walk
  omega

theorem synFields_decides {tcp : Bytes} (whole : 20 ≤ tcp.length) :
    Decides (synFields tcp) (SYNHeader tcp) := by
  unfold synFields
  refine decides_bind (index_ok (by omega)) ?_
  refine decides_unless ?_ fun flags => ?_
  · rintro (missing | reply) fields header
    · exact header.syn missing
    · exact reply header.alone
  · push Not at flags
    refine decides_bind (index_ok (by omega)) ?_
    refine decides_unless ?_ fun fits => ?_
    · intro bad fields header
      have least := header.least
      have inside := header.inside
      omega
    · push Not at fits
      refine decides_bind (slice_ok fits.1 fits.2) ?_
      refine (decides_andThen (parseTimestamp_decides _) fun ts _ =>
        decides_bind (uint32At_ok (by omega)) (decides_bind (uint16At_ok (by omega))
          (decides_some _ fun fields => Iff.rfl))).congr fun fields => ⟨?_, ?_⟩
      · rintro ⟨ts, walk, rfl⟩
        exact ⟨flags.1, flags.2, fits.1, fits.2, walk, rfl, rfl⟩
      · intro header
        obtain ⟨sequence, window, timestamp⟩ := fields
        have first := header.sequence
        have second := header.window
        simp only at first second
        exact ⟨timestamp, header.timestamp, by rw [first, second]⟩

def destination (segment : Bytes) : Int := (word segment 2).toNat

theorem parseSYNFieldsFromTCP_decides (tcp : Bytes) :
    Decides (parseSYNFieldsFromTCP tcp) fun found =>
      SYNHeader tcp found.2 ∧ found.1 = destination tcp := by
  refine decides_unless ?_ fun long => ?_
  · rintro short found ⟨header, _⟩
    have := header.length_le
    omega
  · push Not at long
    refine (decides_andThen (synFields_decides long) fun fields _ =>
      decides_bind (uint16At_ok (by omega)) (decides_some _ fun found => Iff.rfl)).congr
        fun found => ⟨?_, ?_⟩
    · rintro ⟨fields, header, rfl⟩
      exact ⟨header, rfl⟩
    · rintro ⟨header, port⟩
      exact ⟨found.2, header, Prod.ext port rfl⟩

/-! ## From the frame to the segment -/

section Behind

variable {α : Type} {frame : Bytes}

theorem decides_behind (inner : Bytes → α → Prop) (source : Bytes → Bytes)
    {search : Checked (Option IPPayload)} {place : Nat → Prop} {carries : Bytes → Bytes → Prop}
    (located : Decides search fun packet =>
      ∃ offset, place offset ∧ packet.ip = frame.drop offset ∧ carries packet.ip packet.segment)
    {rest : IPPayload → Checked (Option (Bytes × α))}
    (late : ∀ ip segment, carries ip segment →
      Decides (rest ⟨ip, segment⟩) fun found => inner segment found.2 ∧ found.1 = source ip) :
    Decides (andThen search rest) fun found =>
      ∃ offset segment, place offset ∧ carries (frame.drop offset) segment ∧
        inner segment found.2 ∧ found.1 = source (frame.drop offset) := by
  refine (decides_andThen located fun packet ⟨_, _, _, carried⟩ =>
    late packet.ip packet.segment carried).congr fun found => ⟨?_, ?_⟩
  · rintro ⟨⟨_, segment⟩, ⟨offset, placed, rfl, carried⟩, read⟩
    exact ⟨offset, segment, placed, carried, read⟩
  · rintro ⟨offset, segment, placed, carried, read⟩
    exact ⟨⟨_, segment⟩, ⟨offset, placed, rfl, carried⟩, read⟩

theorem decides_withSource {first : Checked (Option α)} {inner : α → Prop}
    (early : Decides first inner) {source : Checked Bytes} {address : Bytes}
    (read : source = .ok address) :
    Decides (andThen first fun value => do
        let src ← source
        pure (some (src, value)))
      fun found => inner found.2 ∧ found.1 = address := by
  refine (decides_andThen early fun value _ =>
    decides_bind read (decides_some _ fun _ => Iff.rfl)).congr fun found => ⟨?_, ?_⟩
  · rintro ⟨value, reached, rfl⟩
    exact ⟨reached, rfl⟩
  · rintro ⟨reached, same⟩
    exact ⟨found.2, reached, Prod.ext same rfl⟩

end Behind

/-! ## SYN knocks -/

/-- A SYN for `port` behind what the parser takes for an IPv4 header. -/
def IPv4SYN (frame source : Bytes) (port : Int) (fields : SYNFields) : Prop :=
  ∃ offset segment, IPv4At frame ipv4ProtocolTCP offset ∧
    IPv4Carries ipv4ProtocolTCP (frame.drop offset) segment ∧
    (SYNHeader segment fields ∧ port = destination segment) ∧
    source = ipv4SourceOf (frame.drop offset)

def IPv6SYN (frame source : Bytes) (port : Int) (fields : SYNFields) : Prop :=
  ∃ offset segment, IPv6At frame ipv4ProtocolTCP offset ∧
    IPv6Carries ipv4ProtocolTCP 20 (frame.drop offset) segment ∧
    (SYNHeader segment fields ∧ port = destination segment) ∧
    source = ipv6SourceOf (frame.drop offset)

theorem parseSYNPacketIPv6_decides (frame : Bytes) :
    Decides (parseSYNPacketIPv6 frame) fun found => IPv6SYN frame found.1 found.2.1 found.2.2 :=
  decides_behind (fun segment (found : Int × SYNFields) =>
      SYNHeader segment found.2 ∧ found.1 = destination segment)
    ipv6SourceOf (ipv6Segment_decides (findIPv6OffsetForProtocol_decides frame _) _ 20)
    fun _ segment carries =>
      decides_withSource (parseSYNFieldsFromTCP_decides segment) (ipv6Source_ok carries.header)

theorem parseSYNPacketIPv4_decides (frame : Bytes) :
    Decides (parseSYNPacketIPv4 frame) fun found => IPv4SYN frame found.1 found.2.1 found.2.2 :=
  decides_behind (fun segment (found : Int × SYNFields) =>
      SYNHeader segment found.2 ∧ found.1 = destination segment)
    ipv4SourceOf (ipv4Segment_decides (findIPv4OffsetForProtocol_decides frame _) _)
    fun _ segment carries =>
      decides_withSource (parseSYNFieldsFromTCP_decides segment) (ipv4Source_ok carries.header)

theorem parseSYNPacket_decides (frame : Bytes) :
    Decides (parseSYNPacket frame) fun found =>
      IPv6SYN frame found.1 found.2.1 found.2.2 ∨
        (∀ other : Bytes × Int × SYNFields, ¬ IPv6SYN frame other.1 other.2.1 other.2.2) ∧
          IPv4SYN frame found.1 found.2.1 found.2.2 :=
  decides_orElse (parseSYNPacketIPv6_decides frame) (parseSYNPacketIPv4_decides frame)

/-- `parseSYNKnock` looks at the port before the flags. -/
theorem portThenFields_decides (long : 20 ≤ segment.length) (dstPort : Int) {source : Checked Bytes}
    {address : Bytes} (read : source = .ok address) :
    Decides (do
        let dst ← uint16At segment 2
        if (dst.toNat : Int) ≠ dstPort then pure none
        else
          andThen (synFields segment) fun fields => do
            let src ← source
            pure (some (src, fields)))
      fun found => (SYNHeader segment found.2 ∧ dstPort = destination segment) ∧
        found.1 = address := by
  refine decides_bind (uint16At_ok (by omega)) ?_
  refine decides_unless ?_ fun same => ?_
  · rintro other found ⟨⟨_, port⟩, _⟩
    exact other port.symm
  · push Not at same
    refine (decides_withSource (synFields_decides long) read).congr fun found => ⟨?_, ?_⟩
    · rintro ⟨header, source⟩
      exact ⟨⟨header, same.symm⟩, source⟩
    · rintro ⟨⟨header, _⟩, source⟩
      exact ⟨header, source⟩

theorem parseSYNKnockIPv6_decides (frame : Bytes) (dstPort : Int) :
    Decides (parseSYNKnockIPv6 frame dstPort) fun found =>
      IPv6SYN frame found.1 dstPort found.2 :=
  decides_behind (fun segment fields => SYNHeader segment fields ∧ dstPort = destination segment)
    ipv6SourceOf (ipv6Segment_decides (findIPv6OffsetForProtocol_decides frame _) _ 20)
    fun _ _ carries =>
      portThenFields_decides carries.segment_length.1 dstPort (ipv6Source_ok carries.header)

theorem parseSYNKnockIPv4_decides (frame : Bytes) (dstPort : Int) :
    Decides (parseSYNKnockIPv4 frame dstPort) fun found =>
      IPv4SYN frame found.1 dstPort found.2 := by
  refine decides_behind
    (fun segment fields => SYNHeader segment fields ∧ dstPort = destination segment)
    ipv4SourceOf (ipv4Segment_decides (findIPv4OffsetForProtocol_decides frame _) _)
    fun ip segment carries => ?_
  refine decides_unless ?_ fun long => ?_
  · rintro short found ⟨⟨header, _⟩, _⟩
    have long := header.length_le
    simp only at short
    omega
  · exact portThenFields_decides (Nat.not_lt.mp long) dstPort (ipv4Source_ok carries.header)

theorem parseSYNKnock_decides (frame : Bytes) (dstPort : Int) :
    Decides (parseSYNKnock frame dstPort) fun found =>
      IPv6SYN frame found.1 dstPort found.2 ∨
        (∀ other : Bytes × SYNFields, ¬ IPv6SYN frame other.1 dstPort other.2) ∧
          IPv4SYN frame found.1 dstPort found.2 :=
  decides_orElse (parseSYNKnockIPv6_decides frame dstPort) (parseSYNKnockIPv4_decides frame dstPort)

/-! ## UDP knocks -/

/-- A UDP header whose length covers itself and lies inside the segment. -/
structure UDPDatagram (udp payload : Bytes) : Prop where
  header : 8 ≤ udp.length
  least : 8 ≤ (word udp 4).toNat
  inside : (word udp 4).toNat ≤ udp.length
  payload : payload = (udp.drop 8).take ((word udp 4).toNat - 8)

theorem parseUDPPayload_decides (udp : Bytes) (dstPort : Int) :
    Decides (parseUDPPayload udp dstPort) fun payload =>
      UDPDatagram udp payload ∧ dstPort = destination udp := by
  refine decides_unless ?_ fun long => ?_
  · rintro short payload ⟨datagram, _⟩
    have := datagram.header
    omega
  · push Not at long
    refine decides_bind (uint16At_ok (by omega)) ?_
    refine decides_unless ?_ fun same => ?_
    · rintro other payload ⟨_, port⟩
      exact other port.symm
    · push Not at same
      refine decides_bind (uint16At_ok (by omega)) ?_
      refine decides_unless ?_ fun fits => ?_
      · rintro bad payload ⟨datagram, _⟩
        have least := datagram.least
        have inside := datagram.inside
        omega
      · push Not at fits
        refine decides_bind (slice_ok fits.1 fits.2) (decides_some _ fun payload => ⟨?_, ?_⟩)
        · rintro ⟨datagram, _⟩
          exact datagram.payload
        · rintro rfl
          exact ⟨⟨long, fits.1, fits.2, rfl⟩, same.symm⟩

def IPv4UDP (frame source : Bytes) (port : Int) (payload : Bytes) : Prop :=
  ∃ offset segment, IPv4At frame ipv4ProtocolUDP offset ∧
    IPv4Carries ipv4ProtocolUDP (frame.drop offset) segment ∧
    (UDPDatagram segment payload ∧ port = destination segment) ∧
    source = ipv4SourceOf (frame.drop offset)

def IPv6UDP (frame source : Bytes) (port : Int) (payload : Bytes) : Prop :=
  ∃ offset segment, IPv6At frame ipv4ProtocolUDP offset ∧
    IPv6Carries ipv4ProtocolUDP 8 (frame.drop offset) segment ∧
    (UDPDatagram segment payload ∧ port = destination segment) ∧
    source = ipv6SourceOf (frame.drop offset)

theorem parseUDPKnockIPv4_decides (frame : Bytes) (dstPort : Int) :
    Decides (parseUDPKnockIPv4 frame dstPort) fun found =>
      IPv4UDP frame found.1 dstPort found.2 :=
  decides_behind (fun segment payload => UDPDatagram segment payload ∧ dstPort = destination segment)
    ipv4SourceOf (ipv4Segment_decides (findIPv4OffsetForProtocol_decides frame _) _)
    fun _ segment carries =>
      decides_withSource (parseUDPPayload_decides segment dstPort) (ipv4Source_ok carries.header)

theorem parseUDPKnockIPv6_decides (frame : Bytes) (dstPort : Int) :
    Decides (parseUDPKnockIPv6 frame dstPort) fun found =>
      IPv6UDP frame found.1 dstPort found.2 :=
  decides_behind (fun segment payload => UDPDatagram segment payload ∧ dstPort = destination segment)
    ipv6SourceOf (ipv6Segment_decides (findIPv6OffsetForProtocol_decides frame _) _ 8)
    fun _ segment carries =>
      decides_withSource (parseUDPPayload_decides segment dstPort) (ipv6Source_ok carries.header)

theorem parseUDPKnockDatagram_decides (frame : Bytes) (dstPort : Int) :
    Decides (parseUDPKnockDatagram frame dstPort) fun found =>
      IPv6UDP frame found.1 dstPort found.2 ∨
        (∀ other : Bytes × Bytes, ¬ IPv6UDP frame other.1 dstPort other.2) ∧
          IPv4UDP frame found.1 dstPort found.2 :=
  decides_orElse (parseUDPKnockIPv6_decides frame dstPort) (parseUDPKnockIPv4_decides frame dstPort)

/-- No frame and no port makes a parser leave a slice or go round for ever. -/
theorem packet_parsers_total (frame options : Bytes) (dstPort : Int) :
    (∃ result, parseSYNPacket frame = .ok result) ∧
      (∃ result, parseSYNKnock frame dstPort = .ok result) ∧
      (∃ result, parseUDPKnockDatagram frame dstPort = .ok result) ∧
      ∃ result, parseTimestamp options = .ok result :=
  ⟨(parseSYNPacket_decides frame).total, (parseSYNKnock_decides frame dstPort).total,
    (parseUDPKnockDatagram_decides frame dstPort).total, (parseTimestamp_decides options).total⟩

end Libknock.Knock
