import Libknock.Foundation.AddrText

/-!
# Keys of source addresses

`internal/iplimit`: the key under which the connections of one source are
counted.  An IPv4 address, also one written as IPv6, is a source by itself; IPv6
addresses are taken together by their first 64 bits.
-/

set_option autoImplicit false

namespace Libknock.Iplimit

open Foundation

/-- A `net.Addr` as the key reads it.  A pointer to a TCP or UDP address may be
nil, and its IP is any slice; of other implementations only the text is known. -/
inductive SourceAddr where
  | nil
  | tcp (ip : Option Bytes)
  | udp (ip : Option Bytes)
  | other (text : Bytes)
  deriving DecidableEq

def ipv6PrefixBits : Nat := 64

def addrIP : SourceAddr → Option Addr
  | .nil => none
  | .tcp none => none
  | .tcp (some ip) => Addr.addrFromSlice ip
  | .udp none => none
  | .udp (some ip) => Addr.addrFromSlice ip
  | .other text =>
    -- a text without a port is read as an address itself
    parseAddr (match splitHostPort text with
      | some (host, _) => host
      | none => text)

def keyFromAddr (ip : Addr) : Bytes :=
  let ip := ip.unmap.withZone []
  if ip.is4 then ip.string
  else
    match ip.netPrefix ipv6PrefixBits with
    | none => ip.string
    | some p => p.string

def key (addr : SourceAddr) : Option Bytes := (addrIP addr).map keyFromAddr

/-- The addresses are one IPv4 address after unmapping, or lie in one IPv6 /64. -/
def SameSource (left right : Addr) : Prop :=
  (∃ ip, left.unmap = .v4 ip ∧ right.unmap = .v4 ip) ∨
    ∃ leftIP leftZone rightIP rightZone, left.unmap = .v6 leftIP leftZone ∧
      right.unmap = .v6 rightIP rightZone ∧ leftIP.bytes.take 8 = rightIP.bytes.take 8

variable {ip : Addr}

theorem addrFromSlice_valid {slice : Bytes} (read : Addr.addrFromSlice slice = some ip) :
    ip.isValid = true := by
  unfold Addr.addrFromSlice at read
  split at read
  · cases read
    rfl
  · split at read
    · cases read
      rfl
    · cases read

theorem addrIP_valid {addr : SourceAddr} (parsed : addrIP addr = some ip) : ip.isValid = true := by
  cases addr with
  | nil => cases parsed
  | tcp slice | udp slice =>
    cases slice with
    | none => cases parsed
    | some slice => exact addrFromSlice_valid parsed
  | other text => exact parseAddr_valid parsed

theorem unmap_cases (valid : ip.isValid = true) :
    (∃ octets, ip.unmap = .v4 octets) ∨ ∃ bytes zone, ip.unmap = .v6 bytes zone := by
  cases ip with
  | invalid => cases valid
  | v4 octets => exact Or.inl ⟨octets, rfl⟩
  | v6 bytes zone =>
    rw [Addr.unmap]
    split
    · exact Or.inl ⟨_, rfl⟩
    · exact Or.inr ⟨_, _, rfl⟩

theorem keyFromAddr_v4 {octets : FixedBytes 4} (unmapped : ip.unmap = .v4 octets) :
    keyFromAddr ip = text4 octets.bytes := by
  rw [keyFromAddr, unmapped]
  rfl

theorem masked_bytes (ip : FixedBytes 16) :
    (Addr.masked 64 16 ip).bytes = ip.bytes.take 8 ++ List.replicate 8 0 := by
  have whole := maskBits_bytes ip.bytes 8
  rw [ip.length_eq] at whole
  exact whole

/-- What is left of an address is not one that maps an IPv4 address. -/
theorem masked_not4In6 (ip : FixedBytes 16) : Addr.is4In6 (Addr.masked 64 16 ip) = false := by
  apply decide_eq_false
  intro mapped
  have eight : (ip.bytes.take 8).length = 8 := by rw [List.length_take, ip.length_eq]; rfl
  have tails := congrArg (List.drop 8) mapped
  rw [masked_bytes, List.take_append, eight, List.take_of_length_le (by omega),
    List.drop_left' eight] at tails
  exact absurd tails (by decide)

theorem keyFromAddr_v6 {bytes : FixedBytes 16} {zone : Bytes} (unmapped : ip.unmap = .v6 bytes zone) :
    keyFromAddr ip = text6 (Addr.masked 64 16 bytes).bytes ++ ascii "/64" := by
  have text : (Addr.v6 (Addr.masked 64 16 bytes) []).string =
      text6 (Addr.masked 64 16 bytes).bytes ++ [] := by
    rw [Addr.string, masked_not4In6]
    rfl
  rw [List.append_nil] at text
  rw [keyFromAddr, unmapped, ← text]
  rfl

/-- The key of an IPv6 source has a slash, which no IPv4 address has. -/
theorem keyFromAddr_v4_ne_v6 {left right : Addr} {octets : FixedBytes 4} {bytes : FixedBytes 16}
    {zone : Bytes} (leftUnmapped : left.unmap = .v4 octets)
    (rightUnmapped : right.unmap = .v6 bytes zone) : keyFromAddr left ≠ keyFromAddr right := by
  intro same
  rw [keyFromAddr_v4 leftUnmapped, keyFromAddr_v6 rightUnmapped] at same
  apply slash_notMem_text4 octets.bytes
  rw [same]
  exact List.mem_append_right _ (by decide)

theorem masked_eq_iff (left right : FixedBytes 16) :
    Addr.masked 64 16 left = Addr.masked 64 16 right ↔ left.bytes.take 8 = right.bytes.take 8 := by
  constructor
  · intro same
    have bytes := congrArg FixedBytes.bytes same
    rw [masked_bytes, masked_bytes] at bytes
    exact (List.append_inj' bytes rfl).1
  · intro same
    apply FixedBytes.ext_bytes
    rw [masked_bytes, masked_bytes, same]

theorem keyFromAddr_eq_iff {left right : Addr} (leftValid : left.isValid = true)
    (rightValid : right.isValid = true) :
    keyFromAddr left = keyFromAddr right ↔ SameSource left right := by
  rcases unmap_cases leftValid with ⟨leftOctets, leftIs⟩ | ⟨leftBytes, leftZone, leftIs⟩ <;>
    rcases unmap_cases rightValid with ⟨rightOctets, rightIs⟩ | ⟨rightBytes, rightZone, rightIs⟩
  · rw [keyFromAddr_v4 leftIs, keyFromAddr_v4 rightIs, SameSource, leftIs, rightIs]
    constructor
    · intro same
      exact Or.inl ⟨leftOctets, rfl, congrArg Addr.v4 (text4_inj same).symm⟩
    · rintro (⟨ip, left, right⟩ | ⟨_, _, _, _, impossible, _⟩)
      · rw [Addr.v4.inj left, Addr.v4.inj right]
      · cases impossible
  · constructor
    · exact fun same => absurd same (keyFromAddr_v4_ne_v6 leftIs rightIs)
    · rw [SameSource, leftIs, rightIs]
      rintro (⟨_, _, impossible⟩ | ⟨_, _, _, _, impossible, _⟩) <;> cases impossible
  · constructor
    · exact fun same => absurd same.symm (keyFromAddr_v4_ne_v6 rightIs leftIs)
    · rw [SameSource, leftIs, rightIs]
      rintro (⟨_, impossible, _⟩ | ⟨_, _, _, _, _, impossible, _⟩) <;> cases impossible
  · rw [keyFromAddr_v6 leftIs, keyFromAddr_v6 rightIs, SameSource, leftIs, rightIs]
    constructor
    · intro same
      have masks := text6_inj (List.append_cancel_right same)
      exact Or.inr ⟨_, _, _, _, rfl, rfl, (masked_eq_iff _ _).mp masks⟩
    · rintro (⟨_, impossible, _⟩ | ⟨_, _, _, _, left, right, same⟩)
      · cases impossible
      cases left
      cases right
      rw [(masked_eq_iff _ _).mpr same]

theorem key_eq_iff {left right : SourceAddr} {leftIP rightIP : Addr}
    (leftParsed : addrIP left = some leftIP) (rightParsed : addrIP right = some rightIP) :
    key left = key right ↔ SameSource leftIP rightIP := by
  rw [key, key, leftParsed, rightParsed, Option.map_some, Option.map_some, Option.some_inj]
  exact keyFromAddr_eq_iff (addrIP_valid leftParsed) (addrIP_valid rightParsed)

/-- An IPv4 address read from a TCP address, the same one written as IPv6 in a
text, and two hosts of one /64. -/
example : key (.tcp (some [192, 0, 2, 7])) = key (.other (ascii "[::ffff:192.0.2.7]:22")) ∧
    key (.other (ascii "2001:db8::1%eth0")) = some (ascii "2001:db8::/64") ∧
    key (.other (ascii "2001:db8::1")) = key (.other (ascii "[2001:db8:0:0:8::]:443")) := by
  decide +kernel

end Libknock.Iplimit
