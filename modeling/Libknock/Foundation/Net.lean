import Libknock.Foundation.Bytes

/-!
# Network addresses

The parts of Go's `net`, `net/netip` and `strconv` that the repository uses:
connection addresses, IP addresses, and the text forms they are taken from.
-/

set_option autoImplicit false

namespace Libknock.Foundation

/-- A `net.Addr`: nil, a `*net.TCPAddr`, or any other implementation, known by
its text. -/
inductive NetAddr where
  | nil
  | tcp (ip : Bytes) (port : Int)
  | other (text : Bytes)
  deriving DecidableEq

/-- A `netip.Addr`; the zero value is `invalid`. -/
inductive Addr where
  | invalid
  | v4 (ip : FixedBytes 4)
  | v6 (ip : FixedBytes 16) (zone : Bytes)
  deriving DecidableEq

namespace Addr

def isValid : Addr → Bool
  | invalid => false
  | _ => true

def mappedHead : Bytes := List.replicate 10 0 ++ [0xff, 0xff]

/-- An IPv4-mapped IPv6 address becomes the IPv4 address, without its zone. -/
def unmap : Addr → Addr
  | v6 ip zone => if ip.bytes.take 12 = mappedHead then v4 (FixedBytes.copy 4 (ip.bytes.drop 12))
      else v6 ip zone
  | addr => addr

def addrFromSlice (ip : Bytes) : Option Addr :=
  if h : ip.length = 4 then some (v4 ⟨ip, h⟩)
  else if h : ip.length = 16 then some (v6 ⟨ip, h⟩ [])
  else none

end Addr

def to4 (ip : Bytes) : Option Bytes :=
  if ip.length = 4 then some ip
  else if ip.length = 16 ∧ ip.take 12 = Addr.mappedHead then some (ip.drop 12)
  else none

def to16 (ip : Bytes) : Option Bytes :=
  if ip.length = 4 then some (Addr.mappedHead ++ ip)
  else if ip.length = 16 then some ip
  else none

theorem to4_length {ip address : Bytes} (short : to4 ip = some address) : address.length = 4 := by
  unfold to4 at short
  split at short
  · rename_i four
    cases short
    exact four
  · split at short
    · rename_i mapped
      cases short
      rw [List.length_drop, mapped.1]
    · cases short

theorem to4_of_length {ip : Bytes} (four : ip.length = 4) : to4 ip = some ip := if_pos four

theorem to16_of_length {ip : Bytes} (sixteen : ip.length = 16) : to16 ip = some ip := by
  rw [to16, if_neg (by omega), if_pos sixteen]

def lastIndexByte (byte : UInt8) (text : Bytes) : Option Nat :=
  (text.reverse.findIdx? fun other => other = byte).map fun fromEnd => text.length - 1 - fromEnd

/-- `net.SplitHostPort` with its errors made one. -/
def splitHostPort (hostport : Bytes) : Option (Bytes × Bytes) :=
  match lastIndexByte 58 hostport with
  | none => none
  | some colon =>
    if hostport.getD 0 0 = 91 then
      match hostport.findIdx? fun byte => byte = 93 with
      | none => none
      | some close =>
        if close + 1 ≠ colon then none
        else if 91 ∈ hostport.drop 1 ∨ 93 ∈ hostport.drop (close + 1) then none
        else some ((hostport.take close).drop 1, hostport.drop (colon + 1))
    else if 58 ∈ hostport.take colon then none
    else if 91 ∈ hostport ∨ 93 ∈ hostport then none
    else some (hostport.take colon, hostport.drop (colon + 1))

/-! ## `netip.ParseAddr` -/

/-- The loop of `parseIPv4Fields`: the octets done, and the value and number of
digits of the one in hand. -/
def parseIPv4Loop : Bytes → Nat → Nat → Bytes → Option Bytes
  | octets, value, digits, [] =>
    if digits = 0 ∨ octets.length ≠ 3 then none else some (octets ++ [UInt8.ofNat value])
  | octets, value, digits, byte :: rest =>
    if 48 ≤ byte ∧ byte ≤ 57 then
      let next := value * 10 + (byte.toNat - 48)
      if digits = 1 ∧ value = 0 ∨ 255 < next then none
      else parseIPv4Loop octets next (digits + 1) rest
    else if byte = 46 then
      if digits = 0 ∨ octets.length = 3 then none
      else parseIPv4Loop (octets ++ [UInt8.ofNat value]) 0 0 rest
    else none

def parseIPv4Fields (text : Bytes) : Option Bytes := parseIPv4Loop [] 0 0 text

def hexValue (byte : UInt8) : Option Nat :=
  if 48 ≤ byte ∧ byte ≤ 57 then some (byte.toNat - 48)
  else if 97 ≤ byte ∧ byte ≤ 102 then some (byte.toNat - 87)
  else if 65 ≤ byte ∧ byte ≤ 70 then some (byte.toNat - 55)
  else none

/-- The loop of `parseIPv6` over groups of hexadecimal digits, of which there
are at most eight: the bytes got, where the ellipsis stands among them, and the
text that is left. -/
def parseIPv6Loop : Nat → Bytes → Option Nat → Bytes → Option (Bytes × Option Nat × Bytes)
  | 0, got, ellipsis, text => some (got, ellipsis, text)
  | fuel + 1, got, ellipsis, text =>
    let digits := text.takeWhile fun byte => (hexValue byte).isSome
    let group := (digits.filterMap hexValue).foldl (fun acc digit => acc * 16 + digit) 0
    let grown := got ++ putUint16 (UInt16.ofNat group)
    if digits = [] ∨ 4 < digits.length then none
    else
      match text.drop digits.length with
      | [] => some (grown, ellipsis, [])
      | byte :: rest =>
        if byte = 46 then
          -- the rest of the text is an embedded IPv4 address
          if ellipsis = none ∧ got.length ≠ 12 ∨ 16 < got.length + 4 then none
          else (parseIPv4Fields text).map fun octets => (got ++ octets, ellipsis, [])
        else if byte ≠ 58 ∨ rest = [] then none
        else if rest.getD 0 0 = 58 then
          if ellipsis ≠ none then none
          else if rest.drop 1 = [] then some (grown, some grown.length, [])
          else parseIPv6Loop fuel grown (some grown.length) (rest.drop 1)
        else parseIPv6Loop fuel grown ellipsis rest

def expandEllipsis (got : Bytes) : Option Nat → Option Bytes
  | none => if got.length < 16 then none else some got
  | some position =>
    if got.length < 16 then
      some (got.take position ++ List.replicate (16 - got.length) 0 ++ got.drop position)
    else none

def parseIPv6 (text : Bytes) : Option Addr :=
  let address := text.takeWhile fun byte => byte ≠ 37
  let zone := (text.drop address.length).drop 1
  if address.length < text.length ∧ zone = [] then none
  else
    let leading := address.take 2 = [58, 58]
    let groups := if leading then address.drop 2 else address
    if leading ∧ groups = [] then some (.v6 (FixedBytes.copy 16 []) zone)
    else
      match parseIPv6Loop 8 [] (if leading then some 0 else none) groups with
      | none => none
      | some (got, ellipsis, left) =>
        if left ≠ [] then none
        else (expandEllipsis got ellipsis).map fun bytes => .v6 (FixedBytes.copy 16 bytes) zone

def parseAddr (text : Bytes) : Option Addr :=
  match text.find? fun byte => byte = 46 ∨ byte = 58 ∨ byte = 37 with
  | some 46 => (parseIPv4Fields text).map fun octets => .v4 (FixedBytes.copy 4 octets)
  | some 58 => parseIPv6 text
  | _ => none

/-! ## `strconv.Atoi` -/

/-- The value of a non-empty run of decimal digits. -/
def digitsValue : Nat → Bytes → Option Nat
  | acc, [] => some acc
  | acc, byte :: rest =>
    if 48 ≤ byte ∧ byte ≤ 57 then digitsValue (acc * 10 + (byte.toNat - 48)) rest else none

/-- `strconv.Atoi` on a 64-bit platform. -/
def atoi (text : Bytes) : Option Int :=
  let unsigned := if text.getD 0 0 = 43 ∨ text.getD 0 0 = 45 then text.drop 1 else text
  if unsigned = [] then none
  else
    match digitsValue 0 unsigned with
    | none => none
    | some magnitude =>
      let value : Int := if text.getD 0 0 = 45 then -magnitude else magnitude
      if value < -2 ^ 63 ∨ 2 ^ 63 ≤ value then none else some value

end Libknock.Foundation
