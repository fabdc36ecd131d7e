import Libknock.Foundation.Net

/-!
# The text of network addresses

`String` of Go's `netip.Addr`: octets in decimal, groups in hexadecimal without
leading zeros, and the longest run of zero groups written as two colons.  The text
is cut at its dots and colons in one way only, so that it tells the address.
-/

set_option autoImplicit false

namespace Libknock.Foundation

/-! ## Numbers -/

/-- `digits[value]`. -/
def digitText (value : Nat) : UInt8 :=
  if value < 10 then UInt8.ofNat (48 + value) else UInt8.ofNat (87 + value)

/-- `appendDecimal`. -/
def decimalText (octet : UInt8) : Bytes :=
  (if 100 ≤ octet.toNat then [digitText (octet.toNat / 100)] else []) ++
    (if 10 ≤ octet.toNat then [digitText (octet.toNat / 10 % 10)] else []) ++
    [digitText (octet.toNat % 10)]

/-- `appendHex`. -/
def hexText (group : UInt16) : Bytes :=
  (if 4096 ≤ group.toNat then [digitText (group.toNat / 4096)] else []) ++
    (if 256 ≤ group.toNat then [digitText (group.toNat / 256 % 16)] else []) ++
    (if 16 ≤ group.toNat then [digitText (group.toNat / 16 % 16)] else []) ++
    [digitText (group.toNat % 16)]

theorem hexValue_digitText {value : Nat} (small : value < 16) :
    hexValue (digitText value) = some value := by
  have table : ∀ value < 16, hexValue (digitText value) = some value := by decide
  exact table value small

theorem digitText_plain {value : Nat} (small : value < 16) :
    digitText value ≠ 46 ∧ digitText value ≠ 47 ∧ digitText value ≠ 58 := by
  have table : ∀ value < 16,
      digitText value ≠ 46 ∧ digitText value ≠ 47 ∧ digitText value ≠ 58 := by decide
  exact table value small

theorem mem_decimalText {octet byte : UInt8} (member : byte ∈ decimalText octet) :
    ∃ value < 10, byte = digitText value := by
  have bound : octet.toNat < 256 := octet.toNat_lt
  simp only [decimalText, List.mem_append, List.mem_singleton] at member
  rcases member with (front | middle) | rfl
  · split at front
    · exact ⟨_, by omega, List.mem_singleton.mp front⟩
    · cases front
  · split at middle
    · exact ⟨_, by omega, List.mem_singleton.mp middle⟩
    · cases middle
  · exact ⟨_, by omega, rfl⟩

theorem mem_hexText {group : UInt16} {byte : UInt8} (member : byte ∈ hexText group) :
    ∃ value < 16, byte = digitText value := by
  have bound : group.toNat < 65536 := group.toNat_lt
  simp only [hexText, List.mem_append, List.mem_singleton] at member
  rcases member with ((first | second) | third) | rfl
  · split at first
    · exact ⟨_, by omega, List.mem_singleton.mp first⟩
    · cases first
  · split at second
    · exact ⟨_, by omega, List.mem_singleton.mp second⟩
    · cases second
  · split at third
    · exact ⟨_, by omega, List.mem_singleton.mp third⟩
    · cases third
  · exact ⟨_, by omega, rfl⟩

theorem decimalText_plain (octet : UInt8) : 46 ∉ decimalText octet ∧ 47 ∉ decimalText octet := by
  constructor
  · intro member
    obtain ⟨value, small, same⟩ := mem_decimalText member
    exact (digitText_plain (Nat.lt_trans small (by decide))).1 same.symm
  · intro member
    obtain ⟨value, small, same⟩ := mem_decimalText member
    exact (digitText_plain (Nat.lt_trans small (by decide))).2.1 same.symm

variable (group : UInt16) {groups : List UInt16}

theorem hexText_plain : 58 ∉ hexText group := by
  intro member
  obtain ⟨value, small, same⟩ := mem_hexText member
  exact (digitText_plain small).2.2 same.symm

theorem decimalText_inj {left right : UInt8} (same : decimalText left = decimalText right) :
    left = right := by
  have value : ∀ octet : UInt8, ((decimalText octet).filterMap hexValue).foldl
      (fun acc digit => acc * 10 + digit) 0 = octet.toNat := by
    intro octet
    have table : ∀ value < 256, ((decimalText (UInt8.ofNat value)).filterMap hexValue).foldl
        (fun acc digit => acc * 10 + digit) 0 = value := by decide +kernel
    have read := table octet.toNat octet.toNat_lt
    rwa [UInt8.ofNat_toNat] at read
  have values := value left
  rw [same, value right] at values
  exact UInt8.toNat_inj.mp values.symm

theorem hexText_value :
    ((hexText group).filterMap hexValue).foldl (fun acc digit => acc * 16 + digit) 0 =
      group.toNat := by
  have bound : group.toNat < 65536 := group.toNat_lt
  have first : hexValue (digitText (group.toNat / 4096)) = some (group.toNat / 4096) :=
    hexValue_digitText (by omega)
  have second : hexValue (digitText (group.toNat / 256 % 16)) = some (group.toNat / 256 % 16) :=
    hexValue_digitText (by omega)
  have third : hexValue (digitText (group.toNat / 16 % 16)) = some (group.toNat / 16 % 16) :=
    hexValue_digitText (by omega)
  have fourth : hexValue (digitText (group.toNat % 16)) = some (group.toNat % 16) :=
    hexValue_digitText (by omega)
  by_cases huge : 4096 ≤ group.toNat
  · have big : 256 ≤ group.toNat := by omega
    have large : 16 ≤ group.toNat := by omega
    simp [hexText, huge, big, large, first, second, third, fourth]
    omega
  by_cases big : 256 ≤ group.toNat
  · have large : 16 ≤ group.toNat := by omega
    simp [hexText, huge, big, large, second, third, fourth]
    omega
  by_cases large : 16 ≤ group.toNat
  · simp [hexText, huge, big, large, third, fourth]
    omega
  · simp [hexText, huge, big, large, fourth]
    omega

theorem hexText_inj {left right : UInt16} (same : hexText left = hexText right) : left = right := by
  have values := hexText_value left
  rw [same, hexText_value right] at values
  exact UInt16.toNat_inj.mp values.symm

theorem hexText_ne_nil : hexText group ≠ [] := by
  simp [hexText]

/-! ## IPv4 -/

/-- `appendTo4`. -/
def text4 (ip : Bytes) : Bytes :=
  decimalText (ip.getD 0 0) ++ 46 :: (decimalText (ip.getD 1 0) ++ 46 ::
    (decimalText (ip.getD 2 0) ++ 46 :: decimalText (ip.getD 3 0)))

theorem slash_notMem_text4 (ip : Bytes) : 47 ∉ text4 ip := by
  simp [text4, (decimalText_plain _).2]

theorem text4_inj {left right : FixedBytes 4} (same : text4 left.bytes = text4 right.bytes) :
    left = right := by
  obtain ⟨bytes, four⟩ := left
  obtain ⟨others, four'⟩ := right
  match bytes, four, others, four' with
  | [a, b, c, d], _, [a', b', c', d'], _ =>
    have plain := fun octet => (decimalText_plain octet).1
    rw [text4, text4] at same
    obtain ⟨first, same⟩ := append_separator_inj (plain _) (plain _) same
    obtain ⟨second, same⟩ := append_separator_inj (plain _) (plain _) same
    obtain ⟨third, same⟩ := append_separator_inj (plain _) (plain _) same
    cases decimalText_inj first
    cases decimalText_inj second
    cases decimalText_inj third
    cases decimalText_inj same
    rfl

/-! ## IPv6 -/

def groupsOf : Bytes → List UInt16
  | high :: low :: rest => uint16 [high, low] :: groupsOf rest
  | _ => []

/-- `j` after the loop that counts zeros from `i`. -/
def zerosEnd (groups : List UInt16) (i : Nat) : Nat :=
  i + ((groups.drop i).takeWhile fun group => group = 0).length

/-- `zeroStart` and `zeroEnd`. -/
def zeroRun (groups : List UInt16) : Nat × Nat :=
  (List.range 8).foldl (fun best i =>
    let j := zerosEnd groups i
    if 2 ≤ j - i ∧ best.2 - best.1 < j - i then (i, j) else best) (255, 255)

/-- The loop that writes the groups, from index `i` on. -/
def groupLoop (groups : List UInt16) (run : Nat × Nat) : Nat → Nat → Bytes
  | 0, _ => []
  | rounds + 1, i =>
    if 8 ≤ i then []
    else if i = run.1 then
      if 8 ≤ run.2 then [58, 58]
      else 58 :: 58 :: (hexText (groups.getD run.2 0) ++ groupLoop groups run rounds (run.2 + 1))
    else
      (if 0 < i then [58] else []) ++
        (hexText (groups.getD i 0) ++ groupLoop groups run rounds (i + 1))

/-- `appendTo6` without the zone. -/
def text6 (ip : Bytes) : Bytes := groupLoop (groupsOf ip) (zeroRun (groupsOf ip)) 8 0

/-! ## What the loops write -/

def groupsTail (groups : List UInt16) : Bytes := groups.flatMap fun group => 58 :: hexText group

def groupsText : List UInt16 → Bytes
  | [] => []
  | group :: rest => hexText group ++ groupsTail rest

theorem groupsOf_flatMap (words : Nat) : ∀ ip : Bytes, ip.length = 2 * words →
    (groupsOf ip).length = words ∧ (groupsOf ip).flatMap putUint16 = ip := by
  induction words with
  | zero =>
    intro ip empty
    rw [List.eq_nil_of_length_eq_zero (show ip.length = 0 by omega)]
    exact ⟨rfl, rfl⟩
  | succ words ih =>
    intro ip length
    match ip, length with
    | high :: low :: rest, length =>
      simp only [List.length_cons] at length
      obtain ⟨count, same⟩ := ih rest (by omega)
      simp only [groupsOf, List.length_cons, count, List.flatMap_cons, same, true_and]
      rw [putUint16_uint16 [high, low] rfl]
      rfl

theorem zerosEnd_split (groups : List UInt16) (i : Nat) :
    groups = groups.take i ++ List.replicate (zerosEnd groups i - i) 0 ++
      groups.drop (zerosEnd groups i) := by
  have zeros : (groups.drop i).takeWhile (fun group => group = 0) =
      List.replicate (zerosEnd groups i - i) 0 := by
    rw [List.eq_replicate_iff]
    refine ⟨by simp [zerosEnd], fun group member => ?_⟩
    exact of_decide_eq_true (List.all_eq_true.mp List.all_takeWhile group member)
  have rest : groups.drop (zerosEnd groups i) =
      (groups.drop i).dropWhile fun group => group = 0 := by
    have whole := @List.takeWhile_append_dropWhile _ (fun group : UInt16 => group = 0)
      (groups.drop i)
    rw [zerosEnd, ← List.drop_drop]
    exact (congrArg _ whole.symm).trans List.drop_left
  rw [List.append_assoc, rest, ← zeros, List.takeWhile_append_dropWhile, List.take_append_drop]

theorem zeroRun_spec (eight : groups.length = 8) :
    zeroRun groups = (255, 255) ∨
      ∃ front zeros rear, 2 ≤ zeros ∧ groups = front ++ List.replicate zeros 0 ++ rear ∧
        zeroRun groups = (front.length, front.length + zeros) := by
  refine List.foldlRecOn (motive := fun best => best = (255, 255) ∨
    ∃ front zeros rear, 2 ≤ zeros ∧ groups = front ++ List.replicate zeros 0 ++ rear ∧
      best = (front.length, front.length + zeros)) _ _ (Or.inl rfl) ?_
  intro best held i member
  simp only
  split
  · rename_i longer
    have inside : i < 8 := List.mem_range.mp member
    refine Or.inr ⟨groups.take i, zerosEnd groups i - i, groups.drop (zerosEnd groups i), longer.1,
      zerosEnd_split groups i, ?_⟩
    rw [List.length_take, Nat.min_eq_left (by omega)]
    congr 1
    omega
  · exact held

/-- Past the run, or without one, the loop writes the groups that are left. -/
theorem groupLoop_tail (eight : groups.length = 8) (run : Nat × Nat)
    (rest : List UInt16) : ∀ (before : List UInt16) (rounds : Nat), groups = before ++ rest →
      before ≠ [] → run.1 < before.length ∨ 8 ≤ run.1 → rest.length ≤ rounds →
      groupLoop groups run rounds before.length = groupsTail rest := by
  induction rest with
  | nil =>
    intro before rounds whole _ _ _
    have ended : 8 ≤ before.length := by
      rw [← eight, whole]
      simp
    cases rounds with
    | zero => rfl
    | succ rounds => rw [groupLoop, if_pos ended]; rfl
  | cons group rest ih =>
    intro before rounds whole begun past enough
    cases rounds with
    | zero => simp at enough
    | succ rounds =>
      have length := congrArg List.length whole
      rw [eight, List.length_append, List.length_cons] at length
      have positive := List.length_pos_iff.mpr begun
      have here : groups.getD before.length 0 = group := by
        rw [whole]
        simp
      have next := ih (before ++ [group]) rounds (by rw [whole]; simp) (by simp)
        (by rw [List.length_append, List.length_singleton]; omega)
        (Nat.le_of_succ_le_succ enough)
      rw [List.length_append, List.length_singleton] at next
      rw [groupLoop, if_neg (by omega), if_neg (by omega), if_pos positive, here, next]
      rfl

/-- From the run on: two colons and the groups after it. -/
theorem groupLoop_zeros {before rear : List UInt16} (eight : groups.length = 8) {zeros rounds : Nat}
    (some_ : 0 < zeros) (whole : groups = before ++ List.replicate zeros 0 ++ rear)
    (enough : before.length + rounds = 8) :
    groupLoop groups (before.length, before.length + zeros) rounds before.length =
      58 :: 58 :: groupsText rear := by
  have length := congrArg List.length whole
  rw [eight, List.length_append, List.length_append, List.length_replicate] at length
  obtain ⟨rest, rfl⟩ : ∃ rest, rounds = rest + 1 := ⟨rounds - 1, by omega⟩
  rw [groupLoop, if_neg (by omega), if_pos rfl]
  cases rear with
  | nil =>
    rw [if_pos (by simp at length; omega)]
    rfl
  | cons group rear =>
    rw [List.length_cons] at length
    have begins : (before ++ List.replicate zeros 0).length = before.length + zeros := by simp
    have here : groups.getD (before.length + zeros) 0 = group := by
      rw [whole, ← begins]
      simp
    have next := groupLoop_tail eight (before.length, before.length + zeros) rear
      (before ++ List.replicate zeros 0 ++ [group]) rest (by rw [whole]; simp) (by simp)
      (Or.inl (by simp)) (by omega)
    rw [List.length_append, List.length_singleton, begins] at next
    rw [if_neg (by simp only; omega), here, next]
    rfl

/-- From a group before the run on: the groups up to it, and the rest as above. -/
theorem groupLoop_front {rear : List UInt16} (eight : groups.length = 8) {zeros : Nat}
    (some_ : 0 < zeros) (front : List UInt16) : ∀ (before : List UInt16) (rounds : Nat),
      groups = before ++ front ++ List.replicate zeros 0 ++ rear → before.length + rounds = 8 →
      groupLoop groups ((before ++ front).length, (before ++ front).length + zeros) rounds
          before.length =
        (if before = [] then groupsText front else groupsTail front) ++
          58 :: 58 :: groupsText rear := by
  induction front with
  | nil =>
    intro before rounds whole enough
    rw [List.append_nil] at whole ⊢
    rw [groupLoop_zeros eight some_ whole enough]
    split <;> rfl
  | cons group front ih =>
    intro before rounds whole enough
    have length := congrArg List.length whole
    simp only [eight, List.length_append, List.length_cons, List.length_replicate] at length
    obtain ⟨rest, rfl⟩ : ∃ rest, rounds = rest + 1 := ⟨rounds - 1, by omega⟩
    have here : groups.getD before.length 0 = group := by
      rw [whole]
      simp
    have next := ih (before ++ [group]) rest (by rw [whole]; simp) (by simp; omega)
    have moved : (before ++ [group]).length = before.length + 1 := by simp
    rw [List.append_assoc, List.singleton_append, moved, if_neg (by simp)] at next
    rw [groupLoop, if_neg (by omega), if_neg (by simp), here, next]
    cases before with
    | nil => simp [groupsText]
    | cons first others => simp [groupsTail]

theorem text6_cases (ip : Bytes) (sixteen : ip.length = 16) :
    text6 ip = groupsText (groupsOf ip) ∨
      ∃ front zeros rear, 2 ≤ zeros ∧ groupsOf ip = front ++ List.replicate zeros 0 ++ rear ∧
        text6 ip = groupsText front ++ 58 :: 58 :: groupsText rear := by
  have eight : (groupsOf ip).length = 8 := (groupsOf_flatMap 8 ip sixteen).1
  unfold text6
  rcases zeroRun_spec eight with none | ⟨front, zeros, rear, long, whole, run⟩
  · left
    rw [none]
    cases first : groupsOf ip with
    | nil => simp [first] at eight
    | cons group rest =>
      have tail := groupLoop_tail eight (255, 255) rest [group] 7 first (by simp) (Or.inr (by simp))
        (by simp [first] at eight; omega)
      rw [first] at tail
      rw [groupLoop, if_neg (by simp), if_neg (by simp)]
      simp only [List.length_singleton] at tail
      rw [Nat.zero_add, tail]
      rfl
  · right
    refine ⟨front, zeros, rear, long, whole, ?_⟩
    rw [run]
    exact groupLoop_front eight (by omega) front [] 8 whole rfl

/-! ## The groups in a text -/

/-- What follows the first groups of a text: nothing, or two colons and the groups
after the run of zeros. -/
def Gap (rear : Option (List UInt16)) : Bytes :=
  rear.elim [] fun groups => 58 :: 58 :: groupsText groups

theorem tail_marked (groups : List UInt16) (rear : Option (List UInt16)) :
    MarkedOrEmpty 58 (groupsTail groups ++ Gap rear) := by
  cases groups with
  | nil =>
    cases rear with
    | none => exact marked_nil 58
    | some rear => exact marked_cons 58 _
  | cons group rest => exact marked_cons 58 _

theorem gap_ne_group (rear : Option (List UInt16)) (group : UInt16) (rest : Bytes) :
    Gap rear ≠ 58 :: (hexText group ++ rest) := by
  intro same
  cases rear with
  | none => cases same
  | some rear =>
    have tails := (List.cons.inj same).2
    cases text : hexText group with
    | nil => exact hexText_ne_nil group text
    | cons byte digits =>
      rw [text] at tails
      have head := (List.cons.inj tails).1
      exact hexText_plain group (by rw [text, ← head]; exact List.mem_cons_self)

theorem groupsTail_inj {rear rear' : Option (List UInt16)} (left : List UInt16) :
    ∀ right : List UInt16, groupsTail left ++ Gap rear = groupsTail right ++ Gap rear' →
      left = right ∧ Gap rear = Gap rear' := by
  induction left with
  | nil =>
    intro right same
    cases right with
    | nil => exact ⟨rfl, same⟩
    | cons group right =>
      simp only [groupsTail, List.flatMap_cons, List.cons_append, List.append_assoc] at same
      exact absurd same (gap_ne_group rear group _)
  | cons group left ih =>
    intro right same
    cases right with
    | nil =>
      simp only [groupsTail, List.flatMap_cons, List.cons_append, List.append_assoc] at same
      exact absurd same.symm (gap_ne_group rear' group _)
    | cons group' right =>
      simp only [groupsTail, List.flatMap_cons, List.cons_append, List.append_assoc] at same
      obtain ⟨texts, tails⟩ := cut_mark (tail_marked left rear) (tail_marked right rear')
        (hexText_plain group) (hexText_plain group') (List.cons.inj same).2
      obtain ⟨lefts, gaps⟩ := ih right tails
      exact ⟨by rw [hexText_inj texts, lefts], gaps⟩

theorem groupsText_inj {rear rear' : Option (List UInt16)} {left right : List UInt16}
    (same : groupsText left ++ Gap rear = groupsText right ++ Gap rear') :
    left = right ∧ Gap rear = Gap rear' := by
  have colon : ∀ (group : UInt16) (rest : Bytes) (gap : Option (List UInt16)),
      Gap gap ≠ hexText group ++ rest := by
    intro group rest gap equal
    cases text : hexText group with
    | nil => exact hexText_ne_nil group text
    | cons byte digits =>
      rw [text] at equal
      have head := tail_marked [] gap byte (by rw [show groupsTail [] ++ Gap gap = _ from equal]; rfl)
      exact hexText_plain group (by rw [text, head]; exact List.mem_cons_self)
  cases left with
  | nil =>
    cases right with
    | nil => exact ⟨rfl, same⟩
    | cons group right =>
      simp only [groupsText, List.append_assoc] at same
      exact absurd same (colon group _ rear)
  | cons group left =>
    cases right with
    | nil =>
      simp only [groupsText, List.append_assoc] at same
      exact absurd same.symm (colon group _ rear')
    | cons group' right =>
      refine groupsTail_inj (group :: left) (group' :: right) ?_
      simpa [groupsTail, groupsText] using same

theorem text6_gap (ip : FixedBytes 16) :
    ∃ front zeros rear, text6 ip.bytes = groupsText front ++ Gap rear ∧
      groupsOf ip.bytes = front ++ List.replicate zeros 0 ++ rear.getD [] := by
  rcases text6_cases ip.bytes ip.length_eq with plain | ⟨front, zeros, rear, -, whole, text⟩
  · exact ⟨groupsOf ip.bytes, 0, none, by rw [plain]; simp [Gap], by simp⟩
  · exact ⟨front, zeros, some rear, text, whole⟩

theorem text6_inj {left right : FixedBytes 16} (same : text6 left.bytes = text6 right.bytes) :
    left = right := by
  obtain ⟨front, zeros, rear, text, whole⟩ := text6_gap left
  obtain ⟨front', zeros', rear', text', whole'⟩ := text6_gap right
  rw [text, text'] at same
  obtain ⟨fronts, gaps⟩ := groupsText_inj same
  have rears : rear.getD [] = rear'.getD [] := by
    cases rear with
    | none =>
      cases rear' with
      | none => rfl
      | some groups => cases gaps
    | some groups =>
      cases rear' with
      | none => cases gaps
      | some groups' =>
        have texts := (List.cons.inj (List.cons.inj gaps).2).2
        exact (@groupsText_inj none none groups groups' (by simpa [Gap] using texts)).1
  have eight := groupsOf_flatMap 8 left.bytes left.length_eq
  have eight' := groupsOf_flatMap 8 right.bytes right.length_eq
  have lengths := eight.1
  have lengths' := eight'.1
  rw [whole, List.length_append, List.length_append, List.length_replicate] at lengths
  rw [whole', ← fronts, ← rears, List.length_append, List.length_append,
    List.length_replicate] at lengths'
  have groups : groupsOf left.bytes = groupsOf right.bytes := by
    rw [whole, whole', fronts, rears, show zeros = zeros' by omega]
  apply FixedBytes.ext_bytes
  rw [← eight.2, ← eight'.2, groups]

/-! ## Addresses -/

namespace Addr

def is4In6 (ip : FixedBytes 16) : Bool := ip.bytes.take 12 = mappedHead

def zoneText (zone : Bytes) : Bytes := if zone = [] then [] else 37 :: zone

/-- `String`. -/
def string : Addr → Bytes
  | invalid => ascii "invalid IP"
  | v4 ip => text4 ip.bytes
  | v6 ip zone =>
    if is4In6 ip then ascii "::ffff:" ++ text4 (ip.bytes.drop 12) ++ zoneText zone
    else text6 ip.bytes ++ zoneText zone

end Addr

theorem parseIPv6_valid {text : Bytes} {addr : Addr} (read : parseIPv6 text = some addr) :
    addr.isValid = true := by
  unfold parseIPv6 at read
  simp only at read
  split at read
  · cases read
  by_cases leading : (text.takeWhile (· ≠ 37)).take 2 = [58, 58]
  · simp only [leading, if_true, true_and] at read
    split at read
    · cases read
      rfl
    split at read
    · cases read
    split at read
    · cases read
    obtain ⟨bytes, -, rfl⟩ := Option.map_eq_some_iff.mp read
    rfl
  · simp only [leading, if_false, false_and] at read
    split at read
    · cases read
    split at read
    · cases read
    obtain ⟨bytes, -, rfl⟩ := Option.map_eq_some_iff.mp read
    rfl

theorem parseAddr_valid {text : Bytes} {addr : Addr} (read : parseAddr text = some addr) :
    addr.isValid = true := by
  unfold parseAddr at read
  split at read
  · obtain ⟨octets, _, rfl⟩ := Option.map_eq_some_iff.mp read
    rfl
  · exact parseIPv6_valid read
  · cases read

/-! ## Prefixes -/

/-- The first bits of a byte, all of them from eight on. -/
def maskByte (kept : Nat) (byte : UInt8) : UInt8 :=
  UInt8.ofNat (byte.toNat / 2 ^ (8 - kept) * 2 ^ (8 - kept))

def maskBits : Nat → Bytes → Bytes
  | _, [] => []
  | bits, byte :: rest => maskByte bits byte :: maskBits (bits - 8) rest

theorem maskBits_length (bytes : Bytes) : ∀ bits, (maskBits bits bytes).length = bytes.length := by
  induction bytes with
  | nil => exact fun _ => rfl
  | cons byte rest ih =>
    intro bits
    rw [maskBits, List.length_cons, ih, List.length_cons]

theorem maskByte_all (kept : Nat) (byte : UInt8) : maskByte (kept + 8) byte = byte := by
  rw [maskByte, Nat.sub_eq_zero_of_le (Nat.le_add_left 8 kept), Nat.pow_zero, Nat.div_one,
    Nat.mul_one, UInt8.ofNat_toNat]

theorem maskByte_none (byte : UInt8) : maskByte 0 byte = 0 := by
  have bound : byte.toNat < 256 := byte.toNat_lt
  rw [maskByte, Nat.div_eq_of_lt (by omega), Nat.zero_mul]
  rfl

theorem maskBits_bytes (bytes : Bytes) : ∀ kept,
    maskBits (8 * kept) bytes = bytes.take kept ++ List.replicate (bytes.length - kept) 0 := by
  induction bytes with
  | nil =>
    intro kept
    simp [maskBits]
  | cons byte rest ih =>
    intro kept
    cases kept with
    | zero =>
      have cleared := ih 0
      simp only [Nat.mul_zero, List.take_zero, List.nil_append, Nat.sub_zero] at cleared ⊢
      rw [maskBits, maskByte_none, Nat.zero_sub, cleared]
      rfl
    | succ kept =>
      rw [Nat.mul_succ, maskBits, maskByte_all, Nat.add_sub_cancel, ih, List.take_succ_cons,
        List.length_cons, Nat.succ_sub_succ]
      rfl

/-- A `netip.Prefix`; without bits it is not valid. -/
structure NetPrefix where
  ip : Addr
  bits : Option Nat
  deriving DecidableEq

namespace Addr

/-- `WithZone`: only IPv6 addresses have a zone. -/
def withZone (zone : Bytes) : Addr → Addr
  | v6 ip _ => v6 ip zone
  | addr => addr

def is4 : Addr → Bool
  | v4 _ => true
  | _ => false

def masked (bits size : Nat) (ip : FixedBytes size) : FixedBytes size :=
  ⟨maskBits bits ip.bytes, (maskBits_length ip.bytes bits).trans ip.length_eq⟩

/-- `Addr.Prefix`, `none` for its errors. -/
def netPrefix (bits : Nat) : Addr → Option NetPrefix
  | invalid => some ⟨invalid, none⟩
  | v4 ip => if 32 < bits then none else some ⟨v4 (masked bits 4 ip), some bits⟩
  | v6 ip _ => if 128 < bits then none else some ⟨v6 (masked bits 16 ip) [], some bits⟩

end Addr

def NetPrefix.string (p : NetPrefix) : Bytes :=
  match p.bits with
  | none => ascii "invalid Prefix"
  | some bits => p.ip.string ++ 47 :: ascii (toString bits)

end Libknock.Foundation
