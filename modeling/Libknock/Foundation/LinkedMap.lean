import Mathlib.Data.List.AList
import Mathlib.Tactic

/-!
# Maps over a linked list

A store that keeps its values in a doubly linked list, in an order of its own,
beside a map from the key of a value to the list element that holds it.  List
elements are handled by their address.  Every operation works on both, and the
two stay linked: the map sends a key to an address exactly when the element at
that address holds a value of that key.  What the operations do is stated on the
list of values; the addresses disappear.
-/

set_option autoImplicit false

namespace Libknock.Foundation

/-! ## Lists of elements -/

/-- The elements of a list in order, each an address and the value it holds.
`fresh` is the address of the next element. -/
structure LinkedList (V : Type) where
  elements : List (Nat × V)
  fresh : Nat
  unique : (elements.map Prod.fst).Nodup
  allocated : ∀ element ∈ elements, element.1 < fresh

namespace LinkedList

variable {V : Type}

def new (V : Type) : LinkedList V := ⟨[], 0, List.nodup_nil, by simp⟩

def values (l : LinkedList V) : List V := l.elements.map Prod.snd

def front (l : LinkedList V) : Option Nat := l.elements.head?.map Prod.fst

/-- The address after the given one. -/
def nextIn : List (Nat × V) → Nat → Option Nat
  | [], _ => none
  | element :: rest, address =>
    if element.1 = address then rest.head?.map Prod.fst else nextIn rest address

def next (address : Nat) (l : LinkedList V) : Option Nat := nextIn l.elements address

def value (address : Nat) (l : LinkedList V) : Option V :=
  (l.elements.find? fun element => element.1 = address).map Prod.snd

def remove (address : Nat) (l : LinkedList V) : LinkedList V where
  elements := l.elements.filter fun element => element.1 ≠ address
  fresh := l.fresh
  unique := l.unique.sublist (List.filter_sublist.map Prod.fst)
  allocated := fun element member => l.allocated element (List.mem_filter.mp member).1

theorem unique_fresh (value : V) (l : LinkedList V) :
    ((l.elements ++ [(l.fresh, value)]).map Prod.fst).Nodup := by
  rw [List.map_append, List.nodup_append]
  refine ⟨l.unique, by simp, ?_⟩
  intro address member other single same
  obtain ⟨element, inside, rfl⟩ := List.mem_map.mp member
  simp only [List.map_cons, List.map_nil, List.mem_singleton] at single
  have older := l.allocated element inside
  omega

theorem allocated_fresh (value : V) (l : LinkedList V) :
    ∀ element ∈ l.elements ++ [(l.fresh, value)], element.1 < l.fresh + 1 := by
  intro element member
  rcases List.mem_append.mp member with kept | added
  · exact Nat.lt_succ_of_lt (l.allocated element kept)
  · rw [List.mem_singleton.mp added]
    exact Nat.lt_succ_self l.fresh

/-- A new element at the back; its address is `fresh`. -/
def pushBack (value : V) (l : LinkedList V) : LinkedList V where
  elements := l.elements ++ [(l.fresh, value)]
  fresh := l.fresh + 1
  unique := unique_fresh value l
  allocated := allocated_fresh value l

/-- Writing through the pointer that an element holds. -/
def setValue (address : Nat) (value : V) (l : LinkedList V) : LinkedList V where
  elements := l.elements.map fun element =>
    if element.1 = address then (element.1, value) else element
  fresh := l.fresh
  unique := by
    rw [List.map_map]
    refine Eq.mp ?_ l.unique
    congr 1
    refine List.map_congr_left fun element _ => ?_
    simp only [Function.comp_apply]
    split
    · rfl
    · rfl
  allocated := by
    intro element member
    obtain ⟨old, inside, rfl⟩ := List.mem_map.mp member
    have older := l.allocated old inside
    split
    · exact older
    · exact older

theorem nodup_filter_append (element : Nat × V) (l : LinkedList V) :
    ((l.elements.filter (fun other => other.1 ≠ element.1) ++ [element]).map Prod.fst).Nodup := by
  rw [List.map_append, List.nodup_append]
  refine ⟨l.unique.sublist (List.filter_sublist.map Prod.fst), by simp, ?_⟩
  intro address member other single same
  obtain ⟨kept, inside, rfl⟩ := List.mem_map.mp member
  have different := (List.mem_filter.mp inside).2
  simp only [List.map_cons, List.map_nil, List.mem_singleton] at single
  simp [same, single] at different

def moveToBack (address : Nat) (l : LinkedList V) : LinkedList V :=
  match found : l.elements.find? fun element => element.1 = address with
  | none => l
  | some element =>
    { elements := l.elements.filter (fun other => other.1 ≠ element.1) ++ [element]
      fresh := l.fresh
      unique := nodup_filter_append element l
      allocated := by
        intro other member
        rcases List.mem_append.mp member with kept | moved
        · exact l.allocated other (List.mem_filter.mp kept).1
        · rw [List.mem_singleton.mp moved]
          exact l.allocated element (List.mem_of_find?_eq_some found) }

variable {l : LinkedList V} {element : Nat × V}

theorem eq_of_address {left right : Nat × V} (leftMember : left ∈ l.elements)
    (rightMember : right ∈ l.elements) (same : left.1 = right.1) : left = right :=
  List.inj_on_of_nodup_map l.unique leftMember rightMember same

theorem find_iff {address : Nat} :
    (l.elements.find? fun other => other.1 = address) = some element ↔
      element ∈ l.elements ∧ element.1 = address := by
  constructor
  · intro found
    exact ⟨List.mem_of_find?_eq_some found, by simpa using List.find?_some found⟩
  · rintro ⟨member, rfl⟩
    cases found : l.elements.find? fun other => other.1 = element.1 with
    | none =>
      have absent := List.find?_eq_none.mp found element member
      simp at absent
    | some other =>
      have same : other.1 = element.1 := by simpa using List.find?_some found
      rw [eq_of_address (List.mem_of_find?_eq_some found) member same]

theorem value_eq_some_iff (address : Nat) (l : LinkedList V) (value : V) :
    l.value address = some value ↔ (address, value) ∈ l.elements := by
  rw [LinkedList.value, Option.map_eq_some_iff]
  constructor
  · rintro ⟨⟨place, held⟩, found, rfl⟩
    obtain ⟨member, rfl⟩ := find_iff.mp found
    exact member
  · intro member
    exact ⟨(address, value), find_iff.mpr ⟨member, rfl⟩, rfl⟩

theorem value_of_mem (member : element ∈ l.elements) : l.value element.1 = some element.2 :=
  (value_eq_some_iff _ _ _).mpr member

theorem moveToBack_elements (member : element ∈ l.elements) :
    (l.moveToBack element.1).elements =
      l.elements.filter (fun other => other.1 ≠ element.1) ++ [element] := by
  have found := find_iff.mpr ⟨member, rfl⟩
  unfold moveToBack
  split
  · rename_i missing
    rw [found] at missing
    cases missing
  · rename_i other sought
    rw [found] at sought
    cases sought
    rfl

theorem remove_of_split {l : LinkedList V} {before after : List (Nat × V)} {element : Nat × V}
    (split : l.elements = before ++ element :: after) :
    (l.remove element.1).elements = before ++ after := by
  have unique := l.unique
  rw [split, List.map_append, List.nodup_append, List.map_cons, List.nodup_cons] at unique
  have front : before.filter (fun other => other.1 ≠ element.1) = before := by
    refine List.filter_eq_self.mpr fun other inside => ?_
    simpa using unique.2.2 other.1 (List.mem_map_of_mem inside) element.1 (by simp)
  have back : after.filter (fun other => other.1 ≠ element.1) = after := by
    refine List.filter_eq_self.mpr fun other inside => ?_
    simp only [ne_eq, decide_not, Bool.not_eq_true', decide_eq_false_iff_not]
    intro same
    exact unique.2.1.1 (same ▸ List.mem_map_of_mem inside)
  calc l.elements.filter (fun other => other.1 ≠ element.1)
      = before.filter (fun other => other.1 ≠ element.1) ++
          after.filter (fun other => other.1 ≠ element.1) := by simp [split]
    _ = before ++ after := by rw [front, back]

theorem next_of_split {before after : List (Nat × V)}
    (split : l.elements = before ++ element :: after) :
    l.next element.1 = after.head?.map Prod.fst := by
  have apart : ∀ other ∈ before, other.1 ≠ element.1 := by
    intro other member same
    have unique := l.unique
    rw [split, List.map_append, List.nodup_append] at unique
    exact unique.2.2 other.1 (List.mem_map_of_mem member) element.1 (by simp) same
  rw [next, split]
  clear split
  induction before with
  | nil => simp [nextIn]
  | cons first rest ih =>
    rw [List.cons_append, nextIn, if_neg (apart first (by simp))]
    exact ih fun other member => apart other (by simp [member])

/-- The walk that counts the values that pass a test. -/
def countWalk (test : V → Bool) (l : LinkedList V) : Nat → Option Nat → Nat → Option Nat
  | _, none, count => some count
  | 0, some _, _ => none
  | steps + 1, some address, count =>
    match l.value address with
    | none => none
    | some value =>
      countWalk test l steps (l.next address) (if test value then count + 1 else count)

theorem countWalk_suffix (test : V → Bool) (l : LinkedList V) (after : List (Nat × V)) :
    ∀ (steps count : Nat) (before : List (Nat × V)), l.elements = before ++ after →
      after.length ≤ steps →
      l.countWalk test steps (after.head?.map Prod.fst) count =
        some (count + (after.filter fun element => test element.2).length) := by
  induction after with
  | nil =>
    intro steps count before _ _
    cases steps with
    | zero => rfl
    | succ steps => rfl
  | cons element rest ih =>
    intro steps count before split enough
    cases steps with
    | zero => simp at enough
    | succ steps =>
      have held := (value_eq_some_iff element.1 l element.2).mpr (by simp [split])
      have fewer : rest.length ≤ steps := by
        simp only [List.length_cons] at enough
        omega
      rw [List.head?_cons, Option.map_some, countWalk, held, next_of_split split]
      simp only
      rw [ih steps _ (before ++ [element]) (by simp [split]) fewer, List.filter_cons]
      split
      · rw [List.length_cons, Nat.add_assoc, Nat.add_comm 1]
      · rfl

theorem countWalk_eq (test : V → Bool) (l : LinkedList V) :
    l.countWalk test l.elements.length l.front 0 = some (l.values.filter test).length := by
  rw [front, countWalk_suffix test l l.elements l.elements.length 0 [] rfl le_rfl, values,
    List.filter_map, List.length_map, Nat.zero_add]
  rfl

end LinkedList

/-! ## Maps over such a list -/

/-- An order in which the keys of a map are visited. -/
structure MapOrder (K : Type) where
  visit : List K → List K
  perm : ∀ keys, (visit keys).Perm keys

structure LinkedMap (K V : Type) where
  entries : AList fun _ : K => Nat
  order : LinkedList V

namespace LinkedMap

variable {K V : Type} [DecidableEq K]

def new (K V : Type) : LinkedMap K V := ⟨∅, LinkedList.new V⟩

def values (m : LinkedMap K V) : List V := m.order.values

def len (m : LinkedMap K V) : Nat := m.entries.keys.length

def find (key : K) (m : LinkedMap K V) : Option (Nat × V) :=
  match m.entries.lookup key with
  | none => none
  | some address => (m.order.value address).map fun value => (address, value)

variable (keyOf : V → K)

def removeElement (address : Nat) (m : LinkedMap K V) : LinkedMap K V :=
  match m.order.value address with
  | none => m
  | some value => ⟨m.entries.erase (keyOf value), m.order.remove address⟩

/-- A new element at the back, under the key of its value. -/
def insertBack (value : V) (m : LinkedMap K V) : LinkedMap K V :=
  ⟨m.entries.insert (keyOf value) m.order.fresh, m.order.pushBack value⟩

def moveToBack (address : Nat) (m : LinkedMap K V) : LinkedMap K V :=
  { m with order := m.order.moveToBack address }

def setValue (address : Nat) (value : V) (m : LinkedMap K V) : LinkedMap K V :=
  { m with order := m.order.setValue address value }

/-- The map and the list hold the same elements. -/
def Linked (m : LinkedMap K V) : Prop :=
  ∀ (key : K) (address : Nat), m.entries.lookup key = some address ↔
    ∃ value, (address, value) ∈ m.order.elements ∧ keyOf value = key

variable {keyOf} {m : LinkedMap K V} {key : K} {element : Nat × V}

theorem new_linked (keyOf : V → K) : (new K V).Linked keyOf := by
  intro key address
  simp [new, LinkedList.new]

section

variable (linked : m.Linked keyOf)

include linked

theorem Linked.address_eq_iff {left right : Nat × V} (leftMember : left ∈ m.order.elements)
    (rightMember : right ∈ m.order.elements) :
    left.1 = right.1 ↔ keyOf left.2 = keyOf right.2 := by
  constructor
  · intro same
    rw [LinkedList.eq_of_address leftMember rightMember same]
  · intro same
    have first := (linked (keyOf right.2) left.1).mpr ⟨left.2, leftMember, same⟩
    have second := (linked (keyOf right.2) right.1).mpr ⟨right.2, rightMember, rfl⟩
    rw [first] at second
    exact Option.some.inj second

theorem Linked.keys_nodup : (m.values.map keyOf).Nodup := by
  rw [values, LinkedList.values, List.map_map]
  refine (List.nodup_map_iff_inj_on (List.Nodup.of_map _ m.order.unique)).mpr ?_
  intro left leftMember right rightMember same
  exact LinkedList.eq_of_address leftMember rightMember
    ((linked.address_eq_iff leftMember rightMember).mpr same)

theorem Linked.eq_of_key {left right : V} (leftMember : left ∈ m.values)
    (rightMember : right ∈ m.values) (same : keyOf left = keyOf right) : left = right :=
  List.inj_on_of_nodup_map linked.keys_nodup leftMember rightMember same

theorem Linked.keys_perm : m.entries.keys.Perm (m.values.map keyOf) := by
  refine (List.perm_ext_iff_of_nodup m.entries.keys_nodup linked.keys_nodup).mpr ?_
  intro key
  rw [← AList.mem_keys, ← AList.lookup_isSome, Option.isSome_iff_exists]
  constructor
  · rintro ⟨address, found⟩
    obtain ⟨value, member, same⟩ := (linked key address).mp found
    rw [← same]
    exact List.mem_map_of_mem (List.mem_map_of_mem member)
  · intro member
    obtain ⟨value, inside, same⟩ := List.mem_map.mp member
    obtain ⟨element, place, rfl⟩ := List.mem_map.mp inside
    exact ⟨element.1, (linked key element.1).mpr ⟨element.2, place, same⟩⟩

theorem Linked.len_eq : m.len = m.values.length := by
  rw [len, linked.keys_perm.length_eq, List.length_map]

theorem Linked.find_eq_some_iff {address : Nat} {value : V} :
    m.find key = some (address, value) ↔
      (address, value) ∈ m.order.elements ∧ keyOf value = key := by
  unfold find
  constructor
  · intro found
    split at found
    · cases found
    rename_i place known
    obtain ⟨held, stored, same⟩ := Option.map_eq_some_iff.mp found
    obtain ⟨rfl, rfl⟩ := Prod.mk.inj same
    have member := (LinkedList.value_eq_some_iff _ m.order _).mp stored
    obtain ⟨other, otherMember, own⟩ := (linked key _).mp known
    cases LinkedList.eq_of_address member otherMember rfl
    exact ⟨member, own⟩
  · rintro ⟨member, same⟩
    rw [(linked key address).mpr ⟨value, member, same⟩]
    simp only
    rw [(LinkedList.value_eq_some_iff address m.order value).mpr member]
    rfl

theorem Linked.find_eq_none_iff : m.find key = none ↔ ∀ value ∈ m.values, keyOf value ≠ key := by
  constructor
  · intro missing value member same
    obtain ⟨element, inside, rfl⟩ := List.mem_map.mp member
    rw [linked.find_eq_some_iff.mpr ⟨inside, same⟩] at missing
    cases missing
  · intro absent
    cases found : m.find key with
    | none => rfl
    | some element =>
      obtain ⟨member, same⟩ := linked.find_eq_some_iff.mp found
      exact absurd same (absent element.2 (List.mem_map_of_mem member))

theorem Linked.find_mem (found : m.find key = some element) :
    element ∈ m.order.elements ∧ keyOf element.2 = key :=
  linked.find_eq_some_iff.mp found

theorem Linked.find_value (key : K) :
    (m.find key).map Prod.snd = m.values.find? fun value => keyOf value = key := by
  symm
  cases found : m.find key with
  | none =>
    have absent := linked.find_eq_none_iff.mp found
    exact List.find?_eq_none.mpr fun value member => by simp [absent value member]
  | some element =>
    obtain ⟨member, same⟩ := linked.find_mem found
    cases sought : m.values.find? fun value => keyOf value = key with
    | none =>
      have absent := List.find?_eq_none.mp sought element.2 (List.mem_map_of_mem member)
      simp [same] at absent
    | some value =>
      have inside := List.mem_of_find?_eq_some sought
      have own : keyOf value = key := by simpa using List.find?_some sought
      have equal := List.inj_on_of_nodup_map linked.keys_nodup inside
        (List.mem_map_of_mem member) (own.trans same.symm)
      rw [equal]
      rfl

end

/-! ## One element -/

theorem removeElement_length (keyOf : V → K) (member : element ∈ m.order.elements) :
    (m.removeElement keyOf element.1).values.length + 1 = m.values.length := by
  obtain ⟨before, after, split⟩ := List.append_of_mem member
  simp only [LinkedMap.removeElement, LinkedList.value_of_mem member, values, LinkedList.values,
    List.length_map]
  rw [LinkedList.remove_of_split split, split]
  simp only [List.length_append, List.length_cons]
  omega

section

variable (linked : m.Linked keyOf) (member : element ∈ m.order.elements)

include linked member

/-- Where the elements are linked, leaving out an address is leaving out a key. -/
theorem Linked.filter_address :
    m.order.elements.filter (fun other => other.1 ≠ element.1) =
      m.order.elements.filter fun other => keyOf other.2 ≠ keyOf element.2 := by
  refine List.filter_congr fun other inside => ?_
  simp only [ne_eq, decide_not, linked.address_eq_iff inside member]

theorem Linked.removeElement : (m.removeElement keyOf element.1).Linked keyOf := by
  rw [LinkedMap.removeElement, LinkedList.value_of_mem member]
  intro key address
  simp only [LinkedList.remove]
  rw [linked.filter_address member]
  by_cases same : key = keyOf element.2
  · rw [same, AList.lookup_erase]
    simp
  · rw [AList.lookup_erase_ne same, linked key address]
    constructor
    · rintro ⟨value, inside, rfl⟩
      exact ⟨value, List.mem_filter.mpr ⟨inside, by simpa using same⟩, rfl⟩
    · rintro ⟨value, inside, own⟩
      exact ⟨value, (List.mem_filter.mp inside).1, own⟩

theorem Linked.removeElement_elements :
    (m.removeElement keyOf element.1).order.elements =
      m.order.elements.filter fun other => keyOf other.2 ≠ keyOf element.2 := by
  rw [LinkedMap.removeElement, LinkedList.value_of_mem member]
  exact linked.filter_address member

theorem Linked.removeElement_values :
    (m.removeElement keyOf element.1).values =
      m.values.filter fun value => keyOf value ≠ keyOf element.2 := by
  rw [values, LinkedList.values, linked.removeElement_elements member, values, LinkedList.values,
    List.filter_map]
  rfl

theorem Linked.moveToBack : (m.moveToBack element.1).Linked keyOf := by
  intro key address
  simp only [LinkedMap.moveToBack]
  rw [linked key address, LinkedList.moveToBack_elements member]
  refine exists_congr fun value => and_congr_left fun _ => ?_
  simp only [List.mem_append, List.mem_filter, List.mem_singleton]
  constructor
  · intro inside
    by_cases same : address = element.1
    · exact Or.inr (LinkedList.eq_of_address inside member same)
    · exact Or.inl ⟨inside, by simpa using same⟩
  · rintro (kept | moved)
    · exact kept.1
    · rw [moved]
      exact member

theorem Linked.moveToBack_values :
    (m.moveToBack element.1).values =
      m.values.filter (fun value => keyOf value ≠ keyOf element.2) ++ [element.2] := by
  simp only [LinkedMap.moveToBack, values, LinkedList.values]
  rw [LinkedList.moveToBack_elements member, linked.filter_address member,
    List.map_append, List.filter_map]
  rfl

theorem Linked.mem_moveToBack_iff (value : V) :
    value ∈ (m.moveToBack element.1).values ↔ value ∈ m.values := by
  have inside : element.2 ∈ m.values := List.mem_map_of_mem member
  rw [linked.moveToBack_values member, List.mem_append, List.mem_filter, List.mem_singleton]
  constructor
  · rintro (kept | rfl)
    · exact kept.1
    · exact inside
  · intro held
    by_cases same : keyOf value = keyOf element.2
    · exact Or.inr (linked.eq_of_key held inside same)
    · exact Or.inl ⟨held, by simpa using same⟩

theorem Linked.moveToBack_length : (m.moveToBack element.1).values.length = m.values.length := by
  rw [linked.moveToBack_values member, ← linked.removeElement_values member, List.length_append,
    List.length_singleton]
  exact removeElement_length keyOf member

end

theorem Linked.insertBack (linked : m.Linked keyOf) (value : V)
    (absent : ∀ other ∈ m.values, keyOf other ≠ keyOf value) :
    (m.insertBack keyOf value).Linked keyOf := by
  intro key address
  simp only [LinkedMap.insertBack, LinkedList.pushBack, List.mem_append, List.mem_singleton]
  by_cases same : key = keyOf value
  · rw [same, AList.lookup_insert]
    constructor
    · intro found
      exact ⟨value, Or.inr (by rw [Option.some.inj found]), rfl⟩
    · rintro ⟨other, inside | added, own⟩
      · exact absurd own (absent other (List.mem_map_of_mem inside))
      · rw [(Prod.mk.inj added).1]
  · rw [AList.lookup_insert_ne same, linked key address]
    constructor
    · rintro ⟨other, inside, own⟩
      exact ⟨other, Or.inl inside, own⟩
    · rintro ⟨other, inside | added, own⟩
      · exact ⟨other, inside, own⟩
      · rw [(Prod.mk.inj added).2] at own
        exact absurd own.symm same

@[simp] theorem insertBack_values (keyOf : V → K) (value : V) (m : LinkedMap K V) :
    (m.insertBack keyOf value).values = m.values ++ [value] := by
  simp [LinkedMap.insertBack, values, LinkedList.values, LinkedList.pushBack]

omit [DecidableEq K] in
theorem moveToBack_mem (member : element ∈ m.order.elements) :
    element ∈ (m.moveToBack element.1).order.elements := by
  simp [LinkedMap.moveToBack, LinkedList.moveToBack_elements member]

omit [DecidableEq K] in
@[simp] theorem setValue_length (address : Nat) (value : V) (m : LinkedMap K V) :
    (m.setValue address value).values.length = m.values.length := by
  simp [LinkedMap.setValue, values, LinkedList.values, LinkedList.setValue]

omit [DecidableEq K] in
theorem setValue_mem (value : V) (member : element ∈ m.order.elements) :
    (element.1, value) ∈ (m.setValue element.1 value).order.elements :=
  List.mem_map.mpr ⟨element, member, by simp⟩

theorem Linked.setValue (linked : m.Linked keyOf) (member : element ∈ m.order.elements) (value : V)
    (same : keyOf value = keyOf element.2) :
    (m.setValue element.1 value).Linked keyOf := by
  intro key address
  simp only [LinkedMap.setValue]
  rw [linked key address]
  constructor
  · rintro ⟨other, inside, own⟩
    by_cases here : address = element.1
    · cases LinkedList.eq_of_address inside member here
      exact ⟨value, setValue_mem value member, same.trans own⟩
    · exact ⟨other, List.mem_map.mpr ⟨_, inside, by simp [here]⟩, own⟩
  · rintro ⟨other, inside, own⟩
    obtain ⟨old, oldMember, written⟩ := List.mem_map.mp inside
    split at written
    · rename_i here
      obtain ⟨rfl, rfl⟩ := Prod.mk.inj written
      rw [LinkedList.eq_of_address oldMember member here] at oldMember
      exact ⟨element.2, by rw [here]; exact oldMember, same.symm.trans own⟩
    · rw [written] at oldMember
      exact ⟨other, oldMember, own⟩

theorem setValue_others (member : element ∈ m.order.elements) (value : V)
    (same : keyOf value = keyOf element.2) :
    (m.setValue element.1 value).values.filter (fun other => keyOf other ≠ keyOf value) =
      m.values.filter fun other => keyOf other ≠ keyOf value := by
  simp only [LinkedMap.setValue, values, LinkedList.values, LinkedList.setValue, List.map_map]
  have agree : ∀ elements : List (Nat × V), (∀ other ∈ elements, other ∈ m.order.elements) →
      (elements.map (Prod.snd ∘ fun other => if other.1 = element.1 then (other.1, value) else
        other)).filter (fun other => keyOf other ≠ keyOf value) =
      (elements.map Prod.snd).filter fun other => keyOf other ≠ keyOf value := by
    intro elements
    induction elements with
    | nil => exact fun _ => rfl
    | cons head tail ih =>
      intro inside
      have rest := ih fun other member => inside other (by simp [member])
      rw [List.map_cons, List.map_cons, List.filter_cons, List.filter_cons, rest]
      by_cases here : head.1 = element.1
      · cases LinkedList.eq_of_address (inside head (by simp)) member here
        simp [same]
      · simp [here]
  exact agree _ fun _ inside => inside

theorem Linked.mem_setValue_iff (linked : m.Linked keyOf) (member : element ∈ m.order.elements)
    (value : V) (same : keyOf value = keyOf element.2) (other : V) :
    other ∈ (m.setValue element.1 value).values ↔
      other = value ∨ other ∈ m.values ∧ keyOf other ≠ keyOf value := by
  have apart : ∀ held : V, keyOf held ≠ keyOf value →
      (held ∈ (m.setValue element.1 value).values ↔ held ∈ m.values) := by
    intro held different
    have others := setValue_others member value same
    have here := congrArg (held ∈ ·) others
    simpa [List.mem_filter, different] using here
  by_cases own : keyOf other = keyOf value
  · have written : value ∈ (m.setValue element.1 value).values :=
      List.mem_map_of_mem (setValue_mem value member)
    constructor
    · intro inside
      left
      exact (linked.setValue member value same).eq_of_key inside written own
    · rintro (rfl | ⟨_, different⟩)
      · exact written
      · exact absurd own different
  · rw [apart other own]
    constructor
    · exact fun inside => Or.inr ⟨inside, own⟩
    · rintro (rfl | ⟨inside, _⟩)
      · exact absurd rfl own
      · exact inside

/-! ## Removing while walking the list

The walk takes the address of the next element before it may remove the one it
is at. -/

/-- The walk from an element on, with the number of elements removed so far;
`none` where the steps do not suffice. -/
def removeWalk (keyOf : V → K) (drop : V → Bool) :
    Nat → Option Nat → Nat → LinkedMap K V → Option (Nat × LinkedMap K V)
  | _, none, removed, m => some (removed, m)
  | 0, some _, _, _ => none
  | steps + 1, some address, removed, m =>
    match m.order.value address with
    | none => none
    | some value =>
      if drop value then
        removeWalk keyOf drop steps (m.order.next address) (removed + 1)
          (m.removeElement keyOf address)
      else removeWalk keyOf drop steps (m.order.next address) removed m

theorem Linked.removeWalk_suffix (drop : V → Bool) {after : List (Nat × V)} :
    ∀ (steps removed : Nat) (m : LinkedMap K V) (before : List (Nat × V)), m.Linked keyOf →
      m.order.elements = before ++ after → after.length ≤ steps →
      ∃ next, removeWalk keyOf drop steps (after.head?.map Prod.fst) removed m =
          some (removed + (after.filter fun element => drop element.2).length, next) ∧
        next.Linked keyOf ∧
        next.order.elements = before ++ after.filter fun element => !drop element.2 := by
  induction after with
  | nil =>
    intro steps removed m before linked split _
    refine ⟨m, ?_, linked, by simpa using split⟩
    cases steps with
    | zero => rfl
    | succ steps => rfl
  | cons element rest ih =>
    intro steps removed m before linked split enough
    cases steps with
    | zero => simp at enough
    | succ steps =>
      have member : element ∈ m.order.elements := by simp [split]
      have fewer : rest.length ≤ steps := by
        simp only [List.length_cons] at enough
        omega
      rw [List.head?_cons, Option.map_some, removeWalk, LinkedList.value_of_mem member,
        LinkedList.next_of_split split]
      simp only
      cases dropped : drop element.2 with
      | false =>
        obtain ⟨next, result, kept⟩ := ih steps removed m (before ++ [element]) linked
          (by simp [split]) fewer
        refine ⟨next, ?_, kept.1, ?_⟩
        · simpa [dropped] using result
        · simpa [dropped] using kept.2
      | true =>
        have others : (m.removeElement keyOf element.1).order.elements = before ++ rest := by
          rw [LinkedMap.removeElement, LinkedList.value_of_mem member]
          exact LinkedList.remove_of_split split
        obtain ⟨next, result, kept⟩ := ih steps (removed + 1)
          (m.removeElement keyOf element.1) before (linked.removeElement member) others fewer
        refine ⟨next, ?_, kept.1, ?_⟩
        · rw [if_pos rfl, result, List.filter_cons, if_pos dropped, List.length_cons,
            Nat.add_assoc, Nat.add_comm 1]
        · simpa [dropped] using kept.2

theorem Linked.removeWalk (linked : m.Linked keyOf) (drop : V → Bool) :
    ∃ next, removeWalk keyOf drop m.order.elements.length m.order.front 0 m =
        some ((m.values.filter drop).length, next) ∧
      next.Linked keyOf ∧ next.values = m.values.filter fun value => !drop value := by
  obtain ⟨next, result, kept, elements⟩ := Linked.removeWalk_suffix drop
    m.order.elements.length 0 m [] linked rfl le_rfl
  refine ⟨next, ?_, kept, ?_⟩
  · rw [LinkedList.front, result, values, LinkedList.values, List.filter_map, List.length_map,
      Nat.zero_add]
    rfl
  · rw [values, LinkedList.values, elements, values, LinkedList.values, List.filter_map]
    rfl

/-! ## Removing while ranging over the map

The keys are visited in any order; a key is looked up when its turn comes. -/

def removeVisit (keyOf : V → K) (drop : V → Bool) (state : Nat × LinkedMap K V) (key : K) :
    Nat × LinkedMap K V :=
  match state.2.find key with
  | none => state
  | some (address, value) =>
    if drop value then (state.1 + 1, state.2.removeElement keyOf address) else state

def removeVisits (keyOf : V → K) (drop : V → Bool) (order : MapOrder K) (m : LinkedMap K V) :
    Nat × LinkedMap K V :=
  (order.visit m.entries.keys).foldl (removeVisit keyOf drop) (0, m)

/-- Visits take out the values they should whose keys have been visited, and
count them. -/
theorem Linked.removeVisit_keys (drop : V → Bool) (keys : List K) :
    ∀ (removed : Nat) (m : LinkedMap K V), m.Linked keyOf →
      (keys.foldl (removeVisit keyOf drop) (removed, m)).2.Linked keyOf ∧
        (keys.foldl (removeVisit keyOf drop) (removed, m)).2.values =
          m.values.filter (fun value => !(drop value && decide (keyOf value ∈ keys))) ∧
        (keys.foldl (removeVisit keyOf drop) (removed, m)).1 +
          (keys.foldl (removeVisit keyOf drop) (removed, m)).2.values.length =
            removed + m.values.length := by
  induction keys with
  | nil =>
    intro removed m linked
    simp [linked]
  | cons key rest ih =>
    intro removed m linked
    rw [List.foldl_cons]
    cases found : m.find key with
    | none =>
      have absent := linked.find_eq_none_iff.mp found
      have same : removeVisit keyOf drop (removed, m) key = (removed, m) := by
        simp [removeVisit, found]
      rw [same]
      obtain ⟨kept, left, count⟩ := ih removed m linked
      refine ⟨kept, ?_, count⟩
      rw [left]
      refine List.filter_congr fun value member => ?_
      simp [absent value member]
    | some element =>
      obtain ⟨member, own⟩ := linked.find_mem found
      have only : ∀ value ∈ m.values, keyOf value = key → value = element.2 := by
        intro value inside same
        exact linked.eq_of_key inside (List.mem_map_of_mem member) (same.trans own.symm)
      cases dropped : drop element.2 with
      | false =>
        have same : removeVisit keyOf drop (removed, m) key = (removed, m) := by
          simp [removeVisit, found, dropped]
        rw [same]
        obtain ⟨kept, left, count⟩ := ih removed m linked
        refine ⟨kept, ?_, count⟩
        rw [left]
        refine List.filter_congr fun value inside => ?_
        by_cases same : keyOf value = key
        · simp [only value inside same, dropped]
        · simp [same]
      | true =>
        have gone : removeVisit keyOf drop (removed, m) key =
            (removed + 1, m.removeElement keyOf element.1) := by
          simp [removeVisit, found, dropped]
        rw [gone]
        obtain ⟨kept, left, count⟩ := ih (removed + 1) (m.removeElement keyOf element.1)
          (linked.removeElement member)
        have length := removeElement_length keyOf member
        refine ⟨kept, ?_, by omega⟩
        rw [left, linked.removeElement_values member, own, List.filter_filter]
        refine List.filter_congr fun value inside => ?_
        by_cases same : keyOf value = key
        · simp [only value inside same, own, dropped]
        · simp [same]

/-- Ranging over the whole map removes and counts what it should, in whatever
order the keys are visited. -/
theorem Linked.removeVisits (linked : m.Linked keyOf) (drop : V → Bool) (order : MapOrder K) :
    (removeVisits keyOf drop order m).1 = (m.values.filter drop).length ∧
      (removeVisits keyOf drop order m).2.Linked keyOf ∧
      (removeVisits keyOf drop order m).2.values = m.values.filter fun value => !drop value := by
  have visited : ∀ value ∈ m.values, keyOf value ∈ order.visit m.entries.keys := by
    intro value member
    rw [(order.perm m.entries.keys).mem_iff, linked.keys_perm.mem_iff]
    exact List.mem_map_of_mem member
  obtain ⟨kept, left, count⟩ := Linked.removeVisit_keys drop (order.visit m.entries.keys) 0 m linked
  have values : (LinkedMap.removeVisits keyOf drop order m).2.values =
      m.values.filter fun value => !drop value := by
    refine left.trans (List.filter_congr fun value member => ?_)
    simp [visited value member]
  refine ⟨?_, kept, values⟩
  have parts := List.length_eq_length_filter_add (l := m.values) drop
  have total : (LinkedMap.removeVisits keyOf drop order m).1 +
      (LinkedMap.removeVisits keyOf drop order m).2.values.length = 0 + m.values.length := count
  rw [values] at total
  omega

end LinkedMap

end Libknock.Foundation
