import Mathlib.Data.Finmap
import Mathlib.Tactic

/-!
# Tables of ordered chains of rules

A packet-filter table is a finite map from chain names to ordered lists of
rules.  A rule may jump to a chain, and a table holds no jump to a chain that it
does not hold.  The commands fail without effect; the first rule that matches
decides.
-/

set_option autoImplicit false

namespace Libknock.Foundation

/-- What a table knows of its rules: the chain a rule jumps to, if it jumps to
one, and the chains that are always there. -/
structure FilterShape (Name Rule : Type) where
  jump : Rule → Option Name
  builtin : Name → Bool

@[ext]
structure FilterTable {Name Rule : Type} [DecidableEq Name] (shape : FilterShape Name Rule) where
  chains : Finmap fun _ : Name => List Rule
  present : ∀ name, shape.builtin name = true → name ∈ chains
  closed : ∀ name rules, chains.lookup name = some rules → ∀ rule ∈ rules,
    ∀ target, shape.jump rule = some target → target ∈ chains

inductive FilterCommand (Name Rule : Type) where
  | newChain (name : Name)
  | flush (name : Name)
  | deleteChain (name : Name)
  | check (name : Name) (rule : Rule)
  | insert (name : Name) (rule : Rule)
  | append (name : Name) (rule : Rule)
  | delete (name : Name) (rule : Rule)
  deriving DecidableEq

inductive FilterFailure where
  | chainExists
  | missingChain
  | missingTarget
  | missingRule
  | builtinChain
  | notEmpty
  | referenced
  deriving DecidableEq

namespace FilterTable

variable {Name Rule : Type} [DecidableEq Name] {shape : FilterShape Name Rule}

def rules (table : FilterTable shape) (name : Name) : Option (List Rule) := table.chains.lookup name

theorem ext_rules {left right : FilterTable shape} (same : left.rules = right.rules) :
    left = right :=
  FilterTable.ext (Finmap.ext_lookup fun name => congrFun same name)

variable (table : FilterTable shape)

theorem mem_chains_iff (name : Name) :
    name ∈ table.chains ↔ ∃ held, table.rules name = some held := Finmap.mem_iff

/-- A rule may be added: it jumps nowhere, or to a chain of the table. -/
def Known (table : FilterTable shape) (rule : Rule) : Prop :=
  ∀ target, shape.jump rule = some target → target ∈ table.chains

instance (table : FilterTable shape) (rule : Rule) : Decidable (table.Known rule) :=
  match jumps : shape.jump rule with
  | none => isTrue fun target found => by
      rw [jumps] at found
      cases found
  | some target => decidable_of_iff (target ∈ table.chains)
      ⟨fun member other found => by
        rw [jumps] at found
        cases found
        exact member, fun known => known target jumps⟩

def Referenced (table : FilterTable shape) (name : Name) : Prop :=
  ∃ other ∈ table.chains.keys, ∃ held ∈ table.chains.lookup other, ∃ rule ∈ held,
    shape.jump rule = some name

instance (table : FilterTable shape) (name : Name) : Decidable (table.Referenced name) :=
  inferInstanceAs (Decidable (∃ other ∈ table.chains.keys, ∃ held ∈ table.chains.lookup other,
    ∃ rule ∈ held, shape.jump rule = some name))

theorem referenced_iff (name : Name) :
    table.Referenced name ↔
      ∃ other held, table.rules other = some held ∧ ∃ rule ∈ held, shape.jump rule = some name := by
  constructor
  · rintro ⟨other, _, held, found, jumping⟩
    exact ⟨other, held, found, jumping⟩
  · rintro ⟨other, held, found, jumping⟩
    exact ⟨other, Finmap.mem_keys.mpr (Finmap.mem_of_lookup_eq_some found), held, found, jumping⟩

/-- A chain with the given rules, new or in place of what its name had. -/
def put (table : FilterTable shape) (name : Name) (held : List Rule)
    (known : ∀ rule ∈ held, table.Known rule) : FilterTable shape where
  chains := table.chains.insert name held
  present := fun other builtin => Finmap.mem_insert.mpr (Or.inr (table.present other builtin))
  closed := by
    intro other found lookup rule member target jumps
    apply Finmap.mem_insert.mpr
    right
    by_cases same : other = name
    · subst same
      rw [Finmap.lookup_insert] at lookup
      cases lookup
      exact known rule member target jumps
    · rw [Finmap.lookup_insert_of_ne _ same] at lookup
      exact table.closed other found lookup rule member target jumps

theorem put_rules (name : Name) (held : List Rule) (known : ∀ rule ∈ held, table.Known rule) :
    (table.put name held known).rules = Function.update table.rules name (some held) := by
  funext other
  by_cases same : other = name
  · subst same
    rw [Function.update_self]
    exact Finmap.lookup_insert _
  · rw [Function.update_of_ne same]
    exact Finmap.lookup_insert_of_ne _ same

/-- The table without a chain that nothing jumps to. -/
def remove (table : FilterTable shape) (name : Name) (added : shape.builtin name = false)
    (free : ¬ table.Referenced name) : FilterTable shape where
  chains := table.chains.erase name
  present := by
    intro other builtin
    refine Finmap.mem_erase.mpr ⟨?_, table.present other builtin⟩
    rintro rfl
    rw [builtin] at added
    cases added
  closed := by
    intro other found lookup rule member target jumps
    have different : other ≠ name := by
      rintro rfl
      rw [Finmap.lookup_erase] at lookup
      cases lookup
    rw [Finmap.lookup_erase_ne different] at lookup
    refine Finmap.mem_erase.mpr ⟨?_, table.closed other found lookup rule member target jumps⟩
    rintro rfl
    exact free ((table.referenced_iff target).mpr ⟨other, found, lookup, rule, member, jumps⟩)

theorem remove_rules (name : Name)
    (added : shape.builtin name = false) (free : ¬ table.Referenced name) :
    (table.remove name added free).rules = Function.update table.rules name none := by
  funext other
  by_cases same : other = name
  · subst same
    rw [Function.update_self]
    exact Finmap.lookup_erase _ _
  · rw [Function.update_of_ne same]
    exact Finmap.lookup_erase_ne same

variable {name : Name} {held : List Rule}

theorem known_of_rules (found : table.rules name = some held) : ∀ rule ∈ held, table.Known rule :=
  fun rule member target jumps => table.closed name held found rule member target jumps

/-- Changes the rules of a chain that is there, where the rule it is about may
be named; nothing else is added. -/
def edit (table : FilterTable shape) (name : Name) (rule : Rule)
    (change : List Rule → Except FilterFailure (List Rule))
    (kept : ∀ held after, change held = .ok after → ∀ other ∈ after, other = rule ∨ other ∈ held) :
    Except FilterFailure (FilterTable shape) :=
  if known : table.Known rule then
    match found : table.rules name with
    | none => .error .missingChain
    | some held =>
      match changed : change held with
      | .error failure => .error failure
      | .ok after => .ok (table.put name after fun other member => by
          rcases kept held after changed other member with same | old
          · rw [same]
            exact known
          · exact table.known_of_rules found other old)
  else .error .missingTarget

def insertRule (rule : Rule) (held : List Rule) : Except FilterFailure (List Rule) :=
  .ok (rule :: held)

def appendRule (rule : Rule) (held : List Rule) : Except FilterFailure (List Rule) :=
  .ok (held ++ [rule])

def deleteRule [DecidableEq Rule] (rule : Rule) (held : List Rule) :
    Except FilterFailure (List Rule) :=
  if rule ∈ held then .ok (held.erase rule) else .error .missingRule

theorem insertRule_kept (rule : Rule) (held after : List Rule)
    (changed : insertRule rule held = .ok after) : ∀ other ∈ after, other = rule ∨ other ∈ held := by
  cases changed
  simp

theorem appendRule_kept (rule : Rule) (held after : List Rule)
    (changed : appendRule rule held = .ok after) : ∀ other ∈ after, other = rule ∨ other ∈ held := by
  cases changed
  intro other member
  simpa [or_comm] using member

theorem deleteRule_kept [DecidableEq Rule] (rule : Rule) (held after : List Rule)
    (changed : deleteRule rule held = .ok after) : ∀ other ∈ after, other = rule ∨ other ∈ held := by
  unfold deleteRule at changed
  split at changed
  · cases changed
    exact fun other member => Or.inr (List.mem_of_mem_erase member)
  · cases changed

def apply [DecidableEq Rule] (table : FilterTable shape) : FilterCommand Name Rule →
    Except FilterFailure (FilterTable shape)
  | .newChain name =>
    if name ∈ table.chains then .error .chainExists
    else .ok (table.put name [] fun _ member => absurd member List.not_mem_nil)
  | .flush name =>
    if name ∈ table.chains then
      .ok (table.put name [] fun _ member => absurd member List.not_mem_nil)
    else .error .missingChain
  | .deleteChain name =>
    match table.rules name with
    | none => .error .missingChain
    | some held =>
      if added : shape.builtin name = false then
        if held ≠ [] then .error .notEmpty
        else if free : ¬ table.Referenced name then .ok (table.remove name added free)
        else .error .referenced
      else .error .builtinChain
  | .check name rule =>
    if table.Known rule then
      match table.rules name with
      | none => .error .missingChain
      | some held => if rule ∈ held then .ok table else .error .missingRule
    else .error .missingTarget
  | .insert name rule => table.edit name rule (insertRule rule) (insertRule_kept rule)
  | .append name rule => table.edit name rule (appendRule rule) (appendRule_kept rule)
  | .delete name rule => table.edit name rule (deleteRule rule) (deleteRule_kept rule)

/-! ## What the commands do -/

variable {table} [DecidableEq Rule]

theorem apply_newChain (absent : table.rules name = none) :
    ∃ after, table.apply (.newChain name) = .ok after ∧
      after.rules = Function.update table.rules name (some []) := by
  refine ⟨_, if_neg (Finmap.lookup_eq_none.mp absent), table.put_rules name [] _⟩

theorem apply_newChain_exists (found : table.rules name = some held) :
    table.apply (.newChain name) = .error .chainExists :=
  if_pos (Finmap.mem_of_lookup_eq_some found)

theorem apply_flush (found : table.rules name = some held) :
    ∃ after, table.apply (.flush name) = .ok after ∧
      after.rules = Function.update table.rules name (some []) := by
  refine ⟨_, if_pos (Finmap.mem_of_lookup_eq_some found), table.put_rules name [] _⟩

theorem apply_flush_missing (absent : table.rules name = none) :
    table.apply (.flush name) = .error .missingChain :=
  if_neg (Finmap.lookup_eq_none.mp absent)

theorem apply_deleteChain (found : table.rules name = some [])
    (added : shape.builtin name = false) (free : ¬ table.Referenced name) :
    ∃ after, table.apply (.deleteChain name) = .ok after ∧
      after.rules = Function.update table.rules name none := by
  refine ⟨table.remove name added free, ?_, table.remove_rules name added free⟩
  simp only [apply, found, added, free, not_false_eq_true, dite_true, ne_eq, not_true, if_false]

theorem apply_deleteChain_missing (absent : table.rules name = none) :
    table.apply (.deleteChain name) = .error .missingChain := by
  simp only [apply, absent]

theorem apply_missingTarget (name : Name) (rule : Rule) (unknown : ¬ table.Known rule) :
    table.apply (.check name rule) = .error .missingTarget ∧
      table.apply (.insert name rule) = .error .missingTarget ∧
      table.apply (.append name rule) = .error .missingTarget ∧
      table.apply (.delete name rule) = .error .missingTarget :=
  ⟨if_neg unknown, dif_neg unknown, dif_neg unknown, dif_neg unknown⟩

section Present

variable {rule : Rule} (known : table.Known rule) (found : table.rules name = some held)

include known found

omit [DecidableEq Rule] in
theorem edit_found (change : List Rule → Except FilterFailure (List Rule))
    (kept : ∀ held after, change held = .ok after → ∀ other ∈ after, other = rule ∨ other ∈ held) :
    (∀ changed, change held = .ok changed → ∃ after, table.edit name rule change kept = .ok after ∧
        after.rules = Function.update table.rules name (some changed)) ∧
      ∀ failure, change held = .error failure →
        table.edit name rule change kept = .error failure := by
  unfold edit
  rw [dif_pos known]
  split
  · rename_i absent
    rw [found] at absent
    cases absent
  · rename_i other same
    rw [found] at same
    cases same
    split
    · rename_i failure failed
      simp [failed]
    · rename_i after changed
      constructor
      · intro last same
        rw [changed] at same
        cases same
        exact ⟨_, rfl, table.put_rules name _ _⟩
      · intro failure failed
        rw [changed] at failed
        cases failed

theorem apply_check (member : rule ∈ held) : table.apply (.check name rule) = .ok table := by
  simp only [apply, known, found, member, if_true]

theorem apply_check_missing (absent : rule ∉ held) :
    table.apply (.check name rule) = .error .missingRule := by
  simp only [apply, known, found, absent, if_true, if_false]

theorem apply_insert :
    ∃ after, table.apply (.insert name rule) = .ok after ∧
      after.rules = Function.update table.rules name (some (rule :: held)) :=
  (edit_found known found (insertRule rule) (insertRule_kept rule)).1 _ rfl

theorem apply_append :
    ∃ after, table.apply (.append name rule) = .ok after ∧
      after.rules = Function.update table.rules name (some (held ++ [rule])) :=
  (edit_found known found (appendRule rule) (appendRule_kept rule)).1 _ rfl

theorem apply_delete (member : rule ∈ held) :
    ∃ after, table.apply (.delete name rule) = .ok after ∧
      after.rules = Function.update table.rules name (some (held.erase rule)) :=
  (edit_found known found (deleteRule rule) (deleteRule_kept rule)).1 _ (if_pos member)

theorem apply_delete_missing (absent : rule ∉ held) :
    table.apply (.delete name rule) = .error .missingRule :=
  (edit_found known found (deleteRule rule) (deleteRule_kept rule)).2 _ (if_neg absent)

end Present

theorem apply_delete_inv {after : FilterTable shape} {rule : Rule}
    (deleted : table.apply (.delete name rule) = .ok after) :
    ∃ held, table.rules name = some held ∧ rule ∈ held ∧
      after.rules = Function.update table.rules name (some (held.erase rule)) := by
  by_cases known : table.Known rule
  · cases found : table.rules name with
    | none =>
      simp only [apply, edit, dif_pos known] at deleted
      split at deleted
      · cases deleted
      rename_i present
      rw [found] at present
      cases present
    | some held =>
      by_cases member : rule ∈ held
      · obtain ⟨result, applied, rules⟩ := apply_delete known found member
        rw [deleted] at applied
        cases applied
        exact ⟨held, rfl, member, rules⟩
      · rw [apply_delete_missing known found member] at deleted
        cases deleted
  · rw [(apply_missingTarget name rule known).2.2.2] at deleted
    cases deleted

end FilterTable

end Libknock.Foundation
