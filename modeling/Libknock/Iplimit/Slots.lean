import Libknock.Iplimit.Limiter
import Libknock.Netx.Limiter

/-!
# Slots held and counters

The counter of a source against the calls of `Acquire` that hold one of its slots,
over every interleaving.  A slot is taken where the counter goes up and given back
where it goes down; both happen under the mutex, so what a call reads there is
still so when it acts on it.
-/

set_option autoImplicit false

namespace Libknock.Iplimit

open Foundation

/-- The counter has gone up for this call. -/
def AcquirePhase.taken : AcquirePhase → Bool
  | .counted => true
  | .succeeded => true
  | _ => false

/-- The counter has not gone down for it again. -/
def OncePhase.kept : OncePhase → Bool
  | .removed => false
  | .unlocked => false
  | .done => false
  | _ => true

def AcquireCall.holds (key : Bytes) (call : AcquireCall) : Bool :=
  call.phase.taken && call.once.kept && decide (call.source = some key)

def System.heldCount (key : Bytes) (s : System) : Nat := s.acquires.countP (AcquireCall.holds key)

/-! ## Under the mutex -/

def AcquirePhase.inside : AcquirePhase → Bool
  | .locked => true
  | .full => true
  | .room => true
  | .counted => true
  | _ => false

def OncePhase.inside : OncePhase → Bool
  | .locked => true
  | .last => true
  | .several => true
  | .removed => true
  | _ => false

/-- Who is between taking and giving back the mutex holds it, and what was read
there is still so. -/
structure Coherent (limiter : Option Limiter) (holder : Option Party) (index : Nat)
    (call : AcquireCall) : Prop where
  acquiring : call.phase.inside = true → holder = some (.acquire index)
  releasing : call.once.inside = true → holder = some (.once index)
  room : call.phase = .room → ∀ l key, limiter = some l → call.source = some key →
    counterAt l.n key < l.max
  last : call.once = .last → ∀ l key, limiter = some l → call.source = some key →
    counterAt l.n key ≤ 1
  several : call.once = .several → ∀ l key, limiter = some l → call.source = some key →
    1 < counterAt l.n key
  late : call.once ≠ .fresh → call.phase = .succeeded

variable {limiter after : Option Limiter} {holder later : Option Party} {index : Nat}
  {call next : AcquireCall}

namespace Coherent

theorem of_fresh (fresh : call.once = .fresh)
    (acquiring : call.phase.inside = true → holder = some (.acquire index))
    (room : call.phase = .room → ∀ l key, limiter = some l → call.source = some key →
      counterAt l.n key < l.max) :
    Coherent limiter holder index call where
  acquiring := acquiring
  releasing := by
    rw [fresh]
    exact nofun
  room := room
  last := by
    rw [fresh]
    exact nofun
  several := by
    rw [fresh]
    exact nofun
  late := fun begun => absurd fresh begun

theorem of_succeeded (succeeded : call.phase = .succeeded)
    (releasing : call.once.inside = true → holder = some (.once index))
    (last : call.once = .last → ∀ l key, limiter = some l → call.source = some key →
      counterAt l.n key ≤ 1)
    (several : call.once = .several → ∀ l key, limiter = some l → call.source = some key →
      1 < counterAt l.n key) :
    Coherent limiter holder index call where
  acquiring := by
    rw [succeeded]
    exact nofun
  releasing := releasing
  room := by
    rw [succeeded]
    exact nofun
  last := last
  several := several
  late := fun _ => succeeded

variable (facts : Coherent limiter holder index call)

include facts

theorem fresh {phase : AcquirePhase} (standing : call.phase = phase) (early : phase ≠ .succeeded) :
    call.once = .fresh := by
  by_contra begun
  exact early (standing.symm.trans (facts.late begun))

theorem succeeded {once : OncePhase} (standing : call.once = once) (begun : once ≠ .fresh) :
    call.phase = .succeeded :=
  facts.late fun same => begun (standing.symm.trans same)

theorem frame
    (same : call.phase.inside = true ∨ call.once.inside = true → after = limiter ∧ later = holder) :
    Coherent after later index call where
  acquiring := fun inside => (same (Or.inl inside)).2.trans (facts.acquiring inside)
  releasing := fun inside => (same (Or.inr inside)).2.trans (facts.releasing inside)
  room := fun room l key => by
    rw [(same (Or.inl (by rw [room]; rfl))).1]
    exact facts.room room l key
  last := fun last l key => by
    rw [(same (Or.inr (by rw [last]; rfl))).1]
    exact facts.last last l key
  several := fun several l key => by
    rw [(same (Or.inr (by rw [several]; rfl))).1]
    exact facts.several several l key
  late := facts.late

end Coherent

theorem known_of {l : Limiter} {key : Bytes} {fact : Limiter → Bytes → Prop}
    (pointer : limiter = some l) (source : call.source = some key) (seen : fact l key) :
    ∀ other member, limiter = some other → call.source = some member → fact other member := by
  intro other member samePointer sameSource
  cases pointer.symm.trans samePointer
  cases source.symm.trans sameSource
  exact seen

namespace CallMoves

variable (moves : CallMoves limiter holder index call next after later)

include moves in
theorem source_eq : next.source = call.source := by
  cases moves <;> rfl

variable (facts : Coherent limiter holder index call)

include moves facts

theorem coherent : Coherent after later index next := by
  cases moves with
  | passes standing | fails standing | succeeds standing =>
    exact .of_fresh (facts.fresh standing nofun) nofun nofun
  | locks called => exact .of_fresh (facts.fresh called nofun) (fun _ => rfl) nofun
  | refuses standing | counts standing =>
    have held := facts.acquiring (by rw [standing]; rfl)
    exact .of_fresh (facts.fresh standing nofun) (fun _ => held) nofun
  | admits checking pointer source room =>
    have held := facts.acquiring (by rw [checking]; rfl)
    exact .of_fresh (facts.fresh checking nofun) (fun _ => held)
      fun _ => known_of pointer source room
  | enters succeeded => exact .of_succeeded succeeded nofun nofun nofun
  | onceLocks entered =>
    exact .of_succeeded (facts.succeeded entered nofun) (fun _ => rfl) nofun nofun
  | findsLast checking pointer source single =>
    have held := facts.releasing (by rw [checking]; rfl)
    exact .of_succeeded (facts.succeeded checking nofun) (fun _ => held)
      (fun _ => known_of pointer source single) nofun
  | findsSeveral checking pointer source several =>
    have held := facts.releasing (by rw [checking]; rfl)
    exact .of_succeeded (facts.succeeded checking nofun) (fun _ => held) nofun
      fun _ => known_of pointer source several
  | deletes standing | decrements standing =>
    have held := facts.releasing (by rw [standing]; rfl)
    exact .of_succeeded (facts.succeeded standing nofun) (fun _ => held) nofun nofun
  | unlocks standing | finishes standing =>
    exact .of_succeeded (facts.succeeded standing nofun) nofun nofun nofun

/-- The limiter and the mutex are changed by who holds the mutex, or who takes it
when it is free. -/
theorem exclusive :
    (after = limiter ∧ later = holder) ∨ holder = none ∨ holder = some (.acquire index) ∨
      holder = some (.once index) := by
  cases moves with
  | passes | refuses | admits | enters | findsLast | findsSeveral | finishes =>
    exact Or.inl ⟨rfl, rfl⟩
  | locks called pointer source free => exact Or.inr (Or.inl free)
  | onceLocks entered free => exact Or.inr (Or.inl free)
  | fails standing | counts standing | succeeds standing =>
    exact Or.inr (Or.inr (Or.inl (facts.acquiring (by rw [standing]; rfl))))
  | deletes standing | decrements standing | unlocks standing =>
    exact Or.inr (Or.inr (Or.inr (facts.releasing (by rw [standing]; rfl))))

theorem bystander {position : Nat} {other : AcquireCall} (apart : index ≠ position)
    (known : Coherent limiter holder position other) :
    Coherent after later position other := by
  apply known.frame
  intro inside
  have held : holder = some (.acquire position) ∨ holder = some (.once position) :=
    inside.imp known.acquiring known.releasing
  rcases moves.exclusive facts with same | free | mine | mine
  · exact same
  · rw [free] at held
    rcases held with held | held <;> cases held
  · rw [mine] at held
    rcases held with held | held <;> cases held
    exact absurd rfl apart
  · rw [mine] at held
    rcases held with held | held <;> cases held
    exact absurd rfl apart

end CallMoves

/-! ## What a step does to the slots -/

/-- A step leaves the slots as they are, or takes one slot of a source below its
bound, or gives one back. -/
inductive Effect (limiter : Option Limiter) (call next : AcquireCall) : Option Limiter → Prop
  | quiet : (∀ key, next.holds key = call.holds key) → Effect limiter call next limiter
  | takes {l : Limiter} {key : Bytes} : limiter = some l → counterAt l.n key < l.max →
      (∀ other, call.holds other = false) → (∀ other, next.holds other = decide (key = other)) →
      Effect limiter call next (some { l with n := l.n.insert key (counterAt l.n key + 1) })
  | givesLast {l : Limiter} {key : Bytes} : limiter = some l → counterAt l.n key ≤ 1 →
      (∀ other, call.holds other = decide (key = other)) → (∀ other, next.holds other = false) →
      Effect limiter call next (some { l with n := l.n.erase key })
  | gives {l : Limiter} {key : Bytes} : limiter = some l → 1 < counterAt l.n key →
      (∀ other, call.holds other = decide (key = other)) → (∀ other, next.holds other = false) →
      Effect limiter call next (some { l with n := l.n.insert key (counterAt l.n key - 1) })

namespace CallMoves

theorem holds_of_succeeded {key : Bytes} (source : call.source = some key)
    (succeeded : call.phase = .succeeded) (kept : call.once.kept = true) (other : Bytes) :
    call.holds other = decide (key = other) := by
  simp [AcquireCall.holds, source, succeeded, kept, AcquirePhase.taken]

theorem effect (moves : CallMoves limiter holder index call next after later)
    (facts : Coherent limiter holder index call) : Effect limiter call next after := by
  cases moves with
  | passes standing | locks standing | refuses standing | admits standing | fails standing
  | succeeds standing =>
    exact .quiet fun key => by simp [AcquireCall.holds, standing, AcquirePhase.taken]
  | counts room pointer source =>
    have fresh := facts.fresh room nofun
    refine .takes pointer (facts.room room _ _ pointer source) ?_ ?_
    · intro other
      simp [AcquireCall.holds, room, AcquirePhase.taken]
    · intro other
      simp [AcquireCall.holds, source, fresh, AcquirePhase.taken, OncePhase.kept]
  | enters succeeded fresh =>
    exact .quiet fun key => by simp [AcquireCall.holds, fresh, OncePhase.kept]
  | onceLocks standing | findsLast standing | findsSeveral standing | unlocks standing
  | finishes standing =>
    exact .quiet fun key => by simp [AcquireCall.holds, standing, OncePhase.kept]
  | deletes last pointer source =>
    refine .givesLast pointer (facts.last last _ _ pointer source) ?_ ?_
    · exact holds_of_succeeded source (facts.succeeded last nofun) (by rw [last]; rfl)
    · intro other
      simp [AcquireCall.holds, OncePhase.kept]
  | decrements several pointer source =>
    refine .gives pointer (facts.several several _ _ pointer source) ?_ ?_
    · exact holds_of_succeeded source (facts.succeeded several nofun) (by rw [several]; rfl)
    · intro other
      simp [AcquireCall.holds, OncePhase.kept]

end CallMoves

namespace Effect

theorem max_eq (effect : Effect limiter call next after) :
    after.map Limiter.max = limiter.map Limiter.max := by
  cases effect with
  | quiet => rfl
  | takes pointer | givesLast pointer | gives pointer =>
    rw [pointer]
    rfl

theorem within (effect : Effect limiter call next after)
    (bounds : ∀ l, limiter = some l → CountersWithin l.n l.max) :
    ∀ l, after = some l → CountersWithin l.n l.max := by
  intro l pointed
  cases effect with
  | quiet => exact bounds l pointed
  | @takes l key pointer | @gives l key pointer =>
    cases pointed
    have counter := (bounds l pointer).counterAt_cases key
    exact (bounds l pointer).insert key (by omega) (by omega)
  | @givesLast l key pointer =>
    cases pointed
    exact (bounds l pointer).erase key

theorem counters_update {calls : List AcquireCall} {key : Bytes} {counter : Bytes → Int}
    {value : Int} (found : calls[index]? = some call)
    (exact_ : ∀ other, counter other = calls.countP (AcquireCall.holds other))
    (others : ∀ other, key ≠ other → next.holds other = call.holds other)
    (own : value = (calls.set index next).countP (AcquireCall.holds key)) (other : Bytes) :
    Function.update counter key value other =
      (calls.set index next).countP (AcquireCall.holds other) := by
  rw [Function.update_apply]
  split
  · rename_i same
    rw [own, same]
  · rename_i apart
    have change := countP_set_add (AcquireCall.holds other) next found
    rw [others other (Ne.symm apart)] at change
    rw [exact_ other]
    omega

theorem counters (effect : Effect limiter call next after) {calls : List AcquireCall}
    (found : calls[index]? = some call)
    (exact_ : ∀ l, limiter = some l → ∀ key,
      counterAt l.n key = calls.countP (AcquireCall.holds key)) :
    ∀ l, after = some l → ∀ key,
      counterAt l.n key = (calls.set index next).countP (AcquireCall.holds key) := by
  intro l pointed
  have change := fun key => countP_set_add (AcquireCall.holds key) next found
  cases effect with
  | quiet same =>
    intro key
    have unchanged := change key
    rw [same] at unchanged
    rw [exact_ l pointed key]
    omega
  | @takes l key pointer room before own =>
    cases pointed
    have counted := change key
    simp only [before, own, decide_true, if_true, Bool.false_eq_true, if_false] at counted
    rw [counterAt_insert]
    refine counters_update found (exact_ l pointer) ?_ ?_
    · intro other apart
      rw [before, own, decide_eq_false apart]
    · rw [exact_ l pointer]
      omega
  | @givesLast l key pointer single own later =>
    cases pointed
    have counted := change key
    simp only [later, own, decide_true, if_true, Bool.false_eq_true, if_false] at counted
    rw [exact_ l pointer] at single
    rw [counterAt_erase]
    refine counters_update found (exact_ l pointer) ?_ (by omega)
    intro other apart
    rw [later, own, decide_eq_false apart]
  | @gives l key pointer several own later =>
    cases pointed
    have counted := change key
    simp only [later, own, decide_true, if_true, Bool.false_eq_true, if_false] at counted
    rw [counterAt_insert]
    refine counters_update found (exact_ l pointer) ?_ ?_
    · intro other apart
      rw [later, own, decide_eq_false apart]
    · rw [exact_ l pointer]
      omega

end Effect

/-! ## Over whole runs -/

structure Counted (max : Int) (limiter : Option Limiter) (holder : Option Party)
    (calls : List AcquireCall) : Prop where
  coherent : ∀ index call, calls[index]? = some call → Coherent limiter holder index call
  pointer : limiter.map Limiter.max = (new max).map Limiter.max
  counters : ∀ l, limiter = some l → ∀ key,
    counterAt l.n key = calls.countP (AcquireCall.holds key)
  within : ∀ l, limiter = some l → CountersWithin l.n l.max

namespace CallMoves

theorem stays (moves : CallMoves limiter holder index call next after later)
    (returned : call.Returned) : next.Returned ∧ (call.once = .done → next.once = .done) ∧
      (call.phase = .unlimited → next.phase = .unlimited) := by
  unfold AcquireCall.Returned at returned ⊢
  cases moves <;> simp_all

end CallMoves

namespace Counted

variable {max : Int} {calls : List AcquireCall}

theorem start (max : Int) : Counted max (new max) none [] where
  coherent := nofun
  pointer := rfl
  counters := by
    intro l pointed key
    unfold new at pointed
    split at pointed
    · cases pointed
    cases pointed
    rfl
  within := by
    intro l pointed
    unfold new at pointed
    split at pointed
    · cases pointed
    cases pointed
    exact .empty max

theorem begin (counted : Counted max limiter holder calls) (source : Option Bytes) :
    Counted max limiter holder (calls ++ [⟨source, .called, .fresh⟩]) where
  coherent := by
    intro position found read
    rcases getElem?_snoc_cases read with early | ⟨-, rfl⟩
    · exact counted.coherent position found early
    · exact .of_fresh rfl nofun nofun
  pointer := counted.pointer
  counters := by
    intro l pointed key
    rw [counted.counters l pointed, List.countP_append]
    rfl
  within := counted.within

theorem move (counted : Counted max limiter holder calls) (found : calls[index]? = some call)
    (moves : CallMoves limiter holder index call next after later) :
    Counted max after later (calls.set index next) := by
  have facts := counted.coherent index call found
  have effect := moves.effect facts
  constructor
  · intro position other read
    rcases getElem?_set_cases found read with ⟨rfl, rfl⟩ | ⟨apart, early⟩
    · exact moves.coherent facts
    · exact moves.bystander facts apart (counted.coherent position other early)
  · exact effect.max_eq.trans counted.pointer
  · exact effect.counters found counted.counters
  · exact effect.within counted.within

end Counted

namespace System

def Begun (s : System) : Prop :=
  ∀ index call, s.acquires[index]? = some call → call.once ≠ .fresh →
    index ∈ s.releases.map ReleaseCall.slot

structure Consistent (max : Int) (s : System) : Prop where
  linked : s.Linked
  begun : s.Begun
  counted : Counted max s.limiter s.holder s.acquires

theorem slots_set {releases : List ReleaseCall} {index : Nat} {release : ReleaseCall}
    (made : releases[index]? = some release) (phase : ReleasePhase) :
    (releases.set index { release with phase := phase }).map ReleaseCall.slot =
      releases.map ReleaseCall.slot := by
  rw [List.map_set]
  apply set_self
  rw [List.getElem?_map, made]
  rfl

theorem linked_set {calls : List AcquireCall} {slot : Nat} {linked : AcquireCall}
    (found : calls[index]? = some call)
    (moves : CallMoves limiter holder index call next after later)
    (there : calls[slot]? = some linked) (returned : linked.Returned) :
    ∃ kept, (calls.set index next)[slot]? = some kept ∧ kept.Returned ∧
      (linked.phase = .unlimited ∨ linked.once = .done →
        kept.phase = .unlimited ∨ kept.once = .done) := by
  by_cases same : index = slot
  · subst same
    cases found.symm.trans there
    obtain ⟨stays, done, unlimited⟩ := moves.stays returned
    exact ⟨next, getElem?_set_found next found, stays, Or.imp unlimited done⟩
  · refine ⟨linked, ?_, returned, id⟩
    rw [List.getElem?_set_ne same, there]

theorem Moves.linked {s after : System} {action : Action} (moves : s.Moves action after)
    (linked : s.Linked) : after.Linked := by
  cases moves with
  | begins addr =>
    intro release member
    obtain ⟨call, there, facts⟩ := linked release member
    exact ⟨call, getElem?_snoc_found _ there, facts⟩
  | works found step same =>
    intro release member
    obtain ⟨call, there, returned, ended⟩ := linked release member
    obtain ⟨kept, read, stays, keeps⟩ := linked_set found step there returned
    exact ⟨kept, read, stays, fun gone => keeps (ended gone)⟩
  | releases found returned =>
    intro release member
    rcases List.mem_append.mp member with early | new
    · exact linked release early
    · cases List.mem_singleton.mp new
      exact ⟨_, found, returned, nofun⟩
  | returns made found ended =>
    intro release member
    rcases List.mem_or_eq_of_mem_set member with early | rfl
    · exact linked release early
    · obtain ⟨call, there, returned, -⟩ := linked _ (List.mem_of_getElem? made)
      cases found.symm.trans there
      exact ⟨_, found, returned, fun _ => ended⟩
  | runs phase made found step same finished =>
    intro release member
    rcases List.mem_or_eq_of_mem_set member with early | rfl
    · obtain ⟨call, there, returned, ended⟩ := linked release early
      obtain ⟨kept, read, stays, keeps⟩ := linked_set found step there returned
      exact ⟨kept, read, stays, fun gone => keeps (ended gone)⟩
    · obtain ⟨call, there, returned, -⟩ := linked _ (List.mem_of_getElem? made)
      cases found.symm.trans there
      exact ⟨_, getElem?_set_found _ found, (step.stays returned).1,
        fun gone => Or.inr (finished gone)⟩

theorem Moves.begun {s after : System} {action : Action} (moves : s.Moves action after)
    (begun : s.Begun) : after.Begun := by
  cases moves with
  | begins addr =>
    intro position call read late
    rcases getElem?_snoc_cases read with early | ⟨-, rfl⟩
    · exact begun position call early late
    · exact absurd rfl late
  | works found step same =>
    intro position call read late
    rcases getElem?_set_cases found read with ⟨rfl, rfl⟩ | ⟨-, early⟩
    · rw [same] at late
      exact begun _ _ found late
    · exact begun position call early late
  | releases found returned =>
    intro position call read late
    rw [List.map_append]
    exact List.mem_append_left _ (begun position call read late)
  | returns made found ended =>
    intro position call read late
    have called := begun position call read late
    rwa [← slots_set made .returned] at called
  | runs phase made found step same finished =>
    intro position call read late
    rw [slots_set made]
    rcases getElem?_set_cases found read with ⟨rfl, rfl⟩ | ⟨-, early⟩
    · exact List.mem_map_of_mem (List.mem_of_getElem? made)
    · exact begun position call early late

theorem Moves.counted {s after : System} {action : Action} {max : Int}
    (moves : s.Moves action after) (counted : Counted max s.limiter s.holder s.acquires) :
    Counted max after.limiter after.holder after.acquires := by
  cases moves with
  | begins addr => exact counted.begin (key addr)
  | works found step same => exact counted.move found step
  | releases | returns => exact counted
  | runs phase made found step same finished => exact counted.move found step

theorem consistent_run (max : Int) :
    ∀ past s, Run (Steps step) (start max) past s → Consistent max s := by
  apply Run.invariant (fun _ s => Consistent max s)
  · exact ⟨nofun, nofun, .start max⟩
  · intro past before action after _ consistent stepped
    have moves := step_moves consistent.linked stepped
    exact ⟨moves.linked consistent.linked, moves.begun consistent.begun,
      moves.counted consistent.counted⟩

variable {max : Int} {s : System}

theorem Consistent.pointed (consistent : Consistent max s) (positive : 0 < max) :
    ∃ l, s.limiter = some l ∧ l.max = max := by
  have pointer := consistent.counted.pointer
  rw [new, if_neg (not_le.mpr positive)] at pointer
  exact Option.map_eq_some_iff.mp pointer

/-- The test of `Acquire` is whether all slots of the source are held. -/
theorem Consistent.full_iff (consistent : Consistent max s) (positive : 0 < max) {l : Limiter}
    (pointer : s.limiter = some l) (key : Bytes) :
    l.max ≤ counterAt l.n key ↔ (s.heldCount key : Int) = max := by
  obtain ⟨same, found, bound⟩ := consistent.pointed positive
  cases pointer.symm.trans found
  have counter := consistent.counted.counters l pointer key
  have range := (consistent.counted.within l pointer).counterAt_cases key
  rw [heldCount]
  omega

end System

/-! ## Which calls fail -/

def AcquirePhase.decided : AcquirePhase → Bool
  | .called => false
  | .unlimited => false
  | .locked => false
  | _ => true

def AcquirePhase.refused : AcquirePhase → Bool
  | .full => true
  | .failed => true
  | _ => false

namespace CallMoves

/-- A call decides once, when it looks at the counter. -/
theorem decision (moves : CallMoves limiter holder index call next after later)
    (decided : next.phase.decided = true) :
    (call.phase.decided = true ∧ next.phase.refused = call.phase.refused) ∨
      (call.phase = .locked ∧ ∃ l key, limiter = some l ∧ call.source = some key ∧
        (next.phase.refused = true ↔ l.max ≤ counterAt l.n key)) := by
  cases moves with
  | passes | locks => cases decided
  | @refuses l key checking pointer source full =>
    exact Or.inr ⟨checking, l, key, pointer, source, fun _ => full, fun _ => rfl⟩
  | @admits l key checking pointer source room =>
    exact Or.inr ⟨checking, l, key, pointer, source, nofun, fun full => absurd room (not_lt.mpr full)⟩
  | fails standing | counts standing | succeeds standing =>
    rw [standing]
    exact Or.inl ⟨rfl, rfl⟩
  | enters | onceLocks | findsLast | findsSeveral | deletes | decrements | unlocks | finishes =>
    exact Or.inl ⟨decided, rfl⟩

end CallMoves

namespace System

/-- The call looked at the counter in this run, under the mutex, and what it found
is whether all slots of the source were held at that moment. -/
def DecidedAt (max : Int) (past : List Action) (index : Nat) (key : Bytes) (refused : Bool) :
    Prop :=
  ∃ earlier since before call, past = earlier ++ .acquireStep index :: since ∧
    Run (Steps step) (start max) earlier before ∧ before.acquires[index]? = some call ∧
    call.source = some key ∧ call.phase = .locked ∧ before.holder = some (.acquire index) ∧
    (refused = true ↔ (before.heldCount key : Int) = max)

theorem DecidedAt.snoc {max : Int} {past : List Action} {index : Nat} {key : Bytes}
    {refused : Bool} (decided : DecidedAt max past index key refused) (action : Action) :
    DecidedAt max (past ++ [action]) index key refused := by
  obtain ⟨earlier, since, before, call, rfl, facts⟩ := decided
  exact ⟨earlier, since ++ [action], before, call, by simp, facts⟩

theorem decided_run {max : Int} (positive : 0 < max) :
    ∀ past s, Run (Steps step) (start max) past s → ∀ index call,
      s.acquires[index]? = some call → call.phase.decided = true →
      ∃ key, call.source = some key ∧ DecidedAt max past index key call.phase.refused := by
  intro past s run
  induction run with
  | nil => exact nofun
  | @snoc past before after action run stepped known =>
    intro position call read decided
    have consistent := consistent_run max past before run
    have unmoved : before.acquires[position]? = some call → ∃ key, call.source = some key ∧
        DecidedAt max (past ++ [action]) position key call.phase.refused := by
      intro early
      obtain ⟨key, source, at_⟩ := known position call early decided
      exact ⟨key, source, at_.snoc action⟩
    cases step_moves consistent.linked stepped with
    | begins addr =>
      rcases getElem?_snoc_cases read with early | ⟨-, rfl⟩
      · exact unmoved early
      · cases decided
    | @works index caller next limiter holder found moves same =>
      rcases getElem?_set_cases found read with ⟨rfl, rfl⟩ | ⟨-, early⟩
      · rw [moves.source_eq]
        rcases moves.decision decided with ⟨already, same⟩ | ⟨checking, l, key, pointer, source, test⟩
        · obtain ⟨key, source, at_⟩ := known index caller found already
          rw [same]
          exact ⟨key, source, at_.snoc _⟩
        · -- this step is the look at the counter
          have facts := consistent.counted.coherent index caller found
          refine ⟨key, source, past, [], before, caller, rfl, run, found, source, checking,
            facts.acquiring (by rw [checking]; rfl), ?_⟩
          exact test.trans (consistent.full_iff positive pointer key)
      · exact unmoved early
    | releases | returns => exact unmoved read
    | @runs phase index release caller next limiter holder made found moves same finished =>
      rcases getElem?_set_cases found read with ⟨rfl, rfl⟩ | ⟨-, early⟩
      · rw [same] at decided ⊢
        rw [moves.source_eq]
        obtain ⟨key, source, at_⟩ := known release.slot caller found decided
        exact ⟨key, source, at_.snoc _⟩
      · exact unmoved early

end System

/-! ## The abstract limiter -/

/-- The limiter without its mutex and its map. -/
def Limiter.counters (l : Limiter) : Netx.Limiter Bytes := ⟨l.max, counterAt l.n⟩

/-- One call of `Acquire` that succeeds, or one release. -/
def Exchanges (before after : Netx.Limiter Bytes) : Prop :=
  ∃ key, before.acquire (some key) = some after ∨ after = before.release (some key)

theorem Effect.refines (effect : Effect limiter call next after) {l : Limiter}
    (pointer : limiter = some l) (positive : 0 < l.max) :
    ∃ m, after = some m ∧ (m.counters = l.counters ∨ Exchanges l.counters m.counters) := by
  have counts : ∀ key : Bytes, l.counters.counts (some key) = some key :=
    fun key => if_neg (not_le.mpr positive)
  cases effect with
  | quiet same => exact ⟨l, pointer, Or.inl rfl⟩
  | @takes m key found room =>
    cases pointer.symm.trans found
    refine ⟨_, rfl, Or.inr ⟨key, Or.inl ?_⟩⟩
    have free : ¬ l.counters.max ≤ l.counters.n key := not_le.mpr room
    rw [Netx.Limiter.acquire, counts]
    simp only [if_neg free]
    rw [Limiter.counters, Limiter.counters, counterAt_insert]
  | @givesLast m key found single =>
    cases pointer.symm.trans found
    refine ⟨_, rfl, Or.inr ⟨key, Or.inr ?_⟩⟩
    have one : l.counters.n key ≤ 1 := single
    rw [Netx.Limiter.release, counts]
    simp only [if_pos one]
    rw [Limiter.counters, Limiter.counters, counterAt_erase]
  | @gives m key found several =>
    cases pointer.symm.trans found
    refine ⟨_, rfl, Or.inr ⟨key, Or.inr ?_⟩⟩
    have more : ¬ l.counters.n key ≤ 1 := not_le.mpr several
    rw [Netx.Limiter.release, counts]
    simp only [if_neg more]
    rw [Limiter.counters, Limiter.counters, counterAt_insert]

namespace System

/-- Every step is invisible in the abstract limiter, or one of its operations. -/
theorem Moves.refines {s after : System} {action : Action} {max : Int}
    (moves : s.Moves action after) (counted : Counted max s.limiter s.holder s.acquires)
    {l : Limiter} (pointer : s.limiter = some l) (positive : 0 < l.max) :
    ∃ m, after.limiter = some m ∧
      (m.counters = l.counters ∨ Exchanges l.counters m.counters) := by
  cases moves with
  | begins | releases | returns => exact ⟨l, pointer, Or.inl rfl⟩
  | works found step =>
    exact (step.effect (counted.coherent _ _ found)).refines pointer positive
  | runs phase made found step =>
    exact (step.effect (counted.coherent _ _ found)).refines pointer positive

/-- The limiter that the listener's model uses is what the interleaved calls make
of the counters. -/
theorem limiter_refines {max : Int} (positive : 0 < max) {past : List Action} {s : System}
    (run : Run (Steps step) (start max) past s) :
    ∃ l, s.limiter = some l ∧
      Relation.ReflTransGen Exchanges (Netx.Limiter.new max) l.counters := by
  induction run with
  | nil => exact ⟨⟨max, ∅⟩, if_neg (not_le.mpr positive), .refl⟩
  | @snoc past before after action run stepped ih =>
    obtain ⟨l, pointer, reached⟩ := ih
    have consistent := consistent_run max past before run
    obtain ⟨own, found, bound⟩ := consistent.pointed positive
    cases pointer.symm.trans found
    have moves := step_moves consistent.linked stepped
    obtain ⟨m, later, same | exchanged⟩ :=
      moves.refines consistent.counted pointer (bound ▸ positive)
    · exact ⟨m, later, same ▸ reached⟩
    · exact ⟨m, later, reached.tail exchanged⟩

/-- Over every interleaving: the counter of a source is the number of its slots
that are held, and is between one and the bound where the map has one; a call of
`Acquire` that has a source fails exactly if, when it looks under the mutex, all
slots of the source are held; a slot is held from before its `Acquire` returns
until its release function is called, and no longer once a call of that has
returned; and addresses have one key exactly when they are one source. -/
theorem slots_limited (max : Int) (positive : 0 < max) (past : List Action) (s : System)
    (run : Run (Steps step) (start max) past s) :
    (∃ l, s.limiter = some l ∧ l.max = max ∧ (∀ key, counterAt l.n key = s.heldCount key) ∧
      ∀ key value, l.n.lookup key = some value → 1 ≤ value ∧ value ≤ max) ∧
    (∀ index call, s.acquires[index]? = some call →
      call.phase = .failed ∨ call.phase = .succeeded → ∃ key, call.source = some key ∧
        DecidedAt max past index key (decide (call.phase = .failed))) ∧
    (∀ index call, s.acquires[index]? = some call → call.phase = .succeeded →
      index ∉ s.releases.map ReleaseCall.slot → ∃ key, call.holds key = true) ∧
    (∀ release ∈ s.releases, release.phase = .returned →
      ∃ call, s.acquires[release.slot]? = some call ∧ ∀ key, call.holds key = false) ∧
    ∀ left right leftIP rightIP, addrIP left = some leftIP → addrIP right = some rightIP →
      (key left = key right ↔ SameSource leftIP rightIP) := by
  have consistent := consistent_run max past s run
  obtain ⟨l, pointer, bound⟩ := consistent.pointed positive
  refine ⟨⟨l, pointer, bound, consistent.counted.counters l pointer, ?_⟩, ?_, ?_, ?_, ?_⟩
  · intro key value found
    rw [← bound]
    exact consistent.counted.within l pointer key value found
  · intro index call found returned
    rcases returned with failed | succeeded
    · obtain ⟨key, source, decided⟩ := decided_run positive past s run index call found
        (by rw [failed]; rfl)
      rw [failed] at decided ⊢
      exact ⟨key, source, decided⟩
    · obtain ⟨key, source, decided⟩ := decided_run positive past s run index call found
        (by rw [succeeded]; rfl)
      rw [succeeded] at decided ⊢
      exact ⟨key, source, decided⟩
  · intro index call found succeeded uncalled
    obtain ⟨key, source, -⟩ := decided_run positive past s run index call found
      (by rw [succeeded]; rfl)
    have fresh : call.once = .fresh := by
      by_contra late
      exact uncalled (consistent.begun index call found late)
    refine ⟨key, ?_⟩
    rw [CallMoves.holds_of_succeeded source succeeded (by rw [fresh]; rfl)]
    exact decide_eq_true rfl
  · intro release member returned
    obtain ⟨call, found, -, ended⟩ := consistent.linked release member
    refine ⟨call, found, ?_⟩
    intro key
    rcases ended returned with unlimited | done
    · simp [AcquireCall.holds, unlimited, AcquirePhase.taken]
    · simp [AcquireCall.holds, done, OncePhase.kept]
  · intro left right leftIP rightIP leftParsed rightParsed
    exact key_eq_iff leftParsed rightParsed

/-- Two hosts of one /64 where one slot is to be had: the second fails, the
release function of the first is called twice at once, and the second host then
succeeds. -/
def sharedSlot : List Action :=
  [.acquire (.other (ascii "[2001:db8::1]:443")), .acquireStep 0, .acquireStep 0, .acquireStep 0,
    .acquireStep 0, .acquire (.other (ascii "[2001:db8::2]:443")), .acquireStep 1, .acquireStep 1,
    .acquireStep 1, .release 0, .release 0, .releaseStep 0, .releaseStep 0, .releaseStep 0,
    .releaseStep 0, .releaseStep 0, .releaseStep 0, .releaseStep 1,
    .acquire (.other (ascii "[2001:db8::2]:443")), .acquireStep 2, .acquireStep 2, .acquireStep 2,
    .acquireStep 2]

theorem slots_limited_shared : ∃ s, Run (Steps step) (start 1) sharedSlot s ∧
    s.acquires.map AcquireCall.phase = [.succeeded, .failed, .succeeded] ∧
    (∃ key, DecidedAt 1 sharedSlot 1 key true) ∧ (∃ key, DecidedAt 1 sharedSlot 2 key false) ∧
    s.heldCount (ascii "2001:db8::/64") = 1 := by
  obtain ⟨s, run, phases, held⟩ := runSteps_reaches step (start 1) sharedSlot
    (fun s => s.acquires.map AcquireCall.phase = [.succeeded, .failed, .succeeded] ∧
      s.heldCount (ascii "2001:db8::/64") = 1) (by decide +kernel)
  have decided := (slots_limited 1 (by decide) sharedSlot s run).2.1
  have second : (s.acquires.map AcquireCall.phase)[1]? = some .failed := by rw [phases]; rfl
  have third : (s.acquires.map AcquireCall.phase)[2]? = some .succeeded := by rw [phases]; rfl
  rw [List.getElem?_map] at second third
  obtain ⟨refused, refusedAt, failed⟩ := Option.map_eq_some_iff.mp second
  obtain ⟨admitted, admittedAt, succeeded⟩ := Option.map_eq_some_iff.mp third
  refine ⟨s, run, phases, ?_, ?_, held⟩
  · obtain ⟨key, -, decision⟩ := decided 1 refused refusedAt (Or.inl failed)
    rw [failed] at decision
    exact ⟨key, decision⟩
  · obtain ⟨key, -, decision⟩ := decided 2 admitted admittedAt (Or.inr succeeded)
    rw [succeeded] at decision
    exact ⟨key, decision⟩

end System

end Libknock.Iplimit
