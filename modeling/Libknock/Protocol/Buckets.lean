import Libknock.Protocol.EnvelopeV2

/-!
# The bucket list, loop by loop

`EnvelopeV2Buckets` of `protocol/envelope_v2.go` as it runs: a filter that
remembers in a map what it has taken, and two nested loops that sort the slice in
place by swapping neighbours.  The loops compute the list that the rest of the
development works with, which depends on nothing but the set of supported buckets
in the input.
-/

set_option autoImplicit false

namespace Libknock.Protocol

/-! ## The loops -/

/-- The filter: `seen` reads false where the map has no entry. -/
def filterLoop (seen : Int → Bool) (out : List Int) : List Int → List Int
  | [] => out
  | v :: rest =>
    if ¬ envelopeV2SupportedBucket v ∨ seen v then filterLoop seen out rest
    else filterLoop (Function.update seen v true) (out ++ [v]) rest

/-- `out[i], out[j] = out[j], out[i]`. -/
def swapElements (out : List Int) (i j : Nat) : List Int :=
  (out.set i (out.getD j 0)).set j (out.getD i 0)

def sinkLoop : Nat → List Int → List Int
  | 0, out => out
  | j + 1, out =>
    if out.getD (j + 1) 0 < out.getD j 0 then sinkLoop j (swapElements out (j + 1) j) else out

/-- The outer loop from index `i` up; the slice keeps its length, so that as many
rounds as it has elements suffice. -/
def insertLoop : Nat → Nat → List Int → List Int
  | 0, _, out => out
  | rounds + 1, i, out =>
    if i < out.length then insertLoop rounds (i + 1) (sinkLoop i out) else out

def envelopeV2BucketsInPlace (buckets : List Int) : List Int :=
  if buckets = [] then envelopeV2DefaultBuckets
  else
    let out := filterLoop (fun _ => false) [] buckets
    insertLoop out.length 1 out

/-! ## What the loops compute -/

theorem filterLoop_eq (buckets : List Int) : ∀ (seen : Int → Bool) (out taken : List Int),
    (∀ v, seen v = true ↔ v ∈ taken) →
      filterLoop seen out buckets = out ++ supportedOnce taken buckets := by
  induction buckets with
  | nil =>
    intro seen out taken _
    simp [filterLoop, supportedOnce]
  | cons v rest ih =>
    intro seen out taken same
    rw [filterLoop, supportedOnce]
    by_cases skipped : ¬ envelopeV2SupportedBucket v ∨ seen v
    · rw [if_pos skipped, if_pos (skipped.imp_right (same v).mp)]
      exact ih seen out taken same
    · have marked : ∀ other, Function.update seen v true other = true ↔ other ∈ v :: taken := by
        intro other
        rw [Function.update_apply, List.mem_cons]
        split
        · rename_i own
          simp [own]
        · rename_i apart
          rw [same other]
          exact (or_iff_right apart).symm
      rw [if_neg skipped, if_neg fun again => skipped (again.imp_right (same v).mpr),
        ih _ _ _ marked, List.append_assoc]
      rfl

theorem swapElements_append (front rest : List Int) (x v : Int) :
    swapElements (front ++ x :: v :: rest) (front.length + 1) front.length =
      front ++ v :: x :: rest := by
  simp [swapElements, List.set_append_right]

theorem sinkLoop_insert (sorted : List Int) : ∀ (v : Int) (rest : List Int),
    sinkLoop sorted.length (sorted.reverse ++ v :: rest) =
      (sorted.orderedInsert (· ≥ ·) v).reverse ++ rest := by
  induction sorted with
  | nil =>
    intro v rest
    rfl
  | cons x larger ih =>
    intro v rest
    have front : larger.reverse.length = larger.length := List.length_reverse
    have placed : (x :: larger).reverse ++ v :: rest = larger.reverse ++ x :: v :: rest := by
      simp
    have swapped := swapElements_append larger.reverse rest x v
    rw [front] at swapped
    have here : (larger.reverse ++ x :: v :: rest).getD (larger.length + 1) 0 = v := by
      simp
    have below : (larger.reverse ++ x :: v :: rest).getD larger.length 0 = x := by
      simp
    rw [placed, List.length_cons, sinkLoop, here, below, swapped]
    by_cases smaller : v < x
    · rw [if_pos smaller, ih, List.orderedInsert_of_not_le (· ≥ ·) larger (not_le.mpr smaller)]
      simp
    · rw [if_neg smaller, List.orderedInsert_cons_of_le (· ≥ ·) larger (not_lt.mp smaller)]
      simp

theorem insertLoop_eq (rest : List Int) : ∀ (rounds : Nat) (sorted : List Int),
    rest.length ≤ rounds →
      insertLoop rounds sorted.length (sorted.reverse ++ rest) =
        (rest.foldl (fun sorted v => sorted.orderedInsert (· ≥ ·) v) sorted).reverse := by
  induction rest with
  | nil =>
    intro rounds sorted _
    cases rounds with
    | zero | succ => simp [insertLoop]
  | cons v rest ih =>
    intro rounds sorted enough
    cases rounds with
    | zero => simp at enough
    | succ rounds =>
      have inside : sorted.length < (sorted.reverse ++ v :: rest).length := by simp
      have grown : (sorted.orderedInsert (· ≥ ·) v).length = sorted.length + 1 :=
        List.orderedInsert_length _ sorted v
      rw [insertLoop, if_pos inside, sinkLoop_insert, ← grown, List.foldl_cons]
      exact ih rounds _ (Nat.le_of_succ_le_succ enough)

theorem insertLoop_sorts (out : List Int) : insertLoop out.length 1 out = sortBuckets out := by
  cases out with
  | nil => rfl
  | cons first rest => exact insertLoop_eq rest (rest.length + 1) [first] (Nat.le_succ _)

theorem envelopeV2BucketsInPlace_eq (buckets : List Int) :
    envelopeV2BucketsInPlace buckets = envelopeV2Buckets buckets := by
  have filtered : filterLoop (fun _ => false) [] buckets = supportedOnce [] buckets :=
    filterLoop_eq buckets _ [] [] (by simp)
  rw [envelopeV2BucketsInPlace, envelopeV2Buckets, filtered, insertLoop_sorts]

/-! ## The list and the set -/

/-- Of a list that is not empty the result has the supported buckets, each once and
in ascending order, so that it is the same for every list with the same supported
buckets. -/
theorem buckets_normalised (buckets : List Int) (some_ : buckets ≠ []) :
    (envelopeV2BucketsInPlace buckets).Pairwise (· < ·) ∧
      (∀ bucket : Int, bucket ∈ envelopeV2BucketsInPlace buckets ↔
        bucket ∈ buckets ∧ envelopeV2SupportedBucket bucket = true) ∧
      ∀ other : List Int, other ≠ [] →
        (∀ bucket : Int, envelopeV2SupportedBucket bucket = true →
          (bucket ∈ buckets ↔ bucket ∈ other)) →
        envelopeV2BucketsInPlace buckets = envelopeV2BucketsInPlace other := by
  simp only [envelopeV2BucketsInPlace_eq]
  refine ⟨envelopeV2Buckets_strict buckets, mem_envelopeV2Buckets buckets some_, ?_⟩
  intro other someOther agree
  refine (envelopeV2Buckets_strict buckets).eq_of_mem_iff (envelopeV2Buckets_strict other) ?_
  intro bucket
  rw [mem_envelopeV2Buckets buckets some_, mem_envelopeV2Buckets other someOther]
  exact and_congr_left (agree bucket)

/-- Another order, other repetitions and other unsupported values. -/
theorem buckets_of_shuffled_list :
    envelopeV2BucketsInPlace [512, 128, 7, 512] = envelopeV2BucketsInPlace [128, 128, 512] ∧
      envelopeV2BucketsInPlace [512, 128, 7, 512] = [128, 512] := by
  constructor
  · refine (buckets_normalised [512, 128, 7, 512] (by decide)).2.2 [128, 128, 512] (by decide) ?_
    intro bucket supported
    have bounds := supported_range bucket (of_decide_eq_true supported)
    simp only [List.mem_cons, List.not_mem_nil, or_false]
    omega
  · decide +kernel

end Libknock.Protocol
