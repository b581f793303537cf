import Mathlib.Algebra.BigOperators.Intervals
import Mathlib.Algebra.Module.BigOperators
import Mathlib.Tactic

/-!
# Folding an inner product

A round of the argument halves four vectors, two of scalars and two of generators, by a challenge
`u`.  It sends the cross terms of the halves, from which the commitment to the folded vectors can
be computed.  Vectors are functions on the naturals; a round on `m + m` entries reads these and
leaves the first `m`.

* `Vectors.commit_fold`: the commitment after one round;
* `dot_weight_cons`: a generator of the last round is a weighted sum of those before the first;
* `Rounds.commit`: the two together, over all rounds.
-/

namespace Folding

open Finset

variable {K M : Type} [Field K] [AddCommGroup M] [Module K M]

/-- The first `m` multiples, added up. -/
def dot (m : ℕ) (a : ℕ → K) (g : ℕ → M) : M := ∑ i ∈ range m, a i • g i

theorem dot_congr {m : ℕ} {a a' : ℕ → K} {g g' : ℕ → M} (ha : ∀ i < m, a i = a' i)
    (hg : ∀ i < m, g i = g' i) : dot m a g = dot m a' g' := by
  refine sum_congr rfl fun i hi => ?_
  rw [ha i (mem_range.1 hi), hg i (mem_range.1 hi)]

theorem dot_add (m n : ℕ) (a : ℕ → K) (g : ℕ → M) :
    dot (m + n) a g = dot m a g + dot n (fun i => a (m + i)) fun i => g (m + i) :=
  sum_range_add _ m n

/-- The halves of a vector with `m + m` entries, as one vector with `m`. -/
def foldHalves (m : ℕ) (x y : K) (f : ℕ → M) (i : ℕ) : M := x • f i + y • f (m + i)

/-- The products of equal halves keep their weight, where `x'` and `y'` undo `x` and `y`. -/
theorem dot_foldHalves (m : ℕ) {x y x' y' : K} (hx : x * x' = 1) (hy : y * y' = 1) (a : ℕ → K)
    (g : ℕ → M) :
    dot m (foldHalves m x y a) (foldHalves m x' y' g) = dot (m + m) a g +
      (x * y') • dot m a (fun i => g (m + i)) + (y * x') • dot m (fun i => a (m + i)) g := by
  rw [dot_add]
  simp only [dot, foldHalves, smul_sum, ← sum_add_distrib, smul_eq_mul]
  refine sum_congr rfl fun i _ => ?_
  calc (x * a i + y * a (m + i)) • (x' • g i + y' • g (m + i))
      = (x * x') • a i • g i + (y * y') • a (m + i) • g (m + i) +
          (x * y') • a i • g (m + i) + (y * x') • a (m + i) • g i := by module
    _ = a i • g i + a (m + i) • g (m + i) + (x * y') • a i • g (m + i) +
          (y * x') • a (m + i) • g i := by rw [hx, hy, one_smul, one_smul]

/-! ### A round -/

/-- Two vectors of scalars, each with its generators. -/
structure Vectors (K M : Type) where
  a : ℕ → K
  b : ℕ → K
  g : ℕ → M
  h : ℕ → M

namespace Vectors

/-- The commitment to the first `m` entries. -/
def commit (v : Vectors K M) (m : ℕ) : M := dot m v.a v.g + dot m v.b v.h

/-- The cross term that is sent as `L`. -/
def left (v : Vectors K M) (m : ℕ) : M :=
  dot m v.a (fun i => v.g (m + i)) + dot m (fun i => v.b (m + i)) v.h

/-- The cross term that is sent as `R`. -/
def right (v : Vectors K M) (m : ℕ) : M :=
  dot m (fun i => v.a (m + i)) v.g + dot m v.b fun i => v.h (m + i)

/-- The vectors after a round with the challenge `u`. -/
def fold (v : Vectors K M) (m : ℕ) (u : K) : Vectors K M where
  a := foldHalves m u u⁻¹ v.a
  b := foldHalves m u⁻¹ u v.b
  g := foldHalves m u⁻¹ u v.g
  h := foldHalves m u u⁻¹ v.h

/-- The vectors have the same first `m` entries. -/
structure Agree (m : ℕ) (v w : Vectors K M) : Prop where
  a : ∀ i < m, v.a i = w.a i
  b : ∀ i < m, v.b i = w.b i
  g : ∀ i < m, v.g i = w.g i
  h : ∀ i < m, v.h i = w.h i

theorem Agree.commit {m : ℕ} {v w : Vectors K M} (hvw : Agree m v w) : v.commit m = w.commit m := by
  rw [Vectors.commit, Vectors.commit, dot_congr hvw.a hvw.g, dot_congr hvw.b hvw.h]

/-- The folded vectors are committed to by the commitment before the round and the cross terms. -/
theorem commit_fold (v : Vectors K M) (m : ℕ) {u : K} (hu : u ≠ 0) :
    (v.fold m u).commit m =
      v.commit (m + m) + (u ^ 2 • v.left m + u⁻¹ ^ 2 • v.right m) := by
  have hinv : u * u⁻¹ = 1 := mul_inv_cancel₀ hu
  have hinv' : u⁻¹ * u = 1 := inv_mul_cancel₀ hu
  rw [commit, fold, dot_foldHalves m hinv hinv', dot_foldHalves m hinv' hinv, commit, left, right]
  module

end Vectors

/-! ### The weights -/

/-- The weight of the generator `i`: a round contributes its challenge or the inverse, as the bit
that the round decides is set or not. -/
def weight (us : List K) (i : ℕ) : K :=
  ∏ j ∈ range us.length,
    if i.testBit (us.length - 1 - j) then us.getD j 0 else (us.getD j 0)⁻¹

theorem weight_cons (u : K) (us : List K) (i : ℕ) :
    weight (u :: us) i = (if i.testBit us.length then u else u⁻¹) * weight us i := by
  rw [weight, List.length_cons, prod_range_succ', mul_comm]
  refine congrArg₂ _ rfl (prod_congr rfl fun j _ => ?_)
  rw [List.getD_cons_succ, Nat.add_sub_cancel, Nat.sub_sub, Nat.add_comm 1 j]

theorem weight_cons_low (u : K) (us : List K) {i : ℕ} (hi : i < 2 ^ us.length) :
    weight (u :: us) i = u⁻¹ * weight us i := by
  rw [weight_cons, Nat.testBit_lt_two_pow hi]
  rfl

/-- The bits that the later rounds decide. -/
theorem weight_add (us : List K) (i : ℕ) : weight us (2 ^ us.length + i) = weight us i := by
  refine prod_congr rfl fun j hj => ?_
  rw [Nat.testBit_two_pow_add_gt (by have := mem_range.1 hj; omega)]

theorem weight_cons_high (u : K) (us : List K) {i : ℕ} (hi : i < 2 ^ us.length) :
    weight (u :: us) (2 ^ us.length + i) = u * weight us i := by
  rw [weight_cons, weight_add, Nat.testBit_two_pow_add_eq, Nat.testBit_lt_two_pow hi]
  rfl

/-- Weights on the folded vector are weights on its halves. -/
theorem dot_foldHalves_eq_dot {m : ℕ} {x y : K} {w w' : ℕ → K}
    (hlow : ∀ i < m, w' i = x * w i) (hhigh : ∀ i < m, w' (m + i) = y * w i) (g : ℕ → M) :
    dot m w (foldHalves m x y g) = dot (m + m) w' g := by
  rw [dot_add, dot, dot, dot, ← sum_add_distrib]
  refine sum_congr rfl fun i hi => ?_
  rw [hlow i (mem_range.1 hi), hhigh i (mem_range.1 hi), foldHalves]
  module

/-- The generators of a round, weighted, are those before the round with one weight more. -/
theorem dot_weight_cons (u : K) (us : List K) (g : ℕ → M) :
    dot (2 ^ us.length) (weight us) (foldHalves (2 ^ us.length) u⁻¹ u g) =
      dot (2 ^ us.length + 2 ^ us.length) (weight (u :: us)) g :=
  dot_foldHalves_eq_dot (fun _ => weight_cons_low u us) (fun _ => weight_cons_high u us) g

theorem dot_inv_weight_cons (u : K) (us : List K) (h : ℕ → M) :
    dot (2 ^ us.length) (fun i => (weight us i)⁻¹) (foldHalves (2 ^ us.length) u u⁻¹ h) =
      dot (2 ^ us.length + 2 ^ us.length) (fun i => (weight (u :: us) i)⁻¹) h := by
  refine dot_foldHalves_eq_dot (fun i hi => ?_) (fun i hi => ?_) h
  · rw [weight_cons_low u us hi, mul_inv, inv_inv]
  · rw [weight_cons_high u us hi, mul_inv]

/-! ### All rounds -/

/-- The rounds on `2 ^ us.length` entries: the challenges, what is sent, and the last scalars. -/
inductive Rounds : Vectors K M → List K → List M → List M → K → K → Prop
  | done (v : Vectors K M) : Rounds v [] [] [] (v.a 0) (v.b 0)
  | round {v next : Vectors K M} {u : K} {us : List K} {ls rs : List M} {a b : K} (hu : u ≠ 0)
      (hnext : next.Agree (2 ^ us.length) (v.fold (2 ^ us.length) u))
      (hrest : Rounds next us ls rs a b) :
      Rounds v (u :: us) (v.left (2 ^ us.length) :: ls) (v.right (2 ^ us.length) :: rs) a b

theorem Rounds.length {v : Vectors K M} {us : List K} {ls rs : List M} {a b : K}
    (h : Rounds v us ls rs a b) : ls.length = us.length ∧ rs.length = us.length := by
  induction h with
  | done v => exact ⟨rfl, rfl⟩
  | round hu hnext hrest ih => exact ⟨congrArg Nat.succ ih.1, congrArg Nat.succ ih.2⟩

/-- The last scalars, over the last generators, are the commitment and the cross terms. -/
theorem Rounds.commit {v : Vectors K M} {us : List K} {ls rs : List M} {a b : K}
    (h : Rounds v us ls rs a b) :
    a • dot (2 ^ us.length) (weight us) v.g +
        b • dot (2 ^ us.length) (fun i => (weight us i)⁻¹) v.h =
      v.commit (2 ^ us.length) + ∑ j ∈ range us.length,
        (us.getD j 0 ^ 2 • ls.getD j 0 + (us.getD j 0)⁻¹ ^ 2 • rs.getD j 0) := by
  induction h with
  | done v => simp [dot, weight, Vectors.commit]
  | @round v next u us ls rs a b hu hnext hrest ih =>
    have hg := dot_weight_cons u us v.g
    have hh := dot_inv_weight_cons u us v.h
    rw [dot_congr (fun i _ => rfl) hnext.g, dot_congr (fun i _ => rfl) hnext.h, hnext.commit,
      v.commit_fold _ hu] at ih
    simp only [Vectors.fold, hg, hh] at ih
    have hdouble : 2 ^ (us.length + 1) = 2 ^ us.length + 2 ^ us.length := by
      rw [pow_succ, mul_two]
    rw [List.length_cons, hdouble, ih, sum_range_succ']
    simp only [List.getD_cons_succ, List.getD_cons_zero]
    abel

end Folding
