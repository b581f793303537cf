import Mathlib.GroupTheory.Index
import Mathlib.GroupTheory.OrderOfElement
import Ghos.Lib.Edwards

/-!
# Codes for cosets of points

A point off the axes has three companions, its images under a quarter turn and a half turn.  Once
one of `a` and `-a` is taken to be negative, for every `a`, one of the four is `Canonical`.  The
square root of `(1 - y) / (1 + y)` that is not negative is its code; it exists for even points.

* `Canonical.eq_of_sub_mem_torsion`, `Point.canonical_representative`: the canonical point of a
  coset;
* `Canonical.eq_of_encodes`, `Canonical.encodes_unique`: canonical points and codes;
* `card_coset`: the number of cosets, from a point of that order and one of order eight;
* `mem_even_iff_exists_add_self`: if that number is odd, the even points are the doubles.
-/

/-- Which one of `a` and `-a` is negative. -/
structure SignRule (F : Type*) [Field F] where
  negative : F → Prop
  negative_neg_iff : ∀ a ≠ 0, (negative (-a) ↔ ¬ negative a)
  not_negative_zero : ¬ negative 0

namespace SignRule

variable {F : Type*} [Field F] (sign : SignRule F) {a b : F}

theorem eq_zero_of_neg (ha : ¬ sign.negative a) (hneg : ¬ sign.negative (-a)) : a = 0 := by
  by_contra hne
  exact hneg ((sign.negative_neg_iff a hne).2 ha)

/-- Of the square roots, one is not negative. -/
theorem eq_of_sq_eq (h : a ^ 2 = b ^ 2) (ha : ¬ sign.negative a) (hb : ¬ sign.negative b) :
    a = b := by
  rcases sq_eq_sq_iff_eq_or_eq_neg.1 h with heq | hneg
  · exact heq
  · rw [hneg] at ha
    have hzero := sign.eq_zero_of_neg hb ha
    rw [hneg, hzero, neg_zero]

end SignRule

namespace EdwardsCurve

variable {F : Type*} [Field F] {E : EdwardsCurve F} (sign : SignRule F) {p q : E.Point} {a b : F}

/-- The one among the companions of a point that stands for them. -/
structure Canonical (p : E.Point) : Prop where
  x : ¬ sign.negative p.x
  xy : ¬ sign.negative (p.x * p.y)
  y_ne_zero : p.y ≠ 0
  y_ne_neg_one : p.y ≠ -1

theorem canonical_zero : Canonical sign (0 : E.Point) where
  x := sign.not_negative_zero
  xy := by
    rw [Point.zero_x, zero_mul]
    exact sign.not_negative_zero
  y_ne_zero := one_ne_zero
  y_ne_neg_one := by
    intro h
    refine E.two_ne ?_
    rw [Point.zero_y] at h
    linear_combination h

variable {sign}

theorem Canonical.y_eq_one (hp : Canonical sign p) (hx : p.x = 0) : p.y = 1 :=
  (Point.y_of_x_eq_zero hx).resolve_right hp.y_ne_neg_one

/-- A coset has one canonical point. -/
theorem Canonical.eq_of_sub_mem_torsion (hp : Canonical sign p) (hq : Canonical sign q)
    (h : p - q ∈ E.torsion) : p = q := by
  have hpx := hp.x
  have hpxy := hp.xy
  have hpy := hp.y_ne_zero
  rcases EdwardsCurve.eq_of_sub_mem_torsion h with rfl | rfl | rfl | rfl
  · rfl
  · have hx := sign.eq_zero_of_neg hq.x hpx
    exact absurd (congrArg Neg.neg (hq.y_eq_one hx)) hp.y_ne_neg_one
  -- a quarter turn changes the sign of the product, and leaves the axes
  · have hzero : q.x * q.y = 0 := by
      refine sign.eq_zero_of_neg hq.xy ?_
      have hi := E.i_sq
      rwa [Point.rotate_x, Point.rotate_y,
        show E.i * q.y * (E.i * q.x) = -(q.x * q.y) by linear_combination q.x * q.y * hi] at hpxy
    have hx := (mul_eq_zero.1 hzero).resolve_right hq.y_ne_zero
    rw [Point.rotate_y, hx, mul_zero] at hpy
    exact absurd rfl hpy
  · have hzero : q.x * q.y = 0 := by
      refine sign.eq_zero_of_neg hq.xy ?_
      have hi := E.i_sq
      rwa [Point.rotate_x, Point.rotate_y, Point.antipode_x, Point.antipode_y,
        show E.i * -q.y * (E.i * -q.x) = -(q.x * q.y) by linear_combination q.x * q.y * hi] at hpxy
    have hx := (mul_eq_zero.1 hzero).resolve_right hq.y_ne_zero
    rw [Point.rotate_y, Point.antipode_x, hx, neg_zero, mul_zero] at hpy
    exact absurd rfl hpy

/-! ### The canonical point of a coset -/

section Representative

variable (sign) [DecidablePred sign.negative]

/-- The canonical point of the coset: turn until the signs are right. -/
def Point.representative (p : E.Point) : E.Point :=
  let q := if sign.negative (p.x * p.y) then p.rotate else p
  if sign.negative q.x then q.antipode else q

theorem Point.representative_sub_mem_torsion (p : E.Point) :
    p.representative sign - p ∈ E.torsion := by
  have hturn : p.rotate - p ∈ E.torsion := by
    rw [p.rotate_eq_add, add_sub_cancel_left]
    exact Point.rotate_mem_torsion
  have hhalf : ∀ q : E.Point, q - p ∈ E.torsion → q.antipode - p ∈ E.torsion := by
    intro q hq
    rw [q.antipode_eq_add, add_sub_right_comm]
    exact E.torsion.add_mem hq Point.antipode_mem_torsion
  have hself : p - p ∈ E.torsion := by
    rw [sub_self]
    exact E.torsion.zero_mem
  simp only [Point.representative]
  split_ifs
  · exact hhalf _ hturn
  · exact hturn
  · exact hhalf _ hself
  · exact hself

/-- The sign of the product decides about the quarter turn, the sign of `x` about the half turn. -/
theorem Point.canonical_representative (hp : p.x * p.y ≠ 0) :
    Canonical sign (p.representative sign) := by
  have hi := E.i_sq
  have hne := mul_ne_zero_iff.1 hp
  have hcanonical : ∀ q : E.Point, q.x ≠ 0 → q.y ≠ 0 → ¬ sign.negative (q.x * q.y) →
      Canonical sign (if sign.negative q.x then q.antipode else q) := by
    intro q hx hy hxy
    have hpole : ∀ r : E.Point, r.x ≠ 0 → r.y ≠ -1 := by
      intro r hr hy
      have hcurve := r.onCurve
      rw [hy] at hcurve
      refine mul_ne_zero (pow_ne_zero 2 hr) E.one_add_d_ne_zero ?_
      linear_combination -hcurve
    split_ifs with hneg
    · refine ⟨?_, ?_, neg_ne_zero.2 hy, hpole _ (neg_ne_zero.2 hx)⟩
      · rwa [Point.antipode_x, sign.negative_neg_iff _ hx, not_not]
      · rwa [Point.antipode_x, Point.antipode_y, neg_mul_neg]
    · exact ⟨hneg, hxy, hy, hpole _ hx⟩
  simp only [Point.representative]
  by_cases hneg : sign.negative (p.x * p.y)
  · rw [if_pos hneg]
    refine hcanonical p.rotate (mul_ne_zero E.i_ne_zero hne.2) (mul_ne_zero E.i_ne_zero hne.1) ?_
    rw [Point.rotate_x, Point.rotate_y,
      show E.i * p.y * (E.i * p.x) = -(p.x * p.y) by linear_combination p.x * p.y * hi,
      sign.negative_neg_iff _ hp, not_not]
    exact hneg
  · rw [if_neg hneg]
    exact hcanonical p hne.1 hne.2 hneg

end Representative

/-! ### Codes -/

variable (sign) in
/-- The code of a point. -/
structure Encodes (a : F) (p : E.Point) : Prop where
  not_negative : ¬ sign.negative a
  sq_mul : a ^ 2 * (1 + p.y) = 1 - p.y

theorem Encodes.one_add_sq_ne_zero (h : Encodes sign a p) : 1 + a ^ 2 ≠ 0 := by
  intro hzero
  refine E.two_ne ?_
  linear_combination (1 + p.y) * hzero - h.sq_mul

/-- A code belongs to one canonical point. -/
theorem Canonical.eq_of_encodes (hp : Canonical sign p) (hq : Canonical sign q)
    (h : Encodes sign a p) (h' : Encodes sign a q) : p = q := by
  have hy : p.y = q.y := by
    refine mul_left_cancel₀ h.one_add_sq_ne_zero ?_
    linear_combination h.sq_mul - h'.sq_mul
  exact Point.ext (sign.eq_of_sq_eq (Point.x_sq_eq_of_y_eq hy) hp.x hq.x) hy

/-- A point that stands for its coset has one code. -/
theorem Canonical.encodes_unique (hp : Canonical sign p) (h : Encodes sign a p)
    (h' : Encodes sign b p) : a = b := by
  have hy : 1 + p.y ≠ 0 := fun hzero => hp.y_ne_neg_one (by linear_combination hzero)
  refine sign.eq_of_sq_eq (mul_right_cancel₀ hy ?_) h.not_negative h'.not_negative
  rw [h.sq_mul, h'.sq_mul]

/-- Where `-(1 + d)` is a square, the points with a code are even. -/
theorem Encodes.mem_even (h : Encodes sign a p) {c : F} (hc : c ^ 2 * (-1 - E.d) = 1) :
    p ∈ E.even := by
  have hmul := p.one_sub_y_sq_mul
  have hroot : (c * (a * (1 + p.y))) ^ 2 * (1 - E.d * p.x ^ 2) = p.x ^ 2 := by
    linear_combination c ^ 2 * (1 + p.y) * (1 - E.d * p.x ^ 2) * h.sq_mul + c ^ 2 * hmul +
      p.x ^ 2 * hc
  rw [mem_even_iff]
  by_cases hzero : c * (a * (1 + p.y)) = 0
  · have hx : p.x ^ 2 = 0 := by rw [← hroot, hzero, zero_pow two_ne_zero, zero_mul]
    rw [hx, mul_zero, sub_zero]
    exact IsSquare.one
  · rw [eq_div_of_mul_eq (pow_ne_zero 2 hzero) ((mul_comm _ _).trans hroot)]
    exact (IsSquare.sq _).div (IsSquare.sq _)

/-- And on even points, `1 - y²` is a square. -/
theorem isSquare_one_sub_y_sq (hp : p ∈ E.even) {c : F} (hc : c ^ 2 * (-1 - E.d) = 1) :
    IsSquare (1 - p.y ^ 2) := by
  have hmul := p.one_sub_y_sq_mul
  have hc0 : c ^ 2 ≠ 0 := left_ne_zero_of_mul_eq_one hc
  have hne := mul_ne_zero hc0 (E.one_sub_d_mul_sq_ne_zero p.x)
  have hroot : (1 - p.y ^ 2) * (c ^ 2 * (1 - E.d * p.x ^ 2)) = p.x ^ 2 := by
    linear_combination c ^ 2 * hmul + p.x ^ 2 * hc
  rw [eq_div_of_mul_eq hne hroot]
  exact (IsSquare.sq _).div ((IsSquare.sq _).mul (mem_even_iff.1 hp))

/-! ### How many cosets there are -/

variable (E) in
/-- The cosets of even points. -/
abbrev Coset : Type _ := E.even ⧸ E.torsion.addSubgroupOf E.even

theorem addOrderOf_rotate_zero : addOrderOf (Point.rotate (0 : E.Point)) = 4 := by
  have hdouble : 2 • Point.rotate (0 : E.Point) = Point.antipode 0 := by
    rw [two_nsmul, ← Point.rotate_eq_add, Point.rotate_rotate]
  have hquadruple : 2 • Point.antipode (0 : E.Point) = 0 := by
    rw [two_nsmul, ← Point.antipode_eq_add]
    ext <;> simp
  refine addOrderOf_eq_prime_pow (p := 2) (n := 1) ?_ ?_
  · rw [pow_one, hdouble]
    intro h
    have hy := congrArg Point.y h
    refine E.two_ne ?_
    rw [Point.antipode_y, Point.zero_y] at hy
    linear_combination -hy
  · rw [pow_succ, pow_one, mul_nsmul, hdouble, hquadruple]

theorem four_nsmul_of_mem_torsion (h : p ∈ E.torsion) : 4 • p = 0 := by
  have hrotate : 4 • Point.rotate (0 : E.Point) = 0 := by
    rw [← addOrderOf_rotate_zero (E := E), addOrderOf_nsmul_eq_zero]
  have hantipode : 4 • Point.antipode (0 : E.Point) = 0 := by
    rw [← Point.rotate_rotate, Point.rotate_eq_add, nsmul_add, hrotate, add_zero]
  rcases eq_of_mem_torsion h with rfl | rfl | rfl | rfl
  · exact nsmul_zero 4
  · exact hantipode
  · exact hrotate
  · rw [nsmul_add, hantipode, hrotate, add_zero]

/-- The points on the axes are the multiples of a quarter turn. -/
theorem torsion_eq_zmultiples : E.torsion = AddSubgroup.zmultiples (Point.rotate 0) := by
  have hrotate : Point.rotate 0 ∈ AddSubgroup.zmultiples (Point.rotate (0 : E.Point)) :=
    AddSubgroup.mem_zmultiples _
  have hantipode : Point.antipode 0 ∈ AddSubgroup.zmultiples (Point.rotate (0 : E.Point)) := by
    have hturn : Point.antipode (0 : E.Point) = Point.rotate 0 + Point.rotate 0 := by
      rw [← Point.rotate_eq_add, Point.rotate_rotate]
    exact hturn ▸ add_mem hrotate hrotate
  refine le_antisymm (fun p hp => ?_) ?_
  · rcases eq_of_mem_torsion hp with rfl | rfl | rfl | rfl
    · exact zero_mem _
    · exact hantipode
    · exact hrotate
    · exact add_mem hantipode hrotate
  · exact AddSubgroup.zmultiples_le_of_mem Point.rotate_mem_torsion

theorem card_torsion : Nat.card E.torsion = 4 := by
  rw [torsion_eq_zmultiples, Nat.card_zmultiples, addOrderOf_rotate_zero]

/-- Every coset of even points has four points. -/
theorem card_even (hsquare : IsSquare (1 + E.d)) : Nat.card E.even = 4 * Nat.card E.Coset := by
  have hsub : Nat.card (E.torsion.addSubgroupOf E.even) = 4 := by
    rw [Nat.card_congr (AddSubgroup.addSubgroupOfEquivOfLe (torsion_le_even hsquare)).toEquiv,
      card_torsion]
  rw [AddSubgroup.card_eq_card_quotient_mul_card_addSubgroup (E.torsion.addSubgroupOf E.even), hsub,
    mul_comm]

/-- With an eighth of a turn at hand, the points on the axes are doubles. -/
theorem exists_add_self_of_mem_torsion {t : E.Point} (ht : t + t = Point.rotate 0)
    (hp : p ∈ E.torsion) : ∃ q, q + q = p := by
  rw [torsion_eq_zmultiples, AddSubgroup.mem_zmultiples_iff] at hp
  obtain ⟨k, rfl⟩ := hp
  exact ⟨k • t, by rw [← zsmul_add, ht]⟩

/-- The even points are the doubles, if the order of the group of cosets is odd. -/
theorem mem_even_iff_exists_add_self {t : E.Point} (ht : t + t = Point.rotate 0)
    (hodd : ∀ c : E.Coset, ∃ b, b + b = c) : p ∈ E.even ↔ ∃ q, q + q = p := by
  constructor
  · intro hp
    obtain ⟨b, hb⟩ := hodd (QuotientAddGroup.mk ⟨p, hp⟩)
    obtain ⟨q, rfl⟩ := QuotientAddGroup.mk_surjective b
    have hmem : -(q + q : E.Point) + p ∈ E.torsion :=
      AddSubgroup.mem_addSubgroupOf.1 (QuotientAddGroup.eq.1 hb)
    obtain ⟨s, hs⟩ := exists_add_self_of_mem_torsion ht hmem
    exact ⟨q + s, by rw [add_add_add_comm, hs, add_neg_cancel_left]⟩
  · rintro ⟨q, rfl⟩
    exact Point.isSquare_one_sub_add_x_sq (IsSquare.mul_self _)

theorem addOrderOf_coset {ℓ : ℕ} (hprime : ℓ.Prime) (hcoprime : Nat.Coprime 8 ℓ) {g : E.Point}
    (hg : addOrderOf g = ℓ) (heven : g ∈ E.even) :
    addOrderOf (QuotientAddGroup.mk ⟨g, heven⟩ : E.Coset) = ℓ := by
  have : Fact ℓ.Prime := ⟨hprime⟩
  refine addOrderOf_eq_prime ?_ fun hzero => ?_
  · show QuotientAddGroup.mk (ℓ • (⟨g, heven⟩ : E.even)) = 0
    rw [show ℓ • (⟨g, heven⟩ : E.even) = 0 from
      Subtype.ext (hg ▸ addOrderOf_nsmul_eq_zero g)]
    rfl
  · have hmem : g ∈ E.torsion := AddSubgroup.mem_addSubgroupOf.1 <|
      (QuotientAddGroup.eq_zero_iff _).1 hzero
    have hdvd : ℓ ∣ 4 := hg ▸ addOrderOf_dvd_of_nsmul_eq_zero (four_nsmul_of_mem_torsion hmem)
    have hone : ℓ = 1 := Nat.Coprime.eq_one_of_dvd hcoprime.symm (hdvd.trans (by norm_num))
    exact hprime.one_lt.ne' hone

section Finite

variable (sign) [Finite F]

instance : Finite E.Point :=
  Finite.of_injective (fun p : E.Point => (p.x, p.y)) fun _ _ h =>
    Point.ext (congrArg Prod.fst h) (congrArg Prod.snd h)

include sign in
/-- There are at most two points at each height. -/
theorem card_point_le : Nat.card E.Point ≤ 2 * Nat.card F := by
  have hinj : Function.Injective fun p : E.Point => (sign.negative p.x, p.y) := by
    intro p q h
    obtain ⟨hsign, hy⟩ := Prod.ext_iff.1 h
    replace hsign : sign.negative p.x ↔ sign.negative q.x := iff_of_eq hsign
    refine Point.ext ?_ hy
    rcases sq_eq_sq_iff_eq_or_eq_neg.1 (Point.x_sq_eq_of_y_eq hy) with hx | hx
    · exact hx
    · by_cases hzero : q.x = 0
      · rw [hx, hzero, neg_zero]
      · rw [hx, sign.negative_neg_iff _ hzero] at hsign
        exact absurd hsign not_iff_self
  calc Nat.card E.Point ≤ Nat.card (Prop × F) := Nat.card_le_card_of_injective _ hinj
    _ = 2 * Nat.card F := by rw [Nat.card_prod, Nat.card_eq_fintype_card, Fintype.card_prop]

include sign in
/-- The order of the curve, given a point of its odd part and an eighth of a turn. -/
theorem card_point {ℓ : ℕ} (hcoprime : Nat.Coprime 8 ℓ) (hsmall : Nat.card F < 8 * ℓ)
    {g t : E.Point} (hg : addOrderOf g = ℓ) (ht : addOrderOf t = 8) :
    Nat.card E.Point = 8 * ℓ := by
  have hdvd : 8 * ℓ ∣ Nat.card E.Point :=
    hcoprime.mul_dvd_of_dvd_of_dvd (ht ▸ addOrderOf_dvd_natCard t) (hg ▸ addOrderOf_dvd_natCard g)
  obtain ⟨k, hk⟩ := hdvd
  have hpos : 0 < Nat.card E.Point := Nat.card_pos
  have hle := card_point_le sign (E := E)
  have hone : k = 1 := by
    have hk0 : k ≠ 0 := by
      rintro rfl
      omega
    have hk2 : k < 2 := by
      by_contra hge
      have := Nat.mul_le_mul_left (8 * ℓ) (not_lt.1 hge)
      omega
    omega
  rw [hk, hone, mul_one]

include sign in
/-- The order of the group of cosets, given a point of that order and an eighth of a turn. -/
theorem card_coset {ℓ : ℕ} (hprime : ℓ.Prime) (hcoprime : Nat.Coprime 8 ℓ)
    (hsmall : Nat.card F < 8 * ℓ) (hsquare : IsSquare (1 + E.d)) {g t : E.Point}
    (hg : addOrderOf g = ℓ) (heven : g ∈ E.even) (ht : addOrderOf t = 8) (hodd : t ∉ E.even) :
    Nat.card E.Coset = ℓ := by
  have hcard : Nat.card E.torsion * (Nat.card E.Coset * E.even.index) = Nat.card E.Point := by
    rw [← E.torsion.card_mul_index, ← AddSubgroup.relIndex_mul_index (torsion_le_even hsquare)]
    rfl
  have htorsion : 4 ∣ Nat.card E.torsion := by
    have hmem := Point.rotate_mem_torsion (E := E)
    exact addOrderOf_rotate_zero (E := E) ▸ E.torsion.addOrderOf_dvd_natCard hmem
  have hindex : E.even.index ≠ 1 := fun h => hodd (AddSubgroup.index_eq_one.1 h ▸ trivial)
  have hcoset : ℓ ∣ Nat.card E.Coset :=
    addOrderOf_coset hprime hcoprime hg heven ▸ addOrderOf_dvd_natCard _
  rw [card_point sign hcoprime hsmall hg ht] at hcard
  obtain ⟨i, hi⟩ := htorsion
  obtain ⟨j, hj⟩ := hcoset
  have hproduct : i * j * E.even.index = 2 := by
    refine Nat.eq_of_mul_eq_mul_left (Nat.mul_pos four_pos hprime.pos) ?_
    rw [hi, hj] at hcard
    linarith
  have hindex : E.even.index = 2 :=
    ((Nat.dvd_prime Nat.prime_two).1 (Dvd.intro_left _ hproduct)).resolve_left hindex
  have hone : i * j = 1 := by
    rw [hindex] at hproduct
    omega
  rw [hj, Nat.eq_one_of_mul_eq_one_left hone, mul_one]

end Finite

end EdwardsCurve
