import Mathlib.Algebra.Group.Subgroup.Basic
import Mathlib.Tactic

/-!
# Twisted Edwards curves

The curve `-x² + y² = 1 + d x² y²` over a field with a square root of `-1` in which `d` has none.
There the sum of two points has no exceptions (`one_add_product_ne_zero`,
`one_sub_product_ne_zero`), and the points are a group.

* `torsion`: the four points on the axes.  Two points are in one coset of it if their coordinates
  are proportional one way or the other (`sub_mem_torsion_iff`);
* `even`: the points where `1 - d x²` is a square.  They are a subgroup.
-/

/-- The coefficients of a curve. -/
structure EdwardsCurve (F : Type*) [Field F] where
  d : F
  i : F
  i_sq : i ^ 2 = -1
  not_isSquare_d : ¬ IsSquare d
  two_ne : (2 : F) ≠ 0

namespace EdwardsCurve

variable {F : Type*} [Field F] (E : EdwardsCurve F)

theorem i_ne_zero : E.i ≠ 0 := by
  intro h
  have hi := E.i_sq
  rw [h] at hi
  norm_num at hi

/-- The divisors of the curve equation solved for one coordinate. -/
theorem one_sub_d_mul_sq_ne_zero (a : F) : 1 - E.d * a ^ 2 ≠ 0 := by
  intro h
  have ha : a ≠ 0 := by
    rintro rfl
    norm_num at h
  refine E.not_isSquare_d ⟨a⁻¹, ?_⟩
  field_simp
  linear_combination -h

theorem one_add_d_mul_sq_ne_zero (a : F) : 1 + E.d * a ^ 2 ≠ 0 := by
  have hi := E.i_sq
  have hne := E.one_sub_d_mul_sq_ne_zero (E.i * a)
  rwa [show 1 - E.d * (E.i * a) ^ 2 = 1 + E.d * a ^ 2 by
    linear_combination -(E.d * a ^ 2) * hi] at hne

theorem one_add_d_ne_zero : 1 + E.d ≠ 0 := by
  have hne := E.one_add_d_mul_sq_ne_zero 1
  rwa [one_pow, mul_one] at hne

/-- A point of the curve. -/
@[ext] structure Point where
  x : F
  y : F
  onCurve : -x ^ 2 + y ^ 2 = 1 + E.d * x ^ 2 * y ^ 2

namespace Point

variable {E} (p q r : E.Point)

/-- What the denominators of a sum are made of. -/
def product : F := E.d * p.x * q.x * p.y * q.y

/-! ### The sum is complete -/

/-- If the product were a sign, then `d` would be a square. -/
theorem product_sq_ne_one : p.product q ^ 2 ≠ 1 := by
  intro h
  have hp := p.onCurve
  have hq := q.onCurve
  have hi := E.i_sq
  have hk : p.product q ≠ 0 := by
    intro hzero
    rw [hzero] at h
    norm_num at h
  have hsquare : ∀ s : F, s ^ 2 = 1 → E.d * (p.x * p.y * (E.i * q.x + s * q.y)) ^ 2 =
      (E.i * p.x + s * p.product q * p.y) ^ 2 := by
    intro s hs
    unfold product at h ⊢
    linear_combination (E.d * p.x ^ 2 * p.y ^ 2 * q.x ^ 2 - p.x ^ 2) * hi +
      (E.d * p.x ^ 2 * p.y ^ 2 * q.y ^ 2 - (E.d * p.x * q.x * p.y * q.y) ^ 2 * p.y ^ 2) * hs +
      E.d * p.x ^ 2 * p.y ^ 2 * hq + (1 - p.y ^ 2) * h - hp
  have hxy : p.x * p.y ≠ 0 := by
    intro hzero
    refine hk ?_
    unfold product
    linear_combination E.d * q.x * q.y * hzero
  -- so the factor that is not known vanishes for both signs
  have hvanish : ∀ s : F, s ^ 2 = 1 → E.i * q.x + s * q.y = 0 := by
    intro s hs
    by_contra hne
    refine E.not_isSquare_d ⟨(E.i * p.x + s * p.product q * p.y) /
      (p.x * p.y * (E.i * q.x + s * q.y)), ?_⟩
    rw [← pow_two, div_pow, ← hsquare s hs, mul_div_cancel_right₀]
    exact pow_ne_zero 2 (mul_ne_zero hxy hne)
  have hy : q.y = 0 := by
    have hplus := hvanish 1 (one_pow 2)
    have hminus := hvanish (-1) (by norm_num)
    have htwo : 2 * q.y = 0 := by linear_combination hplus - hminus
    exact (mul_eq_zero.1 htwo).resolve_left E.two_ne
  refine hk ?_
  rw [product, hy, mul_zero]

theorem one_add_product_ne_zero : 1 + p.product q ≠ 0 := by
  intro h
  refine p.product_sq_ne_one q ?_
  linear_combination (p.product q - 1) * h

theorem one_sub_product_ne_zero : 1 - p.product q ≠ 0 := by
  intro h
  refine p.product_sq_ne_one q ?_
  linear_combination -(p.product q + 1) * h

theorem onCurve_add :
    -((p.x * q.y + p.y * q.x) / (1 + p.product q)) ^ 2 +
        ((p.y * q.y + p.x * q.x) / (1 - p.product q)) ^ 2 =
      1 + E.d * ((p.x * q.y + p.y * q.x) / (1 + p.product q)) ^ 2 *
        ((p.y * q.y + p.x * q.x) / (1 - p.product q)) ^ 2 := by
  have hp := p.onCurve
  have hq := q.onCurve
  have hadd := p.one_add_product_ne_zero q
  have hsub := p.one_sub_product_ne_zero q
  field_simp
  unfold product
  linear_combination
    ((1 + (E.d * p.x * q.x * p.y * q.y) ^ 2) * (q.y ^ 2 - q.x ^ 2) - E.d * q.x ^ 2 * q.y ^ 2 *
      (p.y ^ 2 - p.x ^ 2 + 1 + E.d * p.x ^ 2 * p.y ^ 2)) * hp +
    ((1 + (E.d * p.x * q.x * p.y * q.y) ^ 2) * (1 + E.d * p.x ^ 2 * p.y ^ 2) -
      E.d * p.x ^ 2 * p.y ^ 2 * (q.y ^ 2 - q.x ^ 2 + 1 + E.d * q.x ^ 2 * q.y ^ 2)) * hq

instance : Add E.Point where
  add p q :=
    { x := (p.x * q.y + p.y * q.x) / (1 + p.product q)
      y := (p.y * q.y + p.x * q.x) / (1 - p.product q)
      onCurve := p.onCurve_add q }

instance : Zero E.Point := ⟨⟨0, 1, by ring⟩⟩

instance : Neg E.Point := ⟨fun p => ⟨-p.x, p.y, by rw [neg_sq, p.onCurve]⟩⟩

@[simp] theorem zero_x : (0 : E.Point).x = 0 := rfl
@[simp] theorem zero_y : (0 : E.Point).y = 1 := rfl
@[simp] theorem neg_x : (-p).x = -p.x := rfl
@[simp] theorem neg_y : (-p).y = p.y := rfl

theorem add_x : (p + q).x = (p.x * q.y + p.y * q.x) / (1 + p.product q) := rfl
theorem add_y : (p + q).y = (p.y * q.y + p.x * q.x) / (1 - p.product q) := rfl

/-! ### A quarter turn -/

/-- The sum with the point `(i, 0)`. -/
def rotate : E.Point where
  x := E.i * p.y
  y := E.i * p.x
  onCurve := by
    have hp := p.onCurve
    have hi := E.i_sq
    linear_combination hp + (p.x ^ 2 - p.y ^ 2 - E.d * p.x ^ 2 * p.y ^ 2 * (E.i ^ 2 - 1)) * hi

@[simp] theorem rotate_x : p.rotate.x = E.i * p.y := rfl
@[simp] theorem rotate_y : p.rotate.y = E.i * p.x := rfl

theorem product_rotate : p.product q.rotate = -p.product q := by
  have hi := E.i_sq
  simp only [product, rotate_x, rotate_y]
  linear_combination E.d * p.x * p.y * q.x * q.y * hi

theorem add_rotate : p + q.rotate = (p + q).rotate := by
  ext
  · rw [rotate_x, add_x, add_y, product_rotate, rotate_x, rotate_y]
    ring
  · rw [rotate_y, add_x, add_y, product_rotate, rotate_x, rotate_y]
    ring

/-! ### The group -/

protected theorem add_comm : p + q = q + p := by
  have hk : p.product q = q.product p := by
    unfold product
    ring
  ext
  · rw [add_x, add_x, hk]
    ring
  · rw [add_y, add_y, hk]
    ring

/-- The denominator of a sum of three points. -/
theorem tripleDenominator_eq : (1 + p.product q) * (1 - p.product q) +
      E.d * (p.x * q.y + p.y * q.x) * (p.y * q.y + p.x * q.x) * r.x * r.y =
    (1 + p.product q) * (1 - p.product q) * (1 + (p + q).product r) := by
  have hadd := p.one_add_product_ne_zero q
  have hsub := p.one_sub_product_ne_zero q
  unfold product at hadd hsub ⊢
  rw [add_x, add_y]
  unfold product
  field_simp

theorem tripleDenominator_ne_zero : (1 + p.product q) * (1 - p.product q) +
    E.d * (p.x * q.y + p.y * q.x) * (p.y * q.y + p.x * q.x) * r.x * r.y ≠ 0 := by
  rw [tripleDenominator_eq]
  exact mul_ne_zero (mul_ne_zero (p.one_add_product_ne_zero q) (p.one_sub_product_ne_zero q))
    ((p + q).one_add_product_ne_zero r)

theorem add_add_x : (p + q + r).x =
    ((p.x * q.y + p.y * q.x) * (1 - p.product q) * r.y +
      (p.y * q.y + p.x * q.x) * (1 + p.product q) * r.x) /
    ((1 + p.product q) * (1 - p.product q) +
      E.d * (p.x * q.y + p.y * q.x) * (p.y * q.y + p.x * q.x) * r.x * r.y) := by
  have hadd := p.one_add_product_ne_zero q
  have hsub := p.one_sub_product_ne_zero q
  have hnext := (p + q).one_add_product_ne_zero r
  rw [tripleDenominator_eq, add_x, eq_div_iff (mul_ne_zero (mul_ne_zero hadd hsub) hnext), add_x,
    add_y]
  field_simp

/-- The first coordinate.  Both sides are fractions, and their cross products differ by multiples
of the three curve equations. -/
theorem add_assoc_x : (p + q + r).x = (p + (q + r)).x := by
  have hp := p.onCurve
  have hq := q.onCurve
  have hr := r.onCurve
  rw [Point.add_comm p (q + r), Point.add_comm q r, add_add_x, add_add_x,
    div_eq_div_iff (tripleDenominator_ne_zero p q r) (tripleDenominator_ne_zero r q p)]
  unfold product
  linear_combination
    -E.d * q.x * q.y * (q.x * q.y * (r.y * (1 - r.y ^ 2) * (q.x * p.y + q.y * p.x) +
      r.x * (1 + r.x ^ 2) * (q.y * p.y + q.x * p.x)) + r.x * r.y *
      (q.y ^ 3 * (1 - E.d * q.x ^ 2) * (r.x * p.y - r.y * p.x) +
        q.x ^ 3 * (1 + E.d * q.y ^ 2) * (r.x * p.x - r.y * p.y))) * hp +
    E.d * q.x * q.y * (r.x * r.y * (p.x * (1 + p.x ^ 2) * (q.y * r.y + q.x * r.x) -
        p.y * (1 - p.y ^ 2) * (q.y * r.x + q.x * r.y)) - p.x * p.y *
      (r.x * (1 + r.x ^ 2) * (p.y * q.y + p.x * q.x) -
        r.y * (1 - r.y ^ 2) * (p.y * q.x + p.x * q.y))) * hq +
    E.d * q.x * q.y * (q.x * q.y * (p.y * (1 - p.y ^ 2) * (q.x * r.y + q.y * r.x) +
      p.x * (1 + p.x ^ 2) * (q.y * r.y + q.x * r.x)) + p.x * p.y *
      (q.y ^ 3 * (1 - E.d * q.x ^ 2) * (p.x * r.y - p.y * r.x) +
        q.x ^ 3 * (1 + E.d * q.y ^ 2) * (p.x * r.x - p.y * r.y))) * hr

/-- The second coordinate is the first one after a quarter turn. -/
protected theorem add_assoc : p + q + r = p + (q + r) := by
  ext
  · exact add_assoc_x p q r
  · refine mul_left_cancel₀ E.i_ne_zero ?_
    calc E.i * (p + q + r).y = (p + q + r.rotate).x := by rw [add_rotate, rotate_x]
      _ = (p + (q + r.rotate)).x := add_assoc_x p q r.rotate
      _ = E.i * (p + (q + r)).y := by rw [add_rotate, add_rotate, rotate_x]

protected theorem zero_add : 0 + p = p := by
  ext <;> simp [add_x, add_y, product]

protected theorem neg_add_cancel : -p + p = 0 := by
  have hp := p.onCurve
  have hadd := (-p).one_add_product_ne_zero p
  have hsub := (-p).one_sub_product_ne_zero p
  ext
  · rw [add_x, neg_x, neg_y, zero_x, div_eq_zero_iff]
    left
    ring
  · rw [add_y, zero_y, div_eq_one_iff_eq hsub]
    simp only [product, neg_x, neg_y]
    linear_combination hp

instance : AddCommGroup E.Point where
  add_assoc := Point.add_assoc
  zero_add := Point.zero_add
  add_zero p := (Point.add_comm p 0).trans (Point.zero_add p)
  add_comm := Point.add_comm
  neg_add_cancel := Point.neg_add_cancel
  nsmul := nsmulRec
  zsmul := zsmulRec

end Point

/-! ### The points on the axes -/

/-- The points on the axes.  They are the multiples of `(i, 0)`. -/
def torsion : AddSubgroup E.Point where
  carrier := {p | p.x * p.y = 0}
  zero_mem' := by simp
  neg_mem' := by
    intro p (h : p.x * p.y = 0)
    show -p.x * p.y = 0
    linear_combination -h
  add_mem' := by
    intro p q (hp : p.x * p.y = 0) (hq : q.x * q.y = 0)
    show (p + q).x * (p + q).y = 0
    rw [Point.add_x, Point.add_y, div_mul_div_comm, div_eq_zero_iff]
    left
    linear_combination (q.x ^ 2 + q.y ^ 2) * hp + (p.x ^ 2 + p.y ^ 2) * hq

variable {E} {p q : E.Point}

theorem mem_torsion_iff : p ∈ E.torsion ↔ p.x * p.y = 0 := Iff.rfl

/-- Points of one coset have proportional coordinates, one way or the other. -/
theorem sub_mem_torsion_iff :
    p - q ∈ E.torsion ↔ p.x * q.y = p.y * q.x ∨ p.y * q.y = p.x * q.x := by
  have hadd := p.one_add_product_ne_zero (-q)
  have hsub := p.one_sub_product_ne_zero (-q)
  rw [mem_torsion_iff, sub_eq_add_neg, mul_eq_zero, Point.add_x, Point.add_y,
    div_eq_zero_iff, div_eq_zero_iff, or_iff_left hadd, or_iff_left hsub, Point.neg_x, Point.neg_y,
    mul_neg, mul_neg, ← sub_eq_add_neg, ← sub_eq_add_neg, sub_eq_zero, sub_eq_zero]

namespace Point

variable (p q)

/-- The sum with the point `(0, -1)`. -/
def antipode : E.Point := ⟨-p.x, -p.y, by rw [neg_sq, neg_sq, p.onCurve]⟩

@[simp] theorem antipode_x : p.antipode.x = -p.x := rfl
@[simp] theorem antipode_y : p.antipode.y = -p.y := rfl

theorem rotate_rotate : p.rotate.rotate = p.antipode := by
  have hi := E.i_sq
  ext
  · simp only [rotate_x, rotate_y, antipode_x]
    linear_combination p.x * hi
  · simp only [rotate_x, rotate_y, antipode_y]
    linear_combination p.y * hi

theorem rotate_eq_add : p.rotate = p + rotate 0 := by rw [add_rotate, add_zero]

theorem antipode_eq_add : p.antipode = p + antipode 0 := by
  rw [← rotate_rotate, ← rotate_rotate, add_rotate, add_rotate, add_zero]

/-- The first coordinate is determined by the second up to sign. -/
theorem x_sq_mul : p.x ^ 2 * (1 + E.d * p.y ^ 2) = p.y ^ 2 - 1 := by
  linear_combination -p.onCurve

variable {p q}

theorem x_sq_eq_of_y_eq (h : p.y = q.y) : p.x ^ 2 = q.x ^ 2 := by
  have hp := p.x_sq_mul
  rw [h, ← q.x_sq_mul] at hp
  exact mul_right_cancel₀ (E.one_add_d_mul_sq_ne_zero q.y) hp

theorem y_of_x_eq_zero (h : p.x = 0) : p.y = 1 ∨ p.y = -1 := by
  have hp := p.onCurve
  rw [h] at hp
  exact sq_eq_one_iff.1 (by linear_combination hp)

theorem x_of_y_eq_zero (h : p.y = 0) : p.x = E.i ∨ p.x = -E.i := by
  have hp := p.onCurve
  have hi := E.i_sq
  rw [h] at hp
  exact sq_eq_sq_iff_eq_or_eq_neg.1 (by linear_combination -hp - hi)

theorem antipode_mem_torsion : antipode 0 ∈ E.torsion := by
  rw [mem_torsion_iff, antipode_x, zero_x, neg_zero, zero_mul]

theorem rotate_mem_torsion : rotate 0 ∈ E.torsion := by
  rw [mem_torsion_iff, rotate_y, zero_x, mul_zero, mul_zero]

end Point

theorem eq_of_mem_torsion (h : p ∈ E.torsion) : p = 0 ∨ p = Point.antipode 0 ∨
    p = Point.rotate 0 ∨ p = Point.antipode 0 + Point.rotate 0 := by
  rcases mul_eq_zero.1 h with hx | hy
  · rcases Point.y_of_x_eq_zero hx with hy | hy
    · exact .inl (Point.ext hx hy)
    · exact .inr (.inl (Point.ext (by simpa using hx) (by simpa using hy)))
  · rw [← Point.rotate_eq_add]
    rcases Point.x_of_y_eq_zero hy with hx | hx
    · exact .inr (.inr (.inl (Point.ext (by simpa using hx) (by simpa using hy))))
    · exact .inr (.inr (.inr (Point.ext (by simpa using hx) (by simpa using hy))))

/-- The points of a coset are the images of one of them under half turns and quarter turns. -/
theorem eq_of_sub_mem_torsion (h : p - q ∈ E.torsion) :
    p = q ∨ p = q.antipode ∨ p = q.rotate ∨ p = q.antipode.rotate := by
  obtain ⟨t, ht⟩ : ∃ t, p = q + t := ⟨p - q, by abel⟩
  rw [ht, add_sub_cancel_left] at h
  rw [ht, q.antipode_eq_add, q.rotate_eq_add,
    Point.rotate_eq_add (q + Point.antipode 0), add_assoc]
  rcases eq_of_mem_torsion h with rfl | rfl | rfl | rfl
  · exact .inl (add_zero q)
  · exact .inr (.inl rfl)
  · exact .inr (.inr (.inl rfl))
  · exact .inr (.inr (.inr rfl))

/-! ### The points with a square -/

/-- How `1 - d x²` multiplies, up to squares. -/
theorem Point.one_sub_add_x_sq :
    (1 - E.d * (p + q).x ^ 2) * ((1 - E.d * p.x ^ 2) * (1 - E.d * q.x ^ 2)) =
      ((1 - E.d * p.x ^ 2 - E.d * q.x ^ 2 - E.d * p.x ^ 2 * q.x ^ 2) / (1 + p.product q)) ^ 2 := by
  have hp := p.onCurve
  have hq := q.onCurve
  have hadd := p.one_add_product_ne_zero q
  have hleft : (1 - E.d * p.x ^ 2 * q.y ^ 2) * (1 - E.d * q.x ^ 2) =
      1 - E.d * p.x ^ 2 - E.d * q.x ^ 2 - E.d * p.x ^ 2 * q.x ^ 2 := by
    linear_combination -(E.d * p.x ^ 2) * hq
  have hright : (1 - E.d * q.x ^ 2 * p.y ^ 2) * (1 - E.d * p.x ^ 2) =
      1 - E.d * p.x ^ 2 - E.d * q.x ^ 2 - E.d * p.x ^ 2 * q.x ^ 2 := by
    linear_combination -(E.d * q.x ^ 2) * hp
  have hfactor : (1 + p.product q) ^ 2 - E.d * (p.x * q.y + p.y * q.x) ^ 2 =
      (1 - E.d * p.x ^ 2 * q.y ^ 2) * (1 - E.d * q.x ^ 2 * p.y ^ 2) := by
    unfold product
    ring
  have hsum : (1 - E.d * (p + q).x ^ 2) * (1 + p.product q) ^ 2 =
      (1 - E.d * p.x ^ 2 * q.y ^ 2) * (1 - E.d * q.x ^ 2 * p.y ^ 2) := by
    rw [← hfactor, Point.add_x]
    field_simp
  rw [div_pow, eq_div_iff (pow_ne_zero 2 hadd)]
  calc (1 - E.d * (p + q).x ^ 2) * ((1 - E.d * p.x ^ 2) * (1 - E.d * q.x ^ 2)) *
        (1 + p.product q) ^ 2
      = ((1 - E.d * p.x ^ 2 * q.y ^ 2) * (1 - E.d * q.x ^ 2)) *
          ((1 - E.d * q.x ^ 2 * p.y ^ 2) * (1 - E.d * p.x ^ 2)) := by
        linear_combination (1 - E.d * p.x ^ 2) * (1 - E.d * q.x ^ 2) * hsum
    _ = (1 - E.d * p.x ^ 2 - E.d * q.x ^ 2 - E.d * p.x ^ 2 * q.x ^ 2) ^ 2 := by
        rw [hleft, hright]
        ring

theorem Point.isSquare_one_sub_add_x_sq
    (h : IsSquare ((1 - E.d * p.x ^ 2) * (1 - E.d * q.x ^ 2))) :
    IsSquare (1 - E.d * (p + q).x ^ 2) := by
  have hne : (1 - E.d * p.x ^ 2) * (1 - E.d * q.x ^ 2) ≠ 0 :=
    mul_ne_zero (E.one_sub_d_mul_sq_ne_zero p.x) (E.one_sub_d_mul_sq_ne_zero q.x)
  rw [eq_div_of_mul_eq hne Point.one_sub_add_x_sq]
  exact (IsSquare.sq _).div h

variable (E) in
/-- The points at which `1 - d x²` is a square. -/
def even : AddSubgroup E.Point where
  carrier := {p | IsSquare (1 - E.d * p.x ^ 2)}
  zero_mem' := by simp
  neg_mem' := by
    intro p (h : IsSquare (1 - E.d * p.x ^ 2))
    show IsSquare (1 - E.d * (-p.x) ^ 2)
    rwa [neg_sq]
  add_mem' := fun hp hq => Point.isSquare_one_sub_add_x_sq (hp.mul hq)

theorem mem_even_iff : p ∈ E.even ↔ IsSquare (1 - E.d * p.x ^ 2) := Iff.rfl

theorem torsion_le_even (h : IsSquare (1 + E.d)) : E.torsion ≤ E.even := by
  intro p hp
  rw [mem_even_iff]
  rcases mul_eq_zero.1 hp with hx | hy
  · rw [hx]
    simp
  · have hcurve := p.onCurve
    rw [hy] at hcurve
    rwa [show 1 - E.d * p.x ^ 2 = 1 + E.d by linear_combination E.d * hcurve]

/-- On the points with a square, `1 - y²` is one, too. -/
theorem Point.one_sub_y_sq_mul (p : E.Point) :
    (1 - p.y ^ 2) * (1 - E.d * p.x ^ 2) = -(1 + E.d) * p.x ^ 2 := by
  linear_combination -p.onCurve

end EdwardsCurve
