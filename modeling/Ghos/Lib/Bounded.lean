import Mathlib.Tactic

/-!
# Saturating arithmetic and little-endian bytes

* `Int64.saturatingAdd`, `Int64.saturatingSub`, `UInt8.saturatingAdd`, `UInt64.saturatingAdd`:
  arithmetic that stops at the ends of the type;
* `leBytes n x`: the `n` low bytes of `x`, least significant first, and its inverse `leNat`;
* `UInt64.toLeBytes`, `Int64.toLeBytes`: the eight bytes of a number.
-/

/-- Addition that stops at the smallest and the largest value. -/
def Int64.saturatingAdd (a b : Int64) : Int64 := Int64.ofIntClamp (a.toInt + b.toInt)

/-- Subtraction that stops at the smallest and the largest value. -/
def Int64.saturatingSub (a b : Int64) : Int64 := Int64.ofIntClamp (a.toInt - b.toInt)

/-- Addition that stops at the largest value. -/
def UInt8.saturatingAdd (a b : UInt8) : UInt8 := UInt8.ofNatClamp (a.toNat + b.toNat)

/-- Addition that stops at the largest value. -/
def UInt64.saturatingAdd (a b : UInt64) : UInt64 := UInt64.ofNatClamp (a.toNat + b.toNat)

namespace Int64

theorem toInt_saturatingAdd_of_nonneg {a b : Int64} (hb : 0 ≤ b.toInt) :
    (a.saturatingAdd b).toInt = min (a.toInt + b.toInt) (2 ^ 63 - 1) := by
  have ha := a.le_toInt
  have hmin := toInt_minValue
  have hmax := toInt_maxValue
  unfold saturatingAdd
  by_cases h : a.toInt + b.toInt ≤ maxValue.toInt
  · rw [toInt_ofIntClamp (by omega) h]
    omega
  · rw [ofIntClamp, dif_pos (by omega), dif_neg h]
    omega

/-- Adding something positive never goes down. -/
theorem le_saturatingAdd {a b : Int64} (hb : 0 < b) : a ≤ a.saturatingAdd b := by
  rw [lt_iff_toInt_lt, toInt_zero] at hb
  rw [le_iff_toInt_le, toInt_saturatingAdd_of_nonneg hb.le]
  have := a.toInt_lt
  omega

/-- Adding something positive goes up, except at the largest value. -/
theorem lt_saturatingAdd {a b : Int64} (ha : a < maxValue) (hb : 0 < b) :
    a < a.saturatingAdd b := by
  rw [lt_iff_toInt_lt] at *
  rw [toInt_zero] at hb
  rw [toInt_maxValue] at ha
  rw [toInt_saturatingAdd_of_nonneg hb.le]
  omega

/-- A bound on a difference that stops at the ends is a bound on the exact difference, unless it is
the smallest value. -/
theorem le_saturatingSub {a b c : Int64} :
    c ≤ a.saturatingSub b ↔ c.toInt ≤ a.toInt - b.toInt ∨ c = minValue := by
  have hmin := toInt_minValue
  have hmax := toInt_maxValue
  have hc := c.toInt_lt
  have hc' := c.le_toInt
  rw [le_iff_toInt_le, ← Int64.toInt_inj, saturatingSub]
  by_cases hlow : minValue.toInt ≤ a.toInt - b.toInt
  · by_cases hhigh : a.toInt - b.toInt ≤ maxValue.toInt
    · rw [toInt_ofIntClamp hlow hhigh]
      omega
    -- the difference is too large: the bound holds on both sides
    · rw [ofIntClamp, dif_pos hlow, dif_neg hhigh]
      omega
  -- the difference is too small: only the smallest value passes
  · rw [ofIntClamp, dif_neg hlow]
    omega

end Int64

namespace UInt8

/-- Below a bound, adding one is exact. -/
theorem toNat_saturatingAdd_one {a b : UInt8} (h : a < b) :
    (a.saturatingAdd 1).toNat = a.toNat + 1 := by
  have ha : a.toNat < b.toNat := h
  have hb := b.toNat_lt
  exact toNat_ofNatClamp_of_lt (by simp only [UInt8.size, UInt8.toNat_one]; omega)

end UInt8

theorem UInt64.toNat_saturatingAdd (a b : UInt64) :
    (a.saturatingAdd b).toNat = min (a.toNat + b.toNat) (2 ^ 64 - 1) := by
  have hsize : UInt64.size = 2 ^ 64 := rfl
  unfold saturatingAdd
  by_cases h : a.toNat + b.toNat < UInt64.size
  · rw [toNat_ofNatClamp_of_lt h]
    omega
  · rw [toNat_ofNatClamp_of_le (by omega)]
    omega

theorem UInt64.mod_eq_zero_iff {a b : UInt64} : a % b = 0 ↔ b.toNat ∣ a.toNat := by
  rw [← UInt64.toNat_inj, UInt64.toNat_mod, UInt64.toNat_zero, Nat.dvd_iff_mod_eq_zero]

/-! ### Little-endian bytes -/

/-- The `n` low bytes of `x`, least significant first. -/
def leBytes : ℕ → ℕ → List UInt8
  | 0, _ => []
  | n + 1, x => UInt8.ofNat x :: leBytes n (x / 256)

/-- The number with the given bytes, least significant first. -/
def leNat : List UInt8 → ℕ
  | [] => 0
  | b :: l => b.toNat + 256 * leNat l

theorem length_leBytes (n x : ℕ) : (leBytes n x).length = n := by
  induction n generalizing x with
  | zero => rfl
  | succ n ih => rw [leBytes, List.length_cons, ih]

theorem leNat_leBytes (n x : ℕ) : leNat (leBytes n x) = x % 256 ^ n := by
  induction n generalizing x with
  | zero => simp [leNat, leBytes, Nat.mod_one]
  | succ n ih =>
    simp only [leBytes, leNat, ih, UInt8.toNat_ofNat']
    rw [show 256 ^ (n + 1) = 256 * 256 ^ n from pow_succ' 256 n, Nat.mod_mul]

theorem leNat_leBytes_of_lt {n x : ℕ} (h : x < 256 ^ n) : leNat (leBytes n x) = x := by
  rw [leNat_leBytes, Nat.mod_eq_of_lt h]

theorem leNat_singleton (b : UInt8) : leNat [b] = b.toNat := by simp [leNat]

theorem leNat_lt (p : List UInt8) : leNat p < 256 ^ p.length := by
  induction p with
  | nil => simp [leNat]
  | cons b p ih =>
    have hb := b.toNat_lt
    rw [leNat, List.length_cons, pow_succ']
    omega

/-- A byte string has the bytes of its number. -/
theorem leBytes_leNat {n : ℕ} {p : List UInt8} (hp : p.length = n) : leBytes n (leNat p) = p := by
  induction p generalizing n with
  | nil =>
    subst hp
    rfl
  | cons b p ih =>
    subst hp
    have hb := b.toNat_lt
    have hlow : (b.toNat + 256 * leNat p) % 256 = b.toNat := by omega
    have hhigh : (b.toNat + 256 * leNat p) / 256 = leNat p := by omega
    rw [List.length_cons, leBytes, leNat, hhigh, ih rfl, ← UInt8.ofNat_mod_size, hlow,
      UInt8.ofNat_toNat]

/-- The low bytes, then the bytes above them. -/
theorem leBytes_add (m n x : ℕ) : leBytes (m + n) x = leBytes m x ++ leBytes n (x / 256 ^ m) := by
  induction m generalizing x with
  | zero => simp [leBytes]
  | succ m ih =>
    rw [Nat.succ_add, leBytes, ih, leBytes, List.cons_append, Nat.div_div_eq_div_mul,
      ← pow_succ' 256 m]

/-- The eight bytes of a `u64`. -/
def UInt64.toLeBytes (x : UInt64) : List UInt8 := leBytes 8 x.toNat

theorem UInt64.toLeBytes_injective : Function.Injective UInt64.toLeBytes := by
  intro x y h
  have h' := congrArg leNat h
  simp only [UInt64.toLeBytes, leNat_leBytes] at h'
  have hx := x.toNat_lt
  have hy := y.toNat_lt
  exact UInt64.toNat_inj.1 (by omega)

/-- The eight bytes of an `i64`, in two's complement. -/
def Int64.toLeBytes (x : Int64) : List UInt8 := leBytes 8 (x.toInt % 2 ^ 64).toNat

@[simp] theorem UInt64.length_toLeBytes (x : UInt64) : x.toLeBytes.length = 8 := length_leBytes 8 _

@[simp] theorem Int64.length_toLeBytes (x : Int64) : x.toLeBytes.length = 8 := length_leBytes 8 _

theorem UInt64.ofNat_leNat_eq_iff {p : List UInt8} (hp : p.length = 8) {x : UInt64} :
    UInt64.ofNat (leNat p) = x ↔ p = x.toLeBytes := by
  have hn := leNat_lt p
  have hx := x.toNat_lt
  rw [hp] at hn
  rw [← UInt64.toNat_inj, UInt64.toNat_ofNat', UInt64.toLeBytes]
  constructor
  · intro h
    rw [← h, Nat.mod_eq_of_lt (by omega), leBytes_leNat hp]
  · intro h
    rw [h, leNat_leBytes]
    omega

theorem Int64.ofNat_leNat_eq_iff {p : List UInt8} (hp : p.length = 8) {x : Int64} :
    Int64.ofNat (leNat p) = x ↔ p = x.toLeBytes := by
  have hn := leNat_lt p
  have hlow := x.le_toInt
  have hhigh := x.toInt_lt
  rw [hp] at hn
  rw [← Int64.toInt_inj, Int64.toInt_ofNat', Int64.toLeBytes, Int.bmod, Int64.size]
  constructor
  · intro h
    have hunsigned : (x.toInt % 2 ^ 64).toNat = leNat p := by
      rw [← h]
      omega
    rw [hunsigned, leBytes_leNat hp]
  · intro h
    rw [h, leNat_leBytes]
    omega

/-- The number in two's complement with the given eight bytes. -/
def leInt (p : List UInt8) : ℤ := if leNat p < 2 ^ 63 then leNat p else leNat p - 2 ^ 64

theorem UInt64.leNat_toLeBytes (x : UInt64) : leNat x.toLeBytes = x.toNat :=
  leNat_leBytes_of_lt x.toNat_lt

theorem Int64.leInt_toLeBytes (x : Int64) : leInt x.toLeBytes = x.toInt := by
  have hlow := x.le_toInt
  have hhigh := x.toInt_lt
  rw [leInt, Int64.toLeBytes, leNat_leBytes]
  omega

theorem Int64.toLeBytes_injective : Function.Injective Int64.toLeBytes := by
  intro x y h
  have h' := congrArg leInt h
  rw [Int64.leInt_toLeBytes, Int64.leInt_toLeBytes] at h'
  exact Int64.toInt_inj.1 h'
