import Mathlib.NumberTheory.LucasPrimality
import Mathlib.Data.ZMod.Basic
import Mathlib.Tactic

/-!
# Inverses and primes

* `bezoutLoop`, `modInverse`: the inverse of a number by the extended Euclidean algorithm, with one
  of the two Bézout coefficients (`mul_modInverse`);
* `prime_of_lucas`: Lucas' test, for a certificate that lists the prime factors of `p - 1`;
* `prime_of_checkLucas`: the test by computation, down a chain of primes.
-/

namespace Modular

/-! ### The extended Euclidean algorithm -/

/-- The loop, with the remainders `oldR`, `r` and their coefficients `oldS`, `s`. -/
def bezoutLoop (oldR r : ℕ) (oldS s : ℤ) : ℤ :=
  if hr : r = 0 then oldS
  else
    have : oldR - oldR / r * r < r := by
      rw [← Nat.mod_eq_sub_div_mul]
      exact Nat.mod_lt _ (Nat.pos_of_ne_zero hr)
    bezoutLoop r (oldR - oldR / r * r) s (oldS - ↑(oldR / r) * s)
termination_by r

/-- The inverse of `a` modulo `n`, where there is one. -/
def modInverse (a n : ℕ) : ℕ := (bezoutLoop (a % n) n 1 0 % n).toNat

variable {a n : ℕ}

/-- The coefficients keep up with the remainders, so the last one gives the divisor. -/
theorem bezoutLoop_spec {oldR r : ℕ} {oldS s : ℤ} (hold : (oldR : ZMod n) = a * oldS)
    (hr : (r : ZMod n) = a * s) :
    (Nat.gcd oldR r : ZMod n) = a * bezoutLoop oldR r oldS s := by
  induction oldR, r, oldS, s using bezoutLoop.induct with
  | case1 oldR oldS s =>
    rw [bezoutLoop, dif_pos rfl, Nat.gcd_zero_right, hold]
  | case2 oldR r oldS s hne hlt ih =>
    rw [bezoutLoop, dif_neg hne]
    have hle : oldR / r * r ≤ oldR := Nat.div_mul_le_self oldR r
    have hrest : ((oldR - oldR / r * r : ℕ) : ZMod n) = a * ↑(oldS - ↑(oldR / r) * s) := by
      rw [Nat.cast_sub hle, Nat.cast_mul, hold, hr, Int.cast_sub, Int.cast_mul, Int.cast_natCast]
      ring
    rw [← ih hr hrest, ← Nat.mod_eq_sub_div_mul, Nat.gcd_comm oldR r, Nat.gcd_rec r oldR,
      Nat.gcd_comm]

theorem mul_modInverse (hn : 0 < n) (ha : Nat.Coprime a n) : (a * modInverse a n : ZMod n) = 1 := by
  have : NeZero n := ⟨hn.ne'⟩
  have hold : ((a % n : ℕ) : ZMod n) = a * (1 : ℤ) := by
    rw [ZMod.natCast_mod, Int.cast_one, mul_one]
  have hr : (n : ZMod n) = a * (0 : ℤ) := by
    rw [ZMod.natCast_self, Int.cast_zero, mul_zero]
  have hgcd := bezoutLoop_spec hold hr
  rw [← Nat.gcd_rec, Nat.gcd_comm, ha, Nat.cast_one] at hgcd
  have hcast : (modInverse a n : ZMod n) = bezoutLoop (a % n) n 1 0 := by
    have hpos : 0 ≤ bezoutLoop (a % n) n 1 0 % n := Int.emod_nonneg _ (by omega)
    calc (modInverse a n : ZMod n) = ((modInverse a n : ℤ) : ZMod n) := (Int.cast_natCast _).symm
      _ = ((bezoutLoop (a % n) n 1 0 % n : ℤ) : ZMod n) := by
        rw [modInverse, Int.toNat_of_nonneg hpos]
      _ = bezoutLoop (a % n) n 1 0 := ZMod.intCast_mod _ n
  rw [hcast, hgcd]

theorem modInverse_lt (hn : 0 < n) : modInverse a n < n := by
  have hpos : 0 ≤ bezoutLoop (a % n) n 1 0 % n := Int.emod_nonneg _ (by omega)
  have hlt : bezoutLoop (a % n) n 1 0 % n < n := Int.emod_lt_of_pos _ (by omega)
  unfold modInverse
  omega

/-! ### Lucas' test -/

/-- A number is prime if some element has order `p - 1`, which is checked at the prime factors of
`p - 1`. -/
theorem prime_of_lucas {p : ℕ} (a : ZMod p) (factors : List ℕ) (hprod : factors.prod = p - 1)
    (hprime : ∀ q ∈ factors, q.Prime) (hone : a ^ (p - 1) = 1)
    (hne : ∀ q ∈ factors, a ^ ((p - 1) / q) ≠ 1) : p.Prime := by
  refine lucas_primality p a hone fun q hq hdvd => ?_
  rw [← hprod] at hdvd
  obtain ⟨q', hmem, hdvd⟩ := (hq.prime.dvd_prod_iff).1 hdvd
  rw [(Nat.prime_dvd_prime_iff_eq hq (hprime q' hmem)).1 hdvd]
  exact hne q' hmem

/-- Powers modulo `n` by squaring, for exponents of at most `bits` bits. -/
def powMod (n : ℕ) : ℕ → ℕ → ℕ → ℕ
  | 0, _, _ => 1 % n
  | bits + 1, a, e =>
    if e % 2 = 1 then a * powMod n bits (a * a % n) (e / 2) % n
    else powMod n bits (a * a % n) (e / 2)

theorem powMod_eq {bits e : ℕ} (he : e < 2 ^ bits) : powMod n bits a e = a ^ e % n := by
  induction bits generalizing a e with
  | zero =>
    obtain rfl : e = 0 := by simpa using he
    rfl
  | succ bits ih =>
    have hhalf : e / 2 < 2 ^ bits := by
      rw [pow_succ] at he
      omega
    have hsquare : powMod n bits (a * a % n) (e / 2) = a ^ (2 * (e / 2)) % n := by
      rw [ih hhalf, ← Nat.pow_mod, ← pow_two, ← pow_mul]
    rw [powMod, hsquare]
    split_ifs with hodd
    · calc a * (a ^ (2 * (e / 2)) % n) % n = a ^ (2 * (e / 2) + 1) % n := by
            rw [Nat.mul_mod_mod, pow_succ, mul_comm]
        _ = a ^ e % n := by rw [show 2 * (e / 2) + 1 = e by omega]
    · rw [show 2 * (e / 2) = e by omega]

/-- A number, an element of order one less, and the prime factors of one less. -/
structure LucasEntry where
  number : ℕ
  element : ℕ
  factors : List ℕ

/-- Lucas' test by computation, where `known` are primes. -/
def LucasEntry.check (known : List ℕ) (entry : LucasEntry) : Bool :=
  let p := entry.number
  decide (1 < p ∧ entry.factors.prod = p - 1) &&
    decide (powMod p (p.log2 + 1) entry.element (p - 1) = 1) &&
    entry.factors.all fun q =>
      known.contains q && decide (powMod p (p.log2 + 1) entry.element ((p - 1) / q) ≠ 1)

/-- Every entry passes with the numbers before it. -/
def checkLucas : List ℕ → List LucasEntry → Bool
  | _, [] => true
  | known, entry :: entries => entry.check known && checkLucas (entry.number :: known) entries

theorem LucasEntry.prime_of_check {known : List ℕ} {entry : LucasEntry}
    (hknown : ∀ q ∈ known, q.Prime) (h : entry.check known = true) : entry.number.Prime := by
  simp only [LucasEntry.check, Bool.and_eq_true, decide_eq_true_eq, List.all_eq_true,
    List.contains_iff_mem] at h
  obtain ⟨⟨⟨hp, hprod⟩, hone⟩, hfactors⟩ := h
  set p := entry.number
  have hpow : ∀ e ≤ p - 1, powMod p (p.log2 + 1) entry.element e = 1 ↔
      (entry.element : ZMod p) ^ e = 1 := by
    intro e he
    have hlt : e < 2 ^ (p.log2 + 1) := (by omega : e < p).trans Nat.lt_log2_self
    rw [powMod_eq hlt, ← Nat.cast_one (R := ZMod p), ← Nat.cast_pow, ZMod.natCast_eq_natCast_iff,
      Nat.ModEq, Nat.mod_eq_of_lt hp]
  refine prime_of_lucas entry.element entry.factors hprod (fun q hq => hknown q (hfactors q hq).1)
    ((hpow _ le_rfl).1 hone) fun q hq hpower => (hfactors q hq).2 ?_
  exact (hpow _ (Nat.div_le_self _ _)).2 hpower

theorem prime_of_checkLucas {known : List ℕ} {entries : List LucasEntry}
    (hknown : ∀ q ∈ known, q.Prime) (h : checkLucas known entries = true) {p : ℕ}
    (hp : p ∈ entries.map LucasEntry.number) : p.Prime := by
  induction entries generalizing known with
  | nil => cases hp
  | cons entry entries ih =>
    rw [checkLucas, Bool.and_eq_true] at h
    have hentry := LucasEntry.prime_of_check hknown h.1
    rcases List.mem_cons.1 hp with rfl | hp
    · exact hentry
    · exact ih (List.forall_mem_cons.2 ⟨hentry, hknown⟩) h.2 hp

end Modular
