import Mathlib.Algebra.Module.Torsion.Free
import Mathlib.Tactic

/-!
# ElGamal with the message in the exponent

Scalars `K` act on a group `G` with a generator `g`; a public key is `s • g`.  The message is a
multiple of a generator, and whoever decrypts has to find the multiplier.

* `plain`, `openPlain`: the message stands in the second component (`openPlain_plain_eq_iff`);
* `twisted`, `openTwisted`: the message stands in the first component, over a second generator
  (`openTwisted_twisted`).

Sums, differences and multiples of ciphertexts are ciphertexts of the results (`plain_add`,
`twisted_add` and so on).

Each of the two opens what the other one encrypts only for one key
(`openTwisted_plain_eq_iff`, `openPlain_twisted_eq_iff`).
-/

namespace ElGamal

variable {K G : Type*} [Field K] [AddCommGroup G] [Module K G]

/-- A ciphertext as two elements of the group. -/
structure Ciphertext (G : Type*) where
  c1 : G
  c2 : G

/-- Encryption of `m` with randomness `r`, under the key `pk`. -/
def plain (g pk : G) (m r : K) : Ciphertext G := ⟨r • g, m • g + r • pk⟩

/-- What the secret `s` makes of a ciphertext. -/
def openPlain (s : K) (ct : Ciphertext G) : G := ct.c2 - s • ct.c1

/-- Encryption with the message over `h`. -/
def twisted (g h pk : G) (m r : K) : Ciphertext G := ⟨m • h + r • g, r • pk⟩

/-- What the secret `s` makes of a ciphertext with the message in the first component. -/
def openTwisted (s : K) (ct : Ciphertext G) : G := ct.c1 - s⁻¹ • ct.c2

variable {g h pk : G} {s t k m m' r r' : K}

/-! ### Sums of ciphertexts -/

instance : Add (Ciphertext G) := ⟨fun a b => ⟨a.c1 + b.c1, a.c2 + b.c2⟩⟩

instance : Sub (Ciphertext G) := ⟨fun a b => ⟨a.c1 - b.c1, a.c2 - b.c2⟩⟩

instance : SMul K (Ciphertext G) := ⟨fun k a => ⟨k • a.c1, k • a.c2⟩⟩

theorem plain_add : plain g pk m r + plain g pk m' r' = plain g pk (m + m') (r + r') :=
  congrArg₂ Ciphertext.mk (add_smul r r' g).symm (by dsimp only [plain]; module)

theorem plain_sub : plain g pk m r - plain g pk m' r' = plain g pk (m - m') (r - r') :=
  congrArg₂ Ciphertext.mk (sub_smul r r' g).symm (by dsimp only [plain]; module)

theorem twisted_add :
    twisted g h pk m r + twisted g h pk m' r' = twisted g h pk (m + m') (r + r') :=
  congrArg₂ Ciphertext.mk (by dsimp only [twisted]; module) (add_smul r r' pk).symm

theorem twisted_sub :
    twisted g h pk m r - twisted g h pk m' r' = twisted g h pk (m - m') (r - r') :=
  congrArg₂ Ciphertext.mk (by dsimp only [twisted]; module) (sub_smul r r' pk).symm

theorem twisted_smul : k • twisted g h pk m r = twisted g h pk (k * m) (k * r) :=
  congrArg₂ Ciphertext.mk (by dsimp only [twisted]; module) (mul_smul k r pk).symm

/-! ### Decryption -/

/-- With another secret than that of the key, the randomness stays. -/
theorem openPlain_plain : openPlain s (plain g (t • g) m r) = (m + r * (t - s)) • g := by
  simp only [openPlain, plain]
  module

theorem openTwisted_twisted (hs : s ≠ 0) : openTwisted s (twisted g h (s • g) m r) = m • h := by
  have hcancel : s⁻¹ • r • s • g = r • g := by
    rw [smul_comm r s g, inv_smul_smul₀ hs]
  simp only [openTwisted, twisted, hcancel, add_sub_cancel_right]

theorem openTwisted_plain (hs : s ≠ 0) :
    openTwisted s (plain g (s • g) m r) = -((s⁻¹ * m) • g) := by
  have hcancel : s⁻¹ • r • s • g = r • g := by
    rw [smul_comm r s g, inv_smul_smul₀ hs]
  simp only [openTwisted, plain, smul_add, hcancel, mul_smul]
  abel

theorem openPlain_twisted : openPlain s (twisted g h (s • g) m r) = -((s * m) • h) := by
  simp only [openPlain, twisted]
  module

section Mismatch

variable (hg : g ≠ 0)

include hg

theorem smul_generator_inj {a b : K} : a • g = b • g ↔ a = b :=
  ⟨fun h => smul_left_injective K hg h, fun h => h ▸ rfl⟩

/-- Only the secret of the key opens a ciphertext. -/
theorem openPlain_plain_eq_iff (hr : r ≠ 0) :
    openPlain s (plain g (t • g) m r) = m • g ↔ s = t := by
  rw [openPlain_plain, smul_generator_inj hg, add_eq_left, mul_eq_zero, or_iff_right hr,
    sub_eq_zero, eq_comm]

/-- A message from the second component, read as one from the first. -/
theorem openTwisted_plain_eq_iff (hs : s ≠ 0) :
    openTwisted s (plain g (s • g) m r) = m • k • g ↔ m = 0 ∨ s * k = -1 := by
  rw [openTwisted_plain hs, ← neg_smul, smul_smul, smul_generator_inj hg]
  constructor
  · intro heq
    have hprod : m * (s * k + 1) = 0 := by
      calc m * (s * k + 1) = s * (m * k - -(s⁻¹ * m)) := by
            field_simp
            ring
        _ = 0 := by rw [← heq, sub_self, mul_zero]
    exact (mul_eq_zero.1 hprod).imp_right eq_neg_of_add_eq_zero_left
  · rintro (rfl | hsk)
    · simp
    · have hk : k = -s⁻¹ := by
        rw [eq_neg_iff_add_eq_zero, ← mul_right_inj' hs, mul_add, hsk, mul_inv_cancel₀ hs]
        ring
      rw [hk]
      ring

/-- A message from the first component, read as one from the second. -/
theorem openPlain_twisted_eq_iff :
    openPlain s (twisted g (k • g) (s • g) m r) = m • g ↔ m = 0 ∨ s * k = -1 := by
  rw [openPlain_twisted, ← neg_smul, smul_smul, smul_generator_inj hg]
  constructor
  · intro heq
    have hprod : m * (s * k + 1) = 0 := by
      calc m * (s * k + 1) = m - -(s * m) * k := by ring
        _ = 0 := by rw [heq, sub_self]
    exact (mul_eq_zero.1 hprod).imp_right eq_neg_of_add_eq_zero_left
  · rintro (rfl | hsk)
    · simp
    · calc -(s * m) * k = -(s * k) * m := by ring
        _ = m := by rw [hsk, neg_neg, one_mul]

end Mismatch

end ElGamal
