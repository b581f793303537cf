import Ghos.Lib.Sigma
import Ghos.Client.ElGamal

/-!
# The sigma protocols of the SDK

`sdk/src/crypto/sigma.ts` proves that two ciphertexts have one plaintext, that a public key has a
secret and that a ciphertext has the plaintext zero.  A prover runs, and writes what it has sent;
a verifier reads it back and checks one equation for each component.

* `equalityEquations_eq_ok_true` and the two others: the equations that the verifiers check;
* `specialSoundness`: two accepted runs with the same commitments give a witness.
-/

namespace Ghos.Sdk

open Ristretto255

variable {Point : Type} [Ristretto255 Point]

/-! ### Shared helpers -/

/-- Compare without an early exit. -/
def constantTimeEqual (a b : List UInt8) : Bool :=
  decide (a.length = b.length) && (List.zipWith (· ^^^ ·) a b).foldl (· ||| ·) 0 == 0

def pointsEqual (a b : Point) : Bool := constantTimeEqual (encode a).toList (encode b).toList

/-- `bytes.slice(start, stop)`. -/
def slice (bytes : List UInt8) (start stop : ℕ) : List UInt8 :=
  (bytes.drop start).take (stop - start)

/-- `scalar === 0n ? RistrettoPoint.ZERO : p.multiply(scalar)`. -/
def multiplyUnlessZero (p : Except SdkError Point) (scalar : ℕ) : Except SdkError Point :=
  if scalar = 0 then return 0 else do multiply (← p) scalar

/-- The two sides of the equation `lhs =? a + challenge * x`. -/
def sides (lhs : Except SdkError Point) (a x : Point) (challenge : ℕ) :
    Except SdkError (Point × Point) := do
  let lhs ← lhs
  let rhs := a + (← multiply x challenge)
  return (lhs, rhs)

/-- The checks of a verifier, one after the other: the two sides of each are computed and compared,
and the first difference ends it. -/
def equationsHold : List (Except SdkError (Point × Point)) → Except SdkError Bool
  | [] => return true
  | equation :: equations => do
    let (lhs, rhs) ← equation
    if pointsEqual lhs rhs then equationsHold equations else return false

/-- `try { ... } catch { return false; }`. -/
def orFalse (result : Except SdkError Bool) : Bool :=
  match result with
  | .ok b => b
  | .error _ => false

section Hash

variable (sha512 : List UInt8 → Vector UInt8 64)

/-- Compute a Fiat-Shamir challenge from a list of messages. -/
def transcriptChallenge (domain : List UInt8) (messages : List (List UInt8)) : ℕ :=
  scalarFromUniform64 (sha512 (domain ++ messages.flatten)).toList

/-- The first half of a twisted ElGamal ciphertext. -/
def pedersenC1 (vScalar rScalar : ℕ) : Except SdkError Point := do
  let vH : Point ← multiplyUnlessZero (twistedH sha512) vScalar
  let rG ← multiplyUnlessZero (return base) rScalar
  return vH + rG

end Hash

/-! ### Equality of plaintexts -/

def equalityDomain : List UInt8 := asciiBytes "ghos.sigma.equality.v1"

/-- What the prover knows. -/
structure EqualityParams where
  sourcePk : List UInt8
  destPk : List UInt8
  v : ℤ
  rS : ℤ
  rD : ℤ

structure EqualityProof where
  proofBytes : List UInt8
  sourceCommitment : List UInt8
  destCommitment : List UInt8
  deriving DecidableEq

/-- The messages of a run of the prover. -/
structure EqualityRun (Point : Type) where
  a1 : Point
  a2 : Point
  a3 : Point
  a4 : Point
  c1Source : Point
  c1Dest : Point
  challenge : ℕ
  z1 : ℕ
  z2 : ℕ
  z3 : ℕ

def EqualityRun.proof (run : EqualityRun Point) : EqualityProof where
  proofBytes := [(encode run.a1).toList, (encode run.a2).toList, (encode run.a3).toList,
    (encode run.a4).toList, scalarToLE32 run.z1, scalarToLE32 run.z2, scalarToLE32 run.z3].flatten
  sourceCommitment := (encode run.c1Source).toList
  destCommitment := (encode run.c1Dest).toList

/-- The points of a statement. -/
structure EqualityPoints (Point : Type) where
  sourcePk : Point
  destPk : Point
  sourceCt : ElGamal.Ciphertext Point
  destCt : ElGamal.Ciphertext Point

/-- What the verifier is given besides the proof. -/
structure EqualityStatement where
  sourcePk : List UInt8
  destPk : List UInt8
  sourceCt : ElGamalCiphertext
  destCt : ElGamalCiphertext

section Hash

variable (sha512 : List UInt8 → Vector UInt8 64)

/-- The challenge over keys, ciphertexts and commitments; both sides hash the keys as given. -/
def equalityChallenge (sourcePk destPk : List UInt8) (c1Source c2Source c1Dest c2Dest a1 a2 a3 a4 :
    Point) : ℕ :=
  transcriptChallenge sha512 equalityDomain [sourcePk, destPk, (encode c1Source).toList,
    (encode c2Source).toList, (encode c1Dest).toList, (encode c2Dest).toList, (encode a1).toList,
    (encode a2).toList, (encode a3).toList, (encode a4).toList]

/-- `proveEquality` until it writes the proof; it draws 64 bytes for each of `t1`, `t2`, `t3`. -/
def runEquality (params : EqualityParams) (draw1 draw2 draw3 : Vector UInt8 64) :
    Except SdkError (EqualityRun Point) := do
  let sourcePoint : Point ← pointFromBytes params.sourcePk
  let destPoint ← pointFromBytes params.destPk
  let vScalar := reduceScalar params.v
  let rSScalar := reduceScalar params.rS
  let rDScalar := reduceScalar params.rD
  let t1 := scalarFromUniform64 draw1.toList
  let t2 := scalarFromUniform64 draw2.toList
  let t3 := scalarFromUniform64 draw3.toList
  let h ← twistedH sha512
  let a1 := (← multiply h t1) + (← multiply base t2)
  let a2 := (← multiply h t1) + (← multiply base t3)
  let a3 ← multiply sourcePoint t2
  let a4 ← multiply destPoint t3
  let c1Source ← pedersenC1 sha512 vScalar rSScalar
  let c1Dest ← pedersenC1 sha512 vScalar rDScalar
  let c2Source ← multiply sourcePoint rSScalar
  let c2Dest ← multiply destPoint rDScalar
  let challenge := equalityChallenge sha512 params.sourcePk params.destPk c1Source c2Source c1Dest
    c2Dest a1 a2 a3 a4
  return {
    a1, a2, a3, a4, c1Source, c1Dest, challenge
    z1 := reduceScalar (t1 + reduceScalar (challenge * vScalar))
    z2 := reduceScalar (t2 + reduceScalar (challenge * rSScalar))
    z3 := reduceScalar (t3 + reduceScalar (challenge * rDScalar)) }

variable (Point) in
/-- Prove that two ciphertexts have one plaintext. -/
def proveEquality (params : EqualityParams) (draw1 draw2 draw3 : Vector UInt8 64) :
    Except SdkError EqualityProof := do
  let run : EqualityRun Point ← runEquality sha512 params draw1 draw2 draw3
  return run.proof

/-- The four equations, for commitments and a challenge. -/
def equalityEquations (points : EqualityPoints Point) (a1 a2 a3 a4 : Point)
    (challenge z1 z2 z3 : ℕ) : Except SdkError Bool := do
  let h ← twistedH sha512
  equationsHold [
    sides (do return (← multiply h z1) + (← multiply base z2)) a1 points.sourceCt.c1 challenge,
    sides (do return (← multiply h z1) + (← multiply base z3)) a2 points.destCt.c1 challenge,
    sides (multiply points.sourcePk z2) a3 points.sourceCt.c2 challenge,
    sides (multiply points.destPk z3) a4 points.destCt.c2 challenge]

variable (Point) in
/-- The body of `verifyEquality`. -/
def checkEquality (params : EqualityStatement) (proofBytes : List UInt8) :
    Except SdkError Bool := do
  let sourcePoint : Point ← pointFromBytes params.sourcePk
  let destPoint ← pointFromBytes params.destPk
  let a1 ← pointFromBytes (slice proofBytes 0 32)
  let a2 ← pointFromBytes (slice proofBytes 32 64)
  let a3 ← pointFromBytes (slice proofBytes 64 96)
  let a4 ← pointFromBytes (slice proofBytes 96 128)
  let z1 ← scalarFromLE32 (slice proofBytes 128 160)
  let z2 ← scalarFromLE32 (slice proofBytes 160 192)
  let z3 ← scalarFromLE32 (slice proofBytes 192 224)
  let c1Source ← pointFromBytes params.sourceCt.c1
  let c2Source ← pointFromBytes params.sourceCt.c2
  let c1Dest ← pointFromBytes params.destCt.c1
  let c2Dest ← pointFromBytes params.destCt.c2
  let challenge := equalityChallenge sha512 params.sourcePk params.destPk c1Source c2Source c1Dest
    c2Dest a1 a2 a3 a4
  equalityEquations sha512 ⟨sourcePoint, destPoint, ⟨c1Source, c2Source⟩, ⟨c1Dest, c2Dest⟩⟩
    a1 a2 a3 a4 challenge z1 z2 z3

variable (Point) in
/-- Verify an equality proof. -/
def verifyEquality (params : EqualityStatement) (proof : EqualityProof) : Bool :=
  if proof.proofBytes.length ≠ 32 * 4 + 32 * 3 then false
  else orFalse (checkEquality Point sha512 params proof.proofBytes)

end Hash

/-! ### Validity of a public key -/

def pubkeyValidityDomain : List UInt8 := asciiBytes "ghos.sigma.pkvalid.v1"

structure PubkeyValidityProof where
  proofBytes : List UInt8
  pubkey : List UInt8
  deriving DecidableEq

structure PubkeyValidityRun (Point : Type) where
  pkPoint : Point
  r : Point
  challenge : ℕ
  z : ℕ

def PubkeyValidityRun.proof (run : PubkeyValidityRun Point) : PubkeyValidityProof where
  proofBytes := [(encode run.r).toList, scalarToLE32 run.z].flatten
  pubkey := (encode run.pkPoint).toList

/-- The equation, for a commitment and a challenge. -/
def pubkeyValidityEquations (pkPoint r : Point) (challenge z : ℕ) : Except SdkError Bool :=
  equationsHold [sides (multiply base z) r pkPoint challenge]

section Hash

variable (sha512 : List UInt8 → Vector UInt8 64)

def pubkeyValidityChallenge (pkPoint r : Point) : ℕ :=
  transcriptChallenge sha512 pubkeyValidityDomain [(encode pkPoint).toList, (encode r).toList]

def runPubkeyValidity (secret : List UInt8) (draw : Vector UInt8 64) :
    Except SdkError (PubkeyValidityRun Point) := do
  let skScalar ← scalarFromLE32 secret
  throwUnless (skScalar ≠ 0)
    (.ghosSdkError invalidKeyDerivation "cannot prove validity of zero key")
  let pkPoint : Point ← multBaseG skScalar
  let nonce := scalarFromUniform64 draw.toList
  let r ← multBaseG nonce
  let challenge := pubkeyValidityChallenge sha512 pkPoint r
  return { pkPoint, r, challenge, z := reduceScalar (nonce + reduceScalar (challenge * skScalar)) }

variable (Point) in
/-- Prove that a public key has a secret. -/
def provePubkeyValidity (secret : List UInt8) (draw : Vector UInt8 64) :
    Except SdkError PubkeyValidityProof := do
  let run : PubkeyValidityRun Point ← runPubkeyValidity sha512 secret draw
  return run.proof

variable (Point) in
/-- The body of `verifyPubkeyValidity`. -/
def checkPubkeyValidity (proof : PubkeyValidityProof) : Except SdkError Bool := do
  let pkPoint : Point ← pointFromBytes proof.pubkey
  let r ← pointFromBytes (slice proof.proofBytes 0 32)
  let z ← scalarFromLE32 (slice proof.proofBytes 32 64)
  pubkeyValidityEquations pkPoint r (pubkeyValidityChallenge sha512 pkPoint r) z

variable (Point) in
/-- Verify a proof of the validity of a key. -/
def verifyPubkeyValidity (proof : PubkeyValidityProof) : Bool :=
  if proof.proofBytes.length ≠ 64 then false else orFalse (checkPubkeyValidity Point sha512 proof)

end Hash

/-! ### Balances of zero -/

def zeroBalanceDomain : List UInt8 := asciiBytes "ghos.sigma.zero.v1"

structure ZeroBalanceProof where
  proofBytes : List UInt8
  ciphertext : ElGamalCiphertext
  deriving DecidableEq

structure ZeroBalanceRun (Point : Type) where
  a1 : Point
  a2 : Point
  challenge : ℕ
  z : ℕ

def ZeroBalanceRun.proof (run : ZeroBalanceRun Point) (ciphertext : ElGamalCiphertext) :
    ZeroBalanceProof where
  proofBytes := [(encode run.a1).toList, (encode run.a2).toList, scalarToLE32 run.z].flatten
  ciphertext := ciphertext

/-- The two equations, for commitments and a challenge. -/
def zeroBalanceEquations (pkPoint : Point) (ct : ElGamal.Ciphertext Point) (a1 a2 : Point)
    (challenge z : ℕ) : Except SdkError Bool :=
  equationsHold [sides (multiply base z) a1 ct.c1 challenge,
    sides (multiply pkPoint z) a2 ct.c2 challenge]

section Hash

variable (sha512 : List UInt8 → Vector UInt8 64)

/-- The challenge; both sides hash the key and the ciphertext as given. -/
def zeroBalanceChallenge (pk : List UInt8) (ciphertext : ElGamalCiphertext) (a1 a2 : Point) : ℕ :=
  transcriptChallenge sha512 zeroBalanceDomain [pk, ciphertext.c1, ciphertext.c2,
    (encode a1).toList, (encode a2).toList]

def runZeroBalance (pk : List UInt8) (ciphertext : ElGamalCiphertext) (r : ℤ)
    (draw : Vector UInt8 64) : Except SdkError (ZeroBalanceRun Point) := do
  let pkPoint : Point ← pointFromBytes pk
  let t := scalarFromUniform64 draw.toList
  let a1 ← multBaseG t
  let a2 ← multiply pkPoint t
  let challenge := zeroBalanceChallenge sha512 pk ciphertext a1 a2
  return { a1, a2, challenge, z := reduceScalar (t + reduceScalar (challenge * reduceScalar r)) }

variable (Point) in
/-- Prove that a ciphertext has the plaintext zero. -/
def proveZeroBalance (pk : List UInt8) (ciphertext : ElGamalCiphertext) (r : ℤ)
    (draw : Vector UInt8 64) : Except SdkError ZeroBalanceProof := do
  let run : ZeroBalanceRun Point ← runZeroBalance sha512 pk ciphertext r draw
  return run.proof ciphertext

variable (Point) in
/-- The body of `verifyZeroBalance`. -/
def checkZeroBalance (pk : List UInt8) (proof : ZeroBalanceProof) : Except SdkError Bool := do
  let pkPoint : Point ← pointFromBytes pk
  let a1 ← pointFromBytes (slice proof.proofBytes 0 32)
  let a2 ← pointFromBytes (slice proof.proofBytes 32 64)
  let z ← scalarFromLE32 (slice proof.proofBytes 64 96)
  let c1 ← pointFromBytes proof.ciphertext.c1
  let c2 ← pointFromBytes proof.ciphertext.c2
  zeroBalanceEquations pkPoint ⟨c1, c2⟩ a1 a2
    (zeroBalanceChallenge sha512 pk proof.ciphertext a1 a2) z

variable (Point) in
/-- Verify a zero-balance proof. -/
def verifyZeroBalance (pk : List UInt8) (proof : ZeroBalanceProof) : Bool :=
  if proof.proofBytes.length ≠ 32 * 2 + 32 then false
  else orFalse (checkZeroBalance Point sha512 pk proof)

end Hash

/-! ### The equations -/

theorem foldl_or_eq_zero_iff (acc : UInt8) (l : List UInt8) :
    l.foldl (· ||| ·) acc = 0 ↔ acc = 0 ∧ ∀ b ∈ l, b = 0 := by
  induction l generalizing acc with
  | nil => simp
  | cons b l ih => rw [List.foldl_cons, ih, UInt8.or_eq_zero_iff, List.forall_mem_cons, and_assoc]

theorem constantTimeEqual_eq_true_iff {a b : List UInt8} :
    constantTimeEqual a b = true ↔ a = b := by
  rw [constantTimeEqual, Bool.and_eq_true, decide_eq_true_eq, beq_iff_eq, foldl_or_eq_zero_iff,
    and_iff_right rfl]
  induction a generalizing b with
  | nil => cases b <;> simp
  | cons x a ih =>
    cases b with
    | nil => simp
    | cons y b =>
      rw [List.length_cons, List.length_cons, Nat.add_right_cancel_iff, List.zipWith_cons_cons,
        List.forall_mem_cons, UInt8.xor_eq_zero_iff, List.cons.injEq, ← ih]
      exact and_left_comm

theorem pointsEqual_eq_true_iff {p q : Point} : pointsEqual p q = true ↔ p = q :=
  constantTimeEqual_eq_true_iff.trans encode_injective.eq_iff

/-- All equations hold, and nothing is thrown. -/
theorem equationsHold_eq_ok_true {equations : List (Except SdkError (Point × Point))} :
    equationsHold equations = .ok true ↔ ∀ equation ∈ equations, ∃ p, equation = .ok (p, p) := by
  induction equations with
  | nil => simp [equationsHold, pure, Except.pure]
  | cons equation equations ih =>
    rw [equationsHold, except_bind_eq_ok, List.forall_mem_cons, ← ih]
    constructor
    · rintro ⟨⟨lhs, rhs⟩, hsides, h⟩
      replace h : (if pointsEqual lhs rhs then equationsHold equations else .ok false) =
        .ok true := h
      split_ifs at h with heq
      · rw [pointsEqual_eq_true_iff.1 heq] at hsides
        exact ⟨⟨rhs, hsides⟩, h⟩
      · cases h
    · rintro ⟨⟨p, hsides⟩, h⟩
      refine ⟨(p, p), hsides, ?_⟩
      show (if pointsEqual p p then equationsHold equations else .ok false) = .ok true
      rwa [if_pos (pointsEqual_eq_true_iff.2 rfl)]

theorem multiply_eq_ok_iff {p q : Point} {k : ℕ} :
    multiply p k = .ok q ↔ IsScalar k ∧ (k : ZMod curveOrder) • p = q := by
  rw [multiply, throwUnless_bind_eq_ok, except_pure_eq_ok, Nat.cast_smul_eq_nsmul]
  rfl

theorem sides_eq_ok {lhs : Except SdkError Point} {a x : Point} {challenge : ℕ} :
    (∃ p, sides lhs a x challenge = .ok (p, p)) ↔
      IsScalar challenge ∧ lhs = .ok (a + (challenge : ZMod curveOrder) • x) := by
  simp only [sides, except_bind_eq_ok, multiply_eq_ok_iff, except_pure_eq_ok, Prod.mk.injEq]
  constructor
  · rintro ⟨p, _, hlhs, _, ⟨hchallenge, rfl⟩, rfl, rfl⟩
    exact ⟨hchallenge, hlhs⟩
  · rintro ⟨hchallenge, hlhs⟩
    exact ⟨_, _, hlhs, _, ⟨hchallenge, rfl⟩, rfl, rfl⟩

theorem multiply_add_multiply_eq_ok {p q s : Point} {k l : ℕ} :
    (do return (← multiply p k) + (← multiply q l)) = .ok s ↔
      IsScalar k ∧ IsScalar l ∧ (k : ZMod curveOrder) • p + (l : ZMod curveOrder) • q = s := by
  simp only [except_bind_eq_ok, multiply_eq_ok_iff, except_pure_eq_ok]
  constructor
  · rintro ⟨_, ⟨hk, rfl⟩, _, ⟨hl, rfl⟩, rfl⟩
    exact ⟨hk, hl, rfl⟩
  · rintro ⟨hk, hl, rfl⟩
    exact ⟨_, ⟨hk, rfl⟩, _, ⟨hl, rfl⟩, rfl⟩

theorem orFalse_eq_true_iff {result : Except SdkError Bool} :
    orFalse result = true ↔ result = .ok true := by
  cases result <;> simp [orFalse]

/-- A verifier checks the length of the proof before it looks at it. -/
theorem checked_eq_true_iff {bytes : List UInt8} {n : ℕ} {result : Except SdkError Bool} :
    (if bytes.length ≠ n then false else orFalse result) = true ↔
      bytes.length = n ∧ result = .ok true := by
  split_ifs with hlength
  · exact iff_of_false not_false fun h => hlength h.1
  · rw [orFalse_eq_true_iff, and_iff_right (not_not.1 hlength)]

/-- The equations of `verifyEquality`, with scalars modulo the order and any challenge. -/
structure EqualityAccepts (h : Point) (points : EqualityPoints Point) (a1 a2 a3 a4 : Point)
    (c z1 z2 z3 : ZMod curveOrder) : Prop where
  sourceC1 : z1 • h + z2 • base = a1 + c • points.sourceCt.c1
  destC1 : z1 • h + z3 • base = a2 + c • points.destCt.c1
  sourceC2 : z2 • points.sourcePk = a3 + c • points.sourceCt.c2
  destC2 : z3 • points.destPk = a4 + c • points.destCt.c2

/-- The equation of `verifyPubkeyValidity`. -/
def PubkeyValidityAccepts (pkPoint r : Point) (c z : ZMod curveOrder) : Prop :=
  z • base = r + c • pkPoint

/-- The equations of `verifyZeroBalance`. -/
structure ZeroBalanceAccepts (pkPoint : Point) (ct : ElGamal.Ciphertext Point) (a1 a2 : Point)
    (c z : ZMod curveOrder) : Prop where
  c1 : z • base = a1 + c • ct.c1
  c2 : z • pkPoint = a2 + c • ct.c2

variable {sha512 : List UInt8 → Vector UInt8 64} {points : EqualityPoints Point}
  {ct : ElGamal.Ciphertext Point} {pkPoint r a1 a2 a3 a4 : Point} {challenge z z1 z2 z3 : ℕ}

theorem verifyEquality_iff {params : EqualityStatement} {proof : EqualityProof} :
    verifyEquality Point sha512 params proof = true ↔
      proof.proofBytes.length = 32 * (4 + 3) ∧
        checkEquality Point sha512 params proof.proofBytes = .ok true := checked_eq_true_iff

theorem verifyPubkeyValidity_iff {proof : PubkeyValidityProof} :
    verifyPubkeyValidity Point sha512 proof = true ↔
      proof.proofBytes.length = 32 * (1 + 1) ∧
        checkPubkeyValidity Point sha512 proof = .ok true := checked_eq_true_iff

theorem verifyZeroBalance_iff {pk : List UInt8} {proof : ZeroBalanceProof} :
    verifyZeroBalance Point sha512 pk proof = true ↔
      proof.proofBytes.length = 32 * (2 + 1) ∧
        checkZeroBalance Point sha512 pk proof = .ok true := checked_eq_true_iff

theorem equalityEquations_eq_ok_true :
    equalityEquations sha512 points a1 a2 a3 a4 challenge z1 z2 z3 = .ok true ↔
      (IsScalar challenge ∧ IsScalar z1 ∧ IsScalar z2 ∧ IsScalar z3) ∧
        EqualityAccepts (twistedScalar sha512 • base) points a1 a2 a3 a4 challenge z1 z2 z3 := by
  rw [equalityEquations, twistedH_eq]
  show equationsHold _ = _ ↔ _
  simp only [equationsHold_eq_ok_true, List.forall_mem_cons, sides_eq_ok,
    multiply_add_multiply_eq_ok, multiply_eq_ok_iff]
  constructor
  · rintro ⟨⟨hc, hz1, hz2, h1⟩, ⟨-, -, hz3, h2⟩, ⟨-, -, h3⟩, ⟨-, -, h4⟩, -⟩
    exact ⟨⟨hc, hz1, hz2, hz3⟩, h1, h2, h3, h4⟩
  · rintro ⟨⟨hc, hz1, hz2, hz3⟩, h1, h2, h3, h4⟩
    exact ⟨⟨hc, hz1, hz2, h1⟩, ⟨hc, hz1, hz3, h2⟩, ⟨hc, hz2, h3⟩, ⟨hc, hz3, h4⟩,
      List.forall_mem_nil _⟩

theorem pubkeyValidityEquations_eq_ok_true :
    pubkeyValidityEquations pkPoint r challenge z = .ok true ↔
      (IsScalar challenge ∧ IsScalar z) ∧ PubkeyValidityAccepts pkPoint r challenge z := by
  simp only [pubkeyValidityEquations, equationsHold_eq_ok_true, List.forall_mem_cons, sides_eq_ok,
    multiply_eq_ok_iff]
  constructor
  · rintro ⟨⟨hc, hz, h⟩, -⟩
    exact ⟨⟨hc, hz⟩, h⟩
  · rintro ⟨⟨hc, hz⟩, h⟩
    exact ⟨⟨hc, hz, h⟩, List.forall_mem_nil _⟩

theorem zeroBalanceEquations_eq_ok_true :
    zeroBalanceEquations pkPoint ct a1 a2 challenge z = .ok true ↔
      (IsScalar challenge ∧ IsScalar z) ∧ ZeroBalanceAccepts pkPoint ct a1 a2 challenge z := by
  simp only [zeroBalanceEquations, equationsHold_eq_ok_true, List.forall_mem_cons, sides_eq_ok,
    multiply_eq_ok_iff]
  constructor
  · rintro ⟨⟨hc, hz, h1⟩, ⟨-, -, h2⟩, -⟩
    exact ⟨⟨hc, hz⟩, h1, h2⟩
  · rintro ⟨⟨hc, hz⟩, h1, h2⟩
    exact ⟨⟨hc, hz, h1⟩, ⟨hc, hz, h2⟩, List.forall_mem_nil _⟩

/-! ### Special soundness -/

/-- The linear map that `verifyEquality` asks a preimage of: from the plaintext and the two
randomnesses to the components of the two ciphertexts. -/
def equalityMap (h sourcePk destPk : Point) :
    ZMod curveOrder × ZMod curveOrder × ZMod curveOrder →ₗ[ZMod curveOrder]
      Point × Point × Point × Point where
  toFun w := (w.1 • h + w.2.1 • base, w.1 • h + w.2.2 • base, w.2.1 • sourcePk, w.2.2 • destPk)
  map_add' w w' := by ext <;> simp <;> module
  map_smul' c w := by ext <;> simp [mul_smul]

/-- From the randomness to the components of a ciphertext of zero. -/
def zeroBalanceMap (pkPoint : Point) : ZMod curveOrder →ₗ[ZMod curveOrder] Point × Point :=
  .toSpanSingleton _ _ (base, pkPoint)

theorem equalityAccepts_iff {h : Point} {c z1 z2 z3 : ZMod curveOrder} :
    EqualityAccepts h points a1 a2 a3 a4 c z1 z2 z3 ↔
      SigmaProtocol.Accepts (equalityMap h points.sourcePk points.destPk)
        (points.sourceCt.c1, points.destCt.c1, points.sourceCt.c2, points.destCt.c2)
        (a1, a2, a3, a4) c (z1, z2, z3) := by
  simp only [SigmaProtocol.Accepts, equalityMap, LinearMap.coe_mk, AddHom.coe_mk, Prod.smul_mk,
    Prod.mk_add_mk, Prod.mk.injEq]
  constructor
  · rintro ⟨h1, h2, h3, h4⟩
    exact ⟨h1, h2, h3, h4⟩
  · rintro ⟨h1, h2, h3, h4⟩
    exact ⟨h1, h2, h3, h4⟩

theorem zeroBalanceAccepts_iff {c z : ZMod curveOrder} :
    ZeroBalanceAccepts pkPoint ct a1 a2 c z ↔
      SigmaProtocol.Accepts (zeroBalanceMap pkPoint) (ct.c1, ct.c2) (a1, a2) c z := by
  simp only [SigmaProtocol.Accepts, zeroBalanceMap, LinearMap.toSpanSingleton_apply, Prod.smul_mk,
    Prod.mk_add_mk, Prod.mk.injEq]
  constructor
  · rintro ⟨h1, h2⟩
    exact ⟨h1, h2⟩
  · rintro ⟨h1, h2⟩
    exact ⟨h1, h2⟩

theorem pubkeyValidityAccepts_iff {c z : ZMod curveOrder} :
    PubkeyValidityAccepts pkPoint r c z ↔
      SigmaProtocol.Accepts (.toSpanSingleton _ _ base) pkPoint r c z := Iff.rfl

/-- The two ciphertexts of a statement have the plaintext `v`, under their keys. -/
structure EqualityPoints.HavePlaintext (points : EqualityPoints Point) (h : Point)
    (v : ZMod curveOrder) : Prop where
  source : ∃ rS, points.sourceCt = ElGamal.twisted base h points.sourcePk v rS
  dest : ∃ rD, points.destCt = ElGamal.twisted base h points.destPk v rD

theorem EqualityAccepts.extract {h : Point} {c c' z1 z1' z2 z2' z3 z3' : ZMod curveOrder}
    (haccepts : EqualityAccepts h points a1 a2 a3 a4 c z1 z2 z3)
    (haccepts' : EqualityAccepts h points a1 a2 a3 a4 c' z1' z2' z3') (hc : c ≠ c') :
    ∃ v, points.HavePlaintext h v := by
  have hmap := (equalityAccepts_iff.1 haccepts).extract (equalityAccepts_iff.1 haccepts') hc
  generalize SigmaProtocol.extract c c' (z1, z2, z3) (z1', z2', z3') = w at hmap
  obtain ⟨v, rS, rD⟩ := w
  simp only [equalityMap, LinearMap.coe_mk, AddHom.coe_mk, Prod.mk.injEq] at hmap
  obtain ⟨h1, h2, h3, h4⟩ := hmap
  exact ⟨v, ⟨rS, by rw [ElGamal.twisted, h1, h3]⟩, ⟨rD, by rw [ElGamal.twisted, h2, h4]⟩⟩

theorem ZeroBalanceAccepts.extract {c c' z z' : ZMod curveOrder}
    (haccepts : ZeroBalanceAccepts pkPoint ct a1 a2 c z)
    (haccepts' : ZeroBalanceAccepts pkPoint ct a1 a2 c' z') (hc : c ≠ c') :
    ∃ r : ZMod curveOrder, ct = ⟨r • base, r • pkPoint⟩ := by
  have hmap := (zeroBalanceAccepts_iff.1 haccepts).extract (zeroBalanceAccepts_iff.1 haccepts') hc
  simp only [zeroBalanceMap, LinearMap.toSpanSingleton_apply, Prod.smul_mk, Prod.mk.injEq] at hmap
  exact ⟨_, by rw [hmap.1, hmap.2]⟩

theorem PubkeyValidityAccepts.extract {c c' z z' : ZMod curveOrder}
    (haccepts : PubkeyValidityAccepts pkPoint r c z)
    (haccepts' : PubkeyValidityAccepts pkPoint r c' z') (hc : c ≠ c') :
    ∃ x : ZMod curveOrder, pkPoint = x • base := by
  have hmap := (pubkeyValidityAccepts_iff.1 haccepts).extract
    (pubkeyValidityAccepts_iff.1 haccepts') hc
  exact ⟨_, hmap.symm⟩

/-- Both ciphertexts have one plaintext, and whoever has the secrets of the keys decrypts both to
it. -/
def EqualityPoints.DecryptAlike (points : EqualityPoints Point) (h : Point) : Prop :=
  ∃ v, points.HavePlaintext h v ∧ ∀ s d : ZMod curveOrder, s ≠ 0 → d ≠ 0 →
    points.sourcePk = s • base → points.destPk = d • base →
      ElGamal.openTwisted s points.sourceCt = v • h ∧ ElGamal.openTwisted d points.destCt = v • h

/-- The ciphertext is one of zero, and whoever has the secret of the key decrypts it to zero. -/
structure DecryptsToZero (pkPoint : Point) (ct : ElGamal.Ciphertext Point) : Prop where
  randomness : ∃ r : ZMod curveOrder, ct = ⟨r • base, r • pkPoint⟩
  opens : ∀ s : ZMod curveOrder, s ≠ 0 → pkPoint = s • base → ElGamal.openTwisted s ct = 0

theorem EqualityAccepts.decryptAlike {h : Point} {c c' z1 z1' z2 z2' z3 z3' : ZMod curveOrder}
    (haccepts : EqualityAccepts h points a1 a2 a3 a4 c z1 z2 z3)
    (haccepts' : EqualityAccepts h points a1 a2 a3 a4 c' z1' z2' z3') (hc : c ≠ c') :
    points.DecryptAlike h := by
  obtain ⟨v, hv⟩ := haccepts.extract haccepts' hc
  refine ⟨v, hv, fun s d hs hd hsource hdest => ?_⟩
  obtain ⟨⟨rS, hrS⟩, ⟨rD, hrD⟩⟩ := hv
  rw [hrS, hrD, hsource, hdest, ElGamal.openTwisted_twisted hs, ElGamal.openTwisted_twisted hd]
  exact ⟨rfl, rfl⟩

theorem ZeroBalanceAccepts.decryptsToZero {c c' z z' : ZMod curveOrder}
    (haccepts : ZeroBalanceAccepts pkPoint ct a1 a2 c z)
    (haccepts' : ZeroBalanceAccepts pkPoint ct a1 a2 c' z') (hc : c ≠ c') :
    DecryptsToZero pkPoint ct := by
  obtain ⟨r, rfl⟩ := haccepts.extract haccepts' hc
  refine ⟨⟨r, rfl⟩, fun s hs hpk => ?_⟩
  -- a ciphertext of zero is one with the plaintext zero over any generator
  have hopen := ElGamal.openTwisted_twisted (g := (base : Point)) (h := 0) (m := 0) (r := r) hs
  rwa [ElGamal.twisted, smul_zero, zero_add, ← hpk] at hopen

/-- Two accepted transcripts with the same commitments and different challenges give a witness, so
the statement is true: if the checks of the verifiers pass, which refuse to multiply by zero, and
also if the equations hold for scalars among which there are zeros, or for another generator. -/
theorem specialSoundness (Point : Type) [Ristretto255 Point]
    (sha512 : List UInt8 → Vector UInt8 64) :
    (∀ (points : EqualityPoints Point) (a1 a2 a3 a4 : Point) (c c' z1 z1' z2 z2' z3 z3' : ℕ),
      c ≠ c' → equalityEquations sha512 points a1 a2 a3 a4 c z1 z2 z3 = .ok true →
      equalityEquations sha512 points a1 a2 a3 a4 c' z1' z2' z3' = .ok true →
      points.DecryptAlike (twistedScalar sha512 • base)) ∧
    (∀ (pkPoint : Point) (ct : ElGamal.Ciphertext Point) (a1 a2 : Point) (c c' z z' : ℕ), c ≠ c' →
      zeroBalanceEquations pkPoint ct a1 a2 c z = .ok true →
      zeroBalanceEquations pkPoint ct a1 a2 c' z' = .ok true → DecryptsToZero pkPoint ct) ∧
    (∀ (pkPoint r : Point) (c c' z z' : ℕ), c ≠ c' →
      pubkeyValidityEquations pkPoint r c z = .ok true →
      pubkeyValidityEquations pkPoint r c' z' = .ok true →
      ∃ x : ZMod curveOrder, pkPoint = x • base) ∧
    (∀ (h : Point) (points : EqualityPoints Point) (a1 a2 a3 a4 : Point)
      (c c' z1 z1' z2 z2' z3 z3' : ZMod curveOrder), c ≠ c' →
      EqualityAccepts h points a1 a2 a3 a4 c z1 z2 z3 →
      EqualityAccepts h points a1 a2 a3 a4 c' z1' z2' z3' → points.DecryptAlike h) ∧
    (∀ (pkPoint : Point) (ct : ElGamal.Ciphertext Point) (a1 a2 : Point)
      (c c' z z' : ZMod curveOrder), c ≠ c' →
      ZeroBalanceAccepts pkPoint ct a1 a2 c z → ZeroBalanceAccepts pkPoint ct a1 a2 c' z' →
      DecryptsToZero pkPoint ct) ∧
    ∀ (pkPoint r : Point) (c c' z z' : ZMod curveOrder), c ≠ c' →
      PubkeyValidityAccepts pkPoint r c z → PubkeyValidityAccepts pkPoint r c' z' →
      ∃ x : ZMod curveOrder, pkPoint = x • base := by
  refine ⟨?_, ?_, ?_, ?_, ?_, ?_⟩
  · intro points a1 a2 a3 a4 c c' z1 z1' z2 z2' z3 z3' hc hequations hequations'
    obtain ⟨hscalars, haccepts⟩ := equalityEquations_eq_ok_true.1 hequations
    obtain ⟨hscalars', haccepts'⟩ := equalityEquations_eq_ok_true.1 hequations'
    exact haccepts.decryptAlike haccepts' (hscalars.1.cast_ne hscalars'.1 hc)
  · intro pkPoint ct a1 a2 c c' z z' hc hequations hequations'
    obtain ⟨hscalars, haccepts⟩ := zeroBalanceEquations_eq_ok_true.1 hequations
    obtain ⟨hscalars', haccepts'⟩ := zeroBalanceEquations_eq_ok_true.1 hequations'
    exact haccepts.decryptsToZero haccepts' (hscalars.1.cast_ne hscalars'.1 hc)
  · intro pkPoint r c c' z z' hc hequations hequations'
    obtain ⟨hscalars, haccepts⟩ := pubkeyValidityEquations_eq_ok_true.1 hequations
    obtain ⟨hscalars', haccepts'⟩ := pubkeyValidityEquations_eq_ok_true.1 hequations'
    exact haccepts.extract haccepts' (hscalars.1.cast_ne hscalars'.1 hc)
  · intro h points a1 a2 a3 a4 c c' z1 z1' z2 z2' z3 z3' hc haccepts haccepts'
    exact haccepts.decryptAlike haccepts' hc
  · intro pkPoint ct a1 a2 c c' z z' hc haccepts haccepts'
    exact haccepts.decryptsToZero haccepts' hc
  · intro pkPoint r c c' z z' hc haccepts haccepts'
    exact haccepts.extract haccepts' hc

/-- Ten base units, under the keys `1` and `2`, with the generator `2`. -/
def Sample.equalityPoints : EqualityPoints (ZMod curveOrder) := ⟨1, 2, ⟨23, 3⟩, ⟨24, 8⟩⟩

/-- The challenges `1` and `2` for each protocol; the verifiers check the last two. -/
theorem specialSoundness_sample :
    (∃ v, Sample.equalityPoints.HavePlaintext 2 v) ∧
    (∃ r, zeroBalanceMap (1 : ZMod curveOrder) r = (3, 3)) ∧
    ∃ x, (encode (1 : ZMod curveOrder)).toList = publicKey (ZMod curveOrder) x := by
  obtain ⟨-, hzero, hvalidity, hequality, -⟩ :=
    specialSoundness (ZMod curveOrder) fun _ => .replicate 64 1
  have hc : (1 : ZMod curveOrder) ≠ 2 := by decide +kernel
  have hscalar : ∀ n, 0 < n ∧ n < 8 → IsScalar n := fun n hn =>
    ⟨hn.1, hn.2.trans (by decide +kernel)⟩
  refine ⟨?_, ?_, ?_⟩
  · obtain ⟨v, hv, -⟩ := hequality 2 Sample.equalityPoints 3 3 1 2 1 2 11 21 4 7 5 9 hc
      (by constructor <;> decide +kernel) (by constructor <;> decide +kernel)
    exact ⟨v, hv⟩
  · have haccepts : zeroBalanceEquations (1 : ZMod curveOrder) ⟨3, 3⟩ 1 1 1 4 = .ok true :=
      zeroBalanceEquations_eq_ok_true.2 ⟨⟨hscalar 1 (by decide), hscalar 4 (by decide)⟩, by
        constructor <;> decide +kernel⟩
    have haccepts' : zeroBalanceEquations (1 : ZMod curveOrder) ⟨3, 3⟩ 1 1 2 7 = .ok true :=
      zeroBalanceEquations_eq_ok_true.2 ⟨⟨hscalar 2 (by decide), hscalar 7 (by decide)⟩, by
        constructor <;> decide +kernel⟩
    obtain ⟨⟨r, hr⟩, -⟩ := hzero 1 ⟨3, 3⟩ 1 1 1 2 4 7 (by decide) haccepts haccepts'
    rw [ElGamal.Ciphertext.mk.injEq] at hr
    exact ⟨r, (Prod.ext hr.1 hr.2).symm⟩
  · have haccepts : pubkeyValidityEquations (1 : ZMod curveOrder) 1 1 2 = .ok true :=
      pubkeyValidityEquations_eq_ok_true.2 ⟨⟨hscalar 1 (by decide), hscalar 2 (by decide)⟩, by
        rw [PubkeyValidityAccepts]; decide +kernel⟩
    have haccepts' : pubkeyValidityEquations (1 : ZMod curveOrder) 1 2 3 = .ok true :=
      pubkeyValidityEquations_eq_ok_true.2 ⟨⟨hscalar 2 (by decide), hscalar 3 (by decide)⟩, by
        rw [PubkeyValidityAccepts]; decide +kernel⟩
    obtain ⟨x, hx⟩ := hvalidity 1 1 1 2 2 3 (by decide) haccepts haccepts'
    exact ⟨x.val, by rw [publicKey_eq, ZMod.natCast_zmod_val, ← hx]⟩

end Ghos.Sdk
