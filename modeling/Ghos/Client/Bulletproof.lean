import Ghos.Client.Amounts
import Ghos.Client.SigmaCompleteness
import Ghos.Client.Homomorphic

/-!
# The range proof of the SDK

`prove` of `sdk/src/crypto/bulletproof.ts` commits to a value, to its bits and to a polynomial,
draws the challenges from a transcript, and responds.  `pedersenCommit` puts the value over
`twistedH` and the blinding over the base; the commitments `T1` and `T2` to the coefficients put
the coefficient over the base and the blinding over `twistedH`.

* `runRange_responds`: what a run sends, as a function of the scalars drawn and the challenges.
-/

namespace Ghos.Sdk

open Ristretto255

variable {Point : Type} [Ristretto255 Point]

/-- `SDK_ERROR_CODES.BalanceOutOfRange`. -/
def balanceOutOfRange : ℕ := 9020

/-! ### The transcript -/

/-- A running Fiat-Shamir transcript. -/
structure Transcript where
  acc : List UInt8

/-- `new TextEncoder().encode(s)`. -/
def textBytes (s : String) : List UInt8 := s.toUTF8.data.toList

def transcriptDomain : List UInt8 := textBytes "ghos.bulletproof.v1"

/-- `new Transcript()`. -/
def Transcript.initial : Transcript := ⟨transcriptDomain⟩

section Hash

variable (sha512 : List UInt8 → Vector UInt8 64)

def Transcript.append (transcript : Transcript) (label : String) (bytes : List UInt8) :
    Transcript :=
  ⟨(sha512 (transcript.acc ++ textBytes label ++ leBytes 4 bytes.length ++ bytes)).toList⟩

def Transcript.challengeScalar (transcript : Transcript) (label : String) : ℕ × Transcript :=
  let out := (sha512 (transcript.acc ++ textBytes label)).toList
  (scalarFromUniform64 out, ⟨out⟩)

/-! ### The generators and the inner product -/

/-- A generator from its tag. -/
def tagGenerator (tag : String) : Except SdkError Point :=
  let s := scalarFromUniform64 (sha512 (textBytes tag)).toList
  multiply base (if s = 0 then 1 else s)

/-- The vectors of generators. -/
def deriveGeneratorVectors (n : ℕ) : Except SdkError (List Point × List Point) := do
  let gVec ← (List.range n).mapM fun i => tagGenerator sha512 s!"ghos.bp.G.{i}"
  let hVec ← (List.range n).mapM fun i => tagGenerator sha512 s!"ghos.bp.H.{i}"
  return (gVec, hVec)

end Hash

/-- The bits of a number, the least significant first. -/
def bitsLE : ℤ → ℕ → List ℤ
  | _, 0 => []
  | value, nBits + 1 => value % 2 :: bitsLE (value / 2) nBits

/-- Square and multiply modulo the order. -/
def powLoop (exponent base result : ℕ) : ℕ :=
  if exponent = 0 then result
  else powLoop (exponent / 2) (reduceScalar (base * base))
    (if exponent % 2 = 1 then reduceScalar (result * base) else result)
termination_by exponent

/-- The inverse of a scalar by Fermat's little theorem. -/
def invScalar (s : ℤ) : Except SdkError ℕ := do
  let reduced := reduceScalar s
  throwUnless (reduced ≠ 0) (.ghosSdkError proofGenerationFailed "cannot invert zero challenge")
  return powLoop (curveOrder - 2) reduced 1

/-- What the inner-product argument sends. -/
structure InnerProduct (Point : Type) where
  lVec : List Point
  rVec : List Point
  a : ℕ
  b : ℕ

/-- `if (k !== 0n) { acc = acc.add(p.multiply(k)); }`. -/
def addMultiple (acc p : Point) (k : ℕ) : Except SdkError Point := do
  if k ≠ 0 then return acc + (← multiply p k) else return acc

/-- The cross terms `L` and `R` of a round. -/
def crossTerms (half : ℕ) (aLo aHi bLo bHi : List ℕ) (gLo gHi hLo hHi : List Point) :
    Except SdkError (Point × Point) :=
  (List.range half).foldlM (fun (l, r) i => do
    let l ← addMultiple l (gHi.getD i 0) (aLo.getD i 0)
    let l ← addMultiple l (hLo.getD i 0) (bHi.getD i 0)
    let r ← addMultiple r (gLo.getD i 0) (aHi.getD i 0)
    let r ← addMultiple r (hHi.getD i 0) (bLo.getD i 0)
    return (l, r)) (0, 0)

/-- Fold the halves of a vector of scalars. -/
def foldScalars (half : ℕ) (lo hi : List ℕ) (uLo uHi : ℕ) : List ℕ :=
  (List.range half).map fun i => reduceScalar (lo.getD i 0 * uLo + hi.getD i 0 * uHi)

/-- Fold the halves of a vector of points. -/
def foldPoints (half : ℕ) (lo hi : List Point) (uLo uHi : ℕ) : Except SdkError (List Point) :=
  (List.range half).mapM fun i => do
    return (← multiply (lo.getD i 0) uLo) + (← multiply (hi.getD i 0) uHi)

section Hash

variable (sha512 : List UInt8 → Vector UInt8 64)

/-- The rounds of the inner-product argument, each of which halves the vectors. -/
def innerProductLoop (aCur bCur : List ℕ) (gCur hCur lVec rVec : List Point)
    (transcript : Transcript) : Except SdkError (InnerProduct Point) :=
  if _hlen : 1 < aCur.length then do
    let half := aCur.length / 2
    let (aLo, aHi) := (aCur.take half, aCur.drop half)
    let (bLo, bHi) := (bCur.take half, bCur.drop half)
    let (gLo, gHi) := (gCur.take half, gCur.drop half)
    let (hLo, hHi) := (hCur.take half, hCur.drop half)
    let (l, r) ← crossTerms half aLo aHi bLo bHi gLo gHi hLo hHi
    let transcript := transcript.append sha512 "L" (encode l).toList
    let transcript := transcript.append sha512 "R" (encode r).toList
    let (u, transcript) := transcript.challengeScalar sha512 "u"
    let uInv ← invScalar u
    let nextG ← foldPoints half gLo gHi uInv u
    let nextH ← foldPoints half hLo hHi u uInv
    innerProductLoop (foldScalars half aLo aHi u uInv) (foldScalars half bLo bHi uInv u) nextG
      nextH (lVec ++ [l]) (rVec ++ [r]) transcript
  else return { lVec, rVec, a := aCur.getD 0 0, b := bCur.getD 0 0 }
termination_by aCur.length
decreasing_by
  rw [foldScalars, List.length_map, List.length_range]
  omega

/-- The inner-product argument for the vectors, mixed with those of `s`. -/
def innerProductProve (aVec bVec sL sR : List ℕ) (gVec hVec : List Point)
    (transcript : Transcript) : Except SdkError (InnerProduct Point) :=
  let aCur := List.zipWith (fun a s => reduceScalar (a + s)) aVec sL
  let bCur := List.zipWith (fun b s => reduceScalar (b + s)) bVec sR
  innerProductLoop sha512 aCur bCur gVec hVec [] [] transcript

/-! ### The prover -/

variable (Point) in
/-- Derive a Pedersen-style commitment `m*H + r*G`. -/
def pedersenCommit (m r : ℤ) : Except SdkError (List UInt8) := do
  let commitment : Point ← pedersenC1 sha512 (reduceScalar m) (reduceScalar r)
  return (encode commitment).toList

end Hash

/-- The 64 bytes behind each random scalar; `blinding` is drawn if none is given. -/
structure RangeDraws where
  blinding : Vector UInt8 64
  alpha : Vector UInt8 64
  sL : ℕ → Vector UInt8 64
  sR : ℕ → Vector UInt8 64
  rho : Vector UInt8 64
  tau1 : Vector UInt8 64
  tau2 : Vector UInt8 64
  t1 : Vector UInt8 64
  t2 : Vector UInt8 64

structure RangeProof where
  proofBytes : List UInt8
  commitment : List UInt8
  bitLength : ℕ
  deriving DecidableEq

/-- Add the generators of the bits that are set, and subtract those of the others. -/
def addBits : List ℤ → List ℤ → List Point → List Point → Point → Point
  | l :: aL, r :: aR, g :: gVec, h :: hVec, aPoint =>
    let aPoint := if l = 1 then aPoint + g else aPoint
    let aPoint := if r = -1 then aPoint - h else aPoint
    addBits aL aR gVec hVec aPoint
  | _, _, _, _, aPoint => aPoint

/-- Add the multiples of the generators. -/
def addMultiples : List ℕ → List ℕ → List Point → List Point → Point → Except SdkError Point
  | l :: sL, r :: sR, g :: gVec, h :: hVec, sPoint => do
    let sPoint := sPoint + (← multiply g l)
    let sPoint := sPoint + (← multiply h r)
    addMultiples sL sR gVec hVec sPoint
  | _, _, _, _, sPoint => return sPoint

/-- What the prover sends, with the points not yet encoded. -/
structure RangeRun (Point : Type) where
  commitment : List UInt8
  bitLength : ℕ
  aPoint : Point
  sPoint : Point
  t1Point : Point
  t2Point : Point
  tauX : ℕ
  mu : ℕ
  tHat : ℕ
  inner : InnerProduct Point

/-- The parts of `proofBytes`, of 32 bytes each. -/
def RangeRun.parts (run : RangeRun Point) : List (List UInt8) :=
  [(encode run.aPoint).toList, (encode run.sPoint).toList, (encode run.t1Point).toList,
    (encode run.t2Point).toList, scalarToLE32 run.tauX, scalarToLE32 run.mu,
    scalarToLE32 run.tHat] ++ run.inner.lVec.map (fun p => (encode p).toList) ++
    run.inner.rVec.map (fun p => (encode p).toList) ++
    [scalarToLE32 run.inner.a, scalarToLE32 run.inner.b]

def RangeRun.proof (run : RangeRun Point) : RangeProof :=
  ⟨run.parts.flatten, run.commitment, run.bitLength⟩

section Hash

variable (sha512 : List UInt8 → Vector UInt8 64)

/-- The challenges `y` and `z` and the transcript behind them, from what has been sent. -/
def firstChallenges (commitment a s : List UInt8) : ℕ × ℕ × Transcript :=
  let transcript := Transcript.initial.append sha512 "commitment" commitment
  let transcript := (transcript.append sha512 "A" a).append sha512 "S" s
  let (y, transcript) := transcript.challengeScalar sha512 "y"
  let (z, transcript) := transcript.challengeScalar sha512 "z"
  (y, z, transcript)

/-- The challenge `x`. -/
def secondChallenge (transcript : Transcript) (t1 t2 : List UInt8) : ℕ × Transcript :=
  ((transcript.append sha512 "T1" t1).append sha512 "T2" t2).challengeScalar sha512 "x"

/-- `prove` behind its checks, until it writes the proof. -/
def runRange (value : ℤ) (bitLength : ℕ) (r : ℤ) (draws : RangeDraws) :
    Except SdkError (RangeRun Point) := do
  let commitment ← pedersenCommit Point sha512 value r
  let (gVec, hVec) : List Point × List Point ← deriveGeneratorVectors sha512 bitLength
  let aL := bitsLE value bitLength
  let aR := aL.map fun b => if b = 0 then -1 else 0
  let alpha := scalarFromUniform64 draws.alpha.toList
  let aPoint := addBits aL aR gVec hVec (← multiply base alpha)
  let sL := (List.range bitLength).map fun i => scalarFromUniform64 (draws.sL i).toList
  let sR := (List.range bitLength).map fun i => scalarFromUniform64 (draws.sR i).toList
  let rho := scalarFromUniform64 draws.rho.toList
  let sPoint ← addMultiples sL sR gVec hVec (← multiply base rho)
  -- the challenge `y` is drawn, but never used
  let (_, z, transcript) := firstChallenges sha512 commitment (encode aPoint).toList
    (encode sPoint).toList
  let tau1 := scalarFromUniform64 draws.tau1.toList
  let tau2 := scalarFromUniform64 draws.tau2.toList
  let t1 := scalarFromUniform64 draws.t1.toList
  let t2 := scalarFromUniform64 draws.t2.toList
  let t1Point := (← multBaseG t1) + (← multiply (← twistedH sha512) tau1)
  let t2Point := (← multBaseG t2) + (← multiply (← twistedH sha512) tau2)
  let (x, transcript) := secondChallenge sha512 transcript (encode t1Point).toList
    (encode t2Point).toList
  let z2 := reduceScalar (z * z)
  let xSq := reduceScalar (x * x)
  let tauX := reduceScalar (reduceScalar (tau2 * xSq) + reduceScalar (tau1 * x) +
    reduceScalar (z2 * r))
  let mu := reduceScalar (alpha + reduceScalar (rho * x))
  let tHat := reduceScalar (reduceScalar (t1 * x) + reduceScalar (t2 * xSq) +
    reduceScalar (value * z2))
  let inner ← innerProductProve sha512 (aL.map reduceScalar)
    (aR.map fun v => reduceScalar (v + reduceScalar z)) sL sR gVec hVec transcript
  return { commitment, bitLength, aPoint, sPoint, t1Point, t2Point, tauX, mu, tHat, inner }

variable (Point) in
/-- Prove that `value` lies in `[0, 2^bitLength)`; also returns the blinding. -/
def prove (value bitLength : ℤ) (blinding : Option ℤ) (draws : RangeDraws) :
    Except SdkError (RangeProof × ℤ) := do
  throwUnless (0 ≤ value) (.ghosSdkError invalidAmount "value must be non-negative")
  throwUnless (0 < bitLength ∧ bitLength ≤ 128)
    (.ghosSdkError invalidInput "bitLength must be 1..128")
  let maxVal := (2 : ℤ) ^ bitLength.toNat - 1
  throwUnless (value ≤ maxVal)
    (.ghosSdkError balanceOutOfRange s!"value exceeds 2^{bitLength} - 1")
  let r := blinding.getD (scalarFromUniform64 draws.blinding.toList)
  let run : RangeRun Point ← runRange sha512 value bitLength.toNat r draws
  return (run.proof, r)

/-! ### The polynomial-commitment check -/

/-- The challenges `z` and `x`, as a verifier draws them from a proof. -/
def RangeProof.challenges (proof : RangeProof) : ℕ × ℕ :=
  let (_, z, transcript) := firstChallenges sha512 proof.commitment (slice proof.proofBytes 0 32)
    (slice proof.proofBytes 32 64)
  let (x, _) := secondChallenge sha512 transcript (slice proof.proofBytes 64 96)
    (slice proof.proofBytes 96 128)
  (z, x)

/-- The check of what a proof carries, with the generators of the value and of the blinding. -/
def CommitmentEquation (valueGenerator blindingGenerator : Point) (proof : RangeProof) : Prop :=
  ∃ (commitment t1Point t2Point : Point) (tauX tHat : ℕ),
    pointFromBytes proof.commitment = .ok commitment ∧
    pointFromBytes (slice proof.proofBytes 64 96) = .ok t1Point ∧
    pointFromBytes (slice proof.proofBytes 96 128) = .ok t2Point ∧
    scalarFromLE32 (slice proof.proofBytes 128 160) = .ok tauX ∧
    scalarFromLE32 (slice proof.proofBytes 192 224) = .ok tHat ∧
    let z : ZMod curveOrder := (proof.challenges sha512).1
    let x : ZMod curveOrder := (proof.challenges sha512).2
    (tHat : ZMod curveOrder) • valueGenerator + (tauX : ZMod curveOrder) • blindingGenerator =
      z ^ 2 • commitment + x • t1Point + x ^ 2 • t2Point

end Hash

theorem RangeRun.length_of_mem_parts (run : RangeRun Point) :
    ∀ part ∈ run.parts, part.length = 32 := by
  simp only [RangeRun.parts, List.forall_mem_append, List.forall_mem_cons, List.forall_mem_map,
    encode_length, scalarToLE32, length_leBytes]
  simp

/-- The parts in front of those of the inner product. -/
theorem RangeRun.slice_proofBytes (run : RangeRun Point) {i : ℕ} {part : List UInt8}
    (hpart : run.parts[i]? = some part) :
    slice run.proof.proofBytes (32 * i) (32 * i + 32) = part :=
  slice_flatten run.length_of_mem_parts hpart

variable {sha512 : List UInt8 → Vector UInt8 64}

theorem pedersenCommit_eq (m r : ℤ) : pedersenCommit Point sha512 m r =
    .ok (encode ((m : ZMod curveOrder) • twistedScalar sha512 • (base : Point) +
      (r : ZMod curveOrder) • base)).toList := by
  rw [pedersenCommit, pedersenC1_eq (reduceScalar_lt m) (reduceScalar_lt r), cast_reduceScalar,
    cast_reduceScalar]
  rfl

/-- What the check reads of a run: the commitments, and the responses to the challenges. -/
structure RangeRun.Responds (sha512 : List UInt8 → Vector UInt8 64) (value r : ℤ)
    (draws : RangeDraws) (run : RangeRun Point) (z x : ℕ) : Prop where
  commitment : run.commitment = (encode ((value : ZMod curveOrder) • twistedScalar sha512 •
    (base : Point) + (r : ZMod curveOrder) • base)).toList
  t1Point : run.t1Point = (scalarFromUniform64 draws.t1.toList : ZMod curveOrder) • base +
    (scalarFromUniform64 draws.tau1.toList : ZMod curveOrder) • twistedScalar sha512 •
      (base : Point)
  t2Point : run.t2Point = (scalarFromUniform64 draws.t2.toList : ZMod curveOrder) • base +
    (scalarFromUniform64 draws.tau2.toList : ZMod curveOrder) • twistedScalar sha512 •
      (base : Point)
  tauX : (run.tauX : ZMod curveOrder) = scalarFromUniform64 draws.tau2.toList * x ^ 2 +
    scalarFromUniform64 draws.tau1.toList * x + z ^ 2 * r
  tHat : (run.tHat : ZMod curveOrder) = scalarFromUniform64 draws.t1.toList * x +
    scalarFromUniform64 draws.t2.toList * x ^ 2 + value * z ^ 2
  lt : run.tauX < curveOrder ∧ run.tHat < curveOrder

/-- The verifier draws the challenges that the prover has drawn. -/
theorem RangeRun.challenges_proof (run : RangeRun Point) :
    run.proof.challenges sha512 =
      let first := firstChallenges sha512 run.commitment (encode run.aPoint).toList
        (encode run.sPoint).toList
      (first.2.1, (secondChallenge sha512 first.2.2 (encode run.t1Point).toList
        (encode run.t2Point).toList).1) := by
  have h0 : slice run.proof.proofBytes 0 32 = _ := run.slice_proofBytes (i := 0) rfl
  have h1 : slice run.proof.proofBytes 32 64 = _ := run.slice_proofBytes (i := 1) rfl
  have h2 : slice run.proof.proofBytes 64 96 = _ := run.slice_proofBytes (i := 2) rfl
  have h3 : slice run.proof.proofBytes 96 128 = _ := run.slice_proofBytes (i := 3) rfl
  simp only [RangeProof.challenges, h0, h1, h2, h3]
  rfl

theorem runRange_responds {value r : ℤ} {n : ℕ} {draws : RangeDraws} {run : RangeRun Point}
    (h : runRange sha512 value n r draws = .ok run) :
    run.Responds sha512 value r draws (run.proof.challenges sha512).1
      (run.proof.challenges sha512).2 := by
  rw [run.challenges_proof]
  simp only [runRange, except_bind_eq_ok, pedersenCommit_eq, multBaseG_eq, twistedH_eq,
    multiply_eq_ok_iff, Except.ok.injEq, exists_eq_left', except_pure_eq_ok, Int.cast_natCast] at h
  obtain ⟨vectors, -, _, ⟨-, rfl⟩, _, ⟨-, rfl⟩, sPoint, -, _, ⟨-, rfl⟩, _, ⟨-, rfl⟩, inner, -,
    rfl⟩ := h
  refine ⟨rfl, rfl, rfl, ?_, ?_, ?_⟩
  · simp only [cast_reduceScalar, Int.cast_add, Int.cast_mul, Int.cast_natCast, pow_two]
  · simp only [cast_reduceScalar, Int.cast_add, Int.cast_mul, Int.cast_natCast, pow_two]
  · dsimp only
    exact ⟨reduceScalar_lt _, reduceScalar_lt _⟩

variable (Point) in
/-- `twistedH - base` generates the group, unless the two generators are equal. -/
theorem twistedScalar_sub_one_smul_eq_zero (hh : twistedScalar sha512 ≠ 1)
    {c : ZMod curveOrder} :
    (c * (twistedScalar sha512 - 1)) • (base : Point) = 0 ↔ c = 0 := by
  have hne : (twistedScalar sha512 : ZMod curveOrder) - 1 ≠ 0 := by
    intro hzero
    have hcast : (twistedScalar sha512 : ZMod curveOrder) = (1 : ℕ) := by
      rw [Nat.cast_one, ← sub_eq_zero, hzero]
    rw [ZMod.natCast_eq_natCast_iff'] at hcast
    rw [Nat.mod_eq_of_lt (twistedScalar_isScalar sha512).2,
      Nat.mod_eq_of_lt isScalar_one.2] at hcast
    exact hh hcast
  rw [smul_eq_zero_iff_left base_ne_zero, mul_eq_zero, or_iff_left hne]

/-- The check, for what a run has sent. -/
theorem RangeRun.commitmentEquation_proof {run : RangeRun Point}
    {valueGenerator blindingGenerator commitment : Point}
    (hcommitment : run.commitment = (encode commitment).toList)
    (hlt : run.tauX < curveOrder ∧ run.tHat < curveOrder) :
    CommitmentEquation sha512 valueGenerator blindingGenerator run.proof ↔
      let z : ZMod curveOrder := (run.proof.challenges sha512).1
      let x : ZMod curveOrder := (run.proof.challenges sha512).2
      (run.tHat : ZMod curveOrder) • valueGenerator +
          (run.tauX : ZMod curveOrder) • blindingGenerator =
        z ^ 2 • commitment + x • run.t1Point + x ^ 2 • run.t2Point := by
  have h2 : slice run.proof.proofBytes 64 96 = _ := run.slice_proofBytes (i := 2) rfl
  have h3 : slice run.proof.proofBytes 96 128 = _ := run.slice_proofBytes (i := 3) rfl
  have h4 : slice run.proof.proofBytes 128 160 = _ := run.slice_proofBytes (i := 4) rfl
  have h6 : slice run.proof.proofBytes 192 224 = _ := run.slice_proofBytes (i := 6) rfl
  have hproof : run.proof.commitment = run.commitment := rfl
  simp only [CommitmentEquation, h2, h3, h4, h6, hproof, hcommitment, pointFromBytes_encode,
    scalarFromLE32_scalarToLE32 hlt.1, scalarFromLE32_scalarToLE32 hlt.2, Except.ok.injEq]
  constructor
  · rintro ⟨_, _, _, _, _, rfl, rfl, rfl, rfl, rfl, h⟩
    exact h
  · intro h
    exact ⟨_, _, _, _, _, rfl, rfl, rfl, rfl, rfl, h⟩

theorem prove_eq_ok {value bitLength r : ℤ} {blinding : Option ℤ} {draws : RangeDraws}
    {proof : RangeProof} (h : prove Point sha512 value bitLength blinding draws = .ok (proof, r)) :
    ∃ run : RangeRun Point,
      runRange sha512 value bitLength.toNat r draws = .ok run ∧ run.proof = proof := by
  simp only [prove, except_bind_eq_ok, except_pure_eq_ok, Prod.mk.injEq] at h
  obtain ⟨_, -, _, -, _, -, run, hrun, hproof, rfl⟩ := h
  exact ⟨run, hrun, hproof⟩

end Ghos.Sdk
