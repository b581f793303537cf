import Ghos.Client.InnerProduct

/-!
# The check of a range proof

When `prove` returns, and when the polynomial-commitment check holds of what it returns.

* `prove_accepts`, `exists_prove`: the prover wants a value in range and no zero among the scalars
  that it multiplies by;
* `commitmentEquation_iff`: the check holds if the coefficients drawn equal their blindings, and
  otherwise only by accident.
-/

namespace Ghos.Sdk

open Ristretto255

variable {Point : Type} [Ristretto255 Point] {sha512 : List UInt8 → Vector UInt8 64}

/-! ### What the prover accepts -/

/-- No scalar drawn that the prover multiplies by is zero. -/
structure RangeDraws.NonZero (draws : RangeDraws) (n : ℕ) : Prop where
  alpha : scalarFromUniform64 draws.alpha.toList ≠ 0
  rho : scalarFromUniform64 draws.rho.toList ≠ 0
  sL : ∀ i < n, scalarFromUniform64 (draws.sL i).toList ≠ 0
  sR : ∀ i < n, scalarFromUniform64 (draws.sR i).toList ≠ 0
  tau1 : scalarFromUniform64 draws.tau1.toList ≠ 0
  tau2 : scalarFromUniform64 draws.tau2.toList ≠ 0

/-- The inputs that `prove` accepts. -/
structure ProveAccepts (value bitLength : ℤ) (draws : RangeDraws) : Prop where
  nonneg : 0 ≤ value
  length : 0 < bitLength ∧ bitLength ≤ 128
  le : value ≤ 2 ^ bitLength.toNat - 1
  nonZero : draws.NonZero bitLength.toNat

theorem isScalar_scalarFromUniform64 {bytes : List UInt8} :
    IsScalar (scalarFromUniform64 bytes) ↔ scalarFromUniform64 bytes ≠ 0 :=
  ⟨fun h => h.1.ne', fun h => ⟨Nat.pos_of_ne_zero h, scalarFromUniform64_lt bytes⟩⟩

theorem exists_deriveGeneratorVectors (n : ℕ) : ∃ gVec hVec : List Point,
    deriveGeneratorVectors sha512 n = .ok (gVec, hVec) := by
  have htag : ∀ tag, ∃ g : Point, tagGenerator sha512 tag = .ok g := by
    intro tag
    refine ⟨_, multiply_eq_ok ?_⟩
    split_ifs with hzero
    · exact isScalar_one
    · exact isScalar_scalarFromUniform64.2 hzero
  obtain ⟨gVec, hgVec⟩ := exists_mapM fun i (_ : i ∈ List.range n) => htag s!"ghos.bp.G.{i}"
  obtain ⟨hVec, hhVec⟩ := exists_mapM fun i (_ : i ∈ List.range n) => htag s!"ghos.bp.H.{i}"
  refine ⟨gVec, hVec, ?_⟩
  rw [deriveGeneratorVectors, hgVec, hhVec]
  rfl

theorem length_of_deriveGeneratorVectors {n : ℕ} {gVec hVec : List Point}
    (h : deriveGeneratorVectors sha512 n = .ok (gVec, hVec)) :
    gVec.length = n ∧ hVec.length = n := by
  simp only [deriveGeneratorVectors, except_bind_eq_ok, except_pure_eq_ok, Prod.mk.injEq] at h
  obtain ⟨_, hgVec, _, hhVec, rfl, rfl⟩ := h
  exact ⟨(length_of_mapM hgVec).trans List.length_range,
    (length_of_mapM hhVec).trans List.length_range⟩

theorem exists_addMultiples_iff {sL sR : List ℕ} {gVec hVec : List Point}
    (hsR : sR.length = sL.length) (hgVec : gVec.length = sL.length)
    (hhVec : hVec.length = sL.length) (sPoint : Point) :
    (∃ q, addMultiples sL sR gVec hVec sPoint = .ok q) ↔
      (∀ l ∈ sL, IsScalar l) ∧ ∀ r ∈ sR, IsScalar r := by
  induction sL generalizing sR gVec hVec sPoint with
  | nil =>
    obtain rfl := List.length_eq_zero_iff.1 hsR
    simp [addMultiples, pure, Except.pure]
  | cons l sL ih =>
    obtain ⟨r, sR, rfl⟩ := List.exists_of_length_succ _ hsR
    obtain ⟨g, gVec, rfl⟩ := List.exists_of_length_succ _ hgVec
    obtain ⟨h, hVec, rfl⟩ := List.exists_of_length_succ _ hhVec
    simp only [List.length_cons, Nat.add_right_cancel_iff] at hsR hgVec hhVec
    simp only [addMultiples, exists_bind_eq_ok, multiply_eq_ok_iff, List.forall_mem_cons]
    constructor
    · rintro ⟨_, ⟨hl, rfl⟩, _, ⟨hr, rfl⟩, hrest⟩
      obtain ⟨hsL, hsR⟩ := (ih hsR hgVec hhVec _).1 hrest
      exact ⟨⟨hl, hsL⟩, hr, hsR⟩
    · rintro ⟨⟨hl, hsL⟩, hr, hsR'⟩
      exact ⟨_, ⟨hl, rfl⟩, _, ⟨hr, rfl⟩, (ih hsR hgVec hhVec _).2 ⟨hsL, hsR'⟩⟩

/-- The multiples of the generators can be added if no multiplier is zero. -/
theorem exists_addMultiples_draws_iff {n : ℕ} {gVec hVec : List Point} {draws : RangeDraws}
    (hvectors : deriveGeneratorVectors sha512 n = .ok (gVec, hVec)) (sPoint : Point) :
    (∃ q, addMultiples ((List.range n).map fun i => scalarFromUniform64 (draws.sL i).toList)
        ((List.range n).map fun i => scalarFromUniform64 (draws.sR i).toList) gVec hVec sPoint =
          .ok q) ↔
      (∀ i < n, scalarFromUniform64 (draws.sL i).toList ≠ 0) ∧
        ∀ i < n, scalarFromUniform64 (draws.sR i).toList ≠ 0 := by
  obtain ⟨hgVec, hhVec⟩ := length_of_deriveGeneratorVectors hvectors
  rw [exists_addMultiples_iff (by simp) (by simpa using hgVec) (by simpa using hhVec)]
  simp only [List.forall_mem_map, List.mem_range, isScalar_scalarFromUniform64]

theorem runRange_nonZero {value r : ℤ} {n : ℕ} {draws : RangeDraws} {run : RangeRun Point}
    (h : runRange sha512 value n r draws = .ok run) : draws.NonZero n := by
  simp only [runRange, except_bind_eq_ok, multiply_eq_ok_iff, pedersenCommit_eq, multBaseG_eq,
    twistedH_eq, Except.ok.injEq, exists_eq_left', isScalar_scalarFromUniform64] at h
  obtain ⟨_, hvectors, _, ⟨halpha, -⟩, _, ⟨hrho, -⟩, sPoint, hsPoint, _, ⟨htau1, -⟩, _,
    ⟨htau2, -⟩, -⟩ := h
  obtain ⟨hsL, hsR⟩ := (exists_addMultiples_draws_iff hvectors _).1 ⟨sPoint, hsPoint⟩
  exact ⟨halpha, hrho, hsL, hsR, htau1, htau2⟩

variable (Point) in
theorem exists_runRange (hsha : ∀ data, scalarFromUniform64 (sha512 data).toList ≠ 0) {n : ℕ}
    {draws : RangeDraws} (hdraws : draws.NonZero n) (value r : ℤ) :
    ∃ run : RangeRun Point, runRange sha512 value n r draws = .ok run := by
  obtain ⟨gVec, hVec, hvectors⟩ : ∃ gVec hVec : List Point,
      deriveGeneratorVectors sha512 n = .ok (gVec, hVec) := exists_deriveGeneratorVectors n
  simp only [runRange, exists_bind_eq_ok, multiply_eq_ok_iff, pedersenCommit_eq, multBaseG_eq,
    twistedH_eq, Except.ok.injEq, exists_eq_left', isScalar_scalarFromUniform64]
  refine ⟨_, hvectors, _, ⟨hdraws.alpha, rfl⟩, _, ⟨hdraws.rho, rfl⟩, ?_⟩
  obtain ⟨sPoint, hsPoint⟩ := (exists_addMultiples_draws_iff hvectors _).2 ⟨hdraws.sL, hdraws.sR⟩
  refine ⟨sPoint, hsPoint, _, ⟨hdraws.tau1, rfl⟩, _, ⟨hdraws.tau2, rfl⟩, ?_⟩
  obtain ⟨inner, hinner⟩ := exists_innerProductProve hsha _ _ _ _ gVec hVec _
  exact ⟨inner, hinner, _, rfl⟩

/-- The prover returns for no other inputs. -/
theorem prove_accepts {value bitLength : ℤ} {blinding : Option ℤ} {draws : RangeDraws}
    {proof : RangeProof} {r : ℤ}
    (h : prove Point sha512 value bitLength blinding draws = .ok (proof, r)) :
    ProveAccepts value bitLength draws := by
  simp only [prove, except_bind_eq_ok, throwUnless_eq_ok] at h
  obtain ⟨_, hnonneg, _, hlength, _, hle, run, hrun, -⟩ := h
  exact ⟨hnonneg, hlength, hle, runRange_nonZero hrun⟩

variable (Point) in
/-- And for these, it does, unless a digest is zero. -/
theorem exists_prove (hsha : ∀ data, scalarFromUniform64 (sha512 data).toList ≠ 0)
    {value bitLength : ℤ} {draws : RangeDraws} (h : ProveAccepts value bitLength draws)
    (blinding : Option ℤ) :
    ∃ proof r, prove Point sha512 value bitLength blinding draws = .ok (proof, r) := by
  obtain ⟨run, hrun⟩ := exists_runRange Point hsha h.nonZero value
    (blinding.getD (scalarFromUniform64 draws.blinding.toList))
  refine ⟨run.proof, blinding.getD (scalarFromUniform64 draws.blinding.toList), ?_⟩
  simp only [prove, except_bind_eq_ok, throwUnless_eq_ok]
  exact ⟨(), h.nonneg, (), h.length, (), h.le, run, hrun, rfl⟩

/-! ### The equation -/

/-- The coefficients are drawn equal to their blindings. -/
def RangeDraws.Matched (draws : RangeDraws) : Prop :=
  scalarFromUniform64 draws.t1.toList = scalarFromUniform64 draws.tau1.toList ∧
    scalarFromUniform64 draws.t2.toList = scalarFromUniform64 draws.tau2.toList

/-- At the challenge `x` it makes no difference that the coefficients `t1` and `t2` and the
blindings `tau1` and `tau2` stand in each other's place. -/
def SwapVanishes (draws : RangeDraws) (x : ZMod curveOrder) : Prop :=
  x * (scalarFromUniform64 draws.t1.toList + x * scalarFromUniform64 draws.t2.toList) =
    x * (scalarFromUniform64 draws.tau1.toList + x * scalarFromUniform64 draws.tau2.toList)

instance (draws : RangeDraws) (x : ZMod curveOrder) : Decidable (SwapVanishes draws x) :=
  inferInstanceAs (Decidable (_ = _))

theorem RangeDraws.Matched.swapVanishes {draws : RangeDraws} (h : draws.Matched)
    (x : ZMod curveOrder) : SwapVanishes draws x := by
  rw [SwapVanishes, h.1, h.2]

theorem scalarFromUniform64_inj {bytes bytes' : List UInt8} :
    (scalarFromUniform64 bytes : ZMod curveOrder) = scalarFromUniform64 bytes' ↔
      scalarFromUniform64 bytes = scalarFromUniform64 bytes' := by
  rw [ZMod.natCast_eq_natCast_iff', Nat.mod_eq_of_lt (scalarFromUniform64_lt bytes),
    Nat.mod_eq_of_lt (scalarFromUniform64_lt bytes')]

/-- The difference of the sides, divided by `x`, is a line. -/
theorem matched_of_swapVanishes {draws : RangeDraws} {x y : ZMod curveOrder} (hx : x ≠ 0)
    (hy : y ≠ 0) (hxy : x ≠ y) (h : SwapVanishes draws x) (h' : SwapVanishes draws y) :
    draws.Matched := by
  have hline := mul_left_cancel₀ hx h
  have hline' := mul_left_cancel₀ hy h'
  have hslope : (scalarFromUniform64 draws.t2.toList : ZMod curveOrder) =
      scalarFromUniform64 draws.tau2.toList := by
    refine mul_left_cancel₀ (sub_ne_zero.2 hxy) ?_
    linear_combination hline - hline'
  refine ⟨scalarFromUniform64_inj.1 ?_, scalarFromUniform64_inj.1 hslope⟩
  linear_combination hline - x * hslope

theorem RangeRun.Responds.commitmentEquation_run_iff {value r : ℤ} {draws : RangeDraws}
    {run : RangeRun Point} (h : run.Responds sha512 value r draws
      (run.proof.challenges sha512).1 (run.proof.challenges sha512).2)
    (hh : twistedScalar sha512 ≠ 1) :
    CommitmentEquation sha512 (twistedScalar sha512 • (base : Point)) base run.proof ↔
      SwapVanishes draws (run.proof.challenges sha512).2 := by
  rw [RangeRun.commitmentEquation_proof h.commitment h.lt, SwapVanishes]
  generalize run.proof.challenges sha512 = challenges at h ⊢
  obtain ⟨z, x⟩ := challenges
  dsimp only at h ⊢
  rw [h.tauX, h.tHat, h.t1Point, h.t2Point, ← sub_eq_zero,
    ← sub_eq_zero (a := (x : ZMod curveOrder) * _), ← twistedScalar_sub_one_smul_eq_zero Point hh]
  -- the value and its blinding cancel, `pedersenCommit` has them over the right generators
  refine Eq.congr_left ?_
  rw [← Nat.cast_smul_eq_nsmul (ZMod curveOrder)]
  module

theorem commitmentEquation_prove_iff {value bitLength r : ℤ} {blinding : Option ℤ}
    {draws : RangeDraws} {proof : RangeProof} (hh : twistedScalar sha512 ≠ 1)
    (hprove : prove Point sha512 value bitLength blinding draws = .ok (proof, r)) :
    CommitmentEquation sha512 (twistedScalar sha512 • (base : Point)) base proof ↔
      SwapVanishes draws (proof.challenges sha512).2 := by
  obtain ⟨run, hrun, rfl⟩ := prove_eq_ok hprove
  exact (runRange_responds hrun).commitmentEquation_run_iff hh

/-! ### Constant hashes -/

theorem twistedScalar_constantHash {k : ℕ} (hk : IsScalar k) :
    twistedScalar (constantHash k) = k := by
  simp only [twistedScalar, scalarFromUniform64_constantHash hk.2, if_neg hk.1.ne']

theorem challenges_constantHash {k : ℕ} (hk : k < curveOrder) (proof : RangeProof) :
    (proof.challenges (constantHash k)).2 = k :=
  scalarFromUniform64_constantHash hk _

/-- If the equation holds for whatever hash, it holds at every challenge. -/
theorem swapVanishes_of_forall {value bitLength : ℤ} {blinding : Option ℤ} {draws : RangeDraws}
    (h : ∀ sha512 proof r, twistedScalar sha512 ≠ 1 →
      prove Point sha512 value bitLength blinding draws = .ok (proof, r) →
        CommitmentEquation sha512 (twistedScalar sha512 • (base : Point)) base proof)
    (haccepts : ProveAccepts value bitLength draws) {k : ℕ} (hk : IsScalar k) (hone : k ≠ 1) :
    SwapVanishes draws k := by
  have hdigest : ∀ data, scalarFromUniform64 (constantHash k data).toList ≠ 0 := by
    intro data
    rw [scalarFromUniform64_constantHash hk.2]
    exact hk.1.ne'
  have hh : twistedScalar (constantHash k) ≠ 1 := by rwa [twistedScalar_constantHash hk]
  obtain ⟨proof, r, hprove⟩ := exists_prove Point hdigest haccepts blinding
  have hswap := (commitmentEquation_prove_iff hh hprove).1 (h _ proof r hh hprove)
  rwa [challenges_constantHash hk.2] at hswap

variable (Point) in
/-- The proofs of an input pass the check, whatever the hash, exactly if the coefficients are drawn
equal to their blindings or nothing is proved.  A single proof passes exactly if the swap of
coefficients and blindings vanishes at its challenge. -/
theorem commitmentEquation_iff (value bitLength : ℤ) (blinding : Option ℤ) (draws : RangeDraws) :
    ((∀ sha512 proof r, twistedScalar sha512 ≠ 1 →
      prove Point sha512 value bitLength blinding draws = .ok (proof, r) →
        CommitmentEquation sha512 (twistedScalar sha512 • (base : Point)) base proof) ↔
      (ProveAccepts value bitLength draws → draws.Matched)) ∧
    ∀ sha512 proof r, twistedScalar sha512 ≠ 1 →
      prove Point sha512 value bitLength blinding draws = .ok (proof, r) →
        (CommitmentEquation sha512 (twistedScalar sha512 • (base : Point)) base proof ↔
          SwapVanishes draws (proof.challenges sha512).2) := by
  refine ⟨⟨fun h haccepts => ?_, fun h sha512 proof r hh hprove => ?_⟩,
    fun sha512 proof r => commitmentEquation_prove_iff⟩
  · have htwo := swapVanishes_of_forall h haccepts ⟨two_pos, by decide +kernel⟩ (by decide)
    have hthree := swapVanishes_of_forall h haccepts ⟨three_pos, by decide +kernel⟩ (by decide)
    exact matched_of_swapVanishes (by decide +kernel) (by decide +kernel) (by decide +kernel) htwo
      hthree
  · exact (commitmentEquation_prove_iff hh hprove).2 ((h (prove_accepts hprove)).swapVanishes _)

namespace Sample

/-- A bit with the blinding `1`, where every scalar drawn is `1`. -/
def matchedDraws : RangeDraws where
  blinding := oneDraw
  alpha := oneDraw
  sL _ := oneDraw
  sR _ := oneDraw
  rho := oneDraw
  tau1 := oneDraw
  tau2 := oneDraw
  t1 := oneDraw
  t2 := oneDraw

/-- The same, but for the coefficient `t1`. -/
def rangeDraws : RangeDraws := { matchedDraws with t1 := twoHash [] }

end Sample

theorem proveAccepts_matchedDraws {bitLength : ℤ} (h : 0 < bitLength ∧ bitLength ≤ 128) :
    ProveAccepts 1 bitLength Sample.matchedDraws := by
  have hone : scalarFromUniform64 Sample.oneDraw.toList ≠ 0 := by decide +kernel
  have htwo : (2 : ℤ) ≤ 2 ^ bitLength.toNat := by
    have hpow := pow_le_pow_right₀ (one_le_two (α := ℤ)) (show 1 ≤ bitLength.toNat by omega)
    rwa [pow_one] at hpow
  exact ⟨by decide, h, by omega, hone, hone, fun _ _ => hone, fun _ _ => hone, hone, hone⟩

/-- The hash and the draws of these samples give a proof for every bit length. -/
theorem exists_prove_matchedDraws {bitLength : ℤ} (h : 0 < bitLength ∧ bitLength ≤ 128)
    (blinding : Option ℤ) : ∃ proof r,
    prove (ZMod curveOrder) Sample.twoHash 1 bitLength blinding Sample.matchedDraws =
      .ok (proof, r) :=
  exists_prove (ZMod curveOrder) twoHash_ne_zero (proveAccepts_matchedDraws h) blinding

theorem commitmentEquation_iff_sample : ∃ proof r,
    prove (ZMod curveOrder) Sample.twoHash 1 1 (some 1) Sample.matchedDraws = .ok (proof, r) ∧
      CommitmentEquation Sample.twoHash
        (twistedScalar Sample.twoHash • (base : ZMod curveOrder)) base proof := by
  obtain ⟨proof, r, hprove⟩ :=
    exists_prove_matchedDraws (show (0 : ℤ) < 1 ∧ (1 : ℤ) ≤ 128 by decide) (some 1)
  refine ⟨proof, r, hprove, ?_⟩
  refine (commitmentEquation_iff (ZMod curveOrder) 1 1 (some 1) Sample.matchedDraws).1.2 ?_
    Sample.twoHash proof r (by decide +kernel) hprove
  exact fun _ => ⟨rfl, rfl⟩

/-- The proof of the bit and its challenges. -/
theorem exists_prove_rangeDraws : ∃ proof,
    prove (ZMod curveOrder) Sample.twoHash 1 1 (some 1) Sample.rangeDraws = .ok (proof, 1) ∧
      ¬ SwapVanishes Sample.rangeDraws (proof.challenges Sample.twoHash).2 := by
  obtain ⟨⟨proof, r⟩, hprove, hr, hswap⟩ : ∃ result ∈ (prove (ZMod curveOrder) Sample.twoHash 1 1
      (some 1) Sample.rangeDraws).toOption,
      result.2 = 1 ∧ ¬ SwapVanishes Sample.rangeDraws (result.1.challenges Sample.twoHash).2 := by
    decide +kernel
  obtain rfl : r = 1 := hr
  exact ⟨proof, toOption_eq_some.1 hprove, hswap⟩

theorem twistedScalar_twoHash : twistedScalar Sample.twoHash ≠ 1 := by decide +kernel

/-- The proof of the bit fails the check. -/
theorem not_commitmentEquation : twistedScalar Sample.twoHash ≠ 1 ∧ ∃ proof,
    prove (ZMod curveOrder) Sample.twoHash 1 1 (some 1) Sample.rangeDraws = .ok (proof, 1) ∧
      ¬ CommitmentEquation Sample.twoHash
        (twistedScalar Sample.twoHash • (base : ZMod curveOrder)) base proof := by
  refine ⟨twistedScalar_twoHash, ?_⟩
  obtain ⟨proof, hprove, hswap⟩ := exists_prove_rangeDraws
  exact ⟨proof, hprove, mt (commitmentEquation_prove_iff twistedScalar_twoHash hprove).1 hswap⟩

end Ghos.Sdk
