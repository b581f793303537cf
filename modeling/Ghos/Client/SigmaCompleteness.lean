import Ghos.Client.Sigma

/-!
# Completeness of the sigma protocols

What a prover of the SDK has written is what its verifier reads: the slices of the proof, the
scalars in them and the bytes under the challenge are the same.

* `sigmaProtocols_complete`: a verifier accepts every proof of its prover, unless it would have to
  multiply by zero.
-/

namespace Ghos.Sdk

open Ristretto255

variable {Point : Type} [Ristretto255 Point] {sha512 : List UInt8 → Vector UInt8 64}
  {ct : ElGamal.Ciphertext Point} {pkPoint : Point}

/-! ### Slices of a proof -/

theorem slice_flatten {parts : List (List UInt8)} (hparts : ∀ part ∈ parts, part.length = 32)
    {i : ℕ} {part : List UInt8} (hpart : parts[i]? = some part) :
    slice parts.flatten (32 * i) (32 * i + 32) = part := by
  rw [slice, Nat.add_sub_cancel_left]
  induction parts generalizing i with
  | nil => cases hpart
  | cons first parts ih =>
    obtain ⟨hfirst, hparts⟩ := List.forall_mem_cons.1 hparts
    cases i with
    | zero =>
      cases hpart
      rw [List.flatten_cons, Nat.mul_zero, List.drop_zero, List.take_left' hfirst]
    | succ i =>
      rw [List.flatten_cons, Nat.mul_succ, Nat.add_comm, ← List.drop_drop, List.drop_left' hfirst,
        ih hparts hpart]

theorem length_flatten {parts : List (List UInt8)} {m : ℕ}
    (hparts : ∀ part ∈ parts, part.length = m) : parts.flatten.length = m * parts.length := by
  induction parts with
  | nil => rfl
  | cons part parts ih =>
    obtain ⟨hpart, hparts⟩ := List.forall_mem_cons.1 hparts
    rw [List.flatten_cons, List.length_append, hpart, ih hparts, List.length_cons, Nat.mul_succ,
      Nat.add_comm]

/-- Parts of one length can be told apart. -/
theorem flatten_inj {parts parts' : List (List UInt8)} {m : ℕ} (hm : 0 < m)
    (hparts : ∀ part ∈ parts, part.length = m) (hparts' : ∀ part ∈ parts', part.length = m)
    (h : parts.flatten = parts'.flatten) : parts = parts' := by
  induction parts generalizing parts' with
  | nil =>
    have hlength := congrArg List.length h
    rw [length_flatten hparts', List.flatten_nil, List.length_nil, eq_comm, mul_eq_zero,
      or_iff_right hm.ne', List.length_eq_zero_iff] at hlength
    exact hlength.symm
  | cons part parts ih =>
    obtain ⟨hpart, hrest⟩ := List.forall_mem_cons.1 hparts
    cases parts' with
    | nil =>
      have hlength := congrArg List.length h
      rw [length_flatten hparts, List.flatten_nil, List.length_nil, mul_eq_zero] at hlength
      simp [hm.ne'] at hlength
    | cons part' parts' =>
      obtain ⟨hpart', hrest'⟩ := List.forall_mem_cons.1 hparts'
      obtain ⟨rfl, htail⟩ := List.append_inj h (hpart.trans hpart'.symm)
      rw [ih hrest hrest' htail]

theorem length_scalarToLE32 (scalar : ℤ) : (scalarToLE32 scalar).length = 32 := length_leBytes 32 _

/-! ### Equality of plaintexts -/

theorem multiplyUnlessZero_eq {p : Point} {k : ℕ} (hk : k < curveOrder) :
    multiplyUnlessZero (.ok p) k = .ok ((k : ZMod curveOrder) • p) := by
  rw [multiplyUnlessZero]
  split_ifs with hzero
  · rw [hzero, Nat.cast_zero, zero_smul]
    rfl
  · exact multiply_eq_ok_iff.2 ⟨⟨Nat.pos_of_ne_zero hzero, hk⟩, rfl⟩

theorem pedersenC1_eq {v r : ℕ} (hv : v < curveOrder) (hr : r < curveOrder) :
    pedersenC1 sha512 v r = .ok ((v : ZMod curveOrder) • twistedScalar sha512 • (base : Point) +
      (r : ZMod curveOrder) • base) := by
  rw [pedersenC1, twistedH_eq, multiplyUnlessZero_eq hv]
  show (do let rG ← multiplyUnlessZero (.ok base) r; return _ + rG : Except SdkError Point) = _
  rw [multiplyUnlessZero_eq hr]
  rfl

theorem transcriptChallenge_lt {domain : List UInt8} {messages : List (List UInt8)} :
    transcriptChallenge sha512 domain messages < curveOrder := Nat.mod_lt _ curveOrder_pos

/-- A response, as the scalar that it stands for. -/
theorem cast_response (t challenge : ℕ) (w : ℤ) :
    (reduceScalar (t + reduceScalar (challenge * reduceScalar w)) : ZMod curveOrder) =
      t + challenge * w := by
  simp only [cast_reduceScalar, Int.cast_add, Int.cast_natCast, Int.cast_mul]

/-- What the prover has sent fits the statement. -/
structure EqualityRun.Honest (sha512 : List UInt8 → Vector UInt8 64) (params : EqualityParams)
    (run : EqualityRun Point) (points : EqualityPoints Point) : Prop where
  sourcePk : pointFromBytes params.sourcePk = .ok points.sourcePk
  destPk : pointFromBytes params.destPk = .ok points.destPk
  sourceCt : encryptWithRandomness Point sha512 params.sourcePk params.v params.rS =
    .ok (encodeCiphertext points.sourceCt)
  destCt : encryptWithRandomness Point sha512 params.destPk params.v params.rD =
    .ok (encodeCiphertext points.destCt)
  challenge : run.challenge = equalityChallenge sha512 params.sourcePk params.destPk
    points.sourceCt.c1 points.sourceCt.c2 points.destCt.c1 points.destCt.c2 run.a1 run.a2 run.a3
    run.a4
  accepts : EqualityAccepts (twistedScalar sha512 • base) points run.a1 run.a2 run.a3 run.a4
    run.challenge run.z1 run.z2 run.z3
  lt : run.challenge < curveOrder ∧ run.z1 < curveOrder ∧ run.z2 < curveOrder ∧
    run.z3 < curveOrder

theorem runEquality_honest {params : EqualityParams} {draw1 draw2 draw3 : Vector UInt8 64}
    {run : EqualityRun Point} (h : runEquality sha512 params draw1 draw2 draw3 = .ok run) :
    ∃ points, run.Honest sha512 params points := by
  simp only [runEquality, except_bind_eq_ok, twistedH_eq, Except.ok.injEq, exists_eq_left',
    multiply_eq_ok_iff, pedersenC1_eq (reduceScalar_lt _) (reduceScalar_lt _), except_pure_eq_ok]
    at h
  obtain ⟨sourcePk, hsource, destPk, hdest, _, ⟨-, rfl⟩, _, ⟨-, rfl⟩, _, ⟨-, rfl⟩, _, ⟨-, rfl⟩, _,
    ⟨-, rfl⟩, _, ⟨-, rfl⟩, _, ⟨hrS, rfl⟩, _, ⟨hrD, rfl⟩, rfl⟩ := h
  set t1 := scalarFromUniform64 draw1.toList
  set t2 := scalarFromUniform64 draw2.toList
  set t3 := scalarFromUniform64 draw3.toList
  let h := twistedScalar sha512 • (base : Point)
  have hh : (twistedScalar sha512 : ZMod curveOrder) • (base : Point) = h :=
    Nat.cast_smul_eq_nsmul ..
  have hsourceCt := encryptWithRandomness_eq sha512 hsource params.v hrS.1.ne'
  have hdestCt := encryptWithRandomness_eq sha512 hdest params.v hrD.1.ne'
  rw [hh] at hsourceCt hdestCt
  refine ⟨⟨sourcePk, destPk, _, _⟩, hsource, hdest, hsourceCt, hdestCt, ?_, ?_, ?_⟩
  · simp only [cast_reduceScalar]
    rfl
  · rw [equalityAccepts_iff]
    simp only [cast_response]
    exact SigmaProtocol.accepts_respond (equalityMap h sourcePk destPk) (↑t1, ↑t2, ↑t3)
      (↑params.v, ↑params.rS, ↑params.rD) _
  · dsimp only
    exact ⟨transcriptChallenge_lt, reduceScalar_lt _, reduceScalar_lt _, reduceScalar_lt _⟩

theorem encode_length (p : Point) : (encode p).toList.length = 32 := Vector.length_toList

/-- The verifier accepts what fits the statement, if it may multiply by every scalar. -/
theorem EqualityRun.Honest.verifies {params : EqualityParams} {run : EqualityRun Point}
    {points : EqualityPoints Point} (h : run.Honest sha512 params points)
    (hchallenge : run.challenge ≠ 0) (hz1 : run.z1 ≠ 0) (hz2 : run.z2 ≠ 0) (hz3 : run.z3 ≠ 0) :
    verifyEquality Point sha512 ⟨params.sourcePk, params.destPk, encodeCiphertext points.sourceCt,
      encodeCiphertext points.destCt⟩ run.proof = true := by
  obtain ⟨hltc, hlt1, hlt2, hlt3⟩ := h.lt
  have hparts : ∀ part ∈ [(encode run.a1).toList, (encode run.a2).toList, (encode run.a3).toList,
      (encode run.a4).toList, scalarToLE32 run.z1, scalarToLE32 run.z2, scalarToLE32 run.z3],
      part.length = 32 := by
    simp [length_scalarToLE32]
  have hlen : run.proof.proofBytes.length = 224 := length_flatten hparts
  have h0 : slice run.proof.proofBytes 0 32 = _ := slice_flatten hparts (i := 0) rfl
  have h1 : slice run.proof.proofBytes 32 64 = _ := slice_flatten hparts (i := 1) rfl
  have h2 : slice run.proof.proofBytes 64 96 = _ := slice_flatten hparts (i := 2) rfl
  have h3 : slice run.proof.proofBytes 96 128 = _ := slice_flatten hparts (i := 3) rfl
  have h4 : slice run.proof.proofBytes 128 160 = _ := slice_flatten hparts (i := 4) rfl
  have h5 : slice run.proof.proofBytes 160 192 = _ := slice_flatten hparts (i := 5) rfl
  have h6 : slice run.proof.proofBytes 192 224 = _ := slice_flatten hparts (i := 6) rfl
  refine verifyEquality_iff.2 ⟨hlen, ?_⟩
  rw [checkEquality]
  simp only [h0, h1, h2, h3, h4, h5, h6, except_bind_eq_ok, h.sourcePk, h.destPk,
    pointFromBytes_encode, encodeCiphertext, scalarFromLE32_scalarToLE32 hlt1,
    scalarFromLE32_scalarToLE32 hlt2,
    scalarFromLE32_scalarToLE32 hlt3, Except.ok.injEq, exists_eq_left', ← h.challenge]
  exact equalityEquations_eq_ok_true.2 ⟨⟨⟨Nat.pos_of_ne_zero hchallenge, hltc⟩,
    ⟨Nat.pos_of_ne_zero hz1, hlt1⟩, ⟨Nat.pos_of_ne_zero hz2, hlt2⟩,
    ⟨Nat.pos_of_ne_zero hz3, hlt3⟩⟩, h.accepts⟩

/-! ### Validity of a public key, balances of zero -/

/-- What the prover of a key has sent fits the key. -/
structure PubkeyValidityRun.Honest (sha512 : List UInt8 → Vector UInt8 64)
    (run : PubkeyValidityRun Point) : Prop where
  challenge : run.challenge = pubkeyValidityChallenge sha512 run.pkPoint run.r
  accepts : PubkeyValidityAccepts run.pkPoint run.r run.challenge run.z
  lt : run.challenge < curveOrder ∧ run.z < curveOrder

theorem runPubkeyValidity_honest {secret : List UInt8} {draw : Vector UInt8 64}
    {run : PubkeyValidityRun Point} (h : runPubkeyValidity sha512 secret draw = .ok run) :
    run.Honest sha512 := by
  simp only [runPubkeyValidity, except_bind_eq_ok, multBaseG_eq, Except.ok.injEq, exists_eq_left',
    except_pure_eq_ok, Int.cast_natCast] at h
  obtain ⟨sk, -, _, -, rfl⟩ := h
  refine ⟨rfl, ?_, ?_⟩
  · simp only [pubkeyValidityAccepts_iff, cast_reduceScalar, Int.cast_add, Int.cast_natCast,
      Int.cast_mul]
    exact SigmaProtocol.accepts_respond (.toSpanSingleton _ _ (base : Point)) _
      (sk : ZMod curveOrder) _
  · dsimp only
    exact ⟨transcriptChallenge_lt, reduceScalar_lt _⟩

theorem PubkeyValidityRun.Honest.verifies {run : PubkeyValidityRun Point} (h : run.Honest sha512)
    (hchallenge : run.challenge ≠ 0) (hz : run.z ≠ 0) :
    verifyPubkeyValidity Point sha512 run.proof = true := by
  obtain ⟨hltc, hlt⟩ := h.lt
  have hparts : ∀ part ∈ [(encode run.r).toList, scalarToLE32 run.z], part.length = 32 := by
    simp [length_scalarToLE32]
  have hlen : run.proof.proofBytes.length = 64 := length_flatten hparts
  have h0 : slice run.proof.proofBytes 0 32 = _ := slice_flatten hparts (i := 0) rfl
  have h1 : slice run.proof.proofBytes 32 64 = _ := slice_flatten hparts (i := 1) rfl
  have hpk : run.proof.pubkey = (encode run.pkPoint).toList := rfl
  refine verifyPubkeyValidity_iff.2 ⟨hlen, ?_⟩
  rw [checkPubkeyValidity]
  simp only [h0, h1, hpk, except_bind_eq_ok, pointFromBytes_encode,
    scalarFromLE32_scalarToLE32 hlt, Except.ok.injEq, exists_eq_left', ← h.challenge]
  exact pubkeyValidityEquations_eq_ok_true.2 ⟨⟨⟨Nat.pos_of_ne_zero hchallenge, hltc⟩,
    ⟨Nat.pos_of_ne_zero hz, hlt⟩⟩, h.accepts⟩

/-- What the prover of a zero balance has sent fits the ciphertext. -/
structure ZeroBalanceRun.Honest (sha512 : List UInt8 → Vector UInt8 64) (pk : List UInt8)
    (pkPoint : Point) (ct : ElGamal.Ciphertext Point) (run : ZeroBalanceRun Point) : Prop where
  key : pointFromBytes pk = .ok pkPoint
  challenge : run.challenge = zeroBalanceChallenge sha512 pk (encodeCiphertext ct) run.a1 run.a2
  accepts : ZeroBalanceAccepts pkPoint ct run.a1 run.a2 run.challenge run.z
  lt : run.challenge < curveOrder ∧ run.z < curveOrder

theorem runZeroBalance_honest {pk : List UInt8} {pkPoint : Point} {r : ℤ} {draw : Vector UInt8 64}
    {run : ZeroBalanceRun Point} (hpk : pointFromBytes pk = .ok pkPoint)
    (h : runZeroBalance sha512 pk
      (encodeCiphertext ⟨(r : ZMod curveOrder) • base, (r : ZMod curveOrder) • pkPoint⟩) r draw =
        .ok run) :
    run.Honest sha512 pk pkPoint
      ⟨(r : ZMod curveOrder) • base, (r : ZMod curveOrder) • pkPoint⟩ := by
  simp only [runZeroBalance, hpk, except_bind_eq_ok, multBaseG_eq, multiply_eq_ok_iff,
    Except.ok.injEq, exists_eq_left', except_pure_eq_ok, Int.cast_natCast] at h
  obtain ⟨_, ⟨-, rfl⟩, rfl⟩ := h
  refine ⟨hpk, rfl, ?_, ?_⟩
  · rw [zeroBalanceAccepts_iff]
    simp only [cast_response]
    exact SigmaProtocol.accepts_respond (zeroBalanceMap pkPoint) _ (r : ZMod curveOrder) _
  · dsimp only
    exact ⟨transcriptChallenge_lt, reduceScalar_lt _⟩

theorem ZeroBalanceRun.Honest.verifies {pk : List UInt8} {run : ZeroBalanceRun Point}
    (h : run.Honest sha512 pk pkPoint ct) (hchallenge : run.challenge ≠ 0) (hz : run.z ≠ 0) :
    verifyZeroBalance Point sha512 pk (run.proof (encodeCiphertext ct)) = true := by
  obtain ⟨hltc, hlt⟩ := h.lt
  have hparts : ∀ part ∈ [(encode run.a1).toList, (encode run.a2).toList, scalarToLE32 run.z],
      part.length = 32 := by
    simp [length_scalarToLE32]
  set proof := run.proof (encodeCiphertext ct)
  have hlen : proof.proofBytes.length = 96 := length_flatten hparts
  have h0 : slice proof.proofBytes 0 32 = _ := slice_flatten hparts (i := 0) rfl
  have h1 : slice proof.proofBytes 32 64 = _ := slice_flatten hparts (i := 1) rfl
  have h2 : slice proof.proofBytes 64 96 = _ := slice_flatten hparts (i := 2) rfl
  have hct : proof.ciphertext = encodeCiphertext ct := rfl
  have hc1 : (encodeCiphertext ct).c1 = (encode ct.c1).toList := rfl
  have hc2 : (encodeCiphertext ct).c2 = (encode ct.c2).toList := rfl
  refine verifyZeroBalance_iff.2 ⟨hlen, ?_⟩
  rw [checkZeroBalance]
  simp only [h0, h1, h2, hct, hc1, hc2, except_bind_eq_ok, h.key, pointFromBytes_encode,
    scalarFromLE32_scalarToLE32 hlt, Except.ok.injEq, exists_eq_left', ← h.challenge]
  exact zeroBalanceEquations_eq_ok_true.2 ⟨⟨⟨Nat.pos_of_ne_zero hchallenge, hltc⟩,
    ⟨Nat.pos_of_ne_zero hz, hlt⟩⟩, h.accepts⟩

/-- A proof that a prover returns is accepted, unless the challenge or a response is zero. -/
theorem sigmaProtocols_complete (Point : Type) [Ristretto255 Point]
    (sha512 : List UInt8 → Vector UInt8 64) :
    (∀ (params : EqualityParams) (draw1 draw2 draw3 : Vector UInt8 64) (run : EqualityRun Point),
      runEquality sha512 params draw1 draw2 draw3 = .ok run →
      run.challenge ≠ 0 → run.z1 ≠ 0 → run.z2 ≠ 0 → run.z3 ≠ 0 →
      ∃ sourceCt destCt,
        encryptWithRandomness Point sha512 params.sourcePk params.v params.rS = .ok sourceCt ∧
        encryptWithRandomness Point sha512 params.destPk params.v params.rD = .ok destCt ∧
        proveEquality Point sha512 params draw1 draw2 draw3 = .ok run.proof ∧
        verifyEquality Point sha512 ⟨params.sourcePk, params.destPk, sourceCt, destCt⟩
          run.proof = true) ∧
    (∀ (secret : List UInt8) (draw : Vector UInt8 64) (run : PubkeyValidityRun Point),
      runPubkeyValidity sha512 secret draw = .ok run → run.challenge ≠ 0 → run.z ≠ 0 →
      provePubkeyValidity Point sha512 secret draw = .ok run.proof ∧
        verifyPubkeyValidity Point sha512 run.proof = true) ∧
    ∀ (pk : List UInt8) (pkPoint : Point) (r : ℤ) (draw : Vector UInt8 64)
      (run : ZeroBalanceRun Point), pointFromBytes pk = .ok pkPoint →
      let ciphertext :=
        encodeCiphertext ⟨(r : ZMod curveOrder) • base, (r : ZMod curveOrder) • pkPoint⟩
      runZeroBalance sha512 pk ciphertext r draw = .ok run → run.challenge ≠ 0 → run.z ≠ 0 →
      proveZeroBalance Point sha512 pk ciphertext r draw = .ok (run.proof ciphertext) ∧
        verifyZeroBalance Point sha512 pk (run.proof ciphertext) = true := by
  refine ⟨?_, ?_, ?_⟩
  · intro params draw1 draw2 draw3 run hrun hchallenge hz1 hz2 hz3
    obtain ⟨points, h⟩ := runEquality_honest hrun
    refine ⟨_, _, h.sourceCt, h.destCt, ?_, h.verifies hchallenge hz1 hz2 hz3⟩
    rw [proveEquality, hrun]
    rfl
  · intro secret draw run hrun hchallenge hz
    refine ⟨?_, (runPubkeyValidity_honest hrun).verifies hchallenge hz⟩
    rw [provePubkeyValidity, hrun]
    rfl
  · intro pk pkPoint r draw run hpk ciphertext hrun hchallenge hz
    refine ⟨?_, (runZeroBalance_honest hpk hrun).verifies hchallenge hz⟩
    rw [proveZeroBalance, hrun]
    rfl

namespace Sample

/-- A hash whose digests all are the scalar `2`. -/
def twoHash (_ : List UInt8) : Vector UInt8 64 := ⟨(leBytes 64 2).toArray, by simp [length_leBytes]⟩

/-- The draw of the scalar `1`. -/
def oneDraw : Vector UInt8 64 := ⟨(leBytes 64 1).toArray, by simp [length_leBytes]⟩

/-- Ten base units, under the keys `1` and `2`. -/
def equalityParams : EqualityParams :=
  ⟨publicKey (ZMod curveOrder) 1, publicKey (ZMod curveOrder) 2, 10, 3, 4⟩

end Sample

theorem sigmaProtocols_complete_sample :
    (∃ (run : EqualityRun (ZMod curveOrder)) (sourceCt destCt : ElGamalCiphertext),
      verifyEquality (ZMod curveOrder) Sample.twoHash ⟨Sample.equalityParams.sourcePk,
        Sample.equalityParams.destPk, sourceCt, destCt⟩ run.proof = true) ∧
    (∃ run : PubkeyValidityRun (ZMod curveOrder),
      verifyPubkeyValidity (ZMod curveOrder) Sample.twoHash run.proof = true) ∧
    ∃ (run : ZeroBalanceRun (ZMod curveOrder)) (ciphertext : ElGamalCiphertext),
      verifyZeroBalance (ZMod curveOrder) Sample.twoHash (publicKey (ZMod curveOrder) 1)
        (run.proof ciphertext) = true := by
  obtain ⟨hequality, hvalidity, hzero⟩ :=
    sigmaProtocols_complete (ZMod curveOrder) Sample.twoHash
  refine ⟨?_, ?_, ?_⟩
  · obtain ⟨run, hrun, hc, h1, h2, h3⟩ : ∃ run ∈ (runEquality Sample.twoHash
        Sample.equalityParams Sample.oneDraw Sample.oneDraw Sample.oneDraw :
          Except SdkError (EqualityRun (ZMod curveOrder))).toOption,
        run.challenge ≠ 0 ∧ run.z1 ≠ 0 ∧ run.z2 ≠ 0 ∧ run.z3 ≠ 0 := by decide +kernel
    obtain ⟨sourceCt, destCt, -, -, -, h⟩ :=
      hequality _ _ _ _ run (toOption_eq_some.1 hrun) hc h1 h2 h3
    exact ⟨run, sourceCt, destCt, h⟩
  · obtain ⟨run, hrun, hc, hz⟩ : ∃ run ∈ (runPubkeyValidity Sample.twoHash (scalarToLE32 1)
        Sample.oneDraw : Except SdkError (PubkeyValidityRun (ZMod curveOrder))).toOption,
        run.challenge ≠ 0 ∧ run.z ≠ 0 := by decide +kernel
    exact ⟨run, (hvalidity _ _ run (toOption_eq_some.1 hrun) hc hz).2⟩
  · have hpk : pointFromBytes (publicKey (ZMod curveOrder) 1) = .ok (1 • base : ZMod curveOrder) :=
      pointFromBytes_encode _
    obtain ⟨run, hrun, hc, hz⟩ : ∃ run ∈ (runZeroBalance Sample.twoHash
        (publicKey (ZMod curveOrder) 1) (encodeCiphertext
          ⟨((3 : ℤ) : ZMod curveOrder) • (base : ZMod curveOrder),
            ((3 : ℤ) : ZMod curveOrder) • (1 • base : ZMod curveOrder)⟩) 3 Sample.oneDraw :
            Except SdkError (ZeroBalanceRun (ZMod curveOrder))).toOption,
          run.challenge ≠ 0 ∧ run.z ≠ 0 := by
      decide +kernel
    exact ⟨run, _, (hzero _ _ 3 Sample.oneDraw run hpk (toOption_eq_some.1 hrun) hc hz).2⟩

end Ghos.Sdk
