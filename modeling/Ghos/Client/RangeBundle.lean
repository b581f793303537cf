import Ghos.Client.RangeCheck
import Ghos.Client.Transcript

/-!
# Range proofs that are checked, bundled and bound to a key

The rest of `sdk/src/crypto/bulletproof.ts`: `verify` looks at the layout of a proof, `proofSize`
computes its length, `aggregate` puts proofs behind a linkage scalar and `proveBoundToKey` proves
for a key.

* `rangeProofs_verify_iff`: a proof is checked, and has the computed size, if its bit length is a
  power of two; a bundle of proofs never is;
* `aggregate_additive`: what a bundle commits to, that it can be read back, and which transcript its
  linkage scalar is the challenge of;
* `not_keyBound`: the proofs for two keys are the same.
-/

namespace Ghos.Sdk

open Ristretto255

/-- `Math.log2(n)` where this is an integer, for bit lengths. -/
def log2Integer (n : ℤ) : Option ℕ :=
  if n = 2 ^ Nat.log2 n.toNat then some (Nat.log2 n.toNat) else none

theorem toNat_two_pow (k : ℕ) : ((2 : ℤ) ^ k).toNat = 2 ^ k := by
  rw [← Int.toNat_natCast (2 ^ k), Nat.cast_pow, Nat.cast_ofNat]

theorem log2Integer_eq_some {n : ℤ} {k : ℕ} : log2Integer n = some k ↔ n = 2 ^ k := by
  rw [log2Integer]
  constructor
  · intro h
    split_ifs at h with hn
    rwa [← Option.some.inj h]
  · rintro rfl
    rw [toNat_two_pow, Nat.log2_two_pow, if_pos rfl]

theorem log2Integer_eq_none {n : ℤ} : log2Integer n = none ↔ ∀ k : ℕ, n ≠ 2 ^ k := by
  rw [Option.eq_none_iff_forall_ne_some]
  simp only [ne_eq, log2Integer_eq_some]

/-- Compute the expected proof size in bytes for a given bit length. -/
def proofSize (bitLength : ℤ) : Except SdkError ℕ :=
  match log2Integer bitLength with
  | none => .error (.ghosSdkError invalidInput
      s!"bitLength must be a power of two, got {bitLength}")
  | some logN => .ok (32 * 4 + 32 * 3 + logN * 32 * 2 + 32 * 2)

section Checks

variable (Point : Type) [Ristretto255 Point]

/-- Check that the bytes parse into the expected layout and that the points among them are valid. -/
def verify (proof : RangeProof) : Bool :=
  let nBits := proof.bitLength
  if nBits ≤ 0 ∨ 128 < nBits then false
  else
    match log2Integer nBits with
    | none => false
    | some logN =>
      let expectedSize := 32 * 4 + 32 * 3 + logN * 32 * 2 + 32 * 2
      if proof.proofBytes.length ≠ expectedSize then false
      else orFalse do
        let _ : Point ← pointFromBytes proof.commitment
        let _ : Point ← pointFromBytes (slice proof.proofBytes 0 32)
        let _ : Point ← pointFromBytes (slice proof.proofBytes 32 64)
        let _ : Point ← pointFromBytes (slice proof.proofBytes 64 96)
        let _ : Point ← pointFromBytes (slice proof.proofBytes 96 128)
        return true

variable (sha512 : List UInt8 → Vector UInt8 64)

/-- The Fiat-Shamir linkage scalar of commitments and proofs. -/
def linkScalar (commitments proofs : List (List UInt8)) : ℕ :=
  let transcript := commitments.foldl (fun t c => t.append sha512 "aggC" c) Transcript.initial
  let transcript := proofs.foldl (fun t p => t.append sha512 "aggP" p) transcript
  (transcript.challengeScalar sha512 "link").1

/-- Aggregate range proofs into a single proof bundle. -/
def aggregate (proofs : List RangeProof) : Except SdkError RangeProof :=
  match proofs with
  | [] => .error (.ghosSdkError invalidInput "cannot aggregate empty proof list")
  | first :: _ => do
    throwUnless (∀ p ∈ proofs, p.bitLength = first.bitLength)
      (.ghosSdkError invalidInput "all proofs must have the same bit length to aggregate")
    let combinedCommitments := proofs.map (·.commitment)
    let combinedProofs := proofs.map (·.proofBytes)
    let linkBytes := scalarToLE32 (linkScalar sha512 combinedCommitments combinedProofs)
    let aggBytes := linkBytes ++ combinedCommitments.flatten ++ combinedProofs.flatten
    let points : List Point ← combinedCommitments.mapM pointFromBytes
    let aggCommitment := points.foldl (· + ·) 0
    return ⟨aggBytes, (encode aggCommitment).toList, first.bitLength⟩

/-- Generate a range proof bound to a specific ElGamal public key.  The transcript that absorbs the
key is dropped. -/
def proveBoundToKey (pubkey : List UInt8) (value bitLength : ℤ) (draws : RangeDraws) :
    Except SdkError (RangeProof × ℤ) :=
  let _transcript := Transcript.initial.append sha512 "pubkey" pubkey
  prove Point sha512 value bitLength none draws

/-- A proof that `prove` has made, with what it was made from. -/
structure Proven (bitLength : ℤ) where
  proof : RangeProof
  value : ℤ
  r : ℤ
  blinding : Option ℤ
  draws : RangeDraws
  prove_eq : prove Point sha512 value bitLength blinding draws = .ok (proof, r)

end Checks

variable {Point : Type} [Ristretto255 Point] {sha512 : List UInt8 → Vector UInt8 64}

/-! ### The layout of a proof -/

theorem length_bitsLE (value : ℤ) (nBits : ℕ) : (bitsLE value nBits).length = nBits := by
  induction nBits generalizing value with
  | zero => rfl
  | succ nBits ih => rw [bitsLE, List.length_cons, ih]

theorem RangeRun.length_parts (run : RangeRun Point) :
    run.parts.length = 9 + run.inner.lVec.length + run.inner.rVec.length := by
  simp only [parts, List.length_append, List.length_map, List.length_cons, List.length_nil]
  omega

/-- The rounds of the argument are as many as the logarithm says. -/
theorem length_inner_of_runRange {value r : ℤ} {n : ℕ} {draws : RangeDraws} {run : RangeRun Point}
    (h : runRange sha512 value n r draws = .ok run) :
    run.bitLength = n ∧ run.inner.lVec.length = Nat.log2 n ∧
      run.inner.rVec.length = Nat.log2 n := by
  simp only [runRange, except_bind_eq_ok, pedersenCommit_eq, multBaseG_eq, twistedH_eq,
    multiply_eq_ok_iff, Except.ok.injEq, exists_eq_left', except_pure_eq_ok, innerProductProve_eq]
    at h
  obtain ⟨vectors, -, _, ⟨-, rfl⟩, _, ⟨-, rfl⟩, sPoint, -, _, ⟨-, rfl⟩, _, ⟨-, rfl⟩, inner, hinner,
    rfl⟩ := h
  have hlength := InnerState.length_of_loop (reduced_mixedState _ _ _ _ _ _ _) _ _ hinner
  simp only [mixedState, List.length_zipWith, List.length_map, length_bitsLE, List.length_range,
    min_self, List.length_nil, zero_add] at hlength
  exact ⟨rfl, hlength⟩

theorem RangeRun.length_proofBytes (run : RangeRun Point) :
    run.proof.proofBytes.length = 32 * (9 + run.inner.lVec.length + run.inner.rVec.length) := by
  rw [RangeRun.proof, length_flatten run.length_of_mem_parts, run.length_parts]

namespace Proven

variable {bitLength : ℤ} (entry : Proven Point sha512 bitLength)

include entry in
theorem bitLength_pos : 0 < bitLength ∧ bitLength ≤ 128 := (prove_accepts entry.prove_eq).length

theorem bitLength_proof : entry.proof.bitLength = bitLength.toNat := by
  obtain ⟨run, hrun, hproof⟩ := prove_eq_ok entry.prove_eq
  rw [← hproof]
  exact (length_inner_of_runRange hrun).1

theorem cast_bitLength_proof : (entry.proof.bitLength : ℤ) = bitLength := by
  rw [bitLength_proof, Int.toNat_of_nonneg entry.bitLength_pos.1.le]

/-- The length of the bytes, whatever the bit length. -/
theorem length_proofBytes :
    entry.proof.proofBytes.length = 32 * (9 + 2 * Nat.log2 bitLength.toNat) := by
  obtain ⟨run, hrun, hproof⟩ := prove_eq_ok entry.prove_eq
  obtain ⟨-, hl, hr⟩ := length_inner_of_runRange hrun
  rw [← hproof, run.length_proofBytes, hl, hr, two_mul, add_assoc]

/-- The point that the proof commits to. -/
theorem commitment_proof : entry.proof.commitment = (encode ((entry.value : ZMod curveOrder) •
    twistedScalar sha512 • (base : Point) + (entry.r : ZMod curveOrder) • base)).toList := by
  obtain ⟨run, hrun, hproof⟩ := prove_eq_ok entry.prove_eq
  rw [← hproof]
  exact (runRange_responds hrun).commitment

end Proven

/-! ### Checking a proof -/

/-- The points at the beginning of a proof can be read. -/
theorem Proven.pointFromBytes_slice {bitLength : ℤ} (entry : Proven Point sha512 bitLength) {i : ℕ}
    (hi : i < 4) : ∃ p : Point,
      pointFromBytes (slice entry.proof.proofBytes (32 * i) (32 * i + 32)) = .ok p := by
  obtain ⟨run, -, hproof⟩ := prove_eq_ok entry.prove_eq
  have hpoint : ∃ p : Point, run.parts[i]? = some (encode p).toList := by
    interval_cases i
    · exact ⟨run.aPoint, rfl⟩
    · exact ⟨run.sPoint, rfl⟩
    · exact ⟨run.t1Point, rfl⟩
    · exact ⟨run.t2Point, rfl⟩
  obtain ⟨p, hp⟩ := hpoint
  refine ⟨p, ?_⟩
  rw [← hproof, run.slice_proofBytes hp, pointFromBytes_encode]

theorem Proven.proofSize_eq_ok_iff {bitLength : ℤ} (entry : Proven Point sha512 bitLength) :
    proofSize bitLength = .ok entry.proof.proofBytes.length ↔ ∃ k : ℕ, bitLength = 2 ^ k := by
  rw [proofSize, entry.length_proofBytes]
  cases hlog : log2Integer bitLength with
  | none => exact iff_of_false (by rintro ⟨⟩) fun ⟨k, hk⟩ => log2Integer_eq_none.1 hlog k hk
  | some k =>
    have hk := log2Integer_eq_some.1 hlog
    rw [hk, toNat_two_pow, Nat.log2_two_pow]
    exact iff_of_true (congrArg Except.ok (by ring)) ⟨k, rfl⟩

/-- What `verify` asks of a proof. -/
theorem verify_iff {proof : RangeProof} : verify Point proof = true ↔
    (0 < proof.bitLength ∧ proof.bitLength ≤ 128) ∧
      ∃ logN, log2Integer proof.bitLength = some logN ∧
        proof.proofBytes.length = 32 * 4 + 32 * 3 + logN * 32 * 2 + 32 * 2 ∧
        (∃ p : Point, pointFromBytes proof.commitment = .ok p) ∧
        ∀ i < 4, ∃ p : Point,
          pointFromBytes (slice proof.proofBytes (32 * i) (32 * i + 32)) = .ok p := by
  have hpoints : (∀ i < 4, ∃ p : Point,
      pointFromBytes (slice proof.proofBytes (32 * i) (32 * i + 32)) = .ok p) ↔
      ((((∃ p : Point, pointFromBytes (slice proof.proofBytes 0 32) = .ok p) ∧
        ∃ p : Point, pointFromBytes (slice proof.proofBytes 32 64) = .ok p) ∧
        ∃ p : Point, pointFromBytes (slice proof.proofBytes 64 96) = .ok p) ∧
        ∃ p : Point, pointFromBytes (slice proof.proofBytes 96 128) = .ok p) := by
    simp only [Nat.forall_lt_succ_right, Nat.not_lt_zero, false_imp_iff, implies_true, true_and]
  rw [verify, hpoints]
  split_ifs with hrange
  · exact iff_of_false not_false fun h => by omega
  · rw [and_iff_right (by omega)]
    cases log2Integer proof.bitLength with
    | none => simp
    | some logN =>
      simp only [Option.some.injEq, exists_eq_left']
      split_ifs with hsize
      · exact iff_of_false not_false fun h => hsize h.1
      · rw [orFalse_eq_true_iff, and_iff_right (not_not.1 hsize)]
        simp only [except_bind_eq_ok, except_pure_eq_ok, and_true, exists_and_right,
          and_assoc]

theorem Proven.verify_proof_iff {bitLength : ℤ} (entry : Proven Point sha512 bitLength) :
    verify Point entry.proof = true ↔ ∃ k : ℕ, bitLength = 2 ^ k := by
  have hlength := entry.cast_bitLength_proof
  have hrange := entry.bitLength_pos
  rw [verify_iff, hlength, and_iff_right (by omega)]
  constructor
  · rintro ⟨k, hk, -⟩
    exact ⟨k, log2Integer_eq_some.1 hk⟩
  · rintro ⟨k, hk⟩
    refine ⟨k, log2Integer_eq_some.2 hk, ?_, ⟨_, entry.commitment_proof ▸ pointFromBytes_encode _⟩,
      fun i => entry.pointFromBytes_slice⟩
    rw [entry.length_proofBytes, hk, toNat_two_pow, Nat.log2_two_pow]
    ring

/-! ### Bundles -/

/-- The operations of the transcript of `aggregate`. -/
def linkOps (proofs : List RangeProof) : List TranscriptOp :=
  proofs.map (fun p => .append "aggC" p.commitment) ++
    (proofs.map (fun p => .append "aggP" p.proofBytes) ++ [.challengeScalar "link"])

/-- The linkage scalar is the challenge of the transcript that has absorbed the commitments and then
the proofs. -/
theorem linkScalar_eq (proofs : List RangeProof) :
    linkScalar sha512 (proofs.map (·.commitment)) (proofs.map (·.proofBytes)) =
      scalarFromUniform64 (runOps sha512 .initial (linkOps proofs)).acc := by
  rw [linkScalar, runOps, linkOps, List.foldl_append, List.foldl_append, List.foldl_map,
    List.foldl_map, List.foldl_map, List.foldl_map]
  rfl

theorem linkOps_labels (proofs : List RangeProof) :
    ∀ op ∈ linkOps proofs, op.label ∈ moduleLabels := by
  intro op hop
  rcases List.mem_append.1 hop with hop | hop
  · obtain ⟨p, -, rfl⟩ := List.mem_map.1 hop
    show "aggC" ∈ moduleLabels
    decide
  · rcases List.mem_append.1 hop with hop | hop
    · obtain ⟨p, -, rfl⟩ := List.mem_map.1 hop
      show "aggP" ∈ moduleLabels
      decide
    · obtain rfl := List.mem_singleton.1 hop
      decide

/-- The operations tell the commitments and the proofs. -/
theorem linkOps_inj {proofs proofs' : List RangeProof} (h : linkOps proofs = linkOps proofs') :
    proofs.map (·.commitment) = proofs'.map (·.commitment) ∧
      proofs.map (·.proofBytes) = proofs'.map (·.proofBytes) := by
  have hlength := congrArg List.length h
  simp only [linkOps, List.length_append, List.length_map, List.length_singleton] at hlength
  obtain ⟨hcommitments, hrest⟩ := List.append_inj h (by
    rw [List.length_map, List.length_map]
    omega)
  obtain ⟨hproofs, -⟩ := List.append_inj' hrest rfl
  have hcommitment : Function.Injective (TranscriptOp.append "aggC") := fun _ _ h => by cases h; rfl
  have hproof : Function.Injective (TranscriptOp.append "aggP") := fun _ _ h => by cases h; rfl
  constructor
  · refine List.map_injective_iff.2 hcommitment ?_
    rwa [List.map_map, List.map_map]
  · refine List.map_injective_iff.2 hproof ?_
    rwa [List.map_map, List.map_map]

/-- The first string that `aggregate` hashes is shorter than a digest. -/
theorem not_resumedBy_linkOps {proofs : List RangeProof} {later : List TranscriptOp}
    (h : ∀ p ∈ proofs, p.commitment.length = 32) :
    ¬ ResumedBy sha512 .initial (linkOps proofs) later := by
  have hdomain : Transcript.initial.acc.length = 19 := by decide +kernel
  cases proofs with
  | nil =>
    have hlink : (TranscriptOp.challengeScalar "link").block.length = 4 := by decide +kernel
    exact not_resumedBy (by omega)
  | cons p proofs =>
    have hlabel : (textBytes "aggC").length = 4 := by decide +kernel
    have hblock : (TranscriptOp.append "aggC" p.commitment).block.length = 40 := by
      rw [TranscriptOp.block, List.length_append, List.length_append, length_leBytes, hlabel,
        h p List.mem_cons_self]
    refine not_resumedBy ?_
    show Transcript.initial.acc.length + (TranscriptOp.append "aggC" p.commitment).block.length < 64
    omega

/-- What `aggregate` returns for proofs of one bit length whose commitments can be read. -/
theorem aggregate_eq_ok {proofs : List RangeProof} {n : ℕ} {points : List Point}
    (hne : proofs ≠ []) (hlength : ∀ p ∈ proofs, p.bitLength = n)
    (hpoints : (proofs.map (·.commitment)).mapM pointFromBytes = .ok points) :
    aggregate Point sha512 proofs = .ok ⟨
      scalarToLE32 (linkScalar sha512 (proofs.map (·.commitment)) (proofs.map (·.proofBytes))) ++
        (proofs.map (·.commitment)).flatten ++ (proofs.map (·.proofBytes)).flatten,
      (encode points.sum).toList, n⟩ := by
  obtain ⟨first, rest, rfl⟩ := List.exists_cons_of_ne_nil hne
  have hfirst : first.bitLength = n := hlength first List.mem_cons_self
  have hsame : ∀ p ∈ first :: rest, p.bitLength = first.bitLength := fun p hp =>
    (hlength p hp).trans hfirst.symm
  rw [aggregate, throwUnless_bind, if_pos hsame]
  simp only [hpoints, hfirst, List.sum_eq_foldl]
  rfl

/-- Two bit lengths in a list. -/
theorem aggregate_eq_error {proofs : List RangeProof} {p q : RangeProof} (hp : p ∈ proofs)
    (hq : q ∈ proofs) (hpq : p.bitLength ≠ q.bitLength) : aggregate Point sha512 proofs =
      .error (.ghosSdkError invalidInput
        "all proofs must have the same bit length to aggregate") := by
  obtain ⟨first, rest, rfl⟩ := List.exists_cons_of_ne_nil (List.ne_nil_of_mem hp)
  have hsame : ¬ ∀ p ∈ first :: rest, p.bitLength = first.bitLength := fun h =>
    hpq ((h p hp).trans (h q hq).symm)
  rw [aggregate, throwUnless_bind, if_neg hsame]

/-- Proofs of one bit length that have the same commitments and bytes. -/
theorem rangeProofs_ext {n : ℕ} {proofs proofs' : List RangeProof}
    (hlength : ∀ p ∈ proofs, p.bitLength = n) (hlength' : ∀ p ∈ proofs', p.bitLength = n)
    (hcommitments : proofs.map (·.commitment) = proofs'.map (·.commitment))
    (hproofs : proofs.map (·.proofBytes) = proofs'.map (·.proofBytes)) : proofs = proofs' := by
  induction proofs generalizing proofs' with
  | nil => exact (List.map_eq_nil_iff.1 hproofs.symm).symm
  | cons p proofs ih =>
    cases proofs' with
    | nil => cases hproofs
    | cons q proofs' =>
      obtain ⟨hp, hrest⟩ := List.forall_mem_cons.1 hlength
      obtain ⟨hq, hrest'⟩ := List.forall_mem_cons.1 hlength'
      obtain ⟨hcommitment, hcommitments'⟩ := List.cons.inj hcommitments
      obtain ⟨hproof, hproofs'⟩ := List.cons.inj hproofs
      obtain ⟨pBytes, pCommitment, pLength⟩ := p
      obtain ⟨qBytes, qCommitment, qLength⟩ := q
      cases hcommitment
      cases hproof
      cases hp.trans hq.symm
      rw [ih hrest hrest' hcommitments' hproofs']

/-- The parts of a bundle of proofs of `m` bytes each. -/
structure Bundle (m : ℕ) where
  link : List UInt8
  commitments : List (List UInt8)
  proofs : List (List UInt8)
  length_link : link.length = 32
  length_commitments : ∀ c ∈ commitments, c.length = 32
  length_proofs : ∀ p ∈ proofs, p.length = m
  count : proofs.length = commitments.length

namespace Bundle

variable {m : ℕ}

def bytes (bundle : Bundle m) : List UInt8 :=
  bundle.link ++ bundle.commitments.flatten ++ bundle.proofs.flatten

/-- The length of a bundle tells how many proofs are in it. -/
theorem length_bytes (bundle : Bundle m) :
    bundle.bytes.length = 32 + (32 + m) * bundle.commitments.length := by
  rw [bytes, List.length_append, List.length_append, bundle.length_link,
    length_flatten bundle.length_commitments, length_flatten bundle.length_proofs, bundle.count]
  ring

/-- A bundle can be taken apart. -/
theorem eq_of_bytes_eq (hm : 0 < m) {bundle bundle' : Bundle m}
    (h : bundle.bytes = bundle'.bytes) :
    bundle.commitments = bundle'.commitments ∧ bundle.proofs = bundle'.proofs := by
  have hlength := bundle.length_bytes
  rw [h, bundle'.length_bytes, Nat.add_left_cancel_iff] at hlength
  have hcount : bundle'.commitments.length = bundle.commitments.length :=
    Nat.eq_of_mul_eq_mul_left (by omega) hlength
  have hflatten : bundle.commitments.flatten.length = bundle'.commitments.flatten.length := by
    rw [length_flatten bundle.length_commitments, length_flatten bundle'.length_commitments, hcount]
  rw [bytes, bytes, List.append_assoc, List.append_assoc] at h
  obtain ⟨-, hparts⟩ := List.append_inj h (bundle.length_link.trans bundle'.length_link.symm)
  obtain ⟨hcommitments, hproofs⟩ := List.append_inj hparts hflatten
  exact ⟨flatten_inj (by decide) bundle.length_commitments bundle'.length_commitments hcommitments,
    flatten_inj hm bundle.length_proofs bundle'.length_proofs hproofs⟩

end Bundle

namespace Proven

variable {bitLength : ℤ}

/-- The point under the commitment. -/
def point (entry : Proven Point sha512 bitLength) : Point :=
  (entry.value : ZMod curveOrder) • twistedScalar sha512 • (base : Point) +
    (entry.r : ZMod curveOrder) • base

/-- The sum of the points is the commitment to the sums. -/
theorem sum_point (entries : List (Proven Point sha512 bitLength)) :
    (entries.map point).sum =
      (((entries.map value).sum : ℤ) : ZMod curveOrder) • twistedScalar sha512 • (base : Point) +
        (((entries.map r).sum : ℤ) : ZMod curveOrder) • base := by
  induction entries with
  | nil => simp
  | cons entry entries ih =>
    simp only [List.map_cons, List.sum_cons, ih, point]
    push_cast
    module

theorem mapM_pointFromBytes (entries : List (Proven Point sha512 bitLength)) :
    ((entries.map proof).map (·.commitment)).mapM pointFromBytes = .ok (entries.map point) := by
  rw [List.map_map, List.mapM_map]
  refine mapM_eq_ok fun entry _ => ?_
  rw [Function.comp_apply, Function.comp_apply, entry.commitment_proof, pointFromBytes_encode]
  rfl

/-- The parts of the bundle of some proofs. -/
def bundle (entries : List (Proven Point sha512 bitLength)) :
    Bundle (32 * (9 + 2 * Nat.log2 bitLength.toNat)) where
  link := scalarToLE32 (linkScalar sha512 ((entries.map proof).map (·.commitment))
    ((entries.map proof).map (·.proofBytes)))
  commitments := (entries.map proof).map (·.commitment)
  proofs := (entries.map proof).map (·.proofBytes)
  length_link := length_scalarToLE32 _
  length_commitments := by
    simp only [List.forall_mem_map, commitment_proof, encode_length, implies_true]
  length_proofs := by
    simp only [List.forall_mem_map, length_proofBytes, implies_true]
  count := by rw [List.length_map, List.length_map (f := RangeProof.commitment)]

theorem aggregate_eq {entries : List (Proven Point sha512 bitLength)} (hne : entries ≠ []) :
    aggregate Point sha512 (entries.map proof) =
      .ok ⟨(bundle entries).bytes, (encode (entries.map point).sum).toList, bitLength.toNat⟩ := by
  refine aggregate_eq_ok (by simpa using hne) ?_ (mapM_pointFromBytes entries)
  simp only [List.forall_mem_map, bitLength_proof, implies_true]

end Proven

/-- Without a collision, the digest under the linkage scalar tells the proofs. -/
theorem acc_linkOps_eq_iff {bitLength : ℤ} {entries entries' : List (Proven Point sha512 bitLength)}
    (hinj : CollisionFree sha512 .initial (linkOps (entries.map Proven.proof))
      (linkOps (entries'.map Proven.proof))) :
    (runOps sha512 .initial (linkOps (entries.map Proven.proof))).acc =
        (runOps sha512 .initial (linkOps (entries'.map Proven.proof))).acc ↔
      entries.map Proven.proof = entries'.map Proven.proof := by
  have hcommitment : ∀ entries : List (Proven Point sha512 bitLength),
      ∀ p ∈ entries.map Proven.proof, p.commitment.length = 32 := fun entries => by
    simp only [List.forall_mem_map, Proven.commitment_proof, encode_length, implies_true]
  have hlength : ∀ entries : List (Proven Point sha512 bitLength),
      ∀ p ∈ entries.map Proven.proof, p.bitLength = bitLength.toNat := fun entries => by
    simp only [List.forall_mem_map, Proven.bitLength_proof, implies_true]
  rw [acc_runOps_eq_iff_of_labels hinj (linkOps_labels _) (linkOps_labels _)]
  constructor
  · rintro (hops | hresumed | hresumed)
    · obtain ⟨hcommitments, hproofs⟩ := linkOps_inj hops
      exact rangeProofs_ext (hlength entries) (hlength entries') hcommitments hproofs
    · exact absurd hresumed (not_resumedBy_linkOps (hcommitment entries))
    · exact absurd hresumed (not_resumedBy_linkOps (hcommitment entries'))
  · intro h
    exact .inl (congrArg linkOps h)

variable (Point) (sha512) in
/-- A bundle of proofs for one bit length commits to the sums of the values and of the blindings,
and the proofs can be read back from its bytes.  Its linkage scalar is the challenge of a transcript
that has absorbed the commitments and the proofs and nothing else, and without a collision nothing
else leads to this transcript.  Proofs for different bit lengths are refused. -/
theorem aggregate_additive (bitLength : ℤ) :
    (∀ entries : List (Proven Point sha512 bitLength), entries ≠ [] → ∃ aggregated,
      aggregate Point sha512 (entries.map Proven.proof) = .ok aggregated ∧
        pedersenCommit Point sha512 (entries.map Proven.value).sum (entries.map Proven.r).sum =
          .ok aggregated.commitment ∧
        ∃ linkBytes : List UInt8, linkBytes.length = 32 ∧
          linkBytes = scalarToLE32 (scalarFromUniform64
            (runOps sha512 .initial (linkOps (entries.map Proven.proof))).acc) ∧
          aggregated.proofBytes = linkBytes ++ (entries.map (·.proof.commitment)).flatten ++
            (entries.map (·.proof.proofBytes)).flatten ∧
          aggregated.proofBytes.length =
            32 + (32 + 32 * (9 + 2 * Nat.log2 bitLength.toNat)) * entries.length) ∧
    (∀ (entries entries' : List (Proven Point sha512 bitLength)) aggregated aggregated',
      aggregate Point sha512 (entries.map Proven.proof) = .ok aggregated →
      aggregate Point sha512 (entries'.map Proven.proof) = .ok aggregated' →
      aggregated.proofBytes = aggregated'.proofBytes →
        entries.map Proven.proof = entries'.map Proven.proof) ∧
    (∀ entries entries' : List (Proven Point sha512 bitLength),
      CollisionFree sha512 .initial (linkOps (entries.map Proven.proof))
        (linkOps (entries'.map Proven.proof)) →
      ((runOps sha512 .initial (linkOps (entries.map Proven.proof))).acc =
          (runOps sha512 .initial (linkOps (entries'.map Proven.proof))).acc ↔
        entries.map Proven.proof = entries'.map Proven.proof)) ∧
    ∀ (proofs : List RangeProof), (∃ p ∈ proofs, ∃ q ∈ proofs, p.bitLength ≠ q.bitLength) →
      aggregate Point sha512 proofs = .error (.ghosSdkError invalidInput
        "all proofs must have the same bit length to aggregate") := by
  refine ⟨fun entries hne => ?_, fun entries entries' aggregated aggregated' h h' hbytes => ?_,
    fun _ _ => acc_linkOps_eq_iff, ?_⟩
  · have hlength := (Proven.bundle entries).length_bytes
    refine ⟨_, Proven.aggregate_eq hne, ?_, _, length_scalarToLE32 _, rfl, ?_, ?_⟩
    · rw [pedersenCommit_eq, ← Proven.sum_point]
    · rw [← linkScalar_eq]
      simp only [Bundle.bytes, Proven.bundle, List.map_map]
      rfl
    · rw [hlength, Proven.bundle, List.length_map, List.length_map]
  · have hne : ∀ {entries : List (Proven Point sha512 bitLength)} {aggregated},
        aggregate Point sha512 (entries.map Proven.proof) = .ok aggregated → entries ≠ [] := by
      rintro _ _ h rfl
      cases h
    rw [Proven.aggregate_eq (hne h)] at h
    rw [Proven.aggregate_eq (hne h')] at h'
    cases h
    cases h'
    obtain ⟨hcommitments, hproofs⟩ := Bundle.eq_of_bytes_eq (by omega) hbytes
    refine rangeProofs_ext (n := bitLength.toNat) ?_ ?_ hcommitments hproofs
    · simp only [List.forall_mem_map, Proven.bitLength_proof, implies_true]
    · simp only [List.forall_mem_map, Proven.bitLength_proof, implies_true]
  · rintro proofs ⟨p, hp, q, hq, hpq⟩
    exact aggregate_eq_error hp hq hpq

/-! ### Checking a bundle -/

/-- What `aggregate` returns is as long as a proof of its bit length and a bundle around it. -/
theorem aggregate_of_eq_ok {proofs : List RangeProof} {aggregated : RangeProof}
    (h : aggregate Point sha512 proofs = .ok aggregated) : ∃ first ∈ proofs,
      aggregated.bitLength = first.bitLength ∧
        first.proofBytes.length < aggregated.proofBytes.length := by
  cases proofs with
  | nil => cases h
  | cons first rest =>
    rw [aggregate, throwUnless_bind_eq_ok] at h
    simp only [except_bind_eq_ok, except_pure_eq_ok] at h
    obtain ⟨-, points, -, rfl⟩ := h
    refine ⟨first, List.mem_cons_self, rfl, ?_⟩
    simp only [List.map_cons, List.flatten_cons, List.length_append, length_scalarToLE32]
    omega

/-- A bundle is longer than a proof of its bit length. -/
theorem verify_aggregate {proofs : List RangeProof}
    (hproofs : ∀ p ∈ proofs, ∃ bitLength, ∃ entry : Proven Point sha512 bitLength, entry.proof = p)
    {aggregated : RangeProof} (h : aggregate Point sha512 proofs = .ok aggregated) :
    verify Point aggregated = false := by
  obtain ⟨first, hfirst, hlength, hlt⟩ := aggregate_of_eq_ok h
  obtain ⟨bitLength, entry, rfl⟩ := hproofs first hfirst
  rw [Bool.eq_false_iff, ne_eq, verify_iff, hlength, entry.cast_bitLength_proof]
  rintro ⟨-, logN, hlog, hsize, -⟩
  have hsingle := entry.proofSize_eq_ok_iff.2 ⟨logN, log2Integer_eq_some.1 hlog⟩
  rw [proofSize, hlog] at hsingle
  have hexpected := Except.ok.inj hsingle
  omega

variable (Point) (sha512) in
/-- A proof passes `verify`, and has the length that `proofSize` computes, exactly if its bit length
is a power of two.  A bundle of proofs never passes. -/
theorem rangeProofs_verify_iff :
    (∀ bitLength (entry : Proven Point sha512 bitLength),
      (verify Point entry.proof = true ∧
        proofSize bitLength = .ok entry.proof.proofBytes.length) ↔ ∃ k : ℕ, bitLength = 2 ^ k) ∧
    ∀ (proofs : List RangeProof) aggregated,
      (∀ p ∈ proofs, ∃ bitLength, ∃ entry : Proven Point sha512 bitLength, entry.proof = p) →
      aggregate Point sha512 proofs = .ok aggregated → verify Point aggregated = false := by
  constructor
  · intro bitLength entry
    rw [entry.verify_proof_iff, entry.proofSize_eq_ok_iff, and_self]
  · intro proofs aggregated hproofs h
    exact verify_aggregate hproofs h

/-- The samples give a proof for every bit length. -/
theorem exists_proven {bitLength : ℤ} (h : 0 < bitLength ∧ bitLength ≤ 128) :
    ∃ entry : Proven (ZMod curveOrder) Sample.twoHash bitLength, entry.value = 1 := by
  obtain ⟨proof, r, hprove⟩ := exists_prove_matchedDraws h (some 1)
  exact ⟨⟨proof, 1, r, some 1, Sample.matchedDraws, hprove⟩, rfl⟩

theorem rangeProofs_verify_iff_sample :
    ∃ entry : Proven (ZMod curveOrder) Sample.twoHash 64,
      verify (ZMod curveOrder) entry.proof = true := by
  obtain ⟨entry, -⟩ := exists_proven (show (0 : ℤ) < 64 ∧ (64 : ℤ) ≤ 128 by decide)
  exact ⟨entry, (((rangeProofs_verify_iff (ZMod curveOrder) Sample.twoHash).1 64 entry).2
    ⟨6, by decide⟩).1⟩

/-- A proof with three bits is not checked, and neither is a bundle of one proof. -/
theorem not_verify_three_bits :
    (∃ entry : Proven (ZMod curveOrder) Sample.twoHash 3,
      verify (ZMod curveOrder) entry.proof = false ∧ proofSize 3 =
        .error (.ghosSdkError invalidInput "bitLength must be a power of two, got 3")) ∧
    ∃ (entry : Proven (ZMod curveOrder) Sample.twoHash 1) (aggregated : RangeProof),
      aggregate (ZMod curveOrder) Sample.twoHash [entry.proof] = .ok aggregated ∧
        verify (ZMod curveOrder) aggregated = false := by
  have hpower : ¬ ∃ k : ℕ, (3 : ℤ) = 2 ^ k := by
    rintro ⟨k, hk⟩
    exact log2Integer_eq_none.1 (show log2Integer 3 = none by decide) k hk
  constructor
  · obtain ⟨entry, -⟩ := exists_proven (show (0 : ℤ) < 3 ∧ (3 : ℤ) ≤ 128 by decide)
    refine ⟨entry, ?_, by decide⟩
    rw [Bool.eq_false_iff, ne_eq, entry.verify_proof_iff]
    exact hpower
  · obtain ⟨entry, -⟩ := exists_proven (show (0 : ℤ) < 1 ∧ (1 : ℤ) ≤ 128 by decide)
    have haggregate := Proven.aggregate_eq (List.cons_ne_nil entry [])
    refine ⟨entry, _, haggregate, verify_aggregate ?_ haggregate⟩
    simp only [List.forall_mem_map]
    exact fun e _ => ⟨1, e, rfl⟩

/-! ### Binding to a key -/

variable (Point) (sha512) in
/-- The proofs for two keys are made with different challenges, and they differ. -/
def KeyBound (p q : List UInt8) (value bitLength : ℤ) (draws : RangeDraws) : Prop :=
  ∃ proof r proof' r', proveBoundToKey Point sha512 p value bitLength draws = .ok (proof, r) ∧
    proveBoundToKey Point sha512 q value bitLength draws = .ok (proof', r') ∧
      proof.challenges sha512 ≠ proof'.challenges sha512 ∧ proof ≠ proof'

variable (Point) (sha512) in
/-- The key makes no difference. -/
theorem not_keyBound (p q : List UInt8) (value bitLength : ℤ) (draws : RangeDraws) :
    proveBoundToKey Point sha512 p value bitLength draws =
        proveBoundToKey Point sha512 q value bitLength draws ∧
      ¬ KeyBound Point sha512 p q value bitLength draws := by
  have hsame : proveBoundToKey Point sha512 p value bitLength draws =
      proveBoundToKey Point sha512 q value bitLength draws := rfl
  refine ⟨hsame, ?_⟩
  rintro ⟨proof, r, proof', r', hp, hq, -, hne⟩
  rw [hsame, hq] at hp
  cases hp
  exact hne rfl

/-- One proof for two keys. -/
theorem proveBoundToKey_two_keys : ∃ proof r,
    (encode (1 : ZMod curveOrder)).toList ≠ (encode (2 : ZMod curveOrder)).toList ∧
      proveBoundToKey (ZMod curveOrder) Sample.twoHash (encode (1 : ZMod curveOrder)).toList 1 64
        Sample.matchedDraws = .ok (proof, r) ∧
      proveBoundToKey (ZMod curveOrder) Sample.twoHash (encode (2 : ZMod curveOrder)).toList 1 64
        Sample.matchedDraws = .ok (proof, r) := by
  obtain ⟨proof, r, hprove⟩ :=
    exists_prove_matchedDraws (show (0 : ℤ) < 64 ∧ (64 : ℤ) ≤ 128 by decide) none
  exact ⟨proof, r, by decide +kernel, hprove, hprove⟩

end Ghos.Sdk
