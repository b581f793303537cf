import Ghos.Client.ElGamal

/-!
# Computing with ciphertexts

Both clients add and subtract ciphertexts and refresh their randomness; the SDK multiplies them by
integers, too.

* `Cli.decryptExhaustive_tree`: the CLI decrypts what comes out of any tree of its operations to
  the value of the tree, if the value is in range, and rejects it otherwise;
* `Sdk.decrypt_evaluate`: the SDK decrypts what comes out of any tree of its operations to the value
  of the tree, if the value is in range.
-/

namespace Ghos

variable {Point : Type} [Ristretto255 Point]

open Ristretto255

/-! ### The CLI -/

namespace Cli

variable (Point) in
/-- Add two ciphertexts component-wise. -/
def homomorphicAdd (a b : ElGamalCiphertext) : Except Error ElGamalCiphertext := do
  let aC1 : Point ← ristrettoDecode a.c1
  let aC2 ← ristrettoDecode a.c2
  let bC1 ← ristrettoDecode b.c1
  let bC2 ← ristrettoDecode b.c2
  return encodeCiphertext ⟨aC1 + bC1, aC2 + bC2⟩

variable (Point) in
/-- Subtract ciphertext `b` from `a` component-wise. -/
def homomorphicSub (a b : ElGamalCiphertext) : Except Error ElGamalCiphertext := do
  let aC1 : Point ← ristrettoDecode a.c1
  let aC2 ← ristrettoDecode a.c2
  let bC1 ← ristrettoDecode b.c1
  let bC2 ← ristrettoDecode b.c2
  return encodeCiphertext ⟨aC1 + -bC1, aC2 + -bC2⟩

variable (Point) in
/-- Re-randomize a ciphertext without changing the plaintext. -/
def randomize (fresh : RandomScalar) (ct : ElGamalCiphertext) (pk : PublicKey) :
    Except Error ElGamalCiphertext := do
  let r := fresh.value
  let pkPoint : Point ← ristrettoDecode pk.encoding
  let refreshC1 := scalarMul (base : Point) r
  let refreshC2 := scalarMul pkPoint r
  let c1 ← ristrettoDecode ct.c1
  let c2 ← ristrettoDecode ct.c2
  return encodeCiphertext ⟨c1 + refreshC1, c2 + refreshC2⟩

/-- A tree of operations.  Amounts fit in 64 bits and randomness is not zero modulo the order; what
`encrypt` and `randomize` draw is in the tree. -/
inductive CiphertextTree
  | encrypt (fresh : RandomScalar) (m : ℕ) (hm : m < 2 ^ 64) (r : ℤ) (hr : reduceScalar r ≠ 0)
  | add (a b : CiphertextTree)
  | sub (a b : CiphertextTree)
  | randomize (fresh : RandomScalar) (a : CiphertextTree)

namespace CiphertextTree

variable (Point) in
/-- The ciphertext of a tree, under one key. -/
def evaluate (pk : PublicKey) : CiphertextTree → Except Error ElGamalCiphertext
  | encrypt fresh m _ r _ => Cli.encrypt Point fresh pk m (some r)
  | add a b => do homomorphicAdd Point (← a.evaluate pk) (← b.evaluate pk)
  | sub a b => do homomorphicSub Point (← a.evaluate pk) (← b.evaluate pk)
  | randomize fresh a => do Cli.randomize Point fresh (← a.evaluate pk) pk

/-- The value of a tree over the integers. -/
def value : CiphertextTree → ℤ
  | encrypt _ m _ _ _ => m
  | add a b => a.value + b.value
  | sub a b => a.value - b.value
  | randomize _ a => a.value

end CiphertextTree

section Operations

variable (a b : ElGamal.Ciphertext Point)

theorem homomorphicAdd_encode :
    homomorphicAdd Point (encodeCiphertext a) (encodeCiphertext b) =
      .ok (encodeCiphertext (a + b)) := by
  simp only [homomorphicAdd, encodeCiphertext, ristrettoDecode_encode, bind, Except.bind]
  rfl

theorem homomorphicSub_encode :
    homomorphicSub Point (encodeCiphertext a) (encodeCiphertext b) =
      .ok (encodeCiphertext (a - b)) := by
  simp only [homomorphicSub, encodeCiphertext, ristrettoDecode_encode, ← sub_eq_add_neg, bind,
    Except.bind]
  rfl

/-- Fresh randomness is a ciphertext of zero. -/
theorem randomize_encode (fresh : RandomScalar) (pk : Point) :
    randomize Point fresh (encodeCiphertext a) ⟨(encode pk).toList⟩ =
      .ok (encodeCiphertext (a + ElGamal.plain base pk 0 (fresh.value : ZMod curveOrder))) := by
  have hzero : ElGamal.plain base pk 0 (fresh.value : ZMod curveOrder) =
      ⟨fresh.value • base, fresh.value • pk⟩ := by
    rw [ElGamal.plain, zero_smul, zero_add, Nat.cast_smul_eq_nsmul, Nat.cast_smul_eq_nsmul]
  rw [hzero]
  simp only [randomize, encodeCiphertext, ristrettoDecode_encode, scalarMul_natCast, bind,
    Except.bind]
  rfl

end Operations

/-- Every tree has a ciphertext, and it encrypts the value of the tree. -/
theorem CiphertextTree.exists_evaluate (pk : Point) (tree : CiphertextTree) :
    ∃ r : ZMod curveOrder, tree.evaluate Point ⟨(encode pk).toList⟩ =
      .ok (encodeCiphertext (ElGamal.plain base pk (tree.value : ZMod curveOrder) r)) := by
  induction tree with
  | encrypt fresh m hm r hr =>
    refine ⟨ephemeral fresh (some r), ?_⟩
    rw [evaluate, encrypt_encode fresh pk hm, value, Int.cast_natCast]
  | add a b iha ihb =>
    obtain ⟨ra, ha⟩ := iha
    obtain ⟨rb, hb⟩ := ihb
    refine ⟨ra + rb, ?_⟩
    simp only [evaluate, ha, hb, bind, Except.bind, homomorphicAdd_encode, ElGamal.plain_add,
      value, Int.cast_add]
  | sub a b iha ihb =>
    obtain ⟨ra, ha⟩ := iha
    obtain ⟨rb, hb⟩ := ihb
    refine ⟨ra - rb, ?_⟩
    simp only [evaluate, ha, hb, bind, Except.bind, homomorphicSub_encode, ElGamal.plain_sub,
      value, Int.cast_sub]
  | randomize fresh a iha =>
    obtain ⟨ra, ha⟩ := iha
    refine ⟨ra + fresh.value, ?_⟩
    simp only [evaluate, ha, bind, Except.bind, randomize_encode, ElGamal.plain_add, value,
      add_zero]

variable (Point) in
/-- The CLI decrypts the ciphertext of a tree to the value of the tree if that is in range, and
rejects it if it is not. -/
theorem decryptExhaustive_tree [DecidableEq Point] (x : ℕ) (tree : CiphertextTree)
    {maxAmount : ℤ} (hfits : |tree.value| + maxAmount < curveOrder) :
    ∃ ct, tree.evaluate Point ⟨publicKey Point x⟩ = .ok ct ∧
      if 0 ≤ tree.value ∧ tree.value ≤ maxAmount then
        decryptExhaustive Point ⟨x⟩ ct maxAmount = .ok tree.value.toNat
      else ∃ message, decryptExhaustive Point ⟨x⟩ ct maxAmount = .error (.cryptoError message) := by
  obtain ⟨r, hr⟩ := tree.exists_evaluate ((x : ZMod curveOrder) • (base : Point))
  rw [publicKey_eq]
  refine ⟨_, hr, ?_⟩
  rcases lt_or_ge maxAmount 0 with hneg | hnonneg
  · rw [if_neg (by omega), decryptExhaustive, throwUnless, if_neg (by omega)]
    exact ⟨_, rfl⟩
  · lift maxAmount to ℕ using hnonneg
    have hopen : ElGamal.openPlain (x : ZMod curveOrder) (ElGamal.plain base
        ((x : ZMod curveOrder) • (base : Point)) (tree.value : ZMod curveOrder) r) =
        tree.value • base := by
      rw [ElGamal.openPlain_plain, sub_self, mul_zero, add_zero, Int.cast_smul_eq_zsmul]
    rw [decryptExhaustive_encode, hopen, DiscreteLog.search_zsmul (by rwa [addOrderOf_base])
      fun m => DiscreteLog.scan_eq_some_iff]
    split_ifs with hrange
    · rfl
    · exact ⟨_, rfl⟩

end Cli

/-! ### The SDK -/

namespace Sdk

/-- `SDK_ERROR_CODES.ProofGenerationFailed`. -/
def proofGenerationFailed : ℕ := 9006

/-- Sample a fresh random scalar from 64 random bytes. -/
def randomScalar (draw : Vector UInt8 64) : ℕ := scalarFromUniform64 draw.toList

/-- The loop of `randomNonZeroScalar`, with what it may draw. -/
def randomNonZeroLoop : List (Vector UInt8 64) → Except SdkError ℕ
  | [] => throw (.ghosSdkError proofGenerationFailed "failed to sample non-zero scalar")
  | draw :: draws =>
    let s := randomScalar draw
    if s ≠ 0 then return s else randomNonZeroLoop draws

/-- Sample a random non-zero scalar in at most 16 draws. -/
def randomNonZeroScalar (draws : Vector (Vector UInt8 64) 16) : Except SdkError ℕ :=
  randomNonZeroLoop draws.toList

variable (Point) in
/-- Re-randomize a ciphertext. -/
def randomize (pk : List UInt8) (ciphertext : ElGamalCiphertext)
    (draws : Vector (Vector UInt8 64) 16) : Except SdkError ElGamalCiphertext := do
  let rPrime ← randomNonZeroScalar draws
  let pkPoint : Point ← pointFromBytes pk
  let c1 ← pointFromBytes ciphertext.c1
  let c2 ← pointFromBytes ciphertext.c2
  let c1New := c1 + (← multiply base rPrime)
  let c2New := c2 + (← multiply pkPoint rPrime)
  return encodeCiphertext ⟨c1New, c2New⟩

variable (Point) in
/-- Homomorphic addition. -/
def addCiphertexts (a b : ElGamalCiphertext) : Except SdkError ElGamalCiphertext := do
  let a1 : Point ← pointFromBytes a.c1
  let a2 ← pointFromBytes a.c2
  let b1 ← pointFromBytes b.c1
  let b2 ← pointFromBytes b.c2
  return encodeCiphertext ⟨a1 + b1, a2 + b2⟩

variable (Point) in
/-- Homomorphic subtraction. -/
def subCiphertexts (a b : ElGamalCiphertext) : Except SdkError ElGamalCiphertext := do
  let a1 : Point ← pointFromBytes a.c1
  let a2 ← pointFromBytes a.c2
  let b1 ← pointFromBytes b.c1
  let b2 ← pointFromBytes b.c2
  return encodeCiphertext ⟨a1 - b1, a2 - b2⟩

variable (Point) in
/-- Scalar-multiply a ciphertext by a plaintext constant. -/
def scaleCiphertext (a : ElGamalCiphertext) (k : ℤ) : Except SdkError ElGamalCiphertext := do
  let a1 : Point ← pointFromBytes a.c1
  let a2 ← pointFromBytes a.c2
  let kScalar := reduceScalar k
  if kScalar = 0 then return encodeCiphertext (⟨0, 0⟩ : ElGamal.Ciphertext Point)
  return encodeCiphertext ⟨← multiply a1 kScalar, ← multiply a2 kScalar⟩

variable (Point) in
/-- Produce a zero-ciphertext under a given public key. -/
def zeroCiphertext (sha512 : List UInt8 → Vector UInt8 64) (pk : List UInt8) :
    Except SdkError ElGamalCiphertext := encryptWithRandomness Point sha512 pk 0 1

/-- A tree of operations.  Randomness is not zero modulo the order, and one of the draws is not. -/
inductive CiphertextTree
  | encrypt (m r : ℤ) (hr : reduceScalar r ≠ 0)
  | zero
  | add (a b : CiphertextTree)
  | sub (a b : CiphertextTree)
  | scale (a : CiphertextTree) (k : ℤ)
  | randomize (a : CiphertextTree) (draws : Vector (Vector UInt8 64) 16)
    (hdraws : ∃ draw ∈ draws.toList, randomScalar draw ≠ 0)

namespace CiphertextTree

variable (Point) in
/-- The ciphertext of a tree, under one key. -/
def evaluate (sha512 : List UInt8 → Vector UInt8 64) (pk : List UInt8) :
    CiphertextTree → Except SdkError ElGamalCiphertext
  | encrypt m r _ => encryptWithRandomness Point sha512 pk m r
  | zero => zeroCiphertext Point sha512 pk
  | add a b => do addCiphertexts Point (← a.evaluate sha512 pk) (← b.evaluate sha512 pk)
  | sub a b => do subCiphertexts Point (← a.evaluate sha512 pk) (← b.evaluate sha512 pk)
  | scale a k => do scaleCiphertext Point (← a.evaluate sha512 pk) k
  | randomize a draws _ => do Sdk.randomize Point pk (← a.evaluate sha512 pk) draws

/-- The value of a tree over the integers. -/
def value : CiphertextTree → ℤ
  | encrypt m _ _ => m
  | zero => 0
  | add a b => a.value + b.value
  | sub a b => a.value - b.value
  | scale a k => k * a.value
  | randomize a _ _ => a.value

end CiphertextTree

variable {sha512 : List UInt8 → Vector UInt8 64}

theorem exists_randomNonZeroLoop {draws : List (Vector UInt8 64)}
    (h : ∃ draw ∈ draws, randomScalar draw ≠ 0) :
    ∃ s, randomNonZeroLoop draws = .ok s ∧ IsScalar s := by
  induction draws with
  | nil => simp at h
  | cons draw draws ih =>
    rw [randomNonZeroLoop]
    split_ifs with hzero
    · exact ⟨_, rfl, Nat.pos_of_ne_zero hzero, Nat.mod_lt _ curveOrder_pos⟩
    · refine ih ?_
      obtain ⟨other, hmem, hne⟩ := h
      rcases List.mem_cons.1 hmem with rfl | hmem
      · exact absurd hne hzero
      · exact ⟨other, hmem, hne⟩

section Operations

variable (a b : ElGamal.Ciphertext Point)

theorem addCiphertexts_encode :
    addCiphertexts Point (encodeCiphertext a) (encodeCiphertext b) =
      .ok (encodeCiphertext (a + b)) := by
  simp only [addCiphertexts, encodeCiphertext, pointFromBytes_encode, bind, Except.bind]
  rfl

theorem subCiphertexts_encode :
    subCiphertexts Point (encodeCiphertext a) (encodeCiphertext b) =
      .ok (encodeCiphertext (a - b)) := by
  simp only [subCiphertexts, encodeCiphertext, pointFromBytes_encode, bind, Except.bind]
  rfl

/-- A multiple, also by zero. -/
theorem scaleCiphertext_encode (k : ℤ) :
    scaleCiphertext Point (encodeCiphertext a) k =
      .ok (encodeCiphertext ((k : ZMod curveOrder) • a)) := by
  rw [← cast_reduceScalar]
  simp only [scaleCiphertext, encodeCiphertext, pointFromBytes_encode, bind, Except.bind]
  split_ifs with hzero
  · rw [hzero, Nat.cast_zero]
    show _ = Except.ok (encodeCiphertext
      ⟨(0 : ZMod curveOrder) • a.c1, (0 : ZMod curveOrder) • a.c2⟩)
    rw [zero_smul, zero_smul]
    rfl
  · have hk : IsScalar (reduceScalar k) := ⟨Nat.pos_of_ne_zero hzero, reduceScalar_lt k⟩
    simp only [multiply_eq_ok hk, ← Nat.cast_smul_eq_nsmul (ZMod curveOrder)]
    rfl

end Operations

/-- Fresh randomness is a ciphertext of zero. -/
theorem exists_randomize_encode (h pk : Point) (a : ElGamal.Ciphertext Point)
    {draws : Vector (Vector UInt8 64) 16} (hdraws : ∃ draw ∈ draws.toList, randomScalar draw ≠ 0) :
    ∃ s : ZMod curveOrder, randomize Point (encode pk).toList (encodeCiphertext a) draws =
      .ok (encodeCiphertext (a + ElGamal.twisted base h pk 0 s)) := by
  obtain ⟨s, hs, hscalar⟩ := exists_randomNonZeroLoop hdraws
  have hzero : ElGamal.twisted base h pk 0 (s : ZMod curveOrder) = ⟨s • base, s • pk⟩ := by
    rw [ElGamal.twisted, zero_smul, zero_add, Nat.cast_smul_eq_nsmul, Nat.cast_smul_eq_nsmul]
  refine ⟨s, ?_⟩
  rw [hzero]
  simp only [randomize, randomNonZeroScalar, hs, encodeCiphertext, pointFromBytes_encode,
    multiply_eq_ok hscalar, bind, Except.bind]
  rfl

/-- Every tree has a ciphertext, and it encrypts the value of the tree. -/
theorem CiphertextTree.exists_evaluate (sha512 : List UInt8 → Vector UInt8 64) (pk : Point)
    (tree : CiphertextTree) :
    ∃ r : ZMod curveOrder, tree.evaluate Point sha512 (encode pk).toList = .ok (encodeCiphertext
      (ElGamal.twisted base ((twistedScalar sha512 : ZMod curveOrder) • base) pk
        (tree.value : ZMod curveOrder) r)) := by
  induction tree with
  | encrypt m r hr => exact ⟨r, encryptWithRandomness_eq sha512 (pointFromBytes_encode pk) m hr⟩
  | zero =>
    have hone : reduceScalar 1 ≠ 0 := by decide +kernel
    exact ⟨_, encryptWithRandomness_eq sha512 (pointFromBytes_encode pk) 0 hone⟩
  | add a b iha ihb =>
    obtain ⟨ra, ha⟩ := iha
    obtain ⟨rb, hb⟩ := ihb
    refine ⟨ra + rb, ?_⟩
    simp only [evaluate, ha, hb, bind, Except.bind, addCiphertexts_encode, ElGamal.twisted_add,
      value, Int.cast_add]
  | sub a b iha ihb =>
    obtain ⟨ra, ha⟩ := iha
    obtain ⟨rb, hb⟩ := ihb
    refine ⟨ra - rb, ?_⟩
    simp only [evaluate, ha, hb, bind, Except.bind, subCiphertexts_encode, ElGamal.twisted_sub,
      value, Int.cast_sub]
  | scale a k iha =>
    obtain ⟨ra, ha⟩ := iha
    refine ⟨k * ra, ?_⟩
    simp only [evaluate, ha, bind, Except.bind, scaleCiphertext_encode, ElGamal.twisted_smul,
      value, Int.cast_mul]
  | randomize a draws hdraws iha =>
    obtain ⟨ra, ha⟩ := iha
    obtain ⟨s, hs⟩ := exists_randomize_encode ((twistedScalar sha512 : ZMod curveOrder) • base) pk
      (ElGamal.twisted base ((twistedScalar sha512 : ZMod curveOrder) • base) pk
        (a.value : ZMod curveOrder) ra) hdraws
    refine ⟨ra + s, ?_⟩
    simp only [evaluate, ha, hs, bind, Except.bind, ElGamal.twisted_add, value, add_zero]

/-- The SDK decrypts the ciphertext of a tree to the value of the tree if that is in range, and to
nothing if it is not. -/
theorem decrypt_evaluate (sha512 : List UInt8 → Vector UInt8 64) (sk : Vector UInt8 32)
    (hsk : leNat sk.toList % curveOrder ≠ 0) (tree : CiphertextTree) (maxBalance : ℤ) (step : ℕ)
    (hstep : 1 ≤ step ∧ step < curveOrder) (hfits : |tree.value| + maxBalance < curveOrder) :
    ∃ ct, tree.evaluate Point sha512 (publicKey Point (leNat sk.toList)) = .ok ct ∧
      decrypt Point sha512 sk.toList ct { maxBalance := some maxBalance, bsgsStep := some step } =
        .ok (if 0 ≤ tree.value ∧ tree.value ≤ maxBalance then some tree.value.toNat else none) := by
  set s := leNat sk.toList % curveOrder with hsdef
  have hs : IsScalar s := ⟨Nat.pos_of_ne_zero hsk, Nat.mod_lt _ curveOrder_pos⟩
  have hscalar : scalarFromLE32 sk.toList = .ok s := by
    rw [scalarFromLE32, throwUnless, if_pos sk.length_toList]
    rfl
  have hpk : publicKey Point (leNat sk.toList) = publicKey Point s := by
    rw [publicKey, publicKey, hsdef, mod_nsmul]
  have hH : addOrderOf (twistedScalar sha512 • (base : Point)) = curveOrder :=
    addOrderOf_of_ne_zero (nsmul_base_ne_zero (twistedScalar_isScalar sha512))
  obtain ⟨r, hr⟩ := tree.exists_evaluate sha512 ((s : ZMod curveOrder) • (base : Point))
  rw [hpk, publicKey_eq]
  refine ⟨_, hr, ?_⟩
  rw [decrypt_encodeCiphertext hscalar hs, ElGamal.openTwisted_twisted hs.cast_ne_zero,
    Int.cast_smul_eq_zsmul, Nat.cast_smul_eq_nsmul]
  simp only [Option.getD_some]
  rcases lt_or_ge maxBalance 0 with hneg | hnonneg
  · rw [discreteLogOnH, if_pos hneg, if_neg (by omega)]
    rfl
  · lift maxBalance to ℕ using hnonneg
    rw [discreteLogOnH_eq hstep]
    congr 1
    exact DiscreteLog.search_zsmul (by rwa [hH]) fun m =>
      DiscreteLog.bsgs_eq_some_iff hexKey_injective hstep.1

namespace Sample

/-- The secret `1`. -/
def secret : Vector UInt8 32 := ⟨(leBytes 32 1).toArray, by simp [length_leBytes]⟩

/-- Twice the difference of five and three base units. -/
def tree : CiphertextTree :=
  .scale (.sub (.encrypt 5 7 (by decide +kernel)) (.add .zero (.encrypt 3 4 (by decide +kernel)))) 2

end Sample

theorem decrypt_evaluate_sample :
    ∃ ct, Sample.tree.evaluate (ZMod curveOrder) Sample.twistedHash
        (publicKey (ZMod curveOrder) (leNat Sample.secret.toList)) = .ok ct ∧
      decrypt (ZMod curveOrder) Sample.twistedHash Sample.secret.toList ct
        { maxBalance := some 10, bsgsStep := some (3 : ℕ) } = .ok (some 4) := by
  have hsk : leNat Sample.secret.toList % curveOrder ≠ 0 := by decide +kernel
  have hfits : |Sample.tree.value| + 10 < curveOrder := by decide +kernel
  exact decrypt_evaluate Sample.twistedHash Sample.secret hsk Sample.tree
    10 3 (by decide +kernel) hfits

/-! ### The search -/

/-- Whatever the step, the search finds the least multiplier, unless it is above the limit. -/
theorem discreteLogOnH_exact (Point : Type) [Ristretto255 Point]
    (sha512 : List UInt8 → Vector UInt8 64) (target : Point) :
    ∃ h : Point, twistedH sha512 = .ok h ∧ ∃ m : ℕ, m • h = target ∧
      (∀ k : ℕ, k • h = target → m ≤ k) ∧
        ∀ maxBalance step : ℤ, 0 ≤ maxBalance → 1 ≤ step → step < curveOrder →
          discreteLogOnH sha512 target maxBalance step =
            .ok (if m ≤ maxBalance then some m else none) := by
  classical
  have hh : twistedScalar sha512 • (base : Point) ≠ 0 :=
    nsmul_base_ne_zero (twistedScalar_isScalar sha512)
  have hex : ∃ k : ℕ, k • (twistedScalar sha512 • (base : Point)) = target :=
    exists_nsmul_eq hh target
  have hleast : ∀ k : ℕ, k • (twistedScalar sha512 • (base : Point)) = target →
      Nat.find hex ≤ k := fun k hk => Nat.find_min' hex hk
  refine ⟨_, twistedH_eq, Nat.find hex, Nat.find_spec hex, hleast, ?_⟩
  intro maxBalance step hmax hstep hlt
  lift maxBalance to ℕ using hmax
  lift step to ℕ using by omega
  have hscalar : IsScalar step := ⟨by omega, by exact_mod_cast hlt⟩
  rw [discreteLogOnH_eq hscalar, Except.ok.injEq]
  split_ifs with hrange
  · rw [DiscreteLog.bsgs_eq_some_iff hexKey_injective hscalar.1]
    exact ⟨by omega, Nat.find_spec hex, hleast⟩
  · refine Option.eq_none_iff_forall_ne_some.2 fun m hm => hrange ?_
    have hlog := (DiscreteLog.bsgs_eq_some_iff hexKey_injective hscalar.1).1 hm
    have hle := hleast m hlog.smul
    have hbound := hlog.lt
    omega

end Sdk

end Ghos
