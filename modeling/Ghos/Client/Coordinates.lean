import Ghos.Client.Homomorphic
import Ghos.Client.RistrettoGroup

/-!
# The cipher of the CLI on coordinates

The functions of `cli/ghos_cli/crypto/elgamal.py` on points in extended coordinates.  Each of them
is the function over the group of cosets, `encrypt_eq` and so on, so what holds in the group holds
of the code.

* `decryptExhaustive_evaluate`: the CLI decrypts what comes out of any tree of its operations to the
  value of the tree, if the value is in range, and rejects it otherwise.
-/

namespace Ghos

namespace Cli.Coordinates

open ExtendedPoint Ristretto255

/-- The public key of a scalar, as `keygen` computes it. -/
def publicKey (scalar : ℕ) : Except Error PublicKey := do
  let pubPoint := (← basepoint).scalarMul scalar
  return ⟨ristrettoEncode pubPoint⟩

/-- Encrypt a non-negative 64-bit integer amount under `pk`. -/
def encrypt (fresh : RandomScalar) (pk : PublicKey) (amount : ℤ) (randomness : Option ℤ) :
    Except Error ElGamalCiphertext := do
  throwUnless (0 ≤ amount) (.cryptoError s!"amount must be non-negative, got {amount}")
  throwUnless (amount / 2 ^ 64 = 0) (.cryptoError s!"amount must fit in 64 bits, got {amount}")
  let r := ephemeral fresh randomness
  let g ← basepoint
  let pkPoint ← ristrettoDecode pk.encoding
  let c1Point := g.scalarMul r
  let amountPoint := g.scalarMul amount
  let pkRPoint := pkPoint.scalarMul r
  let c2Point := amountPoint.add pkRPoint
  return ⟨ristrettoEncode c1Point, ristrettoEncode c2Point⟩

/-- The loop of `decrypt_exhaustive` from `m` on, `rest` times. -/
def decryptLoop (g targetPoint : ExtendedPoint) : ℕ → ℕ → ExtendedPoint → Option ℕ
  | 0, _, _ => none
  | rest + 1, m, cursor =>
    let cursor := cursor.add g
    if ristrettoEqual cursor targetPoint then some m
    else decryptLoop g targetPoint rest (m + 1) cursor

/-- Recover the amount in `ct` by brute-force discrete log up to `maxAmount`. -/
def decryptExhaustive (sk : SecretKey) (ct : ElGamalCiphertext) (maxAmount : ℤ) :
    Except Error ℕ := do
  throwUnless (0 ≤ maxAmount) (.cryptoError s!"max_amount must be non-negative, got {maxAmount}")
  let c1Point ← ristrettoDecode ct.c1
  let c2Point ← ristrettoDecode ct.c2
  let maskPoint := c1Point.scalarMul sk.value
  let targetPoint := c2Point.add maskPoint.negate
  let g ← basepoint
  let cursor := identity
  if ristrettoEqual cursor targetPoint then return 0
  match decryptLoop g targetPoint maxAmount.toNat 1 cursor with
  | some m => return m
  | none => throw (.cryptoError s!"decrypt failed: amount exceeds max_amount={maxAmount}")

/-- Re-randomize a ciphertext without changing the plaintext. -/
def randomize (fresh : RandomScalar) (ct : ElGamalCiphertext) (pk : PublicKey) :
    Except Error ElGamalCiphertext := do
  let r := fresh.value
  let g ← basepoint
  let pkPoint ← ristrettoDecode pk.encoding
  let refreshC1 := g.scalarMul r
  let refreshC2 := pkPoint.scalarMul r
  let c1Point := (← ristrettoDecode ct.c1).add refreshC1
  let c2Point := (← ristrettoDecode ct.c2).add refreshC2
  return ⟨ristrettoEncode c1Point, ristrettoEncode c2Point⟩

/-- Add two ciphertexts component-wise. -/
def homomorphicAdd (a b : ElGamalCiphertext) : Except Error ElGamalCiphertext := do
  let aC1 ← ristrettoDecode a.c1
  let aC2 ← ristrettoDecode a.c2
  let bC1 ← ristrettoDecode b.c1
  let bC2 ← ristrettoDecode b.c2
  return ⟨ristrettoEncode (aC1.add bC1), ristrettoEncode (aC2.add bC2)⟩

/-- Subtract ciphertext `b` from `a` component-wise. -/
def homomorphicSub (a b : ElGamalCiphertext) : Except Error ElGamalCiphertext := do
  let aC1 ← ristrettoDecode a.c1
  let aC2 ← ristrettoDecode a.c2
  let bC1 ← ristrettoDecode b.c1
  let bC2 ← ristrettoDecode b.c2
  return ⟨ristrettoEncode (aC1.add bC1.negate), ristrettoEncode (aC2.add bC2.negate)⟩

/-- The ciphertext of a tree, under one key. -/
def evaluate (pk : PublicKey) : CiphertextTree → Except Error ElGamalCiphertext
  | .encrypt fresh m _ r _ => encrypt fresh pk m (some r)
  | .add a b => do homomorphicAdd (← evaluate pk a) (← evaluate pk b)
  | .sub a b => do homomorphicSub (← evaluate pk a) (← evaluate pk b)
  | .randomize fresh a => do randomize fresh (← evaluate pk a) pk

/-! ### The same functions in the group -/

theorem Agrees.bind {α : Type} {x : Except Error ExtendedPoint} {y : Except Error Coset}
    (h : Agrees x y) {f : ExtendedPoint → Except Error α} {g : Coset → Except Error α}
    (hfg : ∀ P c, RepresentsCoset P c → f P = g c) : x >>= f = y >>= g := by
  cases h with
  | ok hrepresents => exact hfg _ _ hrepresents
  | error e => rfl

theorem encodeCiphertext_eq {P Q : ExtendedPoint} {b c : Coset} (hP : RepresentsCoset P b)
    (hQ : RepresentsCoset Q c) :
    (⟨ristrettoEncode P, ristrettoEncode Q⟩ : ElGamalCiphertext) = encodeCiphertext ⟨b, c⟩ := by
  rw [encodeCiphertext, encode_coset hP, encode_coset hQ]

theorem publicKey_eq (scalar : ℕ) :
    publicKey scalar = .ok ⟨Ghos.publicKey Coset scalar⟩ := by
  obtain ⟨G, hG, hrepresents⟩ := exists_basepoint
  have hkey := encode_coset (hrepresents.scalarMul scalar)
  rw [scalarMul_natCast] at hkey
  rw [publicKey, hG, Ghos.publicKey, show (base : Coset) = coset _ _ from rfl, hkey]
  rfl

theorem homomorphicAdd_eq (a b : ElGamalCiphertext) :
    homomorphicAdd a b = Cli.homomorphicAdd Coset a b := by
  refine (agrees_ristrettoDecode a.c1).bind fun A1 a1 hA1 => ?_
  refine (agrees_ristrettoDecode a.c2).bind fun A2 a2 hA2 => ?_
  refine (agrees_ristrettoDecode b.c1).bind fun B1 b1 hB1 => ?_
  refine (agrees_ristrettoDecode b.c2).bind fun B2 b2 hB2 => ?_
  exact congrArg Except.ok (encodeCiphertext_eq (hA1.add hB1) (hA2.add hB2))

theorem homomorphicSub_eq (a b : ElGamalCiphertext) :
    homomorphicSub a b = Cli.homomorphicSub Coset a b := by
  refine (agrees_ristrettoDecode a.c1).bind fun A1 a1 hA1 => ?_
  refine (agrees_ristrettoDecode a.c2).bind fun A2 a2 hA2 => ?_
  refine (agrees_ristrettoDecode b.c1).bind fun B1 b1 hB1 => ?_
  refine (agrees_ristrettoDecode b.c2).bind fun B2 b2 hB2 => ?_
  exact congrArg Except.ok (encodeCiphertext_eq (hA1.add hB1.negate) (hA2.add hB2.negate))

theorem randomize_eq (fresh : RandomScalar) (ct : ElGamalCiphertext) (pk : PublicKey) :
    randomize fresh ct pk = Cli.randomize Coset fresh ct pk := by
  obtain ⟨G, hbase, hG⟩ := exists_basepoint
  rw [randomize, hbase]
  refine (agrees_ristrettoDecode pk.encoding).bind fun P p hP => ?_
  refine (agrees_ristrettoDecode ct.c1).bind fun C1 c1 hC1 => ?_
  refine (agrees_ristrettoDecode ct.c2).bind fun C2 c2 hC2 => ?_
  exact congrArg Except.ok (encodeCiphertext_eq (hC1.add (hG.scalarMul fresh.value))
    (hC2.add (hP.scalarMul fresh.value)))

theorem encrypt_eq (fresh : RandomScalar) (pk : PublicKey) (amount : ℤ) (randomness : Option ℤ) :
    encrypt fresh pk amount randomness = Cli.encrypt Coset fresh pk amount randomness := by
  obtain ⟨G, hbase, hG⟩ := exists_basepoint
  refine bind_congr fun _ => bind_congr fun _ => ?_
  rw [hbase]
  refine (agrees_ristrettoDecode pk.encoding).bind fun P p hP => ?_
  exact congrArg Except.ok (encodeCiphertext_eq (hG.scalarMul _)
    ((hG.scalarMul amount).add (hP.scalarMul _)))

/-- The code tries the multiples that the group tries. -/
theorem decryptLoop_eq [DecidableEq Coset] {G T C : ExtendedPoint} {g t c : Coset}
    (hG : RepresentsCoset G g) (hT : RepresentsCoset T t) (hC : RepresentsCoset C c)
    (rest m : ℕ) : decryptLoop G T rest m C = DiscreteLog.scanLoop g t rest m c := by
  induction rest generalizing m C c with
  | zero => rfl
  | succ rest ih =>
    have hnext := hC.add hG
    rw [decryptLoop, DiscreteLog.scanLoop, ih hnext]
    exact if_congr (ristrettoEqual_coset hnext hT) rfl rfl

theorem decryptExhaustive_eq [DecidableEq Coset] (sk : SecretKey) (ct : ElGamalCiphertext)
    (maxAmount : ℤ) :
    decryptExhaustive sk ct maxAmount = Cli.decryptExhaustive Coset sk ct maxAmount := by
  obtain ⟨G, hbase, hG⟩ := exists_basepoint
  refine bind_congr fun _ => ?_
  refine (agrees_ristrettoDecode ct.c1).bind fun C1 c1 hC1 => ?_
  refine (agrees_ristrettoDecode ct.c2).bind fun C2 c2 hC2 => ?_
  have htarget := hC2.add (hC1.scalarMul sk.value).negate
  have hstart := ristrettoEqual_coset representsCoset_identity htarget
  rw [hbase]
  by_cases hzero : 0 = c2 + -Cli.scalarMul c1 sk.value
  · have hscan : DiscreteLog.scan (base : Coset) (c2 + -Cli.scalarMul c1 sk.value)
        maxAmount.toNat = some 0 := if_pos hzero
    simp only [hscan]
    exact if_pos (hstart.2 hzero)
  · have hscan : DiscreteLog.scan (base : Coset) (c2 + -Cli.scalarMul c1 sk.value)
        maxAmount.toNat = decryptLoop G (C2.add (C1.scalarMul sk.value).negate) maxAmount.toNat 1
          identity :=
      (if_neg hzero).trans (decryptLoop_eq hG htarget representsCoset_identity _ _).symm
    simp only [hscan]
    exact if_neg (mt hstart.1 hzero)

theorem evaluate_eq (pk : PublicKey) (tree : CiphertextTree) :
    evaluate pk tree = tree.evaluate Coset pk := by
  induction tree with
  | encrypt fresh m hm r hr => exact encrypt_eq fresh pk m (some r)
  | add a b iha ihb =>
    simp only [evaluate, CiphertextTree.evaluate, iha, ihb, homomorphicAdd_eq]
  | sub a b iha ihb =>
    simp only [evaluate, CiphertextTree.evaluate, iha, ihb, homomorphicSub_eq]
  | randomize fresh a iha =>
    simp only [evaluate, CiphertextTree.evaluate, iha, randomize_eq]

/-- The CLI decrypts the ciphertext of a tree to the value of the tree if that is in range, and
rejects it if it is not. -/
theorem decryptExhaustive_evaluate {x : ℕ} (tree : CiphertextTree) {maxAmount : ℤ}
    (hfits : |tree.value| + maxAmount < curveOrder) :
    ∃ pk ct, publicKey x = .ok pk ∧ evaluate pk tree = .ok ct ∧
      if 0 ≤ tree.value ∧ tree.value ≤ maxAmount then
        decryptExhaustive ⟨x⟩ ct maxAmount = .ok tree.value.toNat
      else ∃ message, decryptExhaustive ⟨x⟩ ct maxAmount = .error (.cryptoError message) := by
  classical
  obtain ⟨ct, hct, hdecrypt⟩ := decryptExhaustive_tree Coset x tree hfits
  refine ⟨_, ct, publicKey_eq x, (evaluate_eq _ tree).trans hct, ?_⟩
  simp only [decryptExhaustive_eq]
  exact hdecrypt

namespace Sample

/-- A fixed draw. -/
def draw : RandomScalar := ⟨9, by decide, by decide +kernel⟩

/-- Five base units less three, refreshed. -/
def tree : CiphertextTree :=
  .randomize draw (.sub (.encrypt draw 5 (by decide) 11 (by decide +kernel))
    (.encrypt draw 3 (by decide) 12 (by decide +kernel)))

end Sample

theorem decryptExhaustive_evaluate_sample :
    ∃ pk ct, publicKey 6 = .ok pk ∧ evaluate pk Sample.tree = .ok ct ∧
      decryptExhaustive ⟨6⟩ ct 10 = .ok 2 := by
  have hfits : |Sample.tree.value| + 10 < curveOrder := by decide +kernel
  exact decryptExhaustive_evaluate Sample.tree hfits

end Cli.Coordinates

end Ghos
