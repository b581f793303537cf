import Ghos.Lib.DiscreteLog
import Ghos.Lib.ElGamal
import Ghos.Client.Cli
import Ghos.Client.Ristretto

/-!
# The two ElGamal ciphers

`cli/ghos_cli/crypto/elgamal.py` puts the message into the second component of a ciphertext and
multiplies the generator by it; `sdk/src/crypto/elgamal.ts` puts it into the first component and
multiplies `twistedH` by it.  Both write the two components one after the other.

* `Cli.decryptExhaustive_encrypt`, `Sdk.decrypt_encryptWithRandomness`: each client reads its own;
* `crossDecrypts_iff`: the CLI reads a ciphertext of the SDK only by accident.
-/

namespace Ghos

/-- A ciphertext as both clients keep it: two encoded points. -/
structure ElGamalCiphertext where
  c1 : List UInt8
  c2 : List UInt8
  deriving DecidableEq

variable {Point : Type} [Ristretto255 Point]

open Ristretto255

/-- The ciphertext with the points encoded. -/
def encodeCiphertext (ct : ElGamal.Ciphertext Point) : ElGamalCiphertext :=
  ⟨(encode ct.c1).toList, (encode ct.c2).toList⟩

/-! ### The CLI -/

namespace Cli

/-- A draw of `_random_scalar`. -/
structure RandomScalar where
  value : ℕ
  isScalar : IsScalar value

/-- The loop of `scalar_mul`, from the least significant bit of `k` on. -/
def scalarMulLoop (k : ℕ) (result base : Point) : Point :=
  if _hk : k = 0 then result
  else scalarMulLoop (k / 2) (if k % 2 = 1 then result + base else result) (base + base)
termination_by k

def scalarMul (p : Point) (k : ℤ) : Point := scalarMulLoop (reduceScalar k) 0 p

/-- Decode a 32-byte Ristretto255 string. -/
def ristrettoDecode (data : List UInt8) : Except Error Point := do
  throwUnless (data.length = 32)
    (.cryptoError s!"invalid ristretto encoding length: {data.length}")
  throwUnless (leNat data < fieldOrder)
    (.cryptoError "invalid ristretto encoding: non-canonical s")
  throwUnless (leNat data % 2 = 0) (.cryptoError "invalid ristretto encoding: s is negative")
  match decode data with
  | some p => return p
  | none => throw (.cryptoError "invalid ristretto encoding: not a valid point")

structure SecretKey where
  value : ℕ
  deriving DecidableEq

structure PublicKey where
  encoding : List UInt8
  deriving DecidableEq

/-- The scalar that blinds a ciphertext: a fresh one if none is given, or zero. -/
def ephemeral (fresh : RandomScalar) (randomness : Option ℤ) : ℕ :=
  let r := match randomness with
    | none => fresh.value
    | some randomness => reduceScalar randomness
  if r = 0 then fresh.value else r

variable (Point) in
/-- Encrypt a non-negative 64-bit integer amount under `pk`. -/
def encrypt (fresh : RandomScalar) (pk : PublicKey) (amount : ℤ) (randomness : Option ℤ) :
    Except Error ElGamalCiphertext := do
  throwUnless (0 ≤ amount) (.cryptoError s!"amount must be non-negative, got {amount}")
  throwUnless (amount / 2 ^ 64 = 0) (.cryptoError s!"amount must fit in 64 bits, got {amount}")
  let r := ephemeral fresh randomness
  let pkPoint : Point ← ristrettoDecode pk.encoding
  let c1Point := scalarMul (base : Point) r
  let amountPoint := scalarMul base amount
  let pkRPoint := scalarMul pkPoint r
  return encodeCiphertext ⟨c1Point, amountPoint + pkRPoint⟩

variable (Point) in
/-- Recover the amount in `ct` by brute-force discrete log up to `maxAmount`. -/
def decryptExhaustive [DecidableEq Point] (sk : SecretKey) (ct : ElGamalCiphertext)
    (maxAmount : ℤ) : Except Error ℕ := do
  throwUnless (0 ≤ maxAmount) (.cryptoError s!"max_amount must be non-negative, got {maxAmount}")
  let c1Point : Point ← ristrettoDecode ct.c1
  let c2Point ← ristrettoDecode ct.c2
  let maskPoint := scalarMul c1Point sk.value
  let targetPoint := c2Point + -maskPoint
  match DiscreteLog.scan base targetPoint maxAmount.toNat with
  | some m => return m
  | none => throw (.cryptoError s!"decrypt failed: amount exceeds max_amount={maxAmount}")

theorem scalarMulLoop_eq (k : ℕ) (result p : Point) :
    scalarMulLoop k result p = result + k • p := by
  induction k, result, p using scalarMulLoop.induct with
  | case1 result p => rw [scalarMulLoop, dif_pos rfl, zero_nsmul, add_zero]
  | case2 k result p hk ih =>
    simp only [dite_eq_ite] at ih
    rw [scalarMulLoop, dif_neg hk, ih, ← two_nsmul, ← mul_nsmul']
    split_ifs with hodd
    · rw [add_assoc, ← succ_nsmul', show k / 2 * 2 + 1 = k by omega]
    · rw [show k / 2 * 2 = k by omega]

theorem scalarMul_natCast (p : Point) (k : ℕ) : scalarMul p k = k • p := by
  rw [scalarMul, reduceScalar_natCast, scalarMulLoop_eq, zero_add, mod_nsmul]

theorem ristrettoDecode_encode (p : Point) : ristrettoDecode (encode p).toList = .ok p := by
  simp [ristrettoDecode, throwUnless, encode_lt, encode_even, decode_encode, bind, Except.bind,
    pure, Except.pure]

theorem ephemeral_none (fresh : RandomScalar) : ephemeral fresh none = fresh.value := by
  simp [ephemeral]

theorem ephemeral_some {r : ℕ} (fresh : RandomScalar) (hr : IsScalar r) :
    ephemeral fresh (some (r : ℤ)) = r := by
  simp [ephemeral, reduceScalar_of_lt hr.2, hr.1.ne']

variable {m s : ℕ}

/-- The CLI encrypts with the message in the second component. -/
theorem encrypt_encode (fresh : RandomScalar) (pk : Point) (hm : m < 2 ^ 64)
    (randomness : Option ℤ) :
    encrypt Point fresh ⟨(encode pk).toList⟩ m randomness = .ok (encodeCiphertext
      (ElGamal.plain base pk (m : ZMod curveOrder) (ephemeral fresh randomness))) := by
  have hfit : (m : ℤ) / 2 ^ 64 = 0 := by omega
  simp only [encrypt, throwUnless, Int.natCast_nonneg, hfit, if_true, ristrettoDecode_encode,
    scalarMul_natCast, ElGamal.plain, Nat.cast_smul_eq_nsmul, bind, Except.bind, pure, Except.pure]

variable [DecidableEq Point] {maxAmount : ℕ} {ct : ElGamal.Ciphertext Point}

/-- Decryption searches the logarithm of what the secret opens. -/
theorem decryptExhaustive_encode :
    decryptExhaustive Point ⟨s⟩ (encodeCiphertext ct) maxAmount =
      match DiscreteLog.scan base (ElGamal.openPlain (s : ZMod curveOrder) ct) maxAmount with
      | some m => .ok m
      | none => .error
        (.cryptoError s!"decrypt failed: amount exceeds max_amount={(maxAmount : ℤ)}") := by
  have htarget : ct.c2 + -(s • ct.c1) = ElGamal.openPlain (s : ZMod curveOrder) ct := by
    rw [ElGamal.openPlain, Nat.cast_smul_eq_nsmul, sub_eq_add_neg]
  simp only [decryptExhaustive, encodeCiphertext, throwUnless, Int.natCast_nonneg, if_true,
    ristrettoDecode_encode, scalarMul_natCast, htarget, Int.toNat_natCast, bind, Except.bind]
  rfl

/-- It decrypts accordingly. -/
theorem decryptExhaustive_eq_ok :
    decryptExhaustive Point ⟨s⟩ (encodeCiphertext ct) maxAmount = .ok m ↔
      DiscreteLog.IsLog base (ElGamal.openPlain (s : ZMod curveOrder) ct) (maxAmount + 1) m := by
  rw [decryptExhaustive_encode, ← DiscreteLog.scan_eq_some_iff]
  cases DiscreteLog.scan base (ElGamal.openPlain (s : ZMod curveOrder) ct) maxAmount <;> simp

/-- Below the order of the group, the message is the only multiplier. -/
theorem decryptExhaustive_eq_ok_iff (hm : m < curveOrder) (hmax : m ≤ maxAmount) :
    decryptExhaustive Point ⟨s⟩ (encodeCiphertext ct) maxAmount = .ok m ↔
      ElGamal.openPlain (s : ZMod curveOrder) ct = (m : ZMod curveOrder) • base := by
  rw [decryptExhaustive_eq_ok, Nat.cast_smul_eq_nsmul, eq_comm (a := ElGamal.openPlain _ _)]
  exact DiscreteLog.isLog_iff_of_lt (by rwa [addOrderOf_base]) (Nat.lt_succ_of_le hmax)

end Cli

/-! ### The SDK -/

namespace Sdk

/-- `SDK_ERROR_CODES.InvalidCiphertextLength`. -/
def invalidCiphertextLength : ℕ := 9012

/-- `SDK_ERROR_CODES.InvalidKeyDerivation`. -/
def invalidKeyDerivation : ℕ := 9017

def hPointDomain : List UInt8 := asciiBytes "ghos.elgamal.H.v1"

/-- Reduce an arbitrary 64-byte sha512 output, shorter ones padded. -/
def scalarFromUniform64 (bytes : List UInt8) : ℕ :=
  leNat (bytes ++ .replicate (64 - bytes.length) 0) % curveOrder

/-- Reduce a 32-byte little-endian input to a scalar. -/
def scalarFromLE32 (bytes : List UInt8) : Except SdkError ℕ := do
  throwUnless (bytes.length = 32)
    (.ghosSdkError invalidInput s!"scalar must be 32 bytes, got {bytes.length}")
  return leNat bytes % curveOrder

/-- Encode a scalar as 32 bytes little-endian. -/
def scalarToLE32 (scalar : ℤ) : List UInt8 := leBytes 32 (reduceScalar scalar)

/-- The multiplication of the package, which refuses scalars out of range. -/
def multiply (p : Point) (scalar : ℕ) : Except SdkError Point := do
  throwUnless (0 < scalar ∧ scalar < curveOrder) (.error (multiplyError Point scalar))
  return scalar • p

/-- Decode a 32-byte Ristretto255 compressed point. -/
def pointFromBytes (bytes : List UInt8) : Except SdkError Point := do
  throwUnless (bytes.length = 32)
    (.ghosSdkError invalidInput s!"Ristretto point must be 32 bytes, got {bytes.length}")
  match decode bytes with
  | some p => return p
  | none => throw (.ghosSdkError invalidCiphertextLength "invalid Ristretto point encoding")

/-- A byte in hexadecimal. -/
def hexByte (b : UInt8) : List Char :=
  (if b < 16 then ['0'] else []) ++ Nat.toDigits 16 b.toNat

/-- Hex-compress a Ristretto point for use as a Map key. -/
def hexCompress (bytes : List UInt8) : String := .ofList (bytes.flatMap hexByte)

/-- Modular inverse, using the extended Euclidean algorithm. -/
def invMod (a : ℤ) (n : ℕ) : Except SdkError ℕ := do
  let aMod := (a % n).toNat
  throwUnless (aMod ≠ 0) (.ghosSdkError invalidKeyDerivation "cannot invert zero scalar")
  return (Modular.bezoutLoop aMod n 1 0 % n).toNat

section Hash

variable (sha512 : List UInt8 → Vector UInt8 64)

/-- The scalar of `twistedH`. -/
def twistedScalar : ℕ :=
  let scalar := scalarFromUniform64 (sha512 hPointDomain).toList
  if scalar = 0 then 1 else scalar

/-- The second generator. -/
def twistedH : Except SdkError Point := multiply base (twistedScalar sha512)

/-- Multiply the Ristretto255 base point by a scalar. -/
def multBaseG (scalar : ℤ) : Except SdkError Point :=
  let s := reduceScalar scalar
  if s = 0 then return 0 else multiply base s

/-- Multiply the second generator by a scalar. -/
def multH (scalar : ℤ) : Except SdkError Point :=
  let s := reduceScalar scalar
  if s = 0 then return 0 else do multiply (← twistedH sha512) s

variable (Point) in
/-- Encrypt using caller-supplied randomness. -/
def encryptWithRandomness (pk : List UInt8) (m r : ℤ) : Except SdkError ElGamalCiphertext := do
  let pkPoint : Point ← pointFromBytes pk
  let rScalar := reduceScalar r
  throwUnless (rScalar ≠ 0) (.ghosSdkError invalidInput
    "ephemeral randomness must be non-zero for twisted ElGamal")
  -- the source repeats the body of `multH`
  let mH : Point ← multH sha512 m
  let rG ← multiply base rScalar
  let c2 ← multiply pkPoint rScalar
  return encodeCiphertext ⟨mH + rG, c2⟩

/-- Discrete log over `twistedH`, using baby-step giant-step. -/
def discreteLogOnH (target : Point) (maxBalance step : ℤ) : Except SdkError (Option ℕ) :=
  if maxBalance < 0 then return none
  else do
    throwUnless (0 < step) (.ghosSdkError invalidInput "BSGS step must be positive")
    let h : Point ← twistedH sha512
    let key := fun p : Point => hexCompress (encode p).toList
    let table := DiscreteLog.babyTable key h step.toNat
    let giantFactor ← multiply h step.toNat
    let giantRounds := DiscreteLog.giantRounds step.toNat maxBalance.toNat
    return DiscreteLog.giantLoop key table (-giantFactor) step.toNat maxBalance.toNat
      (giantRounds + 1) 0 target

/-- The options of `decrypt`. -/
structure DecryptOptions where
  maxBalance : Option ℤ := none
  bsgsStep : Option ℤ := none

variable (Point) in
/-- Decrypt the ciphertext if the plaintext lies in `[0, maxBalance]`. -/
def decrypt (sk : List UInt8) (ciphertext : ElGamalCiphertext) (opts : DecryptOptions) :
    Except SdkError (Option ℕ) := do
  let skScalar ← scalarFromLE32 sk
  let c1 : Point ← pointFromBytes ciphertext.c1
  let c2 ← pointFromBytes ciphertext.c2
  let skInv ← invMod skScalar curveOrder
  let blinding ← multiply c2 skInv
  discreteLogOnH sha512 (c1 - blinding) (opts.maxBalance.getD (2 ^ 32)) (opts.bsgsStep.getD 1024)

end Hash

theorem multiply_eq_ok {p : Point} {k : ℕ} (hk : IsScalar k) : multiply p k = .ok (k • p) := by
  rw [multiply, throwUnless, if_pos ⟨hk.1, hk.2⟩]
  rfl

theorem pointFromBytes_encode (p : Point) : pointFromBytes (encode p).toList = .ok p := by
  simp [pointFromBytes, throwUnless, decode_encode, bind, Except.bind, pure, Except.pure]

theorem digitChar_inj : ∀ i < 16, ∀ j < 16, Nat.digitChar i = Nat.digitChar j → i = j := by
  decide

theorem hexByte_eq (b : UInt8) :
    hexByte b = [Nat.digitChar (b.toNat / 16), Nat.digitChar (b.toNat % 16)] := by
  have hb := b.toNat_lt
  unfold hexByte
  split_ifs with hsmall
  · have hsmall : b.toNat < 16 := hsmall
    rw [Nat.toDigits_of_lt_base hsmall, Nat.div_eq_of_lt hsmall, Nat.mod_eq_of_lt hsmall]
    rfl
  · have hlarge : 16 ≤ b.toNat := not_lt.1 hsmall
    rw [Nat.toDigits_of_base_le (by omega) hlarge, Nat.toDigits_of_lt_base (by omega)]
    rfl

theorem hexByte_injective : Function.Injective hexByte := by
  intro b c h
  rw [hexByte_eq, hexByte_eq, List.cons.injEq, List.cons.injEq] at h
  have hb := b.toNat_lt
  have hc := c.toNat_lt
  have hhigh := digitChar_inj _ (by omega) _ (by omega) h.1
  have hlow := digitChar_inj _ (by omega) _ (by omega) h.2.1
  exact UInt8.toNat_inj.1 (by omega)

/-- The keys of the table tell the points apart. -/
theorem hexCompress_injective : Function.Injective hexCompress := by
  intro l m h
  replace h : l.flatMap hexByte = m.flatMap hexByte := String.ofList_injective h
  induction l generalizing m with
  | nil => cases m with
    | nil => rfl
    | cons c m => simp [hexByte_eq] at h
  | cons b l ih => cases m with
    | nil => simp [hexByte_eq] at h
    | cons c m =>
      have hlen : (hexByte b).length = (hexByte c).length := by rw [hexByte_eq, hexByte_eq]; rfl
      rw [List.flatMap_cons, List.flatMap_cons] at h
      obtain ⟨hfirst, hrest⟩ := List.append_inj h hlen
      rw [hexByte_injective hfirst, ih hrest]

variable {sha512 : List UInt8 → Vector UInt8 64}

theorem twistedScalar_isScalar (sha512 : List UInt8 → Vector UInt8 64) :
    IsScalar (twistedScalar sha512) := by
  simp only [twistedScalar]
  split_ifs with h
  · exact ⟨Nat.one_pos, prime_curveOrder.one_lt⟩
  · exact ⟨Nat.pos_of_ne_zero h, Nat.mod_lt _ curveOrder_pos⟩

theorem twistedH_eq : twistedH sha512 = .ok (twistedScalar sha512 • (base : Point)) :=
  multiply_eq_ok (twistedScalar_isScalar sha512)

theorem multBaseG_eq (scalar : ℤ) :
    multBaseG scalar = .ok ((scalar : ZMod curveOrder) • (base : Point)) := by
  rw [← cast_reduceScalar]
  simp only [multBaseG]
  split_ifs with hzero
  · rw [hzero, Nat.cast_zero, zero_smul]
    rfl
  · rw [Nat.cast_smul_eq_nsmul]
    exact multiply_eq_ok ⟨Nat.pos_of_ne_zero hzero, reduceScalar_lt scalar⟩

theorem multH_eq (scalar : ℤ) : multH sha512 scalar =
    .ok ((scalar : ZMod curveOrder) • (twistedScalar sha512 : ZMod curveOrder) •
      (base : Point)) := by
  rw [← cast_reduceScalar]
  simp only [multH]
  split_ifs with hzero
  · rw [hzero, Nat.cast_zero, zero_smul]
    rfl
  · rw [twistedH_eq, Nat.cast_smul_eq_nsmul, Nat.cast_smul_eq_nsmul]
    exact multiply_eq_ok ⟨Nat.pos_of_ne_zero hzero, reduceScalar_lt scalar⟩

theorem scalarFromLE32_scalarToLE32 {s : ℕ} (hs : s < curveOrder) :
    scalarFromLE32 (scalarToLE32 s) = .ok s := by
  have hbytes : s < 256 ^ 32 := hs.trans curveOrder_lt
  rw [scalarFromLE32, scalarToLE32, reduceScalar_of_lt hs, length_leBytes,
    leNat_leBytes_of_lt hbytes, Nat.mod_eq_of_lt hs, throwUnless, if_pos rfl]
  rfl

section Inverse

variable {n x : ℕ} {a : ℤ}

/-- An inverse in `1 .. n - 1`. -/
structure IsInverse (n : ℕ) (a : ℤ) (x : ℕ) : Prop where
  one_le : 1 ≤ x
  le_pred : x ≤ n - 1
  mul : a * x ≡ 1 [ZMOD n]

theorem IsInverse.cast_mul (h : IsInverse n a x) : (a : ZMod n) * x = 1 := by
  have hmul := (ZMod.intCast_eq_intCast_iff _ _ n).2 h.mul
  exact_mod_cast hmul

/-- The inverse in the field, as a number in range. -/
theorem isInverse_of_cast (hn : n.Prime) (hlt : x < n) (hmul : (a : ZMod n) * x = 1) :
    IsInverse n a x := by
  have : Fact n.Prime := ⟨hn⟩
  refine ⟨Nat.pos_of_ne_zero ?_, by omega, ?_⟩
  · rintro rfl
    rw [Nat.cast_zero, mul_zero] at hmul
    exact zero_ne_one hmul
  · rw [← ZMod.intCast_eq_intCast_iff]
    exact_mod_cast hmul

/-- The residue that both functions compute first. -/
theorem cast_toNat_emod (hn : 0 < n) (a : ℤ) : (((a % n).toNat : ℕ) : ZMod n) = a := by
  rw [← Int.cast_natCast, Int.toNat_of_nonneg (Int.emod_nonneg _ (by omega)), ZMod.intCast_mod]

theorem toNat_emod_eq_zero_iff (hn : 0 < n) : (a % n).toNat = 0 ↔ (n : ℤ) ∣ a := by
  have hnonneg := Int.emod_nonneg a (b := n) (by omega)
  rw [Int.dvd_iff_emod_eq_zero]
  omega

theorem exists_invMod_isInverse (hn : n.Prime) (h : ¬ (n : ℤ) ∣ a) :
    ∃ x, invMod a n = .ok x ∧ IsInverse n a x := by
  have hne : (a % n).toNat ≠ 0 := mt (toNat_emod_eq_zero_iff hn.pos).1 h
  have hlt : (a % n).toNat < n := by
    have hlt := Int.emod_lt_of_pos a (Int.natCast_pos.2 hn.pos)
    omega
  have hcoprime : Nat.Coprime (a % n).toNat n := (Nat.coprime_of_lt_prime hne hlt hn).symm
  have hmul := Modular.mul_modInverse hn.pos hcoprime
  rw [cast_toNat_emod hn.pos] at hmul
  refine ⟨Modular.modInverse (a % n).toNat n, ?_,
    isInverse_of_cast hn (Modular.modInverse_lt hn.pos) hmul⟩
  rw [invMod, throwUnless, if_pos hne, Modular.modInverse, Nat.mod_eq_of_lt hlt]
  rfl

/-- The inverse of a scalar, in range and not zero. -/
theorem exists_invMod {s : ℕ} (hs : IsScalar s) :
    ∃ skInv, invMod s curveOrder = .ok skInv ∧ IsScalar skInv ∧
      (skInv : ZMod curveOrder) = (s : ZMod curveOrder)⁻¹ := by
  have hdvd : ¬ (curveOrder : ℤ) ∣ s := fun h =>
    Nat.not_dvd_of_pos_of_lt hs.1 hs.2 (Int.natCast_dvd_natCast.1 h)
  obtain ⟨skInv, hinv, hinverse⟩ := exists_invMod_isInverse prime_curveOrder hdvd
  have hpos := curveOrder_pos
  have hle := hinverse.le_pred
  have hone : (s : ZMod curveOrder) * skInv = 1 := by exact_mod_cast hinverse.cast_mul
  exact ⟨skInv, hinv, ⟨hinverse.one_le, by omega⟩, eq_inv_of_mul_eq_one_right hone⟩

end Inverse

/-- The SDK encrypts with the message in the first component. -/
theorem encryptWithRandomness_eq (sha512 : List UInt8 → Vector UInt8 64) {pk : List UInt8}
    {pkPoint : Point} (hpk : pointFromBytes pk = .ok pkPoint) (m : ℤ) {r : ℤ}
    (hr : reduceScalar r ≠ 0) :
    encryptWithRandomness Point sha512 pk m r = .ok (encodeCiphertext
      (ElGamal.twisted base ((twistedScalar sha512 : ZMod curveOrder) • base) pkPoint
        (m : ZMod curveOrder) (r : ZMod curveOrder))) := by
  have hscalar : IsScalar (reduceScalar r) := ⟨Nat.pos_of_ne_zero hr, reduceScalar_lt r⟩
  rw [← cast_reduceScalar r]
  simp only [encryptWithRandomness, hpk, throwUnless, hr, multH_eq, multiply_eq_ok hscalar,
    ElGamal.twisted, Nat.cast_smul_eq_nsmul, ne_eq, not_false_eq_true, if_true, bind, Except.bind,
    pure, Except.pure]

theorem encryptWithRandomness_encode (sha512 : List UInt8 → Vector UInt8 64) (pk : Point) (m : ℤ)
    {r : ℕ} (hr : IsScalar r) :
    encryptWithRandomness Point sha512 (encode pk).toList m r = .ok (encodeCiphertext
      (ElGamal.twisted base ((twistedScalar sha512 : ZMod curveOrder) • base) pk
        (m : ZMod curveOrder) (r : ZMod curveOrder))) := by
  have hne : reduceScalar (r : ℤ) ≠ 0 := by
    rw [reduceScalar_of_lt hr.2]
    exact hr.1.ne'
  rw [encryptWithRandomness_eq sha512 (pointFromBytes_encode pk) m hne, Int.cast_natCast]

/-- The search of the SDK is baby-step giant-step. -/
theorem discreteLogOnH_eq {target : Point} {maxBalance step : ℕ} (hstep : IsScalar step) :
    discreteLogOnH sha512 target maxBalance step = .ok (DiscreteLog.bsgs
      (fun p : Point => hexCompress (encode p).toList) (twistedScalar sha512 • base) target step
      maxBalance) := by
  have hnonneg : ¬ (maxBalance : ℤ) < 0 := by omega
  have hpositive : (0 : ℤ) < step := Int.natCast_pos.2 hstep.1
  simp only [discreteLogOnH, if_neg hnonneg, throwUnless, if_pos hpositive, twistedH_eq,
    Int.toNat_natCast, multiply_eq_ok hstep, bind, Except.bind, pure, Except.pure]
  rfl

variable {s m maxBalance : ℕ} {ct : ElGamal.Ciphertext Point}

/-- Decryption searches the logarithm of what the secret opens. -/
theorem decrypt_encodeCiphertext {sk : List UInt8} (hsk : scalarFromLE32 sk = .ok s)
    (hs : IsScalar s) (opts : DecryptOptions) :
    decrypt Point sha512 sk (encodeCiphertext ct) opts =
      discreteLogOnH sha512 (ElGamal.openTwisted (s : ZMod curveOrder) ct)
        (opts.maxBalance.getD (2 ^ 32)) (opts.bsgsStep.getD 1024) := by
  obtain ⟨skInv, hinv, hinvScalar, hcast⟩ := exists_invMod hs
  have htarget : ct.c1 - skInv • ct.c2 = ElGamal.openTwisted (s : ZMod curveOrder) ct := by
    rw [ElGamal.openTwisted, ← hcast, Nat.cast_smul_eq_nsmul]
  rw [← htarget]
  simp only [decrypt, hsk, encodeCiphertext, pointFromBytes_encode, hinv, multiply_eq_ok hinvScalar,
    bind, Except.bind]

theorem hexKey_injective : Function.Injective fun p : Point => hexCompress (encode p).toList :=
  hexCompress_injective.comp encode_injective

/-- It decrypts accordingly. -/
theorem decrypt_eq_ok (hs : IsScalar s) :
    decrypt Point sha512 (scalarToLE32 s) (encodeCiphertext ct) { maxBalance := some maxBalance } =
        .ok (some m) ↔
      DiscreteLog.IsLog (twistedScalar sha512 • base)
        (ElGamal.openTwisted (s : ZMod curveOrder) ct) (maxBalance + 1) m := by
  have hstep : IsScalar 1024 := ⟨by omega, by decide +kernel⟩
  have hsearch : discreteLogOnH sha512 (ElGamal.openTwisted (s : ZMod curveOrder) ct) maxBalance
      (1024 : ℕ) = _ := discreteLogOnH_eq hstep
  rw [← DiscreteLog.bsgs_eq_some_iff hexKey_injective hstep.1,
    decrypt_encodeCiphertext (scalarFromLE32_scalarToLE32 hs.2) hs]
  simp only [Option.getD_some, Option.getD_none]
  rw [← Nat.cast_ofNat (n := 1024), hsearch, Except.ok.injEq]

end Sdk

/-! ### One client after the other -/

theorem two_pow_64_lt : 2 ^ 64 < curveOrder := by decide +kernel

variable (Point) in
/-- The public key of a secret scalar. -/
def publicKey (s : ℕ) : List UInt8 := (encode (s • (base : Point))).toList

section Crossing

variable {sha512 : List UInt8 → Vector UInt8 64} {s r m max : ℕ}

theorem publicKey_eq (s : ℕ) :
    publicKey Point s = (encode ((s : ZMod curveOrder) • (base : Point))).toList := by
  rw [publicKey, Nat.cast_smul_eq_nsmul]

/-- The CLI decrypts its own ciphertexts. -/
theorem Cli.decryptExhaustive_encrypt [DecidableEq Point] (fresh : Cli.RandomScalar)
    (hr : IsScalar r) (hm : m < 2 ^ 64) (hmax : m ≤ max) :
    ∃ ct, Cli.encrypt Point fresh ⟨publicKey Point s⟩ m (some r) = .ok ct ∧
      Cli.decryptExhaustive Point ⟨s⟩ ct max = .ok m := by
  rw [publicKey_eq]
  refine ⟨_, Cli.encrypt_encode fresh _ hm _, ?_⟩
  rw [Cli.decryptExhaustive_eq_ok_iff (hm.trans two_pow_64_lt) hmax, Cli.ephemeral_some fresh hr]
  exact (ElGamal.openPlain_plain_eq_iff base_ne_zero hr.cast_ne_zero).2 rfl

theorem Sdk.decrypt_eq_ok_iff (hs : IsScalar s) (hm : m < curveOrder) (hmax : m ≤ max)
    {ct : ElGamal.Ciphertext Point} :
    Sdk.decrypt Point sha512 (Sdk.scalarToLE32 s) (encodeCiphertext ct)
        { maxBalance := some (max : ℤ) } = .ok (some m) ↔
      ElGamal.openTwisted (s : ZMod curveOrder) ct =
        (m : ZMod curveOrder) • (Sdk.twistedScalar sha512 : ZMod curveOrder) • base := by
  have hH : Sdk.twistedScalar sha512 • (base : Point) ≠ 0 :=
    nsmul_base_ne_zero (Sdk.twistedScalar_isScalar sha512)
  rw [Sdk.decrypt_eq_ok hs, Nat.cast_smul_eq_nsmul, Nat.cast_smul_eq_nsmul,
    eq_comm (a := ElGamal.openTwisted _ _)]
  exact DiscreteLog.isLog_iff_of_lt (by rwa [addOrderOf_of_ne_zero hH]) (Nat.lt_succ_of_le hmax)

/-- The SDK decrypts its own ciphertexts. -/
theorem Sdk.decrypt_encryptWithRandomness (hs : IsScalar s) (hr : IsScalar r) (hm : m < curveOrder)
    (hmax : m ≤ max) :
    ∃ ct, Sdk.encryptWithRandomness Point sha512 (publicKey Point s) m r = .ok ct ∧
      Sdk.decrypt Point sha512 (Sdk.scalarToLE32 s) ct { maxBalance := some (max : ℤ) } =
        .ok (some m) := by
  rw [publicKey_eq]
  refine ⟨_, Sdk.encryptWithRandomness_encode sha512 _ _ hr, ?_⟩
  rw [Sdk.decrypt_eq_ok_iff hs hm hmax, ElGamal.openTwisted_twisted hs.cast_ne_zero,
    Int.cast_natCast]

/-- Each client decrypts to `m` what the other one has encrypted with randomness `r` under the key
of `s`. -/
structure CrossDecrypts (Point : Type) [Ristretto255 Point] [DecidableEq Point]
    (sha512 : List UInt8 → Vector UInt8 64) (s m r maxBalance : ℕ) : Prop where
  cliToSdk : ∀ fresh, ∃ ct,
    Cli.encrypt Point fresh ⟨publicKey Point s⟩ m (some r) = .ok ct ∧
      Sdk.decrypt Point sha512 (Sdk.scalarToLE32 s) ct { maxBalance := some (maxBalance : ℤ) } =
        .ok (some m)
  sdkToCli : ∃ ct,
    Sdk.encryptWithRandomness Point sha512 (publicKey Point s) m r = .ok ct ∧
      Cli.decryptExhaustive Point ⟨s⟩ ct maxBalance = .ok m

/-- The two schemes meet: there is nothing to decrypt, or the secret is the negative inverse of the
scalar of `twistedH`. -/
theorem schemes_meet_iff (hm : m < 2 ^ 64) :
    ((m : ZMod curveOrder) = 0 ∨ (s : ZMod curveOrder) * Sdk.twistedScalar sha512 = -1) ↔
      m = 0 ∨ curveOrder ∣ s * Sdk.twistedScalar sha512 + 1 := by
  rw [natCast_eq_zero_iff_of_lt (hm.trans two_pow_64_lt), eq_neg_iff_add_eq_zero,
    ← ZMod.natCast_eq_zero_iff, Nat.cast_add, Nat.cast_mul, Nat.cast_one]

theorem cliToSdk_iff (fresh : Cli.RandomScalar) (hs : IsScalar s) (hr : IsScalar r)
    (hm : m < 2 ^ 64) (hmax : m ≤ max) :
    (∃ ct, Cli.encrypt Point fresh ⟨publicKey Point s⟩ m (some r) = .ok ct ∧
      Sdk.decrypt Point sha512 (Sdk.scalarToLE32 s) ct { maxBalance := some (max : ℤ) } =
        .ok (some m)) ↔ m = 0 ∨ curveOrder ∣ s * Sdk.twistedScalar sha512 + 1 := by
  have hencrypt := Cli.encrypt_encode fresh ((s : ZMod curveOrder) • (base : Point)) hm (some r)
  rw [Cli.ephemeral_some fresh hr] at hencrypt
  simp only [publicKey_eq, hencrypt, Except.ok.injEq, exists_eq_left']
  rw [Sdk.decrypt_eq_ok_iff hs (hm.trans two_pow_64_lt) hmax,
    ElGamal.openTwisted_plain_eq_iff base_ne_zero hs.cast_ne_zero, schemes_meet_iff hm]

theorem sdkToCli_iff [DecidableEq Point] (hr : IsScalar r) (hm : m < 2 ^ 64) (hmax : m ≤ max) :
    (∃ ct, Sdk.encryptWithRandomness Point sha512 (publicKey Point s) m r = .ok ct ∧
      Cli.decryptExhaustive Point ⟨s⟩ ct max = .ok m) ↔
      m = 0 ∨ curveOrder ∣ s * Sdk.twistedScalar sha512 + 1 := by
  have hencrypt := Sdk.encryptWithRandomness_encode sha512
    ((s : ZMod curveOrder) • (base : Point)) m hr
  simp only [publicKey_eq, hencrypt, Except.ok.injEq, exists_eq_left']
  rw [Cli.decryptExhaustive_eq_ok_iff (hm.trans two_pow_64_lt) hmax, Int.cast_natCast,
    ElGamal.openPlain_twisted_eq_iff base_ne_zero, schemes_meet_iff hm]

/-- The clients decrypt one another's ciphertexts only if the amount is zero, or the secret is the
one that makes the two schemes one. -/
theorem crossDecrypts_iff [DecidableEq Point] (sha512 : List UInt8 → Vector UInt8 64)
    (hs : IsScalar s) (hr : IsScalar r) (hm : m < 2 ^ 64) (hmax : m ≤ max) :
    CrossDecrypts Point sha512 s m r max ↔
      m = 0 ∨ curveOrder ∣ s * Sdk.twistedScalar sha512 + 1 := by
  constructor
  · intro h
    exact (sdkToCli_iff hr hm hmax).1 h.sdkToCli
  · intro h
    exact ⟨fun fresh => (cliToSdk_iff fresh hs hr hm hmax).2 h, (sdkToCli_iff hr hm hmax).2 h⟩

/-! ### A concrete hash -/

/-- The hash that has the given digests, and zeros elsewhere. -/
def tabulatedHash (digests : List (List UInt8 × ℕ)) (b : List UInt8) : Vector UInt8 64 :=
  ⟨(leBytes 64 ((digests.lookup b).getD 0)).toArray, by simp [length_leBytes]⟩

/-- Sha512 where `twistedH` asks it. -/
def Sample.twistedHash : List UInt8 → Vector UInt8 64 :=
  tabulatedHash [(Sdk.hPointDomain,
    0x834fb28ad729e4d36ba5d7194d93653cada21dfdc6ad2149423f2b1292c54988 * 2 ^ 256 +
    0x645bab7fb084570133fd207af57a9f6644a718ccdf7437115928e3b0b186730e)]

/-- A base unit under the key `1`. -/
theorem crossDecrypts_iff_sample :
    IsScalar 1 ∧ 1 < 2 ^ 64 ∧
      (CrossDecrypts (ZMod curveOrder) Sample.twistedHash 1 1 1 1 ↔
        1 = 0 ∨ curveOrder ∣ 1 * Sdk.twistedScalar Sample.twistedHash + 1) :=
  ⟨isScalar_one, by decide,
    crossDecrypts_iff Sample.twistedHash isScalar_one isScalar_one (by decide) le_rfl⟩

/-- The base unit is lost on the other client. -/
theorem not_crossDecrypts : ¬ CrossDecrypts (ZMod curveOrder) Sample.twistedHash 1 1 1 1 := by
  intro h
  have hmeet := (sdkToCli_iff isScalar_one (by decide) le_rfl).1 h.sdkToCli
  rcases hmeet with hzero | hdvd
  · exact absurd hzero one_ne_zero
  · exact absurd hdvd (by decide +kernel)

end Crossing

end Ghos
