import Ghos.Client.ElGamal

/-!
# ElGamal keys of a wallet

`cli/ghos_cli/crypto/keys.py` hashes the seed of a wallet together with a context;
`sdk/src/crypto/keys.ts` signs a challenge with the seed and hashes the signature.  Both hash the
outcome once more, and reduce it to a scalar in their own ways.

The last hash of the CLI is over 64 bytes, that of the SDK over 32.  So the two scalars have nothing
to do with one another (`identities_independent`), for any seed and any mint.
-/

namespace Ghos

variable {Point : Type} [Ristretto255 Point]

open Ristretto255

/-! ### The CLI -/

namespace Cli

/-- A `KeypairError` with its message, or Python's own `OverflowError`. -/
inductive KeyError
  | keypairError (message : String)
  | overflowError (message : String)
  deriving DecidableEq

/-- What a call draws from the operating system. -/
structure Entropy where
  scalar : RandomScalar
  urandom : Vector UInt8 64

/-- The draws of a generator that is stuck at one byte. -/
def Entropy.stuck (b : UInt8) : Entropy := ⟨⟨1, isScalar_one⟩, .replicate 64 b⟩

structure ElGamalKeypair where
  secret : SecretKey
  publicKey : PublicKey
  deriving DecidableEq

def elgamalDomain : List UInt8 := asciiBytes "ghos.elgamal.derive.v1"

/-- Reduce a byte string into a scalar. -/
def reduceScalarFromBytes (data : List UInt8) : ℕ := leNat data % curveOrder

section Hash

variable (sha512 : List UInt8 → Vector UInt8 64)

/-- The secret scalar of `keygen`: zero is replaced. -/
def keygenScalar (entropy : Entropy) (seed : Option (List UInt8)) : ℕ :=
  let scalar := match seed with
    | none => entropy.scalar.value
    | some seed => reduceScalarFromBytes (sha512 seed).toList
  if scalar = 0 then reduceScalarFromBytes entropy.urandom.toList else scalar

variable (Point) in
/-- Generate an ElGamal keypair, a fresh one without a seed. -/
def keygen (entropy : Entropy) (seed : Option (List UInt8)) : ElGamalKeypair :=
  let scalar := keygenScalar sha512 entropy seed
  let pubPoint := scalarMul (base : Point) scalar
  ⟨⟨scalar⟩, ⟨(encode pubPoint).toList⟩⟩

/-- The context with its length, as the hasher gets it. -/
def encodeContext : Option (List UInt8) → Except KeyError (List UInt8)
  | some context => do
    throwUnless (context.length < 2 ^ 16) (.overflowError "int too big to convert")
    return lengthPrefixed context
  | none => return leBytes 2 0

variable (Point) in
/-- Derive a deterministic ElGamal keypair from a Solana signer. -/
def deriveElgamalFromSigner (entropy : Entropy) (signerBytes : List UInt8)
    (context : Option (List UInt8)) : Except KeyError ElGamalKeypair := do
  throwUnless (32 ≤ signerBytes.length)
    (.keypairError s!"signer_bytes must be at least 32 bytes, got {signerBytes.length}")
  let seed := signerBytes.take 32
  let contextBytes ← encodeContext context
  let digest := sha512 (elgamalDomain ++ contextBytes ++ seed)
  return keygen Point sha512 entropy (some digest.toList)

/-- The string under the first hash, with a context. -/
def contextTranscript (context seed : List UInt8) : List UInt8 :=
  elgamalDomain ++ lengthPrefixed context ++ seed

/-- The scalar in the digest of the digest of a string. -/
def digestScalar (transcript : List UInt8) : ℕ :=
  reduceScalarFromBytes (sha512 (sha512 transcript).toList).toList

/-- The scalar of a context and a seed. -/
def contextScalar (context seed : List UInt8) : ℕ :=
  digestScalar sha512 (contextTranscript context seed)

/-- The secret scalar under a context: zero is replaced. -/
def secretScalar (entropy : Entropy) (context seed : List UInt8) : ℕ :=
  if contextScalar sha512 context seed = 0 then reduceScalarFromBytes entropy.urandom.toList
  else contextScalar sha512 context seed

variable (Point) in
/-- The keypair of a secret scalar. -/
def keypairOf (scalar : ℕ) : ElGamalKeypair := ⟨⟨scalar⟩, ⟨publicKey Point scalar⟩⟩

end Hash

variable {sha512 : List UInt8 → Vector UInt8 64} {entropy : Entropy}
  {signerBytes context : List UInt8}

theorem keygen_eq (seed : Option (List UInt8)) :
    keygen Point sha512 entropy seed = keypairOf Point (keygenScalar sha512 entropy seed) := by
  simp only [keygen, keypairOf, scalarMul_natCast, publicKey]

theorem keygenScalar_of_ne_zero {seed : List UInt8}
    (h : leNat (sha512 seed).toList % curveOrder ≠ 0) :
    keygenScalar sha512 entropy (some seed) = leNat (sha512 seed).toList % curveOrder := by
  simp only [keygenScalar, reduceScalarFromBytes]
  exact if_neg h

theorem deriveElgamalFromSigner_none (hsigner : 32 ≤ signerBytes.length) :
    deriveElgamalFromSigner Point sha512 entropy signerBytes none = .ok (keygen Point sha512 entropy
      (some (sha512 (elgamalDomain ++ leBytes 2 0 ++ signerBytes.take 32)).toList)) := by
  rw [deriveElgamalFromSigner, throwUnless, if_pos hsigner]
  rfl

theorem deriveElgamalFromSigner_some (hsigner : 32 ≤ signerBytes.length)
    (hcontext : context.length < 2 ^ 16) :
    deriveElgamalFromSigner Point sha512 entropy signerBytes (some context) =
      .ok (keygen Point sha512 entropy (some (sha512 (elgamalDomain ++ lengthPrefixed context ++
        signerBytes.take 32)).toList)) := by
  rw [deriveElgamalFromSigner, throwUnless, if_pos hsigner, encodeContext, throwUnless,
    if_pos hcontext]
  rfl

theorem keygenScalar_lt (sha512 : List UInt8 → Vector UInt8 64) (entropy : Entropy)
    (seed : Option (List UInt8)) : keygenScalar sha512 entropy seed < curveOrder := by
  have hscalar := entropy.scalar.isScalar.2
  have hmod : ∀ data, reduceScalarFromBytes data < curveOrder := fun _ =>
    Nat.mod_lt _ curveOrder_pos
  simp only [keygenScalar]
  split_ifs
  · exact hmod _
  · cases seed with
    | none => exact hscalar
    | some seed => exact hmod _

theorem deriveElgamalFromSigner_secret_lt {context : Option (List UInt8)} {keypair : ElGamalKeypair}
    (h : deriveElgamalFromSigner Point sha512 entropy signerBytes context = .ok keypair) :
    keypair.secret.value < curveOrder := by
  rw [deriveElgamalFromSigner, throwUnless_bind_eq_ok, except_bind_eq_ok] at h
  obtain ⟨-, contextBytes, -, hkeygen⟩ := h
  cases hkeygen
  simp only [keygen_eq, keypairOf, keygenScalar_lt]

/-- Under a context, only the first 32 bytes of the signer count. -/
theorem deriveElgamalFromSigner_eq_keypairOf (hsigner : 32 ≤ signerBytes.length)
    (hcontext : context.length < 2 ^ 16) :
    deriveElgamalFromSigner Point sha512 entropy signerBytes (some context) =
      .ok (keypairOf Point (secretScalar sha512 entropy context (signerBytes.take 32))) := by
  rw [deriveElgamalFromSigner_some hsigner hcontext, keygen_eq]
  rfl

theorem secretScalar_lt (sha512 : List UInt8 → Vector UInt8 64) (entropy : Entropy)
    (context seed : List UInt8) : secretScalar sha512 entropy context seed < curveOrder := by
  unfold secretScalar
  split_ifs <;> exact Nat.mod_lt _ curveOrder_pos

end Cli

/-! ### The SDK -/

/-- Signing with Ed25519, from a seed of 32 bytes. -/
structure Ed25519 where
  getPublicKey : List UInt8 → Vector UInt8 32
  /-- Sign a message with a seed. -/
  sign : List UInt8 → List UInt8 → Vector UInt8 64

namespace Sdk

/-- `SDK_ERROR_CODES.InvalidSigner`. -/
def invalidSigner : ℕ := 9010

def elgamalDerivationDomain : List UInt8 := asciiBytes "ghos.elgamal.v1"

def ownerDerivationChallenge : List UInt8 := asciiBytes "ghos.owner.challenge.v1"

structure ElGamalKeyPair where
  publicKey : List UInt8
  secretKey : List UInt8
  deriving DecidableEq

/-- The convention of ed25519 for a private key. -/
def clamp (scalarBytes : List UInt8) : List UInt8 :=
  let scalarBytes := scalarBytes.set 0 (scalarBytes.getD 0 0 &&& 248)
  let scalarBytes := scalarBytes.set 31 (scalarBytes.getD 31 0 &&& 127)
  scalarBytes.set 31 (scalarBytes.getD 31 0 ||| 64)

/-- The options of a derivation: a mint, and a domain in bytes. -/
structure DerivationOptions where
  mint : Option (Vector UInt8 32) := none
  domain : Option (List UInt8) := none

/-- The secret key of a wallet as the SDK has it: the seed, then the public key. -/
def walletSecretKey (ed25519 : Ed25519) (seed : List UInt8) : List UInt8 :=
  seed ++ (ed25519.getPublicKey seed).toList

/-- Sign the challenge with a signer. -/
def signGhosChallenge (ed25519 : Ed25519) (secret : List UInt8) : Except SdkError (List UInt8) := do
  throwUnless (secret.length = 64 ∨ secret.length = 32) (.ghosSdkError invalidSigner
    "signer does not expose a 32 or 64 byte ed25519 secret key")
  let seed := if secret.length = 64 then secret.take 32 else secret
  return (ed25519.sign ownerDerivationChallenge seed).toList

section Hash

variable (sha512 : List UInt8 → Vector UInt8 64)

variable (Point) in
/-- Derive a keypair from an existing 32-byte secret. -/
def keyPairFromSeed (seed : List UInt8) : Except SdkError ElGamalKeyPair := do
  throwUnless (seed.length = 32)
    (.ghosSdkError invalidKeyDerivation s!"seed must be 32 bytes, got {seed.length}")
  let h := sha512 seed
  let secretScalar ← scalarFromLE32 (clamp (h.toList.take 32))
  let publicPoint : Point ← multBaseG secretScalar
  return ⟨(encode publicPoint).toList, scalarToLE32 secretScalar⟩

variable (Point) in
/-- Derive a keypair from a pre-computed signature. -/
def deriveGhosKeypairFromSignature (signature : List UInt8) (options : DerivationOptions) :
    Except SdkError ElGamalKeyPair := do
  throwUnless (signature.length = 64)
    (.ghosSdkError invalidSigner s!"signature must be 64 bytes, got {signature.length}")
  let domain := options.domain.getD elgamalDerivationDomain
  let mintBytes := (options.mint.getD (.replicate 32 0)).toList
  let seed := (sha512 (domain ++ signature ++ mintBytes)).toList.take 32
  keyPairFromSeed Point sha512 seed

end Hash

variable {sha512 : List UInt8 → Vector UInt8 64}

theorem length_clamp (scalarBytes : List UInt8) :
    (clamp scalarBytes).length = scalarBytes.length := by
  simp only [clamp, List.length_set]

/-- The secret scalar in a digest. -/
def clampedScalar (digest : Vector UInt8 64) : ℕ :=
  leNat (clamp (digest.toList.take 32)) % curveOrder

theorem keyPairFromSeed_eq_ok {seed : List UInt8} (hseed : seed.length = 32) :
    keyPairFromSeed Point sha512 seed = .ok ⟨publicKey Point (clampedScalar (sha512 seed)),
      scalarToLE32 (clampedScalar (sha512 seed))⟩ := by
  have hlen : (clamp ((sha512 seed).toList.take 32)).length = 32 := by simp [length_clamp]
  have hscalar : scalarFromLE32 (clamp ((sha512 seed).toList.take 32)) =
      .ok (clampedScalar (sha512 seed)) := by
    rw [scalarFromLE32, throwUnless, if_pos hlen]
    rfl
  simp only [keyPairFromSeed, throwUnless, if_pos hseed, hscalar, multBaseG_eq, publicKey_eq,
    Int.cast_natCast, bind, Except.bind, pure, Except.pure]

/-- The identity of a wallet in the SDK. -/
theorem deriveGhosKeypairFromSignature_eq {signature : List UInt8}
    (hsignature : signature.length = 64) (options : DerivationOptions) :
    deriveGhosKeypairFromSignature Point sha512 signature options = keyPairFromSeed Point sha512
      ((sha512 (options.domain.getD elgamalDerivationDomain ++ signature ++
        (options.mint.getD (.replicate 32 0)).toList)).toList.take 32) := by
  rw [deriveGhosKeypairFromSignature, throwUnless, if_pos hsignature]
  rfl

theorem signGhosChallenge_walletSecretKey (ed25519 : Ed25519) (seed : Vector UInt8 32) :
    signGhosChallenge ed25519 (walletSecretKey ed25519 seed.toList) =
      .ok (ed25519.sign ownerDerivationChallenge seed.toList).toList := by
  have hlen : (walletSecretKey ed25519 seed.toList).length = 64 := by simp [walletSecretKey]
  have htake : (walletSecretKey ed25519 seed.toList).take 32 = seed.toList :=
    List.take_left' (by simp)
  rw [signGhosChallenge, throwUnless, if_pos (.inl hlen), if_pos hlen, htake]
  rfl

end Sdk

/-! ### One wallet in both clients -/

section Identity

variable (Point) (sha512 : List UInt8 → Vector UInt8 64) (ed25519 : Ed25519) (entropy : Cli.Entropy)
  (seed : Vector UInt8 32) (mint : Option (Vector UInt8 32))

/-- The keypair of the CLI: the default key, or that of a mint as the context. -/
def cliIdentity : Except Cli.KeyError Cli.ElGamalKeypair :=
  Cli.deriveElgamalFromSigner Point sha512 entropy seed.toList (mint.map Vector.toList)

/-- The keypair of the SDK: the default key, or that of a mint. -/
def sdkIdentity : Except Sdk.SdkError Sdk.ElGamalKeyPair := do
  let signature ← Sdk.signGhosChallenge ed25519 (Sdk.walletSecretKey ed25519 seed.toList)
  Sdk.deriveGhosKeypairFromSignature Point sha512 signature { mint := mint }

/-- Both clients derive a keypair, with one secret scalar. -/
def SameIdentity : Prop :=
  ∃ keypair ghosKeypair, cliIdentity Point sha512 entropy seed mint = .ok keypair ∧
    sdkIdentity Point sha512 ed25519 seed mint = .ok ghosKeypair ∧
    Sdk.scalarFromLE32 ghosKeypair.secretKey = .ok keypair.secret.value

/-- The string under the first hash of the CLI. -/
def cliTranscript : List UInt8 :=
  Cli.elgamalDomain ++ (mint.elim (leBytes 2 0) fun m => Cli.lengthPrefixed m.toList) ++ seed.toList

/-- The string under the first hash of the SDK. -/
def sdkTranscript : List UInt8 :=
  Sdk.elgamalDerivationDomain ++ (ed25519.sign Sdk.ownerDerivationChallenge seed.toList).toList ++
    (mint.getD (.replicate 32 0)).toList

variable {Point sha512 ed25519 entropy seed mint}

theorem cliIdentity_eq : cliIdentity Point sha512 entropy seed mint =
    .ok (Cli.keygen Point sha512 entropy (some (sha512 (cliTranscript seed mint)).toList)) := by
  have htake : seed.toList.take 32 = seed.toList := List.take_of_length_le (by simp)
  cases mint with
  | none =>
    rw [cliIdentity, Option.map_none, Cli.deriveElgamalFromSigner_none (by simp), htake]
    rfl
  | some m =>
    rw [cliIdentity, Option.map_some, Cli.deriveElgamalFromSigner_some (by simp) (by simp), htake]
    rfl

theorem sdkIdentity_eq : sdkIdentity Point sha512 ed25519 seed mint =
    Sdk.keyPairFromSeed Point sha512
      ((sha512 (sdkTranscript ed25519 seed mint)).toList.take 32) := by
  rw [sdkIdentity, Sdk.signGhosChallenge_walletSecretKey]
  exact Sdk.deriveGhosKeypairFromSignature_eq (by simp) _

/-- The identities agree if the last digests do, in the reading of each client. -/
theorem sameIdentity_iff
    (hne : leNat (sha512 (sha512 (cliTranscript seed mint)).toList).toList % curveOrder ≠ 0) :
    SameIdentity Point sha512 ed25519 entropy seed mint ↔
      Sdk.clampedScalar (sha512 ((sha512 (sdkTranscript ed25519 seed mint)).toList.take 32)) =
        leNat (sha512 (sha512 (cliTranscript seed mint)).toList).toList % curveOrder := by
  have hlt : ∀ digest, Sdk.clampedScalar digest < curveOrder := fun _ => Nat.mod_lt _ curveOrder_pos
  rw [SameIdentity, cliIdentity_eq, sdkIdentity_eq, Sdk.keyPairFromSeed_eq_ok (by simp),
    Cli.keygen_eq, Cli.keygenScalar_of_ne_zero hne]
  simp only [Cli.keypairOf, Except.ok.injEq, exists_and_left, exists_eq_left',
    Sdk.scalarFromLE32_scalarToLE32 (hlt _)]

/-- The last digests can be any two, since the strings under them have different lengths. -/
theorem identities_independent (ed25519 : Ed25519) (seed : Vector UInt8 32)
    (mint : Option (Vector UInt8 32)) (x y : Vector UInt8 64) :
    ∃ sha512 : List UInt8 → Vector UInt8 64,
      sha512 (sha512 (cliTranscript seed mint)).toList = x ∧
        sha512 ((sha512 (sdkTranscript ed25519 seed mint)).toList.take 32) = y :=
  ⟨fun b => if b.length = 32 then y else x, by simp, by simp⟩

variable (Point) in
theorem exists_not_sameIdentity (ed25519 : Ed25519) (entropy : Cli.Entropy) (seed : Vector UInt8 32)
    (mint : Option (Vector UInt8 32)) :
    ∃ sha512, ¬ SameIdentity Point sha512 ed25519 entropy seed mint := by
  obtain ⟨sha512, hcli, hsdk⟩ :=
    identities_independent ed25519 seed mint (.replicate 64 1) (.replicate 64 0)
  have hne : leNat (Vector.replicate 64 (1 : UInt8)).toList % curveOrder ≠ 0 := by decide +kernel
  refine ⟨sha512, fun h => ?_⟩
  rw [sameIdentity_iff (by rwa [hcli]), hcli, hsdk] at h
  exact absurd h (by decide +kernel)

variable (Point) in
/-- A wallet has one identity in both clients, whatever the hash and the signatures are. -/
def SameWalletSameIdentity (seed : Vector UInt8 32) (mint : Option (Vector UInt8 32)) : Prop :=
  ∀ sha512 ed25519 entropy, SameIdentity Point sha512 ed25519 entropy seed mint

/-- No wallet has one identity in both clients, under the default key or that of a mint. -/
theorem not_sameWalletSameIdentity (seed : Vector UInt8 32) (mint : Option (Vector UInt8 32)) :
    ¬ SameWalletSameIdentity Point seed mint := by
  intro h
  let ed25519 : Ed25519 := ⟨fun _ => .replicate 32 0, fun _ _ => .replicate 64 0⟩
  obtain ⟨sha512, hnot⟩ := exists_not_sameIdentity Point ed25519 (Cli.Entropy.stuck 1) seed mint
  exact hnot (h sha512 ed25519 (Cli.Entropy.stuck 1))

/-! ### A concrete wallet -/

/-- The seed of zeros, as Ed25519 signs the challenge with it. -/
def Sample.zeroWallet : Ed25519 where
  getPublicKey _ := ⟨(leBytes 32
    0x29da598ba148c03aa643e21d77153265730d6f2ad0a8a3622da4b6cebc276a3b).toArray,
    by simp [length_leBytes]⟩
  sign _ _ := ⟨(leBytes 64 (
      0x05e1eba937531bf1242d99a0badff5c9961823e03017a4d85af3e127493d428d * 2 ^ 256 +
      0x9df17310ecc595ee96e752093e548e3facc59a5ea84563d7c0d0d02ee6954375)).toArray,
    by simp [length_leBytes]⟩

/-- The first digest of the CLI for the seed of zeros. -/
def Sample.cliDigest : ℕ :=
  0x0147cae1f5610f101ba474f08dc19b87d116074779a6439d2ce2568cb959d0db * 2 ^ 256 +
    0x2d9ee754912b2187b63f4dc8ce592c1da6f607afbd1e327c2a74baeb344c5613

/-- The first digest of the SDK. -/
def Sample.sdkDigest : ℕ :=
  0xe16323f7ce21a6f8e68c23f81178c23a91ded8b0500010d92045ca064ff3eca6 * 2 ^ 256 +
    0x072b0f1a9540dc7bf157881204236e55dfb08f3b8c266ce56ea4b39792baf0c6

/-- Sha512 where the two derivations ask it for the default key of that wallet. -/
def Sample.zeroWalletHash : List UInt8 → Vector UInt8 64 :=
  tabulatedHash [(cliTranscript (.replicate 32 0) none, Sample.cliDigest),
    (leBytes 64 Sample.cliDigest,
      0x99bfc42660a77c25ccee364b274609be86b3e1d8454673d50f57a7ad7c07cb3a * 2 ^ 256 +
      0x20f4ff0d70f7e35e4b206dd5fce1047a04809a85e339e4116bf0c488ee756f53),
    (sdkTranscript Sample.zeroWallet (.replicate 32 0) none, Sample.sdkDigest),
    (leBytes 32 Sample.sdkDigest,
      0xa1d3bc23229c72400a7fcb95c5e9a8e9c002d742461cdbcfd0fbc5d077a268ce * 2 ^ 256 +
      0x5573fd0749d6a050231d8cf59871d1cf316af40e094baa9790fd0bd4781f25c7)]

/-- The wallet has two default keys. -/
theorem zeroWallet_not_sameIdentity :
    ¬ SameIdentity (ZMod curveOrder) Sample.zeroWalletHash Sample.zeroWallet (Cli.Entropy.stuck 1)
      (.replicate 32 0) none := by
  intro h
  rw [sameIdentity_iff (by decide +kernel)] at h
  exact absurd h (by decide +kernel)

end Identity

end Ghos
