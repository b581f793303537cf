import Ghos.Client.Keys

/-!
# Sending with the CLI

`ghos send` encrypts an amount twice, for the sender and for a key that it derives from the address
of the recipient and the mint.  `ghos status` decrypts with a key that it derives from the wallet.

* `recipientReads_iff`: the recipient reads the amount only if two derivations meet, which means a
  collision of SHA-512 modulo the order of the group;
* `hidesAmount_iff`: an observer reads the amount from the data of the instruction, and the key of
  the recipient comes from public data.
-/

namespace Ghos

variable {Point : Type} [Ristretto255 Point]

open Ristretto255

namespace Cli

/-- An error below `ghos send`. -/
inductive SendError
  | crypto (e : Error)
  | key (e : KeyError)
  deriving DecidableEq

def confTransferDiscriminator : List UInt8 := [0x7b, 0x24, 0x1d, 0xdc, 0x5e, 0xf2, 0xa6, 0xe8]

def publicTransferDiscriminator : List UInt8 := [0xa5, 0xf6, 0x3e, 0x1a, 0x3d, 0x49, 0xc0, 0xb1]

def recommendedCuBudget : ℕ := 600000

/-- The context of a user's own key. -/
def userDefault : List UInt8 := asciiBytes "user:default"

/-- The context of the key that the sender makes for a recipient. -/
def localRecipient : List UInt8 := asciiBytes "local:recipient"

/-- What the two derivations and the two encryptions draw. -/
structure SendDraws where
  senderKey : Entropy
  recipientKey : Entropy
  senderCiphertext : RandomScalar
  recipientCiphertext : RandomScalar

/-- One generator for all draws. -/
def SendDraws.same (entropy : Entropy) : SendDraws :=
  ⟨entropy, entropy, entropy.scalar, entropy.scalar⟩

/-- The keys and ciphertexts of a transfer. -/
structure Transfer where
  senderElgamal : ElGamalKeypair
  recipientElgamal : ElGamalKeypair
  senderCiphertext : ElGamalCiphertext
  recipientCiphertext : ElGamalCiphertext

/-- `Ciphertext.to_bytes`. -/
def ciphertextBytes (ct : ElGamalCiphertext) : List UInt8 := ct.c1 ++ ct.c2

section Hash

variable (Point) (sha512 : List UInt8 → Vector UInt8 64)

/-- The cryptography of `_run_send`. -/
def buildTransfer (draws : SendDraws) (signerBytes : List UInt8) (recipient mint : Vector UInt8 32)
    (baseUnits : ℤ) : Except SendError Transfer := do
  let senderElgamal ← (deriveElgamalFromSigner Point sha512 draws.senderKey signerBytes
    (some userDefault)).mapError .key
  let recipientElgamal ← (deriveElgamalFromSigner Point sha512 draws.recipientKey
    (recipient.toList ++ mint.toList) (some localRecipient)).mapError .key
  let senderCiphertext ← (encrypt Point draws.senderCiphertext senderElgamal.publicKey baseUnits
    none).mapError .crypto
  let recipientCiphertext ← (encrypt Point draws.recipientCiphertext recipientElgamal.publicKey
    baseUnits none).mapError .crypto
  return ⟨senderElgamal, recipientElgamal, senderCiphertext, recipientCiphertext⟩

/-- The bytes of an instruction. -/
def transferData (transfer : Transfer) (confidential : Bool) (configBump : UInt8) (baseUnits : ℤ) :
    List UInt8 :=
  (if confidential then confTransferDiscriminator else publicTransferDiscriminator) ++
    leBytes 8 baseUnits.toNat ++ ciphertextBytes transfer.senderCiphertext ++
    ciphertextBytes transfer.recipientCiphertext ++
    transfer.senderElgamal.publicKey.encoding ++ transfer.recipientElgamal.publicKey.encoding ++
    leBytes 4 recommendedCuBudget ++ [configBump]

/-- The instruction data of `_run_send`, from the amount in base units on. -/
def runSend (draws : SendDraws) (signerBytes : List UInt8) (recipient mint : Vector UInt8 32)
    (confidential : Bool) (configBump : UInt8) (baseUnits : ℤ) : Except SendError (List UInt8) := do
  let transfer ← buildTransfer Point sha512 draws signerBytes recipient mint baseUnits
  -- encryption has checked that the amount fits
  return transferData transfer confidential configBump baseUnits

/-- Decrypt with a derived key. -/
def deriveAndDecrypt [DecidableEq Point] (entropy : Entropy) (signerBytes : List UInt8)
    (context : Option (List UInt8)) (ct : ElGamalCiphertext) (maxAmount : ℕ) :
    Except SendError ℕ := do
  let elgamal ← (deriveElgamalFromSigner Point sha512 entropy signerBytes context).mapError .key
  (decryptExhaustive Point elgamal.secret ct maxAmount).mapError .crypto

/-- `_run_status` decrypts a balance of the wallet, with its default bound. -/
def statusDecrypt [DecidableEq Point] (entropy : Entropy) (signerBytes : List UInt8)
    (ct : ElGamalCiphertext) : Except SendError ℕ :=
  deriveAndDecrypt Point sha512 entropy signerBytes (some userDefault) ct (2 ^ 20)

end Hash

variable {sha512 : List UInt8 → Vector UInt8 64} {draws : SendDraws} {entropy : Entropy}
  {signerBytes : List UInt8} {recipient mint : Vector UInt8 32} {n : ℕ}

variable (Point) in
/-- The ciphertext of an amount under the key of a scalar. -/
def amountCiphertext (scalar n : ℕ) (fresh : RandomScalar) : ElGamalCiphertext :=
  encodeCiphertext (ElGamal.plain base ((scalar : ZMod curveOrder) • (base : Point))
    (n : ZMod curveOrder) (fresh.value : ZMod curveOrder))

theorem encrypt_keypairOf (fresh : RandomScalar) (scalar : ℕ) (hn : n < 2 ^ 64) :
    encrypt Point fresh (keypairOf Point scalar).publicKey n none =
      .ok (amountCiphertext Point scalar n fresh) := by
  have hencrypt := encrypt_encode fresh ((scalar : ZMod curveOrder) • (base : Point)) hn none
  rwa [ephemeral_none, ← publicKey_eq] at hencrypt

/-- The transfer of an amount that fits. -/
theorem buildTransfer_eq (hsigner : 32 ≤ signerBytes.length) (hn : n < 2 ^ 64) :
    buildTransfer Point sha512 draws signerBytes recipient mint n = .ok {
      senderElgamal := keypairOf Point
        (secretScalar sha512 draws.senderKey userDefault (signerBytes.take 32))
      recipientElgamal := keypairOf Point
        (secretScalar sha512 draws.recipientKey localRecipient recipient.toList)
      senderCiphertext := amountCiphertext Point
        (secretScalar sha512 draws.senderKey userDefault (signerBytes.take 32)) n
        draws.senderCiphertext
      recipientCiphertext := amountCiphertext Point
        (secretScalar sha512 draws.recipientKey localRecipient recipient.toList) n
        draws.recipientCiphertext } := by
  have htake : (recipient.toList ++ mint.toList).take 32 = recipient.toList :=
    List.take_left' (by simp)
  have huser : userDefault.length < 2 ^ 16 := by decide
  have hlocal : localRecipient.length < 2 ^ 16 := by decide
  rw [buildTransfer, deriveElgamalFromSigner_eq_keypairOf hsigner huser,
    deriveElgamalFromSigner_eq_keypairOf (by simp) hlocal, htake]
  simp only [Except.mapError, encrypt_keypairOf _ _ hn, bind, Except.bind, pure, Except.pure]

variable [DecidableEq Point]

/-- Only the scalar of the key decrypts an amount. -/
theorem eq_of_decryptExhaustive_amountCiphertext {s t max : ℕ} (hs : s < curveOrder)
    (ht : t < curveOrder) {fresh : RandomScalar}
    (h : decryptExhaustive Point ⟨s⟩ (amountCiphertext Point t n fresh) max = .ok n) : s = t := by
  have hopen := (decryptExhaustive_eq_ok.1 h).smul.symm
  rw [← Nat.cast_smul_eq_nsmul (ZMod curveOrder),
    ElGamal.openPlain_plain_eq_iff base_ne_zero fresh.isScalar.cast_ne_zero,
    ZMod.natCast_eq_natCast_iff, Nat.ModEq, Nat.mod_eq_of_lt hs, Nat.mod_eq_of_lt ht] at hopen
  exact hopen

theorem decryptExhaustive_amountCiphertext {t max : ℕ} (fresh : RandomScalar) (hn : n < curveOrder)
    (hmax : n ≤ max) :
    decryptExhaustive Point ⟨t⟩ (amountCiphertext Point t n fresh) max = .ok n :=
  (decryptExhaustive_eq_ok_iff hn hmax).2
    ((ElGamal.openPlain_plain_eq_iff base_ne_zero fresh.isScalar.cast_ne_zero).2 rfl)

/-- A derived key decrypts an amount only if it has the scalar of the key. -/
theorem deriveAndDecrypt_eq_ok_iff {context : List UInt8} (hsigner : 32 ≤ signerBytes.length)
    (hcontext : context.length < 2 ^ 16) {t : ℕ} (ht : t < curveOrder) (fresh : RandomScalar)
    (hn : n < 2 ^ 20) :
    deriveAndDecrypt Point sha512 entropy signerBytes (some context)
        (amountCiphertext Point t n fresh) (2 ^ 20) = .ok n ↔
      secretScalar sha512 entropy context (signerBytes.take 32) = t := by
  have hlt : n < curveOrder := (hn.trans (by norm_num)).trans two_pow_64_lt
  have hscalar := secretScalar_lt sha512 entropy context (signerBytes.take 32)
  rw [deriveAndDecrypt, deriveElgamalFromSigner_eq_keypairOf hsigner hcontext]
  constructor
  · intro h
    exact eq_of_decryptExhaustive_amountCiphertext hscalar ht (mapError_eq_ok.1 h)
  · rintro rfl
    exact mapError_eq_ok.2 (decryptExhaustive_amountCiphertext fresh hlt hn.le)

/-! ### The recipient -/

/-- A scalar does not depend on the draws only if it is not replaced. -/
theorem forall_secretScalar_eq_iff {context seed : List UInt8} {t : ℕ} :
    (∀ entropy, secretScalar sha512 entropy context seed = t) ↔
      contextScalar sha512 context seed = t ∧ t ≠ 0 := by
  unfold secretScalar
  split_ifs with hzero
  · constructor
    · intro h
      -- two draws with different scalars
      have hzeros := h (.stuck 0)
      have hones := h (.stuck 1)
      rw [← hzeros] at hones
      exact absurd hones (by decide +kernel)
    · rintro ⟨rfl, hne⟩
      exact absurd hzero hne
  · constructor
    · intro h
      have ht := h (.stuck 0)
      exact ⟨ht, ht ▸ hzero⟩
    · rintro ⟨rfl, -⟩ _
      rfl

variable (Point) in
/-- The wallet of `seed` and `address` reads every transfer of `n` to its address. -/
def RecipientReads (sha512 : List UInt8 → Vector UInt8 64) (seed address mint : Vector UInt8 32)
    (n : ℕ) : Prop :=
  ∀ (sender : Vector UInt8 64) (draws : SendDraws) (entropy : Entropy), ∃ transfer,
    buildTransfer Point sha512 draws sender.toList address mint n = .ok transfer ∧
      statusDecrypt Point sha512 entropy (seed.toList ++ address.toList)
        transfer.recipientCiphertext = .ok n

theorem transfer_read_iff (sender : Vector UInt8 64) {seed address : Vector UInt8 32}
    (hn : n < 2 ^ 20) :
    (∃ transfer, buildTransfer Point sha512 draws sender.toList address mint n = .ok transfer ∧
      statusDecrypt Point sha512 entropy (seed.toList ++ address.toList)
        transfer.recipientCiphertext = .ok n) ↔
      secretScalar sha512 entropy userDefault seed.toList =
        secretScalar sha512 draws.recipientKey localRecipient address.toList := by
  have htake : (seed.toList ++ address.toList).take 32 = seed.toList :=
    List.take_left' (by simp)
  rw [buildTransfer_eq (by simp) (hn.trans (by norm_num))]
  simp only [Except.ok.injEq, exists_eq_left']
  rw [statusDecrypt,
    deriveAndDecrypt_eq_ok_iff (by simp) (by decide) (secretScalar_lt _ _ _ _) _ hn, htake]

/-- Different strings give one scalar, which is not replaced. -/
structure ScalarsCollide (sha512 : List UInt8 → Vector UInt8 64) (a b : List UInt8) : Prop where
  ne : a ≠ b
  eq : digestScalar sha512 a = digestScalar sha512 b
  ne_zero : digestScalar sha512 b ≠ 0

/-- The sender and the recipient never hash the same string. -/
theorem contextTranscript_ne (seed address : List UInt8) :
    contextTranscript localRecipient address ≠ contextTranscript userDefault seed := by
  intro h
  rw [contextTranscript, contextTranscript, List.append_assoc, List.append_assoc,
    List.append_right_inj] at h
  exact absurd (congrArg List.head? h) (by simp [lengthPrefixed, leBytes, localRecipient,
    userDefault, asciiBytes])

/-- What is sent to a wallet is read there only through a collision of two strings, one with its
address and one with its seed. -/
theorem recipientReads_iff (sha512 : List UInt8 → Vector UInt8 64)
    (seed address mint : Vector UInt8 32) (hn : n < 2 ^ 20) :
    RecipientReads Point sha512 seed address mint n ↔
      ScalarsCollide sha512 (contextTranscript localRecipient address.toList)
        (contextTranscript userDefault seed.toList) := by
  simp only [RecipientReads, transfer_read_iff _ hn]
  constructor
  · intro h
    have hkeys : ∀ entropy entropy' : Entropy, secretScalar sha512 entropy userDefault seed.toList =
        secretScalar sha512 entropy' localRecipient address.toList := fun entropy entropy' =>
      h (.replicate 64 0) (.same entropy') entropy
    have huser := fun entropy' =>
      forall_secretScalar_eq_iff.1 fun entropy => hkeys entropy entropy'
    obtain ⟨heq, hne⟩ := forall_secretScalar_eq_iff.1 fun entropy' => ((huser entropy').1).symm
    exact ⟨contextTranscript_ne _ _, heq, hne⟩
  · rintro ⟨-, heq, hne⟩ _ draws entropy
    calc secretScalar sha512 entropy userDefault seed.toList
        = contextScalar sha512 userDefault seed.toList :=
          forall_secretScalar_eq_iff.2 ⟨rfl, hne⟩ entropy
      _ = secretScalar sha512 draws.recipientKey localRecipient address.toList :=
          (forall_secretScalar_eq_iff.2 ⟨heq, hne⟩ draws.recipientKey).symm

/-- The address of the seed of zeros. -/
def Sample.zeroAddress : Vector UInt8 32 := Sample.zeroWallet.getPublicKey (.replicate 32 0)

/-- The first digest over the seed of zeros. -/
def Sample.userDigest : ℕ :=
  0x7b72e0568e82307cb8c387d7d1d33b83a364b40349fea88330d11b36cd1872e7 * 2 ^ 256 +
    0xa212d741f79fe21a33310629ff570802980892862903f1d8d6a27bd3b76c311b

/-- The first digest over its address. -/
def Sample.recipientDigest : ℕ :=
  0x4017c857d9c59d7cd866abd88a4f93152229025dc7478737e0e92022dfba6300 * 2 ^ 256 +
    0xb160b1604cf65a3b37783290b727fe7e6c72fd95ebf20a0246e704210af2c127

/-- Sha512 where the two derivations ask it for that wallet. -/
def Sample.sendHash : List UInt8 → Vector UInt8 64 :=
  tabulatedHash [(contextTranscript userDefault (.replicate 32 0), Sample.userDigest),
    (leBytes 64 Sample.userDigest,
      0x4b2a7e008c69a42cd8dd61f128568330f0fbb262d665aab810401f6e43feb79b * 2 ^ 256 +
      0x7f0f810bf60b603aa557d7871c1033266bcffbf8cec9e0904d1123e0580e699e),
    (contextTranscript localRecipient Sample.zeroAddress.toList, Sample.recipientDigest),
    (leBytes 64 Sample.recipientDigest,
      0x5b2058eb982447cc178ffd982800fba3c4e8483d03077780513861249051c75f * 2 ^ 256 +
      0x1221b11607ac42cc2710fa538822397a552af940e13700666bd57fb490190421)]

/-- The smallest amount that the CLI sends. -/
theorem recipientReads_iff_sample :
    1000 < 2 ^ 20 ∧
      (RecipientReads (ZMod curveOrder) Sample.sendHash (.replicate 32 0) Sample.zeroAddress
          (.replicate 32 7) 1000 ↔
        ScalarsCollide Sample.sendHash (contextTranscript localRecipient Sample.zeroAddress.toList)
          (contextTranscript userDefault (Vector.replicate 32 0).toList)) :=
  ⟨by decide, recipientReads_iff Sample.sendHash _ _ _ (by decide)⟩

/-- It is lost on the wallet of zeros. -/
theorem not_recipientReads :
    ¬ RecipientReads (ZMod curveOrder) Sample.sendHash (.replicate 32 0) Sample.zeroAddress
      (.replicate 32 7) 1000 := by
  intro h
  have hread := h (.replicate 64 0) (.same (.stuck 1)) (.stuck 1)
  rw [transfer_read_iff _ (by decide)] at hread
  exact absurd hread (by decide +kernel)

/-! ### The observer -/

/-- The data of a transfer outside the two ciphertexts. -/
def clearBytes (data : List UInt8) : List UInt8 := data.take 16 ++ data.drop 144

/-- What an observer may derive a key from: the address of the recipient, the mint and nothing
else. -/
structure PublicDecryption where
  signerBytes : Vector UInt8 32 → Vector UInt8 32 → List UInt8
  context : Vector UInt8 32 → Vector UInt8 32 → Option (List UInt8)
  maxAmount : ℕ

variable (Point) in
/-- It decrypts every small amount that is sent to anyone. -/
def PublicDecryption.Reads (attack : PublicDecryption) (sha512 : List UInt8 → Vector UInt8 64) :
    Prop :=
  ∀ (sender : Vector UInt8 64) (recipient mint : Vector UInt8 32) (n : ℕ), n < 2 ^ 20 →
    ∀ (draws : SendDraws) (entropy : Entropy), ∃ transfer,
      buildTransfer Point sha512 draws sender.toList recipient mint n = .ok transfer ∧
        deriveAndDecrypt Point sha512 entropy (attack.signerBytes recipient mint)
          (attack.context recipient mint) transfer.recipientCiphertext attack.maxAmount = .ok n

variable (Point) in
/-- Neither the clear bytes of the data nor a decryption with public data tell the amount. -/
structure HidesAmount (sha512 : List UInt8 → Vector UInt8 64) (sender : Vector UInt8 64)
    (recipient mint : Vector UInt8 32) (configBump : UInt8) (n n' : UInt64) : Prop where
  clear : ∀ draws : SendDraws,
    (runSend Point sha512 draws sender.toList recipient mint true configBump n.toNat).map
        clearBytes =
      (runSend Point sha512 draws sender.toList recipient mint true configBump n'.toNat).map
        clearBytes
  secret : ¬ ∃ attack : PublicDecryption, attack.Reads Point sha512

/-- The derivation of the sender, done by anyone. -/
def asSender : PublicDecryption where
  signerBytes recipient mint := recipient.toList ++ mint.toList
  context _ _ := some localRecipient
  maxAmount := 2 ^ 20

/-- The derivation of the sender gives the sender's key, unless that is drawn. -/
theorem asSender_reads
    (h : ∀ address : Vector UInt8 32, contextScalar sha512 localRecipient address.toList ≠ 0) :
    asSender.Reads Point sha512 := by
  intro sender recipient mint n hn draws entropy
  have htake : (asSender.signerBytes recipient mint).take 32 = recipient.toList :=
    List.take_left' (by simp)
  have hlen : 32 ≤ (asSender.signerBytes recipient mint).length := by simp [asSender]
  refine ⟨_, buildTransfer_eq (by simp) (hn.trans (by norm_num)), ?_⟩
  refine (deriveAndDecrypt_eq_ok_iff hlen (by decide) (secretScalar_lt _ _ _ _) _ hn).2 ?_
  rw [htake, forall_secretScalar_eq_iff.2 ⟨rfl, h recipient⟩ entropy,
    forall_secretScalar_eq_iff.2 ⟨rfl, h recipient⟩ draws.recipientKey]

/-- A key that is drawn cannot be derived. -/
theorem PublicDecryption.Reads.ne_zero {attack : PublicDecryption} (h : attack.Reads Point sha512)
    (address : Vector UInt8 32) : contextScalar sha512 localRecipient address.toList ≠ 0 := by
  let mint : Vector UInt8 32 := .replicate 32 0
  have hread : ∀ entropy : Entropy, ∃ keypair, deriveElgamalFromSigner Point sha512 (.stuck 0)
      (attack.signerBytes address mint) (attack.context address mint) = .ok keypair ∧
      keypair.secret.value = secretScalar sha512 entropy localRecipient address.toList := by
    intro entropy
    obtain ⟨transfer, hbuild, hdecrypt⟩ := h (.replicate 64 0) address mint 0 (by decide)
      (.same entropy) (.stuck 0)
    rw [buildTransfer_eq (by simp) (by decide)] at hbuild
    cases hbuild
    rw [deriveAndDecrypt, except_bind_eq_ok] at hdecrypt
    obtain ⟨keypair, hkeypair, hamount⟩ := hdecrypt
    rw [mapError_eq_ok] at hkeypair hamount
    exact ⟨keypair, hkeypair, eq_of_decryptExhaustive_amountCiphertext
      (deriveElgamalFromSigner_secret_lt hkeypair) (secretScalar_lt _ _ _ _) hamount⟩
  -- one keypair for all draws of the sender
  obtain ⟨keypair, hkeypair, -⟩ := hread (.stuck 0)
  have hsecret : ∀ entropy, secretScalar sha512 entropy localRecipient address.toList =
      keypair.secret.value := by
    intro entropy
    obtain ⟨keypair', hkeypair', hvalue⟩ := hread entropy
    rw [← hvalue, Except.ok.inj (hkeypair.symm.trans hkeypair')]
  obtain ⟨hcontext, hne⟩ := forall_secretScalar_eq_iff.1 hsecret
  rwa [hcontext]

omit [DecidableEq Point] in
theorem clearBytes_append {a b c : List UInt8} (ha : a.length = 16) (hb : b.length = 128) :
    clearBytes (a ++ b ++ c) = a ++ c := by
  rw [clearBytes, List.append_assoc, List.take_left' ha, ← List.append_assoc,
    List.drop_left' (by rw [List.length_append, ha, hb])]

variable (Point sha512 draws recipient mint) in
omit [DecidableEq Point] in
/-- The clear bytes of a transfer start with the amount. -/
theorem runSend_clear (sender : Vector UInt8 64) (configBump : UInt8) :
    ∃ keys, ∀ n : UInt64,
      (runSend Point sha512 draws sender.toList recipient mint true configBump n.toNat).map
        clearBytes = .ok (confTransferDiscriminator ++ n.toLeBytes ++ keys) := by
  let keys := publicKey Point (secretScalar sha512 draws.senderKey userDefault
      (sender.toList.take 32)) ++
    publicKey Point (secretScalar sha512 draws.recipientKey localRecipient recipient.toList) ++
    leBytes 4 recommendedCuBudget ++ [configBump]
  refine ⟨keys, fun n => ?_⟩
  obtain ⟨transfer, hbuild, hsender, hrecipient, hlength⟩ : ∃ transfer,
      buildTransfer Point sha512 draws sender.toList recipient mint n.toNat = .ok transfer ∧
      transfer.senderElgamal.publicKey.encoding = publicKey Point
        (secretScalar sha512 draws.senderKey userDefault (sender.toList.take 32)) ∧
      transfer.recipientElgamal.publicKey.encoding = publicKey Point
        (secretScalar sha512 draws.recipientKey localRecipient recipient.toList) ∧
      (ciphertextBytes transfer.senderCiphertext ++
        ciphertextBytes transfer.recipientCiphertext).length = 128 :=
    ⟨_, buildTransfer_eq (by simp) n.toNat_lt, rfl, rfl, by
      simp [ciphertextBytes, amountCiphertext, encodeCiphertext]⟩
  have hdata : transferData transfer true configBump n.toNat =
      confTransferDiscriminator ++ n.toLeBytes ++ (ciphertextBytes transfer.senderCiphertext ++
        ciphertextBytes transfer.recipientCiphertext) ++ keys := by
    simp [transferData, UInt64.toLeBytes, keys, hsender, hrecipient]
  have hclear : clearBytes (transferData transfer true configBump n.toNat) =
      confTransferDiscriminator ++ n.toLeBytes ++ keys := by
    rw [hdata, clearBytes_append (by simp [confTransferDiscriminator, UInt64.toLeBytes,
      length_leBytes]) hlength]
  rw [runSend, hbuild]
  exact congrArg Except.ok hclear

omit [DecidableEq Point] in
/-- The clear bytes tell two amounts apart. -/
theorem clear_eq_iff (sender : Vector UInt8 64) (configBump : UInt8) (n n' : UInt64) :
    (runSend Point sha512 draws sender.toList recipient mint true configBump n.toNat).map
        clearBytes =
      (runSend Point sha512 draws sender.toList recipient mint true configBump n'.toNat).map
        clearBytes ↔ n = n' := by
  obtain ⟨keys, hkeys⟩ := runSend_clear Point sha512 draws recipient mint sender configBump
  rw [hkeys n, hkeys n', Except.ok.injEq, List.append_left_inj, List.append_right_inj]
  exact UInt64.toLeBytes_injective.eq_iff

/-- Two amounts are hidden only if they are one, and only if the key of some recipient is drawn. -/
theorem hidesAmount_iff (sha512 : List UInt8 → Vector UInt8 64) (sender : Vector UInt8 64)
    (recipient mint : Vector UInt8 32) (configBump : UInt8) (n n' : UInt64) :
    HidesAmount Point sha512 sender recipient mint configBump n n' ↔
      n = n' ∧ ∃ address : Vector UInt8 32,
        contextScalar sha512 localRecipient address.toList = 0 := by
  constructor
  · rintro ⟨hclear, hsecret⟩
    refine ⟨(clear_eq_iff sender configBump n n').1 (hclear (.same (.stuck 0))), ?_⟩
    by_contra hnone
    exact hsecret ⟨asSender, asSender_reads fun address hzero => hnone ⟨address, hzero⟩⟩
  · rintro ⟨heq, address, hzero⟩
    exact ⟨fun draws => (clear_eq_iff sender configBump n n').2 heq,
      fun ⟨attack, hreads⟩ => hreads.ne_zero address hzero⟩

/-- A hash without a digest that is zero modulo the order. -/
def Sample.onesHash : List UInt8 → Vector UInt8 64 := fun _ => .replicate 64 1

/-- Two amounts that the CLI sends are told apart, and neither is hidden from whoever derives the
key. -/
theorem not_hidesAmount :
    ¬ HidesAmount (ZMod curveOrder) Sample.onesHash (.replicate 64 0) (.replicate 32 2)
        (.replicate 32 7) 255 1000 2000 ∧
      ¬ HidesAmount (ZMod curveOrder) Sample.onesHash (.replicate 64 0) (.replicate 32 2)
        (.replicate 32 7) 255 1000 1000 := by
  have hne : ∀ address : Vector UInt8 32,
      contextScalar Sample.onesHash localRecipient address.toList ≠ 0 := by
    have hones : reduceScalarFromBytes (Vector.replicate 64 (1 : UInt8)).toList ≠ 0 := by
      decide +kernel
    exact fun _ => hones
  constructor
  · intro h
    have hamounts := (clear_eq_iff _ _ _ _).1 (h.clear (.same (.stuck 0)))
    exact absurd hamounts (by decide)
  · intro h
    exact h.secret ⟨asSender, asSender_reads hne⟩

end Cli

end Ghos
