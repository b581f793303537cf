import Ghos.Client.Send
import Ghos.Client.Pdas

/-!
# Commands of the CLI that lay out their own bytes

`_run_create` of `ghos burner`, `_run_join` of `ghos mix` and `_run_register` of `ghos audit`, from
the parsed options on to the instruction.  What they read from the cluster is an argument: the slot
behind a round id of zero, and the decimals behind an amount.
-/

namespace Ghos

namespace Cli

variable {Point : Type} [Ristretto255 Point] {Pubkey : Type} [AddressSpace Pubkey]

/-- What a command raises below the instruction. -/
inductive CommandError
  | badParameter (message : String)
  | structError
  | valueError (e : ValueError)
  | key (e : KeyError)
  | crypto (e : Error)
  /-- The message, and the value that is shown behind it. -/
  | auditorError (message value : String)
  deriving DecidableEq

/-- An instruction of a transaction. -/
structure Instruction (Pubkey : Type) where
  data : List UInt8
  accounts : List (Sdk.AccountMeta Pubkey)
  deriving DecidableEq

/-- `struct.pack("<Q", v)`. -/
def packU64 (v : ℤ) : Except CommandError (List UInt8) := do
  throwUnless (0 ≤ v ∧ v < 2 ^ 64) .structError
  return leBytes 8 v.toNat

/-- `struct.pack("<q", v)`. -/
def packI64 (v : ℤ) : Except CommandError (List UInt8) := do
  throwUnless (-2 ^ 63 ≤ v ∧ v < 2 ^ 63) .structError
  return leBytes 8 (v % 2 ^ 64).toNat

theorem packU64_eq_ok {v : ℤ} {b : List UInt8} :
    packU64 v = .ok b ↔ (0 ≤ v ∧ v < 2 ^ 64) ∧ leBytes 8 v.toNat = b := by
  simp only [packU64, throwUnless_bind_eq_ok, except_pure_eq_ok]

theorem packU64_toNat (v : UInt64) : packU64 v.toNat = .ok v.toLeBytes := by
  have hv := v.toNat_lt
  exact packU64_eq_ok.2 ⟨by omega, rfl⟩

theorem packI64_toInt (v : Int64) : packI64 v.toInt = .ok v.toLeBytes := by
  have hlow := v.le_toInt
  have hhigh := v.toInt_lt
  rw [packI64, throwUnless, if_pos ⟨hlow, hhigh⟩]
  rfl

/-! ### `ghos burner create` -/

def createBurnerDiscriminator : List UInt8 := [0x4a, 0x82, 0xbf, 0x18, 0xa8, 0xa1, 0xe7, 0x13]

def burnerRegistryCapPerOwner : ℤ := 64

section Hash

variable (Point) (sha512 : List UInt8 → Vector UInt8 64)

/-- Derive the ElGamal keypair of a burner slot. -/
def deriveBurnerElgamal (entropy : Entropy) (signerBytes : List UInt8) (nonce : ℤ) :
    Except KeyError ElGamalKeypair := do
  throwUnless (0 ≤ nonce ∧ nonce / 2 ^ 64 = 0)
    (.keypairError s!"burner nonce out of u64 range: {nonce}")
  deriveElgamalFromSigner Point sha512 entropy signerBytes
    (some (asciiBytes "burner:" ++ leBytes 8 nonce.toNat))

/-- The instruction of `_run_create`, from the parsed duration on. -/
def runCreate (entropy : Entropy) (owner : Pubkey) (signerBytes : List UInt8)
    (ttlSeconds nonce : ℤ) : Except CommandError (Instruction Pubkey) := do
  throwUnless (0 ≤ nonce ∧ nonce < burnerRegistryCapPerOwner)
    (.badParameter s!"nonce {nonce} out of range [0, {burnerRegistryCapPerOwner})")
  let burnerSeeds ← (burnerSeeds owner nonce).mapError .valueError
  let (burnerAddr, burnerBump) := findProgramAddress burnerSeeds
  let burnerElgamal ← (deriveBurnerElgamal Point sha512 entropy signerBytes nonce).mapError .key
  let (configAddr, configBump) := findProgramAddress configSeeds
  let nonceBytes ← packU64 nonce
  let ttlBytes ← packI64 ttlSeconds
  return {
    data := createBurnerDiscriminator ++ nonceBytes ++ ttlBytes ++
      burnerElgamal.publicKey.encoding ++ leBytes 4 recommendedCuBudget ++ [burnerBump, configBump]
    accounts := [
      { pubkey := owner, isSigner := true, isWritable := true },
      { pubkey := burnerAddr, isSigner := false, isWritable := true },
      { pubkey := configAddr, isSigner := false, isWritable := false },
      { pubkey := systemProgramId, isSigner := false, isWritable := false }] }

end Hash

/-! ### `ghos mix join` -/

def mixJoinDiscriminator : List UInt8 := [0xa7, 0x12, 0xe4, 0xc9, 0xb1, 0x5e, 0x8f, 0x66]

/-- What the reveal will need, and the commitment. -/
structure JoinMaterial where
  elgamal : ElGamalKeypair
  note : ElGamalCiphertext
  commitment : Vector UInt8 32

section Hash

variable (Point) (blake3 : List UInt8 → Vector UInt8 32) (sha512 : List UInt8 → Vector UInt8 64)

/-- The cryptography of `_run_join`. -/
def joinMaterial (entropy : Entropy) (fresh : RandomScalar) (salt : Vector UInt8 32)
    (signerBytes : List UInt8) (noteUnits : ℤ) : Except CommandError JoinMaterial := do
  let elgamal ← (deriveElgamalFromSigner Point sha512 entropy signerBytes
    (some userDefault)).mapError .key
  let note ← (encrypt Point fresh elgamal.publicKey noteUnits none).mapError .crypto
  let commitment ← (commitHash blake3 elgamal.publicKey.encoding (ciphertextBytes note)
    salt.toList).mapError .crypto
  return ⟨elgamal, note, commitment⟩

/-- The instruction of `_run_join`, from the round id and the amount in base units on.  A commitment
always has the length that the command checks. -/
def runJoin (entropy : Entropy) (fresh : RandomScalar) (salt : Vector UInt8 32)
    (owner mint host : Pubkey) (signerBytes : List UInt8) (roundId noteUnits : ℤ) :
    Except CommandError (Instruction Pubkey) := do
  let roundSeeds ← (mixRoundSeeds mint host roundId).mapError .valueError
  let (roundAddr, roundBump) := findProgramAddress roundSeeds
  let (commitAddr, commitBump) := findProgramAddress (mixCommitmentSeeds roundAddr owner)
  let (configAddr, configBump) := findProgramAddress configSeeds
  let material ← joinMaterial Point blake3 sha512 entropy fresh salt signerBytes noteUnits
  let roundBytes ← packU64 roundId
  let noteBytes ← packU64 noteUnits
  return {
    data := mixJoinDiscriminator ++ roundBytes ++ noteBytes ++ material.commitment.toList ++
      leBytes 4 recommendedCuBudget ++ [roundBump, commitBump, configBump]
    accounts := [
      { pubkey := owner, isSigner := true, isWritable := true },
      { pubkey := host, isSigner := false, isWritable := false },
      { pubkey := mint, isSigner := false, isWritable := false },
      { pubkey := roundAddr, isSigner := false, isWritable := true },
      { pubkey := commitAddr, isSigner := false, isWritable := true },
      { pubkey := configAddr, isSigner := false, isWritable := false },
      { pubkey := systemProgramId, isSigner := false, isWritable := false }] }

end Hash

/-! ### `ghos audit register` -/

def auditorRegisterDiscriminator : List UInt8 := [0x8c, 0x3f, 0x2a, 0x7c, 0x0d, 0x15, 0xb4, 0x8b]

def auditorPubkeyLen : ℕ := 32

/-- The whitespace of `str.strip`. -/
def isSpace (c : Char) : Bool :=
  c.toNat ∈ [0x09, 0x0a, 0x0b, 0x0c, 0x0d, 0x1c, 0x1d, 0x1e, 0x1f, 0x20, 0x85, 0xa0, 0x1680, 0x2000,
    0x2001, 0x2002, 0x2003, 0x2004, 0x2005, 0x2006, 0x2007, 0x2008, 0x2009, 0x200a, 0x2028, 0x2029,
    0x202f, 0x205f, 0x3000]

/-- `str.strip`. -/
def strip (value : String) : String :=
  String.ofList ((value.toList.dropWhile isSpace).reverse.dropWhile isSpace).reverse

/-- The whitespace that `bytes.fromhex` skips. -/
def isAsciiSpace (c : Char) : Bool := c.toNat ∈ [0x09, 0x0a, 0x0b, 0x0c, 0x0d, 0x20]

/-- The value of a hex digit. -/
def hexValue (c : Char) : Option ℕ :=
  if '0' ≤ c ∧ c ≤ '9' then some (c.toNat - '0'.toNat)
  else if 'a' ≤ c ∧ c ≤ 'f' then some (c.toNat - 'a'.toNat + 10)
  else if 'A' ≤ c ∧ c ≤ 'F' then some (c.toNat - 'A'.toNat + 10)
  else none

/-- `bytes.fromhex`: two digits for a byte, with whitespace between the bytes. -/
def fromHex : List Char → Option (List UInt8)
  | [] => some []
  | [c] => if isAsciiSpace c then some [] else none
  | c :: d :: rest =>
    if isAsciiSpace c then fromHex (d :: rest)
    else do
      let high ← hexValue c
      let low ← hexValue d
      let bytes ← fromHex rest
      return .ofNat (16 * high + low) :: bytes

variable (Point) in
/-- `PublicKey.from_bytes`. -/
def PublicKey.fromBytes (data : List UInt8) : Except Error PublicKey := do
  throwUnless (data.length = 32) (.cryptoError s!"PublicKey must be 32 bytes, got {data.length}")
  let _ : Point ← ristrettoDecode data
  return ⟨data⟩

section Base58

-- `fromString` is `Pubkey.from_string`
variable (Point) (fromString : String → Option (Vector UInt8 32))

/-- Parse an auditor key from hex or base58. -/
def decodeAuditorPubkey (value : String) : Except CommandError (List UInt8) :=
  let value := strip value
  if value.length = 2 * auditorPubkeyLen then
    match fromHex value.toList with
    | some bytes => .ok bytes
    | none => .error (.auditorError "invalid hex auditor key" value)
  else
    match fromString value with
    | some bytes => do
      let pk ← (PublicKey.fromBytes Point bytes.toList).mapError .crypto
      return pk.encoding
    | none => .error (.auditorError "invalid auditor key" value)

/-- The instruction of `_run_register`. -/
def runRegister (owner mint : Pubkey) (auditor : String) :
    Except CommandError (Instruction Pubkey) := do
  let auditorKeyBytes ← decodeAuditorPubkey Point fromString auditor
  let (auditorAddr, auditorBump) := findProgramAddress (auditorSeeds mint)
  let (configAddr, configBump) := findProgramAddress configSeeds
  return {
    data := auditorRegisterDiscriminator ++ auditorKeyBytes ++ leBytes 4 recommendedCuBudget ++
      [auditorBump, configBump]
    accounts := [
      { pubkey := owner, isSigner := true, isWritable := true },
      { pubkey := mint, isSigner := false, isWritable := false },
      { pubkey := auditorAddr, isSigner := false, isWritable := true },
      { pubkey := configAddr, isSigner := false, isWritable := false },
      { pubkey := systemProgramId, isSigner := false, isWritable := false }] }

end Base58

/-! ### The bytes -/

section Bytes

variable {sha512 : List UInt8 → Vector UInt8 64} {blake3 : List UInt8 → Vector UInt8 32}
  {entropy : Entropy} {fresh : RandomScalar} {salt : Vector UInt8 32} {owner mint host : Pubkey}
  {signerBytes : List UInt8} {ix : Instruction Pubkey}

/-- The nonce and the duration come first. -/
theorem runCreate_data {nonce : UInt64} {ttlSeconds : Int64}
    (h : runCreate Point sha512 entropy owner signerBytes ttlSeconds.toInt nonce.toNat = .ok ix) :
    ∃ rest, ix.data.drop 8 = nonce.toLeBytes ++ (ttlSeconds.toLeBytes ++ rest) := by
  simp only [runCreate, except_bind_eq_ok, packU64_toNat, packI64_toInt, Except.ok.injEq,
    exists_eq_left', except_pure_eq_ok] at h
  obtain ⟨_, -, _, -, _, -, rfl⟩ := h
  simp only [List.append_assoc]
  exact ⟨_, rfl⟩

/-- The round id and the amount come before the commitment. -/
theorem runJoin_data {roundId noteUnits : ℤ}
    (h : runJoin Point blake3 sha512 entropy fresh salt owner mint host signerBytes roundId
      noteUnits = .ok ix) :
    ∃ material, joinMaterial Point blake3 sha512 entropy fresh salt signerBytes noteUnits =
      .ok material ∧ (0 ≤ noteUnits ∧ noteUnits < 2 ^ 64) ∧
        ∃ rest, ix.data.drop 8 = leBytes 8 roundId.toNat ++ (leBytes 8 noteUnits.toNat ++
          (material.commitment.toList ++ rest)) := by
  simp only [runJoin, except_bind_eq_ok, packU64_eq_ok, except_pure_eq_ok] at h
  obtain ⟨_, -, material, hmaterial, _, ⟨-, rfl⟩, _, ⟨hnote, rfl⟩, rfl⟩ := h
  refine ⟨material, hmaterial, hnote, ?_⟩
  simp only [List.append_assoc]
  exact ⟨_, rfl⟩

/-- Any other nonce than a slot of the registry is refused. -/
theorem runCreate_refuses {ttlSeconds nonce : ℤ}
    (hslot : ¬ (0 ≤ nonce ∧ nonce < burnerRegistryCapPerOwner)) :
    ∃ message, runCreate Point sha512 entropy owner signerBytes ttlSeconds nonce =
      .error (.badParameter message) := by
  rw [runCreate, throwUnless, if_neg hslot]
  exact ⟨_, rfl⟩

/-- Every slot is served. -/
theorem exists_runCreate (hsigner : 32 ≤ signerBytes.length) {nonce : UInt64}
    (hnonce : nonce.toNat < 64) (ttlSeconds : Int64) :
    ∃ ix, runCreate Point sha512 entropy owner signerBytes ttlSeconds.toInt nonce.toNat =
      .ok ix := by
  have hslot : 0 ≤ (nonce.toNat : ℤ) ∧ (nonce.toNat : ℤ) < burnerRegistryCapPerOwner := by
    unfold burnerRegistryCapPerOwner
    omega
  have hfits : 0 ≤ (nonce.toNat : ℤ) ∧ (nonce.toNat : ℤ) / 2 ^ 64 = 0 := by omega
  have hprefix : (asciiBytes "burner:").length = 7 := rfl
  have hcontext : (asciiBytes "burner:" ++ leBytes 8 (nonce.toNat : ℤ).toNat).length < 2 ^ 16 := by
    rw [List.length_append, length_leBytes, hprefix]
    norm_num
  have hkey : deriveBurnerElgamal Point sha512 entropy signerBytes nonce.toNat = .ok _ :=
    throwUnless_bind_eq_ok.2 ⟨hfits, deriveElgamalFromSigner_eq_keypairOf hsigner hcontext⟩
  simp only [runCreate, except_bind_eq_ok, mapError_eq_ok, burnerSeeds_eq_ok, hkey, packU64_toNat,
    packI64_toInt, Except.ok.injEq, exists_eq_left', except_pure_eq_ok]
  exact ⟨_, (), throwUnless_eq_ok.2 hslot, rfl⟩

variable (Point sha512 blake3 entropy fresh salt signerBytes) in
/-- The commitment over the key of the wallet, the encrypted amount and the salt. -/
def joinCommitment (noteUnits : ℕ) : Vector UInt8 32 :=
  let scalar := secretScalar sha512 entropy userDefault (signerBytes.take 32)
  blake3 (commitTranscript (keypairOf Point scalar).publicKey.encoding
    (ciphertextBytes (amountCiphertext Point scalar noteUnits fresh)) salt.toList)

theorem exists_joinMaterial (hsigner : 32 ≤ signerBytes.length) {noteUnits : ℕ}
    (hnote : noteUnits < 2 ^ 64) :
    ∃ material, joinMaterial Point blake3 sha512 entropy fresh salt signerBytes noteUnits =
        .ok material ∧
      material.commitment =
        joinCommitment Point sha512 blake3 entropy fresh salt signerBytes noteUnits := by
  have huser : userDefault.length < 2 ^ 16 := by decide
  let scalar := secretScalar sha512 entropy userDefault (signerBytes.take 32)
  let keypair := keypairOf Point scalar
  let note := amountCiphertext Point scalar noteUnits fresh
  have hencrypt : encrypt Point fresh keypair.publicKey noteUnits none = .ok note :=
    encrypt_keypairOf fresh scalar hnote
  have hcommit : commitHash blake3 keypair.publicKey.encoding (ciphertextBytes note) salt.toList =
      .ok (joinCommitment Point sha512 blake3 entropy fresh salt signerBytes noteUnits) := by
    refine commitHash_eq_ok.2 ⟨?_, ?_, ?_, rfl⟩
    · simp [keypair, keypairOf, publicKey]
    · simp [note, ciphertextBytes, amountCiphertext, encodeCiphertext]
    · simp
  refine ⟨⟨keypair, note, _⟩, ?_, rfl⟩
  rw [joinMaterial, deriveElgamalFromSigner_eq_keypairOf hsigner huser]
  simp only [Except.mapError, bind, Except.bind]
  simp only [keypair, scalar] at hencrypt hcommit
  simp only [hencrypt, hcommit]
  rfl

theorem exists_runJoin (hsigner : 32 ≤ signerBytes.length) (roundId noteUnits : UInt64) :
    ∃ ix, runJoin Point blake3 sha512 entropy fresh salt owner mint host signerBytes roundId.toNat
      noteUnits.toNat = .ok ix := by
  obtain ⟨material, hmaterial, -⟩ : ∃ material, joinMaterial Point blake3 sha512 entropy fresh salt
      signerBytes noteUnits.toNat = .ok material ∧ _ :=
    exists_joinMaterial hsigner noteUnits.toNat_lt
  simp only [runJoin, except_bind_eq_ok, mapError_eq_ok, mixRoundSeeds_eq_ok, hmaterial,
    packU64_toNat, Except.ok.injEq, exists_eq_left', except_pure_eq_ok]
  exact ⟨_, rfl⟩

/-- A byte takes two digits. -/
theorem length_fromHex {digits : List Char} {bytes : List UInt8}
    (h : fromHex digits = some bytes) : 2 * bytes.length ≤ digits.length := by
  induction digits using fromHex.induct generalizing bytes with
  | case1 =>
    rw [fromHex, Option.some.injEq] at h
    subst h
    rfl
  | case2 c hspace =>
    rw [fromHex, if_pos hspace, Option.some.injEq] at h
    subst h
    simp
  | case3 c hspace =>
    rw [fromHex, if_neg hspace] at h
    cases h
  | case4 c d rest hspace ih =>
    rw [fromHex, if_pos hspace] at h
    have := ih h
    simp only [List.length_cons] at this ⊢
    omega
  | case5 c d rest hspace ih =>
    rw [fromHex, if_neg hspace] at h
    simp only [bind, Option.bind_eq_some_iff, pure, Option.some.injEq] at h
    obtain ⟨_, -, _, -, tail, htail, rfl⟩ := h
    have := ih htail
    simp only [List.length_cons]
    omega

/-- An auditor key has 32 bytes at most. -/
theorem length_decodeAuditorPubkey {fromString : String → Option (Vector UInt8 32)}
    {value : String} {key : List UInt8}
    (h : decodeAuditorPubkey Point fromString value = .ok key) : key.length ≤ 32 := by
  simp only [decodeAuditorPubkey] at h
  split_ifs at h with hlen
  · cases hhex : fromHex (strip value).toList with
    | none =>
      rw [hhex] at h
      cases h
    | some bytes =>
      rw [hhex, Except.ok.injEq] at h
      subst h
      have hdigits := length_fromHex hhex
      have htext : (strip value).toList.length = 2 * auditorPubkeyLen := hlen
      unfold auditorPubkeyLen at htext
      omega
  · cases hkey : fromString (strip value) with
    | none =>
      rw [hkey] at h
      cases h
    | some bytes =>
      rw [hkey] at h
      simp only [except_bind_eq_ok, mapError_eq_ok, except_pure_eq_ok, PublicKey.fromBytes] at h
      obtain ⟨pk, ⟨_, -, _, -, rfl⟩, rfl⟩ := h
      exact bytes.length_toList.le

/-- The key is all that the command says. -/
theorem length_runRegister {fromString : String → Option (Vector UInt8 32)} {auditor : String}
    (h : runRegister Point fromString owner mint auditor = .ok ix) :
    (ix.data.drop 8).length ≤ 38 := by
  simp only [runRegister, except_bind_eq_ok, except_pure_eq_ok] at h
  obtain ⟨key, hkey, rfl⟩ := h
  have hlen := length_decodeAuditorPubkey hkey
  simp only [auditorRegisterDiscriminator, List.length_drop, List.length_append, List.length_cons,
    List.length_nil, length_leBytes]
  omega

end Bytes

end Cli

end Ghos
