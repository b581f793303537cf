import Ghos.Client.ConfigCodec
import Ghos.Program.CallEffects

/-!
# Program derived addresses on three sides

`sdk/src/pdas.ts`, `cli/ghos_cli/pdas.py` and the constraints of the program each list the seeds of
the accounts.

* `pdasAgree_iff`: the lists are the same for the config, the burners, the commitments and the
  auditor entries, and for no round and no padding vault;
* `mixRound_address_ne`, `paddingVault_address_ne`: there the addresses are different, too.
-/

namespace Ghos

variable {Pubkey : Type}

/-- The bytes of a seed. -/
def Seed.toBytes [Sdk.KeyBytes Pubkey] : Seed Pubkey → List UInt8
  | .bytes b => b
  | .key k => (Sdk.KeyBytes.toBytes k).toList

/-! ### The SDK -/

namespace Sdk

def configSeed : List UInt8 := asciiBytes "ghos.config"

def burnerSeed : List UInt8 := asciiBytes "ghos.burner"

def mixRoundSeed : List UInt8 := asciiBytes "ghos.mix.round"

def mixCommitmentSeed : List UInt8 := asciiBytes "ghos.mix.commit"

def auditorSeed : List UInt8 := asciiBytes "ghos.auditor"

def paddingVaultSeed : List UInt8 := asciiBytes "ghos.padding"

/-- Encode a number as eight bytes, little-endian. -/
def toLeBytes64 (value : JsInteger) : Except SdkError (List UInt8) := do
  let bn ← value.toBN
  toArrayLike 8 bn

/-- The seeds of `deriveConfigPda`. -/
def configSeeds : List (Seed Pubkey) := [.bytes configSeed]

/-- The seeds of `deriveBurnerPda`. -/
def burnerSeeds (owner : Pubkey) (nonce : JsInteger) : Except SdkError (List (Seed Pubkey)) := do
  let nonceBytes ← toLeBytes64 nonce
  return [.bytes burnerSeed, .key owner, .bytes nonceBytes]

/-- The seeds of `deriveMixRoundPda`. -/
def mixRoundSeeds (host mint : Pubkey) (roundNonce : JsInteger) :
    Except SdkError (List (Seed Pubkey)) := do
  let nonceBytes ← toLeBytes64 roundNonce
  return [.bytes mixRoundSeed, .key host, .key mint, .bytes nonceBytes]

/-- The seeds of `deriveMixCommitmentPda`. -/
def mixCommitmentSeeds (round participant : Pubkey) : List (Seed Pubkey) :=
  [.bytes mixCommitmentSeed, .key round, .key participant]

/-- The seeds of `deriveAuditorPda`. -/
def auditorSeeds (mint : Pubkey) : List (Seed Pubkey) := [.bytes auditorSeed, .key mint]

/-- The seeds of `derivePaddingVaultPda`. -/
def paddingVaultSeeds : List (Seed Pubkey) := [.bytes paddingVaultSeed]

theorem toLeBytes64_bigint (v : UInt64) :
    toLeBytes64 (.bigint v.toNat) = .ok v.toLeBytes := by
  have hv := v.toNat_lt
  have hfits : (v.toNat : ℤ).natAbs < 256 ^ 8 := by omega
  simp only [toLeBytes64, JsInteger.toBN, except_bind_eq_ok, Except.ok.injEq, exists_eq_left']
  exact toArrayLike_eq_ok.2 ⟨hfits, rfl⟩

theorem burnerSeeds_eq_ok (owner : Pubkey) (nonce : UInt64) :
    burnerSeeds owner (.bigint nonce.toNat) =
      .ok [.bytes burnerSeed, .key owner, .bytes nonce.toLeBytes] := by
  rw [burnerSeeds, toLeBytes64_bigint]
  rfl

theorem mixRoundSeeds_eq_ok (host mint : Pubkey) (roundNonce : UInt64) :
    mixRoundSeeds host mint (.bigint roundNonce.toNat) =
      .ok [.bytes mixRoundSeed, .key host, .key mint, .bytes roundNonce.toLeBytes] := by
  rw [mixRoundSeeds, toLeBytes64_bigint]
  rfl

end Sdk

/-! ### The CLI -/

namespace Cli

def configSeed : List UInt8 := asciiBytes "ghos.config"

def burnerSeed : List UInt8 := asciiBytes "ghos.burner"

def mixRoundSeed : List UInt8 := asciiBytes "ghos.mix.round"

def mixCommitmentSeed : List UInt8 := asciiBytes "ghos.mix.commit"

def auditorSeed : List UInt8 := asciiBytes "ghos.auditor"

def paddingVaultSeed : List UInt8 := asciiBytes "ghos.padding"

/-- Python's `ValueError`. -/
structure ValueError where
  message : String
  deriving DecidableEq

/-- The seeds of `config_pda`. -/
def configSeeds : List (Seed Pubkey) := [.bytes configSeed]

/-- The seeds of `burner_pda`. -/
def burnerSeeds (owner : Pubkey) (nonce : ℤ) : Except ValueError (List (Seed Pubkey)) := do
  throwUnless (0 ≤ nonce ∧ nonce / 2 ^ 64 = 0) ⟨s!"burner nonce out of u64 range: {nonce}"⟩
  return [.bytes burnerSeed, .key owner, .bytes (leBytes 8 nonce.toNat)]

/-- The seeds of `mix_round_pda`. -/
def mixRoundSeeds (mint host : Pubkey) (roundId : ℤ) : Except ValueError (List (Seed Pubkey)) := do
  throwUnless (0 ≤ roundId ∧ roundId / 2 ^ 64 = 0) ⟨s!"round_id out of u64 range: {roundId}"⟩
  return [.bytes mixRoundSeed, .key mint, .key host, .bytes (leBytes 8 roundId.toNat)]

/-- The seeds of `mix_commitment_pda`. -/
def mixCommitmentSeeds (round participant : Pubkey) : List (Seed Pubkey) :=
  [.bytes mixCommitmentSeed, .key round, .key participant]

/-- The seeds of `auditor_pda`. -/
def auditorSeeds (mint : Pubkey) : List (Seed Pubkey) := [.bytes auditorSeed, .key mint]

/-- The seeds of `padding_vault_pda`. -/
def paddingVaultSeeds (mint : Pubkey) : List (Seed Pubkey) := [.bytes paddingVaultSeed, .key mint]

theorem burnerSeeds_eq_ok (owner : Pubkey) (nonce : UInt64) :
    burnerSeeds owner nonce.toNat =
      .ok [.bytes burnerSeed, .key owner, .bytes nonce.toLeBytes] := by
  have hnonce := nonce.toNat_lt
  rw [burnerSeeds, throwUnless, if_pos (by omega)]
  rfl

theorem mixRoundSeeds_eq_ok (mint host : Pubkey) (roundId : UInt64) :
    mixRoundSeeds mint host roundId.toNat =
      .ok [.bytes mixRoundSeed, .key mint, .key host, .bytes roundId.toLeBytes] := by
  have hid := roundId.toNat_lt
  rw [mixRoundSeeds, throwUnless, if_pos (by omega)]
  rfl

end Cli

/-! ### The three lists -/

/-- An account of the protocol, by what its address depends on. -/
inductive PdaRequest (Pubkey : Type)
  | config
  | burner (owner : Pubkey) (nonce : UInt64)
  | mixRound (mint host : Pubkey) (roundId : UInt64)
  | mixCommitment (round participant : Pubkey)
  | auditor (mint : Pubkey)
  | paddingVault (mint : Pubkey)
  deriving DecidableEq

namespace PdaRequest

/-- The seeds in the constraints of the program, which has no account for the vault. -/
def programSeeds : PdaRequest Pubkey → Option (List (Seed Pubkey))
  | config => some Ghos.configSeeds
  | burner owner nonce => some (Ghos.burnerSeeds owner nonce)
  | mixRound mint _ roundId => some (Ghos.mixRoundSeeds mint roundId)
  | mixCommitment round participant => some (Ghos.mixCommitmentSeeds round participant)
  | auditor mint => some (Ghos.auditorSeeds mint)
  | paddingVault _ => none

def sdkSeeds : PdaRequest Pubkey → Except Sdk.SdkError (List (Seed Pubkey))
  | config => return Sdk.configSeeds
  | burner owner nonce => Sdk.burnerSeeds owner (.bigint nonce.toNat)
  | mixRound mint host roundId => Sdk.mixRoundSeeds host mint (.bigint roundId.toNat)
  | mixCommitment round participant => return Sdk.mixCommitmentSeeds round participant
  | auditor mint => return Sdk.auditorSeeds mint
  | paddingVault _ => return Sdk.paddingVaultSeeds

def cliSeeds : PdaRequest Pubkey → Except Cli.ValueError (List (Seed Pubkey))
  | config => return Cli.configSeeds
  | burner owner nonce => Cli.burnerSeeds owner nonce.toNat
  | mixRound mint host roundId => Cli.mixRoundSeeds mint host roundId.toNat
  | mixCommitment round participant => return Cli.mixCommitmentSeeds round participant
  | auditor mint => return Cli.auditorSeeds mint
  | paddingVault mint => return Cli.paddingVaultSeeds mint

/-- The kinds for which the three sides have one list. -/
def Shared : PdaRequest Pubkey → Prop
  | config | burner _ _ | mixCommitment _ _ | auditor _ => True
  | mixRound _ _ _ | paddingVault _ => False

end PdaRequest

section Agreement

variable [Sdk.KeyBytes Pubkey] [AddressSpace Pubkey]

/-- The three sides hash the same byte strings, and so they derive the same address. -/
structure PdasAgree (request : PdaRequest Pubkey) : Prop where
  seeds : ∃ sdk cli, request.sdkSeeds = .ok sdk ∧ request.cliSeeds = .ok cli ∧
    sdk.map Seed.toBytes = cli.map Seed.toBytes ∧
    ∀ program ∈ request.programSeeds, sdk.map Seed.toBytes = program.map Seed.toBytes
  address : ∃ sdk cli, request.sdkSeeds = .ok sdk ∧ request.cliSeeds = .ok cli ∧
    findProgramAddress sdk = findProgramAddress cli ∧
    ∀ program ∈ request.programSeeds, findProgramAddress sdk = findProgramAddress program

theorem PdasAgree.of_seeds {request : PdaRequest Pubkey} {seeds : List (Seed Pubkey)}
    (hsdk : request.sdkSeeds = .ok seeds) (hcli : request.cliSeeds = .ok seeds)
    (hprogram : request.programSeeds = some seeds) : PdasAgree request := by
  refine ⟨⟨seeds, seeds, hsdk, hcli, rfl, ?_⟩, ⟨seeds, seeds, hsdk, hcli, rfl, ?_⟩⟩
  all_goals
    intro program hmem
    rw [hprogram, Option.mem_some_iff] at hmem
    rw [hmem]

omit [Sdk.KeyBytes Pubkey] in
/-- Seeds of different lengths have different addresses. -/
theorem address_ne_of_length {seeds seeds' : List (Seed Pubkey)}
    (h : (Seed.concat seeds).length ≠ (Seed.concat seeds').length) :
    (findProgramAddress seeds).1 ≠ (findProgramAddress seeds').1 := fun heq =>
  h (congrArg List.length (findProgramAddress_injective heq))

omit [Sdk.KeyBytes Pubkey] in
/-- The SDK looks for a round where the program never puts one. -/
theorem mixRound_address_ne {mint host : Pubkey} {roundId : UInt64} {seeds : List (Seed Pubkey)}
    (h : Sdk.mixRoundSeeds host mint (.bigint roundId.toNat) = .ok seeds) (mint' : Pubkey)
    (roundId' : UInt64) : (findProgramAddress seeds).1 ≠ mixRoundPda mint' roundId' := by
  rw [Sdk.mixRoundSeeds_eq_ok, Except.ok.injEq] at h
  subst h
  refine address_ne_of_length ?_
  simp [Seed.concat, Ghos.mixRoundSeeds, UInt64.toLeBytes, length_leBytes, Sdk.mixRoundSeed,
    Ghos.mixRoundSeed, asciiBytes]

omit [Sdk.KeyBytes Pubkey] in
/-- The two clients look for the padding vault in two places. -/
theorem paddingVault_address_ne (mint : Pubkey) :
    (findProgramAddress (Sdk.paddingVaultSeeds : List (Seed Pubkey))).1 ≠
      (findProgramAddress (Cli.paddingVaultSeeds mint)).1 := by
  refine address_ne_of_length ?_
  simp [Seed.concat, Sdk.paddingVaultSeeds, Cli.paddingVaultSeeds, Sdk.paddingVaultSeed,
    Cli.paddingVaultSeed, asciiBytes]

/-- The three sides agree exactly on the kinds that have one list. -/
theorem pdasAgree_iff (request : PdaRequest Pubkey) : PdasAgree request ↔ request.Shared := by
  cases request with
  | config => exact iff_of_true (.of_seeds rfl rfl rfl) trivial
  | burner owner nonce =>
    have hsdk := Sdk.burnerSeeds_eq_ok owner nonce
    have hcli := Cli.burnerSeeds_eq_ok owner nonce
    exact iff_of_true (.of_seeds hsdk hcli rfl) trivial
  | mixRound mint host roundId =>
    refine iff_of_false ?_ id
    intro h
    obtain ⟨sdk, -, hsdk, -, -, hprogram⟩ := h.address
    exact mixRound_address_ne hsdk mint roundId (congrArg Prod.fst (hprogram _ rfl))
  | mixCommitment round participant => exact iff_of_true (.of_seeds rfl rfl rfl) trivial
  | auditor mint => exact iff_of_true (.of_seeds rfl rfl rfl) trivial
  | paddingVault mint =>
    refine iff_of_false ?_ id
    intro h
    obtain ⟨sdk, cli, hsdk, hcli, heq, -⟩ := h.address
    cases hsdk
    cases hcli
    exact paddingVault_address_ne mint (congrArg Prod.fst heq)

end Agreement

/-- The first round of a mint, and its padding vault. -/
theorem pdas_differ :
    ¬ PdasAgree (.mixRound (.wallet 3) (.wallet 2) 0 : PdaRequest Sym) ∧
      ¬ PdasAgree (.paddingVault (.wallet 3) : PdaRequest Sym) := by
  constructor
  · intro h
    obtain ⟨sdk, -, hsdk, -, -, hprogram⟩ := h.seeds
    cases hsdk
    exact absurd (hprogram _ rfl) (by decide)
  · intro h
    obtain ⟨sdk, cli, hsdk, hcli, heq, -⟩ := h.seeds
    cases hsdk
    cases hcli
    exact absurd heq (by decide)

end Ghos
