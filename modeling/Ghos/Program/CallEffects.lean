import Ghos.Program.Calls
import Ghos.Program.Effects

/-!
# What each call does

For the eight entry points outside `Instruction`, as in `Ghos.Program.Effects`: the conditions
`Admits` under which the call is accepted and what it writes.  `CallEffect` collects the accepted
calls; the cases of an entry that has changed are `CallEffect.auditor_cases` and
`CallEffect.burner_cases`.
-/

namespace Ghos

variable {Pubkey Digest World : Type} [DecidableEq Pubkey] [AddressSpace Pubkey]
  [External Pubkey World] {c c' : Chain Pubkey Digest} {world world' : World} {now : Int64}
  {signers : List Pubkey} {event : RegistryEvent Pubkey}

/-! ### Addresses of the registries -/

section Addresses

omit [DecidableEq Pubkey] [External Pubkey World]

/-- The address of the auditor entry of a mint. -/
def auditorPda (mint : Pubkey) : Pubkey := (findProgramAddress (auditorSeeds mint)).1

/-- The address of the burner entry of an owner with a given nonce. -/
def burnerPda (owner : Pubkey) (nonce : UInt64) : Pubkey :=
  (findProgramAddress (burnerSeeds owner nonce)).1

omit [AddressSpace Pubkey] in
theorem concat_auditorSeeds_inj {m m' : Pubkey} :
    Seed.concat (auditorSeeds m) = Seed.concat (auditorSeeds m') ↔ m = m' := by
  refine ⟨fun h => ?_, fun hm => by rw [hm]⟩
  exact Sum.inr.inj (List.cons.inj (List.append_cancel_left h)).1

omit [AddressSpace Pubkey] in
theorem concat_burnerSeeds_inj {o o' : Pubkey} {n n' : UInt64} :
    Seed.concat (burnerSeeds o n) = Seed.concat (burnerSeeds o' n') ↔ o = o' ∧ n = n' := by
  refine ⟨fun h => ?_, fun ⟨ho, hn⟩ => by rw [ho, hn]⟩
  obtain ⟨ho, hn⟩ := List.cons.inj (List.append_cancel_left h)
  have hn := List.map_injective_iff.2 Sum.inl_injective (List.append_cancel_right hn)
  exact ⟨Sum.inr.inj ho, UInt64.toLeBytes_injective hn⟩

theorem burnerPda_inj {o o' : Pubkey} {n n' : UInt64} :
    burnerPda o n = burnerPda o' n' ↔ o = o' ∧ n = n' := by
  refine ⟨fun h => ?_, fun ⟨ho, hn⟩ => by rw [ho, hn]⟩
  exact concat_burnerSeeds_inj.1 (findProgramAddress_injective h)

end Addresses

/-! ### The auditor registry -/

/-- When `auditor_register` is accepted. -/
structure AuditorRegister.Admits (accounts : AuditorRegister Pubkey) (c : Chain Pubkey Digest)
    (world world' : World) (signers : List Pubkey) (pubkeyValidityProof : List UInt8)
    (config : GhosConfig Pubkey) : Prop where
  configAt : IsConfigAt c.ledger accounts.config config
  signer : accounts.admin ∈ signers
  system : accounts.systemProgram = systemProgramId
  address : accounts.auditorEntry = auditorPda accounts.mint
  fresh : c.isFree accounts.auditorEntry
  unpaused : config.paused = false
  admin : config.admin = accounts.admin
  zkProgram : accounts.zkProofProgram = zkTokenProofProgramId
  verified : invoke world (.zkTokenProof accounts.proofContext accounts.admin
    accounts.systemProgram (ProofKind.pubkeyValidity.tag :: pubkeyValidityProof)) = .ok world'

/-- The entry that `auditor_register` creates. -/
def AuditorRegister.entry (accounts : AuditorRegister Pubkey) (now : Int64)
    (auditorPubkey : Vector UInt8 32) (rotationCooldown : Int64) : AuditorEntry Pubkey where
  mint := accounts.mint
  auditorPubkey := auditorPubkey
  registeredAt := now
  lastRotatedAt := now
  rotationCooldown := rotationCooldown
  admin := accounts.admin
  bump := (findProgramAddress (auditorSeeds accounts.mint)).2
  reserved := .replicate 16 0

theorem auditorRegister_eq_ok {accounts : AuditorRegister Pubkey} {auditorPubkey : Vector UInt8 32}
    {pubkeyValidityProof : List UInt8} {rotationCooldown : Int64} :
    auditorRegister c world now signers accounts auditorPubkey pubkeyValidityProof
        rotationCooldown = .ok (c', event, world') ↔
      ∃ config, accounts.Admits c world world' signers pubkeyValidityProof config ∧
        c' = { c with
          auditors := c.auditors.set accounts.auditorEntry
            (accounts.entry now auditorPubkey rotationCooldown) } ∧
        event = .auditorRegistered accounts.mint auditorPubkey accounts.admin now := by
  simp only [auditorRegister, AuditorRegister.handler, assertNotPaused, assertAdmin, checkKeysEq,
    verifyAuditorPubkey, checkSigner, checkSystemProgram, checkSeeds, Result.bind_eq_ok,
    require_eq_ok, loadAccount_eq_ok, Chain.initAccount_eq_ok, verifyAndStore_eq_ok,
    Result.pure_eq_ok, Prod.mk.injEq, Bool.not_eq_true']
  constructor
  · rintro ⟨config, hl, -, hs, -, hp, bump, ⟨ha, hf, rfl⟩, -, hb, out,
      ⟨-, hu, -, had, w, ⟨hz, hv⟩, rfl⟩, rfl, rfl, rfl⟩
    exact ⟨config, ⟨⟨hl, hb⟩, hs, hp, ha, hf, hu, had, hz, hv⟩, rfl, rfl⟩
  · rintro ⟨config, ⟨⟨hl, hb⟩, hs, hp, ha, hf, hu, had, hz, hv⟩, rfl, rfl⟩
    exact ⟨config, hl, (), hs, (), hp, _, ⟨ha, hf, rfl⟩, (), hb, _,
      ⟨(), hu, (), had, world', ⟨hz, hv⟩, rfl⟩, rfl, rfl, rfl⟩

/-- When `auditor_rotate` is accepted. -/
structure AuditorRotate.Admits (accounts : AuditorRotate Pubkey) (c : Chain Pubkey Digest)
    (world world' : World) (now : Int64) (signers : List Pubkey) (pubkeyValidityProof : List UInt8)
    (config : GhosConfig Pubkey) (entry : AuditorEntry Pubkey) : Prop where
  configAt : IsConfigAt c.ledger accounts.config config
  signer : accounts.admin ∈ signers
  entryAt : c.auditors accounts.auditorEntry = some entry
  system : accounts.systemProgram = systemProgramId
  address : createProgramAddress (auditorSeeds accounts.mint) entry.bump =
    some accounts.auditorEntry
  entryAdmin : entry.admin = accounts.admin
  unpaused : config.paused = false
  admin : config.admin = accounts.admin
  cooledDown : entry.rotationCooldown ≤ now.saturatingSub entry.lastRotatedAt
  zkProgram : accounts.zkProofProgram = zkTokenProofProgramId
  verified : invoke world (.zkTokenProof accounts.proofContext accounts.admin
    accounts.systemProgram (ProofKind.pubkeyValidity.tag :: pubkeyValidityProof)) = .ok world'

/-- The entry after `auditor_rotate`. -/
def AuditorEntry.rotated (entry : AuditorEntry Pubkey) (now : Int64)
    (newAuditorPubkey : Vector UInt8 32) : AuditorEntry Pubkey :=
  { entry with auditorPubkey := newAuditorPubkey, lastRotatedAt := now }

theorem auditorRotate_eq_ok {accounts : AuditorRotate Pubkey} {newAuditorPubkey : Vector UInt8 32}
    {pubkeyValidityProof : List UInt8} :
    auditorRotate c world now signers accounts newAuditorPubkey pubkeyValidityProof =
        .ok (c', event, world') ↔
      ∃ config entry, accounts.Admits c world world' now signers pubkeyValidityProof config entry ∧
        c' = { c with
          auditors := c.auditors.set accounts.auditorEntry
            (entry.rotated now newAuditorPubkey) } ∧
        event = .auditorRotated entry.mint entry.auditorPubkey newAuditorPubkey now := by
  simp only [auditorRotate, AuditorRotate.handler, assertNotPaused, assertAdmin, checkKeysEq,
    verifyAuditorPubkey, checkSigner, checkSystemProgram, checkSeeds, Result.bind_eq_ok,
    require_eq_ok, loadAccount_eq_ok, Chain.load_eq_ok, verifyAndStore_eq_ok,
    Result.pure_eq_ok, Prod.mk.injEq, Bool.not_eq_true']
  constructor
  · rintro ⟨config, hl, -, hs, entry, he, -, hp, -, hb, -, ha, -, hea, out,
      ⟨-, hu, -, had, -, hcd, w, ⟨hz, hv⟩, rfl⟩, rfl, rfl, rfl⟩
    exact ⟨config, entry, ⟨⟨hl, hb⟩, hs, he, hp, ha, hea, hu, had, hcd, hz, hv⟩, rfl, rfl⟩
  · rintro ⟨config, entry, ⟨⟨hl, hb⟩, hs, he, hp, ha, hea, hu, had, hcd, hz, hv⟩, rfl, rfl⟩
    exact ⟨config, hl, (), hs, entry, he, (), hp, (), hb, (), ha, (), hea, _,
      ⟨(), hu, (), had, (), hcd, world', ⟨hz, hv⟩, rfl⟩, rfl, rfl, rfl⟩

/-! ### The burner registry -/

omit [External Pubkey World]

/-- When `create_burner` is accepted. -/
structure CreateBurner.Admits (accounts : CreateBurner Pubkey) (c : Chain Pubkey Digest)
    (signers : List Pubkey) (nonce : UInt64) (ttlSeconds : Int64) (config : GhosConfig Pubkey) :
    Prop where
  configAt : IsConfigAt c.ledger accounts.config config
  signer : accounts.owner ∈ signers
  system : accounts.systemProgram = systemProgramId
  address : accounts.burnerEntry = burnerPda accounts.owner nonce
  fresh : c.isFree accounts.burnerEntry
  unpaused : config.paused = false
  ttl : burnerTtlMinSeconds ≤ ttlSeconds ∧ ttlSeconds ≤ burnerTtlMaxSeconds

/-- The entry that `create_burner` creates. -/
def CreateBurner.entry (accounts : CreateBurner Pubkey) (now : Int64) (nonce : UInt64)
    (ttlSeconds : Int64) : BurnerAccount Pubkey where
  owner := accounts.owner
  burnerPubkey := accounts.burnerPubkey
  createdAt := now
  expiresAt := now.saturatingAdd ttlSeconds
  nonce := nonce
  revoked := false
  usageCount := 0
  bump := (findProgramAddress (burnerSeeds accounts.owner nonce)).2
  reserved := .replicate 16 0

theorem createBurner_eq_ok {accounts : CreateBurner Pubkey} {nonce : UInt64} {ttlSeconds : Int64} :
    createBurner c now signers accounts nonce ttlSeconds = .ok (c', event) ↔
      ∃ config, accounts.Admits c signers nonce ttlSeconds config ∧
        c' = { c with
          burners := c.burners.set accounts.burnerEntry
            (accounts.entry now nonce ttlSeconds) } ∧
        event = .burnerCreated accounts.owner accounts.burnerPubkey ttlSeconds
          (now.saturatingAdd ttlSeconds) := by
  simp only [createBurner, CreateBurner.handler, assertNotPaused, validateBurnerTtl, checkSigner,
    checkSystemProgram, checkSeeds, Result.bind_eq_ok, require_eq_ok, loadAccount_eq_ok,
    Chain.initAccount_eq_ok, Result.pure_eq_ok, Prod.mk.injEq, Bool.not_eq_true']
  constructor
  · rintro ⟨config, hl, -, hs, -, hp, bump, ⟨ha, hf, rfl⟩, -, hb, out, ⟨-, hu, -, ht, rfl⟩, rfl,
      rfl⟩
    exact ⟨config, ⟨⟨hl, hb⟩, hs, hp, ha, hf, hu, ht⟩, rfl, rfl⟩
  · rintro ⟨config, ⟨⟨hl, hb⟩, hs, hp, ha, hf, hu, ht⟩, rfl, rfl⟩
    exact ⟨config, hl, (), hs, (), hp, _, ⟨ha, hf, rfl⟩, (), hb, _, ⟨(), hu, (), ht, rfl⟩, rfl,
      rfl⟩

variable [External Pubkey World]

/-- When `destroy_burner` is accepted. -/
structure DestroyBurner.Admits (accounts : DestroyBurner Pubkey) (c : Chain Pubkey Digest)
    (world world' : World) (signers : List Pubkey) (zeroProofBytes : List UInt8)
    (config : GhosConfig Pubkey) (entry : BurnerAccount Pubkey) : Prop where
  configAt : IsConfigAt c.ledger accounts.config config
  signer : accounts.owner ∈ signers
  entryAt : c.burners accounts.burnerEntry = some entry
  system : accounts.systemProgram = systemProgramId
  address : createProgramAddress (burnerSeeds accounts.owner entry.nonce) entry.bump =
    some accounts.burnerEntry
  owner : entry.owner = accounts.owner
  unpaused : config.paused = false
  unrevoked : entry.revoked = false
  zkProgram : accounts.zkProofProgram = zkTokenProofProgramId
  verified : invoke world (.zkTokenProof accounts.proofContext accounts.owner
    accounts.systemProgram (ProofKind.zeroBalance.tag :: zeroProofBytes)) = .ok world'

theorem destroyBurner_eq_ok {accounts : DestroyBurner Pubkey} {zeroProofBytes : List UInt8} :
    destroyBurner c world now signers accounts zeroProofBytes = .ok (c', event, world') ↔
      ∃ config entry, accounts.Admits c world world' signers zeroProofBytes config entry ∧
        c' = { c with burners := c.burners.erase accounts.burnerEntry } ∧
        event = .burnerDestroyed entry.owner entry.burnerPubkey now := by
  simp only [destroyBurner, DestroyBurner.handler, assertNotPaused, verifyZeroBalance, checkSigner,
    checkSystemProgram, checkKeysEq, checkSeeds, Result.bind_eq_ok, require_eq_ok,
    loadAccount_eq_ok, Chain.load_eq_ok, verifyAndStore_eq_ok, Result.pure_eq_ok, Prod.mk.injEq,
    Bool.not_eq_true']
  constructor
  · rintro ⟨config, hl, -, hs, entry, he, -, hp, -, hb, -, ha, -, ho, out,
      ⟨-, hu, -, hr, w, ⟨hz, hv⟩, rfl⟩, rfl, rfl, rfl⟩
    exact ⟨config, entry, ⟨⟨hl, hb⟩, hs, he, hp, ha, ho, hu, hr, hz, hv⟩, rfl, rfl⟩
  · rintro ⟨config, entry, ⟨⟨hl, hb⟩, hs, he, hp, ha, ho, hu, hr, hz, hv⟩, rfl, rfl⟩
    exact ⟨config, hl, (), hs, entry, he, (), hp, (), hb, (), ha, (), ho, _,
      ⟨(), hu, (), hr, world', ⟨hz, hv⟩, rfl⟩, rfl, rfl, rfl⟩

/-! ### The token instructions -/

omit [AddressSpace Pubkey]

/-- A Token-2022 mint with the confidential transfer extension. -/
structure IsConfidentialMint (world : World) (mint : Pubkey) (state : Mint) : Prop where
  owner : accountOwner world mint = token2022ProgramId
  unpacked : unpackMint world mint = some state
  extension : ∃ extTypes, state.extensionTypes = some extTypes ∧
    .confidentialTransferMint ∈ extTypes

/-- A confidential Token-2022 account of the mint and the owner. -/
structure IsConfidentialAccount (world : World) (account mint owner : Pubkey) : Prop where
  program : accountOwner world account = token2022ProgramId
  unpacked : ∃ state, unpackAccount world account = some state ∧ state.mint = mint ∧
    state.owner = owner ∧ ∃ extTypes, state.extensionTypes = some extTypes ∧
      .confidentialTransferAccount ∈ extTypes

theorem readMintWithConfidentialExt_eq_ok {mint : Pubkey} {b : Bool} :
    readMintWithConfidentialExt world mint = .ok b ↔
      b = true ∧ ∃ state, IsConfidentialMint world mint state := by
  simp only [readMintWithConfidentialExt, Result.bind_eq_ok, require_eq_ok, okOr_eq_ok,
    Result.pure_eq_ok]
  constructor
  · rintro ⟨-, ho, state, hs, extTypes, he, -, hm, rfl⟩
    exact ⟨rfl, state, ho, hs, extTypes, he, hm⟩
  · rintro ⟨rfl, state, ho, hs, extTypes, he, hm⟩
    exact ⟨(), ho, state, hs, extTypes, he, (), hm, rfl⟩

theorem assertConfidentialAccount_eq_ok {account mint owner : Pubkey} {u : Unit} :
    assertConfidentialAccount world account mint owner = .ok u ↔
      IsConfidentialAccount world account mint owner := by
  simp only [assertConfidentialAccount, Result.bind_eq_ok, require_eq_ok, okOr_eq_ok]
  constructor
  · rintro ⟨-, hp, state, hs, -, hm, -, ho, extTypes, he, hx⟩
    exact ⟨hp, state, hs, hm, ho, extTypes, he, hx⟩
  · rintro ⟨hp, state, hs, hm, ho, extTypes, he, hx⟩
    exact ⟨(), hp, state, hs, (), hm, (), ho, extTypes, he, hx⟩

omit [DecidableEq Pubkey] in
theorem probeDecimals_eq_ok {mint : Pubkey} {decimals : UInt8} :
    probeDecimals world mint = .ok decimals ↔
      ∃ state, unpackMint world mint = some state ∧ state.decimals = decimals := by
  simp only [probeDecimals, Result.bind_eq_ok, okOr_eq_ok, Result.pure_eq_ok]

variable [AddressSpace Pubkey]

/-- When `shield` is accepted. -/
structure Shield.Admits (accounts : Shield Pubkey) (c : Chain Pubkey Digest)
    (world world' : World) (signers : List Pubkey) (amount : UInt64) (config : GhosConfig Pubkey)
    (mint : Mint) : Prop where
  configAt : IsConfigAt c.ledger accounts.config config
  signer : accounts.owner ∈ signers
  unpaused : config.paused = false
  dustFree : dustFreeUnit ≤ amount ∧ amount % dustFreeUnit = 0
  tokenProgram : accounts.tokenProgram = token2022ProgramId
  mintAt : IsConfidentialMint world accounts.mint mint
  account : IsConfidentialAccount world accounts.confidentialAta accounts.mint accounts.owner
  deposited : invoke world (.deposit accounts.confidentialAta accounts.mint accounts.owner amount
    mint.decimals) = .ok world'

theorem shield_eq_ok {accounts : Shield Pubkey} {amount : UInt64} :
    shield c world now signers accounts amount = .ok (event, world') ↔
      ∃ config mint, accounts.Admits c world world' signers amount config mint ∧
        event = .shieldExecuted accounts.owner accounts.mint accounts.confidentialAta amount
          now := by
  simp only [shield, Shield.handler, assertNotPaused, checkSigner, checkSeeds, isToken2022Program,
    Outcome.bind_eq_ok, Outcome.lift_eq_ok, require_eq_ok, loadAccount_eq_ok,
    assertDustFree_eq_ok, readMintWithConfidentialExt_eq_ok, assertConfidentialAccount_eq_ok,
    probeDecimals_eq_ok, invokeToken22_eq_ok, Outcome.pure_eq_ok, Prod.mk.injEq,
    Bool.not_eq_true', decide_eq_true_eq]
  constructor
  · rintro ⟨config, hl, -, hs, -, hb, -, hu, -, ha, -, ht, -, ⟨-, mint, hm⟩, -, hacc, -,
      ⟨mint', hm', rfl⟩, w, hw, rfl, rfl⟩
    obtain rfl := Option.some.inj (hm'.symm.trans hm.unpacked)
    exact ⟨config, mint', ⟨⟨hl, hb⟩, hs, hu, ha, ht, hm, hacc, hw⟩, rfl⟩
  · rintro ⟨config, mint, ⟨⟨hl, hb⟩, hs, hu, ha, ht, hm, hacc, hw⟩, rfl⟩
    exact ⟨config, hl, (), hs, (), hb, (), hu, (), ha, (), ht, true, ⟨rfl, mint, hm⟩, (), hacc, _,
      ⟨mint, hm.unpacked, rfl⟩, world', hw, rfl, rfl⟩

/-- When `apply_pending` is accepted. -/
structure ApplyPending.Admits (accounts : ApplyPending Pubkey) (c : Chain Pubkey Digest)
    (world world' : World) (signers : List Pubkey) (expectedPendingCounter : UInt64)
    (newDecryptableAvailable : Vector UInt8 36) (config : GhosConfig Pubkey) : Prop where
  configAt : IsConfigAt c.ledger accounts.config config
  signer : accounts.owner ∈ signers
  unpaused : config.paused = false
  tokenProgram : accounts.tokenProgram = token2022ProgramId
  counter : 0 < expectedPendingCounter
  account : IsConfidentialAccount world accounts.confidentialAta accounts.mint accounts.owner
  applied : invoke world (.applyPendingBalance accounts.confidentialAta accounts.owner
    expectedPendingCounter newDecryptableAvailable) = .ok world'

theorem applyPending_eq_ok {accounts : ApplyPending Pubkey} {expectedPendingCounter : UInt64}
    {newDecryptableAvailable : Vector UInt8 36} :
    applyPending c world now signers accounts expectedPendingCounter newDecryptableAvailable =
        .ok (event, world') ↔
      ∃ config, accounts.Admits c world world' signers expectedPendingCounter
          newDecryptableAvailable config ∧
        event = .pendingApplied accounts.owner accounts.mint expectedPendingCounter now := by
  simp only [applyPending, ApplyPending.handler, assertNotPaused, checkSigner, checkSeeds,
    isToken2022Program, Outcome.bind_eq_ok, Outcome.lift_eq_ok, require_eq_ok, loadAccount_eq_ok,
    assertConfidentialAccount_eq_ok, invokeToken22_eq_ok, Outcome.pure_eq_ok, Prod.mk.injEq,
    Bool.not_eq_true', decide_eq_true_eq]
  constructor
  · rintro ⟨config, hl, -, hs, -, hb, -, hu, -, ht, -, hn, -, hacc, w, hw, rfl, rfl⟩
    exact ⟨config, ⟨⟨hl, hb⟩, hs, hu, ht, hn, hacc, hw⟩, rfl⟩
  · rintro ⟨config, ⟨⟨hl, hb⟩, hs, hu, ht, hn, hacc, hw⟩, rfl⟩
    exact ⟨config, hl, (), hs, (), hb, (), hu, (), ht, (), hn, (), hacc, world', hw, rfl, rfl⟩

/-- When `confidential_transfer` is accepted. -/
structure ConfidentialTransfer.Admits (accounts : ConfidentialTransfer Pubkey)
    (c : Chain Pubkey Digest) (world world' : World) (signers : List Pubkey)
    (destinationOwner : Pubkey) (newSourceDecryptableBalance : Vector UInt8 36)
    (config : GhosConfig Pubkey) (auditorEntry : Option (AuditorEntry Pubkey)) : Prop where
  configAt : IsConfigAt c.ledger accounts.config config
  signer : accounts.sourceOwner ∈ signers
  auditorAt : accounts.auditorEntry.map c.auditors = auditorEntry.map some
  auditorMint : ∀ entry ∈ auditorEntry, entry.mint = accounts.mint
  unpaused : config.paused = false
  tokenProgram : accounts.tokenProgram = token2022ProgramId
  source : IsConfidentialAccount world accounts.sourceAccount accounts.mint accounts.sourceOwner
  destination : IsConfidentialAccount world accounts.destinationAccount accounts.mint
    destinationOwner
  transferred : invoke world (.transfer accounts.sourceAccount accounts.mint
    accounts.destinationAccount accounts.sourceOwner newSourceDecryptableBalance
    accounts.equalityProofContext accounts.ciphertextValidityProofContext
    accounts.rangeProofContext) = .ok world'

theorem confidentialTransfer_eq_ok {accounts : ConfidentialTransfer Pubkey}
    {destinationOwner : Pubkey} {newSourceDecryptableBalance : Vector UInt8 36} :
    confidentialTransfer c world now signers accounts destinationOwner
        newSourceDecryptableBalance = .ok (event, world') ↔
      ∃ config auditorEntry, accounts.Admits c world world' signers destinationOwner
          newSourceDecryptableBalance config auditorEntry ∧
        event = .confidentialTransferSubmitted accounts.sourceOwner destinationOwner
          accounts.mint accounts.rangeProofContext now := by
  simp only [confidentialTransfer, ConfidentialTransfer.handler, assertNotPaused, checkSigner,
    checkSeeds, isToken2022Program, Outcome.bind_eq_ok, Outcome.lift_eq_ok, require_eq_ok,
    loadAccount_eq_ok, Chain.loadOption_eq_ok, assertConfidentialAccount_eq_ok,
    invokeToken22_eq_ok, Outcome.pure_eq_ok, Prod.mk.injEq, Bool.not_eq_true',
    decide_eq_true_eq]
  constructor
  · rintro ⟨config, hl, -, hs, entry, he, -, hb, -, hm, -, hu, -, ht, -, hsrc, -, hdst, w, hw, rfl,
      rfl⟩
    exact ⟨config, entry, ⟨⟨hl, hb⟩, hs, he, hm, hu, ht, hsrc, hdst, hw⟩, rfl⟩
  · rintro ⟨config, entry, ⟨⟨hl, hb⟩, hs, he, hm, hu, ht, hsrc, hdst, hw⟩, rfl⟩
    exact ⟨config, hl, (), hs, entry, he, (), hb, (), hm, (), hu, (), ht, (), hsrc, (), hdst,
      world', hw, rfl, rfl⟩

/-- When `withdraw` is accepted. -/
structure Withdraw.Admits (accounts : Withdraw Pubkey) (c : Chain Pubkey Digest)
    (world world' : World) (signers : List Pubkey) (amount : UInt64)
    (newDecryptableAvailable : Vector UInt8 36) (config : GhosConfig Pubkey) (mint : Mint)
    (auditorEntry : Option (AuditorEntry Pubkey)) : Prop where
  configAt : IsConfigAt c.ledger accounts.config config
  signer : accounts.owner ∈ signers
  auditorAt : accounts.auditorEntry.map c.auditors = auditorEntry.map some
  unpaused : config.paused = false
  dustFree : dustFreeUnit ≤ amount ∧ amount % dustFreeUnit = 0
  tokenProgram : accounts.tokenProgram = token2022ProgramId
  mintAt : IsConfidentialMint world accounts.mint mint
  account : IsConfidentialAccount world accounts.confidentialAta accounts.mint accounts.owner
  auditorMint : ∀ entry ∈ auditorEntry, entry.mint = accounts.mint
  withdrawn : invoke world (.withdraw accounts.confidentialAta accounts.mint accounts.owner amount
    mint.decimals newDecryptableAvailable accounts.equalityProofContext
    accounts.rangeProofContext) = .ok world'

/-- A withdrawal counts as co-signed if an auditor entry of the mint is passed along. -/
theorem withdraw_eq_ok {accounts : Withdraw Pubkey} {amount : UInt64}
    {newDecryptableAvailable : Vector UInt8 36} :
    withdraw c world now signers accounts amount newDecryptableAvailable = .ok (event, world') ↔
      ∃ config mint auditorEntry, accounts.Admits c world world' signers amount
          newDecryptableAvailable config mint auditorEntry ∧
        event = .withdrawExecuted accounts.owner accounts.mint accounts.confidentialAta amount
          auditorEntry.isSome now := by
  simp only [withdraw, Withdraw.handler, assertNotPaused, checkSigner, checkSeeds,
    isToken2022Program, Outcome.bind_eq_ok, Outcome.lift_eq_ok, require_eq_ok, loadAccount_eq_ok,
    Chain.loadOption_eq_ok, assertDustFree_eq_ok, readMintWithConfidentialExt_eq_ok,
    assertConfidentialAccount_eq_ok, probeDecimals_eq_ok, Withdraw.cosigned_eq_ok,
    invokeToken22_eq_ok, Outcome.pure_eq_ok, Prod.mk.injEq, Bool.not_eq_true',
    decide_eq_true_eq]
  constructor
  · rintro ⟨config, hl, -, hs, entry, he, -, hb, -, hu, -, ha, -, ht, -, ⟨-, mint, hm⟩, -, hacc, -,
      ⟨mint', hm', rfl⟩, _, ⟨hmint, rfl⟩, w, hw, rfl, rfl⟩
    obtain rfl := Option.some.inj (hm'.symm.trans hm.unpacked)
    exact ⟨config, mint', entry, ⟨⟨hl, hb⟩, hs, he, hu, ha, ht, hm, hacc, hmint, hw⟩, rfl⟩
  · rintro ⟨config, mint, entry, ⟨⟨hl, hb⟩, hs, he, hu, ha, ht, hm, hacc, hmint, hw⟩, rfl⟩
    exact ⟨config, hl, (), hs, entry, he, (), hb, (), hu, (), ha, (), ht, true, ⟨rfl, mint, hm⟩,
      (), hacc, _, ⟨mint, hm.unpacked, rfl⟩, _, ⟨hmint, rfl⟩, world', hw, rfl, rfl⟩

end Ghos
