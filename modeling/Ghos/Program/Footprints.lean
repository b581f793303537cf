import Ghos.Lib.Footprint
import Ghos.Program.CallViews

/-!
# The accounts a call touches

A `#[derive(Accounts)]` struct declares the accounts of an instruction and marks those that sign and
those that the instruction may change.  `Entrypoint.accountFields` lists them for the fourteen entry
points.

* `dispatch_coupled`: a call behaves alike on two chains that agree on its declared accounts, also
  with other signers as long as the same declared accounts have signed;
* `dispatch_frame`: it changes only accounts that are declared `mut`;
* `footprint`: so every call has the footprint that its struct declares.
-/

namespace Ghos

/-! ### Declared accounts -/

/-- A field of a `#[derive(Accounts)]` struct with the account given for it. -/
structure AccountField (Pubkey : Type) where
  key : Pubkey
  signer : Bool
  writable : Bool
  deriving DecidableEq

namespace AccountField

variable {Pubkey : Type}

/-- A field without `mut`. -/
def readonly (key : Pubkey) : AccountField Pubkey := ⟨key, false, false⟩

/-- `#[account(mut)]` or `#[account(init)]`. -/
def writableAt (key : Pubkey) : AccountField Pubkey := ⟨key, false, true⟩

/-- `Signer<'info>`. -/
def signerAt (key : Pubkey) : AccountField Pubkey := ⟨key, true, false⟩

/-- `#[account(mut)]` on a `Signer<'info>`: it pays for what is created, or gets rent back. -/
def payer (key : Pubkey) : AccountField Pubkey := ⟨key, true, true⟩

end AccountField

open AccountField in
/-- The fields of the struct of an instruction of `Instruction`, in their order. -/
def Instruction.accountFields {Pubkey Digest : Type} :
    Instruction Pubkey Digest → List (AccountField Pubkey)
  | .ghosInitialize accounts =>
    [writableAt accounts.config, payer accounts.admin, readonly accounts.systemProgram]
  | .configUpdate accounts _ => [writableAt accounts.config, signerAt accounts.admin]
  | .mixInit accounts _ _ _ _ =>
    [readonly accounts.config, payer accounts.host, readonly accounts.mint,
      writableAt accounts.round, readonly accounts.systemProgram]
  | .mixCommit accounts _ =>
    [readonly accounts.config, payer accounts.participant, writableAt accounts.round,
      writableAt accounts.commitment, readonly accounts.systemProgram]
  | .mixReveal accounts _ _ =>
    [readonly accounts.config, payer accounts.participant, writableAt accounts.round,
      writableAt accounts.commitment]
  | .mixSettle accounts =>
    [readonly accounts.config, payer accounts.host, writableAt accounts.round]

open AccountField in
/-- The fields of the struct of an entry point, in their order.  An optional account that is not
given is left out. -/
def Entrypoint.accountFields {Pubkey Digest : Type} :
    Entrypoint Pubkey Digest → List (AccountField Pubkey)
  | .core instruction => instruction.accountFields
  | .shield accounts _ =>
    [readonly accounts.config, payer accounts.owner, writableAt accounts.confidentialAta,
      readonly accounts.mint, readonly accounts.tokenProgram]
  | .applyPending accounts _ _ =>
    [readonly accounts.config, payer accounts.owner, writableAt accounts.confidentialAta,
      readonly accounts.mint, readonly accounts.tokenProgram]
  | .confidentialTransfer accounts _ _ =>
    [readonly accounts.config, payer accounts.sourceOwner, writableAt accounts.sourceAccount,
      writableAt accounts.destinationAccount, readonly accounts.mint,
      readonly accounts.equalityProofContext, readonly accounts.ciphertextValidityProofContext,
      readonly accounts.rangeProofContext] ++ accounts.auditorEntry.toList.map readonly ++
      [readonly accounts.tokenProgram]
  | .withdraw accounts _ _ =>
    [readonly accounts.config, payer accounts.owner, writableAt accounts.confidentialAta,
      readonly accounts.mint] ++ accounts.rangeProofContext.toList.map readonly ++
      accounts.equalityProofContext.toList.map readonly ++
      accounts.auditorEntry.toList.map readonly ++ [readonly accounts.tokenProgram]
  | .createBurner accounts _ _ =>
    [readonly accounts.config, payer accounts.owner, readonly accounts.burnerPubkey,
      writableAt accounts.burnerEntry, readonly accounts.systemProgram]
  | .destroyBurner accounts _ =>
    [readonly accounts.config, payer accounts.owner, writableAt accounts.burnerEntry,
      readonly accounts.zkProofProgram, writableAt accounts.proofContext,
      readonly accounts.systemProgram]
  | .auditorRegister accounts _ _ _ =>
    [readonly accounts.config, payer accounts.admin, readonly accounts.mint,
      writableAt accounts.auditorEntry, readonly accounts.zkProofProgram,
      writableAt accounts.proofContext, readonly accounts.systemProgram]
  | .auditorRotate accounts _ _ =>
    [readonly accounts.config, payer accounts.admin, readonly accounts.mint,
      writableAt accounts.auditorEntry, readonly accounts.zkProofProgram,
      writableAt accounts.proofContext, readonly accounts.systemProgram]

/-! ### The checks read one account -/

section Checks

variable {Pubkey Digest α : Type} [DecidableEq Pubkey] {L M : Ledger Pubkey Digest}
  {c d : Chain Pubkey Digest} {a : Pubkey}

omit [DecidableEq Pubkey] in
theorem loadAccount_congr (as : Account Pubkey Digest → Option α) (h : L a = M a) :
    loadAccount as L a = loadAccount as M a := by
  unfold loadAccount
  rw [h]

theorem checkSigner_congr {signers signers' : List Pubkey} (h : a ∈ signers ↔ a ∈ signers') :
    checkSigner signers a = checkSigner signers' a := by
  unfold checkSigner require
  simp only [h]

omit [DecidableEq Pubkey] in
/-- The two chains hold the same at an address. -/
structure SameAt (c d : Chain Pubkey Digest) (a : Pubkey) : Prop where
  ledger : c.ledger a = d.ledger a
  auditor : c.auditors a = d.auditors a
  burner : c.burners a = d.burners a

omit [DecidableEq Pubkey] in
theorem SameAt.isFree (h : SameAt c d a) : c.isFree a = d.isFree a := by
  unfold Chain.isFree
  rw [h.ledger, h.auditor, h.burner]

omit [DecidableEq Pubkey] in
theorem SameAt.load {registry registry' : Store Pubkey α} (h : SameAt c d a)
    (hr : registry a = registry' a) : c.load registry a = d.load registry' a := by
  unfold Chain.load
  rw [hr, h.isFree]

variable [AddressSpace Pubkey]

theorem initAccount_congr (seeds : List (Seed Pubkey)) (h : L a = M a) :
    initAccount L a seeds = initAccount M a seeds := by
  unfold initAccount
  rw [h]

theorem SameAt.initAccount (seeds : List (Seed Pubkey)) (h : SameAt c d a) :
    c.initAccount a seeds = d.initAccount a seeds := by
  unfold Chain.initAccount
  rw [h.isFree]

end Checks

/-! ### The instructions on the ledger -/

section Core

variable {Pubkey Digest : Type} [DecidableEq Pubkey] [DecidableEq Digest] [AddressSpace Pubkey]
  [Sha256 Digest] {L M : Ledger Pubkey Digest} {now : Int64} {signers signers' : List Pubkey}

omit [DecidableEq Digest] [AddressSpace Pubkey] [Sha256 Digest] in
/-- What agreed before agrees after the same write. -/
theorem set_congr {V : Type} {S T : Store Pubkey V} (k : Pubkey) (v : V) {a : Pubkey}
    (h : S a = T a) : S.set k v a = T.set k v a := by
  by_cases hak : a = k
  · rw [hak, Store.set_self, Store.set_self]
  · rw [Store.set_of_ne S v hak, Store.set_of_ne T v hak, h]

omit [DecidableEq Digest] [AddressSpace Pubkey] [Sha256 Digest] in
theorem erase_congr {V : Type} {S T : Store Pubkey V} (k : Pubkey) {a : Pubkey}
    (h : S a = T a) : S.erase k a = T.erase k a := by
  by_cases hak : a = k
  · rw [hak, Store.erase_self, Store.erase_self]
  · rw [Store.erase_of_ne S hak, Store.erase_of_ne T hak, h]

/-- Where two ledgers agreed, the ledgers after them agree. -/
abbrev KeepsAgreement (L M L' M' : Ledger Pubkey Digest) : Prop := ∀ a, L a = M a → L' a = M' a

/-- An instruction behaves alike on two ledgers that agree on its accounts. -/
theorem instruction_coupled {instruction : Instruction Pubkey Digest}
    (hL : ∀ field ∈ instruction.accountFields, L field.key = M field.key)
    (hS : ∀ field ∈ instruction.accountFields, field.signer →
      (field.key ∈ signers ↔ field.key ∈ signers')) :
    Coupled (KeepsAgreement L M) (dispatch L ⟨now, signers, instruction⟩)
      (dispatch M ⟨now, signers', instruction⟩) := by
  cases instruction with
  | ghosInitialize accounts =>
    simp only [Instruction.accountFields, List.forall_mem_cons] at hL hS
    have hs : accounts.admin ∈ signers ↔ accounts.admin ∈ signers' := hS.2.1 rfl
    simp only [dispatch, ghosInitialize]
    rw [initAccount_congr (a := accounts.config) _ hL.1, checkSigner_congr hs]
    refine .bind _ fun _ => .bind _ fun _ => .bind _ fun bump => ?_
    exact .ok _ fun a ha => set_congr _ _ ha
  | configUpdate accounts field =>
    simp only [Instruction.accountFields, List.forall_mem_cons] at hL hS
    have hs : accounts.admin ∈ signers ↔ accounts.admin ∈ signers' := hS.2.1 rfl
    simp only [dispatch, configUpdate]
    rw [loadAccount_congr (a := accounts.config) _ hL.1, checkSigner_congr hs]
    refine .bind _ fun config => .bind _ fun _ => .bind _ fun _ => .bind _ fun out => ?_
    exact .ok _ fun a ha => set_congr _ _ ha
  | mixInit accounts roundId denomination capacity window =>
    simp only [Instruction.accountFields, List.forall_mem_cons] at hL hS
    have hs : accounts.host ∈ signers ↔ accounts.host ∈ signers' := hS.2.1 rfl
    simp only [dispatch, mixInit]
    rw [loadAccount_congr (a := accounts.config) _ hL.1, checkSigner_congr hs,
      initAccount_congr (a := accounts.round) _ hL.2.2.2.1]
    refine .bind _ fun config => .bind _ fun _ => .bind _ fun _ => .bind _ fun bump =>
      .bind _ fun _ => .bind _ fun out => ?_
    exact .ok _ fun a ha => set_congr _ _ ha
  | mixCommit accounts commitmentBytes =>
    simp only [Instruction.accountFields, List.forall_mem_cons] at hL hS
    have hs : accounts.participant ∈ signers ↔ accounts.participant ∈ signers' := hS.2.1 rfl
    simp only [dispatch, mixCommit]
    rw [loadAccount_congr (a := accounts.config) _ hL.1, checkSigner_congr hs,
      loadAccount_congr (a := accounts.round) _ hL.2.2.1,
      initAccount_congr (a := accounts.commitment) _ hL.2.2.2.1]
    refine .bind _ fun config => .bind _ fun _ => .bind _ fun round => .bind _ fun _ =>
      .bind _ fun bump => .bind _ fun _ => .bind _ fun out => ?_
    exact .ok _ fun a ha => set_congr _ _ (set_congr _ _ ha)
  | mixReveal accounts preimage revealSignal =>
    simp only [Instruction.accountFields, List.forall_mem_cons] at hL hS
    have hs : accounts.participant ∈ signers ↔ accounts.participant ∈ signers' := hS.2.1 rfl
    simp only [dispatch, mixReveal]
    rw [loadAccount_congr (a := accounts.config) _ hL.1, checkSigner_congr hs,
      loadAccount_congr (a := accounts.round) _ hL.2.2.1,
      loadAccount_congr (a := accounts.commitment) _ hL.2.2.2.1]
    refine .bind _ fun config => .bind _ fun _ => .bind _ fun round => .bind _ fun commitment =>
      .bind _ fun _ => .bind _ fun _ => .bind _ fun out => ?_
    exact .ok _ fun a ha => set_congr _ _ (set_congr _ _ ha)
  | mixSettle accounts =>
    simp only [Instruction.accountFields, List.forall_mem_cons] at hL hS
    have hs : accounts.host ∈ signers ↔ accounts.host ∈ signers' := hS.2.1 rfl
    simp only [dispatch, mixSettle]
    rw [loadAccount_congr (a := accounts.config) _ hL.1, checkSigner_congr hs,
      loadAccount_congr (a := accounts.round) _ hL.2.2.1]
    refine .bind _ fun config => .bind _ fun _ => .bind _ fun round => .bind _ fun _ =>
      .bind _ fun _ => .bind _ fun out => ?_
    exact .ok _ fun a ha => set_congr _ _ ha

end Core

/-! ### All calls -/

section Calls

variable {Pubkey Digest World : Type} [DecidableEq Pubkey] [DecidableEq Digest]
  [AddressSpace Pubkey] [Sha256 Digest] [External Pubkey World] {c d : Chain Pubkey Digest}
  {world : World} {now : Int64} {signers signers' : List Pubkey}

omit [DecidableEq Pubkey] [DecidableEq Digest] [AddressSpace Pubkey] [Sha256 Digest]
  [External Pubkey World] in
theorem SameAt.loadOption {a : Option Pubkey} (h : ∀ k ∈ a, SameAt c d k) :
    c.loadOption c.auditors a = d.loadOption d.auditors a := by
  cases a with
  | none => rfl
  | some k =>
    have hk : SameAt c d k := h k rfl
    show some <$> c.load c.auditors k = some <$> d.load d.auditors k
    rw [hk.load hk.auditor]

section Token

omit [DecidableEq Digest] [Sha256 Digest]

/-- The token instructions write no account of the program, so their results are the same. -/
theorem shield_congr {accounts : Shield Pubkey} (amount : UInt64)
    (hconfig : SameAt c d accounts.config)
    (hs : accounts.owner ∈ signers ↔ accounts.owner ∈ signers') :
    shield c world now signers accounts amount = shield d world now signers' accounts amount := by
  unfold shield
  rw [loadAccount_congr _ hconfig.ledger, checkSigner_congr hs]

theorem applyPending_congr {accounts : ApplyPending Pubkey} (counter : UInt64)
    (balance : Vector UInt8 36) (hconfig : SameAt c d accounts.config)
    (hs : accounts.owner ∈ signers ↔ accounts.owner ∈ signers') :
    applyPending c world now signers accounts counter balance =
      applyPending d world now signers' accounts counter balance := by
  unfold applyPending
  rw [loadAccount_congr _ hconfig.ledger, checkSigner_congr hs]

theorem confidentialTransfer_congr {accounts : ConfidentialTransfer Pubkey}
    (destinationOwner : Pubkey) (balance : Vector UInt8 36) (hconfig : SameAt c d accounts.config)
    (hauditor : ∀ k ∈ accounts.auditorEntry, SameAt c d k)
    (hs : accounts.sourceOwner ∈ signers ↔ accounts.sourceOwner ∈ signers') :
    confidentialTransfer c world now signers accounts destinationOwner balance =
      confidentialTransfer d world now signers' accounts destinationOwner balance := by
  unfold confidentialTransfer
  rw [loadAccount_congr _ hconfig.ledger, checkSigner_congr hs, SameAt.loadOption hauditor]

theorem withdraw_congr {accounts : Withdraw Pubkey} (amount : UInt64) (balance : Vector UInt8 36)
    (hconfig : SameAt c d accounts.config)
    (hauditor : ∀ k ∈ accounts.auditorEntry, SameAt c d k)
    (hs : accounts.owner ∈ signers ↔ accounts.owner ∈ signers') :
    withdraw c world now signers accounts amount balance =
      withdraw d world now signers' accounts amount balance := by
  unfold withdraw
  rw [loadAccount_congr _ hconfig.ledger, checkSigner_congr hs, SameAt.loadOption hauditor]

end Token

omit [DecidableEq Pubkey] [DecidableEq Digest] [AddressSpace Pubkey] [Sha256 Digest]
  [External Pubkey World] in
/-- Where two chains held the same, the chains after them hold the same. -/
def KeepsSame (c d c' d' : Chain Pubkey Digest) : Prop := ∀ a, SameAt c d a → SameAt c' d' a

section Registry

omit [DecidableEq Digest] [Sha256 Digest]

theorem createBurner_coupled {accounts : CreateBurner Pubkey} (nonce : UInt64) (ttl : Int64)
    (hconfig : SameAt c d accounts.config) (hentry : SameAt c d accounts.burnerEntry)
    (hs : accounts.owner ∈ signers ↔ accounts.owner ∈ signers') :
    Coupled (KeepsSame c d) (createBurner c now signers accounts nonce ttl)
      (createBurner d now signers' accounts nonce ttl) := by
  unfold createBurner
  rw [loadAccount_congr _ hconfig.ledger, checkSigner_congr hs, hentry.initAccount]
  refine .bind _ fun config => .bind _ fun _ => .bind _ fun _ => .bind _ fun bump =>
    .bind _ fun _ => .bind _ fun out => ?_
  exact .ok _ fun a ha => ⟨ha.ledger, ha.auditor, set_congr _ _ ha.burner⟩

theorem destroyBurner_coupled {accounts : DestroyBurner Pubkey} (proof : List UInt8)
    (hconfig : SameAt c d accounts.config) (hentry : SameAt c d accounts.burnerEntry)
    (hs : accounts.owner ∈ signers ↔ accounts.owner ∈ signers') :
    Coupled (KeepsSame c d) (destroyBurner c world now signers accounts proof)
      (destroyBurner d world now signers' accounts proof) := by
  unfold destroyBurner
  rw [loadAccount_congr _ hconfig.ledger, checkSigner_congr hs, hentry.load hentry.burner]
  refine .bind _ fun config => .bind _ fun _ => .bind _ fun entry => .bind _ fun _ =>
    .bind _ fun _ => .bind _ fun _ => .bind _ fun _ => .bind _ fun out => ?_
  exact .ok _ fun a ha => ⟨ha.ledger, ha.auditor, erase_congr _ ha.burner⟩

theorem auditorRegister_coupled {accounts : AuditorRegister Pubkey} (key : Vector UInt8 32)
    (proof : List UInt8) (cooldown : Int64) (hconfig : SameAt c d accounts.config)
    (hentry : SameAt c d accounts.auditorEntry)
    (hs : accounts.admin ∈ signers ↔ accounts.admin ∈ signers') :
    Coupled (KeepsSame c d) (auditorRegister c world now signers accounts key proof cooldown)
      (auditorRegister d world now signers' accounts key proof cooldown) := by
  unfold auditorRegister
  rw [loadAccount_congr _ hconfig.ledger, checkSigner_congr hs, hentry.initAccount]
  refine .bind _ fun config => .bind _ fun _ => .bind _ fun _ => .bind _ fun bump =>
    .bind _ fun _ => .bind _ fun out => ?_
  exact .ok _ fun a ha => ⟨ha.ledger, set_congr _ _ ha.auditor, ha.burner⟩

theorem auditorRotate_coupled {accounts : AuditorRotate Pubkey} (key : Vector UInt8 32)
    (proof : List UInt8) (hconfig : SameAt c d accounts.config)
    (hentry : SameAt c d accounts.auditorEntry)
    (hs : accounts.admin ∈ signers ↔ accounts.admin ∈ signers') :
    Coupled (KeepsSame c d) (auditorRotate c world now signers accounts key proof)
      (auditorRotate d world now signers' accounts key proof) := by
  unfold auditorRotate
  rw [loadAccount_congr _ hconfig.ledger, checkSigner_congr hs, hentry.load hentry.auditor]
  refine .bind _ fun config => .bind _ fun _ => .bind _ fun entry => .bind _ fun _ =>
    .bind _ fun _ => .bind _ fun _ => .bind _ fun _ => .bind _ fun out => ?_
  exact .ok _ fun a ha => ⟨ha.ledger, set_congr _ _ ha.auditor, ha.burner⟩

end Registry

/-- A call behaves alike on two chains that agree on its accounts, whoever else signs. -/
theorem dispatch_coupled {entrypoint : Entrypoint Pubkey Digest}
    (hc : ∀ field ∈ entrypoint.accountFields, SameAt c d field.key)
    (hS : ∀ field ∈ entrypoint.accountFields, field.signer →
      (field.key ∈ signers ↔ field.key ∈ signers')) :
    Coupled (KeepsSame c d) (Call.dispatch c ⟨now, signers, world, entrypoint⟩)
      (Call.dispatch d ⟨now, signers', world, entrypoint⟩) := by
  cases entrypoint with
  | core instruction =>
    have hL : ∀ field ∈ instruction.accountFields, c.ledger field.key = d.ledger field.key :=
      fun field hfield => (hc field hfield).ledger
    refine .bind_ok (.mapError (instruction_coupled hL hS) Failure.program) fun L M event hLM => ?_
    exact .ok _ fun a ha => ⟨hLM a ha.ledger, ha.auditor, ha.burner⟩
  | shield accounts amount =>
    simp only [Entrypoint.accountFields, List.forall_mem_cons] at hc hS
    simp only [Call.dispatch]
    rw [shield_congr amount hc.1 (hS.2.1 rfl)]
    exact .bind _ fun out => .ok _ fun a ha => ha
  | applyPending accounts counter balance =>
    simp only [Entrypoint.accountFields, List.forall_mem_cons] at hc hS
    simp only [Call.dispatch]
    rw [applyPending_congr counter balance hc.1 (hS.2.1 rfl)]
    exact .bind _ fun out => .ok _ fun a ha => ha
  | confidentialTransfer accounts destinationOwner balance =>
    have hauditor : ∀ k ∈ accounts.auditorEntry, SameAt c d k := fun k hk =>
      hc (.readonly k) (by simp [Entrypoint.accountFields, Option.mem_def.1 hk])
    simp only [Entrypoint.accountFields, List.cons_append, List.forall_mem_cons] at hc hS
    simp only [Call.dispatch]
    rw [confidentialTransfer_congr destinationOwner balance hc.1 hauditor (hS.2.1 rfl)]
    exact .bind _ fun out => .ok _ fun a ha => ha
  | withdraw accounts amount balance =>
    have hauditor : ∀ k ∈ accounts.auditorEntry, SameAt c d k := fun k hk =>
      hc (.readonly k) (by simp [Entrypoint.accountFields, Option.mem_def.1 hk])
    simp only [Entrypoint.accountFields, List.cons_append, List.forall_mem_cons] at hc hS
    simp only [Call.dispatch]
    rw [withdraw_congr amount balance hc.1 hauditor (hS.2.1 rfl)]
    exact .bind _ fun out => .ok _ fun a ha => ha
  | createBurner accounts nonce ttl =>
    simp only [Entrypoint.accountFields, List.forall_mem_cons] at hc hS
    refine .bind_ok (.mapError (createBurner_coupled nonce ttl hc.1 hc.2.2.2.1 (hS.2.1 rfl))
      Failure.program) fun c' d' event hsame => .ok _ hsame
  | destroyBurner accounts proof =>
    simp only [Entrypoint.accountFields, List.forall_mem_cons] at hc hS
    refine .bind_ok (.mapError (destroyBurner_coupled proof hc.1 hc.2.2.1 (hS.2.1 rfl))
      Failure.program) fun c' d' event hsame => .ok _ hsame
  | auditorRegister accounts key proof cooldown =>
    simp only [Entrypoint.accountFields, List.forall_mem_cons] at hc hS
    refine .bind_ok (.mapError (auditorRegister_coupled key proof cooldown hc.1 hc.2.2.2.1
      (hS.2.1 rfl)) Failure.program) fun c' d' event hsame => .ok _ hsame
  | auditorRotate accounts key proof =>
    simp only [Entrypoint.accountFields, List.forall_mem_cons] at hc hS
    refine .bind_ok (.mapError (auditorRotate_coupled key proof hc.1 hc.2.2.2.1 (hS.2.1 rfl))
      Failure.program) fun c' d' event hsame => .ok _ hsame

/-! ### Nothing else changes -/

/-- An accepted instruction changes no account that it does not declare `mut`. -/
theorem instruction_frame {L L' : Ledger Pubkey Digest} {t : Invocation Pubkey Digest}
    {event : Event Pubkey Digest} (h : ghos.step L t = .ok (L', event)) {a : Pubkey}
    (ha : ∀ field ∈ t.instruction.accountFields, field.writable → field.key ≠ a) :
    L' a = L a := by
  obtain ⟨now, signers, instruction⟩ := t
  cases instruction with
  | ghosInitialize accounts =>
    simp only [Instruction.accountFields, List.forall_mem_cons] at ha
    obtain ⟨-, rfl, -⟩ := ghosInitialize_eq_ok.1 h
    exact Store.set_of_ne L _ (ha.1 rfl).symm
  | configUpdate accounts field =>
    simp only [Instruction.accountFields, List.forall_mem_cons] at ha
    obtain ⟨config, config', -, rfl, -⟩ := configUpdate_eq_ok.1 h
    exact Store.set_of_ne L _ (ha.1 rfl).symm
  | mixInit accounts roundId denomination capacity window =>
    simp only [Instruction.accountFields, List.forall_mem_cons] at ha
    obtain ⟨config, -, rfl, -⟩ := mixInit_eq_ok.1 h
    exact Store.set_of_ne L _ (ha.2.2.2.1 rfl).symm
  | mixCommit accounts commitmentBytes =>
    simp only [Instruction.accountFields, List.forall_mem_cons] at ha
    obtain ⟨config, round, -, rfl, -⟩ := mixCommit_eq_ok.1 h
    exact (Store.set_of_ne _ _ (ha.2.2.1 rfl).symm).trans
      (Store.set_of_ne L _ (ha.2.2.2.1 rfl).symm)
  | mixReveal accounts preimage revealSignal =>
    simp only [Instruction.accountFields, List.forall_mem_cons] at ha
    obtain ⟨config, round, commit, -, rfl, -⟩ := mixReveal_eq_ok.1 h
    exact (Store.set_of_ne _ _ (ha.2.2.1 rfl).symm).trans
      (Store.set_of_ne L _ (ha.2.2.2.1 rfl).symm)
  | mixSettle accounts =>
    simp only [Instruction.accountFields, List.forall_mem_cons] at ha
    obtain ⟨config, round, -, rfl, -⟩ := mixSettle_eq_ok.1 h
    exact Store.set_of_ne L _ (ha.2.2.1 rfl).symm

/-- Nor does any other call. -/
theorem CallEffect.frame {entrypoint : Entrypoint Pubkey Digest} {c' : Chain Pubkey Digest}
    (h : CallEffect c world now signers entrypoint c') {a : Pubkey}
    (ha : ∀ field ∈ entrypoint.accountFields, field.writable → field.key ≠ a) :
    SameAt c' c a := by
  cases h with
  | core h => exact ⟨instruction_frame h ha, rfl, rfl⟩
  | createBurner h =>
    simp only [Entrypoint.accountFields, List.forall_mem_cons] at ha
    exact ⟨rfl, rfl, Store.set_of_ne _ _ (ha.2.2.2.1 rfl).symm⟩
  | destroyBurner h =>
    simp only [Entrypoint.accountFields, List.forall_mem_cons] at ha
    exact ⟨rfl, rfl, Store.erase_of_ne _ (ha.2.2.1 rfl).symm⟩
  | auditorRegister h =>
    simp only [Entrypoint.accountFields, List.forall_mem_cons] at ha
    exact ⟨rfl, Store.set_of_ne _ _ (ha.2.2.2.1 rfl).symm, rfl⟩
  | auditorRotate h =>
    simp only [Entrypoint.accountFields, List.forall_mem_cons] at ha
    exact ⟨rfl, Store.set_of_ne _ _ (ha.2.2.2.1 rfl).symm, rfl⟩
  | _ => exact ⟨rfl, rfl, rfl⟩

/-! ### The footprint of a call -/

omit [DecidableEq Pubkey] [DecidableEq Digest] [AddressSpace Pubkey] [Sha256 Digest]
  [External Pubkey World] in
/-- A chain as a family of cells: what each address holds in the three stores. -/
def Chain.cells : Chain Pubkey Digest ≃ (Pubkey →
    Option (Account Pubkey Digest) × Option (AuditorEntry Pubkey) × Option (BurnerAccount Pubkey))
    where
  toFun c a := (c.ledger a, c.auditors a, c.burners a)
  invFun f := ⟨fun a => (f a).1, fun a => (f a).2.1, fun a => (f a).2.2⟩
  left_inv _ := rfl
  right_inv _ := rfl

omit [DecidableEq Pubkey] [DecidableEq Digest] [AddressSpace Pubkey] [Sha256 Digest]
  [External Pubkey World] in
theorem sameAt_iff {a : Pubkey} : SameAt c d a ↔ Chain.cells c a = Chain.cells d a := by
  constructor
  · intro h
    show (c.ledger a, c.auditors a, c.burners a) = (d.ledger a, d.auditors a, d.burners a)
    rw [h.ledger, h.auditor, h.burner]
  · intro h
    obtain ⟨hledger, hrest⟩ := Prod.mk.inj h
    obtain ⟨hauditor, hburner⟩ := Prod.mk.inj hrest
    exact ⟨hledger, hauditor, hburner⟩

/-- A call reads its declared accounts and writes those declared `mut`. -/
def footprint : Machine.Footprint
    (program : Machine (Chain Pubkey Digest) (Call Pubkey Digest World) _ _) Chain.cells where
  reads t := {a | ∃ field ∈ t.entrypoint.accountFields, field.key = a}
  writes t := {a | ∃ field ∈ t.entrypoint.accountFields, field.writable ∧ field.key = a}
  writes_subset := by
    rintro t a ⟨field, hfield, -, rfl⟩
    exact ⟨field, hfield, rfl⟩
  frame c t c' o h a ha := by
    refine sameAt_iff.1 ((call_effect h).frame fun field hfield hw heq => ?_)
    exact ha ⟨field, hfield, hw, heq⟩
  coupled c d t h := by
    have hc : ∀ field ∈ t.entrypoint.accountFields, SameAt c d field.key := fun field hfield =>
      sameAt_iff.2 (h field.key ⟨field, hfield, rfl⟩)
    refine (dispatch_coupled hc fun _ _ _ => Iff.rfl).mono fun c' d' hsame a ha => ?_
    obtain ⟨field, hfield, -, rfl⟩ := ha
    exact sameAt_iff.1 (hsame _ (hc field hfield))

end Calls

end Ghos
