import Ghos.Config.Authority
import Ghos.Program.CallRequests

/-!
# Who includes the auditor

`confidential_transfer` and `withdraw` take the auditor entry as an optional account.  They check
that an entry that is passed along belongs to the mint; whether the mint has an entry they do not
look up, and neither asks for a signature.  So an entry is heeded exactly as long as nothing on its
mint can be spent at all (`auditorIncluded_iff`).
-/

namespace Ghos

variable {Pubkey Digest World : Type} [DecidableEq Pubkey] [DecidableEq Digest]
  [AddressSpace Pubkey] [Sha256 Digest] [External Pubkey World] {c c' : Chain Pubkey Digest}
  {world : World} {now : Int64} {signers : List Pubkey} {M : Pubkey}
  {holders : Vector UInt8 32 → Set Pubkey}

section Definitions

omit [DecidableEq Pubkey] [DecidableEq Digest] [AddressSpace Pubkey] [Sha256 Digest]
  [External Pubkey World]

/-- The mint of a call that spends a confidential balance, and the auditor account it is given. -/
def Entrypoint.spends : Entrypoint Pubkey Digest → Option (Pubkey × Option Pubkey)
  | .confidentialTransfer accounts _ _ => some (accounts.mint, accounts.auditorEntry)
  | .withdraw accounts _ _ => some (accounts.mint, accounts.auditorEntry)
  | _ => none

/-- One of the signers is the admin of the entry or a wallet of the holder of its key. -/
def AuditorEntry.SignedBy (entry : AuditorEntry Pubkey) (holders : Vector UInt8 32 → Set Pubkey)
    (signers : List Pubkey) : Prop :=
  ∃ s ∈ signers, s = entry.admin ∨ s ∈ holders entry.auditorPubkey

end Definitions

omit [DecidableEq Pubkey] [AddressSpace Pubkey] in
/-- Token-2022 lets somebody withdraw or transfer from a confidential account of the mint. -/
def Spendable (world : World) (mint : Pubkey) : Prop :=
  (∃ owner confidentialAta rangeProofContext equalityProofContext amount balance,
    (dustFreeUnit ≤ amount ∧ amount % dustFreeUnit = 0) ∧
    Withdrawable world owner confidentialAta mint rangeProofContext equalityProofContext amount
      balance) ∨
  ∃ sourceOwner sourceAccount destinationOwner destinationAccount equalityProofContext
    ciphertextValidityProofContext rangeProofContext balance,
    Transferable world sourceOwner sourceAccount destinationOwner destinationAccount mint
      equalityProofContext ciphertextValidityProofContext rangeProofContext balance

variable (World) in
/-- Every call that spends on the mint of an entry is given the entry, and a withdrawal is recorded
as co-signed only with a signature of the auditor's side. -/
structure AuditorIncluded (holders : Vector UInt8 32 → Set Pubkey) (c : Chain Pubkey Digest) :
    Prop where
  given : ∀ a entry, c.auditors a = some entry → ∀ (t : Call Pubkey Digest World) account,
    program.Accepts c t → t.entrypoint.spends = some (entry.mint, account) → account = some a
  cosigned : ∀ a entry, c.auditors a = some entry → ∀ (t : Call Pubkey Digest World) c' owner
    destinationAta amount timestamp world,
    program.step c t = .ok (c', .inr (.withdrawExecuted owner entry.mint destinationAta amount true
      timestamp), world) → entry.SignedBy holders t.signers

/-! ### One call -/

/-- What an accepted call spends Token-2022 has let through, and the program was not paused. -/
theorem CallEffect.spendable {entrypoint : Entrypoint Pubkey Digest} {account : Option Pubkey}
    (hL : WellAddressed c.ledger) (h : CallEffect c world now signers entrypoint c')
    (hs : entrypoint.spends = some (M, account)) :
    (∃ config, c.config = some config ∧ config.paused = false) ∧ Spendable world M := by
  cases h with
  | confidentialTransfer h =>
    obtain ⟨rfl, rfl⟩ := Prod.mk.inj (Option.some.inj hs)
    exact ⟨⟨_, h.configAt.eq_config hL, h.unpaused⟩, .inr ⟨_, _, _, _, _, _, _, _, h.source,
      h.destination, _, h.transferred⟩⟩
  | withdraw h =>
    obtain ⟨rfl, rfl⟩ := Prod.mk.inj (Option.some.inj hs)
    exact ⟨⟨_, h.configAt.eq_config hL, h.unpaused⟩, .inl ⟨_, _, _, _, _, _, h.dustFree, h.account,
      _, h.mintAt, _, h.withdrawn⟩⟩
  | _ => cases hs

/-- Only `withdraw` emits `WithdrawExecuted`. -/
theorem spends_of_withdrawExecuted {t : Call Pubkey Digest World} {owner destinationAta : Pubkey}
    {amount : UInt64} {auditorCosigned : Bool} {timestamp : Int64}
    (h : program.step c t = .ok (c', .inr (.withdrawExecuted owner M destinationAta amount
      auditorCosigned timestamp), world)) :
    ∃ account, t.entrypoint.spends = some (M, account) := by
  obtain ⟨now, signers, world₀, entrypoint⟩ := t
  cases entrypoint <;>
    simp only [program, Call.dispatch, Outcome.bind_eq_ok, Outcome.lift_eq_ok, Prod.exists,
      Outcome.pure_eq_ok, Prod.mk.injEq, Sum.inr.injEq, reduceCtorEq, false_and, and_false,
      exists_false] at h
  case withdraw accounts amount balance =>
    obtain ⟨event, world', h, rfl, rfl, rfl⟩ := h
    obtain ⟨config, state, entry, ha, he⟩ := withdraw_eq_ok.1 h
    cases he
    exact ⟨_, rfl⟩
  case shield accounts amount =>
    obtain ⟨event, world', h, rfl, rfl, rfl⟩ := h
    obtain ⟨config, state, ha, he⟩ := shield_eq_ok.1 h
    cases he
  case applyPending accounts counter balance =>
    obtain ⟨event, world', h, rfl, rfl, rfl⟩ := h
    obtain ⟨config, ha, he⟩ := applyPending_eq_ok.1 h
    cases he
  case confidentialTransfer accounts owner balance =>
    obtain ⟨event, world', h, rfl, rfl, rfl⟩ := h
    obtain ⟨config, entry, ha, he⟩ := confidentialTransfer_eq_ok.1 h
    cases he
  case createBurner accounts nonce ttl =>
    obtain ⟨c', event, h, rfl, rfl, -⟩ := h
    obtain ⟨config, ha, -, he⟩ := createBurner_eq_ok.1 h
    cases he
  case destroyBurner accounts proof =>
    obtain ⟨c', event, world', h, rfl, rfl, -⟩ := h
    obtain ⟨config, entry, ha, -, he⟩ := destroyBurner_eq_ok.1 h
    cases he
  case auditorRegister accounts key proof cooldown =>
    obtain ⟨c', event, world', h, rfl, rfl, -⟩ := h
    obtain ⟨config, ha, -, he⟩ := auditorRegister_eq_ok.1 h
    cases he
  case auditorRotate accounts key proof =>
    obtain ⟨c', event, world', h, rfl, rfl, -⟩ := h
    obtain ⟨config, entry, ha, -, he⟩ := auditorRotate_eq_ok.1 h
    cases he

/-- What Token-2022 lets through can be spent without naming an auditor entry. -/
theorem Spendable.exists_accepts (hL : WellAddressed c.ledger)
    (hc : ∃ config, c.config = some config ∧ config.paused = false) (h : Spendable world M) :
    ∃ t : Call Pubkey Digest World,
      program.Accepts c t ∧ t.entrypoint.spends = some (M, none) := by
  obtain ⟨config, hc, hu⟩ := hc
  rcases h with ⟨owner, ata, range, equality, amount, balance, hamount, hw⟩ |
    ⟨sourceOwner, source, destinationOwner, destination, equality, validity, range, balance, ht⟩
  · exact ⟨withdrawBy owner ata M range equality none amount balance 0 world,
      (accepts_withdrawBy_none_iff hL).2 ⟨config, hc, hu, hamount, hw⟩, rfl⟩
  · exact ⟨confidentialTransferBy sourceOwner source destinationOwner destination M equality
      validity range none balance 0 world,
      (accepts_confidentialTransferBy_none_iff hL).2 ⟨config, hc, hu, ht⟩, rfl⟩

/-! ### Runs -/

/-- The auditor is included in every state of a run if and only if in none of them, while the
program is not paused, something can be spent on a mint with an auditor entry. -/
theorem auditorIncluded_iff (holders : Vector UInt8 32 → Set Pubkey)
    (run : List (Call Pubkey Digest World)) :
    (∀ n, AuditorIncluded World holders (program.stateAt run n)) ↔
      ∀ n config a entry (world : World), configAt run n = some config → config.paused = false →
        (program.stateAt run n).auditors a = some entry → ¬ Spendable world entry.mint := by
  constructor
  · intro h n config a entry world hc hu he hspend
    obtain ⟨t, hacc, hs⟩ :=
      hspend.exists_accepts (wellAddressed_ledgerAt run n) ⟨config, hc, hu⟩
    cases (h n).given a entry he t none hacc hs
  · intro h n
    -- an accepted call that spends on the mint of an entry contradicts the condition
    have hnone : ∀ a entry, (program.stateAt run n).auditors a = some entry →
        ∀ (t : Call Pubkey Digest World) account, program.Accepts (program.stateAt run n) t →
          t.entrypoint.spends ≠ some (entry.mint, account) := by
      intro a entry he t account hacc hs
      obtain ⟨⟨config, hc, hu⟩, hspend⟩ :=
        (callEffect_of_accepts hacc).spendable (wellAddressed_ledgerAt run n) hs
      exact h n config a entry t.world hc hu he hspend
    constructor
    · intro a entry he t account hacc hs
      exact absurd hs (hnone a entry he t account hacc)
    · intro a entry he t c' owner destinationAta amount timestamp world hstep
      obtain ⟨account, hs⟩ := spends_of_withdrawExecuted hstep
      exact absurd hs (hnone a entry he t account ⟨_, hstep⟩)

namespace Sample

/-- The admin registers an auditor for the mint. -/
def audited : List (Call Sym (List UInt8) Unit) :=
  [(initializeBy admin 0).toCall (),
    auditorRegisterBy admin mint host (key 7) (keyProof (key 7)) 60 0 ()]

/-- The auditor has a wallet of its own. -/
def auditorWallets : Vector UInt8 32 → Set Sym := fun _ => {.wallet 9}

end Sample

/-- The host withdraws past the auditor. -/
theorem withdrawal_past_auditor :
    ¬ ∀ n, AuditorIncluded Unit Sample.auditorWallets (program.stateAt Sample.audited n) := by
  intro h
  obtain ⟨entry, he, hmint⟩ : ∃ entry ∈ (program.stateAt Sample.audited 2).auditors
      (auditorPda Sample.mint), entry.mint = Sample.mint := by
    decide +kernel
  have hgiven := (h 2).given _ entry he
    (withdrawBy Sample.host (Sample.confidentialAta 2) Sample.mint none none none 1000000
      (.replicate 36 0) 1 ()) none (by decide +kernel) (by rw [hmint]; rfl)
  cases hgiven

end Ghos
