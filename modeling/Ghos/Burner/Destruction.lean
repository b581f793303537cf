import Ghos.Burner.Expiry

/-!
# What `destroy_burner` proves

`destroy_burner` hands a proof of a zero balance to the zk-token-proof program.  That program says
whether some ciphertext encrypts zero under some key; which ones they are the handler does not look
at.  So the proof is about the account of the burner only where there is nothing to destroy
(`burnersEmptied_iff`).

`attested` stands for what the zk-token-proof program knows: the statement in a proof, if the proof
shows it.  `available` is the statement that would be the right one, taken from the confidential
account of a key.
-/

namespace Ghos

/-- The subject of a proof of a zero balance: a ciphertext and the key it belongs to. -/
structure ZeroBalanceStatement where
  pubkey : Vector UInt8 32
  ciphertext : Vector UInt8 64
  deriving DecidableEq

variable {Pubkey Digest World : Type} [DecidableEq Pubkey] [DecidableEq Digest]
  [AddressSpace Pubkey] [Sha256 Digest] [External Pubkey World]
  {run : List (Call Pubkey Digest World)} {attested : List UInt8 → Option ZeroBalanceStatement}
  {available : World → Pubkey → Option ZeroBalanceStatement}

omit [DecidableEq Pubkey] [AddressSpace Pubkey] in
/-- The zk-token-proof program accepts a proof of a zero balance exactly if it attests a
statement. -/
def AttestsZero (Pubkey : Type) [External Pubkey World]
    (attested : List UInt8 → Option ZeroBalanceStatement) : Prop :=
  ∀ (world : World) (contextAccount contextAuthority systemProgram : Pubkey) proof,
    (∃ world', invoke world (.zkTokenProof contextAccount contextAuthority systemProgram
      (ProofKind.zeroBalance.tag :: proof)) = .ok world') ↔ (attested proof).isSome

/-- Whoever destroys a burner entry has shown that the account of the burner has no available
balance. -/
def BurnersEmptied (attested : List UInt8 → Option ZeroBalanceStatement)
    (available : World → Pubkey → Option ZeroBalanceStatement) (c : Chain Pubkey Digest) : Prop :=
  ∀ a entry, c.burners a = some entry → ∀ (t : Call Pubkey Digest World) accounts proof,
    t.entrypoint = .destroyBurner accounts proof → accounts.burnerEntry = a →
    program.Accepts c t → ∃ statement, attested proof = some statement ∧
      available t.world entry.burnerPubkey = some statement

/-- The owner of an entry may destroy it with any proof that attests something. -/
theorem accepts_destroy (hattests : AttestsZero Pubkey attested) {n : ℕ}
    {config : GhosConfig Pubkey} {a : Pubkey} {entry : BurnerAccount Pubkey}
    (hc : configAt run n = some config) (hu : config.paused = false)
    (he : (program.stateAt run n).burners a = some entry) {proof : List UInt8}
    (hproof : (attested proof).isSome) (world : World) :
    program.Accepts (program.stateAt run n) (destroyBurnerBy entry.owner a a proof 0 world) := by
  have hreg := registered_of_reachable (Machine.reachable_stateAt (M := program) run n)
  rw [accepts_destroyBurnerBy_iff (wellAddressed_ledgerAt run n) hreg]
  obtain ⟨accounts, now, nonce, ttl, hentry, -, -⟩ := exists_creation he
  exact ⟨config, entry, hc, hu, he, rfl, by rw [hentry]; rfl, (hattests world _ _ _ _).2 hproof⟩

/-- If two proofs attest different statements, then burners are shown to be empty in every state of
a run if and only if no state of the run has a burner entry while the program is not paused. -/
theorem burnersEmptied_iff [Inhabited World] (hattests : AttestsZero Pubkey attested)
    (htwo : ∃ proof proof', (attested proof).isSome ∧ (attested proof').isSome ∧
      attested proof ≠ attested proof')
    (available : World → Pubkey → Option ZeroBalanceStatement)
    (run : List (Call Pubkey Digest World)) :
    (∀ n, BurnersEmptied attested available (program.stateAt run n)) ↔
      ∀ n config a, configAt run n = some config → config.paused = false →
        (program.stateAt run n).burners a = none := by
  constructor
  · intro h n config a hc hu
    rw [Option.eq_none_iff_forall_ne_some]
    intro entry he
    -- every proof would have to be about the account of this burner
    have hsubject : ∀ proof, (attested proof).isSome →
        attested proof = available default entry.burnerPubkey := by
      intro proof hproof
      obtain ⟨statement, hs, hav⟩ := h n a entry he _ _ proof rfl rfl
        (accepts_destroy hattests hc hu he hproof default)
      rw [hs, ← hav]
      rfl
    obtain ⟨proof, proof', hproof, hproof', hne⟩ := htwo
    exact hne ((hsubject proof hproof).trans (hsubject proof' hproof').symm)
  · intro h n a entry he t accounts proof hp ha hacc
    obtain ⟨now, signers, world, entrypoint⟩ := t
    obtain rfl : entrypoint = .destroyBurner accounts proof := hp
    obtain ⟨world', config, entry', hadm⟩ := accepts_destroyBurner_iff.1 hacc
    have hc : configAt run n = some config := hadm.configAt.eq_config (wellAddressed_ledgerAt run n)
    rw [h n config a hc hadm.unpaused] at he
    cases he

/-! ### A sample -/

namespace Sample

/-- A proof: the key, the ciphertext and 96 ones. -/
def zeroProof (k : Vector UInt8 32) (ciphertext : Vector UInt8 64) : List UInt8 :=
  k.toList ++ ciphertext.toList ++ .replicate 96 1

/-- The encryption of an amount below 256, which is the first byte of the ciphertext. -/
def sealed (amount : UInt8) : Vector UInt8 64 := (Vector.replicate 64 0).set 0 amount

/-- The statement of a proof, if the ciphertext encrypts zero. -/
def attestedZero (proof : List UInt8) : Option ZeroBalanceStatement :=
  if h : proof.length = 192 ∧ proof.drop 96 = .replicate 96 1 ∧ proof[32]? = some 0 then
    some ⟨⟨(proof.take 32).toArray, by simp [h.1]⟩,
      ⟨((proof.drop 32).take 64).toArray, by simp [h.1]⟩⟩
  else none

end Sample

section Oracle

/-- The sample world with a zk-token-proof program that looks at proofs of a zero balance. -/
local instance Sample.zeroOracle : External Sym Unit where
  token2022ProgramId := token2022ProgramId
  zkTokenProofProgramId := zkTokenProofProgramId
  accountOwner := accountOwner
  unpackMint := unpackMint
  unpackAccount := unpackAccount
  invoke world ix :=
    match ix with
    | .zkTokenProof _ _ _ (10 :: proof) =>
      if (Sample.attestedZero proof).isSome then .ok () else .error 0
    | ix => invoke world ix

namespace Sample

/-- The confidential accounts of all wallets hold nine. -/
def holdings : Unit → Sym → Option ZeroBalanceStatement := fun _ _ => some ⟨key 5, sealed 9⟩

/-- The host registers a burner. -/
def oneBurner : List (Call Sym (List UInt8) Unit) :=
  [(initializeBy admin 0).toCall (), createBurnerBy host (participant 0) 0 60 1 ()]

theorem attestsZero : AttestsZero Sym attestedZero := by
  intro world contextAccount contextAuthority systemProgram proof
  show (∃ world', (if (attestedZero proof).isSome then .ok () else .error 0 :
    Except UInt64 Unit) = .ok world') ↔ _
  split <;> simp [*]

end Sample

theorem burnersEmptied_iff_sample :
    (∀ n, BurnersEmptied Sample.attestedZero Sample.holdings
      (program.stateAt Sample.oneBurner n)) ↔
      ∀ n config a, configAt Sample.oneBurner n = some config → config.paused = false →
        (program.stateAt Sample.oneBurner n).burners a = none :=
  burnersEmptied_iff Sample.attestsZero
    ⟨Sample.zeroProof (Sample.key 5) (Sample.sealed 0),
      Sample.zeroProof (Sample.key 6) (Sample.sealed 0), by decide +kernel, by decide +kernel,
      by decide +kernel⟩ Sample.holdings Sample.oneBurner

/-- A proof about somebody else's ciphertext destroys a burner whose account holds nine. -/
theorem burner_with_balance_destroyed :
    ¬ ∀ n, BurnersEmptied Sample.attestedZero Sample.holdings
      (program.stateAt Sample.oneBurner n) := by
  intro h
  obtain ⟨entry, he, -⟩ : ∃ entry ∈ (program.stateAt Sample.oneBurner 2).burners
      (burnerPda Sample.host 0), entry.owner = Sample.host := by
    decide +kernel
  obtain ⟨statement, hproof, hheld⟩ := h 2 _ entry he
    (destroyBurnerBy Sample.host (burnerPda Sample.host 0) Sample.mint
      (Sample.zeroProof (Sample.key 6) (Sample.sealed 0)) 2 ()) _ _ rfl rfl (by decide +kernel)
  rw [Sample.holdings, Option.some.injEq] at hheld
  rw [← hheld] at hproof
  exact absurd hproof (by decide +kernel)

end Oracle

end Ghos
