import Ghos.Mix.Invariant
import Ghos.Mix.Progress
import Ghos.Client.MixAccounts
import Ghos.Client.AccountData

/-!
# Settling a round from the clients

`mixSettle` of `sdk/src/client.ts` wants at least four participants, and `_run_settle` of
`cli/ghos_cli/commands/mix.py` wants at least four commits.  `mix_settle` closes every round in
which the reveals are complete or their deadline has passed.

* `mixSettle_submits_iff`: the SDK refuses the rounds with fewer than four reveals, which the
  program would abort;
* `runSettle_passes`: the CLI refuses no round that the program would close.
-/

namespace Ghos

variable {Pubkey Digest : Type} [DecidableEq Pubkey] [DecidableEq Digest] [AddressSpace Pubkey]
  [Sha256 Digest]

/-! ### What is known of a round that is settled -/

section Round

variable {L : Ghos.Ledger Pubkey Digest} {R : Pubkey} {r : MixRound Pubkey}

omit [DecidableEq Pubkey] [DecidableEq Digest] [Sha256 Digest] in
theorem Represents.committed_eq_capacity {a : CommitReveal.Round Pubkey Digest}
    (h : Represents L R r a) (hp : r.phase ≠ .commit) : r.committed = r.capacity := by
  rw [← UInt8.toNat_inj, h.committed, h.capacity]
  exact a.full (h.stage_ne_commit hp)

/-- A round holds at least four participants. -/
theorem four_le_capacity (hL : ghos.Reachable L) (hr : L.round? R = some r) : 4 ≤ r.capacity := by
  obtain ⟨run, rfl⟩ := hL
  rw [← Machine.stateAt_length] at hr
  obtain ⟨i, -, now, signers, accounts, roundId, denomination, capacity, window, config, -, ha, -,
    hterms⟩ := exists_opening hr
  rw [hterms.capacity]
  exact ha.capacity.1

/-- Behind the commit phase, a round has all its participants. -/
theorem four_le_committed (hL : ghos.Reachable L) (hr : L.round? R = some r)
    (hp : r.phase ≠ .commit) : 4 ≤ r.committed := by
  obtain ⟨a, h⟩ := exists_represents hL hr
  rw [h.committed_eq_capacity hp]
  exact four_le_capacity hL hr

end Round

/-! ### The SDK -/

namespace Sdk

/-- `SDK_ERROR_CODES.MixRoundBusy`. -/
def mixRoundBusy : ℕ := 9018

structure MixSettleParams (Pubkey : Type) where
  round : Pubkey
  host : Option Pubkey
  participantIndices : List ℤ

omit [DecidableEq Pubkey] in
/-- `mixSettle` until the instruction is submitted. -/
def mixSettle (payer : Pubkey) (params : MixSettleParams Pubkey) :
    Except SdkError (TransactionInstruction Pubkey) := do
  let host := params.host.getD payer
  throwUnless (4 ≤ params.participantIndices.length)
    (.ghosSdkError mixRoundBusy "settle requires at least 4 participants")
  return buildMixSettleInstruction
    { host, round := params.round, participantIndices := params.participantIndices }

/-- The indices of the revealed commitments of a round. -/
def revealedIndices (L : Ghos.Ledger Pubkey Digest) (R : Pubkey) : Set ℤ :=
  {i | ∃ k c, L.commitment? k = some c ∧ c.round = R ∧ c.revealed = true ∧
    (c.index.toNat : ℤ) = i}

/-- The list has each of these indices once. -/
structure ListsRevealed (L : Ghos.Ledger Pubkey Digest) (R : Pubkey) (indices : List ℤ) :
    Prop where
  nodup : indices.Nodup
  mem_iff : ∀ i, i ∈ indices ↔ i ∈ revealedIndices L R

variable {L : Ghos.Ledger Pubkey Digest} {R : Pubkey} {r : MixRound Pubkey}

/-- There are as many indices as reveals. -/
theorem encard_revealedIndices (hL : ghos.Reachable L) (hr : L.round? R = some r) :
    (revealedIndices L R).encard = r.revealed.toNat := by
  obtain ⟨a, ha⟩ := exists_represents hL hr
  have hwell := wellAddressed_of_reachable hL
  let index : Pubkey → ℤ := fun k => ((L.commitment? k).map fun c => (c.index.toNat : ℤ)).getD 0
  have hindex : ∀ {k c}, L.commitment? k = some c → index k = c.index.toNat := by
    intro k c hc
    simp only [index, hc, Option.map_some, Option.getD_some]
  have himage : revealedIndices L R = index '' revealedAddresses L R := by
    ext i
    constructor
    · rintro ⟨k, c, hc, hR, hrev, rfl⟩
      exact ⟨k, ⟨c, hc, hR, hrev⟩, hindex hc⟩
    · rintro ⟨k, ⟨c, hc, hR, hrev⟩, rfl⟩
      exact ⟨k, c, hc, hR, hrev, (hindex hc).symm⟩
  have hinj : Set.InjOn index (revealedAddresses L R) := by
    rintro k ⟨c, hc, hR, -⟩ k' ⟨c', hc', hR', -⟩ heq
    rw [hindex hc, hindex hc', Int.natCast_inj, UInt8.toNat_inj] at heq
    exact ha.index_inj hwell hc hR hc' hR' heq
  rw [himage, hinj.encard_image, ha.encard_revealedAddresses hwell]

theorem encard_coe_toFinset {indices : List ℤ} (hnodup : indices.Nodup) :
    (indices.toFinset : Set ℤ).encard = indices.length := by
  rw [Set.encard_coe_eq_coe_finsetCard, List.toFinset_card_of_nodup hnodup]

theorem ListsRevealed.length_eq {indices : List ℤ} (h : ListsRevealed L R indices)
    (hL : ghos.Reachable L) (hr : L.round? R = some r) : indices.length = r.revealed.toNat := by
  have heq : (indices.toFinset : Set ℤ) = revealedIndices L R := by
    ext i
    rw [← h.mem_iff, Finset.mem_coe, List.mem_toFinset]
  have hcard := encard_revealedIndices hL hr
  rw [← heq, encard_coe_toFinset h.nodup] at hcard
  exact_mod_cast hcard

/-- A list of as many indices as there are reveals has them all. -/
theorem listsRevealed_of_length {indices : List ℤ} (hL : ghos.Reachable L)
    (hr : L.round? R = some r) (hnodup : indices.Nodup)
    (hmem : ∀ i ∈ indices, i ∈ revealedIndices L R) (hlen : indices.length = r.revealed.toNat) :
    ListsRevealed L R indices := by
  have hcard := encard_revealedIndices hL hr
  have hsub : (indices.toFinset : Set ℤ) ⊆ revealedIndices L R := by
    intro i hi
    exact hmem i (List.mem_toFinset.1 hi)
  have heq : (indices.toFinset : Set ℤ) = revealedIndices L R := by
    refine indices.toFinset.finite_toSet.eq_of_subset_of_encard_le hsub ?_
    rw [hcard, encard_coe_toFinset hnodup, hlen]
  refine ⟨hnodup, fun i => ?_⟩
  rw [← heq, Finset.mem_coe, List.mem_toFinset]

omit [DecidableEq Pubkey] in
theorem exists_mixSettle_iff {payer : Pubkey} {params : MixSettleParams Pubkey} :
    (∃ ix, mixSettle payer params = .ok ix) ↔ 4 ≤ params.participantIndices.length := by
  simp only [mixSettle, except_bind_eq_ok, throwUnless_eq_ok, except_pure_eq_ok]
  constructor
  · rintro ⟨_, _, h, -⟩
    exact h
  · intro h
    exact ⟨_, (), h, rfl⟩

/-- The client submits the settlement of a round exactly if it has at least four reveals. -/
theorem mixSettle_submits_iff (run : List (Invocation Pubkey Digest)) {payer : Pubkey}
    {params : MixSettleParams Pubkey} {now : Int64}
    (haccepts : ghos.Accepts (ghos.exec ghos.init run)
      (mixSettleBy (params.host.getD payer) params.round now))
    (hindices : ListsRevealed (ghos.exec ghos.init run) params.round params.participantIndices) :
    ∃ r, (ghos.exec ghos.init run).round? params.round = some r ∧
      ((∃ ix, mixSettle payer params = .ok ix) ↔ 4 ≤ r.revealed) := by
  have hL : ghos.Reachable (ghos.exec ghos.init run) := ⟨run, rfl⟩
  obtain ⟨config, r, -, -, hr, -, -⟩ :=
    (accepts_mixSettleBy_iff (wellAddressed_of_reachable hL)).1 haccepts
  refine ⟨r, hr, ?_⟩
  rw [exists_mixSettle_iff, hindices.length_eq hL hr, UInt8.le_iff_toNat_le]
  rfl

namespace Sample

/-- The host settles after the deadline, with three of four reveals. -/
def settleParams : MixSettleParams Sym := ⟨Ghos.Sample.round, none, [0, 1, 2]⟩

end Sample

/-- The program accepts the settlement, and the indices are those of the reveals. -/
theorem settleParams_due :
    ghos.Accepts (ghos.exec ghos.init Ghos.Sample.unrevealed)
        (mixSettleBy Ghos.Sample.host Ghos.Sample.round 2000) ∧
      ListsRevealed (ghos.exec ghos.init Ghos.Sample.unrevealed) Ghos.Sample.round [0, 1, 2] := by
  obtain ⟨r, hr, hrevealed⟩ : ∃ r ∈ (ghos.exec ghos.init Ghos.Sample.unrevealed).round?
      Ghos.Sample.round, r.revealed = 3 := by decide +kernel
  have hentry : ∀ n < 3, ∃ c ∈ (ghos.exec ghos.init Ghos.Sample.unrevealed).commitment?
      (mixCommitmentPda Ghos.Sample.round (Ghos.Sample.participant n)),
      c.round = Ghos.Sample.round ∧ c.revealed = true ∧ c.index.toNat = n := by decide +kernel
  refine ⟨by decide +kernel, listsRevealed_of_length ⟨_, rfl⟩ hr (by decide) ?_ ?_⟩
  · intro i hi
    have hi : 0 ≤ i ∧ i < 3 := by
      simp only [List.mem_cons, List.not_mem_nil, or_false] at hi
      omega
    obtain ⟨c, hc, hR, hrev, hidx⟩ := hentry i.toNat (by omega)
    exact ⟨_, c, hc, hR, hrev, by rw [hidx]; omega⟩
  · rw [hrevealed]
    rfl

theorem mixSettle_submits_iff_sample :
    ∃ r, (ghos.exec ghos.init Ghos.Sample.unrevealed).round? Ghos.Sample.round = some r ∧
      ((∃ ix, mixSettle Ghos.Sample.host Sample.settleParams = .ok ix) ↔ 4 ≤ r.revealed) := by
  have haccepts : ghos.Accepts (ghos.exec ghos.init Ghos.Sample.unrevealed) (mixSettleBy
      (Sample.settleParams.host.getD Ghos.Sample.host) Sample.settleParams.round 2000) :=
    settleParams_due.1
  exact mixSettle_submits_iff Ghos.Sample.unrevealed haccepts settleParams_due.2

/-- The client refuses what the program accepts. -/
theorem not_mixSettle_submits :
    ghos.Accepts (ghos.exec ghos.init Ghos.Sample.unrevealed)
        (mixSettleBy Ghos.Sample.host Ghos.Sample.round 2000) ∧
      ListsRevealed (ghos.exec ghos.init Ghos.Sample.unrevealed) Ghos.Sample.round [0, 1, 2] ∧
      mixSettle Ghos.Sample.host Sample.settleParams =
        .error (.ghosSdkError mixRoundBusy "settle requires at least 4 participants") :=
  ⟨settleParams_due.1, settleParams_due.2, rfl⟩

end Sdk

/-! ### The CLI -/

namespace Cli

/-- What stops `_run_settle` before it builds a transaction. -/
inductive SettleError
  | parse (e : ParseError)
  | mixError (message : String)
  deriving DecidableEq

/-- `_MIX_PHASE_NAMES.get(phase, phase)`. -/
def mixPhaseName (phase : ℕ) : String :=
  match [(0, "open"), (1, "commit"), (2, "reveal"), (3, "settling"), (4, "settled"),
    (5, "aborted")].lookup phase with
  | some name => name
  | none => toString phase

/-- `MIX_MIN_PARTICIPANTS`. -/
def mixMinParticipants : ℕ := 4

/-- The checks of `_run_settle` on the account of the round. -/
def settleChecks (roundAddr : String) (account : Option (List UInt8)) :
    Except SettleError ParsedMixRound :=
  match account with
  | none => throw (.parse (.notFoundError s!"round {roundAddr} does not exist on chain"))
  | some data => do
    let parsed ← (parseMixRound data).mapError .parse
    throwUnless (mixMinParticipants ≤ parsed.committed) (.mixError
      s!"round has {parsed.committed} commits, need at least {mixMinParticipants}")
    throwUnless (parsed.phase = 2 ∨ parsed.phase = 3) (.mixError
      s!"round is in phase {mixPhaseName parsed.phase}, expected reveal or settling")
    return parsed

variable [Sdk.KeyBytes Pubkey]

omit [DecidableEq Pubkey] [AddressSpace Pubkey] in
theorem settleChecks_accountData (roundAddr : String) (discriminator : Vector UInt8 8)
    {r : MixRound Pubkey} (hcommitted : 4 ≤ r.committed)
    (hphase : r.phase = .reveal ∨ r.phase = .settling) :
    settleChecks roundAddr (some (accountData discriminator r.borsh)) = .ok (.ofAccount r) := by
  have hparse : parseMixRound (accountData discriminator r.borsh) = .ok (.ofAccount r) := by
    have hinverts := mixRound_inverts.parses discriminator r []
    rwa [List.append_nil] at hinverts
  have henough : mixMinParticipants ≤ (ParsedMixRound.ofAccount r).committed :=
    UInt8.le_iff_toNat_le.1 hcommitted
  have hbyte : (ParsedMixRound.ofAccount r).phase = 2 ∨ (ParsedMixRound.ofAccount r).phase = 3 := by
    refine hphase.imp ?_ ?_ <;> intro hp <;> rw [ParsedMixRound.ofAccount, hp] <;> rfl
  simp only [settleChecks, hparse]
  refine except_bind_eq_ok.2 ⟨_, rfl, ?_⟩
  exact throwUnless_bind_eq_ok.2 ⟨henough, throwUnless_bind_eq_ok.2 ⟨hbyte, rfl⟩⟩

/-- The CLI passes every round that the program closes, for whatever host and at whatever time. -/
theorem runSettle_passes (run : List (Invocation Pubkey Digest)) {now : Int64}
    {signers : List Pubkey} {accounts : MixSettleAccounts Pubkey}
    (haccepts : ghos.Accepts (ghos.exec ghos.init run) ⟨now, signers, .mixSettle accounts⟩) :
    ∃ r, (ghos.exec ghos.init run).round? accounts.round = some r ∧
      ∀ roundAddr discriminator,
        settleChecks roundAddr (some (accountData discriminator r.borsh)) =
          .ok (.ofAccount r) := by
  have hL : ghos.Reachable (ghos.exec ghos.init run) := ⟨run, rfl⟩
  obtain ⟨config, r, h⟩ := accepts_iff.1 haccepts
  have hphase : r.phase = .reveal ∨ r.phase = .settling := h.phase.symm.imp And.left And.left
  have hcommit : r.phase ≠ .commit := by rcases hphase with hp | hp <;> rw [hp] <;> simp
  refine ⟨r, h.roundAt, fun roundAddr discriminator => ?_⟩
  exact settleChecks_accountData roundAddr discriminator (four_le_committed hL h.roundAt hcommit)
    hphase

/-- The host closes a round with three of four reveals. -/
theorem runSettle_passes_sample :
    ∃ r, (ghos.exec ghos.init Sample.unrevealed).round? Sample.round = some r ∧
      ∀ roundAddr discriminator,
        settleChecks roundAddr (some (accountData discriminator r.borsh)) = .ok (.ofAccount r) := by
  have haccepts : ghos.Accepts (ghos.exec ghos.init Sample.unrevealed)
      ⟨2000, [Sample.host], .mixSettle ⟨configPda, Sample.host, Sample.round⟩⟩ := by decide +kernel
  exact runSettle_passes Sample.unrevealed haccepts

end Cli

end Ghos
