import Ghos.Mix.Addressing

/-!
# Instructions as a client sends them

`initializeBy`, `configUpdateBy`, `mixInitBy`, `mixCommitBy`, `mixRevealBy` and `mixSettleBy` call
an entry point with the accounts its constraints ask for, signed by the one key it requires.  In a
well addressed ledger, what is left of the conditions is about the config, the round and the
commitment.

`sampleRun` is a round in the free address space that is opened, filled and completely revealed.
-/

namespace Ghos

section Requests

variable {Pubkey Digest : Type} [AddressSpace Pubkey]

def initializeBy (admin : Pubkey) (now : Int64) : Invocation Pubkey Digest :=
  ⟨now, [admin], .ghosInitialize ⟨configPda, admin, systemProgramId⟩⟩

def configUpdateBy (admin : Pubkey) (field : ConfigField Pubkey) (now : Int64) :
    Invocation Pubkey Digest :=
  ⟨now, [admin], .configUpdate ⟨configPda, admin⟩ field⟩

def mixInitBy (host mint : Pubkey) (roundId denomination : UInt64) (capacity : UInt8)
    (commitWindowSeconds now : Int64) : Invocation Pubkey Digest :=
  ⟨now, [host], .mixInit ⟨configPda, host, mint, mixRoundPda mint roundId, systemProgramId⟩
    roundId denomination capacity commitWindowSeconds⟩

def mixCommitBy (participant round : Pubkey) (commitmentBytes : Digest) (now : Int64) :
    Invocation Pubkey Digest :=
  ⟨now, [participant], .mixCommit
    ⟨configPda, participant, round, mixCommitmentPda round participant, systemProgramId⟩
    commitmentBytes⟩

def mixRevealBy (participant round : Pubkey) (preimage : List UInt8)
    (revealSignal : Vector UInt8 32) (now : Int64) : Invocation Pubkey Digest :=
  ⟨now, [participant], .mixReveal
    ⟨configPda, participant, round, mixCommitmentPda round participant⟩ preimage revealSignal⟩

def mixSettleBy (host round : Pubkey) (now : Int64) : Invocation Pubkey Digest :=
  ⟨now, [host], .mixSettle ⟨configPda, host, round⟩⟩

variable [DecidableEq Pubkey] [DecidableEq Digest] [Sha256 Digest] {L : Ledger Pubkey Digest}
  {now : Int64}

theorem accepts_mixInitBy_iff (hL : WellAddressed L) {host mint : Pubkey}
    {roundId denomination : UInt64} {capacity : UInt8} {window : Int64} :
    ghos.Accepts L (mixInitBy host mint roundId denomination capacity window now) ↔
      ∃ config, L.config? configPda = some config ∧ config.paused = false ∧
        L (mixRoundPda mint roundId) = none ∧
        (mixMinParticipants ≤ capacity ∧ capacity ≤ mixMaxParticipants) ∧ 0 < denomination ∧
        0 < window := by
  rw [mixInitBy, accepts_iff]
  constructor
  · rintro ⟨config, h⟩
    exact ⟨config, h.configAt.stored, h.unpaused, h.fresh, h.capacity, h.denomination, h.window⟩
  · rintro ⟨config, hc, hu, hf, hcap, hd, hw⟩
    exact ⟨config, hL.isConfigAt hc, List.mem_singleton_self _, rfl, rfl, hf, hu, hcap, hd, hw⟩

theorem accepts_mixRevealBy_iff (hL : WellAddressed L) {p R : Pubkey} {preimage : List UInt8}
    {revealSignal : Vector UInt8 32} :
    ghos.Accepts L (mixRevealBy p R preimage revealSignal now) ↔
      ∃ config r c, L.config? configPda = some config ∧ config.paused = false ∧
        L.round? R = some r ∧ r.phase = .reveal ∧ now ≤ r.revealCloseAt ∧
        L.commitment? (mixCommitmentPda R p) = some c ∧ c.revealed = false ∧
        hashv [preimage, revealSignal.toList] = c.commitment := by
  rw [mixRevealBy, accepts_iff]
  constructor
  · rintro ⟨config, r, c, h⟩
    exact ⟨config, r, c, h.configAt.stored, h.unpaused, h.roundAt, h.phase, h.inWindow,
      h.commitmentAt, h.unrevealed, h.digest⟩
  · rintro ⟨config, r, c, hconf, hu, hr, hph, hw, hc, hn, hd⟩
    obtain ⟨hR, hp⟩ := hL.commitment_at hc
    refine ⟨config, r, c, hL.isConfigAt hconf, List.mem_singleton_self _, hr, hc, ?_, hu, hph, hw,
      hn, hp, hd⟩
    have hcreate := hL.create_commitment hc
    rwa [hR, hp] at hcreate

theorem accepts_mixSettleBy_iff (hL : WellAddressed L) {host R : Pubkey} :
    ghos.Accepts L (mixSettleBy host R now) ↔
      ∃ config r, L.config? configPda = some config ∧ config.paused = false ∧
        L.round? R = some r ∧ r.host = host ∧
        (r.phase = .settling ∧ config.mixMinParticipants ≤ r.revealed ∨
          r.phase = .reveal ∧ r.revealCloseAt < now) := by
  rw [mixSettleBy, accepts_iff]
  constructor
  · rintro ⟨config, r, h⟩
    exact ⟨config, r, h.configAt.stored, h.unpaused, h.roundAt, h.host, h.phase⟩
  · rintro ⟨config, r, hconf, hu, hr, hh, hph⟩
    exact ⟨config, r, hL.isConfigAt hconf, List.mem_singleton_self _, hr, hh, hu, hph⟩

end Requests

/-! ### A sample round -/

namespace Sample

def admin : Sym := .wallet 1

def host : Sym := .wallet 2

def mint : Sym := .wallet 3

/-- The four participants. -/
def participant (n : ℕ) : Sym := .wallet (n + 4)

def round : Sym := mixRoundPda mint 0

def signal : Vector UInt8 32 := .replicate 32 0

/-- What a participant commits to. -/
def preimage (n : ℕ) : List UInt8 := [UInt8.ofNat n]

/-- The config is created and the host opens a round for four. -/
def opening : List (Invocation Sym (List UInt8)) :=
  [initializeBy admin 0, mixInitBy host mint 0 100 4 1000 0]

/-- The first `n` participants commit. -/
def commits (n : ℕ) : List (Invocation Sym (List UInt8)) :=
  (List.range n).map fun i => mixCommitBy (participant i) round (hashv [preimage i, signal.toList]) 1

/-- The first `n` participants reveal. -/
def reveals (n : ℕ) : List (Invocation Sym (List UInt8)) :=
  (List.range n).map fun i => mixRevealBy (participant i) round (preimage i) signal 2

end Sample

/-- A round that is opened, filled and completely revealed. -/
def sampleRun : List (Invocation Sym (List UInt8)) :=
  Sample.opening ++ Sample.commits 4 ++ Sample.reveals 4

example : ∃ r ∈ (ghos.exec ghos.init sampleRun).round? Sample.round, r.phase = .settling := by
  decide +kernel

end Ghos
