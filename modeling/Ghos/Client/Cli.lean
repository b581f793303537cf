import Ghos.Client.Sdk

/-!
# Commitments of the CLI

`cli/ghos_cli/crypto/commit.py` hashes what a participant commits to with blake3, where `mix_reveal`
hashes with sha256.  So a commitment of the CLI is as good as any digest: it can be opened for every
blake3 only if sha256 takes every digest (`CliOpenable.exists_sha256`), and it cannot be opened for
every pair of hash functions (`not_cliOpenable`).
-/

namespace Ghos.Cli

variable {Digest : Type}

def commitDomain : List UInt8 := asciiBytes "ghos.mix.commit.v1"

/-- A `CryptoError` with its message. -/
inductive Error
  | cryptoError (message : String)
  deriving DecidableEq

/-- `len(b).to_bytes(2, "little")` and `b`. -/
def lengthPrefixed (b : List UInt8) : List UInt8 := leBytes 2 b.length ++ b

/-- The bytes fed to the hasher of `commit_hash`. -/
def commitTranscript (elgamalPk note salt : List UInt8) : List UInt8 :=
  commitDomain ++ lengthPrefixed elgamalPk ++ lengthPrefixed note ++ lengthPrefixed salt

/-- Produce the mix commitment hash. -/
def commitHash (blake3 : List UInt8 → Digest) (elgamalPk note salt : List UInt8) :
    Except Error Digest := do
  throwUnless (elgamalPk.length = 32)
    (.cryptoError s!"elgamal_pk must be 32 bytes, got {elgamalPk.length}")
  throwUnless (note.length = 64) (.cryptoError s!"note must be 64 bytes, got {note.length}")
  throwUnless (16 ≤ salt.length ∧ salt.length ≤ 64)
    (.cryptoError s!"salt length must be 16..64 bytes, got {salt.length}")
  return blake3 (commitTranscript elgamalPk note salt)

theorem commitHash_eq_ok {blake3 : List UInt8 → Digest} {elgamalPk note salt : List UInt8}
    {commitment : Digest} :
    commitHash blake3 elgamalPk note salt = .ok commitment ↔
      elgamalPk.length = 32 ∧ note.length = 64 ∧ (16 ≤ salt.length ∧ salt.length ≤ 64) ∧
        blake3 (commitTranscript elgamalPk note salt) = commitment := by
  simp only [commitHash, throwUnless_bind_eq_ok, pure, Except.pure, Except.ok.injEq]

/-- Some reveal passes the digest check of `mix_reveal` against the commitment. -/
def Openable [Sha256 Digest] (commitment : Digest) : Prop :=
  ∃ preimage, ∃ signal : Vector UInt8 32, hashv [preimage, signal.toList] = commitment

/-- A commitment can be opened if it is the digest of a string with room for a signal. -/
theorem openable_iff [Sha256 Digest] {commitment : Digest} :
    Openable commitment ↔ ∃ b : List UInt8, 32 ≤ b.length ∧ Sha256.sha256 b = commitment := by
  constructor
  · rintro ⟨preimage, signal, rfl⟩
    exact ⟨[preimage, signal.toList].flatten, by simp, rfl⟩
  · rintro ⟨b, hb, rfl⟩
    -- the signal is the last 32 bytes
    have hlen : (b.drop (b.length - 32)).length = 32 := by
      rw [List.length_drop]
      omega
    refine ⟨b.take (b.length - 32), ⟨(b.drop (b.length - 32)).toArray, by simpa using hlen⟩, ?_⟩
    simp [hashv, List.take_append_drop]

/-- As far as blake3 goes, a commitment of the CLI can be any digest. -/
theorem forall_commitHash_openable_iff [Sha256 Digest] {elgamalPk note salt : List UInt8}
    (hpk : elgamalPk.length = 32) (hnote : note.length = 64)
    (hsalt : 16 ≤ salt.length ∧ salt.length ≤ 64) :
    (∀ (blake3 : List UInt8 → Digest) (commitment), commitHash blake3 elgamalPk note salt =
      .ok commitment → Openable commitment) ↔ ∀ digest : Digest, Openable digest := by
  constructor
  · intro h digest
    exact h (fun _ => digest) digest (commitHash_eq_ok.2 ⟨hpk, hnote, hsalt, rfl⟩)
  · intro h _ commitment _
    exact h commitment

/-- The commitment that the CLI computes from `elgamalPk`, `note` and `salt` can be opened, whatever
the two hash functions are.  This is less than a recipe for the opening, which would not depend on
the hash functions either. -/
def CliOpenable (elgamalPk note salt : List UInt8) : Prop :=
  ∀ [Sha256 (Vector UInt8 32)] (blake3 : List UInt8 → Vector UInt8 32) (commitment),
    commitHash blake3 elgamalPk note salt = .ok commitment → Openable commitment

/-- If sha256 misses a digest, then no commitment of the CLI is safe to open. -/
theorem CliOpenable.exists_sha256 {elgamalPk note salt : List UInt8} (hpk : elgamalPk.length = 32)
    (hnote : note.length = 64) (hsalt : 16 ≤ salt.length ∧ salt.length ≤ 64)
    (h : CliOpenable elgamalPk note salt) (sha256 : List UInt8 → Vector UInt8 32)
    (digest : Vector UInt8 32) : ∃ b, sha256 b = digest := by
  let _ : Sha256 (Vector UInt8 32) := ⟨sha256⟩
  obtain ⟨b, -, hb⟩ :=
    openable_iff.1 ((forall_commitHash_openable_iff hpk hnote hsalt).1 h digest)
  exact ⟨b, hb⟩

/-- No commitment of the CLI can be opened for every pair of hash functions. -/
theorem not_cliOpenable {elgamalPk note salt : List UInt8} (hpk : elgamalPk.length = 32)
    (hnote : note.length = 64) (hsalt : 16 ≤ salt.length ∧ salt.length ≤ 64) :
    ¬ CliOpenable elgamalPk note salt := by
  intro h
  -- a hash function that misses the digest of ones
  obtain ⟨b, hb⟩ := h.exists_sha256 hpk hnote hsalt (fun _ => .replicate 32 0) (.replicate 32 1)
  exact absurd hb (by decide)

/-- What `ghos mix join` sends: a note of 64 bytes, a salt of 32. -/
theorem not_cliOpenable_join :
    ¬ CliOpenable (.replicate 32 7) (.replicate 64 8) (.replicate 32 9) :=
  not_cliOpenable (by decide) (by decide) (by decide)

/-- The shortest salt. -/
theorem not_cliOpenable_zeros :
    ¬ CliOpenable (.replicate 32 0) (.replicate 64 0) (.replicate 16 0) := by
  intro h
  obtain ⟨b, hb⟩ := h.exists_sha256 (by decide) (by decide) (by decide)
    (fun _ => .replicate 32 0) (.replicate 32 1)
  exact absurd hb (by decide)

end Ghos.Cli
