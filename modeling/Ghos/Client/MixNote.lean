import Ghos.Client.Sdk

/-!
# Mix notes

`sdk/src/crypto/hash.ts` commits to the output of a participant with
`domain || mint || denomination || pubkey || salt`.  The denomination is written into eight bytes,
whatever its size, and neither the key nor the salt is checked for its length.

* `noteTranscripts_ne_iff`: when the hashed strings of two notes differ.
-/

namespace Ghos.Sdk

variable {Pubkey Digest : Type} [KeyBytes Pubkey] [Sha256 Digest]

def noteDomain : List UInt8 := asciiBytes "ghos.mix.note.v1"

/-- `view.setUint8(i, Number(tmp & 0xffn)); tmp >>= 8n;`, `n` times. -/
def denominationLoop : ℕ → ℤ → List UInt8
  | 0, _ => []
  | n + 1, tmp => UInt8.ofNat (tmp % 256).toNat :: denominationLoop n (tmp / 256)

/-- What a note commits to. -/
structure NoteParams (Pubkey : Type) where
  mint : Pubkey
  denomination : ℤ
  pubkey : List UInt8
  salt : List UInt8
  deriving DecidableEq

/-- The string under the hash of a note. -/
def NoteParams.transcript (params : NoteParams Pubkey) : List UInt8 :=
  noteDomain ++ (KeyBytes.toBytes params.mint).toList ++ denominationLoop 8 params.denomination ++
    params.pubkey ++ params.salt

/-- Compute the note commitment for the output slot of a participant. -/
def computeNoteCommitment (params : NoteParams Pubkey) : Digest := Sha256.sha256 params.transcript

structure MixNote (Digest : Type) where
  salt : List UInt8
  pubkey : List UInt8
  denomination : ℤ
  commitment : Digest
  deriving DecidableEq

/-- Generate a fresh mix note; `salt` is what `randomBytes(32)` returns. -/
def generateMixNote (mint : Pubkey) (denomination : ℤ) (pubkey : List UInt8)
    (salt : Vector UInt8 32) : MixNote Digest where
  salt := salt.toList
  pubkey := pubkey
  denomination := denomination
  commitment := computeNoteCommitment ⟨mint, denomination, pubkey, salt.toList⟩

theorem length_denominationLoop (n : ℕ) (tmp : ℤ) : (denominationLoop n tmp).length = n := by
  induction n generalizing tmp with
  | zero => rfl
  | succ n ih => rw [denominationLoop, List.length_cons, ih]

/-- The bytes of a number, also of a negative one. -/
theorem leNat_denominationLoop (n : ℕ) (tmp : ℤ) :
    (leNat (denominationLoop n tmp) : ℤ) = tmp % 256 ^ n := by
  induction n generalizing tmp with
  | zero => simp [denominationLoop, leNat]
  | succ n ih =>
    have hbyte : ((UInt8.ofNat (tmp % 256).toNat).toNat : ℤ) = tmp % 256 := by
      rw [UInt8.toNat_ofNat']
      omega
    rw [denominationLoop, leNat, Nat.cast_add, Nat.cast_mul, ih, hbyte, pow_succ']
    have hdiv : tmp / 256 / 256 ^ n = tmp / (256 * 256 ^ n) := Int.ediv_ediv_of_nonneg (by decide)
    rw [Int.emod_def (tmp / 256), Int.emod_def tmp (256 * 256 ^ n), hdiv, Int.emod_def tmp 256]
    push_cast
    ring

theorem denominationLoop_inj {n : ℕ} {x y : ℤ} :
    denominationLoop n x = denominationLoop n y ↔ x ≡ y [ZMOD 256 ^ n] := by
  rw [Int.ModEq, ← leNat_denominationLoop, ← leNat_denominationLoop, Nat.cast_inj]
  constructor
  · intro h
    rw [h]
  · intro h
    rw [← leBytes_leNat (length_denominationLoop n x), h,
      leBytes_leNat (length_denominationLoop n y)]

theorem noteTranscript_inj {params params' : NoteParams Pubkey} :
    params.transcript = params'.transcript ↔
      KeyBytes.toBytes params.mint = KeyBytes.toBytes params'.mint ∧
        params.denomination ≡ params'.denomination [ZMOD 2 ^ 64] ∧
          params.pubkey ++ params.salt = params'.pubkey ++ params'.salt := by
  have hmod : denominationLoop 8 params.denomination = denominationLoop 8 params'.denomination ↔
      params.denomination ≡ params'.denomination [ZMOD 2 ^ 64] := denominationLoop_inj
  rw [← hmod, ← Vector.toList_inj]
  simp only [NoteParams.transcript, List.append_assoc, List.append_cancel_left_eq]
  constructor
  · intro h
    obtain ⟨hmint, h⟩ := List.append_inj h (by simp)
    obtain ⟨hdenomination, h⟩ := List.append_inj h (by simp only [length_denominationLoop])
    exact ⟨hmint, hdenomination, h⟩
  · rintro ⟨hmint, hdenomination, h⟩
    rw [hmint, hdenomination, h]

/-- The hashed strings of two notes differ exactly if the mints differ, the denominations differ
modulo `2 ^ 64`, or the keys with the salts behind them differ. -/
theorem noteTranscripts_ne_iff (params params' : NoteParams Pubkey) :
    params.transcript ≠ params'.transcript ↔
      KeyBytes.toBytes params.mint ≠ KeyBytes.toBytes params'.mint ∨
        ¬ params.denomination ≡ params'.denomination [ZMOD 2 ^ 64] ∨
          params.pubkey ++ params.salt ≠ params'.pubkey ++ params'.salt := by
  rw [ne_eq, noteTranscript_inj, not_and_or, not_and_or]

/-- Notes of one mint with one commitment: the denominations are `100` and `2 ^ 64 + 100`, and a
byte stands at the end of one key and at the beginning of the other salt. -/
theorem noteTranscripts_eq_sample :
    (∀ (pubkey : List UInt8) (salt : Vector UInt8 32),
      (generateMixNote (Sym.wallet 1) 100 pubkey salt : MixNote (List UInt8)).commitment =
        (generateMixNote (Sym.wallet 1) (2 ^ 64 + 100) pubkey salt).commitment) ∧
    ∃ params params' : NoteParams Sym, params.mint = params'.mint ∧
      params.denomination = params'.denomination ∧ params.pubkey ≠ params'.pubkey ∧
        params.salt ≠ params'.salt ∧ params.transcript = params'.transcript := by
  constructor
  · intro pubkey salt
    have hmod : (100 : ℤ) ≡ 2 ^ 64 + 100 [ZMOD 2 ^ 64] := by decide
    exact congrArg Sha256.sha256 (noteTranscript_inj.2 ⟨rfl, hmod, rfl⟩)
  · exact ⟨⟨.wallet 1, 100, [1, 2], [3]⟩, ⟨.wallet 1, 100, [1], [2, 3]⟩, rfl, rfl, by decide,
      by decide, noteTranscript_inj.2 ⟨rfl, rfl, rfl⟩⟩

end Ghos.Sdk
