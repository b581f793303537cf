import Ghos.Lib.Borsh
import Ghos.Program.Mix

/-!
# Commit and reveal through the SDK

`sdk/src/crypto/hash.ts` computes the commitment that `mix_commit` stores, and
`sdk/src/instructions/mix.ts` builds the data that `mix_reveal` decodes.  The SDK commits to
`domain || round || participant || revealSignal || salt` and sends `revealSignal || salt`.  The
program reads the first four of these bytes as the length of the preimage, and it hashes what
follows.

* `revealFits_iff`: what the program hashes is never the string that the SDK has hashed, so the
  reveal fits the commitment only through a collision of sha256;
* `exists_salt_opening`: yet every commitment of the SDK has an opening, which carries the salt in
  the place of the signal.
-/

namespace Ghos

/-- `if (!cond) throw e`. -/
def throwUnless {ε : Type} (cond : Prop) [Decidable cond] (e : ε) : Except ε Unit :=
  if cond then .ok () else .error e

theorem throwUnless_eq_ok {ε : Type} {cond : Prop} [Decidable cond] {e : ε} {u : Unit} :
    throwUnless cond e = .ok u ↔ cond := by
  by_cases h : cond <;> simp [throwUnless, h]

@[simp] theorem throwUnless_bind_eq_ok {ε α : Type} {cond : Prop} [Decidable cond] {e : ε}
    {f : Unit → Except ε α} {a : α} : throwUnless cond e >>= f = .ok a ↔ cond ∧ f () = .ok a := by
  by_cases h : cond <;> simp [throwUnless, h, bind, Except.bind]

theorem throwUnless_bind {ε α : Type} {cond : Prop} [Decidable cond] {e : ε}
    {f : Unit → Except ε α} : throwUnless cond e >>= f = if cond then f () else .error e := by
  unfold throwUnless
  split_ifs
  · rfl
  · rfl

theorem except_bind_eq_ok {ε α β : Type} {x : Except ε α} {f : α → Except ε β} {b : β} :
    x >>= f = .ok b ↔ ∃ a, x = .ok a ∧ f a = .ok b := by
  cases x <;> simp [bind, Except.bind]

theorem exists_bind_eq_ok {ε α β : Type} {x : Except ε α} {f : α → Except ε β} :
    (∃ b, x >>= f = .ok b) ↔ ∃ a, x = .ok a ∧ ∃ b, f a = .ok b := by
  cases x <;> simp [bind, Except.bind]

theorem except_pure_eq_ok {ε α : Type} {a b : α} : (pure a : Except ε α) = .ok b ↔ a = b :=
  Except.ok.injEq a b ▸ Iff.rfl

theorem exists_mapM {ε α β : Type} {f : α → Except ε β} {l : List α}
    (h : ∀ a ∈ l, ∃ b, f a = .ok b) : ∃ bs, l.mapM f = .ok bs := by
  induction l with
  | nil => exact ⟨[], rfl⟩
  | cons a l ih =>
    rw [List.forall_mem_cons] at h
    obtain ⟨b, hb⟩ := h.1
    obtain ⟨bs, hbs⟩ := ih h.2
    refine ⟨b :: bs, ?_⟩
    rw [List.mapM_cons, hb, hbs]
    rfl

theorem length_of_mapM {ε α β : Type} {f : α → Except ε β} {l : List α} {bs : List β}
    (h : l.mapM f = .ok bs) : bs.length = l.length := by
  induction l generalizing bs with
  | nil =>
    obtain rfl : [] = bs := Except.ok.inj h
    rfl
  | cons a l ih =>
    simp only [List.mapM_cons, except_bind_eq_ok, except_pure_eq_ok] at h
    obtain ⟨b, -, bs, hbs, rfl⟩ := h
    rw [List.length_cons, List.length_cons, ih hbs]

theorem mapM_eq_ok {ε α β : Type} {f : α → Except ε β} {g : α → β} {l : List α}
    (h : ∀ a ∈ l, f a = .ok (g a)) : l.mapM f = .ok (l.map g) := by
  induction l with
  | nil => rfl
  | cons a l ih =>
    rw [List.forall_mem_cons] at h
    rw [List.mapM_cons, h.1, ih h.2]
    rfl

/-- A loop over indices that goes through the values `v`. -/
theorem foldlM_range_eq_ok {ε β : Type} {f : β → ℕ → Except ε β} {v : ℕ → β} {n : ℕ}
    (h : ∀ i < n, f (v i) i = .ok (v (i + 1))) : (List.range n).foldlM f (v 0) = .ok (v n) := by
  induction n with
  | zero => rfl
  | succ n ih =>
    rw [List.range_succ, List.foldlM_append, ih fun i hi => h i (Nat.lt_succ_of_lt hi)]
    exact (bind_pure _).trans (h n n.lt_succ_self)

theorem toOption_eq_some {ε α : Type} {x : Except ε α} {a : α} :
    x.toOption = some a ↔ x = .ok a := by
  cases x <;> simp [Except.toOption]

variable {Pubkey Digest : Type} [Sha256 Digest]

namespace Sdk

/-- A `GhosSdkError` with its code, or a plain `Error`. -/
inductive SdkError
  | ghosSdkError (code : ℕ) (message : String)
  | error (message : String)
  deriving DecidableEq

/-- `SDK_ERROR_CODES.InvalidInput`. -/
def invalidInput : ℕ := 9000

/-- `SDK_ERROR_CODES.InvalidCommitmentLength`. -/
def invalidCommitmentLength : ℕ := 9013

/-- `PublicKey.toBytes`. -/
class KeyBytes (Pubkey : Type) where
  toBytes : Pubkey → Vector UInt8 32

def mixCommitmentDomain : List UInt8 := asciiBytes "ghos.mix.commit.v1"

/-- What a participant keeps from the commit until the reveal. -/
structure MixOpening (Pubkey : Type) where
  round : Pubkey
  participant : Pubkey
  revealSignal : List UInt8
  salt : List UInt8

variable [KeyBytes Pubkey]

/-- The string under the hash of a commitment. -/
def MixOpening.transcript (params : MixOpening Pubkey) : List UInt8 :=
  mixCommitmentDomain ++ (KeyBytes.toBytes params.round).toList ++
    (KeyBytes.toBytes params.participant).toList ++ params.revealSignal ++ params.salt

/-- Compute the commitment that a participant posts in the commit phase. -/
def computeMixCommitment (params : MixOpening Pubkey) : Except SdkError Digest := do
  throwUnless (params.revealSignal.length = 32)
    (.ghosSdkError invalidCommitmentLength
      s!"revealSignal must be 32 bytes, got {params.revealSignal.length}")
  throwUnless (params.salt.length = 32)
    (.ghosSdkError invalidCommitmentLength
      s!"salt must be 32 bytes, got {params.salt.length}")
  return Sha256.sha256 params.transcript

/-- An account of a transaction instruction. -/
structure AccountMeta (Pubkey : Type) where
  pubkey : Pubkey
  isSigner : Bool
  isWritable : Bool
  deriving DecidableEq

/-- What a builder hands to the wallet. -/
structure TransactionInstruction (Pubkey : Type) where
  keys : List (AccountMeta Pubkey)
  data : List UInt8
  deriving DecidableEq

variable [AddressSpace Pubkey]

omit [KeyBytes Pubkey] in
def deriveMixCommitmentPda (round participant : Pubkey) : Pubkey :=
  (findProgramAddress (mixCommitmentSeeds round participant)).1

/-- `discriminatorFor("mixReveal")`. -/
def mixRevealDiscriminator : List UInt8 := [208, 115, 92, 52, 33, 160, 231, 14]

omit [KeyBytes Pubkey] in
/-- Build the `mix_reveal` instruction. -/
def buildMixRevealInstruction (params : MixOpening Pubkey) :
    Except SdkError (TransactionInstruction Pubkey) := do
  throwUnless (params.revealSignal.length = 32)
    (.error s!"revealSignal must be 32 bytes, got {params.revealSignal.length}")
  throwUnless (params.salt.length = 32)
    (.error s!"salt must be 32 bytes, got {params.salt.length}")
  let commitmentPda := deriveMixCommitmentPda params.round params.participant
  let data := mixRevealDiscriminator ++ params.revealSignal ++ params.salt
  return {
    keys := [
      { pubkey := params.participant, isSigner := true, isWritable := true },
      { pubkey := params.round, isSigner := false, isWritable := true },
      { pubkey := commitmentPda, isSigner := false, isWritable := true }]
    data }

/-! ### The arguments as the program decodes them -/

/-- The arguments of `mix_reveal` from the data behind the discriminator; trailing bytes are
ignored. -/
def decodeMixReveal (data : List UInt8) : Option (List UInt8 × Vector UInt8 32) := do
  let (preimage, rest) ← Borsh.vec data
  let (revealSignal, _) ← Borsh.array 32 rest
  return (preimage, revealSignal)

/-- The reveal that the SDK sends opens the commitment that the SDK computed. -/
def RevealFits (Digest : Type) [Sha256 Digest] (round participant : Pubkey)
    (revealSignal salt : Vector UInt8 32) : Prop :=
  let params : MixOpening Pubkey :=
    { round, participant, revealSignal := revealSignal.toList, salt := salt.toList }
  ∃ (commitment : Digest) (ix : TransactionInstruction Pubkey),
    computeMixCommitment params = .ok commitment ∧ buildMixRevealInstruction params = .ok ix ∧
      ∃ preimage signal, decodeMixReveal (ix.data.drop 8) = some (preimage, signal) ∧
        hashv [preimage, signal.toList] = commitment

/-! ### What is committed and what is opened -/

/-- Different byte strings with one hash. -/
def Collides (Digest : Type) [Sha256 Digest] (a b : List UInt8) : Prop :=
  a ≠ b ∧ (Sha256.sha256 a : Digest) = Sha256.sha256 b

/-- The length of the preimage that the program reads from the signal. -/
def preimageLength (revealSignal : Vector UInt8 32) : ℕ := leNat (revealSignal.toList.take 4)

/-- The bytes that the program hashes: what follows the length, up to the end of the signal. -/
def openedBytes (revealSignal salt : Vector UInt8 32) : List UInt8 :=
  ((revealSignal.toList ++ salt.toList).drop 4).take (preimageLength revealSignal + 32)

theorem length_mixCommitmentDomain : mixCommitmentDomain.length = 18 := rfl

omit [AddressSpace Pubkey] in
theorem MixOpening.length_transcript (params : MixOpening Pubkey) :
    params.transcript.length = 82 + params.revealSignal.length + params.salt.length := by
  simp only [transcript, List.length_append, Vector.length_toList, length_mixCommitmentDomain]

theorem length_openedBytes (revealSignal salt : Vector UInt8 32) :
    (openedBytes revealSignal salt).length = min (preimageLength revealSignal + 32) 60 := by
  simp [openedBytes]

omit [AddressSpace Pubkey] in
theorem computeMixCommitment_eq_ok {params : MixOpening Pubkey} {commitment : Digest} :
    computeMixCommitment params = .ok commitment ↔
      params.revealSignal.length = 32 ∧ params.salt.length = 32 ∧
        Sha256.sha256 params.transcript = commitment := by
  simp [computeMixCommitment, pure, Except.pure]

omit [KeyBytes Pubkey] in
theorem buildMixRevealInstruction_data {params : MixOpening Pubkey}
    {ix : TransactionInstruction Pubkey} (h : buildMixRevealInstruction params = .ok ix) :
    ix.data.drop 8 = params.revealSignal ++ params.salt := by
  simp only [buildMixRevealInstruction, throwUnless_bind_eq_ok, pure, Except.pure,
    Except.ok.injEq] at h
  obtain ⟨-, -, rfl⟩ := h
  rfl

omit [KeyBytes Pubkey] in
theorem exists_buildMixRevealInstruction {params : MixOpening Pubkey}
    (hsignal : params.revealSignal.length = 32) (hsalt : params.salt.length = 32) :
    ∃ ix, buildMixRevealInstruction params = .ok ix := by
  simp [buildMixRevealInstruction, hsignal, hsalt, pure, Except.pure]

/-- The data splits into a length, a preimage of this length, a signal and a rest. -/
theorem decodeMixReveal_eq_some {data preimage : List UInt8} {signal : Vector UInt8 32} :
    decodeMixReveal data = some (preimage, signal) ↔
      ∃ p rest, p.length = 4 ∧ leNat p = preimage.length ∧
        data = p ++ (preimage ++ (signal.toList ++ rest)) := by
  simp only [decodeMixReveal, Option.bind_eq_bind, Option.bind_eq_some_iff, Prod.exists]
  constructor
  · rintro ⟨x, rest, hvec, s, rest', harray, heq⟩
    cases heq
    obtain ⟨p, hp, hn, rfl⟩ := Borsh.vec_eq_some.1 hvec
    rw [Borsh.array_eq_some.1 harray]
    exact ⟨p, rest', hp, hn, rfl⟩
  · rintro ⟨p, rest, hp, hn, rfl⟩
    exact ⟨preimage, signal.toList ++ rest, Borsh.vec_eq_some.2 ⟨p, hp, hn, rfl⟩, signal, rest,
      Borsh.array_eq_some.2 rfl, rfl⟩

/-- The data of the SDK begins with the first four bytes of the signal. -/
theorem take_four_append (revealSignal salt : Vector UInt8 32) :
    (revealSignal.toList ++ salt.toList).take 4 = revealSignal.toList.take 4 :=
  List.take_append_of_le_length (by simp)

/-- The bytes behind the length, as they stand in the data of the SDK. -/
theorem exists_openedBytes_append (revealSignal salt : Vector UInt8 32) :
    ∃ rest, revealSignal.toList ++ salt.toList =
      revealSignal.toList.take 4 ++ (openedBytes revealSignal salt ++ rest) := by
  refine ⟨((revealSignal.toList ++ salt.toList).drop 4).drop (preimageLength revealSignal + 32), ?_⟩
  rw [openedBytes, List.take_append_drop, ← take_four_append revealSignal salt,
    List.take_append_drop]

/-- The data of the SDK is decoded if the length leaves room for a signal, and the program then
hashes `openedBytes`. -/
theorem decodeMixReveal_sdk {revealSignal salt : Vector UInt8 32} {commitment : Digest} :
    (∃ preimage signal, decodeMixReveal (revealSignal.toList ++ salt.toList) =
        some (preimage, signal) ∧ hashv [preimage, signal.toList] = commitment) ↔
      preimageLength revealSignal ≤ 28 ∧
        Sha256.sha256 (openedBytes revealSignal salt) = commitment := by
  constructor
  · rintro ⟨preimage, signal, hdecode, rfl⟩
    obtain ⟨p, rest, hp, hn, hdata⟩ := decodeMixReveal_eq_some.1 hdecode
    have hlen := congrArg List.length hdata
    simp only [List.length_append, Vector.length_toList, hp] at hlen
    -- the length of the preimage stands in the first four bytes of the signal
    have hprefix : preimageLength revealSignal = preimage.length := by
      rw [preimageLength, ← take_four_append revealSignal salt, hdata, List.take_left' hp, hn]
    have hopened : openedBytes revealSignal salt = preimage ++ signal.toList := by
      rw [openedBytes, hdata, List.drop_left' hp, ← List.append_assoc, hprefix]
      exact List.take_left' (by simp)
    refine ⟨by omega, ?_⟩
    rw [hopened]
    simp [hashv]
  · rintro ⟨hn, rfl⟩
    have hlen : (openedBytes revealSignal salt).length = preimageLength revealSignal + 32 := by
      rw [length_openedBytes]
      omega
    obtain ⟨rest, hrest⟩ := exists_openedBytes_append revealSignal salt
    set opened := openedBytes revealSignal salt
    set n := preimageLength revealSignal with hpre
    let signal : Vector UInt8 32 := ⟨(opened.drop n).toArray, by simp [hlen]⟩
    have hsplit : opened.take n ++ signal.toList = opened := List.take_append_drop n opened
    refine ⟨opened.take n, signal, decodeMixReveal_eq_some.2 ?_, ?_⟩
    · refine ⟨revealSignal.toList.take 4, rest, by simp, ?_, ?_⟩
      · rw [List.length_take, hlen]
        exact hpre ▸ (min_eq_left (Nat.le_add_right n 32)).symm
      · rw [← List.append_assoc (opened.take n), hsplit]
        exact hrest
    · simp only [hashv, List.flatten_cons, List.flatten_nil, List.append_nil, hsplit]

omit [AddressSpace Pubkey] in
/-- The opened string is shorter than the committed one. -/
theorem openedBytes_ne_transcript (params : MixOpening Pubkey)
    (revealSignal salt : Vector UInt8 32) :
    openedBytes revealSignal salt ≠ params.transcript := by
  intro h
  have hlen := congrArg List.length h
  rw [length_openedBytes, MixOpening.length_transcript] at hlen
  omega

/-- A reveal fits if the program decodes it and hashes something with the hash of the committed
string. -/
theorem RevealFits.iff_sha256 {round participant : Pubkey} {revealSignal salt : Vector UInt8 32} :
    RevealFits Digest round participant revealSignal salt ↔
      preimageLength revealSignal ≤ 28 ∧
        (Sha256.sha256 (openedBytes revealSignal salt) : Digest) = Sha256.sha256
          (MixOpening.mk round participant revealSignal.toList salt.toList).transcript := by
  unfold RevealFits
  constructor
  · rintro ⟨commitment, ix, hcommit, hbuild, hopens⟩
    obtain ⟨-, -, rfl⟩ := computeMixCommitment_eq_ok.1 hcommit
    rw [buildMixRevealInstruction_data hbuild] at hopens
    exact decodeMixReveal_sdk.1 hopens
  · intro h
    have hsignal : revealSignal.toList.length = 32 := revealSignal.length_toList
    have hsalt : salt.toList.length = 32 := salt.length_toList
    obtain ⟨ix, hbuild⟩ : ∃ ix, buildMixRevealInstruction
        (MixOpening.mk round participant revealSignal.toList salt.toList) = .ok ix :=
      exists_buildMixRevealInstruction hsignal hsalt
    refine ⟨_, ix, computeMixCommitment_eq_ok.2 ⟨hsignal, hsalt, rfl⟩, hbuild, ?_⟩
    rw [buildMixRevealInstruction_data hbuild]
    exact decodeMixReveal_sdk.2 h

/-- The reveal of the SDK opens the commitment of the SDK only by accident: the length in the first
four bytes of the signal is in range, and the bytes behind it collide with the committed string. -/
theorem revealFits_iff (round participant : Pubkey) (revealSignal salt : Vector UInt8 32) :
    RevealFits Digest round participant revealSignal salt ↔
      preimageLength revealSignal ≤ 28 ∧
        Collides Digest (openedBytes revealSignal salt)
          (MixOpening.mk round participant revealSignal.toList salt.toList).transcript := by
  have hne := openedBytes_ne_transcript
    ⟨round, participant, revealSignal.toList, salt.toList⟩ revealSignal salt
  rw [RevealFits.iff_sha256, Collides, and_iff_right hne]

/-! ### A concrete reveal -/

/-- A key as a byte string. -/
def symBytes : Sym → List UInt8
  | .wallet n => leBytes 32 n
  | .bump b => [b]
  | .byte b rest => b :: symBytes rest
  | .key k rest => symBytes k ++ symBytes rest

instance : KeyBytes Sym where
  toBytes k := ⟨((symBytes k ++ List.replicate 32 0).take 32).toArray, by simp⟩

/-- A signal that starts with four bytes `255` announces more than `2 ^ 32 - 2` bytes. -/
theorem not_revealFits : ¬ RevealFits (List UInt8) (Sym.wallet 1) (Sym.wallet 2)
    (.replicate 32 255) (.replicate 32 0) := by
  rw [RevealFits.iff_sha256]
  exact fun h => absurd h.1 (by decide)

/-! ### The opening the program asks for -/

omit [AddressSpace Pubkey] in
/-- A commitment of the SDK is opened by the rest of its string as the preimage and the salt as the
signal. -/
theorem exists_salt_opening {params : MixOpening Pubkey} {commitment : Digest}
    (h : computeMixCommitment params = .ok commitment) :
    ∃ preimage, ∃ signal : Vector UInt8 32, signal.toList = params.salt ∧
      hashv [preimage, signal.toList] = commitment := by
  obtain ⟨-, hsalt, rfl⟩ := computeMixCommitment_eq_ok.1 h
  refine ⟨mixCommitmentDomain ++ (KeyBytes.toBytes params.round).toList ++
    (KeyBytes.toBytes params.participant).toList ++ params.revealSignal,
    ⟨params.salt.toArray, by simpa using hsalt⟩, rfl, ?_⟩
  simp [hashv, MixOpening.transcript]

end Sdk

end Ghos
