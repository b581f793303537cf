import Ghos.Client.Commands

/-!
# Arguments that the program decodes

Each client writes the arguments of an instruction behind the discriminator by hand, and the program
reads them with Borsh.

* `createBurnerFits_iff`: the SDK writes the burner's key before the duration, so the first eight
  bytes of the key are taken for the duration;
* `Cli.argumentsFit_iff`: `ghos mix join` writes the round id and the amount before the commitment,
  and `ghos audit register` writes too few bytes.
-/

namespace Ghos

variable {Point : Type} [Ristretto255 Point] {Pubkey : Type} [AddressSpace Pubkey]

open Sdk (KeyBytes)

/-! ### `create_burner` -/

namespace Sdk

/-- `discriminatorFor("createBurner")`. -/
def createBurnerDiscriminator : List UInt8 := [76, 212, 77, 241, 57, 220, 163, 93]

structure BuildCreateBurnerParams (Pubkey : Type) where
  owner : Pubkey
  burnerPubkey : Pubkey
  nonce : ℤ
  ttlSeconds : ℤ
  deriving DecidableEq

/-- Build the `create_burner` instruction. -/
def buildCreateBurnerInstruction [KeyBytes Pubkey] (params : BuildCreateBurnerParams Pubkey) :
    Except SdkError (TransactionInstruction Pubkey) := do
  let seeds ← burnerSeeds params.owner (.bigint params.nonce)
  let burnerPda := (findProgramAddress seeds).1
  let nonce ← encodeU64Le (.bigint params.nonce)
  let ttlSeconds ← encodeI64Le (.number params.ttlSeconds)
  return {
    keys := [
      { pubkey := params.owner, isSigner := true, isWritable := true },
      { pubkey := burnerPda, isSigner := false, isWritable := true },
      { pubkey := systemProgramId, isSigner := false, isWritable := false }]
    data := createBurnerDiscriminator ++ nonce ++ (KeyBytes.toBytes params.burnerPubkey).toList ++
      ttlSeconds }

end Sdk

/-- The arguments of `create_burner` from the data behind the discriminator; trailing bytes are
ignored. -/
def decodeCreateBurner (data : List UInt8) : Option (UInt64 × Int64) := do
  let (nonce, rest) ← Borsh.u64 data
  let (ttlSeconds, _) ← Borsh.i64 rest
  return (nonce, ttlSeconds)

variable (Pubkey) in
omit [AddressSpace Pubkey] in
/-- The data of an instruction register a burner: the program decodes the nonce and the duration,
and then writes an entry that expires after that duration. -/
structure Registers (data : List UInt8) (nonce : UInt64) (ttlSeconds : Int64) : Prop where
  decodes : decodeCreateBurner (data.drop 8) = some (nonce, ttlSeconds)
  expires : ∀ (accounts : CreateBurner Pubkey) (config : GhosConfig Pubkey) (bump : UInt8)
    (now : Int64), config.paused = false → now.toInt + ttlSeconds.toInt < 2 ^ 63 →
      ∃ entry event, accounts.handler config bump now nonce ttlSeconds = .ok (entry, event) ∧
        entry.nonce = nonce ∧ entry.expiresAt.toInt = now.toInt + ttlSeconds.toInt

section CreateBurner

variable {data : List UInt8} {nonce : UInt64} {ttlSeconds : Int64}

theorem decodeCreateBurner_eq_some :
    decodeCreateBurner data = some (nonce, ttlSeconds) ↔
      ∃ rest, data = nonce.toLeBytes ++ (ttlSeconds.toLeBytes ++ rest) := by
  simp only [decodeCreateBurner, bind, Option.bind_eq_some_iff, Prod.exists, pure,
    Option.some.injEq, Prod.mk.injEq, Borsh.u64_eq_some, Borsh.i64_eq_some]
  constructor
  · rintro ⟨_, _, rfl, _, rest, rfl, rfl, rfl⟩
    exact ⟨rest, rfl⟩
  · rintro ⟨rest, rfl⟩
    exact ⟨nonce, _, rfl, ttlSeconds, rest, rfl, rfl, rfl⟩

omit [AddressSpace Pubkey] in
/-- For a duration in the range of the program the rest is up to the decoder. -/
theorem registers_iff (hmin : 60 ≤ ttlSeconds.toInt) (hmax : ttlSeconds.toInt ≤ 2592000) :
    Registers Pubkey data nonce ttlSeconds ↔
      ∃ rest, data.drop 8 = nonce.toLeBytes ++ (ttlSeconds.toLeBytes ++ rest) := by
  rw [← decodeCreateBurner_eq_some]
  refine ⟨Registers.decodes, fun h => ⟨h, ?_⟩⟩
  intro accounts config bump now hpaused hfits
  have hrange : burnerTtlMinSeconds ≤ ttlSeconds ∧ ttlSeconds ≤ burnerTtlMaxSeconds := by
    have hlow : burnerTtlMinSeconds.toInt = 60 := by decide
    have hhigh : burnerTtlMaxSeconds.toInt = 2592000 := by decide
    rw [Int64.le_iff_toInt_le, Int64.le_iff_toInt_le, hlow, hhigh]
    exact ⟨hmin, hmax⟩
  have hexpires : (now.saturatingAdd ttlSeconds).toInt = now.toInt + ttlSeconds.toInt := by
    rw [Int64.toInt_saturatingAdd_of_nonneg (by omega)]
    omega
  simp only [CreateBurner.handler, assertNotPaused, validateBurnerTtl, Result.bind_eq_ok,
    require_eq_ok, hpaused, Result.pure_eq_ok, Prod.mk.injEq]
  exact ⟨_, _, ⟨(), rfl, (), hrange, rfl, rfl⟩, rfl, hexpires⟩

variable [KeyBytes Pubkey]

/-- The data of the SDK: the nonce, the key of the burner, the duration. -/
theorem buildCreateBurnerInstruction_data (owner burnerPubkey : Pubkey) (nonce : UInt64)
    (hmin : 60 ≤ ttlSeconds.toInt) (hmax : ttlSeconds.toInt ≤ 2592000) :
    ∃ ix, Sdk.buildCreateBurnerInstruction
        ⟨owner, burnerPubkey, nonce.toNat, ttlSeconds.toInt⟩ = .ok ix ∧
      ix.data.drop 8 = nonce.toLeBytes ++
        ((KeyBytes.toBytes burnerPubkey).toList ++ ttlSeconds.toLeBytes) := by
  have hnonce : Sdk.encodeU64Le (.bigint nonce.toNat) = .ok nonce.toLeBytes :=
    Sdk.encodeU64Le_eq_ok.2 rfl
  have httl : Sdk.encodeI64Le (.number ttlSeconds.toInt) = .ok ttlSeconds.toLeBytes :=
    Sdk.encodeI64Le_eq_ok.2 ⟨by omega, rfl⟩
  simp only [Sdk.buildCreateBurnerInstruction, Sdk.burnerSeeds_eq_ok, hnonce, httl,
    except_bind_eq_ok, Except.ok.injEq, exists_eq_left', except_pure_eq_ok]
  simp only [List.append_assoc]
  rfl

variable (Point) in
/-- Both clients send data that register the burner, unless the CLI refuses the nonce. -/
structure CreateBurnerFits (sha512 : List UInt8 → Vector UInt8 64) (entropy : Cli.Entropy)
    (owner burnerPubkey : Pubkey) (signer : Vector UInt8 64) (nonce : UInt64)
    (ttlSeconds : Int64) : Prop where
  sdk : ∃ ix, Sdk.buildCreateBurnerInstruction
      ⟨owner, burnerPubkey, nonce.toNat, ttlSeconds.toInt⟩ = .ok ix ∧
    Registers Pubkey ix.data nonce ttlSeconds
  cli : (∃ message, Cli.runCreate Point sha512 entropy owner signer.toList ttlSeconds.toInt
      nonce.toNat = .error (.badParameter message)) ∨
    ∃ ix, Cli.runCreate Point sha512 entropy owner signer.toList ttlSeconds.toInt nonce.toNat =
      .ok ix ∧ Registers Pubkey ix.data nonce ttlSeconds

section

variable {sha512 : List UInt8 → Vector UInt8 64} {entropy : Cli.Entropy}
  {owner burnerPubkey : Pubkey} {signer : Vector UInt8 64} {nonce : UInt64} {ttlSeconds : Int64}

/-- The program reads the duration from the first eight bytes of the burner's key. -/
theorem CreateBurnerFits.take_eq
    (h : CreateBurnerFits Point sha512 entropy owner burnerPubkey signer nonce ttlSeconds)
    (hmin : 60 ≤ ttlSeconds.toInt) (hmax : ttlSeconds.toInt ≤ 2592000) :
    (KeyBytes.toBytes burnerPubkey).toList.take 8 = ttlSeconds.toLeBytes := by
  obtain ⟨ix, hix, hregisters⟩ := h.sdk
  obtain ⟨ix', hix', hdata⟩ :=
    buildCreateBurnerInstruction_data owner burnerPubkey nonce hmin hmax
  obtain rfl : ix = ix' := Except.ok.inj (hix.symm.trans hix')
  obtain ⟨rest, hrest⟩ := (registers_iff hmin hmax).1 hregisters
  rw [hdata, List.append_right_inj] at hrest
  have htake := congrArg (List.take 8) hrest
  rwa [List.take_append_of_le_length (by simp), List.take_left' (by simp)] at htake

omit [KeyBytes Pubkey] in
variable (Point sha512 entropy owner signer) in
/-- The data of the CLI register the burner. -/
theorem runCreate_registers (nonce : UInt64) (hmin : 60 ≤ ttlSeconds.toInt)
    (hmax : ttlSeconds.toInt ≤ 2592000) :
    (∃ message, Cli.runCreate Point sha512 entropy owner signer.toList ttlSeconds.toInt
        nonce.toNat = .error (.badParameter message)) ∨
      ∃ ix, Cli.runCreate Point sha512 entropy owner signer.toList ttlSeconds.toInt nonce.toNat =
        .ok ix ∧ Registers Pubkey ix.data nonce ttlSeconds := by
  by_cases hslot : nonce.toNat < 64
  · have hsigner : 32 ≤ signer.toList.length := by simp
    obtain ⟨ix, hix⟩ : ∃ ix, Cli.runCreate Point sha512 entropy owner signer.toList
        ttlSeconds.toInt nonce.toNat = .ok ix := Cli.exists_runCreate hsigner hslot ttlSeconds
    exact .inr ⟨ix, hix, (registers_iff hmin hmax).2 (Cli.runCreate_data hix)⟩
  · have hrefused : ¬ (0 ≤ (nonce.toNat : ℤ) ∧
        (nonce.toNat : ℤ) < Cli.burnerRegistryCapPerOwner) := by
      unfold Cli.burnerRegistryCapPerOwner
      omega
    exact .inl (Cli.runCreate_refuses hrefused)

end

/-- The SDK's data register a burner only if its key starts with the bytes of the duration. -/
theorem createBurnerFits_iff (sha512 : List UInt8 → Vector UInt8 64) (entropy : Cli.Entropy)
    (owner burnerPubkey : Pubkey) (signer : Vector UInt8 64) (nonce : UInt64)
    (hmin : 60 ≤ ttlSeconds.toInt) (hmax : ttlSeconds.toInt ≤ 2592000) :
    CreateBurnerFits Point sha512 entropy owner burnerPubkey signer nonce ttlSeconds ↔
      (KeyBytes.toBytes burnerPubkey).toList.take 8 = ttlSeconds.toLeBytes := by
  refine ⟨fun h => h.take_eq hmin hmax, fun htake => ⟨?_, ?_⟩⟩
  · obtain ⟨ix, hix, hdata⟩ :=
      buildCreateBurnerInstruction_data owner burnerPubkey nonce hmin hmax
    refine ⟨ix, hix, (registers_iff hmin hmax).2 ⟨(KeyBytes.toBytes burnerPubkey).toList.drop 8 ++
      ttlSeconds.toLeBytes, ?_⟩⟩
    rw [hdata, ← htake, ← List.append_assoc (List.take 8 _), List.take_append_drop]
  · exact runCreate_registers Point sha512 entropy owner signer nonce hmin hmax

theorem createBurnerFits_iff_sample :
    (60 ≤ (3600 : Int64).toInt ∧ (3600 : Int64).toInt ≤ 2592000) ∧
      (CreateBurnerFits (ZMod curveOrder) (fun _ => .replicate 64 1) (.stuck 1) (Sym.wallet 1)
          (Sym.wallet 2) (.replicate 64 0) 0 3600 ↔
        (KeyBytes.toBytes (Sym.wallet 2)).toList.take 8 = (3600 : Int64).toLeBytes) :=
  ⟨by decide, createBurnerFits_iff _ _ (Sym.wallet 1) (Sym.wallet 2) _ 0 (by decide) (by decide)⟩

/-- An hour for the burner `2`: the program takes two seconds for the duration. -/
theorem not_createBurnerFits :
    ¬ CreateBurnerFits (ZMod curveOrder) (fun _ => .replicate 64 1) (.stuck 1) (Sym.wallet 1)
      (Sym.wallet 2) (.replicate 64 0) 0 3600 :=
  fun h => absurd (h.take_eq (by decide) (by decide)) (by decide)

end CreateBurner

/-! ### `mix_commit` and `auditor_register` -/

/-- The argument of `mix_commit`. -/
def decodeMixCommit (data : List UInt8) : Option (Vector UInt8 32) := do
  let (commitmentBytes, _) ← Borsh.array 32 data
  return commitmentBytes

/-- The arguments of `auditor_register`. -/
def decodeAuditorRegister (data : List UInt8) :
    Option (Vector UInt8 32 × List UInt8 × Int64) := do
  let (auditorPubkey, rest) ← Borsh.array 32 data
  let (pubkeyValidityProof, rest) ← Borsh.vec rest
  let (rotationCooldown, _) ← Borsh.i64 rest
  return (auditorPubkey, pubkeyValidityProof, rotationCooldown)

theorem decodeMixCommit_eq_some {data : List UInt8} {commitment : Vector UInt8 32} :
    decodeMixCommit data = some commitment ↔ ∃ rest, data = commitment.toList ++ rest := by
  simp only [decodeMixCommit, bind, Option.bind_eq_some_iff, Prod.exists, pure, Option.some.injEq,
    Borsh.array_eq_some]
  constructor
  · rintro ⟨_, rest, rfl, rfl⟩
    exact ⟨rest, rfl⟩
  · rintro ⟨rest, rfl⟩
    exact ⟨commitment, rest, rfl, rfl⟩

/-- The key, the length of a proof and the cooldown take 44 bytes. -/
theorem le_length_of_decodeAuditorRegister {data : List UInt8}
    {args : Vector UInt8 32 × List UInt8 × Int64} (h : decodeAuditorRegister data = some args) :
    44 ≤ data.length := by
  simp only [decodeAuditorRegister, bind, Option.bind_eq_some_iff, Prod.exists, pure,
    Borsh.array_eq_some, Borsh.vec_eq_some, Borsh.i64_eq_some] at h
  obtain ⟨key, _, rfl, proof, _, ⟨p, hp, -, rfl⟩, cooldown, rest, rfl, -⟩ := h
  simp only [List.length_append, Vector.length_toList, hp, Int64.length_toLeBytes]
  omega

/-- A string reads the same behind its first half only if the halves are equal. -/
theorem exists_append_eq_iff {α : Type} {p c rest : List α} {n : ℕ} (hp : p.length = n)
    (hc : c.length = n + n) : (∃ rest', p ++ (c ++ rest) = c ++ rest') ↔ c = p ++ p := by
  constructor
  · rintro ⟨rest', h⟩
    have hfirst : p = c.take n := by
      have htake := congrArg (List.take n) h
      rwa [List.take_left' hp, List.take_append_of_le_length (by omega)] at htake
    have hsecond : c.take n = c.drop n := by
      have hdrop := congrArg (List.drop n) h
      rw [List.drop_left' hp, List.drop_append_of_le_length (by omega)] at hdrop
      have htake := congrArg (List.take n) hdrop
      rwa [List.take_append_of_le_length (by omega),
        List.take_left' (by rw [List.length_drop]; omega)] at htake
    calc c = c.take n ++ c.drop n := (List.take_append_drop n c).symm
      _ = p ++ p := by rw [← hsecond, ← hfirst]
  · rintro rfl
    exact ⟨p ++ rest, by simp only [List.append_assoc]⟩

namespace Cli

/-- What `ghos mix join` or `ghos audit register` is given, and what it draws. -/
inductive CommandArgs (Pubkey : Type)
  | join (entropy : Entropy) (fresh : RandomScalar) (salt : Vector UInt8 32)
      (signer : Vector UInt8 64) (owner mint host : Pubkey) (roundId noteUnits : ℤ)
  | register (owner mint : Pubkey) (auditor : String)

namespace CommandArgs

section Hash

variable (Point) (blake3 : List UInt8 → Vector UInt8 32) (sha512 : List UInt8 → Vector UInt8 64)
  (fromString : String → Option (Vector UInt8 32))

/-- The instruction of the command. -/
def run : CommandArgs Pubkey → Except CommandError (Instruction Pubkey)
  | join entropy fresh salt signer owner mint host roundId noteUnits =>
    runJoin Point blake3 sha512 entropy fresh salt owner mint host signer.toList roundId noteUnits
  | register owner mint auditor => runRegister Point fromString owner mint auditor

omit [AddressSpace Pubkey] in
/-- The program decodes the commitment, or the key of the auditor. -/
def Decodes (data : List UInt8) : CommandArgs Pubkey → Prop
  | join entropy fresh salt signer _ _ _ _ noteUnits => ∃ material,
    joinMaterial Point blake3 sha512 entropy fresh salt signer.toList noteUnits = .ok material ∧
      decodeMixCommit data = some material.commitment
  | register _ _ auditor => ∃ key proof cooldown,
    decodeAuditorPubkey Point fromString auditor = .ok key.toList ∧
      decodeAuditorRegister data = some (key, proof, cooldown)

/-- What the command sends decodes to what it was given. -/
def ArgumentsFit (args : CommandArgs Pubkey) : Prop :=
  ∀ ix, args.run Point blake3 sha512 fromString = .ok ix →
    args.Decodes Point blake3 sha512 fromString (ix.data.drop 8)

omit [AddressSpace Pubkey] in
/-- The commitment is the round id and the amount, twice over. -/
def Coincides : CommandArgs Pubkey → Prop
  | join entropy fresh salt signer _ _ _ roundId noteUnits =>
    let written := leBytes 8 roundId.toNat ++ leBytes 8 noteUnits.toNat
    (joinCommitment Point sha512 blake3 entropy fresh salt signer.toList noteUnits.toNat).toList =
      written ++ written
  | register .. => False

end Hash

variable {blake3 : List UInt8 → Vector UInt8 32} {sha512 : List UInt8 → Vector UInt8 64}
  {fromString : String → Option (Vector UInt8 32)}

/-- The argument of `ghos mix join`. -/
theorem join_decodes_iff {entropy : Entropy} {fresh : RandomScalar} {salt : Vector UInt8 32}
    {signer : Vector UInt8 64} {owner mint host : Pubkey} {roundId noteUnits : ℤ}
    {ix : Instruction Pubkey}
    (h : runJoin Point blake3 sha512 entropy fresh salt owner mint host signer.toList roundId
      noteUnits = .ok ix) :
    (join entropy fresh salt signer owner mint host roundId noteUnits).Decodes Point blake3 sha512
        fromString (ix.data.drop 8) ↔
      (join entropy fresh salt signer owner mint host roundId noteUnits).Coincides Point blake3
        sha512 := by
  obtain ⟨material, hmaterial, ⟨hnonneg, hlt⟩, rest, hdata⟩ := runJoin_data h
  lift noteUnits to ℕ using hnonneg
  have hsigner : 32 ≤ signer.toList.length := by simp
  obtain ⟨material', hmaterial', hcommitment⟩ : ∃ material, joinMaterial Point blake3 sha512 entropy
      fresh salt signer.toList noteUnits = .ok material ∧ _ :=
    exists_joinMaterial hsigner (by omega)
  obtain rfl : material = material' := Except.ok.inj (hmaterial.symm.trans hmaterial')
  simp only [Decodes, Coincides, hmaterial, Except.ok.injEq, exists_eq_left',
    decodeMixCommit_eq_some, hdata, ← hcommitment, Int.toNat_natCast]
  rw [← List.append_assoc]
  exact exists_append_eq_iff (by rw [List.length_append, length_leBytes, length_leBytes])
    Vector.length_toList

/-- `ghos audit register` sends too little. -/
theorem not_register_decodes {owner mint : Pubkey} {auditor : String} {ix : Instruction Pubkey}
    (h : runRegister Point fromString owner mint auditor = .ok ix) :
    ¬ (register owner mint auditor).Decodes Point blake3 sha512 fromString (ix.data.drop 8) := by
  rintro ⟨key, proof, cooldown, -, hdecode⟩
  have hlong := le_length_of_decodeAuditorRegister hdecode
  have hshort := length_runRegister h
  omega

/-- For a join the round id and the amount stand where the commitment is read; a registration never
decodes. -/
theorem argumentsFit_iff (args : CommandArgs Pubkey)
    (h : ∃ ix, args.run Point blake3 sha512 fromString = .ok ix) :
    args.ArgumentsFit Point blake3 sha512 fromString ↔ args.Coincides Point blake3 sha512 := by
  obtain ⟨ix, hix⟩ := h
  have hdecodes : args.ArgumentsFit Point blake3 sha512 fromString ↔
      args.Decodes Point blake3 sha512 fromString (ix.data.drop 8) := by
    refine ⟨fun hfit => hfit ix hix, fun hdecodes ix' hix' => ?_⟩
    rwa [← Except.ok.inj (hix.symm.trans hix')]
  rw [hdecodes]
  cases args with
  | join => exact join_decodes_iff hix
  | register => exact iff_of_false (not_register_decodes hix) id

/-- A round `1` with an amount of `1000`. -/
def Sample.join : CommandArgs Sym :=
  .join (.stuck 1) (Entropy.stuck 1).scalar (.replicate 32 0) (.replicate 64 0) (Sym.wallet 1)
    (Sym.wallet 2) (Sym.wallet 1) 1 1000

/-- The auditor key of 64 zeros. -/
def Sample.register : CommandArgs Sym :=
  .register (Sym.wallet 1) (Sym.wallet 2) (String.ofList (List.replicate 64 '0'))

theorem Sample.decodeAuditorPubkey_zeros (fromString : String → Option (Vector UInt8 32)) :
    decodeAuditorPubkey (ZMod curveOrder) fromString (String.ofList (List.replicate 64 '0')) =
      .ok (List.replicate 32 0) := by
  have hstrip : strip (String.ofList (List.replicate 64 '0')) =
      String.ofList (List.replicate 64 '0') := by
    rw [strip, String.toList_ofList]
    congr 1
  have hhex : fromHex (List.replicate 64 '0') = some (List.replicate 32 0) := by decide +kernel
  simp only [decodeAuditorPubkey, hstrip, String.length_ofList, String.toList_ofList,
    List.length_replicate, auditorPubkeyLen, hhex]
  rfl

theorem Sample.exists_register :
    ∃ ix, Sample.register.run (ZMod curveOrder) (fun _ => .replicate 32 0)
      (fun _ => .replicate 64 1) (fun _ => none) = .ok ix := by
  simp only [Sample.register, run, runRegister, Sample.decodeAuditorPubkey_zeros, except_bind_eq_ok,
    Except.ok.injEq, exists_eq_left', except_pure_eq_ok]
  exact ⟨_, rfl⟩

theorem argumentsFit_iff_sample :
    (∃ ix, Sample.register.run (ZMod curveOrder) (fun _ => .replicate 32 0)
        (fun _ => .replicate 64 1) (fun _ => none) = .ok ix) ∧
      (Sample.register.ArgumentsFit (ZMod curveOrder) (fun _ => .replicate 32 0)
          (fun _ => .replicate 64 1) (fun _ => none) ↔
        Sample.register.Coincides (ZMod curveOrder) (fun _ => .replicate 32 0)
          (fun _ => .replicate 64 1)) :=
  ⟨Sample.exists_register, argumentsFit_iff Sample.register Sample.exists_register⟩

/-- Neither fits, here with a commitment of zeros. -/
theorem not_argumentsFit :
    ¬ Sample.join.ArgumentsFit (ZMod curveOrder) (fun _ => .replicate 32 0)
        (fun _ => .replicate 64 1) (fun _ => none) ∧
      ¬ Sample.register.ArgumentsFit (ZMod curveOrder) (fun _ => .replicate 32 0)
        (fun _ => .replicate 64 1) (fun _ => none) := by
  constructor
  · intro h
    obtain ⟨ix, hix⟩ : ∃ ix, Sample.join.run (ZMod curveOrder) (fun _ => .replicate 32 0)
        (fun _ => .replicate 64 1) (fun _ => none) = .ok ix := exists_runJoin (by simp) 1 1000
    have hcoincides := (join_decodes_iff hix).1 (h ix hix)
    simp only [Coincides, joinCommitment] at hcoincides
    exact absurd hcoincides (by decide)
  · intro h
    obtain ⟨ix, hix⟩ := Sample.exists_register
    exact not_register_decodes hix (h ix hix)

end CommandArgs

end Cli

end Ghos
