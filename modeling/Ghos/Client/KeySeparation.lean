import Ghos.Client.Commands

/-!
# The keys of a wallet do not meet

`derive_elgamal_from_signer` of `cli/ghos_cli/crypto/keys.py` hashes a domain, the length of the
context in two bytes, the context and the seed of the wallet.  The roles of a key are told apart by
their contexts.

* `hashInput_inj`: the hashed string determines the context and the seed;
* `keySeparation`: the keys of different roles or wallets come from different strings.
-/

namespace Ghos.Cli

variable {Point : Type} [Ristretto255 Point] {sha512 : List UInt8 → Vector UInt8 64}

/-- The string under the first hash of `derive_elgamal_from_signer`. -/
def hashInput (signerBytes : List UInt8) (context : Option (List UInt8)) :
    Except KeyError (List UInt8) := do
  throwUnless (32 ≤ signerBytes.length)
    (.keypairError s!"signer_bytes must be at least 32 bytes, got {signerBytes.length}")
  let seed := signerBytes.take 32
  let contextBytes ← encodeContext context
  return elgamalDomain ++ contextBytes ++ seed

variable (Point) (sha512) in
/-- Nothing else of the signer and the context goes into the key. -/
theorem deriveElgamalFromSigner_eq_hashInput (entropy : Entropy) (signerBytes : List UInt8)
    (context : Option (List UInt8)) :
    deriveElgamalFromSigner Point sha512 entropy signerBytes context = (do
      let input ← hashInput signerBytes context
      return keygen Point sha512 entropy (some (sha512 input).toList)) := by
  rw [deriveElgamalFromSigner, hashInput, throwUnless_bind, throwUnless_bind]
  split_ifs
  · cases encodeContext context with
    | error e => rfl
    | ok contextBytes => rfl
  · rfl

variable (Point) (sha512) in
/-- Derive the auditor-specific ElGamal keypair for a given mint. -/
def deriveAuditorElgamal (entropy : Entropy) (signerBytes mintBytes : List UInt8) :
    Except KeyError ElGamalKeypair := do
  throwUnless (mintBytes.length = 32)
    (.keypairError s!"mint_bytes must be 32 bytes, got {mintBytes.length}")
  deriveElgamalFromSigner Point sha512 entropy signerBytes
    (some (asciiBytes "auditor:" ++ mintBytes))

/-! ### The hashed string -/

theorem lengthPrefixed_inj {c c' rest rest' : List UInt8} (hc : c.length < 2 ^ 16)
    (hc' : c'.length < 2 ^ 16) (h : lengthPrefixed c ++ rest = lengthPrefixed c' ++ rest') :
    c = c' ∧ rest = rest' := by
  rw [lengthPrefixed, lengthPrefixed, List.append_assoc, List.append_assoc] at h
  obtain ⟨hlength, h⟩ := List.append_inj h (by rw [length_leBytes, length_leBytes])
  have hsame : c.length = c'.length := by
    rw [← leNat_leBytes_of_lt (n := 2) hc, hlength, leNat_leBytes_of_lt hc']
  exact List.append_inj h hsame

theorem hashInput_some_eq_ok {signerBytes context input : List UInt8} :
    hashInput signerBytes (some context) = .ok input ↔ 32 ≤ signerBytes.length ∧
      context.length < 2 ^ 16 ∧
        elgamalDomain ++ lengthPrefixed context ++ signerBytes.take 32 = input := by
  simp only [hashInput, encodeContext, except_bind_eq_ok, except_pure_eq_ok, throwUnless_eq_ok,
    exists_const]
  constructor
  · rintro ⟨hsigner, _, ⟨hcontext, rfl⟩, rfl⟩
    exact ⟨hsigner, hcontext, rfl⟩
  · rintro ⟨hsigner, hcontext, rfl⟩
    exact ⟨hsigner, _, ⟨hcontext, rfl⟩, rfl⟩

/-- No context is hashed like the empty one. -/
theorem hashInput_getD (signerBytes : List UInt8) (context : Option (List UInt8)) :
    hashInput signerBytes (some (context.getD [])) = hashInput signerBytes context := by
  cases context with
  | none => rfl
  | some context => rfl

theorem hashInput_inj {s s' c c' input : List UInt8} (h : hashInput s (some c) = .ok input)
    (h' : hashInput s' (some c') = .ok input) : c = c' ∧ s.take 32 = s'.take 32 := by
  obtain ⟨-, hc, rfl⟩ := hashInput_some_eq_ok.1 h
  obtain ⟨-, hc', hsame⟩ := hashInput_some_eq_ok.1 h'
  rw [List.append_assoc, List.append_assoc, List.append_cancel_left_eq] at hsame
  obtain ⟨hcontext, hseed⟩ := lengthPrefixed_inj hc' hc hsame
  exact ⟨hcontext.symm, hseed.symm⟩

/-! ### Roles -/

/-- What a key of a wallet is for. -/
inductive KeyRole
  | contextless
  | user
  | auditor (mint : Vector UInt8 32)
  | burner (nonce : UInt64)

namespace KeyRole

/-- The context of a role. -/
def context : KeyRole → Option (List UInt8)
  | contextless => none
  | user => some userDefault
  | auditor mint => some (asciiBytes "auditor:" ++ mint.toList)
  | burner nonce => some (asciiBytes "burner:" ++ leBytes 8 nonce.toNat)

variable (Point) (sha512) in
/-- The key of a role. -/
def derive (entropy : Entropy) (signerBytes : List UInt8) :
    KeyRole → Except KeyError ElGamalKeypair
  | contextless => deriveElgamalFromSigner Point sha512 entropy signerBytes none
  | user => deriveElgamalFromSigner Point sha512 entropy signerBytes (some userDefault)
  | auditor mint => deriveAuditorElgamal Point sha512 entropy signerBytes mint.toList
  | burner nonce => deriveBurnerElgamal Point sha512 entropy signerBytes nonce.toNat

theorem length_context (role : KeyRole) : (role.context.getD []).length =
    match role with
    | contextless => 0
    | user => 12
    | auditor _ => 8 + 32
    | burner _ => 7 + 8 := by
  cases role with
  | contextless => rfl
  | user => rfl
  | auditor mint =>
    rw [context, Option.getD_some, List.length_append, Vector.length_toList]
    rfl
  | burner nonce =>
    rw [context, Option.getD_some, List.length_append, length_leBytes]
    rfl

theorem length_context_lt (role : KeyRole) : (role.context.getD []).length < 2 ^ 16 := by
  rw [length_context]
  cases role <;> simp

/-- The contexts of different roles have different lengths; those of one role have one prefix. -/
theorem context_inj {role role' : KeyRole} (h : role.context.getD [] = role'.context.getD []) :
    role = role' := by
  have hlength := congrArg List.length h
  rw [length_context, length_context] at hlength
  cases role with
  | contextless =>
    cases role' with
    | contextless => rfl
    | _ => simp at hlength
  | user =>
    cases role' with
    | user => rfl
    | _ => simp at hlength
  | auditor mint =>
    cases role' with
    | auditor mint' => rw [Vector.toList_inj.1 (List.append_cancel_left h)]
    | _ => simp at hlength
  | burner nonce =>
    cases role' with
    | burner nonce' => rw [UInt64.toLeBytes_injective (List.append_cancel_left h)]
    | _ => simp at hlength

variable (Point) (sha512) in
/-- Every key is derived under the context of its role. -/
theorem derive_eq (entropy : Entropy) (signerBytes : List UInt8) (role : KeyRole) :
    role.derive Point sha512 entropy signerBytes =
      deriveElgamalFromSigner Point sha512 entropy signerBytes role.context := by
  cases role with
  | contextless => rfl
  | user => rfl
  | auditor mint =>
    rw [derive, deriveAuditorElgamal, throwUnless_bind, if_pos mint.length_toList]
    rfl
  | burner nonce =>
    have hnonce : (0 : ℤ) ≤ nonce.toNat ∧ (nonce.toNat : ℤ) / 2 ^ 64 = 0 := by
      have hlt := nonce.toNat_lt
      omega
    rw [derive, deriveBurnerElgamal, throwUnless_bind, if_pos hnonce, Int.toNat_natCast]
    rfl

theorem hashInput_context {signerBytes : List UInt8} (hsigner : 32 ≤ signerBytes.length)
    (role : KeyRole) : hashInput signerBytes role.context =
      .ok (elgamalDomain ++ lengthPrefixed (role.context.getD []) ++ signerBytes.take 32) := by
  rw [← hashInput_getD]
  exact hashInput_some_eq_ok.2 ⟨hsigner, role.length_context_lt, rfl⟩

/-- The hashed string determines the role and the seed. -/
theorem hashInput_context_inj {s s' input : List UInt8} {role role' : KeyRole}
    (h : hashInput s role.context = .ok input) (h' : hashInput s' role'.context = .ok input) :
    role = role' ∧ s.take 32 = s'.take 32 := by
  rw [← hashInput_getD] at h h'
  obtain ⟨hcontext, hseed⟩ := hashInput_inj h h'
  exact ⟨context_inj hcontext, hseed⟩

end KeyRole

/-- A key is a function of the hashed string, which determines the context and the seed; longer
contexts raise; and the keys of different roles or wallets come from different strings. -/
theorem keySeparation (Point : Type) [Ristretto255 Point] (sha512 : List UInt8 → Vector UInt8 64)
    (entropy : Entropy) :
    (∀ s context, deriveElgamalFromSigner Point sha512 entropy s context = (do
      let input ← hashInput s context
      return keygen Point sha512 entropy (some (sha512 input).toList))) ∧
    (∀ s s' c c' input, hashInput s (some c) = .ok input → hashInput s' (some c') = .ok input →
      c = c' ∧ s.take 32 = s'.take 32) ∧
    (∀ s c : List UInt8, 32 ≤ s.length → 2 ^ 16 ≤ c.length →
      deriveElgamalFromSigner Point sha512 entropy s (some c) =
        .error (.overflowError "int too big to convert")) ∧
    ∀ (s s' : List UInt8) (role role' : KeyRole), 32 ≤ s.length → 32 ≤ s'.length →
      (role, s.take 32) ≠ (role', s'.take 32) → ∃ input input', input ≠ input' ∧
        hashInput s role.context = .ok input ∧ hashInput s' role'.context = .ok input' ∧
          role.derive Point sha512 entropy s =
            .ok (keygen Point sha512 entropy (some (sha512 input).toList)) ∧
          role'.derive Point sha512 entropy s' =
            .ok (keygen Point sha512 entropy (some (sha512 input').toList)) := by
  refine ⟨deriveElgamalFromSigner_eq_hashInput Point sha512 entropy,
    fun s s' c c' input => hashInput_inj, fun s c hs hc => ?_, fun s s' role role' hs hs' hne => ?_⟩
  · rw [deriveElgamalFromSigner, throwUnless_bind, if_pos hs, encodeContext, throwUnless_bind,
      if_neg hc.not_gt]
    rfl
  · have hinput := KeyRole.hashInput_context hs role
    have hinput' := KeyRole.hashInput_context hs' role'
    refine ⟨_, _, ?_, hinput, hinput', ?_, ?_⟩
    · intro heq
      rw [← heq] at hinput'
      obtain ⟨hrole, hseed⟩ := KeyRole.hashInput_context_inj hinput hinput'
      exact hne (by rw [hrole, hseed])
    · rw [KeyRole.derive_eq, deriveElgamalFromSigner_eq_hashInput, hinput]
      rfl
    · rw [KeyRole.derive_eq, deriveElgamalFromSigner_eq_hashInput, hinput']
      rfl

end Ghos.Cli
