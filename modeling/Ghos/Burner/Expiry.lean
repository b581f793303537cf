import Ghos.Burner.Cap

/-!
# The life of a burner entry

A registration is the life of a burner entry, from the `create_burner` that writes it to the
`destroy_burner` that closes it.  No other instruction writes the registry, and `create_burner`
takes a free address, so an entry stays exactly as it was written (`Stands.entry`), whatever becomes
of the config.  Its expiry is final (`expiryFinal`).
-/

namespace Ghos

variable {Pubkey Digest World : Type} [DecidableEq Pubkey] [DecidableEq Digest]
  [AddressSpace Pubkey] [Sha256 Digest] [External Pubkey World]
  {run : List (Call Pubkey Digest World)} {owner a : Pubkey} {i k m n : ℕ}

/-! ### The clock -/

section Activity

omit [DecidableEq Pubkey] [DecidableEq Digest] [AddressSpace Pubkey] [Sha256 Digest]
  [External Pubkey World]

theorem burnerIsActive_eq_false {entry : BurnerAccount Pubkey} {now : Int64} :
    burnerIsActive entry now = false ↔ entry.revoked = true ∨ entry.expiresAt ≤ now := by
  simp [burnerIsActive, Int64.not_lt, or_iff_not_imp_left]

/-- What has expired stays expired. -/
theorem burnerIsActive_antitone {entry : BurnerAccount Pubkey} {t t' : Int64} (ht : t ≤ t')
    (h : burnerIsActive entry t = false) : burnerIsActive entry t' = false := by
  rw [burnerIsActive_eq_false] at *
  exact h.imp_right fun hle => Int64.le_trans hle ht

/-- The time to live of a new entry is what was asked for, unless the clock is near its end. -/
theorem toInt_saturatingAdd_ttl {now ttl : Int64} (hmin : burnerTtlMinSeconds ≤ ttl)
    (hmax : ttl ≤ burnerTtlMaxSeconds) :
    (now.saturatingAdd ttl).toInt - now.toInt ≤ 2592000 ∧
      (now.toInt < Int64.maxValue.toInt - 2592000 →
        60 ≤ (now.saturatingAdd ttl).toInt - now.toInt) := by
  rw [Int64.le_iff_toInt_le] at hmin hmax
  have h60 : burnerTtlMinSeconds.toInt = 60 := by decide
  have h30 : burnerTtlMaxSeconds.toInt = 2592000 := by decide
  have hlast := Int64.toInt_maxValue
  rw [Int64.toInt_saturatingAdd_of_nonneg (by omega)]
  omega

end Activity

/-! ### One entry -/

/-- An entry that is there before and after a call is the same entry. -/
theorem burners_kept {e e' : BurnerAccount Pubkey}
    (he : (program.stateAt run n).burners a = some e)
    (he' : (program.stateAt run (n + 1)).burners a = some e') : e' = e := by
  rcases burners_succ_cases he' with hold | hcreates
  · exact Option.some.inj (hold.symm.trans he)
  -- nothing is created at an address in use
  · rw [hcreates.spec.2.1] at he
    cases he

/-- As long as an entry stands, it is the one that its `create_burner` has written. -/
theorem Stands.entry (h : Stands run i n owner a) : ∃ t accounts nonce ttl,
    program.AcceptedAt run i t ∧ t.entrypoint = .createBurner accounts nonce ttl ∧
      accounts.owner = owner ∧ burnerTtlMinSeconds ≤ ttl ∧ ttl ≤ burnerTtlMaxSeconds ∧
      ∀ k, i < k → k ≤ n →
        (program.stateAt run k).burners a = some (accounts.entry t.now nonce ttl) := by
  obtain ⟨t, accounts, nonce, ttl, ht, hp, howner, ha⟩ := h.created
  have heff := callEffect_of_acceptedAt ht
  rw [hp] at heff
  obtain ⟨config, hadm, hnew⟩ := heff.of_createBurner
  refine ⟨t, accounts, nonce, ttl, ht, hp, howner, hadm.ttl.1, hadm.ttl.2, fun k hik hkn => ?_⟩
  induction k, hik using Nat.le_induction with
  | base => rw [hnew, ha, Store.set_self]
  | succ k hik ih =>
    obtain ⟨e', he'⟩ := Option.isSome_iff_exists.1 (h.standing (k + 1) (by omega) hkn)
    rw [he', burners_kept (ih (by omega)) he']

/-- A registration has one entry. -/
theorem Stands.entry_eq (h : Stands run i n owner a) (hik : i < k) (hkn : k ≤ n) (him : i < m)
    (hmn : m ≤ n) {e e' : BurnerAccount Pubkey} (he : (program.stateAt run k).burners a = some e)
    (he' : (program.stateAt run m).burners a = some e') : e' = e := by
  obtain ⟨t, accounts, nonce, ttl, -, -, -, -, -, hentry⟩ := h.entry
  rw [hentry k hik hkn] at he
  rw [hentry m him hmn] at he'
  exact Option.some.inj (he'.symm.trans he)

/-- Every entry is as some `create_burner` has written it. -/
theorem exists_creation {e : BurnerAccount Pubkey}
    (he : (program.stateAt run n).burners a = some e) :
    ∃ (accounts : CreateBurner Pubkey) (now : Int64) (nonce : UInt64) (ttl : Int64),
      e = accounts.entry now nonce ttl ∧ burnerTtlMinSeconds ≤ ttl ∧ ttl ≤ burnerTtlMaxSeconds := by
  obtain ⟨i, hi⟩ := exists_stands he
  obtain ⟨t, accounts, nonce, ttl, -, -, -, hmin, hmax, hentry⟩ := hi.entry
  rw [hentry n hi.lt le_rfl] at he
  exact ⟨accounts, t.now, nonce, ttl, (Option.some.inj he).symm, hmin, hmax⟩

/-! ### Whole runs -/

/-- What holds of the burner entries in every run.  A registration is given by the call that opens
it and by its address. -/
structure ExpiryFinal (run : List (Call Pubkey Digest World)) : Prop where
  registered : ∀ n a e, (program.stateAt run n).burners a = some e → ∃ i, Stands run i n e.owner a
  kept : ∀ n a e e', (program.stateAt run n).burners a = some e →
    (program.stateAt run (n + 1)).burners a = some e' → e' = e
  constant : ∀ i n owner a, Stands run i n owner a → ∃ e : BurnerAccount Pubkey, e.owner = owner ∧
    ∀ k, i < k → k ≤ n → (program.stateAt run k).burners a = some e
  closed : ∀ n a, (program.stateAt run n).burners a ≠ none →
    (program.stateAt run (n + 1)).burners a = none → ∃ t accounts proof,
      program.AcceptedAt run n t ∧ t.entrypoint = .destroyBurner accounts proof ∧
        accounts.burnerEntry = a
  created : ∀ i n owner a t e, Stands run i n owner a → run[i]? = some t →
    (program.stateAt run n).burners a = some e → e.createdAt = t.now
  ttl : ∀ n a e, (program.stateAt run n).burners a = some e →
    e.expiresAt.toInt - e.createdAt.toInt ≤ 2592000 ∧
      (e.createdAt.toInt < Int64.maxValue.toInt - 2592000 →
        60 ≤ e.expiresAt.toInt - e.createdAt.toInt)
  final : ∀ i n owner a k m e e' t t', Stands run i n owner a → i < k → k ≤ n → i < m → m ≤ n →
    (program.stateAt run k).burners a = some e → (program.stateAt run m).burners a = some e' →
    t ≤ t' → burnerIsActive e t = false → burnerIsActive e' t' = false
  -- `final` at the times of two calls
  observed : ChronologicalCalls run → ∀ i n owner a k m e e' t t', Stands run i n owner a → i < k →
    k < m → m ≤ n → (program.stateAt run k).burners a = some e →
    (program.stateAt run m).burners a = some e' → run[k]? = some t → run[m]? = some t' →
    burnerIsActive e t.now = false → burnerIsActive e' t'.now = false
  expired : ∀ n a e t, (program.stateAt run n).burners a = some e →
    e.createdAt.toInt + 2592000 ≤ t.toInt → burnerIsActive e t = false
  unused : ∀ n a e, (program.stateAt run n).burners a = some e →
    e.revoked = false ∧ e.usageCount = 0
  unique : ∀ n a a' e e', (program.stateAt run n).burners a = some e →
    (program.stateAt run n).burners a' = some e' → e.owner = e'.owner → e.nonce = e'.nonce → a = a'

/-- The expiry of a burner entry is final. -/
theorem expiryFinal (run : List (Call Pubkey Digest World)) : ExpiryFinal run where
  registered n a e he := exists_stands he
  kept n a e e' he he' := burners_kept he he'
  constant i n owner a h := by
    obtain ⟨t, accounts, nonce, ttl, -, -, howner, -, -, hentry⟩ := h.entry
    exact ⟨_, howner, hentry⟩
  closed n a he he' := by
    rcases Machine.stateAt_succ_cases (M := program) run n with heq | ⟨t, ht⟩
    · exact absurd (heq ▸ he') he
    · obtain ⟨accounts, proof, hp, ha⟩ := (callEffect_of_acceptedAt ht).burner_removed he he'
      exact ⟨t, accounts, proof, ht, hp, ha⟩
  created i n owner a t e h ht he := by
    obtain ⟨u, accounts, nonce, ttl, hu, -, -, -, -, hentry⟩ := h.entry
    rw [hentry n h.lt le_rfl, Option.some.injEq] at he
    rw [← he, Option.some.inj (ht.symm.trans hu.1)]
    rfl
  ttl n a e he := by
    obtain ⟨accounts, now, nonce, ttl, rfl, hmin, hmax⟩ := exists_creation he
    exact toInt_saturatingAdd_ttl hmin hmax
  final i n owner a k m e e' t t' h hik hkn him hmn he he' ht hinactive := by
    rw [h.entry_eq hik hkn him hmn he he']
    exact burnerIsActive_antitone ht hinactive
  observed hclock i n owner a k m e e' t t' h hik hkm hmn he he' ht ht' hinactive := by
    rw [h.entry_eq hik (hkm.le.trans hmn) (hik.trans hkm) hmn he he']
    exact burnerIsActive_antitone (hclock.now_le ht ht' hkm) hinactive
  expired n a e t he ht := by
    obtain ⟨accounts, now, nonce, ttl, rfl, hmin, hmax⟩ := exists_creation he
    have hle : (now.saturatingAdd ttl).toInt - now.toInt ≤ 2592000 :=
      (toInt_saturatingAdd_ttl hmin hmax).1
    refine burnerIsActive_eq_false.2 (.inr (Int64.le_iff_toInt_le.2 ?_))
    simp only [CreateBurner.entry] at ht ⊢
    omega
  unused n a e he := by
    obtain ⟨accounts, now, nonce, ttl, rfl, -, -⟩ := exists_creation he
    exact ⟨rfl, rfl⟩
  unique n a a' e e' he he' howner hnonce := by
    have hreg := registered_of_reachable (Machine.reachable_stateAt (M := program) run n)
    have haddr := hreg.burner a e he
    rw [howner, hnonce, hreg.burner a' e' he'] at haddr
    exact (congrArg Prod.fst haddr).symm

end Ghos
