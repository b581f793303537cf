import Ghos.Config.Authority
import Ghos.Program.CallRequests

/-!
# The cap on burner entries

`burner_registry_cap` is stored, and `config_update` moves it, but `create_burner` does not look at
it.  So an owner stays below the cap exactly as long as each accepted `create_burner` happens to
find fewer entries of its owner than the cap allows (`capKept_iff`).
-/

namespace Ghos

variable {Pubkey Digest World : Type} [DecidableEq Pubkey] [DecidableEq Digest]
  [AddressSpace Pubkey] [Sha256 Digest] [External Pubkey World] {c c' : Chain Pubkey Digest}
  {world : World} {now : Int64} {signers : List Pubkey}
  {run : List (Call Pubkey Digest World)} {owner a : Pubkey} {i j n : ℕ}

/-! ### Entries and their creation -/

/-- The addresses of the entries of an owner. -/
def burnerAddresses (c : Chain Pubkey Digest) (owner : Pubkey) : Set Pubkey :=
  {a | ∃ e, c.burners a = some e ∧ e.owner = owner}

/-- The `i`-th call creates an entry of `owner` at `a`. -/
def Creates (run : List (Call Pubkey Digest World)) (i : ℕ) (owner a : Pubkey) : Prop :=
  ∃ t accounts nonce ttl, program.AcceptedAt run i t ∧
    t.entrypoint = .createBurner accounts nonce ttl ∧ accounts.owner = owner ∧
    accounts.burnerEntry = a

/-- The entry that the `i`-th call creates at `a` is still there before the `n`-th call. -/
structure Stands (run : List (Call Pubkey Digest World)) (i n : ℕ) (owner a : Pubkey) : Prop where
  created : Creates run i owner a
  lt : i < n
  standing : ∀ k, i < k → k ≤ n → ((program.stateAt run k).burners a).isSome

/-- The last of the entries of `owner` that are there before the `n`-th call was created by the
`i`-th call. -/
structure LastCreated (run : List (Call Pubkey Digest World)) (n : ℕ) (owner : Pubkey) (i : ℕ) :
    Prop where
  stands : ∃ a, Stands run i n owner a
  latest : ∀ j a, Stands run j n owner a → j ≤ i

/-- In every state of the run, each owner has at most as many entries as the cap allowed when the
last of them was created. -/
def CapKept (run : List (Call Pubkey Digest World)) : Prop :=
  ∀ n owner i, LastCreated run n owner i → ∃ config, configAt run i = some config ∧
    (burnerAddresses (program.stateAt run n) owner).encard ≤ config.burnerRegistryCap.toNat

/-- A creation finds the config in force and fills a free address. -/
theorem Creates.spec (h : Creates run i owner a) :
    (∃ config, configAt run i = some config) ∧ (program.stateAt run i).burners a = none ∧
      ∃ e, (program.stateAt run (i + 1)).burners =
        (program.stateAt run i).burners.set a e ∧ e.owner = owner := by
  obtain ⟨t, accounts, nonce, ttl, ht, hp, rfl, rfl⟩ := h
  have heff := callEffect_of_acceptedAt ht
  rw [hp] at heff
  obtain ⟨config, hadm, hnew⟩ := heff.of_createBurner
  exact ⟨⟨config, hadm.configAt.eq_config (wellAddressed_ledgerAt run i)⟩,
    (Chain.isFree_iff.1 hadm.fresh).2.2, _, hnew, rfl⟩

/-- An entry was there one call earlier, or has just been created. -/
theorem burners_succ_cases {e : BurnerAccount Pubkey}
    (he : (program.stateAt run (n + 1)).burners a = some e) :
    (program.stateAt run n).burners a = some e ∨ Creates run n e.owner a := by
  rcases Machine.stateAt_succ_cases (M := program) run n with heq | ⟨t, ht⟩
  · rw [heq] at he
    exact .inl he
  · rcases (callEffect_of_acceptedAt ht).burner_cases he with
      hold | ⟨accounts, nonce, ttl, config, hp, hadm, rfl, rfl⟩
    · exact .inl hold
    · exact .inr ⟨t, accounts, nonce, ttl, ht, hp, rfl, rfl⟩

/-- An entry stands right after its creation. -/
theorem Creates.stands (h : Creates run i owner a) : Stands run i (i + 1) owner a where
  created := h
  lt := i.lt_succ_self
  standing k hk hk' := by
    obtain rfl : k = i + 1 := le_antisymm hk' hk
    obtain ⟨-, -, e, hset, -⟩ := h.spec
    rw [hset, Store.set_self]
    rfl

/-- An entry that is still there one call later still stands. -/
theorem Stands.succ (h : Stands run i n owner a)
    (hsome : ((program.stateAt run (n + 1)).burners a).isSome) : Stands run i (n + 1) owner a where
  created := h.created
  lt := h.lt.trans n.lt_succ_self
  standing k hk hk' := by
    rcases hk'.eq_or_lt with rfl | hlt
    · exact hsome
    · exact h.standing k hk (Nat.lt_succ_iff.1 hlt)

/-- Every entry stands since its creation. -/
theorem exists_stands {e : BurnerAccount Pubkey}
    (he : (program.stateAt run n).burners a = some e) : ∃ i, Stands run i n e.owner a := by
  induction n generalizing e with
  | zero => cases he
  | succ n ih =>
    rcases burners_succ_cases he with hold | hcreates
    · obtain ⟨i, hi⟩ := ih hold
      exact ⟨i, hi.succ (by rw [he]; rfl)⟩
    · exact ⟨n, hcreates.stands⟩

/-- As long as an entry stands it is its owner's. -/
theorem Stands.mem_burnerAddresses (h : Stands run i n owner a) {k : ℕ} (hik : i < k)
    (hkn : k ≤ n) : a ∈ burnerAddresses (program.stateAt run k) owner := by
  induction k, hik using Nat.le_induction with
  | base =>
    obtain ⟨-, -, e, hset, howner⟩ := h.created.spec
    exact ⟨e, by rw [hset, Store.set_self], howner⟩
  | succ k hik ih =>
    obtain ⟨e, he, howner⟩ := ih (Nat.le_of_succ_le hkn)
    obtain ⟨e', he'⟩ := Option.isSome_iff_exists.1 (h.standing (k + 1) (by omega) hkn)
    rcases burners_succ_cases he' with hold | hcreates
    · exact ⟨e', he', by rw [← howner, Option.some.inj (hold.symm.trans he)]⟩
    -- nothing is created at an address in use
    · rw [hcreates.spec.2.1] at he
      cases he

/-! ### Counting -/

/-- A creation adds one entry of the owner. -/
theorem Creates.encard (h : Creates run i owner a) :
    (burnerAddresses (program.stateAt run (i + 1)) owner).encard =
      (burnerAddresses (program.stateAt run i) owner).encard + 1 := by
  obtain ⟨-, hnone, e, hset, howner⟩ := h.spec
  have heq : burnerAddresses (program.stateAt run (i + 1)) owner =
      insert a (burnerAddresses (program.stateAt run i) owner) := by
    ext b
    simp only [burnerAddresses, hset, Set.mem_insert_iff, Set.mem_ofPred_eq, Store.set_eq_some]
    constructor
    · rintro ⟨e', ⟨rfl, rfl⟩ | ⟨-, he'⟩, hown⟩
      · exact .inl rfl
      · exact .inr ⟨e', he', hown⟩
    · rintro (rfl | ⟨e', he', hown⟩)
      · exact ⟨e, .inl ⟨rfl, rfl⟩, howner⟩
      · refine ⟨e', .inr ⟨?_, he'⟩, hown⟩
        rintro rfl
        exact absurd (hnone.symm.trans he') (by simp)
  rw [heq, Set.encard_insert_of_notMem]
  rintro ⟨e', he', -⟩
  rw [hnone] at he'
  cases he'

/-- What an owner has when its last entry is created it has still, or has given up. -/
theorem LastCreated.subset (h : LastCreated run n owner i) :
    burnerAddresses (program.stateAt run n) owner ⊆
      burnerAddresses (program.stateAt run (i + 1)) owner := by
  obtain ⟨a, ha⟩ := h.stands
  rintro b ⟨e, he, rfl⟩
  obtain ⟨j, hj⟩ := exists_stands he
  exact hj.mem_burnerAddresses (Nat.lt_succ_of_le (h.latest j b hj)) ha.lt

/-- The entry that has just been created is the last one. -/
theorem Creates.lastCreated (h : Creates run i owner a) : LastCreated run (i + 1) owner i where
  stands := ⟨a, h.stands⟩
  latest _ _ hj := Nat.lt_succ_iff.1 hj.lt

/-- Each accepted `create_burner` finds fewer entries of its owner than the cap in force. -/
def CreatesBelowCap (run : List (Call Pubkey Digest World)) : Prop :=
  ∀ i owner a config, Creates run i owner a → configAt run i = some config →
    (burnerAddresses (program.stateAt run i) owner).encard < config.burnerRegistryCap.toNat

theorem CapKept.createsBelowCap (h : CapKept run) : CreatesBelowCap run := by
  intro i owner a config hcreates hconfig
  obtain ⟨config', hconfig', hcap⟩ := h (i + 1) owner i hcreates.lastCreated
  obtain rfl := Option.some.inj (hconfig.symm.trans hconfig')
  rw [hcreates.encard] at hcap
  have hfin : (burnerAddresses (program.stateAt run i) owner).encard ≠ ⊤ := by
    intro htop
    rw [htop, top_add, top_le_iff] at hcap
    exact ENat.natCast_ne_top _ hcap
  exact (ENat.add_one_le_iff hfin).1 hcap

theorem CreatesBelowCap.capKept (h : CreatesBelowCap run) : CapKept run := by
  intro n owner i hlast
  obtain ⟨a, ha⟩ := hlast.stands
  obtain ⟨⟨config, hconfig⟩, -⟩ := ha.created.spec
  refine ⟨config, hconfig, ?_⟩
  calc (burnerAddresses (program.stateAt run n) owner).encard
      ≤ (burnerAddresses (program.stateAt run (i + 1)) owner).encard :=
        Set.encard_le_encard hlast.subset
    _ = (burnerAddresses (program.stateAt run i) owner).encard + 1 := ha.created.encard
    _ ≤ config.burnerRegistryCap.toNat :=
        Order.add_one_le_of_lt (h i owner a config ha.created hconfig)

/-- The cap is kept in a run if and only if each `create_burner` that is accepted finds fewer
entries of its owner than the cap in force. -/
theorem capKept_iff (run : List (Call Pubkey Digest World)) : CapKept run ↔ CreatesBelowCap run :=
  ⟨CapKept.createsBelowCap, CreatesBelowCap.capKept⟩

namespace Sample

/-- The admin lowers the cap to one, and the host creates two entries. -/
def twoBurners : List (Call Sym (List UInt8) Unit) :=
  [(initializeBy admin 0).toCall (), (configUpdateBy admin (.burnerRegistryCap 1) 1).toCall (),
    createBurnerBy host mint 0 60 2 (), createBurnerBy host mint 1 60 3 ()]

end Sample

/-- The second entry is created all the same. -/
theorem two_burners_above_cap : ¬ CapKept Sample.twoBurners := by
  intro h
  obtain ⟨config, hconfig, hcap⟩ :
      ∃ config ∈ configAt Sample.twoBurners 3, config.burnerRegistryCap.toNat = 1 := by
    decide +kernel
  obtain ⟨e, he, howner⟩ : ∃ e ∈ (program.stateAt Sample.twoBurners 3).burners
      (burnerPda Sample.host 0), e.owner = Sample.host := by
    decide +kernel
  have hcreates : Creates Sample.twoBurners 3 Sample.host (burnerPda Sample.host 1) :=
    ⟨_, _, 1, 60, ⟨rfl, by decide +kernel⟩, rfl, rfl, rfl⟩
  have hlt := h.createsBelowCap 3 _ _ config hcreates hconfig
  rw [hcap, Nat.cast_one, Order.lt_one_iff, Set.encard_eq_zero] at hlt
  exact Set.eq_empty_iff_forall_notMem.1 hlt _ ⟨e, he, howner⟩

end Ghos
