import Ghos.Lib.Delivery
import Ghos.Program.CallRequests
import Ghos.Config.Authority
import Ghos.Mix.History

/-!
# Calls that are delivered again

A client that sees no confirmation submits again, so the program may be given one request several
times, at any later times and between any other calls.

* `Entrypoint.deed`: eight of the fourteen entry points do something that can be done once, and
  `deeds` says that the program never does it twice, but for a burner entry that is destroyed and
  created in turn;
* `ConfigField.apply_apply`: a `config_update` that is delivered again finds its value in place;
* `redelivered_once`: both, over whole runs.
-/

namespace Ghos

variable {Pubkey Digest World : Type}

/-- What is done once, and to which account. -/
inductive Deed (Pubkey : Type)
  | initializes (config : Pubkey)
  | opens (round : Pubkey)
  | commits (commitment : Pubkey)
  | reveals (commitment : Pubkey)
  | settles (round : Pubkey)
  | creates (burnerEntry : Pubkey)
  | destroys (burnerEntry : Pubkey)
  | registers (auditorEntry : Pubkey)

/-- What a call does once, if anything. -/
def Entrypoint.deed : Entrypoint Pubkey Digest → Option (Deed Pubkey)
  | .core (.ghosInitialize accounts) => some (.initializes accounts.config)
  | .core (.mixInit accounts ..) => some (.opens accounts.round)
  | .core (.mixCommit accounts _) => some (.commits accounts.commitment)
  | .core (.mixReveal accounts ..) => some (.reveals accounts.commitment)
  | .core (.mixSettle accounts) => some (.settles accounts.round)
  | .createBurner accounts .. => some (.creates accounts.burnerEntry)
  | .destroyBurner accounts _ => some (.destroys accounts.burnerEntry)
  | .auditorRegister accounts .. => some (.registers accounts.auditorEntry)
  | _ => none

namespace Deed

/-- A burner entry is destroyed and created again. -/
def Undoes : Deed Pubkey → Deed Pubkey → Prop
  | destroys a, creates b => a = b
  | creates a, destroys b => a = b
  | _, _ => False

/-- What the chain shows of a deed. -/
def Done (c : Chain Pubkey Digest) : Deed Pubkey → Prop
  | initializes a => ∃ config, c.ledger.config? a = some config
  | opens a => ∃ r, c.ledger.round? a = some r
  | commits a => ∃ m, c.ledger.commitment? a = some m
  | reveals a => ∃ m, c.ledger.commitment? a = some m ∧ m.revealed = true
  | settles a => ∃ r, c.ledger.round? a = some r ∧ r.phase.Terminal
  | creates a => ∃ e, c.burners a = some e
  | destroys a => c.burners a = none
  | registers a => ∃ e, c.auditors a = some e

end Deed

variable [DecidableEq Pubkey] [DecidableEq Digest] [AddressSpace Pubkey] [Sha256 Digest]
  [External Pubkey World] {c c' : Chain Pubkey Digest} {world : World} {now : Int64}
  {signers : List Pubkey} {entrypoint : Entrypoint Pubkey Digest} {d : Deed Pubkey}

/-! ### One call -/

omit [DecidableEq Digest] in
theorem Effect.done {L L' : Ledger Pubkey Digest} {instruction : Instruction Pubkey Digest}
    (h : Effect L now signers instruction L') (hL : c'.ledger = L')
    (hd : (Entrypoint.core instruction).deed = some d) : d.Done c' := by
  subst hL
  cases h with
  | ghosInitialize h v =>
    cases hd
    exact ⟨_, by rw [v.config, Store.set_self]⟩
  | configUpdate h v => cases hd
  | mixInit h v =>
    cases hd
    exact ⟨_, by rw [v.round, Store.set_self]⟩
  | mixCommit h v =>
    cases hd
    exact ⟨_, by rw [v.commitment, Store.set_self]⟩
  | mixReveal h v =>
    cases hd
    exact ⟨_, by rw [v.commitment, Store.set_self], rfl⟩
  | mixSettle h v =>
    cases hd
    exact ⟨_, by rw [v.round, Store.set_self], MixRound.terminal_closed ..⟩

theorem CallEffect.done (h : CallEffect c world now signers entrypoint c')
    (hd : entrypoint.deed = some d) : d.Done c' := by
  cases h with
  | core h => exact (step_effect h).done rfl hd
  | createBurner h =>
    cases hd
    exact ⟨_, Store.set_self ..⟩
  | destroyBurner h =>
    cases hd
    exact Store.erase_self ..
  | auditorRegister h =>
    cases hd
    exact ⟨_, Store.set_self ..⟩
  | _ => cases hd

omit [DecidableEq Digest] in
theorem Effect.not_done {L L' : Ledger Pubkey Digest} {instruction : Instruction Pubkey Digest}
    (h : Effect L now signers instruction L') (hL : c.ledger = L)
    (hd : (Entrypoint.core instruction).deed = some d) : ¬ d.Done c := by
  subst hL
  cases h with
  | ghosInitialize h v =>
    cases hd
    rintro ⟨config, hconfig⟩
    exact absurd (hconfig.symm.trans (Store.view_of_none h.fresh)) (by simp)
  | configUpdate h v => cases hd
  | mixInit h v =>
    cases hd
    rintro ⟨r, hr⟩
    exact h.round_ne r hr
  | mixCommit h v =>
    cases hd
    rintro ⟨m, hm⟩
    exact h.commitment_ne m hm
  | mixReveal h v =>
    cases hd
    rintro ⟨m, hm, hrevealed⟩
    obtain rfl := Option.some.inj (hm.symm.trans h.commitmentAt)
    rw [h.unrevealed] at hrevealed
    cases hrevealed
  | mixSettle h v =>
    cases hd
    rintro ⟨r, hr, hterm⟩
    obtain rfl := Option.some.inj (hr.symm.trans h.roundAt)
    rcases h.phase with ⟨hp, -⟩ | ⟨hp, -⟩ <;> rw [hp] at hterm <;>
      rcases hterm with hterm | hterm <;> cases hterm

/-- What is done is not done again. -/
theorem CallEffect.not_done (h : CallEffect c world now signers entrypoint c')
    (hd : entrypoint.deed = some d) : ¬ d.Done c := by
  cases h with
  | core h => exact (step_effect h).not_done rfl hd
  | createBurner h =>
    cases hd
    rintro ⟨e, he⟩
    exact absurd ((Chain.isFree_iff.1 h.fresh).2.2) (by rw [he]; simp)
  | destroyBurner h =>
    cases hd
    intro hnone
    exact absurd (hnone.symm.trans h.entryAt) (by simp)
  | auditorRegister h =>
    cases hd
    rintro ⟨e, he⟩
    exact absurd ((Chain.isFree_iff.1 h.fresh).2.1) (by rw [he]; simp)
  | _ => cases hd

/-- What is done stays done, until it is undone. -/
theorem CallEffect.done_kept (hL : WellAddressed c.ledger)
    (h : CallEffect c world now signers entrypoint c') (hd : d.Done c)
    (hundo : ∀ d', entrypoint.deed = some d' → ¬ d'.Undoes d) : d.Done c' := by
  cases d with
  | initializes a => exact h.exists_config hd
  | opens a =>
    rcases h.ledger_cases with heq | ⟨instruction, -, heff⟩
    · rwa [Deed.Done, heq]
    · exact heff.exists_round hd
  | commits a =>
    rcases h.ledger_cases with heq | ⟨instruction, -, heff⟩
    · rwa [Deed.Done, heq]
    · obtain ⟨m, hm⟩ := hd
      rcases heff.commitment_kept hL hm with hm' | ⟨-, -, _, hm'⟩
      · exact ⟨_, hm'⟩
      · exact ⟨_, hm'⟩
  | reveals a =>
    rcases h.ledger_cases with heq | ⟨instruction, -, heff⟩
    · rwa [Deed.Done, heq]
    · obtain ⟨m, hm, hrevealed⟩ := hd
      rcases heff.commitment_kept hL hm with hm' | ⟨-, hno, -⟩
      · exact ⟨m, hm', hrevealed⟩
      · rw [hrevealed] at hno
        cases hno
  | settles a =>
    rcases h.ledger_cases with heq | ⟨instruction, -, heff⟩
    · rwa [Deed.Done, heq]
    · obtain ⟨r, hr, hterm⟩ := hd
      exact ⟨r, by rw [(heff.agreeOn_of_terminal hL hr hterm).round, hr], hterm⟩
  | creates a =>
    obtain ⟨e, he⟩ := hd
    refine Option.ne_none_iff_exists'.1 fun hnone => ?_
    obtain ⟨accounts, proof, rfl, rfl⟩ := h.burner_removed (by rw [he]; simp) hnone
    exact hundo _ rfl rfl
  | destroys a =>
    refine Option.eq_none_iff_forall_ne_some.2 fun e he => ?_
    rcases h.burner_cases he with he | ⟨accounts, nonce, ttl, config, rfl, -, rfl, -⟩
    · exact absurd (hd.symm.trans he) (by simp)
    · exact hundo _ rfl rfl
  | registers a => exact h.exists_auditor hd

/-- The deeds of the program. -/
theorem deeds : Machine.Deeds
    (program : Machine (Chain Pubkey Digest) (Call Pubkey Digest World) _ _)
    (fun t => t.entrypoint.deed) Deed.Undoes Deed.Done where
  done _ _ _ _ _ _ hstep hd := (call_effect hstep).done hd
  rejects _ _ _ _ hdone hd haccepts := (callEffect_of_accepts haccepts).not_done hd hdone
  keeps _ _ _ _ _ hreach hdone hstep hundo :=
    (call_effect hstep).done_kept (wellAddressed_of_reachable (ledger_reachable hreach)) hdone hundo

/-! ### The knobs -/

omit [DecidableEq Pubkey] [AddressSpace Pubkey] in
/-- A knob that is set is set to the same value again. -/
theorem ConfigField.apply_apply {config config' : GhosConfig Pubkey} {field : ConfigField Pubkey}
    (h : field.apply config = .ok config') (now : Int64) :
    field.apply { config' with lastUpdated := now } = .ok { config' with lastUpdated := now } := by
  cases field <;> simp [ConfigField.apply] at h ⊢ <;> grind

variable {run : List (Call Pubkey Digest World)} {i j : ℕ} {t u : Call Pubkey Digest World}
  {accounts : ConfigUpdate Pubkey} {field : ConfigField Pubkey}

/-- No knob is set by the calls after the `i`-th and before the `j`-th. -/
def NoUpdates (run : List (Call Pubkey Digest World)) (i j : ℕ) : Prop :=
  ∀ k v accounts field, i < k → k < j → program.AcceptedAt run k v →
    v.entrypoint ≠ .core (.configUpdate accounts field)

/-- The knob keeps its value. -/
theorem configAt_of_noUpdates (ht : program.AcceptedAt run i t)
    (he : t.entrypoint = .core (.configUpdate accounts field)) (hij : i < j)
    (hrun : NoUpdates run i j) :
    ∃ config, configAt run j = some config ∧ field.apply config = .ok config := by
  induction j, hij using Nat.le_induction with
  | base =>
    have heff := callEffect_of_acceptedAt ht
    rw [he] at heff
    cases heff.of_core with
    | configUpdate h v =>
      refine ⟨_, ?_, ConfigField.apply_apply h.field t.now⟩
      have haddress := (wellAddressed_ledgerAt run i).config_eq h.configAt.stored
      rw [configAt, Chain.config, v.config, haddress, Store.set_self]
  | succ j hij ih =>
    obtain ⟨config, hconfig, hfield⟩ :=
      ih fun k v accounts field hik hkj => hrun k v accounts field hik (hkj.trans j.lt_succ_self)
    rcases configAt_succ hconfig with hkept | ⟨field', -, -, ⟨-, v, accounts', hv, hev, -⟩, -⟩
    · exact ⟨config, hkept, hfield⟩
    · exact absurd hev (hrun j v accounts' field' hij j.lt_succ_self hv)

/-- An update that is delivered again writes the time and nothing else. -/
theorem configUpdate_again {accounts' : ConfigUpdate Pubkey} (ht : program.AcceptedAt run i t)
    (het : t.entrypoint = .core (.configUpdate accounts field))
    (hu : program.AcceptedAt run j u)
    (heu : u.entrypoint = .core (.configUpdate accounts' field)) (hij : i < j)
    (hrun : NoUpdates run i j) :
    ∃ config, configAt run j = some config ∧
      program.stateAt run (j + 1) = { program.stateAt run j with
        ledger := (program.stateAt run j).ledger.set configPda
          (.ghosConfig { config with lastUpdated := u.now }) } := by
  obtain ⟨config, hconfig, hfield⟩ := configAt_of_noUpdates ht het hij hrun
  refine ⟨config, hconfig, ?_⟩
  have hL := wellAddressed_ledgerAt run j
  have heff := callEffect_of_acceptedAt hu
  rw [heu] at heff
  generalize program.stateAt run (j + 1) = c' at heff
  cases heff with
  | core h =>
    obtain ⟨config₀, config', hadmits, rfl, -⟩ := configUpdate_eq_ok.1 h
    have hsame := hadmits.configAt.eq_config hL
    rw [← configAt, hconfig, Option.some.injEq] at hsame
    subst hsame
    obtain rfl := Except.ok.inj (hfield.symm.trans hadmits.field)
    rw [hL.config_eq hadmits.configAt.stored]

/-! ### Runs -/

/-- Whatever is delivered again, and whenever.  A deed that is done twice has been undone in
between, a run with deeds that are delivered again does what the run does, and an update that is
delivered again before any other changes the time of the last update alone. -/
theorem redelivered_once (run : List (Call Pubkey Digest World)) :
    (∀ i j t u d, program.AcceptedAt run i t → program.AcceptedAt run j u → i < j →
      t.entrypoint.deed = some d → u.entrypoint.deed = some d →
      ∃ k v d', i < k ∧ k < j ∧ program.AcceptedAt run k v ∧ v.entrypoint.deed = some d' ∧
        d'.Undoes d) ∧
    (∀ run', Machine.Redelivered program (fun t => t.entrypoint.deed) Deed.Undoes run run' →
      program.exec program.init run' = program.exec program.init run ∧
        program.log program.init run' = program.log program.init run) ∧
    ∀ i j t u accounts accounts' field, program.AcceptedAt run i t → program.AcceptedAt run j u →
      t.entrypoint = .core (.configUpdate accounts field) →
      u.entrypoint = .core (.configUpdate accounts' field) → i < j → NoUpdates run i j →
      ∃ config, configAt run j = some config ∧
        program.stateAt run (j + 1) = { program.stateAt run j with
          ledger := (program.stateAt run j).ledger.set configPda
            (.ghosConfig { config with lastUpdated := u.now }) } := by
  refine ⟨?_, ?_, ?_⟩
  · intro i j t u d ht hu hij hdt hdu
    exact deeds.undone_between ht hu hij hdt hdu
  · intro run' h
    exact deeds.redelivered h
  · intro i j t u accounts accounts' field ht hu het heu hij hrun
    exact configUpdate_again ht het hu heu hij hrun

namespace Sample

/-- A burner entry is created, destroyed and created again, and a knob is set twice. -/
def resent : List (Call Sym (List UInt8) Unit) :=
  [(initializeBy admin 0).toCall (), createBurnerBy host mint 0 60 1 (),
    (configUpdateBy admin (.burnerRegistryCap 1) 2).toCall (),
    destroyBurnerBy host (burnerPda host 0) mint [] 3 (), createBurnerBy host mint 0 60 4 (),
    (configUpdateBy admin (.burnerRegistryCap 1) 5).toCall ()]

theorem resent_accepted (i : ℕ) (hi : i < resent.length) :
    program.AcceptedAt resent i resent[i] := by
  have hall : ∀ i : Fin 6, program.Accepts (program.stateAt resent i) resent[i] := by
    decide +kernel
  exact ⟨List.getElem?_eq_getElem hi, hall ⟨i, hi⟩⟩

end Sample

theorem redelivered_once_sample :
    (∃ k v d', 1 < k ∧ k < 4 ∧ program.AcceptedAt Sample.resent k v ∧
      v.entrypoint.deed = some d' ∧ d'.Undoes (.creates (burnerPda Sample.host 0))) ∧
    program.exec program.init
        (Sample.resent ++ [createBurnerBy Sample.host Sample.mint 0 60 9 ()]) =
      program.exec program.init Sample.resent ∧
    ∃ config, configAt Sample.resent 5 = some config ∧
      program.stateAt Sample.resent 6 = { program.stateAt Sample.resent 5 with
        ledger := (program.stateAt Sample.resent 5).ledger.set configPda
          (.ghosConfig { config with lastUpdated := 5 }) } := by
  obtain ⟨honce, hagain, hupdate⟩ := redelivered_once Sample.resent
  refine ⟨?_, ?_, ?_⟩
  · exact honce 1 4 _ _ _ (Sample.resent_accepted 1 (by decide))
      (Sample.resent_accepted 4 (by decide)) (by decide) rfl rfl
  · refine (hagain _ (.again .refl (Sample.resent_accepted 4 (by decide)) rfl
      (b := createBurnerBy Sample.host Sample.mint 0 60 9 ()) (j := 6) rfl (by decide) ?_)).1
    intro k v d' hk4 hk6 hv hd
    obtain rfl : k = 5 := by omega
    cases hv.1
    cases hd
  · refine hupdate 2 5 _ _ _ _ _ (Sample.resent_accepted 2 (by decide))
      (Sample.resent_accepted 5 (by decide)) rfl rfl (by decide) ?_
    intro k v accounts field hk2 hk5 hv he
    obtain rfl | rfl : k = 3 ∨ k = 4 := by omega
    · cases hv.1
      cases he
    · cases hv.1
      cases he

end Ghos
