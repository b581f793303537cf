import Ghos.Auditor.History
import Ghos.Program.CallRequests

/-!
# The rate of rotations

`auditor_rotate` compares the cooldown with a saturating difference of two timestamps.  With a clock
that never goes back the difference is not negative, so the saturation can only lower it, and an
accepted rotation comes at least the cooldown after the one before (`rateLimited`).  The cooldown
may be any `i64`; a negative one limits nothing.
-/

namespace Ghos

variable {Pubkey Digest World : Type} [DecidableEq Pubkey] [DecidableEq Digest]
  [AddressSpace Pubkey] [Sha256 Digest] [External Pubkey World]
  {run : List (Call Pubkey Digest World)} {a : Pubkey} {m n : ℕ}

/-- The `j`-th call rotates the entry at `a`. -/
def RotatesAt (run : List (Call Pubkey Digest World)) (a : Pubkey) (j : ℕ) : Prop :=
  ∃ t accounts key proof, Rotation run j a t accounts key proof

/-! ### The clock -/

/-- The time of the last rotation is the time of some earlier call. -/
theorem exists_lastRotatedAt {e : AuditorEntry Pubkey}
    (he : (program.stateAt run n).auditors a = some e) :
    ∃ j t, j < n ∧ run[j]? = some t ∧ e.lastRotatedAt = t.now := by
  induction n generalizing e with
  | zero => cases he
  | succ n ih =>
    rcases auditors_succ_cases he with hold | ⟨t, accounts, key, proof, cooldown, hreg, -, rfl⟩ |
      ⟨t, accounts, key, proof, hrot⟩
    · obtain ⟨j, t, hj, rest⟩ := ih hold
      exact ⟨j, t, hj.trans n.lt_succ_self, rest⟩
    · exact ⟨n, t, n.lt_succ_self, hreg.accepted.1, rfl⟩
    · obtain ⟨config, world', e₀, -, -, hnew⟩ := hrot.admits
      rw [he, Option.some.injEq] at hnew
      exact ⟨n, t, n.lt_succ_self, hrot.accepted.1, by rw [hnew]; rfl⟩

/-- An accepted rotation comes after the cooldown, in exact arithmetic. -/
theorem Rotation.elapsed (hclock : ChronologicalCalls run) {t : Call Pubkey Digest World}
    {accounts : AuditorRotate Pubkey} {key : Vector UInt8 32} {proof : List UInt8}
    (h : Rotation run n a t accounts key proof) {e : AuditorEntry Pubkey}
    (he : (program.stateAt run n).auditors a = some e) :
    e.lastRotatedAt ≤ t.now ∧
      e.rotationCooldown.toInt ≤ t.now.toInt - e.lastRotatedAt.toInt := by
  obtain ⟨config, world', e₀, hadm, he₀, -⟩ := h.admits
  obtain rfl := Option.some.inj (he₀.symm.trans he)
  obtain ⟨j, u, hj, hu, hlast⟩ := exists_lastRotatedAt he
  have hle : e₀.lastRotatedAt ≤ t.now := hlast ▸ hclock.now_le hu h.accepted.1 hj
  refine ⟨hle, ?_⟩
  rcases Int64.le_saturatingSub.1 hadm.cooledDown with hexact | hmin
  · exact hexact
  -- the smallest cooldown is negative, and the clock does not go back
  · rw [Int64.le_iff_toInt_le] at hle
    rw [hmin, Int64.toInt_minValue]
    omega

/-! ### Entries over time -/

/-- `e'` is the entry `e` at a later time. -/
structure AuditorEntry.Later (e e' : AuditorEntry Pubkey) : Prop where
  mint : e'.mint = e.mint
  admin : e'.admin = e.admin
  registeredAt : e'.registeredAt = e.registeredAt
  rotationCooldown : e'.rotationCooldown = e.rotationCooldown
  lastRotatedAt : e.lastRotatedAt ≤ e'.lastRotatedAt

theorem later_of_le (hclock : ChronologicalCalls run) (hmn : m ≤ n) {e : AuditorEntry Pubkey}
    (he : (program.stateAt run m).auditors a = some e) :
    ∃ e', (program.stateAt run n).auditors a = some e' ∧ e.Later e' := by
  induction n, hmn using Nat.le_induction with
  | base => exact ⟨e, he, rfl, rfl, rfl, rfl, Int64.le_refl _⟩
  | succ n _ ih =>
    obtain ⟨e', he', hlater⟩ := ih
    rcases auditors_step he' with hkept | ⟨t, accounts, key, proof, _, _, hrot, -, hnew⟩
    · exact ⟨e', hkept, hlater⟩
    · refine ⟨_, hnew, hlater.mint, hlater.admin, hlater.registeredAt, hlater.rotationCooldown, ?_⟩
      exact Int64.le_trans hlater.lastRotatedAt (hrot.elapsed hclock he').1

/-- Times of rotations never lie before the registration. -/
theorem registeredAt_le (hclock : ChronologicalCalls run) {e : AuditorEntry Pubkey}
    (he : (program.stateAt run n).auditors a = some e) : e.registeredAt ≤ e.lastRotatedAt := by
  obtain ⟨i, t, accounts, key, proof, cooldown, hi, hreg, -⟩ := exists_registration he
  obtain ⟨config, world', -, hnew⟩ := hreg.admits
  obtain ⟨e', he', hlater⟩ := later_of_le hclock hi hnew
  obtain rfl := Option.some.inj (he'.symm.trans he)
  rw [hlater.registeredAt]
  exact hlater.lastRotatedAt

/-! ### Counting rotations -/

theorem not_rotatesAt_of_none (hnone : (program.stateAt run n).auditors a = none) {j : ℕ}
    (hj : j < n) : ¬ RotatesAt run a j := by
  rintro ⟨t, accounts, key, proof, hrot⟩
  obtain ⟨config, world', e, -, he, -⟩ := hrot.admits
  obtain ⟨e', he'⟩ := exists_auditor_of_le hj.le ⟨e, he⟩
  rw [hnone] at he'
  cases he'

open Classical in
/-- After `k` rotations at least `k` cooldowns have passed. -/
theorem count_mul_cooldown_le (hclock : ChronologicalCalls run) {e : AuditorEntry Pubkey}
    (he : (program.stateAt run n).auditors a = some e) :
    (Nat.count (RotatesAt run a) n : ℤ) * e.rotationCooldown.toInt ≤
      e.lastRotatedAt.toInt - e.registeredAt.toInt := by
  induction n generalizing e with
  | zero => cases he
  | succ n ih =>
    by_cases hrotates : RotatesAt run a n
    · obtain ⟨t, accounts, key, proof, hrot⟩ := hrotates
      obtain ⟨config, world', e₀, -, he₀, hnew⟩ := hrot.admits
      have hstep := (hrot.elapsed hclock he₀).2
      have hcount := ih he₀
      rw [hnew, Option.some.injEq] at he
      subst he
      rw [Nat.count_succ, if_pos ⟨t, accounts, key, proof, hrot⟩, Nat.cast_add, Nat.cast_one,
        add_mul, one_mul]
      simp only [AuditorEntry.rotated]
      omega
    · rw [Nat.count_succ, if_neg hrotates, Nat.add_zero]
      rcases auditors_succ_cases he with hold | ⟨t, accounts, key, proof, cooldown, -, hnone, rfl⟩ |
        ⟨t, accounts, key, proof, hrot⟩
      · exact ih hold
      -- registered just now: no rotation so far
      · rw [Nat.count_of_forall_not fun j hj => not_rotatesAt_of_none hnone hj]
        simp [AuditorRegister.entry]
      · exact absurd ⟨t, accounts, key, proof, hrot⟩ hrotates

/-! ### The rate limit -/

open Classical in
/-- The rotations of the entry at `a` keep the cooldown that its registration has set. -/
structure RateLimited (run : List (Call Pubkey Digest World)) (a : Pubkey) : Prop where
  sinceRegistration : ∀ j t accounts key proof e, Rotation run j a t accounts key proof →
    (program.stateAt run j).auditors a = some e →
    e.rotationCooldown.toInt ≤ t.now.toInt - e.registeredAt.toInt
  sinceRotation : ∀ i j t accounts key proof u accounts' key' proof' e, i < j →
    Rotation run i a t accounts key proof → Rotation run j a u accounts' key' proof' →
    (program.stateAt run j).auditors a = some e →
    e.rotationCooldown.toInt ≤ u.now.toInt - t.now.toInt
  total : ∀ n e, (program.stateAt run n).auditors a = some e →
    (Nat.count (RotatesAt run a) n : ℤ) * e.rotationCooldown.toInt ≤
      e.lastRotatedAt.toInt - e.registeredAt.toInt
  later : ∀ m n e e', m ≤ n → (program.stateAt run m).auditors a = some e →
    (program.stateAt run n).auditors a = some e' → e.Later e'

theorem rateLimited (run : List (Call Pubkey Digest World)) (hclock : ChronologicalCalls run)
    (a : Pubkey) : RateLimited run a where
  sinceRegistration j t accounts key proof e hrot he := by
    have hreg := registeredAt_le hclock he
    have hstep := (hrot.elapsed hclock he).2
    rw [Int64.le_iff_toInt_le] at hreg
    omega
  sinceRotation i j t accounts key proof u accounts' key' proof' e hij hrot hrot' he := by
    obtain ⟨config, world', e₀, -, -, hnew⟩ := hrot.admits
    obtain ⟨e', he', hlater⟩ := later_of_le hclock hij hnew
    obtain rfl := Option.some.inj (he'.symm.trans he)
    -- the earlier rotation is no later than the last one
    have hlast : t.now ≤ e'.lastRotatedAt := hlater.lastRotatedAt
    have hstep := (hrot'.elapsed hclock he).2
    rw [Int64.le_iff_toInt_le] at hlast
    omega
  total n e he := count_mul_cooldown_le hclock he
  later m n e e' hmn he he' := by
    obtain ⟨e'', he'', hlater⟩ := later_of_le hclock hmn he
    obtain rfl := Option.some.inj (he''.symm.trans he')
    exact hlater

namespace Sample

/-- An entry is registered with a cooldown of a minute and rotated twice, in time. -/
def rotations : List (Call Sym (List UInt8) Unit) :=
  [(initializeBy admin 0).toCall (),
    auditorRegisterBy admin mint host (key 7) (keyProof (key 7)) 60 0 (),
    auditorRotateBy admin mint host (key 8) (keyProof (key 8)) 60 (),
    auditorRotateBy admin mint host (key 9) (keyProof (key 9)) 200 ()]

end Sample

/-- The two rotations are accepted. -/
theorem rateLimited_sample :
    (program.AcceptedAt Sample.rotations 3
      (auditorRotateBy Sample.admin Sample.mint Sample.host (Sample.key 9)
        (Sample.keyProof (Sample.key 9)) 200 ())) ∧
      RateLimited Sample.rotations (auditorPda Sample.mint) :=
  ⟨⟨rfl, by decide +kernel⟩, rateLimited Sample.rotations (by
    simp [ChronologicalCalls, Sample.rotations, Invocation.toCall, initializeBy,
      auditorRegisterBy, auditorRotateBy]) _⟩

end Ghos
