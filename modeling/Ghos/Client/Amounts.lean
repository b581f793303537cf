import Ghos.Client.ConfigCodec
import Ghos.Program.Registry

/-!
# The amounts that pass

`shield` and `withdraw` of `sdk/src/client.ts` check an amount before they build an instruction, and
the program checks what it reads from the instruction with `assert_dust_free`.  Only `shield` asks
for a multiple of the dust-free unit.

* `takenBy_shield_iff`, `takenByProgram_iff`: `shield` and the program take the same amounts;
* `gatesAgree_iff`: `withdraw` joins them on an amount only if it is a multiple of the unit or no
  gate takes it.
-/

namespace Ghos

namespace Sdk

/-- `SDK_ERROR_CODES.InvalidAmount`. -/
def invalidAmount : ℕ := 9002

/-- `SDK_ERROR_CODES.AmountOverflow`. -/
def amountOverflow : ℕ := 9003

/-- `DUST_FREE_UNIT`. -/
def dustFreeUnit : ℤ := 1000

/-! ### The guards of `utils.ts` -/

/-- Keep a number in the range of a `u64`. -/
def clampU64 (value : ℤ) : Except SdkError ℤ := do
  throwUnless (¬ value < 0) (.ghosSdkError amountOverflow "negative amount rejected")
  throwUnless (¬ value > 2 ^ 64 - 1) (.ghosSdkError amountOverflow "amount exceeds u64::MAX")
  return value

def assertPositiveAmount (amount : ℤ) (label : String) : Except SdkError Unit :=
  throwUnless (¬ amount ≤ 0) (.ghosSdkError invalidAmount s!"{label} must be positive")

/-- The remainder of two `bigint`s has the sign of the dividend. -/
def assertDustFreeAligned (amount unit : ℤ) : Except SdkError Unit :=
  throwUnless (amount.tmod unit = 0)
    (.ghosSdkError invalidAmount s!"amount {amount} is not aligned to dust-free unit {unit}")

/-! ### The gates -/

/-- The amount that `shield` puts into its instruction. -/
def shieldAmount (amount : ℤ) : Except SdkError ℤ := do
  let amount ← clampU64 amount
  assertPositiveAmount amount "amount"
  assertDustFreeAligned amount dustFreeUnit
  return amount

/-- The amount that `withdraw` puts into its instruction. -/
def withdrawAmount (amount : ℤ) : Except SdkError ℤ := do
  let amount ← clampU64 amount
  assertPositiveAmount amount "amount"
  return amount

/-- A gate of the client takes the amount. -/
def TakenBy (gate : ℤ → Except SdkError ℤ) (amount : ℤ) : Prop := ∃ sent, gate amount = .ok sent

/-- The program takes the amount: it is a `u64`, and `assert_dust_free` lets it through. -/
def TakenByProgram (amount : ℤ) : Prop :=
  ∃ sent : UInt64, (sent.toNat : ℤ) = amount ∧ assertDustFree sent = .ok ()

/-- A multiple of the unit that fits into a `u64`, and not zero. -/
def DustFree (amount : ℤ) : Prop := 1000 ≤ amount ∧ amount < 2 ^ 64 ∧ 1000 ∣ amount

/-- All three gates take the amount if it is dust-free, and otherwise none does. -/
structure GatesAgree (amount : ℤ) : Prop where
  shield : TakenBy shieldAmount amount ↔ DustFree amount
  withdraw : TakenBy withdrawAmount amount ↔ DustFree amount
  program : TakenByProgram amount ↔ DustFree amount

/-! ### What each gate takes -/

section Gates

variable {amount sent : ℤ}

theorem clampU64_eq_ok :
    clampU64 amount = .ok sent ↔ 0 ≤ amount ∧ amount < 2 ^ 64 ∧ amount = sent := by
  simp only [clampU64, throwUnless_bind_eq_ok, except_pure_eq_ok, not_lt, Int.le_sub_one_iff]

theorem assertPositiveAmount_eq_ok {label : String} {u : Unit} :
    assertPositiveAmount amount label = .ok u ↔ 0 < amount := by
  rw [assertPositiveAmount, throwUnless_eq_ok, not_le]

theorem assertDustFreeAligned_eq_ok {unit : ℤ} {u : Unit} :
    assertDustFreeAligned amount unit = .ok u ↔ unit ∣ amount := by
  rw [assertDustFreeAligned, throwUnless_eq_ok, Int.dvd_iff_tmod_eq_zero]

theorem shieldAmount_eq_ok :
    shieldAmount amount = .ok sent ↔ DustFree amount ∧ amount = sent := by
  simp only [shieldAmount, except_bind_eq_ok, clampU64_eq_ok, assertPositiveAmount_eq_ok,
    assertDustFreeAligned_eq_ok, dustFreeUnit, except_pure_eq_ok, DustFree]
  constructor
  · rintro ⟨_, ⟨-, hlt, rfl⟩, -, hpos, -, hdvd, rfl⟩
    -- a positive multiple of the unit is not below the unit
    exact ⟨⟨Int.le_of_dvd hpos hdvd, hlt, hdvd⟩, rfl⟩
  · rintro ⟨⟨hle, hlt, hdvd⟩, rfl⟩
    exact ⟨amount, ⟨by omega, hlt, rfl⟩, (), by omega, (), hdvd, rfl⟩

theorem withdrawAmount_eq_ok :
    withdrawAmount amount = .ok sent ↔ 0 < amount ∧ amount < 2 ^ 64 ∧ amount = sent := by
  simp only [withdrawAmount, except_bind_eq_ok, clampU64_eq_ok, assertPositiveAmount_eq_ok,
    except_pure_eq_ok]
  constructor
  · rintro ⟨_, ⟨-, hlt, rfl⟩, -, hpos, rfl⟩
    exact ⟨hpos, hlt, rfl⟩
  · rintro ⟨hpos, hlt, rfl⟩
    exact ⟨amount, ⟨hpos.le, hlt, rfl⟩, (), hpos, rfl⟩

theorem takenBy_shield_iff : TakenBy shieldAmount amount ↔ DustFree amount := by
  simp only [TakenBy, shieldAmount_eq_ok, exists_and_left, exists_eq', and_true]

theorem takenBy_withdraw_iff : TakenBy withdrawAmount amount ↔ 0 < amount ∧ amount < 2 ^ 64 := by
  simp only [TakenBy, withdrawAmount_eq_ok, exists_and_left, exists_eq', and_true]

theorem exists_u64 (hle : 0 ≤ amount) (hlt : amount < 2 ^ 64) :
    ∃ v : UInt64, (v.toNat : ℤ) = amount := by
  refine ⟨UInt64.ofNat amount.toNat, ?_⟩
  rw [UInt64.toNat_ofNat_of_lt' (by rw [UInt64.size]; omega)]
  omega

theorem assertDustFree_eq_ok_iff {a : UInt64} :
    assertDustFree a = .ok () ↔ 1000 ≤ a.toNat ∧ 1000 ∣ a.toNat := by
  rw [assertDustFree_eq_ok, UInt64.le_iff_toNat_le, ← UInt64.toNat_inj, UInt64.toNat_mod,
    Nat.dvd_iff_mod_eq_zero]
  rfl

theorem takenByProgram_iff : TakenByProgram amount ↔ DustFree amount := by
  unfold TakenByProgram DustFree
  constructor
  · rintro ⟨a, rfl, ha⟩
    obtain ⟨hle, hdvd⟩ := assertDustFree_eq_ok_iff.1 ha
    have hlt := a.toNat_lt
    exact ⟨by omega, by omega, by omega⟩
  · rintro ⟨hle, hlt, hdvd⟩
    obtain ⟨a, rfl⟩ := exists_u64 (by omega) hlt
    exact ⟨a, rfl, assertDustFree_eq_ok_iff.2 ⟨by omega, by omega⟩⟩

/-- The program reads the amount that passed `clampU64`. -/
theorem u64_encodeU64Le (h : clampU64 amount = .ok sent) :
    ∃ (data : List UInt8) (v : UInt64), encodeU64Le (.bigint sent) = .ok data ∧
      Borsh.u64 data = some (v, []) ∧ (v.toNat : ℤ) = amount := by
  obtain ⟨hle, hlt, rfl⟩ := clampU64_eq_ok.1 h
  obtain ⟨v, rfl⟩ := exists_u64 hle hlt
  refine ⟨v.toLeBytes, v, encodeU64Le_eq_ok.2 rfl, ?_, rfl⟩
  exact Borsh.u64_eq_some.2 (List.append_nil _).symm

end Gates

/-- The gates agree on the multiples of the unit, and on what is not positive or no `u64`. -/
theorem gatesAgree_iff (amount : ℤ) :
    GatesAgree amount ↔ (0 < amount → amount < 2 ^ 64 → 1000 ∣ amount) := by
  constructor
  · intro h hpos hlt
    exact (h.withdraw.1 (takenBy_withdraw_iff.2 ⟨hpos, hlt⟩)).2.2
  · intro h
    refine ⟨takenBy_shield_iff, takenBy_withdraw_iff.trans ?_, takenByProgram_iff⟩
    constructor
    · rintro ⟨hpos, hlt⟩
      exact ⟨Int.le_of_dvd hpos (h hpos hlt), hlt, h hpos hlt⟩
    · rintro ⟨hle, hlt, -⟩
      exact ⟨by omega, hlt⟩

/-- `withdraw` submits 1500, which the program rejects. -/
theorem not_gatesAgree : ¬ GatesAgree 1500 := by
  intro h
  have htaken : TakenBy withdrawAmount 1500 := ⟨1500, by decide⟩
  exact absurd (h.withdraw.1 htaken).2.2 (by decide)

end Sdk

end Ghos
