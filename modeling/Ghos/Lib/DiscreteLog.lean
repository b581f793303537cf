import Mathlib.GroupTheory.OrderOfElement
import Mathlib.Tactic

/-!
# Searching for discrete logarithms

`IsLog g target n m` says that `m` is the least multiplier of `g` that gives `target`, and that it
is below `n`.  Two searches find it:

* `scan`: one multiple after the other (`scan_eq_some_iff`);
* `bsgs`: baby steps in a table, giant steps through the rest (`bsgs_eq_some_iff`).  The table is
  addressed by a `key` of the elements, and an element that is in the table already is not entered
  again.

Neither asks anything of the group.  Below the order of `g` a multiplier is its own logarithm
(`isLog_smul`), and a search in a multiple by an integer finds that integer if it is in range
(`search_zsmul`).
-/

namespace DiscreteLog

variable {G K : Type*} [AddCommGroup G]

/-- `m` is the discrete logarithm of `target`, and it is below `n`. -/
structure IsLog (g target : G) (n m : ℕ) : Prop where
  lt : m < n
  smul : m • g = target
  least : ∀ k, k • g = target → m ≤ k

variable {g target : G} {m n k : ℕ}

/-- A multiplier below `n` gives a logarithm below `n`. -/
theorem exists_isLog (hk : k • g = target) (hkn : k < n) : ∃ m, IsLog g target n m := by
  classical
  have hex : ∃ k, k • g = target := ⟨k, hk⟩
  exact ⟨Nat.find hex, (Nat.find_le hk).trans_lt hkn, Nat.find_spec hex, fun j hj => Nat.find_le hj⟩

/-- Below the order, a multiplier is the logarithm of the multiple. -/
theorem isLog_smul (hm : m < addOrderOf g) (hmn : m < n) : IsLog g (m • g) n m where
  lt := hmn
  smul := rfl
  least k hk := by
    have hmod : k ≡ m [MOD addOrderOf g] := nsmul_eq_nsmul_iff_modEq.1 hk
    calc m = m % addOrderOf g := (Nat.mod_eq_of_lt hm).symm
      _ = k % addOrderOf g := hmod.symm
      _ ≤ k := Nat.mod_le k _

theorem isLog_iff_of_lt (hm : m < addOrderOf g) (hmn : m < n) :
    IsLog g target n m ↔ m • g = target :=
  ⟨IsLog.smul, fun h => h ▸ isLog_smul hm hmn⟩

/-- The logarithm of a multiple by an integer, where no other multiplier is within reach. -/
theorem isLog_zsmul_iff {v : ℤ} {max : ℕ} (hfits : |v| + max < addOrderOf g) :
    IsLog g (v • g) (max + 1) m ↔ (m : ℤ) = v ∧ m ≤ max := by
  have habs := abs_lt.1 (lt_of_le_of_lt (le_add_of_nonneg_right (Int.natCast_nonneg max)) hfits)
  constructor
  · intro h
    have hle : m ≤ max := Nat.lt_succ_iff.1 h.lt
    have hsmul : ((m : ℤ) - v) • g = 0 := by
      rw [sub_smul, natCast_zsmul, h.smul, sub_self]
    have hdvd : (addOrderOf g : ℤ) ∣ m - v := addOrderOf_dvd_iff_zsmul_eq_zero.2 hsmul
    have hlt : |(m : ℤ) - v| < addOrderOf g := by
      calc |(m : ℤ) - v| ≤ |(m : ℤ)| + |v| := abs_sub _ _
        _ ≤ max + |v| := by
          rw [Nat.abs_cast]
          omega
        _ < addOrderOf g := by omega
    exact ⟨by have := Int.eq_zero_of_abs_lt_dvd hdvd hlt; omega, hle⟩
  · rintro ⟨rfl, hle⟩
    rw [natCast_zsmul]
    exact isLog_smul (by omega) (Nat.lt_succ_of_le hle)

/-- What a search makes of a multiple by an integer: it finds the integer if it is in range, and
nothing else. -/
theorem search_zsmul {search : Option ℕ} {v : ℤ} {max : ℕ} (hfits : |v| + max < addOrderOf g)
    (hsearch : ∀ m, search = some m ↔ IsLog g (v • g) (max + 1) m) :
    search = if 0 ≤ v ∧ v ≤ max then some v.toNat else none := by
  split_ifs with hrange
  · refine (hsearch _).2 ((isLog_zsmul_iff hfits).2 ?_)
    omega
  · refine Option.eq_none_iff_forall_ne_some.2 fun m hm => hrange ?_
    obtain ⟨hv, hle⟩ := (isLog_zsmul_iff hfits).1 ((hsearch m).1 hm)
    omega

/-! ### Linear search -/

section Scan

variable [DecidableEq G]

/-- Try the multipliers from `m` on, `rest` of them; `cursor` is the multiple before. -/
def scanLoop (g target : G) : ℕ → ℕ → G → Option ℕ
  | 0, _, _ => none
  | rest + 1, m, cursor =>
    if cursor + g = target then some m else scanLoop g target rest (m + 1) (cursor + g)

/-- The least multiplier up to `max`. -/
def scan (g target : G) (max : ℕ) : Option ℕ :=
  if 0 = target then some 0 else scanLoop g target max 1 0

theorem scanLoop_eq_some_iff {rest : ℕ} :
    scanLoop g target rest (k + 1) (k • g) = some m ↔
      k < m ∧ m ≤ k + rest ∧ m • g = target ∧ ∀ j, k < j → j < m → j • g ≠ target := by
  induction rest generalizing k with
  | zero => simp only [scanLoop, reduceCtorEq, false_iff]; omega
  | succ rest ih =>
    rw [scanLoop, ← succ_nsmul]
    split_ifs with h
    · rw [Option.some.injEq]
      constructor
      · rintro rfl
        exact ⟨by omega, by omega, h, by omega⟩
      · rintro ⟨hkm, -, -, hne⟩
        by_contra hlt
        exact hne (k + 1) (by omega) (by omega) h
    · rw [ih]
      constructor
      · rintro ⟨hkm, hmr, hm, hne⟩
        refine ⟨by omega, by omega, hm, fun j hkj hjm => ?_⟩
        rcases eq_or_ne j (k + 1) with rfl | hj
        · exact h
        · exact hne j (by omega) hjm
      · rintro ⟨hkm, hmr, hm, hne⟩
        have hm1 : m ≠ k + 1 := by
          rintro rfl
          exact h hm
        exact ⟨by omega, by omega, hm, fun j hkj => hne j (by omega)⟩

/-- Linear search finds the logarithm. -/
theorem scan_eq_some_iff {max : ℕ} : scan g target max = some m ↔ IsLog g target (max + 1) m := by
  unfold scan
  split_ifs with h
  · rw [Option.some.injEq]
    constructor
    · rintro rfl
      exact ⟨by omega, by rw [zero_nsmul, h], by omega⟩
    · intro hlog
      exact (Nat.le_zero.1 (hlog.least 0 (by rw [zero_nsmul, h]))).symm
  · have hloop : scanLoop g target max (0 + 1) (0 • g) = some m ↔ _ := scanLoop_eq_some_iff
    rw [zero_nsmul, zero_add] at hloop
    rw [hloop]
    constructor
    · rintro ⟨h0, hmax, hm, hne⟩
      refine ⟨by omega, hm, fun j hj => ?_⟩
      by_contra hlt
      rcases Nat.eq_zero_or_pos j with rfl | hpos
      · exact h (by rw [← hj, zero_nsmul])
      · exact hne j hpos (by omega) hj
    · intro hlog
      have hm0 : m ≠ 0 := by
        rintro rfl
        exact h (by rw [← hlog.smul, zero_nsmul])
      have hlt := hlog.lt
      refine ⟨by omega, by omega, hlog.smul, fun j _ hjm hj => ?_⟩
      exact absurd (hlog.least j hj) (by omega)

end Scan

/-! ### Baby steps and giant steps -/

section Bsgs

variable [DecidableEq K] {key : G → K}

/-- Enter a key unless it is there. -/
def enter (table : List (K × ℕ)) (k : K) (i : ℕ) : List (K × ℕ) :=
  if (table.lookup k).isSome then table else table ++ [(k, i)]

/-- Enter the multiples from `i` on, `rest` of them; `babyStep` is the `i`-th. -/
def babyLoop (key : G → K) (g : G) : ℕ → ℕ → G → List (K × ℕ) → List (K × ℕ)
  | 0, _, _, table => table
  | rest + 1, i, babyStep, table =>
    babyLoop key g rest (i + 1) (babyStep + g) (enter table (key babyStep) i)

/-- The multiples up to `step`. -/
def babyTable (key : G → K) (g : G) (step : ℕ) : List (K × ℕ) := babyLoop key g (step + 1) 0 0 []

/-- Look `current` up in the table and go on by `giantFactor`, `rest` times. -/
def giantLoop (key : G → K) (table : List (K × ℕ)) (giantFactor : G) (step max : ℕ) :
    ℕ → ℕ → G → Option ℕ
  | 0, _, _ => none
  | rest + 1, j, current =>
    match table.lookup (key current) with
    | some found =>
      if j * step + found ≤ max then some (j * step + found)
      else giantLoop key table giantFactor step max rest (j + 1) (current + giantFactor)
    | none => giantLoop key table giantFactor step max rest (j + 1) (current + giantFactor)

/-- The number of giant steps that cover `max`. -/
def giantRounds (step max : ℕ) : ℕ := max / step + if max % step = 0 then 0 else 1

/-- The least multiplier up to `max`, in strides of `step`. -/
def bsgs (key : G → K) (g target : G) (step max : ℕ) : Option ℕ :=
  giantLoop key (babyTable key g step) (-(step • g)) step max (giantRounds step max + 1) 0 target

theorem lookup_enter {table : List (K × ℕ)} {k k' : K} {i j : ℕ} :
    (enter table k i).lookup k' = some j ↔
      table.lookup k' = some j ∨ table.lookup k = none ∧ k' = k ∧ i = j := by
  unfold enter
  by_cases hk : table.lookup k = none
  · rw [hk, Option.isSome_none, if_neg Bool.false_ne_true, List.lookup_append]
    by_cases hkk : k' = k
    · subst hkk
      simp [hk]
    · have hsingle : List.lookup k' [(k, i)] = none := by
        rw [List.lookup_cons, beq_eq_false_iff_ne.2 hkk]
        rfl
      simp [hsingle, hkk]
  · rw [if_pos (Option.isSome_iff_ne_none.2 hk)]
    simp [hk]

/-- The table holds the logarithms below `i`. -/
def Tabulates (key : G → K) (g : G) (i : ℕ) (table : List (K × ℕ)) : Prop :=
  ∀ p j, table.lookup (key p) = some j ↔ IsLog g p i j

theorem Tabulates.enter (hkey : Function.Injective key) {i : ℕ} {table : List (K × ℕ)}
    (h : Tabulates key g i table) : Tabulates key g (i + 1) (enter table (key (i • g)) i) := by
  intro p j
  rw [lookup_enter, h p j, Option.eq_none_iff_forall_ne_some]
  constructor
  · rintro (hlog | ⟨hnone, hp, rfl⟩)
    · exact ⟨by have := hlog.lt; omega, hlog.smul, hlog.least⟩
    · refine ⟨i.lt_succ_self, (hkey hp).symm, fun k hk => ?_⟩
      -- a smaller multiplier would have entered the key before
      by_contra hlt
      obtain ⟨m, hm⟩ := exists_isLog (hk.trans (hkey hp)) (by omega : k < i)
      exact hnone m ((h _ m).2 hm)
  · intro hlog
    rcases (Nat.lt_succ_iff.1 hlog.lt).eq_or_lt with rfl | hlt
    · refine .inr ⟨fun m hm => ?_, by rw [hlog.smul], rfl⟩
      have hm := (h _ m).1 hm
      exact absurd (hlog.least m (hm.smul.trans hlog.smul)) (by have := hm.lt; omega)
    · exact .inl ⟨hlt, hlog.smul, hlog.least⟩

theorem Tabulates.babyLoop (hkey : Function.Injective key) {rest i : ℕ} {table : List (K × ℕ)}
    (h : Tabulates key g i table) :
    Tabulates key g (i + rest) (babyLoop key g rest i (i • g) table) := by
  induction rest generalizing i table with
  | zero => exact h
  | succ rest ih =>
    rw [DiscreteLog.babyLoop, ← succ_nsmul, show i + (rest + 1) = i + 1 + rest by omega]
    exact ih (h.enter hkey)

theorem tabulates_babyTable (hkey : Function.Injective key) (step : ℕ) :
    Tabulates key g (step + 1) (babyTable key g step) := by
  have hempty : Tabulates key g 0 [] := fun p j =>
    ⟨fun h => absurd h (by simp), fun h => absurd h.lt (Nat.not_lt_zero j)⟩
  have hloop : Tabulates key g (0 + (step + 1))
      (DiscreteLog.babyLoop key g (step + 1) 0 (0 • g) []) := hempty.babyLoop hkey
  rwa [zero_nsmul, zero_add] at hloop

variable {step max rest j : ℕ} {table : List (K × ℕ)} {current : G}

/-- What the giant steps find is a multiplier up to `max`. -/
theorem giantLoop_sound (htable : Tabulates key g (step + 1) table)
    (hcurrent : current = target - (j * step) • g)
    (hfound : giantLoop key table (-(step • g)) step max rest j current = some m) :
    m • g = target ∧ m ≤ max := by
  induction rest generalizing j current with
  | zero => cases hfound
  | succ rest ih =>
    have hnext : current + -(step • g) = target - ((j + 1) * step) • g := by
      rw [hcurrent, Nat.succ_mul, add_nsmul]
      abel
    rw [giantLoop] at hfound
    cases hlookup : table.lookup (key current) with
    | none =>
      simp only [hlookup] at hfound
      exact ih hnext hfound
    | some i =>
      simp only [hlookup] at hfound
      split_ifs at hfound with hle
      · cases hfound
        have hi := ((htable current i).1 hlookup).smul
        refine ⟨?_, hle⟩
        rw [add_nsmul, hi, hcurrent]
        abel
      · exact ih hnext hfound

/-- The giant steps do not miss a logarithm within their reach. -/
theorem giantLoop_complete (htable : Tabulates key g (step + 1) table)
    (hcurrent : current = target - (j * step) • g) (hlog : IsLog g target (max + 1) m)
    (hlow : j * step ≤ m) (hreach : m < (j + rest) * step) :
    giantLoop key table (-(step • g)) step max rest j current = some m := by
  induction rest generalizing j current with
  | zero =>
    rw [add_zero] at hreach
    omega
  | succ rest ih =>
    -- multipliers of `current` are multipliers of `target`, less the way behind
    have hshift : ∀ k, k • g = current → (j * step + k) • g = target := by
      intro k hk
      rw [add_nsmul, hk, hcurrent]
      abel
    rw [giantLoop]
    by_cases hnear : m ≤ j * step + step
    · have hsmul : (m - j * step) • g = current := by
        have hsum : (j * step + (m - j * step)) • g = target := by
          rw [Nat.add_sub_cancel' hlow, hlog.smul]
        rw [add_nsmul] at hsum
        rw [hcurrent, ← hsum]
        abel
      have hlookup : table.lookup (key current) = some (m - j * step) := by
        refine (htable _ _).2 ⟨by omega, hsmul, fun k hk => ?_⟩
        have := hlog.least _ (hshift k hk)
        omega
      simp only [hlookup]
      rw [Nat.add_sub_cancel' hlow, if_pos (Nat.lt_succ_iff.1 hlog.lt)]
    · have hlookup : table.lookup (key current) = none := by
        rw [Option.eq_none_iff_forall_ne_some]
        intro i hi
        have hi := (htable _ _).1 hi
        have := hlog.least _ (hshift i hi.smul)
        have := hi.lt
        omega
      simp only [hlookup]
      refine ih ?_ ?_ ?_
      · rw [hcurrent, Nat.succ_mul, add_nsmul]
        abel
      · rw [Nat.succ_mul]
        omega
      · rwa [show j + 1 + rest = j + (rest + 1) by omega]

theorem lt_giantRounds (hstep : 0 < step) (max : ℕ) : max < (giantRounds step max + 1) * step := by
  have hdiv := Nat.lt_div_mul_add hstep (a := max)
  rw [Nat.add_mul, giantRounds, Nat.add_mul]
  omega

/-- Baby steps and giant steps find the logarithm. -/
theorem bsgs_eq_some_iff (hkey : Function.Injective key) (hstep : 0 < step) :
    bsgs key g target step max = some m ↔ IsLog g target (max + 1) m := by
  have htable := tabulates_babyTable (g := g) hkey step
  have hstart : target = target - (0 * step) • g := by simp
  have hcomplete : ∀ k, IsLog g target (max + 1) k → bsgs key g target step max = some k := by
    intro k hlog
    have hlt := hlog.lt
    have hcover := lt_giantRounds hstep max
    refine giantLoop_complete htable hstart hlog (by omega) ?_
    rw [zero_add]
    omega
  constructor
  · intro hfound
    obtain ⟨hm, hmax⟩ := giantLoop_sound htable hstart hfound
    obtain ⟨k, hk⟩ := exists_isLog hm (Nat.lt_succ_iff.2 hmax)
    rwa [Option.some.inj (hfound.symm.trans (hcomplete k hk))]
  · exact hcomplete m

end Bsgs

end DiscreteLog
