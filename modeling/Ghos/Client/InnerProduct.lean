import Ghos.Client.Bulletproof
import Ghos.Lib.Folding

/-!
# The inner-product argument

`innerProductProve` of `sdk/src/crypto/bulletproof.ts` halves its vectors until one entry is left.
Each round sends two cross terms, draws a challenge from the transcript and folds the halves.

* `InnerState.loop_eq`: what a round does;
* `InnerState.rounds_loop`: the rounds on `2 ^ k` entries are those of `Folding`;
* `innerProductProve_folds`: the equation between what is sent and the generators.
-/

namespace Ghos.Sdk

open Ristretto255

variable {Point : Type} [Ristretto255 Point] {sha512 : List UInt8 → Vector UInt8 64}

/-! ### The parts of a round -/

theorem cast_powLoop (exponent base result : ℕ) :
    (powLoop exponent base result : ZMod curveOrder) = result * base ^ exponent := by
  induction exponent, base, result using powLoop.induct with
  | case1 base result =>
    rw [powLoop, if_pos rfl, pow_zero, mul_one]
  | case2 exponent base result hne ih =>
    simp only [dite_eq_ite] at ih
    rw [powLoop, if_neg hne, ih, cast_reduceScalar]
    push_cast
    rw [← pow_two, ← pow_mul]
    conv_rhs => rw [← Nat.div_add_mod exponent 2]
    split_ifs with hodd
    · rw [cast_reduceScalar, hodd]
      push_cast
      ring
    · rw [Nat.mod_two_ne_one.1 hodd, add_zero]

theorem powLoop_lt {result : ℕ} (h : result < curveOrder) (exponent base : ℕ) :
    powLoop exponent base result < curveOrder := by
  induction exponent, base, result using powLoop.induct with
  | case1 base result => rwa [powLoop, if_pos rfl]
  | case2 exponent base result hne ih =>
    simp only [dite_eq_ite] at ih
    rw [powLoop, if_neg hne]
    refine ih ?_
    split_ifs
    · exact reduceScalar_lt _
    · exact h

/-- The power of a scalar that `invScalar` computes. -/
def inverseScalar (u : ℕ) : ℕ := powLoop (curveOrder - 2) u 1

theorem cast_inverseScalar {u : ℕ} (hu : IsScalar u) :
    (inverseScalar u : ZMod curveOrder) = (u : ZMod curveOrder)⁻¹ := by
  have hexponent : curveOrder - 2 + 1 = curveOrder - 1 := by
    have := prime_curveOrder.two_le
    omega
  rw [inverseScalar, cast_powLoop, Nat.cast_one, one_mul]
  refine eq_inv_of_mul_eq_one_left ?_
  rw [← pow_succ, hexponent]
  exact ZMod.pow_card_sub_one_eq_one hu.cast_ne_zero

theorem isScalar_inverseScalar {u : ℕ} (hu : IsScalar u) : IsScalar (inverseScalar u) := by
  have hlt : inverseScalar u < curveOrder := powLoop_lt isScalar_one.2 _ u
  refine ⟨Nat.pos_of_ne_zero fun hzero => ?_, hlt⟩
  have hcast := cast_inverseScalar hu
  rw [hzero, Nat.cast_zero] at hcast
  exact inv_ne_zero hu.cast_ne_zero hcast.symm

theorem invScalar_eq {u : ℕ} (hu : u < curveOrder) : invScalar u = if u ≠ 0 then
    .ok (inverseScalar u) else
      .error (.ghosSdkError proofGenerationFailed "cannot invert zero challenge") := by
  rw [invScalar, reduceScalar_of_lt hu, throwUnless_bind]
  rfl

theorem addMultiple_eq (acc p : Point) {k : ℕ} (hk : k < curveOrder) :
    addMultiple acc p k = .ok (acc + (k : ZMod curveOrder) • p) := by
  rw [addMultiple]
  split_ifs with hzero
  · rw [multiply_eq_ok ⟨Nat.pos_of_ne_zero hzero, hk⟩, Nat.cast_smul_eq_nsmul]
    rfl
  · rw [not_not.1 hzero, Nat.cast_zero, zero_smul, add_zero]
    rfl

/-- The halves of a vector of points, folded. -/
def foldedPoints (half : ℕ) (lo hi : List Point) (uLo uHi : ℕ) : List Point :=
  (List.range half).map fun i => uLo • lo.getD i 0 + uHi • hi.getD i 0

theorem foldPoints_eq {uLo uHi : ℕ} (hLo : IsScalar uLo) (hHi : IsScalar uHi) (half : ℕ)
    (lo hi : List Point) :
    foldPoints half lo hi uLo uHi = .ok (foldedPoints half lo hi uLo uHi) := by
  refine mapM_eq_ok fun i _ => ?_
  rw [multiply_eq_ok hLo, multiply_eq_ok hHi]
  rfl

/-- A challenge that can be inverted folds both vectors of points. -/
theorem foldKeys_eq {β : Type} {u : ℕ} (hu : u < curveOrder) (half : ℕ)
    (gLo gHi hLo hHi : List Point) (f : ℕ → List Point → List Point → Except SdkError β) :
    (do
      let uInv ← invScalar u
      let nextG ← foldPoints half gLo gHi uInv u
      let nextH ← foldPoints half hLo hHi u uInv
      f uInv nextG nextH) =
    if u ≠ 0 then
      f (inverseScalar u) (foldedPoints half gLo gHi (inverseScalar u) u)
        (foldedPoints half hLo hHi u (inverseScalar u))
    else .error (.ghosSdkError proofGenerationFailed "cannot invert zero challenge") := by
  rw [invScalar_eq hu]
  split_ifs with hzero
  · have hscalar : IsScalar u := ⟨Nat.pos_of_ne_zero hzero, hu⟩
    have hG := foldPoints_eq (isScalar_inverseScalar hscalar) hscalar half gLo gHi
    have hH := foldPoints_eq hscalar (isScalar_inverseScalar hscalar) half hLo hHi
    simp only [bind, Except.bind, hG, hH]
  · rfl

section Halves

variable {α : Type} {l : List α} {default : α} {half i : ℕ}

theorem getD_take (hi : i < half) : (l.take half).getD i default = l.getD i default := by
  rw [List.getD_eq_getElem?_getD, List.getElem?_take_of_lt hi, List.getD_eq_getElem?_getD]

theorem getD_drop : (l.drop half).getD i default = l.getD (half + i) default := by
  rw [List.getD_eq_getElem?_getD, List.getElem?_drop, List.getD_eq_getElem?_getD]

theorem getD_map_range {f : ℕ → α} (hi : i < half) :
    ((List.range half).map f).getD i default = f i := by
  rw [List.getD_eq_getElem?_getD, List.getElem?_map, List.getElem?_range hi]
  rfl

end Halves

theorem getD_lt {l : List ℕ} (h : ∀ a ∈ l, a < curveOrder) (i : ℕ) : l.getD i 0 < curveOrder := by
  rw [List.getD_eq_getElem?_getD]
  cases hget : l[i]? with
  | none => exact curveOrder_pos
  | some a => exact h a (List.mem_of_getElem? hget)

theorem scalarFromUniform64_lt (bytes : List UInt8) : scalarFromUniform64 bytes < curveOrder :=
  Nat.mod_lt _ curveOrder_pos

theorem foldScalars_lt (half : ℕ) (lo hi : List ℕ) (uLo uHi : ℕ) :
    ∀ a ∈ foldScalars half lo hi uLo uHi, a < curveOrder := by
  intro a ha
  obtain ⟨i, -, rfl⟩ := List.mem_map.1 ha
  exact reduceScalar_lt _

/-! ### A round -/

/-- The vectors of a round, with the transcript in front of it. -/
structure InnerState (Point : Type) where
  aCur : List ℕ
  bCur : List ℕ
  gCur : List Point
  hCur : List Point
  transcript : Transcript

namespace InnerState

variable (s : InnerState Point)

/-- The scalars are reduced. -/
def Reduced : Prop := (∀ a ∈ s.aCur, a < curveOrder) ∧ ∀ b ∈ s.bCur, b < curveOrder

def half : ℕ := s.aCur.length / 2

/-- The vectors as functions, zero behind the last entry. -/
def vectors : Folding.Vectors (ZMod curveOrder) Point where
  a i := (s.aCur.getD i 0 : ℕ)
  b i := (s.bCur.getD i 0 : ℕ)
  g i := s.gCur.getD i 0
  h i := s.hCur.getD i 0

theorem crossTerms_eq (hs : s.Reduced) (half : ℕ) :
    crossTerms half (s.aCur.take half) (s.aCur.drop half) (s.bCur.take half) (s.bCur.drop half)
      (s.gCur.take half) (s.gCur.drop half) (s.hCur.take half) (s.hCur.drop half) =
      .ok (s.vectors.left half, s.vectors.right half) := by
  have ha := getD_lt hs.1
  have hb := getD_lt hs.2
  -- the terms of the indices that the loop has passed
  let terms (n : ℕ) : Point × Point :=
    (Folding.dot n s.vectors.a (fun i => s.vectors.g (half + i)) +
        Folding.dot n (fun i => s.vectors.b (half + i)) s.vectors.h,
      Folding.dot n (fun i => s.vectors.a (half + i)) s.vectors.g +
        Folding.dot n s.vectors.b fun i => s.vectors.h (half + i))
  have hzero : terms 0 = (0, 0) := by simp [terms, Folding.dot]
  rw [crossTerms, ← hzero]
  refine foldlM_range_eq_ok (v := terms) fun i hi => ?_
  simp only [getD_take hi, getD_drop, addMultiple_eq _ _ (ha _), addMultiple_eq _ _ (hb _), bind,
    Except.bind, pure, Except.pure, terms, Folding.dot, Finset.sum_range_succ, vectors]
  refine congrArg _ (Prod.ext ?_ ?_)
  · dsimp only
    abel
  · dsimp only
    abel

section Hash

variable (sha512)

/-- The challenge of the round, and the transcript behind it. -/
def challenge : ℕ × Transcript :=
  ((s.transcript.append sha512 "L" (encode (s.vectors.left s.half)).toList).append sha512 "R"
    (encode (s.vectors.right s.half)).toList).challengeScalar sha512 "u"

/-- The round behind the challenge. -/
def next : InnerState Point :=
  let u := (s.challenge sha512).1
  let uInv := inverseScalar u
  { aCur := foldScalars s.half (s.aCur.take s.half) (s.aCur.drop s.half) u uInv
    bCur := foldScalars s.half (s.bCur.take s.half) (s.bCur.drop s.half) uInv u
    gCur := foldedPoints s.half (s.gCur.take s.half) (s.gCur.drop s.half) uInv u
    hCur := foldedPoints s.half (s.hCur.take s.half) (s.hCur.drop s.half) u uInv
    transcript := (s.challenge sha512).2 }

/-- The rounds that are left. -/
def loop (lVec rVec : List Point) : Except SdkError (InnerProduct Point) :=
  innerProductLoop sha512 s.aCur s.bCur s.gCur s.hCur lVec rVec s.transcript

end Hash

variable (sha512) in
theorem challenge_lt : (s.challenge sha512).1 < curveOrder := scalarFromUniform64_lt _

theorem length_next : (s.next sha512).aCur.length = s.half := by
  rw [next, foldScalars, List.length_map, List.length_range]

theorem reduced_next : (s.next sha512).Reduced :=
  ⟨foldScalars_lt _ _ _ _ _, foldScalars_lt _ _ _ _ _⟩

/-- A round sends the cross terms and goes on, unless its challenge is zero. -/
theorem loop_eq (hs : s.Reduced) (hlen : 1 < s.aCur.length) (lVec rVec : List Point) :
    s.loop sha512 lVec rVec = if (s.challenge sha512).1 ≠ 0 then
      (s.next sha512).loop sha512 (lVec ++ [s.vectors.left s.half])
        (rVec ++ [s.vectors.right s.half]) else
      .error (.ghosSdkError proofGenerationFailed "cannot invert zero challenge") := by
  have hterms := s.crossTerms_eq hs s.half
  simp only [half] at hterms
  rw [loop, innerProductLoop, dif_pos hlen]
  simp only [hterms]
  exact foldKeys_eq (s.challenge_lt sha512) s.half _ _ _ _ _

theorem loop_of_length_le (hlen : s.aCur.length ≤ 1) (lVec rVec : List Point) :
    s.loop sha512 lVec rVec = .ok ⟨lVec, rVec, s.aCur.getD 0 0, s.bCur.getD 0 0⟩ := by
  rw [loop, innerProductLoop, dif_neg hlen.not_gt]
  rfl

variable {s}

variable (sha512) in
/-- Induction over the rounds. -/
@[elab_as_elim]
theorem rounds_induction {motive : InnerState Point → Prop}
    (last : ∀ s, s.aCur.length ≤ 1 → motive s)
    (round : ∀ s, 1 < s.aCur.length → motive (s.next sha512) → motive s) (s : InnerState Point) :
    motive s := by
  induction hlength : s.aCur.length using Nat.strong_induction_on generalizing s with
  | _ n ih =>
    rcases Nat.lt_or_ge 1 s.aCur.length with hlen | hlen
    · have hhalf : s.half < n := by
        rw [half]
        omega
      exact round s hlen (ih s.half hhalf _ s.length_next)
    · exact last s hlen

/-- The loop sends a pair for each time that the length can be halved. -/
theorem length_of_loop {inner : InnerProduct Point} (hs : s.Reduced) (lVec rVec : List Point)
    (h : s.loop sha512 lVec rVec = .ok inner) :
    inner.lVec.length = lVec.length + Nat.log2 s.aCur.length ∧
      inner.rVec.length = rVec.length + Nat.log2 s.aCur.length := by
  revert hs lVec rVec
  refine rounds_induction sha512 (fun s hlen => ?_) (fun s hlen ih => ?_) s <;> intro hs lVec rVec h
  · rw [s.loop_of_length_le hlen, Except.ok.injEq] at h
    have hlog : Nat.log2 s.aCur.length = 0 := by
      rw [Nat.log2_def, if_neg (by omega)]
    rw [← h, hlog]
    exact ⟨rfl, rfl⟩
  · rw [s.loop_eq hs hlen, ite_eq_iff] at h
    obtain ⟨-, h⟩ | ⟨-, h⟩ := h
    · obtain ⟨hl, hr⟩ := ih s.reduced_next _ _ h
      have htwo : 2 ≤ s.aCur.length := hlen
      have hlog : Nat.log2 s.aCur.length = Nat.log2 s.half + 1 := by
        rw [Nat.log2_def, if_pos htwo, half]
      rw [List.length_append, s.length_next] at hl hr
      exact ⟨by rw [hl, hlog, List.length_singleton]; ring, by
        rw [hr, hlog, List.length_singleton]; ring⟩
    · cases h

end InnerState

/-! ### The challenges of a run -/

section Hash

variable (sha512)

/-- The challenges that the rounds draw until they return or throw. -/
def drawnChallenges (aCur bCur : List ℕ) (gCur hCur : List Point) (transcript : Transcript) :
    List ℕ :=
  if _hlen : 1 < aCur.length then
    let half := aCur.length / 2
    let (aLo, aHi) := (aCur.take half, aCur.drop half)
    let (bLo, bHi) := (bCur.take half, bCur.drop half)
    let (gLo, gHi) := (gCur.take half, gCur.drop half)
    let (hLo, hHi) := (hCur.take half, hCur.drop half)
    match crossTerms half aLo aHi bLo bHi gLo gHi hLo hHi with
    | .error _ => []
    | .ok (l, r) =>
      let transcript := transcript.append sha512 "L" (encode l).toList
      let transcript := transcript.append sha512 "R" (encode r).toList
      let (u, transcript) := transcript.challengeScalar sha512 "u"
      match (do
        let uInv ← invScalar u
        return (uInv, ← foldPoints half gLo gHi uInv u, ← foldPoints half hLo hHi u uInv)) with
      | .error _ => [u]
      | .ok (uInv, nextG, nextH) =>
        u :: drawnChallenges (foldScalars half aLo aHi u uInv) (foldScalars half bLo bHi uInv u)
          nextG nextH transcript
  else []
termination_by aCur.length
decreasing_by
  rw [foldScalars, List.length_map, List.length_range]
  omega

/-- The challenges `u` that `innerProductProve` draws. -/
def innerProductChallenges (aVec bVec sL sR : List ℕ) (gVec hVec : List Point)
    (transcript : Transcript) : List ℕ :=
  let aCur := List.zipWith (fun (a s : ℕ) => reduceScalar (a + s)) aVec sL
  let bCur := List.zipWith (fun (b s : ℕ) => reduceScalar (b + s)) bVec sR
  drawnChallenges sha512 aCur bCur gVec hVec transcript

/-- The challenges of the rounds that are left. -/
def InnerState.challenges (s : InnerState Point) : List ℕ :=
  drawnChallenges sha512 s.aCur s.bCur s.gCur s.hCur s.transcript

end Hash

namespace InnerState

variable {s : InnerState Point}

theorem challenges_eq (hs : s.Reduced) (hlen : 1 < s.aCur.length) :
    s.challenges sha512 = (s.challenge sha512).1 ::
      if (s.challenge sha512).1 ≠ 0 then (s.next sha512).challenges sha512 else [] := by
  have hterms := s.crossTerms_eq hs s.half
  have hfold := foldKeys_eq (s.challenge_lt sha512) s.half (s.gCur.take s.half)
    (s.gCur.drop s.half) (s.hCur.take s.half) (s.hCur.drop s.half) fun uInv nextG nextH =>
      return (uInv, nextG, nextH)
  simp only [half] at hterms
  rw [challenges, drawnChallenges, dif_pos hlen]
  by_cases hu : (s.challenge sha512).1 = 0
  · rw [if_neg (not_not.2 hu)] at hfold ⊢
    simp only [challenge, half] at hfold
    simp only [hterms, hfold]
    rfl
  · rw [if_pos hu] at hfold ⊢
    simp only [challenge, half] at hfold
    simp only [hterms, hfold]
    rfl

theorem challenges_of_length_le (hlen : s.aCur.length ≤ 1) : s.challenges sha512 = [] := by
  rw [challenges, drawnChallenges, dif_neg hlen.not_gt]

theorem challenges_ne_zero (hsha : ∀ data, scalarFromUniform64 (sha512 data).toList ≠ 0)
    (hs : s.Reduced) : ∀ u ∈ s.challenges sha512, u ≠ 0 := by
  revert hs
  refine rounds_induction sha512 (fun s hlen => ?_) (fun s hlen ih => ?_) s <;> intro hs
  · rw [challenges_of_length_le hlen]
    exact List.forall_mem_nil _
  · have hne : (s.challenge sha512).1 ≠ 0 := hsha _
    rw [challenges_eq hs hlen, if_pos hne, List.forall_mem_cons]
    exact ⟨hne, ih s.reduced_next⟩

/-- The rounds come to an end exactly if no challenge is zero. -/
theorem exists_loop_iff (hs : s.Reduced) (lVec rVec : List Point) :
    (∃ inner, s.loop sha512 lVec rVec = .ok inner) ↔ ∀ u ∈ s.challenges sha512, u ≠ 0 := by
  revert hs lVec rVec
  refine rounds_induction sha512 (fun s hlen => ?_) (fun s hlen ih => ?_) s <;> intro hs lVec rVec
  · rw [s.loop_of_length_le hlen, challenges_of_length_le hlen]
    exact iff_of_true ⟨_, rfl⟩ (List.forall_mem_nil _)
  · rw [s.loop_eq hs hlen, challenges_eq hs hlen, List.forall_mem_cons]
    split_ifs with hne
    · rw [ih s.reduced_next]
      exact (and_iff_right hne).symm
    · exact iff_of_false (by rintro ⟨_, h⟩; cases h) fun h => hne h.1

/-- The folded vectors, entry by entry. -/
theorem agree_next (hu : IsScalar (s.challenge sha512).1) :
    (s.next sha512).vectors.Agree s.half
      (s.vectors.fold s.half ((s.challenge sha512).1 : ZMod curveOrder)) := by
  have hinv := cast_inverseScalar hu
  refine ⟨fun i hi => ?_, fun i hi => ?_, fun i hi => ?_, fun i hi => ?_⟩ <;>
    simp only [vectors, next, Folding.Vectors.fold, Folding.foldHalves, foldScalars, foldedPoints,
      getD_map_range hi, getD_take hi, getD_drop, cast_reduceScalar, ← hinv, smul_eq_mul,
      ← Nat.cast_smul_eq_nsmul (ZMod curveOrder)]
  · push_cast
    ring
  · push_cast
    ring

/-- With `2 ^ k` entries, the loop goes through `k` rounds of folding. -/
theorem rounds_loop {k : ℕ} (hs : s.Reduced) (hlength : s.aCur.length = 2 ^ k)
    (hu : ∀ u ∈ s.challenges sha512, u ≠ 0) (lVec rVec : List Point) :
    (s.challenges sha512).length = k ∧ ∃ ls rs a b,
      s.loop sha512 lVec rVec = .ok ⟨lVec ++ ls, rVec ++ rs, a, b⟩ ∧
        Folding.Rounds s.vectors ((s.challenges sha512).map Nat.cast) ls rs (a : ZMod curveOrder)
          (b : ZMod curveOrder) := by
  induction k generalizing s lVec rVec with
  | zero =>
    rw [pow_zero] at hlength
    rw [challenges_of_length_le hlength.le, s.loop_of_length_le hlength.le]
    exact ⟨rfl, [], [], _, _, by rw [List.append_nil, List.append_nil], .done s.vectors⟩
  | succ k ih =>
    have hlen : 1 < s.aCur.length := hlength ▸ Nat.one_lt_two_pow k.succ_ne_zero
    have hhalf : s.half = 2 ^ k := by rw [half, hlength, pow_succ, Nat.mul_div_cancel _ two_pos]
    rw [challenges_eq hs hlen, List.forall_mem_cons] at hu
    obtain ⟨hne, hrest⟩ := hu
    rw [if_pos hne] at hrest
    obtain ⟨hk, ls, rs, a, b, hloop, hrounds⟩ := ih s.reduced_next
      (s.length_next.trans hhalf) hrest (lVec ++ [s.vectors.left s.half])
      (rVec ++ [s.vectors.right s.half])
    have hscalar : IsScalar (s.challenge sha512).1 :=
      ⟨Nat.pos_of_ne_zero hne, s.challenge_lt sha512⟩
    rw [challenges_eq hs hlen, if_pos hne, s.loop_eq hs hlen, if_pos hne]
    have hagree := agree_next hscalar
    have hpow : s.half = 2 ^ (((s.next sha512).challenges sha512).map
        (Nat.cast : ℕ → ZMod curveOrder)).length := by
      rw [List.length_map, hk, hhalf]
    refine ⟨congrArg Nat.succ hk, s.vectors.left s.half :: ls, s.vectors.right s.half :: rs, a, b,
      ?_, ?_⟩
    · rw [hloop, List.append_assoc, List.append_assoc]
      rfl
    · rw [List.map_cons]
      rw [hpow] at hagree ⊢
      exact .round hscalar.cast_ne_zero hagree hrounds

end InnerState

/-! ### The whole argument -/

/-- The vectors that `innerProductProve` starts from. -/
def mixedState (aVec bVec sL sR : List ℕ) (gVec hVec : List Point) (transcript : Transcript) :
    InnerState Point where
  aCur := List.zipWith (fun (a s : ℕ) => reduceScalar (a + s)) aVec sL
  bCur := List.zipWith (fun (b s : ℕ) => reduceScalar (b + s)) bVec sR
  gCur := gVec
  hCur := hVec
  transcript := transcript

theorem innerProductProve_eq (aVec bVec sL sR : List ℕ) (gVec hVec : List Point)
    (transcript : Transcript) : innerProductProve sha512 aVec bVec sL sR gVec hVec transcript =
      (mixedState aVec bVec sL sR gVec hVec transcript).loop sha512 [] [] := by
  simp only [innerProductProve, InnerState.loop, mixedState, bind_pure_comp, List.map_eq_map,
    List.zipWith_map]

omit [Ristretto255 Point] in
theorem reduced_mixedState (aVec bVec sL sR : List ℕ) (gVec hVec : List Point)
    (transcript : Transcript) : (mixedState aVec bVec sL sR gVec hVec transcript).Reduced := by
  have hmixed : ∀ vec s : List ℕ,
      ∀ a ∈ List.zipWith (fun (a s : ℕ) => reduceScalar (a + s)) vec s, a < curveOrder := by
    intro vec s a ha
    obtain ⟨i, hi, rfl⟩ := List.mem_iff_getElem.1 ha
    rw [List.getElem_zipWith]
    exact reduceScalar_lt _
  exact ⟨hmixed aVec sL, hmixed bVec sR⟩

theorem exists_innerProductProve (hsha : ∀ data, scalarFromUniform64 (sha512 data).toList ≠ 0)
    (aVec bVec sL sR : List ℕ) (gVec hVec : List Point) (transcript : Transcript) :
    ∃ inner, innerProductProve sha512 aVec bVec sL sR gVec hVec transcript = .ok inner := by
  have hs := reduced_mixedState aVec bVec sL sR gVec hVec transcript
  rw [innerProductProve_eq]
  exact (InnerState.exists_loop_iff hs [] []).2 (InnerState.challenges_ne_zero hsha hs)

theorem getD_ofFn {α : Type} {n : ℕ} (f : Fin n → α) (default : α) (i : Fin n) :
    (List.ofFn f).getD i default = f i := by
  rw [List.getD_eq_getElem?_getD, List.getElem?_ofFn, dif_pos i.isLt]
  rfl

theorem getD_mixed {n : ℕ} (a s : Fin n → ℕ) (i : Fin n) :
    (List.zipWith (fun (a s : ℕ) => reduceScalar (a + s)) (List.ofFn a) (List.ofFn s)).getD i 0 =
      reduceScalar (a i + s i) := by
  rw [List.getD_eq_getElem?_getD, List.getElem?_zipWith, List.getElem?_ofFn, List.getElem?_ofFn,
    dif_pos i.isLt, dif_pos i.isLt]
  rfl

/-- A hash whose digests all are the scalar `k`. -/
def constantHash (k : ℕ) (_ : List UInt8) : Vector UInt8 64 :=
  ⟨(leBytes 64 k).toArray, by simp [length_leBytes]⟩

theorem scalarFromUniform64_constantHash {k : ℕ} (hk : k < curveOrder) (data : List UInt8) :
    scalarFromUniform64 (constantHash k data).toList = k := by
  have hbytes : k < 256 ^ 64 := hk.trans (by decide +kernel)
  rw [scalarFromUniform64, constantHash, Vector.toList_mk, length_leBytes, Nat.sub_self,
    List.replicate_zero, List.append_nil, leNat_leBytes_of_lt hbytes, Nat.mod_eq_of_lt hk]

theorem twoHash_ne_zero (data : List UInt8) :
    scalarFromUniform64 (Sample.twoHash data).toList ≠ 0 :=
  (scalarFromUniform64_constantHash (k := 2) (by decide +kernel) data).trans_ne two_ne_zero

variable (sha512) in
/-- The last scalars, over the generators of the last round, are the commitment to the mixed vectors
and the cross terms of every round. -/
theorem innerProductProve_folds (k : ℕ) (a b sL sR : Fin (2 ^ k) → ℕ) (g h : Fin (2 ^ k) → Point)
    (transcript : Transcript)
    (hu : ∀ u ∈ innerProductChallenges sha512 (.ofFn a) (.ofFn b) (.ofFn sL) (.ofFn sR) (.ofFn g)
      (.ofFn h) transcript, u ≠ 0) :
    ∃ inner, innerProductProve sha512 (.ofFn a) (.ofFn b) (.ofFn sL) (.ofFn sR) (.ofFn g)
        (.ofFn h) transcript = .ok inner ∧
      inner.lVec.length = k ∧ inner.rVec.length = k ∧
      let us : List (ZMod curveOrder) := (innerProductChallenges sha512 (.ofFn a) (.ofFn b)
        (.ofFn sL) (.ofFn sR) (.ofFn g) (.ofFn h) transcript).map Nat.cast
      let w (i : Fin (2 ^ k)) : ZMod curveOrder := ∏ j ∈ Finset.range k,
        if i.val.testBit (k - 1 - j) then us.getD j 0 else (us.getD j 0)⁻¹
      us.length = k ∧
      (inner.a : ZMod curveOrder) • ∑ i, w i • g i +
          (inner.b : ZMod curveOrder) • ∑ i, (w i)⁻¹ • h i =
        ∑ i, (((a i + sL i : ℕ) : ZMod curveOrder) • g i +
            ((b i + sR i : ℕ) : ZMod curveOrder) • h i) +
          ∑ j ∈ Finset.range k, (us.getD j 0 ^ 2 • inner.lVec.getD j 0 +
            (us.getD j 0)⁻¹ ^ 2 • inner.rVec.getD j 0) := by
  have hs := reduced_mixedState (.ofFn a) (.ofFn b) (.ofFn sL) (.ofFn sR) (.ofFn g) (.ofFn h)
    transcript
  set s := mixedState (.ofFn a) (.ofFn b) (.ofFn sL) (.ofFn sR) (.ofFn g) (.ofFn h) transcript
    with hstate
  have hlength : s.aCur.length = 2 ^ k := by
    rw [hstate, mixedState, List.length_zipWith, List.length_ofFn, List.length_ofFn, min_self]
  obtain ⟨hk, ls, rs, aLast, bLast, hloop, hrounds⟩ := InnerState.rounds_loop hs hlength hu [] []
  have hlist : ((s.challenges sha512).map (Nat.cast : ℕ → ZMod curveOrder)).length = k := by
    rw [List.length_map, hk]
  have hequation := hrounds.commit
  obtain ⟨hls, hrs⟩ := hrounds.length
  rw [innerProductProve_eq]
  refine ⟨⟨ls, rs, aLast, bLast⟩, hloop, hls.trans hlist, hrs.trans hlist, hlist, ?_⟩
  simp only [Folding.weight, hlist, Folding.dot, Folding.Vectors.commit] at hequation
  rw [Finset.sum_range, Finset.sum_range, Finset.sum_range, Finset.sum_range] at hequation
  simp only [hstate, InnerState.vectors, mixedState, getD_ofFn, getD_mixed, cast_reduceScalar]
    at hequation
  rw [Finset.sum_add_distrib]
  push_cast at hequation ⊢
  exact hequation

theorem innerProductProve_folds_sample : ∃ inner, innerProductProve Sample.twoHash [1, 0] [0, 1]
    [1, 1] [1, 1] ([1, 2] : List (ZMod curveOrder)) [3, 4] .initial = .ok inner ∧
      inner.lVec.length = 1 ∧ inner.rVec.length = 1 := by
  have hs := reduced_mixedState [1, 0] [0, 1] [1, 1] [1, 1] ([1, 2] : List (ZMod curveOrder)) [3, 4]
    .initial
  obtain ⟨inner, hinner, hl, hr, -⟩ := innerProductProve_folds Sample.twoHash 1 ![1, 0]
    ![0, 1] ![1, 1] ![1, 1] (![1, 2] : _ → ZMod curveOrder) ![3, 4] .initial
    (InnerState.challenges_ne_zero twoHash_ne_zero hs)
  exact ⟨inner, hinner, hl, hr⟩

end Ghos.Sdk
