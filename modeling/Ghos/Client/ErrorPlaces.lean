import Ghos.Client.Errors

/-!
# The places of an `Error` that hold a code

`extractErrorCode` of `sdk/src/errors.ts` looks for the code of a program error in the places where
Anchor and an RPC node leave it, and returns the first number that it meets.  `inspectedCodes` lists
the numbers of all places, in the order of the search.

* `extractErrorCode_eq_head?`: the code that is found is the first of them;
* `coerceToSdkError_iff_not_shadowed`: an error of the program is recognised unless a number that is
  no code of the program comes before it.
-/

namespace Ghos

namespace Sdk

open Js (Number isDigit isDigit_mono isDigit_ne parseDigits_isSome parseInt parseInt_of_no_sign
  skipMark)

/-! ### Codes in a text -/

/-- The match of `custom program error: (0x[0-9a-fA-F]+|\d+)` at the beginning of a text. -/
def matchHere (text : List Char) : Option (List Char) :=
  if customProgramErrorPrefix <+: text then matchCode (text.drop customProgramErrorPrefix.length)
  else none

/-- The number in a match. -/
def matchedCode (raw : List Char) : Option Number :=
  (if "0x".toList <+: raw then parseInt 16 raw else parseInt 10 raw).map fun code : ℤ =>
    Number.finite code

/-- All numbers of a text that stand after `custom program error: `. -/
def customProgramErrors (text : String) : List Number :=
  text.toList.tails.filterMap fun tail => (matchHere tail).bind matchedCode

/-- A text that begins with a digit is a number, apart from the mark of hexadecimal numbers. -/
theorem parseInt_isSome_of_digit {radix : ℕ} (hradix : radix ≤ 16) {c : Char} {text : List Char}
    (hc : isDigit radix c = true)
    (hmark : (skipMark radix (c :: text)).head?.any (isDigit radix) = true) :
    (parseInt radix (c :: text)).isSome = true := by
  obtain ⟨hspace, hminus, hplus, -⟩ := isDigit_ne c (isDigit_mono hradix hc)
  rw [parseInt_of_no_sign hspace hminus hplus, Option.isSome_map, parseDigits_isSome, hmark]

theorem skipMark_ten (text : List Char) : skipMark 10 text = text := by
  unfold skipMark
  split <;> rfl

/-- What is matched is a number. -/
theorem matchedCode_isSome {text raw : List Char} (h : matchCode text = some raw) :
    (matchedCode raw).isSome = true := by
  unfold matchCode at h
  dsimp only at h
  split_ifs at h with hhex hdecimal
  · obtain rfl := Option.some.inj h
    obtain ⟨-, hne⟩ := hhex
    have hdigits := List.all_takeWhile (p := isDigit 16) (l := text.drop 2)
    generalize (text.drop 2).takeWhile (isDigit 16) = digits at hne hdigits ⊢
    rw [matchedCode, Option.isSome_map, if_pos (List.prefix_append _ _)]
    cases digits with
    | nil => exact absurd rfl hne
    | cons d digits =>
      rw [List.all_cons, Bool.and_eq_true] at hdigits
      exact parseInt_isSome_of_digit le_rfl (by decide) hdigits.1
  · obtain rfl := Option.some.inj h
    have hdigits := List.all_takeWhile (p := isDigit 10) (l := text)
    generalize text.takeWhile (isDigit 10) = digits at hdecimal hdigits ⊢
    -- a decimal number has no `x` in it
    have hmark : ¬ "0x".toList <+: digits := by
      intro hpre
      have hx := List.all_eq_true.1 hdigits 'x' (hpre.subset (by decide))
      exact absurd hx (by decide)
    rw [matchedCode, Option.isSome_map, if_neg hmark]
    cases digits with
    | nil => exact absurd rfl hdecimal
    | cons d digits =>
      rw [List.all_cons, Bool.and_eq_true] at hdigits
      refine parseInt_isSome_of_digit (by decide) hdigits.1 ?_
      rw [skipMark_ten]
      exact hdigits.1

/-- The first result that can be read is the first result, if all results can be read. -/
theorem findSome?_bind {α β γ : Type} {f : α → Option β} {g : β → Option γ}
    (hg : ∀ a b, f a = some b → (g b).isSome = true) (l : List α) :
    (l.findSome? f).bind g = l.findSome? fun a => (f a).bind g := by
  induction l with
  | nil => rfl
  | cons a l ih =>
    cases hf : f a with
    | none => simp only [List.findSome?_cons, hf, Option.bind_none, ih]
    | some b =>
      obtain ⟨c, hc⟩ := Option.isSome_iff_exists.1 (hg a b hf)
      simp only [List.findSome?_cons, hf, Option.bind_some, hc]

theorem customProgramError_eq_head? (text : String) :
    customProgramError text = (customProgramErrors text).head? := by
  have hread : ∀ tail raw, matchHere tail = some raw → (matchedCode raw).isSome = true := by
    intro tail raw h
    unfold matchHere at h
    split_ifs at h
    exact matchedCode_isSome h
  rw [customProgramErrors, List.head?_filterMap, ← findSome?_bind hread]
  show (text.toList.tails.findSome? matchHere).bind _ = _
  refine congrArg _ (funext fun raw => ?_)
  unfold matchedCode
  split_ifs with hmark
  · cases parseInt 16 raw <;> rfl
  · cases parseInt 10 raw <;> rfl

/-! ### Codes in an error -/

/-- The numbers in `error.errorCode`. -/
def AnchorErrorCode.codes (ec : AnchorErrorCode) : List Number :=
  ec.number.toList ++ match ec.code with
    | some (.number n) => [n]
    | some (.text s) => ((parseInt 10 s.toList).map fun n => .finite n).toList
    | none => []

/-- The numbers in all places of an error, in the order of the search. -/
def inspectedCodes (input : ErrorObject) : List Number :=
  input.code.toList ++ (input.error.toList.flatMap AnchorErrorCode.codes ++
    (input.errorCode.toList ++ ((input.logs.getD []).flatMap customProgramErrors ++
      customProgramErrors input.message)))

/-- A number that is no code of the program comes before all others. -/
def Shadowed (input : ErrorObject) : Prop :=
  ∃ foreign rest, inspectedCodes input = foreign :: rest ∧ programErrorName foreign = none

theorem AnchorErrorCode.extract_eq_head? (ec : AnchorErrorCode) : ec.extract = ec.codes.head? := by
  obtain ⟨number, code⟩ := ec
  cases number with
  | some n => rfl
  | none =>
    rcases code with _ | n | s
    · rfl
    · rfl
    · rw [AnchorErrorCode.codes, Option.toList_none, List.nil_append, Option.head?_toList]
      show Option.map Number.finite (do let n ← parseInt 10 s.toList; pure (n : ℚ)) = _
      cases parseInt 10 s.toList <;> rfl

theorem extractErrorCode_eq_head? (input : ErrorObject) :
    extractErrorCode input = (inspectedCodes input).head? := by
  have herror : input.error.bind AnchorErrorCode.extract =
      (input.error.toList.flatMap AnchorErrorCode.codes).head? := by
    cases input.error with
    | none => rfl
    | some ec => simp [ec.extract_eq_head?]
  have hlogs : (input.logs.bind fun logs => logs.findSome? customProgramError) =
      ((input.logs.getD []).flatMap customProgramErrors).head? := by
    cases input.logs with
    | none => rfl
    | some logs =>
      rw [Option.bind_some, Option.getD_some, List.head?_flatMap]
      exact congrArg (logs.findSome? ·) (funext customProgramError_eq_head?)
  simp only [inspectedCodes, List.head?_append, Option.head?_toList, ← herror, ← hlogs,
    ← customProgramError_eq_head?, extractErrorCode, Option.orElse_eq_orElse, Option.orElse_eq_or]

/-! ### Recognised errors -/

theorem ghosErrorCode_ne_networkError (name : GhosError) : ghosErrorCode name ≠ networkError := by
  cases name <;> decide

/-- The program error is what comes out if its code comes first. -/
theorem coerceToSdkError_eq_programError_iff {input : ErrorObject} {name : GhosError} :
    coerceToSdkError (.error input) = programError name ↔
      (inspectedCodes input).head? = some (.finite (ghosErrorCode name)) := by
  rw [← extractErrorCode_eq_head?]
  constructor
  · intro h
    simp only [coerceToSdkError] at h
    cases hname : (extractErrorCode input).bind programErrorName with
    | none =>
      rw [hname] at h
      exact absurd (SdkError.ghosSdkError.inj h).1.symm (ghosErrorCode_ne_networkError name)
    | some found =>
      rw [hname] at h
      obtain ⟨code, hcode, hfound⟩ := Option.bind_eq_some_iff.1 hname
      have hsame := ghosErrorCode_injective (SdkError.ghosSdkError.inj h).1
      rw [hcode, programErrorName_eq_some.1 hfound, hsame]
  · exact coerceToSdkError_of_extractErrorCode

/-- The names behind the numbers are the names whose codes are among the numbers. -/
theorem eq_of_mem_codes {codes : List Number} {name other : GhosError}
    (h : ∀ found ∈ codes.filterMap programErrorName, found = name)
    (hother : .finite (ghosErrorCode other) ∈ codes) : other = name :=
  h other (List.mem_filterMap.2 ⟨_, hother, programErrorName_eq_some.2 rfl⟩)

/-- An error with the code of one program error among its numbers is recognised unless a number that
is no such code shadows it. -/
theorem coerceToSdkError_iff_not_shadowed {input : ErrorObject} {name : GhosError}
    (hcode : .finite (ghosErrorCode name) ∈ inspectedCodes input)
    (honly : ∀ other : GhosError, .finite (ghosErrorCode other) ∈ inspectedCodes input →
      other = name) :
    coerceToSdkError (.error input) = programError name ↔ ¬ Shadowed input := by
  rw [coerceToSdkError_eq_programError_iff, Shadowed]
  cases hcodes : inspectedCodes input with
  | nil =>
    rw [hcodes] at hcode
    cases hcode
  | cons first rest =>
    rw [hcodes] at honly
    rw [List.head?_cons, Option.some.injEq]
    constructor
    · rintro rfl ⟨foreign, rest', heq, hforeign⟩
      obtain ⟨rfl, -⟩ := List.cons.inj heq
      rw [programErrorName_eq_some.2 rfl] at hforeign
      cases hforeign
    · intro hclear
      cases hfirst : programErrorName first with
      | none => exact absurd ⟨first, rest, rfl, hfirst⟩ hclear
      | some other =>
        obtain rfl := programErrorName_eq_some.1 hfirst
        rw [honly other List.mem_cons_self]

namespace Sample

/-- An error with the logs of a transaction. -/
def loggedFailure : ErrorObject where
  message := "Transaction simulation failed"
  logs := some ["Program log: Instruction: Shield", "failed: custom program error: 0x1770"]

/-- What web3.js throws for a simulation that fails: the code is that of the JSON-RPC error. -/
def simulationFailure : ErrorObject where
  message := "failed to send transaction: Transaction simulation failed: Error processing " ++
    "Instruction 0: custom program error: 0x1770"
  code := some (.finite (-32002))

end Sample

theorem coerceToSdkError_iff_not_shadowed_sample :
    coerceToSdkError (.error Sample.loggedFailure) = programError .amountBelowDustFloor ↔
      ¬ Shadowed Sample.loggedFailure := by
  have hcodes : inspectedCodes Sample.loggedFailure = [.finite 6000] := by decide +kernel
  refine coerceToSdkError_iff_not_shadowed ?_ fun other hother => ?_
  · rw [hcodes]
    decide +kernel
  · rw [hcodes] at hother
    exact eq_of_mem_codes (by decide +kernel) hother

/-- The code of the JSON-RPC error shadows the code in the message. -/
theorem not_coerceToSdkError_programError :
    ¬ ∀ (input : ErrorObject) (name : GhosError),
      .finite (ghosErrorCode name) ∈ inspectedCodes input →
      (∀ other : GhosError, .finite (ghosErrorCode other) ∈ inspectedCodes input → other = name) →
      coerceToSdkError (.error input) = programError name := by
  intro h
  have hcodes : inspectedCodes Sample.simulationFailure = [.finite (-32002), .finite 6000] := by
    decide +kernel
  have hcode : coerceToSdkError (.error Sample.simulationFailure) =
      programError .amountBelowDustFloor := by
    refine h _ _ ?_ fun other hother => ?_
    · rw [hcodes]
      decide +kernel
    · rw [hcodes] at hother
      exact eq_of_mem_codes (by decide +kernel) hother
  rw [coerceToSdkError_eq_programError_iff, hcodes] at hcode
  exact absurd hcode (by decide +kernel)

end Sdk

end Ghos
