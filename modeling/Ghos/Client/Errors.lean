import Ghos.Lib.JsText
import Ghos.Client.Sdk

/-!
# The errors of the SDK

`coerceToSdkError` of `sdk/src/errors.ts` turns whatever a submission throws into a `GhosSdkError`.
It looks for the code of an error of the program in several places of an `Error`, and what carries
no such code becomes a network error.

* `programErrorName_eq_some`: the codes of the table are those of the program, one for each error;
* `coerceToSdkError_of_extractErrorCode`: an error in which such a code is found loses its message.
-/

namespace Ghos

namespace Sdk

open Js (Number isDigit parseInt)

/-! ### The tables -/

/-- `GHOS_ERROR_CODES`. -/
def ghosErrorCode : GhosError → ℕ
  | .amountBelowDustFloor => 6000
  | .amountNotAligned => 6001
  | .mintMissingConfidentialExt => 6002
  | .mintWrongProgramOwner => 6003
  | .accountNotConfidential => 6004
  | .accountOwnerMismatch => 6005
  | .invalidCiphertext => 6006
  | .rangeProofVerificationFailed => 6007
  | .equalityProofVerificationFailed => 6008
  | .pubkeyValidityProofFailed => 6009
  | .zeroBalanceProofFailed => 6010
  | .auditorEntryMissing => 6011
  | .auditorMismatch => 6012
  | .auditorRotationTooSoon => 6013
  | .burnerTtlOutOfRange => 6014
  | .burnerExpired => 6015
  | .burnerAlreadyRegistered => 6016
  | .burnerCapReached => 6017
  | .mixBelowMinimum => 6018
  | .mixRoundFull => 6019
  | .mixNotInCommit => 6020
  | .mixNotInReveal => 6021
  | .mixRevealMismatch => 6022
  | .mixRevealTimeout => 6023
  | .mixDenominationMismatch => 6024
  | .mixAlreadyCommitted => 6025
  | .mixNotCommitted => 6026
  | .notAdmin => 6027
  | .paused => 6028
  | .unexpectedProofContext => 6029
  | .confidentialTransferDisabled => 6030
  | .nothingToApply => 6031
  | .withdrawExceedsAvailable => 6032
  | .protocolVersionMismatch => 6033

/-- `GHOS_ERROR_MESSAGES`. -/
def ghosErrorMessage : GhosError → String
  | .amountBelowDustFloor => "amount is below the dust-free quantization unit"
  | .amountNotAligned => "amount is not aligned to the dust-free unit"
  | .mintMissingConfidentialExt =>
    "mint does not have the Token-2022 confidential transfer extension"
  | .mintWrongProgramOwner => "mint owner is not the Token-2022 program"
  | .accountNotConfidential => "token account is not a confidential account for the given mint"
  | .accountOwnerMismatch => "token account owner does not match the signer"
  | .invalidCiphertext => "supplied ElGamal ciphertext is malformed"
  | .rangeProofVerificationFailed => "range proof verification failed via zk-token-proof CPI"
  | .equalityProofVerificationFailed => "equality proof verification failed via zk-token-proof CPI"
  | .pubkeyValidityProofFailed => "pubkey validity proof verification failed via zk-token-proof CPI"
  | .zeroBalanceProofFailed => "zero balance proof verification failed via zk-token-proof CPI"
  | .auditorEntryMissing => "auditor registration is required for this mint but was not provided"
  | .auditorMismatch => "auditor public key does not match the registered entry"
  | .auditorRotationTooSoon => "auditor rotation attempted before the cooldown period elapsed"
  | .burnerTtlOutOfRange => "burner TTL is outside the allowed range"
  | .burnerExpired => "burner has expired and may no longer be used"
  | .burnerAlreadyRegistered => "burner is already registered for this owner at the requested seed"
  | .burnerCapReached => "burner registry cap for this owner has been reached"
  | .mixBelowMinimum => "mix round requires a minimum number of participants"
  | .mixRoundFull => "mix round is full, cannot accept more participants"
  | .mixNotInCommit => "mix round is not in the commit phase"
  | .mixNotInReveal => "mix round is not in the reveal phase"
  | .mixRevealMismatch => "mix reveal does not match the prior commitment"
  | .mixRevealTimeout => "mix round reveal window has elapsed, round aborted"
  | .mixDenominationMismatch => "mix denomination does not match the round configuration"
  | .mixAlreadyCommitted => "participant already committed in this round"
  | .mixNotCommitted => "participant never committed, cannot reveal"
  | .notAdmin => "the caller is not the protocol admin"
  | .paused => "protocol has been paused by the admin"
  | .unexpectedProofContext =>
    "provided proof context account does not belong to the expected program"
  | .confidentialTransferDisabled =>
    "calling instruction requires confidential_transfer feature to be enabled on the mint"
  | .nothingToApply => "apply pending requires a non-zero pending counter"
  | .withdrawExceedsAvailable => "withdraw amount exceeds decrypted available balance"
  | .protocolVersionMismatch =>
    "protocol version stored on-chain does not match program expectations"

/-- The keys of the tables, in their order. -/
def ghosErrorNames : List GhosError := [
  .amountBelowDustFloor, .amountNotAligned, .mintMissingConfidentialExt, .mintWrongProgramOwner,
  .accountNotConfidential, .accountOwnerMismatch, .invalidCiphertext, .rangeProofVerificationFailed,
  .equalityProofVerificationFailed, .pubkeyValidityProofFailed, .zeroBalanceProofFailed,
  .auditorEntryMissing, .auditorMismatch, .auditorRotationTooSoon, .burnerTtlOutOfRange,
  .burnerExpired, .burnerAlreadyRegistered, .burnerCapReached, .mixBelowMinimum, .mixRoundFull,
  .mixNotInCommit, .mixNotInReveal, .mixRevealMismatch, .mixRevealTimeout, .mixDenominationMismatch,
  .mixAlreadyCommitted, .mixNotCommitted, .notAdmin, .paused, .unexpectedProofContext,
  .confidentialTransferDisabled, .nothingToApply, .withdrawExceedsAvailable,
  .protocolVersionMismatch]

/-- `SDK_ERROR_CODES.NetworkError`. -/
def networkError : ℕ := 9008

/-- The error of the SDK for an error that the program has raised. -/
def programError (name : GhosError) : SdkError :=
  .ghosSdkError (ghosErrorCode name) (ghosErrorMessage name)

/-- The name of a code. -/
def programErrorName (code : Number) : Option GhosError :=
  ghosErrorNames.find? fun name => code.Equals (ghosErrorCode name)

/-! ### Codes in an `Error` -/

/-- `error.errorCode.code`. -/
inductive CodeValue
  | number (n : Number)
  | text (s : String)
  deriving DecidableEq

/-- `error.errorCode`, as Anchor reports it. -/
structure AnchorErrorCode where
  number : Option Number := none
  code : Option CodeValue := none
  deriving DecidableEq

/-- An `Error` with the properties that `extractErrorCode` looks at; a property of another type is
`none`. -/
structure ErrorObject where
  message : String
  code : Option Number := none
  error : Option AnchorErrorCode := none
  errorCode : Option Number := none
  logs : Option (List String) := none
  deriving DecidableEq

/-- What may be thrown: a `GhosSdkError`, an `Error`, or another value with its `String`. -/
inductive Thrown
  | ghosSdkError (code : ℕ) (message : String)
  | error (e : ErrorObject)
  | other (text : String)
  deriving DecidableEq

/-- The number in `error.errorCode`. -/
def AnchorErrorCode.extract (ec : AnchorErrorCode) : Option Number :=
  match ec.number, ec.code with
  | some n, _ => some n
  | none, some (.number n) => some n
  | none, some (.text s) => (parseInt 10 s.toList).map fun n => .finite n
  | none, none => none

def customProgramErrorPrefix : List Char := "custom program error: ".toList

/-- The group `(0x[0-9a-fA-F]+|\d+)`, matched at the beginning. -/
def matchCode (text : List Char) : Option (List Char) :=
  let hex := (text.drop 2).takeWhile (isDigit 16)
  let decimal := text.takeWhile (isDigit 10)
  if "0x".toList <+: text ∧ hex ≠ [] then some ("0x".toList ++ hex)
  else if decimal ≠ [] then some decimal
  else none

/-- The group of the first match of `custom program error: (0x[0-9a-fA-F]+|\d+)`. -/
def matchCustomProgramError (text : List Char) : Option (List Char) :=
  text.tails.findSome? fun tail =>
    if customProgramErrorPrefix <+: tail then
      matchCode (tail.drop customProgramErrorPrefix.length)
    else none

/-- The code in a line or in a message. -/
def customProgramError (text : String) : Option Number := do
  let raw ← matchCustomProgramError text.toList
  let code ← if "0x".toList <+: raw then parseInt 16 raw else parseInt 10 raw
  return .finite code

/-- Scan an `Error` for a numeric code. -/
def extractErrorCode (input : ErrorObject) : Option Number :=
  input.code <|> input.error.bind AnchorErrorCode.extract <|> input.errorCode <|>
    (input.logs.bind fun logs => logs.findSome? customProgramError) <|>
    customProgramError input.message

/-- Convert whatever is thrown into a `GhosSdkError`. -/
def coerceToSdkError : Thrown → SdkError
  | .ghosSdkError code message => .ghosSdkError code message
  | .error input =>
    match (extractErrorCode input).bind programErrorName with
    | some name => programError name
    | none => .ghosSdkError networkError input.message
  | .other text => .ghosSdkError networkError text

/-! ### Codes and names -/

theorem mem_ghosErrorNames (name : GhosError) : name ∈ ghosErrorNames := by
  cases name <;> decide

/-- A code is the position of its name. -/
theorem getElem?_ghosErrorNames (name : GhosError) :
    ghosErrorNames[ghosErrorCode name - 6000]? = some name := by
  cases name <;> rfl

theorem ghosErrorCode_injective : Function.Injective ghosErrorCode := by
  intro a b h
  have ha := getElem?_ghosErrorNames a
  rw [h, getElem?_ghosErrorNames] at ha
  exact (Option.some.inj ha).symm

theorem eq_of_programErrorName {code : Number} {name : GhosError}
    (h : programErrorName code = some name) : code = .finite (ghosErrorCode name) := by
  have hcode := List.find?_some (p := fun name => decide (code.Equals (ghosErrorCode name))) h
  exact of_decide_eq_true hcode

theorem programErrorName_eq_some {code : Number} {name : GhosError} :
    programErrorName code = some name ↔ code = .finite (ghosErrorCode name) := by
  refine ⟨eq_of_programErrorName, ?_⟩
  rintro rfl
  have hsome : (programErrorName (.finite (ghosErrorCode name))).isSome := by
    rw [programErrorName, List.find?_isSome]
    exact ⟨name, mem_ghosErrorNames name, decide_eq_true rfl⟩
  obtain ⟨found, hfound⟩ := Option.isSome_iff_exists.1 hsome
  -- the name that is found has the same code
  have hcode := Number.finite.inj (eq_of_programErrorName hfound)
  rw [hfound, ghosErrorCode_injective (Nat.cast_injective hcode)]

theorem coerceToSdkError_of_extractErrorCode {input : ErrorObject} {name : GhosError}
    (h : extractErrorCode input = some (.finite (ghosErrorCode name))) :
    coerceToSdkError (.error input) = programError name := by
  simp only [coerceToSdkError, h, Option.bind_some, programErrorName_eq_some.2 rfl]

end Sdk

end Ghos
