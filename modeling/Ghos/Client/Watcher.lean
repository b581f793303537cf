import Ghos.Lib.JsText
import Ghos.Lib.TextCodes
import Ghos.Client.EventRecords

/-!
# The watcher of the SDK

`subscribe` and `subscribeAll` of `sdk/src/watcher.ts` look for events in the log of a transaction.

* `arrives_iff`: an event of the program arrives unless it has a `bool` field or a discriminator
  that the IDL does not list for it;
* `reportsOwn_iff`: lines that another program has logged are reported like those of the program.
-/

namespace Ghos

namespace Sdk

open Js (isWhitespace trim)

/-! ### Lines -/

def programDataPrefix : List Char := "Program data: ".toList

/-- Scan a single log line for a program-data payload. -/
def extractProgramData (line : String) : Option (List Char) :=
  if programDataPrefix <+: line.toList then
    some (trim (line.toList.drop programDataPrefix.length))
  else none

/-- `Buffer.from(value, "base64")`, which sees the low byte of each code unit only and stops at the
first `=`. -/
def fromBase64 (value : List Char) : List UInt8 := Base64.decode (Js.lowBytes value)

section Subscribe

variable [Web3]

/-- The events that the handler of `subscribe` is called with. -/
def subscribe (eventName : String) (logs : List String) : List (List (String × JsValue)) :=
  logs.filterMap fun line => do
    let payload ← extractProgramData line
    guard (payload ≠ [])
    let bytes := fromBase64 payload
    let name ← matchEventDiscriminator bytes
    guard (name = eventName)
    (decodeEvent name (bytes.drop 8)).toOption

/-- A line as `subscribeAll` reads it. -/
def readLine (line : String) : Option (String × List (String × JsValue)) := do
  let payload ← extractProgramData line
  guard (payload ≠ [])
  let bytes := fromBase64 payload
  let name ← matchEventDiscriminator bytes
  let event ← (decodeEvent name (bytes.drop 8)).toOption
  return (name, event)

/-- The names and events that the handler of `subscribeAll` is called with. -/
def subscribeAll (logs : List String) : List (String × List (String × JsValue)) :=
  logs.filterMap readLine

/-- The event of a given name. -/
def select (eventName : String) (x : String × List (String × JsValue)) :
    Option (List (String × JsValue)) :=
  if x.1 = eventName then some x.2 else none

/-- `subscribe` reports what `subscribeAll` reports under the name. -/
theorem subscribe_eq (eventName : String) (logs : List String) :
    subscribe eventName logs = (subscribeAll logs).filterMap (select eventName) := by
  rw [subscribe, subscribeAll, List.filterMap_filterMap]
  congr 1
  funext line
  unfold readLine select
  cases extractProgramData line with
  | none => rfl
  | some payload =>
    by_cases hpayload : payload = []
    · simp [hpayload, guard]
    · cases hname : matchEventDiscriminator (fromBase64 payload) with
      | none => simp [hname, guard, hpayload]
      | some name =>
        by_cases heq : name = eventName
        · cases hevent : (decodeEvent name ((fromBase64 payload).drop 8)).toOption <;>
            simp_all [guard]
        · cases hevent : (decodeEvent name ((fromBase64 payload).drop 8)).toOption <;>
            simp_all [guard]

end Subscribe

/-! ### Logs -/

/-- A public key. -/
abbrev Key := Vector UInt8 32

/-- What is logged while a program runs, or by a transaction: lines, and the calls of programs, each
with the error it failed with. -/
inductive Log
  | done
  | data (text : String) (rest : Log)
  | log (message : String) (rest : Log)
  | call (program : Key) (inner : Log) (error : Option String) (rest : Log)

namespace Log

/-- A line about a program. -/
def programLine (program : Key) (what : String) : String :=
  "Program " ++ (String.ofList (Base58.encode program.toList) ++ (" " ++ what))

def invokeLine (program : Key) (depth : ℕ) : String := programLine program s!"invoke [{depth}]"

def closingLine (program : Key) : Option String → String
  | none => programLine program "success"
  | some error => programLine program ("failed: " ++ error)

def dataLine (text : String) : String := "Program data: " ++ text

/-- The lines in order, with calls from the given depth on. -/
def lines (depth : ℕ) : Log → List String
  | done => []
  | data text rest => dataLine text :: rest.lines depth
  | log message rest => ("Program log: " ++ message) :: rest.lines depth
  | call program inner error rest =>
    invokeLine program depth :: (inner.lines (depth + 1) ++
      closingLine program error :: rest.lines depth)

/-- The data lines in order, each with the innermost active program. -/
def dataLines (active : Option Key) : Log → List (Option Key × String)
  | done => []
  | data text rest => (active, dataLine text) :: rest.dataLines active
  | log _ rest => rest.dataLines active
  | call program inner _ rest => inner.dataLines (some program) ++ rest.dataLines active

end Log

/-! ### What the watcher sees -/

theorem extractProgramData_dataLine (text : String) :
    extractProgramData (Log.dataLine text) = some (trim text.toList) := by
  have hline : (Log.dataLine text).toList = programDataPrefix ++ text.toList :=
    String.toList_append
  rw [extractProgramData, hline, if_pos (List.prefix_append _ _), List.drop_left]

theorem extractProgramData_eq_none {line : String} {chars : List Char} (hline : line.toList = chars)
    (h : ¬ programDataPrefix <+: chars) : extractProgramData line = none := by
  rw [extractProgramData, hline, if_neg h]

/-- A key is no `data:`. -/
theorem extractProgramData_programLine (program : Key) (what : String) :
    extractProgramData (Log.programLine program what) = none := by
  have hline : (Log.programLine program what).toList =
      "Program ".toList ++ (Base58.encode program.toList ++ ' ' :: what.toList) := by
    have hkey : (String.ofList (Base58.encode program.toList)).toList =
      Base58.encode program.toList := String.toList_ofList
    rw [Log.programLine, String.toList_append, String.toList_append, String.toList_append, hkey]
    rfl
  refine extractProgramData_eq_none hline ?_
  rintro ⟨text, h⟩
  have hsplit : "Program ".toList ++ ("data:".toList ++ ' ' :: text) =
    "Program ".toList ++ (Base58.encode program.toList ++ ' ' :: what.toList) := h
  replace hsplit := List.append_cancel_left hsplit
  have hspace : ∀ c ∈ Base58.alphabet, (c ≠ ' ' : Bool) :=
    List.forall_iff_forall_mem.1 (by decide)
  have hkey : ∀ c ∈ Base58.encode program.toList, (c ≠ ' ' : Bool) :=
    fun c hc => hspace c (Base58.mem_encode c hc)
  -- the first words are the same
  have hword := congrArg (List.takeWhile (· ≠ ' ')) hsplit
  have hdata : ∀ c ∈ "data:".toList, (c ≠ ' ' : Bool) := List.forall_iff_forall_mem.1 (by decide)
  rw [List.takeWhile_append_of_pos hdata, List.takeWhile_append_of_pos hkey] at hword
  have hcolon : ':' ∈ Base58.encode program.toList := by
    simp only [List.takeWhile_cons, ne_eq, not_true_eq_false, decide_false, Bool.false_eq_true,
      if_false, List.append_nil] at hword
    rw [← hword]
    decide
  exact absurd (Base58.mem_encode _ hcolon) (by decide)

theorem extractProgramData_log (message : String) :
    extractProgramData ("Program log: " ++ message) = none := by
  have hline : ("Program log: " ++ message).toList = "Program log: ".toList ++ message.toList :=
    String.toList_append
  refine extractProgramData_eq_none hline ?_
  rintro ⟨text, h⟩
  have hsplit : "Program ".toList ++ ("data: ".toList ++ text) =
    "Program ".toList ++ ("log: ".toList ++ message.toList) := h
  exact absurd (List.cons.inj (List.append_cancel_left hsplit)).1 (by decide)

theorem trim_encode (b : List UInt8) : trim (Base64.encode b) = Base64.encode b := by
  have halphabet : ∀ c ∈ '=' :: Base64.alphabet, isWhitespace c = false :=
    List.forall_iff_forall_mem.1 (by decide)
  have hspace : ∀ c ∈ Base64.encode b, isWhitespace c = false :=
    fun c hc => halphabet c (Base64.mem_encode c hc)
  have hleft : (Base64.encode b).dropWhile isWhitespace = Base64.encode b := by
    refine List.dropWhile_eq_self_iff.2 fun hne => ?_
    rw [hspace _ (List.getElem_mem hne)]
    simp
  rw [trim, hleft]
  refine List.rdropWhile_eq_self_iff.2 fun hne => ?_
  rw [hspace _ (List.getLast_mem hne)]
  simp

theorem fromBase64_encode (b : List UInt8) : fromBase64 (Base64.encode b) = b := by
  have halphabet : ∀ c ∈ '=' :: Base64.alphabet, c.toNat < 256 :=
    List.forall_iff_forall_mem.1 (by decide)
  rw [fromBase64, Js.lowBytes_eq_self fun c hc => halphabet c (Base64.mem_encode c hc),
    Base64.decode_encode]

/-- What follows the padding is lost. -/
example : fromBase64 "UKE= Mu15wMkc".toList = [80, 161] := by decide

/-- The line that the runtime logs for some bytes. -/
def bytesLine (b : List UInt8) : String := Log.dataLine (String.ofList (Base64.encode b))

/-! ### Calls of other programs -/

section Reports

variable [Web3]

/-- The watcher reports the events that the program has logged, and no other. -/
structure ReportsOwn (programId : Key) (log : Log) : Prop where
  all : subscribeAll (log.lines 1) =
    ((log.dataLines none).filter (·.1 = some programId)).filterMap (readLine ·.2)
  one : ∀ eventName, subscribe eventName (log.lines 1) =
    (((log.dataLines none).filter (·.1 = some programId)).filterMap (readLine ·.2)).filterMap
      (select eventName)

theorem readLine_bytesLine {b : List UInt8} (hb : b ≠ []) :
    readLine (bytesLine b) = do
      let name ← matchEventDiscriminator b
      let event ← (decodeEvent name (b.drop 8)).toOption
      return (name, event) := by
  have htext : extractProgramData (bytesLine b) = some (Base64.encode b) := by
    rw [bytesLine, extractProgramData_dataLine, String.toList_ofList, trim_encode]
  simp [readLine, htext, fromBase64_encode, guard, Base64.encode_ne_nil hb]

theorem readLine_eq_none {line : String} (h : extractProgramData line = none) :
    readLine line = none := by
  rw [readLine, h]
  rfl

/-- Only data lines are read, whichever program is active. -/
theorem filterMap_lines (active : Option Key) (depth : ℕ) (log : Log) :
    (log.lines depth).filterMap readLine = (log.dataLines active).filterMap (readLine ·.2) := by
  induction log generalizing active depth with
  | done => rfl
  | data text rest ih =>
    rw [Log.lines, Log.dataLines, List.filterMap_cons, List.filterMap_cons, ih active depth]
  | log message rest ih =>
    rw [Log.lines, Log.dataLines,
      List.filterMap_cons_none (readLine_eq_none (extractProgramData_log message)), ih active depth]
  | call program inner error rest ihinner ihrest =>
    have hinvoke : readLine (Log.invokeLine program depth) = none :=
      readLine_eq_none (extractProgramData_programLine program _)
    have hclosing : readLine (Log.closingLine program error) = none := by
      cases error <;> exact readLine_eq_none (extractProgramData_programLine program _)
    rw [Log.lines, Log.dataLines, List.filterMap_cons_none hinvoke, List.filterMap_append,
      List.filterMap_cons_none hclosing, List.filterMap_append, ihinner (some program),
      ihrest active]

omit [Web3] in
/-- A filter loses nothing only if what it drops gives nothing. -/
theorem filterMap_filter_eq_iff {α β : Type} (p : α → Bool) (f : α → Option β) (l : List α) :
    l.filterMap f = (l.filter p).filterMap f ↔ ∀ x ∈ l, p x = false → f x = none := by
  induction l with
  | nil => simp
  | cons x l ih =>
    rw [List.forall_mem_cons]
    cases hp : p x with
    | true =>
      rw [List.filter_cons_of_pos hp]
      cases hf : f x with
      | none =>
        rw [List.filterMap_cons_none hf, List.filterMap_cons_none hf, ih]
        simp
      | some y =>
        rw [List.filterMap_cons_some hf, List.filterMap_cons_some hf, List.cons_inj_right, ih]
        simp
    | false =>
      rw [List.filter_cons_of_neg (by simp [hp])]
      cases hf : f x with
      | none =>
        rw [List.filterMap_cons_none hf, ih]
        simp
      | some y =>
        rw [List.filterMap_cons_some hf]
        refine iff_of_false (fun h => ?_) (by simp)
        have hshort := ((List.filter_sublist (p := p) (l := l)).filterMap f).length_le
        rw [← h, List.length_cons] at hshort
        omega

/-- All data lines are reported. -/
theorem subscribeAll_lines (log : Log) :
    subscribeAll (log.lines 1) = (log.dataLines none).filterMap (readLine ·.2) :=
  filterMap_lines none 1 log

theorem filterMap_own_iff (programId : Key) (log : Log) :
    (log.dataLines none).filterMap (readLine ·.2) =
        ((log.dataLines none).filter (·.1 = some programId)).filterMap (readLine ·.2) ↔
      ∀ x ∈ log.dataLines none, x.1 ≠ some programId → readLine x.2 = none := by
  rw [filterMap_filter_eq_iff]
  simp only [decide_eq_false_iff_not, ne_eq]

theorem ReportsOwn.foreign {programId : Key} {log : Log} (h : ReportsOwn programId log) :
    ∀ x ∈ log.dataLines none, x.1 ≠ some programId → readLine x.2 = none :=
  (filterMap_own_iff programId log).1 ((subscribeAll_lines log).symm.trans h.all)

/-- The watcher takes every data line for one of the program. -/
theorem reportsOwn_iff (programId : Key) (log : Log) :
    ReportsOwn programId log ↔
      ∀ x ∈ log.dataLines none, x.1 ≠ some programId → readLine x.2 = none := by
  refine ⟨ReportsOwn.foreign, fun h => ?_⟩
  have hall := (subscribeAll_lines log).trans ((filterMap_own_iff programId log).2 h)
  exact ⟨hall, fun eventName => by rw [subscribe_eq, hall]⟩

end Reports

/-- A call of another program that logs the discriminator of `ConfigInitialized`. -/
def Sample.foreignLog : Log :=
  .call (.replicate 32 2)
    (.data (String.ofList (Base64.encode [80, 161, 12, 187, 94, 112, 50, 71])) .done) none .done

/-- It is reported. -/
theorem not_reportsOwn : ¬ ReportsOwn (.replicate 32 1) Sample.foreignLog := by
  intro h
  have hother : some (Vector.replicate 32 2) ≠ some (Vector.replicate 32 (1 : UInt8)) := by decide
  have hline : readLine (bytesLine [80, 161, 12, 187, 94, 112, 50, 71]) = none :=
    h.foreign _ List.mem_cons_self hother
  have hname : matchEventDiscriminator [80, 161, 12, 187, 94, 112, 50, 71] =
      some "ConfigInitialized" := by decide
  have hfields : eventFields "ConfigInitialized" =
      some [("admin", .publicKey), ("version", .u16), ("timestamp", .i64)] := by decide
  obtain ⟨record, hrecord⟩ := exists_decodeEvent hfields (by simp [IdlType.Supported]) []
  rw [readLine_bytesLine (by simp), hname] at hline
  simp [hrecord, Except.toOption] at hline

/-! ### Events of the program -/

section Arrival

variable [Web3] {Pubkey : Type} [KeyBytes Pubkey]

omit [Web3] in
/-- The discriminator is looked up in the IDL. -/
theorem matchEventDiscriminator_append {discriminator : Vector UInt8 8} {rest : List UInt8}
    {name : String} : matchEventDiscriminator (discriminator.toList ++ rest) = some name ↔
      ∃ ev ∈ idlEvents, ev.name = name ∧ ev.discriminator = discriminator.toList := by
  have hlong : ¬ (discriminator.toList ++ rest).length < 8 := by simp
  have htake : (discriminator.toList ++ rest).take 8 = discriminator.toList :=
    List.take_left' discriminator.length_toList
  have hfirst : ∀ ev ∈ idlEvents,
      (idlEvents.find? (·.discriminator = ev.discriminator)).map (·.name) = some ev.name := by
    decide +kernel
  rw [matchEventDiscriminator, if_neg hlong, htake]
  constructor
  · intro h
    obtain ⟨ev, hev, rfl⟩ := Option.map_eq_some_iff.1 h
    exact ⟨ev, List.mem_of_find?_eq_some hev, rfl, by simpa using List.find?_some hev⟩
  · rintro ⟨ev, hev, rfl, hdisc⟩
    rw [← hdisc]
    exact hfirst ev hev

/-- An event of the program arrives: the decoder returns its record, and every log with the event
reports it.  `discriminator` is what the program writes before an event of the name. -/
structure Arrives (discriminator : String → Vector UInt8 8) (event : ProgramEvent Pubkey) :
    Prop where
  decodes : decodeEvent event.name event.borsh = .ok event.record
  all : ∀ logs, bytesLine ((discriminator event.name).toList ++ event.borsh) ∈ logs →
    (event.name, event.record) ∈ subscribeAll logs
  one : ∀ logs, bytesLine ((discriminator event.name).toList ++ event.borsh) ∈ logs →
    event.record ∈ subscribe event.name logs

omit [Web3] in
/-- The decoder supports the fields of all events but one. -/
theorem supported_iff (event : ProgramEvent Pubkey) :
    (∀ f ∈ event.fields.map fun (name, value) => (name, value.type), f.2.Supported) ↔
      event.name ≠ "WithdrawExecuted" := by
  rcases event with event | event <;> cases event <;>
    simp [ProgramEvent.name, ProgramEvent.fields, Event.name, Event.fields, RegistryEvent.name,
      RegistryEvent.fields, FieldValue.type, FieldValue.ofKey, IdlType.Supported]

/-- The decoder undoes the encoding of these events. -/
theorem decodeEvent_borsh_iff (event : ProgramEvent Pubkey) :
    decodeEvent event.name event.borsh = .ok event.record ↔ event.name ≠ "WithdrawExecuted" := by
  rw [← supported_iff]
  constructor
  · intro h
    obtain ⟨fields, hfields, hsupported⟩ := exists_of_decodeEvent h
    rw [ProgramEvent.eventFields_eq, Option.some.injEq] at hfields
    rwa [hfields]
  · intro h
    have hdecode := decodeEvent_append event.eventFields_eq h event.encodesFields_event []
    rwa [List.append_nil] at hdecode

variable {discriminator : String → Vector UInt8 8} {event : ProgramEvent Pubkey}

theorem readLine_event :
    readLine (bytesLine ((discriminator event.name).toList ++ event.borsh)) = do
      let name ← matchEventDiscriminator ((discriminator event.name).toList ++ event.borsh)
      let record ← (decodeEvent name event.borsh).toOption
      return (name, record) := by
  have hne : (discriminator event.name).toList ++ event.borsh ≠ [] := by
    intro h
    simpa using congrArg List.length h
  rw [readLine_bytesLine hne, List.drop_left' (discriminator event.name).length_toList]

/-- What is reported is known to the IDL. -/
theorem Arrives.known (h : Arrives discriminator event) : ∃ ev ∈ idlEvents,
    ev.name = event.name ∧ ev.discriminator = (discriminator event.name).toList := by
  have hmem := h.all [_] List.mem_cons_self
  simp only [subscribeAll, List.mem_filterMap, List.mem_singleton, exists_eq_left, readLine_event,
    Option.bind_eq_bind, Option.bind_eq_some_iff, pure, Option.some.injEq, Prod.mk.injEq] at hmem
  obtain ⟨name, hname, record, -, rfl, rfl⟩ := hmem
  exact matchEventDiscriminator_append.1 hname

/-- An event arrives unless it has a `bool` field or a discriminator of its own. -/
theorem arrives_iff (discriminator : String → Vector UInt8 8) (event : ProgramEvent Pubkey) :
    Arrives discriminator event ↔ event.name ≠ "WithdrawExecuted" ∧ ∃ ev ∈ idlEvents,
      ev.name = event.name ∧ ev.discriminator = (discriminator event.name).toList := by
  refine ⟨fun h => ⟨(decodeEvent_borsh_iff event).1 h.decodes, h.known⟩, ?_⟩
  rintro ⟨hname, hknown⟩
  have hdecodes := (decodeEvent_borsh_iff event).2 hname
  have hmatch : matchEventDiscriminator ((discriminator event.name).toList ++ event.borsh) =
      some event.name := matchEventDiscriminator_append.2 hknown
  have hread : readLine (bytesLine ((discriminator event.name).toList ++ event.borsh)) =
      some (event.name, event.record) := by
    rw [readLine_event, hmatch]
    simp [hdecodes, Except.toOption]
  have hall : ∀ logs, bytesLine ((discriminator event.name).toList ++ event.borsh) ∈ logs →
      (event.name, event.record) ∈ subscribeAll logs :=
    fun logs hmem => List.mem_filterMap.2 ⟨_, hmem, hread⟩
  refine ⟨hdecodes, hall, fun logs hmem => ?_⟩
  rw [subscribe_eq]
  exact List.mem_filterMap.2 ⟨_, hall logs hmem, by simp [select]⟩

end Arrival

/-- A withdrawal is lost even with the discriminator of the IDL, and an initialisation with the one
that Anchor computes, the first bytes of the SHA-256 digest of `event:ConfigInitialized`. -/
theorem not_arrives :
    ¬ Arrives (fun _ => #v[184, 44, 72, 182, 231, 10, 199, 3])
        (.inr (.withdrawExecuted (Sym.wallet 1) (Sym.wallet 2) (Sym.wallet 3) 1000 true 0)) ∧
      ¬ Arrives (fun _ => #v[181, 49, 200, 156, 19, 167, 178, 91])
        (.inl (.configInitialized (Sym.wallet 1) 0x0401 0)) :=
  ⟨fun h => (decodeEvent_borsh_iff _).1 h.decodes rfl, fun h => absurd h.known (by decide)⟩

end Sdk

end Ghos
