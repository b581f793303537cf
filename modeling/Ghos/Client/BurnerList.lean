import Ghos.Burner.Expiry
import Ghos.Client.AccountData
import Ghos.Client.AuditorKeys

/-!
# The burner slots that `ghos burner list` shows

`_run_list` of `cli/ghos_cli/commands/burn.py` asks for the accounts of the nonces below 64, and
makes a row of each that it finds.  `create_burner` takes every nonce of 64 bits, and the SDK draws
one at random.

* `runList_listsEntries_iff`: the entries of an owner in one state;
* `burnerList_complete_iff`: the list in the states of a run, and what the run must create.
-/

namespace Ghos

open Sdk (KeyBytes)

namespace Cli

/-! ### The command -/

/-- What `_run_list` raises once it is connected. -/
inductive ListError
  | valueError (e : ValueError)
  | parse (e : ParseError)
  /-- What `datetime.fromtimestamp` raises. -/
  | yearOutOfRange
  deriving DecidableEq

/-- What the command asks of the machine it runs on. -/
structure LocalTime where
  /-- `datetime.fromtimestamp(seconds, tz=timezone.utc).strftime(fmt)` -/
  strftime : ℤ → String
  /-- `int(time.time())`, when the account of a nonce is there -/
  now : ℕ → ℤ

/-- The last second of the year 9999. -/
def maxTimestamp : ℤ := 253402300799

/-- Convert a unix timestamp into a UTC-formatted string. -/
def formatTimestamp (time : LocalTime) (seconds : ℤ) : Except ListError String :=
  if seconds ≤ 0 then return "never"
  else if seconds ≤ maxTimestamp then return time.strftime seconds
  else throw .yearOutOfRange

/-- Abbreviate a base58 public key for table display. -/
def shortPubkey (pubkey : String) (left right : ℕ) : String :=
  if pubkey.length ≤ left + right + 3 then pubkey
  else
    let kept := if right = 0 then pubkey.toList else pubkey.toList.drop (pubkey.length - right)
    String.ofList (pubkey.toList.take left) ++ "..." ++ String.ofList kept

inductive BurnerStatus
  | revoked
  | expired
  | active
  deriving DecidableEq

/-- `_burner_status`. -/
def burnerStatus (parsed : ParsedBurnerAccount) (now : ℤ) : BurnerStatus :=
  if parsed.revoked then .revoked else if parsed.expiresAt ≤ now then .expired else .active

/-- The columns `nonce`, `pda`, `created`, `expires`, `status` and `uses`. -/
structure BurnerRow where
  nonce : ℕ
  pda : String
  created : String
  expires : String
  status : BurnerStatus
  uses : ℕ
  deriving DecidableEq

section Command

variable {Pubkey : Type} [AddressSpace Pubkey] [KeyBytes Pubkey] (time : LocalTime)

def burnerRow (nonce : ℕ) (addr : Pubkey) (data : List UInt8) : Except ListError BurnerRow := do
  let parsed ← (parseBurnerAccount data).mapError .parse
  let status := burnerStatus parsed (time.now nonce)
  let created ← formatTimestamp time parsed.createdAt
  let expires ← formatTimestamp time parsed.expiresAt
  return {
    nonce
    pda := shortPubkey (base58Text (keyBytes addr)) 6 6
    created
    expires
    status
    uses := parsed.usageCount }

variable (getAccount : Pubkey → Option (List UInt8)) (owner : Pubkey)

/-- One turn of the loop: a row, if there is an account. -/
def burnerSlot (nonce : ℕ) : Except ListError (Option BurnerRow) := do
  let seeds ← (burnerSeeds owner nonce).mapError .valueError
  let addr := (findProgramAddress seeds).1
  match getAccount addr with
  | none => return none
  | some data => do
    let row ← burnerRow time nonce addr data
    return some row

/-- The loop over the nonces. -/
def scanNonces {Row : Type} (slot : ℕ → Except ListError (Option Row)) :
    List ℕ → Except ListError (List Row)
  | [] => return []
  | nonce :: nonces => do
    let row ← slot nonce
    let rows ← scanNonces slot nonces
    return row.toList ++ rows

/-- The rows of `ghos burner list`. -/
def runList : Except ListError (List BurnerRow) :=
  scanNonces (burnerSlot time getAccount owner) (List.range burnerRegistryCapPerOwner.toNat)

end Command

/-! ### The loop -/

section Scan

variable {Row : Type} {slot : ℕ → Except ListError (Option Row)} {nonces : List ℕ} {rows : List Row}

/-- The row of a turn. -/
def foundRow : Except ListError (Option Row) → Option Row
  | .ok row => row
  | .error _ => none

theorem scanNonces_eq_ok :
    scanNonces slot nonces = .ok rows ↔
      (∀ n ∈ nonces, ∃ row, slot n = .ok row) ∧
        nonces.filterMap (fun n => foundRow (slot n)) = rows := by
  induction nonces generalizing rows with
  | nil => simp [scanNonces, pure, Except.pure]
  | cons n nonces ih =>
    simp only [scanNonces, except_bind_eq_ok, except_pure_eq_ok, ih, List.forall_mem_cons]
    constructor
    · rintro ⟨row, hrow, _, ⟨hslots, rfl⟩, rfl⟩
      refine ⟨⟨⟨row, hrow⟩, hslots⟩, ?_⟩
      rw [List.filterMap_cons, hrow]
      cases row <;> rfl
    · rintro ⟨⟨⟨row, hrow⟩, hslots⟩, rfl⟩
      refine ⟨row, hrow, _, ⟨hslots, rfl⟩, ?_⟩
      rw [List.filterMap_cons, hrow]
      cases row <;> rfl

end Scan

/-! ### The accounts of a chain -/

section Slots

variable {Pubkey Digest : Type} [AddressSpace Pubkey] [KeyBytes Pubkey] (time : LocalTime)
  (discriminator : Vector UInt8 8)

/-- The data of the account at an address, where `others` are not burner entries. -/
def chainData (c : Chain Pubkey Digest) (others : Pubkey → Option (List UInt8)) (a : Pubkey) :
    Option (List UInt8) :=
  match c.burners a with
  | some entry => some (accountData discriminator entry.borsh)
  | none => others a

/-- The times of the entry have a year. -/
def Showable (entry : BurnerAccount Pubkey) : Prop :=
  entry.createdAt.toInt ≤ maxTimestamp ∧ entry.expiresAt.toInt ≤ maxTimestamp

def timestampText (seconds : ℤ) : String := if seconds ≤ 0 then "never" else time.strftime seconds

/-- The row of an entry at its address. -/
def BurnerRow.ofEntry (p : Pubkey × BurnerAccount Pubkey) : BurnerRow where
  nonce := p.2.nonce.toNat
  pda := shortPubkey (base58Text (keyBytes p.1)) 6 6
  created := timestampText time p.2.createdAt.toInt
  expires := timestampText time p.2.expiresAt.toInt
  status := burnerStatus (.ofAccount p.2) (time.now p.2.nonce.toNat)
  uses := p.2.usageCount.toNat

variable {time discriminator} {c : Chain Pubkey Digest} {others : Pubkey → Option (List UInt8)}
  {owner : Pubkey} {nonce : UInt64} {getAccount : Pubkey → Option (List UInt8)} {n : ℕ}
  {row : Option BurnerRow}

theorem formatTimestamp_eq_ok {seconds : ℤ} {text : String} :
    formatTimestamp time seconds = .ok text ↔
      seconds ≤ maxTimestamp ∧ timestampText time seconds = text := by
  have hmax : (0 : ℤ) ≤ maxTimestamp := by decide
  unfold formatTimestamp timestampText
  split_ifs with hnever hyear
  · simp [pure, Except.pure, hnever.trans hmax]
  · simp [pure, Except.pure, hyear]
  · simp [hyear]

theorem burnerSlot_eq (getAccount : Pubkey → Option (List UInt8)) (owner : Pubkey)
    (nonce : UInt64) : burnerSlot time getAccount owner nonce.toNat =
      match getAccount (burnerPda owner nonce) with
      | none => .ok none
      | some data => (burnerRow time nonce.toNat (burnerPda owner nonce) data).map some := by
  have haddr : (findProgramAddress [.bytes burnerSeed, .key owner, .bytes nonce.toLeBytes]).1 =
      burnerPda owner nonce := rfl
  rw [burnerSlot, burnerSeeds_eq_ok]
  show (match getAccount (findProgramAddress _).1 with | none => _ | some data => _) = _
  rw [haddr]
  cases getAccount (burnerPda owner nonce) with
  | none => rfl
  | some data =>
    dsimp only
    cases burnerRow time nonce.toNat (burnerPda owner nonce) data <;> rfl

omit [AddressSpace Pubkey] in
/-- A row has the nonce of its turn. -/
theorem burnerRow_nonce {addr : Pubkey} {data : List UInt8} {row : BurnerRow}
    (h : burnerRow time n addr data = .ok row) : row.nonce = n := by
  simp only [burnerRow, except_bind_eq_ok, except_pure_eq_ok] at h
  obtain ⟨parsed, -, created, -, expires, -, rfl⟩ := h
  rfl

omit [AddressSpace Pubkey] in
theorem burnerRow_entry {entry : BurnerAccount Pubkey} {a : Pubkey} {row : BurnerRow} :
    burnerRow time entry.nonce.toNat a (accountData discriminator entry.borsh) = .ok row ↔
      Showable entry ∧ .ofEntry time (a, entry) = row := by
  have hparse : parseBurnerAccount (accountData discriminator entry.borsh) =
      .ok (.ofAccount entry) := by
    have hparses := burnerAccount_inverts.parses discriminator entry []
    rwa [List.append_nil] at hparses
  simp only [burnerRow, hparse, except_bind_eq_ok, mapError_eq_ok, formatTimestamp_eq_ok,
    except_pure_eq_ok, Except.ok.injEq, exists_eq_left', Showable]
  constructor
  · rintro ⟨_, ⟨hcreated, rfl⟩, _, ⟨hexpires, rfl⟩, rfl⟩
    exact ⟨⟨hcreated, hexpires⟩, rfl⟩
  · rintro ⟨⟨hcreated, hexpires⟩, rfl⟩
    exact ⟨_, ⟨hcreated, rfl⟩, _, ⟨hexpires, rfl⟩, rfl⟩

end Slots

/-! ### The list in one state -/

section Lists

variable {Pubkey Digest : Type} [AddressSpace Pubkey] [KeyBytes Pubkey]

section Statement

variable (time : LocalTime) (discriminator : Vector UInt8 8) (c : Chain Pubkey Digest)
  (others : Pubkey → Option (List UInt8)) (owner : Pubkey)

/-- The rows are those of the entries of the owner, one each. -/
def ListsEntries : Prop :=
  ∃ entries : List (Pubkey × BurnerAccount Pubkey), entries.Nodup ∧
    (∀ a e, (a, e) ∈ entries ↔ c.burners a = some e ∧ e.owner = owner) ∧
    runList time (chainData discriminator c others) owner = .ok (entries.map (.ofEntry time))

/-- The nonce is one of those that the command looks at. -/
def Scanned (nonce : UInt64) : Prop := (nonce.toNat : ℤ) < burnerRegistryCapPerOwner

/-- Where the command finds no entry of the owner there is no account. -/
def Alone : Prop :=
  ∀ nonce, Scanned nonce → c.burners (burnerPda owner nonce) = none →
    others (burnerPda owner nonce) = none

/-- The command sees the entries of the owner, and nothing else. -/
structure Listable : Prop where
  scanned : ∀ a e, c.burners a = some e → e.owner = owner → Scanned e.nonce
  showable : ∀ a e, c.burners a = some e → e.owner = owner → Showable e
  alone : Alone c others owner

end Statement

variable {time : LocalTime} {discriminator : Vector UInt8 8} {c : Chain Pubkey Digest}
  {others : Pubkey → Option (List UInt8)} {owner a : Pubkey} {nonce : UInt64} {n : ℕ}
  {e : BurnerAccount Pubkey} {row : Option BurnerRow}

theorem scanned_iff : Scanned nonce ↔ nonce.toNat < 64 := by
  unfold Scanned burnerRegistryCapPerOwner
  omega

/-- The nonces of the loop, as the program has them. -/
theorem exists_nonce (h : n ∈ List.range burnerRegistryCapPerOwner.toNat) :
    ∃ nonce : UInt64, Scanned nonce ∧ nonce.toNat = n := by
  have hn : n < 64 := List.mem_range.1 h
  have htoNat : (UInt64.ofNat n).toNat = n :=
    UInt64.toNat_ofNat_of_lt' (hn.trans (by decide))
  exact ⟨.ofNat n, scanned_iff.2 (by omega), htoNat⟩

theorem mem_range_of_scanned (h : Scanned nonce) :
    nonce.toNat ∈ List.range burnerRegistryCapPerOwner.toNat :=
  List.mem_range.2 (scanned_iff.1 h)

/-- The entry of a nonce. -/
def entryAt (c : Chain Pubkey Digest) (owner : Pubkey) (nonce : UInt64) :
    Option (Pubkey × BurnerAccount Pubkey) :=
  (c.burners (burnerPda owner nonce)).map fun e => (burnerPda owner nonce, e)

omit [KeyBytes Pubkey] in
theorem entryAt_eq_some (hc : Registered c) : entryAt c owner nonce = some (a, e) ↔
    c.burners a = some e ∧ e.owner = owner ∧ e.nonce = nonce := by
  rw [entryAt, Option.map_eq_some_iff]
  constructor
  · rintro ⟨e', he', heq⟩
    obtain ⟨rfl, rfl⟩ := Prod.mk.inj heq
    exact ⟨he', hc.burnerPda_entry he'⟩
  · rintro ⟨he, rfl, rfl⟩
    rw [hc.burnerPda_eq he]
    exact ⟨e, he, rfl⟩

/-- The turn of a nonce with an entry. -/
theorem burnerSlot_entry (hc : Registered c) (he : c.burners (burnerPda owner nonce) = some e) :
    burnerSlot time (chainData discriminator c others) owner nonce.toNat = .ok row ↔
      Showable e ∧ some (.ofEntry time (burnerPda owner nonce, e)) = row := by
  obtain ⟨rfl, rfl⟩ := hc.burnerPda_entry he
  have hdata : chainData discriminator c others (burnerPda e.owner e.nonce) =
      some (accountData discriminator e.borsh) := by
    rw [chainData, he]
  rw [burnerSlot_eq, hdata]
  dsimp only
  cases hrow : burnerRow time e.nonce.toNat (burnerPda e.owner e.nonce)
      (accountData discriminator e.borsh) with
  | ok row' =>
    obtain ⟨hshowable, rfl⟩ := burnerRow_entry.1 hrow
    simp [Except.map, hshowable]
  | error err =>
    have hnot : ¬ Showable e := by
      intro hshowable
      rw [burnerRow_entry.2 ⟨hshowable, rfl⟩] at hrow
      cases hrow
    simp [Except.map, hnot]

/-- The turn of a nonce without one. -/
theorem burnerSlot_none (he : c.burners (burnerPda owner nonce) = none) :
    burnerSlot time (chainData discriminator c others) owner nonce.toNat =
      match others (burnerPda owner nonce) with
      | none => .ok none
      | some data => (burnerRow time nonce.toNat (burnerPda owner nonce) data).map some := by
  rw [burnerSlot_eq, chainData, he]

theorem burnerSlot_nonce {row : BurnerRow} {getAccount : Pubkey → Option (List UInt8)}
    (h : burnerSlot time getAccount owner nonce.toNat = .ok (some row)) :
    row.nonce = nonce.toNat := by
  rw [burnerSlot_eq] at h
  cases hdata : getAccount (burnerPda owner nonce) with
  | none =>
    rw [hdata] at h
    cases h
  | some data =>
    rw [hdata] at h
    dsimp only at h
    cases hrow : burnerRow time nonce.toNat (burnerPda owner nonce) data with
    | error err =>
      rw [hrow] at h
      cases h
    | ok row' =>
      rw [hrow] at h
      obtain rfl := Option.some.inj (Except.ok.inj h)
      exact burnerRow_nonce hrow

/-! #### Entries that are seen -/

theorem Listable.slot (hc : Registered c) (h : Listable c others owner) (hnonce : Scanned nonce) :
    burnerSlot time (chainData discriminator c others) owner nonce.toNat =
      .ok ((entryAt c owner nonce).map (.ofEntry time)) := by
  unfold entryAt
  cases he : c.burners (burnerPda owner nonce) with
  | none =>
    rw [burnerSlot_none he, h.alone nonce hnonce he]
    rfl
  | some e =>
    have howner := (hc.burnerPda_entry he).1
    exact (burnerSlot_entry hc he).2 ⟨h.showable _ e he howner, rfl⟩

/-- The nonces of the loop. -/
def loopNonces : List UInt64 := (List.range burnerRegistryCapPerOwner.toNat).map UInt64.ofNat

theorem mem_loopNonces : nonce ∈ loopNonces ↔ Scanned nonce := by
  rw [loopNonces, List.mem_map]
  constructor
  · rintro ⟨n, hn, rfl⟩
    obtain ⟨nonce, hnonce, rfl⟩ := exists_nonce hn
    rwa [UInt64.ofNat_toNat]
  · intro h
    exact ⟨nonce.toNat, mem_range_of_scanned h, UInt64.ofNat_toNat⟩

theorem nodup_loopNonces : loopNonces.Nodup := by
  refine List.nodup_range.map_on fun n hn m hm h => ?_
  obtain ⟨nonce, -, rfl⟩ := exists_nonce hn
  obtain ⟨nonce', -, rfl⟩ := exists_nonce hm
  rw [UInt64.ofNat_toNat, UInt64.ofNat_toNat] at h
  rw [h]

/-- The entries are listed in the order of their nonces. -/
theorem Listable.listsEntries (hc : Registered c) (h : Listable c others owner) :
    ListsEntries time discriminator c others owner := by
  refine ⟨loopNonces.filterMap (entryAt c owner), ?_, fun a e => ?_, ?_⟩
  · refine nodup_loopNonces.filterMap fun nonce nonce' p hp hp' => ?_
    exact ((entryAt_eq_some hc).1 hp).2.2.symm.trans ((entryAt_eq_some hc).1 hp').2.2
  · rw [List.mem_filterMap]
    simp only [entryAt_eq_some hc, mem_loopNonces]
    constructor
    · rintro ⟨nonce, -, he, howner, -⟩
      exact ⟨he, howner⟩
    · rintro ⟨he, howner⟩
      exact ⟨e.nonce, h.scanned a e he howner, he, howner, rfl⟩
  · rw [runList, scanNonces_eq_ok]
    refine ⟨fun n hn => ?_, ?_⟩
    · obtain ⟨nonce, hnonce, rfl⟩ := exists_nonce hn
      exact ⟨_, h.slot hc hnonce⟩
    · rw [List.map_filterMap, loopNonces, List.filterMap_map]
      refine List.filterMap_congr fun n hn => ?_
      obtain ⟨nonce, hnonce, rfl⟩ := exists_nonce hn
      rw [h.slot hc hnonce, Function.comp_apply, UInt64.ofNat_toNat]
      rfl

/-! #### What a complete list says -/

section Turns

variable {getAccount : Pubkey → Option (List UInt8)} {rows : List BurnerRow}

theorem exists_turn (h : runList time getAccount owner = .ok rows) (hnonce : Scanned nonce) :
    ∃ row, burnerSlot time getAccount owner nonce.toNat = .ok row :=
  (scanNonces_eq_ok.1 h).1 _ (mem_range_of_scanned hnonce)

/-- Each row comes from the turn of its nonce. -/
theorem mem_runList (h : runList time getAccount owner = .ok rows) {row : BurnerRow} :
    row ∈ rows ↔ ∃ nonce : UInt64, Scanned nonce ∧ row.nonce = nonce.toNat ∧
      burnerSlot time getAccount owner nonce.toNat = .ok (some row) := by
  obtain ⟨hslots, rfl⟩ := scanNonces_eq_ok.1 h
  rw [List.mem_filterMap]
  constructor
  · rintro ⟨n, hn, hfound⟩
    obtain ⟨nonce, hnonce, rfl⟩ := exists_nonce hn
    obtain ⟨found, hslot⟩ := hslots _ hn
    rw [hslot] at hfound
    obtain rfl : found = some row := hfound
    exact ⟨nonce, hnonce, burnerSlot_nonce hslot, hslot⟩
  · rintro ⟨nonce, hnonce, -, hslot⟩
    exact ⟨_, mem_range_of_scanned hnonce, by rw [hslot]; rfl⟩

end Turns

/-- An account that is no entry ends the command, or it makes a row. -/
theorem exists_row_of_other (hnone : c.burners (burnerPda owner nonce) = none)
    (hother : others (burnerPda owner nonce) ≠ none)
    (hslot : burnerSlot time (chainData discriminator c others) owner nonce.toNat = .ok row) :
    ∃ found, row = some found := by
  obtain ⟨data, hdata⟩ := Option.ne_none_iff_exists'.1 hother
  rw [burnerSlot_none hnone, hdata] at hslot
  dsimp only at hslot
  cases hrow : burnerRow time nonce.toNat (burnerPda owner nonce) data with
  | error err =>
    rw [hrow] at hslot
    cases hslot
  | ok found =>
    rw [hrow] at hslot
    exact ⟨found, (Except.ok.inj hslot).symm⟩

theorem ListsEntries.listable (hc : Registered c)
    (h : ListsEntries time discriminator c others owner) : Listable c others owner := by
  obtain ⟨entries, -, hentries, hlist⟩ := h
  have hscanned : ∀ a e, c.burners a = some e → e.owner = owner → Scanned e.nonce := by
    intro a e he howner
    obtain ⟨nonce, hnonce, heq, -⟩ :=
      (mem_runList hlist).1 (List.mem_map_of_mem ((hentries a e).2 ⟨he, howner⟩))
    have heq : e.nonce.toNat = nonce.toNat := heq
    rwa [UInt64.toNat_inj.1 heq]
  refine ⟨hscanned, fun a e he howner => ?_, fun nonce hnonce hnone => ?_⟩
  · obtain ⟨row, hslot⟩ := exists_turn hlist (hscanned a e he howner)
    have hpda := hc.burnerPda_eq he
    rw [howner] at hpda
    rw [← hpda] at he
    exact ((burnerSlot_entry hc he).1 hslot).1
  · by_contra hother
    obtain ⟨row, hslot⟩ := exists_turn hlist hnonce
    obtain ⟨found, rfl⟩ := exists_row_of_other hnone hother hslot
    -- the row would have to be of an entry with the nonce
    have hfound := (mem_runList hlist).2 ⟨nonce, hnonce, burnerSlot_nonce hslot, hslot⟩
    obtain ⟨⟨a, e⟩, hp, rfl⟩ := List.mem_map.1 hfound
    obtain ⟨he, howner⟩ := (hentries a e).1 hp
    have heq : e.nonce.toNat = nonce.toNat := burnerSlot_nonce hslot
    have hpda := hc.burnerPda_eq he
    rw [howner, UInt64.toNat_inj.1 heq] at hpda
    rw [hpda, he] at hnone
    cases hnone

/-- In one state, the list is complete exactly if the entries can be seen. -/
theorem runList_listsEntries_iff (hc : Registered c) :
    ListsEntries time discriminator c others owner ↔ Listable c others owner :=
  ⟨ListsEntries.listable hc, Listable.listsEntries hc⟩

end Lists

/-! ### The list along a run -/

section Runs

variable {Pubkey Digest World : Type} [DecidableEq Pubkey] [DecidableEq Digest]
  [AddressSpace Pubkey] [Sha256 Digest] [External Pubkey World] [KeyBytes Pubkey]
  {run : List (Call Pubkey Digest World)} {others : ℕ → Pubkey → Option (List UInt8)}
  {owner : Pubkey}

/-- Each accepted `create_burner` of the owner takes a nonce that the command looks at, and expires
in a year that can be shown. -/
def CreatesSeen (run : List (Call Pubkey Digest World)) (owner : Pubkey) : Prop :=
  ∀ i t accounts nonce ttl, program.AcceptedAt run i t →
    t.entrypoint = .createBurner accounts nonce ttl → accounts.owner = owner →
    Scanned nonce ∧ t.now.toInt ≤ maxTimestamp ∧ (t.now.saturatingAdd ttl).toInt ≤ maxTimestamp

omit [DecidableEq Pubkey] [KeyBytes Pubkey] in
theorem showable_entry {accounts : CreateBurner Pubkey} {now ttl : Int64} {nonce : UInt64} :
    Showable (accounts.entry now nonce ttl) ↔
      now.toInt ≤ maxTimestamp ∧ (now.saturatingAdd ttl).toInt ≤ maxTimestamp :=
  Iff.rfl

omit [KeyBytes Pubkey] in
theorem listable_stateAt_iff :
    (∀ n, Listable (program.stateAt run n) (others n) owner) ↔
      CreatesSeen run owner ∧ ∀ n, Alone (program.stateAt run n) (others n) owner := by
  constructor
  · intro h
    refine ⟨fun i t accounts nonce ttl ht hp howner => ?_, fun n => (h n).alone⟩
    have heff := callEffect_of_acceptedAt ht
    rw [hp] at heff
    obtain ⟨config, -, hnew⟩ := heff.of_createBurner
    have he : (program.stateAt run (i + 1)).burners accounts.burnerEntry =
        some (accounts.entry t.now nonce ttl) := by
      rw [hnew, Store.set_self]
    have hscanned := (h (i + 1)).scanned _ _ he howner
    have hshowable := (h (i + 1)).showable _ _ he howner
    exact ⟨hscanned, showable_entry.1 hshowable⟩
  · rintro ⟨hcreates, halone⟩ n
    have hseen : ∀ a e, (program.stateAt run n).burners a = some e → e.owner = owner →
        Scanned e.nonce ∧ Showable e := by
      intro a e he howner
      obtain ⟨i, hi⟩ := exists_stands he
      obtain ⟨t, accounts, nonce, ttl, ht, hp, haccounts, -, -, hentry⟩ := hi.entry
      rw [hentry n hi.lt le_rfl] at he
      obtain rfl := Option.some.inj he
      obtain ⟨hscanned, htimes⟩ := hcreates i t accounts nonce ttl ht hp howner
      exact ⟨hscanned, showable_entry.2 htimes⟩
    exact ⟨fun a e he howner => (hseen a e he howner).1,
      fun a e he howner => (hseen a e he howner).2, halone n⟩

/-- A run shows complete lists exactly if its owner creates entries with the first 64 nonces, and
nobody else's account is at one of their addresses. -/
theorem burnerList_complete_iff (time : ℕ → LocalTime) (discriminator : Vector UInt8 8)
    (run : List (Call Pubkey Digest World)) (others : ℕ → Pubkey → Option (List UInt8))
    (owner : Pubkey) :
    (∀ n, ListsEntries (time n) discriminator (program.stateAt run n) (others n) owner ↔
      Listable (program.stateAt run n) (others n) owner) ∧
    ((∀ n, ListsEntries (time n) discriminator (program.stateAt run n) (others n) owner) ↔
      CreatesSeen run owner ∧ ∀ n, Alone (program.stateAt run n) (others n) owner) := by
  have hstate : ∀ n, ListsEntries (time n) discriminator (program.stateAt run n) (others n) owner ↔
      Listable (program.stateAt run n) (others n) owner := fun n =>
    runList_listsEntries_iff (registered_of_reachable (Machine.reachable_stateAt run n))
  refine ⟨hstate, ?_⟩
  simp only [hstate]
  exact listable_stateAt_iff

end Runs

/-- A clock at the epoch. -/
def Sample.time : LocalTime where
  strftime seconds := toString seconds
  now _ := 0

/-- The host registers a burner with the nonce 64. -/
def Sample.lateNonce : List (Call Sym (List UInt8) Unit) :=
  [(initializeBy Sample.admin 0).toCall (),
    createBurnerBy Sample.host Sample.mint 64 60 2 ()]

/-- The list is empty all the same. -/
theorem not_burnerList_complete :
    ((program.stateAt Sample.lateNonce 2).burners (burnerPda Sample.host 64)).isSome ∧
      runList Sample.time (chainData (.replicate 8 0) (program.stateAt Sample.lateNonce 2)
        fun _ => none) Sample.host = .ok [] ∧
      ¬ ListsEntries Sample.time (.replicate 8 0) (program.stateAt Sample.lateNonce 2)
        (fun _ => none) Sample.host := by
  obtain ⟨e, he, howner, hnonce⟩ :
      ∃ e ∈ (program.stateAt Sample.lateNonce 2).burners (burnerPda Sample.host 64),
        e.owner = Sample.host ∧ e.nonce = 64 := by
    decide +kernel
  refine ⟨by rw [he]; rfl, by decide +kernel, fun h => ?_⟩
  have hreachable : program.Reachable (program.stateAt Sample.lateNonce 2) :=
    Machine.reachable_stateAt _ _
  have hlistable := (runList_listsEntries_iff (registered_of_reachable hreachable)).1 h
  have hscanned := hlistable.scanned _ _ he howner
  rw [hnonce] at hscanned
  exact absurd (scanned_iff.1 hscanned) (by decide)

end Cli

end Ghos
