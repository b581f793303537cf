import Ghos.Lib.Bookkeeping
import Ghos.Program.CallRequests

/-!
# The program among other programs

The runtime interleaves the calls of the program with the instructions of other programs, and packs
both into transactions that take effect together or not at all.

* `Turn`, `shared`: one instruction, on the chain and the state of the other programs;
* `TokenLaws`: what Token-2022 does with the balances when the program calls it;
* `call_posting`: each call moves one amount at most, out of an account whose owner has signed;
* `unsigned_funds_kept`: who signs nothing keeps his tokens;
* `supply_logged`: the log accounts for every token that is shielded or withdrawn.
-/

namespace Ghos

/-! ### Turns and transactions -/

/-- An instruction of a transaction: a call of the program, or what another program does. -/
inductive Turn (Pubkey Digest World : Type)
  | call (now : Int64) (signers : List Pubkey) (entrypoint : Entrypoint Pubkey Digest)
  | foreign (effect : World → Except UInt64 World)

section Shared

variable {Pubkey Digest World : Type} [DecidableEq Pubkey] [DecidableEq Digest]
  [AddressSpace Pubkey] [Sha256 Digest] [External Pubkey World]

/-- One turn.  A call finds the other programs as the turns before it have left them. -/
def Turn.run (s : Chain Pubkey Digest × World) :
    Turn Pubkey Digest World →
      Outcome ((Chain Pubkey Digest × World) × Option (Event Pubkey Digest ⊕ RegistryEvent Pubkey))
  | .call now signers entrypoint => do
    let (c, event, world) ← program.step s.1 ⟨now, signers, s.2, entrypoint⟩
    return ((c, world), some event)
  | .foreign effect => do
    let world ← (effect s.2).mapError .callee
    return ((s.1, world), none)

/-- The program and the other programs, from a state of theirs on. -/
def shared (world : World) : Machine (Chain Pubkey Digest × World) (Turn Pubkey Digest World)
    Failure (Option (Event Pubkey Digest ⊕ RegistryEvent Pubkey)) where
  init := (program.init, world)
  step := Turn.run

variable {w : World} {s s' : Chain Pubkey Digest × World}
  {o : Option (Event Pubkey Digest ⊕ RegistryEvent Pubkey)} {now : Int64} {signers : List Pubkey}
  {entrypoint : Entrypoint Pubkey Digest} {effect : World → Except UInt64 World}

theorem shared_call_eq_ok :
    (shared w).step s (.call now signers entrypoint) = .ok (s', o) ↔
      ∃ event, program.step s.1 ⟨now, signers, s.2, entrypoint⟩ = .ok (s'.1, event, s'.2) ∧
        o = some event := by
  simp only [shared, Turn.run, Outcome.bind_eq_ok, Outcome.pure_eq_ok, Prod.exists, Prod.ext_iff]
  constructor
  · rintro ⟨c, event, world, h, ⟨rfl, rfl⟩, rfl⟩
    exact ⟨event, h, rfl⟩
  · rintro ⟨event, h, rfl⟩
    exact ⟨_, event, _, h, ⟨rfl, rfl⟩, rfl⟩

theorem shared_foreign_eq_ok :
    (shared w).step s (.foreign effect) = .ok (s', o) ↔
      effect s.2 = .ok s'.2 ∧ s'.1 = s.1 ∧ o = none := by
  simp only [shared, Turn.run, Outcome.bind_eq_ok, Outcome.pure_eq_ok, mapError_eq_ok,
    Prod.ext_iff]
  constructor
  · rintro ⟨world, h, ⟨hc, rfl⟩, ho⟩
    exact ⟨h, hc.symm, ho.symm⟩
  · rintro ⟨h, hc, ho⟩
    exact ⟨_, h, ⟨hc.symm, rfl⟩, ho.symm⟩

/-- The chain moves as in a run of the program alone. -/
theorem sharedSimulation (w : World) :
    Machine.Simulation (shared w : Machine (Chain Pubkey Digest × World) _ _ _) program Prod.fst where
  init := rfl
  step s t s' o h := by
    cases t with
    | call now signers entrypoint =>
      obtain ⟨event, h, -⟩ := shared_call_eq_ok.1 h
      exact .inr ⟨_, _, h⟩
    | foreign effect => exact .inl (shared_foreign_eq_ok.1 h).2.1

/-- Whatever the transactions and the other programs in them, the chain is one that the program
reaches. -/
theorem reachable_of_transactions {s : Chain Pubkey Digest × World}
    (h : (shared w).atomic.Reachable s) : program.Reachable s.1 :=
  (sharedSimulation w).reachable (Machine.reachable_of_atomic h)

end Shared

/-! ### Balances -/

/-- The balances of a token account: the one in plain sight and the two behind ciphertexts. -/
inductive Pocket
  | plain
  | pending
  | available
  deriving DecidableEq

section Readings

variable {Pubkey Digest : Type}

/-- The token accounts that an entry point names. -/
def Entrypoint.tokenAccounts : Entrypoint Pubkey Digest → List Pubkey
  | .shield accounts _ => [accounts.confidentialAta]
  | .applyPending accounts _ _ => [accounts.confidentialAta]
  | .confidentialTransfer accounts _ _ => [accounts.sourceAccount, accounts.destinationAccount]
  | .withdraw accounts _ _ => [accounts.confidentialAta]
  | _ => []

variable [DecidableEq Pubkey]

/-- What an event says was shielded of a mint. -/
def shielded (mint : Pubkey) : Event Pubkey Digest ⊕ RegistryEvent Pubkey → ℕ
  | .inr (.shieldExecuted _ m _ amount _) => if m = mint then amount.toNat else 0
  | _ => 0

/-- What an event says was withdrawn of a mint. -/
def withdrawn (mint : Pubkey) : Event Pubkey Digest ⊕ RegistryEvent Pubkey → ℕ
  | .inr (.withdrawExecuted _ m _ amount _ _) => if m = mint then amount.toNat else 0
  | _ => 0

end Readings

variable {Pubkey Digest World : Type} [External Pubkey World]

/-- The mint and the owner of a token account. -/
def party (world : World) (a : Pubkey) : Option (Pubkey × Pubkey) :=
  (unpackAccount world a).map fun state => (state.mint, state.owner)

variable [DecidableEq Pubkey]

/-- What the other programs do with `book`, the balances in the clear, when the program calls them.
The amounts of a transfer and of a pending balance are behind ciphertexts. -/
structure TokenLaws (book : World → Pubkey × Pocket → ℕ) : Prop where
  parties : ∀ {w w' : World} {ix : Cpi Pubkey}, invoke w ix = .ok w' →
    ∀ a : Pubkey, party w' a = party w a
  deposit : ∀ {w w' : World} {account mint owner : Pubkey} {amount decimals},
    invoke w (.deposit account mint owner amount decimals) = .ok w' →
      Moves (book w) (book w') (account, .plain) (account, .pending) amount.toNat
  applyPendingBalance : ∀ {w w' : World} {account owner : Pubkey} {counter balance},
    invoke w (.applyPendingBalance account owner counter balance) = .ok w' →
      ∃ x, Moves (book w) (book w') (account, .pending) (account, .available) x
  withdraw : ∀ {w w' : World} {account mint owner : Pubkey} {amount decimals balance equality
      range}, invoke w (.withdraw account mint owner amount decimals balance equality range) =
    .ok w' → Moves (book w) (book w') (account, .available) (account, .plain) amount.toNat
  transfer : ∀ {w w' : World} {source mint destination owner equality validity range : Pubkey}
      {balance}, invoke w (.transfer source mint destination owner balance equality validity
    range) = .ok w' → ∃ x, Moves (book w) (book w') (source, .available) (destination, .pending) x
  zkTokenProof : ∀ {w w' : World} {context authority systemProgram : Pubkey} {data},
    invoke w (.zkTokenProof context authority systemProgram data) = .ok w' → book w' = book w

/-! ### What a call posts -/

/-- The posting of an accepted call, with the checks that stand before it. -/
inductive Posting (book : World → Pubkey × Pocket → ℕ) (w w' : World) (signers : List Pubkey) :
    Entrypoint Pubkey Digest → Event Pubkey Digest ⊕ RegistryEvent Pubkey → Prop
  | quiet {entrypoint event} (book_eq : book w' = book w)
      (event_eq : ∀ m, shielded m event = 0 ∧ withdrawn m event = 0) :
      Posting book w w' signers entrypoint event
  | shield {accounts amount now} (signer : accounts.owner ∈ signers)
      (account : IsConfidentialAccount w accounts.confidentialAta accounts.mint accounts.owner)
      (moves : Moves (book w) (book w') (accounts.confidentialAta, .plain)
        (accounts.confidentialAta, .pending) amount.toNat) :
      Posting book w w' signers (.shield accounts amount)
        (.inr (.shieldExecuted accounts.owner accounts.mint accounts.confidentialAta amount now))
  | applyPending {accounts counter balance event x} (signer : accounts.owner ∈ signers)
      (account : IsConfidentialAccount w accounts.confidentialAta accounts.mint accounts.owner)
      (moves : Moves (book w) (book w') (accounts.confidentialAta, .pending)
        (accounts.confidentialAta, .available) x)
      (event_eq : ∀ m, shielded m event = 0 ∧ withdrawn m event = 0) :
      Posting book w w' signers (.applyPending accounts counter balance) event
  | confidentialTransfer {accounts destinationOwner balance event x}
      (signer : accounts.sourceOwner ∈ signers)
      (source : IsConfidentialAccount w accounts.sourceAccount accounts.mint accounts.sourceOwner)
      (destination : IsConfidentialAccount w accounts.destinationAccount accounts.mint
        destinationOwner)
      (moves : Moves (book w) (book w') (accounts.sourceAccount, .available)
        (accounts.destinationAccount, .pending) x)
      (event_eq : ∀ m, shielded m event = 0 ∧ withdrawn m event = 0) :
      Posting book w w' signers (.confidentialTransfer accounts destinationOwner balance) event
  | withdraw {accounts amount balance cosigned now} (signer : accounts.owner ∈ signers)
      (account : IsConfidentialAccount w accounts.confidentialAta accounts.mint accounts.owner)
      (moves : Moves (book w) (book w') (accounts.confidentialAta, .available)
        (accounts.confidentialAta, .plain) amount.toNat) :
      Posting book w w' signers (.withdraw accounts amount balance)
        (.inr (.withdrawExecuted accounts.owner accounts.mint accounts.confidentialAta amount
          cosigned now))

variable {book : World → Pubkey × Pocket → ℕ} {w w' : World}

omit [DecidableEq Pubkey] in
theorem IsConfidentialAccount.party_eq {account mint owner : Pubkey}
    (h : IsConfidentialAccount w account mint owner) : party w account = some (mint, owner) := by
  obtain ⟨state, hstate, rfl, rfl, -⟩ := h.unpacked
  rw [party, hstate, Option.map_some]

section Calls

variable [DecidableEq Digest] [AddressSpace Pubkey] [Sha256 Digest] {c c' : Chain Pubkey Digest}
  {event : Event Pubkey Digest ⊕ RegistryEvent Pubkey} {t : Call Pubkey Digest World}

/-- An accepted call keeps the mint and the owner of every account, and posts what it should. -/
theorem call_posting (laws : TokenLaws book) (h : program.step c t = .ok (c', event, w')) :
    (∀ a : Pubkey, party w' a = party t.world a) ∧
      Posting book t.world w' t.signers t.entrypoint event := by
  obtain ⟨now, signers, world, entrypoint⟩ := t
  cases entrypoint <;>
    simp only [program, Call.dispatch, Outcome.bind_eq_ok, Outcome.lift_eq_ok, Prod.exists,
      Outcome.pure_eq_ok, Prod.mk.injEq] at h
  case core instruction =>
    obtain ⟨_, _, -, -, rfl, rfl⟩ := h
    exact ⟨fun _ => rfl, .quiet rfl fun _ => ⟨rfl, rfl⟩⟩
  case shield accounts amount =>
    obtain ⟨_, _, h, -, rfl, rfl⟩ := h
    obtain ⟨_, _, ha, rfl⟩ := shield_eq_ok.1 h
    exact ⟨laws.parties ha.deposited, .shield ha.signer ha.account (laws.deposit ha.deposited)⟩
  case applyPending accounts counter balance =>
    obtain ⟨_, _, h, -, rfl, rfl⟩ := h
    obtain ⟨_, ha, rfl⟩ := applyPending_eq_ok.1 h
    obtain ⟨x, hx⟩ := laws.applyPendingBalance ha.applied
    exact ⟨laws.parties ha.applied,
      .applyPending ha.signer ha.account hx fun _ => ⟨rfl, rfl⟩⟩
  case confidentialTransfer accounts owner balance =>
    obtain ⟨_, _, h, -, rfl, rfl⟩ := h
    obtain ⟨_, _, ha, rfl⟩ := confidentialTransfer_eq_ok.1 h
    obtain ⟨x, hx⟩ := laws.transfer ha.transferred
    exact ⟨laws.parties ha.transferred,
      .confidentialTransfer ha.signer ha.source ha.destination hx fun _ => ⟨rfl, rfl⟩⟩
  case withdraw accounts amount balance =>
    obtain ⟨_, _, h, -, rfl, rfl⟩ := h
    obtain ⟨_, _, _, ha, rfl⟩ := withdraw_eq_ok.1 h
    exact ⟨laws.parties ha.withdrawn, .withdraw ha.signer ha.account (laws.withdraw ha.withdrawn)⟩
  case createBurner accounts nonce ttl =>
    obtain ⟨_, _, h, -, rfl, rfl⟩ := h
    obtain ⟨_, _, -, rfl⟩ := createBurner_eq_ok.1 h
    exact ⟨fun _ => rfl, .quiet rfl fun _ => ⟨rfl, rfl⟩⟩
  case destroyBurner accounts proof =>
    obtain ⟨_, _, _, h, -, rfl, rfl⟩ := h
    obtain ⟨_, _, ha, -, rfl⟩ := destroyBurner_eq_ok.1 h
    exact ⟨laws.parties ha.verified,
      .quiet (laws.zkTokenProof ha.verified) fun _ => ⟨rfl, rfl⟩⟩
  case auditorRegister accounts key proof cooldown =>
    obtain ⟨_, _, _, h, -, rfl, rfl⟩ := h
    obtain ⟨_, ha, -, rfl⟩ := auditorRegister_eq_ok.1 h
    exact ⟨laws.parties ha.verified,
      .quiet (laws.zkTokenProof ha.verified) fun _ => ⟨rfl, rfl⟩⟩
  case auditorRotate accounts key proof =>
    obtain ⟨_, _, _, h, -, rfl, rfl⟩ := h
    obtain ⟨_, _, ha, -, rfl⟩ := auditorRotate_eq_ok.1 h
    exact ⟨laws.parties ha.verified,
      .quiet (laws.zkTokenProof ha.verified) fun _ => ⟨rfl, rfl⟩⟩

end Calls

/-! ### The tokens of a key that signs nothing -/

/-- The key has not signed the call, or the other program leaves its accounts alone. -/
def Turn.Spares (book : World → Pubkey × Pocket → ℕ) (k : Pubkey) : Turn Pubkey Digest World → Prop
  | .call _ signers _ => k ∉ signers
  | .foreign effect => ∀ w w', effect w = .ok w' → ∀ a m, party w a = some (m, k) →
      party w' a = party w a ∧ ∀ p, book w' (a, p) = book w (a, p)

/-- The account keeps its mint, its owner and what is available, and may have received more. -/
structure Kept (book : World → Pubkey × Pocket → ℕ) (w w' : World) (a : Pubkey) : Prop where
  party_eq : party w' a = party w a
  plain : book w' (a, .plain) = book w (a, .plain)
  available : book w' (a, .available) = book w (a, .available)
  pending : book w (a, .pending) ≤ book w' (a, .pending)

omit [DecidableEq Pubkey] in
theorem Kept.refl (w : World) (a : Pubkey) : Kept book w w a := ⟨rfl, rfl, rfl, le_rfl⟩

omit [DecidableEq Pubkey] in
theorem Kept.trans {w'' : World} {a : Pubkey} (h : Kept book w w' a) (h' : Kept book w' w'' a) :
    Kept book w w'' a where
  party_eq := h'.party_eq.trans h.party_eq
  plain := h'.plain.trans h.plain
  available := h'.available.trans h.available
  pending := h.pending.trans h'.pending

omit [External Pubkey World] in
/-- What moves inside one account is not seen at another one. -/
theorem eq_at_other {a b : Pubkey} {i j : Pocket} {x : ℕ}
    (h : Moves (book w) (book w') (b, i) (b, j) x) (hne : a ≠ b) (p : Pocket) :
    book w' (a, p) = book w (a, p) :=
  h.of_ne (fun heq => hne (congrArg Prod.fst heq)) fun heq => hne (congrArg Prod.fst heq)

section Keys

variable {signers : List Pubkey} {entrypoint : Entrypoint Pubkey Digest}
  {event : Event Pubkey Digest ⊕ RegistryEvent Pubkey} {k : Pubkey}

/-- A call spares the accounts of everybody who has not signed it. -/
theorem Posting.kept (h : Posting book w w' signers entrypoint event)
    (hparty : ∀ a : Pubkey, party w' a = party w a) (hk : k ∉ signers) {a m : Pubkey}
    (ha : party w a = some (m, k)) : Kept book w w' a := by
  -- an account that pays belongs to a signer
  have hne : ∀ {b mint owner : Pubkey}, IsConfidentialAccount w b mint owner → owner ∈ signers →
      a ≠ b := by
    rintro b mint owner hb howner rfl
    rw [hb.party_eq, Option.some.injEq, Prod.mk.injEq] at ha
    exact hk (ha.2 ▸ howner)
  cases h with
  | quiet book_eq _ => exact ⟨hparty a, by rw [book_eq], by rw [book_eq], by rw [book_eq]⟩
  | shield signer account moves =>
    have hother := eq_at_other moves (hne account signer)
    exact ⟨hparty a, hother _, hother _, (hother _).ge⟩
  | applyPending signer account moves _ =>
    have hother := eq_at_other moves (hne account signer)
    exact ⟨hparty a, hother _, hother _, (hother _).ge⟩
  | withdraw signer account moves =>
    have hother := eq_at_other moves (hne account signer)
    exact ⟨hparty a, hother _, hother _, (hother _).ge⟩
  | confidentialTransfer signer source _ moves _ =>
    -- the account may be the one that receives
    have hsource := hne source signer
    refine ⟨hparty a, moves.of_ne (by simp) (by simp), moves.of_ne ?_ (by simp),
      moves.le_of_ne (by simp)⟩
    simpa using hsource

variable [DecidableEq Digest] [AddressSpace Pubkey] [Sha256 Digest]

/-- Whatever the transactions do, they leave the accounts of a key that signs none of their calls as
they were, except for what is paid in. -/
theorem unsigned_funds_kept (laws : TokenLaws book) (c : Chain Pubkey Digest) (w : World)
    {txs : List (List (Turn Pubkey Digest World))}
    (hspares : ∀ tx ∈ txs, ∀ t ∈ tx, t.Spares book k) {a m : Pubkey}
    (ha : party w a = some (m, k)) :
    Kept book w ((shared w).atomic.exec (c, w) txs).2 a := by
  refine Machine.exec_atomic_invariant
    (P := fun s : Chain Pubkey Digest × World => Kept book w s.2 a) (Kept.refl w a) ?_
  rintro tx htx t ht ⟨c, v⟩ ⟨c', v'⟩ o hkept hstep
  have hparty : party v a = some (m, k) := hkept.party_eq.trans ha
  have hspared := hspares tx htx t ht
  refine hkept.trans ?_
  cases t with
  | call now signers entrypoint =>
    obtain ⟨event, h, -⟩ := shared_call_eq_ok.1 hstep
    obtain ⟨hparties, hposting⟩ := call_posting laws h
    exact hposting.kept hparties hspared hparty
  | foreign effect =>
    obtain ⟨heffect, -⟩ := shared_foreign_eq_ok.1 hstep
    obtain ⟨hparty', hbook⟩ := hspared v v' heffect a m hparty
    exact ⟨hparty', hbook _, hbook _, (hbook _).ge⟩

end Keys

/-! ### The supply of a mint -/

/-- The call names accounts of `U` only, or the other program leaves those of `U` alone. -/
def Turn.Within (book : World → Pubkey × Pocket → ℕ) (U : Finset Pubkey) :
    Turn Pubkey Digest World → Prop
  | .call _ _ entrypoint => ∀ a ∈ entrypoint.tokenAccounts, a ∈ U
  | .foreign effect => ∀ w w', effect w = .ok w' → ∀ a ∈ U,
      party w' a = party w a ∧ ∀ p, book w' (a, p) = book w (a, p)

/-- Some balances of the accounts of a mint. -/
def pockets (w : World) (U : Finset Pubkey) (mint : Pubkey) (ps : Finset Pocket) :
    Finset (Pubkey × Pocket) :=
  {a ∈ U | (party w a).map Prod.fst = some mint} ×ˢ ps

/-- What they add up to. -/
def supply (book : World → Pubkey × Pocket → ℕ) (U : Finset Pubkey) (mint : Pubkey)
    (ps : Finset Pocket) (w : World) : ℕ :=
  ∑ r ∈ pockets w U mint ps, book w r

/-- The balances in plain sight. -/
abbrev plainSupply (book : World → Pubkey × Pocket → ℕ) (U : Finset Pubkey) (mint : Pubkey)
    (w : World) : ℕ :=
  supply book U mint {.plain} w

/-- The balances behind ciphertexts. -/
abbrev confidentialSupply (book : World → Pubkey × Pocket → ℕ) (U : Finset Pubkey)
    (mint : Pubkey) (w : World) : ℕ :=
  supply book U mint {.pending, .available} w

/-- What the events of a log say, added up. -/
def tally (f : Event Pubkey Digest ⊕ RegistryEvent Pubkey → ℕ)
    (log : List (List (Option (Event Pubkey Digest ⊕ RegistryEvent Pubkey)))) : ℕ :=
  (log.flatten.map fun o => o.elim 0 f).sum

section Supply

variable {U : Finset Pubkey} {mint : Pubkey} {ps : Finset Pocket}

theorem mem_pockets {a m owner : Pubkey} {p : Pocket} (hparty : party w a = some (m, owner))
    (ha : a ∈ U) : (a, p) ∈ pockets w U mint ps ↔ m = mint ∧ p ∈ ps := by
  simp [pockets, hparty, ha]

theorem pockets_congr (h : ∀ a ∈ U, party w' a = party w a) :
    pockets w' U mint ps = pockets w U mint ps := by
  unfold pockets
  rw [Finset.filter_congr fun a ha => by rw [h a ha]]

/-- Where the accounts of `U` are left alone, so is what they add up to. -/
theorem supply_congr (h : ∀ a ∈ U, party w' a = party w a ∧ ∀ p, book w' (a, p) = book w (a, p)) :
    supply book U mint ps w' = supply book U mint ps w := by
  unfold supply
  rw [pockets_congr fun a ha => (h a ha).1]
  refine Finset.sum_congr rfl ?_
  rintro ⟨a, p⟩ hr
  exact (h a (Finset.mem_filter.1 (Finset.mem_product.1 hr).1).1).2 p

/-- A posting between two accounts of `U` with the mint `m`. -/
theorem supply_of_moves {a b m owner owner' : Pubkey} {i j : Pocket} {x : ℕ}
    (h : Moves (book w) (book w') (a, i) (b, j) x) (hparty : ∀ a : Pubkey, party w' a = party w a)
    (hsource : party w a = some (m, owner)) (hdest : party w b = some (m, owner')) (ha : a ∈ U)
    (hb : b ∈ U) (mint : Pubkey) (ps : Finset Pocket) :
    supply book U mint ps w' + (if m = mint ∧ i ∈ ps then x else 0) =
      supply book U mint ps w + (if m = mint ∧ j ∈ ps then x else 0) := by
  have hsum := h.sum (pockets w U mint ps)
  simp only [mem_pockets hsource ha, mem_pockets hdest hb] at hsum
  unfold supply
  rw [pockets_congr fun a _ => hparty a]
  exact hsum

variable {signers : List Pubkey} {entrypoint : Entrypoint Pubkey Digest}
  {event : Event Pubkey Digest ⊕ RegistryEvent Pubkey}

/-- The event of a call accounts for what it moves between the two kinds of balances. -/
theorem Posting.supply_eq (h : Posting book w w' signers entrypoint event)
    (hparty : ∀ a : Pubkey, party w' a = party w a)
    (hU : ∀ a ∈ entrypoint.tokenAccounts, a ∈ U) (mint : Pubkey) :
    confidentialSupply book U mint w' + withdrawn mint event =
        confidentialSupply book U mint w + shielded mint event ∧
      plainSupply book U mint w' + shielded mint event =
        plainSupply book U mint w + withdrawn mint event := by
  cases h with
  | quiet book_eq event_eq =>
    have hsupply : ∀ ps, supply book U mint ps w' = supply book U mint ps w := fun ps =>
      supply_congr fun a _ => ⟨hparty a, fun p => by rw [book_eq]⟩
    rw [confidentialSupply, confidentialSupply, plainSupply, plainSupply, hsupply, hsupply,
      (event_eq mint).1, (event_eq mint).2]
    exact ⟨rfl, rfl⟩
  | shield signer account moves =>
    have ha := hU _ List.mem_cons_self
    have hmoves := supply_of_moves moves hparty account.party_eq account.party_eq ha ha mint
    have hin := hmoves {.pending, .available}
    have hout := hmoves {.plain}
    exact ⟨by simpa [withdrawn, shielded] using hin, by simpa [withdrawn, shielded] using hout⟩
  | applyPending signer account moves event_eq =>
    -- from one ciphertext to another
    have ha := hU _ List.mem_cons_self
    have hmoves := supply_of_moves moves hparty account.party_eq account.party_eq ha ha mint
    have hin := hmoves {.pending, .available}
    have hout := hmoves {.plain}
    exact ⟨by simpa [event_eq mint] using hin, by simpa [event_eq mint] using hout⟩
  | confidentialTransfer signer source destination moves event_eq =>
    -- the program has checked that the two accounts are of one mint
    have hmoves := supply_of_moves moves hparty source.party_eq destination.party_eq
      (hU _ List.mem_cons_self) (hU _ (List.mem_cons_of_mem _ List.mem_cons_self)) mint
    have hin := hmoves {.pending, .available}
    have hout := hmoves {.plain}
    exact ⟨by simpa [event_eq mint] using hin, by simpa [event_eq mint] using hout⟩
  | withdraw signer account moves =>
    have ha := hU _ List.mem_cons_self
    have hmoves := supply_of_moves moves hparty account.party_eq account.party_eq ha ha mint
    have hin := hmoves {.pending, .available}
    have hout := hmoves {.plain}
    exact ⟨by simpa [withdrawn, shielded] using hin, by simpa [withdrawn, shielded] using hout⟩

variable [DecidableEq Digest] [AddressSpace Pubkey] [Sha256 Digest]

/-- One turn, and what its event says. -/
theorem turn_supply (laws : TokenLaws book) {v : World} {s s' : Chain Pubkey Digest × World}
    {t : Turn Pubkey Digest World} {o : Option (Event Pubkey Digest ⊕ RegistryEvent Pubkey)}
    (ht : t.Within book U) (h : (shared v).step s t = .ok (s', o)) (mint : Pubkey) :
    confidentialSupply book U mint s'.2 + o.elim 0 (withdrawn mint) =
        confidentialSupply book U mint s.2 + o.elim 0 (shielded mint) ∧
      plainSupply book U mint s'.2 + o.elim 0 (shielded mint) =
        plainSupply book U mint s.2 + o.elim 0 (withdrawn mint) := by
  cases t with
  | call now signers entrypoint =>
    obtain ⟨event, hstep, rfl⟩ := shared_call_eq_ok.1 h
    obtain ⟨hparties, hposting⟩ := call_posting laws hstep
    exact hposting.supply_eq hparties ht mint
  | foreign effect =>
    obtain ⟨heffect, -, rfl⟩ := shared_foreign_eq_ok.1 h
    have hsame : ∀ ps, supply book U mint ps s'.2 = supply book U mint ps s.2 := fun ps =>
      supply_congr (ht s.2 s'.2 heffect)
    exact ⟨congrArg (· + 0) (hsame _), congrArg (· + 0) (hsame _)⟩

/-- Over any run of transactions, what the events of a mint say was shielded less what they say was
withdrawn is what has come to lie behind ciphertexts, and what has gone from plain sight. -/
theorem supply_logged (laws : TokenLaws book) (c : Chain Pubkey Digest) (w : World)
    {txs : List (List (Turn Pubkey Digest World))}
    (hwithin : ∀ tx ∈ txs, ∀ t ∈ tx, t.Within book U) (mint : Pubkey) :
    confidentialSupply book U mint ((shared w).atomic.exec (c, w) txs).2 +
          tally (withdrawn mint) ((shared w).atomic.log (c, w) txs) =
        confidentialSupply book U mint w +
          tally (shielded mint) ((shared w).atomic.log (c, w) txs) ∧
      plainSupply book U mint ((shared w).atomic.exec (c, w) txs).2 +
          tally (shielded mint) ((shared w).atomic.log (c, w) txs) =
        plainSupply book U mint w + tally (withdrawn mint) ((shared w).atomic.log (c, w) txs) := by
  constructor
  · exact Machine.exec_atomic_balance (P := fun _ => True)
      (fun s : Chain Pubkey Digest × World => confidentialSupply book U mint s.2) trivial
      fun tx htx t ht s s' o _ h => ⟨trivial, (turn_supply laws (hwithin tx htx t ht) h mint).1⟩
  · exact Machine.exec_atomic_balance (P := fun _ => True)
      (fun s : Chain Pubkey Digest × World => plainSupply book U mint s.2) trivial
      fun tx htx t ht s s' o _ h => ⟨trivial, (turn_supply laws (hwithin tx htx t ht) h mint).2⟩

end Supply

/-! ### A sample token program -/

section TokenWorld

/-- A posting that the paying balance covers. -/
def Sample.covered (w : Sym × Pocket → ℕ) (p q : Sym × Pocket) (x : ℕ) :
    Except UInt64 (Sym × Pocket → ℕ) :=
  if x ≤ w p then .ok (post w p q x) else .error 1

/-- The sample mint and its accounts, with their balances.  The new balance of the source stands in
the clear for its ciphertext. -/
local instance Sample.tokenWorld : External Sym (Sym × Pocket → ℕ) where
  token2022ProgramId := token2022ProgramId
  zkTokenProofProgramId := zkTokenProofProgramId
  accountOwner _ := accountOwner ()
  unpackMint _ := unpackMint ()
  unpackAccount _ := unpackAccount ()
  invoke w
    | .deposit a _ _ amount _ => Sample.covered w (a, .plain) (a, .pending) amount.toNat
    | .applyPendingBalance a _ _ _ =>
      Sample.covered w (a, .pending) (a, .available) (w (a, .pending))
    | .withdraw a _ _ amount _ _ _ _ =>
      Sample.covered w (a, .available) (a, .plain) amount.toNat
    | .transfer source _ destination _ balance _ _ _ =>
      Sample.covered w (source, .available) (destination, .pending)
        (w (source, .available) - leNat balance.toList)
    | .zkTokenProof _ _ _ _ => .ok w

namespace Sample

theorem moves_of_covered {w w' : Sym × Pocket → ℕ} {p q : Sym × Pocket} {x : ℕ}
    (h : covered w p q x = .ok w') : Moves w w' p q x := by
  unfold covered at h
  split_ifs at h with hx
  cases h
  exact moves_post hx q

theorem tokenLaws : TokenLaws (id : (Sym × Pocket → ℕ) → Sym × Pocket → ℕ) where
  parties _ _ := rfl
  deposit h := moves_of_covered h
  applyPendingBalance h := ⟨_, moves_of_covered h⟩
  withdraw h := moves_of_covered h
  transfer h := ⟨_, moves_of_covered h⟩
  zkTokenProof h := by cases h; rfl

/-- Every account has a million in plain sight. -/
def savings : Sym × Pocket → ℕ
  | (_, .plain) => 1000000
  | _ => 0

/-- The chain before the first call. -/
def vacant : Chain Sym (List UInt8) := ⟨fun _ => none, fun _ => none, fun _ => none⟩

/-- The config is opened.  Then the sixth wallet shields twice, the second time in a transaction
that fails. -/
def shielding : List (List (Turn Sym (List UInt8) (Sym × Pocket → ℕ))) :=
  [[.call 0 [admin] (.core (initializeBy admin 0).instruction)],
    [.call 1 [.wallet 6]
      (.shield ⟨configPda, .wallet 6, confidentialAta 6, mint, token2022ProgramId⟩ 5000)],
    [.call 2 [.wallet 6]
      (.shield ⟨configPda, .wallet 6, confidentialAta 6, mint, token2022ProgramId⟩ 5000),
      .foreign fun _ => .error 7]]

end Sample

/-- Who has not signed keeps the million, whatever the sixth wallet does. -/
theorem unsigned_funds_kept_sample :
    Kept id Sample.savings ((shared Sample.savings).atomic.exec (Sample.vacant, Sample.savings)
      Sample.shielding).2 (Sample.confidentialAta 7) := by
  have hspares : ∀ tx ∈ Sample.shielding, ∀ t ∈ tx, t.Spares id (.wallet 7) := by
    simp only [Sample.shielding, List.forall_mem_cons, Turn.Spares]
    exact ⟨⟨by decide, by simp⟩, ⟨by decide, by simp⟩, ⟨by decide, by simp, by simp⟩, by simp⟩
  have hparty : party Sample.savings (Sample.confidentialAta 7) = some (Sample.mint, .wallet 7) :=
    by decide
  exact unsigned_funds_kept Sample.tokenLaws Sample.vacant Sample.savings hspares hparty

/-- The transaction that failed is not in the log and has moved nothing. -/
theorem supply_logged_sample :
    confidentialSupply id {Sample.confidentialAta 6} Sample.mint ((shared Sample.savings).atomic.exec
      (Sample.vacant, Sample.savings) Sample.shielding).2 = 5000 := by
  have hwithin : ∀ tx ∈ Sample.shielding, ∀ t ∈ tx, t.Within id {Sample.confidentialAta 6} := by
    simp only [Sample.shielding, List.forall_mem_cons, Turn.Within, Entrypoint.tokenAccounts]
    simp
  have h := (supply_logged Sample.tokenLaws Sample.vacant Sample.savings hwithin Sample.mint).1
  have hshielded : tally (shielded Sample.mint) ((shared Sample.savings).atomic.log
      (Sample.vacant, Sample.savings) Sample.shielding) = 5000 := by decide +kernel
  have hwithdrawn : tally (withdrawn Sample.mint) ((shared Sample.savings).atomic.log
      (Sample.vacant, Sample.savings) Sample.shielding) = 0 := by decide +kernel
  have hsupply :
      confidentialSupply id {Sample.confidentialAta 6} Sample.mint Sample.savings = 0 := by
    decide +kernel
  rw [hshielded, hwithdrawn, hsupply] at h
  simpa using h

end TokenWorld

end Ghos
