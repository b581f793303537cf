import Ghos.Mix.Protocol

/-!
# What a reveal binds

The digest that `mix_reveal` recomputes covers the preimage and the signal and nothing else.

* `noSharedOpening_iff`: one opening is never accepted for two participants exactly in the runs in
  which no reveal opens bytes that an already revealed commitment also stores; a participant who
  copies the commitment of another breaks this (`copied_commitment_is_revealed`);
* `revealed_commitment_opened`: a revealed commitment was opened by its participant with the
  committed string; neither the layout of that string nor an amount in it is looked at
  (`settled_with_other_amount`).
-/

namespace Ghos

variable {Pubkey Digest : Type} [DecidableEq Pubkey] [DecidableEq Digest] [AddressSpace Pubkey]
  [Sha256 Digest] {run : List (Invocation Pubkey Digest)}

omit [DecidableEq Digest] in
/-- With an injective hash, the digest determines the preimage and the signal. -/
theorem hashv_injective (hsha : Function.Injective (Sha256.sha256 : List UInt8 → Digest))
    {x x' : List UInt8} {s s' : Vector UInt8 32}
    (h : (hashv [x, s.toList] : Digest) = hashv [x', s'.toList]) : x = x' ∧ s = s' := by
  have happ : x ++ s.toList = x' ++ s'.toList := by simpa [hashv] using hsha h
  obtain ⟨hx, hs⟩ := List.append_inj' happ (by simp)
  exact ⟨hx, Vector.toList_inj.1 hs⟩

/-! ### Two participants, one opening -/

/-- No preimage and signal are accepted for two different participants or rounds. -/
def NoSharedOpening (run : List (Invocation Pubkey Digest)) : Prop :=
  ∀ R p R' p' preimage revealSignal i now j now', RevealsAt run R p preimage revealSignal i now →
    RevealsAt run R' p' preimage revealSignal j now' → R = R' ∧ p = p'

/-- No reveal opens a commitment whose bytes an already revealed commitment stores too. -/
def OpensFreshBytes (run : List (Invocation Pubkey Digest)) : Prop :=
  ∀ R p preimage revealSignal j now, RevealsAt run R p preimage revealSignal j now →
    ∀ own k c, (ghos.stateAt run j).commitment? (mixCommitmentPda R p) = some own →
      (ghos.stateAt run j).commitment? k = some c → c.revealed = true →
      c.commitment ≠ own.commitment

/-- What two reveals share if the earlier one comes first. -/
theorem RevealsAt.revealed_before {R p : Pubkey} {preimage : List UInt8}
    {revealSignal : Vector UInt8 32} {i j : ℕ} {now : Int64}
    (h : RevealsAt run R p preimage revealSignal i now) (hlt : i < j) :
    ∃ c, (ghos.stateAt run j).commitment? (mixCommitmentPda R p) = some c ∧ c.revealed = true ∧
      c.commitment = hashv [preimage, revealSignal.toList] := by
  obtain ⟨-, c, -, -, -, -, -, hd, -, hafter⟩ := h.spec
  obtain ⟨c', hc', hext⟩ := commitment_stateAt (Nat.succ_le_of_lt hlt) hafter
  obtain rfl := hext.eq_of_revealed rfl
  exact ⟨_, hc', rfl, hd⟩

theorem OpensFreshBytes.not_lt (hfresh : OpensFreshBytes run) {R p R' p' : Pubkey}
    {preimage : List UInt8} {revealSignal : Vector UInt8 32} {i j : ℕ} {now now' : Int64}
    (h : RevealsAt run R p preimage revealSignal i now)
    (h' : RevealsAt run R' p' preimage revealSignal j now') : ¬ i < j := by
  intro hlt
  obtain ⟨c, hc, hrev, hd⟩ := h.revealed_before hlt
  obtain ⟨-, own, -, -, -, hown, -, hd', -⟩ := h'.spec
  exact hfresh _ _ _ _ _ _ h' own _ c hown hc hrev (hd.trans hd'.symm)

theorem RevealsAt.same_position {R p R' p' : Pubkey} {preimage preimage' : List UInt8}
    {revealSignal revealSignal' : Vector UInt8 32} {i : ℕ} {now now' : Int64}
    (h : RevealsAt run R p preimage revealSignal i now)
    (h' : RevealsAt run R' p' preimage' revealSignal' i now') :
    (R = R' ∧ p = p') ∧ preimage = preimage' := by
  obtain ⟨signers, accounts, hacc, rfl, rfl⟩ := h
  obtain ⟨signers', accounts', hacc', rfl, rfl⟩ := h'
  have heq := hacc.unique hacc'
  simp only [Invocation.mk.injEq, Instruction.mixReveal.injEq] at heq
  obtain ⟨-, -, rfl, rfl, -⟩ := heq
  exact ⟨⟨rfl, rfl⟩, rfl⟩

/-- An opening is never shared exactly if no reveal opens bytes that were opened before. -/
theorem noSharedOpening_iff (hsha : Function.Injective (Sha256.sha256 : List UInt8 → Digest))
    (run : List (Invocation Pubkey Digest)) : NoSharedOpening run ↔ OpensFreshBytes run := by
  constructor
  · intro hshare R p preimage revealSignal j now h own k c hown hc hrev heq
    obtain ⟨-, own', -, -, -, hown', hno, hd, -⟩ := h.spec
    obtain rfl := Option.some.inj (hown.symm.trans hown')
    -- the other commitment was opened with a string of the same digest, so with the same string
    obtain ⟨i, -, now', preimage', h', hd'⟩ := exists_reveal hc hrev
    obtain ⟨rfl, hs⟩ := hashv_injective hsha (hd'.trans (heq.trans hd))
    rw [hs] at h'
    obtain ⟨hR, hp⟩ := hshare _ _ _ _ _ _ _ _ _ _ h' h
    have hk := (wellAddressed_stateAt run j).commitment_eq hc
    rw [hR, hp] at hk
    rw [hk, hown, Option.some.injEq] at hc
    rw [hc, hrev] at hno
    cases hno
  · intro hfresh R p R' p' preimage revealSignal i now j now' h h'
    have hij := hfresh.not_lt h h'
    have hji := hfresh.not_lt h' h
    obtain rfl : i = j := by omega
    exact (h.same_position h').1

theorem noSharedOpening_iff_sampleRun : NoSharedOpening sampleRun ↔ OpensFreshBytes sampleRun :=
  noSharedOpening_iff Function.injective_id sampleRun

namespace Sample

/-- Participant `1` commits to the bytes of participant `0`. -/
def copying : List (Invocation Sym (List UInt8)) :=
  opening ++
    [mixCommitBy (participant 0) round (hashv [preimage 0, signal.toList]) 1,
      mixCommitBy (participant 1) round (hashv [preimage 0, signal.toList]) 1,
      mixCommitBy (participant 2) round (hashv [preimage 2, signal.toList]) 1,
      mixCommitBy (participant 3) round (hashv [preimage 3, signal.toList]) 1,
      mixRevealBy (participant 0) round (preimage 0) signal 2,
      mixRevealBy (participant 1) round (preimage 0) signal 3]

end Sample

/-- A copied commitment is revealed with the published opening of the original. -/
theorem copied_commitment_is_revealed : ¬ NoSharedOpening Sample.copying := by
  intro h
  have h₀ : RevealsAt Sample.copying Sample.round (Sample.participant 0) (Sample.preimage 0)
      Sample.signal 6 2 := ⟨[Sample.participant 0], ⟨configPda, Sample.participant 0, Sample.round,
      mixCommitmentPda Sample.round (Sample.participant 0)⟩, by decide +kernel, rfl, rfl⟩
  have h₁ : RevealsAt Sample.copying Sample.round (Sample.participant 1) (Sample.preimage 0)
      Sample.signal 7 3 := ⟨[Sample.participant 1], ⟨configPda, Sample.participant 1, Sample.round,
      mixCommitmentPda Sample.round (Sample.participant 1)⟩, by decide +kernel, rfl, rfl⟩
  exact absurd (h _ _ _ _ _ _ _ _ _ _ h₀ h₁).2 (by decide)

/-! ### What the opened string says -/

/-- The domain tag of a commitment. -/
def mixCommitmentDomain : List UInt8 := asciiBytes "ghos.mix.commit.v1"

/-- The part before the salt, which a client sends as the preimage. -/
def mixPreimage (amount : UInt64) (outputAddress : Vector UInt8 32) : List UInt8 :=
  mixCommitmentDomain ++ amount.toLeBytes ++ outputAddress.toList

theorem mixPreimage_inj {amount amount' : UInt64} {output output' : Vector UInt8 32}
    (h : mixPreimage amount output = mixPreimage amount' output') : amount = amount' := by
  have hlen : amount.toLeBytes.length = amount'.toLeBytes.length := by
    rw [UInt64.toLeBytes, UInt64.toLeBytes, length_leBytes, length_leBytes]
  rw [mixPreimage, mixPreimage, List.append_assoc, List.append_assoc] at h
  exact UInt64.toLeBytes_injective (List.append_inj_left (List.append_cancel_left h) hlen)

/-- The documented commitment. -/
def buildMixCommitment (note : UInt64) (outputAddress salt : Vector UInt8 32) : Digest :=
  hashv [mixPreimage note outputAddress, salt.toList]

/-- A revealed commitment was opened by its participant with a string of the committed digest; if
that digest is of a string in the documented layout, it was that very string. -/
theorem revealed_commitment_opened (run : List (Invocation Pubkey Digest)) {n : ℕ} {k : Pubkey}
    {c : MixCommitment Pubkey Digest} (hc : (ghos.stateAt run n).commitment? k = some c)
    (hrev : c.revealed = true) :
    ∃ i < n, ∃ now preimage, RevealsAt run c.round c.participant preimage c.revealSignal i now ∧
      hashv [preimage, c.revealSignal.toList] = c.commitment ∧
      (Function.Injective (Sha256.sha256 : List UInt8 → Digest) →
        ∀ amount output salt, c.commitment = buildMixCommitment amount output salt →
          preimage = mixPreimage amount output ∧ c.revealSignal = salt) := by
  obtain ⟨i, hi, now, preimage, h, hd⟩ := exists_reveal hc hrev
  refine ⟨i, hi, now, preimage, h, hd, ?_⟩
  intro hsha amount output salt hlayout
  exact hashv_injective hsha (hd.trans hlayout)

theorem revealed_commitment_opened_sampleRun :
    ∃ c, (ghos.stateAt sampleRun 10).commitment?
        (mixCommitmentPda Sample.round (Sample.participant 0)) = some c ∧
      ∃ i < 10, ∃ now preimage,
        RevealsAt sampleRun c.round c.participant preimage c.revealSignal i now ∧
        hashv [preimage, c.revealSignal.toList] = c.commitment := by
  obtain ⟨c, hc, hrev⟩ : ∃ c ∈ (ghos.stateAt sampleRun 10).commitment?
      (mixCommitmentPda Sample.round (Sample.participant 0)), c.revealed = true := by
    decide +kernel
  obtain ⟨i, hi, now, preimage, h, hd, -⟩ := revealed_commitment_opened sampleRun hc hrev
  exact ⟨c, hc, i, hi, now, preimage, h, hd⟩

/-- Whatever was revealed in a settled round was opened with the documented string of the amount
of the round. -/
def DenominationSound (run : List (Invocation Pubkey Digest)) : Prop :=
  ∀ R r k c, (ghos.exec ghos.init run).round? R = some r → r.phase = .settled →
    (ghos.exec ghos.init run).commitment? k = some c → c.round = R → c.revealed = true →
    ∃ i now output,
      RevealsAt run R c.participant (mixPreimage r.denomination output) c.revealSignal i now

namespace Sample

/-- The documented string of another amount than that of the round, which is `100`. -/
def otherAmount (n : ℕ) : List UInt8 := mixPreimage 1 (.replicate 32 (UInt8.ofNat n))

/-- Four participants commit to `1` each, reveal, and the host settles. -/
def otherAmountRun : List (Invocation Sym (List UInt8)) :=
  opening ++
    ((List.range 4).map fun i =>
      mixCommitBy (participant i) round (hashv [otherAmount i, signal.toList]) 1) ++
    ((List.range 4).map fun i => mixRevealBy (participant i) round (otherAmount i) signal 2) ++
    [mixSettleBy host round 3]

end Sample

/-- A round settles although every participant committed to another amount. -/
theorem settled_with_other_amount : ¬ DenominationSound Sample.otherAmountRun := by
  intro hsound
  obtain ⟨r, hr, hphase, hdenom⟩ : ∃ r ∈ (ghos.exec ghos.init Sample.otherAmountRun).round?
      Sample.round, r.phase = .settled ∧ r.denomination = 100 := by decide +kernel
  obtain ⟨c, hc, hR, hp, hrev⟩ : ∃ c ∈ (ghos.exec ghos.init Sample.otherAmountRun).commitment?
      (mixCommitmentPda Sample.round (Sample.participant 0)), c.round = Sample.round ∧
      c.participant = Sample.participant 0 ∧ c.revealed = true := by decide +kernel
  obtain ⟨i, now, output, h⟩ := hsound _ r _ c hr hphase hc hR hrev
  rw [hdenom, hp] at h
  have h₀ : RevealsAt Sample.otherAmountRun Sample.round (Sample.participant 0)
      (Sample.otherAmount 0) Sample.signal 6 2 := ⟨[Sample.participant 0],
      ⟨configPda, Sample.participant 0, Sample.round,
        mixCommitmentPda Sample.round (Sample.participant 0)⟩, by decide +kernel, rfl, rfl⟩
  obtain rfl := h.unique h₀
  exact absurd (mixPreimage_inj (h.same_position h₀).2) (by decide)

end Ghos
