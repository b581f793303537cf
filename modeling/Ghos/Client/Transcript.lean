import Ghos.Client.Bulletproof
import Ghos.Lib.HashChain

/-!
# The transcript of the range proofs

`Transcript` of `sdk/src/crypto/bulletproof.ts` hashes its state with what it is given: a label, the
length of a message and the message, or a label alone.  The length of the label is not among it.

* `states_ne_iff`: when two sequences of operations lead to different states;
* `acc_runOps_eq_iff_of_labels`: with the labels that the module uses, this is so for all that
  differ.
-/

namespace Ghos.Sdk

/-- The operations of a transcript. -/
inductive TranscriptOp
  | append (label : String) (bytes : List UInt8)
  | challengeScalar (label : String)
  deriving DecidableEq

/-- What an operation puts behind the state under the hash. -/
def TranscriptOp.block : TranscriptOp → List UInt8
  | .append label bytes => textBytes label ++ leBytes 4 bytes.length ++ bytes
  | .challengeScalar label => textBytes label

def TranscriptOp.label : TranscriptOp → String
  | .append label _ => label
  | .challengeScalar label => label

section Hash

variable (sha512 : List UInt8 → Vector UInt8 64)

def TranscriptOp.apply (transcript : Transcript) : TranscriptOp → Transcript
  | .append label bytes => transcript.append sha512 label bytes
  | .challengeScalar label => (transcript.challengeScalar sha512 label).2

/-- The transcript after some operations. -/
def runOps (initial : Transcript) (ops : List TranscriptOp) : Transcript :=
  ops.foldl (TranscriptOp.apply sha512) initial

/-- The strings that the operations hash. -/
def hashedStrings (initial : Transcript) (ops : List TranscriptOp) : List (List UInt8) :=
  HashChain.hashed (fun x => (sha512 x).toList) initial.acc (ops.map TranscriptOp.block)

/-- The operations `later` come to a state from which they hash the string that `ops` starts
with. -/
def ResumedBy (initial : Transcript) (ops later : List TranscriptOp) : Prop :=
  HashChain.Resumes (fun x => (sha512 x).toList) initial.acc (ops.map TranscriptOp.block)
    (later.map TranscriptOp.block)

end Hash

variable {sha512 : List UInt8 → Vector UInt8 64}

variable (sha512) in
/-- An operation hashes the state with its block. -/
theorem TranscriptOp.acc_apply (op : TranscriptOp) (transcript : Transcript) :
    (op.apply sha512 transcript).acc = (sha512 (transcript.acc ++ op.block)).toList := by
  cases op with
  | append label bytes =>
    rw [block, ← List.append_assoc, ← List.append_assoc]
    rfl
  | challengeScalar label => rfl

theorem acc_runOps (initial : Transcript) (ops : List TranscriptOp) :
    (runOps sha512 initial ops).acc =
      HashChain.run (fun x => (sha512 x).toList) initial.acc (ops.map TranscriptOp.block) := by
  induction ops generalizing initial with
  | nil => rfl
  | cons op ops ih =>
    have hstep := op.acc_apply sha512 initial
    exact (ih (op.apply sha512 initial)).trans (by rw [hstep]; rfl)

namespace Sample

/-- The last byte of the string and the first ones. -/
def endsHash (data : List UInt8) : Vector UInt8 64 :=
  ⟨((data.getLastD 0 :: data ++ List.replicate 64 0).take 64).toArray, by simp⟩

/-- Two messages under one label, with a challenge behind each. -/
def firstHistory : List TranscriptOp := [.append "A" [1], .challengeScalar "y"]

def secondHistory : List TranscriptOp := [.append "A" [2], .challengeScalar "y"]

end Sample

/-- Two sequences of operations collide nowhere. -/
def CollisionFree (sha512 : List UInt8 → Vector UInt8 64) (initial : Transcript)
    (ops ops' : List TranscriptOp) : Prop :=
  Set.InjOn sha512
    {x | x ∈ hashedStrings sha512 initial ops ∨ x ∈ hashedStrings sha512 initial ops'}

theorem acc_runOps_eq_iff {initial : Transcript} {ops ops' : List TranscriptOp}
    (hinj : CollisionFree sha512 initial ops ops') :
    (runOps sha512 initial ops).acc = (runOps sha512 initial ops').acc ↔
      ops.map TranscriptOp.block = ops'.map TranscriptOp.block ∨
        ResumedBy sha512 initial ops ops' ∨ ResumedBy sha512 initial ops' ops := by
  have hcollision : HashChain.NoCollision (fun x => (sha512 x).toList) initial.acc
      (ops.map TranscriptOp.block) initial.acc (ops'.map TranscriptOp.block) := by
    intro x hx y hy hxy
    exact hinj hx hy (Vector.toList_inj.1 hxy)
  rw [acc_runOps, acc_runOps]
  exact HashChain.run_eq_run_iff (fun x => (sha512 x).length_toList) hcollision

variable (sha512) in
/-- Without a collision among the strings that are hashed, two sequences of operations lead to
different states exactly if they hash different blocks, and none of them comes to a state from which
it resumes the other. -/
theorem states_ne_iff (initial : Transcript) (ops ops' : List TranscriptOp)
    (hinj : CollisionFree sha512 initial ops ops') :
    (runOps sha512 initial ops).acc ≠ (runOps sha512 initial ops').acc ↔
      ops.map TranscriptOp.block ≠ ops'.map TranscriptOp.block ∧
        ¬ ResumedBy sha512 initial ops ops' ∧ ¬ ResumedBy sha512 initial ops' ops := by
  rw [ne_eq, acc_runOps_eq_iff hinj, not_or, not_or]

theorem states_ne_iff_sample :
    (runOps Sample.endsHash .initial Sample.firstHistory).acc ≠
      (runOps Sample.endsHash .initial Sample.secondHistory).acc := by
  have hinj : ∀ x ∈ hashedStrings Sample.endsHash .initial Sample.firstHistory ++
        hashedStrings Sample.endsHash .initial Sample.secondHistory,
      ∀ y ∈ hashedStrings Sample.endsHash .initial Sample.firstHistory ++
        hashedStrings Sample.endsHash .initial Sample.secondHistory,
        Sample.endsHash x = Sample.endsHash y → x = y := by decide +kernel
  refine (states_ne_iff Sample.endsHash .initial _ _ ?_).2 ⟨by decide +kernel, ?_, ?_⟩
  · exact fun x hx y hy => hinj x (List.mem_append.2 hx) y (List.mem_append.2 hy)
  · exact fun h => absurd h.length_lt (lt_irrefl 2)
  · exact fun h => absurd h.length_lt (lt_irrefl 2)

/-! ### Blocks that say nothing of the label -/

theorem runOps_eq_of_blocks {initial : Transcript} {ops ops' : List TranscriptOp}
    (h : ops.map TranscriptOp.block = ops'.map TranscriptOp.block) :
    (runOps sha512 initial ops).acc = (runOps sha512 initial ops').acc := by
  rw [acc_runOps, acc_runOps, h]

/-- Two messages, or a message and a challenge, that lead to the same state whatever the hash: the
label of one operation reads like the length of the message of the other. -/
theorem states_eq_sample :
    (TranscriptOp.append "" [1, 0, 0, 0, 7] ≠ .append "\x05\x00\x00\x00" [7] ∧
      ∀ sha512 initial, (runOps sha512 initial [.append "" [1, 0, 0, 0, 7]]).acc =
        (runOps sha512 initial [.append "\x05\x00\x00\x00" [7]]).acc) ∧
    (TranscriptOp.append "" [] ≠ .challengeScalar "\x00\x00\x00\x00" ∧
      ∀ sha512 initial, (runOps sha512 initial [.append "" []]).acc =
        (runOps sha512 initial [.challengeScalar "\x00\x00\x00\x00"]).acc) := by
  constructor
  · exact ⟨by decide, fun sha512 initial => runOps_eq_of_blocks (by decide +kernel)⟩
  · exact ⟨by decide, fun sha512 initial => runOps_eq_of_blocks (by decide +kernel)⟩

/-! ### Labels that cannot be confused -/

/-- No label starts with another. -/
def PrefixFree (labels : List String) : Prop :=
  ∀ a ∈ labels, ∀ b ∈ labels, textBytes a <+: textBytes b → a = b

instance (labels : List String) : Decidable (PrefixFree labels) :=
  inferInstanceAs (Decidable (∀ a ∈ labels, ∀ b ∈ labels, textBytes a <+: textBytes b → a = b))

/-- The labels of `prove`, `innerProductProve`, `aggregate` and `proveBoundToKey`. -/
def moduleLabels : List String :=
  ["commitment", "A", "S", "y", "z", "T1", "T2", "x", "L", "R", "u", "aggC", "aggP", "link",
    "pubkey"]

theorem prefixFree_moduleLabels : PrefixFree moduleLabels := by decide +kernel

theorem TranscriptOp.textBytes_prefix_block (op : TranscriptOp) :
    textBytes op.label <+: op.block := by
  cases op with
  | append label bytes => exact ⟨_, (List.append_assoc ..).symm⟩
  | challengeScalar label => exact List.prefix_rfl

/-- With one label, the length of the message tells the operations apart. -/
theorem TranscriptOp.block_append_ne (label : String) (bytes : List UInt8) :
    (TranscriptOp.append label bytes).block ≠ (TranscriptOp.challengeScalar label).block := by
  intro h
  have hlength := congrArg List.length h
  rw [block, block, List.length_append, List.length_append, length_leBytes] at hlength
  omega

theorem TranscriptOp.block_inj {labels : List String} (hfree : PrefixFree labels)
    {op op' : TranscriptOp} (hop : op.label ∈ labels) (hop' : op'.label ∈ labels)
    (h : op.block = op'.block) : op = op' := by
  have hlabel : op.label = op'.label := by
    have hprefix := op.textBytes_prefix_block
    rw [h] at hprefix
    obtain hle | hle := List.prefix_or_prefix_of_prefix hprefix op'.textBytes_prefix_block
    · exact hfree _ hop _ hop' hle
    · exact (hfree _ hop' _ hop hle).symm
  cases op with
  | append label bytes =>
    cases op' with
    | append label' bytes' =>
      obtain rfl : label = label' := hlabel
      rw [block, block, List.append_assoc, List.append_assoc, List.append_cancel_left_eq] at h
      obtain ⟨-, rfl⟩ := List.append_inj h (by rw [length_leBytes, length_leBytes])
      rfl
    | challengeScalar label' =>
      obtain rfl : label = label' := hlabel
      exact absurd h (block_append_ne label bytes)
  | challengeScalar label =>
    cases op' with
    | append label' bytes' =>
      obtain rfl : label = label' := hlabel
      exact absurd h.symm (block_append_ne label bytes')
    | challengeScalar label' => rw [show label = label' from hlabel]

/-- With the labels of the module, the blocks tell the operations. -/
theorem blocks_inj {labels : List String} (hfree : PrefixFree labels) {ops ops' : List TranscriptOp}
    (hops : ∀ op ∈ ops, op.label ∈ labels) (hops' : ∀ op ∈ ops', op.label ∈ labels)
    (h : ops.map TranscriptOp.block = ops'.map TranscriptOp.block) : ops = ops' := by
  induction ops generalizing ops' with
  | nil => exact (List.map_eq_nil_iff.1 h.symm).symm
  | cons op ops ih =>
    cases ops' with
    | nil => cases h
    | cons op' ops' =>
      obtain ⟨hop, hrest⟩ := List.forall_mem_cons.1 hops
      obtain ⟨hop', hrest'⟩ := List.forall_mem_cons.1 hops'
      obtain ⟨hblock, htail⟩ := List.cons.inj h
      rw [TranscriptOp.block_inj hfree hop hop' hblock, ih hrest hrest' htail]

/-- With the labels of the module, different sequences of operations lead to different states,
unless one resumes the other. -/
theorem acc_runOps_eq_iff_of_labels {initial : Transcript} {ops ops' : List TranscriptOp}
    (hinj : CollisionFree sha512 initial ops ops') (hops : ∀ op ∈ ops, op.label ∈ moduleLabels)
    (hops' : ∀ op ∈ ops', op.label ∈ moduleLabels) :
    (runOps sha512 initial ops).acc = (runOps sha512 initial ops').acc ↔
      ops = ops' ∨ ResumedBy sha512 initial ops ops' ∨ ResumedBy sha512 initial ops' ops := by
  have hblocks : ops.map TranscriptOp.block = ops'.map TranscriptOp.block ↔ ops = ops' :=
    ⟨blocks_inj prefixFree_moduleLabels hops hops', congrArg _⟩
  rw [acc_runOps_eq_iff hinj, hblocks]

/-- Nothing resumes a sequence of operations that starts with a string shorter than a digest. -/
theorem not_resumedBy {initial : Transcript} {op : TranscriptOp} {ops later : List TranscriptOp}
    (h : initial.acc.length + op.block.length < 64) :
    ¬ ResumedBy sha512 initial (op :: ops) later := by
  intro hresumed
  have hle := HashChain.Resumes.digest_le (fun x => (sha512 x).length_toList) hresumed
  omega

end Ghos.Sdk
