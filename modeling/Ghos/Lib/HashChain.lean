import Mathlib.Data.Set.Function
import Mathlib.Tactic

/-!
# Chains of hashes

A chain absorbs one block after the other: the next state is the hash of the state followed by the
block.  Digests have one length, the first state may have any.

* `run_eq_run_iff`: without a collision, two chains from one state end in the same state exactly if
  their blocks are the same, or one of them resumes the other: it comes to a later state that goes
  on with the string which the other starts with.
-/

namespace HashChain

variable {α : Type} (H : List α → List α)

/-- The state after some blocks. -/
def run (s : List α) (blocks : List (List α)) : List α := blocks.foldl (fun s b => H (s ++ b)) s

/-- The strings that are hashed on the way. -/
def hashed : List α → List (List α) → List (List α)
  | _, [] => []
  | s, b :: blocks => (s ++ b) :: hashed (H (s ++ b)) blocks

/-- No two of the strings that the chains hash collide. -/
def NoCollision (s : List α) (bs : List (List α)) (t : List α) (cs : List (List α)) : Prop :=
  Set.InjOn H {x | x ∈ hashed H s bs ∨ x ∈ hashed H t cs}

variable {H}

theorem run_append (s : List α) (bs cs : List (List α)) :
    run H s (bs ++ cs) = run H (run H s bs) cs := List.foldl_append

theorem run_concat (s : List α) (bs : List (List α)) (b : List α) :
    run H s (bs ++ [b]) = H (run H s bs ++ b) := run_append s bs [b]

theorem hashed_append (s : List α) (bs cs : List (List α)) :
    hashed H s (bs ++ cs) = hashed H s bs ++ hashed H (run H s bs) cs := by
  induction bs generalizing s with
  | nil => rfl
  | cons b bs ih =>
    show (s ++ b) :: hashed H (H (s ++ b)) (bs ++ cs) = _
    rw [ih]
    rfl

/-- The chains absorb the same blocks behind their first strings, and these are equal. -/
inductive Meets : List α → List (List α) → List α → List (List α) → Prop
  | nil (s : List α) : Meets s [] s []
  | cons {s t b c : List α} (h : s ++ b = t ++ c) (tail : List (List α)) :
      Meets s (b :: tail) t (c :: tail)

/-- The chain on `cs` comes to a later state where it meets the one on `bs`. -/
def Resumes (H : List α → List α) (s : List α) (bs cs : List (List α)) : Prop :=
  ∃ mid rest, mid ≠ [] ∧ cs = mid ++ rest ∧ Meets s bs (run H s mid) rest

theorem Meets.run_eq {s t : List α} {bs cs : List (List α)} (h : Meets s bs t cs) :
    run H s bs = run H t cs := by
  cases h with
  | nil => rfl
  | cons h tail =>
    show run H (H _) tail = run H (H _) tail
    rw [h]

theorem Meets.length_eq {s t : List α} {bs cs : List (List α)} (h : Meets s bs t cs) :
    bs.length = cs.length := by
  cases h with
  | nil => rfl
  | cons h tail => rfl

theorem Resumes.length_lt {s : List α} {bs cs : List (List α)} (h : Resumes H s bs cs) :
    bs.length < cs.length := by
  obtain ⟨mid, rest, hmid, rfl, hmeets⟩ := h
  rw [List.length_append, hmeets.length_eq]
  exact Nat.lt_add_of_pos_left (List.length_pos_of_ne_nil hmid)

theorem Meets.concat {s t : List α} {bs cs : List (List α)} (h : Meets s bs t cs) (hne : bs ≠ [])
    (b : List α) : Meets s (bs ++ [b]) t (cs ++ [b]) := by
  cases h with
  | nil => exact absurd rfl hne
  | cons h tail => exact .cons h (tail ++ [b])

theorem Meets.eq_of_same {s : List α} {bs cs : List (List α)} (h : Meets s bs s cs) : bs = cs := by
  cases h with
  | nil => rfl
  | cons h tail => rw [List.append_cancel_left h]

variable {n : ℕ}

theorem length_run (hlength : ∀ x, (H x).length = n) (s : List α) {bs : List (List α)}
    (hne : bs ≠ []) : (run H s bs).length = n := by
  obtain ⟨bs, b, rfl⟩ := List.eq_nil_or_concat bs |>.resolve_left hne
  rw [List.concat_eq_append, run_concat, hlength]

/-- What resumes a chain goes on from a digest, which has to fit into the first string. -/
theorem Resumes.digest_le (hlength : ∀ x, (H x).length = n) {s b : List α} {bs cs : List (List α)}
    (h : Resumes H s (b :: bs) cs) : n ≤ s.length + b.length := by
  obtain ⟨mid, rest, hmid, -, hmeets⟩ := h
  cases hmeets with
  | cons hstring tail =>
    have hlen := congrArg List.length hstring
    rw [List.length_append, List.length_append, length_run hlength s hmid] at hlen
    omega

/-- Chains on equally many blocks that end in the same state meet: the last strings are equal, so
the states in front of them are, and so on up to the first blocks. -/
theorem meets_of_run_eq (hlength : ∀ x, (H x).length = n) {s t : List α} {bs cs : List (List α)}
    (hcount : bs.length = cs.length) (hinj : NoCollision H s bs t cs)
    (h : run H s bs = run H t cs) : Meets s bs t cs := by
  induction bs using List.reverseRecOn generalizing cs with
  | nil =>
    obtain rfl := List.length_eq_zero_iff.1 hcount.symm
    obtain rfl : s = t := h
    exact .nil s
  | append_singleton bs b ih =>
    obtain rfl | ⟨cs, c, rfl⟩ := List.eq_nil_or_concat cs
    · simp at hcount
    · rw [List.concat_eq_append] at h hcount hinj ⊢
      rw [List.length_append, List.length_append, List.length_singleton, List.length_singleton,
        Nat.add_right_cancel_iff] at hcount
      rw [run_concat, run_concat] at h
      rw [NoCollision, hashed_append, hashed_append] at hinj
      have hstring : run H s bs ++ b = run H t cs ++ c := by
        refine hinj (Or.inl ?_) (Or.inr ?_) h
        · exact List.mem_append_right _ List.mem_cons_self
        · exact List.mem_append_right _ List.mem_cons_self
      rcases eq_or_ne bs [] with rfl | hbs
      · obtain rfl := List.length_eq_zero_iff.1 hcount.symm
        exact .cons hstring []
      · have hcs : cs ≠ [] := by
          rintro rfl
          exact hbs (List.length_eq_zero_iff.1 hcount)
        obtain ⟨hstate, rfl⟩ := List.append_inj hstring
          ((length_run hlength s hbs).trans (length_run hlength t hcs).symm)
        refine (ih hcount ?_ hstate).concat hbs b
        exact hinj.mono fun x hx => hx.imp (List.mem_append_left _) (List.mem_append_left _)

theorem resumes_of_run_eq (hlength : ∀ x, (H x).length = n) {s : List α} {bs cs : List (List α)}
    (hcount : bs.length < cs.length) (hinj : NoCollision H s bs s cs)
    (h : run H s bs = run H s cs) : Resumes H s bs cs := by
  obtain ⟨mid, rest, rfl, hrest⟩ : ∃ mid rest, cs = mid ++ rest ∧ bs.length = rest.length := by
    refine ⟨cs.take (cs.length - bs.length), cs.drop (cs.length - bs.length), ?_, ?_⟩
    · rw [List.take_append_drop]
    · rw [List.length_drop]
      omega
  have hmid : mid ≠ [] := by
    rintro rfl
    rw [List.nil_append] at hcount
    omega
  rw [run_append] at h
  refine ⟨mid, rest, hmid, rfl, meets_of_run_eq hlength hrest ?_ h⟩
  rw [NoCollision, hashed_append] at hinj
  exact hinj.mono fun x hx => hx.imp_right (List.mem_append_right _)

theorem Resumes.run_eq {s : List α} {bs cs : List (List α)} (h : Resumes H s bs cs) :
    run H s bs = run H s cs := by
  obtain ⟨mid, rest, -, rfl, hmeets⟩ := h
  rw [run_append, hmeets.run_eq]

theorem NoCollision.symm {s t : List α} {bs cs : List (List α)} (h : NoCollision H s bs t cs) :
    NoCollision H t cs s bs := h.mono fun _ => Or.symm

theorem run_eq_run_iff (hlength : ∀ x, (H x).length = n) {s : List α} {bs cs : List (List α)}
    (hinj : NoCollision H s bs s cs) :
    run H s bs = run H s cs ↔ bs = cs ∨ Resumes H s bs cs ∨ Resumes H s cs bs := by
  constructor
  · intro h
    rcases lt_trichotomy bs.length cs.length with hcount | hcount | hcount
    · exact Or.inr (Or.inl (resumes_of_run_eq hlength hcount hinj h))
    · exact Or.inl (meets_of_run_eq hlength hcount hinj h).eq_of_same
    · exact Or.inr (Or.inr (resumes_of_run_eq hlength hcount hinj.symm h.symm))
  · rintro (rfl | h | h)
    · rfl
    · exact h.run_eq
    · exact h.run_eq.symm

end HashChain
