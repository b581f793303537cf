import Ghos.Lib.Machine

/-!
# Machines whose inputs touch few cells

The state of the machine is a family of cells, and each input declares the cells it reads and the
cells it writes.

* `Coupled`: two outcomes that fail alike, or succeed with the same output and related states;
* `Footprint`: an input leaves every cell alone that it does not write, and acts alike on two states
  that agree on the cells it reads;
* `Independent`: neither input writes what the other reads, so they commute (`next_comm`) and do
  not change each other's outcome (`outcome_next`);
* `Reordering`: the same labelled inputs in another order, where only independent inputs have
  changed places; it ends in the same state, and each input has the same outcome
  (`exec_reordering`, `record_reordering`);
* `parallel`: the inputs of a batch all act on the state before the batch; for a batch of
  independent inputs this is the same as one after the other (`parallel_eq_exec`);
* `schedule_serializable`: the two together, for a schedule of batches.
-/

/-- Two outcomes fail with the same error, or succeed with the same output and related states. -/
inductive Coupled {σ ε ω : Type*} (R : σ → σ → Prop) : Except ε (σ × ω) → Except ε (σ × ω) → Prop
  | error (e : ε) : Coupled R (.error e) (.error e)
  | ok {s t : σ} (o : ω) (h : R s t) : Coupled R (.ok (s, o)) (.ok (t, o))

namespace Coupled

variable {σ τ ε ε' ω ω' β : Type} {R : σ → σ → Prop} {Q : τ → τ → Prop}

/-- The same check in front of two computations. -/
theorem bind (x : Except ε β) {f g : β → Except ε (σ × ω)} (h : ∀ b, Coupled R (f b) (g b)) :
    Coupled R (x >>= f) (x >>= g) := by
  cases x with
  | error e => exact .error e
  | ok b => exact h b

/-- Two coupled computations, each followed by another one. -/
theorem bind_ok {x y : Except ε (σ × ω)} {f g : σ × ω → Except ε (τ × ω')} (hxy : Coupled R x y)
    (h : ∀ s t o, R s t → Coupled Q (f (s, o)) (g (t, o))) : Coupled Q (x >>= f) (y >>= g) := by
  cases hxy with
  | error e => exact .error e
  | ok o hst => exact h _ _ o hst

theorem mapError {x y : Except ε (σ × ω)} (hxy : Coupled R x y) (f : ε → ε') :
    Coupled R (x.mapError f) (y.mapError f) := by
  cases hxy with
  | error e => exact .error (f e)
  | ok o hst => exact .ok o hst

theorem mono {R' : σ → σ → Prop} {x y : Except ε (σ × ω)} (hxy : Coupled R x y)
    (h : ∀ s t, R s t → R' s t) : Coupled R' x y := by
  cases hxy with
  | error e => exact .error e
  | ok o hst => exact .ok o (h _ _ hst)

end Coupled

namespace Machine

variable {σ α ε ω κ ν ι : Type*}

/-- What becomes of an input: its output or its error. -/
def outcome (M : Machine σ α ε ω) (s : σ) (a : α) : Except ε ω := (M.step s a).map Prod.snd

/-- The cells that an input reads and writes, when a state is a family of cells. -/
structure Footprint (M : Machine σ α ε ω) (cells : σ ≃ (κ → ν)) where
  reads : α → Set κ
  writes : α → Set κ
  writes_subset : ∀ a, writes a ⊆ reads a
  frame : ∀ s a s' o, M.step s a = .ok (s', o) → ∀ k ∉ writes a, cells s' k = cells s k
  coupled : ∀ s t a, (∀ k ∈ reads a, cells s k = cells t k) →
    Coupled (fun s' t' => ∀ k ∈ writes a, cells s' k = cells t' k) (M.step s a) (M.step t a)

namespace Footprint

variable {M : Machine σ α ε ω} {cells : σ ≃ (κ → ν)} (F : Footprint M cells) {s t : σ} {a b : α}

/-! ### One input -/

theorem next_frame {k : κ} (hk : k ∉ F.writes a) : cells (M.next s a) k = cells s k := by
  by_cases h : M.Accepts s a
  · obtain ⟨o, ho⟩ := h.exists_next
    exact F.frame s a _ o ho k hk
  · rw [next_of_not_accepts h]

theorem outcome_congr (h : ∀ k ∈ F.reads a, cells s k = cells t k) :
    M.outcome s a = M.outcome t a := by
  have hc := F.coupled s t a h
  unfold outcome
  generalize M.step s a = x at hc
  generalize M.step t a = y at hc
  cases hc with
  | error e => rfl
  | ok o hst => rfl

theorem next_congr (h : ∀ k ∈ F.reads a, cells s k = cells t k) {k : κ} (hk : k ∈ F.writes a) :
    cells (M.next s a) k = cells (M.next t a) k := by
  have hc := F.coupled s t a h
  unfold next
  generalize M.step s a = x at hc
  generalize M.step t a = y at hc
  cases hc with
  | error e => exact h k (F.writes_subset a hk)
  | ok o hst => exact hst k hk

/-! ### Two inputs -/

/-- Neither input writes what the other reads. -/
def Independent (a b : α) : Prop :=
  (∀ k ∈ F.writes a, k ∉ F.reads b) ∧ ∀ k ∈ F.writes b, k ∉ F.reads a

variable {F}

theorem Independent.symm (h : F.Independent a b) : F.Independent b a := ⟨h.2, h.1⟩

/-- What `b` reads is not changed by `a`. -/
theorem Independent.cells_next (h : F.Independent a b) {k : κ} (hk : k ∈ F.reads b) :
    cells (M.next s a) k = cells s k :=
  F.next_frame fun hwrite => h.1 k hwrite hk

theorem Independent.outcome_next (h : F.Independent a b) :
    M.outcome (M.next s a) b = M.outcome s b :=
  F.outcome_congr fun _ hk => h.cells_next hk

/-- Independent inputs commute. -/
theorem Independent.next_comm (h : F.Independent a b) :
    M.next (M.next s a) b = M.next (M.next s b) a := by
  refine cells.injective (funext fun k => ?_)
  by_cases ha : k ∈ F.writes a
  -- `b` does not write what `a` writes, and `a` acts alike before and after `b`
  · have hb : k ∉ F.writes b := fun hb => h.1 k ha (F.writes_subset b hb)
    rw [F.next_frame hb]
    exact (F.next_congr (fun l hl => h.symm.cells_next hl) ha).symm
  · rw [F.next_frame ha]
    by_cases hb : k ∈ F.writes b
    · exact F.next_congr (fun l hl => h.cells_next hl) hb
    · rw [F.next_frame hb, F.next_frame hb, F.next_frame ha]

end Footprint

/-! ### Reordered runs -/

/-- The outcomes of a run whose inputs carry labels. -/
def record (M : Machine σ α ε ω) (s : σ) : List (ι × α) → List (ι × Except ε ω)
  | [] => []
  | x :: run => (x.1, M.outcome s x.2) :: record M (M.next s x.2) run

namespace Footprint

variable {M : Machine σ α ε ω} {cells : σ ≃ (κ → ν)} {F : Footprint M cells} {s : σ}

/-- `run'` has the labelled inputs of `run`; two of them have changed places only if they are
independent. -/
structure Reordering (F : Footprint M cells) (run run' : List (ι × α)) : Prop where
  perm : run.Perm run'
  order : run'.Pairwise fun y x => [x, y].Sublist run → F.Independent x.2 y.2

/-- An input may be read before inputs that are independent of it. -/
theorem exec_next_comm {x : α} {pre : List α} (h : ∀ y ∈ pre, F.Independent x y) :
    M.exec (M.next s x) pre = M.next (M.exec s pre) x := by
  induction pre generalizing s with
  | nil => rfl
  | cons y pre ih =>
    have hy : F.Independent x y := h y List.mem_cons_self
    rw [exec_cons, exec_cons, hy.next_comm]
    exact ih fun z hz => h z (List.mem_cons_of_mem y hz)

theorem record_middle {x : ι × α} {pre post : List (ι × α)}
    (h : ∀ y ∈ pre, F.Independent x.2 y.2) :
    (M.record s (pre ++ x :: post)).Perm
      ((x.1, M.outcome s x.2) :: M.record (M.next s x.2) (pre ++ post)) := by
  induction pre generalizing s with
  | nil => exact List.Perm.refl _
  | cons y pre ih =>
    have hy : F.Independent x.2 y.2 := h y List.mem_cons_self
    have hrest := ih (s := M.next s y.2) fun z hz => h z (List.mem_cons_of_mem y hz)
    -- `x` finds after `y` what it would have found before, and so does `y` after `x`
    rw [hy.symm.outcome_next, ← hy.next_comm] at hrest
    refine (hrest.cons (y.1, M.outcome s y.2)).trans ((List.Perm.swap _ _ _).trans ?_)
    show ((x.1, M.outcome s x.2) :: (y.1, M.outcome s y.2) ::
        M.record (M.next (M.next s x.2) y.2) (pre ++ post)).Perm
      ((x.1, M.outcome s x.2) :: (y.1, M.outcome (M.next s x.2) y.2) ::
        M.record (M.next (M.next s x.2) y.2) (pre ++ post))
    rw [hy.outcome_next]

/-- The first input of a run is found in the reordered run behind inputs independent of it. -/
theorem Reordering.split {x : ι × α} {run run' : List (ι × α)} (h : F.Reordering (x :: run) run') :
    ∃ pre post, run' = pre ++ x :: post ∧ (∀ y ∈ pre, F.Independent x.2 y.2) ∧
      F.Reordering run (pre ++ post) := by
  have hx : x ∈ run' := h.perm.subset List.mem_cons_self
  obtain ⟨pre, post, rfl, hfirst⟩ := List.eq_append_cons_of_mem hx
  refine ⟨pre, post, rfl, fun y hy => ?_, ?_, ?_⟩
  · have hne : y ≠ x := fun heq => hfirst (heq ▸ hy)
    have hmem : y ∈ x :: run := h.perm.symm.subset (List.mem_append_left _ hy)
    have hrun : y ∈ run := (List.mem_cons.1 hmem).resolve_left hne
    have hpair := (List.pairwise_append.1 h.order).2.2 y hy x List.mem_cons_self
    exact hpair (List.cons_sublist_cons.2 (List.singleton_sublist.2 hrun))
  · exact List.Perm.cons_inv (h.perm.trans List.perm_middle)
  · have hsub : (pre ++ post).Sublist (pre ++ x :: post) :=
      (List.sublist_cons_self x post).append_left pre
    exact (h.order.sublist hsub).imp fun hzw hsublist => hzw (hsublist.cons x)

/-- A reordered run ends in the same state. -/
theorem exec_reordering {run run' : List (ι × α)} (h : F.Reordering run run') :
    M.exec s (run'.map Prod.snd) = M.exec s (run.map Prod.snd) := by
  induction run generalizing s run' with
  | nil => rw [List.nil_perm.1 h.perm]
  | cons x run ih =>
    obtain ⟨pre, post, rfl, hpre, hrest⟩ := h.split
    have hind : ∀ a ∈ pre.map Prod.snd, F.Independent x.2 a := by
      intro a ha
      obtain ⟨y, hy, rfl⟩ := List.mem_map.1 ha
      exact hpre y hy
    have hrun := ih (s := M.next s x.2) hrest
    rw [List.map_append, exec_append] at hrun
    rw [List.map_append, List.map_cons, exec_append, exec_cons, ← exec_next_comm hind, hrun]
    rfl

/-- In a reordered run each input has the outcome it had. -/
theorem record_reordering {run run' : List (ι × α)} (h : F.Reordering run run') :
    (M.record s run').Perm (M.record s run) := by
  induction run generalizing s run' with
  | nil => rw [List.nil_perm.1 h.perm]
  | cons x run ih =>
    obtain ⟨pre, post, rfl, hpre, hrest⟩ := h.split
    exact (record_middle hpre).trans ((ih hrest).cons _)

/-! ### Batches -/

open Classical in
/-- The cells after a batch whose inputs all act on `s`; each cell is taken from the first input
that writes it. -/
noncomputable def merge (F : Footprint M cells) (s : σ) : List α → κ → ν
  | [] => cells s
  | a :: batch => fun k => if k ∈ F.writes a then cells (M.next s a) k else merge F s batch k

/-- The state after a batch whose inputs all act on `s`. -/
noncomputable def parallel (F : Footprint M cells) (s : σ) (batch : List α) : σ :=
  cells.symm (F.merge s batch)

theorem merge_next {a : α} {batch : List α} (h : ∀ b ∈ batch, F.Independent a b) :
    F.merge (M.next s a) batch = F.merge s (a :: batch) := by
  induction batch with
  | nil =>
    funext k
    simp only [merge]
    split_ifs with ha
    · rfl
    · exact F.next_frame ha
  | cons b batch ih =>
    have hb : F.Independent a b := h b List.mem_cons_self
    have hrest := ih fun c hc => h c (List.mem_cons_of_mem b hc)
    funext k
    have hk := congrFun hrest k
    simp only [merge] at hk ⊢
    rw [hk]
    by_cases hkb : k ∈ F.writes b
    · have hka : k ∉ F.writes a := fun ha => hb.2 k hkb (F.writes_subset a ha)
      rw [if_pos hkb, if_neg hka, if_pos hkb]
      exact F.next_congr (fun l hl => hb.cells_next hl) hkb
    · rw [if_neg hkb, if_neg hkb]

/-- A batch of independent inputs may be executed all at once. -/
theorem parallel_eq_exec {batch : List α} (h : batch.Pairwise F.Independent) :
    F.parallel s batch = M.exec s batch := by
  rw [parallel, Equiv.symm_apply_eq]
  induction batch generalizing s with
  | nil => rfl
  | cons a batch ih =>
    obtain ⟨ha, hbatch⟩ := List.pairwise_cons.1 h
    rw [exec_cons, ← ih hbatch, merge_next ha]

/-- Each input of such a batch has the outcome that it has on the state before the batch. -/
theorem record_batch {batch : List (ι × α)}
    (h : batch.Pairwise fun x y => F.Independent x.2 y.2) :
    M.record s batch = batch.map fun x => (x.1, M.outcome s x.2) := by
  induction batch generalizing s with
  | nil => rfl
  | cons x batch ih =>
    obtain ⟨hx, hbatch⟩ := List.pairwise_cons.1 h
    rw [record, ih hbatch, List.map_cons]
    congr 1
    refine List.map_congr_left fun y hy => ?_
    rw [(hx y hy).outcome_next]

/-- The state after a schedule of batches. -/
noncomputable def execBatches (F : Footprint M cells) (s : σ) (batches : List (List (ι × α))) : σ :=
  batches.foldl (fun s batch => F.parallel s (batch.map Prod.snd)) s

/-- The outcomes of a schedule of batches: each input meets the state before its batch. -/
noncomputable def recordBatches (F : Footprint M cells) (s : σ) :
    List (List (ι × α)) → List (ι × Except ε ω)
  | [] => []
  | batch :: batches =>
    batch.map (fun x => (x.1, M.outcome s x.2)) ++
      recordBatches F (F.parallel s (batch.map Prod.snd)) batches

theorem record_append (s : σ) (run run' : List (ι × α)) :
    M.record s (run ++ run') = M.record s run ++ M.record (M.exec s (run.map Prod.snd)) run' := by
  induction run generalizing s with
  | nil => rfl
  | cons x run ih => exact congrArg _ (ih (M.next s x.2))

/-- A schedule of batches of independent inputs is the run that reads them one after the other. -/
theorem execBatches_eq {batches : List (List (ι × α))}
    (h : ∀ batch ∈ batches, batch.Pairwise fun x y => F.Independent x.2 y.2) :
    F.execBatches s batches = M.exec s (batches.flatten.map Prod.snd) ∧
      F.recordBatches s batches = M.record s batches.flatten := by
  induction batches generalizing s with
  | nil => exact ⟨rfl, rfl⟩
  | cons batch batches ih =>
    have hbatch := h batch List.mem_cons_self
    have hpar : F.parallel s (batch.map Prod.snd) = M.exec s (batch.map Prod.snd) :=
      parallel_eq_exec (List.pairwise_map.2 hbatch)
    obtain ⟨hexec, hrecord⟩ := ih (s := M.exec s (batch.map Prod.snd)) fun b hb =>
      h b (List.mem_cons_of_mem batch hb)
    constructor
    · rw [List.flatten_cons, List.map_append, exec_append, ← hexec, ← hpar]
      rfl
    · rw [List.flatten_cons, record_append, record_batch hbatch, ← hrecord, ← hpar]
      rfl

/-- Any schedule that keeps conflicting inputs in order has the effect and the outcomes of the
run. -/
theorem schedule_serializable {run : List (ι × α)} {batches : List (List (ι × α))}
    (hfree : ∀ batch ∈ batches, batch.Pairwise fun x y => F.Independent x.2 y.2)
    (horder : F.Reordering run batches.flatten) :
    F.execBatches s batches = M.exec s (run.map Prod.snd) ∧
      (F.recordBatches s batches).Perm (M.record s run) := by
  obtain ⟨hexec, hrecord⟩ := execBatches_eq (s := s) hfree
  rw [hexec, hrecord]
  exact ⟨exec_reordering horder, record_reordering horder⟩

end Footprint

end Machine
