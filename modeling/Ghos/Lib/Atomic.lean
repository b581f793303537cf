import Ghos.Lib.Machine

/-!
# Transactions

A transaction is a list of inputs that take effect together or not at all: the first input that
fails takes back what those before it have done.

* `commit`: the inputs of one transaction;
* `atomic`: the machine whose inputs are transactions;
* `committed`: the inputs of the transactions that go through, in one run;
* `exec_atomic`, `log_atomic`: transactions do and yield what the committed inputs do, one after
  the other.  So what holds after every run holds after all transactions (`exec_atomic_invariant`).
-/

namespace Machine

variable {σ α ε ω : Type*} (M : Machine σ α ε ω)

/-- One input after the other.  The error comes with the position of the input that failed. -/
def commit (s : σ) : List α → Except (ℕ × ε) (σ × List ω)
  | [] => .ok (s, [])
  | a :: tx =>
    match M.step s a with
    | .error e => .error (0, e)
    | .ok (s', o) =>
      match commit s' tx with
      | .error (i, e) => .error (i + 1, e)
      | .ok (s'', os) => .ok (s'', o :: os)

/-- The machine that takes whole transactions. -/
def atomic : Machine σ (List α) (ℕ × ε) (List ω) where
  init := M.init
  step := M.commit

/-- The inputs of the transactions that go through. -/
def committed (s : σ) : List (List α) → List α
  | [] => []
  | tx :: txs => (if M.atomic.Accepts s tx then tx else []) ++ committed (M.atomic.next s tx) txs

variable {M}

/-- What goes through is what the machine does with the inputs, all of them accepted. -/
theorem commit_eq_ok {s s' : σ} {tx : List α} {os : List ω} (h : M.commit s tx = .ok (s', os)) :
    (∀ i a, tx[i]? = some a → M.AcceptedFrom s tx i a) ∧ M.exec s tx = s' ∧ M.log s tx = os := by
  induction tx generalizing s os with
  | nil =>
    cases h
    exact ⟨fun i a hi => by simp at hi, rfl, rfl⟩
  | cons b tx ih =>
    unfold commit at h
    cases hstep : M.step s b with
    | error e => simp [hstep] at h
    | ok out =>
      obtain ⟨t, o⟩ := out
      cases hrest : M.commit t tx with
      | error e => simp [hstep, hrest] at h
      | ok out' =>
        obtain ⟨t', os'⟩ := out'
        simp only [hstep, hrest, Except.ok.injEq, Prod.mk.injEq] at h
        obtain ⟨rfl, rfl⟩ := h
        obtain ⟨hall, hexec, hlog⟩ := ih hrest
        have hnext : M.next s b = t := next_of_ok hstep
        refine ⟨fun i a hi => ?_, ?_, ?_⟩
        · cases i with
          | zero =>
            obtain rfl : b = a := by simpa using hi
            exact acceptedFrom_zero.2 ⟨rfl, _, hstep⟩
          | succ i =>
            rw [acceptedFrom_cons, hnext]
            exact hall i a (by simpa using hi)
        · rw [exec_cons, hnext, hexec]
        · simp only [log, hstep, hlog]

/-- A transaction that fails changes nothing, one that goes through does what its inputs do. -/
theorem atomic_next (s : σ) (tx : List α) :
    M.atomic.next s tx = M.exec s (if M.atomic.Accepts s tx then tx else []) := by
  by_cases h : M.atomic.Accepts s tx
  · obtain ⟨os, hos⟩ := h.exists_next
    rw [if_pos h]
    exact (commit_eq_ok hos).2.1.symm
  · rw [if_neg h, next_of_not_accepts h, exec_nil]

/-- A run of transactions leaves the state that the committed inputs leave. -/
theorem exec_atomic (s : σ) (txs : List (List α)) :
    M.atomic.exec s txs = M.exec s (M.committed s txs) := by
  induction txs generalizing s with
  | nil => rfl
  | cons tx txs ih =>
    unfold committed
    rw [exec_cons, ih, exec_append, ← atomic_next]

/-- A run of transactions yields what the committed inputs yield. -/
theorem log_atomic (s : σ) (txs : List (List α)) :
    (M.atomic.log s txs).flatten = M.log s (M.committed s txs) := by
  induction txs generalizing s with
  | nil => rfl
  | cons tx txs ih =>
    unfold committed
    rw [log_append, ← atomic_next, ← ih]
    cases hstep : M.atomic.step s tx with
    | error e =>
      have hnot : ¬ M.atomic.Accepts s tx := by
        rintro ⟨out, hok⟩
        cases hok.symm.trans hstep
      rw [if_neg hnot, next_of_not_accepts hnot]
      simp only [log, hstep, List.nil_append]
    | ok out =>
      have hacc : M.atomic.Accepts s tx := ⟨out, hstep⟩
      rw [if_pos hacc, (commit_eq_ok hstep).2.2, next_of_ok hstep]
      simp only [log, hstep, List.flatten_cons]

theorem exists_mem_of_mem_committed {s : σ} {txs : List (List α)} {a : α}
    (h : a ∈ M.committed s txs) : ∃ tx ∈ txs, a ∈ tx := by
  induction txs generalizing s with
  | nil => cases h
  | cons tx txs ih =>
    unfold committed at h
    rcases List.mem_append.1 h with h | h
    · by_cases hacc : M.atomic.Accepts s tx
      · rw [if_pos hacc] at h
        exact ⟨tx, List.mem_cons_self, h⟩
      · rw [if_neg hacc] at h
        cases h
    · obtain ⟨tx', htx', ha⟩ := ih h
      exact ⟨tx', List.mem_cons_of_mem tx htx', ha⟩

/-- What the accepted inputs of the transactions preserve, the transactions do. -/
theorem exec_atomic_invariant {P : σ → Prop} {s : σ} {txs : List (List α)} (hs : P s)
    (hstep : ∀ tx ∈ txs, ∀ a ∈ tx, ∀ s s' o, P s → M.step s a = .ok (s', o) → P s') :
    P (M.atomic.exec s txs) := by
  rw [exec_atomic]
  refine exec_invariant hs fun a ha => ?_
  obtain ⟨tx, htx, hmem⟩ := exists_mem_of_mem_committed ha
  exact hstep tx htx a hmem

/-- Transactions reach what runs reach. -/
theorem reachable_of_atomic {s : σ} (h : M.atomic.Reachable s) : M.Reachable s := by
  obtain ⟨txs, rfl⟩ := h
  exact ⟨M.committed M.init txs, (exec_atomic M.init txs).symm⟩

end Machine
