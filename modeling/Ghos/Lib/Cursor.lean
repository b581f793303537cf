import Ghos.Lib.Bounded

/-!
# Reading at a cursor

A parser that walks through a byte string with a cursor.  Before the end of the string, `window`,
`padded` and `exactly` all read the next `n` bytes; at the end, the first returns what is left, the
second reads zeros and the third fails.

* `Cursor.Yields r p v`: where `p` stands at the cursor, `r` returns `v` and steps over `p`;
* `Cursor.Parses r p v`: the same, but `r` may stop within `p`;
* `Cursor.Consumes r n`: where `n` bytes are left, `r` returns some value and steps over them.
-/

variable {ε α β : Type}

/-- A parser: it reads the byte string at the cursor, and moves the cursor. -/
abbrev Cursor (ε : Type) := ReaderT (List UInt8) (StateT ℕ (Except ε))

namespace Cursor

variable {r : Cursor ε α} {k : α → Cursor ε β} {p q data : List UInt8} {v : α} {w : β} {m n c : ℕ}

/-- The next `n` bytes, or what is left of them. -/
def window (n : ℕ) : Cursor ε (List UInt8) := fun data c => .ok ((data.drop c).take n, c + n)

/-- The next `n` bytes, with zeros behind the end. -/
def padded (n : ℕ) : Cursor ε (List UInt8) := fun data c =>
  .ok ((List.range n).map fun i => data.getD (c + i) 0, c + n)

/-- The next `n` bytes, or an error. -/
def exactly (n : ℕ) (e : ε) : Cursor ε (List UInt8) := fun data c =>
  if n ≤ (data.drop c).length then .ok ((data.drop c).take n, c + n) else .error e

/-! ### What a parser yields -/

/-- Where `p` stands at the cursor, `r` returns `v` and steps over `p`. -/
def Yields (r : Cursor ε α) (p : List UInt8) (v : α) : Prop :=
  ∀ data c rest, data.drop c = p ++ rest → (r.run data).run c = .ok (v, c + p.length)

theorem yields_pure (v : α) : Yields (pure v : Cursor ε α) [] v := fun _ _ _ _ => rfl

theorem Yields.bind (hr : Yields r p v) (hk : Yields (k v) q w) : Yields (r >>= k) (p ++ q) w := by
  intro data c rest h
  have hp : data.drop c = p ++ (q ++ rest) := by rw [h, List.append_assoc]
  have hq : data.drop (c + p.length) = q ++ rest := by
    rw [← List.drop_drop, hp, List.drop_left]
  rw [ReaderT.run_bind, StateT.run_bind, hr data c _ hp]
  change ((k v).run data).run (c + p.length) = _
  rw [hk data _ rest hq, List.length_append, Nat.add_assoc]

theorem Yields.bind_pure (hr : Yields r p v) (f : α → β) :
    Yields (do let x ← r; return f x) p (f v) := by
  rw [← List.append_nil p]
  exact hr.bind (k := fun x => Pure.pure (f x)) (yields_pure (f v))

theorem Yields.map (hr : Yields r p v) (f : α → β) : Yields (f <$> r) p (f v) := by
  rw [← bind_pure_comp]
  exact hr.bind_pure f

theorem yields_window (hp : p.length = n) : Yields (window n : Cursor ε _) p p := by
  subst hp
  intro data c rest h
  change Except.ok ((data.drop c).take p.length, _) = _
  rw [h, List.take_left]

theorem yields_padded (hp : p.length = n) : Yields (padded n : Cursor ε _) p p := by
  subst hp
  intro data c rest h
  change Except.ok ((List.range p.length).map fun i => data.getD (c + i) 0, _) = _
  have hbytes : ((List.range p.length).map fun i => data.getD (c + i) 0) = p := by
    refine List.ext_getElem (by simp) fun i hi hi' => ?_
    have hget : data[c + i]? = some p[i] := by
      rw [← List.getElem?_drop, h, List.getElem?_append_left hi', List.getElem?_eq_getElem hi']
    simp [List.getD_eq_getElem?_getD, hget]
  rw [hbytes]

theorem yields_exactly (hp : p.length = n) (e : ε) : Yields (exactly n e) p p := by
  subst hp
  intro data c rest h
  change (if p.length ≤ (data.drop c).length then Except.ok ((data.drop c).take p.length, _)
    else _) = _
  rw [h, if_pos (by rw [List.length_append]; omega), List.take_left]

/-! ### How much a parser reads -/

/-- Where `n` bytes are left, `r` returns some value and steps over them. -/
def Consumes (r : Cursor ε α) (n : ℕ) : Prop := ∀ p, p.length = n → ∃ v, Yields r p v

theorem consumes_pure (v : α) : Consumes (pure v : Cursor ε α) 0 := by
  intro p hp
  rw [List.eq_nil_of_length_eq_zero hp]
  exact ⟨v, yields_pure v⟩

theorem Consumes.bind (hr : Consumes r m) (hk : ∀ v, Consumes (k v) n) :
    Consumes (r >>= k) (n + m) := by
  intro p hp
  obtain ⟨v, hv⟩ := hr (p.take m) (by rw [List.length_take]; omega)
  obtain ⟨w, hw⟩ := hk v (p.drop m) (by rw [List.length_drop]; omega)
  rw [← List.take_append_drop m p]
  exact ⟨w, hv.bind hw⟩

theorem Consumes.map (hr : Consumes r n) (f : α → β) : Consumes (f <$> r) n := by
  intro p hp
  obtain ⟨v, hv⟩ := hr p hp
  exact ⟨f v, hv.map f⟩

theorem consumes_window (n : ℕ) : Consumes (window n : Cursor ε _) n :=
  fun p hp => ⟨p, yields_window hp⟩

theorem consumes_exactly (n : ℕ) (e : ε) : Consumes (exactly n e) n :=
  fun p hp => ⟨p, yields_exactly hp e⟩

/-! ### Running a parser -/

theorem run'_of_run {c' : ℕ} (h : (r.run data).run c = .ok (v, c')) :
    (r.run data).run' c = .ok v := by
  rw [StateT.run'_eq, h]
  rfl

/-- Where `p` stands at the cursor, `r` returns `v`, and may leave some of `p` unread. -/
def Parses (r : Cursor ε α) (p : List UInt8) (v : α) : Prop :=
  ∀ data c rest, data.drop c = p ++ rest → ∃ c', (r.run data).run c = .ok (v, c')

theorem parses_pure (p : List UInt8) (v : α) : Parses (pure v : Cursor ε α) p v :=
  fun _ c _ _ => ⟨c, rfl⟩

theorem Yields.bind_parses (hr : Yields r p v) (hk : Parses (k v) q w) :
    Parses (r >>= k) (p ++ q) w := by
  intro data c rest h
  have hp : data.drop c = p ++ (q ++ rest) := by rw [h, List.append_assoc]
  have hq : data.drop (c + p.length) = q ++ rest := by
    rw [← List.drop_drop, hp, List.drop_left]
  obtain ⟨c', hc'⟩ := hk data (c + p.length) rest hq
  refine ⟨c', ?_⟩
  rw [ReaderT.run_bind, StateT.run_bind, hr data c _ hp]
  exact hc'

theorem Parses.run' {rest : List UInt8} (hr : Parses r p v) (h : data.drop c = p ++ rest) :
    (r.run data).run' c = .ok v := by
  obtain ⟨c', hrun⟩ := hr data c rest h
  exact run'_of_run hrun

theorem Consumes.run' (hr : Consumes r n) (h : c + n ≤ data.length) :
    ∃ v, (r.run data).run' c = .ok v := by
  obtain ⟨v, hv⟩ := hr ((data.drop c).take n) (by rw [List.length_take, List.length_drop]; omega)
  have hrun := hv data c ((data.drop c).drop n) (List.take_append_drop n _).symm
  exact ⟨v, run'_of_run hrun⟩

end Cursor
