import Ghos.Lib.Codec
import Ghos.Lib.Machine

/-!
# Records in buffers

A store keeps each of its records in a buffer of its own.  The buffer is allocated when the record
is created and written over from the front when the record changes.

* `Layout`: encodings of records, and the space that is allocated for them;
* `Layout.save`, `Layout.saveAll`: one buffer and the buffers under some keys;
* `Layout.image`: the buffers that hold a store; they load as what they hold (`load_image`), and
  saving what has changed turns the image of one store into the image of the other
  (`saveAll_image`);
* `Layout.Placed`: the entries of the state of a machine;  `Layout.stored` is the machine on their
  buffers, and it runs as the machine does (`Placed.exec_stored`).
-/

/-- Records with their encodings, which fill the space that is allocated for them. -/
structure Layout (τ α : Type) where
  codec : Codec τ α
  blank : τ
  space : α → ℕ
  length_write : ∀ {x p}, codec.write x = some p → p.length = space x

namespace Layout

variable {τ α κ : Type}

/-- Write over the front of a buffer. -/
def overwrite (buf p : List τ) : Option (List τ) :=
  if p.length ≤ buf.length then some (p ++ buf.drop p.length) else none

theorem overwrite_of_length_eq {buf p : List τ} (h : p.length = buf.length) :
    overwrite buf p = some p := by
  unfold overwrite
  rw [if_pos h.le, h, List.drop_length, List.append_nil]

variable (A : Layout τ α)

/-- The buffer of an entry afterwards: none if it is gone, and a new one if there was none. -/
def save (buf : Option (List τ)) : Option α → Option (Option (List τ))
  | none => some none
  | some x => do
    let p ← A.codec.write x
    let buf ← overwrite (buf.getD (List.replicate (A.space x) A.blank)) p
    return some buf

/-- What a buffer holds. -/
def load (buf : Option (List τ)) : Option α :=
  buf.bind fun s => (A.codec.read s).map Prod.fst

/-- Save the entries of the keys, one after the other. -/
def saveAll [DecidableEq κ] (S : κ → Option α) (keys : List κ) (b : κ → Option (List τ)) :
    Option (κ → Option (List τ)) :=
  keys.foldlM (fun b k => (A.save (b k) (S k)).map fun buf => Function.update b k buf) b

/-- All records of the store have encodings. -/
def Encodable (S : κ → Option α) : Prop := ∀ k x, S k = some x → (A.codec.write x).isSome

/-- The buffers that hold the store. -/
def image (S : κ → Option α) (k : κ) : Option (List τ) := (S k).bind A.codec.write

variable {A} {S T : κ → Option α}

theorem image_eq_some (h : A.Encodable S) {k : κ} {x : α} (hx : S k = some x) :
    ∃ p, A.codec.write x = some p ∧ A.image S k = some p := by
  obtain ⟨p, hp⟩ := Option.isSome_iff_exists.1 (h k x hx)
  exact ⟨p, hp, by rw [image, hx, Option.bind_some, hp]⟩

theorem exists_of_image_eq_some {k : κ} {buf : List τ} (h : A.image S k = some buf) :
    ∃ x, S k = some x ∧ A.codec.write x = some buf :=
  Option.bind_eq_some_iff.1 h

/-- Records are loaded as they were saved. -/
theorem load_image (h : A.Encodable S) (k : κ) : A.load (A.image S k) = S k := by
  cases hx : S k with
  | none => rw [image, hx, Option.bind_none, load, Option.bind_none]
  | some x =>
    obtain ⟨p, hp, himage⟩ := image_eq_some h hx
    have hread := A.codec.read_append hp []
    rw [List.append_nil] at hread
    rw [himage, load, Option.bind_some, hread, Option.map_some]

/-- One entry is saved, into a new buffer or one of the right size. -/
theorem save_image {k : κ} (hS : A.Encodable S) (hT : A.Encodable T)
    (hspace : ∀ x y, S k = some x → T k = some y → A.space x = A.space y) :
    A.save (A.image S k) (T k) = some (A.image T k) := by
  cases hy : T k with
  | none => rw [save, image, hy, Option.bind_none]
  | some y =>
    obtain ⟨q, hq, himage⟩ := image_eq_some hT hy
    have hlen : q.length =
        ((A.image S k).getD (List.replicate (A.space y) A.blank)).length := by
      cases hx : S k with
      | none =>
        rw [image, hx, Option.bind_none, Option.getD_none, List.length_replicate]
        exact A.length_write hq
      | some x =>
        obtain ⟨p, hp, hp'⟩ := image_eq_some hS hx
        rw [hp', Option.getD_some, A.length_write hq, A.length_write hp, hspace x y hx hy]
    simp only [save, hq, himage, bind, Option.bind_some, overwrite_of_length_eq hlen, pure]

/-- Where all entries that differ are saved, the buffers hold the new store. -/
theorem saveAll_image [DecidableEq κ] (hS : A.Encodable S) (hT : A.Encodable T)
    (hspace : ∀ k x y, S k = some x → T k = some y → A.space x = A.space y) {keys : List κ}
    (hkeys : ∀ k, k ∉ keys → S k = T k) : A.saveAll T keys (A.image S) = some (A.image T) := by
  induction keys generalizing S with
  | nil =>
    have heq : S = T := funext fun k => hkeys k List.not_mem_nil
    rw [heq]
    rfl
  | cons k keys ih =>
    have hsave := save_image hS hT (hspace k)
    have hupdate : Function.update (A.image S) k (A.image T k) =
        A.image (Function.update S k (T k)) := by
      funext j
      by_cases hj : j = k
      · subst hj
        simp only [image, Function.update_self]
      · simp only [image, Function.update_of_ne hj]
    simp only [saveAll, List.foldlM_cons, hsave, Option.map_some, bind, Option.bind_some, hupdate]
    refine ih (fun j x hx => ?_) (fun j x y hx hy => ?_) fun j hj => ?_
    · by_cases hjk : j = k
      · subst hjk
        rw [Function.update_self] at hx
        exact hT j x hx
      · rw [Function.update_of_ne hjk] at hx
        exact hS j x hx
    · by_cases hjk : j = k
      · subst hjk
        rw [Function.update_self, hy, Option.some.injEq] at hx
        rw [hx]
      · rw [Function.update_of_ne hjk] at hx
        exact hspace j x y hx hy
    · by_cases hjk : j = k
      · subst hjk
        exact Function.update_self ..
      · rw [Function.update_of_ne hjk]
        exact hkeys j fun hmem => (List.mem_cons.1 hmem).elim hjk hj

/-! ### A machine on buffers -/

section Stored

variable {σ ι ε ω : Type} [DecidableEq κ]

/-- The machine on the buffers of its entries: load them all, step, and save those the input may
change.  A record that does not fit its buffer makes the step fail. -/
def stored (A : Layout τ α) (M : Machine σ ι ε ω) (entries : σ → κ → Option α)
    (state : (κ → Option α) → σ) (keys : ι → List κ) :
    Machine (κ → Option (List τ)) ι (Option ε) ω where
  init := A.image (entries M.init)
  step b t :=
    match M.step (state fun k => A.load (b k)) t with
    | .error e => .error (some e)
    | .ok (s, o) =>
      match A.saveAll (entries s) (keys t) b with
      | none => .error none
      | some b' => .ok (b', o)

/-- The states that are their entries, and what the steps do to the entries. -/
structure Placed (A : Layout τ α) (M : Machine σ ι ε ω) (entries : σ → κ → Option α)
    (state : (κ → Option α) → σ) (keys : ι → List κ) : Prop where
  state_entries : ∀ s, M.Reachable s → state (entries s) = s
  frame : ∀ s t s' o, M.step s t = .ok (s', o) → ∀ k, k ∉ keys t → entries s k = entries s' k
  space : ∀ s s', M.Reachable s → M.Reachable s' → ∀ k x y,
    entries s k = some x → entries s' k = some y → A.space x = A.space y

namespace Placed

variable {M : Machine σ ι ε ω} {entries : σ → κ → Option α} {state : (κ → Option α) → σ}
  {keys : ι → List κ}

/-- One input, where the records before and after it have encodings. -/
theorem step_stored (P : Placed A M entries state keys) {s : σ} (hs : M.Reachable s) (t : ι)
    (hS : A.Encodable (entries s)) (hT : A.Encodable (entries (M.next s t))) :
    (A.stored M entries state keys).step (A.image (entries s)) t =
      match M.step s t with
      | .error e => .error (some e)
      | .ok (s', o) => .ok (A.image (entries s'), o) := by
  have hload : (fun k => A.load (A.image (entries s) k)) = entries s := funext (load_image hS)
  simp only [stored, hload, P.state_entries s hs]
  cases hstep : M.step s t with
  | error e => rfl
  | ok out =>
    obtain ⟨s', o⟩ := out
    have hnext := Machine.next_of_ok hstep
    rw [hnext] at hT
    have hs' : M.Reachable s' := hnext ▸ hs.next t
    simp only [saveAll_image hS hT (P.space s s' hs hs') (P.frame s t s' o hstep)]

/-- On buffers the machine goes through the images of its states, and yields what it yields. -/
theorem exec_stored (P : Placed A M entries state keys) {s : σ} (hs : M.Reachable s) (run : List ι)
    (h : ∀ n, A.Encodable (entries (M.exec s (run.take n)))) :
    (A.stored M entries state keys).exec (A.image (entries s)) run =
        A.image (entries (M.exec s run)) ∧
      (A.stored M entries state keys).log (A.image (entries s)) run = M.log s run := by
  induction run generalizing s with
  | nil => exact ⟨rfl, rfl⟩
  | cons t run ih =>
    have hstep := P.step_stored hs t (h 0) (h 1)
    have hrest := ih (hs.next t) fun n => h (n + 1)
    cases hM : M.step s t with
    | error e =>
      rw [hM] at hstep
      have hnext : M.next s t = s := by simp only [Machine.next, hM]
      have hnext' : (A.stored M entries state keys).next (A.image (entries s)) t =
          A.image (entries s) := by
        simp only [Machine.next, hstep]
      rw [hnext] at hrest
      simp only [Machine.exec_cons, hnext, hnext', Machine.log, hM, hstep]
      exact hrest
    | ok out =>
      obtain ⟨s', o⟩ := out
      rw [hM] at hstep
      rw [Machine.next_of_ok hM] at hrest
      simp only [Machine.exec_cons, Machine.next_of_ok hM, Machine.next_of_ok hstep, Machine.log,
        hM, hstep, List.cons.injEq, true_and]
      exact hrest

end Placed

end Stored

end Layout
