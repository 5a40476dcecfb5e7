import Mathlib.Control.Basic

/-!
# Computations that may stop with an error

A `Tx σ ε α` reads and writes a state `σ` and ends with a value or with an error; on an error it keeps the state it
reached, so that rolling back is a separate, visible step. Proofs about such computations go through `Ends`, the
statement that the run from a state ends in a result and a state with a given property:

* `Ends.bind`, `Ends.ok_bind` — one computation after another, from what the first one does;
* `Ends.lift_bind`, `Ends.attempt_bind`, `Ends.mapError_bind` — the same after a check, after a computation whose error
  is looked at, and after one whose error is renamed;
* `Ends.mono` — weakening what is known of the end;
* `Ends.onFst`, `Ends.onSnd` — a computation on one part of a state leaves the other part alone.

Two computations that go the same way are compared by `Sim`:

* `Sim.bind` — one pair of computations after another;
* `Sim.same_bind`, `Sim.attempt_bind` — what follows a computation that both have in common.
-/

namespace Krypton.Lib

/-- A computation over a state `σ` that ends with a value or an error, and with the state it reached. -/
def Tx (σ ε α : Type) : Type := σ → Except ε α × σ

namespace Tx

variable {σ ε δ α β : Type}

def ret (a : α) : Tx σ ε α := fun s => (.ok a, s)

/-- Run `x`; on a value go on with `f`, on an error stop. -/
def andThen (x : Tx σ ε α) (f : α → Tx σ ε β) : Tx σ ε β := fun s =>
  match x s with
  | (.ok a, s') => f a s'
  | (.error e, s') => (.error e, s')

instance : Monad (Tx σ ε) where
  pure := ret
  bind := andThen

def fail (e : ε) : Tx σ ε α := fun s => (.error e, s)

/-- A check that does not look at the state. -/
def lift (r : Except ε α) : Tx σ ε α := fun s => (r, s)

def read (f : σ → α) : Tx σ ε α := fun s => (.ok (f s), s)

def write (f : σ → σ) : Tx σ ε Unit := fun s => (.ok (), f s)

/-- Run `x` and hand its error on as a value. -/
def attempt (x : Tx σ ε α) : Tx σ δ (Except ε α) := fun s => (.ok (x s).1, (x s).2)

/-- Run `x`, renaming its error. -/
def mapError (f : ε → δ) (x : Tx σ ε α) : Tx σ δ α := fun s => ((x s).1.mapError f, (x s).2)

/-- Run `x` on the first part of a state. -/
def onFst {τ : Type} (x : Tx σ ε α) : Tx (σ × τ) ε α := fun s => ((x s.1).1, ((x s.1).2, s.2))

/-- Run `x` on the second part of a state. -/
def onSnd {τ : Type} (x : Tx σ ε α) : Tx (τ × σ) ε α := fun s => ((x s.2).1, (s.1, (x s.2).2))

theorem mapError_of_ok {g : ε → δ} {x : Tx σ ε α} {s s' : σ} {a : α} (h : x s = (.ok a, s')) :
    x.mapError g s = (.ok a, s') := by
  unfold mapError
  rw [h]
  rfl

theorem attempt_of_ok {x : Tx σ ε α} {s s' : σ} {a : α} (h : x s = (.ok a, s')) :
    (x.attempt : Tx σ δ (Except ε α)) s = (.ok (.ok a), s') := by
  unfold attempt
  rw [h]

theorem read_of_eq {g : σ → α} {s : σ} {a : α} (h : g s = a) : (read g : Tx σ ε α) s = (.ok a, s) := by
  rw [← h]
  rfl

theorem bind_of_ok {x : Tx σ ε α} {f : α → Tx σ ε β} {s s' : σ} {a : α} (h : x s = (.ok a, s')) :
    (x >>= f) s = f a s' := by
  change andThen x f s = _
  unfold andThen
  rw [h]

theorem bind_assoc {γ : Type} (x : Tx σ ε α) (f : α → Tx σ ε β) (g : β → Tx σ ε γ) :
    x >>= f >>= g = x >>= fun a => f a >>= g := by
  funext s
  change andThen (andThen x f) g s = andThen x (fun a => andThen (f a) g) s
  unfold andThen
  rcases x s with ⟨_ | a, s'⟩ <;> rfl

theorem bind_unit (x : Tx σ ε Unit) : (x >>= fun _ => Pure.pure ()) = x := by
  funext s
  change andThen x (fun _ => ret ()) s = x s
  unfold andThen
  rcases x s with ⟨_ | a, s'⟩ <;> rfl

/-- The run of `x` from `s` ends in a result and a state with property `Q`. -/
def Ends (x : Tx σ ε α) (s : σ) (Q : Except ε α → σ → Prop) : Prop := Q (x s).1 (x s).2

variable {x : Tx σ ε α} {f : α → Tx σ ε β} {s : σ} {P Q : Except ε α → σ → Prop} {R : Except ε β → σ → Prop}

theorem Ends.mono (h : x.Ends s P) (hPQ : ∀ r s', P r s' → Q r s') : x.Ends s Q := hPQ _ _ h

theorem Ends.pure {a : α} (h : Q (.ok a) s) : (Pure.pure a : Tx σ ε α).Ends s Q := h

theorem Ends.fail {e : ε} (h : Q (.error e) s) : (Tx.fail e : Tx σ ε α).Ends s Q := h

theorem Ends.lift {r : Except ε α} (h : Q r s) : (Tx.lift r : Tx σ ε α).Ends s Q := h

/-- Sequencing: what the first computation does on a value feeds the second, what it does on an error is the end. -/
theorem Ends.bind (hx : x.Ends s P) (hok : ∀ a s', P (.ok a) s' → (f a).Ends s' R)
    (herr : ∀ e s', P (.error e) s' → R (.error e) s') : (x >>= f).Ends s R := by
  change R (andThen x f s).1 (andThen x f s).2
  unfold andThen
  unfold Ends at hx
  rcases hxs : x s with ⟨_ | a, s'⟩ <;> rw [hxs] at hx
  · exact herr _ _ hx
  · exact hok a s' hx

/-- Sequencing after a computation whose run is known. -/
theorem Ends.ok_bind {a : α} {s' : σ} (hx : x s = (.ok a, s')) (hf : (f a).Ends s' R) : (x >>= f).Ends s R := by
  change R (andThen x f s).1 (andThen x f s).2
  unfold andThen
  rw [hx]
  exact hf

theorem Ends.mapError {g : ε → δ} {Q : Except δ α → σ → Prop} (hx : x.Ends s P)
    (hok : ∀ a s', P (.ok a) s' → Q (.ok a) s') (herr : ∀ e s', P (.error e) s' → Q (.error (g e)) s') :
    (x.mapError g).Ends s Q := by
  unfold Ends Tx.mapError at *
  rcases hxs : x s with ⟨e | a, s'⟩ <;> rw [hxs] at hx
  · exact herr _ _ hx
  · exact hok a s' hx

theorem Ends.onFst {τ : Type} {t : τ} {Q : Except ε α → σ × τ → Prop} (hx : x.Ends s P)
    (h : ∀ r s', P r s' → Q r (s', t)) : x.onFst.Ends (s, t) Q := h _ _ hx

theorem Ends.onSnd {τ : Type} {t : τ} {Q : Except ε α → τ × σ → Prop} (hx : x.Ends s P)
    (h : ∀ r s', P r s' → Q r (t, s')) : x.onSnd.Ends (t, s) Q := h _ _ hx

theorem Ends.lift_bind {r : Except ε α} (hok : ∀ a, r = .ok a → (f a).Ends s R)
    (herr : ∀ e, r = .error e → R (.error e) s) : (Tx.lift r >>= f).Ends s R :=
  Ends.bind (P := fun r' s' => r' = r ∧ s' = s) ⟨rfl, rfl⟩
    (by rintro a _ ⟨h, rfl⟩; exact hok a h.symm) (by rintro e _ ⟨h, rfl⟩; exact herr e h.symm)

theorem Ends.attempt_bind {f : Except ε α → Tx σ δ β} {R : Except δ β → σ → Prop} (hx : x.Ends s P)
    (h : ∀ r s', P r s' → (f r).Ends s' R) : (x.attempt >>= f).Ends s R := h _ _ hx

theorem Ends.mapError_bind {g : ε → δ} {f : α → Tx σ δ β} {R : Except δ β → σ → Prop} (hx : x.Ends s P)
    (hok : ∀ a s', P (.ok a) s' → (f a).Ends s' R) (herr : ∀ e s', P (.error e) s' → R (.error (g e)) s') :
    (x.mapError g >>= f).Ends s R :=
  Ends.bind (P := fun r s' => (∃ a, r = .ok a ∧ P (.ok a) s') ∨ ∃ e, r = .error (g e) ∧ P (.error e) s')
    (hx.mapError (fun a _ h => .inl ⟨a, rfl, h⟩) fun e _ h => .inr ⟨e, rfl, h⟩)
    (by rintro a s' (⟨_, ⟨⟩, h⟩ | ⟨_, h, -⟩)
        · exact hok a s' h
        · cases h)
    (by rintro e s' (⟨_, h, -⟩ | ⟨_, ⟨⟩, h⟩)
        · cases h
        · exact herr _ s' h)

/-- What an evaluated run ended in. -/
theorem Ends.apply {r : Except ε α} {s' : σ} (h : x.Ends s Q) (hr : x s = (r, s')) : Q r s' := by
  unfold Ends at h; rw [hr] at h; exact h

/-! ## Two computations -/

section
variable {γ : Type}

/-- The runs of `x` from `s` and of `y` from `t` both end with a value, values and states related by `Q`, or both with
the same error in the same state. -/
def Sim (x : Tx σ ε α) (y : Tx σ ε β) (s t : σ) (Q : α → σ → β → σ → Prop) : Prop :=
  match x s, y t with
  | (.ok a, s'), (.ok b, t') => Q a s' b t'
  | (.error e, s'), (.error e', t') => e = e' ∧ s' = t'
  | _, _ => False

theorem Sim.pure {a : α} {b : β} {s t : σ} {Q : α → σ → β → σ → Prop} (h : Q a s b t) :
    Sim (Pure.pure a : Tx σ ε α) (Pure.pure b) s t Q := h

theorem Sim.fail {e : ε} {s : σ} {Q : α → σ → β → σ → Prop} : Sim (Tx.fail e : Tx σ ε α) (Tx.fail e) s s Q := ⟨rfl, rfl⟩

theorem Sim.bind {x : Tx σ ε α} {y : Tx σ ε β} {f : α → Tx σ ε γ} {g : β → Tx σ ε δ} {s t : σ}
    {P : α → σ → β → σ → Prop} {Q : γ → σ → δ → σ → Prop} (hxy : Sim x y s t P)
    (h : ∀ a s' b t', P a s' b t' → Sim (f a) (g b) s' t' Q) : Sim (x >>= f) (y >>= g) s t Q := by
  change Sim (andThen x f) (andThen y g) s t Q
  unfold Sim at hxy
  unfold Sim andThen
  rcases hx : x s with ⟨e | a, s'⟩ <;> rcases hy : y t with ⟨e' | b, t'⟩ <;> rw [hx, hy] at hxy
  · exact hxy
  · exact hxy.elim
  · exact hxy.elim
  · exact h a s' b t' hxy

theorem Sim.same_bind {x : Tx σ ε α} {f : α → Tx σ ε γ} {g : α → Tx σ ε δ} {s : σ} {P : Except ε α → σ → Prop}
    {Q : γ → σ → δ → σ → Prop} (hx : x.Ends s P) (h : ∀ a s', P (.ok a) s' → Sim (f a) (g a) s' s' Q) :
    Sim (x >>= f) (x >>= g) s s Q := by
  refine Sim.bind (P := fun a s' b t' => b = a ∧ t' = s' ∧ P (.ok a) s') ?_ ?_
  · unfold Sim
    rcases hrun : x s with ⟨e | a, s'⟩
    · exact ⟨rfl, rfl⟩
    · exact ⟨rfl, rfl, hx.apply hrun⟩
  · rintro a s' _ _ ⟨rfl, rfl, hP⟩
    exact h _ _ hP

theorem Sim.attempt_bind {δ' : Type} {x : Tx σ δ' α} {f : Except δ' α → Tx σ ε γ} {g : Except δ' α → Tx σ ε δ} {s : σ}
    {P : Except δ' α → σ → Prop} {Q : γ → σ → δ → σ → Prop} (hx : x.Ends s P)
    (h : ∀ r s', P r s' → Sim (f r) (g r) s' s' Q) : Sim (x.attempt >>= f) (x.attempt >>= g) s s Q :=
  h _ _ hx

end

end Tx

end Krypton.Lib
