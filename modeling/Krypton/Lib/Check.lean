import Mathlib.Data.List.Basic

/-!
# Checks

Validation code is a sequence of checks that stops at the first error. `check` is one of them and `checkAll` is a loop
of them; a sequence succeeds exactly when each of its parts does, which is what the `simp` lemmas here say.
-/

namespace Krypton.Lib

variable {ε δ α β : Type}

/-- Succeed when `b` holds, else stop with `e`. -/
def check (b : Bool) (e : ε) : Except ε Unit := if b then .ok () else .error e

/-- Apply a check to every element, stopping at the first error. -/
def checkAll (f : α → Except ε Unit) : List α → Except ε Unit
  | [] => .ok ()
  | a :: as => f a >>= fun _ => checkAll f as

@[simp] theorem check_eq_ok {b : Bool} {e : ε} {u : Unit} : check b e = .ok u ↔ b = true := by
  unfold check
  split <;> simp_all

theorem bind_eq_ok {x : Except ε α} {f : α → Except ε β} {b : β} :
    (x >>= f) = .ok b ↔ ∃ a, x = .ok a ∧ f a = .ok b := by
  cases x with
  | error e => simp [bind, Except.bind]
  | ok a => simp [bind, Except.bind]

@[simp] theorem bind_unit_eq_ok {x : Except ε Unit} {f : Unit → Except ε β} {b : β} :
    (x >>= f) = .ok b ↔ x = .ok () ∧ f () = .ok b := by
  rw [bind_eq_ok]
  exact ⟨fun ⟨_, h⟩ => h, fun h => ⟨(), h⟩⟩

theorem bind_eq_of_ok {x : Except ε α} {f : α → Except ε β} {a : α} (h : x = .ok a) : x >>= f = f a := by
  rw [h]
  rfl

theorem bind_eq_error {x : Except ε α} {f : α → Except ε β} {e : ε} :
    (x >>= f) = .error e ↔ x = .error e ∨ ∃ a, x = .ok a ∧ f a = .error e := by
  cases x with
  | error e' => simp [bind, Except.bind]
  | ok a => simp [bind, Except.bind]

theorem check_eq_error {b : Bool} {e e' : ε} : check b e = .error e' ↔ b = false ∧ e' = e := by
  unfold check
  split <;> simp_all [eq_comm]

theorem exists_of_isOk {x : Except ε α} (h : x.isOk = true) : ∃ a, x = .ok a := by
  cases x with
  | error _ => cases h
  | ok a => exact ⟨a, rfl⟩

@[simp] theorem mapError_eq_ok {x : Except ε α} {f : ε → δ} {a : α} : x.mapError f = .ok a ↔ x = .ok a := by
  cases x <;> simp [Except.mapError]

theorem map_eq_ok {x : Except ε α} {f : α → β} {b : β} : x.map f = .ok b ↔ ∃ a, x = .ok a ∧ f a = b := by
  cases x <;> simp [Except.map]

theorem map_eq_error {x : Except ε α} {f : α → β} {e : ε} : x.map f = .error e ↔ x = .error e := by
  cases x <;> simp [Except.map]

theorem mapError_eq_error {x : Except ε α} {f : ε → δ} {e : δ} : x.mapError f = .error e ↔
    ∃ e', x = .error e' ∧ f e' = e := by
  cases x <;> simp [Except.mapError]

theorem toOption_eq_some {x : Except ε α} {a : α} : x.toOption = some a ↔ x = .ok a := by
  cases x <;> simp [Except.toOption]

theorem toOption_eq_none {x : Except ε α} (h : ∀ a, x ≠ .ok a) : x.toOption = none := by
  cases x with
  | error _ => rfl
  | ok a => exact absurd rfl (h a)

@[simp] theorem checkAll_eq_ok {f : α → Except ε Unit} {l : List α} {u : Unit} :
    checkAll f l = .ok u ↔ ∀ a ∈ l, f a = .ok () := by
  induction l with
  | nil => simp [checkAll]
  | cons a as ih => simp [checkAll, ih]

/-- A loop of checks with one error is one check. -/
theorem checkAll_check {p : α → Bool} {e : ε} (l : List α) :
    checkAll (fun a => check (p a) e) l = check (l.all p) e := by
  induction l with
  | nil => rfl
  | cons a as ih =>
    rw [checkAll, ih, List.all_cons]
    cases p a <;> rfl

/-! ## Which errors there are -/

/-- A computation that fails does so with an error that meets `P`. -/
def FailsOnly (P : ε → Prop) (x : Except ε α) : Prop := ∀ e, x = .error e → P e

section
variable {P : ε → Prop} {Q : δ → Prop} {x : Except ε α}

@[simp] theorem failsOnly_ok {a : α} : FailsOnly P (.ok a) := nofun

@[simp] theorem failsOnly_error {e : ε} : FailsOnly P (.error e : Except ε α) ↔ P e := by
  simp [FailsOnly]

theorem failsOnly_check {b : Bool} {e : ε} (h : P e) : FailsOnly P (check b e) := by
  intro e' he
  rwa [(check_eq_error.1 he).2]

theorem FailsOnly.bind {f : α → Except ε β} (hx : FailsOnly P x) (hf : ∀ a, x = .ok a → FailsOnly P (f a)) :
    FailsOnly P (x >>= f) := by
  intro e he
  rcases bind_eq_error.1 he with he | ⟨a, ha, he⟩
  · exact hx e he
  · exact hf a ha e he

theorem FailsOnly.map {f : α → β} (hx : FailsOnly P x) : FailsOnly P (x.map f) :=
  fun e he => hx e (map_eq_error.1 he)

end

end Krypton.Lib
