import Krypton.Lib.Tx

/-!
# Work that is done whatever happens

Two ways in which code goes on after an error:

* `Tx.deferred` runs a computation and then another one that sees how the first ended; the end stays the first one's and
  an error of the second is dropped;
* `Tx.sweep` applies a computation to every element of a list, also after one that failed, and returns what each of them
  ended in.

`Ends.deferred` and `Ends.sweep` are their rules. What the rule for `sweep` establishes for an element has to survive
the later ones.
-/

namespace Krypton.Lib.Tx

variable {σ ε δ α : Type}

/-- Run `x`, then `k` on how it ended. -/
def deferred (x : Tx σ ε α) (k : Except ε α → Tx σ δ Unit) : Tx σ ε α := fun s => ((x s).1, (k (x s).1 (x s).2).2)

theorem Ends.deferred {x : Tx σ ε α} {k : Except ε α → Tx σ δ Unit} {s : σ} {P Q : Except ε α → σ → Prop}
    (hx : x.Ends s P) (hk : ∀ r s', P r s' → (k r).Ends s' fun _ s'' => Q r s'') : (x.deferred k).Ends s Q :=
  hk _ _ hx

/-- Apply `f` to every element and return how each of them ended. -/
def sweep (f : α → Tx σ ε Unit) : List α → Tx σ δ (List (Except ε Unit))
  | [] => return []
  | a :: rest => do
    let r ← (f a).attempt
    let rs ← sweep f rest
    return r :: rs

/-- `I` is kept by every element, `Q a r` is established by the element `a` when it ends in `r` and kept by the
others. -/
theorem Ends.sweep {f : α → Tx σ ε Unit} {I : σ → Prop} {Q : α → Except ε Unit → σ → Prop} {l : List α}
    {s : σ} (hI : I s)
    (hstep : ∀ a ∈ l, ∀ s, I s → (f a).Ends s fun r s' => I s' ∧ Q a r s' ∧ ∀ b r', Q b r' s → Q b r' s') :
    (sweep f l : Tx σ δ (List (Except ε Unit))).Ends s fun r s' =>
      I s' ∧ (∀ b r', Q b r' s → Q b r' s') ∧
        ∃ rs, r = .ok rs ∧ (∀ a ∈ l, ∃ r ∈ rs, Q a r s') ∧ ∀ r ∈ rs, ∃ a ∈ l, Q a r s' := by
  induction l generalizing s with
  | nil => exact ⟨hI, fun _ _ h => h, [], rfl, by simp, by simp⟩
  | cons a rest ih =>
    refine Ends.attempt_bind (hstep a List.mem_cons_self s hI) ?_
    rintro r s₁ ⟨hI₁, hQ, hkeep⟩
    refine Ends.bind (ih hI₁ fun b hb => hstep b (List.mem_cons_of_mem a hb)) ?_ ?_
    · rintro rs s₂ ⟨hI₂, hkeep₂, _, ⟨⟩, hall, hfrom⟩
      refine ⟨hI₂, fun b r' h => hkeep₂ b r' (hkeep b r' h), r :: rs, rfl, ?_, ?_⟩
      · rw [List.forall_mem_cons]
        refine ⟨⟨r, List.mem_cons_self, hkeep₂ a r hQ⟩, fun b hb => ?_⟩
        obtain ⟨r', hr', h⟩ := hall b hb
        exact ⟨r', List.mem_cons_of_mem r hr', h⟩
      · rw [List.forall_mem_cons]
        refine ⟨⟨a, List.mem_cons_self, hkeep₂ a r hQ⟩, fun r' hr' => ?_⟩
        obtain ⟨b, hb, h⟩ := hfrom r' hr'
        exact ⟨b, List.mem_cons_of_mem a hb, h⟩
    · rintro e s₂ ⟨-, -, _, h, -⟩
      cases h

end Krypton.Lib.Tx
