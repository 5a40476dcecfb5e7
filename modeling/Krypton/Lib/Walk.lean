import Mathlib.Data.Option.Basic

/-!
# Walks

A partial function `next` takes an element to its successor. `walk_down` is the rule for walks that lose one level with
every step.
-/

namespace Krypton.Lib

variable {α : Type} {next : α → Option α}

/-- The element after `n` steps. -/
def walk (next : α → Option α) : Nat → α → Option α
  | 0, a => some a
  | n + 1, a => (next a).bind (walk next n)

/-- The last step may be taken separately, too. -/
theorem walk_succ_right : ∀ (n : Nat) (a : α), walk next (n + 1) a = (walk next n a).bind next
  | 0, a => by simp [walk]
  | n + 1, a => by
    rw [walk, walk, Option.bind_assoc]
    exact congrArg _ (funext fun b => walk_succ_right n b)

/-- **Going down.** If every element that is good for level `n + 1` has a successor that is good for level `n`, a walk
from level `m` can take up to `m` steps. -/
theorem walk_down {P : Nat → α → Prop} (hnext : ∀ n a, P (n + 1) a → ∃ b, next a = some b ∧ P n b) {m : Nat} {a : α}
    (ha : P m a) : ∀ n ≤ m, ∃ b, walk next n a = some b ∧ P (m - n) b := by
  intro n
  induction n generalizing m a with
  | zero => exact fun _ => ⟨a, rfl, ha⟩
  | succ n ih =>
    intro hn
    obtain ⟨m, rfl⟩ : ∃ k, m = k + 1 := ⟨m - 1, by omega⟩
    obtain ⟨b, hb, hP⟩ := hnext m a ha
    obtain ⟨c, hc, hP'⟩ := ih hP (by omega)
    refine ⟨c, ?_, ?_⟩
    · simp [walk, hb, hc]
    · rwa [Nat.add_sub_add_right]

end Krypton.Lib
