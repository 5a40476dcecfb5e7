import Mathlib

/-!
# Texts with a separator

A text that is put together with a separator is taken apart again at the first separator when the part before it has
none, and at the last one when the part after it has none; a printed number has none.
-/

namespace Krypton.Lib

section
variable {α : Type} {sep : α}

/-- What stands before the first separator, and after it. -/
theorem first_segment : ∀ {x y r r' : List α}, sep ∉ x → sep ∉ y → x ++ sep :: r = y ++ sep :: r' → x = y ∧ r = r'
  | [], [], _, _, _, _, h => ⟨rfl, List.tail_eq_of_cons_eq h⟩
  | [], b :: _, _, _, _, hy, h => absurd (List.head_eq_of_cons_eq h) fun hb => hy (by simp [← hb])
  | a :: _, [], _, _, hx, _, h => absurd (List.head_eq_of_cons_eq h) fun ha => hx (by simp [ha])
  | a :: x, b :: y, r, r', hx, hy, h => by
    rw [List.cons_append, List.cons_append, List.cons.injEq] at h
    obtain ⟨rfl, hrest⟩ := h
    obtain ⟨rfl, hr⟩ := first_segment (fun hm => hx (List.mem_cons_of_mem _ hm))
      (fun hm => hy (List.mem_cons_of_mem _ hm)) hrest
    exact ⟨rfl, hr⟩

/-- What stands before the last separator, and after it. -/
theorem last_segment {x y r r' : List α} (hr : sep ∉ r) (hr' : sep ∉ r') (h : x ++ sep :: r = y ++ sep :: r') :
    x = y ∧ r = r' := by
  have hrev := congrArg List.reverse h
  rw [List.reverse_append, List.reverse_append, List.reverse_cons, List.reverse_cons, List.append_assoc,
    List.append_assoc, List.singleton_append, List.singleton_append] at hrev
  obtain ⟨hr, hx⟩ := first_segment (by simpa using hr) (by simpa using hr') hrev
  exact ⟨List.reverse_injective hx, List.reverse_injective hr⟩

end

theorem not_mem_toString {c : Char} (hc : c.isDigit = false) (n : Nat) : c ∉ (toString n).toList := by
  intro h
  rw [show toString n = n.repr from rfl, Nat.toList_repr] at h
  have hdigit := Nat.isDigit_of_mem_toDigits (by decide) (by decide) h
  rw [hc] at hdigit
  cases hdigit

end Krypton.Lib
