import Mathlib.Data.List.Basic

/-!
# Digits in groups

A text of digits with separators between some of them. A format says before which digits a separator must stand, may
stand or must not stand; it counts the digits that are left.

* `Digits.scan_print` — what is written in a format is read back in it;
* `Digits.scan_relax` — what a format reads, a more relaxed one reads as the same digits.
-/

namespace Krypton.Lib

/-- Whether a separator stands before a digit. -/
inductive Place where
  | without | optional | required

/-- The digits of an alphabet, and a symbol that separates them. -/
structure Digits (α : Type) where
  digit : α → Bool
  sep : α
  apart : digit sep = false

namespace Digits

variable {α : Type} (D : Digits α)

/-- Write digits with the separators that must stand. -/
def print (f : Nat → Place) : List α → List α
  | [] => []
  | x :: xs =>
    match f (xs.length + 1) with
    | .required => D.sep :: x :: print f xs
    | _ => x :: print f xs

theorem mem_print {D : Digits α} {f : Nat → Place} {x : α} : ∀ {ds : List α}, x ∈ D.print f ds → x = D.sep ∨ x ∈ ds
  | d :: ds, h => by
    have hmem : x = D.sep ∨ x = d ∨ x ∈ D.print f ds := by
      rw [print] at h
      split at h <;> simp only [List.mem_cons] at h
      · exact h
      · exact .inr h
    rcases hmem with rfl | rfl | h
    · exact .inl rfl
    · exact .inr List.mem_cons_self
    · exact (mem_print h).imp id (List.mem_cons_of_mem d)

theorem ne_sep {D : Digits α} {x : α} (hx : D.digit x = true) : x ≠ D.sep := by
  rintro rfl
  rw [D.apart] at hx
  cases hx

variable [DecidableEq α]

/-- Leave out the separator before a digit. -/
def skip : Place → List α → Option (List α)
  | .without, xs => some xs
  | .optional, xs => some (if xs.head? = some D.sep then xs.tail else xs)
  | .required, xs => if xs.head? = some D.sep then some xs.tail else none

/-- Read a number of digits; the rest of the text comes with them. -/
def scan (f : Nat → Place) : Nat → List α → Option (List α × List α)
  | 0, xs => some ([], xs)
  | n + 1, xs =>
    match D.skip (f (n + 1)) xs with
    | some (x :: xs) => if D.digit x then (scan f n xs).map fun r => (x :: r.1, r.2) else none
    | _ => none

variable {D} {f g : Nat → Place} {n : Nat} {xs ds rest : List α}

theorem scan_succ : D.scan f (n + 1) xs = some (ds, rest) ↔
    ∃ x xs' ds', D.skip (f (n + 1)) xs = some (x :: xs') ∧ D.digit x = true ∧ D.scan f n xs' = some (ds', rest) ∧
      ds = x :: ds' := by
  rw [scan]
  split
  · rename_i x xs' hskip
    constructor
    · intro h
      split at h
      · rename_i hx
        obtain ⟨⟨ds', r⟩, hscan, heq⟩ := Option.map_eq_some_iff.1 h
        cases heq
        exact ⟨x, xs', ds', hskip, hx, hscan, rfl⟩
      · cases h
    · rintro ⟨y, ys, ds', hy, hd, hscan, rfl⟩
      cases hskip.symm.trans hy
      rw [if_pos hd, hscan]
      rfl
  · rename_i hnone
    refine ⟨nofun, ?_⟩
    rintro ⟨y, ys, -, hy, -⟩
    exact absurd hy (hnone y ys)

theorem digits_of_scan : ∀ {n : Nat} {xs ds : List α}, D.scan f n xs = some (ds, rest) →
    ds.length = n ∧ ∀ d ∈ ds, D.digit d = true
  | 0, _, _, h => by
    cases h
    exact ⟨rfl, nofun⟩
  | n + 1, _, _, h => by
    obtain ⟨x, xs', ds', -, hx, hscan, rfl⟩ := scan_succ.1 h
    obtain ⟨hlen, hall⟩ := digits_of_scan hscan
    exact ⟨congrArg (· + 1) hlen, List.forall_mem_cons.2 ⟨hx, hall⟩⟩

/-- Without a separator before it, the first symbol is a digit. -/
theorem head_of_scan (hf : f (n + 1) = .without) (h : D.scan f (n + 1) xs = some (ds, rest)) :
    ∃ x, xs.head? = some x ∧ D.digit x = true := by
  obtain ⟨x, xs', ds', hskip, hx, -, -⟩ := scan_succ.1 h
  rw [hf, skip, Option.some.injEq] at hskip
  exact ⟨x, by rw [hskip]; rfl, hx⟩

theorem scan_print : ∀ {ds : List α}, (∀ d ∈ ds, D.digit d = true) →
    D.scan f ds.length (D.print f ds ++ rest) = some (ds, rest)
  | [], _ => rfl
  | x :: xs, h => by
    obtain ⟨hx, hxs⟩ := List.forall_mem_cons.1 h
    have hskip : D.skip (f (xs.length + 1)) (D.print f (x :: xs) ++ rest) = some (x :: (D.print f xs ++ rest)) := by
      cases hf : f (xs.length + 1) <;> simp [print, skip, hf, ne_sep hx]
    exact scan_succ.2 ⟨x, _, xs, hskip, hx, scan_print hxs, rfl⟩

/-- The relaxed format lets separators stand or be missing. -/
theorem scan_relax (hfg : ∀ n, g n = f n ∨ g n = .optional) :
    ∀ {n : Nat} {xs ds : List α}, D.scan f n xs = some (ds, rest) → D.scan g n xs = some (ds, rest)
  | 0, _, _, h => h
  | n + 1, xs, _, h => by
    obtain ⟨x, xs', ds', hskip, hx, hscan, rfl⟩ := scan_succ.1 h
    have hrelaxed : D.skip (g (n + 1)) xs = some (x :: xs') := by
      rcases hfg (n + 1) with heq | heq <;> rw [heq]
      · exact hskip
      · -- a separator that stands is skipped, and the digit is not taken for one
        cases hf : f (n + 1) <;> rw [hf] at hskip
        · obtain rfl : xs = x :: xs' := Option.some.inj hskip
          simp [skip, ne_sep hx]
        · exact hskip
        · simp only [skip] at hskip ⊢
          split at hskip
          · rename_i hsep
            rw [if_pos hsep, hskip]
          · cases hskip
    exact scan_succ.2 ⟨x, xs', ds', hrelaxed, hx, scan_relax hfg hscan, rfl⟩

end Digits

end Krypton.Lib
