import Mathlib.Data.List.Basic
import Mathlib.Data.List.Forall2
import Mathlib.Data.List.Infix

/-!
# Patterns with wildcards

Patterns as in SQL's `LIKE`: one symbol stands for any sequence, one for any single symbol, and an escape symbol makes
the next symbol stand for itself. A pattern that ends in an escape symbol is not one.

* `like` — parse a pattern and match it, trying every way to split what the first symbol may stand for;
* `parse_quote` — quoting puts an escape symbol before each special symbol, and what was quoted is read back literally;
* `like_contains` — a quoted text between two wildcards matches the texts that contain it;
* `like_map` — folding the symbols in the comparison is folding them beforehand.
-/

namespace Krypton.Lib

/-- The special symbols. -/
structure Wildcards (α : Type) where
  many : α
  one : α
  escape : α
  many_ne_one : many ≠ one
  many_ne_escape : many ≠ escape
  one_ne_escape : one ≠ escape

namespace Wildcards

inductive Token (α : Type) where
  | many
  | one
  | lit (a : α)
  deriving DecidableEq, Repr

def Token.map {α β : Type} (f : α → β) : Token α → Token β
  | .many => .many
  | .one => .one
  | .lit a => .lit (f a)

variable {α : Type} [DecidableEq α] (w : Wildcards α)

/-- What a symbol stands for that is not escaped. -/
def token (a : α) : Token α := if a = w.many then .many else if a = w.one then .one else .lit a

/-- The tokens of a pattern, `none` when an escape symbol is the last one. -/
def parse : List α → Option (List (Token α))
  | [] => some []
  | [a] => if a = w.escape then none else some [w.token a]
  | a :: b :: l =>
    if a = w.escape then (parse l).map (.lit b :: ·) else (parse (b :: l)).map (w.token a :: ·)

/-- Match a text with tokens, where `same` compares symbols. -/
def matchTokens (same : α → α → Bool) : List (Token α) → List α → Bool
  | [], l => l.isEmpty
  | .many :: ts, l => l.tails.any (matchTokens same ts)
  | .one :: _, [] => false
  | .one :: ts, _ :: l => matchTokens same ts l
  | .lit _ :: _, [] => false
  | .lit a :: ts, b :: l => same a b && matchTokens same ts l

/-- Match a text with a pattern. -/
def like (same : α → α → Bool) (pattern text : List α) : Option Bool :=
  (w.parse pattern).map fun ts => matchTokens same ts text

/-- A symbol as a pattern that stands for itself. -/
def quoteSymbol (a : α) : List α := if a = w.many ∨ a = w.one ∨ a = w.escape then [w.escape, a] else [a]

/-- Text as a pattern that stands for itself. -/
def quote (s : List α) : List α := s.flatMap w.quoteSymbol

/-! ## Quoting -/

theorem parse_escape (b : α) (l : List α) : w.parse (w.escape :: b :: l) = (w.parse l).map (.lit b :: ·) := by
  rw [parse, if_pos rfl]

theorem parse_of_ne {a : α} (h : a ≠ w.escape) (l : List α) : w.parse (a :: l) = (w.parse l).map (w.token a :: ·) := by
  cases l with
  | nil => exact if_neg h
  | cons b l => exact if_neg h

theorem token_many : w.token w.many = .many := if_pos rfl

theorem parse_quoteSymbol (a : α) (p : List α) : w.parse (w.quoteSymbol a ++ p) = (w.parse p).map (.lit a :: ·) := by
  unfold quoteSymbol
  split
  · exact w.parse_escape a p
  · rename_i h
    obtain ⟨hmany, hone, hescape⟩ := by simpa only [not_or] using h
    rw [List.singleton_append, w.parse_of_ne hescape, token, if_neg hmany, if_neg hone]

/-- What is quoted is read literally, whatever comes after it. -/
theorem parse_quote (s p : List α) : w.parse (w.quote s ++ p) = (w.parse p).map (s.map .lit ++ ·) := by
  induction s with
  | nil =>
    show w.parse p = _
    simp
  | cons a s ih =>
    rw [quote, List.flatMap_cons, List.append_assoc, parse_quoteSymbol, ← quote, ih, Option.map_map]
    rfl

/-! ## Matching -/

section
variable {α : Type} {same : α → α → Bool} {ts : List (Token α)} {l : List α}

theorem matchTokens_many : matchTokens same (.many :: ts) l = true ↔
    ∃ u v, u ++ v = l ∧ matchTokens same ts v = true := by
  rw [matchTokens, List.any_eq_true]
  constructor
  · intro ⟨v, hv, hm⟩
    obtain ⟨u, hu⟩ := (List.mem_tails v l).1 hv
    exact ⟨u, v, hu, hm⟩
  · intro ⟨u, v, hu, hm⟩
    exact ⟨v, (List.mem_tails v l).2 ⟨u, hu⟩, hm⟩

theorem matchTokens_lits {s : List α} : matchTokens same (s.map .lit ++ ts) l = true ↔
    ∃ u v, u ++ v = l ∧ List.Forall₂ (fun a b => same a b = true) s u ∧ matchTokens same ts v = true := by
  induction s generalizing l with
  | nil => simp
  | cons a s ih =>
    cases l with
    | nil => simp [matchTokens]
    | cons b l =>
      rw [List.map_cons, List.cons_append, matchTokens, Bool.and_eq_true, ih]
      constructor
      · intro ⟨hab, u, v, hl, hs, hm⟩
        exact ⟨b :: u, v, by rw [List.cons_append, hl], .cons hab hs, hm⟩
      · intro ⟨u, v, hl, hs, hm⟩
        cases hs with
        | cons hab hs =>
          rw [List.cons_append, List.cons.injEq] at hl
          obtain ⟨rfl, hl⟩ := hl
          exact ⟨hab, _, v, hl, hs, hm⟩

variable {β : Type} [DecidableEq β] (f : α → β)

theorem forall₂_beq {s u : List α} : List.Forall₂ (fun a b => (f a == f b) = true) s u ↔ s.map f = u.map f := by
  simp only [beq_iff_eq]
  rw [← List.forall₂_eq_eq_eq, List.forall₂_map_left_iff, List.forall₂_map_right_iff]

/-- Between two wildcards a literal text stands for the texts that contain it. -/
theorem matchTokens_contains {s : List α} :
    matchTokens (fun a b => f a == f b) (.many :: (s.map .lit ++ [.many])) l = true ↔ s.map f <:+: l.map f := by
  have hrest : ∀ v : List α, matchTokens (fun a b => f a == f b) [.many] v = true := fun v =>
    matchTokens_many.2 ⟨v, [], List.append_nil v, rfl⟩
  rw [matchTokens_many]
  simp only [matchTokens_lits, forall₂_beq, hrest, and_true]
  constructor
  · intro ⟨u, _, hl, x, y, hxy, hs⟩
    exact ⟨u.map f, y.map f, by rw [hs, ← hl, ← hxy, List.map_append, List.map_append, List.append_assoc]⟩
  · intro ⟨u, v, hl⟩
    rw [List.append_assoc, eq_comm] at hl
    obtain ⟨x, yz, rfl, rfl, hyz⟩ := List.map_eq_append_iff.1 hl
    obtain ⟨y, z, rfl, hy, rfl⟩ := List.map_eq_append_iff.1 hyz
    exact ⟨x, y ++ z, rfl, y, z, rfl, hy.symm⟩

end

/-- **Quoted text between two wildcards** is a pattern, and it matches the texts that contain it. -/
theorem like_contains {β : Type} [DecidableEq β] (f : α → β) (s l : List α) :
    w.like (fun a b => f a == f b) (w.many :: (w.quote s ++ [w.many])) l = some (decide (s.map f <:+: l.map f)) := by
  have htokens : w.parse (w.many :: (w.quote s ++ [w.many])) = some (.many :: (s.map .lit ++ [.many])) := by
    rw [w.parse_of_ne w.many_ne_escape, parse_quote, w.parse_of_ne w.many_ne_escape, token_many]
    rfl
  rw [like, htokens, Option.map_some, Option.some.injEq, Bool.eq_iff_iff, decide_eq_true_iff]
  exact matchTokens_contains f

/-! ## Folding -/

/-- `f` takes special symbols, and no others, to themselves. -/
structure Keeps (w : Wildcards α) (f : α → α) : Prop where
  many : ∀ a, f a = w.many ↔ a = w.many
  one : ∀ a, f a = w.one ↔ a = w.one
  escape : ∀ a, f a = w.escape ↔ a = w.escape

variable {w} {f : α → α}

theorem Keeps.token (h : w.Keeps f) (a : α) : w.token (f a) = (w.token a).map f := by
  unfold Wildcards.token
  rw [if_congr (h.many a) rfl rfl, if_congr (h.one a) rfl rfl]
  split
  · rfl
  · split <;> rfl

theorem Keeps.parse (h : w.Keeps f) : ∀ p : List α, w.parse (p.map f) = (w.parse p).map (List.map (Token.map f))
  | [] => rfl
  | [a] => by
    rw [List.map_singleton, Wildcards.parse, Wildcards.parse, if_congr (h.escape a) rfl rfl, h.token]
    split <;> rfl
  | a :: b :: p => by
    by_cases ha : a = w.escape
    · rw [ha, List.map_cons, List.map_cons, (h.escape w.escape).2 rfl, parse_escape, parse_escape, Keeps.parse h p,
        Option.map_map, Option.map_map]
      rfl
    · rw [List.map_cons, w.parse_of_ne (mt (h.escape a).1 ha), w.parse_of_ne ha, Keeps.parse h (b :: p), h.token,
        Option.map_map, Option.map_map]
      rfl

theorem matchTokens_map : ∀ {ts : List (Token α)} {l : List α},
    matchTokens (fun a b => a == b) (ts.map (Token.map f)) (l.map f) = matchTokens (fun a b => f a == f b) ts l
  | [], l => by simp [matchTokens]
  | .many :: ts, l => by
    rw [List.map_cons, Token.map, matchTokens, matchTokens, List.map_tails, List.any_map]
    exact congrArg (l.tails.any ·) (funext fun v => matchTokens_map)
  | .one :: ts, [] => rfl
  | .one :: ts, b :: l => by
    rw [List.map_cons, List.map_cons, Token.map, matchTokens, matchTokens, matchTokens_map]
  | .lit a :: ts, [] => rfl
  | .lit a :: ts, b :: l => by
    rw [List.map_cons, List.map_cons, Token.map, matchTokens, matchTokens, matchTokens_map]

/-- Folding pattern and text beforehand is folding in the comparison. -/
theorem Keeps.like_map (h : w.Keeps f) (p l : List α) :
    w.like (fun a b => a == b) (p.map f) (l.map f) = w.like (fun a b => f a == f b) p l := by
  rw [like, like, h.parse, Option.map_map]
  exact congrArg (fun g => (w.parse p).map g) (funext fun ts => matchTokens_map)

end Wildcards

end Krypton.Lib
