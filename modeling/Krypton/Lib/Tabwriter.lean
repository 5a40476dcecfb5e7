import Mathlib.Data.List.Basic
import Mathlib.Data.List.GetD

/-!
# Aligning text in columns

The rules of Go's `text/tabwriter` without flags and with blanks as padding. A tab ends a cell, a line break ends a
line. The cells that stand in one column of adjacent lines are padded to one width; the last cell of a line belongs to
no column, so it is never padded and a line without a cell in a column ends the column. A form feed is a line break that
also ends all columns.

* `length_format` — as many lines come out as go in;
* `newline_not_mem_format` — no line that comes out holds a line feed;
* `format_concat_newline` — text that ends in a line feed ends in an empty line;
* `format_flatMap` — texts without line breaks, each written on a line of its own, come out line by line.
-/

namespace Krypton.Lib

/-! ## Splitting and joining -/

section split

variable {α : Type} {p q : α → Bool}

theorem length_splitOnP (p : α → Bool) (l : List α) : (l.splitOnP p).length = l.countP p + 1 := by
  induction l with
  | nil => rfl
  | cons a l ih =>
    rw [List.splitOnP_cons_eq_if_modifyHead, List.countP_cons]
    by_cases ha : p a
    · simp [ha, ih]
    · simp [ha, ih]

/-- A piece of a list has none of the separators and nothing that the list does not have. -/
theorem mem_of_mem_splitOnP {l piece : List α} {a : α} (hpiece : piece ∈ l.splitOnP p) (ha : a ∈ piece) :
    a ∈ l ∧ p a = false := by
  induction l generalizing piece with
  | nil =>
    rw [List.splitOnP_nil, List.mem_singleton] at hpiece
    subst hpiece
    exact absurd ha List.not_mem_nil
  | cons b l ih =>
    obtain ⟨first, rest, hsplit⟩ := List.exists_cons_of_ne_nil (List.splitOnP_ne_nil p l)
    rw [List.splitOnP_cons_eq_if_modifyHead, hsplit] at hpiece
    rw [hsplit] at ih
    by_cases hb : p b
    · rw [if_pos hb, List.mem_cons] at hpiece
      obtain rfl | hpiece := hpiece
      · exact absurd ha List.not_mem_nil
      · exact ⟨List.mem_cons_of_mem _ (ih hpiece ha).1, (ih hpiece ha).2⟩
    · rw [if_neg hb, List.modifyHead_cons, List.mem_cons] at hpiece
      obtain rfl | hpiece := hpiece
      · obtain rfl | ha := List.mem_cons.1 ha
        · exact ⟨List.mem_cons_self, by simpa using hb⟩
        · have hrest := ih List.mem_cons_self ha
          exact ⟨List.mem_cons_of_mem _ hrest.1, hrest.2⟩
      · have hrest := ih (List.mem_cons_of_mem _ hpiece) ha
        exact ⟨List.mem_cons_of_mem _ hrest.1, hrest.2⟩

/-- Splitting the pieces once more is splitting at either separator. -/
theorem splitOnP_flatMap_splitOnP (l : List α) :
    (l.splitOnP p).flatMap (List.splitOnP q) = l.splitOnP fun a => p a || q a := by
  induction l with
  | nil => simp
  | cons a l ih =>
    obtain ⟨first, rest, hsplit⟩ := List.exists_cons_of_ne_nil (List.splitOnP_ne_nil p l)
    obtain ⟨head, tail, hfirst⟩ := List.exists_cons_of_ne_nil (List.splitOnP_ne_nil q first)
    rw [List.splitOnP_cons_eq_if_modifyHead, List.splitOnP_cons_eq_if_modifyHead, ← ih, hsplit]
    by_cases hp : p a <;> by_cases hq : q a <;> simp [hp, hq, hfirst, List.splitOnP_cons_eq_if_modifyHead]

/-- A symbol that is no separator goes to the last piece. -/
theorem exists_splitOnP_concat (l : List α) {a : α} (ha : p a = false) :
    ∃ init last, l.splitOnP p = init ++ [last] ∧ (l ++ [a]).splitOnP p = init ++ [last ++ [a]] := by
  induction l with
  | nil => exact ⟨[], [], rfl, by simp [List.splitOnP_cons_eq_if_modifyHead, ha]⟩
  | cons b l ih =>
    obtain ⟨init, last, hl, hla⟩ := ih
    rw [List.cons_append, List.splitOnP_cons_eq_if_modifyHead, List.splitOnP_cons_eq_if_modifyHead, hl, hla]
    by_cases hb : p b
    · exact ⟨[] :: init, last, by simp [hb], by simp [hb]⟩
    · cases init with
      | nil => exact ⟨[], b :: last, by simp [hb], by simp [hb]⟩
      | cons first init => exact ⟨(b :: first) :: init, last, by simp [hb], by simp [hb]⟩

/-- Pieces that each end in a separator are read back, and then nothing. -/
theorem splitOnP_flatMap_concat {pieces : List (List α)} {sep : α} (hsep : p sep = true)
    (h : ∀ piece ∈ pieces, ∀ a ∈ piece, p a = false) :
    (pieces.flatMap (· ++ [sep])).splitOnP p = pieces ++ [[]] := by
  induction pieces with
  | nil => rfl
  | cons piece pieces ih =>
    rw [List.flatMap_cons, List.append_assoc, List.singleton_append,
      List.splitOnP_append_cons_of_forall_mem (h piece List.mem_cons_self) sep hsep,
      ih fun other hother => h other (List.mem_cons_of_mem _ hother), List.cons_append]

/-- Joining with an empty last piece. -/
theorem intercalate_concat {sep : List α} {l : List (List α)} (hl : l ≠ []) :
    sep.intercalate (l ++ [[]]) = sep.intercalate l ++ sep := by
  induction l with
  | nil => exact absurd rfl hl
  | cons x l ih =>
    cases l with
    | nil => simp [List.intercalate_cons_cons]
    | cons y l =>
      have htail := ih (List.cons_ne_nil y l)
      simp only [List.cons_append, List.intercalate_cons_cons] at htail ⊢
      rw [htail, ← List.append_assoc]

theorem mem_intercalate_singleton {a sep : α} {l : List (List α)} (hsep : a ≠ sep) :
    a ∈ [sep].intercalate l ↔ ∃ piece ∈ l, a ∈ piece := by
  induction l with
  | nil => simp
  | cons x l ih =>
    cases l with
    | nil => simp
    | cons y l => simp [List.intercalate_cons_cons, hsep, ih]

theorem countP_flatMap_concat {sep : α} (hsep : p sep = true) (pieces : List (List α)) :
    (pieces.flatMap (· ++ [sep])).countP p = pieces.length + pieces.flatten.countP p := by
  induction pieces with
  | nil => rfl
  | cons piece pieces ih =>
    simp only [List.flatMap_cons, List.countP_append, List.countP_singleton, hsep, if_true, ih, List.flatten_cons,
      List.length_cons]
    omega

end split

namespace Tabwriter

def endsCell (c : Char) : Bool := c == '\t' || c == '\x0b'

def endsLine (c : Char) : Bool := c == '\x0c' || c == '\n'

/-- The cells of a line. -/
def cells (line : List Char) : List (List Char) := line.splitOnP endsCell

/-- The line has a cell in the column. Its last cell is in none. -/
def hasColumn (j : Nat) (line : List (List Char)) : Bool := j + 1 < line.length

/-- The adjacent lines around line `i` that have the column, if line `i` does. -/
def block (lines : List (List (List Char))) (i j : Nat) : List (List (List Char)) :=
  (lines.take i).reverse.takeWhile (hasColumn j) ++ (lines.drop i).takeWhile (hasColumn j)

/-- The width of column `j` at line `i`. -/
def columnWidth (padding : Nat) (lines : List (List (List Char))) (i j : Nat) : Nat :=
  padding + ((block lines i j).map fun line => (line.getD j []).length).foldr max 0

def pad (width : Nat) (cell : List Char) : List Char := cell ++ List.replicate (width - cell.length) ' '

/-- Line `i` with its cells in their columns. -/
def formatLine (padding : Nat) (lines : List (List (List Char))) (i : Nat) : List Char :=
  ((lines.getD i []).mapIdx fun j cell =>
    if hasColumn j (lines.getD i []) then pad (columnWidth padding lines i j) cell else cell).flatten

/-- The lines up to the next form feed. -/
def formatLines (padding : Nat) (lines : List (List (List Char))) : List (List Char) :=
  (List.range lines.length).map (formatLine padding lines)

/-- The lines of a text, aligned. -/
def format (padding : Nat) (text : List Char) : List (List Char) :=
  (text.splitOnP (· == '\x0c')).flatMap fun part => formatLines padding ((part.splitOnP (· == '\n')).map cells)

/-- What is written for a text. -/
def write (padding : Nat) (text : List Char) : List Char := ['\n'].intercalate (format padding text)

variable (padding : Nat)

@[simp] theorem cells_nil : cells [] = [[]] := rfl

@[simp] theorem length_formatLines (lines : List (List (List Char))) :
    (formatLines padding lines).length = lines.length := by
  simp [formatLines]

theorem length_format (text : List Char) : (format padding text).length = text.countP endsLine + 1 := by
  have hsplit := splitOnP_flatMap_splitOnP (p := (· == '\x0c')) (q := (· == '\n')) text
  have hlen := congrArg List.length hsplit
  rw [length_splitOnP, List.length_flatMap] at hlen
  simp only [format, List.length_flatMap, length_formatLines, List.length_map]
  exact hlen

theorem mem_formatLine {padding : Nat} {lines : List (List (List Char))} {i : Nat} {c : Char}
    (h : c ∈ formatLine padding lines i) :
    c = ' ' ∨ ∃ line ∈ lines, ∃ cell ∈ line, c ∈ cell := by
  obtain ⟨text, htext, hc⟩ := List.mem_flatten.1 h
  obtain ⟨j, hj, rfl⟩ := List.mem_mapIdx.1 htext
  have hline : lines.getD i [] ∈ lines := by
    by_cases hi : i < lines.length
    · rw [List.getD_eq_getElem lines [] hi]
      exact List.getElem_mem hi
    · rw [List.getD_eq_default _ _ (by omega)] at hj
      exact absurd hj (Nat.not_lt_zero _)
  have hcell : ∀ c ∈ (lines.getD i [])[j], ∃ line ∈ lines, ∃ cell ∈ line, c ∈ cell :=
    fun c hc => ⟨_, hline, _, List.getElem_mem hj, hc⟩
  split at hc
  · obtain hc | hc := List.mem_append.1 hc
    · exact .inr (hcell c hc)
    · exact .inl (List.eq_of_mem_replicate hc)
  · exact .inr (hcell c hc)

theorem newline_not_mem_format {padding : Nat} {text line : List Char} (h : line ∈ format padding text) :
    '\n' ∉ line := by
  intro hc
  obtain ⟨part, -, hline⟩ := List.mem_flatMap.1 h
  obtain ⟨i, -, rfl⟩ := List.mem_map.1 hline
  obtain hblank | ⟨_, hmem, cell, hcell, hc⟩ := mem_formatLine hc
  · exact absurd hblank (by decide)
  · obtain ⟨piece, hpiece, rfl⟩ := List.mem_map.1 hmem
    have hin := (mem_of_mem_splitOnP hcell hc).1
    exact absurd (mem_of_mem_splitOnP hpiece hin).2 (by decide)

/-- A line without a tab has no columns, so it can be left out at the end. -/
theorem formatLine_append {lines : List (List (List Char))} {i : Nat} (hi : i < lines.length) (last : List Char) :
    formatLine padding (lines ++ [[last]]) i = formatLine padding lines i := by
  have hget : (lines ++ [[last]]).getD i [] = lines.getD i [] := List.getD_append _ _ _ _ hi
  have hblock : ∀ j, block (lines ++ [[last]]) i j = block lines i j := by
    intro j
    have hlast : [[last]].takeWhile (hasColumn j) = [] := by simp [hasColumn]
    have hdrop : (lines.drop i ++ [[last]]).takeWhile (hasColumn j) = (lines.drop i).takeWhile (hasColumn j) := by
      rw [List.takeWhile_append, hlast, List.append_nil]
      split
      next hall => exact ((List.takeWhile_prefix _).eq_of_length hall).symm
      next => rfl
    rw [block, block, List.take_append_of_le_length (Nat.le_of_lt hi),
      List.drop_append_of_le_length (Nat.le_of_lt hi), hdrop]
  simp only [formatLine, columnWidth, hget, hblock]

theorem formatLine_last (lines : List (List (List Char))) (last : List Char) :
    formatLine padding (lines ++ [[last]]) lines.length = last := by
  simp [formatLine, hasColumn]

theorem formatLines_append (lines : List (List (List Char))) (last : List Char) :
    formatLines padding (lines ++ [[last]]) = formatLines padding lines ++ [last] := by
  rw [formatLines, formatLines, List.length_append, List.length_singleton, List.range_succ, List.map_append,
    List.map_singleton, formatLine_last]
  congr 1
  apply List.map_congr_left
  intro i hi
  exact formatLine_append padding (List.mem_range.1 hi) last

theorem format_concat_newline (text : List Char) :
    ∃ lines, format padding (text ++ ['\n']) = lines ++ [[]] := by
  obtain ⟨init, last, -, hsplit⟩ := exists_splitOnP_concat (p := (· == '\x0c')) text (a := '\n') (by decide)
  have hlast : (last ++ ['\n']).splitOnP (· == '\n') = last.splitOnP (· == '\n') ++ [[]] := by
    rw [List.splitOnP_append_cons last [] (by decide), List.splitOnP_nil]
  refine ⟨init.flatMap (fun part => formatLines padding ((part.splitOnP (· == '\n')).map cells)) ++
    formatLines padding ((last.splitOnP (· == '\n')).map cells), ?_⟩
  rw [format, hsplit, List.flatMap_append, List.flatMap_singleton, hlast, List.map_append, List.map_singleton,
    cells_nil, formatLines_append, List.append_assoc]

theorem format_flatMap {texts : List (List Char)} (h : ∀ text ∈ texts, ∀ c ∈ text, endsLine c = false) :
    format padding (texts.flatMap (· ++ ['\n'])) = formatLines padding (texts.map cells) ++ [[]] := by
  have hfeed : ∀ c ∈ texts.flatMap (· ++ ['\n']), (c == '\x0c') = false := by
    intro c hc
    obtain ⟨text, htext, hc⟩ := List.mem_flatMap.1 hc
    obtain hc | hc := List.mem_append.1 hc
    · exact (Bool.or_eq_false_iff.1 (h text htext c hc)).1
    · rw [List.mem_singleton.1 hc]
      decide
  have hnewline : ∀ text ∈ texts, ∀ c ∈ text, (c == '\n') = false :=
    fun text htext c hc => (Bool.or_eq_false_iff.1 (h text htext c hc)).2
  rw [format, List.splitOnP_eq_singleton hfeed, List.flatMap_singleton,
    splitOnP_flatMap_concat (by decide) hnewline, List.map_append, List.map_singleton, cells_nil, formatLines_append]

example : write 2 "a\tb\nccc\td\n\ne\tf\n".toList = "a    b\nccc  d\n\ne  f\n".toList := by decide +kernel

end Tabwriter

end Krypton.Lib
