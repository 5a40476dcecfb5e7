import Mathlib.Data.List.Nodup
import Krypton.Errors
import Krypton.Lib.Tabwriter

/-!
# Choosing a row in the terminal

The interactive selector of the command line (`cli/output/terminal/selector.go`): rows of cells are aligned by a
`tabwriter`, cut to the width of the terminal and shown a few at a time. Arrow keys move a cursor, the lines scroll with
it, and enter returns the cursor as the index of a row.

Text is a list of Unicode characters, and the text of a cell is what `%v` prints for its value. What the terminal does
with the characters of a line is not modelled.

* `Selection.InView` — the cursor is on a line, and on one that is shown; every key keeps this (`InView.run`);
* `length_renderRows`, `renderRows_eq` — there is a line for each row and one more for each line break in a cell, and
  without line breaks the lines are the rows, aligned and cut;
* `selector_highlighted` — the cursor stays on the rows, and the row returned is the one highlighted, exactly when no
  cell has a line break.
-/

namespace Krypton.Terminal

open Lib

/-! ## Lines -/

/-- `strings.TrimSuffix` -/
def trimSuffix (s suffix : List Char) : List Char :=
  if suffix.isSuffixOf s then s.take (s.length - suffix.length) else s

def truncate (s : List Char) (maxWidth : Int) : List Char :=
  if maxWidth < 1 then []
  else if s.length ≤ maxWidth then s
  else if maxWidth ≤ 3 then ['.', '.', '.']
  else s.take (maxWidth - 3).toNat ++ ['.', '.', '.']

/-- The values of a row as `%v` prints them. -/
abbrev Row := List String

/-- A row as it is given to the `tabwriter`. -/
def rowText (row : Row) : List Char := ['\t'].intercalate (row.map String.toList)

/-- What is written to the `tabwriter`. -/
def tableText (rows : List Row) : List Char := (rows.map rowText).flatMap (· ++ ['\n'])

def renderRows (rows : List Row) (maxWidth : Int) : List (List Char) :=
  if rows.isEmpty then []
  else ((trimSuffix (Tabwriter.write 2 (tableText rows)) ['\n']).splitOn '\n').map (truncate · maxWidth)

/-! ## Keys -/

inductive Key where
  | unknown
  | up
  | down
  | enter
  | ctrlC
  | esc
  deriving DecidableEq, Repr

/-- The key for what one read returned, at most three bytes. -/
def readKey : List UInt8 → Key
  | [13] | [10] => .enter
  | [3] => .ctrlC
  | [27] => .esc
  | [107] => .up
  | [106] => .down
  | [27, 91, 65] => .up
  | [27, 91, 66] => .down
  | _ => .unknown

/-! ## The selection -/

def clearLine : String := "\x1b[2K"
def hideCursor : String := "\x1b[?25l"
def showCursor : String := "\x1b[?25h"
def invert : String := "\x1b[7m"
def dim : String := "\x1b[2m"
def resetStyle : String := "\x1b[0m"

def itemPrefixLen : Int := 4
def maxVisibleItems : Nat := 5

structure Selection where
  items : List (List Char)
  cursor : Nat
  scrollOffset : Nat
  viewHeight : Nat
  deriving DecidableEq, Repr

namespace Selection

/-- The end of the lines that are shown. -/
def viewEnd (s : Selection) : Nat := min (s.scrollOffset + s.viewHeight) s.items.length

/-- The lines that are shown, each with whether it is highlighted. -/
def frame (s : Selection) : List (Bool × List Char) :=
  (List.range' s.scrollOffset (s.viewEnd - s.scrollOffset)).map fun i => (i == s.cursor, s.items.getD i [])

def renderItem (selected : Bool) (item : List Char) : String :=
  clearLine ++
    if selected then "  " ++ invert ++ "> " ++ String.ofList item ++ resetStyle ++ "\r\n"
    else "    " ++ String.ofList item ++ "\r\n"

def render (s : Selection) : String :=
  hideCursor ++ String.join (s.frame.map fun line => renderItem line.1 line.2) ++
    clearLine ++ dim ++ "[use arrows or j/k to move, enter to select, ctrl+c or esc to cancel]" ++ resetStyle ++
    "\r\x1b[" ++ toString (s.viewEnd - s.scrollOffset) ++ "A"

def clear (s : Selection) : String :=
  String.join (List.replicate (s.viewHeight + 1) (clearLine ++ "\r\n")) ++ "\x1b[" ++ toString (s.viewHeight + 1) ++ "A"

def moveUp (s : Selection) : Selection :=
  if 0 < s.cursor then
    let cursor := s.cursor - 1
    { s with cursor, scrollOffset := if cursor < s.scrollOffset then cursor else s.scrollOffset }
  else s

def moveDown (s : Selection) : Selection :=
  if s.cursor < s.items.length - 1 then
    let cursor := s.cursor + 1
    { s with
      cursor
      scrollOffset := if cursor ≥ s.scrollOffset + s.viewHeight then cursor - s.viewHeight + 1 else s.scrollOffset }
  else s

end Selection

/-- A run of the selector: what was written, the states that were drawn, and what was returned if a key ended it. -/
structure Run where
  output : String
  drawn : List Selection
  result : Option (Except Err Nat)
  deriving Repr

namespace Run

/-- Nothing was drawn. -/
def failed (e : Err) : Run := ⟨"", [], some (.error e)⟩

/-- Draw a state, then go on. -/
def after (s : Selection) (r : Run) : Run := ⟨s.render ++ r.output, s :: r.drawn, r.result⟩

/-- Draw a state and return. -/
def last (s : Selection) (result : Except Err Nat) : Run := ⟨s.render ++ s.clear, [s], some result⟩

/-- The deferred `restore`, when the selector returns. -/
def restore (r : Run) : Run := { r with output := if r.result.isSome then r.output ++ showCursor else r.output }

end Run

/-- The loop, for what the reads return one after the other. -/
def Selection.run (s : Selection) : List (List UInt8) → Run
  | [] => ⟨s.render, [s], none⟩
  | buf :: bufs =>
    match readKey buf with
    | .up => .after s (s.moveUp.run bufs)
    | .down => .after s (s.moveDown.run bufs)
    | .enter => .last s (.ok s.cursor)
    | .ctrlC => .last s (.error (.of .interrupt))
    | .esc => .last s (.error (.of .interrupt))
    | .unknown => .after s (s.run bufs)

/-- The input of the command. -/
structure Input where
  isFile : Bool
  isTerminal : Bool
  /-- Setting raw mode, with the text of its error. -/
  makeRaw : Except String Unit
  /-- The width of the terminal, if it is known. -/
  width : Option Int
  reads : List (List UInt8)

def setupRawMode (input : Input) : Except Err Unit :=
  if !input.isTerminal then .error (.of .notTerminal) else input.makeRaw.mapError .plain

def startSelection (rows : List Row) (viewWidth : Int) : Selection where
  items := renderRows rows (viewWidth - itemPrefixLen - 1)
  cursor := 0
  scrollOffset := 0
  viewHeight := min maxVisibleItems rows.length

def selector (input : Input) (rows : List Row) : Run :=
  if rows.isEmpty then .failed (.of .noItems)
  else if !input.isFile then .failed (.of .notFile)
  else
    match setupRawMode input with
    | .error e => .failed e
    | .ok () => ((startSelection rows (input.width.getD 80)).run input.reads).restore

/-! ## The lines of a table -/

/-- The cells of a row, each in its column of the table. -/
def alignedRow (rows : List Row) (i : Nat) : List Char :=
  Tabwriter.formatLine 2 (rows.map fun row => Tabwriter.cells (rowText row)) i

/-- No cell has a line break. -/
def OneLiners (rows : List Row) : Prop := ∀ row ∈ rows, ∀ cell ∈ row, ∀ c ∈ cell.toList, c ≠ '\n' ∧ c ≠ '\x0c'

instance (rows : List Row) : Decidable (OneLiners rows) :=
  decidable_of_iff (rows.all fun row => row.all fun cell => cell.toList.all fun c => c != '\n' && c != '\x0c')
    (by simp [OneLiners])

theorem trimSuffix_append (s suffix : List Char) : trimSuffix (s ++ suffix) suffix = s := by
  have hsuffix : suffix.isSuffixOf (s ++ suffix) = true := List.isSuffixOf_iff_suffix.2 (List.suffix_append s suffix)
  rw [trimSuffix, if_pos hsuffix, List.length_append, Nat.add_sub_cancel, List.take_left]

theorem tableText_eq_concat {rows : List Row} (hrows : rows ≠ []) : ∃ text, tableText rows = text ++ ['\n'] := by
  obtain ⟨init, last, rfl⟩ := (List.eq_nil_or_concat rows).resolve_left hrows
  exact ⟨(init.map rowText).flatMap (· ++ ['\n']) ++ rowText last, by simp [tableText]⟩

/-- The lines that are read back are those the `tabwriter` made, without the empty one at the end. -/
theorem renderRows_of_format {rows : List Row} (hrows : rows ≠ []) {lines : List (List Char)}
    (hlines : Tabwriter.format 2 (tableText rows) = lines ++ [[]]) (maxWidth : Int) :
    renderRows rows maxWidth = lines.map (truncate · maxWidth) := by
  have hne : lines ≠ [] := by
    intro hnil
    obtain ⟨text, htext⟩ := tableText_eq_concat hrows
    have hlen := Tabwriter.length_format 2 (tableText rows)
    rw [hlines, hnil, htext, List.countP_append] at hlen
    simp [Tabwriter.endsLine] at hlen
  have hnewline : ∀ line ∈ lines, '\n' ∉ line := by
    intro line hline
    have hmem : line ∈ Tabwriter.format 2 (tableText rows) := hlines ▸ List.mem_append_left _ hline
    exact Tabwriter.newline_not_mem_format hmem
  have hwrite : Tabwriter.write 2 (tableText rows) = ['\n'].intercalate lines ++ ['\n'] := by
    rw [Tabwriter.write, hlines, intercalate_concat hne]
  have hempty : ¬ rows.isEmpty = true := by simpa using hrows
  rw [renderRows, if_neg hempty, hwrite, trimSuffix_append, List.splitOn_intercalate '\n' hnewline hne]

theorem endsLine_eq_false {c : Char} : Tabwriter.endsLine c = false ↔ c ≠ '\n' ∧ c ≠ '\x0c' := by
  simp [Tabwriter.endsLine, and_comm]

/-- The tabs between the cells of a row are no line breaks. -/
theorem rowText_endsLine {row : Row} : (∀ c ∈ rowText row, Tabwriter.endsLine c = false) ↔
    ∀ cell ∈ row, ∀ c ∈ cell.toList, c ≠ '\n' ∧ c ≠ '\x0c' := by
  constructor
  · intro h cell hcell c hc
    by_cases htab : c = '\t'
    · subst htab
      decide
    · exact endsLine_eq_false.1 (h c ((mem_intercalate_singleton htab).2 ⟨_, List.mem_map_of_mem hcell, hc⟩))
  · intro h c hc
    by_cases htab : c = '\t'
    · subst htab
      decide
    · obtain ⟨text, htext, hc⟩ := (mem_intercalate_singleton htab).1 hc
      obtain ⟨cell, hcell, rfl⟩ := List.mem_map.1 htext
      exact endsLine_eq_false.2 (h cell hcell c hc)

theorem oneLiners_iff {rows : List Row} :
    OneLiners rows ↔ ∀ text ∈ rows.map rowText, ∀ c ∈ text, Tabwriter.endsLine c = false := by
  simp only [OneLiners, List.forall_mem_map, rowText_endsLine]

/-- There is a line for each row and one more for each line break in a cell. -/
theorem length_renderRows {rows : List Row} (hrows : rows ≠ []) (maxWidth : Int) :
    (renderRows rows maxWidth).length = rows.length + (rows.map rowText).flatten.countP Tabwriter.endsLine := by
  obtain ⟨text, htext⟩ := tableText_eq_concat hrows
  obtain ⟨lines, hlines⟩ := Tabwriter.format_concat_newline 2 text
  rw [← htext] at hlines
  have hlen := Tabwriter.length_format 2 (tableText rows)
  rw [hlines, List.length_append, List.length_singleton, tableText, countP_flatMap_concat (by decide),
    List.length_map] at hlen
  rw [renderRows_of_format hrows hlines, List.length_map]
  omega

theorem length_renderRows_lt {rows : List Row} (hrows : rows ≠ []) (maxWidth : Int) (h : ¬ OneLiners rows) :
    rows.length < (renderRows rows maxWidth).length := by
  rw [length_renderRows hrows]
  have hpos : 0 < (rows.map rowText).flatten.countP Tabwriter.endsLine := by
    rw [List.countP_pos_iff]
    by_contra hnone
    apply h
    rw [oneLiners_iff]
    intro text htext c hc
    by_contra hends
    exact hnone ⟨c, List.mem_flatten.2 ⟨text, htext, hc⟩, by simpa using hends⟩
  omega

/-- Without line breaks, each row is on its own line. -/
theorem renderRows_eq {rows : List Row} (hrows : rows ≠ []) (maxWidth : Int) (h : OneLiners rows) :
    renderRows rows maxWidth = (List.range rows.length).map fun i => truncate (alignedRow rows i) maxWidth := by
  have hformat := Tabwriter.format_flatMap 2 (oneLiners_iff.1 h)
  rw [renderRows_of_format hrows hformat, Tabwriter.formatLines, List.map_map]
  simp [alignedRow, Function.comp_def]

/-! ## The cursor -/

namespace Selection

/-- The cursor is on a line, and the line is shown. -/
structure InView (s : Selection) : Prop where
  offset_le : s.scrollOffset ≤ s.cursor
  cursor_lt : s.cursor < s.scrollOffset + s.viewHeight
  on_line : s.cursor < s.items.length

/-- What a key that does not end the selection makes of it. -/
def Moves (s t : Selection) : Prop := t = s.moveUp ∨ t = s.moveDown ∨ t = s

variable {s t : Selection}

@[simp] theorem moveUp_items (s : Selection) : s.moveUp.items = s.items := by
  unfold moveUp
  split <;> rfl

@[simp] theorem moveDown_items (s : Selection) : s.moveDown.items = s.items := by
  unfold moveDown
  split <;> rfl

theorem Moves.items (h : s.Moves t) : t.items = s.items := by
  obtain rfl | rfl | rfl := h <;> simp

theorem InView.moveUp (h : s.InView) : s.moveUp.InView := by
  obtain ⟨hle, hlt, hline⟩ := h
  unfold Selection.moveUp
  split
  · refine ⟨?_, ?_, ?_⟩
    · show (if s.cursor - 1 < s.scrollOffset then s.cursor - 1 else s.scrollOffset) ≤ s.cursor - 1
      split <;> omega
    · show s.cursor - 1 < (if s.cursor - 1 < s.scrollOffset then s.cursor - 1 else s.scrollOffset) + s.viewHeight
      split <;> omega
    · show s.cursor - 1 < s.items.length
      omega
  · exact ⟨hle, hlt, hline⟩

theorem InView.moveDown (h : s.InView) : s.moveDown.InView := by
  obtain ⟨hle, hlt, hline⟩ := h
  unfold Selection.moveDown
  split
  · refine ⟨?_, ?_, ?_⟩
    · show (if s.cursor + 1 ≥ s.scrollOffset + s.viewHeight then s.cursor + 1 - s.viewHeight + 1 else s.scrollOffset) ≤
        s.cursor + 1
      split <;> omega
    · show s.cursor + 1 <
        (if s.cursor + 1 ≥ s.scrollOffset + s.viewHeight then s.cursor + 1 - s.viewHeight + 1 else s.scrollOffset) +
          s.viewHeight
      split <;> omega
    · show s.cursor + 1 < s.items.length
      omega
  · exact ⟨hle, hlt, hline⟩

theorem InView.moves (h : s.InView) (hm : s.Moves t) : t.InView := by
  obtain rfl | rfl | rfl := hm
  · exact h.moveUp
  · exact h.moveDown
  · exact h

/-- What a read does: a key that moves the cursor at most, or one that ends the selection. -/
theorem run_cons (s : Selection) (buf : List UInt8) :
    (∃ t, s.Moves t ∧ ∀ bufs, s.run (buf :: bufs) = .after s (t.run bufs)) ∨
      ∃ result, (∀ i, result = .ok i → i = s.cursor) ∧ ∀ bufs, s.run (buf :: bufs) = .last s result := by
  cases hkey : readKey buf with
  | unknown => exact .inl ⟨s, .inr (.inr rfl), fun bufs => by rw [run, hkey]⟩
  | up => exact .inl ⟨s.moveUp, .inl rfl, fun bufs => by rw [run, hkey]⟩
  | down => exact .inl ⟨s.moveDown, .inr (.inl rfl), fun bufs => by rw [run, hkey]⟩
  | enter => exact .inr ⟨.ok s.cursor, fun i hi => (Except.ok.inj hi).symm, fun bufs => by rw [run, hkey]⟩
  | ctrlC => exact .inr ⟨.error (.of .interrupt), fun _ => nofun, fun bufs => by rw [run, hkey]⟩
  | esc => exact .inr ⟨.error (.of .interrupt), fun _ => nofun, fun bufs => by rw [run, hkey]⟩

/-- The cursor stays in view for every sequence of reads. -/
theorem InView.run (h : s.InView) (bufs : List (List UInt8)) :
    ∀ t ∈ (s.run bufs).drawn, t.InView ∧ t.items = s.items := by
  induction bufs generalizing s with
  | nil =>
    intro t ht
    obtain rfl := List.mem_singleton.1 ht
    exact ⟨h, rfl⟩
  | cons buf bufs ih =>
    intro t ht
    obtain ⟨u, hu, hrun⟩ | ⟨result, -, hrun⟩ := s.run_cons buf
    · rw [hrun] at ht
      obtain rfl | ht := List.mem_cons.1 ht
      · exact ⟨h, rfl⟩
      · have hrest := ih (h.moves hu) t ht
        exact ⟨hrest.1, hrest.2.trans hu.items⟩
    · rw [hrun] at ht
      obtain rfl := List.mem_singleton.1 ht
      exact ⟨h, rfl⟩

/-- The index that is returned is the cursor of the state drawn last. -/
theorem run_result {bufs : List (List UInt8)} {i : Nat} (h : (s.run bufs).result = some (.ok i)) :
    ∃ t, (s.run bufs).drawn.getLast? = some t ∧ t.cursor = i := by
  induction bufs generalizing s with
  | nil => exact nomatch h
  | cons buf bufs ih =>
    obtain ⟨u, -, hrun⟩ | ⟨result, hresult, hrun⟩ := s.run_cons buf
    · rw [hrun] at h ⊢
      obtain ⟨t, hlast, ht⟩ := ih h
      exact ⟨t, by simp [Run.after, List.getLast?_cons, hlast], ht⟩
    · rw [hrun] at h ⊢
      exact ⟨s, rfl, (hresult i (Option.some.inj h)).symm⟩

/-- While the selection goes on, enter ends it with an index. -/
theorem run_enter {bufs : List (List UInt8)} (h : (s.run bufs).result = none) :
    ∃ i, (s.run (bufs ++ [[13]])).result = some (.ok i) := by
  induction bufs generalizing s with
  | nil => exact ⟨s.cursor, rfl⟩
  | cons buf bufs ih =>
    obtain ⟨u, -, hrun⟩ | ⟨result, -, hrun⟩ := s.run_cons buf
    · rw [hrun] at h
      rw [List.cons_append, hrun]
      exact ih h
    · rw [hrun] at h
      exact nomatch h

/-- Pressing `j` often enough brings the cursor to any later line. -/
theorem run_downs (n : Nat) (h : s.cursor + n < s.items.length) :
    ∃ t ∈ (s.run (List.replicate n [106])).drawn, t.cursor = s.cursor + n := by
  induction n generalizing s with
  | zero => exact ⟨s, List.mem_singleton_self s, rfl⟩
  | succ n ih =>
    have hcursor : s.moveDown.cursor = s.cursor + 1 := by
      rw [moveDown, if_pos (by omega)]
    have hroom : s.moveDown.cursor + n < s.moveDown.items.length := by
      rw [hcursor, moveDown_items]
      omega
    obtain ⟨t, ht, heq⟩ := ih hroom
    refine ⟨t, List.mem_cons_of_mem _ ht, ?_⟩
    omega

/-- In a frame, the line of the cursor is highlighted and no other is. -/
theorem InView.frame (h : s.InView) : s.frame.filter (·.1) = [(true, s.items.getD s.cursor [])] := by
  have hmem : s.cursor ∈ List.range' s.scrollOffset (s.viewEnd - s.scrollOffset) := by
    rw [List.mem_range'_1, viewEnd]
    have := h.offset_le
    have := h.cursor_lt
    have := h.on_line
    omega
  have hnodup : (List.range' s.scrollOffset (s.viewEnd - s.scrollOffset)).Nodup := List.nodup_range'
  have hfilter : (List.range' s.scrollOffset (s.viewEnd - s.scrollOffset)).filter (· == s.cursor) = [s.cursor] := by
    rw [List.filter_beq, List.count_eq_one_of_mem hnodup hmem, List.replicate_one]
  rw [Selection.frame, List.filter_map]
  change List.map _ (List.filter (· == s.cursor) _) = _
  rw [hfilter]
  simp

end Selection

/-! ## The selector -/

/-- An input that is a terminal of some width. -/
def onTerminal (width : Option Int) (reads : List (List UInt8)) : Input := ⟨true, true, .ok (), width, reads⟩

theorem startSelection_inView {rows : List Row} (hrows : rows ≠ []) (viewWidth : Int) :
    (startSelection rows viewWidth).InView := by
  have hpos : 0 < rows.length := List.length_pos_iff.2 hrows
  refine ⟨Nat.le_refl 0, ?_, ?_⟩
  · change 0 < 0 + min maxVisibleItems rows.length
    unfold maxVisibleItems
    omega
  · change 0 < (renderRows rows _).length
    rw [length_renderRows hrows]
    omega

theorem selector_onTerminal {rows : List Row} (hrows : rows ≠ []) (width : Option Int) (reads : List (List UInt8)) :
    selector (onTerminal width reads) rows = ((startSelection rows (width.getD 80)).run reads).restore := by
  have hempty : rows.isEmpty = false := by simpa using hrows
  simp [selector, hempty, onTerminal, setupRawMode, Except.mapError]

/-- **The row returned is the row highlighted.** Whatever keys are pressed, the cursor is among the lines shown and
among the rows, enter returns an index, and the only highlighted line of the last frame is the row with that index. This
holds exactly when no cell has a line break: one that does takes several lines, and the cursor counts lines. -/
theorem selector_highlighted (rows : List Row) (hrows : rows ≠ []) (width : Option Int) :
    (∀ reads,
      (∀ s ∈ (selector (onTerminal width reads) rows).drawn,
        s.scrollOffset ≤ s.cursor ∧ s.cursor < s.scrollOffset + s.viewHeight ∧ s.cursor < rows.length) ∧
      (∀ i, (selector (onTerminal width reads) rows).result = some (.ok i) →
        i < rows.length ∧ ∃ s, (selector (onTerminal width reads) rows).drawn.getLast? = some s ∧
          s.frame.filter (·.1) = [(true, truncate (alignedRow rows i) (width.getD 80 - itemPrefixLen - 1))]) ∧
      ((selector (onTerminal width reads) rows).result = none →
        ∃ i, (selector (onTerminal width (reads ++ [[13]])) rows).result = some (.ok i))) ↔
    OneLiners rows := by
  have hstart := startSelection_inView hrows (width.getD 80)
  simp only [selector_onTerminal hrows, Run.restore]
  constructor
  · intro h
    by_contra hbreak
    -- the lines are more than the rows, so enough downs leave the rows
    have hlen := length_renderRows_lt hrows (width.getD 80 - itemPrefixLen - 1) hbreak
    obtain ⟨t, ht, hcursor⟩ := Selection.run_downs (s := startSelection rows (width.getD 80)) rows.length (by
      change 0 + rows.length < (renderRows rows _).length
      omega)
    have hrow := ((h _).1 t ht).2.2
    change t.cursor = 0 + rows.length at hcursor
    omega
  · intro h reads
    have hitems := renderRows_eq hrows (width.getD 80 - itemPrefixLen - 1) h
    have hdrawn : ∀ s ∈ ((startSelection rows (width.getD 80)).run reads).drawn, s.InView ∧
        s.items = (List.range rows.length).map fun i =>
          truncate (alignedRow rows i) (width.getD 80 - itemPrefixLen - 1) :=
      fun s hs => ⟨(hstart.run reads s hs).1, (hstart.run reads s hs).2.trans hitems⟩
    have hrow : ∀ s ∈ ((startSelection rows (width.getD 80)).run reads).drawn, s.cursor < rows.length := by
      intro s hs
      obtain ⟨hview, hlines⟩ := hdrawn s hs
      simpa [hlines] using hview.on_line
    refine ⟨fun s hs => ⟨(hdrawn s hs).1.offset_le, (hdrawn s hs).1.cursor_lt, hrow s hs⟩, ?_, Selection.run_enter⟩
    intro i hi
    obtain ⟨s, hlast, rfl⟩ := Selection.run_result hi
    have hs := List.mem_of_getLast? hlast
    obtain ⟨hview, hlines⟩ := hdrawn s hs
    refine ⟨hrow s hs, s, hlast, ?_⟩
    rw [hview.frame, hlines, List.getD_eq_getElem _ _ (by simpa using hrow s hs)]
    simp

/-- Two rows without line breaks. -/
def demoRows : List Row := [["a", "b"], ["ccc", "d"]]

theorem selector_highlighted_second :
    demoRows ≠ [] ∧ OneLiners demoRows ∧ ∃ s,
      (selector (onTerminal (some 80) [[27, 91, 66], [13]]) demoRows).drawn.getLast? = some s ∧
        s.frame.filter (·.1) = [(true, ['c', 'c', 'c', ' ', ' ', 'd'])] := by
  refine ⟨by decide, by decide, ?_⟩
  have hreads := (selector_highlighted demoRows (by decide) (some 80)).2 (by decide) [[27, 91, 66], [13]]
  obtain ⟨-, s, hlast, hframe⟩ := hreads.2.1 1 (by decide +kernel)
  exact ⟨s, hlast, hframe.trans (by decide +kernel)⟩

/-- The first row has a line break, so it takes two lines. One step down highlights its second line and returns the
other row; two steps return an index that no row has. -/
theorem selector_line_break :
    (selector (onTerminal (some 80) [[106], [13]]) [["a\nb"], ["c"]]).result = some (.ok 1) ∧
      (selector (onTerminal (some 80) [[106], [13]]) [["a\nb"], ["c"]]).drawn.getLast?.map
          (fun s => s.frame.filter (·.1)) = some [(true, ['b'])] ∧
      truncate (alignedRow [["a\nb"], ["c"]] 1) (80 - itemPrefixLen - 1) = ['c'] ∧
      (selector (onTerminal (some 80) [[106], [106], [13]]) [["a\nb"], ["c"]]).result = some (.ok 2) := by
  decide +kernel

end Krypton.Terminal
