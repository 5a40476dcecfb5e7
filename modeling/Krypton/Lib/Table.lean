import Mathlib.Data.List.Pairwise
import Mathlib.Data.List.Basic

/-!
# Tables with unique constraints

A `Schema` names the columns of a row that no statement changes (`ident`), which two of those clash under the table's
primary key and unique constraints, and what every stored row satisfies. A `Table` is a list of rows, in the order they
were inserted, that meets its schema: no two rows clash. Rows are added by `insert`, which refuses a clash, and changed
by `modify`, which keeps `ident`; so every table value respects its constraints.

* `Table.eq_of_clash` — two rows that clash are one row;
* `Table.mem_insert`, `Table.rows_modify` — what the two statements leave in the table.
-/

namespace Krypton.Lib

/-- A condition that only one element can meet selects the first one that meets it. -/
theorem filter_eq_find {α : Type} {p : α → Bool} :
    ∀ {l : List α}, l.Nodup → (∀ a ∈ l, ∀ b ∈ l, p a = true → p b = true → a = b) → l.filter p = (l.find? p).toList
  | [], _, _ => rfl
  | a :: l, hnd, h => by
    rw [List.nodup_cons] at hnd
    by_cases ha : p a = true
    · have hnone : l.filter p = [] := List.filter_eq_nil_iff.2 fun b hb hpb =>
        hnd.1 (h a List.mem_cons_self b (List.mem_cons_of_mem _ hb) ha hpb ▸ hb)
      rw [List.filter_cons_of_pos ha, hnone, List.find?_cons_of_pos ha]
      rfl
    · rw [List.filter_cons_of_neg ha, List.find?_cons_of_neg ha]
      exact filter_eq_find hnd.2 fun b hb c hc => h b (List.mem_cons_of_mem _ hb) c (List.mem_cons_of_mem _ hc)

/-- The constraints of a table of rows `α` with immutable columns `ι`. -/
structure Schema (α ι : Type) where
  ident : α → ι
  /-- Two rows with these columns violate a unique constraint. -/
  clash : ι → ι → Bool
  clash_symm : ∀ i j, clash i j = clash j i
  /-- Column constraints. -/
  ok : ι → Prop

structure Table {α ι : Type} (S : Schema α ι) where
  rows : List α
  apart : (rows.map S.ident).Pairwise (fun i j => S.clash i j = false)
  valid : ∀ i ∈ rows.map S.ident, S.ok i

namespace Table

variable {α ι : Type} {S : Schema α ι}

def empty : Table S := ⟨[], by simp, by simp⟩

/-- Some stored row clashes with `a`. -/
def conflicts (t : Table S) (a : α) : Bool := t.rows.any fun r => S.clash (S.ident r) (S.ident a)

theorem apart_append {t : Table S} {a : α} (h : t.conflicts a = false) :
    ((t.rows ++ [a]).map S.ident).Pairwise (fun i j => S.clash i j = false) := by
  simp only [conflicts, List.any_eq_false, Bool.not_eq_true] at h
  rw [List.map_append, List.pairwise_append]
  refine ⟨t.apart, by simp, fun i hi j hj => ?_⟩
  obtain ⟨r, hr, rfl⟩ := List.mem_map.1 hi
  rw [List.map_singleton, List.mem_singleton] at hj
  exact hj ▸ h r hr

theorem valid_append {t : Table S} {a : α} (h : S.ok (S.ident a)) :
    ∀ i ∈ (t.rows ++ [a]).map S.ident, S.ok i := by
  intro i hi
  rw [List.map_append, List.mem_append] at hi
  rcases hi with hi | hi
  · exact t.valid i hi
  · rw [List.map_singleton, List.mem_singleton] at hi
    exact hi ▸ h

/-- `INSERT`: add a row, or nothing when it clashes with a stored one. -/
def insert (t : Table S) (a : α) (ha : S.ok (S.ident a)) : Option (Table S) :=
  if h : t.conflicts a = false then some ⟨t.rows ++ [a], apart_append h, valid_append ha⟩ else none

/-- `UPDATE`: rewrite rows, leaving the immutable columns alone. -/
def modify (t : Table S) (f : α → α) (hf : ∀ r, S.ident (f r) = S.ident r) : Table S :=
  have h : (t.rows.map f).map S.ident = t.rows.map S.ident := by
    rw [List.map_map]; exact List.map_congr_left fun r _ => hf r
  ⟨t.rows.map f, h ▸ t.apart, h ▸ t.valid⟩

/-- `UPDATE … SET f WHERE p`. -/
def update (t : Table S) (p : α → Bool) (f : α → α) (hf : ∀ r, S.ident (f r) = S.ident r) : Table S :=
  t.modify (fun r => if p r then f r else r) fun r => by split <;> simp [hf]

@[simp] theorem rows_modify (t : Table S) (f : α → α) (hf) : (t.modify f hf).rows = t.rows.map f := rfl

theorem rows_insert {t t' : Table S} {a : α} {ha} (h : t.insert a ha = some t') : t'.rows = t.rows ++ [a] := by
  unfold insert at h
  split at h
  · cases h; rfl
  · cases h

theorem not_conflicts_of_insert {t t' : Table S} {a : α} {ha} (h : t.insert a ha = some t') :
    t.conflicts a = false := by
  unfold insert at h
  split at h
  · assumption
  · cases h

theorem mem_insert {t t' : Table S} {a r : α} {ha} (h : t.insert a ha = some t') :
    r ∈ t'.rows ↔ r ∈ t.rows ∨ r = a := by
  rw [rows_insert h, List.mem_append, List.mem_singleton]

/-- Two stored rows that clash are the same row. -/
theorem eq_of_clash (t : Table S) {a b : α} (ha : a ∈ t.rows) (hb : b ∈ t.rows)
    (h : S.clash (S.ident a) (S.ident b) = true) : a = b := by
  have hp : t.rows.Pairwise (fun r r' => S.clash (S.ident r) (S.ident r') = false) := List.pairwise_map.1 t.apart
  have hsymm : Std.Symm (fun r r' : α => S.clash (S.ident r) (S.ident r') = false) :=
    ⟨fun r r' hr => by rw [S.clash_symm]; exact hr⟩
  by_contra hne
  have := hp.forall ha hb hne
  rw [h] at this
  cases this

theorem ok_of_mem (t : Table S) {a : α} (ha : a ∈ t.rows) : S.ok (S.ident a) :=
  t.valid _ (List.mem_map_of_mem ha)

/-- A row found by a condition that only one stored row can meet. -/
theorem find_eq_some {t : Table S} {p : α → Bool} {a : α} (ha : a ∈ t.rows) (hp : p a = true)
    (huniq : ∀ b ∈ t.rows, p b = true → b = a) : t.rows.find? p = some a := by
  cases hf : t.rows.find? p with
  | none => simp [List.find?_eq_none.1 hf a ha] at hp
  | some b => rw [huniq b (List.mem_of_find?_eq_some hf) (List.find?_some hf)]

end Table

end Krypton.Lib
