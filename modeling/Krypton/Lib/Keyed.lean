import Krypton.Lib.Table

/-!
# Tables with a primary key

Tables whose only unique constraint is a primary key, and the statements that write them: `upsert` is
`INSERT … ON CONFLICT (key) DO UPDATE`, `update` is `UPDATE … WHERE`, `delete` is `DELETE … WHERE`. Such a table is a
finite map: `get` looks a row up, and each statement acts on the row of every key by itself (`get_upsert`, `get_update`,
`get_delete`). Two tables with the same rows under every key differ in the order of their rows at most.
-/

namespace Krypton.Lib

variable {α κ : Type} [DecidableEq κ]

/-- The constraints of a table with a primary key. -/
def Schema.primaryKey (key : α → κ) (ok : κ → Prop) : Schema α κ where
  ident := key
  clash i j := i == j
  clash_symm _ _ := BEq.comm
  ok := ok

namespace Table

section
variable {ι : Type} {S : Schema α ι} {t : Table S}

theorem apart_filter {p : α → Bool} : ((t.rows.filter p).map S.ident).Pairwise (fun i j => S.clash i j = false) :=
  t.apart.sublist (List.filter_sublist.map S.ident)

theorem valid_filter {p : α → Bool} : ∀ i ∈ (t.rows.filter p).map S.ident, S.ok i := by
  intro i hi
  exact t.valid i ((List.filter_sublist.map S.ident).subset hi)

/-- `DELETE … WHERE p`. -/
def delete (t : Table S) (p : α → Bool) : Table S := ⟨t.rows.filter fun r => !p r, apart_filter, valid_filter⟩

@[simp] theorem mem_delete {p : α → Bool} {r : α} : r ∈ (t.delete p).rows ↔ r ∈ t.rows ∧ p r = false := by
  simp [delete]

end

variable {key : α → κ} {ok : κ → Prop} {t : Table (Schema.primaryKey key ok)} {k : κ}

/-- The row of a key. -/
def get (t : Table (Schema.primaryKey key ok)) (k : κ) : Option α := t.rows.find? fun r => key r == k

/-- `INSERT … ON CONFLICT (key) DO UPDATE SET set`. -/
def upsert (t : Table (Schema.primaryKey key ok)) (a : α) (ha : ok (key a)) (set : α → α)
    (hset : ∀ r, key (set r) = key r) : Table (Schema.primaryKey key ok) :=
  match t.insert a ha with
  | some t' => t'
  | none => t.update (fun r => key r == key a) set hset

theorem get_eq_some {r : α} : t.get k = some r ↔ r ∈ t.rows ∧ key r = k := by
  unfold get
  constructor
  · intro h
    exact ⟨List.mem_of_find?_eq_some h, by simpa using List.find?_some h⟩
  · intro h
    obtain ⟨hr, rfl⟩ := h
    refine find_eq_some hr (beq_self_eq_true _) fun b hb hk => t.eq_of_clash hb hr ?_
    exact hk

theorem get_eq_none : t.get k = none ↔ ∀ r ∈ t.rows, key r ≠ k := by
  unfold get
  rw [List.find?_eq_none]
  simp

theorem mem_rows_iff {r : α} : r ∈ t.rows ↔ t.get (key r) = some r := by
  rw [get_eq_some, and_iff_left rfl]

theorem get_update (p : α → Bool) (f : α → α) (hf : ∀ r, key (f r) = key r) :
    (t.update p f hf).get k = (t.get k).map fun r => if p r then f r else r := by
  unfold get update
  rw [rows_modify, List.find?_map]
  congr 2
  funext r
  dsimp only [Function.comp_apply]
  split
  · rw [hf]
  · rfl

theorem get_delete (p : α → Bool) : (t.delete p).get k = (t.get k).filter fun r => !p r := by
  apply Option.ext
  intro r
  rw [get_eq_some, mem_delete, Option.filter_eq_some_iff, get_eq_some, Bool.not_eq_true']
  exact and_right_comm

theorem insert_eq_none {a : α} {ha : ok (key a)} :
    t.insert a ha = none ↔ ∃ r ∈ t.rows, key r = key a := by
  unfold insert
  split
  · rename_i h
    simp only [reduceCtorEq, false_iff, not_exists, not_and]
    intro r hr hk
    unfold conflicts at h
    rw [List.any_eq_false] at h
    exact h r hr (beq_iff_eq.2 hk)
  · rename_i h
    simp only [conflicts, Bool.not_eq_false, List.any_eq_true] at h
    obtain ⟨r, hr, hk⟩ := h
    exact iff_of_true rfl ⟨r, hr, eq_of_beq hk⟩

/-- An upsert changes the row of its own key: it adds it, or sets the stored one. -/
theorem get_upsert (a : α) (ha : ok (key a)) (set : α → α) (hset : ∀ r, key (set r) = key r) :
    (t.upsert a ha set hset).get k = if key a = k then some ((t.get k).elim a set) else t.get k := by
  unfold upsert
  cases hi : t.insert a ha with
  | some t' =>
    have hnone : t.get (key a) = none := by
      rw [get_eq_none]
      intro r hr hk
      rw [insert_eq_none.2 ⟨r, hr, hk⟩] at hi
      cases hi
    apply Option.ext
    intro r
    dsimp only
    rw [get_eq_some, mem_insert hi]
    split
    · rename_i hk
      subst hk
      rw [hnone, Option.elim_none, Option.some.injEq]
      constructor
      · intro h
        rcases h.1 with hr | rfl
        · exact absurd h.2 (get_eq_none.1 hnone r hr)
        · rfl
      · rintro rfl
        exact ⟨.inr rfl, rfl⟩
    · rename_i hk
      rw [get_eq_some]
      constructor
      · intro h
        rcases h.1 with hr | rfl
        · exact ⟨hr, h.2⟩
        · exact absurd h.2 hk
      · exact fun h => ⟨.inl h.1, h.2⟩
  | none =>
    obtain ⟨r, hr, hk⟩ := insert_eq_none.1 hi
    dsimp only
    rw [get_update]
    split
    · rename_i hka
      subst hka
      rw [get_eq_some.2 ⟨hr, hk⟩, Option.map_some, Option.elim_some, if_pos (beq_iff_eq.2 hk)]
    · rename_i hka
      cases hget : t.get k with
      | none => rfl
      | some r' =>
        have hk' := (get_eq_some.1 hget).2
        rw [Option.map_some, if_neg]
        rw [beq_iff_eq, hk']
        exact fun h => hka h.symm

end Table

end Krypton.Lib
