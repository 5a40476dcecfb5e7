import Mathlib.Data.Set.Basic
import Mathlib.Logic.Function.Basic
import Mathlib.Tactic.Common

/-!
# Rows that guard a store

Writers that insert rows under unique keys and, before they commit, put entries into a store outside the database. Each
entry of the store is for one row. The store itself takes every write; what protects an entry is that a row is inserted
by one open writer at a time and never again once it is committed.

* `Exclusive` — a row is held by at most one writer, and by none once it is committed; `Step.exclusive` keeps it;
* `Step.store_of_held` — nobody but its writer changes the entry of a held row;
* `Step.store_of_committed` — nobody changes the entry of a committed row.
-/

namespace Krypton.Lib

/-- The committed rows, the rows inserted by each open writer, and the store. -/
structure Guarded (ι κ σ ν : Type) where
  committed : Set κ
  held : ι → Set κ
  store : σ → Option ν

namespace Guarded

variable {ι κ σ ν : Type} [DecidableEq ι] [DecidableEq σ] {row : σ → Option κ} {s s' : Guarded ι κ σ ν}
    {i j : ι} {k : κ}
  {slot : σ}

/-- What writer `i` can do; `row` is the row an entry is for. -/
inductive Step (row : σ → Option κ) (s : Guarded ι κ σ ν) (i : ι) : Guarded ι κ σ ν → Prop where
  | idle : Step row s i s
  /-- Insert rows that nobody has inserted. -/
  | insert (K : Set κ) (hnew : ∀ k ∈ K, k ∉ s.committed) (hfree : ∀ k ∈ K, ∀ j, j ≠ i → k ∉ s.held j) :
      Step row s i { s with held := Function.update s.held i K }
  /-- Put the entry of an inserted row. -/
  | put (slot : σ) (v : ν) (hheld : ∃ k ∈ s.held i, row slot = some k) :
      Step row s i { s with store := Function.update s.store slot (some v) }
  | commit : Step row s i { s with committed := s.committed ∪ s.held i, held := Function.update s.held i ∅ }
  | rollback : Step row s i { s with held := Function.update s.held i ∅ }

/-- A row is held by at most one writer, and by none once it is committed. -/
structure Exclusive (s : Guarded ι κ σ ν) : Prop where
  held : ∀ i j k, k ∈ s.held i → k ∈ s.held j → i = j
  committed : ∀ i k, k ∈ s.held i → k ∉ s.committed

/-- Rows held after one writer's rows were replaced by `K`. -/
theorem mem_update_held {K : Set κ} {held : ι → Set κ} :
    k ∈ Function.update held i K j ↔ (j = i ∧ k ∈ K) ∨ (j ≠ i ∧ k ∈ held j) := by
  by_cases h : j = i
  · subst h
    simp
  · simp [h]

theorem Step.exclusive (h : Step row s i s') (hx : s.Exclusive) : s'.Exclusive := by
  cases h with
  | idle => exact hx
  | insert K hnew hfree =>
    refine ⟨fun a b k ha hb => ?_, fun a k ha => ?_⟩
    · rcases mem_update_held.1 ha with ⟨rfl, hK⟩ | ⟨hai, ha'⟩
      · rcases mem_update_held.1 hb with ⟨rfl, -⟩ | ⟨hbi, hb'⟩
        · rfl
        · exact absurd hb' (hfree k hK b hbi)
      · rcases mem_update_held.1 hb with ⟨rfl, hK⟩ | ⟨-, hb'⟩
        · exact absurd ha' (hfree k hK a hai)
        · exact hx.held a b k ha' hb'
    · rcases mem_update_held.1 ha with ⟨-, hK⟩ | ⟨-, ha'⟩
      · exact hnew k hK
      · exact hx.committed a k ha'
  | put slot v _ => exact ⟨hx.held, hx.committed⟩
  | commit =>
    have hmem : ∀ a k, k ∈ Function.update s.held i ∅ a → a ≠ i ∧ k ∈ s.held a := by
      intro a k ha
      rcases mem_update_held.1 ha with ⟨-, h⟩ | h
      · exact absurd h (Set.notMem_empty k)
      · exact h
    refine ⟨fun a b k ha hb => hx.held a b k (hmem a k ha).2 (hmem b k hb).2, fun a k ha => ?_⟩
    rintro (hc | hi)
    · exact hx.committed a k (hmem a k ha).2 hc
    · exact (hmem a k ha).1 (hx.held a i k (hmem a k ha).2 hi)
  | rollback =>
    have hmem : ∀ a k, k ∈ Function.update s.held i ∅ a → k ∈ s.held a := by
      intro a k ha
      rcases mem_update_held.1 ha with ⟨-, h⟩ | h
      · exact absurd h (Set.notMem_empty k)
      · exact h.2
    exact ⟨fun a b k ha hb => hx.held a b k (hmem a k ha) (hmem b k hb), fun a k ha => hx.committed a k (hmem a k ha)⟩

theorem Step.committed_mono (h : Step row s i s') (hk : k ∈ s.committed) : k ∈ s'.committed := by
  cases h with
  | commit => exact .inl hk
  | _ => exact hk

/-- A step changes only entries of rows that its writer holds. -/
theorem Step.store_eq (h : Step row s i s') (hrow : row slot = some k) (hk : k ∉ s.held i) :
    s'.store slot = s.store slot := by
  cases h with
  | put slot' v hheld =>
    obtain ⟨k', hk', hrow'⟩ := hheld
    refine Function.update_of_ne ?_ _ _
    rintro rfl
    rw [hrow] at hrow'
    exact hk (Option.some.inj hrow' ▸ hk')
  | _ => rfl

theorem Step.store_of_held (h : Step row s i s') (hx : s.Exclusive) (hrow : row slot = some k) (hk : k ∈ s.held j)
    (hij : j ≠ i) : s'.store slot = s.store slot :=
  h.store_eq hrow fun hi => hij (hx.held j i k hk hi)

theorem Step.store_of_committed (h : Step row s i s') (hx : s.Exclusive) (hrow : row slot = some k)
    (hk : k ∈ s.committed) : s'.store slot = s.store slot :=
  h.store_eq hrow fun hi => hx.committed i k hi hk

end Guarded

end Krypton.Lib
