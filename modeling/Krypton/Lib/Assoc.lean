import Mathlib.Data.List.Nodup

/-!
# Association lists

Maps given by the list of their entries, as a loop over them meets these. With different keys, looking a key up finds
exactly its entry.
-/

namespace Krypton.Lib

variable {κ α : Type} [BEq κ] [LawfulBEq κ]

/-- The first entry with a key. -/
def assoc (l : List (κ × α)) (k : κ) : Option α := (l.find? fun p => p.1 == k).map Prod.snd

theorem mem_of_assoc {l : List (κ × α)} {k : κ} {a : α} (h : assoc l k = some a) : (k, a) ∈ l := by
  obtain ⟨⟨k', a'⟩, hfind, rfl⟩ := Option.map_eq_some_iff.1 h
  have hk : k' = k := by simpa using List.find?_some hfind
  subst hk
  exact List.mem_of_find?_eq_some hfind

theorem assoc_eq_none {l : List (κ × α)} {k : κ} : assoc l k = none ↔ ∀ a, (k, a) ∉ l := by
  unfold assoc
  rw [Option.map_eq_none_iff, List.find?_eq_none]
  constructor
  · intro h a ha
    exact h _ ha (beq_self_eq_true k)
  · rintro h ⟨k', a⟩ ha hk
    rw [beq_iff_eq] at hk
    exact h a (hk ▸ ha)

/-- Looking a key up finds its only entry. -/
theorem assoc_eq_some {l : List (κ × α)} (hn : (l.map Prod.fst).Nodup) {k : κ} {a : α} : assoc l k = some a ↔
    (k, a) ∈ l := by
  refine ⟨mem_of_assoc, fun h => ?_⟩
  cases hget : assoc l k with
  | none => exact absurd h (assoc_eq_none.1 hget a)
  | some b =>
    have hsame := List.inj_on_of_nodup_map hn (mem_of_assoc hget) h rfl
    rw [(Prod.mk.inj hsame).2]

end Krypton.Lib
