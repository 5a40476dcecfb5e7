import Krypton.Lib.Run

/-!
# Processes over shared state

Any number of processes with local states `ℓ` take turns on one shared state `σ`. A turn is one atomic access: `next`
gives the process and the shared state after it, for an outcome `ε` that the surroundings choose. Processes start at any
time, and one that is never given a turn again has died.

* `Pool.meets_run` — assertions about each process hold in every interleaving, if a turn keeps the assertion of its own
  process and does not interfere with those of the others; processes that would interfere are excluded by a relation,
  and then the assertions hold for as long as the relation did;
* `Pool.run_turns` — a process that runs alone.
-/

namespace Krypton.Lib

structure Pool (σ ℓ : Type) where
  shared : σ
  procs : List ℓ

inductive Pool.Event (α ε : Type) where
  | start (a : α)
  | turn (i : Nat) (e : ε)
  deriving DecidableEq, Repr

namespace Pool

variable {σ ℓ α ε : Type} (init : α → ℓ) (next : ε → ℓ → σ → ℓ × σ)

def step (p : Pool σ ℓ) : Event α ε → Pool σ ℓ
  | .start a => { p with procs := p.procs ++ [init a] }
  | .turn i e =>
    match p.procs[i]? with
    | none => p
    | some l => ⟨(next e l p.shared).2, p.procs.set i (next e l p.shared).1⟩

variable {init next} {I : σ → Prop} {A : σ → ℓ → Prop} {R : ℓ → ℓ → Prop} {p : Pool σ ℓ}

/-- The shared state meets `I`, and every process its assertion. -/
structure Meets (I : σ → Prop) (A : σ → ℓ → Prop) (p : Pool σ ℓ) : Prop where
  shared : I p.shared
  procs : ∀ l ∈ p.procs, A p.shared l

/-- Two processes that are not related. -/
def Clash (R : ℓ → ℓ → Prop) (p : Pool σ ℓ) : Prop := ∃ l ∈ p.procs, ∃ l' ∈ p.procs, ¬ R l l'

theorem Meets.step (hstart : ∀ s a, I s → A s (init a))
    (hturn : ∀ s l e, I s → A s l → I (next e l s).2 ∧ A (next e l s).2 (next e l s).1)
    (hothers : ∀ s l l' e, I s → A s l → A s l' → R l l' → A (next e l s).2 l') (h : Meets I A p) (hR : ¬ Clash R p)
    (ev : Event α ε) : Meets I A (p.step init next ev) := by
  cases ev with
  | start a =>
    refine ⟨h.shared, fun l hl => ?_⟩
    rcases List.mem_append.1 hl with hl | hl
    · exact h.procs l hl
    · rw [List.mem_singleton.1 hl]
      exact hstart p.shared a h.shared
  | turn i e =>
    unfold Pool.step
    dsimp only
    cases hi : p.procs[i]? with
    | none => exact h
    | some l =>
      have hl := List.mem_of_getElem? hi
      refine ⟨(hturn p.shared l e h.shared (h.procs l hl)).1, fun l' hl' => ?_⟩
      rcases List.mem_or_eq_of_mem_set hl' with hl' | rfl
      · have hrel : R l l' := by
          by_contra hnot
          exact hR ⟨l, hl, l', hl', hnot⟩
        exact hothers p.shared l l' e h.shared (h.procs l hl) (h.procs l' hl') hrel
      · exact (hturn p.shared l e h.shared (h.procs l hl)).2

/-- **Interference freedom.** The assertions hold after every run, unless unrelated processes met on the way. -/
theorem meets_run (hstart : ∀ s a, I s → A s (init a))
    (hturn : ∀ s l e, I s → A s l → I (next e l s).2 ∧ A (next e l s).2 (next e l s).1)
    (hothers : ∀ s l l' e, I s → A s l → A s l' → R l l' → A (next e l s).2 l') (h : Meets I A p)
    (evs : List (Event α ε)) :
    Meets I A (run (step init next) p evs) ∨ ∃ earlier later,
      evs = earlier ++ later ∧ Clash R (run (step init next) p earlier) := by
  induction evs generalizing p with
  | nil => exact .inl h
  | cons ev evs ih =>
    by_cases hR : Clash R p
    · exact .inr ⟨[], ev :: evs, rfl, hR⟩
    · rcases ih (h.step hstart hturn hothers hR ev) with h' | ⟨earlier, later, rfl, hclash⟩
      · exact .inl h'
      · exact .inr ⟨ev :: earlier, later, rfl, hclash⟩

/-! ## A process alone -/

/-- The turns of one process without interference. -/
def turns (next : ε → ℓ → σ → ℓ × σ) : List ε → ℓ × σ → ℓ × σ
  | [], s => s
  | e :: es, s => turns next es (next e s.1 s.2)

theorem turns_of_idle {es : List ε} {s : ℓ × σ} (h : ∀ e, next e s.1 s.2 = s) : turns next es s = s := by
  induction es with
  | nil => rfl
  | cons e es ih =>
    rw [turns, h]
    exact ih

theorem run_turns {i : Nat} {l : ℓ} (hl : p.procs[i]? = some l) (es : List ε) :
    run (step init next) p (es.map (.turn i)) =
      ⟨(turns next es (l, p.shared)).2, p.procs.set i (turns next es (l, p.shared)).1⟩ := by
  induction es generalizing p l with
  | nil =>
    obtain ⟨hlt, rfl⟩ := List.getElem?_eq_some_iff.1 hl
    show p = ⟨p.shared, p.procs.set i p.procs[i]⟩
    rw [List.set_getElem_self]
  | cons e es ih =>
    have hlt : i < p.procs.length := (List.getElem?_eq_some_iff.1 hl).1
    have hstep : p.step init next (.turn i e) = ⟨(next e l p.shared).2, p.procs.set i (next e l p.shared).1⟩ := by
      unfold Pool.step
      dsimp only
      rw [hl]
    have hnext : (p.procs.set i (next e l p.shared).1)[i]? = some (next e l p.shared).1 := List.getElem?_set_self hlt
    rw [List.map_cons, run_cons, hstep, ih hnext, List.set_set]
    rfl

end Pool

end Krypton.Lib
