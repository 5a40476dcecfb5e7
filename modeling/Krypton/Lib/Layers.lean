import Mathlib.Data.Finset.Card
import Mathlib.Data.Finset.Dedup
import Mathlib.Data.Nat.Find
import Mathlib.Logic.Relation

/-!
# Layers of a search

A search that goes from layer to layer: `next` lists the successors of the elements of a layer. An element that is
reachable from the start is in some layer, and with finitely many elements in one of the first layers, cycles or not.

* `First` — the first layer an element is in; each layer before it is first for some element (`First.all`);
* `mem_layer_lt` — so there are fewer layers than elements;
* `Descends` — a search down a forest; an element is in one layer only (`Descends.unique`), below those of its ancestors
  (`Descends.lt_of_ancestor`), and the layers end (`Descends.layer_eq_nil`);
* `withRecursive` — the same search as a recursive query, which collects what its rounds find.
-/

namespace Krypton.Lib

variable {α : Type} {next : List α → List α} {R : α → α → Prop} {l : List α} {x y z : α} {i j n : Nat}

/-- `next` lists the successors of a layer. -/
def Expands (next : List α → List α) (R : α → α → Prop) : Prop := ∀ l y, y ∈ next l ↔ ∃ x ∈ l, R x y

theorem mem_layer_succ (h : Expands next R) : z ∈ next^[n + 1] l ↔ ∃ y ∈ next^[n] l, R y z := by
  rw [Function.iterate_succ_apply']
  exact h _ z

theorem mem_layer_of_reach (h : Expands next R) (hxy : Relation.ReflTransGen R x y) : ∃ n, y ∈ next^[n] [x] := by
  induction hxy with
  | refl => exact ⟨0, List.mem_singleton_self x⟩
  | tail _ hyz ih =>
    obtain ⟨n, hn⟩ := ih
    exact ⟨n + 1, (mem_layer_succ h).2 ⟨_, hn, hyz⟩⟩

/-- Layer `n` is the first one with `z`. -/
def First (next : List α → List α) (l : List α) (z : α) (n : Nat) : Prop := z ∈ next^[n] l ∧ ∀ j < n, z ∉ next^[j] l

theorem First.unique (hi : First next l z i) (hj : First next l z j) : i = j := by
  rcases Nat.lt_trichotomy i j with h | h | h
  · exact absurd hi.1 (hj.2 i h)
  · exact h
  · exact absurd hj.1 (hi.2 j h)

/-- A predecessor in the layer before is there for the first time, too. -/
theorem First.pred (h : Expands next R) (hz : First next l z (n + 1)) : ∃ y, First next l y n := by
  obtain ⟨y, hy, hyz⟩ := (mem_layer_succ h).1 hz.1
  refine ⟨y, hy, fun j hj hyj => ?_⟩
  exact hz.2 (j + 1) (Nat.succ_lt_succ hj) ((mem_layer_succ h).2 ⟨y, hyj, hyz⟩)

theorem First.all (h : Expands next R) (hz : First next l z n) : ∀ i ≤ n, ∃ y, First next l y i := by
  induction n generalizing z with
  | zero =>
    intro i hi
    exact ⟨z, Nat.le_zero.1 hi ▸ hz⟩
  | succ n ih =>
    intro i hi
    rcases Nat.le_succ_iff.1 hi with hi | rfl
    · obtain ⟨y, hy⟩ := hz.pred h
      exact ih hy i hi
    · exact ⟨z, hz⟩

/-- **There are fewer layers than elements.** -/
theorem mem_layer_lt (h : Expands next R) {U : List α} (hU : ∀ y z, R y z → z ∈ U) (hx : x ∈ U)
    (hxy : Relation.ReflTransGen R x y) : ∃ n < U.length, y ∈ next^[n] [x] := by
  classical
  have : Nonempty α := ⟨x⟩
  have hsome := mem_layer_of_reach h hxy
  have hfirst : First next [x] y (Nat.find hsome) := ⟨Nat.find_spec hsome, fun j hj => Nat.find_min hsome hj⟩
  refine ⟨Nat.find hsome, ?_, Nat.find_spec hsome⟩
  have hlayer : ∀ n z, z ∈ next^[n] [x] → z ∈ U := by
    intro n z hz
    cases n with
    | zero => exact List.mem_singleton.1 hz ▸ hx
    | succ n =>
      obtain ⟨y, -, hyz⟩ := (mem_layer_succ h).1 hz
      exact hU y z hyz
  -- each layer up to the first one with `y` has an element of its own
  choose! f hf using hfirst.all h
  have hcard : (Finset.range (Nat.find hsome + 1)).card ≤ U.toFinset.card := by
    refine Finset.card_le_card_of_injOn f (fun i hi => ?_) fun i hi j hj hij => ?_
    · exact List.mem_toFinset.2 (hlayer i _ (hf i (Nat.lt_succ_iff.1 (Finset.mem_range.1 hi))).1)
    · have hi' := hf i (Nat.lt_succ_iff.1 (Finset.mem_range.1 hi))
      have hj' := hf j (Nat.lt_succ_iff.1 (Finset.mem_range.1 hj))
      rw [hij] at hi'
      exact hi'.unique hj'
  rw [Finset.card_range] at hcard
  exact Nat.lt_of_lt_of_le (Nat.lt_succ_self _) (hcard.trans (List.toFinset_card_le U))

/-! ## Searches down a forest -/

/-- `R` goes from elements of `U` to some of their children in a forest: `P` relates a parent to its child, a child has
one parent, and no element is above itself. -/
structure Descends (R P : α → α → Prop) (U : List α) : Prop where
  closed : ∀ y z, R y z → z ∈ U
  parent : ∀ y ∈ U, ∀ z, R y z → P y z
  one_parent : ∀ y y' z, P y z → P y' z → y = y'
  acyclic : ∀ y, ¬ Relation.TransGen P y y

section
variable {P : α → α → Prop} {U : List α}

theorem Descends.mem (hd : Descends R P U) (h : Expands next R) (hx : x ∈ U) :
    ∀ {n : Nat} {z : α}, z ∈ next^[n] [x] → z ∈ U
  | 0, _, hz => List.mem_singleton.1 hz ▸ hx
  | _ + 1, z, hz => by
    obtain ⟨y, -, hyz⟩ := (mem_layer_succ h).1 hz
    exact hd.closed y z hyz

/-- What is in a layer is below the start. -/
theorem Descends.below (hd : Descends R P U) (h : Expands next R) (hx : x ∈ U) (hz : z ∈ next^[n] [x]) :
    Relation.ReflTransGen P x z := by
  induction n generalizing z with
  | zero => rw [List.mem_singleton.1 hz]
  | succ n ih =>
    obtain ⟨y, hy, hyz⟩ := (mem_layer_succ h).1 hz
    exact (ih hy).tail (hd.parent y (hd.mem h hx hy) z hyz)

/-- A layer below the first one has the parents of its elements right above it. -/
theorem Descends.parent_mem (hd : Descends R P U) (h : Expands next R) (hx : x ∈ U) (hz : z ∈ next^[n + 1] [x])
    (hyz : P y z) : y ∈ next^[n] [x] := by
  obtain ⟨y', hy', hR⟩ := (mem_layer_succ h).1 hz
  rw [hd.one_parent y y' z hyz (hd.parent y' (hd.mem h hx hy') z hR)]
  exact hy'

theorem Descends.pos_of_ancestor (hd : Descends R P U) (h : Expands next R) (hx : x ∈ U) (hy : y ∈ next^[i] [x])
    (hyz : Relation.TransGen P y z) (hz : z ∈ next^[j] [x]) : 0 < j := by
  cases j with
  | succ j => exact Nat.succ_pos j
  | zero =>
    -- the start would be above itself
    rw [List.mem_singleton.1 hz] at hyz
    exact absurd (Relation.TransGen.trans_right (hd.below h hx hy) hyz) (hd.acyclic x)

theorem Descends.unique (hd : Descends R P U) (h : Expands next R) (hx : x ∈ U) :
    ∀ {i j : Nat} {z : α}, z ∈ next^[i] [x] → z ∈ next^[j] [x] → i = j
  | 0, 0, _, _, _ => rfl
  | 0, j + 1, z, hi, hj => by
    obtain ⟨y, hy, hyz⟩ := (mem_layer_succ h).1 hj
    have hpos := hd.pos_of_ancestor h hx hy (.single (hd.parent y (hd.mem h hx hy) z hyz)) hi
    exact absurd hpos (Nat.lt_irrefl 0)
  | i + 1, 0, z, hi, hj => by
    obtain ⟨y, hy, hyz⟩ := (mem_layer_succ h).1 hi
    have hpos := hd.pos_of_ancestor h hx hy (.single (hd.parent y (hd.mem h hx hy) z hyz)) hj
    exact absurd hpos (Nat.lt_irrefl 0)
  | i + 1, j + 1, z, hi, hj => by
    obtain ⟨y, hy, hyz⟩ := (mem_layer_succ h).1 hi
    have hj' := hd.parent_mem h hx hj (hd.parent y (hd.mem h hx hy) z hyz)
    rw [hd.unique h hx hy hj']

/-- An ancestor is in an earlier layer. -/
theorem Descends.lt_of_ancestor (hd : Descends R P U) (h : Expands next R) (hx : x ∈ U) (hy : y ∈ next^[i] [x])
    (hyz : Relation.TransGen P y z) (hz : z ∈ next^[j] [x]) : i < j := by
  induction hyz generalizing j with
  | single hyz =>
    obtain ⟨j, rfl⟩ := Nat.exists_eq_succ_of_ne_zero (Nat.ne_of_gt (hd.pos_of_ancestor h hx hy (.single hyz) hz))
    rw [hd.unique h hx hy (hd.parent_mem h hx hz hyz)]
    exact Nat.lt_succ_self j
  | tail hyp hpz ih =>
    obtain ⟨j, rfl⟩ := Nat.exists_eq_succ_of_ne_zero (Nat.ne_of_gt (hd.pos_of_ancestor h hx hy (hyp.tail hpz) hz))
    exact Nat.lt_succ_of_lt (ih (hd.parent_mem h hx hz hpz))

/-- There is no layer with the number of elements, or any after it. -/
theorem Descends.layer_eq_nil (hd : Descends R P U) (h : Expands next R) (hx : x ∈ U) (hn : U.length ≤ n) :
    next^[n] [x] = [] := by
  refine List.eq_nil_iff_forall_not_mem.2 fun z hz => ?_
  have hreach : ∀ {n : Nat} {z : α}, z ∈ next^[n] [x] → Relation.ReflTransGen R x z := by
    intro n
    induction n with
    | zero => exact fun hz => List.mem_singleton.1 hz ▸ .refl
    | succ n ih =>
      intro z hz
      obtain ⟨y, hy, hyz⟩ := (mem_layer_succ h).1 hz
      exact (ih hy).tail hyz
  obtain ⟨m, hm, hzm⟩ := mem_layer_lt h hd.closed hx (hreach hz)
  rw [hd.unique h hx hz hzm] at hn
  exact absurd hm (Nat.not_lt.2 hn)

end

/-! ## Recursive queries -/

/-- `WITH RECURSIVE … UNION ALL`: collect the rows of the rounds, each computed from the rows of the round before it,
until a round is empty. `none` when `fuel` rounds do not reach an empty one. -/
def withRecursive (round : List α → List α) : Nat → List α → Option (List α)
  | _, [] => some []
  | 0, _ :: _ => none
  | fuel + 1, x :: xs => (withRecursive round fuel (round (x :: xs))).map ((x :: xs) ++ ·)

theorem withRecursive_isSome {round : List α → List α} (h : round^[n] l = []) :
    ∃ rs, withRecursive round n l = some rs := by
  induction n generalizing l with
  | zero =>
    rw [Function.iterate_zero_apply] at h
    exact ⟨[], by rw [h]; rfl⟩
  | succ n ih =>
    cases l with
    | nil => exact ⟨[], rfl⟩
    | cons x xs =>
      obtain ⟨rs, hrs⟩ := ih h
      exact ⟨x :: xs ++ rs, by rw [withRecursive, hrs]; rfl⟩

end Krypton.Lib
