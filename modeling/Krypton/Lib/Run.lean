import Mathlib.Data.List.Induction

/-!
# Runs of a step function

A system is a total step function `step : σ → ω → σ` on operations `ω`; an operation that is refused leaves the state
as it is. A run is a list of operations, and `run` is the state after it.

* `run_inv` — an invariant that every allowed step keeps holds after every run of allowed steps;
* `run_after` — a property established by one step of a run and kept by the later ones holds at its end;
* `along_iff_run` — a property that the forbidden steps spoil for good holds at the end exactly when no step was
  forbidden;
* `run_inv_or_since` — an invariant that one kind of step can spoil and another restores;
* `run_traced` — a value in circulation was made by some step, and nothing has replaced it since;
* `run_written` — a value that operations overwrite, some of them without an acknowledgement, is the last one written;
* `run_proj`, `run_filter` — a system seen through a projection, and without the operations the projection does not see;
* `run_expand` — a system each of whose steps is a run of another;
* `answers_eq` — related services answer alike;
* `run_inOrder` — what operations of given kinds reach when they occur in order.

`Along` says that every operation of a run is allowed in the state it is applied to, `inOrder` that operations of given
kinds occur in a run in their order.
-/

namespace Krypton.Lib

variable {σ ω : Type}

/-- The state after a list of operations. -/
def run (step : σ → ω → σ) (s : σ) (ops : List ω) : σ := ops.foldl step s

/-- Each operation of the run meets `C` in the state it is applied to. -/
def Along (step : σ → ω → σ) (C : σ → ω → Prop) : σ → List ω → Prop
  | _, [] => True
  | s, op :: ops => C s op ∧ Along step C (step s op) ops

variable {step : σ → ω → σ} {C : σ → ω → Prop} {s : σ}

instance instDecidableAlong [∀ s op, Decidable (C s op)] : ∀ (s : σ) (ops : List ω), Decidable (Along step C s ops)
  | _, [] => isTrue trivial
  | s, op :: ops => @instDecidableAnd _ _ _ (instDecidableAlong (step s op) ops)

@[simp] theorem run_nil : run step s [] = s := rfl

@[simp] theorem run_cons (op : ω) (ops : List ω) : run step s (op :: ops) = run step (step s op) ops := rfl

theorem run_append (ops₁ ops₂ : List ω) : run step s (ops₁ ++ ops₂) = run step (run step s ops₁) ops₂ :=
  List.foldl_append

theorem along_append {ops₁ ops₂ : List ω} :
    Along step C s (ops₁ ++ ops₂) ↔ Along step C s ops₁ ∧ Along step C (run step s ops₁) ops₂ := by
  induction ops₁ generalizing s with
  | nil => simp [Along]
  | cons op ops ih => simp [Along, ih, and_assoc]

theorem along_of_forall {D : ω → Prop} {ops : List ω} (h : ∀ op ∈ ops, D op) : Along step (fun _ op => D op) s ops := by
  induction ops generalizing s with
  | nil => trivial
  | cons op ops ih => exact ⟨h op List.mem_cons_self, ih fun o ho => h o (List.mem_cons_of_mem op ho)⟩

theorem along_always (h : ∀ s op, C s op) (s : σ) (ops : List ω) : Along step C s ops := by
  induction ops generalizing s with
  | nil => trivial
  | cons op ops ih => exact ⟨h s op, ih (step s op)⟩

/-- **The invariant rule.** What every allowed step keeps holds after every run of allowed steps. -/
theorem run_inv {I : σ → Prop} (hstep : ∀ s op, I s → C s op → I (step s op)) {s : σ} {ops : List ω} (hI : I s)
    (h : Along step C s ops) : I (run step s ops) := by
  induction ops generalizing s with
  | nil => exact hI
  | cons op ops ih => exact ih (hstep s op hI h.1) h.2

/-- The invariant rule for runs without a condition on their steps. -/
theorem run_inv_always {I : σ → Prop} (hstep : ∀ s op, I s → I (step s op)) {s : σ} (hI : I s) (ops : List ω) :
    I (run step s ops) := by
  induction ops generalizing s with
  | nil => exact hI
  | cons op ops ih => exact ih (hstep s op hI)

/-- **Spoiled for good.** In the states of an invariant a step keeps `I` exactly if it is allowed, and `I` never comes
back: then `I` holds after a run exactly if all its steps were allowed. -/
theorem along_iff_run {I J : σ → Prop} (hinv : ∀ s op, J s → J (step s op))
    (hstep : ∀ s op, J s → I s → (C s op ↔ I (step s op))) (hlost : ∀ s op, I (step s op) → I s) {s : σ} (hJ : J s)
    (hI : I s) (ops : List ω) : Along step C s ops ↔ I (run step s ops) := by
  have hback : ∀ (ops : List ω) {s : σ}, I (run step s ops) → I s := by
    intro ops
    induction ops with
    | nil => exact fun h => h
    | cons op ops ih => exact fun h => hlost _ op (ih h)
  induction ops generalizing s with
  | nil => exact ⟨fun _ => hI, fun _ => trivial⟩
  | cons op ops ih =>
    constructor
    · exact fun h => (ih (hinv s op hJ) ((hstep s op hJ hI).1 h.1)).1 h.2
    · intro h
      have hnext : I (step s op) := hback ops h
      exact ⟨(hstep s op hJ hI).2 hnext, (ih (hinv s op hJ) hnext).2 h⟩

/-- **Once established, kept.** One step of the run establishes `Q` from a state of the invariant, and every later
allowed step keeps it. -/
theorem run_after {I Q : σ → Prop} (hstep : ∀ s op, I s → C s op → I (step s op))
    (hkeep : ∀ s op, I s → C s op → Q s → Q (step s op)) {ops₁ ops₂ : List ω} {op : ω}
    (hest : I (run step s ops₁) → C (run step s ops₁) op → Q (step (run step s ops₁) op)) (hI : I s)
    (h : Along step C s (ops₁ ++ op :: ops₂)) : Q (run step s (ops₁ ++ op :: ops₂)) := by
  rw [along_append] at h
  have hI₁ := run_inv hstep hI h.1
  rw [run_append, run_cons]
  exact (run_inv (I := fun s => I s ∧ Q s) (fun s op hs hc => ⟨hstep s op hs.1 hc, hkeep s op hs.1 hc hs.2⟩)
    ⟨hstep _ _ hI₁ h.2.1, hest hI₁ h.2.1⟩ h.2.2).2

/-- A step of the run meets `A`, and no step after it meets `B`. -/
def Since (step : σ → ω → σ) (A B : σ → ω → Prop) (s : σ) (ops : List ω) : Prop :=
  ∃ ops₁ op ops₂, ops = ops₁ ++ op :: ops₂ ∧ A (run step s ops₁) op ∧
    Along step (fun s op => ¬ B s op) (run step s (ops₁ ++ [op])) ops₂

/-- **Invariant up to a spoiling step.** In the states of an invariant `J` is kept by every allowed step that does not
spoil it and restored by every step of `B`: so after a run of allowed steps it holds, unless a step spoiled it since the
last step of `B`. -/
theorem run_inv_or_since {A B : σ → ω → Prop} {I J : σ → Prop} (hinv : ∀ s op, I s → C s op → I (step s op))
    (hkeep : ∀ s op, I s → C s op → J s → ¬ A s op → J (step s op))
    (hrestore : ∀ s op, B s op → ¬ A s op → J (step s op)) (hI : I s) (hJ : J s) {ops : List ω}
    (h : Along step C s ops) : J (run step s ops) ∨ Since step A B s ops := by
  induction ops using List.reverseRecOn with
  | nil => exact .inl hJ
  | append_singleton ops op ih =>
    obtain ⟨hops, hop, -⟩ := along_append.1 h
    by_cases hA : A (run step s ops) op
    · exact .inr ⟨ops, op, [], rfl, hA, trivial⟩
    · rw [run_append, run_cons, run_nil]
      rcases ih hops with hJ' | ⟨ops₁, op₁, ops₂, rfl, hA₁, hB₂⟩
      · exact .inl (hkeep _ _ (run_inv hinv hI hops) hop hJ' hA)
      · by_cases hB : B (run step s (ops₁ ++ op₁ :: ops₂)) op
        · exact .inl (hrestore _ _ hB hA)
        · refine .inr ⟨ops₁, op₁, ops₂ ++ [op], by simp, hA₁, along_append.2 ⟨hB₂, ?_, trivial⟩⟩
          rwa [← run_append, List.append_assoc, List.singleton_append]

/-- **Where a value comes from.** In the states of an invariant a value is in circulation after an allowed step if the
step made it, or if it was before and the step does not meet `B`. Then a value in circulation after a run was there from
the start, or made by a step of the run, and no step since then meets `B`. -/
theorem run_traced {β : Type} (Has : σ → β → Prop) (A : β → σ → ω → Prop) (B : σ → ω → Prop) {I : σ → Prop}
    (hinv : ∀ s op, I s → C s op → I (step s op))
    (hstep : ∀ s op, I s → C s op → ∀ v, Has (step s op) v → A v s op ∨ (Has s v ∧ ¬ B s op)) (hI : I s) {ops : List ω}
    (hC : Along step C s ops) {v : β} (hv : Has (run step s ops) v) :
    (Has s v ∧ Along step (fun s op => ¬ B s op) s ops) ∨ Since step (A v) B s ops := by
  induction ops using List.reverseRecOn with
  | nil => exact .inl ⟨hv, trivial⟩
  | append_singleton ops op ih =>
    obtain ⟨hops, hop, -⟩ := along_append.1 hC
    rw [run_append, run_cons, run_nil] at hv
    rcases hstep _ op (run_inv hinv hI hops) hop v hv with hmade | ⟨hbefore, hnot⟩
    · exact .inr ⟨ops, op, [], rfl, hmade, trivial⟩
    · rcases ih hops hbefore with ⟨hstart, halong⟩ | ⟨ops₁, op₁, ops₂, rfl, hmade, halong⟩
      · exact .inl ⟨hstart, along_append.2 ⟨halong, hnot, trivial⟩⟩
      · refine .inr ⟨ops₁, op₁, ops₂ ++ [op], by simp, hmade, along_append.2 ⟨halong, ?_, trivial⟩⟩
        rwa [← run_append, List.append_assoc, List.singleton_append]

/-- **The last write.** In the states of an invariant an allowed operation that writes a value does so, or is not
acknowledged and leaves the old one. Then the value after a run is the first one and no write was acknowledged, or it
was written by an operation after which no write was acknowledged. -/
theorem run_written {β : Type} (val : σ → β) {writes : ω → Option β} {Acked : σ → ω → Prop} {I : σ → Prop}
    {D : ω → Prop} (hinv : ∀ s op, I s → D op → I (step s op))
    (hstep : ∀ s op, I s → D op →
      val (step s op) = (writes op).getD (val s) ∨ (¬ Acked s op ∧ val (step s op) = val s))
    (hI : I s) {ops : List ω} (hD : ∀ op ∈ ops, D op) :
    (val (run step s ops) = val s ∧ Along step (fun s op => ¬ ((writes op).isSome ∧ Acked s op)) s ops) ∨
      Since step (fun _ op => writes op = some (val (run step s ops))) (fun s op => (writes op).isSome ∧ Acked s op)
        s ops := by
  have htraced := run_traced (fun s v => val s = v) (fun v _ op => writes op = some v)
    (fun s op => (writes op).isSome ∧ Acked s op) hinv ?_ hI (along_of_forall hD) rfl
  · exact htraced.imp_left fun h => ⟨h.1.symm, h.2⟩
  · rintro s op hI hD v rfl
    rcases hstep s op hI hD with hnew | ⟨hack, hold⟩
    · cases hw : writes op with
      | none =>
        rw [hw] at hnew
        exact .inr ⟨hnew.symm, fun h => by cases h.1⟩
      | some w =>
        rw [hw, Option.getD_some] at hnew
        exact .inl (by rw [hnew])
    · exact .inr ⟨hold.symm, fun h => hack h.2⟩

/-! ## Projections -/

/-- **Steps for steps.** If in the states of an invariant each step is a run of another system with the same labels,
then each run is. -/
theorem run_expand {β : Type} {step' : σ → ω → σ} {I : σ → Prop} (label : ω → Option β)
    (hI : ∀ s op, I s → I (step s op))
    (h : ∀ s op, I s → ∃ ops', run step' s ops' = step s op ∧ ops'.filterMap label = [op].filterMap label) {s : σ}
    (hs : I s) (ops : List ω) : ∃ ops',
      run step' s ops' = run step s ops ∧ ops'.filterMap label = ops.filterMap label := by
  induction ops generalizing s with
  | nil => exact ⟨[], rfl, rfl⟩
  | cons op ops ih =>
    obtain ⟨ops₁, hrun₁, hlabel₁⟩ := h s op hs
    obtain ⟨ops₂, hrun₂, hlabel₂⟩ := ih (hI s op hs)
    refine ⟨ops₁ ++ ops₂, ?_, ?_⟩
    · rw [run_append, hrun₁, hrun₂, run_cons]
    · rw [List.filterMap_append, hlabel₁, hlabel₂, ← List.filterMap_append, List.singleton_append]

/-- **A projection of a system.** If every step acts on the projection as `act` does, so does every run. -/
theorem run_proj {τ : Type} (proj : σ → τ) {act : τ → ω → τ} (h : ∀ s op, proj (step s op) = act (proj s) op) (s : σ)
    (ops : List ω) : proj (run step s ops) = run act (proj s) ops := by
  induction ops generalizing s with
  | nil => rfl
  | cons op ops ih => rw [run_cons, run_cons, ih, h]

/-- Operations without effect can be left out of a run. -/
theorem run_filter {p : ω → Bool} (h : ∀ s op, p op = false → step s op = s) (s : σ) (ops : List ω) :
    run step s (ops.filter p) = run step s ops := by
  induction ops generalizing s with
  | nil => rfl
  | cons op ops ih =>
    rw [run_cons]
    by_cases hp : p op = true
    · rw [List.filter_cons_of_pos hp, run_cons, ih]
    · rw [List.filter_cons_of_neg hp, ih, h s op (by simpa using hp)]

/-! ## Answers -/

section
variable {ρ τ : Type} {exec : σ → ω → ρ × σ} {spec : τ → ω → ρ × τ}

/-- What a service answers to a list of requests. -/
def answers (exec : σ → ω → ρ × σ) : σ → List ω → List ρ
  | _, [] => []
  | s, op :: ops => (exec s op).1 :: answers exec (exec s op).2 ops

/-- **Simulation.** Related services that answer every allowed request alike and stay related answer alike in every run
in which the requests are allowed. -/
theorem answers_eq {R : σ → τ → Prop} {C : τ → ω → Prop}
    (hstep : ∀ s t op, R s t → C t op → (exec s op).1 = (spec t op).1 ∧ R (exec s op).2 (spec t op).2) {s : σ} {t : τ}
    {ops : List ω} (hR : R s t) (hC : Along (fun t op => (spec t op).2) C t ops) :
    answers exec s ops = answers spec t ops := by
  induction ops generalizing s t with
  | nil => rfl
  | cons op ops ih =>
    obtain ⟨hans, hnext⟩ := hstep s t op hR hC.1
    rw [answers, answers, hans, ih hnext hC.2]

end

/-! ## Operations in order -/

/-- Operations of these kinds occur in the list, in this order. -/
def inOrder : List (ω → Bool) → List ω → Bool
  | [], _ => true
  | _ :: _, [] => false
  | p :: ps, op :: ops => (p op && inOrder ps ops) || inOrder (p :: ps) ops

@[simp] theorem inOrder_nil {ops : List ω} : inOrder [] ops = true := by
  cases ops <;> rfl

/-- What the last operation adds to the kinds that occur. -/
theorem inOrder_concat (p : ω → Bool) (op : ω) : ∀ (ps : List (ω → Bool)) (ops : List ω),
    inOrder (ps ++ [p]) (ops ++ [op]) = (inOrder (ps ++ [p]) ops || (p op && inOrder ps ops))
  | [], [] => by simp [inOrder]
  | [], o :: ops => by
    have ih := inOrder_concat p op [] ops
    simp only [List.nil_append, List.cons_append, inOrder, inOrder_nil, Bool.and_true] at ih ⊢
    rw [ih, Bool.or_assoc]
  | q :: ps, [] => by
    cases ps <;> simp [inOrder]
  | q :: ps, o :: ops => by
    have ih₁ := inOrder_concat p op ps ops
    have ih₂ := inOrder_concat p op (q :: ps) ops
    simp only [List.cons_append, inOrder] at ih₁ ih₂ ⊢
    rw [ih₁, ih₂]
    cases q o <;> cases p op <;> simp [Bool.or_assoc, Bool.or_left_comm]

/-- An allowed operation of the `i`-th kind leads from the `i`-th rung to the next one. -/
def Climbs (step : σ → ω → σ) (C : ω → Prop) (P : Nat → σ → Prop) : Nat → List (ω → Bool) → Prop
  | _, [] => True
  | n, p :: ps => (∀ s op, C op → P n s → p op = true → P (n + 1) (step s op)) ∧ Climbs step C P (n + 1) ps

/-- **The ladder rule.** Every allowed operation keeps each rung, and operations of the given kinds climb: once they
have occurred in order, the top is reached. -/
theorem run_inOrder {P : Nat → σ → Prop} {C : ω → Prop} (hkeep : ∀ n s op, C op → P n s → P n (step s op))
    {ops : List ω} {ps : List (ω → Bool)} {n : Nat} {s : σ} (hup : Climbs step C P n ps) (hC : ∀ op ∈ ops, C op)
    (hP : P n s) (h : inOrder ps ops = true) : P (n + ps.length) (run step s ops) := by
  induction ops generalizing ps n s with
  | nil =>
    cases ps with
    | nil => exact hP
    | cons p ps => cases h
  | cons op ops ih =>
    have hop : C op := hC op List.mem_cons_self
    have hops : ∀ o ∈ ops, C o := fun o ho => hC o (List.mem_cons_of_mem op ho)
    cases ps with
    | nil => exact ih hup hops (hkeep n s op hop hP) inOrder_nil
    | cons p ps =>
      simp only [inOrder, Bool.or_eq_true, Bool.and_eq_true] at h
      rcases h with h | h
      · have hnext := ih hup.2 hops (hup.1 s op hop hP h.1) h.2
        rw [Nat.add_right_comm] at hnext
        exact hnext
      · exact ih hup hops (hkeep n s op hop hP) h

end Krypton.Lib
