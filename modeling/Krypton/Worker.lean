import Krypton.Lib.Run

/-!
# Periodic tasks

The scheduler that runs a task at a fixed interval (`internal/worker`); the root's sweep over the registrations and the
heartbeats of an agent run on it. `Start` and `Stop` are called from any goroutine, and each call of `Start` that is let
in is a loop of its own: it waits for the next tick or for the end of its context, and Go chooses freely when both are
there, so that a loop may begin tasks after its context has ended. Events of all loops and callers interleave freely.

* `StepOf`, `Inv` — what an event can do; a loop that no `Stop` has canceled is the one whose cancel function is held;
* `one_live_loop` — at any time at most one loop has a live context, and after a `Stop` none has, until the next
  `Start`;
* `silent_until_stop` — once the parent context of the current loop has ended, no `Start` has an effect before a `Stop`.
-/

namespace Krypton

open Lib

namespace Worker

/-- Where a loop is: at its `select`, in the task, or returned. -/
inductive LoopPc where
  | waiting | running | ended
  deriving DecidableEq, Repr

/-- A call of `Start` that was let in: its parent context and whether its own context was canceled. -/
structure Loop where
  parent : Nat
  canceled : Bool
  pc : LoopPc
  deriving DecidableEq, Repr

structure Scheduler where
  /-- The loop whose context `cFn` cancels; `none` for nil. -/
  cFn : Option Nat
  loops : List Loop
  /-- The parent contexts that have ended. -/
  parentsDone : List Nat
  deriving DecidableEq, Repr

/-- A scheduler that nobody has started. -/
def Scheduler.idle : Scheduler := ⟨none, [], []⟩

/-- `New`, for a task that may be nil. -/
def new (taskNil : Bool) (interval : Int) : Except String Scheduler :=
  if taskNil then .error "task function cannot be nil"
  else if interval ≤ 0 then .error "interval must be greater than zero"
  else .ok .idle

inductive Event where
  | start (parent : Nat)
  | stop
  | endParent (parent : Nat)
  /-- A loop takes a tick and begins its task. -/
  | tick (i : Nat)
  /-- The task of a loop returns; its error is only logged. -/
  | finish (i : Nat)
  /-- A loop sees the end of its context. -/
  | exit (i : Nat)
  deriving DecidableEq, Repr

namespace Scheduler

def ctxDone (s : Scheduler) (l : Loop) : Bool := l.canceled || s.parentsDone.contains l.parent

/-- The context that the `i`-th loop gives to its task has not ended. -/
def live (s : Scheduler) (i : Nat) : Bool := s.loops[i]?.any fun l => !s.ctxDone l

/-- The loop with another place in its code. -/
def goto (s : Scheduler) (i : Nat) (pc : LoopPc) : Scheduler := { s with loops := s.loops.modify i ({ · with pc }) }

def step (s : Scheduler) : Event → Scheduler
  | .start parent =>
    match s.cFn with
    | some _ => s
    | none => { s with cFn := some s.loops.length, loops := s.loops ++ [⟨parent, false, .waiting⟩] }
  | .stop =>
    match s.cFn with
    | none => s
    | some i => { s with cFn := none, loops := s.loops.modify i ({ · with canceled := true }) }
  | .endParent parent => { s with parentsDone := parent :: s.parentsDone }
  | .tick i => if s.loops[i]?.any fun l => l.pc = .waiting then s.goto i .running else s
  | .finish i => if s.loops[i]?.any fun l => l.pc = .running then s.goto i .waiting else s
  | .exit i => if s.loops[i]?.any fun l => l.pc = .waiting && s.ctxDone l then s.goto i .ended else s

/-- A `Start` that is let in. -/
def started (s : Scheduler) (parent : Nat) : Scheduler :=
  { s with cFn := some s.loops.length, loops := s.loops ++ [⟨parent, false, .waiting⟩] }

/-- A `Stop` that finds a loop. -/
def stopped (s : Scheduler) (i : Nat) : Scheduler :=
  { s with cFn := none, loops := s.loops.modify i ({ · with canceled := true }) }

/-- What an event can do. -/
inductive StepOf (s : Scheduler) : Event → Scheduler → Prop where
  | started {parent : Nat} (h : s.cFn = none) : StepOf s (.start parent) (s.started parent)
  | stopped {i : Nat} (h : s.cFn = some i) : StepOf s .stop (s.stopped i)
  | parentEnded {parent : Nat} : StepOf s (.endParent parent) { s with parentsDone := parent :: s.parentsDone }
  | moved {ev : Event} {i : Nat} {pc : LoopPc} : StepOf s ev (s.goto i pc)
  | nothing {ev : Event} (h : ∀ parent, ev = .start parent → s.cFn ≠ none) : StepOf s ev s

variable {s s' : Scheduler} {ev : Event}

theorem step_of (s : Scheduler) (ev : Event) : StepOf s ev (s.step ev) := by
  cases ev with
  | start parent =>
    cases h : s.cFn with
    | none => simp only [step, h]; exact .started h
    | some i => simp only [step, h]; exact .nothing fun _ _ hn => by rw [h] at hn; cases hn
  | stop =>
    cases h : s.cFn with
    | none => simp only [step, h]; exact .nothing fun _ hev => by cases hev
    | some i => simp only [step, h]; exact .stopped h
  | endParent parent => exact .parentEnded
  | tick i =>
    unfold step
    dsimp only
    split
    · exact .moved
    · exact .nothing fun _ hev => by cases hev
  | finish i =>
    unfold step
    dsimp only
    split
    · exact .moved
    · exact .nothing fun _ hev => by cases hev
  | exit i =>
    unfold step
    dsimp only
    split
    · exact .moved
    · exact .nothing fun _ hev => by cases hev

/-! ## The loop in charge -/

/-- A loop that no `Stop` has canceled is the one `cFn` is for. -/
def Inv (s : Scheduler) : Prop := ∀ i l, s.loops[i]? = some l → l.canceled = false → s.cFn = some i

/-- Moving a loop on in its code does not touch its context. -/
theorem getElem?_goto {i j : Nat} {pc : LoopPc} {l : Loop} (h : (s.goto i pc).loops[j]? = some l) :
    ∃ l₀, s.loops[j]? = some l₀ ∧ l₀.parent = l.parent ∧ l₀.canceled = l.canceled := by
  unfold goto at h
  dsimp only at h
  rw [List.getElem?_modify] at h
  obtain ⟨l₀, hl₀, rfl⟩ := Option.map_eq_some_iff.1 h
  refine ⟨l₀, hl₀, ?_⟩
  split <;> exact ⟨rfl, rfl⟩

theorem getElem?_started {i parent : Nat} {l : Loop} (h : (s.started parent).loops[i]? = some l) :
    s.loops[i]? = some l ∨ i = s.loops.length := by
  unfold started at h
  dsimp only at h
  rw [List.getElem?_append] at h
  split at h
  · exact .inl h
  · have hlen := (List.getElem?_eq_some_iff.1 h).1
    rw [List.length_singleton] at hlen
    exact .inr (by omega)

theorem getElem?_stopped {i j : Nat} {l : Loop} (h : (s.stopped i).loops[j]? = some l) :
    l.canceled = true ∨ (s.loops[j]? = some l ∧ i ≠ j) := by
  unfold stopped at h
  dsimp only at h
  rw [List.getElem?_modify] at h
  obtain ⟨l₀, hl₀, rfl⟩ := Option.map_eq_some_iff.1 h
  by_cases hij : i = j
  · exact .inl (by rw [if_pos hij])
  · rw [if_neg hij]
    exact .inr ⟨hl₀, hij⟩

theorem inv_step (h : Inv s) (hstep : StepOf s ev s') : Inv s' := by
  intro i l hi hl
  cases hstep with
  | started hnone =>
    rcases getElem?_started hi with hi | rfl
    · -- an older loop has been canceled, since nothing is in charge
      have := h i l hi hl
      rw [hnone] at this
      cases this
    · rfl
  | @stopped j hj =>
    rcases getElem?_stopped hi with hc | ⟨hi, hji⟩
    · rw [hc] at hl
      cases hl
    · have := h i l hi hl
      rw [hj] at this
      exact absurd (Option.some.inj this) hji
  | parentEnded => exact h i l hi hl
  | moved =>
    obtain ⟨l₀, hl₀, -, hc⟩ := getElem?_goto hi
    exact h i l₀ hl₀ (hc.trans hl)
  | nothing _ => exact h i l hi hl

theorem inv_run (evs : List Event) : Inv (run step idle evs) := by
  refine run_inv_always (fun s ev h => inv_step h (step_of s ev)) ?_ evs
  intro i l h
  cases h

/-! ## Silence -/

/-- No loop has a live context, so that no task begins with one. -/
def Silent (s : Scheduler) : Prop := ∀ (i : Nat) (l : Loop), s.loops[i]? = some l → s.ctxDone l = true

theorem ctxDone_of_canceled {l : Loop} (h : l.canceled = true) : s.ctxDone l = true := by
  rw [ctxDone, h, Bool.true_or]

/-- Only a `Start` that is let in ends the silence. -/
theorem silent_step (h : s.Silent) (hstep : StepOf s ev s') (hev : ∀ parent, ev = .start parent → s.cFn ≠ none) :
    s'.Silent := by
  intro i l hi
  cases hstep with
  | @started parent hnone => exact absurd hnone (hev parent rfl)
  | stopped hj =>
    rcases getElem?_stopped hi with hc | ⟨hi, -⟩
    · exact ctxDone_of_canceled hc
    · exact h i l hi
  | parentEnded =>
    have hdone := h i l hi
    simp only [ctxDone, Bool.or_eq_true, List.contains_eq_mem, List.mem_cons, decide_eq_true_eq] at hdone ⊢
    exact hdone.imp_right .inr
  | moved =>
    obtain ⟨l₀, hl₀, hp, hc⟩ := getElem?_goto hi
    have hdone := h i l₀ hl₀
    unfold ctxDone at hdone ⊢
    rw [← hp, ← hc]
    exact hdone
  | nothing _ => exact h i l hi

/-- What is not canceled is in charge; without a loop in charge everything is silent. -/
theorem Inv.silent (h : Inv s) (hc : s.cFn = none) : s.Silent := by
  intro i l hi
  cases hl : l.canceled with
  | true => exact ctxDone_of_canceled hl
  | false =>
    have := h i l hi hl
    rw [hc] at this
    cases this

theorem cFn_stop : (s.step .stop).cFn = none := by
  cases hc : s.cFn with
  | none => simp only [step, hc]
  | some j => simp only [step, hc]

theorem silent_stop (h : Inv s) : (s.step .stop).Silent := (inv_step h (step_of s .stop)).silent cFn_stop

end Scheduler

/-! ## Runs -/

/-- A live loop is the one in charge. -/
theorem Scheduler.Inv.live {s : Scheduler} (h : s.Inv) {i : Nat} (hi : s.live i = true) : s.cFn = some i := by
  unfold Scheduler.live at hi
  cases hl : s.loops[i]? with
  | none =>
    rw [hl] at hi
    cases hi
  | some l =>
    rw [hl, Option.any_some, Bool.not_eq_true', ctxDone, Bool.or_eq_false_iff] at hi
    exact h i l hl hi.1

theorem Scheduler.Silent.live {s : Scheduler} (h : s.Silent) (i : Nat) : s.live i = false := by
  unfold Scheduler.live
  cases hl : s.loops[i]? with
  | none => rfl
  | some l => rw [Option.any_some, h i l hl, Bool.not_true]

/-- **One live loop.** After any interleaving of events at most one loop has a live context; and none has if no `Start`
came after the last `Stop`. -/
theorem one_live_loop (evs : List Event) :
    (∀ i j, (run Scheduler.step .idle evs).live i = true → (run Scheduler.step .idle evs).live j = true → i = j) ∧
      ∀ earlier later, evs = earlier ++ .stop :: later → (∀ parent, .start parent ∉ later) →
        ∀ i, (run Scheduler.step .idle evs).live i = false := by
  constructor
  · intro i j hi hj
    have hinv := Scheduler.inv_run evs
    exact Option.some.inj ((hinv.live hi).symm.trans (hinv.live hj))
  · intro earlier later hevs hlater
    rw [hevs, run_append, run_cons]
    refine Scheduler.Silent.live (run_inv (C := fun _ ev => ∀ parent, ev ≠ .start parent)
      (fun s ev hs hev => Scheduler.silent_step hs (Scheduler.step_of s ev) fun parent hp => absurd hp (hev parent))
      (Scheduler.silent_stop (Scheduler.inv_run earlier)) ?_)
    exact along_of_forall fun ev hev parent hp => hlater parent (hp ▸ hev)

/-- A task of a stopped loop may still run beside one of its successor. -/
example : ((run Scheduler.step .idle [.start 0, .tick 0, .stop, .start 0, .tick 1]).loops.map Loop.pc) =
    [.running, .running] := by
  decide

/-- **Silent until the next `Stop`.** If the parent context of the loop in charge has ended, then no loop has a live
context before the next `Stop`, however often `Start` is called. -/
theorem silent_until_stop (earlier later : List Event) (i : Nat) (l : Loop)
    (hc : (run Scheduler.step .idle earlier).cFn = some i) (hl : (run Scheduler.step .idle earlier).loops[i]? = some l)
    (hp : l.parent ∈ (run Scheduler.step .idle earlier).parentsDone) (hstop : .stop ∉ later) :
    ∀ j, (run Scheduler.step .idle (earlier ++ later)).live j = false := by
  rw [run_append]
  have hsilent : (run Scheduler.step .idle earlier).Silent := by
    intro j l' hj
    cases hcl : l'.canceled with
    | true => exact Scheduler.ctxDone_of_canceled hcl
    | false =>
      have hij := Scheduler.inv_run earlier j l' hj hcl
      rw [hc] at hij
      rw [← Option.some.inj hij, hl] at hj
      cases hj
      simp [Scheduler.ctxDone, hp]
  refine Scheduler.Silent.live (run_inv (I := fun s : Scheduler => s.Silent ∧ s.cFn ≠ none)
    (C := fun _ ev => ev ≠ Event.stop) (fun s ev hs hev => ?_)
    ⟨hsilent, by rw [hc]; nofun⟩ (along_of_forall fun ev hev h => hstop (h ▸ hev))).1
  have hstep := Scheduler.step_of s ev
  refine ⟨Scheduler.silent_step hs.1 hstep fun _ _ => hs.2, ?_⟩
  generalize s.step ev = s' at hstep
  cases hstep with
  | started h => exact absurd h hs.2
  | stopped h => exact absurd rfl hev
  | parentEnded => exact hs.2
  | moved => exact hs.2
  | nothing _ => exact hs.2

theorem demo_silent_until_stop :
    (run Scheduler.step .idle [.start 0]).live 0 = true ∧
      ∀ j, (run Scheduler.step .idle ([.start 0, .endParent 0] ++ [.exit 0, .start 1, .tick 1])).live j = false :=
  ⟨by decide, silent_until_stop [.start 0, .endParent 0] [.exit 0, .start 1, .tick 1] 0 ⟨0, false, .waiting⟩ rfl rfl
    (by decide) (by decide)⟩

end Worker

end Krypton
