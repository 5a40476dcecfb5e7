import Mathlib.Data.List.Basic

/-!
# Groups of jobs

A scheduler that runs groups of jobs: the jobs of a group run in list order, each job is confirmed, resolved into tasks
and done when its tasks are; once a job of a group has failed or been canceled the rest of the group is not run. `J` is
what a job carries, `T` what a task carries. Events that the scheduler cannot accept change nothing.

* `somewhere_applyAt` — a job with property `L` in a running group keeps it, unless its group is dropped or the event is
  about the job itself;
* `applyAt_map` — events do not look at what jobs and tasks carry;
* `owes_applyAt` — owed work in a running group stays owed, until it is dropped or a task of it ends.
-/

namespace Krypton.Lib

inductive TaskStatus where
  | waiting | completed | failed
  deriving DecidableEq, Repr

inductive Phase where
  | created | confirmed | running | done | failed | canceled
  deriving DecidableEq, Repr

structure JobState (J T : Type) where
  data : J
  phase : Phase
  tasks : List (T × TaskStatus)
  deriving DecidableEq, Repr

/-- What can happen to a job. -/
inductive JobEvent (T : Type) where
  | confirmed
  | resolved (tasks : List T)
  /-- The task at a position ended, well or not. -/
  | recorded (task : Nat) (completed : Bool)
  | canceled
  deriving DecidableEq, Repr

variable {J T : Type}

namespace JobState

def new (data : J) : JobState J T := ⟨data, .created, []⟩

/-- The job ended without being done. -/
def broken (j : JobState J T) : Bool := j.phase == .failed || j.phase == .canceled

def ended (j : JobState J T) : Bool := j.phase == .done || j.broken

/-- A running job ends when no task of it waits. -/
def settle (j : JobState J T) : JobState J T :=
  if j.tasks.any fun t => t.2 == .waiting then j
  else if j.tasks.any fun t => t.2 == .failed then { j with phase := .failed }
  else { j with phase := .done }

def recordTask (completed : Bool) (t : T × TaskStatus) : T × TaskStatus :=
  if t.2 = .waiting then (t.1, if completed then .completed else .failed) else t

def apply (ev : JobEvent T) (j : JobState J T) : JobState J T :=
  match ev, j.phase with
  | .confirmed, .created => { j with phase := .confirmed }
  | .resolved tasks, .confirmed => { j with phase := .running, tasks := tasks.map fun t => (t, .waiting) }
  | .recorded n completed, .running => settle { j with tasks := j.tasks.modify n (recordTask completed) }
  | .canceled, _ => if j.ended then j else { j with phase := .canceled }
  | _, _ => j

@[simp] theorem apply_data (ev : JobEvent T) (j : JobState J T) : (j.apply ev).data = j.data := by
  unfold apply settle
  split <;> (repeat' split) <;> rfl

/-- A job that was only created is moved on by its confirmation alone. -/
theorem apply_created {ev : JobEvent T} {j : JobState J T} (hp : j.phase = .created) (hev : ev ≠ .confirmed) :
    j.apply ev = j ∨ (j.apply ev).phase = .canceled := by
  cases ev with
  | confirmed => exact absurd rfl hev
  | resolved tasks => simp [apply, hp]
  | recorded n completed => simp [apply, hp]
  | canceled => simp [apply, ended, broken, hp]

end JobState

/-- The jobs of a group, in the order they run. -/
abbrev Group (J T : Type) : Type := List (JobState J T)

namespace Group

def aborted (g : Group J T) : Bool := g.any JobState.broken

/-- Jobs are run one after the other; any job may be canceled. -/
def accepts (g : Group J T) (i : Nat) (ev : JobEvent T) : Bool :=
  !g.aborted && (match ev with | .canceled => true | _ => (g.take i).all fun j => j.phase == .done)

def apply (i : Nat) (ev : JobEvent T) (g : Group J T) : Group J T :=
  if g.accepts i ev then g.modify i (JobState.apply ev) else g

/-- An event changes at most the job it is for. -/
theorem getElem?_apply {g : Group J T} {m : Nat} {j : JobState J T} (i : Nat) (ev : JobEvent T) (hm : g[m]? = some j) :
    (g.apply i ev)[m]? = some (if g.accepts i ev = true ∧ m = i then j.apply ev else j) := by
  unfold apply
  by_cases hacc : g.accepts i ev = true
  · rw [if_pos hacc, List.getElem?_modify, hm]
    by_cases hmi : m = i
    · simp [hacc, hmi]
    · simp [hmi, Ne.symm hmi]
  · rw [if_neg hacc, if_neg fun h => hacc h.1, hm]

end Group

/-- An event for job `i` of group `g`. -/
def applyAt (gs : List (Group J T)) (g i : Nat) (ev : JobEvent T) : List (Group J T) := gs.modify g (Group.apply i ev)

theorem applyAt_last (gs : List (Group J T)) (G : Group J T) (i : Nat) (ev : JobEvent T) :
    applyAt (gs ++ [G]) gs.length i ev = gs ++ [G.apply i ev] := by
  induction gs with
  | nil => rfl
  | cons G' gs ih => exact congrArg (G' :: ·) ih

/-! ## Other data -/

section
variable {J' T' : Type} (f : J → J') (h : T → T')

/-- The job with other data. -/
def JobState.map (j : JobState J T) : JobState J' T' := ⟨f j.data, j.phase, j.tasks.map fun t => (h t.1, t.2)⟩

def JobEvent.map : JobEvent T → JobEvent T'
  | .confirmed => .confirmed
  | .resolved tasks => .resolved (tasks.map h)
  | .recorded task completed => .recorded task completed
  | .canceled => .canceled

/-- The groups with other data. -/
def mapGroups (gs : List (Group J T)) : List (Group J' T') := gs.map (List.map (JobState.map f h))

variable {f h}

theorem map_modify_comm {α β : Type} {φ : α → β} {u : α → α} {v : β → β} (huv : ∀ a, φ (u a) = v (φ a))
    (l : List α) (n : Nat) : (l.modify n u).map φ = (l.map φ).modify n v := by
  apply List.ext_getElem?
  intro m
  rw [List.getElem?_map, List.getElem?_modify, List.getElem?_modify, List.getElem?_map]
  by_cases hm : n = m
  · simp only [hm, if_true]
    cases l[m]? <;> simp [huv]
  · simp only [hm, if_false]
    cases l[m]? <;> simp

theorem JobState.map_settle (j : JobState J T) : j.settle.map f h = (j.map f h).settle := by
  have hany : ∀ st : TaskStatus, ((j.map f h).tasks.any fun t => t.2 == st) = j.tasks.any fun t => t.2 == st := by
    intro st
    simp [JobState.map, List.any_map, Function.comp_def]
  unfold settle
  rw [hany, hany]
  split
  · rfl
  · split <;> rfl

theorem JobState.map_apply (ev : JobEvent T) (j : JobState J T) :
    (j.apply ev).map f h = (j.map f h).apply (ev.map h) := by
  obtain ⟨data, phase, tasks⟩ := j
  cases ev with
  | confirmed => cases phase <;> rfl
  | resolved new =>
    cases phase with
    | confirmed => simp [apply, JobState.map, JobEvent.map, Function.comp_def]
    | _ => rfl
  | recorded n completed =>
    cases phase with
    | running =>
      have hmodify : (tasks.modify n (recordTask completed)).map (fun t => (h t.1, t.2)) =
          (tasks.map fun t => (h t.1, t.2)).modify n (recordTask completed) := by
        refine map_modify_comm (fun t => ?_) _ _
        unfold recordTask
        dsimp only
        split <;> rfl
      simp only [apply, JobEvent.map, JobState.map_settle]
      simp only [JobState.map, hmodify]
    | _ => rfl
  | canceled => cases phase <;> rfl

theorem Group.accepts_map (G : Group J T) (i : Nat) (ev : JobEvent T) :
    Group.accepts (G.map (JobState.map f h)) i (ev.map h) = G.accepts i ev := by
  have haborted : Group.aborted (G.map (JobState.map f h)) = G.aborted := by
    rw [Group.aborted, List.any_map]
    rfl
  unfold Group.accepts
  rw [haborted, ← List.map_take, List.all_map]
  cases ev <;> rfl

/-- Events do not look at what jobs and tasks carry. -/
theorem applyAt_map (gs : List (Group J T)) (g i : Nat) (ev : JobEvent T) :
    mapGroups f h (applyAt gs g i ev) = applyAt (mapGroups f h gs) g i (ev.map h) := by
  refine map_modify_comm (fun G => ?_) gs g
  unfold Group.apply
  rw [Group.accepts_map]
  split
  · exact map_modify_comm (fun j => JobState.map_apply ev j) G i
  · rfl

end

/-! ## Properties of all jobs -/

/-- Every job carries data with `P`, every task data with `Q`. -/
def AllJobs (P : J → Prop) (Q : T → Prop) (gs : List (Group J T)) : Prop :=
  ∀ G ∈ gs, ∀ j ∈ G, P j.data ∧ ∀ t ∈ j.tasks, Q t.1

theorem AllJobs.mono {P P' : J → Prop} {Q Q' : T → Prop} {gs : List (Group J T)} (h : AllJobs P Q gs)
    (hP : ∀ data, P data → P' data) (hQ : ∀ t, Q t → Q' t) : AllJobs P' Q' gs :=
  fun G hG j hj => ⟨hP _ (h G hG j hj).1, fun t ht => hQ _ ((h G hG j hj).2 t ht)⟩

/-- New tasks come from resolving a job alone. -/
theorem tasks_apply {Q : T → Prop} {j : JobState J T} {ev : JobEvent T} (h : ∀ t ∈ j.tasks, Q t.1)
    (hres : ∀ tasks, ev = .resolved tasks → ∀ t ∈ tasks, Q t) : ∀ t ∈ (j.apply ev).tasks, Q t.1 := by
  unfold JobState.apply
  split
  · exact h
  · rename_i tasks _
    intro t ht
    obtain ⟨t', ht', rfl⟩ := List.mem_map.1 ht
    exact hres tasks rfl t' ht'
  · rename_i n completed _
    have hmod : ∀ t ∈ j.tasks.modify n (JobState.recordTask completed), Q t.1 := by
      intro t ht
      obtain ⟨m, hm⟩ := List.mem_iff_getElem?.1 ht
      rw [List.getElem?_modify] at hm
      obtain ⟨t₀, ht₀, rfl⟩ := Option.map_eq_some_iff.1 hm
      have hQ := h t₀ (List.mem_of_getElem? ht₀)
      split
      · unfold JobState.recordTask
        split <;> exact hQ
      · exact hQ
    unfold JobState.settle
    split
    · exact hmod
    · split <;> exact hmod
  · split <;> exact h
  · exact h

theorem allJobs_applyAt {P : J → Prop} {Q : T → Prop} {gs : List (Group J T)} {g i : Nat} {ev : JobEvent T}
    (h : AllJobs P Q gs)
    (hres : ∀ tasks, ev = .resolved tasks → ∀ G j, gs[g]? = some G → G[i]? = some j → ∀ t ∈ tasks, Q t) :
    AllJobs P Q (applyAt gs g i ev) := by
  intro G' hG' j' hj'
  obtain ⟨n, hn⟩ := List.mem_iff_getElem?.1 hG'
  rw [applyAt, List.getElem?_modify] at hn
  obtain ⟨G, hG, rfl⟩ := Option.map_eq_some_iff.1 hn
  have hmem := List.mem_of_getElem? hG
  by_cases hgn : g = n
  · subst hgn
    rw [if_pos rfl, Group.apply] at hj'
    split at hj'
    · obtain ⟨m, hm⟩ := List.mem_iff_getElem?.1 hj'
      rw [List.getElem?_modify] at hm
      obtain ⟨j, hj, rfl⟩ := Option.map_eq_some_iff.1 hm
      have hold := h G hmem j (List.mem_of_getElem? hj)
      by_cases him : i = m
      · subst him
        rw [if_pos rfl]
        exact ⟨by rw [JobState.apply_data]; exact hold.1,
          tasks_apply hold.2 fun tasks hev t ht => hres tasks hev G j hG hj t ht⟩
      · rw [if_neg him]
        exact hold
    · exact h G hmem j' hj'
  · rw [if_neg hgn] at hj'
    exact h G hmem j' hj'

/-! ## Jobs of running groups -/

/-- A group that is still running has a job with property `L`. -/
def Somewhere (L : JobState J T → Prop) (gs : List (Group J T)) : Prop :=
  ∃ G ∈ gs, G.aborted = false ∧ ∃ j ∈ G, L j

/-- A group was given up, and a job of it that carries `ref` was canceled or not run to its end. -/
def Dropped (ref : J → Prop) (gs gs' : List (Group J T)) : Prop :=
  ∃ (n : Nat) (G G' : Group J T), gs[n]? = some G ∧ gs'[n]? = some G' ∧ G.aborted = false ∧ G'.aborted = true ∧
    ∃ j ∈ G', j.phase ≠ .done ∧ j.phase ≠ .failed ∧ ref j.data

section
variable {L : JobState J T → Prop} {ref : J → Prop} {gs : List (Group J T)}

theorem Somewhere.append (h : Somewhere L gs) (gs' : List (Group J T)) : Somewhere L (gs ++ gs') := by
  obtain ⟨G, hG, hrest⟩ := h
  exact ⟨G, List.mem_append_left _ hG, hrest⟩

/-- An event leaves a job with property `L` in a running group, or the job is dropped, or the event is about the job and
ends the property without canceling the job. -/
theorem somewhere_applyAt (h : Somewhere L gs) (hL : ∀ j, L j → j.phase ≠ .done ∧ j.phase ≠ .failed ∧ ref j.data)
    (g i : Nat) (ev : JobEvent T) :
    Somewhere L (applyAt gs g i ev) ∨ Dropped ref gs (applyAt gs g i ev) ∨
      ∃ G j, gs[g]? = some G ∧ G.accepts i ev = true ∧ G[i]? = some j ∧ L j ∧ ¬ L (j.apply ev) ∧
        (j.apply ev).phase ≠ .canceled := by
  obtain ⟨G, hG, ha, j, hj, hLj⟩ := h
  obtain ⟨n, hn⟩ := List.mem_iff_getElem?.1 hG
  obtain ⟨m, hm⟩ := List.mem_iff_getElem?.1 hj
  by_cases hng : n = g
  · subst hng
    -- the event is about the group of the job
    have hG' : (applyAt gs n i ev)[n]? = some (G.apply i ev) := by
      simp [applyAt, hn]
    by_cases hacc : G.accepts i ev = true
    · -- the group after the event, at the place of the job
      have hm' : (G.apply i ev)[m]? = some (if m = i then j.apply ev else j) := by
        simp only [Group.getElem?_apply _ _ hm, hacc, true_and]
      by_cases hLa : L (if m = i then j.apply ev else j)
      · cases hab : (G.apply i ev).aborted with
        | true => exact .inr (.inl ⟨n, G, _, hn, hG', ha, hab, _, List.mem_of_getElem? hm', hL _ hLa⟩)
        | false => exact .inl ⟨_, List.mem_of_getElem? hG', hab, _, List.mem_of_getElem? hm', hLa⟩
      · have hmi : m = i := by
          by_contra hmi
          rw [if_neg hmi] at hLa
          exact hLa hLj
        rw [if_pos hmi] at hLa hm'
        by_cases hc : (j.apply ev).phase = .canceled
        · refine .inr (.inl ⟨n, G, _, hn, hG', ha, ?_, _, List.mem_of_getElem? hm', ?_⟩)
          · exact List.any_eq_true.2 ⟨_, List.mem_of_getElem? hm', by simp [JobState.broken, hc]⟩
          · rw [hc, JobState.apply_data]
            exact ⟨nofun, nofun, (hL j hLj).2.2⟩
        · exact .inr (.inr ⟨G, j, hn, hacc, hmi ▸ hm, hLj, hLa, hc⟩)
    · refine .inl ⟨G, List.mem_of_getElem? (i := n) ?_, ha, j, hj, hLj⟩
      rw [hG', Group.apply, if_neg hacc]
  · refine .inl ⟨G, List.mem_of_getElem? (i := n) ?_, ha, j, hj, hLj⟩
    simp [applyAt, Ne.symm hng, hn]

end

/-! ## Owed work -/

/-- A job that carries `ref` still owes its work: it is not resolved yet, or a task of it that carries `tref` waits. -/
def Owes (ref : J → Prop) (tref : T → Prop) (j : JobState J T) : Prop :=
  ref j.data ∧ (j.phase = .created ∨ j.phase = .confirmed ∨
    j.phase = .running ∧ ∃ t, (t, .waiting) ∈ j.tasks ∧ tref t)

section
variable {ref : J → Prop} {tref : T → Prop} {j : JobState J T}

theorem Owes.not_ended (h : Owes ref tref j) : j.ended = false := by
  rcases h.2 with hp | hp | ⟨hp, -⟩ <;> simp [JobState.ended, JobState.broken, hp]

theorem Owes.open (h : Owes ref tref j) : j.phase ≠ .done ∧ j.phase ≠ .failed ∧ ref j.data := by
  rcases h.2 with hp | hp | ⟨hp, -⟩ <;> rw [hp] <;> exact ⟨nofun, nofun, h.1⟩

theorem Owes.of_created (hp : j.phase = .created) (h : ref j.data) : Owes ref tref j := ⟨h, .inl hp⟩

/-- A task at another place, or one that has ended, stays as it is. -/
theorem mem_recordTask {ts : List (T × TaskStatus)} {m n : Nat} {t : T} {st : TaskStatus} (completed : Bool)
    (hm : ts[m]? = some (t, st)) (hne : m = n → st ≠ .waiting) :
    (t, st) ∈ ts.modify n (JobState.recordTask completed) := by
  refine List.mem_of_getElem? (i := m) ?_
  rw [List.getElem?_modify, hm]
  by_cases hmn : n = m
  · simp [hmn, JobState.recordTask, hne hmn.symm]
  · simp [hmn]

/-- Owed work stays owed, or the job is canceled, or a waiting task that carries `tref` ends. -/
theorem Owes.apply (h : Owes ref tref j) (ev : JobEvent T)
    (hres : ∀ tasks, ev = .resolved tasks → ∃ t ∈ tasks, tref t) :
    Owes ref tref (j.apply ev) ∨ (ev = .canceled ∧ (j.apply ev).phase = .canceled) ∨
      ∃ n completed t, ev = .recorded n completed ∧ j.phase = .running ∧ j.tasks[n]? = some (t, .waiting) ∧ tref t := by
  have hended := h.not_ended
  unfold JobState.apply
  split
  · exact .inl ⟨h.1, .inr (.inl rfl)⟩
  · rename_i tasks _
    obtain ⟨t, ht, htr⟩ := hres tasks rfl
    exact .inl ⟨h.1, .inr (.inr ⟨rfl, t, List.mem_map_of_mem ht, htr⟩)⟩
  · rename_i n completed hp
    obtain ⟨t, ht, htr⟩ : ∃ t, (t, TaskStatus.waiting) ∈ j.tasks ∧ tref t := by
      rcases h.2 with hc | hc | hc
      · rw [hc] at hp; cases hp
      · rw [hc] at hp; cases hp
      · exact hc.2
    obtain ⟨m, hm⟩ := List.mem_iff_getElem?.1 ht
    by_cases hmn : m = n
    · exact .inr (.inr ⟨n, completed, t, rfl, hp, hmn ▸ hm, htr⟩)
    · -- another task is recorded; this one still waits, so the job goes on
      have hw := mem_recordTask completed hm fun he => absurd he hmn
      refine .inl ?_
      unfold JobState.settle
      rw [if_pos (List.any_eq_true.2 ⟨_, hw, rfl⟩)]
      exact ⟨h.1, .inr (.inr ⟨hp, t, hw, htr⟩)⟩
  · rw [if_neg (by simp [hended])]
    exact .inr (.inl ⟨rfl, rfl⟩)
  · exact .inl h

/-- Owed work in a running group stays owed, or it is dropped, or a waiting task of that work ends. -/
theorem owes_applyAt {gs : List (Group J T)} (h : Somewhere (Owes ref tref) gs) (g i : Nat) (ev : JobEvent T)
    (hres : ∀ tasks, ev = .resolved tasks → ∀ G j,
      gs[g]? = some G → G[i]? = some j → ref j.data → ∃ t ∈ tasks, tref t) :
    Somewhere (Owes ref tref) (applyAt gs g i ev) ∨ Dropped ref gs (applyAt gs g i ev) ∨
      ∃ n completed t G j, ev = .recorded n completed ∧ gs[g]? = some G ∧ G[i]? = some j ∧
        j.tasks[n]? = some (t, .waiting) ∧ tref t := by
  rcases somewhere_applyAt h (fun j hj => hj.open) g i ev with h | h | ⟨G, j, hG, -, hj, hL, hnL, hc⟩
  · exact .inl h
  · exact .inr (.inl h)
  · rcases hL.apply ev fun tasks hev => hres tasks hev G j hG hj hL.1 with
      h | ⟨-, h⟩ | ⟨n, completed, t, hev, -, ht, htr⟩
    · exact absurd h hnL
    · exact absurd h hc
    · exact .inr (.inr ⟨n, completed, t, G, j, hev, hG, hj, ht, htr⟩)

end

theorem Dropped.mono {ref ref' : J → Prop} {gs gs' : List (Group J T)} (h : Dropped ref gs gs')
    (hr : ∀ data, ref data → ref' data) : Dropped ref' gs gs' := by
  obtain ⟨n, G, G', h1, h2, h3, h4, j, hj, hd, hf, href⟩ := h
  exact ⟨n, G, G', h1, h2, h3, h4, j, hj, hd, hf, hr _ href⟩

end Krypton.Lib
