import Krypton.Lib.JobGroups
import Krypton.Lib.Run
import Krypton.Deployment
import Krypton.Admin.Effects
import Krypton.Orchestrator.AnnounceOutcomes

/-!
# Runs of the root

The root as a system: its database, vaults and provider specs (`World`) and the job groups it has handed to orbital. A
run is a sequence of admin calls and of steps of orbital: confirming a job, resolving it into tasks, delivering a task,
canceling a job. Orbital delivers at least once: a task may be delivered again at any time, also when its job has ended,
and the answer of a delivery or confirmation may get lost.

* `step`, `RootState.init` — the system;
* `step_world` — what one step does to the world;
* `step_world_rel_delivered`, `step_world_rel`, `step_world_inv` — the step rule and the invariant rule for the world;
* `step_jobs_inv` — the invariant rule for properties of the jobs and tasks;
* `step_keeps` — no key disappears or changes its identity.
-/

namespace Krypton

open Lib

/-! ## Admin calls -/

/-- The calls of the admin API, with their requests. -/
inductive AdminCall where
  | createTenant (name : String) (labels : Labels)
  | announceKey (req : AnnounceKeyRequest)
  | keyAction (action : ActionType) (req : KeyRequest)
  | createProvider (req : CreateProviderRequest)
  | rotateAuth (tenantID keyID : String) (auth : ProviderChoice Unit)
  | rotateProviderKey (tenantID keyID : String) (key : ProviderChoice String)
  | removeProvider (tenantID keyID : String)

/-- The job groups a call hands to orbital, and the world after it. -/
def AdminCall.run (R : RootProcess) (e : Env) (w : World) : AdminCall → List JobGroup × World
  | .createTenant name labels => ([], (Krypton.createTenant e name labels w).2)
  | .announceKey req => (Krypton.announceKey R e req w).2
  | .keyAction action req => (Krypton.keyAction e action req w).2
  | .createProvider req => ([], (Krypton.createProvider R e req w).2)
  | .rotateAuth tenantID keyID auth => ([], (Krypton.rotateAuth e tenantID keyID auth w).2)
  | .rotateProviderKey tenantID keyID key => ([], (Krypton.rotateProviderKey e tenantID keyID key w).2)
  | .removeProvider tenantID keyID => ([], (Krypton.removeProvider e tenantID keyID w).2)

/-! ## Jobs and tasks -/

/-- A task of a job, with its data. -/
inductive RootTask where
  | announce (key : Key)
  | action (a : ActionType) (kid : KeyIdentifier)
  deriving DecidableEq, Repr

/-- `ConfirmJob` of the job's resolver. -/
def Job.confirm (e : Env) (w : World) : Job → ConfirmResult × World
  | .announce key => confirmAnnounce e key w
  | .layer _ _ => (.complete, w)

/-- `ResolveTasks` of the job's resolver: one task per key; a job without keys is canceled. -/
def Job.resolve : Job → JobEvent RootTask
  | .announce key => .resolved [.announce key]
  | .layer action ids => if ids.isEmpty then .canceled else .resolved (ids.map (.action action))

/-- `Handle` of the task's handler. -/
def RootTask.handle (R : RootProcess) (e : Env) (w : World) : RootTask → Response × World
  | .announce key => handleAnnounce R e key w
  | .action a kid => handleTask R e a kid w

/-- What a confirmation means for the job. -/
def ConfirmResult.event : ConfirmResult → Option (JobEvent RootTask)
  | .complete => some .confirmed
  | .continue => none
  | .cancel _ => some .canceled

/-- What the answer to a delivery means for the job. -/
def Response.event (task : Nat) : Response → Option (JobEvent RootTask)
  | .continueAndWaitFor _ => none
  | .fail _ => some (.recorded task false)
  | .complete => some (.recorded task true)

/-! ## The system -/

structure RootState where
  world : World
  groups : List (Group Job RootTask)

/-- Nothing stored, nothing to do. -/
def RootState.init : RootState := ⟨⟨.empty .root, fun _ => none, fun _ => none⟩, []⟩

inductive Op where
  | admin (call : AdminCall)
  /-- Confirm job `i` of group `g`; the answer is recorded or gets lost. -/
  | confirmJob (g i : Nat) (recorded : Bool)
  | resolveTasks (g i : Nat)
  /-- Deliver a task of a job. -/
  | handle (g i task : Nat) (recorded : Bool)
  | cancel (g i : Nat)

/-- The job at a place, if orbital can apply an event to it. -/
def RootState.acceptingJob (s : RootState) (g i : Nat) (ev : JobEvent RootTask) : Option (JobState Job RootTask) :=
  s.groups[g]?.bind fun G => if G.accepts i ev then G[i]? else none

def RootState.record (s : RootState) (g i : Nat) (recorded : Bool) (ev : Option (JobEvent RootTask)) :
    List (Group Job RootTask) :=
  match recorded, ev with
  | true, some ev => applyAt s.groups g i ev
  | _, _ => s.groups

/-- One step of a run. -/
def step (R : RootProcess) (s : RootState) : Env × Op → RootState
  | (e, .admin call) =>
    let (groups, world) := call.run R e s.world
    ⟨world, s.groups ++ groups.map fun jobs => jobs.map JobState.new⟩
  | (e, .confirmJob g i recorded) =>
    match s.acceptingJob g i .confirmed with
    | none => s
    | some j =>
      if j.phase = .created then
        let (result, world) := j.data.confirm e s.world
        ⟨world, s.record g i recorded result.event⟩
      else s
  | (_, .resolveTasks g i) =>
    match s.acceptingJob g i .confirmed with
    | none => s
    | some j => if j.phase = .confirmed then ⟨s.world, applyAt s.groups g i j.data.resolve⟩ else s
  | (e, .handle g i task recorded) =>
    match s.groups[g]?.bind fun G => G[i]?.bind fun j => j.tasks[task]? with
    | none => s
    | some (t, _) =>
      let (response, world) := t.handle R e s.world
      ⟨world, s.record g i recorded (response.event task)⟩
  | (_, .cancel g i) => ⟨s.world, applyAt s.groups g i .canceled⟩

/-- The world after a run from the start. -/
def worldAfter (R : RootProcess) (ops : List (Env × Op)) : World := (run (step R) .init ops).world

/-! ## What a step can do -/

section
variable {R : RootProcess} {s : RootState} {e : Env} {g i task : Nat} {recorded : Bool}

theorem acceptingJob_eq_some {ev : JobEvent RootTask} {j : JobState Job RootTask}
    (h : s.acceptingJob g i ev = some j) : ∃ G, s.groups[g]? = some G ∧ G.accepts i ev = true ∧ G[i]? = some j := by
  obtain ⟨G, hG, hj⟩ := Option.bind_eq_some_iff.1 h
  split at hj
  · rename_i hacc
    exact ⟨G, hG, hacc, hj⟩
  · cases hj

theorem step_admin (call : AdminCall) : step R s (e, .admin call) =
    ⟨(call.run R e s.world).2, s.groups ++ (call.run R e s.world).1.map fun jobs => jobs.map JobState.new⟩ := rfl

theorem step_confirmJob : step R s (e, .confirmJob g i recorded) = s ∨
    ∃ G j, s.groups[g]? = some G ∧ G.aborted = false ∧ G[i]? = some j ∧ j.phase = .created ∧
      step R s (e, .confirmJob g i recorded) =
        ⟨(j.data.confirm e s.world).2, s.record g i recorded (j.data.confirm e s.world).1.event⟩ := by
  unfold step
  dsimp only
  split
  · exact .inl rfl
  · rename_i j hacc
    split
    · rename_i hp
      obtain ⟨G, hG, hG', hj⟩ := acceptingJob_eq_some hacc
      simp only [Group.accepts, Bool.and_eq_true, Bool.not_eq_true'] at hG'
      exact .inr ⟨G, j, hG, hG'.1, hj, hp, rfl⟩
    · exact .inl rfl

theorem step_resolveTasks : step R s (e, .resolveTasks g i) = s ∨
    ∃ G j, s.groups[g]? = some G ∧ G[i]? = some j ∧
      step R s (e, .resolveTasks g i) = ⟨s.world, applyAt s.groups g i j.data.resolve⟩ := by
  unfold step
  dsimp only
  split
  · exact .inl rfl
  · rename_i j hacc
    split
    · obtain ⟨G, hG, -, hj⟩ := acceptingJob_eq_some hacc
      exact .inr ⟨G, j, hG, hj, rfl⟩
    · exact .inl rfl

theorem step_handle : step R s (e, .handle g i task recorded) = s ∨
    ∃ G j t st, s.groups[g]? = some G ∧ G[i]? = some j ∧ j.tasks[task]? = some (t, st) ∧
      step R s (e, .handle g i task recorded) =
        ⟨(t.handle R e s.world).2, s.record g i recorded ((t.handle R e s.world).1.event task)⟩ := by
  unfold step
  dsimp only
  split
  · exact .inl rfl
  · rename_i t st hat
    obtain ⟨G, hG, hat⟩ := Option.bind_eq_some_iff.1 hat
    obtain ⟨j, hj, ht⟩ := Option.bind_eq_some_iff.1 hat
    exact .inr ⟨G, j, t, st, hG, hj, ht, rfl⟩

theorem step_cancel : step R s (e, .cancel g i) = ⟨s.world, applyAt s.groups g i .canceled⟩ := rfl

end

/-- The task that a step delivers. -/
def Op.delivered (s : RootState) : Op → Option RootTask
  | .handle g i task _ => (s.groups[g]?.bind fun G => G[i]?.bind fun j => j.tasks[task]?).map Prod.fst
  | _ => none

/-- A step changes the world by an admin call, by a confirmation or by a delivery, or not at all. -/
theorem step_world (R : RootProcess) (s : RootState) (e : Env) (op : Op) :
    (step R s (e, op)).world = s.world ∨
      (∃ call, op = .admin call ∧ (step R s (e, op)).world = (call.run R e s.world).2) ∨
      (∃ job : Job, (step R s (e, op)).world = (job.confirm e s.world).2) ∨
      ∃ task : RootTask, op.delivered s = some task ∧ (step R s (e, op)).world = (task.handle R e s.world).2 := by
  cases op with
  | admin call => exact .inr (.inl ⟨call, rfl, rfl⟩)
  | confirmJob g i recorded =>
    rcases step_confirmJob with h | ⟨_, j, -, -, -, -, h⟩ <;> rw [h]
    · exact .inl rfl
    · exact .inr (.inr (.inl ⟨j.data, rfl⟩))
  | resolveTasks g i =>
    rcases step_resolveTasks with h | ⟨_, _, -, -, h⟩ <;> rw [h] <;> exact .inl rfl
  | handle g i task recorded =>
    rcases step_handle with h | ⟨_, _, t, _, hG, hj, ht, h⟩ <;> rw [h]
    · exact .inl rfl
    · exact .inr (.inr (.inr ⟨t, by simp [Op.delivered, hG, hj, ht], rfl⟩))
  | cancel g i => exact .inl rfl

/-- The admin call of a step. -/
def Op.call : Op → Option AdminCall
  | .admin call => some call
  | _ => none

/-- A condition on the admin calls of a run, each in the world it meets. -/
def Calls (A : World → Env → AdminCall → Prop) (s : RootState) (op : Env × Op) : Prop :=
  ∀ call ∈ op.2.call, A s.world op.1 call

instance (A : World → Env → AdminCall → Prop) [∀ w e call, Decidable (A w e call)] (s : RootState) (op : Env × Op) :
    Decidable (Calls A s op) := inferInstanceAs (Decidable (∀ _ ∈ _, _))

section
variable {R : RootProcess} {A : World → Env → AdminCall → Prop} {I : World → Prop}

/-- A condition on the tasks of a run, each in the world it is delivered to. -/
def Deliveries (T : World → RootTask → Prop) (s : RootState) (op : Env × Op) : Prop :=
  ∀ task ∈ op.2.delivered s, T s.world task

instance (T : World → RootTask → Prop) [∀ w task, Decidable (T w task)] (s : RootState) (op : Env × Op) :
    Decidable (Deliveries T s op) := inferInstanceAs (Decidable (∀ _ ∈ _, _))

/-- **The step rule for the world.** A relation that holds between the worlds before and after every allowed admin call,
every confirmation and every allowed delivery of a task holds across every step. -/
theorem step_world_rel_delivered {T : World → RootTask → Prop} {P : Env → World → World → Prop} (hrefl : ∀ w e, P e w w)
    (hcall : ∀ w e call, A w e call → P e w (call.run R e w).2)
    (hconfirm : ∀ w e key result w', ConfirmEffect e key w result w' → P e w w')
    (hannounce : ∀ w e key response w', AnnounceEffect R e key w response w' → P e w w')
    (htask : ∀ w e (action : ActionType) kid response w', T w (.action action kid) →
      TaskEffect R e action.toState kid w response w' → P e w w')
    (s : RootState) (op : Env × Op) (hA : Calls A s op) (hT : Deliveries T s op) :
    P op.1 s.world (step R s op).world := by
  obtain ⟨e, op⟩ := op
  rcases step_world R s e op with h | ⟨call, rfl, h⟩ | ⟨job, h⟩ | ⟨task, hd, h⟩ <;> rw [h]
  · exact hrefl _ _
  · exact hcall _ _ _ (hA call rfl)
  · cases job with
    | announce key => exact hconfirm _ _ _ _ _ confirmAnnounce_effect
    | layer action ids => exact hrefl _ _
  · cases task with
    | announce key => exact hannounce _ _ _ _ _ handleAnnounce_effect
    | action a kid => exact htask _ _ _ _ _ _ (hT _ hd) handleTask_effect

/-- The step rule without a condition on the deliveries. -/
theorem step_world_rel {P : Env → World → World → Prop} (hrefl : ∀ w e, P e w w)
    (hcall : ∀ w e call, A w e call → P e w (call.run R e w).2)
    (hconfirm : ∀ w e key result w', ConfirmEffect e key w result w' → P e w w')
    (hannounce : ∀ w e key response w', AnnounceEffect R e key w response w' → P e w w')
    (htask : ∀ w e (action : ActionType) kid response w', TaskEffect R e action.toState kid w response w' → P e w w')
    (s : RootState) (op : Env × Op) (hA : Calls A s op) : P op.1 s.world (step R s op).world :=
  step_world_rel_delivered (T := fun _ _ => True) hrefl hcall hconfirm hannounce
    (fun w e action kid response w' _ heff => htask w e action kid response w' heff) s op hA fun _ _ => trivial

/-- **The invariant rule for the world.** What every allowed admin call, every confirmation and every delivery of a task
keeps holds after every run. -/
theorem step_world_inv (hcall : ∀ w e call, I w → A w e call → I (call.run R e w).2)
    (hconfirm : ∀ w e key result w', I w → ConfirmEffect e key w result w' → I w')
    (hannounce : ∀ w e key response w', I w → AnnounceEffect R e key w response w' → I w')
    (htask : ∀ w e (action : ActionType) kid response w', I w → TaskEffect R e action.toState kid w response w' → I w')
    (s : RootState) (op : Env × Op) (hI : I s.world) (hA : Calls A s op) : I (step R s op).world :=
  step_world_rel (P := fun _ w w' => I w → I w') (fun _ _ h => h) (fun w e call hA h => hcall w e call h hA)
    (fun w e key result w' heff h => hconfirm w e key result w' h heff)
    (fun w e key response w' heff h => hannounce w e key response w' h heff)
    (fun w e action kid response w' heff h => htask w e action kid response w' h heff) s op hA hI

/-- **The invariant rule for jobs.** What holds of the jobs of every allowed call, and passes from a job to its tasks,
holds of all jobs and tasks after every run. -/
theorem step_jobs_inv {P : Job → Prop} {Q : RootTask → Prop}
    (hres : ∀ job tasks, P job → job.resolve = .resolved tasks → ∀ t ∈ tasks, Q t) {s : RootState} {op : Env × Op}
    (hs : AllJobs P Q s.groups)
    (hnew : ∀ call, op.2 = .admin call → ∀ jobs ∈ (call.run R op.1 s.world).1, ∀ job ∈ jobs, P job) :
    AllJobs P Q (step R s op).groups := by
  have hrecord : ∀ g i recorded (oev : Option (JobEvent RootTask)), (∀ tasks, oev ≠ some (.resolved tasks)) →
      AllJobs P Q (s.record g i recorded oev) := by
    intro g i recorded oev hne
    unfold RootState.record
    split
    · exact allJobs_applyAt hs fun tasks hev => absurd (congrArg some hev) (hne tasks)
    · exact hs
  obtain ⟨e, op⟩ := op
  cases op with
  | admin call =>
    intro G hG j hj
    rcases List.mem_append.1 hG with hG | hG
    · exact hs G hG j hj
    · obtain ⟨jobs, hjobs, rfl⟩ := List.mem_map.1 hG
      obtain ⟨job, hjob, rfl⟩ := List.mem_map.1 hj
      exact ⟨hnew call rfl jobs hjobs job hjob, fun _ h => absurd h List.not_mem_nil⟩
  | confirmJob g i recorded =>
    rcases step_confirmJob with h | ⟨_, j, -, -, -, -, h⟩ <;> rw [h]
    · exact hs
    · refine hrecord g i recorded _ fun tasks h => ?_
      cases hr : (j.data.confirm e s.world).1 <;> rw [hr] at h <;> cases h
  | resolveTasks g i =>
    rcases step_resolveTasks with h | ⟨G, j, hG, hj, h⟩ <;> rw [h]
    · exact hs
    · refine allJobs_applyAt hs fun tasks hev G' j' hG' hj' => ?_
      exact hres j.data tasks (hs G (List.mem_of_getElem? hG) j (List.mem_of_getElem? hj)).1 hev
  | handle g i task recorded =>
    rcases step_handle with h | ⟨_, _, t, _, -, -, -, h⟩ <;> rw [h]
    · exact hs
    · refine hrecord g i recorded _ fun tasks h => ?_
      cases hr : (t.handle R e s.world).1 <;> rw [hr] at h <;> cases h
  | cancel g i => exact allJobs_applyAt hs fun tasks hev => by cases hev

end

/-! ## Identities of keys -/

section
variable {R : RootProcess} {e : Env} {w w' : World} {db db' : DB} {i : KeyIdent}

theorem DB.HasKey.upserted {newKey k : Key} (h : db.HasKey i) (hu : Upserted e newKey db k db') : db'.HasKey i := by
  cases hu with
  | inserted hi =>
    obtain ⟨k, hk, rfl⟩ := h
    exact ⟨k, hi.mem.2 (.inl hk), rfl⟩
  | adopted _ _ => exact h.markKeys

theorem AnnounceKeyEffect.keeps {req : AnnounceKeyRequest} {r : Except Err Key} {gs : List JobGroup}
    (h : AnnounceKeyEffect R e req w (r, gs, w')) (hi : w.db.HasKey i) : w'.db.HasKey i := by
  cases h with
  | refused => exact hi
  | accepted _ _ _ hu => exact hi.upserted hu

theorem ActionEffect.keeps {action : ActionType} {req : KeyRequest} {r : Except Err Unit} {gs : List JobGroup}
    (h : ActionEffect e action req w (r, gs, w')) (hi : w.db.HasKey i) : w'.db.HasKey i := by
  cases h with
  | refused => exact hi
  | accepted _ _ _ => exact hi.markKeys

theorem AdminCall.keeps (call : AdminCall) (hi : w.db.HasKey i) : (call.run R e w).2.db.HasKey i := by
  cases call with
  | createTenant name labels => exact hi.congr createTenant_effect.keys
  | announceKey req => exact AnnounceKeyEffect.keeps announceKey_effect hi
  | keyAction action req => exact ActionEffect.keeps keyAction_effect hi
  | createProvider req => exact hi.congr (CreateProviderEffect.keys createProvider_effect)
  | rotateAuth t i a => exact hi.congr (congrArg DB.keys (RotateAuthEffect.db rotateAuth_effect))
  | rotateProviderKey t i key => exact hi.congr (RotateProviderKeyEffect.keys rotateProviderKey_effect)
  | removeProvider t i => exact hi.congr (congrArg DB.keys (RemoveProviderEffect.db removeProvider_effect))

/-- No key disappears, and its identity never changes. -/
theorem step_keeps {s : RootState} (op : Env × Op) (hi : s.world.db.HasKey i) : (step R s op).world.db.HasKey i := by
  refine step_world_inv (A := fun _ _ _ => True) (I := fun w => w.db.HasKey i) (fun w e call h _ => call.keeps h)
    ?_ ?_ ?_ s op hi fun _ _ => trivial
  · intro w e key result w' h heff
    cases heff with
    | started _ _ => exact h.markKeys
    | _ => exact h
  · intro w e key response w' h heff
    cases heff with
    | failed _ => exact h.markKeys
    | completed _ _ _ => exact h.markKeys
    | _ => exact h
  · intro w e action kid response w' h heff
    rcases heff.keys with ⟨hkeys, -⟩ | ⟨_, _, -, hkeys, -⟩
    · exact h.congr hkeys
    · exact h.markKeys.congr hkeys

end

/-! ## Tenants -/

section
variable {R : RootProcess} {A : World → Env → AdminCall → Prop} {e : Env} {w w' : World} {db db' : DB}

theorem RootTask.handle_tenants (t : RootTask) : (t.handle R e w).2.db.tenants = w.db.tenants := by
  cases t with
  | announce key => exact handleAnnounce_effect.tenants
  | action a kid => exact handleTask_effect.tenants

/-- Every tenant is still there. -/
def KeepsTenants (db db' : DB) : Prop := ∀ t ∈ db.tenants.rows, ∃ t' ∈ db'.tenants.rows, t'.id = t.id

theorem keepsTenants_of_eq (h : db'.tenants = db.tenants) : KeepsTenants db db' := fun t ht => ⟨t, h ▸ ht, rfl⟩

theorem AnnounceKeyEffect.tenants {req : AnnounceKeyRequest} {r : Except Err Key} {gs : List JobGroup}
    (h : AnnounceKeyEffect R e req w (r, gs, w')) : w'.db.tenants = w.db.tenants := by
  cases h with
  | refused => rfl
  | accepted _ _ _ hu => exact hu.tenants

theorem ActionEffect.tenants {action : ActionType} {req : KeyRequest} {r : Except Err Unit} {gs : List JobGroup}
    (h : ActionEffect e action req w (r, gs, w')) : w'.db.tenants = w.db.tenants := by
  cases h <;> rfl

/-- Tenants come from `CreateTenant` alone. -/
theorem AdminCall.tenants (call : AdminCall) (hc : ∀ name labels, call ≠ .createTenant name labels) :
    (call.run R e w).2.db.tenants = w.db.tenants := by
  cases call with
  | createTenant name labels => exact absurd rfl (hc name labels)
  | announceKey req => exact AnnounceKeyEffect.tenants announceKey_effect
  | keyAction action req => exact ActionEffect.tenants keyAction_effect
  | createProvider req => exact CreateProviderEffect.tenants createProvider_effect
  | rotateAuth t i a => exact congrArg DB.tenants (RotateAuthEffect.db rotateAuth_effect)
  | rotateProviderKey t i key => exact RotateProviderKeyEffect.tenants rotateProviderKey_effect
  | removeProvider t i => exact congrArg DB.tenants (RemoveProviderEffect.db removeProvider_effect)

theorem AdminCall.keepsTenants (call : AdminCall) : KeepsTenants w.db (call.run R e w).2.db := by
  by_cases hc : ∃ name labels, call = .createTenant name labels
  · obtain ⟨name, labels, rfl⟩ := hc
    exact createTenant_effect.keepsTenants
  · exact keepsTenants_of_eq (call.tenants fun name labels h => hc ⟨name, labels, h⟩)

theorem step_keepsTenants (s : RootState) (op : Env × Op) : KeepsTenants s.world.db (step R s op).world.db :=
  step_world_rel (A := fun _ _ _ => True) (P := fun _ w w' => KeepsTenants w.db w'.db)
    (fun _ _ => keepsTenants_of_eq rfl)
    (fun _ _ call _ => call.keepsTenants) (fun _ _ _ _ _ h => keepsTenants_of_eq h.tenants)
    (fun _ _ _ _ _ h => keepsTenants_of_eq h.tenants) (fun _ _ _ _ _ _ h => keepsTenants_of_eq h.tenants) s op
    fun _ _ => trivial

/-! ## New keys -/

/-- The row of a key that an announce has added. -/
structure NewKey (R : RootProcess) (e : Env) (req : AnnounceKeyRequest) (db : DB) (row : Key) (db' : DB) : Prop where
  request : Validator.validateKeyAnnounceRequest req.input R.cfg = .ok ()
  tenant : Validator.validateTenant req.tenantID db = .ok ()
  hierarchy : Validator.validateKeyHierarchy (announcedKey R e req) R.cfg.hierarchy db = .ok ()
  inserted : DB.KeyInserted db (announcedKey R e req) row db'

/-- The keys of `w'` are keys of `w` and keys an announce has added. -/
def GrowsKeys (R : RootProcess) (e : Env) (w w' : World) : Prop :=
  ∀ k ∈ w'.db.keys.rows, w.db.HasKey k.ident ∨ ∃ req, NewKey R e req w.db k w'.db

/-- The keys of `w'` are keys of `w` and keys that an allowed announce has added. -/
def GrowsKeysBy (R : RootProcess) (A : World → Env → AdminCall → Prop) (e : Env) (w w' : World) : Prop :=
  ∀ k ∈ w'.db.keys.rows, w.db.HasKey k.ident ∨ ∃ req, A w e (.announceKey req) ∧ NewKey R e req w.db k w'.db

theorem growsKeysBy_of_eq (h : w'.db.keys = w.db.keys) : GrowsKeysBy R A e w w' := fun k hk => .inl ⟨k, h ▸ hk, rfl⟩

theorem growsKeysBy_markKeys {ids : List String} {lc : KeyLifeCycleState} {st : KeyProcessingStatus} {now : Int}
    (h : w'.db.keys = (w.db.markKeys ids lc st now).keys) : GrowsKeysBy R A e w w' := by
  intro k hk
  obtain ⟨k₀, hk₀, rfl⟩ := DB.mem_markKeys.1 (h ▸ hk)
  exact .inl ⟨k₀, hk₀, DB.markKey_ident.symm⟩

theorem AnnounceKeyEffect.growsKeysBy {req : AnnounceKeyRequest} {r : Except Err Key} {gs : List JobGroup}
    (h : AnnounceKeyEffect R e req w (r, gs, w')) (hA : A w e (.announceKey req)) : GrowsKeysBy R A e w w' := by
  cases h with
  | refused => exact growsKeysBy_of_eq rfl
  | accepted hreq ht hh hu =>
    cases hu with
    | inserted hi =>
      intro k hk
      rcases hi.mem.1 hk with hk | rfl
      · exact .inl ⟨k, hk, rfl⟩
      · exact .inr ⟨req, hA, hreq, ht, hh, hi⟩
    | adopted _ _ => exact growsKeysBy_markKeys rfl

theorem ActionEffect.growsKeysBy {action : ActionType} {req : KeyRequest} {r : Except Err Unit} {gs : List JobGroup}
    (h : ActionEffect e action req w (r, gs, w')) : GrowsKeysBy R A e w w' := by
  cases h with
  | refused => exact growsKeysBy_of_eq rfl
  | accepted _ _ _ => exact growsKeysBy_markKeys rfl

theorem AdminCall.growsKeysBy (call : AdminCall) (hA : A w e call) : GrowsKeysBy R A e w (call.run R e w).2 := by
  cases call with
  | createTenant name labels => exact growsKeysBy_of_eq createTenant_effect.keys
  | announceKey req => exact AnnounceKeyEffect.growsKeysBy announceKey_effect hA
  | keyAction action req => exact ActionEffect.growsKeysBy keyAction_effect
  | createProvider req => exact growsKeysBy_of_eq (CreateProviderEffect.keys createProvider_effect)
  | rotateAuth t i a => exact growsKeysBy_of_eq (congrArg DB.keys (RotateAuthEffect.db rotateAuth_effect))
  | rotateProviderKey t i key => exact growsKeysBy_of_eq (RotateProviderKeyEffect.keys rotateProviderKey_effect)
  | removeProvider t i => exact growsKeysBy_of_eq (congrArg DB.keys (RemoveProviderEffect.db removeProvider_effect))

/-- Keys are added by allowed announces only. -/
theorem step_growsKeysBy (s : RootState) (op : Env × Op) (hA : Calls A s op) :
    GrowsKeysBy R A op.1 s.world (step R s op).world := by
  refine step_world_rel (P := GrowsKeysBy R A) (fun _ _ => growsKeysBy_of_eq rfl)
    (fun _ _ call h => call.growsKeysBy h) ?_ ?_ ?_ s op hA
  · intro w e key result w' heff
    cases heff with
    | started _ _ => exact growsKeysBy_markKeys rfl
    | _ => exact growsKeysBy_of_eq rfl
  · intro w e key response w' heff
    cases heff with
    | failed _ => exact growsKeysBy_markKeys rfl
    | completed _ _ _ => exact growsKeysBy_markKeys rfl
    | _ => exact growsKeysBy_of_eq rfl
  · intro w e action kid response w' heff
    rcases heff.keys with ⟨hkeys, -⟩ | ⟨_, _, -, hkeys, -⟩
    · exact growsKeysBy_of_eq hkeys
    · exact growsKeysBy_markKeys hkeys

/-- Keys are added by announces only. -/
theorem step_growsKeys (s : RootState) (op : Env × Op) : GrowsKeys R op.1 s.world (step R s op).world := by
  intro k hk
  rcases step_growsKeysBy (A := fun _ _ _ => True) s op (fun _ _ => trivial) k hk with hold | ⟨req, -, hnew⟩
  · exact .inl hold
  · exact .inr ⟨req, hnew⟩

/-- The tenants of all keys are stored. -/
def TenantsStored (db : DB) : Prop := ∀ k ∈ db.keys.rows, ∃ t ∈ db.tenants.rows, t.id = k.tenantID

theorem tenantsStored_step (s : RootState) (op : Env × Op) (h : TenantsStored s.world.db) :
    TenantsStored (step R s op).world.db := by
  intro k hk
  have hstored : ∃ t ∈ s.world.db.tenants.rows, t.id = k.tenantID := by
    rcases step_growsKeys s op k hk with ⟨k₀, hk₀, hident⟩ | ⟨req, hnew⟩
    · obtain ⟨t, ht, hid⟩ := h k₀ hk₀
      exact ⟨t, ht, hid.trans (congrArg KeyIdent.tenantID hident)⟩
    · obtain ⟨t, ht⟩ := Validator.validateTenant_ok.1 hnew.tenant
      obtain ⟨hmem, hid⟩ := DB.getTenant_ok ht
      exact ⟨t, hmem, Option.some.inj (hid.symm.trans hnew.inserted.tenantID)⟩
  obtain ⟨t, ht, hid⟩ := hstored
  obtain ⟨t', ht', hid'⟩ := step_keepsTenants (R := R) s op t ht
  exact ⟨t', ht', hid'.trans hid⟩

theorem TenantsStored.validateTenant (h : TenantsStored db) {k : Key} (hk : k ∈ db.keys.rows) :
    Validator.validateTenant k.tenantID db = .ok () := by
  obtain ⟨t, ht, hid⟩ := h k hk
  exact Validator.validateTenant_ok.2 ⟨t, DB.getTenant_of_mem ht (by rw [hid]; exact (DB.key_canonical hk).2)⟩

end

/-! ## Steps of the small deployment -/

/-- The only tenant. -/
def demoTenant : String := (demoUuid 0).text

/-- The key announced as the `n`-th. -/
def demoKey (n : Nat) : String := (demoUuid n).text

def demoCreateTenant : Env × Op := (demoEnv 0, .admin (.createTenant "acme" []))

def demoAnnounce (n : Nat) (kind parentID targetName : String) : Env × Op :=
  (demoEnv n, .admin (.announceKey ⟨demoTenant, kind, kind, parentID, targetName, []⟩))

def demoAction (action : ActionType) (n : Nat) (cascading : Bool) : Env × Op :=
  (demoEnv 0, .admin (.keyAction action ⟨demoTenant, demoKey n, cascading⟩))

/-- Bind a static secret to a key. -/
def demoBind (n : Nat) (byte : UInt8) : Env × Op :=
  (demoEnv 0, .admin (.createProvider ⟨demoTenant, demoKey n, .staticSecret "key-1", .staticSecret (),
    .staticSecret ("provider", List.replicate 32 byte)⟩))

/-- Confirm a job, resolve it and deliver its first task. -/
def demoRunJob (g i : Nat) : List (Env × Op) :=
  [(demoEnv 0, .confirmJob g i true), (demoEnv 0, .resolveTasks g i), (demoEnv 0, .handle g i 0 true)]

/-- The root key is announced and activated. -/
def demoActivated : List (Env × Op) :=
  [demoCreateTenant, demoAnnounce 1 "rk" "" ""] ++ demoRunJob 0 0 ++ [demoAction .activate 1 false] ++ demoRunJob 1 0

end Krypton
