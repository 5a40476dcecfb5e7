import Mathlib.Logic.Relation
import Krypton.Transitions

/-!
# Registered handlers

Orbital knows jobs and tasks by their type alone; the orchestrator routes its callbacks to the handlers it was created
with. `step` of the root takes the handler of every operation for granted. Here the handlers are those that were
registered: a job of another type is canceled, a task of another type fails.

* `buildHandlerMap` — the loop behind the three builders; what it accepts is found again (`lookup_iff`);
* `newOrchestrator`, `Orchestrator.step` — the orchestrator and the system with its dispatch;
* `Orchestrator.step_cases` — a dispatched step is the plain step, or a cancellation, or leaves the world alone;
* `dispatch_refines` — runs with dispatch are runs without it, with the same calls;
* `KeyStep`, `Orchestrator.run_keySteps` — a key moves by the steps of one small machine, whatever runs;
* `unregistered_unfinished`, `suspended_stays_out` — an operation whose task handler was not registered is never
  finished; the root's own wiring leaves out suspend and deactivate.
-/

namespace Krypton

open Lib

/-! ## Types of jobs and tasks -/

def announceKeyType : String := "announce-key"

def ActionType.typeName : ActionType → String
  | .activate => "activate-key"
  | .suspend => "suspend-key"
  | .deactivate => "deactivate-key"

def Job.jobType : Job → String
  | .announce _ => announceKeyType
  | .layer action _ => action.typeName

def RootTask.taskType : RootTask → String
  | .announce _ => announceKeyType
  | .action a _ => a.typeName

theorem typeName_inj {a b : ActionType} (h : a.typeName = b.typeName) : a = b := by
  cases a <;> cases b <;> first | rfl | exact absurd h (by decide)

theorem typeName_ne_announce (a : ActionType) : a.typeName ≠ announceKeyType := by
  cases a <;> decide

/-! ## Decoding -/

/-- The data of a job, read as a key. -/
def Job.key? : Job → Option Key
  | .announce key => some key
  | .layer _ _ => none

/-- The data of a job, read as a layer of keys. -/
def Job.identifiers? : Job → Option (List KeyIdentifier)
  | .announce _ => none
  | .layer _ ids => some ids

def RootTask.key? : RootTask → Option Key
  | .announce key => some key
  | .action _ _ => none

def RootTask.identifier? : RootTask → Option KeyIdentifier
  | .announce _ => none
  | .action _ kid => some kid

/-! ## Handlers -/

/-- `OrbitalTaskResolver`: `NewAnnounceTaskResolver`, or `NewTaskResolver` with the configuration of an action. -/
inductive OrbitalTaskResolver where
  | announce
  | layer (action : ActionType)
  deriving DecidableEq, Repr

/-- `OrbitalTaskHandler`: `NewAnnounceTaskHandler`, or `NewTaskHandler` with the configuration of an action. -/
inductive OrbitalTaskHandler where
  | announce
  | task (action : ActionType)
  deriving DecidableEq, Repr

/-- `JobGroupHandler`; its events are only logged. -/
structure JobGroupHandler where
  jobGroupType : String
  deriving DecidableEq, Repr

namespace OrbitalTaskResolver

def jobType : OrbitalTaskResolver → String
  | announce => announceKeyType
  | layer action => action.typeName

/-- `ConfirmJob`. -/
def confirmJob (e : Env) (w : World) (job : Job) : OrbitalTaskResolver → ConfirmResult × World
  | announce =>
    match job.key? with
    | none => (.cancel "invalid job data", w)
    | some key => confirmAnnounce e key w
  | layer _ => (.complete, w)

/-- `ResolveTasks`. -/
def resolveTasks (job : Job) : OrbitalTaskResolver → JobEvent RootTask
  | announce =>
    -- the source hands the data on unread; it is that of a key, since only jobs of this type come here
    match job.key? with
    | none => .canceled
    | some key => .resolved [.announce key]
  | layer action =>
    match job.identifiers? with
    | none => .canceled
    | some ids => if ids.isEmpty then .canceled else .resolved (ids.map (.action action))

end OrbitalTaskResolver

namespace OrbitalTaskHandler

def taskType : OrbitalTaskHandler → String
  | announce => announceKeyType
  | task action => action.typeName

/-- `Handle`. -/
def handle (R : RootProcess) (e : Env) (w : World) (t : RootTask) : OrbitalTaskHandler → Response × World
  | announce =>
    match t.key? with
    | none => (.fail "unmarshal task data", w)
    | some key => handleAnnounce R e key w
  | task action =>
    match t.identifier? with
    | none => (.fail "failed to unmarshal task data", w)
    | some kid => handleTask R e action kid w

end OrbitalTaskHandler

section
variable {R : RootProcess} {e : Env} {w : World}

/-- A resolver for the type of the job does what the job needs. -/
theorem OrbitalTaskResolver.confirmJob_of_type {r : OrbitalTaskResolver} {job : Job} (h : r.jobType = job.jobType) :
    r.confirmJob e w job = job.confirm e w := by
  cases r with
  | announce =>
    cases job with
    | announce key => rfl
    | layer action ids => exact absurd h.symm (typeName_ne_announce action)
  | layer a =>
    cases job with
    | announce key => exact absurd h (typeName_ne_announce a)
    | layer action ids => rfl

theorem OrbitalTaskResolver.resolveTasks_of_type {r : OrbitalTaskResolver} {job : Job} (h : r.jobType = job.jobType) :
    r.resolveTasks job = job.resolve := by
  cases r with
  | announce =>
    cases job with
    | announce key => rfl
    | layer action ids => exact absurd h.symm (typeName_ne_announce action)
  | layer a =>
    cases job with
    | announce key => exact absurd h (typeName_ne_announce a)
    | layer action ids =>
      obtain rfl : a = action := typeName_inj h
      rfl

theorem OrbitalTaskHandler.handle_of_type {h : OrbitalTaskHandler} {t : RootTask} (ht : h.taskType = t.taskType) :
    h.handle R e w t = t.handle R e w := by
  cases h with
  | announce =>
    cases t with
    | announce key => rfl
    | action a kid => exact absurd ht.symm (typeName_ne_announce a)
  | task b =>
    cases t with
    | announce key => exact absurd ht (typeName_ne_announce b)
    | action a kid =>
      obtain rfl : b = a := typeName_inj ht
      rfl

end

/-! ## Handler maps -/

section
variable {η : Type} {typeOf : η → String} {what : String}

/-- A map from types to handlers, as the list of its handlers: each stands under its own type. -/
def lookupHandler (typeOf : η → String) (t : String) (handlers : List η) : Option η :=
  handlers.find? fun h => typeOf h == t

/-- The loop of the builders: `result` is the map so far, `what` the name of the handlers in the errors. -/
def buildLoop (what : String) (typeOf : η → String) : List η → List (Option η) → Except String (List η)
  | result, [] => .ok result
  | _, none :: _ => .error (what ++ " cannot be nil")
  | result, some h :: rest =>
    if typeOf h = "" then .error (what ++ " type cannot be empty")
    else if (lookupHandler typeOf (typeOf h) result).isSome then .error ("duplicate " ++ what ++ ": " ++ typeOf h)
    else buildLoop what typeOf (result ++ [h]) rest

def buildHandlerMap (what : String) (required : Bool) (typeOf : η → String) (handlers : List (Option η)) :
    Except String (List η) :=
  if required && handlers.isEmpty then .error ("at least one " ++ what ++ " is required")
  else buildLoop what typeOf [] handlers

theorem lookupHandler_eq_none {t : String} {hs : List η} : lookupHandler typeOf t hs = none ↔
    ∀ h ∈ hs, typeOf h ≠ t := by
  simp [lookupHandler]

theorem lookupHandler_type {t : String} {hs : List η} {h : η} (hl : lookupHandler typeOf t hs = some h) :
    typeOf h = t := by
  simpa using List.find?_some hl

/-- What the loop accepts is the list itself, and no type stands in it twice. -/
theorem buildLoop_ok {handlers : List (Option η)} : ∀ {result m : List η}, (result.map typeOf).Nodup →
    buildLoop what typeOf result handlers = .ok m →
    m.map some = result.map some ++ handlers ∧ (m.map typeOf).Nodup := by
  induction handlers with
  | nil =>
    intro result m hnd h
    cases h
    exact ⟨by simp, hnd⟩
  | cons x rest ih =>
    intro result m hnd h
    cases x with
    | none => cases h
    | some x =>
      unfold buildLoop at h
      split at h
      · cases h
      split at h
      · cases h
      rename_i hnew
      rw [Option.not_isSome_iff_eq_none, lookupHandler_eq_none] at hnew
      have hnd' : ((result ++ [x]).map typeOf).Nodup := by
        rw [List.map_append, List.nodup_append]
        refine ⟨hnd, List.nodup_singleton _, ?_⟩
        intro t ht t' ht'
        obtain ⟨y, hy, rfl⟩ := List.mem_map.1 ht
        rw [List.mem_singleton.1 ht']
        exact hnew y hy
      obtain ⟨hm, hnd''⟩ := ih hnd' h
      refine ⟨?_, hnd''⟩
      rw [hm]
      simp

/-- **Registered is found.** In an accepted map a handler is found under a type exactly if it was registered and the
type is its own. -/
theorem lookup_iff {required : Bool} {handlers : List (Option η)} {m : List η}
    (h : buildHandlerMap what required typeOf handlers = .ok m) {t : String} {x : η} :
    lookupHandler typeOf t m = some x ↔ some x ∈ handlers ∧ typeOf x = t := by
  unfold buildHandlerMap at h
  split at h
  · cases h
  have hnil : (([] : List η).map typeOf).Nodup := List.nodup_nil
  obtain ⟨hm, hnd⟩ := buildLoop_ok hnil h
  have hmem : ∀ y, some y ∈ handlers ↔ y ∈ m := by
    intro y
    rw [List.map_nil, List.nil_append] at hm
    rw [← hm, List.mem_map]
    simp
  rw [hmem]
  constructor
  · intro hl
    exact ⟨List.mem_of_find?_eq_some hl, lookupHandler_type hl⟩
  · intro hx
    obtain ⟨hx, rfl⟩ := hx
    cases hl : lookupHandler typeOf (typeOf x) m with
    | none => exact absurd rfl (lookupHandler_eq_none.1 hl x hx)
    | some y => rw [List.inj_on_of_nodup_map hnd (List.mem_of_find?_eq_some hl) hx (lookupHandler_type hl)]

end

/-! ## The orchestrator -/

/-- `OrbitalHandlers`; a handler may be nil. -/
structure OrbitalHandlers where
  taskResolvers : List (Option OrbitalTaskResolver)
  groupHandlers : List (Option JobGroupHandler)
  taskHandlers : List (Option OrbitalTaskHandler)

def buildTaskResolverMap : List (Option OrbitalTaskResolver) → Except String (List OrbitalTaskResolver) :=
  buildHandlerMap "job handler" true OrbitalTaskResolver.jobType

def buildGroupHandlerMap : List (Option JobGroupHandler) → Except String (List JobGroupHandler) :=
  buildHandlerMap "job group handler" false JobGroupHandler.jobGroupType

def buildTaskHandlerMap : List (Option OrbitalTaskHandler) → Except String (List OrbitalTaskHandler) :=
  buildHandlerMap "task handler" true OrbitalTaskHandler.taskType

structure Orchestrator where
  jobHandlers : List OrbitalTaskResolver
  groupHandlers : List JobGroupHandler
  taskHandlers : List OrbitalTaskHandler

/-- `New`, for a repository that is there. -/
def newOrchestrator (handlers : OrbitalHandlers) : Except String Orchestrator := do
  let jobHandlers ← buildTaskResolverMap handlers.taskResolvers
  let groupHandlers ← buildGroupHandlerMap handlers.groupHandlers
  let taskHandlers ← buildTaskHandlerMap handlers.taskHandlers
  return ⟨jobHandlers, groupHandlers, taskHandlers⟩

namespace Orchestrator

def resolver (o : Orchestrator) (t : String) : Option OrbitalTaskResolver :=
  lookupHandler OrbitalTaskResolver.jobType t o.jobHandlers

def handler (o : Orchestrator) (t : String) : Option OrbitalTaskHandler :=
  lookupHandler OrbitalTaskHandler.taskType t o.taskHandlers

def confirmJob (o : Orchestrator) (e : Env) (w : World) (job : Job) : ConfirmResult × World :=
  match o.resolver job.jobType with
  | none => (.cancel ("no job handler registered for job type: " ++ job.jobType), w)
  | some r => r.confirmJob e w job

def resolveTasks (o : Orchestrator) (job : Job) : JobEvent RootTask :=
  match o.resolver job.jobType with
  | none => .canceled
  | some r => r.resolveTasks job

/-- `buildTaskDispatch`. -/
def handle (o : Orchestrator) (R : RootProcess) (e : Env) (w : World) (t : RootTask) : Response × World :=
  match o.handler t.taskType with
  | none => (.fail ("no task handler registered for task type: " ++ t.taskType), w)
  | some h => h.handle R e w t

/-- One step of a run, with the registered handlers. -/
def step (o : Orchestrator) (R : RootProcess) (s : RootState) : Env × Op → RootState
  | (e, .confirmJob g i recorded) =>
    match s.acceptingJob g i .confirmed with
    | none => s
    | some j =>
      if j.phase = .created then
        let (result, world) := o.confirmJob e s.world j.data
        ⟨world, s.record g i recorded result.event⟩
      else s
  | (_, .resolveTasks g i) =>
    match s.acceptingJob g i .confirmed with
    | none => s
    | some j => if j.phase = .confirmed then ⟨s.world, applyAt s.groups g i (o.resolveTasks j.data)⟩ else s
  | (e, .handle g i task recorded) =>
    match s.groups[g]?.bind fun G => G[i]?.bind fun j => j.tasks[task]? with
    | none => s
    | some (t, _) =>
      let (response, world) := o.handle R e s.world t
      ⟨world, s.record g i recorded (response.event task)⟩
  | (e, op) => Krypton.step R s (e, op)

/-! ## What a dispatched step can do -/

variable {o : Orchestrator} {R : RootProcess} {s : RootState} {e : Env} {w : World}

theorem confirmJob_registered {job : Job} (h : (o.resolver job.jobType).isSome) :
    o.confirmJob e w job = job.confirm e w := by
  obtain ⟨r, hr⟩ := Option.isSome_iff_exists.1 h
  simp only [confirmJob, hr]
  exact OrbitalTaskResolver.confirmJob_of_type (lookupHandler_type hr)

theorem resolveTasks_registered {job : Job} (h : (o.resolver job.jobType).isSome) :
    o.resolveTasks job = job.resolve := by
  obtain ⟨r, hr⟩ := Option.isSome_iff_exists.1 h
  simp only [resolveTasks, hr]
  exact OrbitalTaskResolver.resolveTasks_of_type (lookupHandler_type hr)

theorem handle_registered {t : RootTask} (h : (o.handler t.taskType).isSome) : o.handle R e w t = t.handle R e w := by
  obtain ⟨x, hx⟩ := Option.isSome_iff_exists.1 h
  simp only [handle, hx]
  exact OrbitalTaskHandler.handle_of_type (lookupHandler_type hx)

theorem handle_unregistered {t : RootTask} (h : o.handler t.taskType = none) : (o.handle R e w t).2 = w := by
  simp only [handle, h]

/-- The tasks that a step delivers have a handler. -/
def Served (o : Orchestrator) : RootState → Env × Op → Prop := Deliveries fun _ task => (o.handler task.taskType).isSome

/-- **One dispatched step.** It is the plain step; or the job has no handler, and the step cancels it or does nothing;
or the delivered task has no handler, and the world stays as it is. -/
theorem step_cases (o : Orchestrator) (R : RootProcess) (s : RootState) (e : Env) (op : Op) :
    (o.step R s (e, op) = Krypton.step R s (e, op) ∧ o.Served s (e, op)) ∨
      (op.call = none ∧ (o.step R s (e, op) = s ∨ ∃ g i, o.step R s (e, op) = Krypton.step R s (e, .cancel g i))) ∨
      ((o.step R s (e, op)).world = s.world ∧ ¬ o.Served s (e, op)) := by
  cases op with
  | admin call => exact .inl ⟨rfl, fun _ h => by cases h⟩
  | confirmJob g i recorded =>
    cases hacc : s.acceptingJob g i .confirmed with
    | none => exact .inr (.inl ⟨rfl, .inl (by simp only [step, hacc])⟩)
    | some j =>
      by_cases hreg : (o.resolver j.data.jobType).isSome
      · refine .inl ⟨?_, fun _ h => by cases h⟩
        simp only [step, Krypton.step, hacc, confirmJob_registered hreg]
      · rw [Option.not_isSome_iff_eq_none] at hreg
        refine .inr (.inl ⟨rfl, ?_⟩)
        simp only [step, hacc, confirmJob, hreg, ConfirmResult.event]
        -- a lost answer changes nothing
        split
        · cases recorded with
          | false => exact .inl rfl
          | true => exact .inr ⟨g, i, rfl⟩
        · exact .inl rfl
  | resolveTasks g i =>
    cases hacc : s.acceptingJob g i .confirmed with
    | none => exact .inr (.inl ⟨rfl, .inl (by simp only [step, hacc])⟩)
    | some j =>
      by_cases hreg : (o.resolver j.data.jobType).isSome
      · refine .inl ⟨?_, fun _ h => by cases h⟩
        simp only [step, Krypton.step, hacc, resolveTasks_registered hreg]
      · rw [Option.not_isSome_iff_eq_none] at hreg
        refine .inr (.inl ⟨rfl, ?_⟩)
        simp only [step, hacc, resolveTasks, hreg]
        split
        · exact .inr ⟨g, i, rfl⟩
        · exact .inl rfl
  | handle g i task recorded =>
    cases hat : s.groups[g]?.bind fun G => G[i]?.bind fun j => j.tasks[task]? with
    | none => exact .inr (.inl ⟨rfl, .inl (by simp only [step, hat])⟩)
    | some t =>
      have hdel : (Op.handle g i task recorded).delivered s =
          some t.1 := by simp only [Op.delivered, hat, Option.map_some]
      by_cases hreg : (o.handler t.1.taskType).isSome
      · refine .inl ⟨?_, fun task' h => ?_⟩
        · simp only [step, Krypton.step, hat, handle_registered hreg]
        · rw [hdel] at h
          cases h
          exact hreg
      · refine .inr (.inr ⟨?_, fun h => hreg (h t.1 hdel)⟩)
        rw [Option.not_isSome_iff_eq_none] at hreg
        simp only [step, hat, handle_unregistered hreg]
  | cancel g i => exact .inl ⟨rfl, fun _ h => by cases h⟩

end Orchestrator

/-! ## Runs with dispatch -/

section
variable {handlers : OrbitalHandlers} {o : Orchestrator} {R : RootProcess}

theorem newOrchestrator_ok (h : newOrchestrator handlers = .ok o) :
    buildTaskResolverMap handlers.taskResolvers = .ok o.jobHandlers ∧
      buildTaskHandlerMap handlers.taskHandlers = .ok o.taskHandlers := by
  unfold newOrchestrator at h
  cases hj : buildTaskResolverMap handlers.taskResolvers with
  | error err => rw [hj] at h; cases h
  | ok jobHandlers =>
    cases hg : buildGroupHandlerMap handlers.groupHandlers with
    | error err => rw [hj, hg] at h; cases h
    | ok groupHandlers =>
      cases ht : buildTaskHandlerMap handlers.taskHandlers with
      | error err => rw [hj, hg, ht] at h; cases h
      | ok taskHandlers =>
        rw [hj, hg, ht] at h
        cases h
        exact ⟨rfl, rfl⟩

theorem handler_isSome (h : newOrchestrator handlers = .ok o) {t : String} :
    (o.handler t).isSome ↔ ∃ x, some x ∈ handlers.taskHandlers ∧ x.taskType = t := by
  rw [Option.isSome_iff_exists]
  exact exists_congr fun x => lookup_iff (newOrchestrator_ok h).2

theorem resolver_isSome (h : newOrchestrator handlers = .ok o) {t : String} :
    (o.resolver t).isSome ↔ ∃ r, some r ∈ handlers.taskResolvers ∧ r.jobType = t := by
  rw [Option.isSome_iff_exists]
  exact exists_congr fun x => lookup_iff (newOrchestrator_ok h).1

/-- The tasks of a job have its type. -/
theorem resolve_taskType {job : Job} {tasks : List RootTask} (h : job.resolve = .resolved tasks) :
    ∀ t ∈ tasks, t.taskType = job.jobType := by
  cases job with
  | announce key =>
    cases h
    intro t ht
    rw [List.mem_singleton.1 ht]
    rfl
  | layer action ids =>
    simp only [Job.resolve] at h
    split at h
    · cases h
    · cases h
      intro t ht
      obtain ⟨kid, -, rfl⟩ := List.mem_map.1 ht
      rfl

/-- Every job that can be resolved has a handler for its tasks. -/
def Orchestrator.Covers (o : Orchestrator) : Prop := ∀ t, (o.resolver t).isSome → (o.handler t).isSome

/-- Tasks come from a resolver alone, so that in a covering orchestrator every task has a handler. -/
theorem Orchestrator.step_tasks (hcov : o.Covers) {s : RootState} {op : Env × Op}
    (hs : AllJobs (fun _ => True) (fun t => (o.handler t.taskType).isSome) s.groups) :
    AllJobs (fun _ => True) (fun t => (o.handler t.taskType).isSome) (o.step R s op).groups := by
  have hrecord : ∀ g i recorded (oev : Option (JobEvent RootTask)), (∀ tasks, oev ≠ some (.resolved tasks)) →
      AllJobs (fun _ => True) (fun t => (o.handler t.taskType).isSome) (s.record g i recorded oev) := by
    intro g i recorded oev hne
    unfold RootState.record
    split
    · exact allJobs_applyAt hs fun tasks hev => absurd (congrArg some hev) (hne tasks)
    · exact hs
  obtain ⟨e, op⟩ := op
  cases op with
  | admin call =>
    intro G hG j hj
    rcases List.mem_append.1 hG with hG | hG
    · exact hs G hG j hj
    · obtain ⟨jobs, -, rfl⟩ := List.mem_map.1 hG
      obtain ⟨job, -, rfl⟩ := List.mem_map.1 hj
      exact ⟨trivial, fun _ h => absurd h List.not_mem_nil⟩
  | confirmJob g i recorded =>
    dsimp only [Orchestrator.step]
    split
    · exact hs
    · rename_i j hacc
      split
      · refine hrecord g i recorded _ fun tasks h => ?_
        cases hr : (o.confirmJob e s.world j.data).1 <;> rw [hr] at h <;> cases h
      · exact hs
  | resolveTasks g i =>
    dsimp only [Orchestrator.step]
    split
    · exact hs
    · rename_i j hacc
      split
      · refine allJobs_applyAt hs fun tasks hev _ _ _ _ t ht => ?_
        unfold Orchestrator.resolveTasks at hev
        split at hev
        · cases hev
        · rename_i r hr
          rw [OrbitalTaskResolver.resolveTasks_of_type (lookupHandler_type hr)] at hev
          rw [resolve_taskType hev t ht]
          exact hcov _ (Option.isSome_of_eq_some hr)
      · exact hs
  | handle g i task recorded =>
    dsimp only [Orchestrator.step]
    split
    · exact hs
    · rename_i t st hat
      refine hrecord g i recorded _ fun tasks h => ?_
      cases hr : (o.handle R e s.world t).1 <;> rw [hr] at h <;> cases h
  | cancel g i => exact allJobs_applyAt hs fun tasks hev => by cases hev

/-- What a step delivers is a task of some job. -/
theorem Orchestrator.served_of_tasks {s : RootState} {op : Env × Op}
    (hs : AllJobs (fun _ => True) (fun t => (o.handler t.taskType).isSome) s.groups) : o.Served s op := by
  obtain ⟨e, op⟩ := op
  intro task htask
  cases op with
  | handle g i n recorded =>
    obtain ⟨t, ht, rfl⟩ := Option.map_eq_some_iff.1 htask
    obtain ⟨G, hG, ht⟩ := Option.bind_eq_some_iff.1 ht
    obtain ⟨j, hj, ht⟩ := Option.bind_eq_some_iff.1 ht
    exact (hs G (List.mem_of_getElem? hG) j (List.mem_of_getElem? hj)).2 t (List.mem_of_getElem? ht)
  | _ => cases htask

/-- The admin call of a step, with its surroundings. -/
def callOf (op : Env × Op) : Option (Env × AdminCall) := op.2.call.map (op.1, ·)

/-- **Dispatch refines the plain system.** If every registered resolver has a task handler of its type, then every run
with dispatch leads to the same state as some run of the plain system with the same admin calls: the jobs without a
handler are the ones that get canceled. -/
theorem dispatch_refines (R : RootProcess) (hnew : newOrchestrator handlers = .ok o)
    (hcov : ∀ r, some r ∈ handlers.taskResolvers → ∃ h, some h ∈ handlers.taskHandlers ∧ h.taskType = r.jobType)
    (ops : List (Env × Op)) :
    ∃ ops', run (step R) .init ops' = run (o.step R) .init ops ∧ ops'.filterMap callOf = ops.filterMap callOf := by
  have hcovers : o.Covers := by
    intro t ht
    obtain ⟨r, hr, rfl⟩ := (resolver_isSome hnew).1 ht
    exact (handler_isSome hnew).2 (hcov r hr)
  refine run_expand (I := fun s => AllJobs (fun _ => True) (fun t => (o.handler t.taskType).isSome) s.groups) callOf
    (fun s op hs => Orchestrator.step_tasks hcovers hs) (fun s op hs => ?_) (fun G hG => by cases hG) ops
  obtain ⟨e, op⟩ := op
  rcases o.step_cases R s e op with ⟨h, -⟩ | ⟨hcall, h⟩ | ⟨-, h⟩
  · exact ⟨[(e, op)], h.symm, rfl⟩
  · have hnone : [(e, op)].filterMap callOf = [] := by simp [callOf, hcall]
    rw [hnone]
    rcases h with h | ⟨g, i, h⟩
    · exact ⟨[], h.symm, rfl⟩
    · exact ⟨[(e, .cancel g i)], h.symm, rfl⟩
  · exact absurd (Orchestrator.served_of_tasks hs) h

end

/-! ## The machine of a key -/

/-- The lifecycle state of a key and how far the work on it is. -/
abbrev KeyState : Type := KeyLifeCycleState × KeyProcessingStatus

def Key.keyState (k : Key) : KeyState := (k.lifeCycleState, k.status)

/-- The moves of a key, where `A` are the actions whose tasks have a handler and `re` says whether a key that has left
pre-activation may be announced again. -/
inductive KeyStep (A : ActionType → Prop) (re : Prop) : KeyState → KeyState → Prop where
  /-- An announce job is confirmed; it takes any pending key. -/
  | confirmed {lc : KeyLifeCycleState} : KeyStep A re (lc, .pending) (lc, .inProgress)
  /-- An announce task ends. -/
  | announced {st : KeyProcessingStatus} (hst : st = .failed ∨ st = .completed) :
      KeyStep A re (.preActivation, .inProgress) (.preActivation, st)
  /-- The task of an action ends. -/
  | handled {a : ActionType} (ha : A a) {st : KeyProcessingStatus} (hst : st = .failed ∨ st = .completed) :
      KeyStep A re (a.toState, .pending) (a.toState, st)
  /-- An action takes the key. -/
  | called {a : ActionType} {f : KeyFilter} (hf : f ∈ keyFilters a) {lc : KeyLifeCycleState} {st : KeyProcessingStatus}
      (hlc : f.lifeCycleState = some lc) (hst : st ∈ f.status) : KeyStep A re (lc, st) (a.toState, .pending)
  | announcedAgain {lc : KeyLifeCycleState} {st : KeyProcessingStatus} (h : lc = .preActivation ∨ re) :
      KeyStep A re (lc, st) (.preActivation, .pending)

/-- Every stored key is new and waits to be announced, or is an old one that has made at most one move. -/
def KeysMove (A : ActionType → Prop) (re : Prop) (db db' : DB) : Prop :=
  ∀ k' ∈ db'.keys.rows,
    (∃ k ∈ db.keys.rows, k.id = k'.id ∧ (k'.keyState = k.keyState ∨ KeyStep A re k.keyState k'.keyState)) ∨
      ((∀ k ∈ db.keys.rows, k.id ≠ k'.id) ∧ k'.keyState = (.preActivation, .pending))

section
variable {R : RootProcess} {e : Env} {w w' : World} {db db' : DB} {A : ActionType → Prop} {re : Prop}

theorem keysMove_of_keys (h : db'.keys = db.keys) : KeysMove A re db db' := by
  intro k hk
  rw [h] at hk
  exact .inl ⟨k, hk, rfl, .inl rfl⟩

/-- Marking keys is a move of each of them. -/
theorem keysMove_markKeys {ids : List String} {lc : KeyLifeCycleState} {st : KeyProcessingStatus} {now : Int}
    (h : ∀ k ∈ db.keys.rows, k.id ∈ ids → KeyStep A re k.keyState (lc, st)) :
    KeysMove A re db (db.markKeys ids lc st now) := by
  intro k' hk'
  obtain ⟨k, hk, rfl⟩ := DB.mem_markKeys.1 hk'
  refine .inl ⟨k, hk, DB.markKey_id.symm, ?_⟩
  by_cases hid : k.id ∈ ids
  · rw [DB.markKey_of_mem hid]
    exact .inr (h k hk hid)
  · rw [DB.markKey_of_notMem hid]
    exact .inl rfl

theorem keysMove_markKey {k : Key} (hk : k ∈ db.keys.rows) {lc : KeyLifeCycleState}
    {st : KeyProcessingStatus} {now : Int}
    (h : KeyStep A re k.keyState (lc, st)) : KeysMove A re db (db.markKeys [k.id] lc st now) := by
  refine keysMove_markKeys fun k' hk' hid => ?_
  rw [DB.key_eq_of_id hk' hk (List.mem_singleton.1 hid)]
  exact h

theorem keysMove_inserted {key row : Key} (h : DB.KeyInserted db key row db')
    (hkey : key.keyState = (.preActivation, .pending)) : KeysMove A re db db' := by
  intro k' hk'
  rcases h.mem.1 hk' with hk' | rfl
  · exact .inl ⟨k', hk', rfl, .inl rfl⟩
  · refine .inr ⟨h.fresh, ?_⟩
    rw [h.row_eq]
    exact hkey

theorem AnnounceKeyEffect.keysMove {req : AnnounceKeyRequest} {r : Except Err Key} {gs : List JobGroup}
    (h : AnnounceKeyEffect R e req w (r, gs, w')) (hre : Reannounces R w e (.announceKey req) → re) :
    KeysMove A re w.db w'.db := by
  cases h with
  | refused => exact keysMove_of_keys rfl
  | accepted _ _ _ hu =>
    cases hu with
    | inserted hi => exact keysMove_inserted hi rfl
    | @adopted k hk hsame =>
      refine keysMove_markKey hk (.announcedAgain ?_)
      by_cases hlc : k.lifeCycleState = .preActivation
      · exact .inl hlc
      · exact .inr (hre ⟨_, rfl, k, hk, hsame, hlc⟩)

theorem ActionEffect.keysMove {action : ActionType} {req : KeyRequest} {r : Except Err Unit} {gs : List JobGroup}
    (h : ActionEffect e action req w (r, gs, w')) : KeysMove A re w.db w'.db := by
  cases h with
  | refused => exact keysMove_of_keys rfl
  | accepted _ hsel _ =>
    refine keysMove_markKeys fun k hk hid => ?_
    obtain ⟨layer, hl, k₀, hk₀, hid⟩ := mem_idsOf.1 hid
    have hmem := (mem_toMove.1 hk₀).1
    obtain rfl : k₀ = k := DB.key_eq_of_id (hsel.stored layer hl k₀ hmem) hk hid
    obtain ⟨f, hf, hlc, hst⟩ := hsel.takes layer hl k₀ hmem
    -- the filters of the admin calls name statuses
    have hsome : ∀ f ∈ keyFilters action, f.status ≠ [] := by cases action <;> decide
    exact .called hf hlc (hst.resolve_left (hsome f hf))

theorem AdminCall.keysMove (call : AdminCall) (hre : Reannounces R w e call → re) :
    KeysMove A re w.db (call.run R e w).2.db := by
  cases call with
  | createTenant name labels => exact keysMove_of_keys createTenant_effect.keys
  | announceKey req => exact AnnounceKeyEffect.keysMove announceKey_effect hre
  | keyAction action req => exact ActionEffect.keysMove keyAction_effect
  | createProvider req => exact keysMove_of_keys (CreateProviderEffect.keys createProvider_effect)
  | rotateAuth t i a => exact keysMove_of_keys (congrArg DB.keys (RotateAuthEffect.db rotateAuth_effect))
  | rotateProviderKey t i key => exact keysMove_of_keys (RotateProviderKeyEffect.keys rotateProviderKey_effect)
  | removeProvider t i => exact keysMove_of_keys (congrArg DB.keys (RemoveProviderEffect.db removeProvider_effect))

theorem ConfirmEffect.keysMove {key : Key} {result : ConfirmResult} (h : ConfirmEffect e key w result w') :
    KeysMove A re w.db w'.db := by
  cases h with
  | @started k hk hst =>
    refine keysMove_markKey (DB.getKeyByID_ok hk).1 ?_
    rw [Key.keyState, hst]
    exact .confirmed
  | _ => exact keysMove_of_keys rfl

theorem AnnounceEffect.keysMove {key : Key} {response : Response} (h : AnnounceEffect R e key w response w') :
    KeysMove A re w.db w'.db := by
  have hends : ∀ {k : Key} (st : KeyProcessingStatus), Announcing w.db key k → st = .failed ∨ st = .completed →
      KeysMove A re w.db (w.db.markKeys [k.id] k.lifeCycleState st e.now) := by
    intro k st hk hst
    refine keysMove_markKey (DB.getKeyByID_ok hk.found).1 ?_
    rw [Key.keyState, hk.state, hk.status]
    exact .announced hst
  cases h with
  | failed hk => exact hends .failed hk (.inl rfl)
  | completed hk _ _ => exact hends .completed hk (.inr rfl)
  | _ => exact keysMove_of_keys rfl

theorem TaskEffect.keysMove {a : ActionType} {kid : KeyIdentifier} {response : Response} (ha : A a)
    (h : TaskEffect R e a.toState kid w response w') : KeysMove A re w.db w'.db := by
  rcases h.keys with ⟨hkeys, -⟩ | ⟨key, st, hw, hkeys, hst⟩
  · exact keysMove_of_keys hkeys
  · have hmark : KeysMove A re w.db (w.db.markKeys [key.id] a.toState st e.now) := by
      refine keysMove_markKey (DB.getKeyByID_ok hw.found).1 ?_
      rw [Key.keyState, hw.state, hw.status]
      exact .handled ha (hst.imp And.left And.left)
    unfold KeysMove at hmark ⊢
    rwa [hkeys]

end

/-- The tasks of the action have a handler. -/
def Orchestrator.Handles (o : Orchestrator) (a : ActionType) : Prop := (o.handler a.typeName).isSome

section
variable {R : RootProcess} {o : Orchestrator} {re : Prop}

/-- No key disappears. -/
theorem Orchestrator.step_keepsKey (o : Orchestrator) {i : KeyIdent} {s : RootState} (op : Env × Op)
    (hi : s.world.db.HasKey i) : (o.step R s op).world.db.HasKey i := by
  obtain ⟨e, op⟩ := op
  rcases o.step_cases R s e op with ⟨h, -⟩ | ⟨-, h | ⟨g, i, h⟩⟩ | ⟨h, -⟩ <;> rw [h]
  · exact step_keeps _ hi
  · exact hi
  · exact hi
  · exact hi

theorem Orchestrator.run_keepsKey {s : RootState} {k : Key} (hk : k ∈ s.world.db.keys.rows) (ops : List (Env × Op)) :
    ∃ k' ∈ (run (o.step R) s ops).world.db.keys.rows, k'.id = k.id := by
  obtain ⟨k', hk', hid⟩ := run_inv_always (I := fun s : RootState => s.world.db.HasKey k.ident)
    (fun s op hi => o.step_keepsKey (R := R) op hi) ⟨k, hk, rfl⟩ ops
  exact ⟨k', hk', congrArg KeyIdent.id hid⟩

/-- **One step, one move.** -/
theorem Orchestrator.step_keysMove (o : Orchestrator) (s : RootState) (op : Env × Op)
    (hre : Calls (fun w e call => Reannounces R w e call → re) s op) :
    KeysMove o.Handles re s.world.db (o.step R s op).world.db := by
  obtain ⟨e, op⟩ := op
  rcases o.step_cases R s e op with ⟨h, hserved⟩ | ⟨-, h | ⟨g, i, h⟩⟩ | ⟨h, -⟩ <;> rw [h]
  · exact step_world_rel_delivered (P := fun _ w w' => KeysMove o.Handles re w.db w'.db)
      (fun _ _ => keysMove_of_keys rfl) (fun w e call hre => call.keysMove hre)
      (fun w e key result w' heff => heff.keysMove) (fun w e key response w' heff => heff.keysMove)
      (fun w e a kid response w' ha heff => TaskEffect.keysMove ha heff) s (e, op) hre hserved
  · exact keysMove_of_keys rfl
  · exact keysMove_of_keys rfl
  · exact keysMove_of_keys rfl

/-- **A run is a path of moves**, from the state a key had, or from pre-activation if it is new. -/
theorem Orchestrator.run_keySteps {s : RootState} {ops : List (Env × Op)}
    (hre : Along (o.step R) (Calls fun w e call => Reannounces R w e call → re) s ops) :
    ∀ k' ∈ (run (o.step R) s ops).world.db.keys.rows,
      (∃ k ∈ s.world.db.keys.rows, k.id = k'.id ∧
        Relation.ReflTransGen (KeyStep o.Handles re) k.keyState k'.keyState) ∨
      ((∀ k ∈ s.world.db.keys.rows, k.id ≠ k'.id) ∧
        Relation.ReflTransGen (KeyStep o.Handles re) (.preActivation, .pending) k'.keyState) := by
  induction ops generalizing s with
  | nil => exact fun k hk => .inl ⟨k, hk, rfl, .refl⟩
  | cons op ops ih =>
    intro k' hk'
    have hmove := o.step_keysMove s op hre.1
    rcases ih hre.2 k' hk' with ⟨k₁, hk₁, hid₁, hpath⟩ | ⟨hnew, hpath⟩
    · rcases hmove k₁ hk₁ with ⟨k, hk, hid, hstate | hstep⟩ | ⟨hfresh, hstate⟩
      · rw [hstate] at hpath
        exact .inl ⟨k, hk, hid.trans hid₁, hpath⟩
      · exact .inl ⟨k, hk, hid.trans hid₁, hpath.head hstep⟩
      · rw [hstate] at hpath
        exact .inr ⟨fun k hk h => hfresh k hk (h.trans hid₁.symm), hpath⟩
    · -- a key that was there before the step is there after it
      refine .inr ⟨fun k hk h => ?_, hpath⟩
      obtain ⟨k₁, hk₁, hid₁⟩ := Orchestrator.run_keepsKey (o := o) (R := R) hk [op]
      exact hnew k₁ hk₁ (hid₁.trans h)

end

/-! ## Operations without a handler -/

/-- What every move keeps, every path keeps. -/
theorem keyState_inv {A : ActionType → Prop} {re : Prop} {S : KeyState → Prop}
    (hS : ∀ ks ks', S ks → KeyStep A re ks ks' → S ks') {ks ks' : KeyState} (h : S ks)
    (hpath : Relation.ReflTransGen (KeyStep A re) ks ks') : S ks' := by
  induction hpath with
  | refl => exact h
  | tail _ hstep ih => exact hS _ _ ih hstep

/-- The states of a key in which the action has not ended. -/
def NotEnded (a : ActionType) (ks : KeyState) : Prop := ks.1 = a.toState → ks.2 = .pending ∨ ks.2 = .inProgress

theorem toState_inj {a b : ActionType} (h : a.toState = b.toState) : a = b := by
  cases a <;> cases b <;> first | rfl | cases h

/-- Without a handler for its tasks no move ends the action. -/
theorem NotEnded.keyStep {A : ActionType → Prop} {re : Prop} {a : ActionType} (ha : ¬ A a) {ks ks' : KeyState}
    (h : NotEnded a ks) (hstep : KeyStep A re ks ks') : NotEnded a ks' := by
  have hpre : KeyLifeCycleState.preActivation ≠ a.toState := by cases a <;> decide
  intro hlc
  cases hstep with
  | confirmed => exact .inr rfl
  | announced hst => exact absurd hlc hpre
  | @handled b hb st hst =>
    have hba : b = a := toState_inj hlc
    exact absurd (hba ▸ hb) ha
  | called hf hlc' hst => exact .inl rfl
  | announcedAgain h' => exact absurd hlc hpre

/-- Suspended and not ended, or deactivated. -/
def OutOfUse (ks : KeyState) : Prop := ks.1 = .suspended ∧ (ks.2 = .pending ∨ ks.2 = .inProgress) ∨ ks.1 = .deactivated

/-- An activation takes suspended keys only once they are completed, and deactivated keys never. -/
theorem OutOfUse.keyStep {A : ActionType → Prop} (ha : ¬ A .suspend) {ks ks' : KeyState} (h : OutOfUse ks)
    (hstep : KeyStep A False ks ks') : OutOfUse ks' := by
  cases hstep with
  | confirmed => exact h.imp (fun h => ⟨h.1, .inr rfl⟩) id
  | announced hst => rcases h with ⟨h, -⟩ | h <;> cases h
  | @handled b hb st hst =>
    cases b with
    | activate => rcases h with ⟨h, -⟩ | h <;> cases h
    | suspend => exact absurd hb ha
    | deactivate => exact .inr rfl
  | @called a f hf lc st hlc hst =>
    cases a with
    | suspend => exact .inl ⟨rfl, .inl rfl⟩
    | deactivate => exact .inr rfl
    | activate =>
      have htaken : ∀ f ∈ keyFilters .activate, f.lifeCycleState ≠ some .deactivated ∧
          (f.lifeCycleState = some .suspended → .pending ∉ f.status ∧ .inProgress ∉ f.status) := by decide
      obtain ⟨hdeact, hsusp⟩ := htaken f hf
      rcases h with ⟨rfl, rfl | rfl⟩ | rfl
      · exact absurd hst (hsusp hlc).1
      · exact absurd hst (hsusp hlc).2
      · exact absurd hlc hdeact
  | announcedAgain h' =>
    rcases h' with rfl | h'
    · rcases h with ⟨h, -⟩ | h <;> cases h
    · exact h'.elim

section
variable {handlers : OrbitalHandlers} {o : Orchestrator}

theorem not_handles (hnew : newOrchestrator handlers = .ok o) {a : ActionType}
    (hn : ∀ h, some h ∈ handlers.taskHandlers → h.taskType ≠ a.typeName) : ¬ o.Handles a := by
  intro h
  obtain ⟨x, hx, ht⟩ := (handler_isSome hnew).1 h
  exact hn x hx ht

theorem notEnded_run (R : RootProcess) {a : ActionType} (ha : ¬ o.Handles a) (ops : List (Env × Op)) :
    ∀ k ∈ (run (o.step R) .init ops).world.db.keys.rows, NotEnded a k.keyState := by
  intro k hk
  have hany : Along (o.step R) (Calls fun w e call => Reannounces R w e call → True) .init ops :=
    along_always (fun _ _ _ _ _ => trivial) _ _
  rcases Orchestrator.run_keySteps hany k hk with ⟨k₀, hk₀, -⟩ | ⟨-, hpath⟩
  · cases hk₀
  · exact keyState_inv (fun _ _ h hstep => h.keyStep ha hstep) (fun _ => .inl rfl) hpath

/-- **Never finished.** If no task handler was registered for an action, then in every run a key that the action has
taken stays pending or in progress for as long as it is in the state of the action. -/
theorem unregistered_unfinished (R : RootProcess) (hnew : newOrchestrator handlers = .ok o) (a : ActionType)
    (hn : ∀ h, some h ∈ handlers.taskHandlers → h.taskType ≠ a.typeName) (ops : List (Env × Op)) :
    ∀ k ∈ (run (o.step R) .init ops).world.db.keys.rows, k.lifeCycleState = a.toState →
      k.status = .pending ∨ k.status = .inProgress :=
  notEnded_run R (not_handles hnew hn) ops

/-- **Suspended for good.** If no task handler was registered for suspending, then a key that is suspended at some time
of a run without an announce of a key that has left pre-activation is never active again. -/
theorem suspended_stays_out (R : RootProcess) (hnew : newOrchestrator handlers = .ok o)
    (hn : ∀ h, some h ∈ handlers.taskHandlers → h.taskType ≠ ActionType.suspend.typeName) {ops₁ ops₂ : List (Env × Op)}
    (hre : Along (o.step R) (Calls fun w e call => ¬ Reannounces R w e call) .init (ops₁ ++ ops₂)) {k : Key}
    (hk : k ∈ (run (o.step R) .init ops₁).world.db.keys.rows) (hlc : k.lifeCycleState = .suspended) :
    ∃ k' ∈ (run (o.step R) .init (ops₁ ++ ops₂)).world.db.keys.rows, k'.id = k.id ∧
      (k'.lifeCycleState = .suspended ∨ k'.lifeCycleState = .deactivated) := by
  rw [along_append] at hre
  rw [run_append]
  have ha := not_handles hnew hn
  have hout : OutOfUse k.keyState := .inl ⟨hlc, notEnded_run R ha ops₁ k hk hlc⟩
  obtain ⟨k', hk', hid⟩ := Orchestrator.run_keepsKey (o := o) (R := R) hk ops₂
  refine ⟨k', hk', hid, ?_⟩
  rcases @Orchestrator.run_keySteps R o False _ _ hre.2 k' hk' with ⟨k₁, hk₁, hid₁, hpath⟩ | ⟨hnew, -⟩
  · obtain rfl : k₁ = k := DB.key_eq_of_id hk₁ hk (hid₁.trans hid)
    have hout' : OutOfUse k'.keyState := keyState_inv (fun _ _ h hstep => h.keyStep ha hstep) hout hpath
    exact hout'.imp And.left id
  · exact absurd hid.symm (hnew k hk)

end

/-! ## The root's own wiring -/

/-- The handlers that the root registers. -/
def rootHandlers : OrbitalHandlers where
  taskResolvers := [some .announce, some (.layer .activate)]
  groupHandlers := [some ⟨announceKeyType⟩, some ⟨ActionType.activate.typeName⟩]
  taskHandlers := [some .announce, some (.task .activate)]

def rootOrchestrator : Orchestrator :=
  ⟨[.announce, .layer .activate], [⟨announceKeyType⟩, ⟨ActionType.activate.typeName⟩], [.announce, .task .activate]⟩

theorem rootOrchestrator_new : newOrchestrator rootHandlers = .ok rootOrchestrator := by rfl

theorem rootHandlers_cover : ∀ r, some r ∈ rootHandlers.taskResolvers →
    ∃ h, some h ∈ rootHandlers.taskHandlers ∧ h.taskType = r.jobType := by
  intro r hr
  simp only [rootHandlers, List.mem_cons, Option.some.injEq, List.not_mem_nil, or_false] at hr
  rcases hr with rfl | rfl
  · exact ⟨.announce, by simp [rootHandlers], rfl⟩
  · exact ⟨.task .activate, by simp [rootHandlers], rfl⟩

theorem rootHandlers_without {a : ActionType} (ha : a ≠ .activate) :
    ∀ h, some h ∈ rootHandlers.taskHandlers → h.taskType ≠ a.typeName := by
  intro h hh
  simp only [rootHandlers, List.mem_cons, Option.some.injEq, List.not_mem_nil, or_false] at hh
  rcases hh with rfl | rfl
  · exact (typeName_ne_announce a).symm
  · intro h
    exact ha (typeName_inj (a := .activate) h).symm

/-- The root key is announced, activated and to be suspended, and orbital runs all the jobs. -/
def demoSuspendJobs : List (Env × Op) := demoActivated ++ [demoAction .suspend 1 false] ++ demoRunJob 2 0

theorem demo_dispatch_refines :
    ∃ ops', run (step demo) .init ops' = run (rootOrchestrator.step demo) .init demoSuspendJobs ∧
      ops'.filterMap callOf = demoSuspendJobs.filterMap callOf :=
  dispatch_refines demo rootOrchestrator_new rootHandlers_cover demoSuspendJobs

theorem demo_unregistered_unfinished :
    (∃ k ∈ (run (rootOrchestrator.step demo) .init demoSuspendJobs).world.db.keys.rows, k.lifeCycleState = .suspended) ∧
      ∀ k ∈ (run (rootOrchestrator.step demo) .init demoSuspendJobs).world.db.keys.rows, k.lifeCycleState = .suspended →
        k.status = .pending ∨ k.status = .inProgress :=
  ⟨by decide +kernel, unregistered_unfinished demo rootOrchestrator_new .suspend (rootHandlers_without (by decide)) _⟩

theorem demo_suspended_stays_out :
    ∃ k ∈ (run (rootOrchestrator.step demo) .init demoSuspendJobs).world.db.keys.rows, k.lifeCycleState = .suspended ∧
      ∃ k' ∈ (run (rootOrchestrator.step demo) .init
        (demoSuspendJobs ++ [demoAction .activate 1 false])).world.db.keys.rows,
        k'.id = k.id ∧ (k'.lifeCycleState = .suspended ∨ k'.lifeCycleState = .deactivated) := by
  obtain ⟨k, hk, hlc⟩ : ∃ k ∈ (run (rootOrchestrator.step demo) .init demoSuspendJobs).world.db.keys.rows,
      k.lifeCycleState = .suspended := by decide +kernel
  exact ⟨k, hk, hlc, suspended_stays_out demo rootOrchestrator_new (rootHandlers_without (by decide))
    (by decide +kernel) hk hlc⟩

end Krypton
