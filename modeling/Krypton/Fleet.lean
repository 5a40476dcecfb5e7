import Krypton.Agent
import Krypton.Progress

/-!
# The root and its agents

The root together with the agents it sends its keys to. A handler of the root runs for a while: it reads the committed
row of its key, sends its requests, and commits only if no other transaction has changed that row (root transactions are
serializable). A request is delivered at any time after it was sent, also when the handler has given up on it, or never.

* `fleetStep` — the system; a handler is its requests (`send`), and its end (`finish`) with the answers it got;
* `agents_agree` — when every key request is delivered while the root still has the key in the lifecycle state that the
  request carries, a completed key is in the same lifecycle state on its agent.
-/

namespace Krypton

open Lib

/-! ## The system -/

/-- The processes: the root, the key managers of the agents, and the node behind each connection. -/
structure Fleet where
  root : RootProcess
  managers : String → Option Manager
  dial : String → Option String

def Fleet.cluster (F : Fleet) : Cluster :=
  ⟨F.root.aead, F.root.process, fun n => if n = F.root.cfg.name then F.root.manager else F.managers n, F.dial⟩

/-- A request a handler has sent. -/
structure Flight where
  agent : String
  request : AgentRequest
  /-- The key of the handler. -/
  keyID : String
  /-- The root's row of the key is still the one the handler has read. -/
  fresh : Bool
  /-- The agent's answer, once the request is delivered. -/
  answer : Option RpcResult

/-- The lifecycle state a key request carries. -/
def AgentRequest.lifeCycleState : AgentRequest → Option KeyLifeCycleState
  | .upsertKey req => some req.lifecycleState
  | _ => none

structure FleetState where
  root : RootState
  agents : String → DB
  flights : List Flight

def FleetState.init : FleetState := ⟨.init, fun _ => .empty .agent, []⟩

/-- What the processes keep, as a key manager sees it. -/
def FleetState.cluster (F : Fleet) (s : FleetState) : ClusterState where
  rootDB := s.root.world.db
  db n := if n = F.root.cfg.name then s.root.world.db else s.agents n
  vault := s.root.world.vault
  specs := s.root.world.specs

/-- The request of a handler of the task at a site: the agent, the request, and the identifier of the handler's key. -/
def RootTask.request (e : Env) (w : World) : RootTask → RpcSite → Option (String × AgentRequest × String)
  | .announce key, .upsertTenant =>
    match w.db.getTenant key.tenantID with
    | .ok t => some (key.managedBy, .upsertTenant t.upsertRequest, (uuidIn key.id).getD "")
    | .error _ => none
  | .announce key, .upsertKey =>
    match Validator.validateTransition key.tenantID key.id .preActivation w.db with
    | .ok () => some (key.managedBy, .upsertKey key.upsertRequest, (uuidIn key.id).getD "")
    | .error _ => none
  | .announce _, .upsertKeyVersion => none
  | .action _ _, .upsertTenant => none
  | .action a kid, .upsertKey =>
    match w.db.getKeyByID kid.id kid.tenantID with
    | .ok key =>
      if key.lifeCycleState = a.toState ∧ key.status = .pending then
        some (key.managedBy, .upsertKey key.upsertRequest, key.id)
      else none
    | .error _ => none
  | .action a kid, .upsertKeyVersion =>
    match w.db.getKeyByID kid.id kid.tenantID with
    | .ok key =>
      if key.lifeCycleState = a.toState ∧ key.status = .pending then
        match (resolveKeyVersions e key w.session).1 with
        | .ok (kv, _) => some (key.managedBy, .upsertKeyVersion kv.upsertRequest, key.id)
        | .error _ => none
      else none
    | .error _ => none

/-- What a handler sends at a site: its request, if the key is another node's and there is a connection to that node. -/
def RootTask.sends (R : RootProcess) (e : Env) (w : World) (t : RootTask) (site : RpcSite) :
    Option (String × AgentRequest × String) :=
  (t.request e w site).filter fun r => r.1 ≠ R.cfg.name && R.registry.any fun names => names.contains r.1

/-- The stored key with an identifier. -/
def DB.rowOf (db : DB) (id : String) : Option Key := db.keys.rows.find? fun k => k.id == id

/-- The root takes a step; handlers whose row it changes will not be able to commit. -/
def FleetState.refresh (s : FleetState) (root : RootState) : FleetState where
  root := root
  agents := s.agents
  flights := s.flights.map fun f =>
    { f with fresh := f.fresh && decide (root.world.db.rowOf f.keyID = s.root.world.db.rowOf f.keyID) }

/-- No answer in time. -/
def unavailable : RpcResult := .error false true

/-- The answer that a handler of the task which ends now has got at a site, to its `n`-th request. -/
def FleetState.answer (F : Fleet) (s : FleetState) (e : Env) (t : RootTask) (site : RpcSite) (n : Nat) : RpcResult :=
  match s.flights[n]? with
  | none => unavailable
  | some f =>
    if f.fresh ∧ t.sends F.root e s.root.world site = some (f.agent, f.request, f.keyID) then f.answer.getD unavailable
    else unavailable

inductive FleetOp where
  /-- A step of the root other than the delivery of a task. -/
  | root (op : Op)
  /-- A handler of a task sends its request. -/
  | send (g i task : Nat) (site : RpcSite)
  /-- A request arrives at its agent. -/
  | deliver (n : Nat)
  /-- A request gets lost, or nobody waits for its answer any more. -/
  | lose (n : Nat)
  /-- A handler ends, with the answers to the requests at these places. -/
  | finish (g i task : Nat) (recorded : Bool) (requests : RpcSite → Nat)

/-- The task at a place. -/
def RootState.taskAt (s : RootState) (g i task : Nat) : Option RootTask :=
  (s.groups[g]?.bind fun G => G[i]?.bind fun j => j.tasks[task]?).map Prod.fst

/-- The `n`-th request was answered, and its agent is left with `w`. -/
def FleetState.answered (s : FleetState) (n : Nat) (f : Flight) (answer : RpcResult) (w : World) : FleetState where
  root := { s.root with world.vault := w.vault }
  agents := Function.update s.agents f.agent w.db
  flights := s.flights.set n { f with answer := some answer }

/-- The agent's database, the vaults, and no provider specs. -/
def FleetState.agentWorld (s : FleetState) (name : String) : World := ⟨s.agents name, s.root.world.vault, fun _ => none⟩

def fleetStep (F : Fleet) (s : FleetState) : Env × FleetOp → FleetState
  | (_, .root (.handle _ _ _ _)) => s
  | (e, .root op) => s.refresh (step F.root s.root (e, op))
  | (e, .send g i task site) =>
    match (s.root.taskAt g i task).bind fun t => t.sends F.root e s.root.world site with
    | none => s
    | some (agent, request, keyID) => { s with flights := s.flights ++ [⟨agent, request, keyID, true, none⟩] }
  | (e, .deliver n) =>
    match s.flights[n]? with
    | some f =>
      if f.answer = none then
        let (answer, w) := agentHandle e F.cluster (s.cluster F) F.root.fuel f.agent f.request (s.agentWorld f.agent)
        s.answered n f answer w
      else s
    | none => s
  | (_, .lose n) => { s with flights := s.flights.eraseIdx n }
  | (e, .finish g i task recorded requests) =>
    match s.root.taskAt g i task with
    | none => s
    | some t =>
      let e' := { e with rpc := fun site => s.answer F e t site (requests site) }
      s.refresh (step F.root s.root (e', .handle g i task recorded))

/-- The request that arrives with a step. -/
def FleetState.arriving (s : FleetState) : FleetOp → Option Flight
  | .deliver n => s.flights[n]?.filter fun f => f.answer.isNone
  | _ => none

/-- Key requests are delivered only while the root has the key in the lifecycle state they carry. -/
def Timely (s : FleetState) (op : Env × FleetOp) : Prop :=
  ∀ f ∈ s.arriving op.2, ∀ lc ∈ f.request.lifeCycleState, ∀ k ∈ s.root.world.db.keys.rows, k.id = f.keyID →
    k.lifeCycleState = lc

instance (s : FleetState) (op : Env × FleetOp) : Decidable (Timely s op) := inferInstanceAs (Decidable (∀ _ ∈ _, _))

/-- The agent has the key, in the lifecycle state the root has it in. -/
def HoldsKey (db : DB) (k : Key) : Prop :=
  ∃ a ∈ db.keys.rows, a.id = k.id ∧ a.tenantID = k.tenantID ∧ a.lifeCycleState = k.lifeCycleState

instance (db : DB) (k : Key) : Decidable (HoldsKey db k) := inferInstanceAs (Decidable (∃ _ ∈ _, _))

/-- Every completed key of an agent is there in the lifecycle state the root has it in. -/
def FleetState.Agrees (F : Fleet) (s : FleetState) : Prop :=
  ∀ k ∈ s.root.world.db.keys.rows, k.managedBy ≠ F.root.cfg.name → k.status = .completed →
    HoldsKey (s.agents k.managedBy) k

/-! ## What is known of keys, requests and agents -/

/-- A key as a request or a task describes it is the stored key `k`. -/
structure Describes (id tenantID name managedBy : String) (k : Key) : Prop where
  id : uuidIn id = some k.id
  tenantID : uuidIn tenantID = some k.tenantID
  name : name = k.name
  managedBy : managedBy = k.managedBy

/-- The announced key is stored, and was announced in pre-activation. -/
def Announced (db : DB) (key : Key) : Prop :=
  key.lifeCycleState = .preActivation ∧
    ∃ k ∈ db.keys.rows, Describes key.id key.tenantID key.name key.managedBy k

def Job.Known (db : DB) (job : Job) : Prop := ∀ key, job = .announce key → Announced db key

def RootTask.Known (db : DB) (t : RootTask) : Prop := ∀ key, t = .announce key → Announced db key

/-- Key requests are about stored keys. -/
def Flight.Known (db : DB) (f : Flight) : Prop :=
  ∀ req, f.request = .upsertKey req →
    ∃ k ∈ db.keys.rows, k.id = f.keyID ∧ Describes req.keyID req.tenantID req.name f.agent k

/-- The key was taken over by the agent, in the lifecycle state the root still has it in. -/
def Flight.Taken (db : DB) (agents : String → DB) (f : Flight) : Prop :=
  f.fresh = true → f.answer = some .ok → ∀ req, f.request = .upsertKey req → ∀ k ∈ db.keys.rows, k.id = f.keyID →
    k.lifeCycleState = req.lifecycleState ∧ HoldsKey (agents f.agent) k

/-- The keys of an agent are keys of the root. -/
def Mirrors (db agent : DB) : Prop :=
  ∀ a ∈ agent.keys.rows, ∃ k ∈ db.keys.rows, k.id = a.id ∧ k.tenantID = a.tenantID ∧ k.name = a.name

/-- The invariant of the system. -/
structure FleetInv (F : Fleet) (s : FleetState) : Prop where
  jobs : AllJobs (Job.Known s.root.world.db) (RootTask.Known s.root.world.db) s.root.groups
  known : ∀ f ∈ s.flights, f.Known s.root.world.db
  taken : ∀ f ∈ s.flights, f.Taken s.root.world.db s.agents
  mirrors : ∀ n, Mirrors s.root.world.db (s.agents n)
  agrees : s.Agrees F

section
variable {F : Fleet} {R : RootProcess} {e : Env} {w w' : World} {db db' agent agent' : DB} {s : FleetState}

/-- Every key is still there with its identity. -/
def Keeps (db db' : DB) : Prop := ∀ i, db.HasKey i → db'.HasKey i

theorem Keeps.exists (h : Keeps db db') {k : Key} (hk : k ∈ db.keys.rows) : ∃ k' ∈ db'.keys.rows, k'.ident = k.ident :=
  h k.ident ⟨k, hk, rfl⟩

theorem Describes.of_ident {id tenantID name managedBy : String} {k k' : Key}
    (h : Describes id tenantID name managedBy k) (hi : k'.ident = k.ident) :
    Describes id tenantID name managedBy k' where
  id := h.id.trans (congrArg (fun i => some (KeyIdent.id i)) hi).symm
  tenantID := h.tenantID.trans (congrArg (fun i => some (KeyIdent.tenantID i)) hi).symm
  name := h.name.trans (congrArg KeyIdent.name hi).symm
  managedBy := h.managedBy.trans (congrArg KeyIdent.managedBy hi).symm

theorem Announced.keeps {key : Key} (h : Announced db key) (hk : Keeps db db') : Announced db' key := by
  obtain ⟨hlc, k, hmem, hd⟩ := h
  obtain ⟨k', hk', hi⟩ := hk.exists hmem
  exact ⟨hlc, k', hk', hd.of_ident hi⟩

theorem Flight.Known.keeps {f : Flight} (h : f.Known db) (hk : Keeps db db') : f.Known db' := by
  intro req hreq
  obtain ⟨k, hmem, hid, hd⟩ := h req hreq
  obtain ⟨k', hk', hi⟩ := hk.exists hmem
  exact ⟨k', hk', (congrArg KeyIdent.id hi).trans hid, hd.of_ident hi⟩

theorem Mirrors.keeps (h : Mirrors db agent) (hk : Keeps db db') : Mirrors db' agent := by
  intro a ha
  obtain ⟨k, hmem, hid, ht, hn⟩ := h a ha
  obtain ⟨k', hk', hi⟩ := hk.exists hmem
  exact ⟨k', hk', (congrArg KeyIdent.id hi).trans hid, (congrArg KeyIdent.tenantID hi).trans ht,
    (congrArg KeyIdent.name hi).trans hn⟩

theorem rowOf_of_mem {k : Key} (h : k ∈ db.keys.rows) : db.rowOf k.id = some k :=
  Table.find_eq_some h (by simp) fun b hb hbk => DB.key_eq_of_id hb h (by simpa using hbk)

theorem mem_of_rowOf {id : String} {k : Key} (h : db.rowOf id = some k) : k ∈ db.keys.rows :=
  List.mem_of_find?_eq_some h

/-! ## Steps of the root -/

/-- A step of the root that keeps the keys keeps the invariant when its jobs and its completed keys fit. -/
theorem FleetInv.refresh (h : FleetInv F s) {root : RootState} (hkeep : Keeps s.root.world.db root.world.db)
    (hjobs : AllJobs (Job.Known root.world.db) (RootTask.Known root.world.db) root.groups)
    (hagree : (⟨root, s.agents, s.flights⟩ : FleetState).Agrees F) : FleetInv F (s.refresh root) where
  jobs := hjobs
  known := by
    intro f hf
    obtain ⟨f₀, hf₀, rfl⟩ := List.mem_map.1 hf
    exact (h.known f₀ hf₀).keeps hkeep
  taken := by
    intro f hf hfresh hans req hreq k hk hid
    obtain ⟨f₀, hf₀, rfl⟩ := List.mem_map.1 hf
    simp only [Bool.and_eq_true, decide_eq_true_eq] at hfresh
    -- the row is the one it was before the step
    have hold : s.root.world.db.rowOf f₀.keyID = some k := by
      rw [← hfresh.2, ← hid]
      exact rowOf_of_mem hk
    exact h.taken f₀ hf₀ hfresh.1 hans req hreq k (mem_of_rowOf hold) hid
  mirrors n := (h.mirrors n).keeps hkeep
  agrees := hagree

/-- What holds of the key of an announce job holds of the key of its task. -/
theorem announce_resolve {P : Key → Prop} {job : Job} {tasks : List RootTask} (h : ∀ key, job = .announce key → P key)
    (hres : job.resolve = .resolved tasks) : ∀ t ∈ tasks, ∀ key, t = .announce key → P key := by
  rintro t ht key rfl
  cases job with
  | announce key' =>
    cases hres
    rw [List.mem_singleton] at ht
    cases ht
    exact h _ rfl
  | layer action ids =>
    unfold Job.resolve at hres
    dsimp only at hres
    split at hres
    · cases hres
    · cases hres
      obtain ⟨_, -, hx⟩ := List.mem_map.1 ht
      cases hx

/-- The key of a successful announce is stored. -/
theorem AnnounceKeyEffect.announced {req : AnnounceKeyRequest} {r : Except Err Key} {gs : List JobGroup}
    (h : AnnounceKeyEffect R e req w (r, gs, w')) : ∀ jobs ∈ gs, ∀ job ∈ jobs, job.Known w'.db := by
  cases h with
  | refused => nofun
  | accepted _ _ _ hu =>
    intro jobs hjobs job hjob key hkey
    rw [List.mem_singleton.1 hjobs, List.mem_singleton] at hjob
    rw [hjob] at hkey
    cases hkey
    cases hu with
    | inserted hi =>
      refine ⟨rfl, _, hi.mem.2 (.inr rfl), hi.id, hi.tenantID, ?_, ?_⟩ <;> rw [hi.row_eq]
    | adopted hk hsame =>
      simp only [Key.isSame, Bool.and_eq_true, beq_iff_eq] at hsame
      obtain ⟨⟨⟨⟨-, hname⟩, htenant⟩, hman⟩, -⟩ := hsame
      have hcan := DB.key_canonical hk
      refine ⟨rfl, _, DB.mem_markKeys.2 ⟨_, hk, rfl⟩, ?_⟩
      have hd : Describes _ (announcedKey R e req).tenantID (announcedKey R e req).name
          (announcedKey R e req).managedBy _ :=
        ⟨hcan.1, htenant ▸ hcan.2, hname.symm, hman.symm⟩
      exact hd.of_ident DB.markKey_ident

/-- The jobs of a call are about stored keys. -/
theorem AdminCall.known (call : AdminCall) :
    ∀ jobs ∈ (call.run R e w).1, ∀ job ∈ jobs, job.Known (call.run R e w).2.db := by
  cases call with
  | announceKey req => exact AnnounceKeyEffect.announced announceKey_effect
  | keyAction action req =>
    intro jobs hjobs job hjob key hkey
    have heff : ActionEffect e action req w (Krypton.keyAction e action req w) := keyAction_effect
    change jobs ∈ (Krypton.keyAction e action req w).2.1 at hjobs
    generalize Krypton.keyAction e action req w = out at heff hjobs
    cases heff with
    | refused => cases hjobs
    | accepted _ _ _ =>
      rw [List.mem_singleton.1 hjobs] at hjob
      obtain ⟨_, -, -, rfl⟩ := mem_jobsOf.1 hjob
      cases hkey
  | _ => nofun

theorem step_keepsKeys (op : Env × Op) (s : RootState) : Keeps s.world.db (step R s op).world.db :=
  fun _ hi => step_keeps op hi

/-- The jobs and tasks stay about stored keys. -/
theorem step_known (op : Env × Op) {s : RootState}
    (h : AllJobs (Job.Known s.world.db) (RootTask.Known s.world.db) s.groups) :
    AllJobs (Job.Known (step R s op).world.db) (RootTask.Known (step R s op).world.db) (step R s op).groups := by
  have hkeep := step_keepsKeys (R := R) op s
  refine step_jobs_inv (fun job tasks hj hres => announce_resolve hj hres)
    (h.mono (fun job hj key hkey => (hj key hkey).keeps hkeep) fun t ht key hkey => (ht key hkey).keeps hkeep) ?_
  rintro call hop
  obtain ⟨e, op⟩ := op
  cases hop
  exact call.known

/-- Only handlers complete keys. -/
theorem step_completed {s : RootState} {op : Op} {k : Key} (hop : ∀ g i task recorded, op ≠ .handle g i task recorded)
    (hk : k ∈ (step R s (e, op)).world.db.keys.rows) (hst : k.status = .completed) : k ∈ s.world.db.keys.rows := by
  cases op with
  | admin call =>
    rcases AdminCall.marked hk with ⟨hk, -⟩ | ⟨hp, -⟩
    · exact hk
    · rw [hst] at hp; cases hp
  | confirmJob g i recorded =>
    rcases step_confirmJob with heq | ⟨_, j, -, -, -, -, heq⟩ <;> rw [heq] at hk
    · exact hk
    · cases hdata : j.data with
      | layer action ids => rw [hdata] at hk; exact hk
      | announce key =>
        rw [hdata] at hk
        rcases ConfirmEffect.rows confirmAnnounce_effect hk with hk | ⟨hp, -⟩
        · exact hk
        · rw [hst] at hp; cases hp
  | resolveTasks g i =>
    rcases step_resolveTasks with heq | ⟨_, _, -, -, heq⟩ <;> rw [heq] at hk <;> exact hk
  | handle g i task recorded => exact absurd rfl (hop g i task recorded)
  | cancel g i => exact hk

theorem fleetInv_root (h : FleetInv F s) {op : Op} (hop : ∀ g i task recorded, op ≠ .handle g i task recorded) :
    FleetInv F (s.refresh (step F.root s.root (e, op))) :=
  h.refresh (step_keepsKeys (e, op) s.root) (step_known (e, op) h.jobs)
    fun k hk hm hst => h.agrees k (step_completed hop hk hst) hm hst

/-! ## The end of a handler -/

/-- A key that a task has just completed was waiting for it, and its agent took it. -/
theorem TaskEffect.completed_row {toState : KeyLifeCycleState} {kid : KeyIdentifier} {response : Response} {k : Key}
    (h : TaskEffect R e toState kid w response w') (hk : k ∈ w'.db.keys.rows) (hst : k.status = .completed) :
    k ∈ w.db.keys.rows ∨ ∃ key, Waits w.db toState kid key ∧ Reached R e key ∧ key.ident = k.ident ∧
      k.lifeCycleState = toState := by
  cases h with
  | retried _ => exact .inl hk
  | missing _ => exact .inl hk
  | skipped _ _ => exact .inl hk
  | failed hw hp =>
    obtain ⟨st, hkeys, ⟨rfl, -⟩ | ⟨-, hr⟩⟩ := hp.keys nofun
    · have hk' : k ∈ ((w.db.markKeys [_] _ .failed e.now).keys).rows := hkeys ▸ hk
      rcases DB.mem_markKeys_cases hk' with ⟨hk, -⟩ | ⟨-, -, hf, -⟩
      · exact .inl hk
      · rw [hst] at hf; cases hf
    · cases hr
  | completed hw hp =>
    obtain ⟨st, hkeys, -⟩ := hp.keys nofun
    have hk' : k ∈ ((w.db.markKeys [_] _ st e.now).keys).rows := hkeys ▸ hk
    rcases DB.mem_markKeys_cases hk' with ⟨hk, -⟩ | ⟨hid, hlc, -, k₀, hk₀, hident⟩
    · exact .inl hk
    · have heq := DB.key_eq_of_id hk₀ (DB.getKeyByID_ok hw.found).1
        ((congrArg KeyIdent.id hident).trans (List.mem_singleton.1 hid))
      subst heq
      cases hp with
      | completed _ hr => exact .inr ⟨k₀, hw, hr, hident, hlc.trans hw.state⟩

theorem AnnounceEffect.completed_row {key k : Key} {response : Response} (h : AnnounceEffect R e key w response w')
    (hk : k ∈ w'.db.keys.rows) (hst : k.status = .completed) :
    k ∈ w.db.keys.rows ∨ ∃ k₀, Announcing w.db key k₀ ∧ Took R e key .upsertKey ∧ k₀.ident = k.ident ∧
      k.lifeCycleState = k₀.lifeCycleState := by
  cases h with
  | retried => exact .inl hk
  | rejected _ => exact .inl hk
  | failed _ =>
    rcases DB.mem_markKeys_cases hk with ⟨hk, -⟩ | ⟨-, -, hf, -⟩
    · exact .inl hk
    · rw [hst] at hf; cases hf
  | completed ha _ hu =>
    rcases DB.mem_markKeys_cases hk with ⟨hk, -⟩ | ⟨hid, hlc, -, k₀, hk₀, hident⟩
    · exact .inl hk
    · have heq := DB.key_eq_of_id hk₀ (DB.getKeyByID_ok ha.found).1
        ((congrArg KeyIdent.id hident).trans (List.mem_singleton.1 hid))
      subst heq
      exact .inr ⟨k₀, ha, hu, hident, hlc⟩

/-- A good answer comes from a request that is still fresh. -/
theorem answer_ok {t : RootTask} {site : RpcSite} {n : Nat} (h : s.answer F e t site n = .ok) :
    ∃ f ∈ s.flights, f.fresh = true ∧ f.answer = some .ok ∧
      t.request e s.root.world site = some (f.agent, f.request, f.keyID) := by
  unfold FleetState.answer at h
  split at h
  · cases h
  · rename_i f hf
    split at h
    · rename_i hs
      refine ⟨f, List.mem_of_getElem? hf, hs.1, ?_, ?_⟩
      · cases ha : f.answer with
        | none => rw [ha] at h; cases h
        | some r => rw [ha] at h; exact congrArg some h
      · exact (Option.filter_eq_some_iff.1 hs.2).1
    · cases h

theorem HoldsKey.of_ident {k k' : Key} (h : HoldsKey agent k) (hi : k.ident = k'.ident)
    (hlc : k'.lifeCycleState = k.lifeCycleState) : HoldsKey agent k' := by
  obtain ⟨a, ha, h1, h2, h3⟩ := h
  exact ⟨a, ha, h1.trans (congrArg KeyIdent.id hi), h2.trans (congrArg KeyIdent.tenantID hi), h3.trans hlc.symm⟩

/-- A handler completes a key of an agent only after the agent has taken it. -/
theorem handle_agrees (h : FleetInv F s) (hcfg : F.root.rootCfg = some F.root.cfg) {t : RootTask}
    (hknown : t.Known s.root.world.db) {e' : Env} {n : Nat} (hrpc : e'.rpc .upsertKey = s.answer F e t .upsertKey n)
    {k : Key} (hk : k ∈ (t.handle F.root e' s.root.world).2.db.keys.rows) (hm : k.managedBy ≠ F.root.cfg.name)
    (hst : k.status = .completed) : HoldsKey (s.agents k.managedBy) k := by
  -- the agent of a fresh request that was answered well has the key as the root has it
  have htaken : ∀ key req, t.request e s.root.world .upsertKey = some (key.managedBy, .upsertKey req, key.id) →
      e'.rpc .upsertKey = .ok → key ∈ s.root.world.db.keys.rows → HoldsKey (s.agents key.managedBy) key := by
    intro key req hreq hans hmem
    obtain ⟨f, hf, hfresh, hfa, hsame⟩ := answer_ok (hrpc ▸ hans)
    rw [hreq, Option.some.injEq, Prod.mk.injEq, Prod.mk.injEq] at hsame
    obtain ⟨hagent, hrequest, hkeyID⟩ := hsame
    rw [hagent]
    exact (h.taken f hf hfresh hfa req hrequest.symm key hmem hkeyID).2
  cases t with
  | action a kid =>
    rcases TaskEffect.completed_row handleTask_effect hk hst with hk | ⟨key, hw, hr, hident, hlc⟩
    · exact h.agrees k hk hm hst
    · have hman : k.managedBy = key.managedBy := (congrArg KeyIdent.managedBy hident).symm
      obtain ⟨_, cfg, -, hc, hmb | ⟨-, hans, -⟩⟩ := hr
      · rw [hcfg] at hc
        cases hc
        exact absurd (hman.trans hmb) hm
      · rw [hman]
        refine (htaken key key.upsertRequest ?_ hans (DB.getKeyByID_ok hw.found).1).of_ident hident
          (hlc.trans hw.state.symm)
        simp only [RootTask.request, hw.found, hw.state, hw.status, and_self, if_true]
  | announce key =>
    rcases AnnounceEffect.completed_row handleAnnounce_effect hk hst with hk | ⟨k₀, ha, hu, hident, hlc⟩
    · exact h.agrees k hk hm hst
    · obtain ⟨-, k₁, hk₁, hd⟩ := hknown key rfl
      obtain ⟨hmem, hid, -⟩ := DB.getKeyByID_ok ha.found
      obtain rfl : k₁ = k₀ := DB.key_eq_of_id hk₁ hmem (Option.some.inj (hd.id.symm.trans hid))
      have hman : k.managedBy = k₁.managedBy := (congrArg KeyIdent.managedBy hident).symm
      rcases hu with hmb | ⟨_, -, -, hans⟩
      · exact absurd (hman.trans (hd.managedBy.symm.trans hmb)) hm
      · rw [hman]
        refine (htaken k₁ key.upsertRequest ?_ hans hmem).of_ident hident hlc
        have hval : Validator.validateTransition key.tenantID key.id .preActivation s.root.world.db = .ok () := by
          simp [Validator.validateTransition, ha.found, ha.state, bind, Except.bind]
        simp only [RootTask.request, hval, hid, Option.getD_some, hd.managedBy]

theorem taskAt_eq_some {s : RootState} {g i n : Nat} {t : RootTask} (h : s.taskAt g i n = some t) :
    ∃ G j st, s.groups[g]? = some G ∧ G[i]? = some j ∧ j.tasks[n]? = some (t, st) := by
  obtain ⟨⟨t', st⟩, hat, rfl⟩ := Option.map_eq_some_iff.1 h
  obtain ⟨G, hG, hat⟩ := Option.bind_eq_some_iff.1 hat
  obtain ⟨j, hj, ht⟩ := Option.bind_eq_some_iff.1 hat
  exact ⟨G, j, st, hG, hj, ht⟩

theorem FleetInv.task_known (h : FleetInv F s) {g i n : Nat} {t : RootTask} (ht : s.root.taskAt g i n = some t) :
    t.Known s.root.world.db := by
  obtain ⟨G, j, st, hG, hj, ht⟩ := taskAt_eq_some ht
  exact (h.jobs G (List.mem_of_getElem? hG) j (List.mem_of_getElem? hj)).2 (t, st) (List.mem_of_getElem? ht)

theorem fleetInv_finish (h : FleetInv F s) (hcfg : F.root.rootCfg = some F.root.cfg) {g i n : Nat} {recorded : Bool}
    {requests : RpcSite → Nat} : FleetInv F (fleetStep F s (e, .finish g i n recorded requests)) := by
  unfold fleetStep
  dsimp only
  split
  · exact h
  · rename_i t ht
    refine h.refresh (step_keepsKeys _ s.root) (step_known _ h.jobs) fun k hk hm hst => ?_
    obtain ⟨G, j, st, hG, hj, htask⟩ := taskAt_eq_some ht
    rcases @step_handle F.root s.root { e with
      rpc := fun site => s.answer F e t site (requests site) } g i n recorded with
      heq | ⟨G', j', t', _, hG', hj', ht', heq⟩
    · rw [heq] at hk
      exact h.agrees k hk hm hst
    · rw [hG] at hG'
      cases hG'
      rw [hj] at hj'
      cases hj'
      rw [htask] at ht'
      cases ht'
      rw [heq] at hk
      exact handle_agrees h hcfg (h.task_known ht) rfl hk hm hst

/-! ## Requests -/

/-- What a handler sends is about a stored key. -/
theorem known_of_sends {t : RootTask} (hknown : t.Known w.db) {site : RpcSite} {agent keyID : String}
    {request : AgentRequest} (h : t.sends R e w site = some (agent, request, keyID)) (answer : Option RpcResult) :
    Flight.Known w.db ⟨agent, request, keyID, true, answer⟩ := by
  have hreq := (Option.filter_eq_some_iff.1 h).1
  intro req hkey
  change request = .upsertKey req at hkey
  subst hkey
  cases t with
  | announce key =>
    obtain ⟨-, k, hk, hd⟩ := hknown key rfl
    cases site with
    | upsertTenant =>
      simp only [RootTask.request] at hreq
      split at hreq <;> simp at hreq
    | upsertKey =>
      simp only [RootTask.request] at hreq
      split at hreq
      · simp only [Option.some.injEq, Prod.mk.injEq, AgentRequest.upsertKey.injEq] at hreq
        obtain ⟨rfl, rfl, rfl⟩ := hreq
        exact ⟨k, hk, by rw [hd.id]; rfl, hd⟩
      · cases hreq
    | upsertKeyVersion => cases hreq
  | action a kid =>
    cases site with
    | upsertTenant => cases hreq
    | upsertKey =>
      simp only [RootTask.request] at hreq
      split at hreq
      · rename_i key hkey
        split at hreq
        · simp only [Option.some.injEq, Prod.mk.injEq, AgentRequest.upsertKey.injEq] at hreq
          obtain ⟨rfl, rfl, rfl⟩ := hreq
          have hmem := (DB.getKeyByID_ok hkey).1
          exact ⟨key, hmem, rfl, (DB.key_canonical hmem).1, (DB.key_canonical hmem).2, rfl, rfl⟩
        · cases hreq
      · cases hreq
    | upsertKeyVersion =>
      simp only [RootTask.request] at hreq
      split at hreq
      · split at hreq
        · split at hreq <;> simp at hreq
        · cases hreq
      · cases hreq

theorem fleetInv_send (h : FleetInv F s) {g i n : Nat} {site : RpcSite} :
    FleetInv F (fleetStep F s (e, .send g i n site)) := by
  unfold fleetStep
  dsimp only
  split
  · exact h
  · rename_i agent request keyID hsend
    obtain ⟨t, ht, hsend⟩ := Option.bind_eq_some_iff.1 hsend
    refine ⟨h.jobs, fun f hf => ?_, fun f hf => ?_, h.mirrors, h.agrees⟩
    · rcases List.mem_append.1 hf with hf | hf
      · exact h.known f hf
      · rw [List.mem_singleton.1 hf]
        exact known_of_sends (h.task_known ht) hsend none
    · rcases List.mem_append.1 hf with hf | hf
      · exact h.taken f hf
      · rw [List.mem_singleton.1 hf]
        exact fun _ hans => by cases hans

theorem fleetInv_lose (h : FleetInv F s) {n : Nat} : FleetInv F (fleetStep F s (e, .lose n)) :=
  ⟨h.jobs, fun f hf => h.known f (List.mem_of_mem_eraseIdx hf), fun f hf => h.taken f (List.mem_of_mem_eraseIdx hf),
    h.mirrors, h.agrees⟩

/-! ## Deliveries -/

/-- A key that the agent adopts for a request is its copy of the key the request is about. -/
theorem adopted_id {req : UpsertKeyRequest} {managedBy : String} {k x : Key} (hmir : Mirrors db agent)
    (hk : k ∈ db.keys.rows) (hd : Describes req.keyID req.tenantID req.name managedBy k) (hx : x ∈ agent.keys.rows)
    (hsame : x.isSame (req.key e) = true) : x.id = k.id ∧ x.tenantID = k.tenantID := by
  simp only [Key.isSame, Bool.and_eq_true, beq_iff_eq] at hsame
  obtain ⟨⟨⟨⟨-, hname⟩, htenant⟩, -⟩, -⟩ := hsame
  obtain ⟨kx, hkx, hid, ht, hn⟩ := hmir x hx
  -- the tenant of the request is the canonical text that the agent has stored
  have htk : x.tenantID = k.tenantID := by
    have hcan : uuidIn req.tenantID = some x.tenantID := by
      rw [show req.tenantID = x.tenantID from htenant.symm]
      exact (DB.key_canonical hx).2
    exact Option.some.inj (hcan.symm.trans hd.tenantID)
  have heq : kx = k := DB.key_eq_of_name hkx hk (ht.trans htk) (hn.trans (hname.trans hd.name))
  exact ⟨by rw [← hid, heq], htk⟩

/-- The agent has taken over the key of a delivered request. -/
theorem holdsKey_of_upserted {req : UpsertKeyRequest} {managedBy : String} {k x : Key} (hmir : Mirrors db agent)
    (hk : k ∈ db.keys.rows) (hd : Describes req.keyID req.tenantID req.name managedBy k)
    (hlc : k.lifeCycleState = req.lifecycleState) (hu : Upserted e (req.key e) agent x agent') : HoldsKey agent' k := by
  cases hu with
  | inserted hi =>
    rename_i row
    refine ⟨row, hi.mem.2 (.inr rfl), Option.some.inj (hi.id.symm.trans hd.id),
      Option.some.inj (hi.tenantID.symm.trans hd.tenantID), ?_⟩
    rw [hi.row_eq]
    exact hlc.symm
  | adopted hx hsame =>
    rename_i x₀
    obtain ⟨hid, ht⟩ := adopted_id hmir hk hd hx hsame
    refine ⟨_, DB.mem_markKeys.2 ⟨x₀, hx, rfl⟩, ?_⟩
    rw [DB.markKey_of_mem (List.mem_singleton_self _)]
    exact ⟨hid, ht, hlc.symm⟩

/-- A delivered request in the right state leaves every key of the agent in the state it agreed in. -/
theorem HoldsKey.upserted {req : UpsertKeyRequest} {managedBy : String} {k k₀ x : Key} (h : HoldsKey agent k₀)
    (hk₀ : k₀ ∈ db.keys.rows) (hmir : Mirrors db agent) (hk : k ∈ db.keys.rows)
    (hd : Describes req.keyID req.tenantID req.name managedBy k) (hlc : k.lifeCycleState = req.lifecycleState)
    (hu : Upserted e (req.key e) agent x agent') : HoldsKey agent' k₀ := by
  by_cases hsame : k₀.id = k.id
  · rw [DB.key_eq_of_id hk₀ hk hsame]
    exact holdsKey_of_upserted hmir hk hd hlc hu
  · obtain ⟨a, ha, hid, ht, hal⟩ := h
    cases hu with
    | inserted hi => exact ⟨a, hi.mem.2 (.inl ha), hid, ht, hal⟩
    | adopted hx hxs =>
      rename_i x₀
      have hne : a.id ∉ [x₀.id] := fun hin => hsame (by
        rw [← hid, List.mem_singleton.1 hin]
        exact (adopted_id hmir hk hd hx hxs).1)
      refine ⟨_, DB.mem_markKeys.2 ⟨a, ha, rfl⟩, ?_⟩
      rw [DB.markKey_of_notMem hne]
      exact ⟨hid, ht, hal⟩

theorem Mirrors.upserted {req : UpsertKeyRequest} {managedBy : String} {k x : Key} (hmir : Mirrors db agent)
    (hk : k ∈ db.keys.rows) (hd : Describes req.keyID req.tenantID req.name managedBy k)
    (hu : Upserted e (req.key e) agent x agent') : Mirrors db agent' := by
  intro a ha
  cases hu with
  | inserted hi =>
    rcases hi.mem.1 ha with ha | rfl
    · exact hmir a ha
    · refine ⟨k, hk, Option.some.inj (hd.id.symm.trans hi.id), Option.some.inj (hd.tenantID.symm.trans hi.tenantID), ?_⟩
      rw [hi.row_eq]
      exact hd.name.symm
  | adopted _ _ =>
    obtain ⟨a₀, ha₀, hmark⟩ := DB.mem_markKeys.1 ha
    obtain ⟨k₀, hk₀, h1, h2, h3⟩ := hmir a₀ ha₀
    have hi : a.ident = a₀.ident := by rw [← hmark]; exact DB.markKey_ident
    exact ⟨k₀, hk₀, h1.trans (congrArg KeyIdent.id hi).symm, h2.trans (congrArg KeyIdent.tenantID hi).symm,
      h3.trans (congrArg KeyIdent.name hi).symm⟩

theorem mem_set_flights {fs : List Flight} {n : Nat} {f f' : Flight} (h : f ∈ fs.set n f') : f ∈ fs ∨ f = f' :=
  List.mem_or_eq_of_mem_set h

/-- A delivery that leaves the agent's keys alone. -/
theorem FleetInv.untouched (h : FleetInv F s) {n : Nat} {f : Flight} (hf : s.flights[n]? = some f) {answer : RpcResult}
    {w : World} (hkeys : w.db.keys = (s.agents f.agent).keys) (hans : ∀ r, f.request = .upsertKey r → answer ≠ .ok) :
    FleetInv F (s.answered n f answer w) := by
  have hmem := List.mem_of_getElem? hf
  -- no agent sees another set of keys
  have hrows : ∀ m, (Function.update s.agents f.agent w.db m).keys = (s.agents m).keys := by
    intro m
    by_cases hm : m = f.agent
    · rw [hm, Function.update_self, hkeys]
    · rw [Function.update_of_ne hm]
  have hholds : ∀ {m k}, HoldsKey (s.agents m) k → HoldsKey (Function.update s.agents f.agent w.db m) k := by
    intro m k hk
    unfold HoldsKey
    rw [hrows]
    exact hk
  refine ⟨h.jobs, fun f' hf' => ?_, fun f' hf' => ?_, fun m => ?_, fun k hk hm hst => hholds (h.agrees k hk hm hst)⟩
  · rcases mem_set_flights hf' with hf' | rfl
    · exact h.known f' hf'
    · exact h.known f hmem
  · rcases mem_set_flights hf' with hf' | rfl
    · intro hfresh ha req hreq k hk hid
      obtain ⟨h1, h2⟩ := h.taken f' hf' hfresh ha req hreq k hk hid
      exact ⟨h1, hholds h2⟩
    · intro _ ha req hreq
      exact absurd (Option.some.inj ha) (hans req hreq)
  · change Mirrors _ (Function.update s.agents f.agent w.db m)
    unfold Mirrors
    rw [hrows]
    exact h.mirrors m

/-- A key request that is delivered in time. -/
theorem FleetInv.upserted (h : FleetInv F s) {n : Nat} {f : Flight} (hf : s.flights[n]? = some f)
    {req : UpsertKeyRequest} (hreq : f.request = .upsertKey req)
    (htimely : ∀ k ∈ s.root.world.db.keys.rows, k.id = f.keyID → k.lifeCycleState = req.lifecycleState)
    {x : Key} {w : World} (hu : Upserted e (req.key e) (s.agents f.agent) x w.db) :
    FleetInv F (s.answered n f .ok w) := by
  have hmem := List.mem_of_getElem? hf
  obtain ⟨k, hk, hid, hd⟩ := h.known f hmem req hreq
  have hlc := htimely k hk hid
  have hmir := h.mirrors f.agent
  have hholds : ∀ {m k₀}, k₀ ∈ s.root.world.db.keys.rows → HoldsKey (s.agents m) k₀ →
      HoldsKey (Function.update s.agents f.agent w.db m) k₀ := by
    intro m k₀ hk₀ hh
    by_cases hm : m = f.agent
    · subst hm
      rw [Function.update_self]
      exact hh.upserted hk₀ hmir hk hd hlc hu
    · rw [Function.update_of_ne hm]
      exact hh
  refine ⟨h.jobs, fun f' hf' => ?_, fun f' hf' => ?_, fun m => ?_,
    fun k₀ hk₀ hm hst => hholds hk₀ (h.agrees k₀ hk₀ hm hst)⟩
  · rcases mem_set_flights hf' with hf' | rfl
    · exact h.known f' hf'
    · exact h.known f hmem
  · rcases mem_set_flights hf' with hf' | rfl
    · intro hfresh ha req' hreq' k₀ hk₀ hid₀
      obtain ⟨h1, h2⟩ := h.taken f' hf' hfresh ha req' hreq' k₀ hk₀ hid₀
      exact ⟨h1, hholds hk₀ h2⟩
    · intro _ _ req' hreq' k₀ hk₀ hid₀
      cases hreq.symm.trans hreq'
      rw [DB.key_eq_of_id hk₀ hk (hid₀.trans hid.symm)]
      refine ⟨hlc, ?_⟩
      change HoldsKey (Function.update s.agents f.agent w.db f.agent) k
      rw [Function.update_self]
      exact holdsKey_of_upserted hmir hk hd hlc hu
  · by_cases hm : m = f.agent
    · change Mirrors _ (Function.update s.agents f.agent w.db m)
      rw [hm, Function.update_self]
      exact hmir.upserted hk hd hu
    · change Mirrors _ (Function.update s.agents f.agent w.db m)
      rw [Function.update_of_ne hm]
      exact h.mirrors m

theorem fleetInv_deliver (h : FleetInv F s) {n : Nat} (ht : Timely s (e, .deliver n)) :
    FleetInv F (fleetStep F s (e, .deliver n)) := by
  unfold fleetStep
  dsimp only
  split
  · rename_i f hf
    split
    · rename_i hnone
      have heff := @agentHandle_effect e (s.agentWorld f.agent) F.cluster (s.cluster F) F.root.fuel f.agent f.request
      generalize agentHandle e F.cluster (s.cluster F) F.root.fuel f.agent f.request (s.agentWorld f.agent) =
        out at heff ⊢
      rcases heff.keys with ⟨hkeys, hans⟩ | ⟨req, x, hreq, hans, hu⟩
      · exact h.untouched hf hkeys hans
      · rw [hans]
        have harr : f ∈ s.arriving (.deliver n) := by simp [FleetState.arriving, hf, hnone]
        exact h.upserted hf hreq (ht f harr req.lifecycleState (by rw [hreq]; rfl)) hu
    · exact h
  · exact h

/-- Every step with timely deliveries keeps the invariant. -/
theorem fleetInv_step (hcfg : F.root.rootCfg = some F.root.cfg) (op : Env × FleetOp) (h : FleetInv F s)
    (ht : Timely s op) : FleetInv F (fleetStep F s op) := by
  obtain ⟨e, op⟩ := op
  cases op with
  | root op =>
    cases op with
    | handle g i task recorded => exact h
    | _ => exact fleetInv_root h nofun
  | send g i task site => exact fleetInv_send h
  | deliver n => exact fleetInv_deliver h ht
  | lose n => exact fleetInv_lose h
  | finish g i task recorded requests => exact fleetInv_finish h hcfg

theorem fleetInv_init : FleetInv F .init where
  jobs _ hG := absurd hG List.not_mem_nil
  known _ hf := absurd hf List.not_mem_nil
  taken _ hf := absurd hf List.not_mem_nil
  mirrors _ _ ha := absurd ha List.not_mem_nil
  agrees _ hk := absurd hk List.not_mem_nil

/-- **Root and agents agree.** In every run in which each key request reaches its agent while the root has the key in
the lifecycle state that the request carries, every completed key of an agent is there in the root's lifecycle state. -/
theorem agents_agree (F : Fleet) (hcfg : F.root.rootCfg = some F.root.cfg) (ops : List (Env × FleetOp))
    (hops : Along (fleetStep F) Timely .init ops) : (run (fleetStep F) .init ops).Agrees F :=
  (run_inv (fun _ op h ht => fleetInv_step hcfg op h ht) fleetInv_init hops).agrees

end

/-! ## A late request in the small deployment -/

/-- The manager of the agent, as its start-up code builds it. -/
def demoEdgeManager : Manager :=
  ⟨[("tek", ⟨some .aes256gcm, some (.memory "edge"), some (List.replicate 32 1), .rpc "root"⟩),
    ("dek", ⟨some .aes256gcm, some (.memory "edge"), none, .self⟩)]⟩

example : newManager ⟨⟨"edge", fun _ => none, fun _ => true⟩, demoEdge.keyBindings, demoHierarchy,
    some ["root"], false⟩ = .ok demoEdgeManager := rfl

def demoFleet : Fleet where
  root := demo
  managers n := if n = "edge" then some demoEdgeManager else none
  dial n := some n

def demoSteps (ops : List FleetOp) : List (Env × FleetOp) := ops.map fun op => (demoEnv 0, op)

/-- A job of one task with the steps before the handler's end, and the places of its requests. -/
def demoFleetJob (g : Nat) (before : List FleetOp) (requests : RpcSite → Nat) : List (Env × FleetOp) :=
  demoSteps ([.root (.confirmJob g 0 true), .root (.resolveTasks g 0)] ++ before ++ [.finish g 0 0 true requests])

def demoFleetRoot (op : Env × Op) : Env × FleetOp := (op.1, .root op.2)

/-- The places of a handler's requests: the first of two is at `n`. -/
def demoPlaces (n : Nat) : RpcSite → Nat
  | .upsertTenant => n
  | .upsertKey => n
  | .upsertKeyVersion => n + 1

/-- The root key and the key below it are active, and a key is announced on the agent. -/
def demoFleetAnnounced : List (Env × FleetOp) :=
  [demoFleetRoot demoCreateTenant, demoFleetRoot (demoAnnounce 1 "rk" "" "")] ++ demoFleetJob 0 [] (demoPlaces 0) ++
    [demoFleetRoot (demoBind 1 3), demoFleetRoot (demoAction .activate 1 false)] ++ demoFleetJob 1 [] (demoPlaces 0) ++
    [demoFleetRoot (demoAnnounce 2 "kek" (demoKey 1) "")] ++ demoFleetJob 2 [] (demoPlaces 0) ++
    [demoFleetRoot (demoAction .activate 2 false)] ++ demoFleetJob 3 [] (demoPlaces 0) ++
    [demoFleetRoot (demoAnnounce 3 "tek" (demoKey 2) "edge")] ++
    demoFleetJob 4 [.send 4 0 0 .upsertTenant, .deliver 0, .send 4 0 0 .upsertKey, .deliver 1]
      fun | .upsertTenant => 0 | _ => 1

theorem demoFleetAnnounced_agrees :
    (∃ k ∈ (run (fleetStep demoFleet) .init demoFleetAnnounced).root.world.db.keys.rows,
      k.managedBy = "edge" ∧ k.status = .completed) ∧
      (run (fleetStep demoFleet) .init demoFleetAnnounced).Agrees demoFleet :=
  ⟨by decide +kernel, agents_agree demoFleet rfl demoFleetAnnounced (by decide +kernel)⟩

/-- The first handler of the activation gives up on its request, which arrives when the key is already suspended. -/
def demoFleetLate : List (Env × FleetOp) :=
  demoFleetAnnounced ++ [demoFleetRoot (demoAction .activate 3 false)] ++
    demoFleetJob 5 [.send 5 0 0 .upsertKey, .send 5 0 0 .upsertKey, .deliver 3,
      .send 5 0 0 .upsertKeyVersion, .deliver 4]
      (demoPlaces 3) ++
    [demoFleetRoot (demoAction .suspend 3 false)] ++
    demoFleetJob 6 [.send 6 0 0 .upsertKey, .deliver 5, .send 6 0 0 .upsertKeyVersion, .deliver 6] (demoPlaces 5) ++
    demoSteps ([.deliver 2] ++ List.replicate 7 (.lose 0))

/-- No request is in flight, the root has the key suspended and completed, and the agent has it active. -/
theorem late_request_overwrites :
    (run (fleetStep demoFleet) .init demoFleetLate).flights.length = 0 ∧
      ∃ k ∈ (run (fleetStep demoFleet) .init demoFleetLate).root.world.db.keys.rows,
        k.managedBy = "edge" ∧ k.lifeCycleState = .suspended ∧ k.status = .completed ∧
          ((run (fleetStep demoFleet) .init demoFleetLate).agents k.managedBy).keys.rows.any (fun a =>
            a.id == k.id && a.tenantID == k.tenantID && a.lifeCycleState == .active) = true ∧
          ¬ HoldsKey ((run (fleetStep demoFleet) .init demoFleetLate).agents k.managedBy) k := by
  decide +kernel

end Krypton
