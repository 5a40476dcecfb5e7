import Krypton.Orchestrator.Moves
import Krypton.Orchestrator.Task

/-!
# Agents

The services with which an agent takes over what the root sends it (`pkg/api/v1/proto/agents`): tenants, keys and key
versions. An agent has a database and vaults of its own; each request is one transaction there. It takes any known
lifecycle state for a key, whatever the state it has stored.

* `agentHandle_effect` — only a key request changes the agent's keys, and it is answered `ok` exactly when it upserts;
* `agentHandle_version` — a version request that is answered `ok` inserts its version or updates the states of it.
-/

namespace Krypton

open Lib

/-! ## Requests -/

structure UpsertTenantRequest where
  id : String
  name : String
  labels : Labels
  deriving DecidableEq, Repr

structure UpsertKeyRequest where
  tenantID : String
  keyID : String
  kind : String
  name : String
  parentID : String
  lifecycleState : KeyLifeCycleState
  managedBy : String
  labels : Labels
  deriving DecidableEq, Repr

structure UpsertKeyVersionRequest where
  tenantID : String
  keyID : String
  version : Int
  revision : Int
  parentID : String
  parentVersion : Int
  lifecycleState : KeyLifeCycleState
  processingState : KeyVersionProcessingState
  labels : Labels
  deriving DecidableEq, Repr

inductive AgentRequest where
  | upsertTenant (req : UpsertTenantRequest)
  | upsertKey (req : UpsertKeyRequest)
  | upsertKeyVersion (req : UpsertKeyVersionRequest)
  deriving DecidableEq, Repr

def Tenant.upsertRequest (t : Tenant) : UpsertTenantRequest := ⟨t.id, t.name, t.labels⟩

def Key.upsertRequest (k : Key) : UpsertKeyRequest :=
  ⟨k.tenantID, k.id, k.kind, k.name, k.parentID.getD "", k.lifeCycleState, k.managedBy, k.labels⟩

def KeyVersion.upsertRequest (kv : KeyVersion) : UpsertKeyVersionRequest :=
  ⟨kv.tenantID, kv.keyID, toInt32 kv.version, toInt32 kv.revision, kv.parentKeyID.getD "",
    toInt32 (kv.parentKeyVersion.getD 0), kv.lifeCycleState, kv.processingState, []⟩

/-! ## Answers -/

/-- How a request fails: for good, or to be tried again. -/
inductive AgentError where
  | abort (err : Err)
  | retry (err : Err)

def AgentError.answer : AgentError → RpcResult
  | .abort _ => .error true false
  | .retry _ => .error false true

/-- `mapToProtoErr` of the key service. -/
def mapToProtoErr (err : Err) : AgentError :=
  if err.is .tenantNotFound || err.is .keyConflict then .abort err else .retry err

abbrev AgentStep (α : Type) : Type := Tx Session AgentError α

section
variable (e : Env)

/-! ## Services -/

def upsertTenantSteps (req : UpsertTenantRequest) : AgentStep Unit :=
  (exec e .upsertTenant fun db =>
    db.upsertTenant { newTenant e.uuid e.now req.name req.labels with id := req.id }).mapError .retry

/-- The key a request asks for; it is complete on the agent. -/
def UpsertKeyRequest.key (req : UpsertKeyRequest) : Key where
  id := req.keyID
  name := req.name
  tenantID := req.tenantID
  kind := req.kind
  parentID := some req.parentID
  managedBy := req.managedBy
  labels := req.labels
  lifeCycleState := req.lifecycleState
  status := .completed
  createdAt := e.now
  updatedAt := e.now

def upsertKeySteps (req : UpsertKeyRequest) : AgentStep Key :=
  Tx.mapError mapToProtoErr do
    query e .validateTenant (Validator.validateTenant req.tenantID)
    upsertKey e (req.key e)

def UpsertKeyVersionRequest.keyVersion (req : UpsertKeyVersionRequest) : KeyVersion where
  tenantID := req.tenantID
  keyID := req.keyID
  version := req.version.toNat
  revision := req.revision.toNat
  parentKeyID := if req.parentID = "" then none else some req.parentID
  parentKeyVersion := if req.parentVersion = 0 then none else some req.parentVersion.toNat
  lifeCycleState := req.lifecycleState
  processingState := req.processingState
  labels := req.labels
  createdAt := e.now
  updatedAt := e.now

/-- Errors of a lookup: not found is final. -/
def notFoundAborts (s : Sentinel) (err : Err) : AgentError := if err.is s then .abort err else .retry err

def fetchKeyVersion (kv : KeyVersion) : AgentStep (Option KeyVersion) := do
  match ← (query e .listKeyVersions fun db => db.getKeyVersion kv.tenantID kv.keyID kv.version kv.revision).attempt with
  | .ok old => return some old
  | .error err => if err.is .keyVersionNotFound then return none else Tx.fail (.retry err)

variable (C : Cluster) (S : ClusterState) (fuel : Nat) (node : String)

/-- The key must be in the state of the version; a known version gets new states, a new one a secret. -/
def upsertKeyVersionSteps (req : UpsertKeyVersionRequest) : AgentStep Unit := do
  let kv := req.keyVersion e
  (query e .validateTenant (Validator.validateTenant kv.tenantID)).mapError (notFoundAborts .tenantNotFound)
  let key ← (query e .loadKey fun db => db.getKeyByID kv.keyID kv.tenantID).mapError (notFoundAborts .keyNotFound)
  Tx.lift (check (key.lifeCycleState = kv.lifeCycleState) (.abort (.plain
    ("key is in " ++ key.lifeCycleState.text ++ " state, cannot transition to " ++ kv.lifeCycleState.text ++
      " state"))))
  match ← fetchKeyVersion e kv with
  | some old =>
    (exec e .updateKeyVersion fun db => db.updateKeyVersionStates
      ⟨kv.tenantID, kv.keyID, kv.version, kv.revision, [old.processingState], kv.processingState, [old.lifeCycleState],
        kv.lifeCycleState, e.now⟩).mapError .retry
  | none =>
    (exec e .createKeyVersion fun db => db.createKeyVersion kv).mapError .retry
    Tx.mapError .retry do
      let entry ← fun s =>
        if e.fails .generate then (.error (.plain "failed to generate and seal"), s)
        else (generateAndSealSecret C S fuel node key.kind e.draw kv kv.aad, s)
      importKey e entry

/-- The checks on a request before its transaction. -/
def AgentRequest.validate : AgentRequest → Except Err Unit
  | .upsertTenant req => do
    Validator.validateUpsertTenant req.id req.name
    Validator.validateUserLabels req.labels
  | .upsertKey req => do
    Validator.validateKeyUpsert ⟨req.tenantID, req.keyID, req.kind, req.name, req.managedBy, req.parentID⟩
    Validator.validateUserLabels req.labels
  | .upsertKeyVersion req => do
    Validator.validateUpsertKeyVersionRequest
      ⟨req.tenantID, req.keyID, req.version, req.revision, req.parentID, req.parentVersion⟩
    Validator.validateUserLabels req.labels

/-- The transaction of a request. -/
def AgentRequest.steps : AgentRequest → AgentStep Unit
  | .upsertTenant req => upsertTenantSteps e req
  | .upsertKey req => do let _ ← upsertKeySteps e req
  | .upsertKeyVersion req => upsertKeyVersionSteps e C S fuel node req

/-- The answer for the end of a transaction. -/
def answerOf : Except AgentError Unit → RpcResult
  | .ok () => .ok
  | .error err => err.answer

/-- A request at an agent: the answer, and what the agent keeps. -/
def agentHandle (req : AgentRequest) (w : World) : RpcResult × World :=
  match req.validate with
  | .error err => ((AgentError.abort err).answer, w)
  | .ok () =>
    let (r, _, w') := transaction e AgentError.retry (req.steps e C S fuel node) w
    (answerOf r, w')

end

/-! ## What a request does to the agent's keys -/

section
variable {e : Env} {s : Session} {w w' : World} {C : Cluster} {S : ClusterState} {fuel : Nat} {node : String}

/-- How a request changes the keys of an agent. -/
inductive AgentEffect (e : Env) (w w' : World) : AgentRequest → RpcResult → Prop where
  | untouched {req : AgentRequest} {answer : RpcResult} (hkeys : w'.db.keys = w.db.keys)
      (hans : ∀ r, req = .upsertKey r → answer ≠ .ok) : AgentEffect e w w' req answer
  | upserted {req : UpsertKeyRequest} {k : Key} (hu : Upserted e (req.key e) w.db k w'.db) :
      AgentEffect e w w' (.upsertKey req) .ok

/-- The keys stay and a key request is refused, or the key of the request is upserted. -/
theorem AgentEffect.keys {req : AgentRequest} {answer : RpcResult} (h : AgentEffect e w w' req answer) :
    (w'.db.keys = w.db.keys ∧ ∀ r, req = .upsertKey r → answer ≠ .ok) ∨
      ∃ r k, req = .upsertKey r ∧ answer = .ok ∧ Upserted e (r.key e) w.db k w'.db := by
  cases h with
  | untouched hkeys hans => exact .inl ⟨hkeys, hans⟩
  | upserted hu => exact .inr ⟨_, _, rfl, rfl, hu⟩

theorem AgentError.answer_ne_ok (err : AgentError) : err.answer ≠ .ok := by cases err <;> nofun

/-- The transaction's database has the keys it began with. -/
def SameKeys (s s' : Session) : Prop := s'.db.keys = s.db.keys

theorem ends_upsertTenantSteps {req : UpsertTenantRequest} :
    (upsertTenantSteps e req).Ends s fun _ s' => SameKeys s s' := by
  refine Tx.Ends.mapError ends_exec ?_ ?_
  · rintro _ s' (⟨db, -, hu, rfl⟩ | ⟨_, h, -⟩)
    · exact (DB.upsertTenant_ok hu).2.1
    · cases h
  · rintro err s' (⟨_, h, -⟩ | ⟨_, -, rfl, -⟩)
    · cases h
    · rfl

theorem ends_fetchKeyVersion {kv : KeyVersion} : (fetchKeyVersion e kv).Ends s fun _ s' => s' = s := by
  unfold fetchKeyVersion
  refine Tx.Ends.attempt_bind ends_query ?_
  rintro r s' ⟨rfl, -⟩
  split
  · exact .pure rfl
  · split
    · exact .pure rfl
    · exact .fail rfl

theorem ends_createSecret {kind : String} {kv : KeyVersion} :
    (Tx.mapError AgentError.retry (do
      let entry ← fun s : Session =>
        if e.fails .generate then (.error (.plain "failed to generate and seal"), s)
        else (generateAndSealSecret C S fuel node kind e.draw kv kv.aad, s)
      importKey e entry) : AgentStep Unit).Ends s fun _ s' => s'.db = s.db := by
  refine Tx.Ends.mapError (P := fun _ s' => s'.db = s.db) ?_ (fun _ _ h => h) (fun _ _ h => h)
  refine (ends_drawAndImport fun _ => generateAndSealSecret C S fuel node kind e.draw kv kv.aad).mono ?_
  rintro _ s' (⟨rfl, -⟩ | ⟨entry, -, rfl⟩)
  · rfl
  · rfl

/-- What an upsert of the version `kv` that succeeds leaves in the database. -/
inductive VersionUpserted (e : Env) (kv : KeyVersion) (db db' : DB) : Prop where
  | inserted {row : KeyVersion} (h : DB.KeyVersionInserted db kv row db') : VersionUpserted e kv db db'
  | updated {old : KeyVersion} (ht : uuidIn kv.tenantID = some old.tenantID) (hk : uuidIn kv.keyID = some old.keyID)
      (hv : old.version = kv.version) (hr : old.revision = kv.revision)
      (h : DB.KeyVersionUpdated db old kv.lifeCycleState kv.processingState e.now db') : VersionUpserted e kv db db'

theorem VersionUpserted.keys {kv : KeyVersion} {db db' : DB} (h : VersionUpserted e kv db db') :
    db'.keys = db.keys := by
  cases h with
  | inserted hi => exact hi.keys
  | updated _ _ _ _ hu => exact hu.keys

/-- How the transaction of a version ends: the version is upserted, or the keys are at least left alone. -/
def VersionEnds (e : Env) (kv : KeyVersion) (s : Session) (r : Except AgentError Unit) (s' : Session) : Prop :=
  VersionUpserted e kv s.db s'.db ∨ (∃ err, r = .error err) ∧ s'.db = s.db

theorem ends_upsertKeyVersionSteps {req : UpsertKeyVersionRequest} :
    (upsertKeyVersionSteps e C S fuel node req).Ends s (VersionEnds e (req.keyVersion e) s) := by
  unfold upsertKeyVersionSteps
  refine Tx.Ends.mapError_bind ends_query ?_ fun err s₁ h => .inr ⟨⟨_, rfl⟩, by rw [h.1]⟩
  rintro _ s₁ ⟨rfl, -⟩
  refine Tx.Ends.mapError_bind ends_query ?_ fun err s₂ h => .inr ⟨⟨_, rfl⟩, by rw [h.1]⟩
  rintro key s₂ ⟨rfl, -⟩
  refine Tx.Ends.lift_bind (fun _ _ => ?_) fun err _ => .inr ⟨⟨err, rfl⟩, rfl⟩
  refine Tx.Ends.bind ends_fetchKeyVersion ?_ fun err s₃ h => .inr ⟨⟨err, rfl⟩, by rw [h]⟩
  rintro old s₃ rfl
  split
  · refine Tx.Ends.mapError ends_exec ?_ ?_
    · rintro _ s' (⟨db, -, hu, rfl⟩ | ⟨_, h, -⟩)
      · obtain ⟨_, ht, hk, hv, hr, hu⟩ := DB.updateKeyVersionStates_ok hu
        exact .inl (.updated ht hk hv hr hu)
      · cases h
    · rintro err s' (⟨_, h, -⟩ | ⟨_, -, rfl, -⟩)
      · cases h
      · exact .inr ⟨⟨_, rfl⟩, rfl⟩
  · refine Tx.Ends.mapError_bind ends_exec ?_ ?_
    · rintro _ s' (⟨db, -, hu, rfl⟩ | ⟨_, h, -⟩)
      · obtain ⟨row, hi⟩ := DB.createKeyVersion_ok hu
        have hupserted : VersionUpserted e (req.keyVersion e) s₃.db db := .inserted hi
        refine ends_createSecret.mono fun _ s'' (h : s''.db = db) => .inl ?_
        rwa [h]
      · cases h
    · rintro err s' (⟨_, h, -⟩ | ⟨_, -, rfl, -⟩)
      · cases h
      · exact .inr ⟨⟨_, rfl⟩, rfl⟩

theorem ends_upsertKeySteps {req : UpsertKeyRequest} :
    (upsertKeySteps e req).Ends s fun r s' =>
      (∃ k, r = .ok k ∧ Upserted e (req.key e) s.db k s'.db) ∨ ∃ err, r = .error err := by
  refine Tx.Ends.mapError (P := fun r s' => (∃ k, r = .ok k ∧ Upserted e (req.key e) s.db k s'.db) ∨
    ∃ err, r = .error err) ?_ ?_ fun err _ _ => .inr ⟨_, rfl⟩
  · refine Tx.Ends.bind ends_query ?_ fun err _ _ => .inr ⟨err, rfl⟩
    rintro _ s₁ ⟨rfl, -⟩
    refine ends_upsertKey.mono ?_
    rintro r s' (⟨k, db', rfl, rfl, hu⟩ | ⟨err, rfl, -⟩)
    · exact .inl ⟨k, rfl, hu⟩
    · exact .inr ⟨err, rfl⟩
  · rintro k s' (⟨_, ⟨⟩, hu⟩ | ⟨_, h⟩)
    · exact .inl ⟨k, rfl, hu⟩
    · cases h

/-- A request that is not about a key and keeps the keys. -/
theorem agentEffect_of_sameKeys (req : AgentRequest) (hreq : ∀ r, req ≠ .upsertKey r)
    (h : (req.steps e C S fuel node).Ends w.session fun _ s' => SameKeys w.session s') :
    AgentEffect e w (transaction e AgentError.retry (req.steps e C S fuel node) w).2.2 req
      (answerOf (transaction e AgentError.retry (req.steps e C S fuel node) w).1) := by
  refine .untouched ?_ fun r h => absurd h (hreq r)
  rcases transaction_cases e AgentError.retry h with
    ⟨_, s, hq, heq⟩ | ⟨er, s, -, heq⟩ | ⟨_, s, er, -, -, heq⟩ | ⟨er, -, heq⟩ <;> rw [heq]
  exact hq

/-- **A request at an agent.** -/
theorem agentHandle_effect {req : AgentRequest} :
    AgentEffect e w (agentHandle e C S fuel node req w).2 req (agentHandle e C S fuel node req w).1 := by
  unfold agentHandle
  split
  · exact .untouched rfl fun _ _ => nofun
  · cases req with
    | upsertTenant req =>
      exact agentEffect_of_sameKeys (.upsertTenant req) (fun _ h => by cases h) ends_upsertTenantSteps
    | upsertKeyVersion req =>
      refine agentEffect_of_sameKeys (.upsertKeyVersion req)
        (fun _ h => by cases h) (ends_upsertKeyVersionSteps.mono ?_)
      rintro r s' (hu | ⟨-, hdb⟩)
      · exact hu.keys
      · exact congrArg DB.keys hdb
    | upsertKey req =>
      have hends : ((AgentRequest.upsertKey req).steps e C S fuel node).Ends w.session fun r s' =>
          (∃ k, r = .ok () ∧ Upserted e (req.key e) w.db k s'.db) ∨ ∃ err, r = .error err := by
        refine Tx.Ends.bind ends_upsertKeySteps ?_ ?_
        · rintro k s' (⟨_, ⟨⟩, hu⟩ | ⟨_, h⟩)
          · exact .inl ⟨k, rfl, hu⟩
          · cases h
        · rintro err s' -
          exact .inr ⟨err, rfl⟩
      rcases transaction_cases e AgentError.retry hends with
        ⟨_, s, hq, heq⟩ | ⟨er, s, -, heq⟩ | ⟨_, s, er, -, -, heq⟩ | ⟨er, -, heq⟩ <;> rw [heq]
      · obtain ⟨k, -, hu⟩ | ⟨_, h⟩ := hq
        · exact .upserted hu
        · cases h
      · exact .untouched rfl fun _ _ => AgentError.answer_ne_ok er
      · exact .untouched rfl fun _ _ => AgentError.answer_ne_ok (.retry er)
      · exact .untouched rfl fun _ _ => AgentError.answer_ne_ok (.retry er)
/-- A version request that is answered `ok` upserts its version. -/
theorem agentHandle_version {req : UpsertKeyVersionRequest}
    (hok : (agentHandle e C S fuel node (.upsertKeyVersion req) w).1 = .ok) :
    VersionUpserted e (req.keyVersion e) w.db (agentHandle e C S fuel node (.upsertKeyVersion req) w).2.db := by
  unfold agentHandle at hok ⊢
  split at hok
  · rename_i err _
    exact absurd hok (AgentError.answer_ne_ok (.abort err))
  · have hends : ((AgentRequest.upsertKeyVersion req).steps e C S fuel node).Ends w.session _ :=
      ends_upsertKeyVersionSteps
    rcases transaction_cases e AgentError.retry hends with
      ⟨_, s, hq, heq⟩ | ⟨er, s, -, heq⟩ | ⟨_, s, er, -, -, heq⟩ | ⟨er, -, heq⟩ <;> rw [heq] at hok ⊢
    · obtain hu | ⟨⟨_, h⟩, -⟩ := hq
      · exact hu
      · cases h
    · exact absurd hok (AgentError.answer_ne_ok er)
    · exact absurd hok (AgentError.answer_ne_ok (.retry er))
    · exact absurd hok (AgentError.answer_ne_ok (.retry er))

end

end Krypton
