import Krypton.Orchestrator.KeyAction

/-!
# Tasks

The task handlers of the root: `TaskHandler` for activating, suspending and deactivating one key
(`internal/orchestrator/task.go`, `keyoperator.go`), and the confirmer and handler for announcing one
(`announce_taskresolver.go`, `announce_task.go`). A handler runs in one transaction and ends in a `Response` to orbital.
An error that says `fail` or `complete` lets the transaction commit, one that says `continue` rolls it back.
-/

namespace Krypton

open Lib

/-- The root process: its configuration and what its start-up code builds from it. -/
structure RootProcess where
  cfg : RootConfig
  process : Process
  aead : Aead
  /-- `KeyOperatorConfig`: the manager, the configuration and the registered connections; each may be nil. -/
  manager : Option Manager
  rootCfg : Option RootConfig
  registry : Option (List String)

/-- The deployment as the root's own manager sees it; it calls no other node. -/
def RootProcess.cluster (R : RootProcess) : Cluster := ⟨R.aead, R.process, fun _ => R.manager, fun _ => none⟩

/-- The chain of parents a secret goes up to is no longer than the hierarchy. -/
def RootProcess.fuel (R : RootProcess) : Nat := R.cfg.hierarchy.keySpecs.length

/-- What the root's manager reads: the committed database and the vaults. -/
def Session.cluster (s : Session) : ClusterState := ⟨s.committed, fun _ => s.committed, s.vault, s.specs⟩

/-! ## Responses -/

/-- What a handler tells orbital to do with the task. -/
inductive Response where
  /-- Deliver it again after some seconds. -/
  | continueAndWaitFor (seconds : Nat)
  | fail (message : String)
  | complete
  deriving DecidableEq, Repr

/-- `OrbitalOperatorError`. -/
inductive OrbitalOperatorError where
  | continue (err : Err)
  | fail (err : Err)
  | complete

/-- `RetryBackoff`, in seconds. -/
def retryBackoff : Nat := 30

/-- An error that ends the chain of a task's transaction. -/
inductive TaskError where
  | orbital (o : OrbitalOperatorError)
  | plain (err : Err)

/-- `Apply` inside the transaction: `continue` is an error there, the others are not. -/
def OrbitalOperatorError.apply : OrbitalOperatorError → Except TaskError Response
  | .continue err => .error (.plain err)
  | .fail err => .ok (.fail err.text)
  | .complete => .ok .complete

/-- The response for the error a transaction ended with. -/
def TaskError.response : TaskError → Response
  | .orbital (.fail err) => .fail err.text
  | .orbital .complete => .complete
  | .orbital (.continue _) => .continueAndWaitFor retryBackoff
  | .plain _ => .continueAndWaitFor retryBackoff

abbrev Operation (α : Type) : Type := Tx Session OrbitalOperatorError α

section
variable (R : RootProcess) (e : Env)

/-! ## The key operator -/

def updateKeyStatesQuery (key : Key) (src dst : KeyProcessingStatus) : DB.UpdateKeyStatesQuery :=
  ⟨key.id, key.tenantID, key.lifeCycleState, dst, [key.lifeCycleState], [src], e.now⟩

/-- `MarkKeyFailed`: persist the failure, then fail for good. -/
def markKeyFailed {α : Type} (key : Key) (failedErr : Err) : Operation α := do
  (exec e .markFailed fun db => db.updateKeyStates (updateKeyStatesQuery e key key.status .failed)).mapError .continue
  Tx.fail (.fail failedErr)

def markKeyCompleted (key : Key) : Operation Unit :=
  (exec e .markCompleted fun db =>
    db.updateKeyStates (updateKeyStatesQuery e key .pending .completed)).mapError .continue

def loadKey (kid : KeyIdentifier) : Operation Key :=
  (query e .loadKey fun db => db.getKeyByID kid.id kid.tenantID).mapError fun err =>
    if err.is .keyNotFound then .fail (.context "key not found" err) else .continue err

/-- Set the highest version of the key to the key's lifecycle state; `none` when there is no version yet. -/
def fetchAndUpdateExistingKeyVersion (key : Key) : Step (Option KeyVersion) := do
  match ← query e .listKeyVersions fun db => db.listKeyVersions
      ⟨key.tenantID, key.id, 0, none, none, [.versionDesc, .revisionDesc]⟩ with
  | [] => return none
  | kv :: _ => do
    exec e .updateKeyVersion fun db => db.updateKeyVersionStates
      ⟨kv.tenantID, kv.keyID, kv.version, kv.revision, [kv.processingState], .usable, [kv.lifeCycleState],
        key.lifeCycleState, e.now⟩
    return some { kv with lifeCycleState := key.lifeCycleState, processingState := .usable }

/-- The version of the parent a new version is derived from: its highest one that is active and usable. -/
def parentKeyVersion (key : Key) : Step (Option Nat) :=
  match key.parentID with
  | none => return none
  | some parentID => do
    match ← query e .listParentKeyVersions fun db => db.listKeyVersions
        ⟨key.tenantID, parentID, 0, some .active, some .usable, [.versionDesc, .revisionDesc]⟩ with
    | [] => Tx.fail (.detail .noParentKeyVersionFound ("parent key version not found for key " ++ key.id))
    | pkv :: _ => return some pkv.version

/-- The first version of a key, below a version of its parent. -/
def firstKeyVersion (key : Key) (parentVersion : Option Nat) : KeyVersion :=
  { newKeyVersion e.now key.tenantID key.id 1 key.parentID parentVersion with
    lifeCycleState := key.lifeCycleState, processingState := .usable }

def deriveKeyVersionFromParent (key : Key) : Step KeyVersion := do
  let parentVersion ← parentKeyVersion e key
  exec e .createKeyVersion fun db => db.createKeyVersion (firstKeyVersion e key parentVersion)
  return firstKeyVersion e key parentVersion

/-- The key's version for this action, and whether it is new. -/
def resolveKeyVersions (key : Key) : Operation (KeyVersion × Bool) := do
  match ← (fetchAndUpdateExistingKeyVersion e key).mapError .continue with
  | some kv => return (kv, false)
  | none =>
    match ← (deriveKeyVersionFromParent e key).attempt with
    | .ok kv => return (kv, true)
    | .error err => if err.is .noParentKeyVersionFound then markKeyFailed e key err else Tx.fail (.continue err)

def errInternal (text : String) : Err := .detail .internal text

/-- Store a sealed secret; the import may take effect and still report an error. -/
def importKey (entry : VaultKey × VaultEntry) : Step Unit := fun s =>
  if e.fails .importKey then (.error (.plain "vault import failed"), s)
  else (if e.fails .importKeyReply then .error (.plain "vault import failed") else .ok (),
    { s with vault := Function.update s.vault entry.1 (some entry.2) })

/-- Generate and seal the secret of a new version of a key the root itself manages, unless it is a root key. -/
def generateAndSeal (key : Key) (kv : KeyVersion) (isNewKV : Bool) : Operation Unit :=
  match R.manager, R.rootCfg with
  | none, _ => markKeyFailed e key (errInternal "key processor manager is nil")
  | some _, none => markKeyFailed e key (errInternal "config is nil")
  | some _, some cfg =>
    match cfg.hierarchy.findKeySpec key.kind with
    | none => markKeyFailed e key (errInternal ("key kind " ++ key.kind ++ " not found in hierarchy"))
    | some spec =>
      if key.managedBy ≠ cfg.name ∨ spec.role = .root ∨ isNewKV = false then return ()
      else Tx.mapError .continue do
        let entry ← fun s =>
          if e.fails .generate then (.error (.plain "failed to generate and seal"), s)
          else (generateAndSealSecret R.cluster s.cluster R.fuel cfg.name key.kind e.draw kv kv.aad, s)
        importKey e entry

/-- The answer to an upsert sent to an agent. -/
def upsertAnswer (key : Key) (site : RpcSite) (what : String) : Operation Unit :=
  match e.rpc site with
  | .ok => return ()
  | .error _ retryable =>
    if retryable then Tx.fail (.continue (.plain "rpc error"))
    else markKeyFailed e key
      (.plain ("failed to upsert " ++ what ++ " to remote agent " ++ key.managedBy ++ ": rpc error"))

/-- Push the key and its version to the agent that manages it; the root's own keys are skipped. -/
def upsertRemote (key : Key) : Operation Unit :=
  match R.registry, R.rootCfg with
  | none, _ => markKeyFailed e key (errInternal "registry is nil, cannot upsert key version")
  | some _, none => markKeyFailed e key (errInternal "config is nil")
  | some names, some cfg =>
    if key.managedBy = cfg.name then return ()
    else if names.contains key.managedBy then do
      upsertAnswer e key .upsertKey "key"
      upsertAnswer e key .upsertKeyVersion "key version"
    else markKeyFailed e key (errInternal ("no connection found for agent " ++ key.managedBy))

/-! ## The task handler -/

/-- The steps on one key, after its guard. -/
def processKey (kid : KeyIdentifier) : Operation Unit := do
  let key ← loadKey e kid
  let (kv, isNewKV) ← resolveKeyVersions e key
  generateAndSeal R e key kv isNewKV
  upsertRemote R e key
  markKeyCompleted e key

/-- The chain of a task's transaction: the tenant exists, the key still waits for this action, the steps. -/
def taskSteps (toState : KeyLifeCycleState) (kid : KeyIdentifier) : Tx Session TaskError Response := do
  (query e .validateTenant (Validator.validateTenant kid.tenantID)).mapError fun err =>
    .orbital (if err.is .tenantNotFound then .fail err else .continue err)
  let key ← (query e .ensureKey fun db => db.getKeyByID kid.id kid.tenantID).mapError fun err =>
    .orbital (if err.is .keyNotFound then .fail err else .continue err)
  Tx.lift (check (key.lifeCycleState = toState && key.status = .pending) (.orbital .complete))
  match ← (processKey R e kid).attempt with
  | .ok () => return .complete
  | .error o => Tx.lift o.apply

/-- `TaskHandler.Handle`. -/
def handleTask (action : ActionType) (kid : KeyIdentifier) (w : World) : Response × World :=
  match transaction e .plain (taskSteps R e action.toState kid) w with
  | (.ok resp, _, w') => (resp, w')
  | (.error err, _, w') => (err.response, w')

/-! ## Announcing -/

inductive ConfirmResult where
  | complete | continue
  | cancel (reason : String)
  deriving DecidableEq, Repr

/-- Mark a pending key as in progress, whatever its lifecycle state. -/
def confirmSteps (key : Key) : Step Unit := do
  let existing ← query e .getKeyByID fun db => db.getKeyByID key.id key.tenantID
  if existing.status = .pending then
    match ← (exec e .updateKeyStates fun db => db.updateKeyStates
        ⟨key.id, key.tenantID, existing.lifeCycleState, .inProgress, [existing.lifeCycleState], [.pending],
          e.now⟩).attempt with
    | .ok () => return ()
    | .error err => if err.is .keyNotFound then return () else Tx.fail err
  else return ()

/-- `AnnounceTaskResolver.ConfirmJob`. -/
def confirmAnnounce (key : Key) (w : World) : ConfirmResult × World :=
  match transaction e id (confirmSteps e key) w with
  | (.ok (), _, w') => (.complete, w')
  | (.error err, _, w') =>
    (if err.is .keyNotFound then .cancel ("key " ++ key.tenantID ++ ":" ++ key.id ++ " not found") else .continue, w')

/-- What an announce has found out so far: the status to record and a message. -/
structure AnnounceState where
  state : Option KeyProcessingStatus
  errMsg : String

def AnnounceState.failed (msg : String) : AnnounceState := ⟨some .failed, msg⟩

/-- The answer to an upsert sent while announcing. -/
def announceAnswer (key : Key) (site : RpcSite) (success : AnnounceState) : Step AnnounceState :=
  match e.rpc site with
  | .ok => return success
  | .error terminal _ =>
    if terminal then return .failed ("upsert rejected by agent " ++ quote key.managedBy ++ ": rpc error")
    else Tx.fail (.plain "rpc error")

/-- Call the agent that manages the key, unless the outcome is decided; the root's own keys need no call. -/
def announceUpsert (key : Key) (site : RpcSite) (st success : AnnounceState) : Step AnnounceState :=
  if st.state.isSome then return st
  else if key.managedBy = R.cfg.name then return success
  else match R.registry with
    | none => Tx.fail errNilPointer
    | some names =>
      if names.contains key.managedBy then announceAnswer e key site success
      else return .failed ("no connection registered for target " ++ quote key.managedBy)

/-- A tenant lookup that turns a missing tenant into a failed announce. -/
def announceTenant (site : Site) (key : Key) (st : AnnounceState) : Step AnnounceState := do
  match ← (query e site (Validator.validateTenant key.tenantID)).attempt with
  | .ok () => return st
  | .error err =>
    if err.is .tenantNotFound then return .failed ("tenant " ++ quote key.tenantID ++ " not found") else Tx.fail err

/-- `upsertTenant`: read the tenant again and push it to the agent. -/
def announceUpsertTenant (key : Key) (st : AnnounceState) : Step AnnounceState :=
  if st.state.isSome then return st
  else do
    let st ← announceTenant e .getTenant key st
    announceUpsert R e key .upsertTenant st st

/-- The chain of an announce task's transaction. -/
def announceTaskSteps (key : Key) : Step AnnounceState := do
  let st ← announceTenant e .validateTenant key ⟨none, ""⟩
  let st ← announceUpsertTenant R e key st
  query e .validateKey (Validator.validateTransition key.tenantID key.id .preActivation)
  let st ← announceUpsert R e key .upsertKey st ⟨some .completed, ""⟩
  let st : AnnounceState :=
    if st.state.isSome then st else .failed "internal error: state not set before updating key state"
  updateKeyState e .updateKeyStates key.tenantID key.id
    ⟨[.preActivation], .preActivation, [.inProgress], st.state.getD .failed⟩
  return st

/-- Errors after which an announce is not tried again. -/
def isTerminalTxErr (err : Err) : Bool :=
  err.is .invalidKeyStateTransition || err.is .keyTransitionRejected || err.is .keyNotFound

/-- `AnnounceTaskHandler.Handle`. -/
def handleAnnounce (key : Key) (w : World) : Response × World :=
  match transaction e id (announceTaskSteps R e key) w with
  | (.ok st, _, w') => (if st.state = some .failed then .fail st.errMsg else .complete, w')
  | (.error err, _, w') => (if isTerminalTxErr err then .fail err.text else .continueAndWaitFor 2, w')

end

/-! ## Importing a secret -/

section
variable {e : Env} {s : Session}

/-- The vaults with an entry imported. -/
def Session.imported (s : Session) (entry : VaultKey × VaultEntry) : Session :=
  { s with vault := Function.update s.vault entry.1 (some entry.2) }

theorem ends_importKey {entry : VaultKey × VaultEntry} :
    (importKey e entry).Ends s fun r s' => (s' = s.imported entry) ∨ (∃ err, r = .error err) ∧ s' = s := by
  unfold Tx.Ends importKey
  split
  · exact .inr ⟨⟨_, rfl⟩, rfl⟩
  · exact .inl rfl

/-- A secret is drawn and its entry imported, or nothing happens. -/
theorem ends_drawAndImport (draw : Session → Except Err (VaultKey × VaultEntry)) :
    (do
      let entry ← fun s => if e.fails .generate then (.error (.plain "failed to generate and seal"), s) else (draw s, s)
      importKey e entry : Step Unit).Ends s fun r s' =>
        (s' = s ∧ ∃ err, r = .error err) ∨ ∃ entry, draw s = .ok entry ∧ s' = s.imported entry := by
  refine Tx.Ends.bind (P := fun r s' => s' = s ∧ ((∃ err, r = .error err) ∨ r = draw s)) ?_ ?_ ?_
  · unfold Tx.Ends
    dsimp only
    split
    · exact ⟨rfl, .inl ⟨_, rfl⟩⟩
    · exact ⟨rfl, .inr rfl⟩
  · rintro entry s₁ ⟨rfl, ⟨_, h⟩ | hdraw⟩
    · cases h
    · refine ends_importKey.mono ?_
      rintro r s₂ (rfl | ⟨herr, rfl⟩)
      · exact .inr ⟨entry, hdraw.symm, rfl⟩
      · exact .inl ⟨rfl, herr⟩
  · rintro err _ ⟨rfl, -⟩
    exact .inl ⟨rfl, err, rfl⟩

end

end Krypton
