import Krypton.Transaction

/-!
# Key operations and key actions

The transaction steps that write keys (`internal/keyoperator/key.go`) and the action that moves a key or a tree of keys
towards a lifecycle state (`internal/orchestrator/keyaction.go`): it marks the selected keys pending, layer by layer,
and prepares one job per layer.
-/

namespace Krypton

open Lib

section
variable (e : Env)

/-! ## Upsert and compare-and-set -/

/-- Adopt the stored key that clashes with `newKey`: when it is the same key, set its states to those of `newKey`. -/
def adoptExisting (newKey : Key) (existing : Key) : Step Key := do
  Tx.lift (check (existing.isSame newKey) (.of .keyConflict))
  let query := exec e .updateKeyStates fun db => db.updateKeyStates
    ⟨existing.id, existing.tenantID, newKey.lifeCycleState, newKey.status, [existing.lifeCycleState],
      [existing.status], e.now⟩
  match ← query.attempt with
  | .ok () => return { newKey with id := existing.id }
  | .error err =>
    -- no row matched: the key is in the requested state already
    if err.is .keyNotFound then return { newKey with id := existing.id } else Tx.fail (.wrap .updateKeyState err)

/-- `UpsertKey`: insert a key, or reconcile the stored one of that name. The result carries the stored identifier. -/
def upsertKey (newKey : Key) : Step Key := do
  match ← (exec e .createKey fun db => db.createKey newKey).attempt with
  | .ok () => return newKey
  | .error err =>
    if !err.is .keyInsertConflict then Tx.fail (.wrap .createKey err)
    else match ← (query e .getKeyByName fun db => db.getKeyByName newKey.tenantID newKey.name).attempt with
      | .ok existing => adoptExisting e newKey existing
      | .error err =>
        if !err.is .keyNotFound then Tx.fail (.wrap .getKey err)
        else match ← (query e .getKeyByID fun db => db.getKeyByID newKey.id newKey.tenantID).attempt with
          | .ok existing => adoptExisting e newKey existing
          | .error err => Tx.fail (.wrap .getKey err)

/-- The inputs of a key transition. -/
structure Transition where
  fromLifeCycle : List KeyLifeCycleState
  toLifeCycle : KeyLifeCycleState
  fromProcessing : List KeyProcessingStatus
  toProcessing : KeyProcessingStatus

/-- `UpdateKeyState`: compare-and-set, where no matching row is a rejected transition. -/
def updateKeyState (site : Site) (tenantID keyID : String) (t : Transition) : Step Unit :=
  (exec e site fun db => db.updateKeyStates
    ⟨keyID, tenantID, t.toLifeCycle, t.toProcessing, t.fromLifeCycle, t.fromProcessing, e.now⟩).mapError fun err =>
      if err.is .keyNotFound then .wrap .keyTransitionRejected err else .wrap .updateKeyState err

/-! ## Actions on key trees -/

/-- What an action's jobs are for, and the lifecycle state it leads to. -/
structure HandlerConfig where
  handlerType : ActionType
  toState : KeyLifeCycleState

def ActionType.handlerConfig (action : ActionType) : HandlerConfig := ⟨action, action.toState⟩

/-- The keys an action is for; a filter may leave the lifecycle state or the statuses open. -/
structure KeyFilter where
  lifeCycleState : Option KeyLifeCycleState
  status : List KeyProcessingStatus
  deriving DecidableEq, Repr

structure ApplyKeyActionRequest where
  tenantID : String
  keyID : String
  keyFilters : List KeyFilter
  cascading : Bool
  /-- Leaves before their parents. -/
  bottomUp : Bool
  handlerConfig : HandlerConfig

/-- An error that says no key was found, whatever the store called it. -/
def mapKeyNotFoundErr (err : Err) : Err := if err.is .keyNotFound then .of .noKeysFound else err

def toStoreFilters (fs : List KeyFilter) : List DB.KeyFilter := fs.map fun f => ⟨f.lifeCycleState, f.status⟩

/-- The keys an action applies to: the filtered tree below a key, or the key alone if a filter holds of it. -/
def fetchKeytree (a : ApplyKeyActionRequest) (db : DB) : Except Err KeyTree :=
  if a.cascading then
    (db.getDescendantKeys a.keyID a.tenantID (toStoreFilters a.keyFilters)).mapError mapKeyNotFoundErr
  else do
    let key ← (db.getKeyByID a.keyID a.tenantID).mapError mapKeyNotFoundErr
    if a.keyFilters.any fun f =>
        f.lifeCycleState == some key.lifeCycleState && (f.status.isEmpty || f.status.contains key.status) then
      .ok [[key]]
    else .error (.of .noKeysFound)

/-- Mark the keys of a layer that are not there yet as pending for `toState`, and list them. -/
def applyLayer (toState : KeyLifeCycleState) : List Key → Step (List KeyIdentifier)
  | [] => return []
  | key :: keys =>
    if key.lifeCycleState = toState ∧ key.status = .completed then applyLayer toState keys
    else do
      (updateKeyState e (.updateKey key.id) key.tenantID key.id
        ⟨[key.lifeCycleState], toState, [key.status], .pending⟩).mapError
          (.context ("updating key " ++ key.id ++ " state"))
      let ids ← applyLayer toState keys
      return ⟨key.id, key.tenantID⟩ :: ids

/-- One job for each layer with a key to move. -/
def applyLayers (cfg : HandlerConfig) : KeyTree → Step JobGroup
  | [] => return []
  | layer :: layers => do
    let ids ← applyLayer e cfg.toState layer
    let jobs ← applyLayers cfg layers
    return if ids.isEmpty then jobs else .layer cfg.handlerType ids :: jobs

/-- The layers in the order in which they are gone through. -/
def ApplyKeyActionRequest.ordered (a : ApplyKeyActionRequest) (kt : KeyTree) : KeyTree :=
  if a.bottomUp then kt.reverse else kt

/-- `ApplyKeyAction`. -/
def applyKeyAction (a : ApplyKeyActionRequest) : Step Unit := do
  let kt ← query e .keyTree (fetchKeytree a)
  let jobs ← applyLayers e a.handlerConfig (a.ordered kt)
  Tx.lift (check (!jobs.isEmpty) (.detail .noEligibleKeys "no actionable keys found"))
  prepareJobGroup e jobs

end

end Krypton
