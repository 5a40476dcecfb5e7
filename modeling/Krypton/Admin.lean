import Krypton.Orchestrator.Task

/-!
# The admin API of the root

The calls an administrator makes: creating tenants, announcing keys and moving them through their lifecycle
(`admin/keys/key_service.go`), and binding providers to root keys (`admin/rootkey/service.go`, `rootmanager.go`).
Each is a function of the surroundings and the world; a call that is refused leaves the database as it was.
-/

namespace Krypton

open Lib

section
variable (R : RootProcess) (e : Env)

/-! ## Tenants -/

/-- `CreateTenant`; the statement runs outside of a transaction. -/
def createTenant (name : String) (labels : Labels) (w : World) : Except Err Tenant × World :=
  let tenant := newTenant e.uuid e.now name labels
  if e.fails .upsertTenant then (.error errDatabase, w)
  else match w.db.upsertTenant tenant with
    | .error err => (.error err, w)
    | .ok db => (.ok tenant, { w with db })

/-! ## Announcing -/

structure AnnounceKeyRequest where
  tenantID : String
  kind : String
  name : String
  parentID : String
  targetName : String
  labels : Labels
  deriving DecidableEq, Repr

/-- The key a request asks for; without a target it is the root's own. -/
def announcedKey (req : AnnounceKeyRequest) : Key :=
  newKey e.uuid e.now req.tenantID req.name req.kind (if req.parentID = "" then none else some req.parentID)
    (if req.targetName = "" then R.cfg.name else req.targetName) req.labels

/-- The chain of an announce's transaction. -/
def announceSteps (key : Key) : Step Key := do
  query e .validateTenant (Validator.validateTenant key.tenantID)
  query e .validateKey (Validator.validateKeyHierarchy key R.cfg.hierarchy)
  let key ← upsertKey e key
  prepareJobGroup e [.announce key]
  return key

def AnnounceKeyRequest.input (req : AnnounceKeyRequest) : Validator.AnnounceInput :=
  ⟨req.tenantID, req.kind, req.name, req.parentID, req.targetName⟩

/-- `AnnounceKey`. -/
def announceKey (req : AnnounceKeyRequest) (w : World) : Except Err Key × List JobGroup × World :=
  match Validator.validateKeyAnnounceRequest req.input R.cfg with
  | .error err => (.error err, [], w)
  | .ok () => transaction e id (announceSteps R e (announcedKey R e req)) w

/-! ## Lifecycle actions -/

structure KeyRequest where
  tenantID : String
  id : String
  cascading : Bool
  deriving DecidableEq, Repr

/-- The states from which an action may take a key. -/
def keyFilters : ActionType → List KeyFilter
  | .activate => [⟨some .active, [.completed, .failed]⟩, ⟨some .suspended, [.completed]⟩,
      ⟨some .preActivation, [.completed]⟩]
  | .deactivate => [⟨some .deactivated, [.completed, .failed]⟩, ⟨some .active, [.completed]⟩,
      ⟨some .suspended, [.completed, .pending, .failed]⟩]
  | .suspend => [⟨some .suspended, [.completed, .failed]⟩, ⟨some .active, [.completed]⟩]

/-- Activation goes from the root of the tree down, the others from the leaves up. -/
def actionRequest (action : ActionType) (req : KeyRequest) : ApplyKeyActionRequest :=
  ⟨req.tenantID, req.id, keyFilters action, req.cascading, action ≠ .activate, action.handlerConfig⟩

/-- The chain of an action's transaction; only activation looks at the ancestors. -/
def actionSteps (action : ActionType) (req : KeyRequest) : Step Unit := do
  query e .validateTenant (Validator.validateTenant req.tenantID)
  if action = .activate then
    query e .validateKey (Validator.validateKeyParents req.tenantID req.id)
  applyKeyAction e (actionRequest action req)

/-- A lifecycle call: check the identifiers, then run the action's transaction. -/
def keyAction (action : ActionType) (req : KeyRequest) (w : World) : Except Err Unit × List JobGroup × World :=
  match Validator.validateKeyRequest req.tenantID req.id with
  | .error err => (.error err, [], w)
  | .ok () => transaction e id (actionSteps e action req) w

/-- `ActivateKey`. -/
def activateKey : KeyRequest → World → Except Err Unit × List JobGroup × World := keyAction e .activate

/-- `SuspendKey`. -/
def suspendKey : KeyRequest → World → Except Err Unit × List JobGroup × World := keyAction e .suspend

/-- `DeactivateKey`. -/
def deactivateKey : KeyRequest → World → Except Err Unit × List JobGroup × World := keyAction e .deactivate

/-! ## Provider operations of the root manager -/

/-- Write a provider spec to the root vault; the import may take effect and still report an error. -/
def importSpec (tenantID keyID : String) (spec : SealerSpec) : Step Unit := fun s =>
  if e.fails .importSpec then (.error (.plain "vault import failed"), s)
  else (if e.fails .importSpecReply then .error (.plain "vault import failed") else .ok (),
    { s with specs := Function.update s.specs (tenantID, keyID) (some spec) })

/-- The stored provider spec of a key. -/
def loadSpec (tenantID keyID : String) : Step SealerSpec := fun s =>
  if e.fails .exportSpec then (.error (.plain "vault export failed"), s) else (exportSpec s.specs tenantID keyID, s)

/-- A version of a key that stands for a key of its provider. -/
def providerKeyVersion (tenantID keyID : String) (version : Nat) (t : SealerType) (providerKeyID : String) :
    KeyVersion :=
  (newKeyVersion e.now tenantID keyID version none none).withLabels [(providerKeyLabel t, providerKeyID)]

def createProviderSteps (tenantID keyID : String) (spec : SealerSpec) (providerKeyID : String) : Step Unit := do
  query e .validateTenant (Validator.validateTenant tenantID)
  query e .validateKey (Validator.validateKeyUsage tenantID keyID .link)
  importSpec e tenantID keyID spec
  exec e .createKeyVersion fun db => db.createKeyVersion (providerKeyVersion e tenantID keyID 1 spec.type providerKeyID)

def rotateAuthSteps (tenantID keyID : String) (t : SealerType) (auth : SealerAuth) : Step Unit := do
  query e .validateTenant (Validator.validateTenant tenantID)
  query e .validateKey (Validator.validateKeyUsage tenantID keyID .rotate)
  let spec ← loadSpec e tenantID keyID
  Tx.lift (check (spec.type = t) (.of .providerTypeMismatch))
  importSpec e tenantID keyID { spec with auth := some auth }

def rotateProviderKeySteps (tenantID keyID : String) (t : SealerType) (providerKeyID : String) : Step Unit := do
  query e .validateTenant (Validator.validateTenant tenantID)
  query e .validateKey (Validator.validateKeyUsage tenantID keyID .rotate)
  let spec ← loadSpec e tenantID keyID
  Tx.lift (check (spec.type = t) (.of .providerTypeMismatch))
  let latest ← query e .latestVersion fun db => latestProviderKeyVersion db tenantID keyID
  exec e .createKeyVersion fun db =>
    db.createKeyVersion (providerKeyVersion e tenantID keyID (latest.version + 1) t providerKeyID)

/-- Removing a provider that is not there is no error. -/
def removeProviderSteps (tenantID keyID : String) : Step Unit := do
  query e .validateTenant (Validator.validateTenant tenantID)
  fun s =>
    if e.fails .importSpec then (.error (.plain "vault delete failed"), s)
    else (if e.fails .importSpecReply then .error (.plain "vault delete failed") else .ok (),
      { s with specs := Function.update s.specs (tenantID, keyID) none })

/-- The provider types that may be bound to a root key. -/
def RootProcess.allowed (R : RootProcess) : List SealerType := R.cfg.rootKey.elim [] RootKeySpec.allowedProviders

/-! ## The provider service -/

/-- A request's choice of provider, with what it gives for it. -/
inductive ProviderChoice (α : Type) where
  | staticSecret (value : α)
  | awsKms
  | unset

def validateIDs (tenantID keyID : String) : Except Err Unit := do
  check (Validator.isValidUUID tenantID) (.plain "tenant ID must be a valid UUID")
  check (Validator.isValidUUID keyID) (.plain "key ID must be a valid UUID")

def errUnsupportedProvider : Err := .plain "provider is not supported"

/-- The provider's name for its key. -/
def providerKey : ProviderChoice String → Except Err (SealerType × String)
  | .staticSecret id => if id = "" then .error (.plain "provider key is required") else .ok (.staticSecret, id)
  | _ => .error errUnsupportedProvider

def providerAuth : ProviderChoice Unit → Except Err (SealerType × SealerAuth)
  | .staticSecret () => .ok (.staticSecret, .staticSecret)
  | _ => .error errUnsupportedProvider

/-- The spec of a static secret, given by its name and bytes. -/
def providerSpec : ProviderChoice (String × Bytes) → Except Err SealerSpec
  | .staticSecret (name, raw) =>
    if raw = [] then .error (.plain "secret is required")
    else .ok ⟨name, .staticSecret, some (.staticSecret ⟨.inline, some (.inline (some raw))⟩), none⟩
  | _ => .error errUnsupportedProvider

structure CreateProviderRequest where
  tenantID : String
  keyID : String
  providerKey : ProviderChoice String
  auth : ProviderChoice Unit
  config : ProviderChoice (String × Bytes)

/-- What a request asks to bind: the spec and the provider's name for the key. -/
def CreateProviderRequest.spec (req : CreateProviderRequest) : Except Err (SealerSpec × String) := do
  validateIDs req.tenantID req.keyID
  let (keyType, providerKeyID) ← Krypton.providerKey req.providerKey
  let (authType, auth) ← providerAuth req.auth
  let spec ← providerSpec req.config
  check (spec.type = authType && spec.type = keyType)
    (.plain "provider config and provider key must use the same provider")
  return ({ spec with auth := some auth }, providerKeyID)

/-- `CreateProvider`. -/
def createProvider (req : CreateProviderRequest) (w : World) : Except Err Unit × World :=
  match req.spec with
  | .error err => (.error err, w)
  | .ok (spec, providerKeyID) =>
    if !R.allowed.contains spec.type then (.error (.of .providerNotAllowed), w)
    else match spec.validate with
      | .error err => (.error err, w)
      | .ok () =>
        let (r, _, w') := transaction e id (createProviderSteps e req.tenantID req.keyID spec providerKeyID) w
        (r, w')

/-- `RotateAuth`. -/
def rotateAuth (tenantID keyID : String) (auth : ProviderChoice Unit) (w : World) : Except Err Unit × World :=
  match validateIDs tenantID keyID >>= fun _ => providerAuth auth with
  | .error err => (.error err, w)
  | .ok (t, a) =>
    let (r, _, w') := transaction e id (rotateAuthSteps e tenantID keyID t a) w
    (r, w')

/-- `RotateProviderKey`. -/
def rotateProviderKey (tenantID keyID : String) (key : ProviderChoice String) (w : World) : Except Err Unit × World :=
  match validateIDs tenantID keyID >>= fun _ => Krypton.providerKey key with
  | .error err => (.error err, w)
  | .ok (t, providerKeyID) =>
    let (r, _, w') := transaction e id (rotateProviderKeySteps e tenantID keyID t providerKeyID) w
    (r, w')

/-- `RemoveProvider`. -/
def removeProvider (tenantID keyID : String) (w : World) : Except Err Unit × World :=
  match validateIDs tenantID keyID with
  | .error err => (.error err, w)
  | .ok () =>
    let (r, _, w') := transaction e id (removeProviderSteps e tenantID keyID) w
    (r, w')

end

end Krypton
