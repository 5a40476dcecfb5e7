import Krypton.Lib.Aead
import Krypton.Validator

/-!
# Key processors and managers

How a node wraps and unwraps key secrets (`internal/keyprocessor`). A processor keeps the secrets of one kind: it seals
a new secret with its optional transport sealer, then with its parent sealer, and imports the result into its vault;
reading it back undoes the two in the other order. A manager holds the processors of a node; the parent sealer of a
processor is the node's own manager, the root manager, or the manager of another node behind its sealer service.

Going up the chain of parents is a recursion over `fuel`, which stops with the error `outOfFuel` that nothing else
gives; a chain of `n` keys needs `n` of it (see `KeyProcessor.Envelope`).
-/

namespace Krypton

open Lib

/-! ## Vault entries -/

structure VaultKey where
  loc : VaultLoc
  tenantID : String
  keyID : String
  version : Nat
  revision : Nat
  deriving DecidableEq, Repr

structure VaultEntry where
  material : Bytes
  aad : Bytes
  deriving DecidableEq, Repr

/-- All vaults of the deployment, keyed by place and by the exact texts of the identifiers. -/
abbrev Vault : Type := VaultKey → Option VaultEntry

/-- The provider specs in the root vault, by the texts of tenant and key. -/
abbrev SpecStore : Type := String × String → Option SealerSpec

/-- The entry of a key version. -/
def KeyVersion.slot (kv : KeyVersion) (loc : VaultLoc) : VaultKey :=
  ⟨loc, kv.tenantID, kv.keyID, kv.version, kv.revision⟩

def KeyVersionIdent.slot (i : KeyVersionIdent) (loc : VaultLoc) : VaultKey :=
  ⟨loc, i.tenantID, i.keyID, i.version, i.revision⟩

def errNilPointer : Err := .plain "runtime error: invalid memory address or nil pointer dereference"

/-! ## Building managers -/

/-- The sealer a processor hands its secrets to. -/
inductive SealerRef where
  | rootManager
  /-- The manager the processor belongs to. -/
  | self
  /-- The sealer service behind a connection. -/
  | rpc (name : String)
  deriving DecidableEq, Repr

structure Processor where
  cryptor : Option CryptorConfig
  vault : Option VaultLoc
  /-- The key of the transport sealer. -/
  transportSealer : Option Bytes
  parent : SealerRef
  deriving DecidableEq, Repr

structure Manager where
  processors : List (String × Processor)

def Manager.processor (m : Manager) (kind : String) : Option Processor :=
  (m.processors.find? fun p => p.1 == kind).map Prod.snd

structure ManagerConfig where
  process : Process
  bindings : KeyBindings
  hierarchy : KeyHierarchy
  /-- The names of the registered connections. -/
  registry : Option (List String)
  hasRootManager : Bool

def resolveRemoteParent (cfg : ManagerConfig) (name : String) : Except Err SealerRef :=
  match cfg.registry with
  | none => .error (.detail .registryRequired (quote name))
  | some names => if names.contains name then .ok (.rpc name) else .error (.detail .parentNotRegistered (quote name))

def resolveLocalParent (cfg : ManagerConfig) (kind : String) : Except Err SealerRef :=
  match cfg.hierarchy.findParentKeySpec kind with
  | none => .error (.plain ("no parent key spec found for key kind " ++ kind))
  | some parentSpec =>
    if parentSpec.role ≠ .root then .ok .self
    else if cfg.hasRootManager then .ok .rootManager else .error (.plain "root manager is required")

def resolveParent (cfg : ManagerConfig) (kind : String) (binding : KeyBinding) : Except Err SealerRef :=
  match binding.parentKeyProvider with
  | some name => if name ≠ "" then resolveRemoteParent cfg name else resolveLocalParent cfg kind
  | none => resolveLocalParent cfg kind

/-- Build an optional component. -/
def buildOption {α β : Type} (build : α → Except Err β) : Option α → Except Err (Option β)
  | none => .ok none
  | some a => (build a).map some

def newProcessor (P : Process) (binding : KeyBinding) (parent : SealerRef) : Except Err Processor := do
  let cryptor ← buildOption CryptorSpec.getBundle binding.cryptorSpec
  let vault ← buildOption (VaultSpec.getVault P) binding.vaultSpec
  let transportSealer ← buildOption (SealerSpec.getSealer P) binding.sealerSpec
  return { cryptor, vault, transportSealer, parent }

/-- The loop of `NewManager` over the bindings. -/
def newProcessors (cfg : ManagerConfig) : List (String × KeyBinding) → Except Err (List (String × Processor))
  | [] => .ok []
  | (kind, binding) :: rest =>
    match cfg.hierarchy.findKeySpec kind with
    | none => .error (.plain ("no key spec found for key kind " ++ kind))
    | some sp =>
      if sp.role = .root then newProcessors cfg rest
      else do
        let parent ← resolveParent cfg kind binding
        let proc ← (newProcessor cfg.process binding parent).mapError
          (.context ("building processor for key kind " ++ kind))
        let procs ← newProcessors cfg rest
        return (kind, proc) :: procs

def newManager (cfg : ManagerConfig) : Except Err Manager := (newProcessors cfg cfg.bindings.entries).map Manager.mk

/-! ## Ciphers -/

section
variable (A : Aead)

/-- AES-256-GCM encryption with its checks on the request. -/
def encrypt (key nonce plaintext aad : Bytes) : Except Err Bytes := do
  check (plaintext ≠ []) (.context "invalid plaintext" (.of .request))
  check (key.length = keySize) (.context "invalid key size" (.of .request))
  return A.seal key nonce plaintext aad

def decrypt (key ciphertext aad : Bytes) : Except Err Bytes := do
  check (ciphertext ≠ []) (.context "invalid ciphertext" (.of .request))
  check (key.length = keySize) (.context "invalid key size" (.of .request))
  check (28 < ciphertext.length) (.context "ciphertext too short" (.of .request))
  match A.open key ciphertext aad with
  | none => .error (.plain "failed to decrypt: cipher: message authentication failed")
  | some p => .ok p

end

/-! ## Sealing requests -/

/-- A seal or unseal request; the payload is the plaintext or the ciphertext. -/
structure SealRequest where
  tenantID : String
  keyID : String
  keyVersion : Nat
  payload : Bytes
  aad : Bytes

/-- The conversion of a version to `int32` on the wire. -/
def toInt32 (n : Nat) : Int := (n : Int).bmod (2 ^ 32)

/-- What arrives at a sealer service from an RPC manager, if the service accepts it. -/
def rpcRequest (req : SealRequest) : Except Err SealRequest := do
  check (Validator.isValidUUID req.tenantID) (.plain "tenant ID must be a valid UUID")
  check (Validator.isValidUUID req.keyID) (.plain "key ID must be a valid UUID")
  check (0 < toInt32 req.keyVersion) (.plain "key version must be greater than 0")
  check (req.payload ≠ []) (.plain "text is required")
  check (req.aad ≠ []) (.plain "AAD is required")
  return { req with keyVersion := (toInt32 req.keyVersion).toNat }

/-! ## The root manager's sealer -/

def providerKeyLabel (t : SealerType) : String := reservedLabelPrefix ++ t.text ++ ":provider-key"

def exportSpec (specs : SpecStore) (tenantID keyID : String) : Except Err SealerSpec :=
  match specs (tenantID, keyID) with
  | some sp => .ok sp
  | none => .error (.of .vaultKeyNotFound)

/-- The first key version of a listing. -/
def fetchOne (db : DB) (q : DB.ListKeyVersionsQuery) : Except Err KeyVersion := do
  match ← db.listKeyVersions q with
  | [] => .error (.of .noProviderKeyVersion)
  | kv :: _ => .ok kv

def latestProviderKeyVersion (db : DB) (tenantID keyID : String) : Except Err KeyVersion :=
  fetchOne db ⟨tenantID, keyID, 0, none, none, [.versionDesc]⟩

/-- The provider's name for the key behind a version. -/
def resolveLabel (db : DB) (tenantID keyID : String) (version : Nat) (t : SealerType) : Except Err String := do
  let kv ← fetchOne db ⟨tenantID, keyID, version, none, none, [.revisionDesc]⟩
  match kv.labels.get (providerKeyLabel t) with
  | none => .error (.of .providerKeyLabelEmpty)
  | some label => if label = "" then .error (.of .providerKeyLabelEmpty) else .ok label

/-- The key the root manager seals or unseals with, after its checks. -/
def rootSealerKey (P : Process) (db : DB) (specs : SpecStore) (usage : KeyUsage) (req : SealRequest) :
    Except Err Bytes := do
  check (req.keyVersion ≠ 0) (.of .keyVersionRequired)
  Validator.validateTenant req.tenantID db
  Validator.validateKeyUsage req.tenantID req.keyID usage db
  let sp ← exportSpec specs req.tenantID req.keyID
  let key ← sp.getSealer P
  let _ ← resolveLabel db req.tenantID req.keyID req.keyVersion sp.type
  return key

/-! ## Managers at work -/

/-- The processes of a deployment, which do not change. -/
structure Cluster where
  aead : Aead
  rootProcess : Process
  managers : String → Option Manager
  /-- The node whose sealer service a connection reaches. -/
  dial : String → Option String

/-- What the processes of a deployment keep. -/
structure ClusterState where
  rootDB : DB
  db : String → DB
  vault : Vault
  specs : SpecStore

/-- The highest usable revision of a version, or of the version created last for version 0. -/
def resolveUsableKeyVersion (db : DB) (tenantID keyID : String) (version : Nat) : Except Err KeyVersion := do
  let orderBy := if version = 0 then [.createdAtDesc, .revisionDesc] else [.revisionDesc]
  match ← db.listKeyVersions ⟨tenantID, keyID, version, none, some .usable, orderBy⟩ with
  | [] => .error (.detail .noUsableKeyVersion ("key " ++ keyID ++ " version " ++ toString version))
  | kv :: _ => .ok kv

def resolveActiveKey (db : DB) (tenantID keyID : String) (version : Nat) : Except Err (Key × KeyVersion) := do
  let kv ← resolveUsableKeyVersion db tenantID keyID version
  let key ← db.getKeyByID keyID tenantID
  check (key.lifeCycleState = .active)
    (.detail .keyNotActivated ("key " ++ key.id ++ " is in state " ++ key.lifeCycleState.text))
  return (key, kv)

section
variable (C : Cluster) (S : ClusterState)

/-- A way to reach a parent: the sealer, called on the node whose processor asks. -/
abbrev Caller : Type := SealerRef → SealRequest → Except Err Bytes

def transportSeal (p : Processor) (nonce sec aad : Bytes) : Except Err Bytes :=
  match p.transportSealer with
  | none => .ok sec
  | some key => encrypt C.aead key nonce sec aad

def transportUnseal (p : Processor) (sec aad : Bytes) : Except Err Bytes :=
  match p.transportSealer with
  | none => .ok sec
  | some key => decrypt C.aead key sec aad

/-- Hand a secret to the parent, to be sealed or unsealed under the parent version of `kv`. -/
def callParent (call : Caller) (p : Processor) (kv : KeyVersion) (sec aad : Bytes) : Except Err Bytes :=
  match kv.parentKeyID with
  | none => .error (.of .missingParentKey)
  | some parentKeyID => call p.parent ⟨kv.tenantID, parentKeyID, kv.parentKeyVersion.getD 0, sec, aad⟩

/-- Read the secret of a key version back. -/
def resolveSecret (up : Caller) (p : Processor) (kv : KeyVersion) : Except Err Bytes :=
  match p.vault with
  | none => .error errNilPointer
  | some loc =>
    match S.vault (kv.slot loc) with
    | none => .error (.of .vaultKeyNotFound)
    | some exported => do
      let parentUnsealed ← callParent up p kv exported.material exported.aad
      let sec ← transportUnseal C p parentUnsealed exported.aad
      check (sec ≠ []) (.plain "invalid size: must be greater than 0")
      return sec

/-- The processor of a key's kind on a node and the key's secret. -/
def resolveProcessorAndSecret (up : String → Caller) (node tenantID keyID : String) (version : Nat) :
    Except Err (Processor × Bytes) := do
  let (key, kv) ← resolveActiveKey (S.db node) tenantID keyID version
  match (C.managers node).bind fun m => m.processor key.kind with
  | none => .error (.detail .processorNotFound ("key kind " ++ key.kind))
  | some proc => do
    let sec ← resolveSecret C S (up node) proc kv
    return (proc, sec)

/-- `Manager.Unseal` on a node. -/
def managerUnseal (up : String → Caller) (node : String) (req : SealRequest) : Except Err Bytes := do
  check (req.keyVersion ≠ 0) (.of .keyVersionRequired)
  let (proc, sec) ← resolveProcessorAndSecret C S up node req.tenantID req.keyID req.keyVersion
  match proc.cryptor with
  | none => .error errNilPointer
  | some _ => decrypt C.aead sec req.payload req.aad

/-- `Manager.Seal` on a node. -/
def managerSeal (up : String → Caller) (node : String) (nonce : Bytes) (req : SealRequest) : Except Err Bytes := do
  check (req.keyVersion ≠ 0) (.of .keyVersionRequired)
  let (proc, sec) ← resolveProcessorAndSecret C S up node req.tenantID req.keyID req.keyVersion
  match proc.cryptor with
  | none => .error errNilPointer
  | some _ => encrypt C.aead sec nonce req.payload req.aad

def rootUnseal (req : SealRequest) : Except Err Bytes := do
  let key ← rootSealerKey C.rootProcess S.rootDB S.specs .decrypt req
  decrypt C.aead key req.payload req.aad

def rootSeal (nonce : Bytes) (req : SealRequest) : Except Err Bytes := do
  let key ← rootSealerKey C.rootProcess S.rootDB S.specs .encrypt req
  encrypt C.aead key nonce req.payload req.aad

/-- The node a sealer reference leads to from `node`, with the request as it arrives there. -/
def reach (node : String) (ref : SealerRef) (req : SealRequest) : Except Err (String × SealRequest) :=
  match ref with
  | .rpc name => do
    let req ← rpcRequest req
    match C.dial name with
    | none => .error (.plain "rpc error: code = Unavailable")
    | some target => .ok (target, req)
  | _ => .ok (node, req)

/-- Unseal through a sealer reference held on `node`, going up at most `fuel` keys. -/
def unsealVia : Nat → String → Caller
  | 0, _, _, _ => .error (.of .outOfFuel)
  | fuel + 1, node, ref, req =>
    if ref = .rootManager then rootUnseal C S req
    else do
      let (target, req) ← reach C node ref req
      managerUnseal C S (fun n r q => unsealVia fuel n r q) target req

/-- Seal through a sealer reference held on `node`. -/
def sealVia (fuel : Nat) (node : String) (nonce : Bytes) : Caller := fun ref req =>
  if ref = .rootManager then rootSeal C S nonce req
  else do
    let (target, req) ← reach C node ref req
    managerSeal C S (unsealVia C S fuel) target nonce req

/-- `Manager.ExportSecret` on a node. -/
def exportSecret (fuel : Nat) (node tenantID keyID : String) (version : Nat) : Except Err Bytes :=
  (resolveProcessorAndSecret C S (unsealVia C S fuel) node tenantID keyID version).map Prod.snd

/-- Random bytes drawn while a secret is created. -/
structure SecretDraw where
  secret : Bytes
  size : secret.length = keySize
  transportNonce : Bytes
  parentNonce : Bytes

/-- `createSecret` up to the import: generate, seal for transport, seal with the parent. -/
def createSecret (fuel : Nat) (node : String) (p : Processor) (draw : SecretDraw) (kv : KeyVersion) (aad : Bytes) :
    Except Err (VaultKey × VaultEntry) :=
  match p.cryptor with
  | none => .error errNilPointer
  | some _ => do
    let transSealed ← transportSeal C p draw.transportNonce draw.secret aad
    let parentSealed ← callParent (sealVia C S fuel node draw.parentNonce) p kv transSealed aad
    match p.vault with
    | none => .error errNilPointer
    | some loc => return (kv.slot loc, ⟨parentSealed, aad⟩)

/-- `Manager.GenerateAndSealSecret` up to the import. -/
def generateAndSealSecret (fuel : Nat) (node kind : String) (draw : SecretDraw) (kv : KeyVersion) (aad : Bytes) :
    Except Err (VaultKey × VaultEntry) :=
  match (C.managers node).bind fun m => m.processor kind with
  | none => .error (.detail .processorNotFound ("key kind " ++ kind))
  | some proc => createSecret C S fuel node proc draw kv aad

end

end Krypton
