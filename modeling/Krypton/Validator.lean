import Krypton.Config
import Krypton.KeyLifecycle
import Krypton.Store.Statements

/-!
# Validators

The request checks and the transaction steps of `pkg/validator`. A transaction step that only reads is a function of
the database it reads.
-/

namespace Krypton

open Lib

/-- The stored key that the texts name is settled and may be used in this way. -/
structure MayUse (db : DB) (tenantID keyID : String) (usage : KeyUsage) (k : Key) : Prop where
  found : db.getKeyByID keyID tenantID = .ok k
  status : k.status = .completed
  usage : KeyLifecycle.validateKeyUsage k.lifeCycleState usage = .ok ()

theorem MayUse.hasKey {db : DB} {tenantID keyID : String} {usage : KeyUsage} {k : Key}
    (h : MayUse db tenantID keyID usage k) :
    db.HasKey k.ident ∧ uuidIn keyID = some k.id ∧ uuidIn tenantID = some k.tenantID := by
  obtain ⟨hmem, hid, ht⟩ := DB.getKeyByID_ok h.found
  exact ⟨⟨k, hmem, rfl⟩, hid, ht⟩

namespace Validator

/-! ## Requests -/

structure AnnounceInput where
  tenantID : String
  keyKind : String
  name : String
  parentID : String
  targetName : String

def isValidUUID (s : String) : Bool := (uuidParse s).isSome

theorem isValidUUID_of_canonical {s : String} (h : Canonical s) : isValidUUID s = true := Option.isSome_of_mem h.parse

/-- An announce names a tenant, a name and a kind, and a node that manages the kind. -/
def validateKeyAnnounceRequest (input : AnnounceInput) (cfg : RootConfig) : Except Err Unit := do
  check (isValidUUID input.tenantID) (.of .invalidTenantID)
  check (input.name ≠ "") (.of .emptyName)
  check (input.keyKind ≠ "") (.of .emptyKeyKind)
  if input.targetName = "" then
    check (cfg.hierarchy.segmentContains cfg.segment input.keyKind) (.of .targetDoesNotManageKeyKind)
  else match cfg.topology.getSegmentByName input.targetName with
    | none => .error (.of .targetNotInTopology)
    | some seg => check (cfg.hierarchy.segmentContains seg.segment input.keyKind) (.of .targetDoesNotManageKeyKind)

/-- The kind of an accepted announce is in the segment of its target. -/
theorem validateKeyAnnounceRequest_target {input : AnnounceInput} {cfg : RootConfig}
    (h : validateKeyAnnounceRequest input cfg = .ok ()) :
    (input.targetName = "" ∧ cfg.hierarchy.segmentContains cfg.segment input.keyKind = true) ∨
      input.targetName ≠ "" ∧ ∃ seg ∈ cfg.topology.segments, seg.name = input.targetName ∧
        cfg.hierarchy.segmentContains seg.segment input.keyKind = true := by
  simp only [validateKeyAnnounceRequest, bind_unit_eq_ok] at h
  obtain ⟨-, -, -, h⟩ := h
  split at h
  · rename_i htarget
    exact .inl ⟨htarget, check_eq_ok.1 h⟩
  · rename_i htarget
    split at h
    · cases h
    · rename_i seg hget
      obtain ⟨hseg, hname⟩ := getSegmentByName_mem hget
      exact .inr ⟨htarget, seg, hseg, hname, check_eq_ok.1 h⟩

def validateKeyRequest (tenantID keyID : String) : Except Err Unit := do
  check (isValidUUID tenantID) (.of .invalidTenantID)
  check (isValidUUID keyID) (.of .invalidKeyID)

/-- What an agent checks of a key it is sent; its state is always a known one here. -/
structure UpsertKeyInput where
  tenantID : String
  keyID : String
  kind : String
  name : String
  managedBy : String
  parentID : String

def validateKeyUpsert (input : UpsertKeyInput) : Except Err Unit := do
  check (isValidUUID input.tenantID) (.of .invalidTenantID)
  check (isValidUUID input.keyID) (.of .invalidKeyID)
  check (input.kind ≠ "") (.of .emptyKeyKind)
  check (input.name ≠ "") (.of .emptyName)
  check (input.managedBy ≠ "") (.of .emptyManagedBy)
  check (isValidUUID input.parentID) (.of .invalidParentID)

structure UpsertKeyVersionInput where
  tenantID : String
  keyID : String
  version : Int
  revision : Int
  parentKeyID : String
  parentKeyVersion : Int

def validateUpsertKeyVersionRequest (input : UpsertKeyVersionInput) : Except Err Unit := do
  check (isValidUUID input.tenantID) (.of .invalidTenantID)
  check (isValidUUID input.keyID) (.of .invalidKeyID)
  check (0 < input.version) (.of .invalidVersion)
  check (0 < input.revision) (.of .invalidRevision)
  check (input.parentKeyID = "" || isValidUUID input.parentKeyID) (.of .invalidParentKeyID)
  check (0 ≤ input.parentKeyVersion) (.of .invalidParentKeyVersion)

def validateUpsertTenant (id name : String) : Except Err Unit := do
  check (isValidUUID id) (.of .invalidTenantID)
  check (!isBlank name) (.of .emptyTenantName)

def validateUserLabels (labels : Labels) : Except Err Unit :=
  match labels.hasReserved with
  | some key => .error (.detail .reservedLabel key)
  | none => .ok ()

/-! ## Transaction steps -/

def validateTenant (tenantID : String) (db : DB) : Except Err Unit := (db.getTenant tenantID).map fun _ => ()

theorem validateTenant_ok {tenantID : String} {db : DB} :
    validateTenant tenantID db = .ok () ↔ ∃ t, db.getTenant tenantID = .ok t := by
  unfold validateTenant
  cases db.getTenant tenantID with
  | ok t => exact ⟨fun _ => ⟨t, rfl⟩, fun _ => rfl⟩
  | error err => exact ⟨nofun, nofun⟩

/-- The key exists and may go to `dst`; being there already is fine. -/
def validateTransition (tenantID keyID : String) (dst : KeyLifeCycleState) (db : DB) : Except Err Unit := do
  let key ← db.getKeyByID keyID tenantID
  if key.lifeCycleState = dst then .ok () else KeyLifecycle.validateTransition key.lifeCycleState dst

def validateKeyUsage (tenantID keyID : String) (usage : KeyUsage) (db : DB) : Except Err Unit := do
  let key ← db.getKeyByID keyID tenantID
  check (key.status = .completed) (.of .keyTransientState)
  KeyLifecycle.validateKeyUsage key.lifeCycleState usage

theorem validateKeyUsage_ok {db : DB} {tenantID keyID : String} {usage : KeyUsage} :
    validateKeyUsage tenantID keyID usage db = .ok () ↔ ∃ k, MayUse db tenantID keyID usage k := by
  unfold validateKeyUsage
  rw [bind_eq_ok]
  simp only [bind_unit_eq_ok, check_eq_ok, decide_eq_true_eq]
  constructor
  · intro h
    obtain ⟨k, hkey, hstatus, husage⟩ := h
    exact ⟨k, hkey, hstatus, husage⟩
  · intro h
    obtain ⟨k, hkey, hstatus, husage⟩ := h
    exact ⟨k, hkey, hstatus, husage⟩

/-- Every strict ancestor is active and completed. The key itself is told apart by the text of the request. -/
def validateKeyParents (tenantID keyID : String) (db : DB) : Except Err Unit := do
  let parents ← db.getParentKeys keyID tenantID
  checkAll (fun parent => check (parent.id == keyID ||
    (parent.lifeCycleState == .active && parent.status == .completed)) (.of .parentKeyTransientState)) parents

/-- The parent a key must have by its role, one step up in the hierarchy. -/
def validateKeyHierarchy (k : Key) (h : KeyHierarchy) (db : DB) : Except Err Unit :=
  match h.findKeySpec k.kind, k.parentID with
  | none, _ => .error (.of .invalidKeyKind)
  | some spec, none => check (spec.role = .root) (.of .nonRootKey)
  | some spec, some parentID =>
    if spec.role = .root then .error (.of .rootKeyParent)
    else match db.getKeyByID parentID k.tenantID with
      | .error e => if e.is .keyNotFound then .error (.of .invalidParentKey) else .error e
      | .ok parent =>
        match h.indexOf parent.kind with
        | none => .error (.of .parentKeyAdjacency)
        | some i => check (h.indexOf k.kind = some (i + 1)) (.of .parentKeyAdjacency)

/-- A key without a parent has the root role; any other has a stored parent one position earlier. -/
theorem validateKeyHierarchy_ok {k : Key} {h : KeyHierarchy} {db : DB} (hok : validateKeyHierarchy k h db = .ok ()) :
    ∃ spec, h.findKeySpec k.kind = some spec ∧ ((k.parentID = none ∧ spec.role = .root) ∨
      spec.role ≠ .root ∧ ∃ parentID parent i,
        k.parentID = some parentID ∧ db.getKeyByID parentID k.tenantID = .ok parent ∧
        h.indexOf parent.kind = some i ∧ h.indexOf k.kind = some (i + 1)) := by
  unfold validateKeyHierarchy at hok
  split at hok
  · cases hok
  · rename_i spec hspec hnone
    rw [check_eq_ok, decide_eq_true_eq] at hok
    exact ⟨spec, hspec, .inl ⟨hnone, hok⟩⟩
  · rename_i spec parentID hspec hsome
    split at hok
    · cases hok
    · rename_i hrole
      refine ⟨spec, hspec, .inr ⟨hrole, ?_⟩⟩
      split at hok
      · split at hok <;> cases hok
      · rename_i parent hparent
        split at hok
        · cases hok
        · rename_i i hi
          rw [check_eq_ok, decide_eq_true_eq] at hok
          exact ⟨parentID, parent, i, hsome, hparent, hi, hok⟩

end Validator

end Krypton
