import Mathlib.Algebra.Group.Int.Defs
import Mathlib.Algebra.Group.Nat.Defs
import Mathlib.Data.List.Sort
import Krypton.Errors
import Krypton.Lib.Check
import Krypton.Lib.Table

/-!
# The database

Tables of tenants, keys and key versions with the constraints of `migrate.go`, and the statements of `pkg/store/sql` as
functions on a database value. UUID columns compare by value and hold canonical texts; a text that is no UUID makes a
statement fail. No statement deletes a row, and an update of a key or of a key version leaves every column alone but
its states and its time of update: that is what `KeyIdent` and `KeyVersionIdent` list.
-/

namespace Krypton

open Lib

/-! ## Schemas -/

/-- The columns of a key that no statement changes. -/
structure KeyIdent where
  id : String
  tenantID : String
  name : String
  kind : String
  parentID : Option String
  managedBy : String
  labels : Labels
  createdAt : Int
  deriving DecidableEq, Repr

def Key.ident (k : Key) : KeyIdent :=
  ⟨k.id, k.tenantID, k.name, k.kind, k.parentID, k.managedBy, k.labels, k.createdAt⟩

/-- The columns of a key version that no statement changes. -/
structure KeyVersionIdent where
  tenantID : String
  keyID : String
  version : Nat
  revision : Nat
  parentKeyID : Option String
  parentKeyVersion : Option Nat
  labels : Labels
  createdAt : Int
  deriving DecidableEq, Repr

def KeyVersion.ident (kv : KeyVersion) : KeyVersionIdent :=
  ⟨kv.tenantID, kv.keyID, kv.version, kv.revision, kv.parentKeyID, kv.parentKeyVersion, kv.labels, kv.createdAt⟩

/-- A text as it is read back from a UUID column. -/
def Canonical (s : String) : Prop := uuidIn s = some s

/-- `uuid.Parse` reads such a text too. -/
theorem Canonical.parse {s : String} (h : Canonical s) : uuidParse s = some s := by
  obtain ⟨ds, hds, rfl⟩ := uuidIn_digits h
  exact uuidParse_uuidText hds

def tenantSchema : Schema Tenant String where
  ident := Tenant.id
  clash i j := i == j
  clash_symm _ _ := BEq.comm
  ok := Canonical

/-- Primary key `id`, unique `(tenant_id, name)`. -/
def keySchema : Schema Key KeyIdent where
  ident := Key.ident
  clash i j := i.id == j.id || (i.tenantID == j.tenantID && i.name == j.name)
  clash_symm i j := by
    rw [BEq.comm (a := i.id), BEq.comm (a := i.tenantID), BEq.comm (a := i.name)]
  ok i := Canonical i.id ∧ Canonical i.tenantID ∧ ∀ p, i.parentID = some p → Canonical p

/-- `INT` columns hold values below this bound. -/
def intBound : Nat := 2 ^ 31

/-- Primary key `(tenant_id, key_id, version, revision)`. -/
def keyVersionSchema : Schema KeyVersion KeyVersionIdent where
  ident := KeyVersion.ident
  clash i j := i.tenantID == j.tenantID && i.keyID == j.keyID && i.version == j.version && i.revision == j.revision
  clash_symm i j := by
    rw [BEq.comm (a := i.tenantID), BEq.comm (a := i.keyID), BEq.comm (a := i.version), BEq.comm (a := i.revision)]
  ok i := Canonical i.tenantID ∧ Canonical i.keyID ∧ (∀ p, i.parentKeyID = some p → Canonical p) ∧
    i.version < intBound ∧ i.revision < intBound

/-- Which schema a database was migrated to: the root's has foreign keys on parents. -/
inductive Node where
  | root | agent
  deriving DecidableEq, Repr

structure DB where
  node : Node
  tenants : Table tenantSchema
  keys : Table keySchema
  keyVersions : Table keyVersionSchema

def DB.empty (node : Node) : DB := ⟨node, .empty, .empty, .empty⟩

/-! ## Statement parameters -/

def Uuid.parse (s : String) : Option Uuid :=
  match h : uuidIn s with
  | some t => some ⟨t, uuidIn_idem h⟩
  | none => none

/-- A nullable UUID parameter: `none` when its text is no UUID. -/
def Uuid.parseNullable : Option String → Option (Option Uuid)
  | none => some none
  | some s => (Uuid.parse s).map some

theorem Uuid.parse_eq_some {s : String} {u : Uuid} : Uuid.parse s = some u ↔ uuidIn s = some u.text := by
  unfold Uuid.parse
  split
  · rename_i t ht
    constructor
    · rintro ⟨rfl⟩; exact ht
    · intro hu
      obtain rfl : t = u.text := by simpa [ht] using hu
      rfl
  · rename_i ht
    simp [ht]

/-- Spellings of one identifier are the same parameter. -/
theorem Uuid.parse_congr {s s' : String} (h : uuidIn s = uuidIn s') : Uuid.parse s = Uuid.parse s' := by
  apply Option.ext
  intro u
  rw [Uuid.parse_eq_some, Uuid.parse_eq_some, h]

theorem Uuid.canonical_text (u : Uuid) : Canonical u.text := u.canonical

def errUuidSyntax : Err := .plain "pq: invalid input syntax for type uuid"

def errForeignKey : Err := .plain "pq: insert violates foreign key constraint"

/-- Read the identifiers of a key. -/
def keyParams (id tenantID : String) : Except Err (Uuid × Uuid) :=
  match Uuid.parse id, Uuid.parse tenantID with
  | some i, some t => .ok (i, t)
  | _, _ => .error errUuidSyntax

namespace DB

/-! ## Tenants -/

def getTenant (db : DB) (id : String) : Except Err Tenant :=
  match Uuid.parse id with
  | none => .error errUuidSyntax
  | some i =>
    match db.tenants.rows.find? fun t => t.id == i.text with
    | some t => .ok t
    | none => .error (.of .tenantNotFound)

/-- Insert a tenant, or overwrite the name and labels of the one with its id. -/
def upsertTenant (db : DB) (t : Tenant) : Except Err DB :=
  match Uuid.parse t.id with
  | none => .error errUuidSyntax
  | some i =>
    match db.tenants.insert { t with id := i.text } i.canonical with
    | some tenants => .ok { db with tenants }
    | none =>
      let set (r : Tenant) : Tenant := { r with name := t.name, labels := t.labels, updatedAt := t.updatedAt }
      .ok { db with tenants := db.tenants.update (fun r => r.id == i.text) set (fun _ => rfl) }

/-! ## Keys -/

/-- The row a key is stored as. -/
def keyRow (k : Key) (id tenantID : Uuid) (parentID : Option Uuid) : Key :=
  { k with id := id.text, tenantID := tenantID.text, parentID := parentID.map Uuid.text }

theorem keyRow_ok (k : Key) (id tenantID : Uuid) (parentID : Option Uuid) :
    keySchema.ok (keySchema.ident (keyRow k id tenantID parentID)) := by
  refine ⟨id.canonical, tenantID.canonical, fun p hp => ?_⟩
  obtain ⟨u, -, rfl⟩ := Option.map_eq_some_iff.1 hp
  exact u.canonical

/-- The foreign keys of a key: its tenant and, on the root, its parent in the same tenant. -/
def keyReferences (db : DB) (k : Key) : Bool :=
  (db.tenants.rows.any fun t => t.id == k.tenantID) &&
    (db.node == .agent || k.parentID.all fun p => db.keys.rows.any fun r => r.id == p && r.tenantID == k.tenantID)

/-- `INSERT … ON CONFLICT DO NOTHING`; a conflict is found before the foreign keys are checked. -/
def createKey (db : DB) (k : Key) : Except Err DB :=
  match Uuid.parse k.id, Uuid.parse k.tenantID, Uuid.parseNullable k.parentID with
  | some i, some t, some p =>
    match db.keys.insert (keyRow k i t p) (keyRow_ok k i t p) with
    | none => .error (.of .keyInsertConflict)
    | some keys =>
      if keyReferences { db with keys } (keyRow k i t p) then .ok { db with keys } else .error errForeignKey
  | _, _, _ => .error errUuidSyntax

def getKeyByID (db : DB) (id tenantID : String) : Except Err Key :=
  match keyParams id tenantID with
  | .error e => .error e
  | .ok (i, t) =>
    match db.keys.rows.find? fun r => r.id == i.text && r.tenantID == t.text with
    | some r => .ok r
    | none => .error (.of .keyNotFound)

def getKeyByName (db : DB) (tenantID name : String) : Except Err Key :=
  match Uuid.parse tenantID with
  | none => .error errUuidSyntax
  | some t =>
    match db.keys.rows.find? fun r => r.tenantID == t.text && r.name == name with
    | some r => .ok r
    | none => .error (.of .keyNotFound)

structure UpdateKeyStatesQuery where
  id : String
  tenantID : String
  toState : KeyLifeCycleState
  toStatus : KeyProcessingStatus
  /-- No condition when empty. -/
  fromState : List KeyLifeCycleState
  fromStatus : List KeyProcessingStatus
  now : Int

/-- The rows a state update applies to. -/
def UpdateKeyStatesQuery.selects (q : UpdateKeyStatesQuery) (id tenantID : String) (r : Key) : Bool :=
  r.id == id && r.tenantID == tenantID && (q.fromState.isEmpty || q.fromState.contains r.lifeCycleState) &&
    (q.fromStatus.isEmpty || q.fromStatus.contains r.status)

def UpdateKeyStatesQuery.set (q : UpdateKeyStatesQuery) (r : Key) : Key :=
  { r with lifeCycleState := q.toState, status := q.toStatus, updatedAt := q.now }

/-- Compare-and-set on the lifecycle state and status of a key. -/
def updateKeyStates (db : DB) (q : UpdateKeyStatesQuery) : Except Err DB :=
  match keyParams q.id q.tenantID with
  | .error e => .error e
  | .ok (i, t) =>
    if db.keys.rows.any (q.selects i.text t.text) then
      .ok { db with keys := db.keys.update (q.selects i.text t.text) q.set (fun _ => rfl) }
    else .error (.of .keyNotFound)

/-! ## Ancestors and descendants -/

/-- A key and its ancestors, the key first; at most `fuel` ancestors. A chain without a cycle has fewer keys than the
table, so the number of rows is enough. -/
def chain (db : DB) : Nat → Key → List Key
  | 0, k => [k]
  | fuel + 1, k =>
    match k.parentID.bind fun p => db.keys.rows.find? fun r => r.id == p && r.tenantID == k.tenantID with
    | none => [k]
    | some parent => k :: chain db fuel parent

/-- All ancestors of a key and the key itself, the topmost first. -/
def getParentKeys (db : DB) (id tenantID : String) : Except Err (List Key) :=
  match db.getKeyByID id tenantID with
  | .error e => .error e
  | .ok k => .ok (db.chain db.keys.rows.length k).reverse

structure KeyFilter where
  lifeCycleState : Option KeyLifeCycleState
  status : List KeyProcessingStatus
  deriving DecidableEq, Repr

/-- A filter without a condition; such filters are dropped. -/
def KeyFilter.isEmpty (f : KeyFilter) : Bool := f.lifeCycleState.isNone && f.status.isEmpty

def KeyFilter.holds (f : KeyFilter) (k : Key) : Bool :=
  (f.lifeCycleState.all fun s => s == k.lifeCycleState) && (f.status.isEmpty || f.status.contains k.status)

/-- A key passes when it meets one of the filters, or when there is none. -/
def passes (filters : List KeyFilter) (k : Key) : Bool :=
  (filters.all KeyFilter.isEmpty) || filters.any fun f => !f.isEmpty && f.holds k

/-- The children of a layer that pass the filters, by time of creation. -/
def childLayer (db : DB) (filters : List KeyFilter) (layer : List Key) : List Key :=
  (db.keys.rows.filter fun r => passes filters r &&
    layer.any fun p => r.parentID == some p.id && r.tenantID == p.tenantID).insertionSort
      fun a b => a.createdAt ≤ b.createdAt

/-- The layers from a layer on, without an empty one. -/
def layersFrom (db : DB) (filters : List KeyFilter) : Nat → List Key → KeyTree
  | _, [] => []
  | 0, layer => [layer]
  | fuel + 1, layer => layer :: layersFrom db filters fuel (db.childLayer filters layer)

/-- The identifiers of a query for descendants: `Validate` looks at them before the database does. The states in its
filters are known ones here. -/
def descendantParams (id tenantID : String) : Except Err (Uuid × Uuid) := do
  check (uuidParse id).isSome (.detail .invalidQuery ("invalid query: KeyID must be a valid UUID, got " ++ quote id))
  check (uuidParse tenantID).isSome
    (.detail .invalidQuery ("invalid query: TenantID must be a valid UUID, got " ++ quote tenantID))
  keyParams id tenantID

/-- The filtered tree below a key: a key that fails the filters is left out with everything below it. -/
def getDescendantKeys (db : DB) (id tenantID : String) (filters : List KeyFilter) : Except Err KeyTree := do
  let (i, t) ← descendantParams id tenantID
  match db.keys.rows.find? fun r => r.id == i.text && r.tenantID == t.text && passes filters r with
  | none => .error (.of .keyNotFound)
  | some k => .ok (db.layersFrom filters db.keys.rows.length [k])

/-! ## Key versions -/

def keyVersionRow (kv : KeyVersion) (tenantID keyID : Uuid) (parentKeyID : Option Uuid) : KeyVersion :=
  { kv with tenantID := tenantID.text, keyID := keyID.text, parentKeyID := parentKeyID.map Uuid.text }

theorem keyVersionRow_ok {kv : KeyVersion} (h : kv.version < intBound ∧ kv.revision < intBound)
    (tenantID keyID : Uuid) (parentKeyID : Option Uuid) :
    keyVersionSchema.ok (keyVersionSchema.ident (keyVersionRow kv tenantID keyID parentKeyID)) := by
  refine ⟨tenantID.canonical, keyID.canonical, fun p hp => ?_, h⟩
  obtain ⟨u, -, rfl⟩ := Option.map_eq_some_iff.1 hp
  exact u.canonical

/-- The foreign keys of a key version: its tenant and key and, on the root, the parent's version of the same revision;
a null among the parent columns leaves the last one unchecked. -/
def keyVersionReferences (db : DB) (kv : KeyVersion) : Bool :=
  (db.tenants.rows.any fun t => t.id == kv.tenantID) &&
    (db.keys.rows.any fun k => k.id == kv.keyID && k.tenantID == kv.tenantID) &&
    (db.node == .agent || kv.parentKeyID.all fun p => kv.parentKeyVersion.all fun v =>
      db.keyVersions.rows.any fun r => r.tenantID == kv.tenantID && r.keyID == p && r.version == v &&
        r.revision == kv.revision)

/-- `INSERT`: fails when the primary key is taken. -/
def createKeyVersion (db : DB) (kv : KeyVersion) : Except Err DB :=
  match Uuid.parse kv.tenantID, Uuid.parse kv.keyID, Uuid.parseNullable kv.parentKeyID with
  | some t, some k, some p =>
    if h : kv.version < intBound ∧ kv.revision < intBound then
      match db.keyVersions.insert (keyVersionRow kv t k p) (keyVersionRow_ok h t k p) with
      | none => .error (.plain "pq: duplicate key value violates unique constraint")
      | some keyVersions =>
        if keyVersionReferences { db with keyVersions } (keyVersionRow kv t k p) then .ok { db with keyVersions }
        else .error errForeignKey
    else .error (.plain "pq: integer out of range")
  | _, _, _ => .error errUuidSyntax

def getKeyVersion (db : DB) (tenantID keyID : String) (version revision : Nat) : Except Err KeyVersion :=
  match keyParams keyID tenantID with
  | .error e => .error e
  | .ok (k, t) =>
    match db.keyVersions.rows.find? fun r =>
        r.tenantID == t.text && r.keyID == k.text && r.version == version && r.revision == revision with
    | some r => .ok r
    | none => .error (.of .keyVersionNotFound)

inductive KeyVersionOrder where
  | versionDesc | createdAtDesc | revisionDesc
  deriving DecidableEq, Repr

structure ListKeyVersionsQuery where
  tenantID : String
  /-- No condition when empty. -/
  keyID : String
  /-- No condition when 0. -/
  version : Nat
  lifeCycleState : Option KeyLifeCycleState
  processingState : Option KeyVersionProcessingState
  /-- The sort keys, the first one first. -/
  orderBy : List KeyVersionOrder

/-- `a` is listed before or next to `b`. -/
def precedes : List KeyVersionOrder → KeyVersion → KeyVersion → Bool
  | [], _, _ => true
  | .versionDesc :: os, a, b => a.version > b.version || (a.version == b.version && precedes os a b)
  | .createdAtDesc :: os, a, b => a.createdAt > b.createdAt || (a.createdAt == b.createdAt && precedes os a b)
  | .revisionDesc :: os, a, b => a.revision > b.revision || (a.revision == b.revision && precedes os a b)

/-- The tenant and, if there is a condition on it, the key of a query. -/
def ListKeyVersionsQuery.params (q : ListKeyVersionsQuery) : Except Err (Uuid × Option Uuid) :=
  if q.keyID = "" then
    match Uuid.parse q.tenantID with
    | some t => .ok (t, none)
    | none => .error errUuidSyntax
  else match keyParams q.keyID q.tenantID with
    | .ok (k, t) => .ok (t, some k)
    | .error e => .error e

def ListKeyVersionsQuery.selects (q : ListKeyVersionsQuery) (tenantID : Uuid) (keyID : Option Uuid)
    (r : KeyVersion) : Bool :=
  r.tenantID == tenantID.text && (keyID.all fun k => k.text == r.keyID) && (q.version == 0 || r.version == q.version) &&
    (q.processingState.all fun s => s == r.processingState) && (q.lifeCycleState.all fun s => s == r.lifeCycleState)

/-- The key versions that meet the conditions, in order. -/
def listKeyVersions (db : DB) (q : ListKeyVersionsQuery) : Except Err (List KeyVersion) :=
  match q.params with
  | .error e => .error e
  | .ok (t, k) => .ok ((db.keyVersions.rows.filter (q.selects t k)).insertionSort fun a b => precedes q.orderBy a b)

structure UpdateKeyVersionStatesQuery where
  tenantID : String
  keyID : String
  version : Nat
  revision : Nat
  fromProcessingState : List KeyVersionProcessingState
  toProcessingState : KeyVersionProcessingState
  fromLifeCycleState : List KeyLifeCycleState
  toLifeCycleState : KeyLifeCycleState
  now : Int

def UpdateKeyVersionStatesQuery.selects (q : UpdateKeyVersionStatesQuery) (tenantID keyID : String)
    (r : KeyVersion) : Bool :=
  r.tenantID == tenantID && r.keyID == keyID && r.version == q.version && r.revision == q.revision &&
    q.fromProcessingState.contains r.processingState && q.fromLifeCycleState.contains r.lifeCycleState

def UpdateKeyVersionStatesQuery.set (q : UpdateKeyVersionStatesQuery) (r : KeyVersion) : KeyVersion :=
  { r with lifeCycleState := q.toLifeCycleState, processingState := q.toProcessingState, updatedAt := q.now }

/-- Compare-and-set on the states of a key version. -/
def updateKeyVersionStates (db : DB) (q : UpdateKeyVersionStatesQuery) : Except Err DB :=
  if q.tenantID = "" || q.keyID = "" || q.version = 0 || q.revision = 0 || q.fromProcessingState.isEmpty ||
      q.fromLifeCycleState.isEmpty then
    .error (.context "missing required fields" (.of .keyVersionQueryInvalid))
  else match keyParams q.keyID q.tenantID with
    | .error e => .error e
    | .ok (k, t) =>
      if db.keyVersions.rows.any (q.selects t.text k.text) then
        .ok { db with keyVersions := db.keyVersions.update (q.selects t.text k.text) q.set (fun _ => rfl) }
      else .error (.of .keyVersionNotFound)

end DB

end Krypton
