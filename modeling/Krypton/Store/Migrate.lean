import Mathlib.Data.List.Rotate
import Krypton.Lib.Processes
import Krypton.Store

/-!
# Migrations

Every process of a root or an agent brings its database to its schema before it does anything else (`Migrate` in
`migrate.go`), one statement at a time and outside of a transaction. A table `schema_meta` says which of the two schemas
a database has. Replicas start together, statements fail, answers get lost, and a process that dies is started again.

* `keyReferences_eq`, `keyVersionReferences_eq` — the checks of the store model are those that the created tables
  declare;
* `Moves` — what one turn of a migration can do;
* `one_node_schema` — a database is migrated for one node, unless migrations for both read an empty `schema_meta`;
* `migration_restarts` — whatever was interrupted before, one undisturbed migration completes the schema.
-/

namespace Krypton

open Lib

def Node.text : Node → String
  | .root => "root"
  | .agent => "agent"

namespace Migrate

/-! ## Tables -/

inductive TableName where
  | tenants | agentRegistrations | keys | keyVersions
  deriving DecidableEq, Repr

inductive Column where
  | id | tenantID | parentID | keyID | version | revision | parentKeyID | parentKeyVersion
  deriving DecidableEq, Repr

/-- `FOREIGN KEY (columns) REFERENCES table(targets)`. -/
structure ForeignKey where
  columns : List Column
  table : TableName
  targets : List Column
  deriving DecidableEq, Repr

/-- `CREATE TABLE IF NOT EXISTS`. -/
structure CreateTable where
  name : TableName
  foreignKeys : List ForeignKey
  deriving DecidableEq, Repr

def createTenantsTable : CreateTable := ⟨.tenants, []⟩

def createAgentRegistrationsTable : CreateTable := ⟨.agentRegistrations, []⟩

def keyTable (constraints : List ForeignKey) : CreateTable := ⟨.keys, ⟨[.tenantID], .tenants, [.id]⟩ :: constraints⟩

def keysRootConstraints : List ForeignKey := [⟨[.tenantID, .parentID], .keys, [.tenantID, .id]⟩]

def createKeysTable : CreateTable := keyTable keysRootConstraints

def createAgentsKeysTable : CreateTable := keyTable []

def keyVersionTable (constraints : List ForeignKey) : CreateTable :=
  ⟨.keyVersions, ⟨[.tenantID], .tenants, [.id]⟩ :: ⟨[.tenantID, .keyID], .keys, [.tenantID, .id]⟩ :: constraints⟩

def keyVersionsRootConstraints : List ForeignKey :=
  [⟨[.tenantID, .parentKeyID, .parentKeyVersion, .revision], .keyVersions, [.tenantID, .keyID, .version, .revision]⟩]

def createKeyVersionsTable : CreateTable := keyVersionTable keyVersionsRootConstraints

def createAgentsKeyVersionsTable : CreateTable := keyVersionTable []

/-- The statements of `Migrate` for a node, in their order. -/
def stmts : Node → List CreateTable
  | .root => [createTenantsTable, createAgentRegistrationsTable, createKeysTable, createKeyVersionsTable]
  | .agent => [createTenantsTable, createAgentsKeysTable, createAgentsKeyVersionsTable]

/-- A table is created after those it refers to. -/
theorem stmts_refer {n : Node} {i : Nat} {c : CreateTable} (hc : (stmts n)[i]? = some c) {fk : ForeignKey}
    (hfk : fk ∈ c.foreignKeys) : fk.table = c.name ∨ ∃ c' ∈ (stmts n).take i, c'.name = fk.table := by
  have hi : i < (stmts n).length := (List.getElem?_eq_some_iff.1 hc).1
  have hall : ∀ i < (stmts n).length, ∀ c ∈ (stmts n)[i]?, ∀ fk ∈ c.foreignKeys,
      fk.table = c.name ∨ ∃ c' ∈ (stmts n).take i, c'.name = fk.table := by
    cases n <;> decide
  exact hall i hi c hc fk hfk

/-! ## What the foreign keys mean -/

inductive Value where
  | text (s : String)
  | int (n : Nat)
  deriving DecidableEq, Repr

/-- The values of a row; `none` for `NULL`. -/
abbrev Row : Type := Column → Option Value

def tenantColumns (t : Tenant) : Row
  | .id => some (.text t.id)
  | _ => none

def keyColumns (k : Key) : Row
  | .id => some (.text k.id)
  | .tenantID => some (.text k.tenantID)
  | .parentID => k.parentID.map .text
  | _ => none

def keyVersionColumns (kv : KeyVersion) : Row
  | .tenantID => some (.text kv.tenantID)
  | .keyID => some (.text kv.keyID)
  | .version => some (.int kv.version)
  | .revision => some (.int kv.revision)
  | .parentKeyID => kv.parentKeyID.map .text
  | .parentKeyVersion => kv.parentKeyVersion.map .int
  | _ => none

/-- The rows of a table; nothing refers to registrations. -/
def rowsOf (db : DB) : TableName → List Row
  | .tenants => db.tenants.rows.map tenantColumns
  | .keys => db.keys.rows.map keyColumns
  | .keyVersions => db.keyVersions.rows.map keyVersionColumns
  | .agentRegistrations => []

/-- A row with a null among the columns refers to nothing. -/
def ForeignKey.holds (fk : ForeignKey) (db : DB) (row : Row) : Bool :=
  (fk.columns.any fun col => (row col).isNone) || (rowsOf db fk.table).any fun r =>
    fk.targets.map r = fk.columns.map row

/-- The foreign keys that the statements for a node declare on a table. -/
def declared (n : Node) (t : TableName) : List ForeignKey :=
  ((stmts n).filter (·.name = t)).flatMap CreateTable.foreignKeys

/-- **The foreign keys of keys.** The store model checks what the statements for its node declare. -/
theorem keyReferences_eq (db : DB) (k : Key) :
    ((declared db.node .keys).all fun fk => fk.holds db (keyColumns k)) = db.keyReferences k := by
  rw [Bool.eq_iff_iff]
  unfold DB.keyReferences
  cases db.node with
  | agent =>
    show (List.all [_] _) = true ↔ _
    simp [ForeignKey.holds, rowsOf, tenantColumns, keyColumns, and_comm]
  | root =>
    show (List.all [_, _] _) = true ↔ _
    cases hp : k.parentID with
    | none => simp [ForeignKey.holds, rowsOf, tenantColumns, keyColumns, hp]
    | some p => simp [ForeignKey.holds, rowsOf, tenantColumns, keyColumns, hp, and_comm]

theorem keyVersionReferences_eq (db : DB) (kv : KeyVersion) :
    ((declared db.node .keyVersions).all fun fk => fk.holds db (keyVersionColumns kv)) =
      db.keyVersionReferences kv := by
  rw [Bool.eq_iff_iff]
  unfold DB.keyVersionReferences
  cases db.node with
  | agent =>
    show (List.all [_, _] _) = true ↔ _
    simp [ForeignKey.holds, rowsOf, tenantColumns, keyColumns, keyVersionColumns, and_comm]
  | root =>
    show (List.all [_, _, _] _) = true ↔ _
    cases hp : kv.parentKeyID with
    | none => simp [ForeignKey.holds, rowsOf, tenantColumns, keyColumns, keyVersionColumns, hp, and_comm]
    | some p =>
      cases hv : kv.parentKeyVersion with
      | none => simp [ForeignKey.holds, rowsOf, tenantColumns, keyColumns, keyVersionColumns, hp, hv, and_comm]
      | some v =>
        simp [ForeignKey.holds, rowsOf, tenantColumns, keyColumns, keyVersionColumns, hp, hv, and_comm,
          and_left_comm, and_assoc]

/-! ## Statements -/

/-- What a migration reads and changes. -/
structure Database where
  /-- The rows of `schema_meta`, if the table is there. -/
  schemaMeta : Option (List Node)
  tables : TableName → Option (List ForeignKey)

namespace Database

def empty : Database := ⟨none, fun _ => none⟩

def nodes (db : Database) : List Node := db.schemaMeta.getD []

def createSchemaMeta (db : Database) : Except Err Database := .ok { db with schemaMeta := some db.nodes }

def errRelation (table : String) : Err := .plain ("pq: relation " ++ quote table ++ " does not exist")

/-- `SELECT node FROM schema_meta LIMIT 1`. Which row that is, is not said. -/
def selectNode (db : Database) (pick : Nat) : Except Err (Option Node) :=
  match db.schemaMeta with
  | none => .error (errRelation "schema_meta")
  | some rows => .ok (rows.rotate pick).head?

/-- `INSERT INTO schema_meta`; the node is the primary key. -/
def insertNode (n : Node) (db : Database) : Except Err Database :=
  match db.schemaMeta with
  | none => .error (errRelation "schema_meta")
  | some rows =>
    if n ∈ rows then .error (.plain "pq: duplicate key value violates unique constraint \"schema_meta_pkey\"")
    else .ok { db with schemaMeta := some (rows ++ [n]) }

/-- A table that is there stays as it is; a new one needs the tables it refers to. -/
def createTable (c : CreateTable) (db : Database) : Except Err Database :=
  if (db.tables c.name).isSome then .ok db
  else if ∀ fk ∈ c.foreignKeys, fk.table = c.name ∨ (db.tables fk.table).isSome then
    .ok { db with tables := Function.update db.tables c.name (some c.foreignKeys) }
  else .error (.plain "pq: relation does not exist")

end Database

/-! ## Migrations as processes -/

/-- How a turn of a process ends: its statement is answered, fails, or is carried out without an answer; or the process
dies before it. -/
inductive Outcome where
  | answered (pick : Nat)
  | refused (e : Err)
  | lost (e : Err)
  | died
  deriving DecidableEq, Repr

/-- Where a migration is: before one of its statements, or after the last. -/
inductive Pc where
  | createMeta | readMeta | recordNode
  | statement (i : Nat)
  | returned (r : Except Err Unit)
  | dead
  deriving DecidableEq, Repr

structure Migration where
  node : Node
  pc : Pc
  deriving DecidableEq, Repr

def errInitialized (existing n : Node) : Err :=
  .plain ("migrate: database already initialized as " ++ quote existing.text ++ ", refusing to migrate as " ++
    quote n.text)

namespace Migration

def begin (n : Node) : Migration := ⟨n, .createMeta⟩

def goto (p : Migration) (pc : Pc) : Migration := { p with pc }

/-- A turn at a statement that changes the database. -/
def exec (p : Migration) (o : Outcome) (stmt : Database → Except Err Database) (failed : String) (then_ : Pc)
    (db : Database) : Migration × Database :=
  match o with
  | .died => (p.goto .dead, db)
  | .refused e => (p.goto (.returned (.error (.context failed e))), db)
  | .lost e => (p.goto (.returned (.error (.context failed e))), (stmt db).toOption.getD db)
  | .answered _ =>
    match stmt db with
    | .ok db' => (p.goto then_, db')
    | .error e => (p.goto (.returned (.error (.context failed e))), db)

/-- The next turn of `Migrate`. -/
def next (o : Outcome) (p : Migration) (db : Database) : Migration × Database :=
  match p.pc with
  | .createMeta => p.exec o Database.createSchemaMeta "migrate: create schema_meta" .readMeta db
  | .readMeta =>
    match o with
    | .died => (p.goto .dead, db)
    | .refused e | .lost e => (p.goto (.returned (.error (.context "migrate: read schema_meta" e))), db)
    | .answered pick =>
      match db.selectNode pick with
      | .error e => (p.goto (.returned (.error (.context "migrate: read schema_meta" e))), db)
      | .ok none => (p.goto .recordNode, db)
      | .ok (some existing) =>
        if existing ≠ p.node then (p.goto (.returned (.error (errInitialized existing p.node))), db)
        else (p.goto (.statement 0), db)
  | .recordNode => p.exec o (Database.insertNode p.node) "migrate: record node" (.statement 0) db
  | .statement i =>
    match (stmts p.node)[i]? with
    | none => (p.goto (.returned (.ok ())), db)
    | some c => p.exec o (Database.createTable c) ("migrate: statement " ++ toString i) (.statement (i + 1)) db
  | .returned _ | .dead => (p, db)

end Migration

/-- Migrations over one database. -/
abbrev System : Type := Pool Database Migration

abbrev Event : Type := Pool.Event Node Outcome

def step : System → Event → System := Pool.step Migration.begin Migration.next

/-- A new database after a run of migrations. -/
def after (evs : List Event) : System := run step ⟨.empty, []⟩ evs

/-! ## One turn -/

/-- The migration has ended without success. -/
def Pc.Over : Pc → Prop
  | .returned (.error _) | .dead => True
  | _ => False

/-- What a turn of a migration for `n` can do. -/
inductive Moves (n : Node) (db : Database) : Pc → Pc → Database → Prop where
  | ended {pc pc' : Pc} (h : pc'.Over) : Moves n db pc pc' db
  | metaMade {pc' : Pc} (h : pc' = .readMeta ∨ pc'.Over) :
    Moves n db .createMeta pc' { db with schemaMeta := some db.nodes }
  | nothingRead (h : db.nodes = []) : Moves n db .readMeta .recordNode db
  | ownRead (h : n ∈ db.nodes) : Moves n db .readMeta (.statement 0) db
  | recorded {rows : List Node} {pc' : Pc} (hrows : db.schemaMeta = some rows) (hn : n ∉ rows)
      (h : pc' = .statement 0 ∨ pc'.Over) : Moves n db .recordNode pc' { db with schemaMeta := some (rows ++ [n]) }
  | found {i : Nat} {c : CreateTable} (hc : (stmts n)[i]? = some c) (h : (db.tables c.name).isSome) :
      Moves n db (.statement i) (.statement (i + 1)) db
  | created {i : Nat} {c : CreateTable} {pc' : Pc} (hc : (stmts n)[i]? = some c) (hnone : db.tables c.name = none)
      (h : pc' = .statement (i + 1) ∨ pc'.Over) :
      Moves n db (.statement i) pc' { db with tables := Function.update db.tables c.name (some c.foreignKeys) }
  | finished {i : Nat} (h : (stmts n)[i]? = none) : Moves n db (.statement i) (.returned (.ok ())) db
  | idle {pc : Pc} : Moves n db pc pc db

variable {n : Node} {db db' : Database} {pc pc' : Pc}

/-- A statement that changes the database is carried out, with or without an answer, or it is not. -/
theorem Migration.exec_cases {p : Migration} {o : Outcome} {stmt : Database → Except Err Database} {failed : String} :
    (∃ db', stmt db = .ok db' ∧ ∃ q : Pc, (q = pc ∨ q.Over) ∧ p.exec o stmt failed pc db = (p.goto q, db')) ∨
      ∃ q : Pc, q.Over ∧ p.exec o stmt failed pc db = (p.goto q, db) := by
  unfold Migration.exec
  cases o with
  | died => exact .inr ⟨.dead, trivial, rfl⟩
  | refused e => exact .inr ⟨.returned (.error _), trivial, rfl⟩
  | lost e =>
    cases h : stmt db with
    | error e' => exact .inr ⟨.returned (.error _), trivial, rfl⟩
    | ok db' => exact .inl ⟨db', rfl, .returned (.error _), .inr trivial, rfl⟩
  | answered pick =>
    dsimp only
    cases h : stmt db with
    | error e => exact .inr ⟨.returned (.error _), trivial, rfl⟩
    | ok db' => exact .inl ⟨db', rfl, pc, .inl rfl, rfl⟩

theorem Database.selectNode_cases {pick : Nat} {r : Option Node} (h : db.selectNode pick = .ok r) :
    (r = none ∧ db.nodes = []) ∨ ∃ m ∈ db.nodes, r = some m := by
  unfold Database.selectNode at h
  unfold Database.nodes
  cases hrows : db.schemaMeta with
  | none =>
    rw [hrows] at h
    cases h
  | some rows =>
    rw [hrows] at h
    cases h
    cases hhead : (rows.rotate pick).head? with
    | none =>
      rw [List.head?_eq_none_iff, List.rotate_eq_nil_iff] at hhead
      exact .inl ⟨rfl, hhead⟩
    | some m =>
      exact .inr ⟨m, List.mem_rotate.1 (List.mem_of_head? hhead), rfl⟩

theorem Migration.next_moves (o : Outcome) (p : Migration) (db : Database) :
    (p.next o db).1.node = p.node ∧ Moves p.node db p.pc (p.next o db).1.pc (p.next o db).2 := by
  obtain ⟨n, pc⟩ := p
  unfold Migration.next
  cases pc with
  | createMeta =>
    dsimp only
    rcases exec_cases with ⟨db', hstmt, q, hq, hexec⟩ | ⟨q, hq, hexec⟩
    · rw [hexec]
      cases hstmt
      exact ⟨rfl, .metaMade hq⟩
    · rw [hexec]
      exact ⟨rfl, .ended hq⟩
  | readMeta =>
    cases o with
    | died => exact ⟨rfl, .ended trivial⟩
    | refused e => exact ⟨rfl, .ended trivial⟩
    | lost e => exact ⟨rfl, .ended trivial⟩
    | answered pick =>
      dsimp only
      cases hread : db.selectNode pick with
      | error e => exact ⟨rfl, .ended trivial⟩
      | ok r =>
        rcases db.selectNode_cases hread with ⟨rfl, hnil⟩ | ⟨m, hm, rfl⟩
        · exact ⟨rfl, .nothingRead hnil⟩
        · dsimp only
          split
          · exact ⟨rfl, .ended trivial⟩
          · rename_i heq
            rw [not_not] at heq
            exact ⟨rfl, .ownRead (heq ▸ hm)⟩
  | recordNode =>
    dsimp only
    rcases exec_cases with ⟨db', hstmt, q, hq, hexec⟩ | ⟨q, hq, hexec⟩
    · rw [hexec]
      unfold Database.insertNode at hstmt
      split at hstmt
      · cases hstmt
      · rename_i rows hrows
        split at hstmt
        · cases hstmt
        · rename_i hn
          cases hstmt
          exact ⟨rfl, .recorded hrows hn hq⟩
    · rw [hexec]
      exact ⟨rfl, .ended hq⟩
  | statement i =>
    dsimp only
    cases hc : (stmts n)[i]? with
    | none => exact ⟨rfl, .finished hc⟩
    | some c =>
      dsimp only
      rcases exec_cases with ⟨db', hstmt, q, hq, hexec⟩ | ⟨q, hq, hexec⟩
      · rw [hexec]
        unfold Database.createTable at hstmt
        split at hstmt
        · rename_i hsome
          cases hstmt
          rcases hq with rfl | hq
          · exact ⟨rfl, .found hc hsome⟩
          · exact ⟨rfl, .ended hq⟩
        · rename_i hnone
          split at hstmt
          · cases hstmt
            exact ⟨rfl, .created hc (Option.not_isSome_iff_eq_none.1 hnone) hq⟩
          · cases hstmt
      · rw [hexec]
        exact ⟨rfl, .ended hq⟩
  | returned r => exact ⟨rfl, .idle⟩
  | dead => exact ⟨rfl, .idle⟩

/-! ## What a migration knows -/

/-- Nothing is taken away. -/
structure Grows (db db' : Database) : Prop where
  schemaMeta : db.schemaMeta.isSome → db'.schemaMeta.isSome
  nodes : ∀ n ∈ db.nodes, n ∈ db'.nodes
  tables : ∀ t fks, db.tables t = some fks → db'.tables t = some fks

theorem Grows.refl (db : Database) : Grows db db := ⟨id, fun _ => id, fun _ _ => id⟩

/-- What has been done when a migration for `n` is at a place. -/
def Knows (db : Database) (n : Node) : Pc → Prop
  | .createMeta | .dead | .returned (.error _) => True
  | .readMeta | .recordNode => db.schemaMeta.isSome
  | .statement i => n ∈ db.nodes ∧ ∀ c ∈ (stmts n).take i, (db.tables c.name).isSome
  | .returned (.ok _) => n ∈ db.nodes ∧ ∀ c ∈ stmts n, (db.tables c.name).isSome

/-- Every table was created for a node that is recorded. -/
def Made (db : Database) : Prop := ∀ t fks, db.tables t = some fks → ∃ n ∈ db.nodes, ⟨t, fks⟩ ∈ stmts n

theorem Pc.Over.knows (h : pc.Over) : Knows db n pc := by
  cases pc with
  | returned r =>
    cases r with
    | error e => trivial
    | ok u => exact h.elim
  | dead => trivial
  | createMeta => trivial
  | readMeta => exact h.elim
  | recordNode => exact h.elim
  | statement i => exact h.elim

theorem Grows.isSome (h : Grows db db') {t : TableName} (ht : (db.tables t).isSome) : (db'.tables t).isSome := by
  obtain ⟨fks, hfks⟩ := Option.isSome_iff_exists.1 ht
  rw [h.tables t fks hfks]
  rfl

theorem Knows.grow (h : Knows db n pc) (hgrows : Grows db db') : Knows db' n pc := by
  cases pc with
  | createMeta => trivial
  | readMeta => exact hgrows.schemaMeta h
  | recordNode => exact hgrows.schemaMeta h
  | statement i => exact ⟨hgrows.nodes n h.1, fun c hc => hgrows.isSome (h.2 c hc)⟩
  | returned r =>
    cases r with
    | error e => trivial
    | ok u => exact ⟨hgrows.nodes n h.1, fun c hc => hgrows.isSome (h.2 c hc)⟩
  | dead => trivial

theorem grows_createTable {c : CreateTable} (hnone : db.tables c.name = none) :
    Grows db { db with tables := Function.update db.tables c.name (some c.foreignKeys) } where
  schemaMeta := id
  nodes _ := id
  tables t fks ht := by
    have hne : t ≠ c.name := by
      intro heq
      rw [heq, hnone] at ht
      cases ht
    exact (Function.update_of_ne hne _ _).trans ht

/-- What holds at the first statement. -/
theorem knows_zero (h : n ∈ db.nodes) : Knows db n (.statement 0) := ⟨h, fun _ hc => absurd hc List.not_mem_nil⟩

/-- What holds at the next statement. -/
theorem knows_succ {i : Nat} {c : CreateTable} (h : Knows db n (.statement i)) (hc : (stmts n)[i]? = some c)
    (hsome : (db.tables c.name).isSome) : Knows db n (.statement (i + 1)) := by
  refine ⟨h.1, fun c' hc' => ?_⟩
  rw [List.take_add_one, hc] at hc'
  rcases List.mem_append.1 hc' with hc' | hc'
  · exact h.2 c' hc'
  · rw [List.mem_singleton.1 hc']
    exact hsome

theorem Moves.grows (h : Moves n db pc pc' db') : Grows db db' := by
  cases h with
  | ended h => exact .refl db
  | metaMade h => exact ⟨fun _ => rfl, fun _ => id, fun _ _ => id⟩
  | nothingRead h => exact .refl db
  | ownRead h => exact .refl db
  | recorded hrows hn h =>
    refine ⟨fun _ => rfl, fun m hm => ?_, fun _ _ => id⟩
    unfold Database.nodes at hm ⊢
    rw [hrows] at hm
    exact List.mem_append_left _ hm
  | found hc h => exact .refl db
  | created hc hnone h => exact grows_createTable hnone
  | finished h => exact .refl db
  | idle => exact .refl db

theorem Moves.knows (h : Moves n db pc pc' db') (hk : Knows db n pc) : Knows db' n pc' := by
  cases h with
  | ended h => exact h.knows
  | metaMade h =>
    rcases h with rfl | h
    · exact rfl
    · exact h.knows
  | nothingRead h => exact hk
  | ownRead h => exact knows_zero h
  | recorded hrows hn h =>
    rcases h with rfl | h
    · exact knows_zero (List.mem_append_right _ List.mem_cons_self)
    · exact h.knows
  | found hc h => exact knows_succ hk hc h
  | created hc hnone h =>
    rcases h with rfl | h
    · refine knows_succ (hk.grow (grows_createTable hnone)) hc ?_
      show (Function.update db.tables _ _ _).isSome
      rw [Function.update_self]
      rfl
    · exact h.knows
  | finished h =>
    refine ⟨hk.1, fun c hc => hk.2 c ?_⟩
    rwa [List.take_of_length_le (List.getElem?_eq_none_iff.1 h)]
  | idle => exact hk

theorem Moves.made (h : Moves n db pc pc' db') (hk : Knows db n pc) (hm : Made db) : Made db' := by
  have hsame : db'.tables = db.tables → Made db' := by
    intro heq t fks ht
    rw [heq] at ht
    obtain ⟨m, hmem, hmade⟩ := hm t fks ht
    exact ⟨m, h.grows.nodes m hmem, hmade⟩
  cases h with
  | @created i c _ hc hnone h =>
    intro t fks ht
    dsimp only at ht
    by_cases heq : t = c.name
    · subst heq
      rw [Function.update_self] at ht
      cases ht
      exact ⟨n, hk.1, List.mem_of_getElem? hc⟩
    · rw [Function.update_of_ne heq] at ht
      exact hm t fks ht
  | ended h => exact hm
  | metaMade h => exact hsame rfl
  | nothingRead h => exact hm
  | ownRead h => exact hm
  | recorded hrows hn h => exact hsame rfl
  | found hc h => exact hm
  | finished h => exact hm
  | idle => exact hm

/-! ## One node -/

/-- At most one node is recorded. -/
def OneNode (db : Database) : Prop := ∀ m ∈ db.nodes, ∀ m' ∈ db.nodes, m = m'

/-- While a migration is about to record its node, no other node is recorded. -/
def Unopposed (db : Database) (p : Migration) : Prop := p.pc = .recordNode → ∀ m ∈ db.nodes, m = p.node

/-- Migrations that are both about to record their nodes are for the same one. -/
def Agree (p q : Migration) : Prop := p.pc = .recordNode → q.pc = .recordNode → p.node = q.node

/-- A turn records a node only where the migration is about to, and then its own. -/
theorem Moves.nodes_cases (h : Moves n db pc pc' db') :
    db'.nodes = db.nodes ∨ (pc = .recordNode ∧ n ∉ db.nodes ∧ db'.nodes = db.nodes ++ [n]) := by
  cases h with
  | recorded hrows hn h =>
    refine .inr ⟨rfl, ?_⟩
    unfold Database.nodes
    rw [hrows]
    exact ⟨hn, rfl⟩
  | ended h => exact .inl rfl
  | metaMade h => exact .inl rfl
  | nothingRead h => exact .inl rfl
  | ownRead h => exact .inl rfl
  | found hc h => exact .inl rfl
  | created hc hnone h => exact .inl rfl
  | finished h => exact .inl rfl
  | idle => exact .inl rfl

/-- A migration is about to record its node only after it found none. -/
theorem Moves.recordNode_cases (h : Moves n db pc pc' db') (hpc : pc' = .recordNode) :
    db'.nodes = [] ∨ (pc = .recordNode ∧ db' = db) := by
  subst hpc
  cases h with
  | nothingRead h => exact .inl h
  | idle => exact .inr ⟨rfl, rfl⟩
  | ended h => exact h.elim
  | metaMade h => exact h.elim (fun heq => by cases heq) False.elim
  | recorded hrows hn h => exact h.elim (fun heq => by cases heq) False.elim
  | created hc hnone h => exact h.elim (fun heq => by cases heq) False.elim

theorem Moves.others (h : Moves n db pc pc' db') {m : Node} (hm : ∀ a ∈ db.nodes, a = m)
    (hagree : pc = .recordNode → n = m) : ∀ a ∈ db'.nodes, a = m := by
  rcases h.nodes_cases with heq | ⟨hpc, -, heq⟩
  · rw [heq]
    exact hm
  · intro a ha
    rw [heq] at ha
    rcases List.mem_append.1 ha with ha | ha
    · exact hm a ha
    · rw [List.mem_singleton.1 ha]
      exact hagree hpc

theorem Moves.oneNode (h : Moves n db pc pc' db') (hone : OneNode db) (hun : pc = .recordNode → ∀ a ∈ db.nodes, a = n) :
    OneNode db' := by
  rcases h.nodes_cases with heq | ⟨hpc, -, heq⟩
  · unfold OneNode
    rw [heq]
    exact hone
  · have hall : ∀ a ∈ db'.nodes, a = n := h.others (hun hpc) fun _ => rfl
    exact fun a ha b hb => (hall a ha).trans (hall b hb).symm

/-- **Every interleaving.** All tables were made for recorded nodes, and every migration has done what its place in the
code says. -/
theorem made_after (evs : List Event) : Pool.Meets Made (fun db p => Knows db p.node p.pc) (after evs) := by
  have hmeets := @Pool.meets_run _ _ _ _ Migration.begin Migration.next Made (fun db p => Knows db p.node p.pc)
    (fun _ _ => True) ⟨.empty, []⟩ (fun db n _ => trivial) ?_ ?_ ⟨nofun, nofun⟩ evs
  · rcases hmeets with h | ⟨_, _, _, _, _, _, _, hclash⟩
    · exact h
    · exact absurd trivial hclash
  · intro db p o hI hA
    obtain ⟨hnode, hmoves⟩ := p.next_moves o db
    rw [hnode]
    exact ⟨hmoves.made hA hI, hmoves.knows hA⟩
  · intro db p q o _ _ hB _
    exact hB.grow (p.next_moves o db).2.grows

/-- Unless migrations for different nodes were about to record them at the same time, at most one node is recorded. -/
theorem oneNode_after (evs : List Event) :
    Pool.Meets OneNode Unopposed (after evs) ∨ ∃ earlier later,
      evs = earlier ++ later ∧ Pool.Clash Agree (after earlier) := by
  refine Pool.meets_run (fun db n _ => nofun) ?_ ?_ ⟨nofun, nofun⟩ evs
  · intro db p o hI hA
    obtain ⟨hnode, hmoves⟩ := p.next_moves o db
    refine ⟨hmoves.oneNode hI hA, fun hpc => ?_⟩
    rw [hnode]
    rcases hmoves.recordNode_cases hpc with hnil | ⟨hpc', heq⟩
    · rw [hnil]
      nofun
    · rw [heq]
      exact hA hpc'
  · intro db p q o _ _ hB hagree hq
    exact (p.next_moves o db).2.others (hB hq) fun hp => hagree hp hq

theorem declared_of_mem {c : CreateTable} (hc : c ∈ stmts n) : declared n c.name = c.foreignKeys := by
  have hall : ∀ c ∈ stmts n, declared n c.name = c.foreignKeys := by cases n <;> decide
  exact hall c hc

/-- The tables check what the statements of the store model for the node check. -/
structure Database.Serves (db : Database) (n : Node) : Prop where
  keys : ∃ fks, db.tables .keys = some fks ∧
    ∀ (d : DB) (k : Key), d.node = n → (fks.all fun fk => fk.holds d (keyColumns k)) = d.keyReferences k
  keyVersions : ∃ fks, db.tables .keyVersions = some fks ∧
    ∀ (d : DB) (kv : KeyVersion), d.node = n →
      (fks.all fun fk => fk.holds d (keyVersionColumns kv)) = d.keyVersionReferences kv

/-- The schema of a node is complete: all of its tables are there, as its statements make them. -/
structure Database.Complete (db : Database) (n : Node) : Prop extends db.Serves n where
  /-- An agent keeps no registrations. -/
  present : ∀ t, n = .root ∨ t ≠ .agentRegistrations → (db.tables t).isSome
  made : ∀ c ∈ stmts n, db.tables c.name = some c.foreignKeys

theorem mem_stmts_of_made (hmade : Made db) (hn : ∀ m ∈ db.nodes, m = n) {t : TableName} {fks : List ForeignKey}
    (ht : db.tables t = some fks) : ⟨t, fks⟩ ∈ stmts n := by
  obtain ⟨m, hm, hmem⟩ := hmade t fks ht
  rw [← hn m hm]
  exact hmem

/-- After a migration that succeeded. -/
theorem complete_of_knows (hmade : Made db) (hn : ∀ m ∈ db.nodes, m = n) (hknows : Knows db n (.returned (.ok ()))) :
    db.Complete n := by
  have htable : ∀ c ∈ stmts n, db.tables c.name = some c.foreignKeys := by
    intro c hc
    obtain ⟨fks, hfks⟩ := Option.isSome_iff_exists.1 (hknows.2 c hc)
    have hmade' : declared n c.name = fks := declared_of_mem (mem_stmts_of_made hmade hn hfks)
    rw [hfks, ← declared_of_mem hc, hmade']
  have hnamed : ∀ t, n = .root ∨ t ≠ .agentRegistrations → ∃ c ∈ stmts n, c.name = t := by
    cases n <;> intro t <;> cases t <;> decide
  have hdeclared : ∀ t, n = .root ∨ t ≠ .agentRegistrations → db.tables t = some (declared n t) := by
    intro t ht
    obtain ⟨c, hc, rfl⟩ := hnamed t ht
    rw [htable c hc, declared_of_mem hc]
  refine ⟨⟨⟨_, hdeclared .keys (.inr nofun), ?_⟩, ⟨_, hdeclared .keyVersions (.inr nofun), ?_⟩⟩, ?_, htable⟩
  · intro d k hd
    rw [← hd]
    exact keyReferences_eq d k
  · intro d kv hd
    rw [← hd]
    exact keyVersionReferences_eq d kv
  · intro t ht
    rw [hdeclared t ht]
    rfl

/-- **A database is migrated for one node.** However the migrations of roots and agents interleave, fail and are started
again on one database: at most one node is recorded, each table was made by one of its statements, and only its
migrations succeed, after which its schema is complete and checks what the store model of that node checks. The one
exception is that at some time a migration for the root and one for an agent had both found nothing recorded and neither
had recorded its node. -/
theorem one_node_schema (evs : List Event) :
    (∃ n, (∀ m ∈ (after evs).shared.nodes, m = n) ∧
      (∀ t fks, (after evs).shared.tables t = some fks → ⟨t, fks⟩ ∈ stmts n) ∧
      ∀ p ∈ (after evs).procs, p.pc = .returned (.ok ()) → p.node = n ∧ (after evs).shared.Complete n) ∨
    ∃ earlier later, evs = earlier ++ later ∧ ∃ p ∈ (after earlier).procs, ∃ q ∈ (after earlier).procs,
      p.pc = .recordNode ∧ q.pc = .recordNode ∧ p.node ≠ q.node := by
  have hmeets := made_after evs
  rcases oneNode_after evs with h | ⟨earlier, later, hevs, p, hp, q, hq, hclash⟩
  · left
    have hnode : ∃ n, ∀ m ∈ (after evs).shared.nodes, m = n := by
      cases hnodes : (after evs).shared.nodes with
      | nil => exact ⟨.root, nofun⟩
      | cons n rest =>
        have hone := h.shared
        unfold OneNode at hone
        rw [hnodes] at hone
        exact ⟨n, fun m hm => hone m hm n List.mem_cons_self⟩
    obtain ⟨n, hn⟩ := hnode
    refine ⟨n, hn, fun t fks ht => mem_stmts_of_made hmeets.shared hn ht, fun p hp hpc => ?_⟩
    have hknows := hmeets.procs p hp
    rw [hpc] at hknows
    have hpn : p.node = n := hn _ hknows.1
    exact ⟨hpn, complete_of_knows hmeets.shared hn (hpn ▸ hknows)⟩
  · right
    unfold Agree at hclash
    simp only [Classical.not_imp] at hclash
    exact ⟨earlier, later, hevs, p, hp, q, hq, hclash⟩

/-- In the exception both migrations succeed, and the root works on keys whose parents are not checked. -/
example :
    let s := after ([.start .root, .start .agent] ++
      [0, 1, 0, 1, 0, 1, 1, 1, 1, 1, 0, 0, 0, 0, 0].map fun i => .turn i (.answered 0))
    s.procs = [⟨.root, .returned (.ok ())⟩, ⟨.agent, .returned (.ok ())⟩] ∧
      s.shared.tables .keys = some createAgentsKeysTable.foreignKeys := by
  decide

/-! ## Starting again -/

theorem createTable_isOk {i : Nat} {c : CreateTable} (h : Knows db n (.statement i)) (hc : (stmts n)[i]? = some c) :
    ∃ db', db.createTable c = .ok db' := by
  unfold Database.createTable
  split
  · exact ⟨db, rfl⟩
  · rw [if_pos]
    · exact ⟨_, rfl⟩
    · intro fk hfk
      refine (stmts_refer hc hfk).imp_right fun hearlier => ?_
      obtain ⟨c', hc', heq⟩ := hearlier
      rw [← heq]
      exact h.2 c' hc'

/-- Without failures the statements are carried out one after the other. -/
theorem turns_statements (picks : List Nat) {i : Nat} (h : Knows db n (.statement i)) (hi : i ≤ (stmts n).length)
    (hpicks : (stmts n).length < i + picks.length) :
    (Pool.turns Migration.next (picks.map .answered) (⟨n, .statement i⟩, db)).1 = ⟨n, .returned (.ok ())⟩ := by
  induction picks generalizing i db with
  | nil => exact absurd hpicks (Nat.not_lt.2 hi)
  | cons k picks ih =>
    rw [List.map_cons, Pool.turns]
    cases hc : (stmts n)[i]? with
    | none =>
      have hnext : Migration.next (.answered k) ⟨n, .statement i⟩ db = (⟨n, .returned (.ok ())⟩, db) := by
        simp only [Migration.next, hc]
        rfl
      rw [hnext, Pool.turns_of_idle fun _ => rfl]
    | some c =>
      obtain ⟨db', hcreate⟩ := createTable_isOk h hc
      have hnext : Migration.next (.answered k) ⟨n, .statement i⟩ db = (⟨n, .statement (i + 1)⟩, db') := by
        simp only [Migration.next, hc, Migration.exec, hcreate]
        rfl
      have hknows := (Migration.next_moves (.answered k) ⟨n, .statement i⟩ db).2.knows h
      rw [hnext] at hknows ⊢
      have hlt : i < (stmts n).length := (List.getElem?_eq_some_iff.1 hc).1
      refine ih hknows hlt ?_
      rw [List.length_cons] at hpicks
      omega

/-- The first statement makes `schema_meta`, or leaves it. -/
theorem next_begin {k : Nat} : Migration.next (.answered k) (.begin n) db =
    (⟨n, .readMeta⟩, { db with schemaMeta := some db.nodes }) := rfl

/-- Reading `schema_meta` when no node is recorded. -/
theorem next_readMeta_nil {k : Nat} (hrows : db.schemaMeta = some []) :
    Migration.next (.answered k) ⟨n, .readMeta⟩ db = (⟨n, .recordNode⟩, db) := by
  simp [Migration.next, Database.selectNode, Migration.goto, hrows]

/-- Recording the first node. -/
theorem next_recordNode {k : Nat} (hrows : db.schemaMeta = some []) :
    Migration.next (.answered k) ⟨n, .recordNode⟩ db = (⟨n, .statement 0⟩, { db with schemaMeta := some [n] }) := by
  simp [Migration.next, Migration.exec, Database.insertNode, Migration.goto, hrows]

/-- Reading `schema_meta` when a node is recorded, and only that one. -/
theorem next_readMeta {k : Nat} {rows : List Node} {m : Node} (hrows : db.schemaMeta = some rows) (hne : rows ≠ [])
    (hm : ∀ a ∈ rows, a = m) : Migration.next (.answered k) ⟨n, .readMeta⟩ db =
      if m ≠ n then (⟨n, .returned (.error (errInitialized m n))⟩, db) else (⟨n, .statement 0⟩, db) := by
  have hselect : db.selectNode k = .ok (some m) := by
    unfold Database.selectNode
    rw [hrows]
    dsimp only
    cases hhead : (rows.rotate k).head? with
    | none =>
      rw [List.head?_eq_none_iff, List.rotate_eq_nil_iff] at hhead
      exact absurd hhead hne
    | some a => rw [hm a (List.mem_rotate.1 (List.mem_of_head? hhead))]
  simp only [Migration.next, hselect]
  rfl

/-- `Migrate` alone, on a database that is not recorded for another node. -/
theorem turns_migrate (picks : List Nat) (hnodes : ∀ m ∈ db.nodes, m = n)
    (hpicks : (stmts n).length + 4 ≤ picks.length) :
    (Pool.turns Migration.next (picks.map .answered) (.begin n, db)).1 = ⟨n, .returned (.ok ())⟩ := by
  rcases picks with _ | ⟨k₁, _ | ⟨k₂, _ | ⟨k₃, picks⟩⟩⟩ <;> simp only [List.length_nil, List.length_cons] at hpicks
  · omega
  · omega
  · omega
  rw [List.map_cons, Pool.turns, next_begin, List.map_cons, Pool.turns]
  by_cases hnil : db.nodes = []
  · rw [hnil, next_readMeta_nil rfl, List.map_cons, Pool.turns, next_recordNode rfl]
    exact turns_statements picks (knows_zero List.mem_cons_self) (Nat.zero_le _) (by omega)
  · have hmem : n ∈ db.nodes := by
      obtain ⟨a, ha⟩ := List.exists_mem_of_ne_nil _ hnil
      exact hnodes a ha ▸ ha
    rw [next_readMeta rfl hnil hnodes, if_neg (not_not.2 rfl)]
    exact turns_statements (k₃ :: picks) (knows_zero hmem) (Nat.zero_le _) (by rw [List.length_cons]; omega)

/-- `Migrate` alone, on a database that is recorded for another node. -/
theorem turns_refused (picks : List Nat) {m : Node} (hone : OneNode db) (hm : m ∈ db.nodes) (hne : m ≠ n)
    (hpicks : 2 ≤ picks.length) : Pool.turns Migration.next (picks.map .answered) (.begin n, db) =
      (⟨n, .returned (.error (errInitialized m n))⟩, db) := by
  rcases picks with _ | ⟨k₁, _ | ⟨k₂, picks⟩⟩ <;> simp only [List.length_nil, List.length_cons] at hpicks
  · omega
  · omega
  have hsame : { db with schemaMeta := some db.nodes } = db := by
    obtain ⟨schemaMeta, tables⟩ := db
    cases schemaMeta with
    | none => cases hm
    | some rows => rfl
  rw [List.map_cons, Pool.turns, next_begin, List.map_cons, Pool.turns]
  rw [next_readMeta rfl (List.ne_nil_of_mem hm) fun a ha => hone a ha m hm, if_pos hne, hsame]
  exact Pool.turns_of_idle fun _ => rfl

/-- A migration records no node but its own. -/
theorem turns_nodes (os : List Outcome) {p : Migration} (h : ∀ m ∈ db.nodes, m = p.node) :
    ∀ m ∈ (Pool.turns Migration.next os (p, db)).2.nodes, m = p.node := by
  induction os generalizing p db with
  | nil => exact h
  | cons o os ih =>
    obtain ⟨hnode, hmoves⟩ := p.next_moves o db
    have hnext : ∀ m ∈ (p.next o db).2.nodes, m = (p.next o db).1.node := by
      rw [hnode]
      exact hmoves.others h fun _ => rfl
    rw [Pool.turns, ← hnode]
    exact ih hnext

/-- **A migration that runs undisturbed completes the schema.** Whatever was interrupted before it, with replicas dead
half way through their statements, `Migrate` succeeds if the database is not recorded for another node, and then every
table of the node is there with its foreign keys; otherwise it says so and changes nothing. -/
theorem migration_restarts (evs : List Event)
    (hagree : ∀ earlier later, evs = earlier ++ later → ¬ Pool.Clash Agree (after earlier)) (n : Node)
    (picks : List Nat) (hpicks : (stmts n).length + 4 ≤ picks.length) :
    let s := after evs
    let s' := after (evs ++ .start n :: picks.map fun k => .turn s.procs.length (.answered k))
    ((∀ m ∈ s.shared.nodes, m = n) → s'.procs[s.procs.length]? = some ⟨n, .returned (.ok ())⟩ ∧ s'.shared.Complete n) ∧
      ∀ m ∈ s.shared.nodes, m ≠ n →
        s'.procs[s.procs.length]? = some ⟨n, .returned (.error (errInitialized m n))⟩ ∧ s'.shared = s.shared := by
  intro s s'
  have hmeets := made_after (evs ++ .start n :: picks.map fun k => .turn s.procs.length (.answered k))
  have hlast : (s.procs ++ [Migration.begin n])[s.procs.length]? = some (.begin n) := by simp
  have hend : s' = ⟨(Pool.turns Migration.next (picks.map .answered) (.begin n, s.shared)).2,
      (s.procs ++ [Migration.begin n]).set s.procs.length
        (Pool.turns Migration.next (picks.map .answered) (.begin n, s.shared)).1⟩ := by
    have hrun := @Pool.run_turns _ _ Node _ Migration.begin Migration.next ⟨s.shared, s.procs ++ [.begin n]⟩ _ _ hlast
      (picks.map .answered)
    rw [List.map_map] at hrun
    show run step _ (evs ++ _) = _
    rw [run_append, run_cons]
    exact hrun
  have hproc : s'.procs[s.procs.length]? =
      some (Pool.turns Migration.next (picks.map .answered) (.begin n, s.shared)).1 := by
    rw [hend]
    exact List.getElem?_set_self (by simp)
  constructor
  · intro hnodes
    rw [turns_migrate picks hnodes hpicks] at hproc
    refine ⟨hproc, complete_of_knows hmeets.shared ?_ (hmeets.procs _ (List.mem_of_getElem? hproc))⟩
    show ∀ m ∈ s'.shared.nodes, m = n
    rw [hend]
    exact turns_nodes _ hnodes
  · intro m hm hne
    have hone : OneNode s.shared := by
      rcases oneNode_after evs with h | ⟨earlier, later, hevs, hclash⟩
      · exact h.shared
      · exact absurd hclash (hagree earlier later hevs)
    have hturns := turns_refused picks hone hm hne (by omega)
    rw [hturns] at hproc
    refine ⟨hproc, ?_⟩
    rw [hend, hturns]

/-- Two replicas of the root start together; one dies after its first table, the other's record is refused. -/
def demoReplicas : List Event :=
  [.start .root, .start .root, .turn 0 (.answered 0), .turn 1 (.answered 0), .turn 0 (.answered 0),
    .turn 1 (.answered 0), .turn 0 (.answered 0), .turn 1 (.answered 0), .turn 0 (.answered 0), .turn 0 .died]

theorem demo_migration_restarts :
    (after demoReplicas).shared.tables .keys = none ∧
      (after (demoReplicas ++
        .start .root :: (List.replicate 8 0).map fun k => .turn 2 (.answered k))).shared.Complete .root := by
  have hagree : ∀ earlier ∈ demoReplicas.inits, ¬ Pool.Clash Agree (after earlier) := by
    unfold Pool.Clash Agree
    decide
  have hrestarts := migration_restarts demoReplicas
    (fun earlier later h => hagree earlier ((List.mem_inits _ _).2 ⟨later, h.symm⟩)) .root
      (List.replicate 8 0) (by decide)
  exact ⟨by decide, (hrestarts.1 (by decide)).2⟩

end Migrate

end Krypton
