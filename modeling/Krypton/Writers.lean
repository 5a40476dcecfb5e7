import Krypton.Fleet
import Krypton.Lib.Guarded
import Krypton.Secrets

/-!
# Concurrent writers of key versions

Calls that create key versions on one node, step by step: `UpsertKeyVersion` on an agent and the tasks of the root. Each
runs in a transaction of its own; the steps of any number of them interleave, and a call can stop after each of its
steps. A call inserts the row of the version, has the secret generated and sealed, imports it into the vault and
commits. The vault takes every import. A second insert of a row waits while another transaction has inserted it, and
fails once it is committed.

* `upsertKeyVersionSteps_eq`, `processKey_eq` — the steps, in sequence, are the transactions of these calls;
* `SiteEffect.guarded` — the calls are writers of `Lib.Guarded`: the rows guard the entries of the vault;
* `committed_secret_kept` — a committed version has its entry, which no later step changes.
-/

namespace Krypton

open Lib

/-! ## The calls in steps -/

section
variable (e : Env)

/-- Generate a secret and import it. -/
def storeSecret (generate : Session → Except Err (VaultKey × VaultEntry)) : Step Unit := do
  let entry ← fun s => if e.fails .generate then (.error (.plain "failed to generate and seal"), s) else (generate s, s)
  importKey e entry

/-- `UpsertKeyVersion` up to the secret: the key and the version that needs one, if the version is new. -/
def prepareUpsert (req : UpsertKeyVersionRequest) : AgentStep (Option (Key × KeyVersion)) := do
  let kv := req.keyVersion e
  (query e .validateTenant (Validator.validateTenant kv.tenantID)).mapError (notFoundAborts .tenantNotFound)
  let key ← (query e .loadKey fun db => db.getKeyByID kv.keyID kv.tenantID).mapError (notFoundAborts .keyNotFound)
  Tx.lift (check (key.lifeCycleState = kv.lifeCycleState) (.abort (.plain
    ("key is in " ++ key.lifeCycleState.text ++ " state, cannot transition to " ++ kv.lifeCycleState.text ++
      " state"))))
  match ← fetchKeyVersion e kv with
  | some old =>
    (exec e .updateKeyVersion fun db => db.updateKeyVersionStates
      ⟨kv.tenantID, kv.keyID, kv.version, kv.revision, [old.processingState], kv.processingState, [old.lifeCycleState],
        kv.lifeCycleState, e.now⟩).mapError .retry
    return none
  | none =>
    (exec e .createKeyVersion fun db => db.createKeyVersion kv).mapError .retry
    return some (key, kv)

variable (R : RootProcess)

/-- Whether a task has to create a secret, and on which node. -/
def secretNode (key : Key) (isNewKV : Bool) : Operation (Option String) :=
  match R.manager, R.rootCfg with
  | none, _ => markKeyFailed e key (errInternal "key processor manager is nil")
  | some _, none => markKeyFailed e key (errInternal "config is nil")
  | some _, some cfg =>
    match cfg.hierarchy.findKeySpec key.kind with
    | none => markKeyFailed e key (errInternal ("key kind " ++ key.kind ++ " not found in hierarchy"))
    | some spec =>
      if key.managedBy ≠ cfg.name ∨ spec.role = .root ∨ isNewKV = false then return none else return some cfg.name

/-- The steps of a task on its key up to the secret. -/
def prepareKey (kid : KeyIdentifier) : Operation (Key × Option (String × KeyVersion)) := do
  let key ← loadKey e kid
  let (kv, isNewKV) ← resolveKeyVersions e key
  let node ← secretNode e R key isNewKV
  return (key, node.map fun n => (n, kv))

/-- The steps of a task after the secret. -/
def finishKey (key : Key) : Operation Unit := do
  upsertRemote R e key
  markKeyCompleted e key

/-- The checks of a task before its steps. -/
def guardTask (toState : KeyLifeCycleState) (kid : KeyIdentifier) : Tx Session TaskError Unit := do
  (query e .validateTenant (Validator.validateTenant kid.tenantID)).mapError fun err =>
    .orbital (if err.is .tenantNotFound then .fail err else .continue err)
  let key ← (query e .ensureKey fun db => db.getKeyByID kid.id kid.tenantID).mapError fun err =>
    .orbital (if err.is .keyNotFound then .fail err else .continue err)
  Tx.lift (check (key.lifeCycleState = toState && key.status = .pending) (.orbital .complete))

end

section
variable {e : Env} {R : RootProcess}

theorem markKeyFailed_bind {α β : Type} (key : Key) (err : Err) (f : α → Operation β) :
    (markKeyFailed e key err : Operation α) >>= f = markKeyFailed e key err := by
  unfold markKeyFailed
  rw [Tx.bind_assoc]
  rfl

/-- `UpsertKeyVersion` is its first part and the secret. -/
theorem upsertKeyVersionSteps_eq {C : Cluster} {S : ClusterState} {fuel : Nat} {node : String}
    (req : UpsertKeyVersionRequest) : upsertKeyVersionSteps e C S fuel node req = (do
      match ← prepareUpsert e req with
      | none => return ()
      | some (key, kv) =>
        (storeSecret e fun _ => generateAndSealSecret C S fuel node key.kind e.draw kv kv.aad).mapError .retry) := by
  unfold upsertKeyVersionSteps prepareUpsert storeSecret
  simp only [Tx.bind_assoc]
  -- the statements before the version is looked up are the same
  congr 1
  funext _
  congr 1
  funext key
  congr 1
  funext _
  congr 1
  funext old
  cases old with
  | some old =>
    rw [Tx.bind_assoc]
    exact (Tx.bind_unit _).symm
  | none =>
    rw [Tx.bind_assoc]
    rfl

theorem generateAndSeal_eq (key : Key) (kv : KeyVersion) (isNewKV : Bool) :
    generateAndSeal R e key kv isNewKV = (do
      match ← secretNode e R key isNewKV with
      | none => return ()
      | some node =>
        (storeSecret e fun s =>
          generateAndSealSecret R.cluster s.cluster R.fuel node key.kind e.draw kv kv.aad).mapError .continue) := by
  unfold generateAndSeal secretNode
  cases R.manager with
  | none => exact (markKeyFailed_bind key _ _).symm
  | some m =>
    cases R.rootCfg with
    | none => exact (markKeyFailed_bind key _ _).symm
    | some cfg =>
      dsimp only
      cases cfg.hierarchy.findKeySpec key.kind with
      | none => exact (markKeyFailed_bind key _ _).symm
      | some spec =>
        dsimp only
        split <;> rfl

/-- The steps of a task on its key are its first part, the secret and the rest. -/
theorem processKey_eq (kid : KeyIdentifier) :
    processKey R e kid = (do
      let (key, todo) ← prepareKey e R kid
      match todo with
      | none => finishKey e R key
      | some (node, kv) =>
        (storeSecret e fun s =>
          generateAndSealSecret R.cluster s.cluster R.fuel node key.kind e.draw kv kv.aad).mapError .continue
        finishKey e R key) := by
  unfold processKey prepareKey finishKey
  simp only [Tx.bind_assoc, generateAndSeal_eq]
  congr 1
  funext key
  congr 1
  funext x
  obtain ⟨kv, isNewKV⟩ := x
  dsimp only
  congr 1
  funext node
  cases node <;> rfl

end

/-! ## The system -/

/-- The processes whose calls run on the node: the root with its tasks, or an agent with its manager. -/
structure Host where
  root : RootProcess
  cluster : Cluster
  fuel : Nat
  node : String

inductive Call where
  | upsertKeyVersion (e : Env) (req : UpsertKeyVersionRequest)
  | task (e : Env) (action : ActionType) (kid : KeyIdentifier)

def Call.env : Call → Env
  | .upsertKeyVersion e _ => e
  | .task e _ _ => e

/-- How a part of a call ends: the transaction is to be rolled back or committed, or a secret comes next. -/
inductive Progress where
  | rollback | commit
  | secret (node : String) (key : Key) (kv : KeyVersion)

/-- The transaction of a task commits unless it is to be tried again. -/
def OrbitalOperatorError.progress : OrbitalOperatorError → Progress
  | .continue _ => .rollback
  | .fail _ => .commit
  | .complete => .commit

def finishTask (R : RootProcess) (e : Env) (key : Key) (s : Session) : Progress × Session :=
  match finishKey e R key s with
  | (.ok (), s) => (.commit, s)
  | (.error o, s) => (o.progress, s)

/-- A task after its checks, up to the secret, or to its end when it creates none. -/
def prepareTaskKey (R : RootProcess) (e : Env) (kid : KeyIdentifier) (s : Session) : Progress × Session :=
  match prepareKey e R kid s with
  | (.error o, s) => (o.progress, s)
  | (.ok (key, none), s) => finishTask R e key s
  | (.ok (key, some (node, kv)), s) => (.secret node key kv, s)

def prepareTask (R : RootProcess) (e : Env) (toState : KeyLifeCycleState) (kid : KeyIdentifier) (s : Session) :
    Progress × Session :=
  match guardTask e toState kid s with
  | (.error _, s) => (.rollback, s)
  | (.ok (), s) => prepareTaskKey R e kid s

def prepareAgent (node : String) (e : Env) (req : UpsertKeyVersionRequest) (s : Session) : Progress × Session :=
  match prepareUpsert e req s with
  | (.error _, s) => (.rollback, s)
  | (.ok none, s) => (.commit, s)
  | (.ok (some (key, kv)), s) => (.secret node key kv, s)

/-- The checks on a request before its transaction. -/
def Call.accepted : Call → Bool
  | .upsertKeyVersion _ req => (AgentRequest.validate (.upsertKeyVersion req)).isOk
  | .task _ _ _ => true

section
variable (H : Host)

def Call.prepare : Call → Session → Progress × Session
  | .upsertKeyVersion e req, s => prepareAgent H.node e req s
  | .task e action kid, s => prepareTask H.root e action.toState kid s

/-- Generate and seal; `S` is what the other nodes and the vaults hold at this moment. -/
def Call.generate (S : ClusterState) (node : String) (key : Key) (kv : KeyVersion) :
    Call → Except Err (VaultKey × VaultEntry)
  | .upsertKeyVersion e _ => generateAndSealSecret H.cluster S H.fuel node key.kind e.draw kv kv.aad
  | .task e _ _ => generateAndSealSecret H.root.cluster S H.root.fuel node key.kind e.draw kv kv.aad

def Call.finish (key : Key) : Call → Session → Progress × Session
  | .upsertKeyVersion _ _, s => (.commit, s)
  | .task e _ _, s => finishTask H.root e key s

end

/-- Where a call is. -/
inductive Phase where
  | fresh
  | opened (s : Session)
  | staged (s : Session) (node : String) (key : Key) (kv : KeyVersion)
  | «sealed» (s : Session) (key : Key) (kv : KeyVersion) (entry : VaultKey × VaultEntry)
  | imported (s : Session) (key : Key) (kv : KeyVersion)
  /-- The import reported an error; the transaction is about to be rolled back. -/
  | failed (s : Session)
  | ready (s : Session)
  | «over»

def Progress.phase (s : Session) : Progress → Phase
  | .rollback => .over
  | .commit => .ready s
  | .secret node key kv => .staged s node key kv

/-- The primary key of a version. -/
structure VersionKey where
  tenantID : String
  keyID : String
  version : Nat
  revision : Nat
  deriving DecidableEq, Repr

def KeyVersion.rowKey (kv : KeyVersion) : VersionKey := ⟨kv.tenantID, kv.keyID, kv.version, kv.revision⟩

def DB.rowKeys (db : DB) : List VersionKey := db.keyVersions.rows.map KeyVersion.rowKey

/-- The rows a transaction has inserted so far. -/
def Session.inserted (s : Session) : List VersionKey := s.db.rowKeys.filter fun k => !s.committed.rowKeys.contains k

def Phase.inserted : Phase → List VersionKey
  | .fresh => []
  | .opened s => s.inserted
  | .staged s _ _ _ => s.inserted
  | .sealed s _ _ _ => s.inserted
  | .imported s _ _ => s.inserted
  | .failed s => s.inserted
  | .ready s => s.inserted
  | .over => []

structure CallState where
  call : Call
  phase : Phase

/-- The node: its database, its vaults and the calls. -/
structure SiteState where
  db : DB
  vault : Vault
  calls : List CallState

/-- The rows call `i` has inserted and not committed. -/
def SiteState.held (x : SiteState) (i : Nat) : List VersionKey :=
  match x.calls[i]? with
  | some c => c.phase.inserted
  | none => []

def SiteState.heldByOther (x : SiteState) (i : Nat) (k : VersionKey) : Bool :=
  (List.range x.calls.length).any fun j => j != i && (x.held j).contains k

/-- Call `i` goes on to a phase. -/
def SiteState.goto (x : SiteState) (i : Nat) (phase : Phase) : SiteState :=
  { x with calls := x.calls.modify i fun c => { c with phase } }

inductive SiteOp where
  | start (call : Call)
  | «begin» (i : Nat)
  | prepare (i : Nat)
  | generate (i : Nat) (S : ClusterState)
  | importKey (i : Nat)
  | finish (i : Nat)
  /-- The transaction of call `i` commits, which leaves the database as given. -/
  | commit (i : Nat) (db : DB)
  /-- Call `i` fails or its process stops: its transaction is rolled back. -/
  | crash (i : Nat)
  /-- Another transaction commits; it inserts no version. -/
  | other (db : DB)

/-- `db` has the rows of `ks`. -/
def DB.HasRows (db : DB) (ks : List VersionKey) : Prop := (∀ k ∈ db.rowKeys, k ∈ ks) ∧ ∀ k ∈ ks, k ∈ db.rowKeys

instance (db : DB) (ks : List VersionKey) : Decidable (db.HasRows ks) := inferInstanceAs (Decidable (_ ∧ _))

def siteStep (H : Host) (x : SiteState) : SiteOp → SiteState
  | .start call => { x with calls := x.calls ++ [⟨call, .fresh⟩] }
  | .begin i =>
    match x.calls[i]? with
    | some ⟨c, .fresh⟩ =>
      if c.accepted && !c.env.fails .begin then x.goto i (.opened ⟨x.db, x.db, x.vault, fun _ => none, []⟩)
      else x.goto i .over
    | _ => x
  | .prepare i =>
    match x.calls[i]? with
    | some ⟨c, .opened s⟩ =>
      let (p, s') := c.prepare H s
      -- the insert waits, fails, or goes through
      if s'.inserted.any (x.heldByOther i) then x
      else if s'.inserted.any x.db.rowKeys.contains then x.goto i .over
      else x.goto i (p.phase s')
    | _ => x
  | .generate i S =>
    match x.calls[i]? with
    | some ⟨c, .staged s node key kv⟩ =>
      if c.env.fails .generate then x.goto i .over
      else match c.generate H S node key kv with
        | .ok entry => x.goto i (.sealed s key kv entry)
        | .error _ => x.goto i .over
    | _ => x
  | .importKey i =>
    match x.calls[i]? with
    | some ⟨c, .sealed s key kv entry⟩ =>
      if c.env.fails .importKey then x.goto i .over
      else { x.goto i (if c.env.fails .importKeyReply then .failed s else .imported s key kv) with
        vault := Function.update x.vault entry.1 (some entry.2) }
    | _ => x
  | .finish i =>
    match x.calls[i]? with
    | some ⟨c, .imported s key _⟩ =>
      let (p, s') := c.finish H key s
      x.goto i (p.phase s')
    | some ⟨_, .failed _⟩ => x.goto i .over
    | _ => x
  | .commit i db =>
    match x.calls[i]? with
    | some ⟨c, .ready s⟩ =>
      if c.env.fails .commit then x.goto i .over
      else if db.HasRows (x.db.rowKeys ++ s.inserted) then { x.goto i .over with db }
      else x
    | _ => x
  | .crash i => x.goto i .over
  | .other db => if db.HasRows x.db.rowKeys then { x with db } else x

/-! ## What a step can do -/

/-- A step of the system, taken by call `i`. -/
inductive SiteEffect (H : Host) (x : SiteState) (i : Nat) : SiteState → Prop where
  | idle : SiteEffect H x i x
  | started (call : Call) : SiteEffect H x i { x with calls := x.calls ++ [⟨call, .fresh⟩] }
  | other {db : DB} (hrows : db.HasRows x.db.rowKeys) : SiteEffect H x i { x with db }
  | «over» : SiteEffect H x i (x.goto i .over)
  | opened {c : Call} (h : x.calls[i]? = some ⟨c, .fresh⟩) :
      SiteEffect H x i (x.goto i (.opened ⟨x.db, x.db, x.vault, fun _ => none, []⟩))
  | prepared {c : Call} {s s' : Session} {p : Progress} (h : x.calls[i]? = some ⟨c, .opened s⟩)
      (hp : c.prepare H s = (p, s')) (hfree : ∀ k ∈ s'.inserted, x.heldByOther i k = false)
      (hnew : ∀ k ∈ s'.inserted, k ∉ x.db.rowKeys) : SiteEffect H x i (x.goto i (p.phase s'))
  | «sealed» {c : Call} {s : Session} {node : String} {key : Key} {kv : KeyVersion} {S : ClusterState}
      {entry : VaultKey × VaultEntry} (h : x.calls[i]? = some ⟨c, .staged s node key kv⟩)
      (hg : c.generate H S node key kv = .ok entry) : SiteEffect H x i (x.goto i (.sealed s key kv entry))
  | imported {c : Call} {s : Session} {key : Key} {kv : KeyVersion} {entry : VaultKey × VaultEntry} {phase : Phase}
      (h : x.calls[i]? = some ⟨c, .sealed s key kv entry⟩) (hphase : phase = .failed s ∨ phase = .imported s key kv) :
      SiteEffect H x i { x.goto i phase with vault := Function.update x.vault entry.1 (some entry.2) }
  | finished {c : Call} {s s' : Session} {key : Key} {kv : KeyVersion} {p : Progress}
      (h : x.calls[i]? = some ⟨c, .imported s key kv⟩) (hp : c.finish H key s = (p, s')) :
      SiteEffect H x i (x.goto i (p.phase s'))
  | committed {c : Call} {s : Session} {db : DB} (h : x.calls[i]? = some ⟨c, .ready s⟩)
      (hrows : db.HasRows (x.db.rowKeys ++ s.inserted)) : SiteEffect H x i { x.goto i .over with db }

/-- The call that takes the step. -/
def SiteOp.index : SiteOp → Nat
  | .begin i | .prepare i | .generate i _ | .importKey i | .finish i | .commit i _ | .crash i => i
  | .start _ | .other _ => 0

theorem siteStep_effect (H : Host) (x : SiteState) (op : SiteOp) : SiteEffect H x op.index (siteStep H x op) := by
  cases op with
  | start call => exact .started call
  | «begin» i =>
    dsimp only [siteStep, SiteOp.index]
    split
    · rename_i h
      split
      · exact .opened h
      · exact .over
    · exact .idle
  | prepare i =>
    dsimp only [siteStep, SiteOp.index]
    split
    · rename_i c s h
      split
      · exact .idle
      · rename_i hfree
        split
        · exact .over
        · rename_i hnew
          simp only [List.any_eq_true, not_exists, not_and, Bool.not_eq_true] at hfree hnew
          refine .prepared h rfl hfree fun k hk hmem => ?_
          have := hnew k hk
          rw [List.contains_iff_mem.2 hmem] at this
          cases this
    · exact .idle
  | generate i S =>
    dsimp only [siteStep, SiteOp.index]
    split
    · rename_i h
      split
      · exact .over
      · split
        · rename_i hg
          exact .sealed h hg
        · exact .over
    · exact .idle
  | importKey i =>
    dsimp only [siteStep, SiteOp.index]
    split
    · rename_i h
      split
      · exact .over
      · refine .imported h ?_
        split
        · exact .inl rfl
        · exact .inr rfl
    · exact .idle
  | finish i =>
    dsimp only [siteStep, SiteOp.index]
    split
    · rename_i h
      exact .finished h rfl
    · exact .over
    · exact .idle
  | commit i db =>
    dsimp only [siteStep, SiteOp.index]
    split
    · rename_i h
      split
      · exact .over
      · split
        · rename_i hrows
          exact .committed h hrows
        · exact .idle
    · exact .idle
  | crash i => exact .over
  | other db =>
    dsimp only [siteStep, SiteOp.index]
    split
    · rename_i hrows
      exact .other hrows
    · exact .idle

/-! ## Rows and entries -/

def VersionKey.slot (k : VersionKey) (loc : VaultLoc) : VaultKey := ⟨loc, k.tenantID, k.keyID, k.version, k.revision⟩

/-- The row an entry of a vault is for. -/
def VaultKey.rowKey (slot : VaultKey) : Option VersionKey :=
  (uuidIn slot.tenantID).bind fun t => (uuidIn slot.keyID).map fun k => ⟨t, k, slot.version, slot.revision⟩

theorem VaultKey.rowKey_eq_some {slot : VaultKey} {k : VersionKey} :
    slot.rowKey = some k ↔ uuidIn slot.tenantID = some k.tenantID ∧ uuidIn slot.keyID = some k.keyID ∧
      slot.version = k.version ∧ slot.revision = k.revision := by
  obtain ⟨t, i, v, r⟩ := k
  unfold VaultKey.rowKey
  cases uuidIn slot.tenantID <;> cases uuidIn slot.keyID <;> simp

theorem DB.mem_rowKeys {db : DB} {k : VersionKey} : k ∈ db.rowKeys ↔ ∃ r ∈ db.keyVersions.rows, r.rowKey = k :=
  List.mem_map

theorem Session.mem_inserted {s : Session} {k : VersionKey} :
    k ∈ s.inserted ↔ k ∈ s.db.rowKeys ∧ k ∉ s.committed.rowKeys := by
  unfold Session.inserted
  rw [List.mem_filter, Bool.not_eq_true', ← Bool.not_eq_true, List.contains_iff_mem]

theorem DB.HasRows.mem {db : DB} {ks : List VersionKey} (h : db.HasRows ks) {k : VersionKey} :
    k ∈ db.rowKeys ↔ k ∈ ks :=
  ⟨h.1 k, h.2 k⟩

/-- The rows of the database, the rows inserted by the calls, and the vaults. -/
def SiteState.guarded (x : SiteState) : Guarded Nat VersionKey VaultKey VaultEntry where
  committed := {k | k ∈ x.db.rowKeys}
  held i := {k | k ∈ x.held i}
  store := x.vault

section
variable {H : Host} {x x' : SiteState} {i j : Nat} {cs : CallState} {phase : Phase} {k : VersionKey}

theorem getElem?_goto : (x.goto i phase).calls[j]? = (x.calls[j]?).map fun c =>
    if i = j then { c with phase } else c := by
  unfold SiteState.goto
  rw [List.getElem?_modify]
  rfl

theorem held_goto (h : x.calls[i]? = some cs) : (x.goto i phase).held = Function.update x.held i phase.inserted := by
  funext j
  unfold SiteState.held
  rw [getElem?_goto]
  by_cases hij : i = j
  · subst hij
    rw [h, Function.update_self]
    simp
  · rw [Function.update_of_ne (Ne.symm hij)]
    cases x.calls[j]? <;> simp [hij]

theorem held_goto_over : (x.goto i .over).held = Function.update x.held i [] := by
  cases h : x.calls[i]? with
  | some cs => exact held_goto h
  | none =>
    have hheld : x.held i = [] := by rw [SiteState.held, h]
    have hsame : x.goto i .over = x := by
      unfold SiteState.goto
      rw [List.modify_eq_self (List.getElem?_eq_none_iff.1 h)]
    rw [hsame, ← hheld, Function.update_eq_self]

theorem held_start (call : Call) : SiteState.held { x with calls := x.calls ++ [⟨call, .fresh⟩] } = x.held := by
  funext j
  unfold SiteState.held
  rw [List.getElem?_append]
  by_cases hj : j < x.calls.length
  · rw [if_pos hj]
  · rw [if_neg hj, List.getElem?_eq_none_iff.2 (Nat.le_of_not_lt hj)]
    cases j - x.calls.length with
    | zero => rfl
    | succ n => rfl

theorem not_held_of_free (h : x.heldByOther i k = false) (hij : j ≠ i) : k ∉ x.held j := by
  intro hk
  have hj : j < x.calls.length := by
    by_contra hj
    rw [SiteState.held, List.getElem?_eq_none_iff.2 (Nat.le_of_not_lt hj)] at hk
    cases hk
  have : x.heldByOther i k = true :=
    List.any_eq_true.2 ⟨j, List.mem_range.2 hj, by simp [hij, hk]⟩
  rw [h] at this
  cases this

/-- What the calls hold, with other rows for call `i`. -/
theorem guarded_update {db : DB} {vault : Vault} {calls : List CallState} {K : List VersionKey}
    (h : SiteState.held ⟨db, vault, calls⟩ = Function.update x.held i K) :
    SiteState.guarded ⟨db, vault, calls⟩ =
      ⟨{k | k ∈ db.rowKeys}, Function.update x.guarded.held i {k | k ∈ K}, vault⟩ := by
  unfold SiteState.guarded
  rw [h]
  congr 1
  funext j
  exact Function.apply_update (fun _ (l : List VersionKey) => {k | k ∈ l}) x.held i K j

/-! ## The calls -/

/-- The processor that a call has a secret of this kind created by. -/
def Call.processor (H : Host) (kind : String) : Call → Option Processor
  | .upsertKeyVersion _ _ => H.cluster.processor H.node kind
  | .task _ _ _ => H.root.processor kind

/-- The call has to create a secret for a new version of the key: an agent always, the root for its own keys other than
root keys. -/
def Call.Needs (H : Host) (key : KeyIdent) : Call → Prop
  | .upsertKeyVersion _ _ => True
  | .task _ _ _ => H.root.Generates key

/-- The call names tenant and key in the form in which the database stores them. -/
def Call.Canonical : Call → Prop
  | .upsertKeyVersion _ req => Krypton.Canonical req.tenantID ∧ Krypton.Canonical req.keyID
  | .task _ _ _ => True

/-- The vault of the kind has an entry for the row; it is under the stored names when the call gave these. -/
def Stored (H : Host) (c : Call) (vault : Vault) (kind : String) (k : VersionKey) : Prop :=
  ∃ p loc slot entry, c.processor H kind = some p ∧ p.vault = some loc ∧ slot.rowKey = some k ∧
    (c.Canonical → slot = k.slot loc) ∧ vault slot = some entry

/-- The transaction has inserted the one version `kv` of `key`. -/
structure Stages (c : Call) (s : Session) (key : Key) (kv : KeyVersion) : Prop where
  hasKey : s.db.HasKey key.ident
  keyID : uuidIn kv.keyID = some key.id
  tenantID : uuidIn kv.tenantID = some key.tenantID
  inserted : ∀ k, k ∈ s.inserted ↔ k = ⟨key.tenantID, key.id, kv.version, kv.revision⟩
  canonical : c.Canonical → Krypton.Canonical kv.tenantID ∧ Krypton.Canonical kv.keyID

/-- The entry of a version, in the vault of its kind. -/
def SlotOf (H : Host) (c : Call) (key : Key) (kv : KeyVersion) (slot : VaultKey) : Prop :=
  ∃ p loc, c.processor H key.kind = some p ∧ p.vault = some loc ∧ slot = kv.slot loc

/-- What is known of a call in a phase. -/
def PhaseInv (H : Host) (c : Call) (vault : Vault) : Phase → Prop
  | .fresh => True
  | .opened s => s.db = s.committed
  | .staged s node key kv => Stages c s key kv ∧ ∀ S entry,
    c.generate H S node key kv = .ok entry → SlotOf H c key kv entry.1
  | .sealed s key kv entry => Stages c s key kv ∧ SlotOf H c key kv entry.1
  | .imported s key kv => Stages c s key kv ∧ ∃ slot entry, SlotOf H c key kv slot ∧ vault slot = some entry
  | .failed _ => True
  | .ready s => ∀ k ∈ s.inserted, ∃ key, s.db.HasKey key ∧ key.id = k.keyID ∧ key.tenantID = k.tenantID ∧
      (c.Needs H key → Stored H c vault key.kind k)
  | .over => True

/-- A version's entry is for its row. -/
theorem Stages.rowKey {c : Call} {s : Session} {key : Key} {kv : KeyVersion} (h : Stages c s key kv) (loc : VaultLoc) :
    (kv.slot loc).rowKey = some ⟨key.tenantID, key.id, kv.version, kv.revision⟩ :=
  VaultKey.rowKey_eq_some.2 ⟨h.tenantID, h.keyID, rfl, rfl⟩

theorem Stages.slot_row {c : Call} {s : Session} {key : Key} {kv : KeyVersion} {slot : VaultKey} (h : Stages c s key kv)
    (hslot : SlotOf H c key kv slot) : ∃ k ∈ s.inserted, slot.rowKey = some k := by
  obtain ⟨p, loc, -, -, rfl⟩ := hslot
  exact ⟨_, (h.inserted _).2 rfl, h.rowKey loc⟩

/-- A call does not notice changes to entries of rows that it has not inserted. -/
theorem PhaseInv.of_vault {c : Call} {vault vault' : Vault} (h : PhaseInv H c vault phase)
    (hv : ∀ slot k, slot.rowKey = some k → k ∈ phase.inserted → vault' slot = vault slot) :
    PhaseInv H c vault' phase := by
  cases phase with
  | imported s key kv =>
    obtain ⟨hst, slot, entry, hslot, he⟩ := h
    obtain ⟨k, hk, hrow⟩ := hst.slot_row hslot
    exact ⟨hst, slot, entry, hslot, (hv slot k hrow hk).trans he⟩
  | ready s =>
    intro k hk
    obtain ⟨key, hkey, hid, ht, hstored⟩ := h k hk
    refine ⟨key, hkey, hid, ht, fun hn => ?_⟩
    obtain ⟨p, loc, slot, entry, hp, hl, hrow, hcan, he⟩ := hstored hn
    exact ⟨p, loc, slot, entry, hp, hl, hrow, hcan, (hv slot k hrow hk).trans he⟩
  | fresh | opened | staged | «sealed» | failed | «over» => exact h

/-- An imported secret is stored for the row of its version. -/
theorem Stages.stored {c : Call} {s : Session} {key : Key} {kv : KeyVersion} {slot : VaultKey} {vault : Vault}
    {entry : VaultEntry} (h : Stages c s key kv) (hslot : SlotOf H c key kv slot) (he : vault slot = some entry) :
    Stored H c vault key.kind ⟨key.tenantID, key.id, kv.version, kv.revision⟩ := by
  obtain ⟨p, loc, hp, hl, rfl⟩ := hslot
  refine ⟨p, loc, _, entry, hp, hl, h.rowKey loc, fun hc => ?_, he⟩
  obtain ⟨ht, hk⟩ := h.canonical hc
  have ht' : kv.tenantID = key.tenantID := Option.some.inj (ht.symm.trans h.tenantID)
  have hk' : kv.keyID = key.id := Option.some.inj (hk.symm.trans h.keyID)
  rw [KeyVersion.slot, ht', hk']
  rfl

theorem DB.KeyVersionUpdated.rowKeys {db db' : DB} {kv : KeyVersion} {lc : KeyLifeCycleState}
    {ps : KeyVersionProcessingState} {now : Int} (h : DB.KeyVersionUpdated db kv lc ps now db') :
    db'.rowKeys = db.rowKeys := by
  unfold DB.rowKeys
  rw [h.rows, List.map_map]
  refine List.map_congr_left fun r _ => ?_
  by_cases hr : r = kv
  · simp [hr, KeyVersion.rowKey]
  · simp [hr]

theorem DB.KeyVersionInserted.rowKeys {db db' : DB} {kv row : KeyVersion} (h : DB.KeyVersionInserted db kv row db') :
    db'.rowKeys = db.rowKeys ++ [row.rowKey] := by
  unfold DB.rowKeys
  rw [h.rows, List.map_append]
  rfl

/-- A transaction that has changed no rows holds none. -/
theorem not_inserted {s : Session} (h : s.db.rowKeys = s.committed.rowKeys) : k ∉ s.inserted := by
  rw [Session.mem_inserted, h]
  exact fun hk => hk.2 hk.1

/-- A transaction that has inserted one version holds its row. -/
theorem mem_inserted_of_insert {s : Session} {kv row : KeyVersion} (h : DB.KeyVersionInserted s.committed kv row s.db) :
    k ∈ s.inserted ↔ k = row.rowKey := by
  rw [Session.mem_inserted, h.rowKeys, List.mem_append, List.mem_singleton]
  constructor
  · rintro ⟨hk | hk, hnot⟩
    · exact absurd hk hnot
    · exact hk
  · rintro rfl
    refine ⟨.inr rfl, fun hmem => ?_⟩
    obtain ⟨r, hr, hrow⟩ := DB.mem_rowKeys.1 hmem
    cases r
    cases row
    simp only [KeyVersion.rowKey, VersionKey.mk.injEq] at hrow
    exact h.fresh _ hr hrow.1 hrow.2.1 hrow.2.2.1 hrow.2.2.2

/-- The new version of an upsert or of a task is the one row its transaction has inserted. -/
theorem stages_of_insert {c : Call} {s : Session} {key : Key} {kv row : KeyVersion}
    (h : DB.KeyVersionInserted s.committed kv row s.db) (hkey : s.db.HasKey key.ident)
    (hid : uuidIn kv.keyID = some key.id) (ht : uuidIn kv.tenantID = some key.tenantID)
    (hcan : c.Canonical → Krypton.Canonical kv.tenantID ∧ Krypton.Canonical kv.keyID) : Stages c s key kv := by
  refine ⟨hkey, hid, ht, fun k => ?_, hcan⟩
  have hrow : row.rowKey = ⟨key.tenantID, key.id, kv.version, kv.revision⟩ := by
    unfold KeyVersion.rowKey
    rw [Option.some.inj (h.tenantID.symm.trans ht), Option.some.inj (h.keyID.symm.trans hid), h.columns.1,
      h.columns.2.1]
  rw [mem_inserted_of_insert h, hrow]

/-- How the first part of `UpsertKeyVersion` ends. -/
theorem ends_prepareUpsert {e : Env} {req : UpsertKeyVersionRequest} {s : Session} :
    (prepareUpsert e req).Ends s fun r s' =>
      (∃ err, r = .error err) ∨
      (r = .ok none ∧ s'.committed = s.committed ∧ s'.db.rowKeys = s.db.rowKeys) ∨
      ∃ key row db, r = .ok (some (key, req.keyVersion e)) ∧ s' = { s with db } ∧
        s.db.getKeyByID req.keyID req.tenantID = .ok key ∧ DB.KeyVersionInserted s.db (req.keyVersion e) row db := by
  unfold prepareUpsert
  refine Tx.Ends.mapError_bind ends_query ?_ fun err _ _ => .inl ⟨_, rfl⟩
  rintro _ s₁ ⟨rfl, -⟩
  refine Tx.Ends.mapError_bind ends_query ?_ fun err _ _ => .inl ⟨_, rfl⟩
  rintro key s₂ ⟨rfl, hk | hk⟩
  · refine Tx.Ends.lift_bind (fun _ _ => ?_) fun _ _ => .inl ⟨_, rfl⟩
    refine Tx.Ends.bind ends_fetchKeyVersion ?_ fun _ _ _ => .inl ⟨_, rfl⟩
    rintro old s₃ rfl
    cases old with
    | some old =>
      refine Tx.Ends.mapError_bind ends_exec ?_ fun _ _ _ => .inl ⟨_, rfl⟩
      rintro _ s₄ (⟨db, -, hu, rfl⟩ | ⟨_, h, -⟩)
      · obtain ⟨_, -, -, -, -, hu⟩ := DB.updateKeyVersionStates_ok hu
        exact .inr (.inl ⟨rfl, rfl, hu.rowKeys⟩)
      · cases h
    | none =>
      refine Tx.Ends.mapError_bind ends_exec ?_ fun _ _ _ => .inl ⟨_, rfl⟩
      rintro _ s₄ (⟨db, -, hu, rfl⟩ | ⟨_, h, -⟩)
      · obtain ⟨row, hi⟩ := DB.createKeyVersion_ok hu
        exact .inr (.inr ⟨key, row, db, rfl, rfl, hk.symm, hi⟩)
      · cases h
  · cases hk

/-- The transaction inserts no version and keeps its keys. -/
structure Quiet (s s' : Session) : Prop where
  committed : s'.committed = s.committed
  rowKeys : s'.db.rowKeys = s.db.rowKeys
  keys : ∀ key, s.db.HasKey key → s'.db.HasKey key

theorem Quiet.refl (s : Session) : Quiet s s := ⟨rfl, rfl, fun _ h => h⟩

theorem Quiet.trans {s s' s'' : Session} (h : Quiet s s') (h' : Quiet s' s'') : Quiet s s'' :=
  ⟨h'.committed.trans h.committed, h'.rowKeys.trans h.rowKeys, fun key hk => h'.keys key (h.keys key hk)⟩

theorem Quiet.mem_inserted {s s' : Session} (h : Quiet s s') : k ∈ s'.inserted ↔ k ∈ s.inserted := by
  rw [Session.mem_inserted, Session.mem_inserted, h.rowKeys, h.committed]

theorem quiet_mark {e : Env} {key : Key} {s : Session} {st : KeyProcessingStatus} : Quiet s (s.mark e key st) :=
  ⟨rfl, rfl, fun _ h => h.markKeys⟩

theorem ends_updateKeyStates {e : Env} {site : Site} {q : DB.UpdateKeyStatesQuery} {s : Session} :
    (exec e site fun db => db.updateKeyStates q).Ends s fun _ s' => Quiet s s' := by
  refine ends_exec.mono ?_
  rintro r s' (⟨db, rfl, hu, rfl⟩ | ⟨err, rfl, rfl, -⟩)
  · obtain ⟨k, -, -, -, -, -, rfl⟩ := DB.updateKeyStates_ok hu
    exact ⟨rfl, rfl, fun _ h => h.markKeys⟩
  · exact .refl _

variable {e : Env} {R : RootProcess} {s : Session} {key : Key}

theorem quiet_markKeyFailed {α : Type} {err : Err} :
    (markKeyFailed e key err : Operation α).Ends s fun r s' => (∃ o, r = .error o) ∧ Quiet s s' :=
  Tx.Ends.mapError_bind ends_updateKeyStates (fun _ _ h => ⟨⟨_, rfl⟩, h⟩) fun _ _ h => ⟨⟨_, rfl⟩, h⟩

theorem quiet_upsertAnswer {site : RpcSite} {what : String} :
    (upsertAnswer e key site what).Ends s fun _ s' => Quiet s s' := by
  unfold upsertAnswer
  split
  · exact .refl s
  · split
    · exact .refl s
    · exact quiet_markKeyFailed.mono fun _ _ h => h.2

theorem quiet_upsertRemote : (upsertRemote R e key).Ends s fun _ s' => Quiet s s' := by
  unfold upsertRemote
  split
  · exact quiet_markKeyFailed.mono fun _ _ h => h.2
  · exact quiet_markKeyFailed.mono fun _ _ h => h.2
  · split
    · exact .refl s
    · split
      · exact Tx.Ends.bind quiet_upsertAnswer
          (fun _ _ h => quiet_upsertAnswer.mono fun _ _ h' => h.trans h') fun _ _ h => h
      · exact quiet_markKeyFailed.mono fun _ _ h => h.2

theorem quiet_finishKey : (finishKey e R key).Ends s fun _ s' => Quiet s s' := by
  refine Tx.Ends.bind quiet_upsertRemote (fun _ s₁ h => ?_) fun _ _ h => h
  exact Tx.Ends.mapError (ends_updateKeyStates.mono fun _ _ h' => h.trans h') (fun _ _ h => h) fun _ _ h => h

theorem ends_secretNode {isNew : Bool} :
    (secretNode e R key isNew).Ends s fun r s' =>
      (∃ node, r = .ok (some node) ∧ s' = s ∧ isNew = true) ∨ (r = .ok none ∧ s' = s ∧ Unsealed R key isNew) ∨
        ∃ o, r = .error o ∧ Quiet s s' ∧ Unwired R key := by
  have hmark : ∀ err, Unwired R key → (markKeyFailed e key err : Operation (Option String)).Ends s fun r s' =>
      (∃ node, r = .ok (some node) ∧ s' = s ∧ isNew = true) ∨ (r = .ok none ∧ s' = s ∧ Unsealed R key isNew) ∨
        ∃ o, r = .error o ∧ Quiet s s' ∧ Unwired R key := by
    intro err hu
    refine quiet_markKeyFailed.mono ?_
    rintro r s' ⟨⟨o, rfl⟩, hq⟩
    exact .inr (.inr ⟨o, rfl, hq, hu⟩)
  unfold secretNode
  split
  · rename_i hm
    exact hmark _ (.inl hm)
  · rename_i _ hc
    exact hmark _ (.inr (.inl hc))
  · rename_i m cfg hm hc
    split
    · rename_i hsp
      exact hmark _ (.inr (.inr ⟨cfg, hc, hsp⟩))
    · rename_i sp hsp
      split
      · rename_i hskip
        exact .inr (.inl ⟨rfl, rfl, cfg, sp, hc, hsp, hskip⟩)
      · rename_i hskip
        simp only [not_or, Bool.not_eq_false] at hskip
        exact .inl ⟨cfg.name, rfl, rfl, hskip.2.2⟩

/-- How the first part of a task on its key ends: with a new version that needs a secret, or without. -/
theorem ends_prepareKey {kid : KeyIdentifier} (hk : s.db.getKeyByID kid.id kid.tenantID = .ok key) :
    (prepareKey e R kid).Ends s fun r s' =>
      (∃ kv node db, r = .ok (key, some (node, kv)) ∧ s' = { s with db } ∧ VersionChange e key s.db kv true db) ∨
      (∃ kv isNew db, r = .ok (key, none) ∧ s' = { s with db } ∧ VersionChange e key s.db kv isNew db ∧
        Unsealed R key isNew) ∨
      ∃ o, r = .error o ∧ (o.progress = .rollback ∨ Quiet s s' ∨
        ∃ kv isNew db, VersionChange e key s.db kv isNew db ∧ Quiet { s with db } s' ∧ Unwired R key) := by
  have hmem := (DB.getKeyByID_ok hk).1
  unfold prepareKey
  refine Tx.Ends.bind (ends_loadKey hk) ?_ ?_
  · rintro k s₁ ⟨rfl, ⟨⟨⟩⟩ | ⟨_, h⟩⟩
    · refine Tx.Ends.bind (ends_resolveKeyVersions hmem) ?_ ?_
      · rintro ⟨kv, isNew⟩ s₂ (⟨_, _, db, ⟨⟩, rfl, hv⟩ | ⟨_, h, -⟩)
        · refine Tx.Ends.bind ends_secretNode ?_ ?_
          · rintro _ s₃ (⟨node, ⟨⟩, rfl, rfl⟩ | ⟨⟨⟩, rfl, hu⟩ | ⟨_, h, -⟩)
            · exact .inl ⟨kv, node, db, rfl, rfl, hv⟩
            · exact .inr (.inl ⟨kv, isNew, db, rfl, rfl, hv, hu⟩)
            · cases h
          · rintro o s₃ (⟨_, h, -⟩ | ⟨h, -⟩ | ⟨_, ⟨⟩, hq, hu⟩)
            · cases h
            · cases h
            · exact .inr (.inr ⟨o, rfl, .inr (.inr ⟨kv, isNew, db, hv, hq, hu⟩)⟩)
        · cases h
      · rintro o s₂ (⟨_, _, _, h, -⟩ | ⟨_, ⟨⟩, ⟨err, _, rfl, rfl, rfl⟩ | ⟨err, rfl, -⟩⟩)
        · cases h
        · exact .inr (.inr ⟨_, rfl, .inr (.inl quiet_mark)⟩)
        · exact .inr (.inr ⟨_, rfl, .inl rfl⟩)
    · cases h
  · rintro o s₁ ⟨rfl, h | ⟨err, ⟨⟩⟩⟩
    · cases h
    · exact .inr (.inr ⟨_, rfl, .inl rfl⟩)

/-- A task that commits without a secret has inserted at most the version of a key that needs none. -/
theorem ready_of_change {a : ActionType} {kid : KeyIdentifier} {vault : Vault} {kv : KeyVersion}
    {isNew : Bool} {db : DB}
    {s' : Session} (hs : s.db = s.committed) (hk : key ∈ s.db.keys.rows) (hv : VersionChange e key s.db kv isNew db)
    (hq : Quiet { s with db } s') (hng : isNew = true → ¬ H.root.Generates key.ident) :
    PhaseInv H (.task e a kid) vault (.ready s') := by
  intro k hmem
  have hmem : k ∈ Session.inserted { s with db } := hq.mem_inserted.1 hmem
  cases hv with
  | existing _ hu =>
    refine absurd hmem (not_inserted ?_)
    change db.rowKeys = s.committed.rowKeys
    rw [hu.rowKeys, hs]
  | fresh _ _ hi =>
    rw [hs] at hi
    have hkey : DB.HasKey db key.ident := by
      rw [← hs] at hi
      exact DB.HasKey.congr ⟨key, hk, rfl⟩ hi.keys
    have hrow := (mem_inserted_of_insert (s := { s with db }) hi).1 hmem
    subst hrow
    exact ⟨key.ident, hq.keys _ hkey, rfl, rfl, fun hn => absurd hn (hng rfl)⟩

theorem slotOf_generated {c : Call} {node : String} {kv : KeyVersion} {S : ClusterState} {entry : VaultKey × VaultEntry}
    (h : c.generate H S node key kv = .ok entry) (hnode : ∀ e req, c = .upsertKeyVersion e req → node = H.node) :
    SlotOf H c key kv entry.1 := by
  obtain ⟨slot, entry⟩ := entry
  cases c with
  | upsertKeyVersion e req =>
    obtain ⟨p, hp, hc⟩ := generateAndSealSecret_ok h
    obtain ⟨loc, hl, hslot⟩ := (createSecret_ok hc).vault
    rw [hnode e req rfl] at hp
    exact ⟨p, loc, hp, hl, hslot⟩
  | task e a kid =>
    obtain ⟨p, hp, hc⟩ := generateAndSealSecret_ok h
    obtain ⟨loc, hl, hslot⟩ := (createSecret_ok hc).vault
    exact ⟨p, loc, hp, hl, hslot⟩

theorem phaseInv_prepareUpsert {req : UpsertKeyVersionRequest} {vault : Vault} {p : Progress} {s' : Session}
    (hs : s.db = s.committed) (hp : Call.prepare H (.upsertKeyVersion e req) s = (p, s')) :
    PhaseInv H (.upsertKeyVersion e req) vault (p.phase s') := by
  replace hp : prepareAgent H.node e req s = (p, s') := hp
  unfold prepareAgent at hp
  rcases hr : prepareUpsert e req s with ⟨r, s₁⟩
  rw [hr] at hp
  rcases ends_prepareUpsert.apply hr with ⟨err, rfl⟩ | ⟨rfl, hc, hrows⟩ | ⟨key, row, db, rfl, rfl, hk, hi⟩
  · cases hp
    trivial
  · cases hp
    intro k hk
    refine absurd hk (not_inserted ?_)
    rw [hrows, hc, hs]
  · cases hp
    obtain ⟨hmem, hid, ht⟩ := DB.getKeyByID_ok hk
    have hkey : db.HasKey key.ident := DB.HasKey.congr ⟨key, hmem, rfl⟩ hi.keys
    rw [hs] at hi
    exact ⟨stages_of_insert hi hkey hid ht fun hcan => hcan, fun S entry hg => slotOf_generated hg fun _ _ _ => rfl⟩

theorem phaseInv_progress {c : Call} {vault : Vault} (o : OrbitalOperatorError) (h : PhaseInv H c vault (.ready s)) :
    PhaseInv H c vault (o.progress.phase s) := by
  cases o with
  | «continue» err => trivial
  | fail err => exact h
  | complete => exact h

theorem phaseInv_finishTask {a : ActionType} {kid : KeyIdentifier} {vault : Vault} {p : Progress} {s' : Session}
    (hp : finishTask H.root e key s = (p, s')) (h : ∀ s', Quiet s s' → PhaseInv H (.task e a kid) vault (.ready s')) :
    PhaseInv H (.task e a kid) vault (p.phase s') := by
  unfold finishTask at hp
  rcases hr : finishKey e H.root key s with ⟨r, s₁⟩
  have hends := quiet_finishKey.apply hr
  rw [hr] at hp
  rcases r with o | _
  · cases hp
    exact phaseInv_progress o (h _ hends)
  · cases hp
    exact h _ hends

theorem ends_guardTask {toState : KeyLifeCycleState} {kid : KeyIdentifier} :
    (guardTask e toState kid).Ends s fun r s' =>
      ∀ u, r = .ok u → s' = s ∧ ∃ key, s.db.getKeyByID kid.id kid.tenantID = .ok key := by
  unfold guardTask
  refine Tx.Ends.mapError_bind ends_query ?_ fun _ _ _ _ => nofun
  rintro _ s₁ ⟨rfl, -⟩
  refine Tx.Ends.mapError_bind ends_query ?_ fun _ _ _ _ => nofun
  rintro key s₂ ⟨rfl, hk | hk⟩
  · exact Tx.Ends.lift fun _ _ => ⟨rfl, key, hk.symm⟩
  · cases hk

theorem phaseInv_prepareTask {a : ActionType} {kid : KeyIdentifier} {vault : Vault} {p : Progress} {s' : Session}
    (hR : H.root.Wired) (hs : s.db = s.committed) (hp : Call.prepare H (.task e a kid) s = (p, s')) :
    PhaseInv H (.task e a kid) vault (p.phase s') := by
  replace hp : prepareTask H.root e a.toState kid s = (p, s') := hp
  unfold prepareTask at hp
  rcases hg : guardTask e a.toState kid s with ⟨r, s₁⟩
  rw [hg] at hp
  rcases r with err | _
  · cases hp
    trivial
  · obtain ⟨rfl, key, hk⟩ := ends_guardTask.apply hg () rfl
    have hmem := (DB.getKeyByID_ok hk).1
    replace hp : prepareTaskKey H.root e kid s₁ = (p, s') := hp
    unfold prepareTaskKey at hp
    rcases hr : prepareKey e H.root kid s₁ with ⟨r, s₂⟩
    rw [hr] at hp
    rcases (ends_prepareKey hk).apply hr with
      ⟨kv, node, db, rfl, rfl, hv⟩ | ⟨kv, isNew, db, rfl, rfl, hv, hu⟩ | ⟨o, rfl, ho⟩
    · cases hp
      cases hv with
      | fresh _ _ hi =>
        have hkey : db.HasKey key.ident := DB.HasKey.congr ⟨key, hmem, rfl⟩ hi.keys
        rw [hs] at hi
        obtain ⟨hid, ht⟩ := DB.key_canonical hmem
        exact ⟨stages_of_insert hi hkey hid ht fun _ => ⟨ht, hid⟩, fun S entry hgen => slotOf_generated hgen nofun⟩
    · refine phaseInv_finishTask hp fun s₃ hq => ready_of_change hs hmem hv hq ?_
      rintro rfl
      exact not_generates_of_unsealed hR (.inl hu)
    · cases hp
      rcases ho with ho | hq | ⟨kv, isNew, db, hv, hq, hu⟩
      · rw [ho]
        trivial
      · refine phaseInv_progress o fun k hk => absurd hk (not_inserted ?_)
        rw [hq.rowKeys, hq.committed, hs]
      · exact phaseInv_progress o (ready_of_change hs hmem hv hq fun _ => not_generates_of_unsealed hR (.inr hu))

theorem phaseInv_prepare {c : Call} {vault : Vault} {p : Progress} {s' : Session} (hR : H.root.Wired)
    (hs : s.db = s.committed) (hp : c.prepare H s = (p, s')) : PhaseInv H c vault (p.phase s') := by
  cases c with
  | upsertKeyVersion e req => exact phaseInv_prepareUpsert hs hp
  | task e a kid => exact phaseInv_prepareTask hR hs hp

/-- A call whose secret is imported is ready to commit, whatever its last part does to the keys. -/
theorem Stages.ready {c : Call} {kv : KeyVersion} {vault : Vault} {slot : VaultKey} {entry : VaultEntry} {s' : Session}
    (h : Stages c s key kv) (hslot : SlotOf H c key kv slot) (he : vault slot = some entry) (hq : Quiet s s') :
    PhaseInv H c vault (.ready s') := by
  intro k hk
  rw [hq.mem_inserted, h.inserted] at hk
  subst hk
  exact ⟨key.ident, hq.keys _ h.hasKey, rfl, rfl, fun _ => h.stored hslot he⟩

theorem phaseInv_finish {c : Call} {kv : KeyVersion} {vault : Vault} {p : Progress} {s' : Session}
    (h : PhaseInv H c vault (.imported s key kv)) (hp : c.finish H key s = (p, s')) :
    PhaseInv H c vault (p.phase s') := by
  obtain ⟨hst, slot, entry, hslot, he⟩ := h
  cases c with
  | upsertKeyVersion e req =>
    cases hp
    exact hst.ready hslot he (.refl s)
  | task e a kid => exact phaseInv_finishTask hp fun _ hq => hst.ready hslot he hq

/-- The last part of a call inserts no versions. -/
theorem finish_inserted {c : Call} {p : Progress} {s' : Session} (hp : c.finish H key s = (p, s')) :
    p.phase s' = .over ∨ p.phase s' = .ready s' ∧ Quiet s s' := by
  cases c with
  | upsertKeyVersion e req =>
    cases hp
    exact .inr ⟨rfl, .refl s⟩
  | task e a kid =>
    replace hp : finishTask H.root e key s = (p, s') := hp
    unfold finishTask at hp
    rcases hr : finishKey e H.root key s with ⟨r, s₁⟩
    have hq := quiet_finishKey.apply hr
    rw [hr] at hp
    rcases r with o | _
    · cases hp
      cases o with
      | «continue» err => exact .inl rfl
      | fail err => exact .inr ⟨rfl, hq⟩
      | complete => exact .inr ⟨rfl, hq⟩
    · cases hp
      exact .inr ⟨rfl, hq⟩

/-! ## The invariant -/

/-- Rows are held by one call at a time, and each call is where its phase says. -/
structure SiteInv (H : Host) (x : SiteState) : Prop where
  exclusive : x.guarded.Exclusive
  calls : ∀ (i : Nat) (c : Call) (phase : Phase), x.calls[i]? = some ⟨c, phase⟩ → PhaseInv H c x.vault phase

theorem held_eq {c : Call} (h : x.calls[i]? = some ⟨c, phase⟩) : x.guarded.held i = {k | k ∈ phase.inserted} := by
  change {k | k ∈ x.held i} = _
  rw [SiteState.held, h]

/-- Call `i` goes on: it holds the rows of its new phase. -/
theorem guarded_goto {c : Call} (h : x.calls[i]? = some ⟨c, phase⟩) (phase' : Phase) (db : DB) (vault : Vault) :
    SiteState.guarded ⟨db, vault, (x.goto i phase').calls⟩ =
      ⟨{k | k ∈ db.rowKeys}, Function.update x.guarded.held i {k | k ∈ phase'.inserted}, vault⟩ :=
  guarded_update (held_goto h)

theorem update_held_same {c : Call} {phase' : Phase} (h : x.calls[i]? = some ⟨c, phase⟩)
    (hk : ∀ k, k ∈ phase'.inserted ↔ k ∈ phase.inserted) :
    Function.update x.guarded.held i {k | k ∈ phase'.inserted} = x.guarded.held := by
  have hheld : {k | k ∈ phase'.inserted} = x.guarded.held i := by
    rw [held_eq h]
    exact Set.ext hk
  rw [hheld, Function.update_eq_self]

/-- A call that goes on with the rows it holds. -/
theorem step_same {c : Call} {phase' : Phase} (h : x.calls[i]? = some ⟨c, phase⟩)
    (hk : ∀ k, k ∈ phase'.inserted ↔ k ∈ phase.inserted) :
    Guarded.Step VaultKey.rowKey x.guarded i (x.goto i phase').guarded := by
  rw [show (x.goto i phase').guarded = _ from guarded_goto h phase' x.db x.vault, update_held_same h hk]
  exact .idle

/-- A call that goes on without rows. -/
theorem step_release {c : Call} {phase' : Phase} (h : x.calls[i]? = some ⟨c, phase⟩) (hk : ∀ k, k ∉ phase'.inserted) :
    Guarded.Step VaultKey.rowKey x.guarded i (x.goto i phase').guarded := by
  have hempty : {k | k ∈ phase'.inserted} = (∅ : Set VersionKey) := Set.eq_empty_iff_forall_notMem.2 hk
  rw [show (x.goto i phase').guarded = _ from guarded_goto h phase' x.db x.vault, hempty]
  exact .rollback

/-- **The calls are writers of a guarded store.** -/
theorem SiteEffect.guarded (h : SiteEffect H x i x') (hinv : SiteInv H x) :
    Guarded.Step VaultKey.rowKey x.guarded i x'.guarded := by
  cases h with
  | idle => exact .idle
  | started call =>
    have hsame : SiteState.guarded { x with calls := x.calls ++ [⟨call, .fresh⟩] } = x.guarded := by
      unfold SiteState.guarded
      rw [held_start]
    rw [hsame]
    exact .idle
  | @other db hrows =>
    have hsame : SiteState.guarded { x with db } = x.guarded := by
      unfold SiteState.guarded
      congr 1
      exact Set.ext fun k => hrows.mem
    rw [hsame]
    exact .idle
  | «over» =>
    rw [show (x.goto i .over).guarded = _ from guarded_update held_goto_over]
    have hempty : {k | k ∈ ([] : List VersionKey)} = (∅ : Set VersionKey) :=
      Set.eq_empty_iff_forall_notMem.2 fun _ => List.not_mem_nil
    rw [hempty]
    exact .rollback
  | opened hc => exact step_release hc fun _ => not_inserted rfl
  | @prepared c s s' p hc hp hfree hnew =>
    have hinsert : Guarded.Step VaultKey.rowKey x.guarded i
        { x.guarded with held := Function.update x.guarded.held i {k | k ∈ s'.inserted} } :=
      .insert _ hnew fun k hk j hj => not_held_of_free (hfree k hk) hj
    cases p with
    | rollback => exact step_release hc fun _ => List.not_mem_nil
    | commit => exact (guarded_goto hc (.ready s') x.db x.vault).symm ▸ hinsert
    | secret node key kv => exact (guarded_goto hc (.staged s' node key kv) x.db x.vault).symm ▸ hinsert
  | «sealed» hc hg => exact step_same hc fun _ => Iff.rfl
  | @imported c s key kv entry phase hc hphase =>
    have hk : ∀ k, k ∈ phase.inserted ↔ k ∈ s.inserted := by
      rcases hphase with rfl | rfl <;> exact fun _ => Iff.rfl
    obtain ⟨hst, hslot⟩ := hinv.calls i c _ hc
    obtain ⟨k, hk', hrow⟩ := hst.slot_row hslot
    have hheld : ∃ k ∈ x.guarded.held i, entry.1.rowKey = some k := by
      refine ⟨k, ?_, hrow⟩
      rw [held_eq hc]
      exact hk'
    change Guarded.Step _ _ i (SiteState.guarded ⟨x.db, Function.update x.vault entry.1 (some entry.2), _⟩)
    rw [guarded_goto hc, update_held_same hc hk]
    exact .put entry.1 entry.2 hheld
  | @finished c s s' key kv p hc hp =>
    rcases finish_inserted hp with hover | ⟨hready, hq⟩
    · rw [hover]
      exact step_release hc fun _ => List.not_mem_nil
    · rw [hready]
      exact step_same hc fun _ => hq.mem_inserted
  | @committed c s db hc hrows =>
    have hset : {k | k ∈ db.rowKeys} = x.guarded.committed ∪ x.guarded.held i := by
      rw [held_eq hc]
      exact Set.ext fun k => hrows.mem.trans List.mem_append
    have hempty : {k | k ∈ Phase.inserted .over} = (∅ : Set VersionKey) :=
      Set.eq_empty_iff_forall_notMem.2 fun _ => List.not_mem_nil
    change Guarded.Step _ _ i (SiteState.guarded ⟨db, x.vault, _⟩)
    rw [guarded_goto hc, hset, hempty]
    exact .commit

/-- The phase of another call after a step. -/
theorem SiteEffect.calls_other (h : SiteEffect H x i x') (hij : j ≠ i) {c : Call}
    (hc : x'.calls[j]? = some ⟨c, phase⟩) : x.calls[j]? = some ⟨c, phase⟩ ∨ phase = .fresh := by
  have hgoto : ∀ phase', (x.goto i phase').calls[j]? = some ⟨c, phase⟩ → x.calls[j]? = some ⟨c, phase⟩ := by
    intro phase' h'
    rw [getElem?_goto, Option.map_eq_some_iff] at h'
    obtain ⟨cs, hcs, h'⟩ := h'
    rw [if_neg (Ne.symm hij)] at h'
    rw [hcs, h']
  cases h with
  | idle => exact .inl hc
  | other _ => exact .inl hc
  | started call =>
    rw [List.getElem?_append] at hc
    split at hc
    · exact .inl hc
    · rw [List.getElem?_singleton] at hc
      split at hc
      · cases hc
        exact .inr rfl
      · cases hc
  | «over» => exact .inl (hgoto _ hc)
  | opened _ => exact .inl (hgoto _ hc)
  | prepared _ _ _ _ => exact .inl (hgoto _ hc)
  | «sealed» _ _ => exact .inl (hgoto _ hc)
  | imported _ _ => exact .inl (hgoto _ hc)
  | finished _ _ => exact .inl (hgoto _ hc)
  | committed _ _ => exact .inl (hgoto _ hc)

/-- The phase of the call that takes the step is as described. -/
theorem SiteEffect.calls_self (hR : H.root.Wired) (h : SiteEffect H x i x') (hinv : SiteInv H x) {c : Call}
    (hc : x'.calls[i]? = some ⟨c, phase⟩) : PhaseInv H c x'.vault phase := by
  have hgoto : ∀ {c₀ phase₀ phase'}, x.calls[i]? = some ⟨c₀, phase₀⟩ → (x.goto i phase').calls[i]? = some ⟨c, phase⟩ →
      c = c₀ ∧ phase = phase' := by
    intro c₀ phase₀ phase' h₀ h'
    rw [getElem?_goto, h₀] at h'
    simp only [Option.map_some, if_true, Option.some.injEq, CallState.mk.injEq] at h'
    exact ⟨h'.1.symm, h'.2.symm⟩
  cases h with
  | idle => exact hinv.calls i c phase hc
  | other _ => exact hinv.calls i c phase hc
  | started call =>
    rw [List.getElem?_append] at hc
    split at hc
    · exact hinv.calls i c phase hc
    · rw [List.getElem?_singleton] at hc
      split at hc
      · cases hc
        trivial
      · cases hc
  | «over» =>
    rw [getElem?_goto, Option.map_eq_some_iff] at hc
    obtain ⟨cs, -, hc⟩ := hc
    rw [if_pos rfl] at hc
    cases hc
    trivial
  | opened h₀ =>
    obtain ⟨rfl, rfl⟩ := hgoto h₀ hc
    rfl
  | prepared h₀ hp _ _ =>
    obtain ⟨rfl, rfl⟩ := hgoto h₀ hc
    exact phaseInv_prepare hR (hinv.calls i _ _ h₀) hp
  | «sealed» h₀ hg =>
    obtain ⟨rfl, rfl⟩ := hgoto h₀ hc
    obtain ⟨hst, hslot⟩ := hinv.calls i _ _ h₀
    exact ⟨hst, hslot _ _ hg⟩
  | @imported c₀ s key kv entry phase' h₀ hphase =>
    obtain ⟨rfl, rfl⟩ := hgoto h₀ hc
    obtain ⟨hst, hslot⟩ := hinv.calls i _ _ h₀
    rcases hphase with rfl | rfl
    · trivial
    · exact ⟨hst, entry.1, entry.2, hslot, Function.update_self _ _ _⟩
  | finished h₀ hp =>
    obtain ⟨rfl, rfl⟩ := hgoto h₀ hc
    exact phaseInv_finish (hinv.calls i _ _ h₀) hp
  | committed h₀ _ =>
    obtain ⟨rfl, rfl⟩ := hgoto h₀ hc
    trivial

/-- Every step keeps the invariant. -/
theorem siteInv_step (hR : H.root.Wired) (op : SiteOp) (hinv : SiteInv H x) : SiteInv H (siteStep H x op) := by
  have heff := siteStep_effect H x op
  have hstep := heff.guarded hinv
  refine ⟨hstep.exclusive hinv.exclusive, fun j c phase hc => ?_⟩
  by_cases hj : j = op.index
  · subst hj
    exact heff.calls_self hR hinv hc
  · rcases heff.calls_other hj hc with hc | rfl
    · -- nobody else writes the entries of the rows this call holds
      refine (hinv.calls j c phase hc).of_vault fun slot k hrow hk => ?_
      refine hstep.store_of_held hinv.exclusive hrow (j := j) ?_ hj
      rw [held_eq hc]
      exact hk
    · trivial

theorem siteInv_init (H : Host) (db : DB) (vault : Vault) : SiteInv H ⟨db, vault, []⟩ := by
  have hheld : ∀ i k, k ∉ (SiteState.guarded ⟨db, vault, []⟩).held i := fun _ _ => List.not_mem_nil
  exact ⟨⟨fun i _ k h => absurd h (hheld i k), fun i k h => absurd h (hheld i k)⟩, fun _ _ _ h => by cases h⟩

/-! ## Committed versions -/

/-- Between the two states call `c` has committed the row `k` of `key`, which it had inserted. -/
structure Commits (x x' : SiteState) (c : Call) (key : KeyIdent) (k : VersionKey) : Prop where
  new : k ∉ x.db.rowKeys
  row : k ∈ x'.db.rowKeys
  call : ∃ (i : Nat) (s : Session), x.calls[i]? = some ⟨c, .ready s⟩ ∧ k ∈ s.inserted ∧ s.db.HasKey key
  keyID : key.id = k.keyID
  tenantID : key.tenantID = k.tenantID

/-- A new row is committed by a call, which has stored its secret where it needs one. -/
theorem commits_of_new (hinv : SiteInv H x) (op : SiteOp) (hnew : k ∉ x.db.rowKeys)
    (hrow : k ∈ (siteStep H x op).db.rowKeys) :
    ∃ c key, Commits x (siteStep H x op) c key k ∧ (c.Needs H key → Stored H c (siteStep H x op).vault key.kind k) := by
  have heff := siteStep_effect H x op
  generalize siteStep H x op = x' at heff hrow ⊢
  cases heff with
  | other hrows => exact absurd (hrows.mem.1 hrow) hnew
  | @committed c s db hc hrows =>
    have hk : k ∈ s.inserted := by
      rcases List.mem_append.1 (hrows.mem.1 hrow) with h | h
      · exact absurd h hnew
      · exact h
    obtain ⟨key, hkey, hid, ht, hstored⟩ := hinv.calls _ c _ hc k hk
    exact ⟨c, key, ⟨hnew, hrow, ⟨_, s, hc, hk, hkey⟩, hid, ht⟩, hstored⟩
  | idle | started | «over» | opened | prepared | «sealed» | imported | finished => exact absurd hrow hnew

/-- Nothing changes the entries of a committed row. -/
theorem vault_run (hR : H.root.Wired) (hinv : SiteInv H x) (hk : k ∈ x.db.rowKeys) {slot : VaultKey}
    (hrow : slot.rowKey = some k) (ops : List SiteOp) : (run (siteStep H) x ops).vault slot = x.vault slot := by
  have hstep : ∀ (y : SiteState) op, SiteInv H y ∧ k ∈ y.db.rowKeys ∧ y.vault slot = x.vault slot →
      SiteInv H (siteStep H y op) ∧ k ∈ (siteStep H y op).db.rowKeys ∧ (siteStep H y op).vault slot = x.vault slot := by
    rintro y op ⟨hy, hky, hvy⟩
    have hstep := (siteStep_effect H y op).guarded hy
    exact ⟨siteInv_step hR op hy, hstep.committed_mono hky, (hstep.store_of_committed hy.exclusive hrow hky).trans hvy⟩
  exact (run_inv_always hstep ⟨hinv, hk, rfl⟩ ops).2.2

/-- **A committed secret is never replaced.** In every run of calls on a node, each version that was not there at the
start was committed by a call. If this call has to create a secret and names tenant and key as they are stored, the
vault has the entry of the version from the commit on, and nothing changes it. -/
theorem committed_secret_kept (H : Host) (hR : H.root.Wired) (db : DB) (vault : Vault) (ops : List SiteOp)
    (k : VersionKey) (hk : k ∈ (run (siteStep H) ⟨db, vault, []⟩ ops).db.rowKeys) (hnew : k ∉ db.rowKeys) :
    ∃ ops₁ op ops₂ c key, ops = ops₁ ++ op :: ops₂ ∧
      Commits (run (siteStep H) ⟨db, vault, []⟩ ops₁) (run (siteStep H) ⟨db, vault, []⟩ (ops₁ ++ [op])) c key k ∧
      (c.Needs H key → c.Canonical → ∃ p loc entry, c.processor H key.kind = some p ∧ p.vault = some loc ∧
        ∀ ops', (run (siteStep H) ⟨db, vault, []⟩ (ops₁ ++ op :: ops')).vault (k.slot loc) = some entry) := by
  induction ops using List.reverseRecOn with
  | nil => exact absurd hk hnew
  | append_singleton ops op ih =>
    by_cases hold : k ∈ (run (siteStep H) ⟨db, vault, []⟩ ops).db.rowKeys
    · obtain ⟨ops₁, op₁, ops₂, c, key, rfl, hrest⟩ := ih hold
      exact ⟨ops₁, op₁, ops₂ ++ [op], c, key, by simp, hrest⟩
    · have hinv : SiteInv H (run (siteStep H) ⟨db, vault, []⟩ ops) :=
        run_inv_always (fun _ op h => siteInv_step hR op h) (siteInv_init H db vault) ops
      rw [run_append] at hk
      obtain ⟨c, key, hcommit, hstored⟩ := commits_of_new hinv op hold hk
      refine ⟨ops, op, [], c, key, rfl, by rw [run_append]; exact hcommit, fun hn hcan => ?_⟩
      obtain ⟨p, loc, slot, entry, hp, hl, hrow, hslot, he⟩ := hstored hn
      refine ⟨p, loc, entry, hp, hl, fun ops' => ?_⟩
      rw [run_append, run_cons, ← hslot hcan, vault_run hR (siteInv_step hR op hinv) hcommit.row hrow]
      exact he

end

/-! ## The agent of the small deployment -/

def demoHost : Host := ⟨demo, demoFleet.cluster, demo.fuel, "edge"⟩

/-- The row of the first version of a key of the agent. -/
def demoRow : VersionKey := ⟨demoTenant, "abcdefab-0000-4000-8000-000000000005", 1, 1⟩

/-- A request at the agent, and the agent after it. -/
def demoAgentStep (w : World) (req : AgentRequest) : World :=
  (agentHandle (demoEnv 0) demoHost.cluster demoServing demoHost.fuel "edge" req w).2

/-- The agent has the key and no version of it. -/
def demoAgent : World :=
  [.upsertTenant ⟨demoTenant, "acme", []⟩,
    .upsertKey ⟨demoTenant, demoRow.keyID, "tek", "tek", demoKey 2, .active, "edge", []⟩].foldl demoAgentStep
      ⟨.empty .agent, fun _ => none, fun _ => none⟩

def demoUpsert (keyID : String) : UpsertKeyVersionRequest :=
  ⟨demoTenant, keyID, 1, 1, demoKey 2, 1, .active, .usable, []⟩

def demoCall (keyID : String) : Call := .upsertKeyVersion (demoEnv 0) (demoUpsert keyID)

/-- Two calls for the same version: the second one waits for the first, and then fails. -/
def demoCalls (keyID : String) : List SiteOp :=
  [.start (demoCall keyID), .start (demoCall keyID), .begin 0, .begin 1, .prepare 0, .prepare 1,
    .generate 0 demoServing,
    .importKey 0, .finish 0, .commit 0 (demoAgentStep demoAgent (.upsertKeyVersion (demoUpsert keyID))).db, .prepare 1]

def demoSite : SiteState := ⟨demoAgent.db, demoAgent.vault, []⟩

theorem demoCalls_kept :
    demoRow ∈ (run (siteStep demoHost) demoSite (demoCalls demoRow.keyID)).db.rowKeys ∧ demoRow ∉ demoAgent.db.rowKeys ∧
      ∃ ops₁ op ops₂ c key, demoCalls demoRow.keyID = ops₁ ++ op :: ops₂ ∧
        Commits (run (siteStep demoHost) demoSite ops₁)
          (run (siteStep demoHost) demoSite (ops₁ ++ [op])) c key demoRow ∧
        (c.Needs demoHost key → c.Canonical → ∃ p loc entry,
          c.processor demoHost key.kind = some p ∧ p.vault = some loc ∧
          ∀ ops', (run (siteStep demoHost) demoSite (ops₁ ++ op :: ops')).vault (demoRow.slot loc) = some entry) := by
  have hk : demoRow ∈ (run (siteStep demoHost) demoSite (demoCalls demoRow.keyID)).db.rowKeys := by decide +kernel
  have hnew : demoRow ∉ demoAgent.db.rowKeys := by decide +kernel
  exact ⟨hk, hnew, committed_secret_kept demoHost demo_wired demoAgent.db demoAgent.vault
    (demoCalls demoRow.keyID) demoRow hk hnew⟩

/-- A request that names the key in upper case commits its version, and the vault has no entry of it. -/
theorem upper_case_loses_secret :
    demoRow ∈ (run (siteStep demoHost) demoSite (demoCalls "ABCDEFAB-0000-4000-8000-000000000005")).db.rowKeys ∧
      demoRow ∉ demoAgent.db.rowKeys ∧
      ∃ p loc, (demoCall "ABCDEFAB-0000-4000-8000-000000000005").processor demoHost "tek" = some p ∧
        p.vault = some loc ∧
        (run (siteStep demoHost) demoSite (demoCalls "ABCDEFAB-0000-4000-8000-000000000005")).vault (demoRow.slot loc) =
          none := by
  refine ⟨by decide +kernel, by decide +kernel, _, _, rfl, rfl, by decide +kernel⟩

end Krypton
