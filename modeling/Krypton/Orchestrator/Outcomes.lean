import Krypton.Orchestrator.Moves
import Krypton.Orchestrator.Task

/-!
# What tasks do

Every way a delivery of a task can end, with what it leaves behind, stated once for all later proofs.

* `handleTask_effect` — an activate, suspend or deactivate task (`TaskEffect`);
* `TaskEffect.keys`, `TaskEffect.tenants` — what it leaves of the tables of keys and tenants.

A task for a key that waits for it first changes the key's versions (`VersionChange`), then the vault (`VaultStep`),
then calls the agent (`Reached`), then marks the key.
-/

namespace Krypton

open Lib

section
variable {R : RootProcess} {e : Env} {s s' : Session}

/-! ## Key versions -/

/-- `kv` is the version of `key` with the highest version and revision. -/
structure Highest (db : DB) (key : Key) (kv : KeyVersion) : Prop where
  mem : kv ∈ db.keyVersions.rows
  tenantID : kv.tenantID = key.tenantID
  keyID : kv.keyID = key.id
  le : ∀ r ∈ db.keyVersions.rows, r.tenantID = key.tenantID → r.keyID = key.id →
    r.version < kv.version ∨ r.version = kv.version ∧ r.revision ≤ kv.revision

/-- The parent version a new version of `key` is put under: none for a key without a parent, else an active and usable
version of the parent. -/
def ParentVersion (db : DB) (key : Key) (version : Option Nat) : Prop :=
  (key.parentID = none ∧ version = none) ∨ ∃ pkv ∈ db.keyVersions.rows, pkv.tenantID = key.tenantID ∧
    key.parentID = some pkv.keyID ∧ pkv.lifeCycleState = .active ∧ pkv.processingState = .usable ∧
      version = some pkv.version

/-- The version an action works on, whether it is new, and the database with it. -/
inductive VersionChange (e : Env) (key : Key) (db : DB) : KeyVersion → Bool → DB → Prop where
  | existing {kv : KeyVersion} {db' : DB} (h : Highest db key kv)
      (hu : DB.KeyVersionUpdated db kv key.lifeCycleState .usable e.now db') :
      VersionChange e key db { kv with lifeCycleState := key.lifeCycleState, processingState := .usable } false db'
  | fresh {version : Option Nat} {db' : DB}
      (hnone : ∀ r ∈ db.keyVersions.rows, ¬ (r.tenantID = key.tenantID ∧ r.keyID = key.id))
      (hp : ParentVersion db key version)
      (hi : DB.KeyVersionInserted db (firstKeyVersion e key version) (firstKeyVersion e key version) db') :
      VersionChange e key db (firstKeyVersion e key version) true db'

theorem VersionChange.keys {key : Key} {db db' : DB} {kv : KeyVersion} {isNew : Bool}
    (h : VersionChange e key db kv isNew db') : db'.keys = db.keys := by
  cases h with
  | existing _ hu => exact hu.keys
  | fresh _ _ hi => exact hi.keys

theorem VersionChange.tenants {key : Key} {db db' : DB} {kv : KeyVersion} {isNew : Bool}
    (h : VersionChange e key db kv isNew db') : db'.tenants = db.tenants := by
  cases h with
  | existing _ hu => exact hu.tenants
  | fresh _ _ hi => exact hi.tenants

theorem key_parent_canonical {db : DB} {key : Key} (h : key ∈ db.keys.rows) {p : String} (hp : key.parentID = some p) :
    Canonical p := by
  obtain ⟨-, -, h3⟩ := db.keys.ok_of_mem h
  exact h3 p hp

/-- The first row of the listing an action reads is the highest version. -/
theorem highest_of_list {db : DB} {key : Key} {kv : KeyVersion} {l : List KeyVersion} (hk : key ∈ db.keys.rows)
    (h : db.listKeyVersions ⟨key.tenantID, key.id, 0, none, none, [.versionDesc, .revisionDesc]⟩ = .ok (kv :: l)) :
    Highest db key kv := by
  obtain ⟨hid, ht⟩ := DB.key_canonical hk
  have hkv := DB.listKeyVersions_key h hid List.mem_cons_self
  refine ⟨hkv.1, Option.some.inj (hkv.2.1.symm.trans ht), Option.some.inj (hkv.2.2.1.symm.trans hid),
    fun r hr hrt hrk => ?_⟩
  have hr' : r ∈ kv :: l := (DB.listKeyVersions_mem h).2
    ⟨hr, by rw [hrt]; exact ht, .inr (by rw [hrk]; exact hid), .inl rfl, nofun, nofun⟩
  have hp := DB.listKeyVersions_head h r hr'
  simp only [DB.precedes, Bool.or_eq_true, Bool.and_eq_true, beq_iff_eq, decide_eq_true_eq, and_true] at hp
  omega

theorem ends_fetchAndUpdateExistingKeyVersion {key : Key} (hk : key ∈ s.db.keys.rows) :
    (fetchAndUpdateExistingKeyVersion e key).Ends s fun r s' =>
      (∃ kv db', r = .ok (some kv) ∧ s' = { s with db := db' } ∧ VersionChange e key s.db kv false db') ∨
      (r = .ok none ∧ s' = s ∧ ∀ v ∈ s.db.keyVersions.rows, ¬ (v.tenantID = key.tenantID ∧ v.keyID = key.id)) ∨
      ∃ err, r = .error err ∧ s' = s := by
  unfold fetchAndUpdateExistingKeyVersion
  refine Tx.Ends.bind ends_query ?_ ?_
  · rintro l s₁ ⟨rfl, hr⟩
    have hl : s₁.db.listKeyVersions ⟨key.tenantID, key.id, 0, none, none, [.versionDesc, .revisionDesc]⟩ = .ok l := by
      rcases hr with hr | hr
      · exact hr.symm
      · cases hr
    obtain ⟨hid, ht⟩ := DB.key_canonical hk
    cases l with
    | nil =>
      refine .inr (.inl ⟨rfl, rfl, fun v hv hvk => ?_⟩)
      exact List.not_mem_nil ((DB.listKeyVersions_mem hl).2
        ⟨hv, by rw [hvk.1]; exact ht, .inr (by rw [hvk.2]; exact hid), .inl rfl, nofun, nofun⟩)
    | cons kv l =>
      have hh := highest_of_list hk hl
      refine Tx.Ends.bind ends_exec ?_ ?_
      · rintro _ s₂ (⟨db', -, hu, rfl⟩ | ⟨_, h, -⟩)
        · obtain ⟨kv', ht', hk', hv', hr', hu'⟩ := DB.updateKeyVersionStates_ok hu
          have heq : kv' = kv := DB.keyVersion_eq hu'.mem hh.mem
            (Option.some.inj (ht'.symm.trans (by rw [hh.tenantID]; exact ht)))
            (Option.some.inj (hk'.symm.trans (by rw [hh.keyID]; exact hid))) hv' hr'
          exact .inl ⟨_, db', rfl, rfl, .existing hh (heq ▸ hu')⟩
        · cases h
      · rintro err s₂ (⟨_, h, -⟩ | ⟨_, -, rfl, -⟩)
        · cases h
        · exact .inr (.inr ⟨_, rfl, rfl⟩)
  · rintro err s₁ ⟨rfl, -⟩
    exact .inr (.inr ⟨_, rfl, rfl⟩)

theorem ends_parentKeyVersion {key : Key} (hk : key ∈ s.db.keys.rows) :
    (parentKeyVersion e key).Ends s fun r s' =>
      s' = s ∧ ((∃ v, r = .ok v ∧ ParentVersion s.db key v) ∨ ∃ err, r = .error err) := by
  unfold parentKeyVersion
  split
  · rename_i hp
    exact ⟨rfl, .inl ⟨none, rfl, .inl ⟨hp, rfl⟩⟩⟩
  · rename_i parentID hp
    refine Tx.Ends.bind ends_query ?_ ?_
    · rintro l s₁ ⟨rfl, hr⟩
      have hl : s₁.db.listKeyVersions
          ⟨key.tenantID, parentID, 0, some .active, some .usable, [.versionDesc, .revisionDesc]⟩ = .ok l := by
        rcases hr with hr | hr
        · exact hr.symm
        · cases hr
      cases l with
      | nil => exact ⟨rfl, .inr ⟨_, rfl⟩⟩
      | cons pkv l =>
        obtain ⟨hm, ht, hid, -, hps, hlc⟩ := DB.listKeyVersions_key hl (key_parent_canonical hk hp) List.mem_cons_self
        refine ⟨rfl, .inl ⟨_, rfl, .inr ⟨pkv, hm, ?_, ?_, hlc _ rfl, hps _ rfl, rfl⟩⟩⟩
        · exact Option.some.inj (ht.symm.trans (DB.key_canonical hk).2)
        · rw [hp, ← hid]
          exact (key_parent_canonical hk hp).symm
    · rintro err s₁ ⟨rfl, -⟩
      exact ⟨rfl, .inr ⟨_, rfl⟩⟩

/-- The identifiers of a stored key are stored as they are. -/
theorem firstKeyVersion_row {db db' : DB} {key : Key} {version : Option Nat} {row : KeyVersion}
    (hk : key ∈ db.keys.rows) (h : DB.KeyVersionInserted db (firstKeyVersion e key version) row db') :
    row = firstKeyVersion e key version := by
  obtain ⟨hid, ht⟩ := DB.key_canonical hk
  have h1 : row.tenantID = key.tenantID := Option.some.inj (h.tenantID.symm.trans ht)
  have h2 : row.keyID = key.id := Option.some.inj (h.keyID.symm.trans hid)
  have h3 : row.parentKeyID = key.parentID := by
    rw [← h.parentKeyID.1]
    change key.parentID.bind uuidIn = key.parentID
    cases hp : key.parentID with
    | none => rfl
    | some p => exact key_parent_canonical hk hp
  rw [h.row_eq, h1, h2, h3]
  rfl

theorem ends_deriveKeyVersionFromParent {key : Key} (hk : key ∈ s.db.keys.rows) :
    (deriveKeyVersionFromParent e key).Ends s fun r s' =>
      (∃ v db', r = .ok (firstKeyVersion e key v) ∧ s' = { s with db := db' } ∧ ParentVersion s.db key v ∧
        DB.KeyVersionInserted s.db (firstKeyVersion e key v) (firstKeyVersion e key v) db') ∨
      ∃ err, r = .error err ∧ s' = s := by
  unfold deriveKeyVersionFromParent
  refine Tx.Ends.bind (ends_parentKeyVersion hk) ?_ ?_
  · rintro v s₁ ⟨rfl, ⟨_, ⟨⟩, hv⟩ | ⟨_, h⟩⟩
    · refine Tx.Ends.bind ends_exec ?_ ?_
      · rintro _ s₂ (⟨db', -, hu, rfl⟩ | ⟨_, h, -⟩)
        · obtain ⟨row, hi⟩ := DB.createKeyVersion_ok hu
          have hrow := firstKeyVersion_row hk hi
          exact .inl ⟨v, db', rfl, rfl, hv, hrow ▸ hi⟩
        · cases h
      · rintro err s₂ (⟨_, h, -⟩ | ⟨_, -, rfl, -⟩)
        · cases h
        · exact .inr ⟨_, rfl, rfl⟩
    · cases h
  · rintro err s₁ ⟨rfl, -⟩
    exact .inr ⟨_, rfl, rfl⟩

/-! ## Marking keys -/

/-- The session with new states on one key. -/
def Session.mark (s : Session) (e : Env) (key : Key) (st : KeyProcessingStatus) : Session :=
  { s with db := s.db.markKeys [key.id] key.lifeCycleState st e.now }

/-- An operation that ended in an error: the failure is recorded, or nothing but what `Q` allows happened. -/
def ErrorEnds (e : Env) (key : Key) (failed : Session → Prop) (retried : Session → Prop) (o : OrbitalOperatorError)
    (s' : Session) : Prop :=
  (∃ err s₁, o = .fail err ∧ failed s₁ ∧ s' = s₁.mark e key .failed) ∨ ∃ err, o = .continue err ∧ retried s'

theorem ends_markKeyFailed {α : Type} {key : Key} {err : Err} (hk : key ∈ s.db.keys.rows) :
    (markKeyFailed e key err : Operation α).Ends s fun r s' => ∃ o,
      r = .error o ∧ ErrorEnds e key (· = s) (· = s) o s' := by
  unfold markKeyFailed updateKeyStatesQuery
  refine Tx.Ends.mapError_bind ends_exec ?_ ?_
  · rintro _ s₁ (⟨db, -, hu, rfl⟩ | ⟨_, h, -⟩)
    · rw [DB.updateKeyStates_of_mem hk] at hu
      cases hu
      exact ⟨_, rfl, .inl ⟨_, _, rfl, rfl, rfl⟩⟩
    · cases h
  · rintro err s₁ (⟨_, h, -⟩ | ⟨_, -, rfl, -⟩)
    · cases h
    · exact ⟨_, rfl, .inr ⟨_, rfl, rfl⟩⟩

theorem ends_markKeyCompleted {key : Key} (hk : key ∈ s.db.keys.rows) (hst : key.status = .pending) :
    (markKeyCompleted e key).Ends s fun r s' =>
      (r = .ok () ∧ s' = s.mark e key .completed) ∨ ∃ err, r = .error (.continue err) ∧ s' = s := by
  unfold markKeyCompleted updateKeyStatesQuery
  rw [← hst]
  refine Tx.Ends.mapError ends_exec ?_ ?_
  · rintro _ s₁ (⟨db, -, hu, rfl⟩ | ⟨_, h, -⟩)
    · rw [DB.updateKeyStates_of_mem hk] at hu
      cases hu
      exact .inl ⟨rfl, rfl⟩
    · cases h
  · rintro err s₁ (⟨_, h, -⟩ | ⟨_, -, rfl, -⟩)
    · cases h
    · exact .inr ⟨_, rfl, rfl⟩

theorem ends_resolveKeyVersions {key : Key} (hk : key ∈ s.db.keys.rows) :
    (resolveKeyVersions e key).Ends s fun r s' =>
      (∃ kv isNew db', r = .ok (kv, isNew) ∧ s' = { s with db := db' } ∧ VersionChange e key s.db kv isNew db') ∨
      ∃ o, r = .error o ∧ ErrorEnds e key (· = s) s.Touches o s' := by
  unfold resolveKeyVersions
  refine Tx.Ends.mapError_bind (ends_fetchAndUpdateExistingKeyVersion hk) ?_ ?_
  · rintro _ s₁ (⟨kv, db', ⟨⟩, rfl, hv⟩ | ⟨⟨⟩, rfl, hnone⟩ | ⟨_, h, -⟩)
    · exact .inl ⟨kv, false, db', rfl, rfl, hv⟩
    · refine Tx.Ends.attempt_bind (ends_deriveKeyVersionFromParent hk) ?_
      rintro r s₂ (⟨v, db', rfl, rfl, hp, hi⟩ | ⟨err, rfl, rfl⟩)
      · exact .inl ⟨_, true, db', rfl, rfl, .fresh hnone hp hi⟩
      · dsimp only
        split
        · refine (ends_markKeyFailed hk).mono ?_
          rintro _ s₃ ⟨o, rfl, h | ⟨err, rfl, rfl⟩⟩
          · exact .inr ⟨o, rfl, .inl h⟩
          · exact .inr ⟨_, rfl, .inr ⟨err, rfl, .refl⟩⟩
        · exact .inr ⟨_, rfl, .inr ⟨err, rfl, .refl⟩⟩
    · cases h
  · rintro err s₁ (⟨_, _, h, -⟩ | ⟨h, -⟩ | ⟨_, -, rfl⟩)
    · cases h
    · cases h
    · exact .inr ⟨_, rfl, .inr ⟨err, rfl, .refl⟩⟩

/-! ## Secrets -/

/-- `entry` is the secret of `kv`, generated and sealed by the root's manager. -/
def Sealed (R : RootProcess) (e : Env) (key : Key) (kv : KeyVersion) (S : ClusterState)
    (entry : VaultKey × VaultEntry) : Prop :=
  ∃ m cfg sp, R.manager = some m ∧ R.rootCfg = some cfg ∧ cfg.hierarchy.findKeySpec key.kind = some sp ∧
    sp.role ≠ .root ∧ key.managedBy = cfg.name ∧
      generateAndSealSecret R.cluster S R.fuel cfg.name key.kind e.draw kv kv.aad = .ok entry

/-- No secret is generated: another node's key, a root key, or a version that was there before. -/
def Unsealed (R : RootProcess) (key : Key) (isNew : Bool) : Prop :=
  ∃ cfg sp, R.rootCfg = some cfg ∧ cfg.hierarchy.findKeySpec key.kind = some sp ∧
    (key.managedBy ≠ cfg.name ∨ sp.role = .root ∨ isNew = false)

/-- The root lacks what it needs to generate secrets of this key's kind. -/
def Unwired (R : RootProcess) (key : Key) : Prop :=
  R.manager = none ∨ R.rootCfg = none ∨ ∃ cfg, R.rootCfg = some cfg ∧ cfg.hierarchy.findKeySpec key.kind = none

/-- Nothing was generated where nothing had to be, or the secret of a new version was imported. -/
def VaultStep (R : RootProcess) (e : Env) (key : Key) (kv : KeyVersion) (isNew : Bool) (s s' : Session) : Prop :=
  (Unsealed R key isNew ∧ s' = s) ∨
    ∃ entry, isNew = true ∧ Sealed R e key kv s.cluster entry ∧ s' = s.imported entry

theorem ends_generateAndSeal {key : Key} {kv : KeyVersion} {isNew : Bool} (hk : key ∈ s.db.keys.rows) :
    (generateAndSeal R e key kv isNew).Ends s fun r s' =>
      (r = .ok () ∧ VaultStep R e key kv isNew s s') ∨
      ∃ o, r = .error o ∧ ErrorEnds e key (fun s₁ => s₁ = s ∧ Unwired R key)
        (fun s₁ => s₁ = s ∨ VaultStep R e key kv isNew s s₁) o s' := by
  -- where the root lacks a component the key is marked failed, and nothing else happens
  have hmark : ∀ err, Unwired R key → (markKeyFailed e key err : Operation Unit).Ends s fun r s' =>
      (r = .ok () ∧ VaultStep R e key kv isNew s s') ∨
      ∃ o, r = .error o ∧ ErrorEnds e key (fun s₁ => s₁ = s ∧ Unwired R key)
        (fun s₁ => s₁ = s ∨ VaultStep R e key kv isNew s s₁) o s' := by
    intro err hun
    refine (ends_markKeyFailed hk).mono ?_
    rintro _ s₁ ⟨o, rfl, ⟨err, _, rfl, rfl, rfl⟩ | ⟨err, rfl, rfl⟩⟩
    · exact .inr ⟨_, rfl, .inl ⟨err, _, rfl, ⟨rfl, hun⟩, rfl⟩⟩
    · exact .inr ⟨_, rfl, .inr ⟨err, rfl, .inl rfl⟩⟩
  unfold generateAndSeal
  split
  · rename_i hm
    exact hmark _ (.inl hm)
  · rename_i _ hc
    exact hmark _ (.inr (.inl hc))
  · rename_i m cfg hm hc
    split
    · rename_i hsp
      exact hmark _ (.inr (.inr ⟨cfg, hc, hsp⟩))
    · rename_i sp hsp
      split
      · rename_i hskip
        exact .inl ⟨rfl, .inl ⟨⟨cfg, sp, hc, hsp, hskip⟩, rfl⟩⟩
      · rename_i hskip
        simp only [not_or, Bool.not_eq_false, not_not] at hskip
        obtain ⟨hmb, hrole, hnew⟩ := hskip
        have hstep : ∀ {entry}, generateAndSealSecret R.cluster s.cluster R.fuel cfg.name key.kind e.draw kv kv.aad =
            .ok entry → VaultStep R e key kv isNew s (s.imported entry) :=
          fun hgen => .inr ⟨_, hnew, ⟨m, cfg, sp, hm, hc, hsp, hrole, hmb, hgen⟩, rfl⟩
        refine Tx.Ends.mapError (ends_drawAndImport fun s =>
          generateAndSealSecret R.cluster s.cluster R.fuel cfg.name key.kind e.draw kv kv.aad) ?_ ?_
        · rintro _ s₁ (⟨-, _, h⟩ | ⟨entry, hgen, rfl⟩)
          · cases h
          · exact .inl ⟨rfl, hstep hgen⟩
        · rintro err s₁ (⟨rfl, -⟩ | ⟨entry, hgen, rfl⟩)
          · exact .inr ⟨_, rfl, .inr ⟨err, rfl, .inl rfl⟩⟩
          · exact .inr ⟨_, rfl, .inr ⟨err, rfl, .inr (hstep hgen)⟩⟩

/-! ## The agent -/

/-- The key is the root's own, or its agent took the key and its version. -/
def Reached (R : RootProcess) (e : Env) (key : Key) : Prop :=
  ∃ names cfg, R.registry = some names ∧ R.rootCfg = some cfg ∧
    (key.managedBy = cfg.name ∨
      names.contains key.managedBy = true ∧ e.rpc .upsertKey = .ok ∧ e.rpc .upsertKeyVersion = .ok)

theorem ends_upsertAnswer {key : Key} {site : RpcSite} {what : String} (hk : key ∈ s.db.keys.rows) :
    (upsertAnswer e key site what).Ends s fun r s' =>
      (r = .ok () ∧ s' = s ∧ e.rpc site = .ok) ∨ ∃ o, r = .error o ∧ ErrorEnds e key (· = s) (· = s) o s' := by
  unfold upsertAnswer
  split
  · rename_i hok
    exact .inl ⟨rfl, rfl, hok⟩
  · split
    · exact .inr ⟨_, rfl, .inr ⟨_, rfl, rfl⟩⟩
    · exact (ends_markKeyFailed hk).mono fun r s' h => .inr h

theorem ends_upsertRemote {key : Key} (hk : key ∈ s.db.keys.rows) :
    (upsertRemote R e key).Ends s fun r s' =>
      (r = .ok () ∧ s' = s ∧ Reached R e key) ∨ ∃ o, r = .error o ∧ ErrorEnds e key (· = s) (· = s) o s' := by
  unfold upsertRemote
  split
  · exact (ends_markKeyFailed hk).mono fun r s' h => .inr h
  · exact (ends_markKeyFailed hk).mono fun r s' h => .inr h
  · rename_i names cfg hn hc
    split
    · rename_i hmb
      exact .inl ⟨rfl, rfl, names, cfg, hn, hc, .inl hmb⟩
    · split
      · rename_i hcon
        refine Tx.Ends.bind (ends_upsertAnswer hk) ?_ ?_
        · rintro _ s₁ (⟨-, rfl, hk₁⟩ | ⟨_, h, -⟩)
          · refine (ends_upsertAnswer hk).mono ?_
            rintro r s₂ (⟨rfl, rfl, hk₂⟩ | h)
            · exact .inl ⟨rfl, rfl, names, cfg, hn, hc, .inr ⟨hcon, hk₁, hk₂⟩⟩
            · exact .inr h
          · cases h
        · rintro o s₁ (⟨h, -⟩ | ⟨_, ⟨⟩, h⟩)
          · cases h
          · exact .inr ⟨_, rfl, h⟩
      · exact (ends_markKeyFailed hk).mono fun r s' h => .inr h

/-! ## The steps on one key -/

/-- The key's version and its secret are in place. -/
def Prepared (R : RootProcess) (e : Env) (key : Key) (s s' : Session) : Prop :=
  ∃ kv isNew db, VersionChange e key s.db kv isNew db ∧ VaultStep R e key kv isNew { s with db } s'

/-- How the steps on a key that waits for an action end. -/
inductive Processed (R : RootProcess) (e : Env) (key : Key) (s : Session) :
    Except OrbitalOperatorError Unit → Session → Prop where
  | completed {s₁ : Session} (h : Prepared R e key s s₁) (hr : Reached R e key) :
      Processed R e key s (.ok ()) (s₁.mark e key .completed)
  /-- There is no version of the parent to put the first version under. -/
  | orphan {err : Err} : Processed R e key s (.error (.fail err)) (s.mark e key .failed)
  | unwired {err : Err} {kv : KeyVersion} {isNew : Bool} {db : DB} (hv : VersionChange e key s.db kv isNew db)
      (hu : Unwired R key) : Processed R e key s (.error (.fail err)) (Session.mark { s with db } e key .failed)
  /-- The agent refused. -/
  | refused {err : Err} {s₁ : Session} (h : Prepared R e key s s₁) :
      Processed R e key s (.error (.fail err)) (s₁.mark e key .failed)
  /-- An error that is tried again; the transaction is rolled back. -/
  | retried {err : Err} {s₁ : Session} (h : s.Touches s₁ ∨ Prepared R e key s s₁) :
      Processed R e key s (.error (.continue err)) s₁

theorem VaultStep.keys {key : Key} {kv : KeyVersion} {isNew : Bool} (h : VaultStep R e key kv isNew s s') :
    s'.db = s.db := by
  rcases h with ⟨-, rfl⟩ | ⟨_, -, -, rfl⟩ <;> rfl

theorem ends_loadKey {kid : KeyIdentifier} {key : Key} (hk : s.db.getKeyByID kid.id kid.tenantID = .ok key) :
    (loadKey e kid).Ends s fun r s' => s' = s ∧ (r = .ok key ∨ ∃ err, r = .error (.continue err)) := by
  refine Tx.Ends.mapError ends_query ?_ ?_
  · rintro k s₁ ⟨rfl, h | h⟩
    · rw [hk] at h
      cases h
      exact ⟨rfl, .inl rfl⟩
    · cases h
  · rintro err s₁ ⟨rfl, h | h⟩
    · rw [hk] at h
      cases h
    · cases h
      exact ⟨rfl, .inr ⟨_, rfl⟩⟩

theorem ends_processKey {kid : KeyIdentifier} {key : Key} (hk : s.db.getKeyByID kid.id kid.tenantID = .ok key)
    (hst : key.status = .pending) : (processKey R e kid).Ends s (Processed R e key s) := by
  have hmem := (DB.getKeyByID_ok hk).1
  unfold processKey
  refine Tx.Ends.bind (ends_loadKey hk) ?_ ?_
  · rintro k s₁ ⟨rfl, ⟨⟨⟩⟩ | ⟨_, h⟩⟩
    · refine Tx.Ends.bind (ends_resolveKeyVersions hmem) ?_ ?_
      · rintro ⟨kv, isNew⟩ s₂ (⟨_, _, db, ⟨⟩, rfl, hv⟩ | ⟨_, h, -⟩)
        · have hmem₂ : key ∈ db.keys.rows := by rw [hv.keys]; exact hmem
          refine Tx.Ends.bind (ends_generateAndSeal hmem₂) ?_ ?_
          · rintro _ s₃ (⟨-, hs⟩ | ⟨_, h, -⟩)
            · have hmem₃ : key ∈ s₃.db.keys.rows := by rw [hs.keys]; exact hmem₂
              have hprep : Prepared R e key s₁ s₃ := ⟨kv, isNew, db, hv, hs⟩
              refine Tx.Ends.bind (ends_upsertRemote hmem₃) ?_ ?_
              · rintro _ s₄ (⟨-, rfl, hr⟩ | ⟨_, h, -⟩)
                · refine (ends_markKeyCompleted hmem₃ hst).mono ?_
                  rintro r s₅ (⟨rfl, rfl⟩ | ⟨err, rfl, rfl⟩)
                  · exact .completed hprep hr
                  · exact .retried (.inr hprep)
                · cases h
              · rintro o s₄ (⟨h, -⟩ | ⟨_, ⟨⟩, ⟨err, _, rfl, rfl, rfl⟩ | ⟨err, rfl, rfl⟩⟩)
                · cases h
                · exact .refused hprep
                · exact .retried (.inr hprep)
            · cases h
          · rintro o s₃ (⟨h, -⟩ | ⟨_, ⟨⟩, ⟨err, _, rfl, ⟨rfl, hu⟩, rfl⟩ | ⟨err, rfl, rfl | hs⟩⟩)
            · cases h
            · exact .unwired hv hu
            · exact .retried (.inl .db)
            · exact .retried (.inr ⟨kv, isNew, db, hv, hs⟩)
        · cases h
      · rintro o s₂ (⟨_, _, _, h, -⟩ | ⟨_, ⟨⟩, ⟨err, _, rfl, rfl, rfl⟩ | ⟨err, rfl, ht⟩⟩)
        · cases h
        · exact .orphan
        · exact .retried (.inl ht)
    · cases h
  · rintro o s₁ ⟨rfl, h | ⟨err, ⟨⟩⟩⟩
    · cases h
    · exact .retried (.inl .refl)

/-! ## Deliveries of a task -/

/-- `key` is the key of a task and still waits for its action. -/
structure Waits (db : DB) (toState : KeyLifeCycleState) (kid : KeyIdentifier) (key : Key) : Prop where
  found : db.getKeyByID kid.id kid.tenantID = .ok key
  state : key.lifeCycleState = toState
  status : key.status = .pending

/-- The world a session is committed to. -/
def Session.world (s : Session) : World := ⟨s.db, s.vault, s.specs⟩

/-- How a delivery of an activate, suspend or deactivate task ends. -/
inductive TaskEffect (R : RootProcess) (e : Env) (toState : KeyLifeCycleState) (kid : KeyIdentifier) (w : World) :
    Response → World → Prop where
  /-- Rolled back; the vaults keep what was written. -/
  | retried {vault : Vault} {n : Nat}
      (h : vault = w.vault ∨ ∃ key s, Waits w.db toState kid key ∧ Prepared R e key w.session s ∧ vault = s.vault) :
      TaskEffect R e toState kid w (.continueAndWaitFor n) { w with vault }
  | missing {msg : String} (h : ∀ key, w.db.getKeyByID kid.id kid.tenantID = .ok key →
      ∃ err, w.db.getTenant kid.tenantID = .error err) : TaskEffect R e toState kid w (.fail msg) w
  /-- The key does not wait for this action. -/
  | skipped {key : Key} (hk : w.db.getKeyByID kid.id kid.tenantID = .ok key)
      (h : ¬ (key.lifeCycleState = toState ∧ key.status = .pending)) : TaskEffect R e toState kid w .complete w
  | failed {key : Key} {s : Session} {err : Err} (hw : Waits w.db toState kid key)
      (h : Processed R e key w.session (.error (.fail err)) s) : TaskEffect R e toState kid w (.fail err.text) s.world
  | completed {key : Key} {s : Session} (hw : Waits w.db toState kid key) (h : Processed R e key w.session (.ok ()) s) :
      TaskEffect R e toState kid w .complete s.world

theorem Prepared.specs {key : Key} (h : Prepared R e key s s') : s'.specs = s.specs := by
  obtain ⟨_, _, _, -, ⟨-, rfl⟩ | ⟨_, -, -, rfl⟩⟩ := h <;> rfl

/-- The vaults after the steps on a key: unchanged, or with the secret of its new version. -/
theorem Processed.kept {key : Key} {r : Except OrbitalOperatorError Unit} (h : Processed R e key s r s') :
    s'.specs = s.specs ∧ (s'.vault = s.vault ∨ ∃ s₁, Prepared R e key s s₁ ∧ s'.vault = s₁.vault) := by
  cases h with
  | completed h _ => exact ⟨h.specs, .inr ⟨_, h, rfl⟩⟩
  | orphan => exact ⟨rfl, .inl rfl⟩
  | unwired _ _ => exact ⟨rfl, .inl rfl⟩
  | refused h => exact ⟨h.specs, .inr ⟨_, h, rfl⟩⟩
  | retried h =>
    rcases h with ⟨_, rfl⟩ | h
    · exact ⟨rfl, .inl rfl⟩
    · exact ⟨h.specs, .inr ⟨_, h, rfl⟩⟩

/-- What the transaction of a task leaves, whether it commits or not. -/
structure TaskTxEnds (R : RootProcess) (e : Env) (toState : KeyLifeCycleState) (kid : KeyIdentifier) (w : World)
    (r : Except TaskError Response) (s' : Session) : Prop where
  specs : s'.specs = w.specs
  vault : s'.vault = w.vault ∨ ∃ key s, Waits w.db toState kid key ∧ Prepared R e key w.session s ∧ s'.vault = s.vault
  ok : ∀ resp, r = .ok resp → TaskEffect R e toState kid w resp s'.world
  error : ∀ err, r = .error err → TaskEffect R e toState kid w err.response ⟨w.db, s'.vault, s'.specs⟩

variable {toState : KeyLifeCycleState} {kid : KeyIdentifier} {w : World}

theorem taskTxEnds_stop {err : TaskError} (h : TaskEffect R e toState kid w err.response w) :
    TaskTxEnds R e toState kid w (.error err) w.session :=
  ⟨rfl, .inl rfl, nofun, fun err' he => by cases he; exact h⟩

theorem retried_same {n : Nat} : TaskEffect R e toState kid w (.continueAndWaitFor n) w := .retried (.inl rfl)

/-- The response to a waiting key, after the steps on it. -/
theorem ends_respond {key : Key} {r : Except OrbitalOperatorError Unit} {s₃ : Session}
    (hw : Waits w.db toState kid key) : Processed R e key w.session r s₃ →
    (match r with
      | .ok () => return .complete
      | .error o => Tx.lift o.apply : Tx Session TaskError Response).Ends s₃ (TaskTxEnds R e toState kid w) := by
  intro hp
  obtain ⟨hspecs, hkept⟩ := hp.kept
  have hvault : s₃.vault = w.vault ∨ ∃ key s, Waits w.db toState kid key ∧ Prepared R e key w.session s ∧
      s₃.vault = s.vault := by
    obtain hsame | ⟨s, hprepared, hs⟩ := hkept
    · exact .inl hsame
    · exact .inr ⟨key, s, hw, hprepared, hs⟩
  cases r with
  | ok _ =>
    refine ⟨hspecs, hvault, fun resp he => ?_, fun err he => (by cases he)⟩
    cases he
    exact .completed hw hp
  | error o =>
    cases o with
    | «continue» err =>
      refine ⟨hspecs, hvault, fun resp he => (by cases he), fun err' he => ?_⟩
      cases he
      change TaskEffect R e toState kid w _ ⟨w.db, s₃.vault, s₃.specs⟩
      rw [hspecs]
      exact .retried hvault
    | fail err =>
      refine ⟨hspecs, hvault, fun resp he => ?_, fun err' he => (by cases he)⟩
      cases he
      exact .failed hw hp
    | complete => cases hp

theorem ends_taskSteps : (taskSteps R e toState kid).Ends w.session (TaskTxEnds R e toState kid w) := by
  unfold taskSteps
  refine Tx.Ends.mapError_bind ends_query ?_ ?_
  · rintro _ s₁ ⟨rfl, ht⟩
    refine Tx.Ends.mapError_bind ends_query ?_ ?_
    · rintro key s₂ ⟨rfl, hk | hk⟩
      · have hfound : w.db.getKeyByID kid.id kid.tenantID = .ok key := hk.symm
        refine Tx.Ends.lift_bind (fun _ hc => ?_) fun err hc => ?_
        · simp only [check_eq_ok, Bool.and_eq_true, decide_eq_true_eq] at hc
          have hw : Waits w.db toState kid key := ⟨hfound, hc.1, hc.2⟩
          exact Tx.Ends.attempt_bind (ends_processKey hfound hc.2) fun _ _ hp => ends_respond hw hp
        · refine taskTxEnds_stop ?_
          unfold check at hc
          split at hc
          · cases hc
          · rename_i hn
            cases hc
            exact .skipped hfound (by simpa using hn)
      · cases hk
    · rintro err s₂ ⟨rfl, hk⟩
      refine taskTxEnds_stop ?_
      split
      · rename_i hnf
        refine .missing fun key hkey => ?_
        rcases hk with hk | ⟨⟨⟩⟩
        · rw [show w.session.db = w.db from rfl, hkey] at hk; cases hk
        · cases hnf
      · exact retried_same
  · rintro err s₁ ⟨rfl, ht⟩
    refine taskTxEnds_stop ?_
    split
    · rename_i hnf
      refine .missing fun key hkey => ?_
      rcases ht with ht | ⟨⟨⟩⟩
      · cases hten : w.db.getTenant kid.tenantID with
        | error err => exact ⟨err, rfl⟩
        | ok t => simp [Validator.validateTenant, World.session, hten, Except.map] at ht
      · cases hnf
    · exact retried_same

/-- **A delivery of a task.** -/
theorem handleTask_effect {action : ActionType} :
    TaskEffect R e action.toState kid w (handleTask R e action kid w).1 (handleTask R e action kid w).2 := by
  have hends : (taskSteps R e action.toState kid).Ends w.session (TaskTxEnds R e action.toState kid w) := ends_taskSteps
  unfold handleTask
  rcases transaction_cases e .plain hends with
    ⟨resp, s, hq, heq⟩ | ⟨er, s, hq, heq⟩ | ⟨_, s, er, hq, -, heq⟩ | ⟨er, -, heq⟩ <;> rw [heq]
  · exact hq.ok resp rfl
  · exact hq.error er rfl
  · -- the commit failed
    change TaskEffect R e action.toState kid w (.continueAndWaitFor retryBackoff) ⟨w.db, s.vault, s.specs⟩
    rw [hq.specs]
    exact .retried hq.vault
  · exact retried_same

/-! ## The keys after a task -/

theorem Prepared.keys {key : Key} (h : Prepared R e key s s') : s'.db.keys = s.db.keys := by
  obtain ⟨_, _, _, hv, hs⟩ := h
  rw [hs.keys]
  exact hv.keys

theorem Processed.keys {key : Key} {r : Except OrbitalOperatorError Unit} (h : Processed R e key s r s')
    (hc : ∀ err, r ≠ .error (.continue err)) :
    ∃ st, s'.db.keys = (s.db.markKeys [key.id] key.lifeCycleState st e.now).keys ∧
      (st = .failed ∧ (∃ err, r = .error (.fail err)) ∨ st = .completed ∧ r = .ok ()) := by
  cases h with
  | completed h _ => exact ⟨.completed, DB.markKeys_keys_congr h.keys, .inr ⟨rfl, rfl⟩⟩
  | orphan => exact ⟨.failed, rfl, .inl ⟨rfl, _, rfl⟩⟩
  | unwired hv _ => exact ⟨.failed, DB.markKeys_keys_congr hv.keys, .inl ⟨rfl, _, rfl⟩⟩
  | refused h => exact ⟨.failed, DB.markKeys_keys_congr h.keys, .inl ⟨rfl, _, rfl⟩⟩
  | retried _ => exact absurd rfl (hc _)

/-- A task leaves the keys alone, or marks its waiting key completed or failed. -/
theorem TaskEffect.keys {response : Response} {w' : World} (h : TaskEffect R e toState kid w response w') :
    (w'.db.keys = w.db.keys ∧
      (response = .complete → ∃ key, w.db.getKeyByID kid.id kid.tenantID = .ok key ∧
        ¬ (key.lifeCycleState = toState ∧ key.status = .pending)) ∧
      ∀ msg, response = .fail msg → ∀ key, w.db.getKeyByID kid.id kid.tenantID = .ok key →
        ∃ err, w.db.getTenant kid.tenantID = .error err) ∨
    ∃ key st, Waits w.db toState kid key ∧ w'.db.keys = (w.db.markKeys [key.id] toState st e.now).keys ∧
      (st = .failed ∧ (∃ msg, response = .fail msg) ∨ st = .completed ∧ response = .complete) := by
  cases h with
  | retried _ => exact .inl ⟨rfl, nofun, nofun⟩
  | missing h => exact .inl ⟨rfl, nofun, fun _ _ => h⟩
  | skipped hk h => exact .inl ⟨rfl, fun _ => ⟨_, hk, h⟩, nofun⟩
  | failed hw h =>
    obtain ⟨st, hkeys, ⟨rfl, -⟩ | ⟨-, h⟩⟩ := h.keys nofun
    · rw [hw.state] at hkeys
      exact .inr ⟨_, _, hw, hkeys, .inl ⟨rfl, _, rfl⟩⟩
    · cases h
  | completed hw h =>
    obtain ⟨st, hkeys, ⟨-, _, h⟩ | ⟨rfl, -⟩⟩ := h.keys nofun
    · cases h
    · rw [hw.state] at hkeys
      exact .inr ⟨_, _, hw, hkeys, .inr ⟨rfl, rfl⟩⟩

/-! ## The tenants after a task -/

theorem Prepared.tenants {key : Key} (h : Prepared R e key s s') : s'.db.tenants = s.db.tenants := by
  obtain ⟨_, _, _, hv, hs⟩ := h
  rw [hs.keys]
  exact hv.tenants

theorem Processed.tenants {key : Key} {r : Except OrbitalOperatorError Unit}
    (h : Processed R e key s r s') (hc : ∀ err, r ≠ .error (.continue err)) : s'.db.tenants = s.db.tenants := by
  cases h with
  | completed h _ => exact h.tenants
  | orphan => rfl
  | unwired hv _ => exact hv.tenants
  | refused h => exact h.tenants
  | retried _ => exact absurd rfl (hc _)

theorem TaskEffect.tenants {response : Response}
    {w' : World} (h : TaskEffect R e toState kid w response w') : w'.db.tenants = w.db.tenants := by
  cases h with
  | retried _ => rfl
  | missing _ => rfl
  | skipped _ _ => rfl
  | failed _ h => exact h.tenants nofun
  | completed _ h => exact h.tenants nofun

end

end Krypton
