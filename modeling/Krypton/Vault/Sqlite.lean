import Krypton.Lib.Keyed
import Krypton.SecureMem
import Krypton.Vault

/-!
# The SQLite vault

The vault for development and tests (`internal/vault/sqlitevault`): a table with one row per slot. An import is an
upsert, the names of a slot and the material must not be empty. A prepared tenant is nothing to this vault.

* `sqlite_refines` — the table keeps the map of a vault;
* `sqlite_reply` — without failing requests it answers as the map does.
-/

namespace Krypton

open Lib

structure VaultRow where
  slot : VaultSlot
  keyMaterial : Bytes
  aad : Bytes
  createdAt : Int
  deriving DecidableEq, Repr

abbrev vaultSchema : Schema VaultRow VaultSlot := .primaryKey VaultRow.slot fun k => k.tenantID ≠ "" ∧ k.keyID ≠ ""

abbrev SqliteVault : Type := Table vaultSchema

def VaultRow.entry (r : VaultRow) : VaultEntry := ⟨r.keyMaterial, r.aad⟩

/-- `SET key_material, aad, created_at`. -/
def VaultRow.set (new r : VaultRow) : VaultRow :=
  { r with keyMaterial := new.keyMaterial, aad := new.aad, createdAt := new.createdAt }

theorem VaultRow.slot_set (new r : VaultRow) : (new.set r).slot = r.slot := rfl

namespace SqliteVault

/-! ## Statements -/

/-- `INSERT … ON CONFLICT … DO UPDATE`; material without bytes is `NULL`. -/
def upsertRow (row : VaultRow) (t : SqliteVault) : Except Err SqliteVault :=
  if row.keyMaterial = [] then .error (.plain "constraint failed: NOT NULL constraint failed: keys.key_material (1299)")
  else if h : row.slot.tenantID ≠ "" ∧ row.slot.keyID ≠ "" then .ok (t.upsert row h row.set row.slot_set)
  else .error (.plain "constraint failed: CHECK constraint failed (275)")

/-- `ExecContext`. A statement that fails changes nothing. -/
def execContext (fault : Option RequestFault) (statement : SqliteVault → Except Err SqliteVault) (t : SqliteVault) :
    Except Err VaultReply × SqliteVault :=
  match fault, statement t with
  | none, .ok t' => (.ok .done, t')
  | none, .error e => (.error e, t)
  | some f, .ok t' => (.error f.err, if f.effect then t' else t)
  | some f, .error _ => (.error f.err, t)

def importKey (t : SqliteVault) (ev : VaultEvent) (slot : VaultSlot) (keyMaterial : Option Bytes) (aad : Bytes) :
    Except Err VaultReply × SqliteVault :=
  match keyMaterial with
  | none => (.error errVaultInvalidRequest, t)
  | some m => execContext (ev.faults 0) (upsertRow ⟨slot, m, aad, ev.now⟩) t

/-- The second request is the allocation of the memory the material is copied to. -/
def exportKey (t : SqliteVault) (ev : VaultEvent) (slot : VaultSlot) : Except Err VaultReply :=
  match ev.faults 0, t.get slot with
  | some f, _ => .error f.err
  | none, none => .error errVaultKeyNotFound
  | none, some r =>
    if r.keyMaterial = [] then .error SecureMem.errInvalidSize
    else match ev.faults 1 with
      | some f => .error f.err
      | none => .ok (.exported r.entry)

def destroyKey (t : SqliteVault) (ev : VaultEvent) (slot : VaultSlot) : Except Err VaultReply × SqliteVault :=
  execContext (ev.faults 0) (fun t => .ok (t.delete fun r => r.slot == slot)) t

def destroyTenant (t : SqliteVault) (ev : VaultEvent) (tenantID : String) : Except Err VaultReply × SqliteVault :=
  execContext (ev.faults 0) (fun t => .ok (t.delete fun r => r.slot.tenantID == tenantID)) t

def exec (t : SqliteVault) (ev : VaultEvent) : Except Err VaultReply × SqliteVault :=
  match ev.op with
  | .prepareTenant _ => (.ok .done, t)
  | .importKey slot keyMaterial aad => importKey t ev slot keyMaterial aad
  | .exportKey slot => (exportKey t ev slot, t)
  | .destroyKey slot => destroyKey t ev slot
  | .destroyTenant tenantID => destroyTenant t ev tenantID

/-! ## The table as a map -/

/-- What the table holds. -/
def entries (t : SqliteVault) : VaultMap := fun slot => (t.get slot).map VaultRow.entry

variable {t t' : SqliteVault} {ev : VaultEvent} {slot : VaultSlot}

theorem entries_upsertRow {row : VaultRow} (h : upsertRow row t = .ok t') :
    t'.entries slot = if row.slot = slot then some row.entry else t.entries slot := by
  unfold upsertRow at h
  split at h
  · cases h
  · split at h
    · cases h
      unfold entries
      refine (congrArg _ (Table.get_upsert _ _ _ _)).trans ?_
      split
      · cases t.get slot <;> rfl
      · rfl
    · cases h

theorem entries_deleteKey (k : VaultSlot) :
    entries (t.delete fun r => r.slot == k) slot = if k = slot then none else t.entries slot := by
  unfold entries
  rw [Table.get_delete]
  cases hr : t.get slot with
  | none => simp
  | some r =>
    have hslot := (Table.get_eq_some.1 hr).2
    by_cases hk : k = slot
    · simp [Option.filter, hslot, hk]
    · simp [Option.filter, hslot, hk, Ne.symm hk]

theorem entries_deleteTenant (tenantID : String) :
    entries (t.delete fun r => r.slot.tenantID == tenantID) slot =
      if slot.tenantID = tenantID then none else t.entries slot := by
  unfold entries
  rw [Table.get_delete]
  cases hr : t.get slot with
  | none => simp
  | some r =>
    have hslot := (Table.get_eq_some.1 hr).2
    by_cases hk : slot.tenantID = tenantID <;> simp [Option.filter, hslot, hk]

theorem upsertRow_error {row : VaultRow} {e : Err} (h : upsertRow row t = .error e) :
    e.is .vaultKeyNotFound = false := by
  unfold upsertRow at h
  split at h
  · cases h
    rfl
  · split at h
    · cases h
    · cases h
      rfl

/-- A statement takes effect, or is not acknowledged and may have had none. -/
theorem execContext_cases (fault : Option RequestFault) {statement : SqliteVault → Except Err SqliteVault}
    (herr : ∀ e, statement t = .error e → e.is .vaultKeyNotFound = false) :
    ((execContext fault statement t).1 = .ok .done ∧ statement t = .ok (execContext fault statement t).2) ∨
      ∃ e, (execContext fault statement t).1 = .error e ∧ e.is .vaultKeyNotFound = false ∧
        ((execContext fault statement t).2 = t ∨ statement t = .ok (execContext fault statement t).2) := by
  unfold execContext
  cases hs : statement t with
  | ok t' =>
    cases fault with
    | none => exact .inl ⟨rfl, rfl⟩
    | some f =>
      refine .inr ⟨f.err, rfl, rfl, ?_⟩
      cases hf : f.effect
      · exact .inl (by simp [hf])
      · exact .inr (by simp [hf])
  | error e =>
    cases fault with
    | none => exact .inr ⟨e, rfl, herr e hs, .inl rfl⟩
    | some f => exact .inr ⟨f.err, rfl, rfl, .inl rfl⟩

/-- What a statement that writes as the operation says does to the map. -/
theorem execContext_writes {fault : Option RequestFault} {statement : SqliteVault → Except Err SqliteVault}
    {op : VaultOp} (herr : ∀ e, statement t = .error e → e.is .vaultKeyNotFound = false)
    (hok : ∀ t', statement t = .ok t' → ∀ slot, entries t' slot = op.apply (entries t) slot) (slot : VaultSlot) :
    entries (execContext fault statement t).2 slot = op.apply (entries t) slot ∨
      (¬ (execContext fault statement t).1.isOk = true ∧
        entries (execContext fault statement t).2 slot = entries t slot) := by
  rcases execContext_cases fault herr with ⟨_, hnext⟩ | ⟨e, hfail, _, hsame | hnext⟩
  · exact .inl (hok _ hnext slot)
  · rw [hfail, hsame]
    exact .inr ⟨by simp [Except.isOk, Except.toBool], rfl⟩
  · exact .inl (hok _ hnext slot)

theorem execContext_replies {fault : Option RequestFault} {statement : SqliteVault → Except Err SqliteVault}
    (herr : ∀ e, statement t = .error e → e.is .vaultKeyNotFound = false) :
    (execContext fault statement t).1 = .ok .done ∨
      ∃ e, (execContext fault statement t).1 = .error e ∧ e.is .vaultKeyNotFound = false := by
  rcases execContext_cases fault herr with ⟨hdone, _⟩ | ⟨e, hfail, he, _⟩
  · exact .inl hdone
  · exact .inr ⟨e, hfail, he⟩

theorem apply_import {row : VaultRow} (h : upsertRow row t = .ok t') (slot : VaultSlot) :
    entries t' slot = (VaultOp.importKey row.slot (some row.keyMaterial) row.aad).apply (entries t) slot := by
  rw [entries_upsertRow h]
  simp only [VaultOp.apply, VaultOp.writes]
  split <;> rfl

theorem apply_destroyKey (k slot : VaultSlot) :
    entries (t.delete fun r => r.slot == k) slot = (VaultOp.destroyKey k).apply (entries t) slot := by
  rw [entries_deleteKey]
  simp only [VaultOp.apply, VaultOp.writes]
  split <;> rfl

theorem apply_destroyTenant (tenantID : String) (slot : VaultSlot) :
    entries (t.delete fun r => r.slot.tenantID == tenantID) slot =
      (VaultOp.destroyTenant tenantID).apply (entries t) slot := by
  rw [entries_deleteTenant]
  simp only [VaultOp.apply, VaultOp.writes]
  split <;> rfl

/-- What an operation does to the map. -/
theorem exec_writes (t : SqliteVault) (ev : VaultEvent) (slot : VaultSlot) :
    entries (exec t ev).2 slot = ev.op.apply (entries t) slot ∨
      (¬ (exec t ev).1.isOk = true ∧ entries (exec t ev).2 slot = entries t slot) := by
  unfold exec
  cases hop : ev.op with
  | prepareTenant tenantID => exact .inl rfl
  | exportKey k => exact .inl rfl
  | importKey k keyMaterial aad =>
    cases keyMaterial with
    | none => exact .inl rfl
    | some m => exact execContext_writes (fun _ => upsertRow_error) (fun _ h => apply_import h) slot
  | destroyKey k =>
    refine execContext_writes (fun _ h => by cases h) (fun _ h => ?_) slot
    cases h
    exact apply_destroyKey k
  | destroyTenant tenantID =>
    refine execContext_writes (fun _ h => by cases h) (fun _ h => ?_) slot
    cases h
    exact apply_destroyTenant tenantID

theorem exec_replies (t : SqliteVault) (ev : VaultEvent) :
    (exec t ev).1 = ev.op.reply (entries t) ∨ ∃ e, (exec t ev).1 = .error e ∧ e.is .vaultKeyNotFound = false := by
  unfold exec
  cases hop : ev.op with
  | prepareTenant tenantID => exact .inl rfl
  | importKey k keyMaterial aad =>
    cases keyMaterial with
    | none => exact .inl rfl
    | some m => exact execContext_replies fun _ => upsertRow_error
  | destroyKey k => exact execContext_replies fun _ h => by cases h
  | destroyTenant tenantID => exact execContext_replies fun _ h => by cases h
  | exportKey k =>
    dsimp only [VaultOp.reply, entries, exportKey]
    cases ev.faults 0 with
    | some f => exact .inr ⟨f.err, rfl, rfl⟩
    | none =>
      cases t.get k with
      | none => exact .inl rfl
      | some r =>
        dsimp only [Option.map_some]
        split
        · exact .inr ⟨_, rfl, rfl⟩
        · cases ev.faults 1 with
          | some f => exact .inr ⟨f.err, rfl, rfl⟩
          | none => exact .inl rfl

end SqliteVault

/-- The SQLite vault, with an empty table at first. -/
def sqliteVault : VaultImpl := ⟨SqliteVault, Table.empty, SqliteVault.exec⟩

theorem sqlite_refines : sqliteVault.Refines (fun _ => True) SqliteVault.entries where
  init := trivial
  empty _ := rfl
  keeps _ _ _ _ := trivial
  writes t ev _ _ slot _ := SqliteVault.exec_writes t ev slot
  replies t ev _ _ := SqliteVault.exec_replies t ev

/-- Without faults the table answers every allowed operation as the map does. -/
theorem sqlite_reply (t : SqliteVault) (v : VaultModel) (call : VaultOp × Int) (hheld : v.Held (SqliteVault.entries t))
    (hallows : v.Allows call.1) : (sqliteVault.serve t call).1 = call.1.reply (SqliteVault.entries t) := by
  obtain ⟨op, now⟩ := call
  cases op with
  | prepareTenant tenantID => rfl
  | destroyKey slot => rfl
  | destroyTenant tenantID => rfl
  | importKey slot keyMaterial aad =>
    cases keyMaterial with
    | none => rfl
    | some m =>
      obtain ⟨_, _, htenant, hkey, hmaterial⟩ := hallows
      have hrow : (⟨slot, m, aad, now⟩ : VaultRow).keyMaterial ≠ [] := fun h => hmaterial (congrArg some h)
      have hstored : ∃ t', SqliteVault.upsertRow ⟨slot, m, aad, now⟩ t = .ok t' := by
        unfold SqliteVault.upsertRow
        rw [if_neg hrow, dif_pos ⟨htenant, hkey⟩]
        exact ⟨_, rfl⟩
      obtain ⟨t', ht'⟩ := hstored
      show (SqliteVault.execContext none _ t).1 = _
      unfold SqliteVault.execContext
      rw [ht']
      rfl
  | exportKey slot =>
    have hsame := hheld.same slot hallows.1
    show SqliteVault.exportKey t _ slot = _
    dsimp only [SqliteVault.exportKey, VaultOp.reply]
    unfold SqliteVault.entries at hsame ⊢
    cases hr : Table.get t slot with
    | none => rfl
    | some r =>
      rw [hr, Option.map_some] at hsame
      have hmaterial : r.keyMaterial ≠ [] := hheld.material slot _ hsame.symm
      dsimp only [Option.map_some]
      rw [if_neg hmaterial]

end Krypton
