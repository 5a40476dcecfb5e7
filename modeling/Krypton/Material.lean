import Krypton.KeyProcessor.Envelope
import Krypton.Root

/-!
# Key material

What the root keeps of a key besides its row: key versions, the secrets in its vaults, and the provider specs of root
keys. `Change` lists every way in which a step touches them.

* `step_change` — a step of the root is such a change;
* `settled_has_material` — a key of the root that has settled beyond pre-activation has a version under its parent and
  that version's secret, unless a provider was bound to a key that is not a root key.
-/

namespace Krypton

open Lib

/-! ## Changes -/

/-- What the root's manager reads outside of a transaction. -/
def World.cluster (w : World) : ClusterState := ⟨w.db, fun _ => w.db, w.vault, w.specs⟩

/-- The first version of a key is added, below a version of the key's parent. -/
structure Derives (e : Env) (key : Key) (db : DB) (version : Option Nat) (db' : DB) : Prop where
  stored : key ∈ db.keys.rows
  first : ∀ r ∈ db.keyVersions.rows, ¬ (r.tenantID = key.tenantID ∧ r.keyID = key.id)
  parent : ParentVersion db key version
  inserted : DB.KeyVersionInserted db (firstKeyVersion e key version) (firstKeyVersion e key version) db'

/-- The vaults with one more entry. -/
def Vault.set (v : Vault) (entry : VaultKey × VaultEntry) : Vault := Function.update v entry.1 (some entry.2)

/-- How a step changes key versions, vaults and provider specs; `A` holds of the admin calls. -/
inductive Change (R : RootProcess) (A : World → Env → AdminCall → Prop) (e : Env) (w : World) : World → Prop where
  | quiet {db : DB} (hkvs : db.keyVersions = w.db.keyVersions) : Change R A e w { w with db }
  /-- The states of a version change. -/
  | updated {key : Key} {kv : KeyVersion} {db₁ db : DB} (h : Highest w.db key kv)
      (hu : DB.KeyVersionUpdated w.db kv key.lifeCycleState .usable e.now db₁)
        (hkvs : db.keyVersions = db₁.keyVersions) :
      Change R A e w { w with db }
  /-- A first version without a secret. -/
  | derived {key : Key} {version : Option Nat} {db₁ db : DB} (h : Derives e key w.db version db₁)
      (hkvs : db.keyVersions = db₁.keyVersions) (hno : Unsealed R key true ∨ Unwired R key) :
      Change R A e w { w with db }
  | sealed {key : Key} {version : Option Nat} {db₁ db : DB} {entry : VaultKey × VaultEntry}
      (h : Derives e key w.db version db₁) (hkvs : db.keyVersions = db₁.keyVersions)
      (hs : Sealed R e key (firstKeyVersion e key version) w.cluster entry) :
      Change R A e w ⟨db, w.vault.set entry, w.specs⟩
  /-- A delivery was rolled back; the secret it wrote stays in the vault. -/
  | imported {key : Key} {version : Option Nat} {db₁ : DB} {entry : VaultKey × VaultEntry}
      (h : Derives e key w.db version db₁) (hs : Sealed R e key (firstKeyVersion e key version) w.cluster entry) :
      Change R A e w { w with vault := w.vault.set entry }
  /-- The provider spec was written, the version was not. -/
  | half {req : CreateProviderRequest} {spec : SealerSpec} {providerKeyID : String} {k : Key}
      (hA : A w e (.createProvider req)) (hspec : req.spec = .ok (spec, providerKeyID))
        (hvalid : spec.validate = .ok ())
      (hk : MayUse w.db req.tenantID req.keyID .link k) :
      Change R A e w (w.setSpec req.tenantID req.keyID (some spec))
  | bound {req : CreateProviderRequest} {spec : SealerSpec} {providerKeyID : String} {k : Key}
      {row : KeyVersion} {db : DB} (hA : A w e (.createProvider req)) (hspec : req.spec = .ok (spec, providerKeyID))
        (hvalid : spec.validate = .ok ())
      (hk : MayUse w.db req.tenantID req.keyID .link k)
      (hi : DB.KeyVersionInserted w.db (providerKeyVersion e req.tenantID req.keyID 1 spec.type providerKeyID) row db) :
      Change R A e w { w.setSpec req.tenantID req.keyID (some spec) with db }
  | reauthorized {tenantID keyID : String} {choice : ProviderChoice Unit} {spec : SealerSpec} {k : Key}
      (auth : SealerAuth) (hA : A w e (.rotateAuth tenantID keyID choice)) (hk : MayUse w.db tenantID keyID .rotate k)
        (hspec : w.specs (tenantID, keyID) = some spec) :
      Change R A e w (w.setSpec tenantID keyID (some { spec with auth := some auth }))
  | rotated {tenantID keyID providerKeyID : String} {choice : ProviderChoice String} {spec : SealerSpec} {k : Key}
      {latest row : KeyVersion} {db : DB} (hA : A w e (.rotateProviderKey tenantID keyID choice))
      (hne : providerKeyID ≠ "") (hk : MayUse w.db tenantID keyID .rotate k)
      (hspec : w.specs (tenantID, keyID) = some spec)
      (hlatest : latestProviderKeyVersion w.db tenantID keyID = .ok latest)
      (hi : DB.KeyVersionInserted w.db
        (providerKeyVersion e tenantID keyID (latest.version + 1) spec.type providerKeyID) row db) :
      Change R A e w { w with db }
  | removed {tenantID keyID : String} (hA : A w e (.removeProvider tenantID keyID)) :
      Change R A e w (w.setSpec tenantID keyID none)

section
variable {R : RootProcess} {A : World → Env → AdminCall → Prop} {e : Env} {w w' : World} {db db' : DB}

theorem change_refl : Change R A e w w := .quiet rfl

theorem CreateTenantEffect.change (h : CreateTenantEffect w w') : Change R A e w w' := by
  cases h with
  | refused => exact change_refl
  | created _ _ hkvs _ => exact .quiet hkvs

theorem AnnounceKeyEffect.change {req : AnnounceKeyRequest} {r : Except Err Key} {gs : List JobGroup}
    (h : AnnounceKeyEffect R e req w (r, gs, w')) : Change R A e w w' := by
  cases h with
  | refused => exact change_refl
  | accepted _ _ _ hu =>
    cases hu with
    | inserted hi => exact .quiet hi.keyVersions
    | adopted _ _ => exact .quiet rfl

theorem ActionEffect.change {action : ActionType} {req : KeyRequest} {r : Except Err Unit} {gs : List JobGroup}
    (h : ActionEffect e action req w (r, gs, w')) : Change R A e w w' := by
  cases h with
  | refused => exact change_refl
  | accepted _ _ _ => exact .quiet rfl

theorem CreateProviderEffect.change {req : CreateProviderRequest} {r : Except Err Unit}
    (h : CreateProviderEffect R e req w (r, w')) (hA : A w e (.createProvider req)) : Change R A e w w' := by
  cases h with
  | refused => exact change_refl
  | half hspec _ hvalid hk => exact .half hA hspec hvalid hk
  | bound hspec _ hvalid hk hi => exact .bound hA hspec hvalid hk hi

theorem RotateAuthEffect.change {tenantID keyID : String} {choice : ProviderChoice Unit} {r : Except Err Unit}
    (h : RotateAuthEffect tenantID keyID w (r, w')) (hA : A w e (.rotateAuth tenantID keyID choice)) :
    Change R A e w w' := by
  cases h with
  | refused => exact change_refl
  | rotated auth hk hspec => exact .reauthorized auth hA hk hspec

theorem RotateProviderKeyEffect.change {tenantID keyID : String} {choice : ProviderChoice String} {r : Except Err Unit}
    (h : RotateProviderKeyEffect e tenantID keyID w (r, w')) (hA : A w e (.rotateProviderKey tenantID keyID choice)) :
    Change R A e w w' := by
  cases h with
  | refused => exact change_refl
  | rotated hne hk hspec hlatest hi => exact .rotated hA hne hk hspec hlatest hi

theorem RemoveProviderEffect.change {tenantID keyID : String} {r : Except Err Unit}
    (h : RemoveProviderEffect tenantID keyID w (r, w')) (hA : A w e (.removeProvider tenantID keyID)) :
    Change R A e w w' := by
  cases h with
  | refused => exact change_refl
  | removed => exact .removed hA

theorem AdminCall.change (call : AdminCall) (hA : A w e call) : Change R A e w (call.run R e w).2 := by
  cases call with
  | createTenant name labels => exact CreateTenantEffect.change createTenant_effect
  | announceKey req => exact AnnounceKeyEffect.change announceKey_effect
  | keyAction action req => exact ActionEffect.change keyAction_effect
  | createProvider req => exact CreateProviderEffect.change createProvider_effect hA
  | rotateAuth tenantID keyID auth => exact RotateAuthEffect.change rotateAuth_effect hA
  | rotateProviderKey tenantID keyID key => exact RotateProviderKeyEffect.change rotateProviderKey_effect hA
  | removeProvider tenantID keyID => exact RemoveProviderEffect.change removeProvider_effect hA

theorem Waits.mem {toState : KeyLifeCycleState} {kid : KeyIdentifier} {key : Key} (h : Waits db toState kid key) :
    key ∈ db.keys.rows := (DB.getKeyByID_ok h.found).1

/-- What the steps on a key leave behind when they are committed, and when they are rolled back. -/
theorem Prepared.change {key : Key} {s : Session} (hk : key ∈ w.db.keys.rows) (h : Prepared R e key w.session s) :
    (∀ st, Change R A e w (s.mark e key st).world) ∧ Change R A e w { w with vault := s.vault } := by
  obtain ⟨kv, isNew, db, hv, hs⟩ := h
  cases hv with
  | existing h hu =>
    rcases hs with ⟨-, rfl⟩ | ⟨_, hnew, -⟩
    · exact ⟨fun st => .updated h hu rfl, change_refl⟩
    · cases hnew
  | fresh hnone hp hi =>
    have hd := Derives.mk hk hnone hp hi
    rcases hs with ⟨hno, rfl⟩ | ⟨entry, -, hs, rfl⟩
    · exact ⟨fun st => .derived hd rfl (.inl hno), change_refl⟩
    · exact ⟨fun st => .sealed hd rfl hs, .imported hd hs⟩

theorem VersionChange.change {key : Key} {kv : KeyVersion} {isNew : Bool} {db₁ : DB} (hk : key ∈ w.db.keys.rows)
    (h : VersionChange e key w.db kv isNew db₁) (hu : Unwired R key) (hkvs : db.keyVersions = db₁.keyVersions) :
    Change R A e w { w with db } := by
  cases h with
  | existing h hup => exact .updated h hup hkvs
  | fresh hnone hp hi => exact .derived ⟨hk, hnone, hp, hi⟩ hkvs (.inr hu)

theorem Processed.change {key : Key} {r : Except OrbitalOperatorError Unit} {s : Session} (hk : key ∈ w.db.keys.rows)
    (h : Processed R e key w.session r s) (hc : ∀ err, r ≠ .error (.continue err)) : Change R A e w s.world := by
  cases h with
  | completed h _ => exact (h.change hk).1 _
  | orphan => exact .quiet rfl
  | unwired hv hu => exact hv.change hk hu rfl
  | refused h => exact (h.change hk).1 _
  | retried _ => exact absurd rfl (hc _)

theorem TaskEffect.change {toState : KeyLifeCycleState} {kid : KeyIdentifier} {response : Response}
    (h : TaskEffect R e toState kid w response w') : Change R A e w w' := by
  cases h with
  | retried h =>
    rcases h with rfl | ⟨key, s, hw, hp, rfl⟩
    · exact change_refl
    · exact (hp.change hw.mem).2
  | missing _ => exact change_refl
  | skipped _ _ => exact change_refl
  | failed hw h => exact h.change hw.mem nofun
  | completed hw h => exact h.change hw.mem nofun

/-- Every step of the root is a change. -/
theorem step_change (s : RootState) (op : Env × Op) (hA : Calls A s op) :
    Change R A op.1 s.world (step R s op).world := by
  refine step_world_rel (P := fun e w w' => Change R A e w w') (fun _ _ => change_refl)
    (fun w e call h => call.change h)
    ?_ ?_ (fun w e action kid response w' heff => heff.change) s op hA
  · intro w e key result w' heff
    cases heff <;> exact .quiet rfl
  · intro w e key response w' heff
    cases heff <;> exact .quiet rfl

/-- No version disappears. -/
theorem Change.keepsVersion (h : Change R A e w w') {i : KeyVersionIdent} (hi : w.db.HasVersion i) :
    w'.db.HasVersion i := by
  cases h with
  | quiet hkvs => exact (DB.hasVersion_congr hkvs).2 hi
  | updated _ hu hkvs => exact (DB.hasVersion_congr hkvs).2 (hu.hasVersion.2 hi)
  | derived hd hkvs _ => exact (DB.hasVersion_congr hkvs).2 (hd.inserted.hasVersion.2 (.inl hi))
  | sealed hd hkvs _ => exact (DB.hasVersion_congr hkvs).2 (hd.inserted.hasVersion.2 (.inl hi))
  | bound _ _ _ _ hins => exact hins.hasVersion.2 (.inl hi)
  | rotated _ _ _ _ _ hins => exact hins.hasVersion.2 (.inl hi)
  | _ => exact hi

/-! ## Added versions -/

/-- How a version is added: as the first of a key below its parent, or by a provider call. -/
inductive Added (e : Env) (w : World) : KeyVersion → Prop where
  | derived {key : Key} {version : Option Nat} {db₁ : DB} (h : Derives e key w.db version db₁) :
      Added e w (firstKeyVersion e key version)
  | provider {tenantID keyID providerKeyID : String} {n : Nat} {t : SealerType} {usage : KeyUsage} {k : Key}
      {row : KeyVersion} {db : DB} (hk : MayUse w.db tenantID keyID usage k) (hne : providerKeyID ≠ "")
      (hn : n = 1 ∨ ∃ latest ∈ w.db.keyVersions.rows, latest.tenantID = row.tenantID ∧ latest.keyID = row.keyID ∧
        n = latest.version + 1)
      (ht : t = .staticSecret ∨ ∃ spec, w.specs (tenantID, keyID) = some spec ∧ spec.type = t)
      (hi : DB.KeyVersionInserted w.db (providerKeyVersion e tenantID keyID n t providerKeyID) row db) : Added e w row

theorem latestProviderKeyVersion_ok {tenantID keyID i : String} {kv : KeyVersion}
    (h : latestProviderKeyVersion db tenantID keyID = .ok kv) (hi : uuidIn keyID = some i) :
    kv ∈ db.keyVersions.rows ∧ uuidIn tenantID = some kv.tenantID ∧ uuidIn keyID = some kv.keyID := by
  unfold latestProviderKeyVersion fetchOne at h
  obtain ⟨l, hl, h⟩ := bind_eq_ok.1 h
  cases l with
  | nil => cases h
  | cons r l =>
    cases h
    obtain ⟨hr, ht, hk, -⟩ := DB.listKeyVersions_key hl hi List.mem_cons_self
    exact ⟨hr, ht, hk⟩

/-- A request binds a static secret, under a name that is not empty. -/
theorem CreateProviderRequest.spec_ok {req : CreateProviderRequest} {spec : SealerSpec} {providerKeyID : String}
    (h : req.spec = .ok (spec, providerKeyID)) : spec.type = .staticSecret ∧ providerKeyID ≠ "" ∧
      ∃ raw, spec.config = some (.staticSecret ⟨.inline, some (.inline (some raw))⟩) := by
  unfold CreateProviderRequest.spec at h
  rw [bind_unit_eq_ok] at h
  obtain ⟨⟨t, id⟩, hkey, h⟩ := bind_eq_ok.1 h.2
  obtain ⟨⟨t', auth⟩, -, h⟩ := bind_eq_ok.1 h
  obtain ⟨sp, hsp, h⟩ := bind_eq_ok.1 h
  rw [bind_unit_eq_ok] at h
  have hpair := h.2
  cases hpair
  have hne := providerKey_ok hkey
  unfold providerSpec at hsp
  split at hsp
  · split at hsp
    · cases hsp
    · cases hsp
      exact ⟨rfl, hne, _, rfl⟩
  · cases hsp

/-- A version after a change was there before, got new states, or was added. -/
theorem Change.row_cases (h : Change R A e w w') {kv : KeyVersion} (hkv : kv ∈ w'.db.keyVersions.rows) :
    kv ∈ w.db.keyVersions.rows ∨
      (∃ key kv₀, Highest w.db key kv₀ ∧ kv.ident = kv₀.ident ∧ kv.lifeCycleState = key.lifeCycleState ∧
        kv.processingState = .usable) ∨ Added e w kv := by
  cases h with
  | quiet hkvs => exact .inl (hkvs ▸ hkv)
  | updated hh hu hkvs =>
    obtain ⟨r, hr, heq⟩ := hu.mem_iff.1 (hkvs ▸ hkv)
    split at heq
    · rename_i hsame
      subst hsame heq
      exact .inr (.inl ⟨_, _, hh, rfl, rfl, rfl⟩)
    · exact .inl (heq ▸ hr)
  | derived hd hkvs _ =>
    rcases hd.inserted.mem.1 (hkvs ▸ hkv) with hkv | rfl
    · exact .inl hkv
    · exact .inr (.inr (.derived hd))
  | sealed hd hkvs _ =>
    rcases hd.inserted.mem.1 (hkvs ▸ hkv) with hkv | rfl
    · exact .inl hkv
    · exact .inr (.inr (.derived hd))
  | bound _ hspec _ hk hi =>
    obtain ⟨ht, hne, -⟩ := CreateProviderRequest.spec_ok hspec
    rcases hi.mem.1 hkv with hkv | rfl
    · exact .inl hkv
    · exact .inr (.inr (.provider hk hne (.inl rfl) (.inl ht) hi))
  | rotated _ hne hk hspec hlatest hi =>
    rcases hi.mem.1 hkv with hkv | rfl
    · exact .inl hkv
    · obtain ⟨hl, ht, hid⟩ := latestProviderKeyVersion_ok hlatest hk.hasKey.2.1
      refine .inr (.inr (.provider hk hne (.inr ⟨_, hl, ?_, ?_, rfl⟩) (.inr ⟨_, hspec, rfl⟩) hi))
      · exact Option.some.inj (ht.symm.trans hi.tenantID)
      · exact Option.some.inj (hid.symm.trans hi.keyID)
  | _ => exact .inl hkv

/-- The identity of a version after a change was there before, or was added. -/
theorem Change.version_cases (h : Change R A e w w') {i : KeyVersionIdent} (hi : w'.db.HasVersion i) :
    w.db.HasVersion i ∨ ∃ row, Added e w row ∧ i = row.ident := by
  obtain ⟨kv, hkv, rfl⟩ := hi
  rcases h.row_cases hkv with hold | ⟨_, kv₀, hh, hident, -⟩ | hadd
  · exact .inl ⟨kv, hold, rfl⟩
  · exact .inl ⟨kv₀, hh.mem, hident.symm⟩
  · exact .inr ⟨kv, hadd, rfl⟩

/-! ## The secrets of the root's own keys -/

/-- The root generates the secret of the key: it manages the key, which is not a root key. -/
def RootProcess.Generates (R : RootProcess) (k : KeyIdent) : Prop :=
  k.managedBy = R.cfg.name ∧ ∃ sp ∈ R.cfg.hierarchy.findKeySpec k.kind, sp.role ≠ .root

instance (R : RootProcess) (k : KeyIdent) : Decidable (R.Generates k) := inferInstanceAs (Decidable (_ ∧ _))

/-- The processor of a kind on the root. -/
def RootProcess.processor (R : RootProcess) (kind : String) : Option Processor :=
  R.manager.bind fun m => m.processor kind

/-- The vault of the key's kind has the secret of the version, as `createSecret` wrote it. -/
def SecretStored (R : RootProcess) (vault : Vault) (kind : String) (i : KeyVersionIdent) : Prop :=
  ∃ p loc entry, R.processor kind = some p ∧ p.vault = some loc ∧ vault (i.slot loc) = some entry ∧
    ∃ S draw kv, kv.ident = i ∧ createSecret R.cluster S R.fuel R.cfg.name p draw kv kv.aad = .ok (i.slot loc, entry)

/-- The version is the first of its key, below the key's parent, and its secret is stored. -/
structure Backed (R : RootProcess) (vault : Vault) (k : KeyIdent) (i : KeyVersionIdent) : Prop where
  version : i.version = 1
  revision : i.revision = 1
  parentKeyID : i.parentKeyID = k.parentID
  secret : SecretStored R vault k.kind i

/-- The version belongs to a stored key, and is backed when the root generates the secrets of that key. -/
def VersionOk (R : RootProcess) (w : World) (i : KeyVersionIdent) : Prop :=
  ∃ k, w.db.HasKey k ∧ k.id = i.keyID ∧ k.tenantID = i.tenantID ∧ (R.Generates k → Backed R w.vault k i)

/-- Provider specs are for keys whose secrets the root does not generate. -/
def SpecsOk (R : RootProcess) (w : World) : Prop :=
  ∀ tenantID keyID spec, w.specs (tenantID, keyID) = some spec →
    ∃ k, w.db.HasKey k ∧ uuidIn keyID = some k.id ∧ uuidIn tenantID = some k.tenantID ∧ ¬ R.Generates k

/-- The invariant of the key material. -/
structure MaterialInv (R : RootProcess) (w : World) : Prop where
  versions : ∀ i, w.db.HasVersion i → VersionOk R w i
  specs : SpecsOk R w

/-- The identifiers of the key a call binds a provider to. -/
def AdminCall.binds : AdminCall → Option (String × String)
  | .createProvider req => some (req.tenantID, req.keyID)
  | _ => none

/-- The call binds a provider to a key whose secrets the root generates. -/
def BindsOwnKey (R : RootProcess) (w : World) (call : AdminCall) : Prop :=
  ∃ ids ∈ call.binds, ∃ k ∈ w.db.keys.rows, uuidIn ids.1 = some k.tenantID ∧ uuidIn ids.2 = some k.id ∧
    R.Generates k.ident

instance (R : RootProcess) (w : World) (call : AdminCall) : Decidable (BindsOwnKey R w call) :=
  inferInstanceAs (Decidable (∃ _ ∈ _, _))

/-- An entry for a key without versions is no entry of a stored version. -/
theorem slot_ne_of_derives {key : Key} {version : Option Nat} {db₁ : DB} (hd : Derives e key db version db₁)
    {i : KeyVersionIdent} (hi : db.HasVersion i) {loc loc' : VaultLoc} :
    i.slot loc ≠ (firstKeyVersion e key version).slot loc' := by
  obtain ⟨r, hr, rfl⟩ := hi
  intro h
  rw [KeyVersionIdent.slot, KeyVersion.slot, VaultKey.mk.injEq] at h
  exact hd.first r hr ⟨h.2.1, h.2.2.1⟩

theorem Sealed.created {key : Key} {kv : KeyVersion} {S : ClusterState} {entry : VaultKey × VaultEntry}
    (h : Sealed R e key kv S entry) (hR : R.rootCfg = some R.cfg) :
    R.Generates key.ident ∧ ∃ p loc, R.processor key.kind = some p ∧ p.vault = some loc ∧ entry.1 = kv.slot loc ∧
      createSecret R.cluster S R.fuel R.cfg.name p e.draw kv kv.aad = .ok entry := by
  obtain ⟨m, cfg, sp, hm, hcfg, hsp, hrole, hman, hgen⟩ := h
  rw [hR] at hcfg
  cases hcfg
  obtain ⟨p, hp, hc⟩ := generateAndSealSecret_ok hgen
  obtain ⟨loc, hl, hslot⟩ := (createSecret_ok hc).vault
  exact ⟨⟨hman, sp, hsp, hrole⟩, p, loc, hp, hl, hslot, hc⟩

/-- A secret written for a key without versions leaves the secrets of stored versions alone. -/
theorem Derives.vault_eq {key : Key} {version : Option Nat} {db₁ : DB} (hd : Derives e key db version db₁)
    {entry : VaultKey × VaultEntry} {loc' : VaultLoc} (hslot : entry.1 = (firstKeyVersion e key version).slot loc')
    {i : KeyVersionIdent} (hi : db.HasVersion i) (vault : Vault) (loc : VaultLoc) :
    vault.set entry (i.slot loc) = vault (i.slot loc) := by
  refine Function.update_of_ne ?_ _ _
  rw [hslot]
  exact slot_ne_of_derives hd hi

theorem VersionOk.mono {i : KeyVersionIdent} (h : VersionOk R w i) (hk : ∀ k, w.db.HasKey k → w'.db.HasKey k)
    (hv : ∀ loc, w'.vault (i.slot loc) = w.vault (i.slot loc)) : VersionOk R w' i := by
  obtain ⟨k, hkey, hid, ht, hb⟩ := h
  refine ⟨k, hk k hkey, hid, ht, fun hg => ?_⟩
  obtain ⟨h1, h2, h3, p, loc, entry, hp, hl, hent, hc⟩ := hb hg
  exact ⟨h1, h2, h3, p, loc, entry, hp, hl, (hv loc).trans hent, hc⟩

/-- The first version of a key is fine when its secret is stored, or the root does not generate it. -/
theorem Derives.versionOk {key : Key} {version : Option Nat} {db₁ : DB} (hd : Derives e key w.db version db₁)
    (hk : ∀ k, w.db.HasKey k → w'.db.HasKey k)
    (hs : R.Generates key.ident → SecretStored R w'.vault key.kind (firstKeyVersion e key version).ident) :
    VersionOk R w' (firstKeyVersion e key version).ident :=
  ⟨key.ident, hk _ ⟨key, hd.stored, rfl⟩, rfl, rfl, fun hg => ⟨rfl, rfl, rfl, hs hg⟩⟩

/-- A version that a provider call adds is fine when the root does not generate the secrets of its key. -/
theorem versionOk_of_provider {tenantID keyID providerKeyID : String} {n : Nat} {t : SealerType} {k : Key}
    {usage : KeyUsage} {row : KeyVersion} (hk : MayUse w.db tenantID keyID usage k)
    (hi : DB.KeyVersionInserted w.db (providerKeyVersion e tenantID keyID n t providerKeyID) row db)
    (hkeep : ∀ k, w.db.HasKey k → w'.db.HasKey k) (hg : ¬ R.Generates k.ident) : VersionOk R w' row.ident := by
  obtain ⟨hkey, hid, ht⟩ := hk.hasKey
  refine ⟨k.ident, hkeep _ hkey, ?_, ?_, fun h => absurd h hg⟩
  · exact Option.some.inj (hid.symm.trans hi.keyID)
  · exact Option.some.inj (ht.symm.trans hi.tenantID)

/-- Writing a spec for a key whose secrets the root does not generate. -/
theorem SpecsOk.set {tenantID keyID : String} {usage : KeyUsage} {k : Key} (h : SpecsOk R w)
    (hk : MayUse w.db tenantID keyID usage k) (hg : ¬ R.Generates k.ident) (spec : Option SealerSpec) :
    SpecsOk R (w.setSpec tenantID keyID spec) := by
  intro t i sp hsp
  by_cases hti : (t, i) = (tenantID, keyID)
  · cases hti
    obtain ⟨hkey, hid, ht⟩ := hk.hasKey
    exact ⟨k.ident, hkey, hid, ht, hg⟩
  · rw [World.setSpec_of_ne hti] at hsp
    exact h t i sp hsp

theorem SpecsOk.remove {tenantID keyID : String} (h : SpecsOk R w) : SpecsOk R (w.setSpec tenantID keyID none) := by
  intro t i sp hsp
  by_cases hti : (t, i) = (tenantID, keyID)
  · cases hti
    rw [World.setSpec_self] at hsp
    cases hsp
  · rw [World.setSpec_of_ne hti] at hsp
    exact h t i sp hsp

/-- A key with a provider spec is none whose secrets the root generates. -/
theorem SpecsOk.not_generates {tenantID keyID : String} {usage : KeyUsage} {k : Key} {spec : SealerSpec}
    (h : SpecsOk R w) (hk : MayUse w.db tenantID keyID usage k) (hspec : w.specs (tenantID, keyID) = some spec) :
    ¬ R.Generates k.ident := by
  obtain ⟨k', hkey', hid', -, hg⟩ := h tenantID keyID spec hspec
  obtain ⟨hkey, hid, -⟩ := hk.hasKey
  rwa [DB.eq_of_hasKey hkey hkey' (Option.some.inj (hid.symm.trans hid'))]

theorem not_generates_of_unsealed {key : Key} (hR : R.Wired) (h : Unsealed R key true ∨ Unwired R key) :
    ¬ R.Generates key.ident := by
  obtain ⟨m, -, hm⟩ := hR.manager
  rintro ⟨hman, sp, hsp, hrole⟩
  have hsp : R.cfg.hierarchy.findKeySpec key.kind = some sp := hsp
  rcases h with ⟨cfg, sp', hcfg, hsp', h⟩ | hun | hun | ⟨cfg, hcfg, hnone⟩
  · rw [hR.rootCfg] at hcfg
    cases hcfg
    rw [hsp] at hsp'
    cases hsp'
    rcases h with h | h | h
    · exact h hman
    · exact hrole h
    · cases h
  · rw [hm] at hun
    cases hun
  · rw [hR.rootCfg] at hun
    cases hun
  · rw [hR.rootCfg] at hcfg
    cases hcfg
    rw [hsp] at hnone
    cases hnone

theorem SpecsOk.congr (h : SpecsOk R w) (hk : ∀ k, w.db.HasKey k → w'.db.HasKey k) (hspecs : w'.specs = w.specs) :
    SpecsOk R w' := by
  intro t i sp hsp
  rw [hspecs] at hsp
  obtain ⟨k, hkey, hrest⟩ := h t i sp hsp
  exact ⟨k, hk k hkey, hrest⟩

/-- The secret of a first version is stored where its processor will look for it. -/
theorem Sealed.stored {key : Key} {kv : KeyVersion} {S : ClusterState} {entry : VaultKey × VaultEntry}
    (h : Sealed R e key kv S entry) (hR : R.rootCfg = some R.cfg) (vault : Vault) :
    SecretStored R (vault.set entry) key.kind kv.ident := by
  obtain ⟨-, p, loc, hp, hl, hslot, hc⟩ := h.created hR
  have hat : kv.ident.slot loc = entry.1 := hslot.symm
  refine ⟨p, loc, entry.2, hp, hl, ?_, S, e.draw, kv, rfl, ?_⟩
  · rw [hat]
    exact Function.update_self _ _ _
  · rw [hat]
    exact hc

/-- Without a provider on a key whose secrets the root generates, every change keeps the invariant. -/
theorem materialInv_change (hR : R.Wired) (hA : ∀ w e call, A w e call → ¬ BindsOwnKey R w call) (h : MaterialInv R w)
    (hk : ∀ k, w.db.HasKey k → w'.db.HasKey k) (hc : Change R A e w w') : MaterialInv R w' := by
  have hbind : ∀ {req : CreateProviderRequest} {k : Key}, A w e (.createProvider req) →
      MayUse w.db req.tenantID req.keyID .link k → ¬ R.Generates k.ident := by
    intro req k hcall hu hg
    obtain ⟨hmem, hid, ht⟩ := DB.getKeyByID_ok hu.found
    exact hA w e _ hcall ⟨_, rfl, k, hmem, ht, hid, hg⟩
  have hold : ∀ i, w.db.HasVersion i → (∀ loc, w'.vault (i.slot loc) = w.vault (i.slot loc)) → VersionOk R w' i :=
    fun i hi hv => (h.versions i hi).mono hk hv
  cases hc with
  | quiet hkvs => exact ⟨fun i hi => hold i ((DB.hasVersion_congr hkvs).1 hi) fun _ => rfl, h.specs.congr hk rfl⟩
  | updated _ hu hkvs =>
    exact ⟨fun i hi => hold i (hu.hasVersion.1 ((DB.hasVersion_congr hkvs).1 hi)) fun _ => rfl, h.specs.congr hk rfl⟩
  | derived hd hkvs hno =>
    refine ⟨fun i hi => ?_, h.specs.congr hk rfl⟩
    rcases hd.inserted.hasVersion.1 ((DB.hasVersion_congr hkvs).1 hi) with hi | rfl
    · exact hold i hi fun _ => rfl
    · exact hd.versionOk hk fun hg => absurd hg (not_generates_of_unsealed hR hno)
  | sealed hd hkvs hs =>
    obtain ⟨-, _, _, -, -, hslot, -⟩ := hs.created hR.rootCfg
    refine ⟨fun i hi => ?_, h.specs.congr hk rfl⟩
    rcases hd.inserted.hasVersion.1 ((DB.hasVersion_congr hkvs).1 hi) with hi | rfl
    · exact hold i hi (hd.vault_eq hslot hi w.vault)
    · exact hd.versionOk hk fun _ => hs.stored hR.rootCfg w.vault
  | imported hd hs =>
    obtain ⟨-, _, _, -, -, hslot, -⟩ := hs.created hR.rootCfg
    exact ⟨fun i hi => hold i hi (hd.vault_eq hslot hi w.vault), h.specs.congr hk rfl⟩
  | half hcall _ _ hu => exact ⟨fun i hi => hold i hi fun _ => rfl, h.specs.set hu (hbind hcall hu) _⟩
  | bound hcall _ _ hu hi =>
    refine ⟨fun i hv => ?_, (h.specs.set hu (hbind hcall hu) _).congr hk rfl⟩
    rcases hi.hasVersion.1 hv with hv | rfl
    · exact hold i hv fun _ => rfl
    · exact versionOk_of_provider hu hi hk (hbind hcall hu)
  | reauthorized auth _ hu hspec =>
    exact ⟨fun i hi => hold i hi fun _ => rfl, h.specs.set hu (h.specs.not_generates hu hspec) _⟩
  | rotated _ _ hu hspec _ hi =>
    refine ⟨fun i hv => ?_, h.specs.congr hk rfl⟩
    rcases hi.hasVersion.1 hv with hv | rfl
    · exact hold i hv fun _ => rfl
    · exact versionOk_of_provider hu hi hk (h.specs.not_generates hu hspec)
  | removed _ => exact ⟨fun i hi => hold i hi fun _ => rfl, h.specs.remove⟩

/-! ## Settled keys have a version -/

/-- The key has a version. -/
def DB.Versioned (db : DB) (k : Key) : Prop := ∃ kv ∈ db.keyVersions.rows, kv.tenantID = k.tenantID ∧ kv.keyID = k.id

/-- Every completed key beyond pre-activation has a version. -/
def SettledVersioned (db : DB) : Prop :=
  ∀ k ∈ db.keys.rows, k.status = .completed → k.lifeCycleState ≠ .preActivation → db.Versioned k

theorem versioned_iff {k : Key} : db.Versioned k ↔ ∃ i, db.HasVersion i ∧ i.tenantID = k.tenantID ∧ i.keyID = k.id := by
  constructor
  · rintro ⟨kv, hkv, ht, hid⟩
    exact ⟨kv.ident, ⟨kv, hkv, rfl⟩, ht, hid⟩
  · rintro ⟨_, ⟨kv, hkv, rfl⟩, ht, hid⟩
    exact ⟨kv, hkv, ht, hid⟩

theorem DB.Versioned.change {k : Key} (h : w.db.Versioned k) (hc : Change R A e w w') : w'.db.Versioned k := by
  obtain ⟨i, hi, ht, hid⟩ := versioned_iff.1 h
  exact versioned_iff.2 ⟨i, hc.keepsVersion hi, ht, hid⟩

theorem VersionChange.versioned {key : Key} {kv : KeyVersion} {isNew : Bool} (h : VersionChange e key db kv isNew db') :
    db'.Versioned key := by
  cases h with
  | existing h hu =>
    exact versioned_iff.2 ⟨_, hu.hasVersion.2 ⟨_, h.mem, rfl⟩, h.tenantID, h.keyID⟩
  | fresh _ _ hi => exact versioned_iff.2 ⟨_, hi.hasVersion.2 (.inr rfl), rfl, rfl⟩

/-- A task that completes a key leaves it with a version. -/
theorem Processed.versioned {key : Key} {s : Session} (h : Processed R e key w.session (.ok ()) s) :
    s.db.Versioned key := by
  cases h with
  | completed h _ =>
    obtain ⟨kv, isNew, db, hv, hs⟩ := h
    have hdb := hs.keys
    have hver := hv.versioned
    unfold DB.Versioned at hver ⊢
    change ∃ kv ∈ _, _
    rw [Session.mark, DB.markKeys_keyVersions, hdb]
    exact hver

/-- Every completed key beyond pre-activation was so before. -/
def SettledBefore (w w' : World) : Prop :=
  ∀ k ∈ w'.db.keys.rows, k.status = .completed → k.lifeCycleState ≠ .preActivation → k ∈ w.db.keys.rows

theorem settledBefore_of_keys (h : w'.db.keys = w.db.keys) : SettledBefore w w' := fun _ hk _ _ => h ▸ hk

theorem settledBefore_markKeys {ids : List String} {lc : KeyLifeCycleState} {st : KeyProcessingStatus} {now : Int}
    (hkeys : w'.db.keys = (w.db.markKeys ids lc st now).keys) (h : st = .completed → lc = .preActivation) :
    SettledBefore w w' := by
  intro k hk hst hlc
  rcases DB.mem_markKeys_cases (hkeys ▸ hk) with ⟨hk', -⟩ | ⟨-, hlc', hst', -⟩
  · exact hk'
  · exact absurd (hlc'.trans (h (hst'.symm.trans hst))) hlc

theorem AdminCall.settledBefore (call : AdminCall) : SettledBefore w (call.run R e w).2 := by
  cases call with
  | createTenant name labels => exact settledBefore_of_keys createTenant_effect.keys
  | announceKey req =>
    have heff : AnnounceKeyEffect R e req w (Krypton.announceKey R e req w) := announceKey_effect
    change SettledBefore w (Krypton.announceKey R e req w).2.2
    generalize Krypton.announceKey R e req w = out at heff
    cases heff with
    | refused => exact settledBefore_of_keys rfl
    | accepted _ _ _ hu =>
      cases hu with
      | inserted hi =>
        intro k hk hst _
        rcases hi.mem.1 hk with hk | rfl
        · exact hk
        · rw [hi.row_eq] at hst
          cases hst
      | adopted _ _ => exact settledBefore_markKeys rfl nofun
  | keyAction action req =>
    have heff : ActionEffect e action req w (Krypton.keyAction e action req w) := keyAction_effect
    change SettledBefore w (Krypton.keyAction e action req w).2.2
    generalize Krypton.keyAction e action req w = out at heff
    cases heff with
    | refused => exact settledBefore_of_keys rfl
    | accepted _ _ _ => exact settledBefore_markKeys rfl nofun
  | createProvider req => exact settledBefore_of_keys (CreateProviderEffect.keys createProvider_effect)
  | rotateAuth t i a => exact settledBefore_of_keys (congrArg DB.keys (RotateAuthEffect.db rotateAuth_effect))
  | rotateProviderKey t i key => exact settledBefore_of_keys (RotateProviderKeyEffect.keys rotateProviderKey_effect)
  | removeProvider t i => exact settledBefore_of_keys (congrArg DB.keys (RemoveProviderEffect.db removeProvider_effect))

theorem ConfirmEffect.settledBefore {key : Key} {result : ConfirmResult} (h : ConfirmEffect e key w result w') :
    SettledBefore w w' := by
  cases h with
  | started _ _ => exact settledBefore_markKeys rfl nofun
  | _ => exact settledBefore_of_keys rfl

/-- An announce task completes keys in pre-activation only. -/
theorem AnnounceEffect.settledBefore {key : Key} {response : Response} (h : AnnounceEffect R e key w response w') :
    SettledBefore w w' := by
  cases h with
  | failed _ => exact settledBefore_markKeys rfl nofun
  | completed hk _ _ => exact settledBefore_markKeys rfl fun _ => hk.state
  | _ => exact settledBefore_of_keys rfl

/-- Across a step, a completed key beyond pre-activation was so before, or has a version now. -/
def Settles (w w' : World) : Prop :=
  ∀ k ∈ w'.db.keys.rows, k.status = .completed → k.lifeCycleState ≠ .preActivation →
    k ∈ w.db.keys.rows ∨ w'.db.Versioned k

theorem SettledBefore.settles (h : SettledBefore w w') : Settles w w' := fun k hk hst hlc => .inl (h k hk hst hlc)

theorem TaskEffect.settles {toState : KeyLifeCycleState} {kid : KeyIdentifier} {response : Response}
    (h : TaskEffect R e toState kid w response w') : Settles w w' := by
  cases h with
  | failed hw h =>
    obtain ⟨st, hkeys, ⟨rfl, -⟩ | ⟨-, h⟩⟩ := h.keys nofun
    · exact SettledBefore.settles (settledBefore_markKeys hkeys nofun)
    · cases h
  | @completed key s hw h =>
    obtain ⟨st, hkeys, -⟩ := h.keys nofun
    intro k hk hst hlc
    rcases DB.mem_markKeys_cases (hkeys ▸ hk) with ⟨hk', -⟩ | ⟨hid, -, -, k₀, hk₀, hident⟩
    · exact .inl hk'
    · -- the marked key is the one the task worked on
      have hsame : k₀ = key :=
        DB.key_eq_of_id hk₀ hw.mem ((congrArg KeyIdent.id hident).trans (List.mem_singleton.1 hid))
      obtain ⟨kv, hkv, ht, hkid⟩ := h.versioned
      subst hsame
      exact .inr ⟨kv, hkv, ht.trans (congrArg KeyIdent.tenantID hident), hkid.trans (congrArg KeyIdent.id hident)⟩
  | _ => exact (settledBefore_of_keys rfl).settles

theorem step_settles (s : RootState) (op : Env × Op) : Settles s.world (step R s op).world :=
  step_world_rel (A := fun _ _ _ => True) (P := fun _ w w' => Settles w w')
    (fun _ _ => (settledBefore_of_keys rfl).settles)
    (fun _ _ call _ => call.settledBefore.settles) (fun _ _ _ _ _ heff => heff.settledBefore.settles)
    (fun _ _ _ _ _ heff => heff.settledBefore.settles) (fun _ _ _ _ _ _ heff => heff.settles) s op fun _ _ => trivial

/-- Settled keys have versions, in every run. -/
theorem settledVersioned_step (s : RootState) (op : Env × Op) (h : SettledVersioned s.world.db) :
    SettledVersioned (step R s op).world.db := by
  have hc : Change R (fun _ _ _ => True) op.1 s.world (step R s op).world := step_change s op fun _ _ => trivial
  intro k hk hst hlc
  rcases step_settles s op k hk hst hlc with hold | hver
  · exact (h k hold hst hlc).change hc
  · exact hver

/-! ## The theorem -/

/-- The key's highest version is below the key's parent and its secret is stored. -/
def HasMaterial (R : RootProcess) (w : World) (k : Key) : Prop :=
  (∃ kv, Highest w.db k kv) ∧
    ∀ kv, Highest w.db k kv → kv.parentKeyID = k.parentID ∧ SecretStored R w.vault k.kind kv.ident

/-- A version of a key whose secrets the root generates is backed. -/
theorem MaterialInv.backed (h : MaterialInv R w) {k : Key} (hk : k ∈ w.db.keys.rows) (hg : R.Generates k.ident)
    {kv : KeyVersion} (hkv : kv ∈ w.db.keyVersions.rows) (hid : kv.keyID = k.id) :
    Backed R w.vault k.ident kv.ident := by
  obtain ⟨k', hkey', hid', -, hb⟩ := h.versions kv.ident ⟨kv, hkv, rfl⟩
  obtain rfl := DB.eq_of_hasKey hkey' ⟨k, hk, rfl⟩ (hid'.trans hid)
  exact hb hg

theorem MaterialInv.hasMaterial (h : MaterialInv R w) {k : Key} (hk : k ∈ w.db.keys.rows) (hg : R.Generates k.ident)
    (hv : w.db.Versioned k) : HasMaterial R w k := by
  obtain ⟨kv, hkv, ht, hid⟩ := hv
  refine ⟨⟨kv, hkv, ht, hid, fun r hr _ hrid => ?_⟩, fun kv' hkv' => ?_⟩
  · -- all versions of the key are version 1, revision 1
    have hb := h.backed hk hg hkv hid
    have hb' := h.backed hk hg hr hrid
    exact .inr ⟨hb'.version.trans hb.version.symm, (hb'.revision.trans hb.revision.symm).le⟩
  · have hb := h.backed hk hg hkv'.mem hkv'.keyID
    exact ⟨hb.parentKeyID, hb.secret⟩

theorem materialInv_init : MaterialInv R RootState.init.world where
  versions := by
    rintro _ ⟨_, hkv, -⟩
    exact absurd hkv List.not_mem_nil
  specs _ _ _ h := by cases h

/-- **Settled keys have their material.** In every run in which no provider is bound to a key whose secrets the root
generates, every such key that is completed beyond pre-activation has a version, and its highest version is below the
key's parent and has its secret in the vault of the key's kind. -/
theorem settled_has_material (R : RootProcess) (hR : R.Wired) (ops : List (Env × Op))
    (h : Along (step R) (Calls fun w _ call => ¬ BindsOwnKey R w call) .init ops) (k : Key)
    (hk : k ∈ (run (step R) .init ops).world.db.keys.rows) (hg : R.Generates k.ident) (hst : k.status = .completed)
    (hlc : k.lifeCycleState ≠ .preActivation) : HasMaterial R (run (step R) .init ops).world k := by
  have hinv : MaterialInv R (run (step R) .init ops).world ∧ SettledVersioned (run (step R) .init ops).world.db := by
    refine run_inv (I := fun s => MaterialInv R s.world ∧ SettledVersioned s.world.db) ?_
      ⟨materialInv_init, fun _ hk => absurd hk List.not_mem_nil⟩ h
    rintro s op ⟨hm, hv⟩ hc
    exact ⟨materialInv_change hR (fun _ _ _ hA => hA) hm (fun _ => step_keeps op) (step_change s op hc),
      settledVersioned_step s op hv⟩
  exact hinv.1.hasMaterial hk hg (hinv.2 k hk hst hlc)

end

/-- The root key is bound and active, and a key below it is announced. -/
def demoSecondKey : List (Env × Op) :=
  [demoCreateTenant, demoAnnounce 1 "rk" "" ""] ++ demoRunJob 0 0 ++ [demoBind 1 3, demoAction .activate 1 false] ++
    demoRunJob 1 0 ++ [demoAnnounce 2 "kek" (demoKey 1) ""] ++ demoRunJob 2 0

def demoActivateSecond : List (Env × Op) := [demoAction .activate 2 false] ++ demoRunJob 3 0

theorem demoSecondKey_has_material :
    ∃ k ∈ (run (step demo) .init (demoSecondKey ++ demoActivateSecond)).world.db.keys.rows,
      demo.Generates k.ident ∧ HasMaterial demo
        (run (step demo) .init (demoSecondKey ++ demoActivateSecond)).world k := by
  obtain ⟨k, hk, hg, hst, hlc⟩ : ∃ k ∈ (run (step demo) .init (demoSecondKey ++ demoActivateSecond)).world.db.keys.rows,
      demo.Generates k.ident ∧ k.status = .completed ∧ k.lifeCycleState ≠ .preActivation := by decide +kernel
  exact ⟨k, hk, hg, settled_has_material demo demo_wired _ (by decide +kernel) k hk hg hst hlc⟩

/-- A provider bound to the announced key keeps its activation from generating a secret. -/
theorem bound_key_lacks_material :
    ∃ k ∈ (run (step demo) .init (demoSecondKey ++ [demoBind 2 3] ++ demoActivateSecond)).world.db.keys.rows,
      demo.Generates k.ident ∧ k.status = .completed ∧ k.lifeCycleState = .active ∧
        ¬ HasMaterial demo (run (step demo) .init (demoSecondKey ++ [demoBind 2 3] ++ demoActivateSecond)).world k := by
  obtain ⟨k, hk, hg, hst, hlc, hno⟩ :
      ∃ k ∈ (run (step demo) .init (demoSecondKey ++ [demoBind 2 3] ++ demoActivateSecond)).world.db.keys.rows,
        demo.Generates k.ident ∧ k.status = .completed ∧ k.lifeCycleState = .active ∧
          ∀ kv ∈ (run (step demo) .init
            (demoSecondKey ++ [demoBind 2 3] ++ demoActivateSecond)).world.db.keyVersions.rows,
            kv.keyID = k.id → kv.parentKeyID ≠ k.parentID := by decide +kernel
  refine ⟨k, hk, hg, hst, hlc, fun hm => ?_⟩
  obtain ⟨⟨kv, hkv⟩, hall⟩ := hm
  exact hno kv hkv.mem hkv.keyID (hall kv hkv).1

end Krypton
