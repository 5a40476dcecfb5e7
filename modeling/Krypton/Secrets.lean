import Krypton.Forest
import Krypton.RootKey

/-!
# Secrets of the root's own keys

The secret of a key the root manages is drawn and wrapped by the task that records the key's first version, and lies in
a vault from then on, sealed under the parent's version and so on up to a provider spec.

* `Change.extends` — a change loses nothing that opening a secret needs, unless it removes a provider or binds one
  again;
* `opens_of_delivery` — the secret opens after the delivery that drew it;
* `SecretsInv.chainReady` — active keys up to the root are all that reading it back waits for;
* `secrets_kept` — so a secret that was committed is read back, in every later state with active keys.
-/

namespace Krypton

open Lib

/-- The call binds a provider to a key that has versions, named by its stored identifiers. -/
def Rebinds (w : World) (call : AdminCall) : Prop :=
  ∃ ids ∈ call.binds, ∃ kv ∈ w.db.keyVersions.rows, ids = (kv.tenantID, kv.keyID)

instance (w : World) (call : AdminCall) : Decidable (Rebinds w call) := inferInstanceAs (Decidable (∃ _ ∈ _, _))

/-- The call leaves the provider of every key with versions in place. -/
def KeepsProviders (w : World) (call : AdminCall) : Prop := call.removesProvider = false ∧ ¬ Rebinds w call

instance (w : World) (call : AdminCall) : Decidable (KeepsProviders w call) := inferInstanceAs (Decidable (_ ∧ _))

section
variable {R : RootProcess} {A : World → Env → AdminCall → Prop} {e : Env} {w w' : World}

/-! ## Nothing gets lost -/

/-- The specs after a change hold the same key for every key with versions. -/
theorem Change.keepsSealer (hc : Change R A e w w') (hA : ∀ call, A w e call → KeepsProviders w call)
    {kv : KeyVersion} (hkv : kv ∈ w.db.keyVersions.rows) {spec : SealerSpec}
    (hs : w.specs (kv.tenantID, kv.keyID) = some spec) :
    ∃ spec', w'.specs (kv.tenantID, kv.keyID) = some spec' ∧ spec'.type = spec.type ∧
      spec'.getSealer R.process = spec.getSealer R.process := by
  have hother : ∀ {req : CreateProviderRequest}, A w e (.createProvider req) →
      (kv.tenantID, kv.keyID) ≠ (req.tenantID, req.keyID) :=
    fun hcall heq => (hA _ hcall).2 ⟨_, rfl, kv, hkv, heq.symm⟩
  cases hc with
  | half hcall _ _ _ => exact ⟨spec, (World.setSpec_of_ne (hother hcall)).trans hs, rfl, rfl⟩
  | bound hcall _ _ _ _ => exact ⟨spec, (World.setSpec_of_ne (hother hcall)).trans hs, rfl, rfl⟩
  | @reauthorized tenantID keyID _ spec₀ _ auth _ _ hspec =>
    by_cases hids : (kv.tenantID, kv.keyID) = (tenantID, keyID)
    · rw [hids, hspec] at hs
      cases hs
      rw [hids]
      exact ⟨_, World.setSpec_self, rfl, rfl⟩
    · exact ⟨spec, (World.setSpec_of_ne hids).trans hs, rfl, rfl⟩
  | removed hcall => exact absurd (hA _ hcall).1 nofun
  | _ => exact ⟨spec, hs, rfl, rfl⟩

/-- The vaults after a change hold the same entries for every stored version. -/
theorem Change.keepsEntry (hc : Change R A e w w') (hR : R.rootCfg = some R.cfg) {i : KeyVersionIdent}
    (hi : w.db.HasVersion i) (loc : VaultLoc) : w'.vault (i.slot loc) = w.vault (i.slot loc) := by
  cases hc with
  | sealed hd _ hs =>
    obtain ⟨-, _, _, -, -, hslot, -⟩ := hs.created hR
    exact hd.vault_eq hslot hi w.vault loc
  | imported hd hs =>
    obtain ⟨-, _, _, -, -, hslot, -⟩ := hs.created hR
    exact hd.vault_eq hslot hi w.vault loc
  | _ => rfl

/-- A change loses nothing, unless it touches the provider of a key with versions. -/
theorem Change.extends (hc : Change R A e w w') (hR : R.rootCfg = some R.cfg)
    (hA : ∀ call, A w e call → KeepsProviders w call) (hkeep : ∀ k, w.db.HasKey k → w'.db.HasKey k) :
    Extends R.cluster w.cluster w'.cluster :=
  .of_kept (fun _ => hkeep) (fun _ _ => hc.keepsVersion) (fun _ => hc.keepsVersion)
    (fun _ _ _ loc hproc _ => hc.keepsEntry hR hproc.row loc) fun _ hkv _ hs => hc.keepsSealer hA hkv hs

/-! ## The delivery that draws a secret -/

/-- A new version of a key whose secrets the root generates, recorded by a delivery, opens to the secret drawn there. -/
theorem opens_of_delivery (hR : R.Wired) (hc : Change R (fun _ _ _ => False) e w w')
    (hkeep : ∀ k, w.db.HasKey k → w'.db.HasKey k) {i : KeyVersionIdent} (hnew : ¬ w.db.HasVersion i)
    (hi : w'.db.HasVersion i) {k : KeyIdent} (hk : w'.db.HasKey k) (hid : k.id = i.keyID) (hg : R.Generates k) :
    Opens R.cluster w'.cluster R.cfg.name i e.draw.secret := by
  have hext := hc.extends hR.rootCfg (fun _ h => h.elim) hkeep
  have hsame : ∀ {key : Key} {v : Option Nat} {db₁ : DB}, Derives e key w.db v db₁ →
      i = (firstKeyVersion e key v).ident → k = key.ident := by
    rintro key v db₁ hd rfl
    exact DB.eq_of_hasKey hk (hkeep _ ⟨key, hd.stored, rfl⟩) hid
  cases hc with
  | quiet hkvs => exact absurd ((DB.hasVersion_congr hkvs).1 hi) hnew
  | updated _ hu hkvs => exact absurd (hu.hasVersion.1 ((DB.hasVersion_congr hkvs).1 hi)) hnew
  | derived hd hkvs hno =>
    rcases hd.inserted.hasVersion.1 ((DB.hasVersion_congr hkvs).1 hi) with hi | hi
    · exact absurd hi hnew
    · rw [hsame hd hi] at hg
      exact absurd hg (not_generates_of_unsealed hR hno)
  | @sealed key version db₁ db entry hd hkvs hs =>
    rcases hd.inserted.hasVersion.1 ((DB.hasVersion_congr hkvs).1 hi) with hold | rfl
    · exact absurd hold hnew
    · obtain ⟨-, p, loc, hp, hl, hslot, hcreate⟩ := hs.created hR.rootCfg
      have hcreated := createSecret_ok hcreate
      have hkey := hkeep key.ident ⟨key, hd.stored, rfl⟩
      refine hcreated.opens hext ⟨⟨hi, key.ident, hkey, rfl, rfl, hp⟩, hcreated.cryptor, loc, hl, ?_⟩
      change w.vault.set entry _ = _
      rw [Vault.set, hslot]
      exact Function.update_self _ _ _
  | imported _ _ => exact absurd hi hnew
  | half h _ _ _ => exact h.elim
  | bound h _ _ _ _ => exact h.elim
  | reauthorized _ h _ _ => exact h.elim
  | rotated h _ _ _ _ _ => exact h.elim
  | removed h => exact h.elim

/-! ## Active keys up to the root -/

/-- The key and its ancestors are active and completed. -/
def DB.ActiveChain (db : DB) (n : Nat) (k : Key) : Prop :=
  ∀ a ∈ db.chain n k, a.lifeCycleState = .active ∧ a.status = .completed

instance (db : DB) (n : Nat) (k : Key) : Decidable (db.ActiveChain n k) := inferInstanceAs (Decidable (∀ _ ∈ _, _))

theorem DB.ActiveChain.self {db : DB} {n : Nat} {k : Key} (h : db.ActiveChain n k) :
    k.lifeCycleState = .active ∧ k.status = .completed := by
  refine h k ?_
  cases n with
  | zero => exact List.mem_cons_self
  | succ n =>
    rw [chain_succ]
    exact List.mem_cons_self

theorem Forest.activeChain_parent {h : KeyHierarchy} {db : DB} (hf : Forest h db) {k p : Key} (hk : k ∈ db.keys.rows)
    (hp : p ∈ db.keys.rows) (hid : k.parentID = some p.id) (ht : p.tenantID = k.tenantID)
    (ha : db.ActiveChain h.keySpecs.length k) : db.ActiveChain h.keySpecs.length p := by
  intro a hmem
  refine ha a ?_
  rw [← (hf.chain_stable hk).2 (h.keySpecs.length + 1) (.inl (Nat.le_succ _)), DB.chain_succ,
    DB.parentOf_of_mem hp hid ht]
  exact List.mem_cons_of_mem _ hmem

/-- Every version is usable. -/
def AllUsable (db : DB) : Prop := ∀ kv ∈ db.keyVersions.rows, kv.processingState = .usable

theorem allUsable_change (hc : Change R A e w w') (h : AllUsable w.db) : AllUsable w'.db := by
  intro kv hkv
  rcases hc.row_cases hkv with hold | ⟨_, _, -, -, -, hps⟩ | hadd
  · exact h kv hold
  · exact hps
  · cases hadd with
    | derived _ => rfl
    | provider _ _ _ _ hi => exact hi.columns.2.2.2.2

/-- What reading secrets back relies on, in every run. -/
structure SecretsInv (R : RootProcess) (w : World) : Prop where
  versions : ∀ i, w.db.HasVersion i → Numbered w.db i
  usable : AllUsable w.db
  tenants : TenantsStored w.db
  forest : Forest R.cfg.hierarchy w.db
  placed : ∀ i, w.db.HasVersion i → VersionPlaced w.db i

theorem secretsInv_run (R : RootProcess) (ops : List (Env × Op)) : SecretsInv R (worldAfter R ops) where
  versions := (providerInv_run R ops).versions
  usable := by
    refine run_inv_always (I := fun s : RootState => AllUsable s.world.db) (fun s op h => ?_)
      (fun _ hk => absurd hk List.not_mem_nil) ops
    have hc : Change R (fun _ _ _ => True) op.1 s.world (step R s op).world := step_change s op fun _ _ => trivial
    exact allUsable_change hc h
  tenants := (providerInv_run R ops).tenants
  forest := forest_run R ops
  placed := versionPlaced_run R ops

theorem SecretsInv.unique (h : SecretsInv R w) : w.cluster.Unique :=
  ⟨uniqueVersions_of_numbered h.versions, fun _ => uniqueVersions_of_numbered h.versions⟩

/-- The version's key, with active keys up to the root. -/
def ActiveUp (R : RootProcess) (db : DB) (i : KeyVersionIdent) : Prop :=
  db.HasVersion i ∧ ∃ k ∈ db.keys.rows, k.id = i.keyID ∧ k.tenantID = i.tenantID ∧ db.ActiveChain R.fuel k

/-- The key above a version is active, up to the root. -/
theorem ActiveUp.parent {i : KeyVersionIdent} (h : ActiveUp R w.db i) (hinv : SecretsInv R w) {pid : String}
    (hpid : i.parentKeyID = some pid) :
    ∃ p ∈ w.db.keys.rows, p.id = pid ∧ p.tenantID = i.tenantID ∧ w.db.ActiveChain R.fuel p := by
  obtain ⟨hi, k, hk, hid, ht, hactive⟩ := h
  obtain ⟨_, hk', hid', -, hparent⟩ := hinv.placed i hi
  obtain rfl := DB.eq_of_hasKey hk' ⟨k, hk, rfl⟩ (hid'.trans hid.symm)
  have hkp : k.parentID = some pid := by
    rcases hparent with hnone | hparent
    · exact absurd (hpid.symm.trans hnone) nofun
    · exact hparent.symm.trans hpid
  obtain ⟨_, ⟨p, hp, rfl⟩, hpid', hpt, -⟩ := (hinv.forest k.ident ⟨k, hk, rfl⟩).parent pid hkp
  have hpt : p.tenantID = k.tenantID := hpt
  refine ⟨p, hp, hpid', hpt.trans ht, hinv.forest.activeChain_parent hk hp ?_ hpt hactive⟩
  exact hkp.trans (congrArg some hpid'.symm)

theorem ActiveUp.above {node target : String} {i j : KeyVersionIdent} (h : ActiveUp R w.db i) (hinv : SecretsInv R w)
    (hup : Relation.ReflTransGen (ParentOf R.cluster w.cluster) (node, i) (target, j)) : ActiveUp R w.db j := by
  generalize hx : (node, i) = x at hup
  generalize hy : (target, j) = y at hup
  have hgoal : ActiveUp R w.db y.2 := by
    clear hy
    induction hup with
    | refl => rwa [← hx]
    | tail _ hstep ih =>
      obtain ⟨_, -, hpid, ht, hrow, -⟩ := hstep
      obtain ⟨p, hp, hid, hpt, hactive⟩ := ih.parent hinv hpid
      exact ⟨hrow, p, hp, hid, hpt.trans ht.symm, hactive⟩
  rwa [← hy] at hgoal

/-- With active keys up to the root, a version's chain is ready. -/
theorem SecretsInv.chainReady (hinv : SecretsInv R w) {i : KeyVersionIdent} (h : ActiveUp R w.db i) (node : String) :
    ChainReady R.cluster w.cluster node i where
  keys target j hup := by
    obtain ⟨⟨kv, hkv, hident⟩, k, hk, hid, ht, hactive⟩ := h.above hinv hup
    exact ⟨⟨kv, hkv, hident, hinv.usable kv hkv⟩, k, hk, hid, ht, hactive.self.1⟩
  root target j p pid hup _ _ hpid := by
    obtain ⟨r, hr, rfl, ht, hactive⟩ := (h.above hinv hup).parent hinv hpid
    rw [← ht]
    refine ⟨hinv.tenants.validateTenant hr, r, DB.getKeyByID_of_mem hr, hactive.self.2, ?_⟩
    rw [hactive.self.1]
    rfl

/-- A secret that opens is read back, with active keys up to the root. -/
theorem SecretsInv.resolveSecret (hinv : SecretsInv R w) {k : Key} (hk : k ∈ w.db.keys.rows)
    (hactive : w.db.ActiveChain R.fuel k) {kv : KeyVersion} (hkv : kv ∈ w.db.keyVersions.rows) (hid : kv.keyID = k.id)
    {sec : Bytes} (ho : Opens R.cluster w.cluster R.cfg.name kv.ident sec) :
    ∃ p, R.processor k.kind = some p ∧
      resolveSecret R.cluster w.cluster (unsealVia R.cluster w.cluster R.fuel R.cfg.name) p kv = .ok sec := by
  obtain ⟨_, hk', hid', ht', -⟩ := hinv.placed kv.ident ⟨kv, hkv, rfl⟩
  obtain rfl := DB.eq_of_hasKey hk' ⟨k, hk, rfl⟩ (hid'.trans hid)
  obtain ⟨p, entry, hat⟩ := ho.secretAt
  obtain ⟨_, hk'', hid'', -, hp⟩ := hat.processor.key
  obtain rfl := DB.eq_of_hasKey hk'' ⟨k, hk, rfl⟩ (hid''.trans hid)
  have hready := hinv.chainReady ⟨⟨kv, hkv, rfl⟩, k, hk, hid.symm, ht', hactive⟩ R.cfg.name
  obtain ⟨n, hn⟩ := (ho.resolved hinv.unique hready rfl hat.processor).resolveSecret
  refine ⟨p, hp, ?_⟩
  have hpos := hinv.forest.position_lt hk
  rw [← hn (max n R.fuel) (Nat.le_max_left _ _)]
  exact resolveSecret_stable (fun _ => rfl) hinv.forest hinv.placed hk rfl hkv hid (Nat.le_of_lt hpos)
    (Nat.le_trans (Nat.le_of_lt hpos) (Nat.le_max_right _ _))

end

/-- **Secrets are kept.** In every run that neither removes a provider nor binds one to a key that has versions: once a
delivery has recorded a new version of a key whose secrets the root generates, the secret drawn in that delivery is what
is read back in every later state in which the key and its ancestors are active and completed. -/
theorem secrets_kept (R : RootProcess) (hR : R.Wired) (ops₁ ops₂ : List (Env × Op)) (e : Env) (g i task : Nat)
    (recorded : Bool)
    (h : Along (step R) (Calls fun w _ call => KeepsProviders w call) .init
      (ops₁ ++ (e, .handle g i task recorded) :: ops₂))
    (v : KeyVersionIdent) (hnew : ¬ (worldAfter R ops₁).db.HasVersion v)
    (hv : (worldAfter R (ops₁ ++ [(e, .handle g i task recorded)])).db.HasVersion v) (k : Key)
    (hk : k ∈ (worldAfter R (ops₁ ++ (e, .handle g i task recorded) :: ops₂)).db.keys.rows) (hid : k.id = v.keyID)
    (hg : R.Generates k.ident)
    (hactive : (worldAfter R (ops₁ ++ (e, .handle g i task recorded) :: ops₂)).db.ActiveChain R.fuel k) :
    let w := worldAfter R (ops₁ ++ (e, .handle g i task recorded) :: ops₂)
    w.db.HasVersion v ∧ ∀ kv ∈ w.db.keyVersions.rows, kv.ident = v → ∃ p, R.processor k.kind = some p ∧
      resolveSecret R.cluster w.cluster (unsealVia R.cluster w.cluster R.fuel R.cfg.name) p kv = .ok e.draw.secret := by
  intro w
  have hinv := secretsInv_run R (ops₁ ++ (e, .handle g i task recorded) :: ops₂)
  -- the version's key is there since the delivery
  obtain ⟨k', hk', hid', -⟩ := versionPlaced_run R (ops₁ ++ [(e, .handle g i task recorded)]) v hv
  have hkept : w.db.HasKey k' := by
    have hlater := run_inv_always (I := fun s : RootState => s.world.db.HasKey k')
        (fun _ op => step_keeps (R := R) op) hk' ops₂
    rwa [← run_append, List.append_assoc] at hlater
  obtain rfl := DB.eq_of_hasKey hkept ⟨k, hk, rfl⟩ (hid'.trans hid.symm)
  have hopens : Opens R.cluster w.cluster R.cfg.name v e.draw.secret := by
    refine run_after (I := fun _ : RootState => True)
      (Q := fun s => Opens R.cluster s.world.cluster R.cfg.name v e.draw.secret) (fun _ _ _ _ => trivial)
      (fun s op _ hc hQ => ?_) (fun _ _ => ?_) trivial h
    · exact hQ.mono ((step_change s op hc).extends hR.rootCfg (fun _ h => h) fun _ => step_keeps op)
    · rw [worldAfter, run_append] at hv hk'
      exact opens_of_delivery hR (step_change _ (e, .handle g i task recorded) fun _ h => absurd h nofun)
        (fun _ => step_keeps _) hnew hv hk' hid' hg
  obtain ⟨_, _, hat⟩ := hopens.secretAt
  refine ⟨hat.processor.row, ?_⟩
  rintro kv hkv rfl
  exact hinv.resolveSecret hk hactive hkv hid.symm hopens

/-- The root key is active, and so will be the key below it: the task that draws its secret is next. -/
def demoReady : List (Env × Op) :=
  demoSecondKey ++ [demoAction .activate 2 false, (demoEnv 0, .confirmJob 3 0 true), (demoEnv 0, .resolveTasks 3 0)]

/-- The small deployment with an active key below the root key. -/
def demoServing : ClusterState := (worldAfter demo (demoReady ++ [(demoEnv 0, .handle 3 0 0 true)])).cluster

/-- The first version of the key below the root key. -/
def demoVersion : KeyVersionIdent := ⟨demoTenant, demoKey 2, 1, 1, some (demoKey 1), some 1, [], 0⟩

/-- The key below the root key is suspended and activated again. -/
def demoSuspended : List (Env × Op) :=
  demoAction .suspend 2 false :: demoRunJob 4 0 ++ demoAction .activate 2 false :: demoRunJob 5 0

theorem demoSuspended_secret_kept :
    let w := worldAfter demo (demoReady ++ (demoEnv 0, .handle 3 0 0 true) :: demoSuspended)
    w.db.HasVersion demoVersion ∧ ∀ kv ∈ w.db.keyVersions.rows, kv.ident = demoVersion →
      ∃ p, demo.processor "kek" = some p ∧ resolveSecret demo.cluster w.cluster
        (unsealVia demo.cluster w.cluster demo.fuel demo.cfg.name) p kv = .ok (demoEnv 0).draw.secret := by
  obtain ⟨k, hk, hid, hkind, hg, hactive⟩ :
      ∃ k ∈ (worldAfter demo (demoReady ++ (demoEnv 0, .handle 3 0 0 true) :: demoSuspended)).db.keys.rows,
        k.id = demoVersion.keyID ∧ k.kind = "kek" ∧ demo.Generates k.ident ∧
          (worldAfter demo (demoReady ++ (demoEnv 0, .handle 3 0 0 true) :: demoSuspended)).db.ActiveChain
            demo.fuel k := by
    decide +kernel
  rw [← hkind]
  exact secrets_kept demo demo_wired demoReady demoSuspended (demoEnv 0) 3 0 0 true (by decide +kernel) demoVersion
    (by decide +kernel) (by decide +kernel) k hk hid hg hactive

/-- The root key is announced again, bound to another secret, which fails, and activated again. -/
def demoRebound : List (Env × Op) :=
  demoAnnounce 1 "rk" "" "" :: demoRunJob 4 0 ++ demoBind 1 5 :: demoAction .activate 1 false :: demoRunJob 5 0

/-- After a provider call on a key with versions, which is refused, a secret below that key is lost. -/
theorem rebinding_loses_secret :
    let ops := demoReady ++ (demoEnv 0, .handle 3 0 0 true) :: demoRebound
    let w := worldAfter demo ops
    demo.aead.Strict ∧ Along (step demo) (Calls fun _ _ call => call.removesProvider = false) .init ops ∧
      ¬ (worldAfter demo demoReady).db.HasVersion demoVersion ∧
      (worldAfter demo (demoReady ++ [(demoEnv 0, .handle 3 0 0 true)])).db.HasVersion demoVersion ∧
      ∃ k ∈ w.db.keys.rows, k.id = demoVersion.keyID ∧ demo.Generates k.ident ∧ w.db.ActiveChain demo.fuel k ∧
        ∃ kv ∈ w.db.keyVersions.rows, kv.ident = demoVersion ∧ ∀ p ∈ demo.processor k.kind,
          resolveSecret demo.cluster w.cluster (unsealVia demo.cluster w.cluster demo.fuel demo.cfg.name) p kv =
            .error (.plain "failed to decrypt: cipher: message authentication failed") :=
  ⟨Aead.tagged_strict, by decide +kernel⟩

end Krypton
