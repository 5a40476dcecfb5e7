import Krypton.Secrets

/-!
# The envelope round trip

A deployment of any number of nodes whose managers draw secrets and record key versions, while the root's provider keys
are rotated and the states of keys change (`Evolves`). Each secret is sealed under the secret of its key's parent,
which may be on another node, up to a root key.

* `Evolves.keeps` — no step loses what opening a secret needs, and every version keeps one revision;
* `evolves_run` — so it is for every sequence of steps;
* `envelope_round_trip` — a secret that was created and recorded is what its key exports when the keys above it are
  ready, and what the key seals with it, it unseals.
-/

namespace Krypton

open Lib

/-! ## Deployments that evolve -/

/-- The state after one node's database and the vaults were written; the node named `root` has the root's database. -/
def ClusterState.write (S : ClusterState) (root node : String) (db : DB) (vault : Vault) : ClusterState where
  rootDB := if node = root then db else S.rootDB
  db := Function.update S.db node db
  vault := vault
  specs := S.specs

/-- A manager draws the secret of a new version of a key, imports it and records the version. -/
structure Creates (C : Cluster) (root : String) (S : ClusterState) (node : String) (k : Key) (draw : SecretDraw)
    (kv : KeyVersion) (S' : ClusterState) : Prop where
  key : k ∈ (S.db node).keys.rows ∧ k.id = kv.keyID ∧ k.tenantID = kv.tenantID
  -- `NewKeyVersion` numbers from 1 and gives the first revision
  numbered : kv.version ≠ 0 ∧ kv.revision = 1
  made : ∃ fuel slot entry db, generateAndSealSecret C S fuel node k.kind draw kv kv.aad = .ok (slot, entry) ∧
    DB.KeyVersionInserted (S.db node) kv kv db ∧
      (∀ node' i p loc, ProcessorOf C S node' i p → p.vault = some loc → i.slot loc ≠ slot) ∧
        S' = S.write root node db (Function.update S.vault slot (some entry))

/-- A step of a deployment. -/
inductive Evolves (C : Cluster) (root : String) (S : ClusterState) : ClusterState → Prop where
  | created {node : String} {k : Key} {draw : SecretDraw} {kv : KeyVersion} {S' : ClusterState}
      (h : Creates C root S node k draw kv S') : Evolves C root S S'
  /-- `RotateProviderKey` on the root, whatever its outcome. -/
  | rotated (e : Env) (tenantID keyID : String) (choice : ProviderChoice String) :
      Evolves C root S
        (S.write root root (rotateProviderKey e tenantID keyID choice ⟨S.rootDB, S.vault, S.specs⟩).2.db S.vault)
  /-- Keys are added, and states of keys and versions change. -/
  | moved {S' : ClusterState} (hkey : ∀ node i, (S.db node).HasKey i → (S'.db node).HasKey i)
      (hversion : ∀ node i, (S.db node).HasVersion i ↔ (S'.db node).HasVersion i)
      (hroot : ∀ i, S.rootDB.HasVersion i ↔ S'.rootDB.HasVersion i) (hvault : S'.vault = S.vault)
      (hspecs : S'.specs = S.specs) (hsame : S'.db root = S'.rootDB) : Evolves C root S S'

/-- Every version of a database is in its first revision. -/
def DB.FirstRevisions (db : DB) : Prop := ∀ kv ∈ db.keyVersions.rows, kv.revision = 1

/-- What every step keeps: the root's database is that of the node named `root`, and versions have one revision. -/
structure ClusterState.Sound (S : ClusterState) (root : String) : Prop where
  rooted : S.db root = S.rootDB
  first : ∀ node, (S.db node).FirstRevisions

section
variable {C : Cluster} {root : String} {S S' : ClusterState}

theorem DB.FirstRevisions.unique {db : DB} (h : db.FirstRevisions) : db.UniqueVersions :=
  fun a ha b hb ht hk hv => keyVersion_eq ha hb ht hk hv ((h a ha).trans (h b hb).symm)

theorem ClusterState.Sound.unique (h : S.Sound root) : S.Unique := by
  refine ⟨?_, fun node => (h.first node).unique⟩
  rw [← h.rooted]
  exact (h.first root).unique

/-! ## One node is written -/

/-- What the new database of a node keeps, every database keeps. -/
theorem write_db {node node' : String} {db : DB} {vault : Vault} {P : DB → Prop} (h : P (S.db node) → P db)
    (hP : P (S.db node')) : P ((S.write root node db vault).db node') := by
  change P (Function.update S.db node db node')
  by_cases hn : node' = node
  · subst hn
    rw [Function.update_self]
    exact h hP
  · rwa [Function.update_of_ne hn]

theorem write_rooted {node : String} {db : DB} {vault : Vault} (h : S.db root = S.rootDB) :
    (S.write root node db vault).db root = (S.write root node db vault).rootDB := by
  change Function.update S.db node db root = if node = root then db else S.rootDB
  by_cases hn : node = root
  · subst hn
    simp
  · rw [if_neg hn, Function.update_of_ne (Ne.symm hn), h]

/-- The new database of a node keeps the keys and adds versions in their first revision; no stored secret is
overwritten. -/
structure Writes (C : Cluster) (S : ClusterState) (node : String) (db : DB) (vault : Vault) : Prop where
  keys : db.keys = (S.db node).keys
  versions : ∀ i, (S.db node).HasVersion i → db.HasVersion i
  added : ∀ kv ∈ db.keyVersions.rows, kv ∈ (S.db node).keyVersions.rows ∨ kv.revision = 1
  vault : ∀ node' i p loc, ProcessorOf C S node' i p → p.vault = some loc → vault (i.slot loc) = S.vault (i.slot loc)

theorem Writes.sound {node : String} {db : DB} {vault : Vault} (h : Writes C S node db vault) (hs : S.Sound root) :
    (S.write root node db vault).Sound root where
  rooted := write_rooted hs.rooted
  first node' := by
    refine write_db (P := DB.FirstRevisions) (fun hf kv hkv => ?_) (hs.first node')
    rcases h.added kv hkv with hkv | hrev
    · exact hf kv hkv
    · exact hrev

theorem Writes.extends {node : String} {db : DB} {vault : Vault} (h : Writes C S node db vault) (hs : S.Sound root) :
    Extends C S (S.write root node db vault) := by
  have hversion : ∀ node' i, (S.db node').HasVersion i → ((S.write root node db vault).db node').HasVersion i :=
    fun _ i => write_db (P := fun db => db.HasVersion i) (h.versions i)
  refine .of_kept (fun _ i => write_db (P := fun db => db.HasKey i) fun hk => hk.congr h.keys) hversion (fun i hi => ?_)
    h.vault fun _ _ spec hspec => ⟨spec, hspec, rfl, rfl⟩
  rw [← write_rooted hs.rooted]
  rw [← hs.rooted] at hi
  exact hversion root i hi

/-! ## No step loses anything -/

theorem Creates.writes {node : String} {k : Key} {draw : SecretDraw} {kv : KeyVersion}
    (h : Creates C root S node k draw kv S') :
    ∃ db vault, Writes C S node db vault ∧ S' = S.write root node db vault := by
  obtain ⟨fuel, slot, entry, db, -, hi, hfresh, rfl⟩ := h.made
  refine ⟨db, _, ⟨hi.keys, fun i hv => hi.hasVersion.2 (.inl hv), fun kv hkv => ?_, fun node' i p loc hproc hl => ?_⟩,
    rfl⟩
  · rcases hi.mem.1 hkv with hkv | rfl
    · exact .inl hkv
    · exact .inr h.numbered.2
  · exact Function.update_of_ne (hfresh node' i p loc hproc hl) _ _

theorem rotateProviderKey_writes (e : Env) (tenantID keyID : String) (choice : ProviderChoice String)
    (hs : S.Sound root) :
    Writes C S root (rotateProviderKey e tenantID keyID choice ⟨S.rootDB, S.vault, S.specs⟩).2.db S.vault := by
  have heff : RotateProviderKeyEffect e tenantID keyID ⟨S.rootDB, S.vault, S.specs⟩
    (rotateProviderKey e tenantID keyID choice ⟨S.rootDB, S.vault, S.specs⟩) := rotateProviderKey_effect
  generalize rotateProviderKey e tenantID keyID choice ⟨S.rootDB, S.vault, S.specs⟩ = out at heff
  cases heff with
  | refused =>
    exact ⟨by rw [hs.rooted], fun i h => by rwa [hs.rooted] at h, fun kv h => .inl (by rwa [hs.rooted]),
      fun _ _ _ _ _ _ => rfl⟩
  | rotated _ _ _ _ hi =>
    refine ⟨by rw [hs.rooted]; exact hi.keys, fun i h => hi.hasVersion.2 (.inl (by rwa [hs.rooted] at h)),
      fun kv hkv => ?_, fun _ _ _ _ _ _ => rfl⟩
    rcases hi.mem.1 hkv with hkv | rfl
    · exact .inl (by rwa [hs.rooted])
    · exact .inr hi.columns.2.1

/-- A step keeps the state sound and everything that opening a secret needs. -/
theorem Evolves.keeps (h : Evolves C root S S') (hs : S.Sound root) : S'.Sound root ∧ Extends C S S' := by
  cases h with
  | created h =>
    obtain ⟨db, vault, hw, rfl⟩ := h.writes
    exact ⟨hw.sound hs, hw.extends hs⟩
  | rotated e tenantID keyID choice =>
    have hw := rotateProviderKey_writes (C := C) e tenantID keyID choice hs
    exact ⟨hw.sound hs, hw.extends hs⟩
  | moved hkey hversion hroot hvault hspecs hsame =>
    refine ⟨⟨hsame, fun node kv hkv => ?_⟩,
      .of_kept hkey (fun node i => (hversion node i).1) (fun i => (hroot i).1) ?_ ?_⟩
    · obtain ⟨kv', hkv', hident⟩ := (hversion node kv.ident).2 ⟨kv, hkv, rfl⟩
      have hrev : kv'.revision = kv.revision := congrArg KeyVersionIdent.revision hident
      exact hrev.symm.trans (hs.first node kv' hkv')
    · intro _ _ _ _ _ _
      rw [hvault]
    · intro _ _ spec hspec
      exact ⟨spec, by rw [hspecs]; exact hspec, rfl, rfl⟩

theorem evolves_run (h : Relation.ReflTransGen (Evolves C root) S S') (hs : S.Sound root) :
    S'.Sound root ∧ Extends C S S' := by
  induction h with
  | refl => exact ⟨hs, .refl⟩
  | tail _ hstep ih =>
    obtain ⟨hs', hext⟩ := hstep.keeps ih.1
    exact ⟨hs', ih.2.trans hext⟩

/-- A secret opens once it is created and recorded. -/
theorem Creates.opens {node : String} {k : Key} {draw : SecretDraw} {kv : KeyVersion}
    (h : Creates C root S node k draw kv S') (hs : S.Sound root) : Opens C S' node kv.ident draw.secret := by
  obtain ⟨hs', hext⟩ := (Evolves.created h).keeps hs
  obtain ⟨fuel, slot, entry, db, hmade, hi, -, rfl⟩ := h.made
  obtain ⟨hk, hid, ht⟩ := h.key
  obtain ⟨p, hp, hcreate⟩ := generateAndSealSecret_ok hmade
  have hcreated := createSecret_ok hcreate
  obtain ⟨loc, hl, hslot⟩ := hcreated.vault
  have hdb : (S.write root node db (Function.update S.vault slot (some entry))).db node = db :=
    Function.update_self _ _ _
  refine hcreated.opens hext ⟨⟨?_, k.ident, ?_, hid, ht, hp⟩, hcreated.cryptor, loc, hl, ?_⟩
  · rw [hdb]
    exact hi.hasVersion.2 (.inr rfl)
  · rw [hdb]
    exact DB.HasKey.congr ⟨k, hk, rfl⟩ hi.keys
  · rw [hslot]
    exact Function.update_self _ _ _

end

/-- A request for a version number asks for this version: by its number, or for the latest when the key has no other. -/
def Names (db : DB) (i : KeyVersionIdent) (version : Nat) : Prop :=
  version = i.version ∨ version = 0 ∧ ∀ r ∈ db.keyVersions.rows,
    r.tenantID = i.tenantID → r.keyID = i.keyID → r.version = i.version

theorem Names.selects {db : DB} {i : KeyVersionIdent} {version : Nat} (h : Names db i version) (hu : db.UniqueVersions)
    (hv : i.version ≠ 0) : ∀ kv ∈ db.keyVersions.rows, kv.ident = i → db.Selects version kv := by
  rintro kv hkv rfl
  rcases h with rfl | ⟨rfl, honly⟩
  · exact hu.selects hkv hv
  · exact ⟨.inl rfl, fun r hr ht hk _ => hu r hr kv hkv ht hk (honly r hr ht hk)⟩

/-- **The envelope round trip.** In a deployment of any shape, take a secret that was created for a key and whose
version was recorded, and any later state in which the key and those above it are active with usable versions and the
root manager permits decryption. With enough depth for the chain, the key exports exactly that secret, under the
version's number and, when it has no other version, as the latest; and what it seals under that version, it unseals. -/
theorem envelope_round_trip (C : Cluster) (root : String) (S₀ S₁ S₂ S : ClusterState) (h₀ : S₀.Sound root)
    (h₁ : Relation.ReflTransGen (Evolves C root) S₀ S₁) (node : String) (k : Key) (draw : SecretDraw) (kv : KeyVersion)
    (hc : Creates C root S₁ node k draw kv S₂) (h₂ : Relation.ReflTransGen (Evolves C root) S₂ S)
    (hready : ChainReady C S node kv.ident) :
    ∃ n, ∀ fuel ≥ n,
      (∀ version, Names (S.db node) kv.ident version →
        exportSecret C S fuel node kv.tenantID kv.keyID version = .ok draw.secret) ∧
      ∀ p aad nonce, p ≠ [] → aad ≠ [] →
        ∃ c, managerSeal C S (unsealVia C S fuel) node nonce ⟨kv.tenantID, kv.keyID, kv.version, p, aad⟩ = .ok c ∧
          managerUnseal C S (unsealVia C S fuel) node ⟨kv.tenantID, kv.keyID, kv.version, c, aad⟩ = .ok p := by
  have hs₁ := (evolves_run h₁ h₀).1
  have hs₂ := ((Evolves.created hc).keeps hs₁).1
  obtain ⟨hs, hext⟩ := evolves_run h₂ hs₂
  have hopens := (hc.opens hs₁).mono hext
  obtain ⟨p, entry, hat⟩ := hopens.secretAt
  have hserves : ∀ {version}, Names (S.db node) kv.ident version →
      ∃ k' kv', kv'.ident = kv.ident ∧ Serves C S node kv.tenantID kv.keyID version k' kv' p :=
    fun hname => (hready.keys node kv.ident .refl).serves hat.processor (hname.selects (hs.unique.2 node) hc.numbered.1)
  obtain ⟨n, hn⟩ := (hopens.resolved hs.unique hready rfl hat.processor).resolveSecret
  refine ⟨n, fun fuel hfuel => ⟨fun version hname => ?_, fun pt aad nonce hp _ => ?_⟩⟩
  · obtain ⟨k', kv', hident, hserves⟩ := hserves hname
    exact exportSecret_eq_ok.2 ⟨k', kv', p, hserves, (resolveSecret_ident hident).trans (hn fuel hfuel)⟩
  obtain ⟨key, kv', hident, hserves⟩ := hserves (.inl rfl)
  have hsec := (resolveSecret_ident hident).trans (hn fuel hfuel)
  have henc : encrypt C.aead draw.secret nonce pt aad = .ok (C.aead.seal draw.secret nonce pt aad) :=
    encrypt_eq_ok.2 ⟨hp, draw.size, rfl⟩
  refine ⟨_, managerSeal_eq_ok.2 ⟨hc.numbered.1, key, kv', p, draw.secret, hserves, hsec, hat.cryptor, henc⟩, ?_⟩
  exact managerUnseal_eq_ok.2
    ⟨hc.numbered.1, key, kv', p, draw.secret, hserves, hsec, hat.cryptor, decrypt_encrypt henc⟩

/-- The small deployment before it draws the secret of the key below the root key. -/
def demoBefore : ClusterState := (worldAfter demo demoReady).cluster

def demoKeyVersion : KeyVersion :=
  ⟨demoTenant, demoKey 2, 1, 1, some (demoKey 1), some 1, .active, .usable, [], 0, 0⟩

theorem demoBefore_sound : demoBefore.Sound "root" := by
  have hfirst : demoBefore.rootDB.FirstRevisions := by unfold DB.FirstRevisions; decide +kernel
  exact ⟨rfl, fun _ => hfirst⟩

/-- The version below the root key's version is ready when its key is active and the root manager permits decryption. -/
theorem chainReady_underRoot {C : Cluster} {S : ClusterState} {node : String} {i : KeyVersionIdent} {p : Processor}
    (hproc : ProcessorOf C S node i p) (hp : p.parent = .rootManager) (hu : UsableAt S node i)
    (hr : ∀ pid, i.parentKeyID = some pid → RootReady S .decrypt i.tenantID pid) : ChainReady C S node i := by
  have hstop : ∀ target j, Relation.ReflTransGen (ParentOf C S) (node, i) (target, j) → (target, j) = (node, i) := by
    intro target j hup
    rcases Relation.ReflTransGen.cases_head hup with h | ⟨y, ⟨q, hq, -, -, -, hreach⟩, -⟩
    · exact h.symm
    · rw [hproc.unique hq] at hreach
      exact absurd hp hreach.ne_rootManager
  refine ⟨fun target j hup => ?_, fun target j q pid hup _ _ hpid => ?_⟩
  · cases hstop target j hup
    exact hu
  · cases hstop target j hup
    exact hr pid hpid

/-- The small deployment draws and records the secret. -/
theorem demo_creates : ∃ k S, Creates demo.cluster "root" demoBefore "root" k (demoEnv 0).draw demoKeyVersion S ∧
    ChainReady demo.cluster S "root" demoKeyVersion.ident := by
  obtain ⟨k, hk, hid, ht, hkind, hact⟩ : ∃ k ∈ demoBefore.rootDB.keys.rows,
      k.id = demoKey 2 ∧ k.tenantID = demoTenant ∧ k.kind = "kek" ∧ k.lifeCycleState = .active := by decide +kernel
  obtain ⟨⟨slot, entry⟩, hgen⟩ : ∃ x,
      generateAndSealSecret demo.cluster demoBefore demo.fuel "root" "kek" (demoEnv 0).draw
      demoKeyVersion demoKeyVersion.aad = .ok x := exists_of_isOk (by decide +kernel)
  obtain ⟨db, hdb⟩ : ∃ db, demoBefore.rootDB.createKeyVersion demoKeyVersion = .ok db :=
    exists_of_isOk (by decide +kernel)
  obtain ⟨row, hi⟩ := DB.createKeyVersion_ok hdb
  have hrow : row = demoKeyVersion := by
    have h1 : row.tenantID = demoTenant := Option.some.inj (hi.tenantID.symm.trans (by decide +kernel))
    have h2 : row.keyID = demoKey 2 := Option.some.inj (hi.keyID.symm.trans (by decide +kernel))
    have h3 : row.parentKeyID = some (demoKey 1) := hi.parentKeyID.1.symm.trans (by decide +kernel)
    rw [hi.row_eq, h1, h2, h3]
    rfl
  subst hrow
  obtain ⟨p, hp, hcreate⟩ := generateAndSealSecret_ok hgen
  obtain ⟨loc', -, rfl⟩ := (createSecret_ok hcreate).vault
  have hother : ∀ r ∈ demoBefore.rootDB.keyVersions.rows, r.keyID ≠ demoKey 2 := by decide +kernel
  have hroot : p.parent = .rootManager := by
    cases hp
    rfl
  -- the rows are rewritten, for unification would run the deployment
  have hdb₀ : ∀ node, demoBefore.db node = demoBefore.rootDB := fun _ => rfl
  have hkeys : ∀ r ∈ demoBefore.rootDB.keys.rows, r ∈ db.keys.rows := by
    intro r hr
    rw [hi.keys]
    exact hr
  have hkey : k ∈ (demoBefore.db "root").keys.rows := by
    rw [hdb₀]
    exact hk
  refine ⟨k, _, ⟨⟨hkey, hid, ht⟩, ⟨by decide, rfl⟩, demo.fuel, _, entry, db, by rw [hkind]; exact hgen, hi, ?_, rfl⟩,
    chainReady_underRoot (p := p) ⟨?_, k.ident, ?_, hid,
      ht, by rw [← hp, ← hkind]; rfl⟩ hroot ⟨?_, k, ?_, hid, ht, hact⟩ ?_⟩
  · rintro node' _ q loc ⟨⟨r, hr, rfl⟩, -⟩ - hslot
    rw [hdb₀] at hr
    exact hother r hr (congrArg VaultKey.keyID hslot)
  · exact hi.hasVersion.2 (.inr rfl)
  · exact DB.HasKey.congr ⟨k, hk, rfl⟩ hi.keys
  · exact ⟨demoKeyVersion, hi.mem.2 (.inr rfl), rfl, rfl⟩
  · exact hkeys k hk
  · rintro pid ⟨⟩
    obtain ⟨r, hr, hrid, hrt, hrst, hract⟩ : ∃ r ∈ demoBefore.rootDB.keys.rows,
      r.id = demoKey 1 ∧ r.tenantID = demoTenant ∧ r.status = .completed ∧
        r.lifeCycleState = .active := by decide +kernel
    obtain ⟨t, ht, htid⟩ : ∃ t ∈ demoBefore.rootDB.tenants.rows, uuidIn demoTenant = some t.id := by decide +kernel
    have htenant : t ∈ db.tenants.rows := by
      rw [hi.tenants]
      exact ht
    refine ⟨Validator.validateTenant_ok.2 ⟨t, DB.getTenant_of_mem htenant htid⟩, r, ?_, hrst, ?_⟩
    · have hfound := DB.getKeyByID_of_mem (hkeys r hr)
      rwa [hrid, hrt] at hfound
    · rw [hract]
      rfl

theorem demo_round_trip : ∃ S n, ∀ fuel ≥ n, exportSecret demo.cluster S fuel "root" demoTenant (demoKey 2) 1 =
    .ok (List.replicate 32 7) := by
  obtain ⟨k, S, hc, hready⟩ := demo_creates
  obtain ⟨n, hn⟩ := envelope_round_trip demo.cluster "root" demoBefore demoBefore S S demoBefore_sound .refl "root" k
    (demoEnv 0).draw demoKeyVersion hc .refl hready
  exact ⟨S, n, fun fuel hfuel => (hn fuel hfuel).1 1 (.inl rfl)⟩

end Krypton
