import Krypton.Material

/-!
# Root keys and their providers

A root key seals with the provider that was bound to it: the root manager takes the spec from its vault and a label from
the key version. The root also lets a root key become active without a provider; such a key cannot seal.

* `specsUsable_change`, `numbered_change` — stored specs build their sealer, and versions are numbered from 1;
* `bound_key_seals` — a key that was bound and is active seals with each of its versions, unless its provider is
  removed.
-/

namespace Krypton

open Lib

/-! ## Specs and version numbers -/

/-- Every stored spec is a static secret of the right size. -/
def SpecsUsable (P : Process) (specs : SpecStore) : Prop :=
  ∀ ids spec, specs ids = some spec → spec.type = .staticSecret ∧ ∃ key, spec.getSealer P = .ok key

/-- The versions of each key are numbered from 1, in one revision. -/
structure Numbered (db : DB) (i : KeyVersionIdent) : Prop where
  nonzero : i.version ≠ 0
  revision : i.revision = 1
  first : ∃ j, db.HasVersion j ∧ j.tenantID = i.tenantID ∧ j.keyID = i.keyID ∧ j.version = 1

section
variable {R : RootProcess} {A : World → Env → AdminCall → Prop} {e : Env} {w w' : World} {db : DB}

/-- A spec that a request gives and that passes the checks builds its sealer. -/
theorem getSealer_of_validate {P : Process} {spec : SealerSpec} {raw : Bytes}
    (hc : spec.config = some (.staticSecret ⟨.inline, some (.inline (some raw))⟩)) (hv : spec.validate = .ok ()) :
    spec.getSealer P = .ok raw := by
  simp only [SealerSpec.validate, hc, SecretSpec.validate, bind_unit_eq_ok, check_eq_ok, decide_eq_true_eq] at hv
  obtain ⟨hname, -, hsecret⟩ := hv
  cases raw with
  | nil => cases hsecret
  | cons b bs =>
    simp only [SecretConfig.validate, check_eq_ok, decide_eq_true_eq] at hsecret
    unfold SealerSpec.getSealer
    rw [hc]
    refine bind_eq_ok.2 ⟨b :: bs, rfl, ?_⟩
    simp only [bind_unit_eq_ok, check_eq_ok, decide_eq_true_eq]
    exact ⟨hname, hsecret, rfl⟩

theorem SpecsUsable.set {P : Process} {tenantID keyID : String} {spec : SealerSpec} (h : SpecsUsable P w.specs)
    (ht : spec.type = .staticSecret) {key : Bytes} (hk : spec.getSealer P = .ok key) :
    SpecsUsable P (w.setSpec tenantID keyID (some spec)).specs := by
  intro ids sp hsp
  by_cases hids : ids = (tenantID, keyID)
  · rw [hids, World.setSpec_self] at hsp
    cases hsp
    exact ⟨ht, key, hk⟩
  · rw [World.setSpec_of_ne hids] at hsp
    exact h ids sp hsp

theorem specsUsable_change (hc : Change R A e w w') (h : SpecsUsable R.process w.specs) :
    SpecsUsable R.process w'.specs := by
  cases hc with
  | half _ hspec hvalid _ =>
    obtain ⟨ht, -, raw, hcfg⟩ := CreateProviderRequest.spec_ok hspec
    exact h.set ht (getSealer_of_validate hcfg hvalid)
  | bound _ hspec hvalid _ _ =>
    obtain ⟨ht, -, raw, hcfg⟩ := CreateProviderRequest.spec_ok hspec
    exact h.set ht (getSealer_of_validate hcfg hvalid)
  | reauthorized auth _ _ hspec =>
    obtain ⟨ht, key, hk⟩ := h _ _ hspec
    exact h.set ht hk
  | @removed tenantID keyID _ =>
    intro ids sp hsp
    by_cases hids : ids = (tenantID, keyID)
    · rw [hids, World.setSpec_self] at hsp
      cases hsp
    · rw [World.setSpec_of_ne hids] at hsp
      exact h ids sp hsp
  | _ => exact h

theorem numbered_change (hc : Change R A e w w') (h : ∀ i, w.db.HasVersion i → Numbered w.db i) :
    ∀ i, w'.db.HasVersion i → Numbered w'.db i := by
  intro i hi
  have hmono : ∀ {i}, Numbered w.db i → Numbered w'.db i := by
    rintro i ⟨h1, h2, j, hj, hrest⟩
    exact ⟨h1, h2, j, hc.keepsVersion hj, hrest⟩
  rcases hc.version_cases hi with hold | ⟨row, hadd, rfl⟩
  · exact hmono (h i hold)
  · cases hadd with
    | derived hd => exact ⟨Nat.one_ne_zero, rfl, _, hi, rfl, rfl, rfl⟩
    | @provider _ _ _ n _ _ _ row _ _ _ hn _ hins =>
      obtain ⟨hversion, hrevision, -⟩ := hins.columns
      have hversion : row.version = n := hversion
      rcases hn with hn | ⟨latest, hl, ht, hid, hn⟩
      · exact ⟨by change row.version ≠ 0; omega, hrevision, _, hi, rfl, rfl, hversion.trans hn⟩
      · obtain ⟨-, -, j, hj, hjt, hjk, hj1⟩ := h latest.ident ⟨latest, hl, rfl⟩
        exact ⟨by change row.version ≠ 0; omega, hrevision, j, hc.keepsVersion hj, hjt.trans ht, hjk.trans hid, hj1⟩

/-- With one revision each, version numbers identify the versions of a key. -/
theorem uniqueVersions_of_numbered (h : ∀ i, db.HasVersion i → Numbered db i) : db.UniqueVersions := by
  intro a ha b hb ht hk hv
  have hra := (h a.ident ⟨a, ha, rfl⟩).revision
  have hrb := (h b.ident ⟨b, hb, rfl⟩).revision
  exact DB.keyVersion_eq ha hb ht hk hv (hra.trans hrb.symm)

/-! ## Bound keys -/

/-- The key has a provider, and each of its versions has a label for it. -/
structure BoundKey (w : World) (tenantID keyID : String) : Prop where
  spec : ∃ spec, w.specs (tenantID, keyID) = some spec
  version : ∃ i, w.db.HasVersion i ∧ i.tenantID = tenantID ∧ i.keyID = keyID
  labels : ∀ i, w.db.HasVersion i → i.tenantID = tenantID → i.keyID = keyID → Labelled i.labels .staticSecret

theorem labelled_providerKeyVersion {tenantID keyID providerKeyID : String} {n : Nat} {t : SealerType}
    (hne : providerKeyID ≠ "") : Labelled (providerKeyVersion e tenantID keyID n t providerKeyID).labels t := by
  refine ⟨providerKeyID, hne, ?_⟩
  simp [providerKeyVersion, KeyVersion.withLabels, Labels.get]

/-- A version that is added to a key with versions has its label. -/
theorem Added.labelled {row : KeyVersion} (hadd : Added e w row) (hs : SpecsUsable R.process w.specs)
    (hv : ∃ i, w.db.HasVersion i ∧ i.tenantID = row.tenantID ∧ i.keyID = row.keyID) :
    Labelled row.labels .staticSecret := by
  cases hadd with
  | derived hd =>
    obtain ⟨_, ⟨r, hr, rfl⟩, ht, hid⟩ := hv
    exact absurd ⟨ht, hid⟩ (hd.first r hr)
  | provider _ hne _ ht hi =>
    obtain ⟨-, -, hlabels, -⟩ := hi.columns
    rw [hlabels]
    rcases ht with rfl | ⟨spec, hspec, rfl⟩
    · exact labelled_providerKeyVersion hne
    · rw [← (hs _ _ hspec).1]
      exact labelled_providerKeyVersion hne

theorem hasSpec_set {tenantID keyID : String} {spec : SealerSpec} {ids : String × String}
    (h : ∃ spec, w.specs ids = some spec) : ∃ sp, (w.setSpec tenantID keyID (some spec)).specs ids = some sp := by
  by_cases hids : ids = (tenantID, keyID)
  · rw [hids]
    exact ⟨spec, World.setSpec_self⟩
  · rwa [World.setSpec_of_ne hids]

/-- Without a removal, specs may change but stay. -/
theorem Change.keepsSpec (hc : Change R A e w w') (hA : ∀ tenantID keyID, ¬ A w e (.removeProvider tenantID keyID))
    {ids : String × String} (h : ∃ spec, w.specs ids = some spec) : ∃ spec, w'.specs ids = some spec := by
  cases hc with
  | half _ _ _ _ => exact hasSpec_set h
  | bound _ _ _ _ _ => exact hasSpec_set h
  | reauthorized _ _ _ _ => exact hasSpec_set h
  | removed hcall => exact absurd hcall (hA _ _)
  | _ => exact h

theorem boundKey_change {tenantID keyID : String} (hc : Change R A e w w')
    (hA : ∀ tenantID keyID, ¬ A w e (.removeProvider tenantID keyID)) (hs : SpecsUsable R.process w.specs)
    (h : BoundKey w tenantID keyID) : BoundKey w' tenantID keyID := by
  refine ⟨hc.keepsSpec hA h.spec, ?_, fun i hi ht hid => ?_⟩
  · obtain ⟨i, hi, hrest⟩ := h.version
    exact ⟨i, hc.keepsVersion hi, hrest⟩
  · rcases hc.version_cases hi with hold | ⟨row, hadd, rfl⟩
    · exact h.labels i hold ht hid
    · obtain ⟨j, hj, hjt, hjk⟩ := h.version
      exact hadd.labelled hs ⟨j, hj, hjt.trans ht.symm, hjk.trans hid.symm⟩

/-- A provider call that succeeds binds the key it names. -/
theorem CreateProviderEffect.boundKey {req : CreateProviderRequest} (h : CreateProviderEffect R e req w (.ok (), w'))
    (hn : ∀ i, w.db.HasVersion i → Numbered w.db i) (ht : Canonical req.tenantID) (hk : Canonical req.keyID) :
    BoundKey w' req.tenantID req.keyID := by
  cases h with
  | @bound spec providerKeyID k row db hspec _ _ _ hi =>
    obtain ⟨htype, hne, -⟩ := CreateProviderRequest.spec_ok hspec
    obtain ⟨hversion, hrevision, hlabels, -⟩ := hi.columns
    have hrt : row.tenantID = req.tenantID := Option.some.inj (hi.tenantID.symm.trans ht)
    have hrk : row.keyID = req.keyID := Option.some.inj (hi.keyID.symm.trans hk)
    have hnew : db.HasVersion row.ident := hi.hasVersion.2 (.inr rfl)
    refine ⟨⟨spec, World.setSpec_self⟩, ⟨row.ident, hnew, hrt, hrk⟩, fun i hiv hit hik => ?_⟩
    rcases hi.hasVersion.1 hiv with hold | rfl
    · -- a key with a version has version 1 already
      obtain ⟨-, -, _, ⟨first, hf, rfl⟩, hft, hfk, hf1⟩ := hn i hold
      have hfr := (hn first.ident ⟨first, hf, rfl⟩).revision
      exact absurd (hfr.trans hrevision.symm)
        (hi.fresh first hf (hft.trans (hit.trans hrt.symm)) (hfk.trans (hik.trans hrk.symm)) (hf1.trans hversion.symm))
    · change Labelled row.labels .staticSecret
      rw [hlabels, ← htype]
      exact labelled_providerKeyVersion hne

/-- What holds of provider specs, versions and tenants in every run. -/
structure ProviderInv (R : RootProcess) (s : RootState) : Prop where
  specs : SpecsUsable R.process s.world.specs
  versions : ∀ i, s.world.db.HasVersion i → Numbered s.world.db i
  tenants : TenantsStored s.world.db

theorem providerInv_step (s : RootState) (op : Env × Op) (h : ProviderInv R s) : ProviderInv R (step R s op) := by
  have hc : Change R (fun _ _ _ => True) op.1 s.world (step R s op).world := step_change s op fun _ _ => trivial
  exact ⟨specsUsable_change hc h.specs, numbered_change hc h.versions, tenantsStored_step s op h.tenants⟩

theorem providerInv_init : ProviderInv R .init where
  specs _ _ h := by cases h
  versions _ h := absurd h.choose_spec.1 List.not_mem_nil
  tenants _ h := absurd h List.not_mem_nil

theorem providerInv_run (R : RootProcess) (ops : List (Env × Op)) : ProviderInv R (run (step R) .init ops) :=
  run_inv_always providerInv_step providerInv_init ops

/-! ## Sealing -/

/-- Encryption fails on the request only. -/
theorem encrypt_error {C : Aead} {key nonce p aad : Bytes} {err : Err} (h : encrypt C key nonce p aad = .error err) :
    err.chain = [.request] := by
  unfold encrypt check at h
  split at h
  · split at h
    · cases h
    · cases h
      rfl
  · cases h
    rfl

/-- The root manager seals with every version of a bound key that is active. -/
theorem BoundKey.rootSeal {k : Key} (hb : BoundKey w k.tenantID k.id) (hs : SpecsUsable R.process w.specs)
    (hn : ∀ i, w.db.HasVersion i → Numbered w.db i) (ht : TenantsStored w.db) (hk : k ∈ w.db.keys.rows)
    (hact : k.lifeCycleState = .active) (hst : k.status = .completed) {kv : KeyVersion}
    (hkv : kv ∈ w.db.keyVersions.rows)
    (hkt : kv.tenantID = k.tenantID) (hkid : kv.keyID = k.id) (nonce payload aad : Bytes) :
    ∃ key, rootSeal R.cluster w.cluster nonce ⟨k.tenantID, k.id, kv.version, payload, aad⟩ =
      encrypt R.cluster.aead key nonce payload aad := by
  obtain ⟨spec, hspec⟩ := hb.spec
  obtain ⟨htype, key, hkey⟩ := hs _ _ hspec
  have hlabel : Labelled kv.labels spec.type := by
    rw [htype]
    exact hb.labels kv.ident ⟨kv, hkv, rfl⟩ hkt hkid
  have hroot : RootKeyAt R.cluster w.cluster k.tenantID k.id kv.version key :=
    ⟨(hn kv.ident ⟨kv, hkv, rfl⟩).nonzero, spec, hspec, hkey, kv, hkv, hkt, hkid, rfl, hlabel⟩
  have hready : RootReady w.cluster .encrypt k.tenantID k.id :=
    ⟨ht.validateTenant hk, k, DB.getKeyByID_of_mem hk, hst, KeyLifecycle.validateKeyUsage_encrypt.2 hact⟩
  refine ⟨key, ?_⟩
  unfold Krypton.rootSeal
  rw [hroot.sealerKey ⟨k.tenantID, k.id, kv.version, payload, aad⟩ (uniqueVersions_of_numbered hn) hready]
  rfl

end

/-! ## Runs -/

/-- The call removes a provider. -/
def AdminCall.removesProvider : AdminCall → Bool
  | .removeProvider _ _ => true
  | _ => false

/-- A call of the run that named the key as it is stored has bound a provider to it. -/
def Bound (R : RootProcess) (ops : List (Env × Op)) (k : Key) : Prop :=
  ∃ ops₁ e req ops₂, ops = ops₁ ++ (e, .admin (.createProvider req)) :: ops₂ ∧ req.tenantID = k.tenantID ∧
    req.keyID = k.id ∧ (createProvider R e req (worldAfter R ops₁)).1 = .ok ()

theorem Bound.boundKey {R : RootProcess} {ops : List (Env × Op)} {k : Key} (hb : Bound R ops k)
    (h : Along (step R) (Calls fun _ _ call => call.removesProvider = false) .init ops)
    (hk : k ∈ (worldAfter R ops).db.keys.rows) : BoundKey (worldAfter R ops) k.tenantID k.id := by
  obtain ⟨hcid, hct⟩ := DB.key_canonical hk
  obtain ⟨ops₁, e, req, ops₂, rfl, ht, hid, hok⟩ := hb
  refine run_after (I := ProviderInv R) (Q := fun s => BoundKey s.world k.tenantID k.id)
    (fun s op hI _ => providerInv_step s op hI) (fun s op hI hc hQ => ?_) (fun hI _ => ?_) providerInv_init h
  · exact boundKey_change (step_change s op hc) (fun _ _ h => nomatch h) hI.specs hQ
  · have heff : CreateProviderEffect R e req (worldAfter R ops₁) (createProvider R e req (worldAfter R ops₁)) :=
      createProvider_effect
    have hpair : createProvider R e req (worldAfter R ops₁) =
        (.ok (), (createProvider R e req (worldAfter R ops₁)).2) :=
      Prod.ext hok rfl
    rw [hpair] at heff
    rw [← ht, ← hid]
    exact heff.boundKey hI.versions (by rw [ht]; exact hct) (by rw [hid]; exact hcid)

/-- The errors of the root manager's sealer about a missing provider. -/
def providerErrors : List Sentinel := [.vaultKeyNotFound, .noProviderKeyVersion, .providerKeyLabelEmpty]

/-- **A bound root key can seal.** In every run that removes no provider, a key to which a provider was bound and that
is active and completed has its spec, each of its versions is labelled for it, and sealing with any of them does not
fail for want of a provider. -/
theorem bound_key_seals (R : RootProcess) (ops : List (Env × Op))
    (h : Along (step R) (Calls fun _ _ call => call.removesProvider = false) .init ops) (k : Key)
    (hk : k ∈ (worldAfter R ops).db.keys.rows) (hb : Bound R ops k) (hact : k.lifeCycleState = .active)
    (hst : k.status = .completed) :
    ∃ spec, (worldAfter R ops).specs (k.tenantID, k.id) = some spec ∧
      ∀ kv ∈ (worldAfter R ops).db.keyVersions.rows, kv.tenantID = k.tenantID → kv.keyID = k.id →
        Labelled kv.labels spec.type ∧ ∀ nonce payload aad err,
          rootSeal R.cluster (worldAfter R ops).cluster nonce ⟨k.tenantID, k.id, kv.version, payload, aad⟩ =
            .error err → ∀ s ∈ providerErrors, err.is s = false := by
  have hinv := providerInv_run R ops
  have hbound := hb.boundKey h hk
  obtain ⟨spec, hspec⟩ := hbound.spec
  refine ⟨spec, hspec, fun kv hkv hkt hkid => ⟨?_, fun nonce payload aad err herr s hs => ?_⟩⟩
  · rw [(hinv.specs _ _ hspec).1]
    exact hbound.labels kv.ident ⟨kv, hkv, rfl⟩ hkt hkid
  · obtain ⟨key, hseal⟩ := hbound.rootSeal hinv.specs hinv.versions hinv.tenants hk hact hst hkv hkt hkid
        nonce payload aad
    rw [hseal] at herr
    have hchain := encrypt_error herr
    unfold Err.is
    rw [hchain]
    revert s
    decide

/-- The root key is announced, bound and activated. -/
def demoBound : List (Env × Op) :=
  [demoCreateTenant, demoAnnounce 1 "rk" "" ""] ++ demoRunJob 0 0 ++
    demoBind 1 3 :: (demoAction .activate 1 false :: demoRunJob 1 0)

theorem demoBound_seals :
    ∃ k ∈ (worldAfter demo demoBound).db.keys.rows, k.lifeCycleState = .active ∧
      ∃ spec, (worldAfter demo demoBound).specs (k.tenantID, k.id) = some spec ∧
        ∀ kv ∈ (worldAfter demo demoBound).db.keyVersions.rows, kv.tenantID = k.tenantID → kv.keyID = k.id →
          Labelled kv.labels spec.type ∧ ∀ nonce payload aad err,
            rootSeal demo.cluster (worldAfter demo demoBound).cluster nonce ⟨k.tenantID, k.id, kv.version,
              payload, aad⟩ = .error err → ∀ s ∈ providerErrors, err.is s = false := by
  obtain ⟨k, hk, ht, hid, hact, hst⟩ : ∃ k ∈ (worldAfter demo demoBound).db.keys.rows,
      demoTenant = k.tenantID ∧ demoKey 1 = k.id ∧ k.lifeCycleState = .active ∧
        k.status = .completed := by decide +kernel
  refine ⟨k, hk, hact, bound_key_seals demo demoBound (by decide +kernel) k hk ?_ hact hst⟩
  exact ⟨[demoCreateTenant, demoAnnounce 1 "rk" "" ""] ++ demoRunJob 0 0, _, _, _, rfl, ht, hid, by rfl⟩

/-- A root key that was activated without a provider has no spec and cannot seal. -/
theorem unbound_root_key_cannot_seal :
    Along (step demo) (Calls fun _ _ call => call.removesProvider = false) .init demoActivated ∧
      ∃ k ∈ (worldAfter demo demoActivated).db.keys.rows,
        (∃ sp ∈ demo.cfg.hierarchy.findKeySpec k.kind, sp.role = .root) ∧
        k.lifeCycleState = .active ∧ k.status = .completed ∧
          (worldAfter demo demoActivated).specs (k.tenantID, k.id) = none ∧
          ∃ kv ∈ (worldAfter demo demoActivated).db.keyVersions.rows, kv.tenantID = k.tenantID ∧ kv.keyID = k.id ∧
            rootSeal demo.cluster (worldAfter demo demoActivated).cluster [] ⟨k.tenantID, k.id, kv.version, [1], []⟩ =
              .error (.of .vaultKeyNotFound) := by
  decide +kernel

end Krypton
