import Krypton.Kmip
import Krypton.Secrets

/-!
# Tenant isolation

Whatever a manager or the KMIP front end does for a tenant only reads what belongs to this tenant. The proof compares
two states that agree on the tenant: every lookup on the way up to the root key is by the tenant of the rows found so
far.

* `getTenant_agree`, `getKeyByID_agree`, `listKeyVersions_agree` — lookups for the tenant agree;
* `AgreesOn.unsealVia` — so does the recursion over parents;
* `tenant_isolation` — and every call for the tenant; a KMIP request for another tenant does not get that far.
-/

namespace Krypton

open Lib

/-! ## Lookups -/

/-- Two databases have the same rows of a tenant. -/
structure DB.Agrees (t : String) (db db' : DB) : Prop where
  tenants : db'.tenants.rows.filter (fun r => r.id == t) = db.tenants.rows.filter (fun r => r.id == t)
  keys : db'.keys.rows.filter (fun r => r.tenantID == t) = db.keys.rows.filter (fun r => r.tenantID == t)
  keyVersions : db'.keyVersions.rows.filter (fun r => r.tenantID == t) =
    db.keyVersions.rows.filter (fun r => r.tenantID == t)

instance (t : String) (db db' : DB) : Decidable (DB.Agrees t db db') :=
  decidable_of_iff (_ ∧ _ ∧ _) ⟨fun h => ⟨h.1, h.2.1, h.2.2⟩, fun h => ⟨h.tenants, h.keys, h.keyVersions⟩⟩

/-- Rows that meet a condition are found among those that meet a weaker one. -/
theorem find?_filter_imp {α : Type} {p q : α → Bool} (h : ∀ a, p a = true → q a = true) (l : List α) :
    (l.filter q).find? p = l.find? p := by
  rw [List.find?_filter]
  refine congrArg (fun f => List.find? f l) (funext fun a => ?_)
  cases hp : p a with
  | true => simp [h a hp]
  | false => simp

theorem filter_filter_imp {α : Type} {p q : α → Bool} (h : ∀ a, p a = true → q a = true) (l : List α) :
    (l.filter q).filter p = l.filter p := by
  rw [List.filter_filter]
  refine List.filter_congr fun a _ => ?_
  cases hp : p a with
  | true => rw [h a hp]; rfl
  | false => rfl

section
variable {tenantID : String} {db db' : DB}

theorem getTenant_agree (h : ∀ t, uuidIn tenantID = some t → db.Agrees t db') :
    db'.getTenant tenantID = db.getTenant tenantID := by
  unfold DB.getTenant
  cases hp : Uuid.parse tenantID with
  | none => rfl
  | some u =>
    dsimp only
    rw [← find?_filter_imp (q := fun r => r.id == u.text) (fun _ h => h) db'.tenants.rows,
      (h u.text (Uuid.parse_eq_some.1 hp)).tenants,
      find?_filter_imp (q := fun r => r.id == u.text) (fun _ h => h) db.tenants.rows]

theorem getKeyByID_agree (h : ∀ t, uuidIn tenantID = some t → db.Agrees t db') (id : String) :
    db'.getKeyByID id tenantID = db.getKeyByID id tenantID := by
  unfold DB.getKeyByID
  cases hp : keyParams id tenantID with
  | error e => rfl
  | ok x =>
    obtain ⟨i, u⟩ := x
    have himp : ∀ r : Key, (r.id == i.text && r.tenantID == u.text) = true → (r.tenantID == u.text) = true :=
      fun r hr => (Bool.and_eq_true_iff.1 hr).2
    dsimp only
    rw [← find?_filter_imp himp db'.keys.rows, (h u.text (keyParams_ok.1 hp).2).keys,
      find?_filter_imp himp db.keys.rows]

theorem listKeyVersions_agree {q : DB.ListKeyVersionsQuery} (h : ∀ t, uuidIn q.tenantID = some t → db.Agrees t db') :
    db'.listKeyVersions q = db.listKeyVersions q := by
  unfold DB.listKeyVersions
  cases hp : q.params with
  | error e => rfl
  | ok x =>
    obtain ⟨u, k⟩ := x
    have himp : ∀ r : KeyVersion, q.selects u k r = true → (r.tenantID == u.text) = true := by
      intro r hr
      simp only [DB.ListKeyVersionsQuery.selects, Bool.and_eq_true] at hr
      exact hr.1.1.1.1
    dsimp only
    rw [← filter_filter_imp himp db'.keyVersions.rows, (h u.text (DB.params_ok hp).1).keyVersions,
      filter_filter_imp himp db.keyVersions.rows]

end

/-! ## Managers -/

/-- Two states have the same rows, vault entries and provider specs of a tenant. -/
structure AgreesOn (t : String) (S S' : ClusterState) : Prop where
  rootDB : S.rootDB.Agrees t S'.rootDB
  db : ∀ node, (S.db node).Agrees t (S'.db node)
  vault : ∀ slot : VaultKey, slot.tenantID = t → S'.vault slot = S.vault slot
  specs : ∀ keyID, S'.specs (t, keyID) = S.specs (t, keyID)

/-- The ways to reach a parent answer requests of a tenant alike. -/
def SameAnswers (t : String) (up up' : String → Caller) : Prop :=
  ∀ node ref req, req.tenantID = t → up' node ref req = up node ref req

section
variable {C : Cluster} {S S' : ClusterState} {t tenantID : String} {node : String} {up up' : String → Caller}

theorem resolveActiveKey_agree (h : ∀ t, uuidIn tenantID = some t → AgreesOn t S S') (node keyID : String)
    (version : Nat) :
    resolveActiveKey (S'.db node) tenantID keyID version = resolveActiveKey (S.db node) tenantID keyID version := by
  have hdb : ∀ t, uuidIn tenantID = some t → (S.db node).Agrees t (S'.db node) := fun t ht => (h t ht).db node
  unfold resolveActiveKey resolveUsableKeyVersion
  dsimp only
  rw [listKeyVersions_agree hdb, getKeyByID_agree hdb]

theorem AgreesOn.resolveSecret (h : AgreesOn t S S') (hup : SameAnswers t up up') (node : String) (p : Processor)
    {kv : KeyVersion} (hkv : kv.tenantID = t) :
    resolveSecret C S' (up' node) p kv = resolveSecret C S (up node) p kv := by
  unfold Krypton.resolveSecret callParent
  cases p.vault with
  | none => rfl
  | some loc =>
    dsimp only
    rw [h.vault (kv.slot loc) hkv]
    cases S.vault (kv.slot loc) with
    | none => rfl
    | some entry =>
      cases kv.parentKeyID with
      | none => rfl
      | some pid =>
        dsimp only
        rw [hup node p.parent ⟨kv.tenantID, pid, kv.parentKeyVersion.getD 0, entry.material, entry.aad⟩ hkv]

theorem resolveProcessorAndSecret_agree (h : ∀ t, uuidIn tenantID = some t → AgreesOn t S S' ∧ SameAnswers t up up')
    (node keyID : String) (version : Nat) :
    resolveProcessorAndSecret C S' up' node tenantID keyID version =
      resolveProcessorAndSecret C S up node tenantID keyID version := by
  have hkey := resolveActiveKey_agree (fun t ht => (h t ht).1) node keyID version
  refine resolveProcessorAndSecret_congr hkey fun k kv p hserves => ?_
  -- the version found belongs to the tenant of the request
  obtain ⟨hagree, hup⟩ := h _ hserves.version.2.1
  exact hagree.resolveSecret hup node p rfl

theorem managerUnseal_agree (node : String) (req : SealRequest)
    (h : ∀ t, uuidIn req.tenantID = some t → AgreesOn t S S' ∧ SameAnswers t up up') :
    managerUnseal C S' up' node req = managerUnseal C S up node req := by
  unfold managerUnseal
  rw [resolveProcessorAndSecret_agree h]

/-- The root manager looks its spec up by the text of the tenant, which is the stored one here. -/
theorem AgreesOn.rootUnseal (h : AgreesOn t S S') (req : SealRequest) (ht : Canonical t) (hreq : req.tenantID = t) :
    rootUnseal C S' req = rootUnseal C S req := by
  have hdb : ∀ u, uuidIn t = some u → S.rootDB.Agrees u S'.rootDB := by
    intro u hu
    rw [← Option.some.inj (ht.symm.trans hu)]
    exact h.rootDB
  unfold Krypton.rootUnseal rootSealerKey Validator.validateTenant Validator.validateKeyUsage exportSpec
    resolveLabel fetchOne
  rw [hreq, getTenant_agree hdb, getKeyByID_agree hdb, h.specs,
    listKeyVersions_agree (q := ⟨t, req.keyID, req.keyVersion, none, none, [.revisionDesc]⟩) hdb]

theorem reach_tenantID {ref : SealerRef} {req req' : SealRequest} {target : String}
    (h : reach C node ref req = .ok (target, req')) : req'.tenantID = req.tenantID := by
  cases ref with
  | rootManager =>
    cases h
    rfl
  | self =>
    cases h
    rfl
  | rpc name =>
    obtain ⟨v, -, -, rfl⟩ := reach_ok (by nofun) h
    rfl

/-- The recursion over parents stays with the tenant. -/
theorem AgreesOn.unsealVia (h : AgreesOn t S S') (ht : Canonical t) (fuel : Nat) :
    SameAnswers t (unsealVia C S fuel) (unsealVia C S' fuel) := by
  induction fuel with
  | zero => exact fun _ _ _ _ => rfl
  | succ fuel ih =>
    intro node ref req hreq
    rw [Krypton.unsealVia, Krypton.unsealVia]
    split
    · exact h.rootUnseal req ht hreq
    · cases hreach : reach C node ref req with
      | error e => rfl
      | ok x =>
        obtain ⟨target, req'⟩ := x
        refine managerUnseal_agree target req' fun u hu => ?_
        rw [reach_tenantID hreach, hreq] at hu
        rw [← Option.some.inj (ht.symm.trans hu)]
        exact ⟨h, ih⟩

end

/-- **Tenant isolation.** In two states that agree on a tenant, exporting, describing and unsealing for this tenant give
the same result, and so does every KMIP request on a connection of this tenant. A KMIP request for another tenant is
refused without a look at the state. -/
theorem tenant_isolation (C : Cluster) (h : KeyHierarchy) (S S' : ClusterState) (t : String)
    (hagree : ∀ u, uuidIn t = some u → AgreesOn u S S') (fuel : Nat) (node : String) :
    (∀ keyID version, atVersion t keyID version (exportSecret C S' fuel node t keyID) =
      atVersion t keyID version (exportSecret C S fuel node t keyID)) ∧
    (∀ keyID version, atVersion t keyID version (describeKey C h S' node t keyID) =
      atVersion t keyID version (describeKey C h S node t keyID)) ∧
    (∀ keyID version payload aad,
      atVersion t keyID version (fun v => managerUnseal C S' (unsealVia C S' fuel) node ⟨t, keyID, v, payload, aad⟩) =
        atVersion t keyID version (fun v => managerUnseal C S (unsealVia C S fuel) node ⟨t, keyID, v, payload, aad⟩)) ∧
    (∀ conn req, conn.commonName = some t →
      kmipHandle C h S' fuel node conn req = kmipHandle C h S fuel node conn req) ∧
    ∀ conn req id, conn.commonName = some t → parseIdentifier req.uniqueIdentifier = some id → id.tenantID ≠ t →
      ∀ S, kmipHandle C h S fuel node conn req = .error ⟨.permissionDenied, "permission denied"⟩ := by
  have hboth : ∀ u, uuidIn t = some u → AgreesOn u S S' ∧ SameAnswers u (unsealVia C S fuel) (unsealVia C S' fuel) :=
    fun u hu => ⟨hagree u hu, (hagree u hu).unsealVia (uuidIn_idem hu) fuel⟩
  have hexport : ∀ keyID, exportSecret C S' fuel node t keyID = exportSecret C S fuel node t keyID := by
    intro keyID
    funext v
    unfold exportSecret
    rw [resolveProcessorAndSecret_agree hboth]
  have hdescribe : ∀ keyID, describeKey C h S' node t keyID = describeKey C h S node t keyID := by
    intro keyID
    funext v
    unfold describeKey
    rw [resolveActiveKey_agree hagree]
  refine ⟨fun keyID v => by rw [hexport], fun keyID v => by rw [hdescribe], fun keyID v payload aad => ?_,
    fun conn req hcn => ?_, fun conn req id hcn hid hother S => ?_⟩
  · simp only [managerUnseal_agree node ⟨t, keyID, _, payload, aad⟩ hboth]
  · unfold kmipHandle
    cases hauth : authorizeIdentifier conn req.uniqueIdentifier with
    | error e => rfl
    | ok id =>
      have hid : id.tenantID = t := authorizeIdentifier_ok hauth hcn
      cases req with
      | get uid =>
        have hget : handleGet C S' fuel node conn uid id = handleGet C S fuel node conn uid id := by
          unfold handleGet
          rw [hid, hexport]
        exact congrArg (Except.mapError toKMIPError) hget
      | getAttributes uid names =>
        have hattributes : handleGetAttributes C h S' node uid names id =
            handleGetAttributes C h S node uid names id := by
          unfold handleGetAttributes
          rw [hid, hdescribe]
        exact congrArg (Except.mapError toKMIPError) hattributes
  · unfold kmipHandle
    obtain ⟨fault, hauth, hfault⟩ := authorizeIdentifier_other hcn hid hother
    rw [hauth, ← hfault]
    rfl

/-- The small deployment, with another tenant. -/
def demoCrowded : ClusterState :=
  let db := (worldAfter demo (demoReady ++
      [(demoEnv 0, .handle 3 0 0 true), (demoEnv 4, .admin (.createTenant "other" []))])).db
  { demoServing with rootDB := db, db := fun _ => db }

def demoClient : Connection := ⟨some demoTenant, true, false⟩

def demoGet : KmipRequest := .get (demoTenant ++ ":" ++ demoKey 2 ++ ":1")

theorem demoCrowded_get : demoCrowded.rootDB.tenants.rows ≠ demoServing.rootDB.tenants.rows ∧
    ∃ out, kmipHandle demo.cluster demoHierarchy demoServing demo.fuel "root" demoClient demoGet = .ok out ∧
      kmipHandle demo.cluster demoHierarchy demoCrowded demo.fuel "root" demoClient demoGet = .ok out := by
  obtain ⟨hrows, hdb⟩ : demoCrowded.rootDB.tenants.rows ≠ demoServing.rootDB.tenants.rows ∧
      demoServing.rootDB.Agrees demoTenant demoCrowded.rootDB := by
    decide +kernel
  have hagree : ∀ u, uuidIn demoTenant = some u → AgreesOn u demoServing demoCrowded := by
    intro u hu
    obtain rfl : demoTenant = u := Option.some.inj
        ((by decide +kernel : uuidIn demoTenant = some demoTenant).symm.trans hu)
    exact ⟨hdb, fun _ => hdb, fun _ _ => by simp only [demoCrowded], fun _ => by simp only [demoCrowded]⟩
  obtain ⟨out, hout⟩ : ∃ out, kmipHandle demo.cluster demoHierarchy demoServing demo.fuel "root" demoClient demoGet =
      .ok out :=
    exists_of_isOk (by decide +kernel)
  refine ⟨hrows, out, hout, ?_⟩
  rw [(tenant_isolation demo.cluster demoHierarchy demoServing demoCrowded demoTenant hagree demo.fuel "root").2.2.2.1
    demoClient demoGet rfl]
  exact hout

end Krypton
