import Krypton.Fleet
import Krypton.Processable
import Krypton.RootKey

/-!
# What the agents accept

The root checks the calls of the administrator, an agent checks what the root's handlers send to it, and the two sets of
checks are written apart. The root looks neither at the name of a new tenant nor at labels, and leaves the text of a
parent to its database; an agent refuses blank names, reserved labels and texts that `uuid.Parse` does not read, for
good.

* `Requested` — where the keys that handlers send come from;
* `sent_validate_iff` — a request that a handler sends passes the agent's checks exactly when it is `Plain`;
* `sent_accepted` — all of them pass, when no tenant is created and no key announced with what an agent refuses.
-/

namespace Krypton

open Lib Validator

/-! ## What an agent refuses -/

/-- The name, the labels and the parent of the request are such that an agent takes them. -/
def AgentRequest.Plain : AgentRequest → Prop
  | .upsertTenant req => isBlank req.name = false ∧ req.labels.hasReserved = none
  | .upsertKey req => req.labels.hasReserved = none ∧ isValidUUID req.parentID = true
  | .upsertKeyVersion _ => True

/-- The call gives a tenant, or a key of an agent, only a name, labels and a parent's text that an agent takes. -/
def AdminCall.Plain (R : RootProcess) : AdminCall → Prop
  | .createTenant name labels => isBlank name = false ∧ labels.hasReserved = none
  | .announceKey req => req.targetName ≠ "" → req.targetName ≠ R.cfg.name →
      req.labels.hasReserved = none ∧ (req.parentID = "" ∨ isValidUUID req.parentID = true)
  | _ => True

instance (R : RootProcess) : ∀ call, Decidable (AdminCall.Plain R call)
  | .createTenant _ _ => inferInstanceAs (Decidable (_ ∧ _))
  | .announceKey _ => inferInstanceAs (Decidable (_ → _))
  | .keyAction _ _ | .createProvider _ | .rotateAuth _ _ _ | .rotateProviderKey _ _ _ | .removeProvider _ _ =>
    inferInstanceAs (Decidable True)

theorem validateUserLabels_ok {labels : Labels} : validateUserLabels labels = .ok () ↔ labels.hasReserved = none := by
  unfold validateUserLabels
  split <;> rename_i h <;> simp [h]

/-! ## Keys -/

/-- A key as an allowed announce has asked for it, under some spelling of its identifiers. -/
structure Requested (R : RootProcess) (A : World → Env → AdminCall → Prop) (k : Key) : Prop where
  id : isValidUUID k.id = true
  tenantID : isValidUUID k.tenantID = true
  source : ∃ w e req, A w e (.announceKey req) ∧ validateKeyAnnounceRequest req.input R.cfg = .ok () ∧
    validateKeyHierarchy (announcedKey R e req) R.cfg.hierarchy w.db = .ok () ∧
    (k.parentID = none ↔ (announcedKey R e req).parentID = none) ∧
    (∀ p, k.parentID = some p → isValidUUID p = true ∨ (announcedKey R e req).parentID = some p) ∧ k.name = req.name ∧
      k.kind = req.kind ∧
    k.managedBy = (announcedKey R e req).managedBy ∧ k.labels = req.labels

section
variable {R : RootProcess} {A : World → Env → AdminCall → Prop} {e : Env} {w w' : World} {db : DB} {k : Key}

theorem Requested.of_ident {k' : Key} (h : Requested R A k) (hident : k.ident = k'.ident) : Requested R A k' := by
  simp only [Key.ident, KeyIdent.mk.injEq] at hident
  obtain ⟨hid, ht, hname, hkind, hparent, hby, hlabels, -⟩ := hident
  obtain ⟨h1, h2, w, e, req, hA, hreq, hh, h3⟩ := h
  rw [hparent, hname, hkind, hby, hlabels] at h3
  exact ⟨hid ▸ h1, ht ▸ h2, w, e, req, hA, hreq, hh, h3⟩

theorem validateKeyAnnounceRequest_given {input : AnnounceInput} {cfg : RootConfig}
    (h : validateKeyAnnounceRequest input cfg = .ok ()) :
    isValidUUID input.tenantID = true ∧ input.name ≠ "" ∧ input.keyKind ≠ "" := by
  simp only [validateKeyAnnounceRequest, bind_unit_eq_ok, check_eq_ok, decide_eq_true_eq] at h
  exact ⟨h.1, h.2.1, h.2.2.1⟩

theorem requested_announcedKey {req : AnnounceKeyRequest} (hA : A w e (.announceKey req))
    (hreq : validateKeyAnnounceRequest req.input R.cfg = .ok ())
    (hh : validateKeyHierarchy (announcedKey R e req) R.cfg.hierarchy w.db = .ok ()) :
    Requested R A (announcedKey R e req) :=
  ⟨isValidUUID_of_canonical e.uuid.canonical, (validateKeyAnnounceRequest_given hreq).1,
    w, e, req, hA, hreq, hh, Iff.rfl, fun _ => .inr, rfl, rfl, rfl, rfl⟩

/-- The key under another identifier. -/
theorem Requested.withID (h : Requested R A k) {id : String} (hid : isValidUUID id = true) :
    Requested R A { k with id } := ⟨hid, h.tenantID, h.source⟩

/-- The stored row of a key that was announced. -/
theorem NewKey.requested {req : AnnounceKeyRequest} {db' : DB} (hA : A w e (.announceKey req))
    (h : NewKey R e req w.db k db') : Requested R A k := by
  obtain ⟨hid, ht, ⟨hbind, hnone⟩, hrow, -⟩ := h.inserted
  refine ⟨isValidUUID_of_canonical (uuidIn_idem hid), isValidUUID_of_canonical (uuidIn_idem ht),
    w, e, req, hA, h.request, h.hierarchy, hnone.symm, fun p hp => ?_, ?_⟩
  · obtain ⟨p', -, hp'⟩ := Option.bind_eq_some_iff.1 (hbind.trans hp)
    exact .inl (isValidUUID_of_canonical (uuidIn_idem hp'))
  · rw [hrow]
    exact ⟨rfl, rfl, rfl, rfl⟩

/-- The job of an announce is about a requested key. -/
theorem AnnounceKeyEffect.requested {req : AnnounceKeyRequest} {r : Except Err Key} {gs : List JobGroup}
    (h : AnnounceKeyEffect R e req w (r, gs, w')) (hA : A w e (.announceKey req)) :
    ∀ jobs ∈ gs, ∀ job ∈ jobs, ∀ key, job = .announce key → Requested R A key := by
  cases h with
  | refused => nofun
  | accepted hreq _ hh hu =>
    intro jobs hjobs job hjob key hkey
    rw [List.mem_singleton.1 hjobs, List.mem_singleton, hkey] at hjob
    cases hjob
    have hk := requested_announcedKey hA hreq hh
    cases hu with
    | inserted _ => exact hk
    | adopted hk₀ _ => exact hk.withID (isValidUUID_of_canonical (DB.key_canonical hk₀).1)

theorem AdminCall.requested (call : AdminCall) (hA : A w e call) :
    ∀ jobs ∈ (call.run R e w).1, ∀ job ∈ jobs, ∀ key, job = .announce key → Requested R A key := by
  cases call with
  | announceKey req => exact AnnounceKeyEffect.requested announceKey_effect hA
  | keyAction action req =>
    rintro jobs hjobs job hjob key rfl
    have heff : ActionEffect e action req w (Krypton.keyAction e action req w) := keyAction_effect
    change jobs ∈ (Krypton.keyAction e action req w).2.1 at hjobs
    generalize Krypton.keyAction e action req w = out at heff hjobs
    cases heff with
    | refused => cases hjobs
    | accepted _ _ _ =>
      rw [List.mem_singleton.1 hjobs] at hjob
      obtain ⟨_, -, -, h⟩ := mem_jobsOf.1 hjob
      cases h
  | _ => nofun

/-- A key of an agent names its agent and its parent. -/
theorem Requested.remote (hcfg : R.cfg.Accepted) (h : Requested R A k) (hby : k.managedBy ≠ R.cfg.name) :
    k.managedBy ≠ "" ∧ ∃ p, k.parentID = some p := by
  obtain ⟨w, e, req, -, hreq, hh, hparent, -, -, -, hman, -⟩ := h.source
  rcases validateKeyAnnounceRequest_target hreq with ⟨htarget, -⟩ | ⟨htarget, seg, hseg, -, hc⟩
  · exact absurd (hman.trans (if_pos htarget)) hby
  · refine ⟨by rw [hman]; exact (if_neg htarget).trans_ne htarget, ?_⟩
    obtain ⟨sp, hsp, ⟨-, hrole⟩ | ⟨-, p, _, _, hsome, -⟩⟩ := validateKeyHierarchy_ok hh
    · exact absurd hrole ((hcfg.agent hseg).role _ sp hc hsp)
    · cases hk : k.parentID with
      | none => cases hsome.symm.trans (hparent.1 hk)
      | some p => exact ⟨p, rfl⟩

/-- A key of an agent is sent with what the agent asks for, but for its labels and the text of its parent. -/
theorem Requested.validate_iff (hcfg : R.cfg.Accepted) (h : Requested R A k) (hby : k.managedBy ≠ R.cfg.name) :
    (AgentRequest.upsertKey k.upsertRequest).validate = .ok () ↔ (AgentRequest.upsertKey k.upsertRequest).Plain := by
  obtain ⟨hne, p, hp⟩ := h.remote hcfg hby
  obtain ⟨_, _, req, -, hreq, -, -, -, hname, hkind, -⟩ := h.source
  obtain ⟨-, hname', hkind'⟩ := validateKeyAnnounceRequest_given hreq
  simp only [AgentRequest.validate, AgentRequest.Plain, validateKeyUpsert, Key.upsertRequest, bind_unit_eq_ok,
    check_eq_ok, decide_eq_true_eq, validateUserLabels_ok, hp, Option.getD_some]
  exact ⟨fun h => ⟨h.2, h.1.2.2.2.2.2⟩,
    fun hl => ⟨⟨h.tenantID, h.id, hkind ▸ hkind', hname ▸ hname', hne, hl.2⟩, hl.1⟩⟩

/-! ## Versions -/

/-- The versions of parents that the stored versions name fit the column. -/
def ParentsBounded (db : DB) : Prop := ∀ i, db.HasVersion i → ∀ v, i.parentKeyVersion = some v → v < intBound

theorem version_lt {kv : KeyVersion} (h : kv ∈ db.keyVersions.rows) : kv.version < intBound ∧ kv.revision < intBound :=
  (db.keyVersions.ok_of_mem h).2.2.2

theorem ParentVersion.lt {version : Option Nat} (h : ParentVersion db k version) {v : Nat} (hv : version = some v) :
    v < intBound := by
  rcases h with ⟨-, rfl⟩ | ⟨pkv, hmem, -, -, -, -, rfl⟩
  · cases hv
  · cases hv
    exact (version_lt hmem).1

theorem parentsBounded_change (hc : Change R A e w w') (h : ParentsBounded w.db) : ParentsBounded w'.db := by
  intro i hi v hv
  rcases hc.version_cases hi with hold | ⟨row, hadd, rfl⟩
  · exact h i hold v hv
  · cases hadd with
    | derived hd => exact hd.parent.lt hv
    | provider _ _ _ _ hins =>
      have hv : row.parentKeyVersion = some v := hv
      rw [hins.row_eq] at hv
      cases hv

/-- A version whose numbers fit their columns is sent with all that an agent asks for. -/
theorem KeyVersion.validate_upsertRequest {kv : KeyVersion} (ht : isValidUUID kv.tenantID = true)
    (hid : isValidUUID kv.keyID = true) (hv : 0 < kv.version ∧ kv.version < intBound)
    (hr : 0 < kv.revision ∧ kv.revision < intBound) (hp : ∀ p, kv.parentKeyID = some p → isValidUUID p = true)
    (hpv : ∀ v, kv.parentKeyVersion = some v → v < intBound) :
    (AgentRequest.upsertKeyVersion kv.upsertRequest).validate = .ok () := by
  have hparent : kv.parentKeyID.getD "" = "" ∨ isValidUUID (kv.parentKeyID.getD "") = true := by
    cases hk : kv.parentKeyID with
    | none => exact .inl rfl
    | some p => exact .inr (hp p hk)
  have hbound : kv.parentKeyVersion.getD 0 < intBound := by
    cases hk : kv.parentKeyVersion with
    | none => decide
    | some v => exact hpv v hk
  simp only [AgentRequest.validate, validateUpsertKeyVersionRequest, KeyVersion.upsertRequest, bind_unit_eq_ok,
    check_eq_ok, decide_eq_true_eq, Bool.or_eq_true, toInt32_of_lt hv.2, toInt32_of_lt hr.2, toInt32_of_lt hbound]
  exact ⟨⟨ht, hid, by omega, by omega, hparent, by omega⟩, rfl⟩

/-- The version that a task works on is sent with all that an agent asks for. -/
theorem VersionChange.validate {kv : KeyVersion} {isNew : Bool} {db' : DB} (hk : k ∈ db.keys.rows)
    (hnum : ∀ i, db.HasVersion i → Numbered db i) (hpar : ParentsBounded db) (h : VersionChange e k db kv isNew db') :
    (AgentRequest.upsertKeyVersion kv.upsertRequest).validate = .ok () := by
  obtain ⟨hid, ht⟩ := DB.key_canonical hk
  cases h with
  | @existing kv _ hh _ =>
    have hstored : db.HasVersion kv.ident := ⟨kv, hh.mem, rfl⟩
    obtain ⟨hver, hrev, -⟩ := hnum _ hstored
    have hrev : kv.revision = 1 := hrev
    refine KeyVersion.validate_upsertRequest (isValidUUID_of_canonical (hh.tenantID ▸ ht))
      (isValidUUID_of_canonical (hh.keyID ▸ hid)) ⟨Nat.pos_of_ne_zero hver, (version_lt hh.mem).1⟩
      ⟨by change 0 < kv.revision; omega, (version_lt hh.mem).2⟩ (fun p hp => ?_) (hpar _ hstored)
    exact isValidUUID_of_canonical ((db.keyVersions.ok_of_mem hh.mem).2.2.1 p hp)
  | fresh _ hp _ =>
    have hone : 0 < 1 ∧ 1 < intBound := by decide
    exact KeyVersion.validate_upsertRequest (isValidUUID_of_canonical ht) (isValidUUID_of_canonical hid) hone hone
      (fun p hp => isValidUUID_of_canonical (key_parent_canonical hk hp)) fun v hv => hp.lt hv

/-! ## Tenants -/

/-- Tenants have what an allowed `CreateTenant` has given them. -/
def TenantsRequested (A : World → Env → AdminCall → Prop) (db : DB) : Prop :=
  ∀ t ∈ db.tenants.rows, ∃ w e, A w e (.createTenant t.name t.labels)

theorem createTenant_requested {name : String} {labels : Labels} (hA : A w e (.createTenant name labels))
    (h : TenantsRequested A w.db) : TenantsRequested A (createTenant e name labels w).2.db := by
  unfold createTenant
  dsimp only
  split
  · exact h
  · split
    · exact h
    · rename_i db hu
      intro t ht
      rcases DB.mem_upsertTenant hu ht with hold | ⟨hname, hlabels⟩
      · exact h t hold
      · rw [hname, hlabels]
        exact ⟨w, e, hA⟩

theorem AdminCall.tenantsRequested (call : AdminCall) (hA : A w e call) (h : TenantsRequested A w.db) :
    TenantsRequested A (call.run R e w).2.db := by
  by_cases hc : ∃ name labels, call = .createTenant name labels
  · obtain ⟨name, labels, rfl⟩ := hc
    exact createTenant_requested hA h
  · unfold TenantsRequested
    rw [call.tenants fun name labels h => hc ⟨name, labels, h⟩]
    exact h

theorem tenantsRequested_step (s : RootState) (op : Env × Op) (hA : Calls A s op) (h : TenantsRequested A s.world.db) :
    TenantsRequested A (step R s op).world.db := by
  have hkeep : ∀ {w w' : World}, w'.db.tenants = w.db.tenants → TenantsRequested A w.db → TenantsRequested A w'.db := by
    intro w w' heq h t ht
    exact h t (heq ▸ ht)
  exact step_world_inv (I := fun w => TenantsRequested A w.db) (fun w e call hI hA => call.tenantsRequested hA hI)
    (fun _ _ _ _ _ hI heff => hkeep heff.tenants hI) (fun _ _ _ _ _ hI heff => hkeep heff.tenants hI)
    (fun _ _ _ _ _ _ hI heff => hkeep heff.tenants hI) s op h hA

/-! ## What handlers send -/

/-- What the root keeps, and will have its handlers send, comes from allowed calls. -/
structure SendInv (R : RootProcess) (A : World → Env → AdminCall → Prop) (s : RootState) : Prop where
  tenants : TenantsRequested A s.world.db
  keys : ∀ k ∈ s.world.db.keys.rows, Requested R A k
  numbered : ∀ i, s.world.db.HasVersion i → Numbered s.world.db i
  parents : ParentsBounded s.world.db
  jobs : AllJobs (fun job => ∀ key, job = .announce key → Requested R A key)
    (fun t => ∀ key, t = .announce key → Requested R A key) s.groups

theorem sendInv_init : SendInv R A .init where
  tenants _ ht := absurd ht List.not_mem_nil
  keys _ hk := absurd hk List.not_mem_nil
  numbered _ hi := absurd hi.choose_spec.1 List.not_mem_nil
  parents _ hi := absurd hi.choose_spec.1 List.not_mem_nil
  jobs _ hG := absurd hG List.not_mem_nil

theorem sendInv_step (s : RootState) (op : Env × Op) (h : SendInv R A s) (hA : Calls A s op) :
    SendInv R A (step R s op) where
  tenants := tenantsRequested_step s op hA h.tenants
  keys := by
    intro k hk
    rcases step_growsKeysBy s op hA k hk with ⟨k₀, hk₀, hident⟩ | ⟨req, hreq, hnew⟩
    · exact (h.keys k₀ hk₀).of_ident hident
    · exact hnew.requested hreq
  numbered := numbered_change (step_change s op hA) h.numbered
  parents := parentsBounded_change (step_change s op hA) h.parents
  jobs := by
    refine step_jobs_inv (fun job tasks hj hres => announce_resolve hj hres) h.jobs fun call hop => ?_
    exact call.requested (hA call (by rw [hop]; rfl))

/-- The request of a handler carries a tenant, a key or a version that the root keeps. -/
inductive Carries (R : RootProcess) (A : World → Env → AdminCall → Prop) (w : World) (node : String) :
    AgentRequest → Prop where
  | tenant {t : Tenant} (h : t ∈ w.db.tenants.rows) : Carries R A w node (.upsertTenant t.upsertRequest)
  | key {k : Key} (h : Requested R A k) (hby : k.managedBy = node) : Carries R A w node (.upsertKey k.upsertRequest)
  | version {kv : KeyVersion} (h : (AgentRequest.upsertKeyVersion kv.upsertRequest).validate = .ok ()) :
      Carries R A w node (.upsertKeyVersion kv.upsertRequest)

theorem SendInv.carries {s : RootState} (h : SendInv R A s) {t : RootTask}
    (ht : ∀ key, t = .announce key → Requested R A key) {site : RpcSite} {agent id : String} {req : AgentRequest}
    (hreq : t.request e s.world site = some (agent, req, id)) : Carries R A s.world agent req := by
  cases t with
  | announce key =>
    cases site <;> dsimp only [RootTask.request] at hreq
    · split at hreq
      · rename_i tenant hfound
        cases hreq
        exact .tenant (DB.getTenant_ok hfound).1
      · cases hreq
    · split at hreq
      · cases hreq
        exact .key (ht key rfl) rfl
      · cases hreq
    · cases hreq
  | action a kid =>
    cases site <;> dsimp only [RootTask.request] at hreq
    · cases hreq
    · split at hreq
      · rename_i key hfound
        split at hreq
        · cases hreq
          exact .key (h.keys key (DB.getKeyByID_ok hfound).1) rfl
        · cases hreq
      · cases hreq
    · split at hreq
      · rename_i key hfound
        have hk := (DB.getKeyByID_ok hfound).1
        split at hreq
        · split at hreq
          · rename_i kv isNew hres
            cases hreq
            have hends := ends_resolveKeyVersions (e := e) (s := s.world.session) hk
            unfold Tx.Ends at hends
            rw [hres] at hends
            obtain ⟨_, _, _, heq, -, hv⟩ | ⟨_, heq, -⟩ := hends
            · cases heq
              exact .version (hv.validate hk h.numbered h.parents)
            · cases heq
          · cases hreq
        · cases hreq
      · cases hreq

/-- **When an agent refuses.** What a handler sends passes the agent's checks exactly when its name, its labels
and its parent do. -/
theorem sent_validate_iff (hcfg : R.cfg.Accepted) {s : RootState} (h : SendInv R A s) {t : RootTask}
    (ht : ∀ key, t = .announce key → Requested R A key) {site : RpcSite} {agent id : String} {req : AgentRequest}
    (hs : t.sends R e s.world site = some (agent, req, id)) : req.validate = .ok () ↔ req.Plain := by
  obtain ⟨hreq, hp⟩ := Option.filter_eq_some_iff.1 hs
  simp only [Bool.and_eq_true, decide_eq_true_eq] at hp
  cases h.carries ht hreq with
  | @tenant t hmem =>
    simp only [AgentRequest.validate, AgentRequest.Plain, validateUpsertTenant, Tenant.upsertRequest, bind_unit_eq_ok,
      check_eq_ok, validateUserLabels_ok, Bool.not_eq_true']
    have hid : isValidUUID t.id = true := isValidUUID_of_canonical (s.world.db.tenants.ok_of_mem hmem)
    exact ⟨fun h => ⟨h.1.2, h.2⟩, fun h => ⟨⟨hid, h.1⟩, h.2⟩⟩
  | key hk hby => exact hk.validate_iff hcfg (hby ▸ hp.1)
  | version hv => exact ⟨fun _ => trivial, fun _ => hv⟩

end

/-- What comes from plain calls is plain. -/
theorem Carries.plain {R : RootProcess} (hcfg : R.cfg.Accepted) {w : World} {agent : String} {req : AgentRequest}
    (ht : TenantsRequested (fun _ _ call => call.Plain R) w.db) (hby : agent ≠ R.cfg.name)
    (h : Carries R (fun _ _ call => call.Plain R) w agent req) : req.Plain := by
  cases h with
  | tenant hmem =>
    obtain ⟨_, _, hplain⟩ := ht _ hmem
    exact hplain
  | key hk hman =>
    obtain ⟨-, p, hp⟩ := hk.remote hcfg (hman.trans_ne hby)
    obtain ⟨_, e, areq, hplain, -, -, -, hparent, -, -, hby', hlabels⟩ := hk.source
    have htarget : areq.targetName ≠ "" := fun h => hby (hman.symm.trans (hby'.trans (if_pos h)))
    have heq : (announcedKey R e areq).managedBy = areq.targetName := if_neg htarget
    obtain ⟨hfree, htext⟩ := hplain htarget fun h => hby (hman.symm.trans (hby'.trans (heq.trans h)))
    simp only [AgentRequest.Plain, Key.upsertRequest, hlabels, hp, Option.getD_some]
    refine ⟨hfree, (hparent p hp).elim id fun hreq => ?_⟩
    -- the key still carries the text of the request
    have hparentID : (if areq.parentID = "" then none else some areq.parentID) = some p := hreq
    rw [Option.ite_none_left_eq_some, Option.some.injEq] at hparentID
    exact hparentID.2 ▸ htext.resolve_left hparentID.1
  | version _ => trivial

/-- **What the root accepts the agents accept.** In every run in which no tenant is created, and no key announced for an
agent, with a name, labels or a parent's text that an agent refuses, what the root's handlers send passes the agents'
checks. -/
theorem sent_accepted (R : RootProcess) (hv : R.cfg.validate = .ok ()) (ops : List (Env × Op))
    (h : Along (step R) (Calls fun _ _ call => call.Plain R) .init ops) (e : Env) (g i n : Nat) (t : RootTask)
    (ht : (run (step R) .init ops).taskAt g i n = some t) (site : RpcSite) (agent id : String) (req : AgentRequest)
    (hs : t.sends R e (worldAfter R ops) site = some (agent, req, id)) : req.validate = .ok () := by
  have hinv : SendInv R (fun _ _ call => call.Plain R) (run (step R) .init ops) := run_inv sendInv_step sendInv_init h
  obtain ⟨G, j, st, hG, hj, ht⟩ := taskAt_eq_some ht
  have hkey := (hinv.jobs G (List.mem_of_getElem? hG) j (List.mem_of_getElem? hj)).2 (t, st) (List.mem_of_getElem? ht)
  refine (sent_validate_iff (RootConfig.accepted_of_validate hv) hinv hkey hs).2 ?_
  obtain ⟨hreq, hp⟩ := Option.filter_eq_some_iff.1 hs
  simp only [Bool.and_eq_true, decide_eq_true_eq] at hp
  exact (hinv.carries hkey hreq).plain (RootConfig.accepted_of_validate hv) hinv.tenants hp.1

/-- A transport key is announced for the agent, and its job waits for its task to be delivered. -/
def demoTekAnnounced (labels : Labels) (parentID : String) : List (Env × Op) :=
  demoKekAnnounced ++ [(demoEnv 3, .admin (.announceKey { demoTekRequest with labels, parentID })),
    (demoEnv 0, .confirmJob 2 0 true), (demoEnv 0, .resolveTasks 2 0)]

theorem demoTek_accepted : ∃ t req,
    (run (step demo) .init (demoTekAnnounced [("env", "prod")] (demoKey 2))).taskAt 2 0 0 = some t ∧
    (t.sends demo (demoEnv 0) (worldAfter demo (demoTekAnnounced [("env", "prod")] (demoKey 2))) .upsertKey).map
      (·.2.1) = some req ∧ req.validate = .ok () := by
  obtain ⟨t, ht⟩ := Option.isSome_iff_exists.1 (show ((run (step demo) .init
    (demoTekAnnounced [("env", "prod")] (demoKey 2))).taskAt 2 0 0).isSome = true by decide +kernel)
  have hsome : (((run (step demo) .init (demoTekAnnounced [("env", "prod")] (demoKey 2))).taskAt 2 0 0).bind fun t =>
      t.sends demo (demoEnv 0) (worldAfter demo (demoTekAnnounced [("env", "prod")] (demoKey 2))) .upsertKey).isSome =
        true := by
    decide +kernel
  rw [ht] at hsome
  obtain ⟨⟨agent, req, id⟩, hs⟩ := Option.isSome_iff_exists.1 hsome
  have hs : t.sends demo (demoEnv 0) (worldAfter demo (demoTekAnnounced [("env", "prod")] (demoKey 2))) .upsertKey =
    some (agent, req, id) := hs
  exact ⟨t, req, ht, by rw [hs]; rfl,
    sent_accepted demo (by decide +kernel) _ (by decide +kernel) (demoEnv 0) 2 0 0 t ht .upsertKey agent id req hs⟩

/-- The same for a tenant whose name is a blank. -/
def demoBlankTenant : List (Env × Op) :=
  (demoEnv 0, .admin (.createTenant " " [])) :: (demoTekAnnounced [] (demoKey 2)).tail

/-- The requests that the handler of the task at the end of a run sends to the agent at a site. -/
def demoSent (ops : List (Env × Op)) (site : RpcSite) : Option AgentRequest :=
  ((run (step demo) .init ops).taskAt 2 0 0).bind fun t =>
    (t.sends demo (demoEnv 0) (worldAfter demo ops) site).map (·.2.1)

/-- The root takes a key with a reserved label, a tenant with a blank name, and a parent whose text has a hyphen after
every four digits; the agent refuses all three. -/
theorem accepted_then_refused :
    (∃ req, demoSent (demoTekAnnounced [("krypton:origin", "root")] (demoKey 2)) .upsertKey = some req ∧
      req.validate ≠ .ok ()) ∧ (∃ req, demoSent demoBlankTenant .upsertTenant = some req ∧ req.validate ≠ .ok ()) ∧
      ∃ req, demoSent (demoTekAnnounced [] "0000-0000-0000-4000-8000-0000-0000-0002") .upsertKey = some req ∧
        req.validate ≠ .ok () := by
  have hrefused : ∀ {o : Option AgentRequest}, (o.any fun req => !req.validate.isOk) = true →
      ∃ req, o = some req ∧ req.validate ≠ .ok () := by
    intro o ho
    cases o with
    | none => cases ho
    | some req => exact ⟨req, rfl, fun hok => by simp [hok, Except.isOk, Except.toBool] at ho⟩
  exact ⟨hrefused (by decide +kernel), hrefused (by decide +kernel), hrefused (by decide +kernel)⟩

end Krypton
