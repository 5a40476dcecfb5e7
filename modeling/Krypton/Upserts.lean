import Krypton.Fleet

/-!
# What an upsert leaves behind

An upsert of a key inserts it or adopts a stored key of the same name; an upsert of a version inserts it or sets the two
states of the stored one. Only part of what is stored is compared with what is asked for, so an answer `ok` says less
than that the request is what is stored now.

* `Upserted.stored_iff`, `VersionUpserted.stored_iff` — when the database has what was asked for;
* `upsert_stored_iff` — the two for the requests at an agent;
* `announced_agrees_iff` — when the key that an announce reports and schedules is the stored one.
-/

namespace Krypton

open Lib

/-! ## Requests at an agent -/

/-- The database has the key as the request gives it. Identifiers are compared by value. -/
def UpsertKeyRequest.Stored (req : UpsertKeyRequest) (db : DB) : Prop :=
  ∃ r ∈ db.keys.rows, uuidIn req.tenantID = some r.tenantID ∧ uuidIn req.keyID = some r.id ∧ r.kind = req.kind ∧
    r.name = req.name ∧ r.parentID = uuidIn req.parentID ∧ r.managedBy = req.managedBy ∧
    r.lifeCycleState = req.lifecycleState

/-- The version is the one of the request. -/
def UpsertKeyVersionRequest.Names (req : UpsertKeyVersionRequest) (r : KeyVersion) : Prop :=
  uuidIn req.tenantID = some r.tenantID ∧ uuidIn req.keyID = some r.keyID ∧ (r.version : Int) = req.version ∧
    (r.revision : Int) = req.revision

/-- The parent of the version is the one of the request; an empty identifier and the version 0 stand for none. -/
def UpsertKeyVersionRequest.SameParent (req : UpsertKeyVersionRequest) (r : KeyVersion) : Prop :=
  r.parentKeyID = (if req.parentID = "" then none else uuidIn req.parentID) ∧
    r.parentKeyVersion = if req.parentVersion = 0 then none else some req.parentVersion.toNat

def UpsertKeyVersionRequest.Stored (req : UpsertKeyVersionRequest) (db : DB) : Prop :=
  ∃ r ∈ db.keyVersions.rows, req.Names r ∧ req.SameParent r ∧ r.lifeCycleState = req.lifecycleState ∧
    r.processingState = req.processingState

/-- The requested key or key version is stored as requested. -/
def AgentRequest.Stored (db : DB) : AgentRequest → Prop
  | .upsertTenant _ => True
  | .upsertKey req => req.Stored db
  | .upsertKeyVersion req => req.Stored db

/-- A stored key that passes for the requested one has its identifier; a stored version of the request has its
parent. -/
def AgentRequest.Fits (db : DB) : AgentRequest → Prop
  | .upsertTenant _ => True
  | .upsertKey req => ∀ r ∈ db.keys.rows, r.tenantID = req.tenantID → r.name = req.name → uuidIn req.keyID = some r.id
  | .upsertKeyVersion req => ∀ r ∈ db.keyVersions.rows, req.Names r → req.SameParent r

instance (req : UpsertKeyRequest) (db : DB) : Decidable (req.Stored db) := inferInstanceAs (Decidable (∃ _ ∈ _, _))

instance (req : UpsertKeyVersionRequest) (r : KeyVersion) : Decidable (req.Names r) :=
  inferInstanceAs (Decidable (_ ∧ _))

instance (req : UpsertKeyVersionRequest) (r : KeyVersion) : Decidable (req.SameParent r) :=
  inferInstanceAs (Decidable (_ ∧ _))

instance (req : UpsertKeyVersionRequest) (db : DB) : Decidable (req.Stored db) :=
  inferInstanceAs (Decidable (∃ _ ∈ _, _))

instance (db : DB) : (req : AgentRequest) → Decidable (req.Fits db)
  | .upsertTenant _ => isTrue trivial
  | .upsertKey _ | .upsertKeyVersion _ => inferInstanceAs (Decidable (∀ _ ∈ _, _))

section
variable {e : Env} {db db' : DB}

theorem Key.isSame_iff {k k' : Key} : k.isSame k' = true ↔ k.parentID = k'.parentID ∧ k.name = k'.name ∧
    k.tenantID = k'.tenantID ∧ k.managedBy = k'.managedBy ∧ k.kind = k'.kind := by
  simp [Key.isSame, and_assoc]

/-- After an upsert the key is stored as requested, exactly if a key of that name had the requested identifier. -/
theorem Upserted.stored_iff {req : UpsertKeyRequest} {k : Key} (h : Upserted e (req.key e) db k db') :
    req.Stored db' ↔ (AgentRequest.upsertKey req).Fits db := by
  cases h with
  | @inserted row _ hi =>
    obtain ⟨hkind, hname, hby, -, hlc, -, -⟩ := hi.columns
    constructor
    · intro _ r hr ht hn
      have hcan : some r.tenantID = some row.tenantID := by
        rw [← hi.tenantID]
        exact ((DB.key_canonical hr).2.symm.trans (congrArg uuidIn ht))
      exact absurd (hn.trans hname.symm) (hi.name_fresh hr (Option.some.inj hcan))
    · intro _
      exact ⟨row, hi.mem.2 (.inr rfl), hi.tenantID, hi.id, hkind, hname, hi.parentID.1.symm, hby, hlc⟩
  | @adopted k hk hsame =>
    obtain ⟨hparent, hname, htenant, hby, hkind⟩ := Key.isSame_iff.1 hsame
    constructor
    · rintro ⟨r', hr', ht', hid', -, hn', -⟩ r hr ht hn
      obtain ⟨r₀, hr₀, rfl⟩ := DB.mem_markKeys.1 hr'
      -- the two rows have the name of the request
      have hname₀ : r₀.name = r.name := (congrArg KeyIdent.name DB.markKey_ident).symm.trans (hn'.trans hn.symm)
      have htenant₀ : r₀.tenantID = r.tenantID := by
        have hcan : uuidIn req.tenantID = some r.tenantID := ht ▸ (DB.key_canonical hr).2
        exact (congrArg KeyIdent.tenantID DB.markKey_ident).symm.trans (Option.some.inj (ht'.symm.trans hcan))
      obtain rfl := DB.key_eq_of_name hr₀ hr htenant₀ hname₀
      rwa [DB.markKey_id] at hid'
    · intro hfits
      refine ⟨DB.stateOf req.lifecycleState .completed e.now k, ?_, ?_, hfits k hk htenant hname, hkind, hname,
        ?_, hby, rfl⟩
      · exact DB.mem_markKeys.2 ⟨k, hk, DB.markKey_of_mem (List.mem_singleton_self _)⟩
      · rw [show req.tenantID = k.tenantID from htenant.symm]
        exact (DB.key_canonical hk).2
      · have hcan : Canonical req.parentID := (db.keys.ok_of_mem hk).2.2 req.parentID hparent
        exact hparent.trans hcan.symm

theorem UpsertKeyVersionRequest.Names.unique {req : UpsertKeyVersionRequest} {r r' : KeyVersion} (h : req.Names r)
    (h' : req.Names r') : r.tenantID = r'.tenantID ∧ r.keyID = r'.keyID ∧ r.version = r'.version ∧
      r.revision = r'.revision := by
  obtain ⟨ht, hk, hv, hr⟩ := h
  obtain ⟨ht', hk', hv', hr'⟩ := h'
  exact ⟨Option.some.inj (ht.symm.trans ht'), Option.some.inj (hk.symm.trans hk'), by omega, by omega⟩

/-- After an upsert the version is stored as requested, exactly if a stored version of the request had its parent. -/
theorem VersionUpserted.stored_iff {req : UpsertKeyVersionRequest} (hv : 0 ≤ req.version) (hr : 0 ≤ req.revision)
    (h : VersionUpserted e (req.keyVersion e) db db') : req.Stored db' ↔
      (AgentRequest.upsertKeyVersion req).Fits db := by
  have hversion : ((req.keyVersion e).version : Int) = req.version := Int.toNat_of_nonneg hv
  have hrevision : ((req.keyVersion e).revision : Int) = req.revision := Int.toNat_of_nonneg hr
  cases h with
  | @inserted row hi =>
    obtain ⟨hvrow, hrrow, -, hlc, hps⟩ := hi.columns
    have hnames : req.Names row := ⟨hi.tenantID, hi.keyID, by rw [hvrow, hversion], by rw [hrrow, hrevision]⟩
    constructor
    · intro _ r hr hn
      obtain ⟨h1, h2, h3, h4⟩ := hn.unique hnames
      exact absurd h4 (hi.fresh r hr h1 h2 h3)
    · intro _
      refine ⟨row, hi.mem.2 (.inr rfl), hnames, ⟨?_, ?_⟩, hlc, hps⟩
      · rw [← hi.parentKeyID.1]
        dsimp only [UpsertKeyVersionRequest.keyVersion]
        split <;> rfl
      · rw [hi.row_eq]
        rfl
  | @updated old ht hk hvold hrold hu =>
    have hnames : req.Names old := ⟨ht, hk, by rw [hvold, hversion], by rw [hrold, hrevision]⟩
    constructor
    · rintro ⟨r', hr', hn', hp', -⟩ r hr hn
      obtain ⟨r₀, hr₀, rfl⟩ := hu.mem_iff.1 hr'
      have hnames₀ : req.Names r₀ := by
        split at hn' <;> exact hn'
      have hparent₀ : req.SameParent r₀ := by
        split at hp' <;> exact hp'
      obtain ⟨h1, h2, h3, h4⟩ := hn.unique hnames₀
      rwa [DB.keyVersion_eq hr hr₀ h1 h2 h3 h4]
    · intro hfits
      refine ⟨_, hu.mem_iff.2 ⟨old, hu.mem, rfl⟩, ?_⟩
      rw [if_pos rfl]
      exact ⟨hnames, hfits old hu.mem hnames, rfl, rfl⟩

end

/-- **What an answered upsert has stored.** After a request that an agent answers `ok`, the key is stored under the
requested identifier with the requested columns exactly if the agent had no key of that name, or had it under this
identifier; and the version is stored as requested exactly if the agent did not have it, or had it with the requested
parent. -/
theorem upsert_stored_iff {e : Env} {C : Cluster} {S : ClusterState} {fuel : Nat} {node : String} {req : AgentRequest}
    {w : World} (hok : (agentHandle e C S fuel node req w).1 = .ok) :
    req.Stored (agentHandle e C S fuel node req w).2.db ↔ req.Fits w.db := by
  cases req with
  | upsertTenant req => exact Iff.rfl
  | upsertKey req =>
    have heff : AgentEffect e w (agentHandle e C S fuel node (.upsertKey req) w).2 (.upsertKey req)
        (agentHandle e C S fuel node (.upsertKey req) w).1 := agentHandle_effect
    rcases heff.keys with ⟨-, hne⟩ | ⟨r, k, hreq, -, hu⟩
    · exact absurd hok (hne req rfl)
    · cases hreq
      exact hu.stored_iff
  | upsertKeyVersion req =>
    have hvalid : (AgentRequest.upsertKeyVersion req).validate = .ok () := by
      unfold agentHandle at hok
      split at hok
      · rename_i err _
        exact absurd hok (AgentError.answer_ne_ok (.abort err))
      · assumption
    simp only [AgentRequest.validate, Validator.validateUpsertKeyVersionRequest, bind_unit_eq_ok, check_eq_ok,
      decide_eq_true_eq] at hvalid
    exact (agentHandle_version hok).stored_iff hvalid.1.2.2.1.le hvalid.1.2.2.2.1.le

/-! ## Requests at an agent that has the key -/

/-- The key on the agent is activated. -/
def demoFleetActive : List (Env × FleetOp) :=
  demoFleetAnnounced ++ [demoFleetRoot (demoAction .activate 3 false)] ++
    demoFleetJob 5 [.send 5 0 0 .upsertKey, .deliver 2, .send 5 0 0 .upsertKeyVersion, .deliver 3] (demoPlaces 2)

def demoActive : FleetState := run (fleetStep demoFleet) .init demoFleetActive

/-- A request at the agent. -/
def demoAtEdge (req : AgentRequest) : RpcResult × World :=
  agentHandle (demoEnv 0) demoFleet.cluster (demoActive.cluster demoFleet) demo.fuel "edge" req
    (demoActive.agentWorld "edge")

def demoTekUpsert (n : Nat) : UpsertKeyRequest :=
  ⟨demoTenant, demoKey n, "tek", "tek", demoKey 2, .active, "edge", []⟩

def demoTekVersion (parentVersion : Int) : UpsertKeyVersionRequest :=
  ⟨demoTenant, demoKey 3, 1, 1, demoKey 2, parentVersion, .active, .usable, []⟩

theorem demoTek_stored : (demoAtEdge (.upsertKey (demoTekUpsert 3))).1 = .ok ∧
    (demoTekUpsert 3).Stored (demoAtEdge (.upsertKey (demoTekUpsert 3))).2.db := by
  obtain ⟨hok, hfits⟩ : (demoAtEdge (.upsertKey (demoTekUpsert 3))).1 = .ok ∧
      (AgentRequest.upsertKey (demoTekUpsert 3)).Fits (demoActive.agentWorld "edge").db := by
    decide +kernel
  unfold demoAtEdge at hok ⊢
  exact ⟨hok, (upsert_stored_iff hok).2 hfits⟩

/-- The agent answers `ok` to a request for the same key under another identifier and to one for the same version under
another version of the parent, and has stored neither. -/
theorem answered_not_stored :
    ((demoAtEdge (.upsertKey (demoTekUpsert 4))).1 = .ok ∧
      ¬ (demoTekUpsert 4).Stored (demoAtEdge (.upsertKey (demoTekUpsert 4))).2.db) ∧
    (demoAtEdge (.upsertKeyVersion (demoTekVersion 2))).1 = .ok ∧
      ¬ (demoTekVersion 2).Stored (demoAtEdge (.upsertKeyVersion (demoTekVersion 2))).2.db := by
  -- one evaluation of the fleet for all four facts
  decide +kernel

/-! ## Announced keys -/

/-- The two agree in what identifies a key, in its labels and time of creation, and in its states. -/
def Key.Agrees (k row : Key) : Prop :=
  k.ident = row.ident ∧ k.lifeCycleState = row.lifeCycleState ∧ k.status = row.status

/-- The key is what `GetKeyByID` returns for it. -/
def DB.Reports (db : DB) (k : Key) : Prop := ∃ row, db.getKeyByID k.id k.tenantID = .ok row ∧ k.Agrees row

theorem DB.reports_iff {db : DB} {k row : Key} (h : db.getKeyByID k.id k.tenantID = .ok row) :
    db.Reports k ↔ k.Agrees row := by
  constructor
  · rintro ⟨row', h', hagrees⟩
    obtain rfl : row = row' := Except.ok.inj (h.symm.trans h')
    exact hagrees
  · intro hagrees
    exact ⟨row, h, hagrees⟩

/-- The request gives its identifiers as they are stored; a stored key of that name has its labels, and was created
now. -/
def AnnounceKeyRequest.Fits (e : Env) (db : DB) (req : AnnounceKeyRequest) : Prop :=
  Canonical req.tenantID ∧ (req.parentID = "" ∨ Canonical req.parentID) ∧
    ∀ r ∈ db.keys.rows, r.tenantID = req.tenantID → r.name = req.name → r.labels = req.labels ∧ r.createdAt = e.now

section
variable {R : RootProcess} {e : Env} {req : AnnounceKeyRequest} {db db' : DB} {k row : Key}

theorem announcedKey_parentID : (announcedKey R e req).parentID = if req.parentID = "" then none
    else some req.parentID := rfl

/-- A new key is stored with canonical identifiers and otherwise as it was announced. -/
theorem agrees_inserted (hi : DB.KeyInserted db (announcedKey R e req) row db') :
    (announcedKey R e req).Agrees row ↔ req.Fits e db := by
  have hrow : row ∈ db'.keys.rows := hi.mem.2 (.inr rfl)
  have hid : row.id = e.uuid.text := Option.some.inj (hi.id.symm.trans e.uuid.canonical)
  constructor
  · rintro ⟨hident, -, -⟩
    have htenant : req.tenantID = row.tenantID := congrArg KeyIdent.tenantID hident
    have hparent : (announcedKey R e req).parentID = row.parentID := congrArg KeyIdent.parentID hident
    refine ⟨htenant ▸ (DB.key_canonical hrow).2, ?_, fun r hr ht hn => ?_⟩
    · by_cases hempty : req.parentID = ""
      · exact .inl hempty
      · rw [announcedKey_parentID, if_neg hempty] at hparent
        exact .inr ((db'.keys.ok_of_mem hrow).2.2 _ hparent.symm)
    · have hname : row.name = req.name := hi.columns.2.1
      exact absurd (hn.trans hname.symm) (hi.name_fresh hr (ht.trans htenant))
  · rintro ⟨htenant, hparent, -⟩
    obtain ⟨hkind, hname, hby, hlabels, hlc, hst, hcreated⟩ := hi.columns
    have ht : row.tenantID = req.tenantID := Option.some.inj (hi.tenantID.symm.trans htenant)
    have hp : row.parentID = (announcedKey R e req).parentID := by
      rw [← hi.parentID.1, announcedKey_parentID]
      split
      · rfl
      · rename_i hne
        exact hparent.resolve_left hne
    refine ⟨?_, hlc.symm, hst.symm⟩
    simp only [Key.ident, hkind, hname, hby, hlabels, hcreated, ht, hp, hid]
    rfl

/-- An adopted key keeps its labels and its time of creation. -/
theorem agrees_adopted (hk : k ∈ db.keys.rows) (hsame : k.isSame (announcedKey R e req) = true) :
    ({ announcedKey R e req with id := k.id } : Key).Agrees
      (DB.stateOf (announcedKey R e req).lifeCycleState (announcedKey R e req).status e.now k) ↔ req.Fits e db := by
  obtain ⟨hparent, hname, htenant, hby, hkind⟩ := Key.isSame_iff.1 hsame
  constructor
  · rintro ⟨hident, -, -⟩
    have hlabels : req.labels = k.labels := congrArg KeyIdent.labels hident
    have hcreated : e.now = k.createdAt := congrArg KeyIdent.createdAt hident
    refine ⟨(show k.tenantID = req.tenantID from htenant) ▸ (DB.key_canonical hk).2, ?_, fun r hr ht hn => ?_⟩
    · by_cases hempty : req.parentID = ""
      · exact .inl hempty
      · rw [announcedKey_parentID, if_neg hempty] at hparent
        exact .inr ((db.keys.ok_of_mem hk).2.2 _ hparent)
    · obtain rfl := DB.key_eq_of_name hr hk (ht.trans htenant.symm) (hn.trans hname.symm)
      exact ⟨hlabels.symm, hcreated.symm⟩
  · rintro ⟨-, -, hstored⟩
    obtain ⟨hlabels, hcreated⟩ := hstored k hk htenant hname
    refine ⟨?_, rfl, rfl⟩
    simp only [Key.ident, DB.stateOf, hparent, hname, htenant, hby, hkind, hlabels, hcreated]
    rfl

/-- After an upsert the returned key is found under its own identifiers. -/
theorem reports_upserted (hu : Upserted e (announcedKey R e req) db k db') : db'.Reports k ↔ req.Fits e db := by
  cases hu with
  | @inserted row _ hi =>
    have hget := DB.getKeyByID_of_parse (hi.mem.2 (.inr rfl)) hi.id hi.tenantID
    rw [DB.reports_iff hget, agrees_inserted hi]
  | @adopted k hk hsame =>
    have hmark : DB.stateOf (announcedKey R e req).lifeCycleState (announcedKey R e req).status e.now k ∈
        (db.markKeys [k.id] (announcedKey R e req).lifeCycleState (announcedKey R e req).status e.now).keys.rows :=
      DB.mem_markKeys.2 ⟨k, hk, DB.markKey_of_mem (List.mem_singleton_self _)⟩
    have htenant : k.tenantID = (announcedKey R e req).tenantID := (Key.isSame_iff.1 hsame).2.2.1
    have hget := DB.getKeyByID_of_parse hmark (DB.key_canonical hk).1
      (show uuidIn (announcedKey R e req).tenantID = some k.tenantID from htenant ▸ (DB.key_canonical hk).2)
    rw [DB.reports_iff hget, agrees_adopted hk hsame]

end

/-- **What an announce reports.** An announce that succeeds schedules the key that it returns; this key agrees with the
row that is stored then, exactly if the request gives its identifiers in their canonical form and no key of the name was
stored with other labels or another time of creation. -/
theorem announced_agrees_iff {R : RootProcess} {e : Env} {req : AnnounceKeyRequest} {w w' : World} {key : Key}
    {groups : List JobGroup} (h : announceKey R e req w = (.ok key, groups, w')) :
    groups = [[.announce key]] ∧ (w'.db.Reports key ↔ req.Fits e w.db) := by
  have heff : AnnounceKeyEffect R e req w (announceKey R e req w) := announceKey_effect
  rw [h] at heff
  cases heff with
  | accepted _ _ _ hu => exact ⟨rfl, reports_upserted hu⟩

def demoRootRequest (labels : Labels) : AnnounceKeyRequest := ⟨demoTenant, "rk", "rk", "", "", labels⟩

theorem demoRoot_agrees : ∃ key groups w', announceKey demo (demoEnv 1) (demoRootRequest [])
    (worldAfter demo [demoCreateTenant]) = (.ok key, groups, w') ∧ w'.db.Reports key := by
  obtain ⟨key, hkey⟩ := exists_of_isOk
    (show (announceKey demo (demoEnv 1) (demoRootRequest []) (worldAfter demo [demoCreateTenant])).1.isOk = true by
      decide +kernel)
  have heq : announceKey demo (demoEnv 1) (demoRootRequest []) (worldAfter demo [demoCreateTenant]) =
      (.ok key, (announceKey demo (demoEnv 1) (demoRootRequest []) (worldAfter demo [demoCreateTenant])).2.1,
        (announceKey demo (demoEnv 1) (demoRootRequest []) (worldAfter demo [demoCreateTenant])).2.2) := by
    rw [← hkey]
  refine ⟨_, _, _, heq, (announced_agrees_iff heq).2.2 ?_⟩
  exact ⟨(demoUuid 0).canonical, .inl rfl, by decide +kernel⟩

/-- An announced key is announced again with a label: the call reports the label, the database does not have it. -/
theorem announced_disagrees :
    ∃ key row, (announceKey demo (demoEnv 4) (demoRootRequest [("env", "prod")]) (worldAfter demo demoAnnounced)).1 =
      .ok key ∧ (announceKey demo (demoEnv 4) (demoRootRequest [("env", "prod")]) (worldAfter demo demoAnnounced)).2.1 =
        [[.announce key]] ∧
      (announceKey demo (demoEnv 4) (demoRootRequest [("env", "prod")])
        (worldAfter demo demoAnnounced)).2.2.db.getKeyByID key.id key.tenantID = .ok row ∧ key.labels ≠ row.labels := by
  refine ⟨{ announcedKey demo (demoEnv 4) (demoRootRequest [("env", "prod")]) with id := demoKey 1 },
    { announcedKey demo (demoEnv 1) (demoRootRequest []) with updatedAt := 0 }, ?_, ?_, ?_, ?_⟩ <;> decide +kernel

end Krypton
