import Krypton.Fleet

/-!
# Spellings of identifiers

A UUID has more than one text. The checks of requests take what `uuid.Parse` reads; the columns of the database read the
same texts but for the URN, compare by value and give the standard text back. The calls whose texts are read alike go
the same way, but for three places that compare or store the text of the request: `ValidateKeyParents` tells the key
apart from its ancestors by it, `UpsertKey` compares a key that is announced again with the stored one, and the provider
specs are kept under it.

* `keyAction_congr`, `createProvider_congr`, `rotateAuth_congr`, `rotateProviderKey_congr`, `announceSteps_sim` — calls
  that go the same way when the three places do;
* `step_normal` — steps of the root do not depend on the spellings in jobs that send nothing to an agent.
-/

namespace Krypton

open Lib Validator

/-! ## Texts -/

/-- The text a UUID is written as; a text that `uuid.Parse` does not read stays. -/
def standardText (s : String) : String := (uuidParse s).getD s

/-- The text is the one its UUID is written as, or no UUID. -/
def Standard (s : String) : Prop := standardText s = s

instance (s : String) : Decidable (Standard s) := inferInstanceAs (Decidable (_ = _))

theorem uuidParse_idem {s u : String} (h : uuidParse s = some u) : uuidParse u = some u := by
  obtain ⟨ds, hds, rfl⟩ := uuidParse_digits h
  exact uuidParse_uuidText hds

/-- The text is read as a UUID, by the checks and by the database. -/
def ReadAs (s u : String) : Prop := uuidParse s = some u ∧ uuidIn s = some u

/-- The two texts are read alike. -/
def Alike (a b : String) : Prop := a = b ∨ ∃ u, ReadAs a u ∧ ReadAs b u

theorem Alike.parse {a b : String} (h : Alike a b) : uuidParse a = uuidParse b := by
  rcases h with rfl | ⟨u, ha, hb⟩
  · rfl
  · rw [ha.1, hb.1]

theorem Alike.read {a b : String} (h : Alike a b) : uuidIn a = uuidIn b := by
  rcases h with rfl | ⟨u, ha, hb⟩
  · rfl
  · rw [ha.2, hb.2]

/-- The empty text is no identifier. -/
theorem Alike.empty_iff {a b : String} (h : Alike a b) : a = "" ↔ b = "" := by
  have hempty : uuidParse "" = none := by decide
  rcases h with rfl | ⟨u, ha, hb⟩
  · exact Iff.rfl
  · constructor <;> rintro rfl
    · cases hempty.symm.trans ha.1
    · cases hempty.symm.trans hb.1

/-- But for the URN, a text is read as the standard one is. -/
theorem alike_standardText {s : String} (h : isURN s = false) : Alike s (standardText s) := by
  unfold standardText
  cases hp : uuidParse s with
  | none => exact .inl rfl
  | some u =>
    obtain ⟨ds, hds, rfl⟩ := uuidParse_digits hp
    exact .inr ⟨_, ⟨hp, uuidIn_of_parse hp h⟩, uuidParse_uuidText hds, uuidIn_uuidText hds⟩

@[simp] theorem uuidParse_standardText (s : String) : uuidParse (standardText s) = uuidParse s := by
  unfold standardText
  cases hp : uuidParse s with
  | none => exact hp
  | some u => exact uuidParse_idem hp

/-- A text that the database gives back is standard. -/
theorem Canonical.standard {s : String} (h : Canonical s) : Standard s := by
  rw [Standard, standardText, h.parse]
  rfl

/-- The text as the database gives it back; a text that it does not read stays. -/
def canonicalText (s : String) : String := (uuidIn s).getD s

@[simp] theorem uuidIn_canonicalText (s : String) : uuidIn (canonicalText s) = uuidIn s := by
  unfold canonicalText
  cases h : uuidIn s with
  | none => exact h
  | some t => exact uuidIn_idem h

@[simp] theorem canonicalText_idem (s : String) : canonicalText (canonicalText s) = canonicalText s := by
  rw [canonicalText, uuidIn_canonicalText, canonicalText]
  cases uuidIn s <;> rfl

theorem Alike.canonicalText_eq {a b : String} (h : Alike a b) : canonicalText a = canonicalText b := by
  rcases h with rfl | ⟨u, ha, hb⟩
  · rfl
  · rw [canonicalText, canonicalText, ha.2, hb.2]
    rfl

/-! ## Statements and checks -/

section
variable {db : DB} {id id' tenantID tenantID' : String}

theorem DB.getKeyByID_congr (hid : uuidIn id = uuidIn id') (ht : uuidIn tenantID = uuidIn tenantID') :
    db.getKeyByID id tenantID = db.getKeyByID id' tenantID' := by
  rw [DB.getKeyByID, DB.getKeyByID, keyParams_congr hid ht]

theorem DB.getKeyByName_congr {name : String} (ht : uuidIn tenantID = uuidIn tenantID') :
    db.getKeyByName tenantID name = db.getKeyByName tenantID' name := by
  rw [DB.getKeyByName, DB.getKeyByName, Uuid.parse_congr ht]

theorem DB.updateKeyStates_congr {lc : KeyLifeCycleState} {st : KeyProcessingStatus} {src : List KeyLifeCycleState}
    {srcStatus : List KeyProcessingStatus} {now : Int} (hid : uuidIn id = uuidIn id')
    (ht : uuidIn tenantID = uuidIn tenantID') :
    db.updateKeyStates ⟨id, tenantID, lc, st, src, srcStatus, now⟩ =
      db.updateKeyStates ⟨id', tenantID', lc, st, src, srcStatus, now⟩ := by
  unfold DB.updateKeyStates
  rw [keyParams_congr hid ht]
  rfl

theorem DB.descendantParams_congr (hid : Alike id id') (ht : Alike tenantID tenantID') :
    DB.descendantParams id tenantID = DB.descendantParams id' tenantID' := by
  unfold DB.descendantParams
  rw [keyParams_congr hid.read ht.read]
  -- a text that is refused is quoted, but then the texts are equal
  rcases hid with rfl | ⟨u, hi, hi'⟩ <;> rcases ht with rfl | ⟨v, hv, hv'⟩
  · rfl
  · rw [hv.1, hv'.1]
    rfl
  · rw [hi.1, hi'.1]
    rfl
  · rw [hi.1, hi'.1, hv.1, hv'.1]
    rfl

theorem DB.createKeyVersion_congr {kv : KeyVersion} (ht : uuidIn kv.tenantID = uuidIn tenantID)
    (hk : uuidIn kv.keyID = uuidIn id) :
    db.createKeyVersion kv = db.createKeyVersion { kv with tenantID, keyID := id } := by
  unfold DB.createKeyVersion
  rw [Uuid.parse_congr ht, Uuid.parse_congr hk]
  rfl

theorem latestProviderKeyVersion_congr (hid : Alike id id') (ht : uuidIn tenantID = uuidIn tenantID') :
    latestProviderKeyVersion db tenantID id = latestProviderKeyVersion db tenantID' id' := by
  have hparams : (⟨tenantID, id, 0, none, none, [.versionDesc]⟩ : DB.ListKeyVersionsQuery).params =
      (⟨tenantID', id', 0, none, none, [.versionDesc]⟩ : DB.ListKeyVersionsQuery).params := by
    unfold DB.ListKeyVersionsQuery.params
    dsimp only
    rw [keyParams_congr hid.read ht, Uuid.parse_congr ht]
    simp only [hid.empty_iff]
  unfold latestProviderKeyVersion fetchOne DB.listKeyVersions
  rw [hparams]
  rfl

theorem isValidUUID_congr (h : uuidParse id = uuidParse id') : isValidUUID id = isValidUUID id' := by
  rw [isValidUUID, isValidUUID, h]

theorem validateTenant_congr (ht : uuidIn tenantID = uuidIn tenantID') :
    validateTenant tenantID = validateTenant tenantID' := by
  funext db
  rw [validateTenant, validateTenant, DB.getTenant_congr ht]

theorem validateKeyRequest_congr (hid : uuidParse id = uuidParse id') (ht : uuidParse tenantID = uuidParse tenantID') :
    validateKeyRequest tenantID id = validateKeyRequest tenantID' id' := by
  rw [validateKeyRequest, validateKeyRequest, isValidUUID_congr hid, isValidUUID_congr ht]

theorem validateIDs_congr (hid : uuidParse id = uuidParse id') (ht : uuidParse tenantID = uuidParse tenantID') :
    validateIDs tenantID id = validateIDs tenantID' id' := by
  rw [validateIDs, validateIDs, isValidUUID_congr hid, isValidUUID_congr ht]

theorem validateKeyUsage_congr {usage : KeyUsage} (hid : uuidIn id = uuidIn id')
    (ht : uuidIn tenantID = uuidIn tenantID') :
    validateKeyUsage tenantID id usage = validateKeyUsage tenantID' id' usage := by
  funext db
  rw [validateKeyUsage, validateKeyUsage, DB.getKeyByID_congr hid ht]

theorem validateTransition_congr {dst : KeyLifeCycleState} (hid : uuidIn id = uuidIn id')
    (ht : uuidIn tenantID = uuidIn tenantID') :
    validateTransition tenantID id dst = validateTransition tenantID' id' dst := by
  funext db
  rw [validateTransition, validateTransition, DB.getKeyByID_congr hid ht]

end

/-! ## Lifecycle calls -/

section
variable {e : Env} {s : Session} {w : World} {α β : Type} {site : Site}

/-- A read that gives the same, and then whatever goes the same way. -/
theorem query_bind_congr {f g : DB → Except Err α} {k k' : α → Step β} (hfg : f s.db = g s.db)
    (hk : ∀ a, f s.db = .ok a → k a s = k' a s) : (query e site f >>= k) s = (query e site g >>= k') s := by
  change Tx.andThen _ _ s = Tx.andThen _ _ s
  unfold Tx.andThen query
  rw [← hfg]
  by_cases hfails : e.fails site = true
  · simp only [hfails, if_true]
  · simp only [hfails]
    cases hf : f s.db with
    | error err => rfl
    | ok a => exact hk a hf

/-- The outcome of a transaction is that of its steps. -/
theorem transaction_congr {x y : Step α} (h : x w.session = y w.session) :
    transaction e id x w = transaction e id y w := by
  rw [transaction, transaction, h]

variable {tenantID tenantID' id id' : String} {cascading : Bool}

theorem applyKeyAction_congr {action : ActionType} (ht : Alike tenantID tenantID') (hid : Alike id id') :
    applyKeyAction e (actionRequest action ⟨tenantID, id, cascading⟩) =
      applyKeyAction e (actionRequest action ⟨tenantID', id', cascading⟩) := by
  have hfetch : fetchKeytree (actionRequest action ⟨tenantID, id, cascading⟩) =
      fetchKeytree (actionRequest action ⟨tenantID', id', cascading⟩) := by
    funext db
    unfold fetchKeytree DB.getDescendantKeys
    dsimp only [actionRequest]
    rw [DB.descendantParams_congr hid ht, DB.getKeyByID_congr hid.read ht.read]
    rfl
  unfold applyKeyAction
  rw [hfetch]
  rfl

/-- A lifecycle call whose tenant is read alike: the rest counts if the tenant is there. -/
theorem keyAction_congr {action : ActionType}
    (hvalid : validateKeyRequest tenantID id = validateKeyRequest tenantID' id')
    (ht : Alike tenantID tenantID') (hrest : validateTenant tenantID w.db = .ok () → Alike id id' ∧
      (action = .activate → validateKeyParents tenantID id w.db = validateKeyParents tenantID' id' w.db)) :
    keyAction e action ⟨tenantID, id, cascading⟩ w = keyAction e action ⟨tenantID', id', cascading⟩ w := by
  have hsteps : actionSteps e action ⟨tenantID, id, cascading⟩ w.session =
      actionSteps e action ⟨tenantID', id', cascading⟩ w.session := by
    unfold actionSteps
    refine query_bind_congr (congrFun (validateTenant_congr ht.read) _) fun _ hok => ?_
    obtain ⟨hid, hparents⟩ := hrest hok
    rw [applyKeyAction_congr ht hid]
    by_cases ha : action = .activate
    · rw [if_pos ha, if_pos ha]
      exact query_bind_congr (hparents ha) fun _ _ => rfl
    · rw [if_neg ha, if_neg ha]
  unfold keyAction
  dsimp only
  rw [hvalid, transaction_congr hsteps]

end

/-! ## Provider calls -/

section
variable {e : Env} {s : Session} {w : World} {tenantID tenantID' keyID keyID' : String}

/-- Storing what is stored already changes nothing. -/
theorem importSpec_of_stored {spec : SealerSpec} (h : s.specs (tenantID, keyID) = some spec) :
    importSpec e tenantID keyID spec s = if e.fails .importSpec then (.error (.plain "vault import failed"), s)
      else (if e.fails .importSpecReply then .error (.plain "vault import failed") else .ok (), s) := by
  unfold importSpec
  rw [← h, Function.update_eq_self]

/-- The spec of both names is there already, or the key may not be linked. -/
theorem createProviderSteps_congr {spec : SealerSpec} {providerKeyID : String} (ht : Alike tenantID tenantID')
    (hrest : validateTenant tenantID s.db = .ok () → Alike keyID keyID' ∧
      (validateKeyUsage tenantID keyID .link s.db = .ok () →
        s.specs (tenantID, keyID) = some spec ∧ s.specs (tenantID', keyID') = some spec)) :
    createProviderSteps e tenantID keyID spec providerKeyID s =
      createProviderSteps e tenantID' keyID' spec providerKeyID s := by
  unfold createProviderSteps
  refine query_bind_congr (congrFun (validateTenant_congr ht.read) _) fun _ hok => ?_
  obtain ⟨hid, hspecs⟩ := hrest hok
  refine query_bind_congr (congrFun (validateKeyUsage_congr hid.read ht.read) _) fun _ husage => ?_
  obtain ⟨hspec, hspec'⟩ := hspecs husage
  have hcreate : (fun db : DB => db.createKeyVersion (providerKeyVersion e tenantID keyID 1 spec.type providerKeyID)) =
      fun db => db.createKeyVersion (providerKeyVersion e tenantID' keyID' 1 spec.type providerKeyID) := by
    funext db
    exact DB.createKeyVersion_congr ht.read hid.read
  rw [hcreate]
  change Tx.andThen _ _ s = Tx.andThen _ _ s
  unfold Tx.andThen
  rw [importSpec_of_stored hspec, importSpec_of_stored hspec']

/-- What a rotation finds under two names: nothing, providers of other types, or providers of the type `t` that it
`keeps`. -/
def SpecsAgree (specs : SpecStore) (ids ids' : String × String) (t : SealerType) (keeps : SealerSpec → Prop) : Prop :=
  (specs ids = none ∧ specs ids' = none) ∨ ∃ sp sp', specs ids = some sp ∧ specs ids' = some sp' ∧
    ((sp.type ≠ t ∧ sp'.type ≠ t) ∨ (sp.type = t ∧ sp'.type = t) ∧ keeps sp ∧ keeps sp')

/-- After loading a spec of the type, a step goes on in the same way. -/
theorem loadSpec_bind_congr {t : SealerType} {keeps : SealerSpec → Prop} {k k' : SealerSpec → Step Unit}
    (h : SpecsAgree s.specs (tenantID, keyID) (tenantID', keyID') t keeps)
    (hk : ∀ sp sp', s.specs (tenantID, keyID) = some sp → s.specs (tenantID', keyID') = some sp' → sp.type = t →
      sp'.type = t → keeps sp → keeps sp' → k sp s = k' sp' s) :
    (do let spec ← loadSpec e tenantID keyID
        Tx.lift (check (spec.type = t) (.of .providerTypeMismatch))
        k spec : Step Unit) s =
      (do let spec ← loadSpec e tenantID' keyID'
          Tx.lift (check (spec.type = t) (.of .providerTypeMismatch))
          k' spec : Step Unit) s := by
  change Tx.andThen _ (fun _ => Tx.andThen _ _) s = Tx.andThen _ (fun _ => Tx.andThen _ _) s
  unfold Tx.andThen loadSpec exportSpec Tx.lift
  by_cases hfails : e.fails .exportSpec = true
  · simp only [hfails, if_true]
  · simp only [hfails, Bool.false_eq_true, if_false]
    rcases h with ⟨h, h'⟩ | ⟨sp, sp', h, h', hne | ⟨⟨ht, ht'⟩, hkeeps, hkeeps'⟩⟩
    · rw [h, h']
    · rw [h, h']
      simp [check, hne.1, hne.2]
    · rw [h, h']
      simp only [check, ht, ht', decide_true, if_true]
      exact hk sp sp' h h' ht ht' hkeeps hkeeps'

theorem rotateAuthSteps_congr {t : SealerType} {auth : SealerAuth} (ht : Alike tenantID tenantID')
    (hrest : validateTenant tenantID s.db = .ok () → Alike keyID keyID' ∧
      (validateKeyUsage tenantID keyID .rotate s.db = .ok () →
        SpecsAgree s.specs (tenantID, keyID) (tenantID', keyID') t fun sp => sp.auth = some auth)) :
    rotateAuthSteps e tenantID keyID t auth s = rotateAuthSteps e tenantID' keyID' t auth s := by
  unfold rotateAuthSteps
  refine query_bind_congr (congrFun (validateTenant_congr ht.read) _) fun _ hok => ?_
  obtain ⟨hid, hspecs⟩ := hrest hok
  refine query_bind_congr (congrFun (validateKeyUsage_congr hid.read ht.read) _) fun _ husage => ?_
  refine loadSpec_bind_congr (hspecs husage) fun sp sp' h h' _ _ hkeeps hkeeps' => ?_
  have hsame : ∀ {sp : SealerSpec}, sp.auth = some auth → { sp with auth := some auth } = sp := by
    rintro sp hauth
    rw [← hauth]
  rw [hsame hkeeps, hsame hkeeps', importSpec_of_stored h, importSpec_of_stored h']

theorem rotateProviderKeySteps_congr {t : SealerType} {providerKeyID : String} (ht : Alike tenantID tenantID')
    (hrest : validateTenant tenantID s.db = .ok () → Alike keyID keyID' ∧
      (validateKeyUsage tenantID keyID .rotate s.db = .ok () →
        SpecsAgree s.specs (tenantID, keyID) (tenantID', keyID') t fun _ => True)) :
    rotateProviderKeySteps e tenantID keyID t providerKeyID s =
      rotateProviderKeySteps e tenantID' keyID' t providerKeyID s := by
  unfold rotateProviderKeySteps
  refine query_bind_congr (congrFun (validateTenant_congr ht.read) _) fun _ hok => ?_
  obtain ⟨hid, hspecs⟩ := hrest hok
  refine query_bind_congr (congrFun (validateKeyUsage_congr hid.read ht.read) _) fun _ husage => ?_
  refine loadSpec_bind_congr (hspecs husage) fun sp sp' _ _ _ _ _ _ => ?_
  refine query_bind_congr (latestProviderKeyVersion_congr hid ht.read) fun latest _ => ?_
  have hcreate : (fun db : DB => db.createKeyVersion
      (providerKeyVersion e tenantID keyID (latest.version + 1) t providerKeyID)) = fun db => db.createKeyVersion
        (providerKeyVersion e tenantID' keyID' (latest.version + 1) t providerKeyID) := by
    funext db
    exact DB.createKeyVersion_congr ht.read hid.read
  rw [hcreate]

end

/-! ## Announcing -/

/-- The key with other texts for its tenant and its parent. -/
structure Key.Respelled (k k' : Key) : Prop where
  tenantID : Alike k.tenantID k'.tenantID
  parentID : Option.Rel Alike k.parentID k'.parentID
  others : k' = { k with tenantID := k'.tenantID, parentID := k'.parentID }

section
variable {e : Env} {s : Session} {k k' : Key}

theorem parseNullable_congr {p p' : Option String} (h : Option.Rel Alike p p') :
    Uuid.parseNullable p = Uuid.parseNullable p' := by
  cases h with
  | none => rfl
  | some h => exact congrArg (Option.map some) (Uuid.parse_congr h.read)

theorem Key.Respelled.createKey (h : k.Respelled k') (db : DB) : db.createKey k = db.createKey k' := by
  obtain ⟨ht, hp, ho⟩ := h
  have hid : k'.id = k.id := by rw [ho]
  have hrow : ∀ i t p, DB.keyRow k i t p = DB.keyRow k' i t p := by
    intro i t p
    rw [DB.keyRow, DB.keyRow, ho]
  unfold DB.createKey
  rw [hid, Uuid.parse_congr ht.read, parseNullable_congr hp]
  split
  · simp only [hrow]
  · rfl

theorem Key.Respelled.validateKeyHierarchy (h : k.Respelled k') (hier : KeyHierarchy) :
    Validator.validateKeyHierarchy k hier = Validator.validateKeyHierarchy k' hier := by
  obtain ⟨ht, hp, ho⟩ := h
  have hkind : k'.kind = k.kind := by rw [ho]
  funext db
  unfold Validator.validateKeyHierarchy
  rw [hkind]
  generalize k.parentID = p, k'.parentID = p' at hp
  cases hp with
  | none => cases hier.findKeySpec k.kind <;> rfl
  | some hp =>
    cases hier.findKeySpec k.kind with
    | none => rfl
    | some spec =>
      dsimp only
      rw [DB.getKeyByID_congr hp.read ht.read]

/-- A key that is not the same is not adopted. -/
theorem adoptExisting_of_other {existing : Key} (h : existing.isSame k = false) :
    adoptExisting e k existing s = (.error (.of .keyConflict), s) := by
  unfold adoptExisting
  rw [h]
  rfl

/-- A key that was inserted has a name that no key of the tenant had. -/
theorem DB.KeyInserted.not_taken {db db' : DB} {row : Key} (h : DB.KeyInserted db k row db') :
    ∀ r ∈ db.keys.rows, uuidIn k.tenantID = some r.tenantID → r.name ≠ k.name := by
  intro r hr ht
  have htenant : r.tenantID = row.tenantID := Option.some.inj (ht.symm.trans h.tenantID)
  rw [← h.columns.2.1]
  exact h.name_fresh hr htenant

/-- The stored key of the tenant with the name, if there is one, is not the key, in neither spelling. -/
def NotAdopted (db : DB) (k k' : Key) : Prop :=
  ∀ r ∈ db.keys.rows, uuidIn k.tenantID = some r.tenantID → r.name = k.name → r.isSame k = false ∧ r.isSame k' = false

/-- A key that is not adopted is inserted, or refused, in every spelling. -/
theorem upsertKey_sim (h : k.Respelled k') (hno : NotAdopted s.db k k') :
    Tx.Sim (upsertKey e k) (upsertKey e k') s s fun a s' b t' => a = k ∧ b = k' ∧ s' = t' ∧
      ∀ r ∈ s.db.keys.rows, uuidIn k.tenantID = some r.tenantID → r.name ≠ k.name := by
  have hname : k'.name = k.name := by rw [h.others]
  have hid : k'.id = k.id := by rw [h.others]
  have hcreate : (fun db : DB => db.createKey k) = fun db => db.createKey k' := funext h.createKey
  have hbyName : (fun db : DB => db.getKeyByName k.tenantID k.name) = fun db =>
      db.getKeyByName k'.tenantID k'.name := by
    funext db
    rw [hname, DB.getKeyByName_congr h.tenantID.read]
  have hbyID : (fun db : DB => db.getKeyByID k.id k.tenantID) = fun db => db.getKeyByID k'.id k'.tenantID := by
    funext db
    rw [hid, DB.getKeyByID_congr rfl h.tenantID.read]
  have hconflict : ∀ {existing : Key}, existing.isSame k = false → existing.isSame k' = false →
      Tx.Sim (adoptExisting e k existing) (adoptExisting e k' existing) s s fun a s' b t' => a = k ∧ b = k' ∧ s' = t' ∧
        ∀ r ∈ s.db.keys.rows, uuidIn k.tenantID = some r.tenantID → r.name ≠ k.name := by
    intro existing h₁ h₂
    unfold Tx.Sim
    rw [adoptExisting_of_other h₁, adoptExisting_of_other h₂]
    exact ⟨rfl, rfl⟩
  unfold upsertKey
  rw [← hcreate, ← hbyName, ← hbyID]
  refine Tx.Sim.attempt_bind ends_exec ?_
  rintro r s' (⟨db, rfl, hdb, rfl⟩ | ⟨err, rfl, rfl, -⟩)
  · obtain ⟨row, hi⟩ := DB.createKey_ok hdb
    exact .pure ⟨rfl, rfl, rfl, hi.not_taken⟩
  · dsimp only
    split
    · exact .fail
    · refine Tx.Sim.attempt_bind ends_query ?_
      rintro r s₁ ⟨rfl, hr⟩
      cases r with
      | ok existing =>
        obtain ⟨hmem, ht, hn⟩ := DB.getKeyByName_ok (eq_of_query hr)
        exact hconflict (hno existing hmem ht hn).1 (hno existing hmem ht hn).2
      | error err₁ =>
        dsimp only
        split
        · exact .fail
        · refine Tx.Sim.attempt_bind ends_query ?_
          rintro r s₂ ⟨rfl, hr⟩
          cases r with
          | ok existing =>
            -- found under the identifier: it is no match by its name, or not adopted
            obtain ⟨hmem, -, ht⟩ := DB.getKeyByID_ok (eq_of_query hr)
            by_cases hn : existing.name = k.name
            · exact hconflict (hno existing hmem ht hn).1 (hno existing hmem ht hn).2
            · exact hconflict (by simp [Key.isSame, hn]) (by simp [Key.isSame, hname, hn])
          | error err₂ => exact .fail

end

/-- How two transactions compare whose steps go the same way: the results up to `P`, what is handed to orbital up to
`N`, the worlds. -/
structure SameEnd {ε α : Type} (P : α → α → Prop) (N : List JobGroup → List JobGroup → Prop)
    (out out' : Except ε α × List JobGroup × World) : Prop where
  result : (∃ err, out.1 = .error err ∧ out'.1 = .error err) ∨ ∃ a b, out.1 = .ok a ∧ out'.1 = .ok b ∧ P a b
  groups : N out.2.1 out'.2.1
  world : out.2.2 = out'.2.2

theorem SameEnd.code {ε α : Type} {P : α → α → Prop} {N : List JobGroup → List JobGroup → Prop}
    {out out' : Except ε α × List JobGroup × World} (h : SameEnd P N out out') :
    out.1.map (fun _ => ()) = out'.1.map fun _ => () := by
  rcases h.result with ⟨err, h₁, h₂⟩ | ⟨a, b, h₁, h₂, -⟩
  · rw [h₁, h₂]
  · rw [h₁, h₂]
    rfl

theorem transaction_sameEnd {ε α : Type} {e : Env} {err : Err → ε} {w : World} {x y : Tx Session ε α} {P : α → α → Prop}
    {N : List JobGroup → List JobGroup → Prop} (hnil : N [] [])
    (h : Tx.Sim x y w.session w.session fun a s b t => P a b ∧ N s.prepared t.prepared ∧
      s.db = t.db ∧ s.vault = t.vault ∧ s.specs = t.specs) :
    SameEnd P N (transaction e err x w) (transaction e err y w) := by
  unfold Tx.Sim at h
  unfold transaction
  split
  · exact ⟨.inl ⟨_, rfl, rfl⟩, hnil, rfl⟩
  · rcases hx : x w.session with ⟨er | a, s⟩ <;> rcases hy : y w.session with ⟨er' | b, t⟩ <;> rw [hx, hy] at h
    · obtain ⟨rfl, rfl⟩ := h
      exact ⟨.inl ⟨_, rfl, rfl⟩, hnil, rfl⟩
    · exact h.elim
    · exact h.elim
    · obtain ⟨hP, hN, hdb, hvault, hspecs⟩ := h
      dsimp only
      split
      · exact ⟨.inl ⟨_, rfl, rfl⟩, hnil, by rw [hvault, hspecs]⟩
      · exact ⟨.inr ⟨a, b, rfl, rfl, hP⟩, hN, by rw [hdb, hvault, hspecs]⟩

/-! ## Jobs that send nothing -/

/-- The root sends requests to the node. -/
def RootProcess.calls (R : RootProcess) (node : String) : Bool :=
  node ≠ R.cfg.name && R.registry.any fun names => names.contains node

/-- The key with canonical texts. -/
def Key.canonical (k : Key) : Key :=
  { k with tenantID := canonicalText k.tenantID, parentID := k.parentID.map canonicalText }

/-- The key, with canonical texts if nothing about it is sent. -/
def Key.normal (R : RootProcess) (k : Key) : Key := if R.calls k.managedBy then k else k.canonical

def Job.normal (R : RootProcess) : Job → Job
  | .announce key => .announce (key.normal R)
  | .layer action ids => .layer action ids

def RootTask.normal (R : RootProcess) : RootTask → RootTask
  | .announce key => .announce (key.normal R)
  | .action a kid => .action a kid

/-- The state, with canonical texts in the jobs that send nothing. -/
def RootState.normal (R : RootProcess) (s : RootState) : RootState :=
  ⟨s.world, mapGroups (Job.normal R) (RootTask.normal R) s.groups⟩

section
variable {R : RootProcess} {e : Env} {s : Session} {w : World} {k k' : Key}

theorem Key.Respelled.canonical_eq (h : k.Respelled k') : k.canonical = k'.canonical := by
  have hparent : k.parentID.map canonicalText = k'.parentID.map canonicalText := by
    have hp := h.parentID
    generalize k.parentID = p, k'.parentID = p' at hp
    cases hp with
    | none => rfl
    | some hp => exact congrArg some hp.canonicalText_eq
  unfold Key.canonical
  rw [hparent, h.tenantID.canonicalText_eq, h.others]

theorem Key.Respelled.normal_eq (h : k.Respelled k') (hby : R.calls k.managedBy = false) :
    k.normal R = k'.normal R := by
  have hby' : R.calls k'.managedBy = false := by
    rw [h.others]
    exact hby
  simp [Key.normal, hby, hby', h.canonical_eq]

/-- The tenant has a key with the name. -/
def NameTaken (db : DB) (k : Key) : Prop := ∃ r ∈ db.keys.rows, uuidIn k.tenantID = some r.tenantID ∧ r.name = k.name

/-- An announce goes the same way when the key is not adopted and either refused or not sent to an agent; none of this
counts if a check refuses it before. -/
theorem announceSteps_sim (ht : Alike k.tenantID k'.tenantID)
    (hrest : validateTenant k.tenantID w.db = .ok () → k.Respelled k' ∧
      (validateKeyHierarchy k R.cfg.hierarchy w.db = .ok () →
        NotAdopted w.db k k' ∧ (NameTaken w.db k ∨ R.calls k.managedBy = false))) :
    Tx.Sim (announceSteps R e k) (announceSteps R e k') w.session w.session fun _ s _ t => True ∧
      s.prepared.map (List.map (Job.normal R)) = t.prepared.map (List.map (Job.normal R)) ∧
      s.db = t.db ∧ s.vault = t.vault ∧ s.specs = t.specs := by
  unfold announceSteps
  rw [← validateTenant_congr ht.read]
  refine Tx.Sim.same_bind ends_query ?_
  rintro _ s₁ ⟨rfl, hok⟩
  obtain ⟨h, hrest⟩ := hrest (eq_of_query hok)
  rw [← h.validateKeyHierarchy]
  refine Tx.Sim.same_bind ends_query ?_
  rintro _ s₂ ⟨rfl, hok⟩
  obtain ⟨hno, hsent⟩ := hrest (eq_of_query hok)
  refine Tx.Sim.bind (upsertKey_sim h hno) ?_
  rintro a s₃ b _ ⟨ha, hb, rfl, hfresh⟩
  rw [ha, hb]
  have hby : R.calls k.managedBy = false := by
    refine hsent.resolve_left ?_
    rintro ⟨r, hr, htenant, hname⟩
    exact hfresh r hr htenant hname
  have hprepare : Tx.Sim (prepareJobGroup e [.announce k]) (prepareJobGroup e [.announce k']) s₃ s₃
      fun _ s _ t => True ∧ s.prepared.map (List.map (Job.normal R)) = t.prepared.map (List.map (Job.normal R)) ∧
        s.db = t.db ∧ s.vault = t.vault ∧ s.specs = t.specs := by
    unfold Tx.Sim prepareJobGroup
    by_cases hfails : e.fails .prepare = true
    · simp only [hfails, if_true, and_self]
    · simp only [hfails]
      simp [Job.normal, h.normal_eq hby]
  exact hprepare.bind fun _ _ _ _ hQ => .pure hQ

/-! ## Steps -/

@[simp] theorem Key.normal_managedBy : (k.normal R).managedBy = k.managedBy := by
  unfold Key.normal
  split <;> rfl

theorem Key.normal_normal : (k.normal R).normal R = k.normal R := by
  by_cases hby : R.calls k.managedBy = true
  · have hk : k.normal R = k := if_pos hby
    rw [hk, hk]
  · have hcan : k.normal R = k.canonical := if_neg hby
    rw [hcan]
    refine (if_neg hby).trans ?_
    simp [Key.canonical, Option.map_map, Function.comp_def]

/-- The normal form keeps the identifier and names the same tenant. -/
theorem Key.normal_identifiers : (k.normal R).id = k.id ∧ uuidIn (k.normal R).tenantID = uuidIn k.tenantID := by
  unfold Key.normal
  split
  · exact ⟨rfl, rfl⟩
  · exact ⟨rfl, uuidIn_canonicalText _⟩

theorem confirmSteps_congr (hid : k'.id = k.id) (ht : uuidIn k'.tenantID = uuidIn k.tenantID) :
    confirmSteps e k' = confirmSteps e k := by
  unfold confirmSteps
  rw [hid]
  simp only [DB.getKeyByID_congr rfl ht, DB.updateKeyStates_congr rfl ht]

/-- What orbital and the world see of a confirmation. -/
theorem confirmAnnounce_congr (hid : k'.id = k.id) (ht : uuidIn k'.tenantID = uuidIn k.tenantID) :
    (confirmAnnounce e k' w).2 = (confirmAnnounce e k w).2 ∧
      (confirmAnnounce e k' w).1.event = (confirmAnnounce e k w).1.event := by
  unfold confirmAnnounce
  rw [confirmSteps_congr hid ht]
  rcases transaction e id (confirmSteps e k) w with ⟨err | u, gs, w'⟩
  · dsimp only
    split <;> exact ⟨rfl, rfl⟩
  · exact ⟨rfl, rfl⟩

/-- Two announces have come to the same status, maybe with other messages. -/
def AnnounceState.Same (st st' : AnnounceState) : Prop := st.state = st'.state

theorem announceTenant_sim {site : Site} {st st' : AnnounceState} (hst : st.Same st')
    (ht : uuidIn k'.tenantID = uuidIn k.tenantID) :
    Tx.Sim (announceTenant e site k' st') (announceTenant e site k st) s s
      fun a s₁ b t₁ => b.Same a ∧ s₁ = s ∧ t₁ = s := by
  unfold announceTenant
  rw [validateTenant_congr ht]
  refine Tx.Sim.attempt_bind ends_query ?_
  rintro r s₁ ⟨rfl, -⟩
  cases r with
  | ok u => exact .pure ⟨hst, rfl, rfl⟩
  | error err =>
    dsimp only
    split
    · exact .pure ⟨rfl, rfl, rfl⟩
    · exact .fail

theorem announceUpsert_sim {site : RpcSite} {st st' success success' : AnnounceState} (hst : st.Same st')
    (hsuccess : success.Same success') (hby : k'.managedBy = k.managedBy) :
    Tx.Sim (announceUpsert R e k' site st' success') (announceUpsert R e k site st success) s s
      fun a s₁ b t₁ => b.Same a ∧ s₁ = s ∧ t₁ = s := by
  unfold announceUpsert announceAnswer
  rw [hby, ← show st.state = st'.state from hst]
  split
  · exact .pure ⟨hst, rfl, rfl⟩
  · split
    · exact .pure ⟨hsuccess, rfl, rfl⟩
    · split
      · exact .fail
      · split
        · split
          · exact .pure ⟨hsuccess, rfl, rfl⟩
          · split
            · exact .pure ⟨rfl, rfl, rfl⟩
            · exact .fail
        · exact .pure ⟨rfl, rfl, rfl⟩

theorem announceUpsertTenant_sim {st st' : AnnounceState} (hst : st.Same st') (hby : k'.managedBy = k.managedBy)
    (ht : uuidIn k'.tenantID = uuidIn k.tenantID) :
    Tx.Sim (announceUpsertTenant R e k' st') (announceUpsertTenant R e k st) s s
      fun a s₁ b t₁ => b.Same a ∧ s₁ = s ∧ t₁ = s := by
  unfold announceUpsertTenant
  rw [← show st.state = st'.state from hst]
  split
  · exact .pure ⟨hst, rfl, rfl⟩
  · refine (announceTenant_sim hst ht).bind ?_
    rintro a _ b _ ⟨hab, rfl, rfl⟩
    exact announceUpsert_sim hab hab hby

theorem announceTaskSteps_sim (hid : k'.id = k.id) (hby : k'.managedBy = k.managedBy)
    (ht : uuidIn k'.tenantID = uuidIn k.tenantID) :
    Tx.Sim (announceTaskSteps R e k') (announceTaskSteps R e k) s s fun a s₁ b t₁ => b.Same a ∧ s₁ = t₁ := by
  unfold announceTaskSteps
  have hstart : (⟨none, ""⟩ : AnnounceState).Same ⟨none, ""⟩ := rfl
  refine (announceTenant_sim hstart ht).bind ?_
  rintro a₁ _ b₁ _ ⟨h₁, rfl, rfl⟩
  refine (announceUpsertTenant_sim h₁ hby ht).bind ?_
  rintro a₂ _ b₂ _ ⟨h₂, rfl, rfl⟩
  rw [validateTransition_congr (congrArg uuidIn hid) ht]
  refine Tx.Sim.same_bind ends_query ?_
  rintro _ s₁ ⟨rfl, -⟩
  have hdone : (⟨some .completed, ""⟩ : AnnounceState).Same ⟨some .completed, ""⟩ := rfl
  refine (announceUpsert_sim h₂ hdone hby).bind ?_
  rintro a₃ _ b₃ _ ⟨h₃, rfl, rfl⟩
  -- the status that is recorded does not depend on the message
  have hlast : (if a₃.state.isSome then a₃ else
      .failed "internal error: state not set before updating key state" : AnnounceState).state =
        (if b₃.state.isSome then b₃ else
          .failed "internal error: state not set before updating key state" : AnnounceState).state := by
    rw [← show b₃.state = a₃.state from h₃]
    split
    · exact h₃.symm
    · rfl
  have hupdate : ∀ st, updateKeyState e .updateKeyStates k'.tenantID k'.id
      ⟨[.preActivation], .preActivation, [.inProgress], st⟩ =
        updateKeyState e .updateKeyStates k.tenantID k.id ⟨[.preActivation], .preActivation, [.inProgress], st⟩ := by
    intro st
    unfold updateKeyState
    simp only [DB.updateKeyStates_congr (congrArg uuidIn hid) ht]
  dsimp only
  rw [hupdate, hlast]
  exact Tx.Sim.same_bind (P := fun _ _ => True) trivial fun _ _ _ => .pure ⟨hlast.symm, rfl⟩

/-- What orbital and the world see of a delivery. -/
theorem handleAnnounce_congr (hid : k'.id = k.id) (hby : k'.managedBy = k.managedBy)
    (ht : uuidIn k'.tenantID = uuidIn k.tenantID) (n : Nat) :
    (handleAnnounce R e k' w).2 = (handleAnnounce R e k w).2 ∧
      (handleAnnounce R e k' w).1.event n = (handleAnnounce R e k w).1.event n := by
  have hend : SameEnd (fun a b : AnnounceState => b.Same a) (fun _ _ => True)
      (transaction e id (announceTaskSteps R e k') w) (transaction e id (announceTaskSteps R e k) w) := by
    refine transaction_sameEnd trivial ?_
    have hsim := announceTaskSteps_sim (R := R) (e := e) (s := w.session) hid hby ht
    unfold Tx.Sim at hsim ⊢
    split at hsim
    · obtain ⟨hab, rfl⟩ := hsim
      exact ⟨hab, trivial, rfl, rfl, rfl⟩
    · exact hsim
    · exact hsim
  unfold handleAnnounce
  obtain ⟨hres, -, hworld⟩ := hend
  generalize transaction e id (announceTaskSteps R e k') w = out' at hres hworld ⊢
  generalize transaction e id (announceTaskSteps R e k) w = out at hres hworld ⊢
  obtain ⟨r', gs', w'⟩ := out'
  obtain ⟨r, gs, w''⟩ := out
  cases hworld
  rcases hres with ⟨err, h₁, h₂⟩ | ⟨a, b, h₁, h₂, hab⟩ <;> cases h₁ <;> cases h₂
  · exact ⟨rfl, rfl⟩
  · refine ⟨rfl, ?_⟩
    dsimp only
    rw [show b.state = a.state from hab]
    split <;> rfl

theorem Job.resolve_normal (job : Job) : (job.normal R).resolve = job.resolve.map (RootTask.normal R) := by
  cases job with
  | announce key => rfl
  | layer action ids =>
    simp only [Job.normal, Job.resolve]
    split
    · rfl
    · simp [JobEvent.map, RootTask.normal, Function.comp_def]

theorem Job.confirm_normal (job : Job) : ((job.normal R).confirm e w).2 = (job.confirm e w).2 ∧
    ((job.normal R).confirm e w).1.event = (job.confirm e w).1.event := by
  cases job with
  | announce key => exact confirmAnnounce_congr Key.normal_identifiers.1 Key.normal_identifiers.2
  | layer action ids => exact ⟨rfl, rfl⟩

theorem RootTask.handle_normal (t : RootTask) (n : Nat) : ((t.normal R).handle R e w).2 = (t.handle R e w).2 ∧
    ((t.normal R).handle R e w).1.event n = (t.handle R e w).1.event n := by
  cases t with
  | announce key => exact handleAnnounce_congr Key.normal_identifiers.1 Key.normal_managedBy Key.normal_identifiers.2 n
  | action a kid => exact ⟨rfl, rfl⟩

/-- Only a task that sends nothing has another normal form. -/
theorem RootTask.sends_normal (t : RootTask) (site : RpcSite) : (t.normal R).sends R e w site = t.sends R e w site := by
  cases t with
  | action a kid => rfl
  | announce key =>
    by_cases hby : R.calls key.managedBy = true
    · have hk : key.normal R = key := if_pos hby
      rw [RootTask.normal, hk]
    · have hnone : ∀ k : Key, ¬ R.calls k.managedBy = true → (RootTask.announce k).sends R e w site = none := by
        intro k hk
        unfold RootTask.sends
        rw [Option.filter_eq_none_iff]
        intro r hr
        have hr1 : r.1 = k.managedBy := by
          cases site <;> dsimp only [RootTask.request] at hr
          · split at hr <;> cases hr
            rfl
          · split at hr <;> cases hr
            rfl
          · cases hr
        rw [hr1]
        exact hk
      rw [hnone key hby]
      exact hnone _ fun h => hby (Key.normal_managedBy (k := key) ▸ h)

theorem JobState.map_normal_normal (j : JobState Job RootTask) :
    (j.map (Job.normal R) (RootTask.normal R)).map (Job.normal R) (RootTask.normal R) =
      j.map (Job.normal R) (RootTask.normal R) := by
  have hjob : ∀ job : Job, (job.normal R).normal R = job.normal R := by
    rintro (key | ids)
    · exact congrArg Job.announce Key.normal_normal
    · rfl
  have htask : ∀ t : RootTask, (t.normal R).normal R = t.normal R := by
    rintro (key | kid)
    · exact congrArg RootTask.announce Key.normal_normal
    · rfl
  simp [JobState.map, hjob, htask, Function.comp_def]

theorem RootState.normal_normal (s : RootState) : (s.normal R).normal R = s.normal R := by
  simp [RootState.normal, mapGroups, JobState.map_normal_normal, Function.comp_def]

theorem RootState.acceptingJob_normal (s : RootState) (g i : Nat) : (s.normal R).acceptingJob g i .confirmed =
    (s.acceptingJob g i .confirmed).map (JobState.map (Job.normal R) (RootTask.normal R)) := by
  unfold RootState.acceptingJob
  rw [RootState.normal, mapGroups, List.getElem?_map]
  cases s.groups[g]? with
  | none => rfl
  | some G =>
    have hacc := Group.accepts_map (f := Job.normal R) (h := RootTask.normal R) G i .confirmed
    simp only [Option.map_some, Option.bind_some]
    rw [show (JobEvent.map (RootTask.normal R) .confirmed : JobEvent RootTask) = .confirmed from rfl] at hacc
    rw [hacc, List.getElem?_map]
    split <;> rfl

theorem RootState.taskAt_normal (s : RootState) (g i n : Nat) :
    (s.normal R).taskAt g i n = (s.taskAt g i n).map (RootTask.normal R) := by
  unfold RootState.taskAt
  rw [RootState.normal, mapGroups, List.getElem?_map]
  cases s.groups[g]? with
  | none => rfl
  | some G =>
    simp only [Option.map_some, Option.bind_some, List.getElem?_map]
    cases G[i]? with
    | none => rfl
    | some j =>
      simp only [Option.map_some, Option.bind_some, JobState.map, List.getElem?_map]
      cases j.tasks[n]? <;> rfl

/-- Answers are recorded whatever the jobs carry. -/
theorem RootState.record_normal (s : RootState) (g i : Nat) (recorded : Bool) {ev : Option (JobEvent RootTask)}
    (hev : ∀ tasks, ev ≠ some (.resolved tasks)) :
    (s.normal R).record g i recorded ev = mapGroups (Job.normal R) (RootTask.normal R) (s.record g i recorded ev) := by
  unfold RootState.record
  cases recorded with
  | false => rfl
  | true =>
    cases ev with
    | none => rfl
    | some ev =>
      dsimp only
      rw [applyAt_map]
      cases ev with
      | resolved tasks => exact absurd rfl (hev tasks)
      | _ => rfl

/-- Recording an answer in a state or in its normal form leads to the same normal form. -/
theorem RootState.normal_record (s : RootState) (w : World) (g i : Nat) (recorded : Bool)
    {ev : Option (JobEvent RootTask)} (hev : ∀ tasks, ev ≠ some (.resolved tasks)) :
    RootState.normal R ⟨w, (s.normal R).record g i recorded ev⟩ = RootState.normal R ⟨w, s.record g i recorded ev⟩ := by
  rw [s.record_normal g i recorded hev]
  exact RootState.normal_normal ⟨w, _⟩

/-- So does applying an event. -/
theorem RootState.normal_applyAt (s : RootState) (g i : Nat) (ev : JobEvent RootTask) :
    RootState.normal R ⟨s.world, applyAt (s.normal R).groups g i (ev.map (RootTask.normal R))⟩ =
      RootState.normal R ⟨s.world, applyAt s.groups g i ev⟩ := by
  have hgroups : (s.normal R).groups = mapGroups (Job.normal R) (RootTask.normal R) s.groups := rfl
  rw [hgroups, ← applyAt_map]
  exact RootState.normal_normal (R := R) ⟨s.world, applyAt s.groups g i ev⟩

theorem ConfirmResult.event_ne_resolved (r : ConfirmResult) (tasks : List RootTask) :
    r.event ≠ some (.resolved tasks) := by
  cases r <;> nofun

theorem Response.event_ne_resolved (r : Response) (n : Nat) (tasks : List RootTask) :
    r.event n ≠ some (.resolved tasks) := by
  cases r <;> nofun

/-- **Spellings do not matter to the steps.** A step from the normal form of a state leads to the same normal form. -/
theorem step_normal (s : RootState) (op : Env × Op) : (step R (s.normal R) op).normal R = (step R s op).normal R := by
  obtain ⟨e, op⟩ := op
  have hworld : (s.normal R).world = s.world := rfl
  cases op with
  | admin call =>
    rw [step_admin, step_admin]
    simp only [RootState.normal, mapGroups, List.map_append, List.map_map]
    congr 1
    refine congrArg (· ++ _) (List.map_congr_left fun G _ => ?_)
    simp [JobState.map_normal_normal, Function.comp_def]
  | confirmJob g i recorded =>
    simp only [step]
    rw [RootState.acceptingJob_normal]
    cases s.acceptingJob g i .confirmed with
    | none => exact s.normal_normal
    | some j =>
      simp only [Option.map_some, JobState.map]
      split
      · obtain ⟨hend, hevent⟩ := j.data.confirm_normal (R := R) (e := e) (w := s.world)
        rw [hworld, hend, hevent]
        exact s.normal_record _ g i recorded (ConfirmResult.event_ne_resolved _)
      · exact s.normal_normal
  | resolveTasks g i =>
    simp only [step]
    rw [RootState.acceptingJob_normal]
    cases s.acceptingJob g i .confirmed with
    | none => exact s.normal_normal
    | some j =>
      simp only [Option.map_some, JobState.map, Job.resolve_normal]
      split
      · exact s.normal_applyAt g i j.data.resolve
      · exact s.normal_normal
  | handle g i task recorded =>
    have htask := s.taskAt_normal (R := R) g i task
    unfold RootState.taskAt at htask
    simp only [step]
    cases hat : (s.groups[g]?.bind fun G => G[i]?.bind fun j => j.tasks[task]?) with
    | none =>
      rw [hat] at htask
      rw [Option.map_eq_none_iff.1 htask]
      exact s.normal_normal
    | some t =>
      obtain ⟨t, st⟩ := t
      rw [hat] at htask
      obtain ⟨⟨t', st'⟩, hat', heq⟩ := Option.map_eq_some_iff.1 htask
      have heq : t' = t.normal R := heq
      subst heq
      obtain ⟨hend, hevent⟩ := t.handle_normal (R := R) (e := e) (w := s.world) task
      rw [hat']
      dsimp only
      rw [hworld, hend, hevent]
      exact s.normal_record _ g i recorded (Response.event_ne_resolved _ _)
  | cancel g i =>
    rw [step_cancel, step_cancel]
    exact s.normal_applyAt g i .canceled

/-- States with the same normal form stay so. -/
theorem run_normal {s s' : RootState} (h : s.normal R = s'.normal R) (ops : List (Env × Op)) :
    (run (step R) s ops).normal R = (run (step R) s' ops).normal R := by
  induction ops generalizing s s' with
  | nil => exact h
  | cons op ops ih =>
    refine ih ?_
    rw [← step_normal s op, ← step_normal s' op, h]

end

end Krypton
