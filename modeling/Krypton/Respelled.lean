import Krypton.Ancestors
import Krypton.Spelling
import Krypton.Upserts

/-!
# Respelled calls

A call with other texts for the same identifiers. Each call is compared with the one that gives its identifiers in the
standard spelling; `SpellingFree` says, for a call and the state before it, that the spelling does not count.

* `spelling_irrelevant` — two spellings of a call that meet the condition are answered alike, and no later call and no
  request to an agent tells them apart; a call that is accepted in the standard spelling and that nothing tells apart
  from it meets the condition;
* `spelling_matters` — calls for which the spelling counts.
-/

namespace Krypton

open Lib Validator

/-! ## Spellings of a call -/

/-- The texts are equal or spell the same identifier. -/
def Respells (a b : String) : Prop := a = b ∨ ∃ u, uuidParse a = some u ∧ uuidParse b = some u

theorem Respells.standardText_eq {a b : String} (h : Respells a b) : standardText a = standardText b := by
  rcases h with rfl | ⟨u, ha, hb⟩
  · rfl
  · rw [standardText, standardText, ha, hb]
    rfl

/-- The result of a call, without the value it returns. -/
def AdminCall.outcome (R : RootProcess) (e : Env) (w : World) : AdminCall → Except Err Unit
  | .createTenant name labels => (Krypton.createTenant e name labels w).1.map fun _ => ()
  | .announceKey req => (Krypton.announceKey R e req w).1.map fun _ => ()
  | .keyAction action req => (Krypton.keyAction e action req w).1
  | .createProvider req => (Krypton.createProvider R e req w).1
  | .rotateAuth tenantID keyID auth => (Krypton.rotateAuth e tenantID keyID auth w).1
  | .rotateProviderKey tenantID keyID key => (Krypton.rotateProviderKey e tenantID keyID key w).1
  | .removeProvider tenantID keyID => (Krypton.removeProvider e tenantID keyID w).1

/-- What the handler of the task at a place sends to an agent. -/
def RootState.sent (R : RootProcess) (e : Env) (s : RootState) (g i task : Nat) (site : RpcSite) :
    Option (String × AgentRequest × String) :=
  (s.taskAt g i task).bind fun t => t.sends R e s.world site

/-- The same call with other texts for its identifiers. -/
inductive AdminCall.Respelled : AdminCall → AdminCall → Prop
  | announceKey {req : AnnounceKeyRequest} {tenantID parentID : String} : Respells req.tenantID tenantID →
      Respells req.parentID parentID → Respelled (.announceKey req) (.announceKey { req with tenantID, parentID })
  | keyAction {action : ActionType} {req : KeyRequest} {tenantID id : String} : Respells req.tenantID tenantID →
      Respells req.id id → Respelled (.keyAction action req) (.keyAction action { req with tenantID, id })
  | createProvider {req : CreateProviderRequest} {tenantID keyID : String} : Respells req.tenantID tenantID →
      Respells req.keyID keyID → Respelled (.createProvider req) (.createProvider { req with tenantID, keyID })
  | rotateAuth {tenantID keyID tenantID' keyID' : String} {auth : ProviderChoice Unit} : Respells tenantID tenantID' →
      Respells keyID keyID' → Respelled (.rotateAuth tenantID keyID auth) (.rotateAuth tenantID' keyID' auth)
  | rotateProviderKey {tenantID keyID tenantID' keyID' : String} {key : ProviderChoice String} :
      Respells tenantID tenantID' → Respells keyID keyID' →
      Respelled (.rotateProviderKey tenantID keyID key) (.rotateProviderKey tenantID' keyID' key)

def AnnounceKeyRequest.standard (req : AnnounceKeyRequest) : AnnounceKeyRequest :=
  { req with tenantID := standardText req.tenantID, parentID := standardText req.parentID }

/-- The call in the standard spelling. -/
def AdminCall.standard : AdminCall → AdminCall
  | .announceKey req => .announceKey req.standard
  | .keyAction action req =>
    .keyAction action { req with tenantID := standardText req.tenantID, id := standardText req.id }
  | .createProvider req =>
    .createProvider { req with tenantID := standardText req.tenantID, keyID := standardText req.keyID }
  | .rotateAuth tenantID keyID auth => .rotateAuth (standardText tenantID) (standardText keyID) auth
  | .rotateProviderKey tenantID keyID key => .rotateProviderKey (standardText tenantID) (standardText keyID) key
  | .createTenant name labels => .createTenant name labels
  | .removeProvider tenantID keyID => .removeProvider tenantID keyID

theorem AdminCall.Respelled.standard_eq {c c' : AdminCall} (h : c.Respelled c') : c.standard = c'.standard := by
  cases h with
  | announceKey ht hp =>
    simp only [AdminCall.standard, AnnounceKeyRequest.standard, ht.standardText_eq, hp.standardText_eq]
  | keyAction ht hid => simp only [AdminCall.standard, ht.standardText_eq, hid.standardText_eq]
  | createProvider ht hid => simp only [AdminCall.standard, ht.standardText_eq, hid.standardText_eq]
  | rotateAuth ht hid => simp only [AdminCall.standard, ht.standardText_eq, hid.standardText_eq]
  | rotateProviderKey ht hid => simp only [AdminCall.standard, ht.standardText_eq, hid.standardText_eq]

/-! ## When the spelling does not count -/

/-- The key is where an activation takes it. -/
def Key.isActivated (k : Key) : Bool := k.lifeCycleState == .active && k.status == .completed

/-- The check of the ancestors ends alike whether or not it takes the key for one of them: the key is active, or another
key of its chain is not. -/
def ParentsDecide (db : DB) (tenantID id : String) : Prop :=
  ∀ k, db.getKeyByID id tenantID = .ok k →
    k.isActivated = true ∨ ∃ a ∈ db.chain db.keys.rows.length k, a.id ≠ k.id ∧ a.isActivated = false

/-- The text of the tenant is no URN, and if the tenant is there, so is the rest. -/
def OnTenant (db : DB) (tenantID : String) (rest : Prop) : Prop :=
  isURN tenantID = false ∧ (validateTenant tenantID db = .ok () → rest)

/-- The announced key is not a stored one, in the standard spelling, and not stored as the key of an agent. -/
structure AnnounceKeyRequest.Apart (R : RootProcess) (db : DB) (req : AnnounceKeyRequest) : Prop where
  not_adopted : ∀ r ∈ db.keys.rows, uuidIn req.tenantID = some r.tenantID → r.name = req.name →
    ∀ e, r.isSame (announcedKey R e req.standard) = false
  not_sent : (∃ r ∈ db.keys.rows, uuidIn req.tenantID = some r.tenantID ∧ r.name = req.name) ∨
    R.calls (if req.targetName = "" then R.cfg.name else req.targetName) = false

/-- The spelling of the call does not count in this state. A condition counts only for a call that comes so far. -/
def AdminCall.SpellingFree (R : RootProcess) (w : World) : AdminCall → Prop
  | .announceKey req => validateKeyAnnounceRequest req.input R.cfg = .ok () → OnTenant w.db req.tenantID
      (isURN req.parentID = false ∧
        ((∀ e, validateKeyHierarchy (announcedKey R e req) R.cfg.hierarchy w.db = .ok ()) →
          (Standard req.tenantID ∧ Standard req.parentID) ∨ req.Apart R w.db))
  | .keyAction action req => validateKeyRequest req.tenantID req.id = .ok () → OnTenant w.db req.tenantID
      (isURN req.id = false ∧ (action = .activate → Standard req.id ∨ ParentsDecide w.db req.tenantID req.id))
  | .createProvider req => ∀ spec providerKeyID, req.spec = .ok (spec, providerKeyID) →
      R.allowed.contains spec.type = true → spec.validate = .ok () → OnTenant w.db req.tenantID
        (isURN req.keyID = false ∧ (validateKeyUsage req.tenantID req.keyID .link w.db = .ok () →
          (Standard req.tenantID ∧ Standard req.keyID) ∨ (w.specs (req.tenantID, req.keyID) = some spec ∧
            w.specs (standardText req.tenantID, standardText req.keyID) = some spec)))
  | .rotateAuth tenantID keyID auth => ∀ t a, (validateIDs tenantID keyID >>= fun _ => providerAuth auth) = .ok (t, a) →
      OnTenant w.db tenantID (isURN keyID = false ∧ (validateKeyUsage tenantID keyID .rotate w.db = .ok () →
        (Standard tenantID ∧ Standard keyID) ∨ SpecsAgree w.specs (tenantID, keyID)
          (standardText tenantID, standardText keyID) t fun sp => sp.auth = some a))
  | .rotateProviderKey tenantID keyID key => ∀ t id,
      (validateIDs tenantID keyID >>= fun _ => providerKey key) = .ok (t, id) →
      OnTenant w.db tenantID (isURN keyID = false ∧ (validateKeyUsage tenantID keyID .rotate w.db = .ok () →
        (Standard tenantID ∧ Standard keyID) ∨ SpecsAgree w.specs (tenantID, keyID)
          (standardText tenantID, standardText keyID) t fun _ => True))
  | .createTenant _ _ | .removeProvider _ _ => True

/-! ## Calls whose spelling does not count -/

/-- How two calls compare that go the same way. -/
structure AdminCall.Similar (R : RootProcess) (e : Env) (w : World) (c c' : AdminCall) : Prop where
  outcome : c.outcome R e w = c'.outcome R e w
  groups : (c.run R e w).1.map (List.map (Job.normal R)) = (c'.run R e w).1.map (List.map (Job.normal R))
  world : (c.run R e w).2 = (c'.run R e w).2

section
variable {R : RootProcess} {e : Env} {w : World} {c c' : AdminCall}

theorem AdminCall.Similar.refl : c.Similar R e w c := ⟨rfl, rfl, rfl⟩

theorem AdminCall.Similar.symm (h : c.Similar R e w c') : c'.Similar R e w c :=
  ⟨h.outcome.symm, h.groups.symm, h.world.symm⟩

theorem AdminCall.Similar.trans {c₁ c₂ c₃ : AdminCall} (h : c₁.Similar R e w c₂) (h' : c₂.Similar R e w c₃) :
    c₁.Similar R e w c₃ :=
  ⟨h.outcome.trans h'.outcome, h.groups.trans h'.groups, h.world.trans h'.world⟩

theorem mem_of_mem_chain {db : DB} : ∀ {n : Nat} {k a : Key}, k ∈ db.keys.rows → a ∈ db.chain n k → a ∈ db.keys.rows
  | 0, k, a, hk, ha => by
    rw [List.mem_singleton.1 ha]
    exact hk
  | n + 1, k, a, hk, ha => by
    rw [DB.chain_succ, List.mem_cons] at ha
    rcases ha with rfl | ha
    · exact hk
    · cases hp : db.parentOf k with
      | none =>
        rw [hp] at ha
        cases ha
      | some p =>
        rw [hp] at ha
        exact mem_of_mem_chain (DB.mem_of_parentOf hp).1 ha

theorem validateKeyParents_eq {db : DB} {tenantID id : String} {k : Key} (hk : db.getKeyByID id tenantID = .ok k) :
    validateKeyParents tenantID id db = check ((db.chain db.keys.rows.length k).all fun a =>
      a.id == id || a.isActivated) (.of .parentKeyTransientState) := by
  have hparents : db.getParentKeys id tenantID = .ok (db.chain db.keys.rows.length k).reverse := by
    rw [DB.getParentKeys, hk]
  rw [validateKeyParents, hparents]
  refine (checkAll_check _).trans ?_
  rw [List.all_reverse]
  rfl

/-- The text of the key counts in the check of its ancestors only if it is up to it. -/
theorem validateKeyParents_standard {db : DB} {tenantID id : String} (ht : isURN tenantID = false)
    (hid : isURN id = false) (h : Standard id ∨ ParentsDecide db tenantID id) :
    validateKeyParents tenantID id db = validateKeyParents (standardText tenantID) (standardText id) db := by
  have hget : db.getKeyByID id tenantID = db.getKeyByID (standardText id) (standardText tenantID) :=
    DB.getKeyByID_congr (alike_standardText hid).read (alike_standardText ht).read
  cases hk : db.getKeyByID id tenantID with
  | error err =>
    rw [validateKeyParents, validateKeyParents, DB.getParentKeys, DB.getParentKeys, ← hget, hk]
    rfl
  | ok k =>
    rw [validateKeyParents_eq hk, validateKeyParents_eq (hget.symm.trans hk)]
    congr 1
    rcases h with h | h
    · rw [show standardText id = id from h]
    · obtain ⟨hmem, hidk, -⟩ := DB.getKeyByID_ok hk
      -- a text that is read as the key's identifier is equal to that of no other key
      have hother : ∀ a ∈ db.chain db.keys.rows.length k, ∀ s, uuidIn s = some k.id → a.id = s → a = k := by
        rintro a ha s hs rfl
        have harow := mem_of_mem_chain hmem ha
        exact DB.key_eq_of_id harow hmem (Option.some.inj ((DB.key_canonical harow).1.symm.trans hs))
      have hidk' : uuidIn (standardText id) = some k.id := by rw [← (alike_standardText hid).read, hidk]
      rcases h k hk with hready | ⟨a, ha, hne, hno⟩
      · have hall : ∀ s, uuidIn s = some k.id →
            ((db.chain db.keys.rows.length k).all fun a => a.id == s || a.isActivated) =
            (db.chain db.keys.rows.length k).all Key.isActivated := by
          intro s hs
          rw [Bool.eq_iff_iff, List.all_eq_true, List.all_eq_true]
          refine forall₂_congr fun a ha => ?_
          rw [Bool.or_eq_true, beq_iff_eq]
          refine or_iff_right_of_imp fun heq => ?_
          rw [hother a ha s hs heq]
          exact hready
        rw [hall id hidk, hall _ hidk']
      · have hfalse : ∀ s, uuidIn s = some k.id →
            ((db.chain db.keys.rows.length k).all fun a => a.id == s || a.isActivated) = false := by
          intro s hs
          refine List.all_eq_false.2 ⟨a, ha, ?_⟩
          rw [Bool.or_eq_true, beq_iff_eq, hno, not_or]
          exact ⟨fun heq => hne (congrArg Key.id (hother a ha s hs heq)), Bool.false_ne_true⟩
        rw [hfalse id hidk, hfalse _ hidk']

theorem keyAction_similar {action : ActionType} {req : KeyRequest}
    (h : (AdminCall.keyAction action req).SpellingFree R w) :
    (AdminCall.keyAction action req).Similar R e w (AdminCall.keyAction action req).standard := by
  obtain ⟨tenantID, id, cascading⟩ := req
  have hvalid : validateKeyRequest tenantID id = validateKeyRequest (standardText tenantID) (standardText id) :=
    validateKeyRequest_congr (uuidParse_standardText id).symm (uuidParse_standardText tenantID).symm
  have heq : keyAction e action ⟨tenantID, id, cascading⟩ w =
      keyAction e action ⟨standardText tenantID, standardText id, cascading⟩ w := by
    cases hv : validateKeyRequest tenantID id with
    | error err => simp only [keyAction, hv, ← hvalid]
    | ok _ =>
      obtain ⟨ht, hrest⟩ := h hv
      refine keyAction_congr hvalid (alike_standardText ht) fun hok => ?_
      obtain ⟨hid, hparents⟩ := hrest hok
      exact ⟨alike_standardText hid, fun ha => validateKeyParents_standard ht hid (hparents ha)⟩
  exact ⟨congrArg Prod.fst heq, congrArg (fun r => r.2.1.map (List.map (Job.normal R))) heq, congrArg (·.2.2) heq⟩

/-- A stored key has the texts of its identifiers in the standard spelling. -/
theorem isSame_standard {r : Key} {req : AnnounceKeyRequest} {db : DB} (hr : r ∈ db.keys.rows)
    (h : r.isSame (announcedKey R e req) = true) : Standard req.tenantID ∧ Standard req.parentID := by
  obtain ⟨hp, -, ht, -, -⟩ := Key.isSame_iff.1 h
  have ht : r.tenantID = req.tenantID := ht
  refine ⟨ht ▸ (DB.key_canonical hr).2.standard, ?_⟩
  simp only [announcedKey, newKey] at hp
  split at hp
  · rename_i hempty
    rw [hempty]
    decide
  · exact (key_parent_canonical hr hp).standard

theorem announcedKey_respelled {req : AnnounceKeyRequest} (ht : isURN req.tenantID = false)
    (hp : isURN req.parentID = false) : (announcedKey R e req).Respelled (announcedKey R e req.standard) where
  tenantID := alike_standardText ht
  parentID := by
    have halike := alike_standardText hp
    unfold announcedKey newKey AnnounceKeyRequest.standard
    dsimp only
    by_cases hempty : req.parentID = ""
    · rw [if_pos hempty, if_pos (halike.empty_iff.1 hempty)]
      exact .none
    · rw [if_neg hempty, if_neg fun h => hempty (halike.empty_iff.2 h)]
      exact .some halike
  others := rfl

theorem announceKey_similar {req : AnnounceKeyRequest} (h : (AdminCall.announceKey req).SpellingFree R w) :
    (AdminCall.announceKey req).Similar R e w (AdminCall.announceKey req).standard := by
  have hvalid : validateKeyAnnounceRequest req.standard.input R.cfg = validateKeyAnnounceRequest req.input R.cfg := by
    unfold validateKeyAnnounceRequest
    rw [show isValidUUID req.standard.input.tenantID = isValidUUID req.input.tenantID from
      isValidUUID_congr (uuidParse_standardText _)]
    rfl
  have hend : SameEnd (fun _ _ => True)
      (fun gs gs' => gs.map (List.map (Job.normal R)) = gs'.map (List.map (Job.normal R)))
      (announceKey R e req w) (announceKey R e req.standard w) ∨ req.standard = req := by
    unfold announceKey
    rw [hvalid]
    cases hv : validateKeyAnnounceRequest req.input R.cfg with
    | error err => exact .inl ⟨.inl ⟨err, rfl, rfl⟩, rfl, rfl⟩
    | ok _ =>
      obtain ⟨ht, hrest⟩ := h hv
      by_cases hstandard : Standard req.tenantID ∧ Standard req.parentID
      · refine .inr ?_
        unfold AnnounceKeyRequest.standard
        rw [show standardText req.tenantID = req.tenantID from hstandard.1,
          show standardText req.parentID = req.parentID from hstandard.2]
      · refine .inl (transaction_sameEnd rfl (announceSteps_sim (alike_standardText ht) fun hok => ?_))
        obtain ⟨hp, hapart⟩ := hrest hok
        refine ⟨announcedKey_respelled ht hp, fun hhier => ?_⟩
        obtain ⟨hno, hsent⟩ := (hapart fun _ => hhier).resolve_left hstandard
        refine ⟨fun r hr htenant hname => ⟨?_, hno r hr htenant hname e⟩, hsent⟩
        rw [Bool.eq_false_iff]
        exact fun hsame => hstandard (isSame_standard hr hsame)
  rcases hend with hend | hself
  · exact ⟨hend.code, hend.groups, hend.world⟩
  · simp only [AdminCall.standard, hself]
    exact .refl

theorem validateIDs_standardText (tenantID keyID : String) :
    validateIDs (standardText tenantID) (standardText keyID) = validateIDs tenantID keyID :=
  validateIDs_congr (uuidParse_standardText keyID) (uuidParse_standardText tenantID)

theorem CreateProviderRequest.spec_standardText (req : CreateProviderRequest) : CreateProviderRequest.spec { req with
    tenantID := standardText req.tenantID, keyID := standardText req.keyID } = req.spec := by
  unfold CreateProviderRequest.spec
  dsimp only
  rw [validateIDs_standardText]

/-- The transaction of a provider call. With standard texts nothing is changed; with others the steps go the same way if
the providers under the two names, `rest`, are such. -/
theorem OnTenant.transaction_eq {tenantID keyID : String} {usage : KeyUsage} {rest : Prop}
    (steps : String → String → Step Unit)
    (h : OnTenant w.db tenantID (isURN keyID = false ∧ (validateKeyUsage tenantID keyID usage w.db = .ok () →
      (Standard tenantID ∧ Standard keyID) ∨ rest)))
    (hsteps : Alike tenantID (standardText tenantID) →
      (validateTenant tenantID w.db = .ok () → Alike keyID (standardText keyID) ∧
        (validateKeyUsage tenantID keyID usage w.db = .ok () → rest)) →
      steps tenantID keyID w.session = steps (standardText tenantID) (standardText keyID) w.session) :
    transaction e id (steps tenantID keyID) w =
      transaction e id (steps (standardText tenantID) (standardText keyID)) w := by
  obtain ⟨ht, hrest⟩ := h
  by_cases hstandard : Standard tenantID ∧ Standard keyID
  · rw [show standardText tenantID = tenantID from hstandard.1, show standardText keyID = keyID from hstandard.2]
  · refine transaction_congr (hsteps (alike_standardText ht) fun hok => ?_)
    obtain ⟨hid, hspecs⟩ := hrest hok
    exact ⟨alike_standardText hid, fun husage => (hspecs husage).resolve_left hstandard⟩

theorem createProvider_similar {req : CreateProviderRequest} (h : (AdminCall.createProvider req).SpellingFree R w) :
    (AdminCall.createProvider req).Similar R e w (AdminCall.createProvider req).standard := by
  have heq : createProvider R e req w = createProvider R e { req with
      tenantID := standardText req.tenantID, keyID := standardText req.keyID } w := by
    unfold createProvider
    rw [req.spec_standardText]
    rcases hs : req.spec with err | ⟨spec, providerKeyID⟩
    · rfl
    · dsimp only
      by_cases hallowed : R.allowed.contains spec.type = true
      · cases hvalid : spec.validate with
        | error err => rfl
        | ok _ =>
          have hfree := h spec providerKeyID hs hallowed hvalid
          have htx := hfree.transaction_eq (e := e) (fun t i => createProviderSteps e t i spec providerKeyID)
            fun ht hrest => createProviderSteps_congr ht hrest
          dsimp only at htx ⊢
          rw [htx]
      · simp only [hallowed, Bool.not_false, if_true]
  have hworld := congrArg Prod.snd heq
  exact ⟨congrArg Prod.fst heq, rfl, hworld⟩

theorem rotateAuth_similar {tenantID keyID : String} {auth : ProviderChoice Unit}
    (h : (AdminCall.rotateAuth tenantID keyID auth).SpellingFree R w) :
    (AdminCall.rotateAuth tenantID keyID auth).Similar R e w (AdminCall.rotateAuth tenantID keyID auth).standard := by
  have heq : rotateAuth e tenantID keyID auth w = rotateAuth e (standardText tenantID) (standardText keyID) auth w := by
    unfold rotateAuth
    rw [validateIDs_standardText]
    rcases hs : (validateIDs tenantID keyID >>= fun _ => providerAuth auth) with err | ⟨t, a⟩
    · rfl
    · have htx := (h t a hs).transaction_eq (e := e) (fun tenantID keyID => rotateAuthSteps e tenantID keyID t a)
        fun ht hrest => rotateAuthSteps_congr ht hrest
      dsimp only at htx ⊢
      rw [htx]
  have hworld := congrArg Prod.snd heq
  exact ⟨congrArg Prod.fst heq, rfl, hworld⟩

theorem rotateProviderKey_similar {tenantID keyID : String} {key : ProviderChoice String}
    (h : (AdminCall.rotateProviderKey tenantID keyID key).SpellingFree R w) :
    (AdminCall.rotateProviderKey tenantID keyID key).Similar R e w
      (AdminCall.rotateProviderKey tenantID keyID key).standard := by
  have heq : rotateProviderKey e tenantID keyID key w =
      rotateProviderKey e (standardText tenantID) (standardText keyID) key w := by
    unfold rotateProviderKey
    rw [validateIDs_standardText]
    rcases hs : (validateIDs tenantID keyID >>= fun _ => providerKey key) with err | ⟨t, id⟩
    · rfl
    · have htx := (h t id hs).transaction_eq (e := e)
        (fun tenantID keyID => rotateProviderKeySteps e tenantID keyID t id)
        fun ht hrest => rotateProviderKeySteps_congr ht hrest
      dsimp only at htx ⊢
      rw [htx]
  have hworld := congrArg Prod.snd heq
  exact ⟨congrArg Prod.fst heq, rfl, hworld⟩

/-- A call whose spelling does not count goes the way of the standard spelling. -/
theorem AdminCall.SpellingFree.similar (h : c.SpellingFree R w) : c.Similar R e w c.standard := by
  cases c with
  | announceKey req => exact announceKey_similar h
  | keyAction action req => exact keyAction_similar h
  | createProvider req => exact createProvider_similar h
  | rotateAuth tenantID keyID auth => exact rotateAuth_similar h
  | rotateProviderKey tenantID keyID key => exact rotateProviderKey_similar h
  | createTenant name labels => exact .refl
  | removeProvider tenantID keyID => exact .refl

/-- The states after two similar calls have the same normal form. -/
theorem AdminCall.Similar.step_normal {s : RootState} (h : c.Similar R e s.world c') :
    (step R s (e, .admin c)).normal R = (step R s (e, .admin c')).normal R := by
  have hgroups : ∀ gs : List JobGroup,
      mapGroups (Job.normal R) (RootTask.normal R) (gs.map fun jobs => jobs.map JobState.new) =
        (gs.map (List.map (Job.normal R))).map fun jobs => jobs.map JobState.new := by
    intro gs
    simp [mapGroups, JobState.map, JobState.new, Function.comp_def]
  have happend : ∀ gs gs' : List (Group Job RootTask), mapGroups (Job.normal R) (RootTask.normal R) (gs ++ gs') =
      mapGroups (Job.normal R) (RootTask.normal R) gs ++ mapGroups (Job.normal R) (RootTask.normal R) gs' :=
    fun _ _ => List.map_append
  rw [step_admin, step_admin]
  simp only [RootState.normal, happend, hgroups, h.groups, h.world]

/-- States with the same normal form send the same. -/
theorem RootState.sent_eq {s s' : RootState} (h : s.normal R = s'.normal R) (g i n : Nat) (site : RpcSite) :
    s.sent R e g i n site = s'.sent R e g i n site := by
  have hsent : ∀ s : RootState, s.sent R e g i n site = (s.normal R).sent R e g i n site := by
    intro s
    unfold RootState.sent
    rw [RootState.taskAt_normal]
    cases s.taskAt g i n with
    | none => rfl
    | some t => exact (t.sends_normal site).symm
  rw [hsent s, hsent s', h]

end

/-- The two calls are answered alike, and every later run goes through the same worlds, in which all calls and all seals
of the root manager are the same, and sends the same requests to agents. -/
structure AdminCall.SameBehaviour (R : RootProcess) (e : Env) (s : RootState) (c c' : AdminCall) : Prop where
  outcome : c.outcome R e s.world = c'.outcome R e s.world
  world : ∀ ops : List (Env × Op),
    (Lib.run (step R) (step R s (e, .admin c)) ops).world = (Lib.run (step R) (step R s (e, .admin c')) ops).world
  sent : ∀ (ops : List (Env × Op)) (e' : Env) (g i n : Nat) (site : RpcSite),
    (Lib.run (step R) (step R s (e, .admin c)) ops).sent R e' g i n site =
      (Lib.run (step R) (step R s (e, .admin c')) ops).sent R e' g i n site

theorem AdminCall.Similar.sameBehaviour {R : RootProcess} {e : Env} {s : RootState} {c c' : AdminCall}
    (h : c.Similar R e s.world c') : c.SameBehaviour R e s c' where
  outcome := h.outcome
  world ops := by
    have hworld := congrArg RootState.world (run_normal h.step_normal ops)
    exact hworld
  sent ops _ := RootState.sent_eq (run_normal h.step_normal ops)

/-! ## Accepted calls whose spelling does not count -/

section
variable {R : RootProcess} {e : Env} {w : World} {s : RootState}

/-- The database does not read the URN. -/
theorem isURN_of_uuidIn {t u : String} (h : uuidIn t = some u) : isURN t = false := by
  rw [Bool.eq_false_iff]
  intro hurn
  cases (uuidIn_of_urn hurn).symm.trans h

theorem isURN_of_validateTenant {db : DB} {tenantID : String} (h : validateTenant tenantID db = .ok ()) :
    isURN tenantID = false := by
  obtain ⟨t, ht⟩ := validateTenant_ok.1 h
  exact isURN_of_uuidIn (DB.getTenant_ok ht).2

theorem fetchKeytree_found {a : ApplyKeyActionRequest} {db : DB} {kt : KeyTree} (h : fetchKeytree a db = .ok kt) :
    ∃ k, db.getKeyByID a.keyID a.tenantID = .ok k := by
  unfold fetchKeytree at h
  split at h
  · obtain ⟨_, _, k, -, hk⟩ := DB.getKeyByID_of_descendants (mapError_eq_ok.1 h)
    exact ⟨k, hk⟩
  · obtain ⟨k, hk, -⟩ := bind_eq_ok.1 h
    exact ⟨k, mapError_eq_ok.1 hk⟩

/-- A lifecycle call that is accepted. -/
theorem keyAction_free {action : ActionType} {req : KeyRequest} (h : (keyAction e action req w).1 = .ok ()) :
    (AdminCall.keyAction action req).SpellingFree R w := by
  intro _
  have heff : ActionEffect e action req w (keyAction e action req w) := keyAction_effect
  generalize keyAction e action req w = out at h heff
  cases heff with
  | refused => cases h
  | accepted ht hsel hp =>
    obtain ⟨kt, hkt, -⟩ := hsel.fetched
    obtain ⟨k, hk⟩ := fetchKeytree_found hkt
    have hk : w.db.getKeyByID req.id req.tenantID = .ok k := hk
    obtain ⟨hmem, hid, -⟩ := DB.getKeyByID_ok hk
    refine ⟨isURN_of_validateTenant ht, fun _ => ⟨isURN_of_uuidIn hid, fun ha => ?_⟩⟩
    -- the key is in its own chain: it passed by its text or because it is active
    have hparents := hp ha
    rw [validateKeyParents_eq hk, check_eq_ok, List.all_eq_true] at hparents
    have hself := hparents k (List.mem_of_mem_head? (DB.head?_chain _ k))
    rw [Bool.or_eq_true, beq_iff_eq] at hself
    rcases hself with heq | hactive
    · exact .inl (heq ▸ (DB.key_canonical hmem).1.standard)
    · refine .inr fun k' hk' => .inl ?_
      cases hk.symm.trans hk'
      exact hactive

/-- If two calls put specs under different names and leave the same, the specs were there. -/
theorem specs_of_setSpec_eq {ids ids' : String × String} {spec spec' : Option SealerSpec} (hne : ids ≠ ids')
    (h : (w.setSpec ids.1 ids.2 spec).specs = (w.setSpec ids'.1 ids'.2 spec').specs) :
    w.specs ids = spec ∧ w.specs ids' = spec' := by
  constructor
  · have hat := congrFun h ids
    rw [World.setSpec_self, World.setSpec_of_ne hne] at hat
    exact hat.symm
  · have hat := congrFun h ids'
    rw [World.setSpec_self, World.setSpec_of_ne hne.symm] at hat
    exact hat

theorem MayUse.isURN {db : DB} {tenantID keyID : String} {usage : KeyUsage} {k : Key}
    (h : MayUse db tenantID keyID usage k) : Krypton.isURN tenantID = false ∧ Krypton.isURN keyID = false :=
  ⟨isURN_of_uuidIn h.hasKey.2.2, isURN_of_uuidIn h.hasKey.2.1⟩

/-- The names of a spec are other ones if a text is not standard. -/
theorem ids_ne_standard {tenantID keyID : String} (h : ¬ (Standard tenantID ∧ Standard keyID)) :
    (tenantID, keyID) ≠ (standardText tenantID, standardText keyID) := by
  intro heq
  exact h ⟨(congrArg Prod.fst heq).symm, (congrArg Prod.snd heq).symm⟩

theorem createProvider_ok {req : CreateProviderRequest} (h : (createProvider R e req w).1 = .ok ()) :
    ∃ spec providerKeyID k, req.spec = .ok (spec, providerKeyID) ∧ MayUse w.db req.tenantID req.keyID .link k ∧
      (createProvider R e req w).2.specs = (w.setSpec req.tenantID req.keyID (some spec)).specs := by
  have heff : CreateProviderEffect R e req w (createProvider R e req w) := createProvider_effect
  generalize createProvider R e req w = out at h heff
  cases heff with
  | refused => cases h
  | half _ _ _ _ => cases h
  | bound hspec _ _ hk _ => exact ⟨_, _, _, hspec, hk, rfl⟩

theorem rotateAuth_ok {tenantID keyID : String} {auth : ProviderChoice Unit} {t : SealerType} {a : SealerAuth}
    (hreq : (validateIDs tenantID keyID >>= fun _ => providerAuth auth) = .ok (t, a))
    (h : (rotateAuth e tenantID keyID auth w).1 = .ok ()) : ∃ k spec, MayUse w.db tenantID keyID .rotate k ∧
      w.specs (tenantID, keyID) = some spec ∧ spec.type = t ∧
      (rotateAuth e tenantID keyID auth w).2 = w.setSpec tenantID keyID (some { spec with auth := some a }) := by
  unfold rotateAuth at h ⊢
  rw [hreq] at h ⊢
  dsimp only at h ⊢
  rcases transaction_cases e id (ends_rotateAuthSteps (e := e) (s := w.session)) with
    ⟨_, s, hq, heq⟩ | ⟨er, s, -, heq⟩ | ⟨_, s, er, -, -, heq⟩ | ⟨er, -, heq⟩ <;> rw [heq] at h ⊢
  · obtain ⟨⟨_, herr⟩, -⟩ | ⟨-, k, spec, hk, hspec, htype, rfl⟩ := hq
    · cases herr
    · exact ⟨k, spec, hk, hspec, htype, rfl⟩
  · cases h
  · cases h
  · cases h

theorem rotateProviderKey_ok {tenantID keyID : String} {key : ProviderChoice String} {t : SealerType}
    {providerKeyID : String}
    (hreq : (validateIDs tenantID keyID >>= fun _ => providerKey key) = .ok (t, providerKeyID))
    (h : (rotateProviderKey e tenantID keyID key w).1 = .ok ()) : ∃ k spec, MayUse w.db tenantID keyID .rotate k ∧
      w.specs (tenantID, keyID) = some spec ∧ spec.type = t := by
  unfold rotateProviderKey at h
  rw [hreq] at h
  dsimp only at h
  rcases transaction_cases e id (ends_rotateProviderKeySteps (e := e) (t := t) (s := w.session)) with
    ⟨_, s, hq, heq⟩ | ⟨er, s, -, heq⟩ | ⟨_, s, er, -, -, heq⟩ | ⟨er, -, heq⟩ <;> rw [heq] at h
  · obtain ⟨⟨_, herr⟩, -⟩ | ⟨k, spec, _, _, _, hk, hspec, htype, -⟩ := hq
    · cases herr
    · exact ⟨k, spec, hk, hspec, htype⟩
  · cases h
  · cases h
  · cases h

theorem createProvider_free {req : CreateProviderRequest} (hok : (createProvider R e req s.world).1 = .ok ())
    (h : (AdminCall.createProvider req).SameBehaviour R e s (AdminCall.createProvider req).standard) :
    (AdminCall.createProvider req).SpellingFree R s.world := by
  intro spec providerKeyID hspec _ _
  obtain ⟨spec₁, id₁, k, hspec₁, hk, hspecs⟩ := createProvider_ok hok
  obtain ⟨spec₂, id₂, -, hspec₂, -, hspecs₂⟩ := createProvider_ok (h.outcome.symm.trans hok)
  cases hspec.symm.trans hspec₁
  cases (hspec₂.symm.trans req.spec_standardText).trans hspec
  refine ⟨hk.isURN.1, fun _ => ⟨hk.isURN.2, fun _ => ?_⟩⟩
  by_cases hstandard : Standard req.tenantID ∧ Standard req.keyID
  · exact .inl hstandard
  · have hworld := congrArg World.specs (h.world [])
    have heq : (s.world.setSpec req.tenantID req.keyID (some spec)).specs =
        (s.world.setSpec (standardText req.tenantID) (standardText req.keyID) (some spec)).specs :=
      hspecs.symm.trans (hworld.trans hspecs₂)
    exact .inr (specs_of_setSpec_eq (ids_ne_standard hstandard) heq)

theorem rotateAuth_free {tenantID keyID : String} {auth : ProviderChoice Unit}
    (hok : (rotateAuth e tenantID keyID auth s.world).1 = .ok ())
    (h : (AdminCall.rotateAuth tenantID keyID auth).SameBehaviour R e s
      (AdminCall.rotateAuth tenantID keyID auth).standard) :
    (AdminCall.rotateAuth tenantID keyID auth).SpellingFree R s.world := by
  intro t a hreq
  have hreq' : (validateIDs (standardText tenantID) (standardText keyID) >>= fun _ => providerAuth auth) =
      .ok (t, a) := by
    rw [validateIDs_standardText]
    exact hreq
  obtain ⟨k, sp, hk, hsp, htype, hworld⟩ := rotateAuth_ok hreq hok
  obtain ⟨-, sp', -, hsp', htype', hworld'⟩ := rotateAuth_ok hreq' (h.outcome.symm.trans hok)
  refine ⟨hk.isURN.1, fun _ => ⟨hk.isURN.2, fun _ => ?_⟩⟩
  by_cases hstandard : Standard tenantID ∧ Standard keyID
  · exact .inl hstandard
  · have heq : s.world.setSpec tenantID keyID (some { sp with auth := some a }) =
        s.world.setSpec (standardText tenantID) (standardText keyID) (some { sp' with auth := some a }) :=
      hworld.symm.trans ((h.world []).trans hworld')
    obtain ⟨hkeep, hkeep'⟩ := specs_of_setSpec_eq (ids_ne_standard hstandard) (congrArg World.specs heq)
    have hauth : ∀ {sp : SealerSpec}, some sp = some { sp with auth := some a } → sp.auth = some a :=
      fun h => congrArg SealerSpec.auth (Option.some.inj h)
    exact .inr (.inr ⟨sp, sp', hsp, hsp',
      .inr ⟨⟨htype, htype'⟩, hauth (hsp.symm.trans hkeep), hauth (hsp'.symm.trans hkeep')⟩⟩)

theorem rotateProviderKey_free {tenantID keyID : String} {key : ProviderChoice String}
    (hok : (rotateProviderKey e tenantID keyID key s.world).1 = .ok ())
    (h : (AdminCall.rotateProviderKey tenantID keyID key).SameBehaviour R e s
      (AdminCall.rotateProviderKey tenantID keyID key).standard) :
    (AdminCall.rotateProviderKey tenantID keyID key).SpellingFree R s.world := by
  intro t providerKeyID hreq
  have hreq' : (validateIDs (standardText tenantID) (standardText keyID) >>= fun _ => providerKey key) =
      .ok (t, providerKeyID) := by
    rw [validateIDs_standardText]
    exact hreq
  obtain ⟨k, sp, hk, hsp, htype⟩ := rotateProviderKey_ok hreq hok
  obtain ⟨-, sp', -, hsp', htype'⟩ := rotateProviderKey_ok hreq' (h.outcome.symm.trans hok)
  exact ⟨hk.isURN.1, fun _ => ⟨hk.isURN.2, fun _ =>
    .inr (.inr ⟨sp, sp', hsp, hsp', .inr ⟨⟨htype, htype'⟩, trivial, trivial⟩⟩)⟩⟩

/-- A confirmation in which nothing fails. -/
theorem confirmAnnounce_of_pending (hcalm : ∀ site, e.fails site = false) {k row : Key}
    (hrow : w.db.getKeyByID k.id k.tenantID = .ok row) (hst : row.status = .pending) : confirmAnnounce e k w =
      (.complete, { w with db := w.db.markKeys [row.id] row.lifeCycleState .inProgress e.now }) := by
  obtain ⟨hmem, hid, ht⟩ := DB.getKeyByID_ok hrow
  have hread : query e .getKeyByID (fun db => db.getKeyByID k.id k.tenantID) w.session = (.ok row, w.session) := by
    rw [query, hcalm, ← hrow]
    rfl
  have hupdate : w.session.db.updateKeyStates ⟨k.id, k.tenantID, row.lifeCycleState, .inProgress, [row.lifeCycleState],
      [.pending], e.now⟩ = .ok (w.db.markKeys [row.id] row.lifeCycleState .inProgress e.now) :=
    DB.updateKeyStates_of_parse hmem hid ht (.inr (List.mem_singleton_self _))
      (.inr (by rw [hst]; exact List.mem_singleton_self _))
  have hwrite : exec e .updateKeyStates (fun db => db.updateKeyStates ⟨k.id, k.tenantID, row.lifeCycleState,
      .inProgress, [row.lifeCycleState], [.pending], e.now⟩) w.session =
        (.ok (), { w.session with db := w.db.markKeys [row.id] row.lifeCycleState .inProgress e.now }) := by
    simp only [exec, hcalm, hupdate, Bool.false_eq_true, if_false]
  have hsteps : confirmSteps e k w.session =
      (.ok (), { w.session with db := w.db.markKeys [row.id] row.lifeCycleState .inProgress e.now }) := by
    unfold confirmSteps
    change Tx.andThen (query _ _ _) _ w.session = _
    simp only [Tx.andThen, hread, hst, if_true]
    change Tx.andThen (Tx.attempt _) _ w.session = _
    simp only [Tx.andThen, Tx.attempt, hwrite]
    rfl
  simp only [confirmAnnounce, transaction, hcalm, hsteps, Bool.false_eq_true, if_false]
  rfl

/-- The key that was announced last is sent to its agent as it was announced. -/
theorem sent_announced {req : AnnounceKeyRequest} {k row : Key} {r : Except Err Key} {w' : World}
    {e' : Env} (hcalm : ∀ site, e'.fails site = false)
    (hrun : announceKey R e req s.world = (r, [[.announce k]], w'))
    (hrow : w'.db.getKeyByID k.id k.tenantID = .ok row) (hlc : row.lifeCycleState = .preActivation)
    (hst : row.status = .pending) (hcalls : R.calls k.managedBy = true) :
    (run (step R) (step R s (e, .admin (.announceKey req)))
      [(e', .confirmJob s.groups.length 0 true), (e', .resolveTasks s.groups.length 0)]).sent R e'
        s.groups.length 0 0 .upsertKey =
      some (k.managedBy, .upsertKey k.upsertRequest, (uuidIn k.id).getD "") := by
  have hadmin : step R s (e, .admin (.announceKey req)) = ⟨w', s.groups ++ [[JobState.new (.announce k)]]⟩ := by
    rw [step_admin]
    simp [AdminCall.run, hrun]
  have hconfirm : step R ⟨w', s.groups ++ [[JobState.new (.announce k)]]⟩ (e', .confirmJob s.groups.length 0 true) =
      ⟨{ w' with db := w'.db.markKeys [row.id] row.lifeCycleState .inProgress e'.now },
        s.groups ++ [[⟨.announce k, .confirmed, []⟩]]⟩ := by
    simp [step, RootState.acceptingJob, Group.accepts, Group.aborted, JobState.new, JobState.broken, Job.confirm,
      confirmAnnounce_of_pending hcalm hrow hst, ConfirmResult.event, RootState.record, applyAt_last, Group.apply,
        JobState.apply]
  have hresolve : ∀ w, step R ⟨w, s.groups ++ [[⟨.announce k, .confirmed, []⟩]]⟩
      (e', .resolveTasks s.groups.length 0) =
        ⟨w, s.groups ++ [[⟨.announce k, .running, [(.announce k, .waiting)]⟩]]⟩ := by
    intro w
    simp [step, RootState.acceptingJob, Group.accepts, Group.aborted, JobState.broken, Job.resolve, applyAt_last,
      Group.apply, JobState.apply]
  -- the confirmed key is where it was announced
  have hfound : (w'.db.markKeys [row.id] row.lifeCycleState .inProgress e'.now).getKeyByID k.id k.tenantID =
      .ok (DB.stateOf row.lifeCycleState .inProgress e'.now row) := by
    obtain ⟨hmem, hid, ht⟩ := DB.getKeyByID_ok hrow
    refine DB.getKeyByID_of_parse (DB.mem_markKeys.2 ⟨row, hmem, DB.markKey_of_mem (List.mem_singleton_self _)⟩) hid ht
  have hmoves : validateTransition k.tenantID k.id .preActivation
      (w'.db.markKeys [row.id] row.lifeCycleState .inProgress e'.now) = .ok () := by
    unfold validateTransition
    rw [hfound]
    exact if_pos hlc
  have hsends : (RootTask.announce k).sends R e'
      { w' with db := w'.db.markKeys [row.id] row.lifeCycleState .inProgress e'.now } .upsertKey =
        some (k.managedBy, .upsertKey k.upsertRequest, (uuidIn k.id).getD "") := by
    rw [RootTask.sends, RootTask.request, hmoves, Option.filter_some]
    exact if_pos hcalls
  simp only [run_cons, run_nil, hadmin, hconfirm, hresolve]
  simp [RootState.sent, RootState.taskAt, hsends]

theorem announceKey_ok {req : AnnounceKeyRequest} (h : (AdminCall.announceKey req).outcome R e w = .ok ()) :
    ∃ k db, announceKey R e req w = (.ok k, [[.announce k]], { w with db }) ∧
      validateTenant req.tenantID w.db = .ok () ∧
      validateKeyHierarchy (announcedKey R e req) R.cfg.hierarchy w.db = .ok () ∧
      Upserted e (announcedKey R e req) w.db k db := by
  have heff : AnnounceKeyEffect R e req w (announceKey R e req w) := announceKey_effect
  have h : (announceKey R e req w).1.map (fun _ => ()) = .ok () := h
  generalize announceKey R e req w = out at h heff
  cases heff with
  | refused => cases h
  | accepted _ ht hh hu => exact ⟨_, _, rfl, ht, hh, hu⟩

/-- The parent of a key that fits into the hierarchy was found. -/
theorem isURN_of_hierarchy {req : AnnounceKeyRequest} {db : DB}
    (h : validateKeyHierarchy (announcedKey R e req) R.cfg.hierarchy db = .ok ()) : isURN req.parentID = false := by
  obtain ⟨spec, -, ⟨hnone, -⟩ | ⟨-, p, parent, -, hp, hfound, -⟩⟩ := validateKeyHierarchy_ok h
  · by_cases hempty : req.parentID = ""
    · rw [hempty]
      decide
    · simp [announcedKey, newKey, hempty] at hnone
  · by_cases hempty : req.parentID = ""
    · rw [hempty]
      decide
    · simp only [announcedKey, newKey, hempty, if_false, Option.some.injEq] at hp
      subst hp
      exact isURN_of_uuidIn (DB.getKeyByID_ok hfound).2.1

/-- A new key of an agent is sent with the texts of the request. -/
theorem standard_of_sent {req : AnnounceKeyRequest} {row row' : Key} {db db' : DB} {r r' : Except Err Key}
    (hrun : announceKey R e req s.world = (r, [[.announce (announcedKey R e req)]], { s.world with db }))
    (hi : DB.KeyInserted s.world.db (announcedKey R e req) row db)
    (hrun' : announceKey R e req.standard s.world =
      (r', [[.announce (announcedKey R e req.standard)]], { s.world with db := db' }))
    (hi' : DB.KeyInserted s.world.db (announcedKey R e req.standard) row' db')
    (hcalls : R.calls (announcedKey R e req).managedBy = true)
    (h : (AdminCall.announceKey req).SameBehaviour R e s (AdminCall.announceKey req).standard) :
    Standard req.tenantID ∧ Standard req.parentID := by
  have hrow := DB.getKeyByID_of_parse (hi.mem.2 (.inr rfl)) hi.id hi.tenantID
  have hrow' := DB.getKeyByID_of_parse (hi'.mem.2 (.inr rfl)) hi'.id hi'.tenantID
  obtain ⟨-, -, -, -, hlc, hst, -⟩ := hi.columns
  obtain ⟨-, -, -, -, hlc', hst', -⟩ := hi'.columns
  have hsent := h.sent [({ e with fails := fun _ => false }, .confirmJob s.groups.length 0 true),
    ({ e with fails := fun _ => false }, .resolveTasks s.groups.length 0)] { e with fails := fun _ => false }
      s.groups.length 0 0 .upsertKey
  rw [AdminCall.standard, sent_announced (fun _ => rfl) hrun hrow hlc hst hcalls,
    sent_announced (fun _ => rfl) hrun' hrow' hlc' hst' hcalls] at hsent
  have hreq : (announcedKey R e req).upsertRequest = (announcedKey R e req.standard).upsertRequest :=
    AgentRequest.upsertKey.inj (congrArg (·.2.1) (Option.some.inj hsent))
  have hparent : ∀ p : String, (if p = "" then none else some p : Option String).getD "" = p := by
    intro p
    split
    · rename_i hempty
      exact hempty.symm
    · rfl
  have hp := congrArg UpsertKeyRequest.parentID hreq
  exact ⟨(congrArg UpsertKeyRequest.tenantID hreq).symm, ((hparent _).symm.trans (hp.trans (hparent _))).symm⟩

theorem announceKey_free {req : AnnounceKeyRequest} (hok : (AdminCall.announceKey req).outcome R e s.world = .ok ())
    (h : (AdminCall.announceKey req).SameBehaviour R e s (AdminCall.announceKey req).standard) :
    (AdminCall.announceKey req).SpellingFree R s.world := by
  intro _
  obtain ⟨k, db, hrun, ht, hh, hu⟩ := announceKey_ok hok
  obtain ⟨k', db', hrun', -, -, hu'⟩ := announceKey_ok (h.outcome.symm.trans hok)
  have hurn := isURN_of_validateTenant ht
  refine ⟨hurn, fun _ => ⟨isURN_of_hierarchy hh, fun _ => ?_⟩⟩
  cases hu with
  | adopted hk hsame => exact .inl (isSame_standard hk hsame)
  | inserted hi =>
    by_cases hcalls : R.calls (announcedKey R e req).managedBy = true
    · refine .inl ?_
      cases hu' with
      | @adopted r hr hsame =>
        -- the tenant had no key with the name
        obtain ⟨-, hname, htenant, -, -⟩ := Key.isSame_iff.1 hsame
        have hread : uuidIn req.tenantID = some r.tenantID := by
          rw [(alike_standardText hurn).read, ← show r.tenantID = standardText req.tenantID from htenant]
          exact (DB.key_canonical hr).2
        exact absurd hname (hi.not_taken r hr hread)
      | inserted hi' => exact standard_of_sent hrun hi hrun' hi' hcalls h
    · refine .inr ⟨fun r hr hread hname => absurd hname (hi.not_taken r hr hread), .inr ?_⟩
      exact Bool.eq_false_iff.2 hcalls

/-- An accepted call that is not told apart from the standard spelling. -/
theorem AdminCall.SameBehaviour.free {c : AdminCall} (hok : c.standard.outcome R e s.world = .ok ())
    (h : c.SameBehaviour R e s c.standard) : c.SpellingFree R s.world := by
  have hok := h.outcome.trans hok
  cases c with
  | announceKey req => exact announceKey_free hok h
  | keyAction action req => exact keyAction_free hok
  | createProvider req => exact createProvider_free hok h
  | rotateAuth tenantID keyID auth => exact rotateAuth_free hok h
  | rotateProviderKey tenantID keyID key => exact rotateProviderKey_free hok h
  | createTenant name labels => exact trivial
  | removeProvider tenantID keyID => exact trivial

end

/-- **Other spellings, same behaviour.** Two spellings of a call that meet the condition are answered alike, and no
later run tells them apart. For a call that is accepted in the standard spelling the condition says just that the given
spelling is not told apart from it. -/
theorem spelling_irrelevant (R : RootProcess) (s : RootState) (e : Env) {c c' : AdminCall} (h : c.Respelled c') :
    (c.SpellingFree R s.world → c'.SpellingFree R s.world → c.SameBehaviour R e s c') ∧
      (c.standard.outcome R e s.world = .ok () →
        (c.SpellingFree R s.world ↔ c.SameBehaviour R e s c.standard)) := by
  constructor
  · intro hc hc'
    have hstandard : c'.Similar R e s.world c.standard := h.standard_eq ▸ hc'.similar
    exact (hc.similar.trans hstandard.symm).sameBehaviour
  · intro hok
    exact ⟨fun hc => hc.similar.sameBehaviour, fun hsame => hsame.free hok⟩

/-! ## Where the text matters -/

/-- An identifier with letters. -/
def demoHex (n : Nat) : Env :=
  { demoEnv 0 with
    uuid := match n with
      | 0 => ⟨"abcdefab-0000-4000-8000-000000000000", by decide⟩
      | 1 => ⟨"abcdefab-0000-4000-8000-000000000001", by decide⟩
      | _ => ⟨"abcdefab-0000-4000-8000-000000000002", by decide⟩ }

def demoHexText (n : Nat) : String := (demoHex n).uuid.text

/-- The same identifier in upper case. -/
def demoUpperText : Nat → String
  | 0 => "ABCDEFAB-0000-4000-8000-000000000000"
  | 1 => "ABCDEFAB-0000-4000-8000-000000000001"
  | _ => "ABCDEFAB-0000-4000-8000-000000000002"

/-- The first identifier in upper case, in braces. -/
def demoBraced : String := "\x7bABCDEFAB-0000-4000-8000-000000000000\x7d"

def demoHexURN (n : Nat) : String := "urn:uuid:" ++ demoHexText n

def demoHexAnnounce (tenantID kind parentID : String) : AdminCall :=
  .announceKey ⟨tenantID, kind, kind, parentID, "", []⟩

def demoHexTenant : List (Env × Op) := [(demoHex 0, .admin (.createTenant "acme" []))]

/-- A root key is announced under a name that is not taken, with the tenant in braces or not. -/
theorem demoHex_spelling : demoBraced ≠ demoHexText 0 ∧
    (demoHexAnnounce (demoHexText 0) "rk" "").outcome demo (demoHex 1) (worldAfter demo demoHexTenant) = .ok () ∧
    ∀ ops, worldAfter demo (demoHexTenant ++ (demoHex 1, .admin (demoHexAnnounce (demoHexText 0) "rk" "")) :: ops) =
      worldAfter demo (demoHexTenant ++ (demoHex 1, .admin (demoHexAnnounce demoBraced "rk" "")) :: ops) := by
  refine ⟨by decide, by decide +kernel, fun ops => ?_⟩
  have hkeys : (worldAfter demo demoHexTenant).db.keys.rows = [] := by decide +kernel
  have hparent : isURN "" = false := by decide
  have hroot : demo.calls demo.cfg.name = false := by decide
  have hfree : ∀ t, isURN t = false →
      (demoHexAnnounce t "rk" "").SpellingFree demo (worldAfter demo demoHexTenant) := by
    intro t ht _
    refine ⟨ht, fun _ => ⟨hparent, fun _ => .inr ⟨fun r hr => ?_, .inr hroot⟩⟩⟩
    rw [hkeys] at hr
    cases hr
  have hspelled : (demoHexAnnounce (demoHexText 0) "rk" "").Respelled (demoHexAnnounce demoBraced "rk" "") :=
    .announceKey (.inr ⟨demoHexText 0, by decide, by decide⟩) (.inl rfl)
  have hsame := (spelling_irrelevant demo (run (step demo) .init demoHexTenant) (demoHex 1) hspelled).1
    (hfree _ (by decide)) (hfree _ (by decide))
  unfold worldAfter
  rw [run_append, run_append]
  exact hsame.world ops

/-- A root key is announced, and a key below it. -/
def demoHexKeys : List (Env × Op) :=
  demoHexTenant ++ [(demoHex 1, .admin (demoHexAnnounce (demoHexText 0) "rk" ""))] ++ demoRunJob 0 0 ++
    [(demoHex 2, .admin (demoHexAnnounce (demoHexText 0) "kek" (demoHexText 1)))] ++ demoRunJob 1 0

def demoHexProvider (tenantID : String) : AdminCall :=
  .createProvider ⟨tenantID, demoHexText 1, .staticSecret "k1", .staticSecret (),
    .staticSecret ("s", List.replicate 32 3)⟩

def demoHexAction (action : ActionType) (tenantID id : String) : AdminCall := .keyAction action ⟨tenantID, id, false⟩

/-- The root key gets a provider, under one spelling of its tenant, and is activated. -/
def demoHexActive (tenantID : String) : List (Env × Op) :=
  demoHexKeys ++ [(demoEnv 0, .admin (demoHexProvider tenantID)),
    (demoEnv 0, .admin (demoHexAction .activate (demoHexText 0) (demoHexText 1)))] ++ demoRunJob 2 0

/-- The text matters in four places: a root key is activated under its lower-case text and refused under the upper-case
one; a key is announced again with its parent in lower case, and is in conflict with itself otherwise; a provider that
was bound under the upper-case tenant is not found afterwards; and a key is suspended under its standard text, while the
URN passes the checks and is refused by the database. -/
theorem spelling_matters :
    (∀ id ∈ [demoHexText 1, demoUpperText 1],
      ((demoHexAction .activate (demoHexText 0) id).outcome demo (demoEnv 0) (worldAfter demo demoHexKeys)).isOk =
        decide (id = demoHexText 1)) ∧
    (∀ parentID ∈ [demoHexText 1, demoUpperText 1],
      ((demoHexAnnounce (demoHexText 0) "kek" parentID).outcome demo (demoEnv 0) (worldAfter demo demoHexKeys)).isOk =
        decide (parentID = demoHexText 1)) ∧
    (∀ tenantID ∈ [demoHexText 0, demoUpperText 0],
      ((demoHexProvider tenantID).outcome demo (demoEnv 0) (worldAfter demo demoHexKeys)).isOk = true ∧
        ((AdminCall.rotateProviderKey (demoHexText 0) (demoHexText 1) (.staticSecret "k2")).outcome demo (demoEnv 0)
          (worldAfter demo (demoHexActive tenantID))).isOk = decide (tenantID = demoHexText 0)) ∧
    ∀ id ∈ [demoHexText 1, demoHexURN 1], validateKeyRequest (demoHexText 0) id = .ok () ∧
      ((demoHexAction .suspend (demoHexText 0) id).outcome demo (demoEnv 0)
        (worldAfter demo (demoHexActive (demoHexText 0)))).isOk = decide (id = demoHexText 1) := by
  decide +kernel

end Krypton
