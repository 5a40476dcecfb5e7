import Krypton.Admin
import Krypton.Orchestrator.Moves

/-!
# What admin calls do

Every way a call of the admin API can end, with what it leaves behind.

* `announceKey_effect`, `keyAction_effect` — the calls that hand job groups to orbital;
* `createProvider_effect`, `rotateAuth_effect`, `rotateProviderKey_effect`, `removeProvider_effect` — the provider
  calls, which write the root vault outside of the database transaction.
-/

namespace Krypton

open Lib

section
variable {R : RootProcess} {e : Env} {s s' : Session} {w : World}

/-! ## Keys -/

/-- How `AnnounceKey` ends. -/
inductive AnnounceKeyEffect (R : RootProcess) (e : Env) (req : AnnounceKeyRequest) (w : World) :
    Except Err Key × List JobGroup × World → Prop where
  | refused {err : Err} : AnnounceKeyEffect R e req w (.error err, [], w)
  | accepted {k : Key} {db : DB} (hreq : Validator.validateKeyAnnounceRequest req.input R.cfg = .ok ())
      (ht : Validator.validateTenant req.tenantID w.db = .ok ())
      (hh : Validator.validateKeyHierarchy (announcedKey R e req) R.cfg.hierarchy w.db = .ok ())
      (hu : Upserted e (announcedKey R e req) w.db k db) :
      AnnounceKeyEffect R e req w (.ok k, [[.announce k]], { w with db })

theorem ends_announceSteps {key : Key} : (announceSteps R e key).Ends s fun r s' =>
    (∃ k db, r = .ok k ∧ s' = { s with db, prepared := s.prepared ++ [[.announce k]] } ∧
      Validator.validateTenant key.tenantID s.db = .ok () ∧
      Validator.validateKeyHierarchy key R.cfg.hierarchy s.db = .ok () ∧ Upserted e key s.db k db) ∨
    ∃ err, r = .error err ∧ s.Touches s' := by
  unfold announceSteps
  refine Tx.Ends.bind ends_query ?_ fun err s₁ h => .inr ⟨err, rfl, by rw [h.1]; exact .refl⟩
  rintro _ s₁ ⟨rfl, ht⟩
  refine Tx.Ends.bind ends_query ?_ fun err s₂ h => .inr ⟨err, rfl, by rw [h.1]; exact .refl⟩
  rintro _ s₂ ⟨rfl, hh⟩
  refine Tx.Ends.bind ends_upsertKey ?_ ?_
  · rintro k s₃ (⟨_, db, ⟨⟩, rfl, hu⟩ | ⟨_, h, -⟩)
    · refine Tx.Ends.bind ends_prepareJobGroup ?_ ?_
      · rintro _ s₄ (⟨-, rfl⟩ | ⟨_, h, -⟩)
        · exact .inl ⟨k, db, rfl, rfl, eq_of_query ht, eq_of_query hh, hu⟩
        · cases h
      · rintro err s₄ (⟨h, -⟩ | ⟨_, -, rfl⟩)
        · cases h
        · exact .inr ⟨err, rfl, .db⟩
    · cases h
  · rintro err s₃ (⟨_, _, h, -⟩ | ⟨_, -, ht⟩)
    · cases h
    · exact .inr ⟨err, rfl, ht⟩

/-- A session that only touched the database leaves the world as it was when it is rolled back. -/
theorem rollback_of_touches {s : Session} (h : w.session.Touches s) : (⟨w.db, s.vault, s.specs⟩ : World) = w := by
  obtain ⟨_, rfl⟩ := h
  rfl

theorem announceKey_effect {req : AnnounceKeyRequest} : AnnounceKeyEffect R e req w (announceKey R e req w) := by
  unfold announceKey
  split
  · exact .refused
  · rename_i hreq
    rcases transaction_cases e id (ends_announceSteps (R := R) (e := e) (s := w.session)) with
      ⟨k, s, hq, heq⟩ | ⟨er, s, hq, heq⟩ | ⟨_, s, er, hq, -, heq⟩ | ⟨er, -, heq⟩ <;> rw [heq]
    · obtain ⟨_, db, ⟨⟩, rfl, ht, hh, hu⟩ | ⟨_, h, -⟩ := hq
      · exact .accepted hreq ht hh hu
      · cases h
    · obtain ⟨_, _, h, -⟩ | ⟨_, -, ht⟩ := hq
      · cases h
      · rw [rollback_of_touches ht]
        exact .refused
    · obtain ⟨_, db, -, rfl, -⟩ | ⟨_, h, -⟩ := hq
      · exact .refused
      · cases h
    · exact .refused

/-- How a lifecycle call ends. -/
inductive ActionEffect (e : Env) (action : ActionType) (req : KeyRequest) (w : World) :
    Except Err Unit × List JobGroup × World → Prop where
  | refused {err : Err} : ActionEffect e action req w (.error err, [], w)
  | accepted {kt : KeyTree} (ht : Validator.validateTenant req.tenantID w.db = .ok ())
      (hsel : Selected w.db (actionRequest action req) kt)
      (hp : action = .activate → Validator.validateKeyParents req.tenantID req.id w.db = .ok ()) :
      ActionEffect e action req w (.ok (), [jobsOf action.handlerConfig kt],
        { w with db := w.db.markKeys (idsOf action.handlerConfig kt) action.toState .pending e.now })

/-- The filters of the actions name lifecycle states. -/
theorem actionRequest_namesStates (action : ActionType) (req : KeyRequest) :
    (actionRequest action req).NamesStates where
  some_filter := by cases action <;> simp [actionRequest, keyFilters]
  states := by
    have hstates : ∀ f ∈ keyFilters action, f.lifeCycleState ≠ none := by cases action <;> decide
    exact hstates

theorem ends_actionSteps {action : ActionType} {req : KeyRequest} : (actionSteps e action req).Ends s fun r s' =>
    (∃ kt, Validator.validateTenant req.tenantID s.db = .ok () ∧ Selected s.db (actionRequest action req) kt ∧
      r = .ok () ∧ (action = .activate → Validator.validateKeyParents req.tenantID req.id s.db = .ok ()) ∧
      s' = { s with db := s.db.markKeys (idsOf action.handlerConfig kt) action.toState .pending e.now,
                    prepared := s.prepared ++ [jobsOf action.handlerConfig kt] }) ∨
    ∃ err, r = .error err ∧ s.Touches s' := by
  have hf := actionRequest_namesStates action req
  have happly := ends_applyKeyAction (e := e) (s := s) (a := actionRequest action req)
  unfold actionSteps
  refine Tx.Ends.bind ends_query ?_ fun err s₁ h => .inr ⟨err, rfl, by rw [h.1]; exact .refl⟩
  rintro _ s₁ ⟨rfl, ht⟩
  split
  · rename_i hact
    refine Tx.Ends.bind ends_query ?_ fun err s₂ h => .inr ⟨err, rfl, by rw [h.1]; exact .refl⟩
    rintro _ s₂ ⟨rfl, hp⟩
    refine happly.mono ?_
    rintro r s' (⟨kt, hkt, hjob, rfl, rfl⟩ | herr)
    · exact .inl ⟨_, eq_of_query ht, selected_of_fetch hf hkt hjob, rfl, fun _ => eq_of_query hp, rfl⟩
    · exact .inr herr
  · rename_i hact
    refine happly.mono ?_
    rintro r s' (⟨kt, hkt, hjob, rfl, rfl⟩ | herr)
    · exact .inl ⟨_, eq_of_query ht, selected_of_fetch hf hkt hjob, rfl, fun h => absurd h hact, rfl⟩
    · exact .inr herr

theorem keyAction_effect {action : ActionType} {req : KeyRequest} :
    ActionEffect e action req w (keyAction e action req w) := by
  unfold keyAction
  split
  · exact .refused
  · rcases transaction_cases e id (ends_actionSteps (e := e) (s := w.session)) with
      ⟨_, s, hq, heq⟩ | ⟨er, s, hq, heq⟩ | ⟨_, s, er, hq, -, heq⟩ | ⟨er, -, heq⟩ <;> rw [heq]
    · obtain ⟨kt, ht, hsel, -, hp, rfl⟩ | ⟨_, h, -⟩ := hq
      · exact .accepted ht hsel hp
      · cases h
    · obtain ⟨_, -, -, h, -⟩ | ⟨_, -, ht⟩ := hq
      · cases h
      · rw [rollback_of_touches ht]
        exact .refused
    · obtain ⟨kt, -, -, -, -, rfl⟩ | ⟨_, h, -⟩ := hq
      · exact .refused
      · cases h
    · exact .refused

/-! ## Providers -/

/-- The provider spec of a key is replaced. -/
def World.setSpec (w : World) (tenantID keyID : String) (spec : Option SealerSpec) : World :=
  { w with specs := Function.update w.specs (tenantID, keyID) spec }

@[simp] theorem World.setSpec_self {tenantID keyID : String} {spec : Option SealerSpec} :
    (w.setSpec tenantID keyID spec).specs (tenantID, keyID) = spec := Function.update_self _ _ _

theorem World.setSpec_of_ne {tenantID keyID : String} {spec : Option SealerSpec} {ids : String × String}
    (h : ids ≠ (tenantID, keyID)) : (w.setSpec tenantID keyID spec).specs ids = w.specs ids :=
  Function.update_of_ne h _ _

def Session.setSpec (s : Session) (tenantID keyID : String) (spec : Option SealerSpec) : Session :=
  { s with specs := Function.update s.specs (tenantID, keyID) spec }

theorem ends_importSpec {tenantID keyID : String} {spec : SealerSpec} :
    (importSpec e tenantID keyID spec).Ends s fun r s' =>
      s' = s.setSpec tenantID keyID (some spec) ∨ (∃ err, r = .error err) ∧ s' = s := by
  unfold Tx.Ends importSpec
  split
  · exact .inr ⟨⟨_, rfl⟩, rfl⟩
  · exact .inl rfl

theorem ends_loadSpec {tenantID keyID : String} : (loadSpec e tenantID keyID).Ends s fun r s' =>
    s' = s ∧ ((∃ spec, r = .ok spec ∧ s.specs (tenantID, keyID) = some spec) ∨ ∃ err, r = .error err) := by
  unfold Tx.Ends loadSpec exportSpec
  split
  · exact ⟨rfl, .inr ⟨_, rfl⟩⟩
  · split
    · rename_i sp hsp
      exact ⟨rfl, .inl ⟨sp, rfl, hsp⟩⟩
    · exact ⟨rfl, .inr ⟨_, rfl⟩⟩

/-- How `CreateProvider` ends. -/
inductive CreateProviderEffect (R : RootProcess) (e : Env) (req : CreateProviderRequest) (w : World) :
    Except Err Unit × World → Prop where
  | refused {err : Err} : CreateProviderEffect R e req w (.error err, w)
  /-- The spec was written, the version was not. -/
  | half {err : Err} {spec : SealerSpec} {providerKeyID : String} {k : Key}
      (hspec : req.spec = .ok (spec, providerKeyID))
      (hallowed : R.allowed.contains spec.type = true) (hvalid : spec.validate = .ok ())
      (hk : MayUse w.db req.tenantID req.keyID .link k) :
      CreateProviderEffect R e req w (.error err, w.setSpec req.tenantID req.keyID (some spec))
  | bound {spec : SealerSpec} {providerKeyID : String} {k : Key} {row : KeyVersion} {db : DB}
      (hspec : req.spec = .ok (spec, providerKeyID)) (hallowed : R.allowed.contains spec.type = true)
      (hvalid : spec.validate = .ok ()) (hk : MayUse w.db req.tenantID req.keyID .link k)
      (hi : DB.KeyVersionInserted w.db (providerKeyVersion e req.tenantID req.keyID 1 spec.type providerKeyID) row db) :
      CreateProviderEffect R e req w (.ok (), { w.setSpec req.tenantID req.keyID (some spec) with db })

theorem ends_createProviderSteps {tenantID keyID providerKeyID : String} {spec : SealerSpec} :
    (createProviderSteps e tenantID keyID spec providerKeyID).Ends s fun r s' =>
      ((∃ err, r = .error err) ∧ s' = s) ∨
      Validator.validateTenant tenantID s.db = .ok () ∧ ∃ k, MayUse s.db tenantID keyID .link k ∧
        ((∃ err, r = .error err) ∧ s' = s.setSpec tenantID keyID (some spec) ∨
        ∃ row db, r = .ok () ∧ s' = { s.setSpec tenantID keyID (some spec) with db } ∧
          DB.KeyVersionInserted s.db (providerKeyVersion e tenantID keyID 1 spec.type providerKeyID) row db) := by
  unfold createProviderSteps
  refine Tx.Ends.bind ends_query ?_ fun err s₁ h => .inl ⟨⟨err, rfl⟩, h.1⟩
  rintro _ s₁ ⟨rfl, ht⟩
  have ht := eq_of_query ht
  refine Tx.Ends.bind ends_query ?_ fun err s₂ h => .inl ⟨⟨err, rfl⟩, h.1⟩
  rintro _ s₂ ⟨rfl, hu⟩
  obtain ⟨k, hk⟩ := Validator.validateKeyUsage_ok.1 (eq_of_query hu)
  refine Tx.Ends.bind ends_importSpec ?_ ?_
  · rintro _ s₃ (rfl | ⟨⟨_, h⟩, -⟩)
    · refine ends_exec.mono ?_
      rintro r s₄ (⟨db, rfl, hc, rfl⟩ | ⟨err, rfl, rfl, -⟩)
      · obtain ⟨row, hi⟩ := DB.createKeyVersion_ok hc
        exact .inr ⟨ht, k, hk, .inr ⟨row, db, rfl, rfl, hi⟩⟩
      · exact .inr ⟨ht, k, hk, .inl ⟨⟨err, rfl⟩, rfl⟩⟩
    · cases h
  · rintro err s₃ (rfl | ⟨-, rfl⟩)
    · exact .inr ⟨ht, k, hk, .inl ⟨⟨err, rfl⟩, rfl⟩⟩
    · exact .inl ⟨⟨err, rfl⟩, rfl⟩

theorem createProvider_effect {req : CreateProviderRequest} :
    CreateProviderEffect R e req w (createProvider R e req w) := by
  unfold createProvider
  split
  · exact .refused
  · rename_i spec providerKeyID hspec
    split
    · exact .refused
    · rename_i hallowed
      have hallowed : R.allowed.contains spec.type = true := by simpa using hallowed
      split
      · exact .refused
      · rename_i hvalid
        rcases transaction_cases e id (ends_createProviderSteps (e := e) (s := w.session)) with
          ⟨_, s, hq, heq⟩ | ⟨er, s, hq, heq⟩ | ⟨_, s, er, hq, -, heq⟩ | ⟨er, -, heq⟩ <;> rw [heq]
        · obtain ⟨⟨_, h⟩, -⟩ | ⟨-, k, hk, ⟨⟨_, h⟩, -⟩ | ⟨row, db, -, rfl, hi⟩⟩ := hq
          · cases h
          · cases h
          · exact .bound hspec hallowed hvalid hk hi
        · obtain ⟨-, rfl⟩ | ⟨-, k, hk, ⟨-, rfl⟩ | ⟨_, _, h, -⟩⟩ := hq
          · exact .refused
          · exact .half hspec hallowed hvalid hk
          · cases h
        · obtain ⟨-, rfl⟩ | ⟨-, k, hk, ⟨-, rfl⟩ | ⟨row, db, -, rfl, hi⟩⟩ := hq
          · exact .refused
          · exact .half hspec hallowed hvalid hk
          · exact .half hspec hallowed hvalid hk
        · exact .refused

/-- How `RotateAuth` ends: refused, or the stored spec has new credentials, whatever the answer. -/
inductive RotateAuthEffect (tenantID keyID : String) (w : World) : Except Err Unit × World → Prop where
  | refused {err : Err} : RotateAuthEffect tenantID keyID w (.error err, w)
  | rotated {r : Except Err Unit} {spec : SealerSpec} {k : Key} (auth : SealerAuth)
      (hk : MayUse w.db tenantID keyID .rotate k) (hspec : w.specs (tenantID, keyID) = some spec) :
      RotateAuthEffect tenantID keyID w (r, w.setSpec tenantID keyID (some { spec with auth := some auth }))

theorem ends_rotateAuthSteps {tenantID keyID : String} {t : SealerType} {auth : SealerAuth} :
    (rotateAuthSteps e tenantID keyID t auth).Ends s fun r s' =>
      ((∃ err, r = .error err) ∧ s' = s) ∨
      Validator.validateTenant tenantID s.db = .ok () ∧ ∃ k spec, MayUse s.db tenantID keyID .rotate k ∧
        s.specs (tenantID, keyID) = some spec ∧ spec.type = t ∧
          s' = s.setSpec tenantID keyID (some { spec with auth := some auth }) := by
  unfold rotateAuthSteps
  refine Tx.Ends.bind ends_query ?_ fun err s₁ h => .inl ⟨⟨err, rfl⟩, h.1⟩
  rintro _ s₁ ⟨rfl, ht⟩
  have ht := eq_of_query ht
  refine Tx.Ends.bind ends_query ?_ fun err s₂ h => .inl ⟨⟨err, rfl⟩, h.1⟩
  rintro _ s₂ ⟨rfl, hu⟩
  obtain ⟨k, hk⟩ := Validator.validateKeyUsage_ok.1 (eq_of_query hu)
  refine Tx.Ends.bind ends_loadSpec ?_ fun err s₃ h => .inl ⟨⟨err, rfl⟩, h.1⟩
  rintro spec s₃ ⟨rfl, ⟨_, ⟨⟩, hspec⟩ | ⟨_, h⟩⟩
  · refine Tx.Ends.lift_bind (fun _ htype => ?_) fun err _ => .inl ⟨⟨err, rfl⟩, rfl⟩
    refine ends_importSpec.mono ?_
    rintro r s₄ (rfl | ⟨herr, rfl⟩)
    · exact .inr ⟨ht, k, spec, hk, hspec, by simpa using htype, rfl⟩
    · exact .inl ⟨herr, rfl⟩
  · cases h

theorem rotateAuth_effect {tenantID keyID : String} {auth : ProviderChoice Unit} :
    RotateAuthEffect tenantID keyID w (rotateAuth e tenantID keyID auth w) := by
  unfold rotateAuth
  split
  · exact .refused
  · rename_i t a _
    rcases transaction_cases e id (ends_rotateAuthSteps (e := e) (s := w.session)) with
      ⟨_, s, hq, heq⟩ | ⟨er, s, hq, heq⟩ | ⟨_, s, er, hq, -, heq⟩ | ⟨er, -, heq⟩ <;> rw [heq]
    · obtain ⟨⟨_, h⟩, -⟩ | ⟨-, k, spec, hk, hspec, -, rfl⟩ := hq
      · cases h
      · exact .rotated a hk hspec
    · obtain ⟨-, rfl⟩ | ⟨-, k, spec, hk, hspec, -, rfl⟩ := hq
      · exact .refused
      · exact .rotated a hk hspec
    · obtain ⟨⟨_, h⟩, -⟩ | ⟨-, k, spec, hk, hspec, -, rfl⟩ := hq
      · cases h
      · exact .rotated a hk hspec
    · exact .refused

/-- How `RotateProviderKey` ends: refused, or the version after the latest one is added. -/
inductive RotateProviderKeyEffect (e : Env) (tenantID keyID : String) (w : World) : Except Err Unit × World → Prop where
  | refused {err : Err} : RotateProviderKeyEffect e tenantID keyID w (.error err, w)
  | rotated {spec : SealerSpec} {k : Key} {latest row : KeyVersion} {providerKeyID : String} {db : DB}
      (hne : providerKeyID ≠ "") (hk : MayUse w.db tenantID keyID .rotate k)
      (hspec : w.specs (tenantID, keyID) = some spec)
      (hlatest : latestProviderKeyVersion w.db tenantID keyID = .ok latest)
      (hi : DB.KeyVersionInserted w.db
        (providerKeyVersion e tenantID keyID (latest.version + 1) spec.type providerKeyID) row db) :
      RotateProviderKeyEffect e tenantID keyID w (.ok (), { w with db })

theorem ends_rotateProviderKeySteps {tenantID keyID providerKeyID : String} {t : SealerType} :
    (rotateProviderKeySteps e tenantID keyID t providerKeyID).Ends s fun r s' =>
      ((∃ err, r = .error err) ∧ s' = s) ∨
      ∃ k spec latest row db, MayUse s.db tenantID keyID .rotate k ∧ s.specs (tenantID, keyID) = some spec ∧
        spec.type = t ∧ latestProviderKeyVersion s.db tenantID keyID = .ok latest ∧ r = .ok () ∧ s' = { s with db } ∧
        DB.KeyVersionInserted s.db (providerKeyVersion e tenantID keyID (latest.version + 1) t providerKeyID)
          row db := by
  unfold rotateProviderKeySteps
  refine Tx.Ends.bind ends_query ?_ fun err s₁ h => .inl ⟨⟨err, rfl⟩, h.1⟩
  rintro _ s₁ ⟨rfl, -⟩
  refine Tx.Ends.bind ends_query ?_ fun err s₂ h => .inl ⟨⟨err, rfl⟩, h.1⟩
  rintro _ s₂ ⟨rfl, hu⟩
  obtain ⟨k, hk⟩ := Validator.validateKeyUsage_ok.1 (eq_of_query hu)
  refine Tx.Ends.bind ends_loadSpec ?_ fun err s₃ h => .inl ⟨⟨err, rfl⟩, h.1⟩
  rintro spec s₃ ⟨rfl, ⟨_, ⟨⟩, hspec⟩ | ⟨_, h⟩⟩
  · refine Tx.Ends.lift_bind (fun _ htype => ?_) fun err _ => .inl ⟨⟨err, rfl⟩, rfl⟩
    refine Tx.Ends.bind ends_query ?_ fun err s₄ h => .inl ⟨⟨err, rfl⟩, h.1⟩
    rintro latest s₄ ⟨rfl, hl⟩
    refine ends_exec.mono ?_
    rintro r s₅ (⟨db, rfl, hc, rfl⟩ | ⟨err, rfl, rfl, -⟩)
    · obtain ⟨row, hi⟩ := DB.createKeyVersion_ok hc
      exact .inr ⟨k, spec, latest, row, db, hk, hspec, by simpa using htype, eq_of_query hl, rfl, rfl, hi⟩
    · exact .inl ⟨⟨err, rfl⟩, rfl⟩
  · cases h

theorem providerKey_ok {key : ProviderChoice String} {t : SealerType} {id : String}
    (h : providerKey key = .ok (t, id)) : id ≠ "" := by
  unfold providerKey at h
  split at h
  · split at h
    · cases h
    · cases h; assumption
  · cases h

theorem rotateProviderKey_effect {tenantID keyID : String} {key : ProviderChoice String} :
    RotateProviderKeyEffect e tenantID keyID w (rotateProviderKey e tenantID keyID key w) := by
  unfold rotateProviderKey
  split
  · exact .refused
  · rename_i t providerKeyID hreq
    rw [bind_unit_eq_ok] at hreq
    have hne := providerKey_ok hreq.2
    rcases transaction_cases e id (ends_rotateProviderKeySteps (e := e) (s := w.session)) with
      ⟨_, s, hq, heq⟩ | ⟨er, s, hq, heq⟩ | ⟨_, s, er, hq, -, heq⟩ | ⟨er, -, heq⟩ <;> rw [heq]
    · obtain ⟨⟨_, h⟩, -⟩ | ⟨k, spec, latest, row, db, hk, hspec, rfl, hl, -, rfl, hi⟩ := hq
      · cases h
      · exact .rotated hne hk hspec hl hi
    · obtain ⟨-, rfl⟩ | ⟨_, _, _, _, _, -, -, -, -, h, -⟩ := hq
      · exact .refused
      · cases h
    · obtain ⟨⟨_, h⟩, -⟩ | ⟨_, _, _, _, _, -, -, -, -, -, rfl, -⟩ := hq
      · cases h
      · exact .refused
    · exact .refused

/-- How `RemoveProvider` ends: the database stays, the spec may be gone. -/
inductive RemoveProviderEffect (tenantID keyID : String) (w : World) : Except Err Unit × World → Prop where
  | refused {err : Err} : RemoveProviderEffect tenantID keyID w (.error err, w)
  | removed {r : Except Err Unit} : RemoveProviderEffect tenantID keyID w (r, w.setSpec tenantID keyID none)

theorem ends_removeProviderSteps {tenantID keyID : String} :
    (removeProviderSteps e tenantID keyID).Ends s fun r s' =>
      ((∃ err, r = .error err) ∧ s' = s) ∨ s' = s.setSpec tenantID keyID none := by
  unfold removeProviderSteps
  refine Tx.Ends.bind ends_query ?_ fun err s₁ h => .inl ⟨⟨err, rfl⟩, h.1⟩
  rintro _ s₁ ⟨rfl, -⟩
  unfold Tx.Ends
  dsimp only
  split
  · exact .inl ⟨⟨_, rfl⟩, rfl⟩
  · exact .inr rfl

theorem removeProvider_effect {tenantID keyID : String} :
    RemoveProviderEffect tenantID keyID w (removeProvider e tenantID keyID w) := by
  unfold removeProvider
  split
  · exact .refused
  · rcases transaction_cases e id (ends_removeProviderSteps (e := e) (s := w.session)) with
      ⟨_, s, hq, heq⟩ | ⟨er, s, hq, heq⟩ | ⟨_, s, er, hq, -, heq⟩ | ⟨er, -, heq⟩ <;> rw [heq]
    · obtain ⟨⟨_, h⟩, -⟩ | rfl := hq
      · cases h
      · exact .removed
    · obtain ⟨-, rfl⟩ | rfl := hq
      · exact .refused
      · exact .removed
    · obtain ⟨⟨_, h⟩, -⟩ | rfl := hq
      · cases h
      · exact .removed
    · exact .refused

/-! ## Keys and tenants after a provider call -/

theorem CreateProviderEffect.keys {req : CreateProviderRequest} {r : Except Err Unit} {w' : World}
    (h : CreateProviderEffect R e req w (r, w')) : w'.db.keys = w.db.keys := by
  cases h with
  | refused => rfl
  | half _ _ _ _ => rfl
  | bound _ _ _ _ hi => exact hi.keys

theorem CreateProviderEffect.tenants {req : CreateProviderRequest} {r : Except Err Unit} {w' : World}
    (h : CreateProviderEffect R e req w (r, w')) : w'.db.tenants = w.db.tenants := by
  cases h with
  | refused => rfl
  | half _ _ _ _ => rfl
  | bound _ _ _ _ hi => exact hi.tenants

theorem RotateAuthEffect.db {tenantID keyID : String} {r : Except Err Unit} {w' : World}
    (h : RotateAuthEffect tenantID keyID w (r, w')) : w'.db = w.db := by
  cases h <;> rfl

theorem RotateProviderKeyEffect.keys {tenantID keyID : String} {r : Except Err Unit} {w' : World}
    (h : RotateProviderKeyEffect e tenantID keyID w (r, w')) : w'.db.keys = w.db.keys := by
  cases h with
  | refused => rfl
  | rotated _ _ _ _ hi => exact hi.keys

theorem RotateProviderKeyEffect.tenants {tenantID keyID : String} {r : Except Err Unit} {w' : World}
    (h : RotateProviderKeyEffect e tenantID keyID w (r, w')) : w'.db.tenants = w.db.tenants := by
  cases h with
  | refused => rfl
  | rotated _ _ _ _ hi => exact hi.tenants

theorem RemoveProviderEffect.db {tenantID keyID : String} {r : Except Err Unit} {w' : World}
    (h : RemoveProviderEffect tenantID keyID w (r, w')) : w'.db = w.db := by
  cases h <;> rfl

/-- How `CreateTenant` ends. -/
inductive CreateTenantEffect (w : World) : World → Prop where
  | refused : CreateTenantEffect w w
  | created {db : DB} (hnode : db.node = w.db.node) (hkeys : db.keys = w.db.keys)
      (hkvs : db.keyVersions = w.db.keyVersions)
      (htenants : ∀ r ∈ w.db.tenants.rows, ∃ r' ∈ db.tenants.rows, r'.id = r.id) : CreateTenantEffect w { w with db }

theorem createTenant_effect {name : String} {labels : Labels} :
    CreateTenantEffect w (createTenant e name labels w).2 := by
  unfold createTenant
  dsimp only
  split
  · exact .refused
  · split
    · exact .refused
    · rename_i db hu
      obtain ⟨h1, h2, h3, h4⟩ := DB.upsertTenant_ok hu
      exact .created h1 h2 h3 h4

theorem CreateTenantEffect.keys {w' : World} (h : CreateTenantEffect w w') : w'.db.keys = w.db.keys := by
  cases h with
  | refused => rfl
  | created _ hkeys _ _ => exact hkeys

theorem CreateTenantEffect.keepsTenants {w' : World} (h : CreateTenantEffect w w') :
    ∀ t ∈ w.db.tenants.rows, ∃ t' ∈ w'.db.tenants.rows, t'.id = t.id := by
  cases h with
  | refused => exact fun t ht => ⟨t, ht, rfl⟩
  | created _ _ _ htenants => exact htenants

end

end Krypton
