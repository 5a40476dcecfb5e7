import Krypton.Progress

/-!
# Provider calls that fail

The root manager writes the spec of a provider to its vault inside the transaction of the call (`rootmanager.go`), but a
rollback does not reach the vault. The versions of a failed call are rolled back; the spec is replaced by the time the
call can still fail.

* `ProviderCall` — the provider calls of the root manager, for any spec;
* `ends_steps_specs`, `importing_run` — the vault after a call has the spec that was there, or the one the call imports;
* `failed_call_unchanged_iff` — a call changes nothing however it fails, exactly if it would import what is stored
  already.
-/

namespace Krypton

open Lib Validator

/-! ## Calls of the root manager -/

inductive ProviderCall where
  | createProvider (tenantID keyID : String) (spec : SealerSpec) (providerKeyID : String)
  | rotateAuth (tenantID keyID : String) (type : SealerType) (auth : SealerAuth)
  | rotateProviderKey (tenantID keyID : String) (type : SealerType) (providerKeyID : String)

/-- Where the spec of the call's key is stored. -/
def ProviderCall.ids : ProviderCall → String × String
  | .createProvider tenantID keyID _ _ | .rotateAuth tenantID keyID _ _ | .rotateProviderKey tenantID keyID _ _ =>
    (tenantID, keyID)

/-- What is checked before the transaction. The auth of a static secret is always valid. -/
def ProviderCall.precheck (R : RootProcess) : ProviderCall → Except Err Unit
  | .createProvider _ _ spec _ => do
    check (R.allowed.contains spec.type) (.of .providerNotAllowed)
    spec.validate
  | .rotateAuth _ _ _ _ | .rotateProviderKey _ _ _ _ => .ok ()

def ProviderCall.steps (e : Env) : ProviderCall → Step Unit
  | .createProvider tenantID keyID spec providerKeyID => createProviderSteps e tenantID keyID spec providerKeyID
  | .rotateAuth tenantID keyID type auth => rotateAuthSteps e tenantID keyID type auth
  | .rotateProviderKey tenantID keyID type providerKeyID => rotateProviderKeySteps e tenantID keyID type providerKeyID

def ProviderCall.run (R : RootProcess) (e : Env) (c : ProviderCall) (w : World) : Except Err Unit × World :=
  match c.precheck R with
  | .error err => (.error err, w)
  | .ok () => ((transaction e id (c.steps e) w).1, (transaction e id (c.steps e) w).2.2)

section
variable {R : RootProcess} {e : Env} {w : World} {c : ProviderCall}

/-- The service hands the spec of a request on to the root manager. -/
theorem createProvider_eq (req : CreateProviderRequest) : createProvider R e req w =
    match req.spec with
    | .error err => (.error err, w)
    | .ok (spec, providerKeyID) =>
      (ProviderCall.createProvider req.tenantID req.keyID spec providerKeyID).run R e w := by
  unfold createProvider
  cases req.spec with
  | error err => rfl
  | ok p =>
    obtain ⟨spec, providerKeyID⟩ := p
    dsimp only [ProviderCall.run, ProviderCall.precheck]
    cases hallowed : R.allowed.contains spec.type with
    | false => rfl
    | true =>
      simp only [check, Bool.not_true, Bool.false_eq_true, if_false, if_true]
      cases spec.validate <;> rfl

theorem rotateAuth_eq (tenantID keyID : String) (auth : ProviderChoice Unit) : rotateAuth e tenantID keyID auth w =
    match validateIDs tenantID keyID >>= fun _ => providerAuth auth with
    | .error err => (.error err, w)
    | .ok (type, auth) => (ProviderCall.rotateAuth tenantID keyID type auth).run R e w := rfl

theorem rotateProviderKey_eq (tenantID keyID : String) (key : ProviderChoice String) :
    rotateProviderKey e tenantID keyID key w =
      match validateIDs tenantID keyID >>= fun _ => providerKey key with
      | .error err => (.error err, w)
      | .ok (type, providerKeyID) => (ProviderCall.rotateProviderKey tenantID keyID type providerKeyID).run R e w := rfl

/-! ## What a call imports -/

/-- The checks of a call's transaction pass. -/
def Usable (tenantID keyID : String) (usage : KeyUsage) (db : DB) : Prop :=
  validateTenant tenantID db = .ok () ∧ validateKeyUsage tenantID keyID usage db = .ok ()

instance (tenantID keyID : String) (usage : KeyUsage) (db : DB) : Decidable (Usable tenantID keyID usage db) :=
  inferInstanceAs (Decidable (_ ∧ _))

/-- The call comes to the point where it imports the spec. -/
def ProviderCall.Imports (R : RootProcess) (w : World) (c : ProviderCall) (spec : SealerSpec) : Prop :=
  match c with
  | .createProvider tenantID keyID spec' _ => c.precheck R = .ok () ∧ Usable tenantID keyID .link w.db ∧ spec = spec'
  | .rotateAuth tenantID keyID type auth => Usable tenantID keyID .rotate w.db ∧
      ∃ stored, w.specs (tenantID, keyID) = some stored ∧ stored.type = type ∧ spec = { stored with auth := some auth }
  | .rotateProviderKey _ _ _ _ => False

/-- The steps of a call leave the specs alone, or they replace the spec of the key by the imported one. -/
theorem ends_steps_specs (hpre : c.precheck R = .ok ()) : (c.steps e).Ends w.session fun _ s =>
    s.specs = w.specs ∨ ∃ spec, c.Imports R w spec ∧ s.specs = Function.update w.specs c.ids (some spec) := by
  have husable : ∀ {tenantID keyID : String} {usage : KeyUsage} {k : Key}, validateTenant tenantID w.db = .ok () →
      MayUse w.db tenantID keyID usage k → Usable tenantID keyID usage w.db :=
    fun ht hk => ⟨ht, validateKeyUsage_ok.2 ⟨_, hk⟩⟩
  cases c with
  | createProvider tenantID keyID spec providerKeyID =>
    refine ends_createProviderSteps.mono ?_
    rintro r s (⟨-, rfl⟩ | ⟨ht, k, hk, ⟨-, rfl⟩ | ⟨_, _, -, rfl, -⟩⟩)
    · exact .inl rfl
    · exact .inr ⟨spec, ⟨hpre, husable ht hk, rfl⟩, rfl⟩
    · exact .inr ⟨spec, ⟨hpre, husable ht hk, rfl⟩, rfl⟩
  | rotateAuth tenantID keyID type auth =>
    refine ends_rotateAuthSteps.mono ?_
    rintro r s (⟨-, rfl⟩ | ⟨ht, k, stored, hk, hspec, htype, rfl⟩)
    · exact .inl rfl
    · exact .inr ⟨_, ⟨husable ht hk, stored, hspec, htype, rfl⟩, rfl⟩
  | rotateProviderKey tenantID keyID type providerKeyID =>
    refine ends_rotateProviderKeySteps.mono ?_
    rintro r s (⟨-, rfl⟩ | ⟨_, _, _, _, _, -, -, -, -, -, rfl, -⟩)
    · exact .inl rfl
    · exact .inl rfl

/-- A failed call leaves the database alone and the specs as they were or with the imported one. -/
theorem failed_run {err : Err} (herr : (c.run R e w).1 = .error err) : (c.run R e w).2.db = w.db ∧
    ((c.run R e w).2.specs = w.specs ∨
      ∃ spec, c.Imports R w spec ∧ (c.run R e w).2.specs = Function.update w.specs c.ids (some spec)) := by
  unfold ProviderCall.run at herr ⊢
  cases hpre : c.precheck R with
  | error err' => exact ⟨rfl, .inl rfl⟩
  | ok _ =>
    rw [hpre] at herr
    dsimp only at herr ⊢
    rcases transaction_cases e id (ends_steps_specs (e := e) (w := w) hpre) with
      ⟨_, s, -, heq⟩ | ⟨_, s, hs, heq⟩ | ⟨_, s, _, hs, -, heq⟩ | ⟨_, -, heq⟩ <;> rw [heq] at herr ⊢
    · cases herr
    · exact ⟨rfl, hs⟩
    · exact ⟨rfl, hs⟩
    · exact ⟨rfl, .inl rfl⟩

/-! ## A commit that fails -/

/-- Nothing fails but the commit. -/
def Env.commitLost (e : Env) : Env := { e with fails := fun site => decide (site = .commit) }

theorem importSpec_commitLost (tenantID keyID : String) (spec : SealerSpec) (s : Session) :
    importSpec e.commitLost tenantID keyID spec s = (.ok (), s.setSpec tenantID keyID (some spec)) := by
  simp [importSpec, Env.commitLost, Session.setSpec]

/-- The checks that pass let the steps go on. -/
theorem checks_commitLost {tenantID keyID : String} {usage : KeyUsage} {rest : Step Unit} {s : Session}
    {Q : Except Err Unit → Session → Prop} (hu : Usable tenantID keyID usage s.db) (hrest : rest.Ends s Q) :
    (do
      query e.commitLost .validateTenant (validateTenant tenantID)
      query e.commitLost .validateKey (validateKeyUsage tenantID keyID usage)
      rest : Step Unit).Ends s Q := by
  have ht : query e.commitLost .validateTenant (validateTenant tenantID) s = (.ok (), s) := query_of_ok rfl hu.1
  have hk : query e.commitLost .validateKey (validateKeyUsage tenantID keyID usage) s = (.ok (), s) :=
    query_of_ok rfl hu.2
  exact .ok_bind ht (.ok_bind hk hrest)

/-- The steps of a call that comes to its import leave the imported spec. -/
theorem importing_steps {spec : SealerSpec} (h : c.Imports R w spec) : (c.steps e.commitLost).Ends w.session fun _ s =>
    s.specs = Function.update w.specs c.ids (some spec) := by
  cases c with
  | createProvider tenantID keyID spec' providerKeyID =>
    obtain ⟨-, hu, rfl⟩ := h
    refine checks_commitLost hu (Tx.Ends.ok_bind (importSpec_commitLost ..) (ends_exec.mono ?_))
    rintro r s (⟨db, -, -, rfl⟩ | ⟨err, -, rfl, -⟩) <;> rfl
  | rotateAuth tenantID keyID type auth =>
    obtain ⟨hu, stored, hspec, htype, rfl⟩ := h
    have hload : loadSpec e.commitLost tenantID keyID w.session = (.ok stored, w.session) := by
      simp [loadSpec, Env.commitLost, exportSpec, World.session, hspec]
    refine checks_commitLost hu (Tx.Ends.ok_bind hload (Tx.Ends.lift_bind (fun _ _ => ?_) fun err herr => ?_))
    · unfold Tx.Ends
      rw [importSpec_commitLost]
      rfl
    · simp [check, htype] at herr
  | rotateProviderKey _ _ _ _ => exact h.elim

theorem ProviderCall.Imports.precheck {spec : SealerSpec} (h : c.Imports R w spec) : c.precheck R = .ok () := by
  cases c with
  | createProvider _ _ _ _ => exact h.1
  | rotateAuth _ _ _ _ => rfl
  | rotateProviderKey _ _ _ _ => exact h.elim

/-- A call that comes to its import and whose commit fails leaves the imported spec behind. -/
theorem importing_run {spec : SealerSpec} (h : c.Imports R w spec) :
    (∃ err, (c.run R e.commitLost w).1 = .error err) ∧
      (c.run R e.commitLost w).2.specs = Function.update w.specs c.ids (some spec) := by
  have hsteps := importing_steps (e := e) h
  have hbegin : e.commitLost.fails .begin = false := rfl
  have hcommit : e.commitLost.fails .commit = true := rfl
  unfold ProviderCall.run
  rw [h.precheck]
  dsimp only
  unfold transaction
  rw [hbegin, hcommit]
  rcases hrun : c.steps e.commitLost w.session with ⟨err | a, s⟩
  · exact ⟨⟨err, rfl⟩, hsteps.apply hrun⟩
  · exact ⟨⟨_, rfl⟩, hsteps.apply hrun⟩

end

/-! ## Calls that fail -/

/-- **Failed provider calls.** In a given state a call of the root manager leaves the versions and the specs as they
were, at whatever step it fails, exactly if the spec it would import there is the stored one; in particular if it is
refused before it imports anything. -/
theorem failed_call_unchanged_iff (R : RootProcess) (w : World) (c : ProviderCall) :
    (∀ e err, (c.run R e w).1 = .error err →
      (c.run R e w).2.db.keyVersions = w.db.keyVersions ∧ (c.run R e w).2.specs = w.specs) ↔
    ∀ spec, c.Imports R w spec → w.specs c.ids = some spec := by
  constructor
  · intro hall spec himports
    obtain ⟨⟨err, herr⟩, hspecs⟩ := importing_run (e := demoEnv 0) himports
    have hsame := hspecs.symm.trans (hall _ err herr).2
    have hids := congrFun hsame c.ids
    rwa [Function.update_self, eq_comm] at hids
  · intro hstored e err herr
    obtain ⟨hdb, hspecs | ⟨spec, himports, hspecs⟩⟩ := failed_run herr
    · exact ⟨by rw [hdb], hspecs⟩
    · refine ⟨by rw [hdb], hspecs.trans ?_⟩
      rw [← hstored spec himports, Function.update_eq_self]

/-! ## A second provider -/

/-- A second provider with another secret for a key that has one. -/
def demoRebind : ProviderCall :=
  .createProvider demoTenant (demoKey 1) { demoSealer with name := "other" } "key-2"

/-- Creating a provider for a key that has one fails, for its first version is there, and replaces the stored spec; and
a lost commit leaves the spec of a provider that was not bound. -/
theorem failed_call_replaces_spec :
    ((demoRebind.run demo (demoEnv 0) (worldAfter demo (demoAnnounced ++ [demoBind 1 3]))).1.isOk = false ∧
      (demoRebind.run demo (demoEnv 0) (worldAfter demo (demoAnnounced ++ [demoBind 1 3]))).2.specs demoRebind.ids ≠
        (worldAfter demo (demoAnnounced ++ [demoBind 1 3])).specs demoRebind.ids) ∧
    (demoRebind.run demo (demoEnv 0).commitLost (worldAfter demo demoAnnounced)).1.isOk = false ∧
      (demoRebind.run demo (demoEnv 0).commitLost (worldAfter demo demoAnnounced)).2.specs demoRebind.ids ≠
        (worldAfter demo demoAnnounced).specs demoRebind.ids := by
  refine ⟨⟨by decide +kernel, by decide +kernel⟩, by decide +kernel, by decide +kernel⟩

end Krypton
