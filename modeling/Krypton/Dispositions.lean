import Krypton.Fleet

/-!
# What a delivery of a task leaves behind

Orbital delivers a task until its handler says that it is over, and may deliver it once more when the answer got lost.
The answer of a handler is written inside its transaction, so it can disagree with what was committed; and a handler can
meet its own work.

* `OwnRows` — two databases differ in the rows of one key only, which is all that a handler touches (`handle_ownRows`);
* `disposition_committed` — an answer says what was committed, for every pattern of failures;
* `handleTask_again` — a lifecycle task that was completed is skipped from then on;
* `redelivery_harmless_iff` — a completed task can be delivered again without harm exactly if it is a lifecycle task:
  the announce handler expects its key in progress, finds it completed and answers that the task has failed.
-/

namespace Krypton

open Lib

/-! ## The rows of one key -/

/-- The identifier names the tenant and the key of a row. -/
def KeyIdentifier.Names (kid : KeyIdentifier) (tenantID keyID : String) : Prop :=
  uuidIn kid.tenantID = some tenantID ∧ uuidIn kid.id = some keyID

/-- Apart from the rows of one key, two databases have the same rows. -/
structure OwnRows (kid : KeyIdentifier) (db db' : DB) : Prop where
  keys : ∀ k : Key, ¬ kid.Names k.tenantID k.id → (k ∈ db'.keys.rows ↔ k ∈ db.keys.rows)
  keyVersions : ∀ kv : KeyVersion, ¬ kid.Names kv.tenantID kv.keyID →
    (kv ∈ db'.keyVersions.rows ↔ kv ∈ db.keyVersions.rows)
  tenants : db'.tenants = db.tenants

/-- The stored key that the identifier names has the status. -/
def KeyIdentifier.HasStatus (kid : KeyIdentifier) (db : DB) (st : KeyProcessingStatus) : Prop :=
  ∃ k, db.getKeyByID kid.id kid.tenantID = .ok k ∧ k.status = st

section
variable {R : RootProcess} {e : Env} {w w' : World} {s s' : Session} {db db' : DB} {kid : KeyIdentifier} {key : Key}

theorem OwnRows.refl : OwnRows kid db db := ⟨fun _ _ => .rfl, fun _ _ => .rfl, rfl⟩

/-- Marking the key itself touches no other row. -/
theorem OwnRows.mark (h : OwnRows kid db db') (hk : kid.Names key.tenantID key.id) (hmem : key ∈ db'.keys.rows)
    {lc : KeyLifeCycleState} {st : KeyProcessingStatus} {now : Int} :
    OwnRows kid db (db'.markKeys [key.id] lc st now) where
  keys k hne := by
    rw [← h.keys k hne, DB.mem_markKeys]
    constructor
    · rintro ⟨k₀, hk₀, rfl⟩
      by_cases hid : k₀.id ∈ [key.id]
      · -- the marked row is the key itself, which the identifier names
        obtain rfl := DB.key_eq_of_id hk₀ hmem (List.mem_singleton.1 hid)
        rw [DB.markKey_of_mem hid] at hne
        exact absurd hk hne
      · rwa [DB.markKey_of_notMem hid]
    · intro hmem'
      refine ⟨k, hmem', DB.markKey_of_notMem fun hid => hne ?_⟩
      obtain rfl := DB.key_eq_of_id hmem' hmem (List.mem_singleton.1 hid)
      exact hk
  keyVersions := h.keyVersions
  tenants := h.tenants

theorem VersionChange.ownRows {kv : KeyVersion} {isNew : Bool} (h : VersionChange e key db kv isNew db')
    (hk : kid.Names key.tenantID key.id) : OwnRows kid db db' where
  keys k _ := by rw [h.keys]
  keyVersions v hne := by
    cases h with
    | @existing kv₀ _ hi hu =>
      rw [hu.mem_iff]
      constructor
      · rintro ⟨r, hr, rfl⟩
        split at hne
        · rename_i heq
          subst heq
          exact absurd (by rw [hi.tenantID, hi.keyID]; exact hk) hne
        · rename_i hrk
          rwa [if_neg hrk]
      · intro hv
        refine ⟨v, hv, if_neg ?_⟩
        rintro rfl
        exact hne (by rw [hi.tenantID, hi.keyID]; exact hk)
    | fresh _ _ hi =>
      rw [hi.mem]
      refine or_iff_left ?_
      rintro rfl
      exact hne hk
  tenants := h.tenants

theorem Prepared.ownRows (h : Prepared R e key s s') (hk : kid.Names key.tenantID key.id) : OwnRows kid s.db s'.db := by
  obtain ⟨kv, isNew, db, hv, hs⟩ := h
  rw [hs.keys]
  exact hv.ownRows hk

theorem Processed.ownRows {r : Except OrbitalOperatorError Unit} (h : Processed R e key s r s')
    (hc : ∀ err, r ≠ .error (.continue err)) (hk : kid.Names key.tenantID key.id) (hmem : key ∈ s.db.keys.rows) :
    OwnRows kid s.db s'.db := by
  cases h with
  | completed h _ => exact (h.ownRows hk).mark hk (h.keys ▸ hmem)
  | orphan => exact OwnRows.refl.mark hk hmem
  | unwired hv _ => exact (hv.ownRows hk).mark hk (hv.keys ▸ hmem)
  | refused h => exact (h.ownRows hk).mark hk (h.keys ▸ hmem)
  | retried _ => exact absurd rfl (hc _)

/-- A key that was found is found with its new status. -/
theorem hasStatus_marked {lc : KeyLifeCycleState} {st : KeyProcessingStatus} {now : Int}
    (hk : db.getKeyByID kid.id kid.tenantID = .ok key)
    (hkeys : db'.keys = (db.markKeys [key.id] lc st now).keys) : kid.HasStatus db' st := by
  obtain ⟨hmem, hid, ht⟩ := DB.getKeyByID_ok hk
  have hmem' : DB.stateOf lc st now key ∈ db'.keys.rows := by
    rw [hkeys]
    exact DB.mem_markKeys.2 ⟨key, hmem, DB.markKey_of_mem (List.mem_singleton.2 rfl)⟩
  exact ⟨_, DB.getKeyByID_of_parse hmem' hid ht, rfl⟩

/-! ## Answers -/

/-- The key a task is about. -/
def RootTask.identifier : RootTask → KeyIdentifier
  | .announce key => ⟨key.id, key.tenantID⟩
  | .action _ kid => kid

/-- A lifecycle task finds its key in another state than the one it waits in. -/
def RootTask.Skips (w : World) (t : RootTask) : Prop :=
  ∃ a kid key, t = .action a kid ∧ w.db.getKeyByID kid.id kid.tenantID = .ok key ∧
    ¬ (key.lifeCycleState = a.toState ∧ key.status = .pending)

/-- What an answer says about the database before and after the delivery. -/
def Response.Committed (t : RootTask) (w w' : World) : Response → Prop
  | .continueAndWaitFor _ => w'.db = w.db
  | .complete => (w'.db = w.db ∧ t.Skips w) ∨ t.identifier.HasStatus w'.db .completed
  | .fail _ => w'.db = w.db ∨ t.identifier.HasStatus w'.db .failed

theorem TaskEffect.committed {a : ActionType} {response : Response} (h : TaskEffect R e a.toState kid w response w') :
    response.Committed (.action a kid) w w' := by
  cases h with
  | retried _ => rfl
  | missing _ => exact .inl rfl
  | skipped hk hn => exact .inl ⟨rfl, a, kid, _, rfl, hk, hn⟩
  | failed hw h =>
    obtain ⟨st, hkeys, ⟨rfl, -⟩ | ⟨-, hr⟩⟩ := h.keys nofun
    · exact .inr (hasStatus_marked hw.found hkeys)
    · cases hr
  | completed hw h =>
    obtain ⟨st, hkeys, ⟨-, _, hr⟩ | ⟨rfl, -⟩⟩ := h.keys nofun
    · cases hr
    · exact .inr (hasStatus_marked hw.found hkeys)

theorem AnnounceEffect.committed {response : Response} (h : AnnounceEffect R e key w response w') :
    response.Committed (.announce key) w w' := by
  have found : ∀ {k}, Announcing w.db key k →
      w.db.getKeyByID (RootTask.announce key).identifier.id (RootTask.announce key).identifier.tenantID = .ok k :=
    fun hk => hk.found
  cases h with
  | retried => rfl
  | rejected _ => exact .inl rfl
  | failed hk => exact .inr (hasStatus_marked (found hk) rfl)
  | completed hk _ _ => exact .inr (hasStatus_marked (found hk) rfl)

theorem names_of_found (hk : db.getKeyByID kid.id kid.tenantID = .ok key) : kid.Names key.tenantID key.id :=
  ⟨(DB.getKeyByID_ok hk).2.2, (DB.getKeyByID_ok hk).2.1⟩

theorem TaskEffect.ownRows {toState : KeyLifeCycleState} {response : Response}
    (h : TaskEffect R e toState kid w response w') : OwnRows kid w.db w'.db := by
  cases h with
  | retried _ => exact .refl
  | missing _ => exact .refl
  | skipped _ _ => exact .refl
  | failed hw h => exact h.ownRows nofun (names_of_found hw.found) (DB.getKeyByID_ok hw.found).1
  | completed hw h => exact h.ownRows nofun (names_of_found hw.found) (DB.getKeyByID_ok hw.found).1

theorem AnnounceEffect.ownRows {response : Response} (h : AnnounceEffect R e key w response w') :
    OwnRows ⟨key.id, key.tenantID⟩ w.db w'.db := by
  have names : ∀ {k}, Announcing w.db key k → KeyIdentifier.Names ⟨key.id, key.tenantID⟩ k.tenantID k.id :=
    fun hk => names_of_found hk.found
  cases h with
  | retried => exact .refl
  | rejected _ => exact .refl
  | failed hk => exact OwnRows.refl.mark (names hk) (DB.getKeyByID_ok hk.found).1
  | completed hk _ _ => exact OwnRows.refl.mark (names hk) (DB.getKeyByID_ok hk.found).1

/-- A handler changes rows of its own key only. -/
theorem handle_ownRows (t : RootTask) : OwnRows t.identifier w.db (t.handle R e w).2.db := by
  cases t with
  | announce key => exact handleAnnounce_effect.ownRows
  | action a kid => exact handleTask_effect.ownRows

end

/-- For every state of the root and every pattern of failures, the answer of a handler says what was committed: nothing
when the task is to be delivered again; a completed key, or a key that did not wait for the task, when it is complete; a
failed key or nothing when it failed. -/
theorem disposition_committed (R : RootProcess) (e : Env) (w : World) (t : RootTask) :
    (t.handle R e w).1.Committed t w (t.handle R e w).2 ∧ OwnRows t.identifier w.db (t.handle R e w).2.db := by
  refine ⟨?_, handle_ownRows t⟩
  cases t with
  | announce key => exact handleAnnounce_effect.committed
  | action a kid => exact handleTask_effect.committed

/-! ## Deliveries after the last one -/

/-- The statements a delivery of a lifecycle task starts with do not fail. -/
structure Env.Reads (e : Env) : Prop where
  begins : e.fails .begin = false
  tenant : e.fails .validateTenant = false
  key : e.fails .ensureKey = false

/-- Deliveries of a task one after the other, each of which is answered with complete, changes no row of a key or of a
key version and no vault, and asks nothing of an agent. -/
def Harmless (R : RootProcess) (t : RootTask) : World → List Env → Prop
  | _, [] => True
  | w, e :: es => (t.handle R e w).1 = .complete ∧
      (t.handle R e w).2.db.keys = w.db.keys ∧ (t.handle R e w).2.db.keyVersions = w.db.keyVersions ∧
      (t.handle R e w).2.vault = w.vault ∧ (∀ site, t.sends R e w site = none) ∧ Harmless R t (t.handle R e w).2 es

section
variable {R : RootProcess} {e : Env} {w w' : World} {a : ActionType} {kid : KeyIdentifier} {key : Key}

theorem harmless_of_fixed {t : RootTask} : ∀ {es : List Env},
    (∀ e ∈ es, t.handle R e w = (.complete, w) ∧ ∀ site, t.sends R e w site = none) → Harmless R t w es
  | [], _ => trivial
  | e :: es, h => by
    obtain ⟨hstay, hsends⟩ := h e List.mem_cons_self
    have hrest := harmless_of_fixed fun e' he' => h e' (List.mem_cons_of_mem _ he')
    unfold Harmless
    rw [hstay]
    exact ⟨rfl, rfl, rfl, rfl, hsends, hrest⟩

/-- A lifecycle task finds its tenant and its key, and the key does not wait for it. -/
structure Settled (w : World) (a : ActionType) (kid : KeyIdentifier) (key : Key) : Prop where
  tenant : Validator.validateTenant kid.tenantID w.db = .ok ()
  found : w.db.getKeyByID kid.id kid.tenantID = .ok key
  done : ¬ (key.lifeCycleState = a.toState ∧ key.status = .pending)

/-- A settled task is skipped. -/
theorem handleTask_again (h : Settled w a kid key) (he : e.Reads) : handleTask R e a kid w = (.complete, w) := by
  have hsteps : (taskSteps R e a.toState kid).Ends w.session fun r s =>
      r = .error (.orbital .complete) ∧ s = w.session := by
    unfold taskSteps
    refine .ok_bind (Tx.mapError_of_ok (query_of_ok he.tenant h.tenant))
      (.ok_bind (Tx.mapError_of_ok (query_of_ok he.key h.found)) (Tx.Ends.lift_bind (fun _ hc => ?_) fun err hc => ?_))
    · simp only [check_eq_ok, Bool.and_eq_true, decide_eq_true_eq] at hc
      exact absurd hc h.done
    · unfold check at hc
      split at hc <;> cases hc
      exact ⟨rfl, rfl⟩
  unfold handleTask transaction
  rw [he.begins]
  rcases hrun : taskSteps R e a.toState kid w.session with ⟨r, s⟩
  obtain ⟨rfl, rfl⟩ := hsteps.apply hrun
  rfl

theorem Settled.sends (h : Settled w a kid key) (site : RpcSite) : (RootTask.action a kid).sends R e w site = none := by
  cases site <;> simp [RootTask.sends, RootTask.request, h.found, h.done]

/-- A delivery that found no tenant is not answered with complete. -/
theorem tenant_of_complete (h : (handleTask R e a kid w).1 = .complete) :
    Validator.validateTenant kid.tenantID w.db = .ok () := by
  have hsteps : (taskSteps R e a.toState kid).Ends w.session fun r _ =>
      Validator.validateTenant kid.tenantID w.db = .ok () ∨ ∃ o, r = .error (.orbital o) ∧ o ≠ .complete := by
    unfold taskSteps
    refine Tx.Ends.mapError_bind ends_query ?_ ?_
    · rintro _ s ⟨rfl, ht | ht⟩
      · have hok : Validator.validateTenant kid.tenantID w.db = .ok () := ht.symm
        exact .inl hok
      · cases ht
    · rintro err s -
      refine .inr ⟨_, rfl, ?_⟩
      split <;> nofun
  unfold handleTask at h
  rcases transaction_cases e TaskError.plain hsteps with
    ⟨resp, s, hq, hrun⟩ | ⟨err, s, hq, hrun⟩ | ⟨resp, s, er, -, -, hrun⟩ | ⟨er, -, hrun⟩ <;> rw [hrun] at h
  · obtain hq | ⟨o, ho, -⟩ := hq
    · exact hq
    · cases ho
  · obtain hq | ⟨o, ho, hne⟩ := hq
    · exact hq
    · cases ho
      cases o with
      | complete => exact absurd rfl hne
      | «continue» err => cases h
      | fail err => cases h
  · cases h
  · cases h

/-- A lifecycle task that is answered with complete is settled. -/
theorem settled_of_complete (h : (handleTask R e a kid w).1 = .complete) :
    ∃ key, Settled (handleTask R e a kid w).2 a kid key := by
  have ht : Validator.validateTenant kid.tenantID (handleTask R e a kid w).2.db = .ok () := by
    obtain ⟨t, ht⟩ := Validator.validateTenant_ok.1 (tenant_of_complete h)
    exact Validator.validateTenant_ok.2 ⟨t, by rw [DB.getTenant_of_tenants handleTask_effect.tenants]; exact ht⟩
  have hc : (handleTask R e a kid w).1.Committed (.action a kid) w (handleTask R e a kid w).2 :=
    handleTask_effect.committed
  rw [h] at hc
  rcases hc with ⟨hdb, _, _, key, heq, hk, hn⟩ | ⟨key, hk, hst⟩
  · cases heq
    exact ⟨key, ht, hdb ▸ hk, hn⟩
  · refine ⟨key, ht, hk, fun hw => ?_⟩
    rw [hst] at hw
    cases hw.2

/-- No announce is answered with complete twice. -/
theorem announce_not_again {e' : Env} (h : (handleAnnounce R e key w).1 = .complete) :
    (handleAnnounce R e' key (handleAnnounce R e key w).2).1 ≠ .complete := by
  have hc : (handleAnnounce R e key w).1.Committed (.announce key) w (handleAnnounce R e key w).2 :=
    handleAnnounce_effect.committed
  rw [h] at hc
  rcases hc with ⟨-, _, _, _, heq, -⟩ | ⟨k, hk, hst⟩
  · cases heq
  · intro hagain
    have heff : AnnounceEffect R e' key (handleAnnounce R e key w).2 _ _ := handleAnnounce_effect
    rw [hagain] at heff
    -- a completed announce needs its key in progress, and the key is completed
    cases hw : (handleAnnounce R e' key (handleAnnounce R e key w).2).2
    rw [hw] at heff
    cases heff with
    | completed ha _ _ =>
      have heq : Except.ok k = Except.ok _ := hk.symm.trans ha.found
      cases heq
      rw [ha.status] at hst
      cases hst

end

/-- A task that was answered with complete can be delivered again any number of times without harm, while the reads of
the deliveries work, exactly if it is a lifecycle task. -/
theorem redelivery_harmless_iff (R : RootProcess) (e : Env) (w : World) (t : RootTask)
    (hc : (t.handle R e w).1 = .complete) :
    (∀ es : List Env, (∀ e' ∈ es, e'.Reads) → Harmless R t (t.handle R e w).2 es) ↔ ∃ a kid, t = .action a kid := by
  constructor
  · intro h
    cases t with
    | action a kid => exact ⟨a, kid, rfl⟩
    | announce key =>
      have hquiet : ({ e with fails := fun _ => false } : Env).Reads := ⟨rfl, rfl, rfl⟩
      have hagain := h [{ e with fails := fun _ => false }] (by rintro e' he'; rwa [List.mem_singleton.1 he'])
      exact absurd hagain.1 (announce_not_again hc)
  · rintro ⟨a, kid, rfl⟩ es hes
    obtain ⟨key, hset⟩ := settled_of_complete hc
    exact harmless_of_fixed fun e' he' => ⟨handleTask_again hset (hes e' he'), hset.sends⟩

/-- The root key waits for its activation. -/
def demoWaiting : List (Env × Op) :=
  [demoCreateTenant, demoAnnounce 1 "rk" "" ""] ++ demoRunJob 0 0 ++ [demoAction .activate 1 false]

def demoActivation : RootTask := .action .activate ⟨demoKey 1, demoTenant⟩

/-- The activation of the root key completes it, and can be delivered again. -/
theorem demoActivation_harmless : (demoActivation.handle demo (demoEnv 0) (worldAfter demo demoWaiting)).1 = .complete ∧
    ∀ es : List Env, (∀ e' ∈ es, e'.Reads) →
      Harmless demo demoActivation (demoActivation.handle demo (demoEnv 0) (worldAfter demo demoWaiting)).2 es := by
  have hc : (demoActivation.handle demo (demoEnv 0) (worldAfter demo demoWaiting)).1 = .complete := by decide +kernel
  exact ⟨hc, (redelivery_harmless_iff demo (demoEnv 0) (worldAfter demo demoWaiting) demoActivation hc).2 ⟨_, _, rfl⟩⟩

/-- The root key is announced, and its job is resolved. -/
def demoAnnouncing : List (Env × Op) :=
  [demoCreateTenant, demoAnnounce 1 "rk" "" "", (demoEnv 0, .confirmJob 0 0 true), (demoEnv 0, .resolveTasks 0 0)]

/-- The announce task of the root key completes; delivered again, without any failure around it, it fails. -/
theorem announce_redelivered_fails : ∃ t ∈ ((run (step demo) .init demoAnnouncing).taskAt 0 0 0).toList,
    (t.handle demo (demoEnv 0) (worldAfter demo demoAnnouncing)).1 = .complete ∧
      (t.handle demo (demoEnv 0) (t.handle demo (demoEnv 0) (worldAfter demo demoAnnouncing)).2).1 =
        .fail "cannot transition key: current state does not match the expected states: key not found" := by
  decide +kernel

end Krypton
