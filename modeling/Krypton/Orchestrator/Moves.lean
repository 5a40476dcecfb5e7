import Krypton.Orchestrator.KeyAction
import Krypton.Store.Statements

/-!
# What key operations do

The effect of `upsertKey` and of `applyKeyAction` on the database of a transaction, stated once for all later proofs.

* `ends_upsertKey` — a key is inserted, or the stored key of that name takes the states of the new one (`Upserted`);
* `ends_applyKeyAction` — the keys of the prepared jobs, and no others, become pending for the new state (`Selected`).
-/

namespace Krypton

open Lib

section
variable {e : Env} {s s' : Session}

/-- Only the transaction's database differs. -/
def Session.Touches (s s' : Session) : Prop := ∃ db, s' = { s with db }

theorem Session.Touches.refl : s.Touches s := ⟨s.db, rfl⟩

theorem Session.Touches.trans {s'' : Session} (h : s.Touches s') (h' : s'.Touches s'') : s.Touches s'' := by
  obtain ⟨_, rfl⟩ := h
  obtain ⟨db, rfl⟩ := h'
  exact ⟨db, rfl⟩

theorem Session.Touches.db {db : DB} : s.Touches { s with db } := ⟨db, rfl⟩

/-! ## Upsert -/

/-- What an upsert of `newKey` that succeeds returns and leaves in the database. -/
inductive Upserted (e : Env) (newKey : Key) (db : DB) : Key → DB → Prop where
  | inserted {row : Key} {db' : DB} (h : DB.KeyInserted db newKey row db') : Upserted e newKey db newKey db'
  | adopted {k : Key} (hk : k ∈ db.keys.rows) (hsame : k.isSame newKey = true) :
      Upserted e newKey db { newKey with id := k.id } (db.markKeys [k.id] newKey.lifeCycleState newKey.status e.now)

/-- The outcome of an upsert in a transaction. -/
def UpsertEnds (e : Env) (newKey : Key) (s : Session) (r : Except Err Key) (s' : Session) : Prop :=
  (∃ k db', r = .ok k ∧ s' = { s with db := db' } ∧ Upserted e newKey s.db k db') ∨ ∃ err, r = .error err ∧ s.Touches s'

theorem ends_adoptExisting {newKey existing : Key} (hmem : existing ∈ s.db.keys.rows) :
    (adoptExisting e newKey existing).Ends s (UpsertEnds e newKey s) := by
  unfold adoptExisting
  refine Tx.Ends.lift_bind (fun _ hc => ?_) fun err _ => .inr ⟨err, rfl, .refl⟩
  rw [check_eq_ok] at hc
  refine Tx.Ends.attempt_bind ends_exec ?_
  rintro r s' (⟨db, rfl, hu, rfl⟩ | ⟨err, rfl, rfl, hu⟩)
  · rw [DB.updateKeyStates_of_mem hmem] at hu
    cases hu
    exact .inl ⟨_, _, rfl, rfl, .adopted hmem hc⟩
  · -- the row was read in this transaction, so the compare-and-set finds it
    have herr : err = errDatabase := by
      rcases hu with hu | hu
      · rw [DB.updateKeyStates_of_mem hmem] at hu; cases hu
      · exact hu
    subst herr
    exact .inr ⟨_, rfl, .refl⟩

theorem ends_upsertKey {newKey : Key} : (upsertKey e newKey).Ends s (UpsertEnds e newKey s) := by
  unfold upsertKey
  refine Tx.Ends.attempt_bind ends_exec ?_
  rintro r s' (⟨db, rfl, hu, rfl⟩ | ⟨err, rfl, rfl, -⟩)
  · obtain ⟨row, hrow⟩ := DB.createKey_ok hu
    exact .inl ⟨_, _, rfl, rfl, .inserted hrow⟩
  · dsimp only
    split
    · exact .inr ⟨_, rfl, .refl⟩
    · refine Tx.Ends.attempt_bind ends_query ?_
      rintro r s'' ⟨rfl, hr⟩
      split
      · rename_i existing
        have hok : s''.db.getKeyByName newKey.tenantID newKey.name = .ok existing := by
          rcases hr with hr | hr
          · exact hr.symm
          · cases hr
        exact ends_adoptExisting (DB.getKeyByName_ok hok).1
      · split
        · exact .inr ⟨_, rfl, .refl⟩
        · refine Tx.Ends.attempt_bind ends_query ?_
          rintro r s''' ⟨rfl, hr'⟩
          split
          · rename_i existing
            have hok : s'''.db.getKeyByID newKey.id newKey.tenantID = .ok existing := by
              rcases hr' with hr' | hr'
              · exact hr'.symm
              · cases hr'
            exact ends_adoptExisting (DB.getKeyByID_ok hok).1
          · exact .inr ⟨_, rfl, .refl⟩

theorem Upserted.tenants {newKey k : Key} {db db' : DB} (h : Upserted e newKey db k db') :
    db'.tenants = db.tenants := by
  cases h with
  | inserted hi => exact hi.tenants
  | adopted _ _ => rfl

theorem Upserted.tenantID {newKey k : Key} {db db' : DB} (h : Upserted e newKey db k db') :
    k.tenantID = newKey.tenantID := by
  cases h <;> rfl

/-! ## Compare-and-set -/

/-- The rows a transition applies to. -/
def Transition.Applies (t : Transition) (k : Key) : Prop :=
  (t.fromLifeCycle = [] ∨ k.lifeCycleState ∈ t.fromLifeCycle) ∧ (t.fromProcessing = [] ∨ k.status ∈ t.fromProcessing)

theorem ends_updateKeyState {site : Site} {tenantID keyID : String} {t : Transition} :
    (updateKeyState e site tenantID keyID t).Ends s fun r s' =>
      (∃ k ∈ s.db.keys.rows, uuidIn keyID = some k.id ∧ uuidIn tenantID = some k.tenantID ∧ t.Applies k ∧
        r = .ok () ∧ s' = { s with db := s.db.markKeys [k.id] t.toLifeCycle t.toProcessing e.now }) ∨
      ∃ err, r = .error (if err.is .keyNotFound then .wrap .keyTransitionRejected err else .wrap .updateKeyState err) ∧
        s' = s ∧ (err = errDatabase ∨ s.db.updateKeyStates
          ⟨keyID, tenantID, t.toLifeCycle, t.toProcessing, t.fromLifeCycle, t.fromProcessing, e.now⟩ = .error err) := by
  refine Tx.Ends.mapError ends_exec ?_ ?_
  · rintro _ s' (⟨db, -, hu, rfl⟩ | ⟨_, h, -⟩)
    · obtain ⟨k, hk, hid, ht, hs, hst, rfl⟩ := DB.updateKeyStates_ok hu
      exact .inl ⟨k, hk, hid, ht, ⟨hs, hst⟩, rfl, rfl⟩
    · cases h
  · rintro err s' (⟨_, h, -⟩ | ⟨_, ⟨⟩, rfl, herr⟩)
    · cases h
    · exact .inr ⟨_, rfl, rfl, herr.symm⟩

/-! ## Key actions -/

/-- A key an action may take: a filter of the action holds of it. -/
def ApplyKeyActionRequest.Takes (a : ApplyKeyActionRequest) (k : Key) : Prop :=
  ∃ f ∈ a.keyFilters, f.lifeCycleState = some k.lifeCycleState ∧ (f.status = [] ∨ k.status ∈ f.status)

/-- Every filter names a lifecycle state, and there is one. -/
structure ApplyKeyActionRequest.NamesStates (a : ApplyKeyActionRequest) : Prop where
  some_filter : a.keyFilters ≠ []
  states : ∀ f ∈ a.keyFilters, f.lifeCycleState ≠ none

/-- The filter of the query and the one that is applied to a single key agree when every filter names a state. -/
theorem takes_iff_passes {a : ApplyKeyActionRequest} {k : Key} (hf : a.NamesStates) :
    DB.passes (toStoreFilters a.keyFilters) k = true ↔ a.Takes k := by
  have hfull : ∀ f ∈ a.keyFilters, DB.KeyFilter.isEmpty ⟨f.lifeCycleState, f.status⟩ = false := by
    intro f hfm
    cases hlc : f.lifeCycleState with
    | none => exact absurd hlc (hf.states f hfm)
    | some lc => rfl
  have hone : ∀ f ∈ a.keyFilters, DB.KeyFilter.holds ⟨f.lifeCycleState, f.status⟩ k = true ↔
      f.lifeCycleState = some k.lifeCycleState ∧ (f.status = [] ∨ k.status ∈ f.status) := by
    intro f hfm
    cases hlc : f.lifeCycleState with
    | none => exact absurd hlc (hf.states f hfm)
    | some lc => simp [DB.KeyFilter.holds]
  unfold DB.passes
  rw [Bool.or_eq_true]
  constructor
  · rintro (h | h)
    · obtain ⟨f, hfm⟩ := List.exists_mem_of_ne_nil _ hf.some_filter
      have hempty := List.all_eq_true.1 h ⟨f.lifeCycleState, f.status⟩ (List.mem_map_of_mem hfm)
      rw [hfull f hfm] at hempty
      cases hempty
    · obtain ⟨_, hm, hp⟩ := List.any_eq_true.1 h
      obtain ⟨f, hfm, rfl⟩ := List.mem_map.1 hm
      rw [Bool.and_eq_true] at hp
      exact ⟨f, hfm, (hone f hfm).1 hp.2⟩
  · rintro ⟨f, hfm, h⟩
    refine .inr (List.any_eq_true.2 ⟨⟨f.lifeCycleState, f.status⟩, List.mem_map_of_mem hfm, ?_⟩)
    rw [hfull f hfm, (hone f hfm).2 h]
    rfl

theorem takes_iff_any {a : ApplyKeyActionRequest} {k : Key} : (a.keyFilters.any fun f =>
    f.lifeCycleState == some k.lifeCycleState && (f.status.isEmpty || f.status.contains k.status)) = true ↔
      a.Takes k := by
  simp [ApplyKeyActionRequest.Takes]

/-- What is fetched is stored, in the tenant of the request. -/
theorem fetchKeytree_stored {a : ApplyKeyActionRequest} {db : DB} {kt : KeyTree} (h : fetchKeytree a db = .ok kt) :
    ∀ layer ∈ kt, ∀ k ∈ layer, k ∈ db.keys.rows ∧ uuidIn a.tenantID = some k.tenantID := by
  unfold fetchKeytree at h
  split at h
  · rw [mapError_eq_ok] at h
    intro layer hl k hk
    obtain ⟨hmem, -, ht⟩ := DB.getDescendantKeys_ok h layer hl k hk
    exact ⟨hmem, ht⟩
  · obtain ⟨key, hkey, h⟩ := bind_eq_ok.1 h
    rw [mapError_eq_ok] at hkey
    split at h
    · cases h
      intro layer hl k hk
      rw [List.mem_singleton.1 hl] at hk
      rw [List.mem_singleton.1 hk]
      exact ⟨(DB.getKeyByID_ok hkey).1, (DB.getKeyByID_ok hkey).2.2⟩
    · cases h

theorem fetchKeytree_takes {a : ApplyKeyActionRequest} {db : DB} {kt : KeyTree} (hf : a.NamesStates)
    (h : fetchKeytree a db = .ok kt) : ∀ layer ∈ kt, ∀ k ∈ layer, a.Takes k := by
  unfold fetchKeytree at h
  split at h
  · rw [mapError_eq_ok] at h
    intro layer hl k hk
    exact (takes_iff_passes hf).1 (DB.getDescendantKeys_ok h layer hl k hk).2.1
  · obtain ⟨key, -, h⟩ := bind_eq_ok.1 h
    split at h
    · rename_i hany
      cases h
      intro layer hl k hk
      rw [List.mem_singleton.1 hl] at hk
      rw [List.mem_singleton.1 hk]
      exact takes_iff_any.1 hany
    · cases h

def Key.identifier (k : Key) : KeyIdentifier := ⟨k.id, k.tenantID⟩

/-- The identifiers of a job's layer. -/
def Job.identifiers : Job → List KeyIdentifier
  | .announce key => [key.identifier]
  | .layer _ ids => ids

/-- The keys that are not yet in the state an action leads to. -/
def toMove (toState : KeyLifeCycleState) (keys : List Key) : List Key :=
  keys.filter fun k => ¬ (k.lifeCycleState = toState ∧ k.status = .completed)

theorem mem_toMove {toState : KeyLifeCycleState} {keys : List Key} {k : Key} :
    k ∈ toMove toState keys ↔ k ∈ keys ∧ ¬ (k.lifeCycleState = toState ∧ k.status = .completed) := by
  rw [toMove, List.mem_filter, decide_eq_true_eq]

theorem toMove_skip {toState : KeyLifeCycleState} {k : Key} {keys : List Key}
    (h : k.lifeCycleState = toState ∧ k.status = .completed) : toMove toState (k :: keys) = toMove toState keys :=
  List.filter_cons_of_neg (by rw [decide_eq_true_eq]; exact not_not_intro h)

theorem toMove_move {toState : KeyLifeCycleState} {k : Key} {keys : List Key}
    (h : ¬ (k.lifeCycleState = toState ∧ k.status = .completed)) :
    toMove toState (k :: keys) = k :: toMove toState keys :=
  List.filter_cons_of_pos (decide_eq_true h)

/-- The keys to move become pending, one by one. -/
theorem ends_applyLayer {toState : KeyLifeCycleState} :
    ∀ {keys : List Key} {s : Session}, (∀ k ∈ keys, Canonical k.id) →
      (applyLayer e toState keys).Ends s fun r s' =>
        (∃ ids, r = .ok ids ∧ ids = (toMove toState keys).map Key.identifier ∧
          s' = { s with db := s.db.markKeys (ids.map KeyIdentifier.id) toState .pending e.now }) ∨
        ∃ err, r = .error err ∧ s.Touches s'
  | [], s, _ => by
    refine .inl ⟨[], rfl, rfl, ?_⟩
    rw [List.map_nil, DB.markKeys_nil]
    rfl
  | key :: keys, s, hc => by
    have ih := fun s => @ends_applyLayer toState keys s
      fun k hk => hc k (List.mem_cons_of_mem _ hk)
    unfold applyLayer
    split
    · rename_i hthere
      refine (ih s).mono ?_
      rintro r s' (⟨ids, rfl, rfl, rfl⟩ | herr)
      · exact .inl ⟨_, rfl, by rw [toMove_skip hthere], rfl⟩
      · exact .inr herr
    · rename_i hthere
      refine Tx.Ends.mapError_bind ends_updateKeyState ?_ ?_
      · rintro _ s₁ (⟨k, -, hid, -, -, -, rfl⟩ | ⟨_, h, -⟩)
        · have hkid : k.id = key.id := Option.some.inj (hid.symm.trans (hc key List.mem_cons_self))
          refine Tx.Ends.bind (ih _) ?_ ?_
          · rintro ids s₂ (⟨_, ⟨⟩, rfl, rfl⟩ | ⟨_, h, -⟩)
            · refine .inl ⟨_, rfl, ?_, ?_⟩
              · rw [toMove_move hthere, List.map_cons, Key.identifier]
              · simp only [DB.markKeys_markKeys, hkid, List.map_cons, List.singleton_append]
                rfl
            · cases h
          · rintro err s₂ (⟨_, h, -⟩ | ⟨_, -, ht⟩)
            · cases h
            · exact .inr ⟨_, rfl, Session.Touches.db.trans ht⟩
        · cases h
      · rintro err s₁ (⟨_, _, _, _, _, h, -⟩ | ⟨_, -, rfl, -⟩)
        · cases h
        · exact .inr ⟨_, rfl, .refl⟩

/-- The jobs for a tree of keys: one for each layer with a key to move. -/
def jobsOf (cfg : HandlerConfig) : KeyTree → JobGroup
  | [] => []
  | layer :: layers =>
    let ids := (toMove cfg.toState layer).map Key.identifier
    if ids.isEmpty then jobsOf cfg layers else .layer cfg.handlerType ids :: jobsOf cfg layers

/-- The identifiers of all keys to move in a tree. -/
def idsOf (cfg : HandlerConfig) (kt : KeyTree) : List String :=
  kt.flatMap fun layer => (toMove cfg.toState layer).map Key.id

theorem ends_applyLayers {cfg : HandlerConfig} :
    ∀ {kt : KeyTree} {s : Session}, (∀ layer ∈ kt, ∀ k ∈ layer, Canonical k.id) →
      (applyLayers e cfg kt).Ends s fun r s' =>
        (r = .ok (jobsOf cfg kt) ∧
          s' = { s with db := s.db.markKeys (idsOf cfg kt) cfg.toState .pending e.now }) ∨
        ∃ err, r = .error err ∧ s.Touches s'
  | [], s, _ => by
    refine .inl ⟨rfl, ?_⟩
    rw [idsOf, List.flatMap_nil, DB.markKeys_nil]
    rfl
  | layer :: layers, s, hc => by
    have ih := fun s => @ends_applyLayers cfg layers s
      fun l hl => hc l (List.mem_cons_of_mem _ hl)
    refine Tx.Ends.bind (ends_applyLayer (hc layer List.mem_cons_self)) ?_ ?_
    · rintro ids s₁ (⟨_, ⟨⟩, rfl, rfl⟩ | ⟨_, h, -⟩)
      · refine Tx.Ends.bind (ih _) ?_ ?_
        · rintro jobs s₂ (⟨hj, rfl⟩ | ⟨_, h, -⟩)
          · cases hj
            refine .inl ⟨rfl, ?_⟩
            simp only [DB.markKeys_markKeys, idsOf, List.flatMap_cons, List.map_map]
            rfl
          · cases h
        · rintro err s₂ (⟨h, -⟩ | ⟨_, -, ht⟩)
          · cases h
          · exact .inr ⟨_, rfl, Session.Touches.db.trans ht⟩
      · cases h
    · rintro err s₁ (⟨_, h, -⟩ | ⟨_, -, ht⟩)
      · cases h
      · exact .inr ⟨_, rfl, ht⟩

/-- The prepared jobs name exactly the keys to move. -/
theorem mem_jobsOf {cfg : HandlerConfig} {job : Job} :
    ∀ {kt : KeyTree}, job ∈ jobsOf cfg kt ↔ ∃ layer ∈ kt, toMove cfg.toState layer ≠ [] ∧
      job = .layer cfg.handlerType ((toMove cfg.toState layer).map Key.identifier)
  | [] => by simp [jobsOf]
  | layer :: layers => by
    have ih := @mem_jobsOf cfg job layers
    by_cases hl : toMove cfg.toState layer = []
    · simp [jobsOf, hl, ih]
    · simp [jobsOf, hl, ih]

theorem mem_idsOf {cfg : HandlerConfig} {id : String} {kt : KeyTree} :
    id ∈ idsOf cfg kt ↔ ∃ layer ∈ kt, ∃ k ∈ toMove cfg.toState layer, k.id = id := by
  simp [idsOf]

/-- A tree of stored keys that an action may take. -/
structure Selected (db : DB) (a : ApplyKeyActionRequest) (kt : KeyTree) : Prop where
  stored : ∀ layer ∈ kt, ∀ k ∈ layer, k ∈ db.keys.rows
  takes : ∀ layer ∈ kt, ∀ k ∈ layer, a.Takes k
  tenant : ∀ layer ∈ kt, ∀ k ∈ layer, uuidIn a.tenantID = some k.tenantID
  some_job : jobsOf a.handlerConfig kt ≠ []
  /-- Nothing of the fetched tree is left out. -/
  fetched : ∃ kt', fetchKeytree a db = .ok kt' ∧ ∀ layer ∈ kt', layer ∈ kt

theorem mem_ordered {a : ApplyKeyActionRequest} {kt : KeyTree} {layer : List Key} : layer ∈ a.ordered kt ↔
    layer ∈ kt := by
  unfold ApplyKeyActionRequest.ordered
  split
  · exact List.mem_reverse
  · exact Iff.rfl

theorem selected_of_fetch {a : ApplyKeyActionRequest} {db : DB} {kt : KeyTree} (hf : a.NamesStates)
    (h : fetchKeytree a db = .ok kt) (hjob : jobsOf a.handlerConfig (a.ordered kt) ≠ []) :
    Selected db a (a.ordered kt) where
  stored layer hl k hk := (fetchKeytree_stored h layer (mem_ordered.1 hl) k hk).1
  takes layer hl k hk := fetchKeytree_takes hf h layer (mem_ordered.1 hl) k hk
  tenant layer hl k hk := (fetchKeytree_stored h layer (mem_ordered.1 hl) k hk).2
  some_job := hjob
  fetched := ⟨kt, h, fun _ hl => mem_ordered.2 hl⟩

/-- An action that succeeds prepares one group and marks the keys it names. -/
theorem ends_applyKeyAction {a : ApplyKeyActionRequest} :
    (applyKeyAction e a).Ends s fun r s' =>
      (∃ kt, fetchKeytree a s.db = .ok kt ∧ jobsOf a.handlerConfig (a.ordered kt) ≠ [] ∧ r = .ok () ∧
        s' = { s with db := s.db.markKeys (idsOf a.handlerConfig (a.ordered kt)) a.handlerConfig.toState .pending e.now,
                      prepared := s.prepared ++ [jobsOf a.handlerConfig (a.ordered kt)] }) ∨
      ∃ err, r = .error err ∧ s.Touches s' := by
  unfold applyKeyAction
  refine Tx.Ends.bind ends_query ?_ ?_
  · rintro kt s₁ ⟨rfl, hr⟩
    have hkt : fetchKeytree a s₁.db = .ok kt := by
      rcases hr with hr | hr
      · exact hr.symm
      · cases hr
    have hcan : ∀ layer ∈ a.ordered kt, ∀ k ∈ layer, Canonical k.id := fun layer hl k hk =>
      (DB.key_canonical (fetchKeytree_stored hkt layer (mem_ordered.1 hl) k hk).1).1
    refine Tx.Ends.bind (ends_applyLayers hcan) ?_ ?_
    · rintro jobs s₂ (⟨hj, rfl⟩ | ⟨_, h, -⟩)
      · cases hj
        refine Tx.Ends.lift_bind (fun _ hne => ?_) fun err _ => .inr ⟨_, rfl, .db⟩
        rw [check_eq_ok] at hne
        refine ends_prepareJobGroup.mono ?_
        rintro r s₃ (⟨rfl, rfl⟩ | ⟨err, rfl, rfl⟩)
        · exact .inl ⟨kt, hkt, by simpa using hne, rfl, rfl⟩
        · exact .inr ⟨_, rfl, .db⟩
      · cases h
    · rintro err s₂ (⟨h, -⟩ | ⟨_, -, ht⟩)
      · cases h
      · exact .inr ⟨_, rfl, ht⟩
  · rintro err s₁ ⟨rfl, -⟩
    exact .inr ⟨_, rfl, .refl⟩

end

end Krypton
