import Krypton.Lib.Layers
import Krypton.Material

/-!
# Cascading actions

A cascading action takes the keys below its key, as far as its filters let it: a key that no filter holds of is left out
with everything below it. The tree is fetched layer by layer; there are fewer layers than keys, so the search is
complete.

* `layers_complete` — every key that is reached through keys the filters let pass is in the fetched tree;
* `cascade_moves` — an action that succeeds moves all of these that are not there yet, and one that fails moves none.
-/

namespace Krypton

open Lib

/-- The states an action takes keys in. -/
def ActionType.Takes (action : ActionType) (k : Key) : Prop :=
  ∃ f ∈ keyFilters action, f.lifeCycleState = some k.lifeCycleState ∧ k.status ∈ f.status

instance (action : ActionType) (k : Key) : Decidable (action.Takes k) := inferInstanceAs (Decidable (∃ _ ∈ _, _))

/-- `b` is a child of `a` that the action takes. -/
structure TakenChild (db : DB) (action : ActionType) (a b : Key) : Prop where
  mem : b ∈ db.keys.rows
  takes : action.Takes b
  parentID : b.parentID = some a.id
  tenantID : b.tenantID = a.tenantID

section
variable {e : Env} {db : DB} {action : ActionType} {req : KeyRequest} {w : World} {k P D : Key}

theorem passes_keyFilters : DB.passes (toStoreFilters (keyFilters action)) k = true ↔ action.Takes k := by
  have hiff : DB.passes (toStoreFilters (keyFilters action)) k = true ↔ (actionRequest action ⟨"", "", true⟩).Takes k :=
    takes_iff_passes (actionRequest_namesStates action _)
  rw [hiff]
  constructor
  · rintro ⟨f, hf, hlc, hst⟩
    refine ⟨f, hf, hlc, hst.resolve_left fun hnil => ?_⟩
    -- every filter of an action names statuses
    have hall : ∀ f ∈ keyFilters action, f.status ≠ [] := by cases action <;> decide
    exact hall f hf hnil
  · rintro ⟨f, hf, hlc, hst⟩
    exact ⟨f, hf, hlc, .inr hst⟩

theorem expands_childLayer : Expands (db.childLayer (toStoreFilters (keyFilters action))) (TakenChild db action) := by
  intro l y
  rw [DB.mem_childLayer]
  constructor
  · rintro ⟨hmem, hp, x, hx, hpar, ht⟩
    exact ⟨x, hx, hmem, passes_keyFilters.1 hp, hpar, ht⟩
  · rintro ⟨x, hx, h⟩
    exact ⟨h.mem, passes_keyFilters.2 h.takes, x, hx, h.parentID, h.tenantID⟩

/-- **The fetched tree is complete.** -/
theorem layers_complete {id tenantID : String} {kt : KeyTree} (hP : db.getKeyByID id tenantID = .ok P)
    (hkt : db.getDescendantKeys id tenantID (toStoreFilters (keyFilters action)) = .ok kt)
    (hD : Relation.ReflTransGen (TakenChild db action) P D) : ∃ layer ∈ kt, D ∈ layer := by
  obtain ⟨hmem, hid, ht⟩ := DB.getKeyByID_ok hP
  obtain ⟨⟨i, t⟩, hparams, hkt⟩ := bind_eq_ok.1 hkt
  have hi := (keyParams_ok.1 (DB.descendantParams_ok.1 hparams).2).1
  dsimp only at hkt
  split at hkt
  · cases hkt
  · rename_i k₀ hk₀
    cases hkt
    have hsel := List.find?_some hk₀
    simp only [Bool.and_eq_true, beq_iff_eq] at hsel
    have heq : k₀ = P := by
      refine DB.key_eq_of_id (List.mem_of_find?_eq_some hk₀) hmem ?_
      rw [hsel.1.1]
      exact Option.some.inj (hi.symm.trans hid)
    subst heq
    obtain ⟨n, hn, hDn⟩ := mem_layer_lt expands_childLayer (fun _ _ h => h.mem) hmem hD
    have hlayer := DB.getElem?_layersFrom.2 ⟨Nat.le_of_lt hn, rfl, List.ne_nil_of_mem hDn⟩
    exact ⟨_, List.mem_of_getElem? hlayer, hDn⟩

/-- **A cascading action moves the tree.** When it fails nothing has changed. When it succeeds, every key that is
reached from its key through keys in states the action takes, and is not in the new state already, is pending for the
new state and named in the jobs of the action. -/
theorem cascade_moves (e : Env) (action : ActionType) (req : KeyRequest) (hreq : req.cascading = true) (w : World) :
    (∀ err, (keyAction e action req w).1 = .error err → (keyAction e action req w).2 = ([], w)) ∧
    ((keyAction e action req w).1 = .ok () → ∀ P D, w.db.getKeyByID req.id req.tenantID = .ok P →
      Relation.ReflTransGen (TakenChild w.db action) P D →
        ¬ (D.lifeCycleState = action.toState ∧ D.status = .completed) →
      (∃ D' ∈ (keyAction e action req w).2.2.db.keys.rows, D'.ident = D.ident ∧ D'.lifeCycleState = action.toState ∧
        D'.status = .pending) ∧
      ∃ jobs ∈ (keyAction e action req w).2.1, ∃ job ∈ jobs, D.identifier ∈ job.identifiers) := by
  have heff : ActionEffect e action req w (keyAction e action req w) := keyAction_effect
  generalize keyAction e action req w = out at heff ⊢
  cases heff with
  | refused => exact ⟨fun _ _ => rfl, nofun⟩
  | @accepted kt ht hsel hp =>
    refine ⟨nofun, fun _ P D hP hD hnot => ?_⟩
    obtain ⟨kt', hfetch, hsub⟩ := hsel.fetched
    have hkt' : w.db.getDescendantKeys req.id req.tenantID (toStoreFilters (keyFilters action)) = .ok kt' := by
      unfold fetchKeytree at hfetch
      rw [show (actionRequest action req).cascading = true from hreq, if_pos rfl, mapError_eq_ok] at hfetch
      exact hfetch
    obtain ⟨layer, hlayer, hDl⟩ := layers_complete hP hkt' hD
    have hmove : D ∈ toMove action.toState layer := mem_toMove.2 ⟨hDl, hnot⟩
    have hDmem : D ∈ w.db.keys.rows := hsel.stored layer (hsub layer hlayer) D hDl
    refine ⟨⟨_, DB.mem_markKeys.2 ⟨D, hDmem, rfl⟩, DB.markKey_ident, ?_⟩, jobsOf action.handlerConfig kt,
      List.mem_singleton_self _, ?_⟩
    · rw [DB.markKey_of_mem (mem_idsOf.2 ⟨layer, hsub layer hlayer, D, hmove, rfl⟩)]
      exact ⟨rfl, rfl⟩
    · exact ⟨_, mem_jobsOf.2 ⟨layer, hsub layer hlayer, List.ne_nil_of_mem hmove, rfl⟩, List.mem_map_of_mem hmove⟩

end

/-- Suspend the root key with everything below it. -/
def demoCascade : KeyRequest := ⟨demoTenant, demoKey 1, true⟩

theorem demoCascade_moves :
    ∃ D ∈ (worldAfter demo (demoSecondKey ++ demoActivateSecond)).db.keys.rows, D.id = demoKey 2 ∧
      (∃ D' ∈ (keyAction (demoEnv 0) .suspend demoCascade
          (worldAfter demo (demoSecondKey ++ demoActivateSecond))).2.2.db.keys.rows,
        D'.ident = D.ident ∧ D'.lifeCycleState = .suspended ∧ D'.status = .pending) ∧
      ∃ jobs ∈ (keyAction (demoEnv 0) .suspend demoCascade
          (worldAfter demo (demoSecondKey ++ demoActivateSecond))).2.1, ∃ job ∈ jobs,
            D.identifier ∈ job.identifiers := by
  obtain ⟨P, hP⟩ : ∃ P, (worldAfter demo (demoSecondKey ++ demoActivateSecond)).db.getKeyByID demoCascade.id
      demoCascade.tenantID = .ok P := exists_of_isOk (by decide +kernel)
  obtain ⟨D, hD, hid, htakes, hpar, ht, hst⟩ :
      ∃ D ∈ (worldAfter demo (demoSecondKey ++ demoActivateSecond)).db.keys.rows,
      D.id = demoKey 2 ∧ ActionType.suspend.Takes D ∧ D.parentID = some (demoKey 1) ∧ D.tenantID = demoTenant ∧
        ¬ (D.lifeCycleState = .suspended ∧ D.status = .completed) := by decide +kernel
  obtain ⟨-, hPid, hPt⟩ := DB.getKeyByID_ok hP
  have hPid' : demoKey 1 = P.id := Option.some.inj ((demoUuid 1).canonical_text.symm.trans hPid)
  have hPt' : demoTenant = P.tenantID := Option.some.inj ((demoUuid 0).canonical_text.symm.trans hPt)
  have hchild : TakenChild (worldAfter demo (demoSecondKey ++ demoActivateSecond)).db .suspend P D :=
    ⟨hD, htakes, by rw [hpar, hPid'], by rw [ht, hPt']⟩
  exact ⟨D, hD, hid, (cascade_moves (demoEnv 0) .suspend demoCascade rfl
    (worldAfter demo (demoSecondKey ++ demoActivateSecond))).2 (by decide +kernel) P D hP (.single hchild) hst⟩

/-- The key below the root key waits for its activation: a cascading suspend of the root key succeeds and leaves it
active. -/
theorem pending_child_left_active :
    (keyAction (demoEnv 0) .suspend demoCascade
      (worldAfter demo (demoSecondKey ++ [demoAction .activate 2 false]))).1.isOk =
        true ∧
      ∃ P ∈ (worldAfter demo (demoSecondKey ++ [demoAction .activate 2 false])).db.keys.rows,
        ∃ D ∈ (worldAfter demo (demoSecondKey ++ [demoAction .activate 2 false])).db.keys.rows,
          P.id = demoCascade.id ∧ D.parentID = some P.id ∧ P.lifeCycleState = .active ∧ D.lifeCycleState = .active ∧
            D ∈ (keyAction (demoEnv 0) .suspend demoCascade
              (worldAfter demo (demoSecondKey ++ [demoAction .activate 2 false]))).2.2.db.keys.rows := by
  decide +kernel

end Krypton
