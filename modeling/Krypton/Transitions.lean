import Krypton.Root

/-!
# Lifecycle changes

Which lifecycle changes the steps of the root make. Most writers of a key's state do not ask the transition table: they
rely on the filters of a call or on a compare-and-set from the state they have read. An announce of a stored key is the
exception that escapes both: it puts the key back to pre-activation, from wherever it is.

* `transitions_legal` — without such an announce every change of a lifecycle state is in the transition table;
* `retired_stays_retired` — and a key that was deactivated, compromised or destroyed is never active again.
-/

namespace Krypton

open Lib

/-- Every change of a key's lifecycle state is one that `ValidateTransition` permits. -/
def LegalChange (db db' : DB) : Prop :=
  ∀ k ∈ db.keys.rows, ∀ k' ∈ db'.keys.rows, k'.id = k.id → k'.lifeCycleState ≠ k.lifeCycleState →
    KeyLifecycle.validateTransition k.lifeCycleState k'.lifeCycleState = .ok ()

/-- The key that a call announces. -/
def AdminCall.announced (R : RootProcess) (e : Env) : AdminCall → Option Key
  | .announceKey req => some (announcedKey R e req)
  | _ => none

/-- The call announces a key that is stored and has left pre-activation. -/
def Reannounces (R : RootProcess) (w : World) (e : Env) (call : AdminCall) : Prop :=
  ∃ key ∈ call.announced R e, ∃ k ∈ w.db.keys.rows, k.isSame key = true ∧ k.lifeCycleState ≠ .preActivation

instance (R : RootProcess) (w : World) (e : Env) (call : AdminCall) : Decidable (Reannounces R w e call) :=
  inferInstanceAs (Decidable (∃ _ ∈ _, _))

section
variable {R : RootProcess} {e : Env} {w w' : World} {db db' : DB}

/-! ## What a statement changes -/

theorem legalChange_of_keys (h : db'.keys = db.keys) : LegalChange db db' := by
  intro k hk k' hk' hid hne
  rw [h] at hk'
  rw [DB.key_eq_of_id hk' hk hid] at hne
  exact absurd rfl hne

/-- Marking keys is legal when each of them is in the new state already or may go there. -/
theorem legalChange_markKeys {ids : List String} {lc : KeyLifeCycleState} {st : KeyProcessingStatus} {now : Int}
    (h : ∀ k ∈ db.keys.rows, k.id ∈ ids →
      lc = k.lifeCycleState ∨ KeyLifecycle.validateTransition k.lifeCycleState lc = .ok ()) :
    LegalChange db (db.markKeys ids lc st now) := by
  intro k hk k' hk' hid hne
  obtain ⟨k₀, hk₀, rfl⟩ := DB.mem_markKeys.1 hk'
  have hsame : k₀ = k := DB.key_eq_of_id hk₀ hk (by rw [← hid, DB.markKey_id])
  subst hsame
  by_cases hin : k₀.id ∈ ids
  · rw [DB.markKey_of_mem hin] at hne ⊢
    exact (h k₀ hk hin).resolve_left hne
  · rw [DB.markKey_of_notMem hin] at hne
    exact absurd rfl hne

theorem legalChange_markKey {k : Key} (hk : k ∈ db.keys.rows) {st : KeyProcessingStatus} {now : Int} :
    LegalChange db (db.markKeys [k.id] k.lifeCycleState st now) := by
  refine legalChange_markKeys fun k' hk' hid => .inl ?_
  rw [DB.key_eq_of_id hk' hk (List.mem_singleton.1 hid)]

/-- A new key changes no other key. -/
theorem legalChange_inserted {key row : Key} (h : DB.KeyInserted db key row db') : LegalChange db db' := by
  intro k hk k' hk' hid hne
  rcases h.mem.1 hk' with hk' | rfl
  · rw [DB.key_eq_of_id hk' hk hid] at hne
    exact absurd rfl hne
  · exact absurd hid.symm (h.fresh k hk)

/-! ## What a step changes -/

/-- The filters of an action select keys that are there already or may go there. -/
theorem keyFilters_legal (action : ActionType) : ∀ f ∈ keyFilters action, ∀ lc ∈ f.lifeCycleState,
    action.toState = lc ∨ KeyLifecycle.validateTransition lc action.toState = .ok () := by
  intro f hf lc hlc
  rw [KeyLifecycle.validateTransition_ok]
  revert f lc
  cases action <;> decide

theorem Selected.legal {action : ActionType} {req : KeyRequest} {kt : KeyTree}
    (h : Selected db (actionRequest action req) kt) {k : Key} (hk : k ∈ db.keys.rows)
    (hid : k.id ∈ idsOf action.handlerConfig kt) :
    action.toState = k.lifeCycleState ∨ KeyLifecycle.validateTransition k.lifeCycleState action.toState = .ok () := by
  obtain ⟨layer, hl, k₀, hk₀, hid⟩ := mem_idsOf.1 hid
  have hmem := (mem_toMove.1 hk₀).1
  rw [← DB.key_eq_of_id (h.stored layer hl k₀ hmem) hk hid]
  obtain ⟨f, hf, hlc, -⟩ := h.takes layer hl k₀ hmem
  exact keyFilters_legal action f hf _ hlc

theorem AnnounceKeyEffect.legal {req : AnnounceKeyRequest} {r : Except Err Key} {gs : List JobGroup}
    (h : AnnounceKeyEffect R e req w (r, gs, w')) (hr : ¬ Reannounces R w e (.announceKey req)) :
    LegalChange w.db w'.db := by
  cases h with
  | refused => exact legalChange_of_keys rfl
  | accepted _ _ _ hu =>
    cases hu with
    | inserted hi => exact legalChange_inserted hi
    | @adopted k hk hsame =>
      have hlc : k.lifeCycleState = .preActivation := by
        by_contra hlc
        exact hr ⟨_, rfl, k, hk, hsame, hlc⟩
      have hnew : (announcedKey R e req).lifeCycleState = k.lifeCycleState := hlc.symm
      rw [hnew]
      exact legalChange_markKey hk

theorem ActionEffect.legal {action : ActionType} {req : KeyRequest} {r : Except Err Unit} {gs : List JobGroup}
    (h : ActionEffect e action req w (r, gs, w')) : LegalChange w.db w'.db := by
  cases h with
  | refused => exact legalChange_of_keys rfl
  | accepted _ hsel _ => exact legalChange_markKeys fun k hk hid => hsel.legal hk hid

theorem AdminCall.legal (call : AdminCall) (hr : ¬ Reannounces R w e call) :
    LegalChange w.db (call.run R e w).2.db := by
  cases call with
  | createTenant name labels => exact legalChange_of_keys createTenant_effect.keys
  | announceKey req => exact AnnounceKeyEffect.legal announceKey_effect hr
  | keyAction action req => exact ActionEffect.legal keyAction_effect
  | createProvider req => exact legalChange_of_keys (CreateProviderEffect.keys createProvider_effect)
  | rotateAuth t i a => exact legalChange_of_keys (congrArg DB.keys (RotateAuthEffect.db rotateAuth_effect))
  | rotateProviderKey t i key => exact legalChange_of_keys (RotateProviderKeyEffect.keys rotateProviderKey_effect)
  | removeProvider t i => exact legalChange_of_keys (congrArg DB.keys (RemoveProviderEffect.db removeProvider_effect))

/-- Every step but an announce of a key that has left pre-activation is legal. -/
theorem step_legal (s : RootState) (op : Env × Op) (h : Calls (fun w e call => ¬ Reannounces R w e call) s op) :
    LegalChange s.world.db (step R s op).world.db := by
  refine step_world_rel (P := fun _ w w' => LegalChange w.db w'.db) (fun _ _ => legalChange_of_keys rfl)
    (fun w e call hr => call.legal hr) ?_ ?_ ?_ s op h
  · intro w e key result w' heff
    cases heff with
    | started hk _ => exact legalChange_markKey (DB.getKeyByID_ok hk).1
    | _ => exact legalChange_of_keys rfl
  · intro w e key response w' heff
    cases heff with
    | failed hk => exact legalChange_markKey (DB.getKeyByID_ok hk.found).1
    | completed hk _ _ => exact legalChange_markKey (DB.getKeyByID_ok hk.found).1
    | _ => exact legalChange_of_keys rfl
  · intro w e action kid response w' heff
    rcases heff.keys with ⟨hkeys, -⟩ | ⟨key, st, hw, hkeys, -⟩
    · exact legalChange_of_keys hkeys
    · have hmark : LegalChange w.db (w.db.markKeys [key.id] key.lifeCycleState st e.now) :=
        legalChange_markKey (DB.getKeyByID_ok hw.found).1
      rw [hw.state] at hmark
      unfold LegalChange at hmark ⊢
      rwa [hkeys]

end

/-! ## Runs -/

/-- **Every lifecycle change is legal.** In every run without an announce of a key that has left pre-activation, each
step changes lifecycle states only as the transition table permits. -/
theorem transitions_legal (R : RootProcess) (ops : List (Env × Op)) (op : Env × Op)
    (h : Along (step R) (Calls fun w e call => ¬ Reannounces R w e call) .init (ops ++ [op])) :
    LegalChange (run (step R) .init ops).world.db (run (step R) .init (ops ++ [op])).world.db := by
  rw [along_append] at h
  rw [run_append]
  exact step_legal _ op h.2.1

theorem demoActivated_legal :
    LegalChange (run (step demo) .init demoActivated).world.db
      (run (step demo) .init (demoActivated ++ [demoAction .suspend 1 false])).world.db :=
  transitions_legal demo demoActivated _ (by decide +kernel)

/-- Announcing the active root key again puts it back to pre-activation. -/
theorem reannounce_resets :
    ¬ LegalChange (run (step demo) .init demoActivated).world.db
      (run (step demo) .init (demoActivated ++ [demoAnnounce 2 "rk" "" ""])).world.db := by
  intro h
  obtain ⟨k, hk, hlc, k', hk', hid, hlc'⟩ : ∃ k ∈ (run (step demo) .init demoActivated).world.db.keys.rows,
      k.lifeCycleState = .active ∧
        ∃ k' ∈ (run (step demo) .init (demoActivated ++ [demoAnnounce 2 "rk" "" ""])).world.db.keys.rows,
          k'.id = k.id ∧ k'.lifeCycleState = .preActivation := by decide +kernel
  refine KeyLifecycle.validateTransition_preActivation _ (hlc' ▸ h k hk k' hk' hid ?_)
  rw [hlc, hlc']
  decide

/-! ## Keys that are out of use -/

/-- The states from which a key never becomes active. -/
def Retired (lc : KeyLifeCycleState) : Prop := lc = .deactivated ∨ lc = .compromised ∨ lc = .destroyed

theorem Retired.of_transition {a b : KeyLifeCycleState} (ha : Retired a)
    (h : KeyLifecycle.validateTransition a b = .ok ()) : Retired b := by
  rw [KeyLifecycle.validateTransition_ok] at h
  rcases ha with rfl | rfl | rfl <;> cases b <;> revert h <;> simp [KeyLifecycle.transitions, Retired]

/-- **Out of use for good.** A key that is deactivated, compromised or destroyed at some time of such a run stays so. -/
theorem retired_stays_retired (R : RootProcess) {ops₁ ops₂ : List (Env × Op)}
    (h : Along (step R) (Calls fun w e call => ¬ Reannounces R w e call) .init (ops₁ ++ ops₂)) {k : Key}
    (hk : k ∈ (run (step R) .init ops₁).world.db.keys.rows) (hlc : Retired k.lifeCycleState) :
    ∃ k' ∈ (run (step R) .init (ops₁ ++ ops₂)).world.db.keys.rows, k'.id = k.id ∧ Retired k'.lifeCycleState := by
  rw [along_append] at h
  rw [run_append]
  refine run_inv (I := fun s => ∃ k' ∈ s.world.db.keys.rows, k'.id = k.id ∧ Retired k'.lifeCycleState) ?_
    ⟨k, hk, rfl, hlc⟩ h.2
  rintro s op ⟨k₁, hk₁, hid₁, hlc₁⟩ hc
  obtain ⟨k₂, hk₂, hi⟩ := step_keeps (R := R) op ⟨k₁, hk₁, rfl⟩
  have hid₂ : k₂.id = k₁.id := congrArg KeyIdent.id hi
  refine ⟨k₂, hk₂, hid₂.trans hid₁, ?_⟩
  by_cases hsame : k₂.lifeCycleState = k₁.lifeCycleState
  · rwa [hsame]
  · exact hlc₁.of_transition (step_legal s op hc k₁ hk₁ k₂ hk₂ hid₂ hsame)

end Krypton
