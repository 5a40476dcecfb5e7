import Krypton.Orchestrator.Outcomes

/-!
# What announce jobs do

Every way the confirmation of an announce job and the delivery of its task can end.

* `confirmAnnounce_effect` — a pending key becomes in progress, whatever its lifecycle state (`ConfirmEffect`);
* `handleAnnounce_effect` — a key in progress becomes completed or failed (`AnnounceEffect`).
-/

namespace Krypton

open Lib

section
variable {R : RootProcess} {e : Env} {s s' : Session} {w : World} {key : Key}

/-! ## Confirmation -/

/-- How the confirmation of an announce of `key` ends. -/
inductive ConfirmEffect (e : Env) (key : Key) (w : World) : ConfirmResult → World → Prop where
  | retried : ConfirmEffect e key w .continue w
  | unknown {reason : String} (h : w.db.getKeyByID key.id key.tenantID = .error (.of .keyNotFound)) :
      ConfirmEffect e key w (.cancel reason) w
  /-- The key is not pending. -/
  | settled {k : Key} (hk : w.db.getKeyByID key.id key.tenantID = .ok k) (hst : k.status ≠ .pending) :
      ConfirmEffect e key w .complete w
  | started {k : Key} (hk : w.db.getKeyByID key.id key.tenantID = .ok k) (hst : k.status = .pending) :
      ConfirmEffect e key w .complete { w with db := w.db.markKeys [k.id] k.lifeCycleState .inProgress e.now }

theorem ends_confirmSteps : (confirmSteps e key).Ends s fun r s' =>
    (∃ k, s.db.getKeyByID key.id key.tenantID = .ok k ∧ r = .ok () ∧
      ((k.status ≠ .pending ∧ s' = s) ∨ (k.status = .pending ∧ s' = s.mark e k .inProgress))) ∨
    ∃ err, r = .error err ∧ s' = s ∧
      (err = errDatabase ∨ s.db.getKeyByID key.id key.tenantID = .error err) := by
  unfold confirmSteps
  refine Tx.Ends.bind ends_query ?_ ?_
  · rintro k s₁ ⟨rfl, hk | hk⟩
    · have hfound : s₁.db.getKeyByID key.id key.tenantID = .ok k := hk.symm
      obtain ⟨hmem, hid, ht⟩ := DB.getKeyByID_ok hfound
      split
      · rename_i hst
        refine Tx.Ends.attempt_bind ends_exec ?_
        have hupd : s₁.db.updateKeyStates ⟨key.id, key.tenantID, k.lifeCycleState, .inProgress, [k.lifeCycleState],
            [.pending], e.now⟩ = .ok (s₁.db.markKeys [k.id] k.lifeCycleState .inProgress e.now) :=
          DB.updateKeyStates_of_parse hmem hid ht (.inr (List.mem_singleton_self _))
            (.inr (by rw [hst]; exact List.mem_singleton_self _))
        rintro r s₂ (⟨db, rfl, hu, rfl⟩ | ⟨err, rfl, rfl, hu⟩)
        · rw [hupd] at hu
          cases hu
          exact .inl ⟨k, hfound, rfl, .inr ⟨hst, rfl⟩⟩
        · rcases hu with hu | rfl
          · rw [hupd] at hu
            cases hu
          · exact .inr ⟨_, rfl, rfl, .inl rfl⟩
      · rename_i hst
        exact .inl ⟨k, hfound, rfl, .inl ⟨hst, rfl⟩⟩
    · cases hk
  · rintro err s₁ ⟨rfl, hk | ⟨⟨⟩⟩⟩
    · exact .inr ⟨err, rfl, rfl, .inr hk.symm⟩
    · exact .inr ⟨_, rfl, rfl, .inl rfl⟩

/-- **The confirmation of an announce.** -/
theorem confirmAnnounce_effect : ConfirmEffect e key w (confirmAnnounce e key w).1 (confirmAnnounce e key w).2 := by
  unfold confirmAnnounce
  rcases transaction_cases e id (ends_confirmSteps (e := e) (s := w.session)) with
    ⟨_, s, hq, heq⟩ | ⟨er, s, hq, heq⟩ | ⟨_, s, er, hq, hc, heq⟩ | ⟨er, hc, heq⟩ <;> rw [heq]
  · obtain ⟨k, hk, -, ⟨hst, rfl⟩ | ⟨hst, rfl⟩⟩ | ⟨_, h, -⟩ := hq
    · exact .settled hk hst
    · exact .started hk hst
    · cases h
  · obtain ⟨_, -, h, -⟩ | ⟨_, ⟨⟩, rfl, rfl | hk⟩ := hq
    · cases h
    · exact .retried
    · rcases DB.getKeyByID_error hk with rfl | rfl
      · exact .retried
      · exact .unknown hk
  · have hw : (⟨w.db, s.vault, s.specs⟩ : World) = w := by
      obtain ⟨k, -, -, ⟨-, rfl⟩ | ⟨-, rfl⟩⟩ | ⟨_, h, -⟩ := hq
      · rfl
      · rfl
      · cases h
    simp only [id, Err.is_of_chain_nil hc, Bool.false_eq_true, if_false, hw]
    exact .retried
  · simp only [id, Err.is_of_chain_nil hc, Bool.false_eq_true, if_false]
    exact .retried

/-! ## The task -/

/-- The key of an announce task is waiting for it. -/
structure Announcing (db : DB) (key k : Key) : Prop where
  found : db.getKeyByID key.id key.tenantID = .ok k
  state : k.lifeCycleState = .preActivation
  status : k.status = .inProgress

/-- The key is the root's own, or its agent took the call. -/
def Took (R : RootProcess) (e : Env) (key : Key) (site : RpcSite) : Prop :=
  key.managedBy = R.cfg.name ∨
    ∃ names, R.registry = some names ∧ names.contains key.managedBy = true ∧ e.rpc site = .ok

/-- How a delivery of an announce task ends. -/
inductive AnnounceEffect (R : RootProcess) (e : Env) (key : Key) (w : World) : Response → World → Prop where
  | retried : AnnounceEffect R e key w (.continueAndWaitFor 2) w
  /-- The key is not waiting for this task. -/
  | rejected {msg : String} (h : ∀ k, ¬ Announcing w.db key k) : AnnounceEffect R e key w (.fail msg) w
  | failed {k : Key} {msg : String} (hk : Announcing w.db key k) : AnnounceEffect R e key w (.fail msg)
      { w with db := w.db.markKeys [k.id] k.lifeCycleState .failed e.now }
  | completed {k : Key} (hk : Announcing w.db key k) (ht : Took R e key .upsertTenant) (hu : Took R e key .upsertKey) :
      AnnounceEffect R e key w .complete { w with db := w.db.markKeys [k.id] k.lifeCycleState .completed e.now }

/-- An error of the transaction that is not tried again means that the key is not waiting for the task. -/
def Final (db : DB) (key : Key) (err : Err) : Prop := isTerminalTxErr err = true → ∀ k, ¬ Announcing db key k

theorem final_of_chain_nil {db : DB} {err : Err} (h : err.chain = []) : Final db key err := by
  simp [Final, isTerminalTxErr, Err.is_of_chain_nil h]

/-- A step of an announce that only reads: it ends in a state of the announce, or in an error that is tried again. -/
def StateEnds (s : Session) (P : AnnounceState → Prop) (r : Except Err AnnounceState) (s' : Session) : Prop :=
  s' = s ∧ ((∃ st, r = .ok st ∧ P st) ∨ ∃ err, r = .error err ∧ err.chain = [])

theorem getTenant_error {db : DB} {id : String} {err : Err} (h : db.getTenant id = .error err) :
    err = .of .tenantNotFound ∨ err.chain = [] := by
  unfold DB.getTenant at h
  split at h
  · cases h; exact .inr rfl
  · split at h
    · cases h
    · cases h; exact .inl rfl

theorem ends_announceTenant {site : Site} {st : AnnounceState} :
    (announceTenant e site key st).Ends s (StateEnds s fun st' => st' = st ∨ st'.state = some .failed) := by
  unfold announceTenant
  refine Tx.Ends.attempt_bind ends_query ?_
  rintro r s₁ ⟨rfl, hr⟩
  split
  · exact ⟨rfl, .inl ⟨st, rfl, .inl rfl⟩⟩
  · rename_i err
    split
    · exact ⟨rfl, .inl ⟨_, rfl, .inr rfl⟩⟩
    · rename_i hnf
      refine ⟨rfl, .inr ⟨err, rfl, ?_⟩⟩
      rcases hr with hr | ⟨⟨⟩⟩
      · unfold Validator.validateTenant at hr
        cases ht : s₁.db.getTenant key.tenantID with
        | ok t => rw [ht] at hr; cases hr
        | error er =>
          rw [ht] at hr
          cases hr
          rcases getTenant_error ht with rfl | h
          · simp at hnf
          · exact h
      · rfl

theorem ends_announceUpsert {site : RpcSite} {st success : AnnounceState} :
    (announceUpsert R e key site st success).Ends s (StateEnds s fun st' =>
      (st' = st ∧ st.state.isSome = true) ∨ (st' = success ∧ st.state = none ∧ Took R e key site) ∨
        st'.state = some .failed) := by
  unfold announceUpsert
  split
  · rename_i hst
    exact ⟨rfl, .inl ⟨st, rfl, .inl ⟨rfl, hst⟩⟩⟩
  · rename_i hst
    have hnone : st.state = none := by simpa using hst
    split
    · rename_i hmb
      exact ⟨rfl, .inl ⟨success, rfl, .inr (.inl ⟨rfl, hnone, .inl hmb⟩)⟩⟩
    · split
      · exact ⟨rfl, .inr ⟨_, rfl, rfl⟩⟩
      · rename_i names hn
        split
        · rename_i hcon
          unfold announceAnswer
          split
          · rename_i hok
            exact ⟨rfl, .inl ⟨success, rfl, .inr (.inl ⟨rfl, hnone, .inr ⟨names, hn, hcon, hok⟩⟩)⟩⟩
          · split
            · exact ⟨rfl, .inl ⟨_, rfl, .inr (.inr rfl)⟩⟩
            · exact ⟨rfl, .inr ⟨_, rfl, rfl⟩⟩
        · exact ⟨rfl, .inl ⟨_, rfl, .inr (.inr rfl)⟩⟩

/-- An error of the transition check that is not tried again means that the key is not waiting. -/
theorem final_of_validateTransition {db : DB} {err : Err}
    (h : Validator.validateTransition key.tenantID key.id .preActivation db = .error err) : Final db key err := by
  intro _ k hk
  unfold Validator.validateTransition at h
  rw [hk.found] at h
  simp only [bind, Except.bind, hk.state, if_true] at h
  cases h

/-- What the transaction of an announce task does. -/
inductive AnnounceTxEnds (R : RootProcess) (e : Env) (key : Key) (s : Session) :
    Except Err AnnounceState → Session → Prop where
  | stopped {err : Err} (h : Final s.db key err) : AnnounceTxEnds R e key s (.error err) s
  | failed {k : Key} {st : AnnounceState} (hk : Announcing s.db key k) (hst : st.state = some .failed) :
      AnnounceTxEnds R e key s (.ok st) (s.mark e k .failed)
  | completed {k : Key} {st : AnnounceState} (hk : Announcing s.db key k) (hst : st.state = some .completed)
      (ht : Took R e key .upsertTenant) (hu : Took R e key .upsertKey) :
      AnnounceTxEnds R e key s (.ok st) (s.mark e k .completed)

/-- Recording the outcome: the key was waiting and is marked, or nothing happens. -/
theorem ends_record {st : KeyProcessingStatus} :
    (updateKeyState e .updateKeyStates key.tenantID key.id
      ⟨[.preActivation], .preActivation, [.inProgress], st⟩).Ends s fun r s' =>
      (∃ k, Announcing s.db key k ∧ r = .ok () ∧ s' = s.mark e k st) ∨
        ∃ err, r = .error err ∧ s' = s ∧ Final s.db key err := by
  refine ends_updateKeyState.mono ?_
  rintro r s' (⟨k, hmem, hid, ht, ⟨hs, hst⟩, rfl, rfl⟩ | ⟨err, rfl, rfl, herr⟩)
  · have hlc : k.lifeCycleState = .preActivation := by simpa using hs
    refine .inl ⟨k, ⟨DB.getKeyByID_of_parse hmem hid ht, hlc, by simpa using hst⟩, rfl, ?_⟩
    rw [Session.mark, hlc]
  · refine .inr ⟨_, rfl, rfl, fun hterm k hk => ?_⟩
    obtain ⟨hmem, hid, ht⟩ := DB.getKeyByID_ok hk.found
    rcases herr with rfl | herr
    · simp [isTerminalTxErr, errDatabase] at hterm
    · rw [DB.updateKeyStates_of_parse hmem hid ht (by simp [hk.state]) (by simp [hk.status])] at herr
      cases herr

/-- After the tenant step the announce has failed, or it is undecided and the agent knows the tenant. -/
theorem ends_announceUpsertTenant {st₀ : AnnounceState} (hst₀ : st₀.state = none ∨ st₀.state = some .failed) :
    (announceUpsertTenant R e key st₀).Ends s (StateEnds s fun st =>
      st.state = some .failed ∨ (st.state = none ∧ Took R e key .upsertTenant)) := by
  unfold announceUpsertTenant
  split
  · rename_i hsome
    rcases hst₀ with hn | hf
    · rw [hn] at hsome; cases hsome
    · exact ⟨rfl, .inl ⟨st₀, rfl, .inl hf⟩⟩
  · rename_i hsome
    refine Tx.Ends.bind ends_announceTenant ?_ ?_
    · rintro st₁ s₂ ⟨rfl, ⟨_, ⟨⟩, hst₁⟩ | ⟨_, h, -⟩⟩
      · refine ends_announceUpsert.mono ?_
        rintro r s₃ ⟨rfl, ⟨st, rfl, ⟨rfl, hsm⟩ | ⟨rfl, hn, htook⟩ | hf⟩ | herr⟩
        · rcases hst₁ with rfl | hf
          · exact absurd hsm hsome
          · exact ⟨rfl, .inl ⟨_, rfl, .inl hf⟩⟩
        · exact ⟨rfl, .inl ⟨_, rfl, .inr ⟨hn, htook⟩⟩⟩
        · exact ⟨rfl, .inl ⟨st, rfl, .inl hf⟩⟩
        · exact ⟨rfl, .inr herr⟩
      · cases h
    · rintro err s₂ ⟨rfl, ⟨_, h, -⟩ | ⟨_, ⟨⟩, hc⟩⟩
      · cases h
      · exact ⟨rfl, .inr ⟨_, rfl, hc⟩⟩

theorem ends_announceTaskSteps : (announceTaskSteps R e key).Ends s (AnnounceTxEnds R e key s) := by
  unfold announceTaskSteps
  refine Tx.Ends.bind ends_announceTenant ?_ ?_
  · rintro st₀ s₁ ⟨rfl, ⟨_, ⟨⟩, hst₀⟩ | ⟨_, h, -⟩⟩
    · have hst₀' : st₀.state = none ∨ st₀.state = some .failed := hst₀.imp_left fun h => by rw [h]
      refine Tx.Ends.bind (ends_announceUpsertTenant hst₀') ?_ ?_
      · rintro st₁ s₂ ⟨rfl, ⟨_, ⟨⟩, hst₁⟩ | ⟨_, h, -⟩⟩
        · refine Tx.Ends.bind ends_query ?_ ?_
          · rintro _ s₃ ⟨rfl, -⟩
            refine Tx.Ends.bind ends_announceUpsert ?_ ?_
            · rintro st₂ s₄ ⟨rfl, ⟨_, ⟨⟩, hst₂⟩ | ⟨_, h, -⟩⟩
              · -- the outcome is decided now
                have hdec : st₂.state = some .failed ∨ (st₂.state = some .completed ∧ Took R e key .upsertTenant ∧
                    Took R e key .upsertKey) := by
                  rcases hst₂ with ⟨rfl, hsm⟩ | ⟨rfl, hn, hu⟩ | hf
                  · rcases hst₁ with hf | ⟨hn, -⟩
                    · exact .inl hf
                    · rw [hn] at hsm; cases hsm
                  · rcases hst₁ with hf | ⟨-, ht⟩
                    · rw [hf] at hn; cases hn
                    · exact .inr ⟨rfl, ht, hu⟩
                  · exact .inl hf
                have hsome : st₂.state.isSome = true := by
                  rcases hdec with h | ⟨h, -⟩ <;> rw [h] <;> rfl
                simp only [hsome, if_true]
                refine Tx.Ends.bind ends_record ?_ ?_
                · rintro _ s₅ (⟨k, hk, -, rfl⟩ | ⟨_, h, -⟩)
                  · rcases hdec with hf | ⟨hcmp, ht, hu⟩
                    · rw [hf]; exact .failed hk hf
                    · rw [hcmp]; exact .completed hk hcmp ht hu
                  · cases h
                · rintro err s₅ (⟨_, _, h, -⟩ | ⟨_, ⟨⟩, rfl, hfin⟩)
                  · cases h
                  · exact .stopped hfin
              · cases h
            · rintro err s₄ ⟨rfl, ⟨_, h, -⟩ | ⟨_, ⟨⟩, hc⟩⟩
              · cases h
              · exact .stopped (final_of_chain_nil hc)
          · rintro err s₃ ⟨rfl, hr | ⟨⟨⟩⟩⟩
            · exact .stopped (final_of_validateTransition hr.symm)
            · exact .stopped (final_of_chain_nil rfl)
        · cases h
      · rintro err s₂ ⟨rfl, ⟨_, h, -⟩ | ⟨_, ⟨⟩, hc⟩⟩
        · cases h
        · exact .stopped (final_of_chain_nil hc)
    · cases h
  · rintro err s₁ ⟨rfl, ⟨_, h, -⟩ | ⟨_, ⟨⟩, hc⟩⟩
    · cases h
    · exact .stopped (final_of_chain_nil hc)

/-- **A delivery of an announce task.** -/
theorem handleAnnounce_effect : AnnounceEffect R e key w (handleAnnounce R e key w).1 (handleAnnounce R e key w).2 := by
  unfold handleAnnounce
  rcases transaction_cases e id (ends_announceTaskSteps (R := R) (e := e) (s := w.session)) with
    ⟨st, s, hq, heq⟩ | ⟨er, s, hq, heq⟩ | ⟨_, s, er, hq, hc, heq⟩ | ⟨er, hc, heq⟩ <;> rw [heq]
  · cases hq with
    | failed hk hst => simp only [hst, if_true]; exact .failed hk
    | completed hk hst ht hu => simp only [hst]; exact .completed hk ht hu
  · cases hq with
    | stopped hfin =>
      dsimp only
      split
      · rename_i hterm
        exact .rejected (hfin hterm)
      · exact .retried
  · have hw : (⟨w.db, s.vault, s.specs⟩ : World) = w := by cases hq <;> rfl
    have hterm : isTerminalTxErr (id er) = false := by simp [isTerminalTxErr, Err.is_of_chain_nil hc]
    simp only [hterm, Bool.false_eq_true, if_false, hw]
    exact .retried
  · have hterm : isTerminalTxErr (id er) = false := by simp [isTerminalTxErr, Err.is_of_chain_nil hc]
    simp only [hterm, Bool.false_eq_true, if_false]
    exact .retried

theorem AnnounceEffect.tenants {key : Key} {response : Response} (h : AnnounceEffect R e key w response w') :
    w'.db.tenants = w.db.tenants := by
  cases h <;> rfl

theorem ConfirmEffect.tenants {key : Key} {result : ConfirmResult} (h : ConfirmEffect e key w result w') :
    w'.db.tenants = w.db.tenants := by
  cases h <;> rfl

end

end Krypton
