import Krypton.Root

/-!
# Keys that wait

A key is pending or in progress because some job is to move it on. `Covered` says that there is such a job: an announce
that is not confirmed yet or owed work for the state of a pending key, an owed announce for a key in progress. Every
step keeps it, except one that gives up a group and leaves a job for the key unrun or canceled; an admin call that marks
the key restores it. A task that ends, well or not, settles its key. The one exception is left out: the confirmation of
an announce does not look at the lifecycle state, so a late one puts a key in progress that waits for its activation,
and the announce task then fails without settling it (`ConfirmsInTime`).

* `underway_step` — a key in progress is not activated yet, so its announce task can settle it;
* `settled_or_dropped` — a key for which nothing is outstanding is completed or failed, unless a job for it was dropped
  after the last admin call that marked it.
-/

namespace Krypton

open Lib

/-! ## Jobs and tasks of a key -/

/-- `kid` is a spelling of the identifiers `K`. -/
def KeyIdentifier.names (K kid : KeyIdentifier) : Bool :=
  uuidIn kid.id == some K.id && uuidIn kid.tenantID == some K.tenantID

def Job.refersTo (K : KeyIdentifier) (job : Job) : Bool := job.identifiers.any K.names

/-- A job that announces the key. -/
def Job.Announces (K : KeyIdentifier) (job : Job) : Prop := ∃ key, job = .announce key ∧ K.names key.identifier = true

/-- A job that moves the key to `lc`. -/
def Job.Moves (K : KeyIdentifier) (lc : KeyLifeCycleState) (job : Job) : Prop :=
  ∃ action ids, job = .layer action ids ∧ action.toState = lc ∧ ∃ kid ∈ ids, K.names kid = true

def RootTask.Announces (K : KeyIdentifier) (task : RootTask) : Prop :=
  ∃ key, task = .announce key ∧ K.names key.identifier = true

def RootTask.Moves (K : KeyIdentifier) (lc : KeyLifeCycleState) (task : RootTask) : Prop :=
  ∃ a kid, task = .action a kid ∧ a.toState = lc ∧ K.names kid = true

/-- A job that has not ended, in a group that has not been given up, refers to the key. -/
def outstanding (K : KeyIdentifier) (groups : List (Group Job RootTask)) : Bool :=
  groups.any fun G => !G.aborted && G.any fun j => !j.ended && j.data.refersTo K

theorem Job.Announces.refersTo {K : KeyIdentifier} {job : Job} (h : job.Announces K) : job.refersTo K = true := by
  obtain ⟨key, rfl, hn⟩ := h
  simpa [Job.refersTo, Job.identifiers] using hn

theorem Job.Moves.refersTo {K : KeyIdentifier} {lc : KeyLifeCycleState} {job : Job} (h : job.Moves K lc) :
    job.refersTo K = true := by
  obtain ⟨_, ids, rfl, -, kid, hkid, hn⟩ := h
  exact List.any_eq_true.2 ⟨kid, hkid, hn⟩

theorem names_iff {K kid : KeyIdentifier} :
    K.names kid = true ↔ uuidIn kid.id = some K.id ∧ uuidIn kid.tenantID = some K.tenantID := by
  simp [KeyIdentifier.names]

section
variable {R : RootProcess} {e : Env} {w w' : World} {db : DB} {k : Key} {K : KeyIdentifier}

/-- The key a lookup finds is the stored key with the identifiers it names. -/
theorem eq_of_names {id tenantID : String} {key : Key} (hkey : db.getKeyByID id tenantID = .ok key)
    (hk : k ∈ db.keys.rows) (hn : k.identifier.names ⟨id, tenantID⟩ = true) : k = key := by
  obtain ⟨hmem, hid, -⟩ := DB.getKeyByID_ok hkey
  exact DB.key_eq_of_id hk hmem (Option.some.inj ((names_iff.1 hn).1.symm.trans hid))

/-! ## Rows after a step -/

/-- A confirmation changes only the status of the pending key it names, to in progress. -/
theorem ConfirmEffect.rows {key : Key} {result : ConfirmResult} (h : ConfirmEffect e key w result w')
    (hk : k ∈ w'.db.keys.rows) :
    k ∈ w.db.keys.rows ∨ k.status = .inProgress ∧ k.identifier.names key.identifier = true ∧
      ∃ k₀ ∈ w.db.keys.rows, k₀.identifier = k.identifier ∧ k₀.status = .pending ∧
        k₀.lifeCycleState = k.lifeCycleState := by
  cases h with
  | retried => exact .inl hk
  | unknown _ => exact .inl hk
  | settled _ _ => exact .inl hk
  | started hfound hpending =>
    obtain ⟨hmem, hid, ht⟩ := DB.getKeyByID_ok hfound
    rcases DB.mem_markKeys_cases hk with ⟨hk, -⟩ | ⟨hin, hlc, hst, k₀, hk₀, hident⟩
    · exact .inl hk
    · have hkid : k₀ = _ := DB.key_eq_of_id hk₀ hmem
        ((congrArg KeyIdent.id hident).trans (List.mem_singleton.1 hin))
      subst hkid
      have hsame : k₀.identifier = k.identifier :=
        congrArg₂ KeyIdentifier.mk (congrArg KeyIdent.id hident) (congrArg KeyIdent.tenantID hident)
      refine .inr ⟨hst, ?_, k₀, hk₀, hsame, hpending, hlc.symm⟩
      rw [names_iff, ← hsame]
      exact ⟨hid, ht⟩

/-- After a confirmation that is not tried again the key is not pending. -/
theorem ConfirmEffect.not_pending {key : Key} (h : ConfirmEffect e key w .complete w') (hk : k ∈ w'.db.keys.rows)
    (hn : k.identifier.names key.identifier = true) : k.status ≠ .pending := by
  cases h with
  | settled hfound hst => rw [eq_of_names hfound hk hn]; exact hst
  | started hfound _ =>
    rcases DB.mem_markKeys_cases hk with ⟨hk, hid⟩ | ⟨-, -, hst, -⟩
    · exact absurd (List.mem_singleton.2 (congrArg Key.id (eq_of_names hfound hk hn))) hid
    · rw [hst]; decide

/-- A delivery of an announce task leaves keys alone or settles them. -/
theorem AnnounceEffect.rows {key : Key} {response : Response} (h : AnnounceEffect R e key w response w')
    (hk : k ∈ w'.db.keys.rows) : k ∈ w.db.keys.rows ∨ k.status = .completed ∨ k.status = .failed := by
  cases h with
  | retried => exact .inl hk
  | rejected _ => exact .inl hk
  | failed _ => exact (DB.mem_markKeys_cases hk).imp And.left fun h => .inr h.2.2.1
  | completed _ _ _ => exact (DB.mem_markKeys_cases hk).imp And.left fun h => .inl h.2.2.1

/-- After an announce task that has ended its key is no longer in progress, if it was not activated before. -/
theorem AnnounceEffect.not_inProgress {key : Key} {response : Response} (h : AnnounceEffect R e key w response w')
    (hend : ∀ n, response ≠ .continueAndWaitFor n) (hk : k ∈ w'.db.keys.rows)
    (hn : k.identifier.names key.identifier = true)
    (hpre : k ∈ w.db.keys.rows → k.status = .inProgress → k.lifeCycleState = .preActivation) :
    k.status ≠ .inProgress := by
  cases h with
  | retried => exact absurd rfl (hend _)
  | rejected hno =>
    obtain ⟨hid, ht⟩ := names_iff.1 hn
    exact fun hst => hno k ⟨DB.getKeyByID_of_parse hk hid ht, hpre hk hst, hst⟩
  | failed ha =>
    rcases DB.mem_markKeys_cases hk with ⟨hk, hid⟩ | ⟨-, -, hst, -⟩
    · exact absurd (List.mem_singleton.2 (congrArg Key.id (eq_of_names ha.found hk hn))) hid
    · rw [hst]; decide
  | completed ha _ _ =>
    rcases DB.mem_markKeys_cases hk with ⟨hk, hid⟩ | ⟨-, -, hst, -⟩
    · exact absurd (List.mem_singleton.2 (congrArg Key.id (eq_of_names ha.found hk hn))) hid
    · rw [hst]; decide

/-- A delivery of a task leaves keys alone or settles them. -/
theorem TaskEffect.rows {toState : KeyLifeCycleState} {kid : KeyIdentifier} {response : Response}
    (h : TaskEffect R e toState kid w response w') (hk : k ∈ w'.db.keys.rows) :
    k ∈ w.db.keys.rows ∨ k.status = .completed ∨ k.status = .failed := by
  rcases h.keys with ⟨hkeys, -⟩ | ⟨_, st, -, hkeys, hst⟩ <;> rw [hkeys] at hk
  · exact .inl hk
  · rcases DB.mem_markKeys_cases hk with ⟨hk, -⟩ | ⟨-, -, hst', -⟩
    · exact .inl hk
    · rw [hst']
      exact .inr (hst.elim (fun h => .inr h.1) fun h => .inl h.1)

/-- After a task that has ended its key does not wait for the action any more, when its tenant exists. -/
theorem TaskEffect.not_waiting {toState : KeyLifeCycleState} {kid : KeyIdentifier} {response : Response} {t : Tenant}
    (h : TaskEffect R e toState kid w response w') (hend : ∀ n, response ≠ .continueAndWaitFor n)
    (hk : k ∈ w'.db.keys.rows) (hn : k.identifier.names kid = true) (ht : w.db.getTenant kid.tenantID = .ok t) :
    ¬ (k.lifeCycleState = toState ∧ k.status = .pending) := by
  rcases h.keys with ⟨hkeys, hskip, hmissing⟩ | ⟨key, st, hw, hkeys, hst⟩ <;> rw [hkeys] at hk
  · cases response with
    | continueAndWaitFor n => exact absurd rfl (hend n)
    | complete =>
      obtain ⟨key, hfound, hnot⟩ := hskip rfl
      rw [eq_of_names hfound hk hn]
      exact hnot
    | fail msg =>
      -- the key and its tenant are stored, so neither is missing
      obtain ⟨hid, htid⟩ := names_iff.1 hn
      obtain ⟨err, herr⟩ := hmissing msg rfl k (DB.getKeyByID_of_parse hk hid htid)
      rw [ht] at herr
      cases herr
  · rcases DB.mem_markKeys_cases hk with ⟨hk, hid⟩ | ⟨-, -, hst', -⟩
    · exact absurd (List.mem_singleton.2 (congrArg Key.id (eq_of_names hw.found hk hn))) hid
    · rw [hst']
      rcases hst with ⟨rfl, -⟩ | ⟨rfl, -⟩ <;> exact fun h => by cases h.2

theorem Response.ends_of_event {response : Response} {n : Nat} {ev : JobEvent RootTask}
    (h : response.event n = some ev) : ∀ m, response ≠ .continueAndWaitFor m := by
  rintro m rfl
  cases h

/-! ## Rows after an admin call -/

/-- After a call that prepared `gs` the key is as before and no new job refers to it, or it is pending for a new job. -/
def Marked (k : Key) (db : DB) (gs : List JobGroup) : Prop :=
  (k ∈ db.keys.rows ∧ ∀ jobs ∈ gs, ∀ job ∈ jobs, job.refersTo k.identifier = false) ∨
    k.status = .pending ∧ ∃ jobs ∈ gs, ∃ job ∈ jobs,
      job.Announces k.identifier ∨ job.Moves k.identifier k.lifeCycleState

theorem marked_of_keys {db' : DB} (hkeys : db'.keys = db.keys) (hk : k ∈ db'.keys.rows) : Marked k db [] := by
  rw [hkeys] at hk
  exact .inl ⟨hk, nofun⟩

theorem identifier_eq {k₀ : Key} (h : k₀.ident = k.ident) : k₀.identifier = k.identifier :=
  congrArg₂ KeyIdentifier.mk (congrArg KeyIdent.id h) (congrArg KeyIdent.tenantID h)

theorem names_self (hk : k ∈ db.keys.rows) : k.identifier.names k.identifier = true :=
  names_iff.2 (DB.key_canonical hk)

/-- A job for one spelling of a key refers to no key with another identifier. -/
theorem announce_refersTo {key : Key} {id : String} (hid : uuidIn key.id = some id) (hne : k.id ≠ id) :
    (Job.announce key).refersTo k.identifier = false := by
  rw [Bool.eq_false_iff]
  intro h
  simp only [Job.refersTo, Job.identifiers, List.any_cons, List.any_nil, Bool.or_false, names_iff] at h
  exact hne (Option.some.inj (h.1.symm.trans hid))

theorem AnnounceKeyEffect.marked {req : AnnounceKeyRequest} {r : Except Err Key} {gs : List JobGroup}
    (h : AnnounceKeyEffect R e req w (r, gs, w')) (hk : k ∈ w'.db.keys.rows) : Marked k w.db gs := by
  cases h with
  | refused => exact .inl ⟨hk, nofun⟩
  | accepted _ _ _ hu =>
    cases hu with
    | inserted hi =>
      rename_i row
      rcases hi.mem.1 hk with hk | rfl
      · refine .inl ⟨hk, fun jobs hj job hjob => ?_⟩
        rw [List.mem_singleton.1 hj, List.mem_singleton] at hjob
        rw [hjob]
        exact announce_refersTo hi.id (hi.fresh k hk)
      · refine .inr ⟨by rw [hi.row_eq]; rfl, _, List.mem_singleton_self _, _, List.mem_singleton_self _, .inl ?_⟩
        exact ⟨_, rfl, names_iff.2 ⟨hi.id, hi.tenantID⟩⟩
    | adopted hk₀ hsame =>
      rename_i k₀
      have hcan := DB.key_canonical hk₀
      rcases DB.mem_markKeys_cases hk with ⟨hk, hid⟩ | ⟨hid, -, hst, k₁, hk₁, hident⟩
      · refine .inl ⟨hk, fun jobs hj job hjob => ?_⟩
        rw [List.mem_singleton.1 hj, List.mem_singleton] at hjob
        rw [hjob]
        exact announce_refersTo hcan.1 fun h => hid (List.mem_singleton.2 h)
      · refine .inr ⟨hst, _, List.mem_singleton_self _, _, List.mem_singleton_self _, .inl ⟨_, rfl, ?_⟩⟩
        -- the adopted key has the tenant of the request
        have htenant : k₀.tenantID = (announcedKey R e req).tenantID := by
          simp only [Key.isSame, Bool.and_eq_true, beq_iff_eq] at hsame
          exact hsame.1.1.2
        have heq : k₁ = k₀ := DB.key_eq_of_id hk₁ hk₀
          ((congrArg KeyIdent.id hident).trans (List.mem_singleton.1 hid))
        rw [← identifier_eq hident, heq]
        exact names_iff.2 ⟨hcan.1, htenant ▸ hcan.2⟩

theorem ActionEffect.marked {action : ActionType} {req : KeyRequest} {r : Except Err Unit} {gs : List JobGroup}
    (h : ActionEffect e action req w (r, gs, w')) (hk : k ∈ w'.db.keys.rows) : Marked k w.db gs := by
  cases h with
  | refused => exact .inl ⟨hk, nofun⟩
  | accepted _ hsel _ =>
    rename_i kt
    rcases DB.mem_markKeys_cases hk with ⟨hk, hid⟩ | ⟨hid, hlc, hst, k₁, hk₁, hident⟩
    · refine .inl ⟨hk, fun jobs hj job hjob => ?_⟩
      rw [List.mem_singleton.1 hj] at hjob
      obtain ⟨layer, hl, -, rfl⟩ := mem_jobsOf.1 hjob
      rw [Bool.eq_false_iff]
      intro href
      obtain ⟨kid, hkid, hn⟩ := List.any_eq_true.1 href
      obtain ⟨k₀, hk₀, rfl⟩ := List.mem_map.1 hkid
      refine hid (mem_idsOf.2 ⟨layer, hl, k₀, hk₀, ?_⟩)
      have hcan := DB.key_canonical (hsel.stored layer hl k₀ (mem_toMove.1 hk₀).1)
      exact Option.some.inj (hcan.1.symm.trans (names_iff.1 hn).1)
    · obtain ⟨layer, hl, k₀, hk₀, hkid⟩ := mem_idsOf.1 hid
      have hmem₀ := hsel.stored layer hl k₀ (mem_toMove.1 hk₀).1
      have heq : k₁ = k₀ := DB.key_eq_of_id hk₁ hmem₀ ((congrArg KeyIdent.id hident).trans hkid.symm)
      refine .inr ⟨hst, _, List.mem_singleton_self _, _, mem_jobsOf.2 ⟨layer, hl, List.ne_nil_of_mem hk₀, rfl⟩,
        .inr ⟨action, _, rfl, hlc.symm, k₀.identifier, List.mem_map_of_mem hk₀, ?_⟩⟩
      rw [← identifier_eq hident, heq]
      exact names_self hmem₀

theorem AdminCall.marked {call : AdminCall} (hk : k ∈ (call.run R e w).2.db.keys.rows) :
    Marked k w.db (call.run R e w).1 := by
  cases call with
  | createTenant name labels => exact marked_of_keys createTenant_effect.keys hk
  | announceKey req => exact AnnounceKeyEffect.marked announceKey_effect hk
  | keyAction action req => exact ActionEffect.marked keyAction_effect hk
  | createProvider req => exact marked_of_keys (CreateProviderEffect.keys createProvider_effect) hk
  | rotateAuth t i a => exact marked_of_keys (congrArg DB.keys (RotateAuthEffect.db rotateAuth_effect)) hk
  | rotateProviderKey t i key => exact marked_of_keys (RotateProviderKeyEffect.keys rotateProviderKey_effect) hk
  | removeProvider t i => exact marked_of_keys (congrArg DB.keys (RemoveProviderEffect.db removeProvider_effect)) hk

/-! ## Covered keys -/

/-- A key that waits has a job in a running group that is to move it on. -/
structure Covered (k : Key) (gs : List (Group Job RootTask)) : Prop where
  pending : k.status = .pending →
    Somewhere (fun j => j.phase = .created ∧ j.data.Announces k.identifier) gs ∨
      Somewhere (Owes (Job.Moves k.identifier k.lifeCycleState) (RootTask.Moves k.identifier k.lifeCycleState)) gs
  inProgress : k.status = .inProgress →
    Somewhere (Owes (Job.Announces k.identifier) (RootTask.Announces k.identifier)) gs

variable {gs : List (Group Job RootTask)}

theorem covered_of_settled (h : k.status = .completed ∨ k.status = .failed) : Covered k gs := by
  constructor <;> intro hst <;> rw [hst] at h <;> simp at h

theorem Covered.append (h : Covered k gs) (gs' : List (Group Job RootTask)) : Covered k (gs ++ gs') :=
  ⟨fun hst => (h.pending hst).imp (·.append gs') (·.append gs'), fun hst => (h.inProgress hst).append gs'⟩

/-- What orbital says of a job at a place fits what its key has become. -/
structure Fits (k : Key) (gs : List (Group Job RootTask)) (g i : Nat) (ev : JobEvent RootTask) : Prop where
  resolved : ∀ tasks, ev = .resolved tasks → ∀ G j, gs[g]? = some G → G[i]? = some j → ev = j.data.resolve
  confirmed : ev = .confirmed → ∀ G j, gs[g]? = some G → G[i]? = some j → j.data.Announces k.identifier →
    k.status ≠ .pending
  recorded : ∀ n completed, ev = .recorded n completed → ∀ G j t st, gs[g]? = some G → G[i]? = some j →
    j.tasks[n]? = some (t, st) → (t.Moves k.identifier k.lifeCycleState → k.status ≠ .pending) ∧
      (t.Announces k.identifier → k.status ≠ .inProgress)

theorem resolve_moves {lc : KeyLifeCycleState} {job : Job} {tasks : List RootTask} (h : .resolved tasks = job.resolve)
    (hm : job.Moves K lc) : ∃ t ∈ tasks, t.Moves K lc := by
  obtain ⟨action, ids, rfl, hlc, kid, hkid, hn⟩ := hm
  have hne : ids.isEmpty = false := by
    cases ids with
    | nil => cases hkid
    | cons _ _ => rfl
  simp only [Job.resolve, hne, Bool.false_eq_true, if_false] at h
  cases h
  exact ⟨_, List.mem_map_of_mem hkid, action, kid, rfl, hlc, hn⟩

theorem resolve_announces {job : Job} {tasks : List RootTask} (h : .resolved tasks = job.resolve)
    (hm : job.Announces K) : ∃ t ∈ tasks, t.Announces K := by
  obtain ⟨key, rfl, hn⟩ := hm
  cases h
  exact ⟨_, List.mem_singleton_self _, key, rfl, hn⟩

/-- An event keeps a key covered, unless it drops a job for it. -/
theorem Covered.applyAt {g i : Nat} {ev : JobEvent RootTask} (h : Covered k gs) (hfit : Fits k gs g i ev)
    (hnd : ¬ Dropped (fun job => job.refersTo k.identifier = true) gs (applyAt gs g i ev)) :
    Covered k (applyAt gs g i ev) := by
  constructor
  · intro hst
    rcases h.pending hst with hcr | howes
    · rcases somewhere_applyAt hcr (fun j hj => ⟨by rw [hj.1]; decide, by rw [hj.1]; decide, hj.2⟩) g i ev with
        h | h | ⟨G, j, hG, -, hj, ⟨hp, ha⟩, hnL, hc⟩
      · exact .inl h
      · exact absurd (h.mono fun _ hr => hr.refersTo) hnd
      · -- only the confirmation of this job could end its waiting, and then the key is not pending
        by_cases hev : ev = .confirmed
        · exact absurd hst (hfit.confirmed hev G j hG hj ha)
        · rcases JobState.apply_created hp hev with heq | hcanceled
          · rw [heq] at hnL; exact absurd ⟨hp, ha⟩ hnL
          · exact absurd hcanceled hc
    · rcases owes_applyAt howes g i ev fun tasks hev G j hG hj hm =>
          resolve_moves (hev ▸ hfit.resolved tasks hev G j hG hj) hm with
        h | h | ⟨n, completed, t, G, j, hev, hG, hj, ht, hm⟩
      · exact .inr h
      · exact absurd (h.mono fun _ hr => hr.refersTo) hnd
      · exact absurd hst ((hfit.recorded n completed hev G j t _ hG hj ht).1 hm)
  · intro hst
    rcases owes_applyAt (h.inProgress hst) g i ev fun tasks hev G j hG hj hm =>
        resolve_announces (hev ▸ hfit.resolved tasks hev G j hG hj) hm with
      h | h | ⟨n, completed, t, G, j, hev, hG, hj, ht, hm⟩
    · exact h
    · exact absurd (h.mono fun _ hr => hr.refersTo) hnd
    · exact absurd hst ((hfit.recorded n completed hev G j t _ hG hj ht).2 hm)

/-- A key that is not covered by any outstanding job does not wait. -/
theorem Covered.settled (h : Covered k gs) (hout : outstanding k.identifier gs = false) :
    k.status = .completed ∨ k.status = .failed := by
  have hnone : ∀ {L : JobState Job RootTask → Prop},
      (∀ j, L j → j.ended = false ∧ j.data.refersTo k.identifier = true) → ¬ Somewhere L gs := by
    rintro L hL ⟨G, hG, ha, j, hj, hLj⟩
    refine List.any_eq_false.1 hout G hG ?_
    obtain ⟨he, hr⟩ := hL j hLj
    simp only [ha, Bool.not_false, Bool.true_and]
    exact List.any_eq_true.2 ⟨j, hj, by rw [he, hr]; rfl⟩
  have howes : ∀ {ref : Job → Prop} {tref : RootTask → Prop}, (∀ job, ref job → job.refersTo k.identifier = true) →
      ¬ Somewhere (Owes ref tref) gs := by
    intro ref tref href
    exact hnone fun j hj => ⟨hj.not_ended, href _ hj.1⟩
  cases hst : k.status with
  | pending =>
    rcases h.pending hst with h | h
    · exact absurd h (hnone fun j hj => ⟨by simp [JobState.ended, JobState.broken, hj.1], hj.2.refersTo⟩)
    · exact absurd h (howes fun _ hr => hr.refersTo)
  | inProgress => exact absurd (h.inProgress hst) (howes fun _ hr => hr.refersTo)
  | completed => exact .inl rfl
  | failed => exact .inr rfl

/-! ## Confirmations in time -/

/-- The job that a step confirms. -/
def Op.confirming (s : RootState) : Op → Option Job
  | .confirmJob g i _ => ((s.acceptingJob g i .confirmed).filter fun j => j.phase = .created).map JobState.data
  | _ => none

theorem step_confirming {s : RootState} {g i : Nat} {recorded : Bool} :
    (step R s (e, .confirmJob g i recorded)).world = s.world ∨
      ∃ job, (Op.confirmJob g i recorded).confirming s = some job ∧
        (step R s (e, .confirmJob g i recorded)).world = (job.confirm e s.world).2 := by
  unfold step Op.confirming
  dsimp only
  split
  · exact .inl rfl
  · rename_i j hacc
    split
    · rename_i hp
      exact .inr ⟨j.data, by simp [hacc, hp], rfl⟩
    · exact .inl rfl

/-- If the job announces the key and the key is pending, it is not activated yet. -/
def Job.InTime (K : KeyIdentifier) (w : World) : Job → Prop
  | .announce key => K.names key.identifier = true → ∀ k ∈ w.db.keys.rows, k.identifier = K → k.status = .pending →
      k.lifeCycleState = .preActivation
  | .layer _ _ => True

instance (K : KeyIdentifier) (w : World) : ∀ job, Decidable (Job.InTime K w job)
  | .announce _ => inferInstanceAs (Decidable (_ → _))
  | .layer _ _ => inferInstanceAs (Decidable True)

/-- No announce of the key is confirmed while the key waits for an activation, suspension or deactivation. -/
def ConfirmsInTime (K : KeyIdentifier) (s : RootState) (op : Env × Op) : Prop :=
  ∀ job ∈ op.2.confirming s, job.InTime K s.world

instance (K : KeyIdentifier) (s : RootState) (op : Env × Op) : Decidable (ConfirmsInTime K s op) :=
  inferInstanceAs (Decidable (∀ _ ∈ _, _))

/-- Every key has its tenant, and a key in progress is not activated yet. -/
structure Underway (K : KeyIdentifier) (db : DB) : Prop where
  tenants : TenantsStored db
  state : ∀ k ∈ db.keys.rows, k.identifier = K → k.status = .inProgress → k.lifeCycleState = .preActivation

/-- A key in progress after a step was so before, or its announce was confirmed by the step. -/
theorem step_inProgress {s : RootState} (op : Env × Op) (hk : k ∈ (step R s op).world.db.keys.rows)
    (hst : k.status = .inProgress) : k ∈ s.world.db.keys.rows ∨
      ∃ key, op.2.confirming s = some (.announce key) ∧ k.identifier.names key.identifier = true ∧
        ∃ k₀ ∈ s.world.db.keys.rows, k₀.identifier = k.identifier ∧ k₀.status = .pending ∧
          k₀.lifeCycleState = k.lifeCycleState := by
  obtain ⟨e, op⟩ := op
  cases op with
  | admin call =>
    rcases AdminCall.marked hk with ⟨hk, -⟩ | ⟨hst', -⟩
    · exact .inl hk
    · rw [hst] at hst'; cases hst'
  | confirmJob g i recorded =>
    rcases step_confirming with heq | ⟨job, hjob, heq⟩ <;> rw [heq] at hk
    · exact .inl hk
    · cases job with
      | layer action ids => exact .inl hk
      | announce key =>
        rcases confirmAnnounce_effect.rows hk with hk | ⟨-, hn, hold⟩
        · exact .inl hk
        · exact .inr ⟨key, hjob, hn, hold⟩
  | resolveTasks g i =>
    rcases step_resolveTasks with heq | ⟨_, _, -, -, heq⟩ <;> rw [heq] at hk <;> exact .inl hk
  | handle g i task recorded =>
    rcases step_handle with heq | ⟨_, _, t, _, -, -, -, heq⟩ <;> rw [heq] at hk
    · exact .inl hk
    · have hrow : k ∈ s.world.db.keys.rows ∨ k.status = .completed ∨ k.status = .failed := by
        cases t with
        | announce key => exact AnnounceEffect.rows handleAnnounce_effect hk
        | action a kid => exact TaskEffect.rows handleTask_effect hk
      rcases hrow with hk | hst' | hst'
      · exact .inl hk
      · rw [hst] at hst'; cases hst'
      · rw [hst] at hst'; cases hst'
  | cancel g i => exact .inl hk

theorem underway_step (s : RootState) (op : Env × Op) (h : Underway K s.world.db) (hc : ConfirmsInTime K s op) :
    Underway K (step R s op).world.db := by
  refine ⟨tenantsStored_step s op h.tenants, fun k hk hK hst => ?_⟩
  rcases step_inProgress op hk hst with hk | ⟨key, hkey, hn, k₀, hk₀, hid, hpending, hlc⟩
  · exact h.state k hk hK hst
  · rw [← hlc]
    exact hc _ hkey (hK ▸ hn) k₀ hk₀ (hid.trans hK) hpending

/-! ## Steps -/

theorem fits_canceled {g i : Nat} : Fits k gs g i .canceled := ⟨nofun, nofun, nofun⟩

/-- An answer that fits, recorded or lost, keeps a key covered. -/
theorem Covered.record {s : RootState} {g i : Nat} {recorded : Bool} {ev : Option (JobEvent RootTask)}
    (h : Covered k s.groups) (hfit : ∀ ev', ev = some ev' → Fits k s.groups g i ev')
    (hnd : ¬ Dropped (fun job => job.refersTo k.identifier = true) s.groups (s.record g i recorded ev)) :
    Covered k (s.record g i recorded ev) := by
  unfold RootState.record at hnd ⊢
  split
  · rename_i ev'
    exact h.applyAt (hfit ev' rfl) hnd
  · exact h

/-- Every stored key with these identifiers is covered. -/
def AllCovered (K : KeyIdentifier) (s : RootState) : Prop :=
  ∀ k ∈ s.world.db.keys.rows, k.identifier = K → Covered k s.groups

/-- The step gives up a group, and a job of it for the key is canceled or left unrun. -/
def DropsKey (R : RootProcess) (K : KeyIdentifier) (s : RootState) (op : Env × Op) : Prop :=
  Dropped (fun job => job.refersTo K = true) s.groups (step R s op).groups

/-- The step is an admin call that prepares a job for the key. -/
def MarksKey (R : RootProcess) (K : KeyIdentifier) (s : RootState) (op : Env × Op) : Prop :=
  ∃ call, op.2 = .admin call ∧ ∃ jobs ∈ (call.run R op.1 s.world).1, ∃ job ∈ jobs, job.refersTo K = true

/-- The groups of an admin call cover the keys it marks. -/
theorem covered_of_marked {gs' : List JobGroup} (hst : k.status = .pending)
    (h : ∃ jobs ∈ gs', ∃ job ∈ jobs, job.Announces k.identifier ∨ job.Moves k.identifier k.lifeCycleState) :
    Covered k (gs ++ gs'.map fun jobs => jobs.map JobState.new) := by
  obtain ⟨jobs, hjobs, job, hjob, href⟩ := h
  -- the group of the job, all of whose jobs are new
  have hnew : ∀ {L : JobState Job RootTask → Prop}, L (.new job) →
      Somewhere L (gs ++ gs'.map fun jobs => jobs.map JobState.new) := fun hL =>
    ⟨_, List.mem_append_right _ (List.mem_map_of_mem hjobs), by simp [Group.aborted, JobState.broken, JobState.new], _,
      List.mem_map_of_mem hjob, hL⟩
  refine ⟨fun _ => ?_, fun hst' => by rw [hst] at hst'; cases hst'⟩
  rcases href with ha | hm
  · exact .inl (hnew ⟨rfl, ha⟩)
  · exact .inr (hnew (.of_created rfl hm))

theorem step_admin_covered {s : RootState} {call : AdminCall} (h : AllCovered K s ∨ MarksKey R K s (e, .admin call)) :
    AllCovered K (step R s (e, .admin call)) := by
  intro k hk hK
  subst hK
  change k ∈ (call.run R e s.world).2.db.keys.rows at hk
  rcases AdminCall.marked hk with ⟨hk, hno⟩ | ⟨hst, hjob⟩
  · rcases h with h | ⟨_, ⟨⟩, jobs, hjobs, job, hj, href⟩
    · exact (h k hk rfl).append _
    · rw [hno jobs hjobs job hj] at href
      cases href
  · exact covered_of_marked hst hjob

theorem step_confirm_covered {s : RootState} {g i : Nat} {recorded : Bool} (h : AllCovered K s)
    (hnd : ¬ DropsKey R K s (e, .confirmJob g i recorded)) : AllCovered K (step R s (e, .confirmJob g i recorded)) := by
  unfold DropsKey at hnd
  rcases step_confirmJob with heq | ⟨G, j, hG, hab, hj, hp, heq⟩ <;> rw [heq] at hnd ⊢
  · exact h
  · rintro k hk rfl
    -- the job at the place is this one
    have hplace : ∀ G' j', s.groups[g]? = some G' → G'[i]? = some j' → j' = j := by
      intro G' j' hG' hj'
      rw [hG] at hG'
      cases hG'
      exact Option.some.inj (hj'.symm.trans hj)
    cases hdata : j.data with
    | layer action ids =>
      rw [hdata] at hk hnd
      refine (h k hk rfl).record (fun ev hev => ?_) hnd
      cases hev
      refine ⟨nofun, fun _ G' j' hG' hj' ha => ?_, nofun⟩
      obtain ⟨_, hd, -⟩ := ha
      rw [hplace G' j' hG' hj', hdata] at hd
      cases hd
    | announce key =>
      rw [hdata] at hk hnd
      have heff : ConfirmEffect e key s.world (confirmAnnounce e key s.world).1 (confirmAnnounce e key s.world).2 :=
        confirmAnnounce_effect
      have hcov : Covered k s.groups := by
        rcases heff.rows hk with hk | ⟨hst, hn, -⟩
        · exact h k hk rfl
        · -- the job that has just put the key in progress covers it
          refine ⟨fun hst' => absurd (hst.symm.trans hst') nofun, fun _ => ?_⟩
          exact ⟨G, List.mem_of_getElem? hG, hab, j, List.mem_of_getElem? hj, .of_created hp ⟨key, hdata, hn⟩⟩
      refine hcov.record (fun ev hev => ?_) hnd
      change ConfirmResult.event (confirmAnnounce e key s.world).1 = some ev at hev
      change k ∈ (confirmAnnounce e key s.world).2.db.keys.rows at hk
      generalize (confirmAnnounce e key s.world).1 = result at heff hev
      cases result with
      | «continue» => cases hev
      | cancel reason => cases hev; exact fits_canceled
      | complete =>
        cases hev
        refine ⟨nofun, fun _ G' j' hG' hj' ha => ?_, nofun⟩
        obtain ⟨key', hd, hn⟩ := ha
        rw [hplace G' j' hG' hj', hdata] at hd
        cases hd
        exact heff.not_pending hk hn

theorem step_resolve_covered {s : RootState} {g i : Nat} (h : AllCovered K s)
    (hnd : ¬ DropsKey R K s (e, .resolveTasks g i)) : AllCovered K (step R s (e, .resolveTasks g i)) := by
  unfold DropsKey at hnd
  rcases step_resolveTasks with heq | ⟨G, j, hG, hj, heq⟩ <;> rw [heq] at hnd ⊢
  · exact h
  · rintro k hk rfl
    refine (h k hk rfl).applyAt ⟨fun tasks _ G' j' hG' hj' => ?_, fun hev => ?_, fun n completed hev => ?_⟩ hnd
    · rw [hG] at hG'
      cases hG'
      rw [Option.some.inj (hj'.symm.trans hj)]
    · unfold Job.resolve at hev
      split at hev
      · cases hev
      · split at hev <;> cases hev
    · unfold Job.resolve at hev
      split at hev
      · cases hev
      · split at hev <;> cases hev

theorem step_handle_covered {s : RootState} {g i task : Nat} {recorded : Bool} (hu : Underway K s.world.db)
    (h : AllCovered K s)
    (hnd : ¬ DropsKey R K s (e, .handle g i task recorded)) :
    AllCovered K (step R s (e, .handle g i task recorded)) := by
  unfold DropsKey at hnd
  have hts := tenantsStored_step (R := R) s (e, .handle g i task recorded) hu.tenants
  rcases step_handle with heq | ⟨G, j, t, st, hG, hj, ht, heq⟩ <;> rw [heq] at hnd hts ⊢
  · exact h
  · rintro k hk rfl
    have hcov : Covered k s.groups := by
      have hrow : k ∈ s.world.db.keys.rows ∨ k.status = .completed ∨ k.status = .failed := by
        cases t with
        | announce key => exact AnnounceEffect.rows handleAnnounce_effect hk
        | action a kid => exact TaskEffect.rows handleTask_effect hk
      rcases hrow with hk | hst
      · exact h k hk rfl
      · exact covered_of_settled hst
    refine hcov.record (fun ev hev => ?_) hnd
    -- an answer that is recorded has ended the task, well or not
    have hend := Response.ends_of_event hev
    have hev' : ∃ completed, ev = .recorded task completed := by
      cases hresp : (t.handle R e s.world).1 with
      | continueAndWaitFor n => exact absurd hresp (hend n)
      | fail msg => rw [hresp] at hev; cases hev; exact ⟨false, rfl⟩
      | complete => rw [hresp] at hev; cases hev; exact ⟨true, rfl⟩
    obtain ⟨completed, rfl⟩ := hev'
    refine ⟨nofun, nofun, fun n c hn G' j' t' st' hG' hj' ht' => ?_⟩
    cases hn
    rw [hG] at hG'
    cases hG'
    rw [Option.some.inj (hj'.symm.trans hj), ht] at ht'
    cases ht'
    constructor
    · rintro ⟨a, kid, rfl, hlc, hn⟩ hst
      have heff : TaskEffect R e a.toState kid s.world (handleTask R e a kid s.world).1
        (handleTask R e a kid s.world).2 := handleTask_effect
      obtain ⟨tenant, htenant, htid⟩ := hts k hk
      have hstored : tenant ∈ s.world.db.tenants.rows := heff.tenants ▸ htenant
      exact heff.not_waiting hend hk hn (DB.getTenant_of_mem hstored (htid ▸ (names_iff.1 hn).2)) ⟨hlc.symm, hst⟩
    · rintro ⟨key, rfl, hn⟩
      exact handleAnnounce_effect.not_inProgress hend hk hn fun hk => hu.state k hk rfl

/-- Every step keeps a key covered, unless it drops a job for it. -/
theorem step_covered {s : RootState} (op : Env × Op) (hu : Underway K s.world.db) (h : AllCovered K s)
    (hnd : ¬ DropsKey R K s op) : AllCovered K (step R s op) := by
  obtain ⟨e, op⟩ := op
  cases op with
  | admin call => exact step_admin_covered (.inl h)
  | confirmJob g i recorded => exact step_confirm_covered h hnd
  | resolveTasks g i => exact step_resolve_covered h hnd
  | handle g i task recorded => exact step_handle_covered hu h hnd
  | cancel g i =>
    rintro k hk rfl
    exact (h k hk rfl).applyAt fits_canceled hnd

/-- An admin call that prepares a job for a key covers it. -/
theorem step_marks_covered {s : RootState} (op : Env × Op) (hm : MarksKey R K s op) : AllCovered K (step R s op) := by
  obtain ⟨e, op⟩ := op
  have hadm : ∃ call, op = .admin call := hm.imp fun _ h => h.1
  obtain ⟨call, rfl⟩ := hadm
  exact step_admin_covered (.inr hm)

/-- **No key waits for nothing.** In every run in which no announce of a key is confirmed late, a key to which no
outstanding job refers is completed or failed, unless, since the last admin call that prepared a job for it, a group was
given up and a job for it was canceled or left unrun. -/
theorem settled_or_dropped (R : RootProcess) (ops : List (Env × Op)) (k : Key)
    (hc : Along (step R) (ConfirmsInTime k.identifier) .init ops)
    (hk : k ∈ (run (step R) .init ops).world.db.keys.rows)
    (hout : outstanding k.identifier (run (step R) .init ops).groups = false) :
    k.status = .completed ∨ k.status = .failed ∨
      Since (step R) (DropsKey R k.identifier) (MarksKey R k.identifier) .init ops := by
  have hinit : AllCovered k.identifier .init := fun _ hk => absurd hk List.not_mem_nil
  have huinit : Underway k.identifier RootState.init.world.db :=
    ⟨fun _ hk => absurd hk List.not_mem_nil, fun _ hk => absurd hk List.not_mem_nil⟩
  rcases run_inv_or_since (I := fun s : RootState => Underway k.identifier s.world.db) underway_step
    (fun _ op hu _ h hnd => step_covered op hu h hnd) (fun _ op hm _ => step_marks_covered op hm) huinit hinit hc with
      h | h
  · rcases (h k hk rfl).settled hout with h | h
    · exact .inl h
    · exact .inr (.inl h)
  · exact .inr (.inr h)

end

/-- Announce and settle a root key. -/
def demoAnnounced : List (Env × Op) := [demoCreateTenant, demoAnnounce 1 "rk" "" ""] ++ demoRunJob 0 0

theorem demoAnnounced_settled : ∃ k ∈ (run (step demo) .init demoAnnounced).world.db.keys.rows,
    Along (step demo) (ConfirmsInTime k.identifier) .init demoAnnounced ∧
    outstanding k.identifier (run (step demo) .init demoAnnounced).groups = false ∧
      (k.status = .completed ∨ k.status = .failed ∨
        Since (step demo) (DropsKey demo k.identifier) (MarksKey demo k.identifier) .init demoAnnounced) := by
  obtain ⟨k, hk, hc, hout⟩ : ∃ k ∈ (run (step demo) .init demoAnnounced).world.db.keys.rows,
      Along (step demo) (ConfirmsInTime k.identifier) .init demoAnnounced ∧
        outstanding k.identifier (run (step demo) .init demoAnnounced).groups = false := by decide +kernel
  exact ⟨k, hk, hc, hout, settled_or_dropped demo demoAnnounced k hc hk hout⟩

/-- A root key is announced twice; the second announce is confirmed after the activation has marked the key. -/
def demoLateConfirmation : List (Env × Op) :=
  [demoCreateTenant, demoAnnounce 1 "rk" "" "", demoAnnounce 1 "rk" "" ""] ++ demoRunJob 0 0 ++
    [demoBind 1 3, demoAction .activate 1 false] ++ demoRunJob 1 0 ++ demoRunJob 2 0

-- the announce task fails, the activation is skipped, and the key stays in progress
example : ∃ k ∈ (run (step demo) .init demoLateConfirmation).world.db.keys.rows,
    outstanding k.identifier (run (step demo) .init demoLateConfirmation).groups = false ∧
      ¬ Along (step demo) (ConfirmsInTime k.identifier) .init demoLateConfirmation ∧
        k.lifeCycleState = .active ∧ k.status = .inProgress := by decide +kernel

/-- Four keys in a chain, the first two active; then a cascading activation of the third, whose agent refuses it. -/
def demoRefusedCascade : List (Env × Op) :=
  [demoCreateTenant, demoAnnounce 1 "rk" "" ""] ++ demoRunJob 0 0 ++ [demoBind 1 3, demoAction .activate 1 false] ++
    demoRunJob 1 0 ++ [demoAnnounce 2 "kek" (demoKey 1) ""] ++ demoRunJob 2 0 ++ [demoAction .activate 2 false] ++
    demoRunJob 3 0 ++ [demoAnnounce 3 "tek" (demoKey 2) "edge"] ++ demoRunJob 4 0 ++
    [demoAnnounce 4 "dek" (demoKey 3) "edge"] ++ demoRunJob 5 0 ++ [demoAction .activate 3 true] ++
    [(demoEnv 0, .confirmJob 6 0 true), (demoEnv 0, .resolveTasks 6 0),
      ({ demoEnv 0 with rpc := fun _ => .error true false }, .handle 6 0 0 true)]

/-- The key below the refused one stays pending, and nothing is left to do for it. -/
theorem refused_cascade_leaves_pending : ∃ k ∈ (run (step demo) .init demoRefusedCascade).world.db.keys.rows,
    outstanding k.identifier (run (step demo) .init demoRefusedCascade).groups = false ∧
      k.lifeCycleState = .active ∧ k.status = .pending := by decide +kernel

end Krypton
