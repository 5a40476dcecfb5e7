import Krypton.Progress

/-!
# The transaction of a call and its job group

An admin call hands its job group to orbital inside its transaction, and orbital stores it on its own. So the jobs can
run while the transaction is still open: a step of orbital then sees the database without the call's changes, and one
that would write a key the transaction has written waits for it and has to be tried again.

* `raceStep` — the steps of one group, before and after the commit of the call that prepared it;
* `not_lost_of_patient` — when no step that reads keys comes before the commit, every key the call has made pending is
  settled by the time its jobs have ended.
-/

namespace Krypton

open Lib

/-! ## The system -/

/-- The root with the one group of a call, and what the call is going to commit. -/
structure RaceState where
  root : RootState
  staged : Option DB

inductive RaceOp where
  | commit
  | confirmJob (i : Nat) (recorded : Bool)
  | resolveTasks (i : Nat)
  | handle (i task : Nat) (recorded : Bool)

/-- The call returns success. -/
def AdminCall.accepted (R : RootProcess) (e : Env) (w : World) : AdminCall → Bool
  | .announceKey req => (Krypton.announceKey R e req w).1.isOk
  | .keyAction action req => (Krypton.keyAction e action req w).1.isOk
  | _ => false

/-- Right after the call has handed its group to orbital. -/
def RaceState.start (R : RootProcess) (e : Env) (w : World) (call : AdminCall) : RaceState :=
  ⟨⟨w, (call.run R e w).1.map fun jobs => jobs.map JobState.new⟩, some (call.run R e w).2.db⟩

/-- The database as it is once the transaction has ended. -/
def RaceState.current (s : RaceState) : DB := s.staged.getD s.root.world.db

/-- A step of orbital. While the transaction is open, a step that writes a key ends in a serialization failure. -/
def RaceState.orbital (R : RootProcess) (s : RaceState) (op : Env × Op) : RaceState :=
  let root := step R s.root op
  if s.staged.isSome ∧ root.world.db.keys.rows ≠ s.root.world.db.keys.rows then
    { s with root.world.vault := root.world.vault }
  else { s with root }

def raceStep (R : RootProcess) (s : RaceState) : Env × RaceOp → RaceState
  | (_, .commit) => { s with root.world.db := s.current, staged := none }
  | (e, .confirmJob i recorded) => s.orbital R (e, .confirmJob 0 i recorded)
  | (e, .resolveTasks i) => s.orbital R (e, .resolveTasks 0 i)
  | (e, .handle i task recorded) => s.orbital R (e, .handle 0 i task recorded)

def Job.isAnnounce : Job → Bool
  | .announce _ => true
  | .layer _ _ => false

/-- The step looks at the keys of the call: it confirms an announce, or delivers a task. -/
def RaceState.readsKeys (s : RaceState) : RaceOp → Bool
  | .confirmJob i _ => s.root.groups.any fun G => G[i]?.any fun j => j.data.isAnnounce
  | .handle _ _ _ => true
  | _ => false

/-- No step looks at the keys of the call before its commit. -/
def Patient (s : RaceState) (op : Env × RaceOp) : Prop := s.staged.isSome = true → s.readsKeys op.2 = false

instance (s : RaceState) (op : Env × RaceOp) : Decidable (Patient s op) := inferInstanceAs (Decidable (_ → _))

/-- The call made the key pending. -/
def MovedToPending (R : RootProcess) (e : Env) (w : World) (call : AdminCall) (K : KeyIdentifier) : Prop :=
  ∃ k ∈ (call.run R e w).2.db.keys.rows, k.identifier = K ∧ k.status = .pending ∧ k ∉ w.db.keys.rows

/-- The call returned success, all jobs of its group have ended, and a key it made pending still is. -/
def Lost (R : RootProcess) (e : Env) (w : World) (call : AdminCall) (s : RaceState) : Prop :=
  call.accepted R e w = true ∧ s.staged.isNone = true ∧ (∀ G ∈ s.root.groups, ∀ j ∈ G, j.ended = true) ∧
    ∃ k ∈ s.root.world.db.keys.rows, MovedToPending R e w call k.identifier ∧ k.status = .pending

instance (R : RootProcess) (e : Env) (w : World) (call : AdminCall) (K : KeyIdentifier) :
    Decidable (MovedToPending R e w call K) := inferInstanceAs (Decidable (∃ _ ∈ _, _))

instance (R : RootProcess) (e : Env) (w : World) (call : AdminCall) (s : RaceState) : Decidable (Lost R e w call s) :=
  inferInstanceAs (Decidable (_ ∧ _))

/-! ## Owed keys -/

/-- A job of the group still has to move the pending key on. -/
def Owed (k : Key) (G : Group Job RootTask) : Prop :=
  (∃ j ∈ G, j.phase = .created ∧ j.data.Announces k.identifier) ∨
    ∃ j ∈ G, Owes (Job.Moves k.identifier k.lifeCycleState) (RootTask.Moves k.identifier k.lifeCycleState) j

section
variable {R : RootProcess} {e : Env} {w w' : World} {k : Key} {G : Group Job RootTask} {i : Nat}
    {ev : JobEvent RootTask}

theorem Owed.not_ended (h : Owed k G) : ∃ j ∈ G, j.ended = false := by
  rcases h with ⟨j, hj, hp, -⟩ | ⟨j, hj, ho⟩
  · exact ⟨j, hj, by simp [JobState.ended, JobState.broken, hp]⟩
  · exact ⟨j, hj, ho.not_ended⟩

/-- What is recorded of job `i` fits the pending key `k`: an event that ends the work on `k` is ruled out. -/
structure Leaves (k : Key) (G : Group Job RootTask) (i : Nat) (ev : JobEvent RootTask) : Prop where
  resolved : ∀ j, G[i]? = some j → ∀ tasks, ev = .resolved tasks → ev = j.data.resolve
  confirmed : ∀ j, G[i]? = some j → j.data.Announces k.identifier → ev ≠ .confirmed ∧ ev ≠ .canceled
  canceled : ∀ j, G[i]? = some j → j.data.Moves k.identifier k.lifeCycleState → ev ≠ .canceled
  recorded : ∀ j, G[i]? = some j → ∀ n completed t st, ev = .recorded n completed → j.tasks[n]? = some (t, st) →
    ¬ t.Moves k.identifier k.lifeCycleState

theorem Owed.apply (h : Owed k G) (hl : Leaves k G i ev) : Owed k (G.apply i ev) := by
  rcases h with ⟨j, hj, hp, ha⟩ | ⟨j, hj, ho⟩
  · obtain ⟨m, hm⟩ := List.mem_iff_getElem?.1 hj
    have hm' := Group.getElem?_apply i ev hm
    refine .inl ⟨_, List.mem_of_getElem? hm', ?_⟩
    split
    · rename_i hmi
      have hne := hl.confirmed j (hmi.2 ▸ hm) ha
      rcases JobState.apply_created hp hne.1 with heq | hb
      · rw [heq]; exact ⟨hp, ha⟩
      · -- only a cancellation breaks a job that is not resolved
        cases ev with
        | canceled => exact absurd rfl hne.2
        | confirmed => exact absurd rfl hne.1
        | resolved tasks => simp [JobState.apply, hp] at hb
        | recorded n completed => simp [JobState.apply, hp] at hb
    · exact ⟨hp, ha⟩
  · obtain ⟨m, hm⟩ := List.mem_iff_getElem?.1 hj
    have hm' := Group.getElem?_apply i ev hm
    refine .inr ⟨_, List.mem_of_getElem? hm', ?_⟩
    split
    · rename_i hmi
      have hj' : G[i]? = some j := hmi.2 ▸ hm
      rcases ho.apply ev fun tasks hev => resolve_moves (hev ▸ hl.resolved j hj' tasks hev) ho.1 with
        h | ⟨hev, -⟩ | ⟨n, completed, t, hev, -, ht, hmv⟩
      · exact h
      · exact absurd hev (hl.canceled j hj' ho.1)
      · exact absurd hmv (hl.recorded j hj' n completed t _ hev ht)
    · exact ho

/-- The tasks of a job's own resolution leave every key owed. -/
theorem leaves_resolve {j : JobState Job RootTask} (hj : G[i]? = some j) : Leaves k G i j.data.resolve := by
  have hsame : ∀ j', G[i]? = some j' → j' = j := fun j' hj' => Option.some.inj (hj'.symm.trans hj)
  cases hdata : j.data with
  | announce key =>
    refine ⟨fun j' hj' _ _ => by rw [hsame j' hj', hdata], fun _ _ _ => ⟨nofun, nofun⟩, fun _ _ _ => nofun, ?_⟩
    intro _ _ n completed t st hev
    cases hev
  | layer action ids =>
    refine ⟨fun j' hj' _ _ => by rw [hsame j' hj', hdata], fun j' hj' ha => ?_, fun j' hj' hm => ?_, ?_⟩
    · obtain ⟨_, hd, -⟩ := ha
      rw [hsame j' hj', hdata] at hd
      cases hd
    · -- a layer with a key is not canceled when it is resolved
      obtain ⟨_, _, hd, -, kid, hkid, -⟩ := hm
      rw [hsame j' hj', hdata] at hd
      cases hd
      have hne : ids.isEmpty = false := by
        cases ids with
        | nil => cases hkid
        | cons _ _ => rfl
      simp [Job.resolve, hne]
    · intro _ _ n completed t st hev
      unfold Job.resolve at hev
      split at hev <;> first | cases hev | (split at hev <;> cases hev)

/-! ## The invariant -/

/-- Every pending key of the call is owed, and the tenants of its keys exist. -/
structure RaceInv (ref : KeyIdentifier → Prop) (s : RaceState) : Prop where
  owed : ∃ G, s.root.groups = [G] ∧
    ∀ k ∈ s.current.keys.rows, ref k.identifier → k.status = .pending → Owed k G
  tenants : ∀ K, ref K → ∃ t, s.current.getTenant K.tenantID = .ok t

variable {ref : KeyIdentifier → Prop} {s : RaceState}

theorem applyAt_singleton : applyAt [G] 0 i ev = [G.apply i ev] := rfl

/-- A step that leaves the database alone and records a fitting event keeps the invariant. -/
theorem RaceInv.record (h : RaceInv ref s) (recorded : Bool) (oev : Option (JobEvent RootTask))
    (hl : ∀ k ∈ s.current.keys.rows, ref k.identifier → k.status = .pending →
      ∀ G, s.root.groups = [G] → ∀ ev, oev = some ev → Leaves k G i ev) :
    RaceInv ref { s with root.groups := s.root.record 0 i recorded oev } := by
  obtain ⟨G, hG, hk⟩ := h.owed
  refine ⟨?_, h.tenants⟩
  unfold RootState.record
  split
  · rename_i ev
    rw [hG]
    exact ⟨_, applyAt_singleton, fun k hmem href hst => (hk k hmem href hst).apply (hl k hmem href hst G hG ev rfl)⟩
  · exact ⟨G, hG, hk⟩

/-- After a step whose rows come from the old ones, or are not pending, the keys are owed as before. -/
theorem RaceInv.world (h : RaceInv ref s) (hs : s.staged = none) (world : World)
    (hrows : ∀ k ∈ world.db.keys.rows, k ∈ s.root.world.db.keys.rows ∨ k.status ≠ .pending)
    (ht : world.db.tenants = s.root.world.db.tenants) : RaceInv ref { s with root.world := world } := by
  obtain ⟨root, staged⟩ := s
  cases hs
  obtain ⟨G, hG, hk⟩ := h.owed
  refine ⟨⟨G, hG, fun k hmem href hst => ?_⟩, fun K hK => ?_⟩
  · rcases hrows k hmem with hmem' | hne
    · exact hk k hmem' href hst
    · exact absurd hst hne
  · obtain ⟨t, ht'⟩ := h.tenants K hK
    exact ⟨t, (DB.getTenant_of_tenants ht _).trans ht'⟩

theorem orbital_committed (hs : s.staged = none) (op : Env × Op) :
    s.orbital R op = { s with root := step R s.root op } := by
  simp [RaceState.orbital, hs]

theorem orbital_same_world {op : Env × Op} (hw : (step R s.root op).world = s.root.world) :
    s.orbital R op = { s with root := step R s.root op } := by
  simp [RaceState.orbital, hw]

/-- The confirmation of a layer's job says nothing about keys. -/
theorem leaves_confirm_layer {j : JobState Job RootTask} {action : ActionType} {ids : List KeyIdentifier}
    (hj : G[i]? = some j) (hdata : j.data = .layer action ids) : Leaves k G i .confirmed := by
  refine ⟨fun _ _ _ => nofun, fun j' hj' ha => ?_, fun _ _ _ => nofun, fun _ _ _ _ _ _ => nofun⟩
  obtain ⟨_, hd, -⟩ := ha
  rw [Option.some.inj (hj'.symm.trans hj), hdata] at hd
  cases hd

/-- A confirmation that is recorded for an announce says that its key is not pending. -/
theorem leaves_confirm_announce {j : JobState Job RootTask} {key : Key} {result : ConfirmResult}
    (hj : G[i]? = some j) (hdata : j.data = .announce key) (heff : ConfirmEffect e key w result w')
    (hk : k ∈ w'.db.keys.rows) (hst : k.status = .pending) (hev : result.event = some ev) : Leaves k G i ev := by
  have hsame : ∀ j', G[i]? = some j' → j' = j := fun j' hj' => Option.some.inj (hj'.symm.trans hj)
  have hann : ∀ j', G[i]? = some j' → ¬ j'.data.Announces k.identifier := by
    rintro j' hj' ⟨key', hd, hn⟩
    rw [hsame j' hj', hdata] at hd
    cases hd
    cases result with
    | «continue» => cases hev
    | complete => exact heff.not_pending hk hn hst
    | cancel reason =>
      cases heff with
      | unknown hun =>
        obtain ⟨hid, ht⟩ := names_iff.1 hn
        have hfound : w.db.getKeyByID key.id key.tenantID = .ok k := DB.getKeyByID_of_parse hk hid ht
        rw [hfound] at hun
        cases hun
  refine ⟨fun j' hj' tasks h => ?_, fun j' hj' ha => absurd ha (hann j' hj'), fun j' hj' hm => ?_, ?_⟩
  · cases result <;> cases hev <;> cases h
  · obtain ⟨_, _, hd, -⟩ := hm
    rw [hsame j' hj', hdata] at hd
    cases hd
  · intro j' hj' n completed t st h
    cases result <;> cases hev <;> cases h

/-- An answer to a delivery that is recorded says that the task's key does not wait for it. -/
theorem leaves_handle {j : JobState Job RootTask} {t : RootTask} {st : TaskStatus} {n : Nat} (hj : G[i]? = some j)
    (ht : j.tasks[n]? = some (t, st)) (hk : k ∈ (t.handle R e w).2.db.keys.rows) (hst : k.status = .pending)
    (hten : ∃ tn, w.db.getTenant k.tenantID = .ok tn) (hev : (t.handle R e w).1.event n = some ev) :
    Leaves k G i ev := by
  obtain ⟨completed, hrec⟩ : ∃ completed, ev = .recorded n completed := by
    cases hr : (t.handle R e w).1 <;> rw [hr] at hev <;> cases hev
    · exact ⟨false, rfl⟩
    · exact ⟨true, rfl⟩
  subst hrec
  refine ⟨fun _ _ _ => nofun, fun _ _ _ => ⟨nofun, nofun⟩, fun _ _ _ => nofun, ?_⟩
  intro j' hj' n' completed' t' st' h ht' hm
  cases h
  rw [Option.some.inj (hj'.symm.trans hj), ht] at ht'
  cases ht'
  obtain ⟨a, kid, rfl, hlc, hn⟩ := hm
  obtain ⟨tn, htn⟩ := hten
  have heff : TaskEffect R e a.toState kid w (handleTask R e a kid w).1 (handleTask R e a kid w).2 := handleTask_effect
  have htid : w.db.getTenant kid.tenantID = .ok tn := by
    rw [← htn]
    refine DB.getTenant_congr ?_
    rw [(names_iff.1 hn).2]
    exact (uuidIn_idem (names_iff.1 hn).2).symm
  exact heff.not_waiting (Response.ends_of_event hev) hk hn htid ⟨hlc.symm, hst⟩

/-! ## Steps -/

theorem raceInv_resolve (h : RaceInv ref s) : RaceInv ref (raceStep R s (e, .resolveTasks i)) := by
  change RaceInv ref (s.orbital R (e, .resolveTasks 0 i))
  rcases step_resolveTasks (R := R) (s := s.root) (e := e) (g := 0) (i := i) with heq | ⟨G, j, hG, hj, heq⟩
  · rw [orbital_same_world (by rw [heq]), heq]
    exact h
  · rw [orbital_same_world (by rw [heq]), heq]
    refine h.record true (some j.data.resolve) fun k _ _ _ G' hG' ev hev => ?_
    cases hev
    rw [hG'] at hG
    cases hG
    exact leaves_resolve hj

theorem raceInv_confirm (h : RaceInv ref s) {recorded : Bool} (hp : Patient s (e, .confirmJob i recorded)) :
    RaceInv ref (raceStep R s (e, .confirmJob i recorded)) := by
  change RaceInv ref (s.orbital R (e, .confirmJob 0 i recorded))
  rcases @step_confirmJob R s.root e 0 i recorded with
    heq | ⟨G, j, hG, -, hj, -, heq⟩
  · rw [orbital_same_world (by rw [heq]), heq]
    exact h
  · cases hdata : j.data with
    | layer action ids =>
      rw [hdata] at heq
      rw [orbital_same_world (by rw [heq]; rfl), heq]
      refine h.record recorded (some .confirmed) fun k _ _ _ G' hG' ev hev => ?_
      cases hev
      rw [hG'] at hG
      cases hG
      exact leaves_confirm_layer hj hdata
    | announce key =>
      -- the call has committed, so the confirmation sees its row
      have hs : s.staged = none := by
        by_contra hs
        have hread := hp (Option.isSome_iff_ne_none.2 hs)
        have : s.readsKeys (.confirmJob i recorded) = true := by
          refine List.any_eq_true.2 ⟨G, List.mem_of_getElem? hG, ?_⟩
          rw [hj, Option.any_some, hdata]
          rfl
        rw [hread] at this
        cases this
      rw [orbital_committed hs, heq, hdata]
      have heff : ConfirmEffect e key s.root.world (confirmAnnounce e key s.root.world).1
        (confirmAnnounce e key s.root.world).2 := confirmAnnounce_effect
      have hworld := h.world hs (confirmAnnounce e key s.root.world).2
        (fun k hk => (heff.rows hk).imp_right fun hin => by rw [hin.1]; decide) heff.tenants
      refine hworld.record recorded (confirmAnnounce e key s.root.world).1.event fun k hk _ hst G' hG' ev hev => ?_
      rw [show s.root.groups = [G'] from hG'] at hG
      cases hG
      have hk' : k ∈ (confirmAnnounce e key s.root.world).2.db.keys.rows := by
        simpa [RaceState.current, hs] using hk
      exact leaves_confirm_announce hj hdata heff hk' hst hev

theorem raceInv_handle (h : RaceInv ref s) {n : Nat} {recorded : Bool} (hp : Patient s (e, .handle i n recorded)) :
    RaceInv ref (raceStep R s (e, .handle i n recorded)) := by
  change RaceInv ref (s.orbital R (e, .handle 0 i n recorded))
  have hs : s.staged = none := by
    by_contra hs
    have hread := hp (Option.isSome_iff_ne_none.2 hs)
    cases hread
  rw [orbital_committed hs]
  rcases @step_handle R s.root e 0 i n recorded with
    heq | ⟨G, j, t, st, hG, hj, ht, heq⟩
  · rw [heq]
    exact h
  · rw [heq]
    have hrows : ∀ k ∈ (t.handle R e s.root.world).2.db.keys.rows,
        k ∈ s.root.world.db.keys.rows ∨ k.status ≠ .pending := by
      intro k hk
      have hrow : k ∈ s.root.world.db.keys.rows ∨ k.status = .completed ∨ k.status = .failed := by
        cases t with
        | announce key => exact AnnounceEffect.rows handleAnnounce_effect hk
        | action a kid => exact TaskEffect.rows handleTask_effect hk
      refine hrow.imp_right fun hst => ?_
      rcases hst with hst | hst <;> rw [hst] <;> decide
    have hworld := h.world hs _ hrows (RootTask.handle_tenants t)
    refine hworld.record recorded ((t.handle R e s.root.world).1.event n) fun k hk href hst G' hG' ev hev => ?_
    rw [show s.root.groups = [G'] from hG'] at hG
    cases hG
    have hk' : k ∈ (t.handle R e s.root.world).2.db.keys.rows := by simpa [RaceState.current, hs] using hk
    refine leaves_handle hj ht hk' hst ?_ hev
    have hten := h.tenants k.identifier href
    rwa [RaceState.current, hs] at hten

theorem raceInv_commit (h : RaceInv ref s) : RaceInv ref (raceStep R s (e, .commit)) := ⟨h.owed, h.tenants⟩

/-- Every step that waits for the commit keeps the invariant. -/
theorem raceInv_step (op : Env × RaceOp) (h : RaceInv ref s) (hp : Patient s op) : RaceInv ref (raceStep R s op) := by
  obtain ⟨e, op⟩ := op
  cases op with
  | commit => exact raceInv_commit h
  | confirmJob i recorded => exact raceInv_confirm h hp
  | resolveTasks i => exact raceInv_resolve h
  | handle i task recorded => exact raceInv_handle h hp

/-! ## The start -/

/-- A job of the call refers to the key. -/
def AdminCall.Prepares (R : RootProcess) (e : Env) (w : World) (call : AdminCall) (K : KeyIdentifier) : Prop :=
  ∃ jobs ∈ (call.run R e w).1, ∃ job ∈ jobs, job.refersTo K = true

/-- A call that hands over `gs` has one group, and the tenants of the keys in it exist. -/
structure OneGroup (gs : List JobGroup) (db : DB) : Prop where
  single : ∃ jobs, gs = [jobs]
  tenants : ∀ K, (∃ jobs ∈ gs, ∃ job ∈ jobs, job.refersTo K = true) → ∃ t, db.getTenant K.tenantID = .ok t

theorem AnnounceKeyEffect.oneGroup {req : AnnounceKeyRequest} {r : Except Err Key} {gs : List JobGroup}
    (h : AnnounceKeyEffect R e req w (r, gs, w')) (hr : r.isOk = true) : OneGroup gs w'.db := by
  cases h with
  | refused => cases hr
  | accepted _ ht _ hu =>
    refine ⟨⟨_, rfl⟩, ?_⟩
    rintro K ⟨jobs, hjobs, job, hjob, href⟩
    rw [List.mem_singleton.1 hjobs, List.mem_singleton] at hjob
    rw [hjob, Job.refersTo, Job.identifiers, List.any_cons, List.any_nil, Bool.or_false] at href
    obtain ⟨t, ht⟩ := Validator.validateTenant_ok.1 ht
    have hK := (names_iff.1 href).2
    refine ⟨t, (DB.getTenant_of_tenants hu.tenants _).trans (Eq.trans (DB.getTenant_congr ?_) ht)⟩
    rw [uuidIn_idem hK, ← hK]
    exact congrArg uuidIn hu.tenantID

theorem ActionEffect.oneGroup {action : ActionType} {req : KeyRequest} {r : Except Err Unit} {gs : List JobGroup}
    (h : ActionEffect e action req w (r, gs, w')) (hr : r.isOk = true) : OneGroup gs w'.db := by
  cases h with
  | refused => cases hr
  | accepted ht hsel _ =>
    refine ⟨⟨_, rfl⟩, ?_⟩
    rintro K ⟨jobs, hjobs, job, hjob, href⟩
    rw [List.mem_singleton.1 hjobs] at hjob
    obtain ⟨layer, hlayer, -, rfl⟩ := mem_jobsOf.1 hjob
    obtain ⟨kid, hkid, hn⟩ := List.any_eq_true.1 href
    obtain ⟨k₀, hk₀, rfl⟩ := List.mem_map.1 hkid
    have hmem := (mem_toMove.1 hk₀).1
    have hK : k₀.tenantID = K.tenantID := Option.some.inj
      ((DB.key_canonical (hsel.stored layer hlayer k₀ hmem)).2.symm.trans (names_iff.1 hn).2)
    obtain ⟨t, ht⟩ := Validator.validateTenant_ok.1 ht
    refine ⟨t, Eq.trans (DB.getTenant_congr ?_) ht⟩
    rw [uuidIn_idem (names_iff.1 hn).2, ← hK]
    exact (hsel.tenant layer hlayer k₀ hmem).symm

theorem AdminCall.oneGroup {call : AdminCall} (h : call.accepted R e w = true) :
    OneGroup (call.run R e w).1 (call.run R e w).2.db := by
  cases call with
  | announceKey req => exact AnnounceKeyEffect.oneGroup announceKey_effect h
  | keyAction action req => exact ActionEffect.oneGroup keyAction_effect h
  | _ => cases h

/-- Right after the call its pending keys are owed. -/
theorem raceInv_start {call : AdminCall} (h : call.accepted R e w = true) :
    RaceInv (call.Prepares R e w) (.start R e w call) := by
  obtain ⟨⟨jobs, hjobs⟩, htenants⟩ := AdminCall.oneGroup h
  refine ⟨⟨jobs.map JobState.new, by rw [RaceState.start, hjobs]; rfl, fun k hk href _ => ?_⟩, htenants⟩
  rcases AdminCall.marked hk with ⟨-, hno⟩ | ⟨-, jobs', hjobs', job, hjob, hmv⟩
  · obtain ⟨jobs', hjobs', job, hjob, href⟩ := href
    rw [hno jobs' hjobs' job hjob] at href
    cases href
  · rw [hjobs, List.mem_singleton] at hjobs'
    subst hjobs'
    exact hmv.imp (fun ha => ⟨_, List.mem_map_of_mem hjob, rfl, ha⟩)
      fun hm => ⟨_, List.mem_map_of_mem hjob, .of_created rfl hm⟩

/-- A key the call made pending is in its group. -/
theorem MovedToPending.prepares {call : AdminCall} {K : KeyIdentifier} (h : MovedToPending R e w call K) :
    call.Prepares R e w K := by
  obtain ⟨k, hk, rfl, -, hnew⟩ := h
  rcases AdminCall.marked hk with ⟨hk, -⟩ | ⟨-, jobs, hjobs, job, hjob, hmv⟩
  · exact absurd hk hnew
  · exact ⟨jobs, hjobs, job, hjob, hmv.elim Job.Announces.refersTo Job.Moves.refersTo⟩

/-- **No action is lost after the commit.** In every run in which no announce is confirmed and no task delivered before
the commit of the call, no key that the call made pending is still pending when all its jobs have ended. -/
theorem not_lost_of_patient (R : RootProcess) (e : Env) (w : World) (call : AdminCall) (ops : List (Env × RaceOp))
    (hops : Along (raceStep R) Patient (.start R e w call) ops) :
    ¬ Lost R e w call (run (raceStep R) (.start R e w call) ops) := by
  rintro ⟨hacc, hs, hended, k, hk, hmoved, hst⟩
  have hinv := run_inv (fun _ op h hp => raceInv_step op h hp) (raceInv_start hacc) hops
  obtain ⟨G, hG, howed⟩ := hinv.owed
  have hk' : k ∈ (run (raceStep R) (.start R e w call) ops).current.keys.rows := by
    simpa [RaceState.current, Option.isNone_iff_eq_none.1 hs] using hk
  obtain ⟨j, hj, hne⟩ := (howed k hk' hmoved.prepares hst).not_ended
  rw [hended G (by rw [hG]; exact List.mem_singleton_self G) j hj] at hne
  cases hne

end

/-- The world in which the root key is announced. -/
def demoRaceWorld : World := (run (step demo) .init demoAnnounced).world

def demoActivate : AdminCall := .keyAction .activate ⟨demoTenant, demoKey 1, false⟩

def demoAnnounceChild : AdminCall := .announceKey ⟨demoTenant, "kek", "kek", demoKey 1, "", []⟩

/-- The commit, then the steps of the job. -/
def demoPatient : List (Env × RaceOp) :=
  [(demoEnv 0, .confirmJob 0 true), (demoEnv 0, .commit), (demoEnv 0, .resolveTasks 0), (demoEnv 0, .handle 0 0 true)]

theorem demoPatient_not_lost :
    Along (raceStep demo) Patient (.start demo (demoEnv 2) demoRaceWorld demoActivate) demoPatient ∧
      ¬ Lost demo (demoEnv 2) demoRaceWorld demoActivate
        (run (raceStep demo) (.start demo (demoEnv 2) demoRaceWorld demoActivate) demoPatient) := by
  have h : Along (raceStep demo) Patient (.start demo (demoEnv 2) demoRaceWorld demoActivate) demoPatient := by
    decide +kernel
  exact ⟨h, not_lost_of_patient _ _ _ _ _ h⟩

/-- An activation whose task is delivered before the commit finds nothing to do, and an announce that is confirmed
before the commit does not find its key. -/
theorem race_loses_keys :
    Lost demo (demoEnv 2) demoRaceWorld demoActivate
      (run (raceStep demo) (.start demo (demoEnv 2) demoRaceWorld demoActivate)
        [(demoEnv 0, .confirmJob 0 true), (demoEnv 0, .resolveTasks 0), (demoEnv 0, .handle 0 0 true),
          (demoEnv 0, .commit)]) ∧
    Lost demo (demoEnv 2) demoRaceWorld demoAnnounceChild
      (run (raceStep demo) (.start demo (demoEnv 2) demoRaceWorld demoAnnounceChild)
        [(demoEnv 0, .confirmJob 0 true), (demoEnv 0, .commit)]) := by
  decide +kernel

end Krypton
