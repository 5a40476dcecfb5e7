import Krypton.RootKey

/-!
# Key versions follow their keys

The lifecycle state of a key is kept twice: in its own row, and in the rows of its versions, where the next version of a
child looks for a parent. A task moves the highest version along with the key. It leaves the versions below alone, and
`RotateProviderKey` puts a new version above an active one: suspending a rotated key leaves its old version active.

* `Follows` — what a step does to the versions of a completed key;
* `lifecycles_consistent` — the versions of completed keys are in the right states, as long as no key is suspended or
  deactivated while it has an active version below its highest one;
* `unrotated_consistent` — which never happens without `RotateProviderKey`.
-/

namespace Krypton

open Lib

/-! ## The versions of a key -/

/-- The version is one of the key's. -/
def KeyVersion.Of (r : KeyVersion) (k : Key) : Prop := r.tenantID = k.tenantID ∧ r.keyID = k.id

/-- The version comes before another one of its key. -/
def KeyVersion.Below (r r' : KeyVersion) : Prop :=
  r.version < r'.version ∨ r.version = r'.version ∧ r.revision < r'.revision

/-- The key's highest version is active and usable. -/
def DB.InUse (db : DB) (k : Key) : Prop :=
  ∃ kv, Highest db k kv ∧ kv.lifeCycleState = .active ∧ kv.processingState = .usable

/-- None of the key's versions is active. -/
def DB.OutOfUse (db : DB) (k : Key) : Prop := ∀ r ∈ db.keyVersions.rows, r.Of k → r.lifeCycleState ≠ .active

/-- The versions of completed keys are in the states of their keys. -/
structure LifecyclesConsistent (db : DB) : Prop where
  active : ∀ k ∈ db.keys.rows, k.status = .completed → k.lifeCycleState = .active → db.InUse k
  inactive : ∀ k ∈ db.keys.rows, k.status = .completed →
    k.lifeCycleState = .suspended ∨ k.lifeCycleState = .deactivated → db.OutOfUse k

/-- The key has an active version below another one. -/
def DB.Lingers (db : DB) (k : Key) : Prop :=
  ∃ r ∈ db.keyVersions.rows, r.Of k ∧ r.lifeCycleState = .active ∧ ∃ r' ∈ db.keyVersions.rows, r'.Of k ∧ r.Below r'

instance (r : KeyVersion) (k : Key) : Decidable (r.Of k) := inferInstanceAs (Decidable (_ ∧ _))

instance (r r' : KeyVersion) : Decidable (r.Below r') := inferInstanceAs (Decidable (_ ∨ _))

instance (db : DB) (k : Key) : Decidable (db.Lingers k) := inferInstanceAs (Decidable (∃ _ ∈ _, _))

/-- The task suspends or deactivates a key that waits for it and has an active version below another one. -/
def RootTask.LeavesVersion (w : World) : RootTask → Prop
  | .announce _ => False
  | .action a kid => a.toState ≠ .active ∧ ∃ k ∈ w.db.keys.rows, w.db.getKeyByID kid.id kid.tenantID = .ok k ∧
      k.lifeCycleState = a.toState ∧ k.status = .pending ∧ w.db.Lingers k

instance (w : World) : ∀ task, Decidable (RootTask.LeavesVersion w task)
  | .announce _ => inferInstanceAs (Decidable False)
  | .action _ _ => inferInstanceAs (Decidable (_ ∧ _))

section
variable {R : RootProcess} {A : World → Env → AdminCall → Prop} {e : Env} {w w' : World} {db db' : DB} {k : Key}

/-- Versions below the highest one are below it in the order of versions. -/
theorem Highest.below {kv r : KeyVersion} (h : Highest db k kv) (hr : r ∈ db.keyVersions.rows) (hof : r.Of k)
    (hne : r ≠ kv) : r.Below kv := by
  rcases h.le r hr hof.1 hof.2 with hlt | ⟨heq, hle⟩
  · exact .inl hlt
  · refine .inr ⟨heq, lt_of_le_of_ne hle fun hrev => hne ?_⟩
    exact DB.keyVersion_eq hr h.mem (hof.1.trans h.tenantID.symm) (hof.2.trans h.keyID.symm) heq hrev

/-! ## What a step does to the versions of a completed key -/

/-- How a completed key and its versions come out of a step. -/
inductive Follows (db db' : DB) (k : Key) : Prop where
  /-- The key and its versions are as before. -/
  | kept (hk : k ∈ db.keys.rows) (h : ∀ r, r.Of k → (r ∈ db'.keyVersions.rows ↔ r ∈ db.keyVersions.rows))
  /-- The key is active and has one more version, above all others. -/
  | rotated {row : KeyVersion} (hk : k ∈ db.keys.rows) (hlc : k.lifeCycleState = .active) (hof : row.Of k)
      (hactive : row.lifeCycleState = .active) (husable : row.processingState = .usable)
      (habove : ∀ r ∈ db.keyVersions.rows, r.Of k → r.version < row.version)
      (h : ∀ r, r ∈ db'.keyVersions.rows ↔ r ∈ db.keyVersions.rows ∨ r = row)
  /-- A task has just completed the key: its highest version is in the key's state. -/
  | settled {kv : KeyVersion} (hh : Highest db' k kv) (hlc : kv.lifeCycleState = k.lifeCycleState)
      (husable : kv.processingState = .usable)
      (hrest : ∀ r ∈ db'.keyVersions.rows, r.Of k → r ≠ kv → k.lifeCycleState ≠ .active → r.lifeCycleState ≠ .active)

/-- The highest version of a key that is in use stays its highest one, or a new active version is above it. -/
theorem Follows.inUse (h : Follows db db' k) (hold : k ∈ db.keys.rows → db.InUse k) (hlc : k.lifeCycleState = .active) :
    db'.InUse k := by
  cases h with
  | kept hk h =>
    obtain ⟨kv, hh, hact, hus⟩ := hold hk
    refine ⟨kv, ⟨(h kv ⟨hh.tenantID, hh.keyID⟩).2 hh.mem, hh.tenantID, hh.keyID, fun r hr ht hid => ?_⟩, hact, hus⟩
    exact hh.le r ((h r ⟨ht, hid⟩).1 hr) ht hid
  | @rotated row hk _ hof hact hus habove h =>
    refine ⟨row, ⟨(h row).2 (.inr rfl), hof.1, hof.2, fun r hr ht hid => ?_⟩, hact, hus⟩
    rcases (h r).1 hr with hr | rfl
    · exact .inl (habove r hr ⟨ht, hid⟩)
    · exact .inr ⟨rfl, le_rfl⟩
  | settled hh hstate hus _ => exact ⟨_, hh, hstate.trans hlc, hus⟩

theorem Follows.outOfUse (h : Follows db db' k) (hold : k ∈ db.keys.rows → db.OutOfUse k)
    (hlc : k.lifeCycleState ≠ .active) : db'.OutOfUse k := by
  intro r hr hof
  cases h with
  | kept hk h => exact hold hk r ((h r hof).1 hr) hof
  | rotated _ hactive _ _ _ _ _ => exact absurd hactive hlc
  | @settled kv hh hstate _ hrest =>
    by_cases hkv : r = kv
    · rw [hkv, hstate]
      exact hlc
    · exact hrest r hr hof hkv hlc

/-- Across a step, every completed key beyond pre-activation and its versions come out so. -/
def AllFollow (w w' : World) : Prop :=
  ∀ k ∈ w'.db.keys.rows, k.status = .completed → k.lifeCycleState ≠ .preActivation → Follows w.db w'.db k

theorem SettledBefore.allFollow (h : SettledBefore w w') (hkvs : w'.db.keyVersions = w.db.keyVersions) :
    AllFollow w w' := fun k hk hst hlc => .kept (h k hk hst hlc) fun r _ => by rw [hkvs]

/-! ## Admin calls -/

/-- A version of another key changes nothing for a key. -/
theorem Follows.inserted {kv row : KeyVersion} (hi : DB.KeyVersionInserted db kv row db') (hk : k ∈ db.keys.rows)
    (hof : ¬ row.Of k) : Follows db db' k := by
  refine .kept hk fun r hr => ?_
  rw [hi.mem]
  exact ⟨fun h => h.resolve_right fun heq => hof (heq ▸ hr), .inl⟩

/-- A version that a provider call adds belongs to the key it names. -/
theorem MayUse.of_inserted {tenantID keyID providerKeyID : String} {usage : KeyUsage} {n : Nat} {t : SealerType}
    {k₀ : Key} {row : KeyVersion} (hu : MayUse db tenantID keyID usage k₀)
    (hi : DB.KeyVersionInserted db (providerKeyVersion e tenantID keyID n t providerKeyID) row db')
    (hk : k ∈ db.keys.rows) (hof : row.Of k) : k₀ = k := by
  obtain ⟨hmem, hid, -⟩ := DB.getKeyByID_ok hu.found
  exact DB.key_eq_of_id hmem hk ((Option.some.inj (hid.symm.trans hi.keyID)).trans hof.2)

/-- Binding a provider is for keys in pre-activation. -/
theorem CreateProviderEffect.allFollow {req : CreateProviderRequest} {r : Except Err Unit}
    (h : CreateProviderEffect R e req w (r, w')) : AllFollow w w' := by
  cases h with
  | refused => exact (settledBefore_of_keys rfl).allFollow rfl
  | half _ _ _ _ => exact SettledBefore.allFollow (settledBefore_of_keys rfl) rfl
  | bound _ _ _ hu hi =>
    intro k hk _ hlc
    have hk : k ∈ w.db.keys.rows := hi.keys ▸ hk
    refine .inserted hi hk fun hof => hlc ?_
    rw [← hu.of_inserted hi hk hof]
    exact KeyLifecycle.validateKeyUsage_link.1 hu.usage

/-- The version that was read is at least as high as all others. -/
theorem latestProviderKeyVersion_le {tenantID keyID : String} {latest r : KeyVersion}
    (h : latestProviderKeyVersion db tenantID keyID = .ok latest) (hr : r ∈ db.keyVersions.rows)
    (ht : uuidIn tenantID = some r.tenantID) (hid : uuidIn keyID = some r.keyID) : r.version ≤ latest.version := by
  unfold latestProviderKeyVersion fetchOne at h
  obtain ⟨l, hl, h⟩ := bind_eq_ok.1 h
  cases l with
  | nil => cases h
  | cons kv l =>
    cases h
    have hr' : r ∈ latest :: l := (DB.listKeyVersions_mem hl).2 ⟨hr, ht, .inr hid, .inl rfl, nofun, nofun⟩
    have hp := DB.listKeyVersions_head hl r hr'
    simp only [DB.precedes, Bool.or_eq_true, Bool.and_eq_true, beq_iff_eq, decide_eq_true_eq, and_true] at hp
    omega

theorem RotateProviderKeyEffect.allFollow {tenantID keyID : String} {r : Except Err Unit}
    (h : RotateProviderKeyEffect e tenantID keyID w (r, w')) : AllFollow w w' := by
  cases h with
  | refused => exact (settledBefore_of_keys rfl).allFollow rfl
  | @rotated _ k₀ latest row _ _ _ hu _ hlatest hi =>
    intro k hk _ _
    have hk : k ∈ w.db.keys.rows := hi.keys ▸ hk
    by_cases hof : row.Of k
    · obtain rfl := hu.of_inserted hi hk hof
      obtain ⟨hversion, -, -, hactive, husable⟩ := hi.columns
      refine .rotated hk (KeyLifecycle.validateKeyUsage_rotate.1 hu.usage) hof hactive husable (fun r hr hr' => ?_)
        fun r => hi.mem
      have hle := latestProviderKeyVersion_le hlatest hr (hr'.1 ▸ hu.hasKey.2.2) (hr'.2 ▸ hu.hasKey.2.1)
      have hversion : row.version = latest.version + 1 := hversion
      omega
    · exact .inserted hi hk hof

theorem AdminCall.allFollow (call : AdminCall) : AllFollow w (call.run R e w).2 := by
  have hb : SettledBefore w (call.run R e w).2 := call.settledBefore
  cases call with
  | createTenant name labels =>
    refine hb.allFollow ?_
    have heff : CreateTenantEffect w (Krypton.createTenant e name labels w).2 := createTenant_effect
    change (Krypton.createTenant e name labels w).2.db.keyVersions = _
    generalize (Krypton.createTenant e name labels w).2 = w' at heff
    cases heff with
    | refused => rfl
    | created _ _ hkvs _ => exact hkvs
  | announceKey req =>
    refine hb.allFollow ?_
    have heff : AnnounceKeyEffect R e req w (Krypton.announceKey R e req w) := announceKey_effect
    change (Krypton.announceKey R e req w).2.2.db.keyVersions = _
    generalize Krypton.announceKey R e req w = out at heff
    cases heff with
    | refused => rfl
    | accepted _ _ _ hu =>
      cases hu with
      | inserted hi => exact hi.keyVersions
      | adopted _ _ => rfl
  | keyAction action req =>
    refine hb.allFollow ?_
    have heff : ActionEffect e action req w (Krypton.keyAction e action req w) := keyAction_effect
    change (Krypton.keyAction e action req w).2.2.db.keyVersions = _
    generalize Krypton.keyAction e action req w = out at heff
    cases heff <;> rfl
  | createProvider req => exact CreateProviderEffect.allFollow createProvider_effect
  | rotateAuth t i a => exact hb.allFollow (congrArg DB.keyVersions (RotateAuthEffect.db rotateAuth_effect))
  | rotateProviderKey t i key => exact RotateProviderKeyEffect.allFollow rotateProviderKey_effect
  | removeProvider t i => exact hb.allFollow (congrArg DB.keyVersions (RemoveProviderEffect.db removeProvider_effect))

/-! ## Tasks -/

/-- A task leaves the versions of other keys alone. -/
theorem VersionChange.others {key : Key} {kv r : KeyVersion} {isNew : Bool} (h : VersionChange e key db kv isNew db')
    (hof : ¬ r.Of key) : r ∈ db'.keyVersions.rows ↔ r ∈ db.keyVersions.rows := by
  cases h with
  | existing hh hu =>
    rw [hu.mem_iff]
    constructor
    · rintro ⟨r₀, hr₀, heq⟩
      split at heq
      · rename_i hsame
        subst hsame heq
        exact absurd ⟨hh.tenantID, hh.keyID⟩ hof
      · exact heq ▸ hr₀
    · intro hr
      refine ⟨r, hr, if_neg fun hsame => hof ?_⟩
      rw [hsame]
      exact ⟨hh.tenantID, hh.keyID⟩
  | fresh _ _ hi =>
    rw [hi.mem]
    exact ⟨fun h => h.resolve_right fun heq => hof (heq ▸ ⟨rfl, rfl⟩), .inl⟩

/-- The version a task works on becomes, or stays, the highest one of its key. -/
theorem VersionChange.highest {key : Key} {kv : KeyVersion} {isNew : Bool} (h : VersionChange e key db kv isNew db') :
    ∃ kv', Highest db' key kv' ∧ kv'.lifeCycleState = key.lifeCycleState ∧ kv'.processingState = .usable ∧
      ∀ r ∈ db'.keyVersions.rows, r.Of key → r ≠ kv' →
        r ∈ db.keyVersions.rows ∧ ∃ r' ∈ db.keyVersions.rows, r'.Of key ∧ r.Below r' := by
  cases h with
  | @existing kv _ hh hu =>
    have hcases : ∀ r ∈ db'.keyVersions.rows,
        r = { kv with lifeCycleState := key.lifeCycleState, processingState := .usable, updatedAt := e.now } ∨
          r ∈ db.keyVersions.rows ∧ r ≠ kv := by
      intro r hr
      obtain ⟨r₀, hr₀, heq⟩ := hu.mem_iff.1 hr
      split at heq
      · rename_i hsame
        subst hsame
        exact .inl heq.symm
      · rename_i hne
        subst heq
        exact .inr ⟨hr₀, hne⟩
    refine ⟨_, ⟨hu.mem_iff.2 ⟨kv, hh.mem, if_pos rfl⟩, hh.tenantID, hh.keyID, fun r hr ht hid => ?_⟩, rfl, rfl,
      fun r hr hof hne => ?_⟩
    · rcases hcases r hr with rfl | ⟨hr, -⟩
      · exact .inr ⟨rfl, le_rfl⟩
      · exact hh.le r hr ht hid
    · obtain ⟨hr, hne'⟩ := (hcases r hr).resolve_left hne
      exact ⟨hr, kv, hh.mem, ⟨hh.tenantID, hh.keyID⟩, hh.below hr hof hne'⟩
  | fresh hnone _ hi =>
    refine ⟨_, ⟨hi.mem.2 (.inr rfl), rfl, rfl, fun r hr ht hid => ?_⟩, rfl, rfl, fun r hr hof hne => ?_⟩
    · rcases hi.mem.1 hr with hr | rfl
      · exact absurd ⟨ht, hid⟩ (hnone r hr)
      · exact .inr ⟨rfl, le_rfl⟩
    · exact absurd hof (hnone r ((hi.mem.1 hr).resolve_right hne))

theorem Prepared.versions {key : Key} {s s₁ : Session} (h : Prepared R e key s s₁) :
    ∃ kv isNew db, VersionChange e key s.db kv isNew db ∧ s₁.db.keyVersions = db.keyVersions := by
  obtain ⟨kv, isNew, db, hv, hs⟩ := h
  exact ⟨kv, isNew, db, hv, congrArg DB.keyVersions hs.keys⟩

/-- What the steps on a key do to versions, when they are committed: nothing, or a change of that key's versions. -/
theorem Processed.versions {key : Key} {r : Except OrbitalOperatorError Unit} {s : Session}
    (h : Processed R e key w.session r s) (hc : ∀ err, r ≠ .error (.continue err)) :
    (s.db.keyVersions = w.db.keyVersions ∧ r ≠ .ok ()) ∨
      ∃ kv isNew db, VersionChange e key w.db kv isNew db ∧ s.db.keyVersions = db.keyVersions := by
  cases h with
  | completed h _ => exact .inr h.versions
  | orphan => exact .inl ⟨rfl, nofun⟩
  | unwired hv _ => exact .inr ⟨_, _, _, hv, rfl⟩
  | refused h => exact .inr h.versions
  | retried _ => exact absurd rfl (hc _)

theorem Processed.others {key : Key} {r : Except OrbitalOperatorError Unit} {s : Session}
    (h : Processed R e key w.session r s) (hc : ∀ err, r ≠ .error (.continue err)) {kv : KeyVersion}
    (hof : ¬ kv.Of key) : kv ∈ s.db.keyVersions.rows ↔ kv ∈ w.db.keyVersions.rows := by
  rcases h.versions hc with ⟨heq, -⟩ | ⟨_, _, _, hv, heq⟩ <;> rw [heq]
  exact hv.others hof

/-- Keys that the task has not marked keep their versions. -/
theorem Processed.follows {key : Key} {r : Except OrbitalOperatorError Unit} {s : Session}
    (h : Processed R e key w.session r s) (hc : ∀ err, r ≠ .error (.continue err)) (hk : k ∈ w.db.keys.rows)
    (hid : k.id ≠ key.id) : Follows w.db s.db k :=
  .kept hk fun _ hof => h.others hc fun hof' => hid (hof.2.symm.trans hof'.2)

theorem TaskEffect.allFollow {action : ActionType} {kid : KeyIdentifier} {response : Response}
    (hT : ¬ RootTask.LeavesVersion w (.action action kid)) (h : TaskEffect R e action.toState kid w response w') :
    AllFollow w w' := by
  cases h with
  | @failed key s _ hw h =>
    obtain ⟨st, hkeys, ⟨rfl, -⟩ | ⟨-, hr⟩⟩ := h.keys nofun
    · intro k hk hst _
      rcases DB.mem_markKeys_cases (hkeys ▸ hk) with ⟨hk', hid⟩ | ⟨-, -, hst', -⟩
      · exact h.follows nofun hk' (by simpa using hid)
      · cases hst'.symm.trans hst
    · cases hr
  | @completed key s hw h =>
    obtain ⟨st, hkeys, -⟩ := h.keys nofun
    intro k hk hst hlc
    rcases DB.mem_markKeys_cases (hkeys ▸ hk) with ⟨hk', hid⟩ | ⟨hid, hlc', -, k₀, hk₀, hident⟩
    · exact h.follows nofun hk' (by simpa using hid)
    · -- the marked key has the identity of the waiting one
      obtain rfl : k₀ = key := DB.key_eq_of_id hk₀ hw.mem
          ((congrArg KeyIdent.id hident).trans (List.mem_singleton.1 hid))
      have ht : k₀.tenantID = k.tenantID := congrArg KeyIdent.tenantID hident
      have hof : ∀ {r : KeyVersion}, r.Of k ↔ r.Of k₀ := by
        intro r
        rw [KeyVersion.Of, KeyVersion.Of, ht, List.mem_singleton.1 hid]
      obtain ⟨_, hne⟩ | ⟨_, _, _, hv, heq⟩ := h.versions nofun
      · exact absurd rfl hne
      obtain ⟨kv, hh, hstate, hus, hrest⟩ := hv.highest
      have hkv : Highest _ k kv := ⟨heq ▸ hh.mem, (hof.2 ⟨hh.tenantID, hh.keyID⟩).1, (hof.2 ⟨hh.tenantID, hh.keyID⟩).2,
        fun r hr ht hid => hh.le r (heq ▸ hr) (hof.1 ⟨ht, hid⟩).1 (hof.1 ⟨ht, hid⟩).2⟩
      refine .settled hkv (hstate.trans hlc'.symm) hus fun r hr hr' hne hna hactive => ?_
      obtain ⟨hold, r', hrest'⟩ := hrest r (heq ▸ hr) (hof.1 hr') hne
      refine hT ⟨?_, k₀, hw.mem, hw.found, hw.state, hw.status, r, hold, hof.1 hr', hactive, r', hrest'⟩
      rw [← hw.state, ← hlc']
      exact hna
  | _ => exact SettledBefore.allFollow (settledBefore_of_keys rfl) rfl

/-! ## Runs -/

theorem step_allFollow (s : RootState) (op : Env × Op)
    (h : Deliveries (fun w task => ¬ task.LeavesVersion w) s op) : AllFollow s.world (step R s op).world := by
  refine step_world_rel_delivered (A := fun _ _ _ => True) (P := fun _ w w' => AllFollow w w')
    (fun _ _ => (settledBefore_of_keys rfl).allFollow rfl) (fun _ _ call _ => call.allFollow) ?_ ?_
    (fun _ _ _ _ _ _ hT heff => heff.allFollow hT) s op (fun _ _ => trivial) h
  · intro w e key result w' heff
    refine heff.settledBefore.allFollow ?_
    cases heff <;> rfl
  · intro w e key response w' heff
    refine heff.settledBefore.allFollow ?_
    cases heff <;> rfl

theorem lifecyclesConsistent_step (s : RootState) (op : Env × Op) (hI : LifecyclesConsistent s.world.db)
    (h : Deliveries (fun w task => ¬ task.LeavesVersion w) s op) : LifecyclesConsistent (step R s op).world.db := by
  refine ⟨fun k hk hst hlc => ?_, fun k hk hst hlc => ?_⟩
  · have hf := step_allFollow (R := R) s op h k hk hst (by rw [hlc]; decide)
    exact hf.inUse (fun hk => hI.active k hk hst hlc) hlc
  · have hf := step_allFollow (R := R) s op h k hk hst (by rcases hlc with hlc | hlc <;> rw [hlc] <;> decide)
    exact hf.outOfUse (fun hk => hI.inactive k hk hst hlc) (by rcases hlc with hlc | hlc <;> rw [hlc] <;> decide)

end

/-- **Keys and their versions agree.** In every run in which no suspend or deactivate task is delivered to a waiting key
that has an active version below another one, the highest version of every completed active key is active and usable,
and no version of a completed suspended or deactivated key is active. -/
theorem lifecycles_consistent (R : RootProcess) (ops : List (Env × Op))
    (h : Along (step R) (Deliveries fun w task => ¬ task.LeavesVersion w) .init ops) :
    LifecyclesConsistent (run (step R) .init ops).world.db :=
  run_inv lifecyclesConsistent_step ⟨fun _ hk => absurd hk List.not_mem_nil, fun _ hk => absurd hk List.not_mem_nil⟩ h

/-- A provider key of the root key is rotated. -/
def demoRotate : Env × Op := (demoEnv 0, .admin (.rotateProviderKey demoTenant (demoKey 1) (.staticSecret "key-2")))

def demoSuspend : List (Env × Op) := [demoAction .suspend 1 false] ++ demoRunJob 2 0

/-- The root key is suspended with its only version, and activated again and rotated later. -/
theorem demoSuspended_consistent :
    LifecyclesConsistent (run (step demo) .init (demoBound ++ demoSuspend)).world.db ∧
      LifecyclesConsistent (run (step demo) .init
        (demoBound ++ demoSuspend ++ [demoAction .activate 1 false] ++ demoRunJob 3 0 ++ [demoRotate])).world.db :=
  ⟨lifecycles_consistent demo _ (by decide +kernel), lifecycles_consistent demo _ (by decide +kernel)⟩

/-- Suspended after a rotation, the root key keeps an active version. -/
theorem rotated_version_stays_active :
    ¬ LifecyclesConsistent (run (step demo) .init (demoBound ++ [demoRotate] ++ demoSuspend)).world.db := by
  intro h
  obtain ⟨k, hk, hst, hlc, kv, hkv, hof, hactive⟩ :
      ∃ k ∈ (run (step demo) .init (demoBound ++ [demoRotate] ++ demoSuspend)).world.db.keys.rows,
        k.status = .completed ∧ k.lifeCycleState = .suspended ∧
          ∃ kv ∈ (run (step demo) .init (demoBound ++ [demoRotate] ++ demoSuspend)).world.db.keyVersions.rows,
            kv.Of k ∧ kv.lifeCycleState = .active := by decide +kernel
  exact h.inactive k hk hst (.inl hlc) kv hkv hof hactive

/-! ## Without rotations -/

/-- Every key has one version, its first. -/
def OnlyFirst (db : DB) : Prop := ∀ i, db.HasVersion i → i.version = 1 ∧ i.revision = 1

section
variable {R : RootProcess} {A : World → Env → AdminCall → Prop} {e : Env} {w w' : World}

theorem onlyFirst_change (hA : ∀ tenantID keyID key, ¬ A w e (.rotateProviderKey tenantID keyID key))
    (hc : Change R A e w w') (h : OnlyFirst w.db) : OnlyFirst w'.db := by
  intro i hi
  cases hc with
  | quiet hkvs => exact h i ((DB.hasVersion_congr hkvs).1 hi)
  | updated _ hu hkvs => exact h i (hu.hasVersion.1 ((DB.hasVersion_congr hkvs).1 hi))
  | derived hd hkvs _ | «sealed» hd hkvs _ =>
    rcases hd.inserted.hasVersion.1 ((DB.hasVersion_congr hkvs).1 hi) with hi | rfl
    · exact h i hi
    · exact ⟨rfl, rfl⟩
  | bound _ _ _ _ hins =>
    rcases hins.hasVersion.1 hi with hi | rfl
    · exact h i hi
    · exact ⟨hins.columns.1, hins.columns.2.1⟩
  | rotated hcall _ _ _ _ _ => exact absurd hcall (hA _ _ _)
  | _ => exact h i hi

theorem OnlyFirst.not_lingers {db : DB} (h : OnlyFirst db) (k : Key) : ¬ db.Lingers k := by
  rintro ⟨r, hr, -, -, r', hr', -, hbelow⟩
  have h₁ := h r.ident ⟨r, hr, rfl⟩
  have h₂ := h r'.ident ⟨r', hr', rfl⟩
  simp only [KeyVersion.ident] at h₁ h₂
  unfold KeyVersion.Below at hbelow
  omega

end

/-- In every run without a call of `RotateProviderKey` keys and versions agree. -/
theorem unrotated_consistent (R : RootProcess) (ops : List (Env × Op))
    (h : Along (step R) (Calls fun _ _ call => ∀ tenantID keyID key, call ≠ .rotateProviderKey tenantID keyID key)
      .init ops) : LifecyclesConsistent (run (step R) .init ops).world.db := by
  refine (run_inv (I := fun s : RootState => OnlyFirst s.world.db ∧ LifecyclesConsistent s.world.db) ?_
    ⟨fun _ hi => absurd hi.choose_spec.1 List.not_mem_nil, fun _ hk => absurd hk List.not_mem_nil,
      fun _ hk => absurd hk List.not_mem_nil⟩ h).2
  rintro s op ⟨hfirst, hI⟩ hc
  refine ⟨onlyFirst_change (fun t i key hA => hA t i key rfl) (step_change s op hc) hfirst,
    lifecyclesConsistent_step s op hI fun task _ hleaves => ?_⟩
  cases task with
  | announce key => exact hleaves
  | action a kid =>
    obtain ⟨-, k, -, -, -, -, hlingers⟩ := hleaves
    exact hfirst.not_lingers k hlingers

end Krypton
