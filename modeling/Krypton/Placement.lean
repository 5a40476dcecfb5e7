import Krypton.Forest
import Krypton.Processable

/-!
# Where the parent of a key lives

A node seals the secret of a key with the key's parent. It takes the parent from the provider that its binding of the
kind names, or from its own keys. `AnnounceKey` checks that the parent exists and is of the preceding kind, but not
which node manages it; with two agents for the same kinds, a key can be announced for one of them below a key of the
other.

* `RootConfig.parentNode` — the node that is asked for the parents of the keys of a kind;
* `seal_target` — the parent sealer of a processor leads to that node;
* `parents_at_home_iff` — all parents live where they are looked for, exactly when no announce was accepted with a
  parent that is managed elsewhere.
-/

namespace Krypton

open Lib

namespace RootConfig

/-- The name under which the keys of a node are managed. -/
def nodeName (cfg : RootConfig) : Member → String
  | .root => cfg.name
  | .agent name => name

/-- The node where the node behind `managedBy` looks for the parents of keys of a kind: the provider that its binding of
the kind names, else itself. -/
def parentNode (cfg : RootConfig) (managedBy kind : String) : String :=
  match (cfg.bindingsOf (cfg.memberOf managedBy)).bind fun bs => (bs.get kind).bind KeyBinding.parentKeyProvider with
  | some name => ((cfg.providerNode name).map cfg.nodeName).getD name
  | none => managedBy

/-- The node that a parent sealer on the node behind `managedBy` leads to. -/
def sealerNode (cfg : RootConfig) (managedBy : String) : SealerRef → String
  | .rpc name => ((cfg.providerNode name).map cfg.nodeName).getD name
  | .self | .rootManager => managedBy

end RootConfig

/-- Parents are managed by the nodes that are asked for them. -/
def ParentsAtHome (cfg : RootConfig) (db : DB) : Prop :=
  ∀ k p, db.HasKey k → db.HasKey p → k.parentID = some p.id → p.managedBy = cfg.parentNode k.managedBy k.kind

/-- The call is an announce that is accepted, with a parent that is managed elsewhere than where it will be looked
for. -/
def AdminCall.Misplaces (R : RootProcess) (w : World) (e : Env) : AdminCall → Prop
  | .announceKey req => (Krypton.announceKey R e req w).1.isOk = true ∧ ∃ p ∈ w.db.keys.rows,
      uuidIn req.parentID = some p.id ∧
        p.managedBy ≠ R.cfg.parentNode (if req.targetName = "" then R.cfg.name else req.targetName) req.kind
  | _ => False

instance (R : RootProcess) (w : World) (e : Env) : ∀ call, Decidable (AdminCall.Misplaces R w e call)
  | .announceKey _ => inferInstanceAs (Decidable (_ ∧ _))
  | .createTenant _ _ | .keyAction _ _ | .createProvider _ | .rotateAuth _ _ _ | .rotateProviderKey _ _ _
  | .removeProvider _ _ => inferInstanceAs (Decidable False)

/-! ## Parent sealers -/

/-- The providers of an accepted configuration have names. -/
theorem RootConfig.Accepted.provider_name {cfg : RootConfig} (hcfg : cfg.Accepted) {member : Member} {bs : KeyBindings}
    (hbs : cfg.bindingsOf member = some bs) {kind name : String} {b : KeyBinding} (hb : bs.get kind = some b)
    (hprov : b.parentKeyProvider = some name) : name ≠ "" := by
  cases member with
  | root =>
    cases hbs
    exact provider_ne_empty hcfg (hcfg.rootProviders _ (KeyBindings.get_eq_some.1 hb)) hprov
  | agent n =>
    obtain ⟨seg, hget, rfl⟩ := Option.map_eq_some_iff.1 hbs
    exact provider_ne_empty hcfg (hcfg.agentProviders seg (getSegmentByName_mem hget).1 _
      (KeyBindings.get_eq_some.1 hb)) hprov

/-- The parent sealer of a processor leads to the node that is asked for the parents. -/
theorem seal_target {cfg : RootConfig} (hcfg : cfg.Accepted) {m : Manager} {managedBy kind : String}
    (hm : cfg.ManagerAt m (cfg.memberOf managedBy)) {p : Processor} (hp : m.processor kind = some p) :
    cfg.sealerNode managedBy p.parent = cfg.parentNode managedBy kind := by
  obtain ⟨mc, hmc, hbs, -⟩ := hm.config
  obtain ⟨b, hb, hbuild⟩ := (processor_newManager hmc).1 hp
  unfold RootConfig.parentNode
  rw [hbs, Option.bind_some, hb, Option.bind_some]
  rcases resolveParent_eq_ok.1 hbuild.parent with ⟨name, hprov, -, hremote⟩ | ⟨hlocal, href⟩
  · obtain ⟨-, -, -, href⟩ := resolveRemoteParent_eq_ok.1 hremote
    rw [href, hprov]
    rfl
  · -- a local parent has no provider, since the name of a provider is never empty
    have hprov : b.parentKeyProvider = none := by
      cases hprov : b.parentKeyProvider with
      | none => rfl
      | some name =>
        have hne : name ≠ "" := hcfg.provider_name hbs hb hprov
        simp [KeyBinding.hasRemoteParent, hprov, hne] at hlocal
    rw [hprov]
    obtain ⟨_, -, ⟨-, href⟩ | ⟨-, -, href⟩⟩ := resolveLocalParent_eq_ok.1 href <;> rw [href] <;> rfl

/-! ## Steps -/

section
variable {R : RootProcess} {e : Env} {w w' : World} {db db' : DB}

/-- Keys stay, so a parent that is misplaced stays so. -/
theorem ParentsAtHome.anti {cfg : RootConfig} (h : ParentsAtHome cfg db') (hkeep : ∀ i, db.HasKey i → db'.HasKey i) :
    ParentsAtHome cfg db := fun k p hk hp hparent => h k p (hkeep k hk) (hkeep p hp) hparent

/-- The identity of the key that an accepted announce has stored, or found stored. -/
structure AnnouncedAs (R : RootProcess) (req : AnnounceKeyRequest) (db db' : DB) (K : KeyIdent) : Prop where
  stored : db'.HasKey K
  managedBy : K.managedBy = if req.targetName = "" then R.cfg.name else req.targetName
  kind : K.kind = req.kind
  parentID : ∀ pid, K.parentID = some pid ↔ uuidIn req.parentID = some pid
  others : ∀ i, db'.HasKey i → db.HasKey i ∨ i = K

theorem announcedParent_bind (R : RootProcess) (e : Env) (req : AnnounceKeyRequest) :
    (announcedKey R e req).parentID.bind uuidIn = uuidIn req.parentID := by
  simp only [announcedKey, newKey]
  split
  · rename_i hempty
    rw [hempty]
    decide
  · rfl

theorem AnnounceKeyEffect.announcedAs {req : AnnounceKeyRequest} {k : Key} {gs : List JobGroup}
    (h : AnnounceKeyEffect R e req w (.ok k, gs, w')) : ∃ K, AnnouncedAs R req w.db w'.db K := by
  cases h with
  | accepted _ _ _ hu =>
    cases hu with
    | @inserted row _ hi =>
      refine ⟨row.ident, ⟨row, hi.mem.2 (.inr rfl), rfl⟩, ?_, ?_, fun pid => ?_, ?_⟩
      · exact congrArg Key.managedBy hi.row_eq
      · exact congrArg Key.kind hi.row_eq
      · rw [← announcedParent_bind R e req, hi.parentID.1]
        rfl
      · rintro i ⟨r, hr, rfl⟩
        exact (hi.mem.1 hr).imp (fun hr => ⟨r, hr, rfl⟩) (congrArg Key.ident)
    | @adopted k₀ hk₀ hsame =>
      simp only [Key.isSame, Bool.and_eq_true, beq_iff_eq] at hsame
      obtain ⟨⟨⟨⟨hparent, -⟩, -⟩, hby⟩, hkind⟩ := hsame
      refine ⟨k₀.ident, DB.HasKey.markKeys ⟨k₀, hk₀, rfl⟩, hby, hkind, fun pid => ?_, ?_⟩
      · -- a stored parent is its own canonical text
        rw [← announcedParent_bind R e req, ← hparent]
        change k₀.parentID = some pid ↔ _
        cases hp : k₀.parentID with
        | none => exact Iff.rfl
        | some p =>
          have hcan : uuidIn p = some p := key_parent_canonical hk₀ hp
          rw [Option.bind_some, hcan]
      · rintro i ⟨r, hr, rfl⟩
        obtain ⟨r₀, hr₀, rfl⟩ := DB.mem_markKeys.1 hr
        exact .inl ⟨r₀, hr₀, DB.markKey_ident.symm⟩

/-- The parents of the keys of a forest are among its keys. -/
theorem Forest.parent_old {h : KeyHierarchy} (hf : Forest h db) (hkeep : ∀ i, db.HasKey i → db'.HasKey i)
    {k p : KeyIdent} (hk : db.HasKey k) (hp : db'.HasKey p) (hparent : k.parentID = some p.id) : db.HasKey p := by
  obtain ⟨q, hq, hid, -⟩ := (hf k hk).parent p.id hparent
  exact DB.eq_of_hasKey (hkeep q hq) hp hid ▸ hq

/-- With one more key, parents are at home when they were before and the new key's parent is. -/
theorem AnnouncedAs.at_home_iff {req : AnnounceKeyRequest} {K : KeyIdent} (h : AnnouncedAs R req db db' K)
    (hf : Forest R.cfg.hierarchy db') (hkeep : ∀ i, db.HasKey i → db'.HasKey i) (hhome : ParentsAtHome R.cfg db)
    (hold : Forest R.cfg.hierarchy db) :
    ParentsAtHome R.cfg db' ↔ ∀ p ∈ db.keys.rows, uuidIn req.parentID = some p.id →
      p.managedBy = R.cfg.parentNode (if req.targetName = "" then R.cfg.name else req.targetName) req.kind := by
  rw [← h.managedBy, ← h.kind]
  constructor
  · intro hhome' p hp hparse
    exact hhome' K p.ident h.stored (hkeep _ ⟨p, hp, rfl⟩) ((h.parentID p.id).2 hparse)
  · intro hnew k p hk hp hparent
    rcases h.others k hk with hk | rfl
    · exact hhome k p hk (hold.parent_old hkeep hk hp hparent) hparent
    · obtain ⟨q, hq, hid, ht, i, hi, hik⟩ := (hf k hk).parent p.id hparent
      -- the key is not its own parent: its parent is of another kind
      have hp' := DB.eq_of_hasKey hq hp hid
      subst hp'
      rcases h.others q hq with ⟨r, hr, rfl⟩ | rfl
      · exact hnew r hr ((h.parentID r.id).1 hparent)
      · rw [hi] at hik
        simp at hik

/-- Only announces add keys. -/
theorem step_keys_of_ne (s : RootState) (op : Env × Op) (hop : ∀ req, op.2 ≠ .admin (.announceKey req)) {k : KeyIdent}
    (hk : (step R s op).world.db.HasKey k) : s.world.db.HasKey k := by
  have hA : Calls (fun _ _ call => ∀ req, call ≠ .announceKey req) s op := by
    rintro call hcall req rfl
    cases hop' : op.2 with
    | admin call =>
      rw [hop'] at hcall
      cases hcall
      exact hop req hop'
    | _ =>
      rw [hop'] at hcall
      cases hcall
  obtain ⟨row, hrow, rfl⟩ := hk
  rcases step_growsKeysBy s op hA row hrow with hold | ⟨req, hreq, -⟩
  · exact hold
  · exact absurd rfl (hreq req)

/-- An announce keeps parents at home exactly when it does not misplace its own. -/
theorem announce_at_home_iff {req : AnnounceKeyRequest} (hold : Forest R.cfg.hierarchy w.db)
    (hf : Forest R.cfg.hierarchy (announceKey R e req w).2.2.db) (hhome : ParentsAtHome R.cfg w.db) :
    ¬ AdminCall.Misplaces R w e (.announceKey req) ↔ ParentsAtHome R.cfg (announceKey R e req w).2.2.db := by
  have heff : AnnounceKeyEffect R e req w (announceKey R e req w) := announceKey_effect
  simp only [AdminCall.Misplaces]
  generalize announceKey R e req w = out at heff hf ⊢
  obtain ⟨r, gs, w'⟩ := out
  cases r with
  | error err =>
    cases heff
    exact ⟨fun _ => hhome, fun _ h => by cases h.1⟩
  | ok k =>
    obtain ⟨K, hK⟩ := heff.announcedAs
    rw [hK.at_home_iff hf (fun i hi => heff.keeps hi) hhome hold]
    constructor
    · intro hmis p hp hparse
      by_contra hne
      exact hmis ⟨rfl, p, hp, hparse, hne⟩
    · rintro hgood ⟨-, p, hp, hparse, hne⟩
      exact hne (hgood p hp hparse)

/-- A step keeps parents at home exactly when it is not an announce that misplaces its parent. -/
theorem step_at_home_iff (s : RootState) (op : Env × Op) (hf : Forest R.cfg.hierarchy s.world.db)
    (hhome : ParentsAtHome R.cfg s.world.db) :
    Calls (fun w e call => ¬ call.Misplaces R w e) s op ↔ ParentsAtHome R.cfg (step R s op).world.db := by
  have hf' := forest_step s op hf
  obtain ⟨e, op⟩ := op
  by_cases hop : ∃ req, op = .admin (.announceKey req)
  · obtain ⟨req, rfl⟩ := hop
    refine Iff.trans ?_ (announce_at_home_iff hf hf' hhome)
    exact ⟨fun h => h _ rfl, fun h call hcall => by cases hcall; exact h⟩
  · have hkeys := fun k => step_keys_of_ne (R := R) s (e, op) (fun req h => hop ⟨req, h⟩) (k := k)
    refine ⟨fun _ => hhome.anti hkeys, fun _ call hcall hmis => ?_⟩
    cases call with
    | announceKey req =>
      cases op with
      | admin call =>
        cases hcall
        exact hop ⟨req, rfl⟩
      | _ => cases hcall
    | _ => exact hmis

end

/-- **Where parents live.** With an accepted configuration, every stored parent is managed by the node that is asked for
it, exactly when no announce of the run was accepted with a parent that is managed elsewhere. Parents that are at home
are where the parent sealers lead. -/
theorem parents_at_home_iff (R : RootProcess) (hv : R.cfg.validate = .ok ()) (ops : List (Env × Op)) :
    (Along (step R) (Calls fun w e call => ¬ call.Misplaces R w e) .init ops ↔
      ParentsAtHome R.cfg (worldAfter R ops).db) ∧
    (ParentsAtHome R.cfg (worldAfter R ops).db → ∀ k p,
      (worldAfter R ops).db.HasKey k → (worldAfter R ops).db.HasKey p →
      k.parentID = some p.id → ∀ m proc, R.cfg.ManagerAt m (R.cfg.memberOf k.managedBy) →
        m.processor k.kind = some proc → R.cfg.sealerNode k.managedBy proc.parent = p.managedBy) := by
  constructor
  · refine along_iff_run (I := fun s : RootState => ParentsAtHome R.cfg s.world.db)
      (J := fun s : RootState => Forest R.cfg.hierarchy s.world.db) forest_step step_at_home_iff
      (fun s op h => h.anti fun i hi => step_keeps op hi) ?_ ?_ ops
    · exact fun k hk => absurd hk.choose_spec.1 List.not_mem_nil
    · exact fun k _ hk => absurd hk.choose_spec.1 List.not_mem_nil
  · intro hhome k p hk hp hparent m proc hm hproc
    rw [seal_target (RootConfig.accepted_of_validate hv) hm hproc]
    exact (hhome k p hk hp hparent).symm

/-- The key encryption key of the small deployment is sealed where its root key is. -/
theorem demoKek_at_home : ParentsAtHome demoConfig (worldAfter demo demoKekAnnounced).db :=
  (parents_at_home_iff demo (by decide +kernel) demoKekAnnounced).1.1 (by decide +kernel)

/-- Two agents for the same kinds. -/
def demoPairConfig : RootConfig :=
  { demoConfig with
    topology := ⟨[demoEdge, { demoEdge with name := "far" }]⟩
    connections := demoConfig.connections ++ [⟨"far", .grpc, "localhost:3"⟩] }

def demoPair : RootProcess :=
  { demo with cfg := demoPairConfig, rootCfg := some demoPairConfig, registry := some ["root", "edge", "far"] }

/-- A transport key of one agent, and a data key of the other one below it. -/
def demoCrossed : List (Env × Op) :=
  demoKekAnnounced ++ [demoAnnounce 3 "tek" (demoKey 2) "edge", demoAnnounce 4 "dek" (demoKey 3) "far"]

/-- The data key looks for its parent on its own agent, which is not the one that manages it. -/
theorem parent_not_at_home : demoPair.cfg.validate = .ok () ∧
    ¬ ParentsAtHome demoPair.cfg (worldAfter demoPair demoCrossed).db := by
  refine ⟨by decide +kernel, fun h => ?_⟩
  obtain ⟨k, hk, p, hp, hparent, hne⟩ : ∃ k ∈ (worldAfter demoPair demoCrossed).db.keys.rows,
      ∃ p ∈ (worldAfter demoPair demoCrossed).db.keys.rows, k.parentID = some p.id ∧
        p.managedBy ≠ demoPair.cfg.parentNode k.managedBy k.kind := by decide +kernel
  exact hne (h k.ident p.ident ⟨k, hk, rfl⟩ ⟨p, hp, rfl⟩ hparent)

end Krypton
