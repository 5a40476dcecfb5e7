import Krypton.Root
import Krypton.Wiring

/-!
# Keys that can be processed

A key that was announced is handled by the node it is managed by: the root for its own name, else the agent of that
name. That node draws the key's secret with a processor for its kind.

* `announced_bound` — the node of an announced key binds its kind, when no agent has the root's name;
* `announced_processable_iff` — it treats the kind as a root key or has a complete processor for it exactly when it
  binds the kind with a vault. Validation asks for a cryptor but not for a vault, and lets an agent have the root's
  name.
-/

namespace Krypton

open Lib

/-- The node that handles the keys managed under a name. -/
def RootConfig.memberOf (cfg : RootConfig) (managedBy : String) : Member :=
  if managedBy = cfg.name then .root else .agent managedBy

/-- A manager that `NewManager` gives for a node, in some process and with some connections. -/
def RootConfig.ManagerAt (cfg : RootConfig) (m : Manager) : Member → Prop
  | .root => ∃ P, newManager (cfg.managerConfig P) = .ok m
  | .agent name => ∃ seg names P, cfg.topology.getSegmentByName name = some seg ∧
      newManager (cfg.agentManagerConfig seg names P) = .ok m

/-- The kind has root role, or the manager has a processor for it with all that drawing a secret needs. -/
def Processable (cfg : RootConfig) (m : Manager) (kind : String) : Prop :=
  (∃ sp, cfg.hierarchy.findKeySpec kind = some sp ∧ sp.role = .root) ∨
    ∃ p, m.processor kind = some p ∧ p.cryptor.isSome = true ∧ p.vault.isSome = true

/-- The kind has root role, or the node binds it with a vault. -/
def BoundWithVault (cfg : RootConfig) (member : Member) (kind : String) : Prop :=
  (∃ sp, cfg.hierarchy.findKeySpec kind = some sp ∧ sp.role = .root) ∨
    ∃ bs b, cfg.bindingsOf member = some bs ∧ bs.get kind = some b ∧ b.vaultSpec.isSome = true

section
variable {cfg : RootConfig} {member : Member} {m : Manager} {kind : String}

/-! ## Components -/

theorem buildOption_isSome {α β : Type} {build : α → Except Err β} {o : Option α} {r : Option β}
    (h : buildOption build o = .ok r) : r.isSome = o.isSome := by
  cases o with
  | none =>
    cases h
    rfl
  | some a =>
    obtain ⟨b, -, rfl⟩ := map_eq_ok.1 h
    rfl

/-- A processor has the components its binding gives a spec for. -/
theorem newProcessor_components {P : Process} {b : KeyBinding} {ref : SealerRef} {proc : Processor}
    (h : newProcessor P b ref = .ok proc) :
    proc.cryptor.isSome = b.cryptorSpec.isSome ∧ proc.vault.isSome = b.vaultSpec.isSome := by
  obtain ⟨c, hc, h⟩ := bind_eq_ok.1 h
  obtain ⟨v, hv, h⟩ := bind_eq_ok.1 h
  obtain ⟨t, -, h⟩ := bind_eq_ok.1 h
  cases h
  exact ⟨buildOption_isSome hc, buildOption_isSome hv⟩

/-- A manager of a node is built from the node's bindings. -/
theorem RootConfig.ManagerAt.config (h : cfg.ManagerAt m member) : ∃ mc, newManager mc = .ok m ∧
    cfg.bindingsOf member = some mc.bindings ∧ mc.hierarchy = cfg.hierarchy := by
  cases member with
  | root =>
    obtain ⟨P, hm⟩ := h
    exact ⟨_, hm, rfl, rfl⟩
  | agent name =>
    obtain ⟨seg, names, P, hseg, hm⟩ := h
    exact ⟨_, hm, by simp [RootConfig.bindingsOf, hseg, RootConfig.agentManagerConfig], rfl⟩

/-- The bindings of a node have cryptors, but for kinds of root role. -/
theorem RootConfig.Accepted.cryptor (hcfg : cfg.Accepted) {bs : KeyBindings} (hbs : cfg.bindingsOf member = some bs)
    {b : KeyBinding} (hb : bs.get kind = some b) {sp : KeySpec} (hsp : cfg.hierarchy.findKeySpec kind = some sp)
    (hrole : sp.role ≠ .root) : b.cryptorSpec.isSome = true := by
  cases member with
  | root =>
    cases hbs
    exact hcfg.root.cryptor kind b sp hb hsp hrole
  | agent name =>
    obtain ⟨seg, hget, rfl⟩ := Option.map_eq_some_iff.1 hbs
    exact (hcfg.agent (getSegmentByName_mem hget).1).cryptor kind b hb

/-- On a node of an accepted configuration a kind of the hierarchy can be processed when it is bound with a vault. -/
theorem processable_iff (hcfg : cfg.Accepted) (hm : cfg.ManagerAt m member) {sp : KeySpec}
    (hsp : cfg.hierarchy.findKeySpec kind = some sp) : Processable cfg m kind ↔ BoundWithVault cfg member kind := by
  obtain ⟨mc, hmc, hbs, hhier⟩ := hm.config
  by_cases hrole : sp.role = .root
  · exact ⟨fun _ => .inl ⟨sp, hsp, hrole⟩, fun _ => .inl ⟨sp, hsp, hrole⟩⟩
  constructor
  · rintro (hroot | ⟨p, hp, -, hvault⟩)
    · exact .inl hroot
    · obtain ⟨b, hb, hbuild⟩ := (processor_newManager hmc).1 hp
      exact .inr ⟨mc.bindings, b, hbs, hb, (newProcessor_components hbuild.built).2 ▸ hvault⟩
  · rintro (hroot | ⟨bs, b, hbs', hb, hvault⟩)
    · exact .inl hroot
    · rw [hbs] at hbs'
      cases hbs'
      obtain ⟨proc, hbuild, hproc⟩ := builds_of_newManager hmc hb (hhier ▸ hsp) hrole
      obtain ⟨hc, hv⟩ := newProcessor_components hbuild.built
      exact .inr ⟨proc, hproc, hc.trans (hcfg.cryptor hbs hb hsp hrole), hv.trans hvault⟩

end

/-! ## Announced keys -/

section
variable {R : RootProcess} {e : Env} {req : AnnounceKeyRequest} {w w' : World} {k : Key} {gs : List JobGroup}

/-- The stored row of an announced key has the kind and the node of the request. -/
theorem AnnounceKeyEffect.stored (h : AnnounceKeyEffect R e req w (.ok k, gs, w')) {K : Key}
    (hK : K ∈ w'.db.keys.rows) (hid : uuidIn k.id = some K.id) :
    K.kind = req.kind ∧ K.managedBy = (announcedKey R e req).managedBy := by
  cases h with
  | accepted _ _ _ hu =>
    cases hu with
    | inserted hi =>
      rcases hi.mem.1 hK with hK | rfl
      · exact absurd (Option.some.inj (hid.symm.trans hi.id)) (hi.fresh K hK)
      · rw [hi.row_eq]
        exact ⟨rfl, rfl⟩
    | @adopted k₀ hk₀ hsame =>
      obtain ⟨K₀, hK₀, rfl⟩ := DB.mem_markKeys.1 hK
      have hident : (DB.markKey [k₀.id] (announcedKey R e req).lifeCycleState
          (announcedKey R e req).status e.now K₀).ident = K₀.ident := DB.markKey_ident
      have hid : k₀.id = K₀.id := by
        rw [DB.markKey_id] at hid
        exact Option.some.inj ((DB.key_canonical hk₀).1.symm.trans hid)
      obtain rfl : k₀ = K₀ := DB.key_eq_of_id hk₀ hK₀ hid
      simp only [Key.isSame, Bool.and_eq_true, beq_iff_eq] at hsame
      exact ⟨(congrArg KeyIdent.kind hident).trans hsame.2, (congrArg KeyIdent.managedBy hident).trans hsame.1.2⟩

/-- An accepted announce is for a kind of the segment of its target. -/
theorem AnnounceKeyEffect.target (h : AnnounceKeyEffect R e req w (.ok k, gs, w')) :
    (req.targetName = "" ∧ R.cfg.hierarchy.segmentContains R.cfg.segment req.kind = true) ∨
      req.targetName ≠ "" ∧ ∃ seg ∈ R.cfg.topology.segments, seg.name = req.targetName ∧
        R.cfg.hierarchy.segmentContains seg.segment req.kind = true := by
  cases h with
  | accepted hreq _ _ _ => exact Validator.validateKeyAnnounceRequest_target hreq

theorem AnnounceKeyEffect.kind (hcfg : R.cfg.Accepted) (h : AnnounceKeyEffect R e req w (.ok k, gs, w')) :
    ∃ sp, R.cfg.hierarchy.findKeySpec req.kind = some sp := by
  rcases h.target with ⟨-, hc⟩ | ⟨-, _, -, -, hc⟩ <;> exact findKeySpec_of_contains hcfg.hierarchy hc

/-- When no agent has the root's name, the node of an announced key binds its kind, but for kinds of root role. -/
theorem announced_bound (hcfg : R.cfg.Accepted) (hnames : ∀ seg ∈ R.cfg.topology.segments, seg.name ≠ R.cfg.name)
    (h : AnnounceKeyEffect R e req w (.ok k, gs, w')) {K : Key} (hK : K ∈ w'.db.keys.rows)
    (hid : uuidIn k.id = some K.id) {sp : KeySpec} (hsp : R.cfg.hierarchy.findKeySpec K.kind = some sp)
    (hrole : sp.role ≠ .root) :
    ∃ bs b, R.cfg.bindingsOf (R.cfg.memberOf K.managedBy) = some bs ∧ bs.get K.kind = some b := by
  obtain ⟨hkind, hmanaged⟩ := h.stored hK hid
  rw [hkind] at hsp ⊢
  rw [hmanaged]
  simp only [announcedKey, newKey]
  rcases h.target with ⟨htarget, hc⟩ | ⟨htarget, seg, hseg, hname, hc⟩
  · obtain ⟨b, hb⟩ := hcfg.root.bound _ sp hc hsp fun _ => hrole
    rw [if_pos htarget, RootConfig.memberOf, if_pos rfl]
    exact ⟨_, b, rfl, hb⟩
  · obtain ⟨b, hb⟩ := (hcfg.agent hseg).bound _ sp hc hsp nofun
    rw [if_neg htarget, RootConfig.memberOf, ← hname, if_neg (hnames seg hseg)]
    exact ⟨_, b, by rw [RootConfig.bindingsOf, getSegmentByName_of_mem hcfg.segmentNames hseg]; rfl, hb⟩

end

/-- **When an announced key can be processed.** With an accepted configuration, the node that a stored key of an
accepted announce is managed by has root role for its kind or a complete processor, exactly when it binds the kind with
a vault. -/
theorem announced_processable_iff (R : RootProcess) (hv : R.cfg.validate = .ok ()) (e : Env) (req : AnnounceKeyRequest)
    (w w' : World) (k : Key) (gs : List JobGroup) (h : announceKey R e req w = (.ok k, gs, w')) (K : Key)
    (hK : K ∈ w'.db.keys.rows) (hid : uuidIn k.id = some K.id) (m : Manager)
    (hm : R.cfg.ManagerAt m (R.cfg.memberOf K.managedBy)) :
    Processable R.cfg m K.kind ↔ BoundWithVault R.cfg (R.cfg.memberOf K.managedBy) K.kind := by
  have heff : AnnounceKeyEffect R e req w (.ok k, gs, w') := h ▸ announceKey_effect
  have hcfg := RootConfig.accepted_of_validate hv
  obtain ⟨sp, hsp⟩ := heff.kind hcfg
  rw [← (heff.stored hK hid).1] at hsp
  exact processable_iff hcfg hm hsp

/-- A tenant with a root key that waits for its activation. -/
def demoRootAnnounced : List (Env × Op) := [demoCreateTenant, demoAnnounce 1 "rk" "" ""] ++ demoRunJob 0 0

def demoKekRequest : AnnounceKeyRequest := ⟨demoTenant, "kek", "kek", demoKey 1, "", []⟩

theorem demoKek_processable : ∃ k gs w',
    announceKey demo (demoEnv 2) demoKekRequest (worldAfter demo demoRootAnnounced) =
    (.ok k, gs, w') ∧ ∃ K ∈ w'.db.keys.rows, K.kind = "kek" ∧ Processable demoConfig demoManager K.kind := by
  obtain ⟨k, hk⟩ := exists_of_isOk (x := (announceKey demo (demoEnv 2) demoKekRequest
    (worldAfter demo demoRootAnnounced)).1) (by decide +kernel)
  obtain ⟨K, hK, hid, hkind, hby⟩ : ∃ K ∈ (announceKey demo (demoEnv 2) demoKekRequest
      (worldAfter demo demoRootAnnounced)).2.2.db.keys.rows,
        ((announceKey demo (demoEnv 2) demoKekRequest (worldAfter demo demoRootAnnounced)).1.toOption.bind
          fun k => uuidIn k.id) = some K.id ∧ K.kind = "kek" ∧ K.managedBy = "root" := by decide +kernel
  rw [hk] at hid
  refine ⟨k, _, _, Prod.ext hk rfl, K, hK, hkind, ?_⟩
  refine (announced_processable_iff demo (by decide +kernel) (demoEnv 2) demoKekRequest
    (worldAfter demo demoRootAnnounced) _ k _ (Prod.ext hk rfl) K hK hid demoManager ?_).2 ?_
  · rw [hby]
    exact ⟨demoProcess, rfl⟩
  · rw [hby, hkind]
    exact .inr ⟨_, _, rfl, rfl, rfl⟩

/-- No vault for the key encryption keys. -/
def demoVaultlessConfig : RootConfig :=
  { demoConfig with keyBindings := ⟨[("kek", ⟨none, some demoCryptor, none, none⟩)], by decide⟩ }

def demoVaultless : RootProcess :=
  { demo with
    cfg := demoVaultlessConfig
    rootCfg := some demoVaultlessConfig
    manager := some ⟨[("kek", ⟨some .aes256gcm, none, none, .rootManager⟩)]⟩ }

/-- The root is named like its agent. -/
def demoTwinConfig : RootConfig := { demoConfig with name := "edge", connections := [⟨"edge", .grpc, "localhost:1"⟩] }

def demoTwin : RootProcess :=
  { demo with cfg := demoTwinConfig, rootCfg := some demoTwinConfig, registry := some ["edge"] }

/-- A key encryption key is announced below the root key. -/
def demoKekAnnounced : List (Env × Op) := demoRootAnnounced ++ [demoAnnounce 2 "kek" (demoKey 1) ""] ++ demoRunJob 1 0

def demoTekRequest : AnnounceKeyRequest := ⟨demoTenant, "tek", "tek", demoKey 2, "edge", []⟩

/-- Both configurations are accepted and give their nodes a manager. The processor for the announced `kek` has no vault;
and the key announced for the agent is handled by the root, which has no processor for it. -/
theorem announced_not_processable :
    (demoVaultless.cfg.validate = .ok () ∧ ∃ m, demoVaultless.cfg.ManagerAt m (demoVaultless.cfg.memberOf "root") ∧
      (announceKey demoVaultless (demoEnv 2) demoKekRequest (worldAfter demoVaultless demoRootAnnounced)).1.isOk =
        true ∧ ¬ Processable demoVaultless.cfg m "kek") ∧
    demoTwin.cfg.validate = .ok () ∧ ∃ m, demoTwin.cfg.ManagerAt m (demoTwin.cfg.memberOf "edge") ∧
      (announceKey demoTwin (demoEnv 3) demoTekRequest (worldAfter demoTwin demoKekAnnounced)).1.isOk = true ∧
        ¬ Processable demoTwin.cfg m "tek" := by
  refine ⟨⟨by decide +kernel, ⟨[("kek", ⟨some .aes256gcm, none, none, .rootManager⟩)]⟩, ⟨demoProcess, rfl⟩,
    by decide +kernel, ?_⟩, by decide +kernel, demoManager, ⟨demoProcess, rfl⟩, by decide +kernel, ?_⟩
  · rintro (⟨sp, hsp, hrole⟩ | ⟨p, hp, -, hvault⟩)
    · cases hsp
      cases hrole
    · cases hp
      cases hvault
  · rintro (⟨sp, hsp, hrole⟩ | ⟨p, hp, -, -⟩)
    · cases hsp
      cases hrole
    · cases hp

end Krypton
