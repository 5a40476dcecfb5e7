import Krypton.Registration

/-!
# Parent sealers of a deployment

Which managers the processes of a deployment start with, and whether the parent sealer of each of their processors can
serve the kind it is asked for. The root opens the vault of its root manager and starts its manager without connections
to other nodes; an agent registers with the root and starts with the connections it got from its registration.

* `start_root`, `start_agent` — when a process starts, and with which processors;
* `served_iff` — every parent seal has a server exactly when the configuration is `Wirable`.
-/

namespace Krypton

open Lib

/-! ## Processes -/

/-- A member of a deployment. -/
inductive Member where
  | root
  | agent (name : String)
  deriving DecidableEq, Repr

namespace RootConfig

/-- The vault of the root manager, which keeps the provider specs. -/
def newRootManager (cfg : RootConfig) (P : Process) : Except Err VaultLoc :=
  match cfg.rootKey with
  | none => .error errNilPointer
  | some rootKey => (rootKey.vault.getVault P).mapError (.context "root vault")

/-- The root's start-up as far as its manager. -/
def startRoot (cfg : RootConfig) (P : Process) : Except Err Manager := do
  let _ ← cfg.newRootManager P
  newManager (cfg.managerConfig P)

/-- The manager a process starts with; `none` when its start-up fails. An agent registers with the root, so it starts
after the root. -/
def start (cfg : RootConfig) (process : Member → Process) (instanceID : String) : Member → Option Manager
  | .root => (cfg.startRoot (process .root)).toOption
  | .agent name => (cfg.startRoot (process .root)).toOption.bind fun _ =>
      (cfg.register name instanceID).toOption.bind fun ac =>
        (newManager (ac.managerConfig (process (.agent name)))).toOption

/-- The bindings of a node. -/
def bindingsOf (cfg : RootConfig) : Member → Option KeyBindings
  | .root => some cfg.keyBindings
  | .agent name => (cfg.topology.getSegmentByName name).map TopologySegment.keyBindings

/-- The node behind a provider's name: a segment, or the root for the name `root`. -/
def providerNode (cfg : RootConfig) (name : String) : Option Member :=
  match cfg.topology.getSegmentByName name with
  | some _ => some (.agent name)
  | none => if name = "root" then some .root else none

end RootConfig

section
variable (cfg : RootConfig) (process : Member → Process) (instanceID : String)

/-- The sealer can serve a kind: the root manager serves the root role, any other kind is served by a manager that has a
processor for it, the processor's own or the one behind a connection. -/
def SealerServes (m : Manager) (sp : KeySpec) : SealerRef → Prop
  | .rootManager => sp.role = .root
  | .self => sp.role ≠ .root ∧ (m.processor sp.kind).isSome = true
  | .rpc name => sp.role ≠ .root ∧ ∃ node m', cfg.providerNode name = some node ∧
      cfg.start process instanceID node = some m' ∧ (m'.processor sp.kind).isSome = true

/-- The node starts, and the parent sealer of the kind serves the preceding kind. -/
def ParentServed (node : Member) (kind : String) : Prop :=
  ∃ m p, cfg.start process instanceID node = some m ∧ m.processor kind = some p ∧
    ∀ sp, cfg.hierarchy.findParentKeySpec kind = some sp → SealerServes cfg process instanceID m sp p.parent

/-- Every parent seal has a server. -/
def ParentsServed : Prop :=
  ∀ node bs kind binding sp, cfg.bindingsOf node = some bs → bs.get kind = some binding →
    cfg.hierarchy.findKeySpec kind = some sp → sp.role ≠ .root → ParentServed cfg process instanceID node kind

/-- The components of a binding can be built. -/
def ComponentsBuild (P : Process) (binding : KeyBinding) : Prop := ∃ proc, newProcessor P binding .self = .ok proc

/-- There is a kind whose parent seals need a server: an agent always has one. -/
def HasParentSeals : Prop :=
  cfg.topology.segments ≠ [] ∨
    ∃ kind b sp, cfg.keyBindings.get kind = some b ∧ cfg.hierarchy.findKeySpec kind = some sp ∧ sp.role ≠ .root

/-- What a configuration needs for its parent seals, beyond being accepted. -/
structure Wirable : Prop where
  /-- The root manager opens its vault. -/
  rootVault : HasParentSeals cfg → ∃ loc, cfg.newRootManager (process .root) = .ok loc
  /-- The root has no connections to a provider. -/
  root : ∀ kind b sp, cfg.keyBindings.get kind = some b → cfg.hierarchy.findKeySpec kind = some sp → sp.role ≠ .root →
    b.parentKeyProvider = none ∧ ComponentsBuild (process .root) b
  /-- An agent gets one connection. -/
  agent : ∀ seg ∈ cfg.topology.segments, cfg.OneProvider seg
  /-- No sealer service serves the root role. -/
  remote : ∀ seg ∈ cfg.topology.segments, ∀ kind b,
    seg.keyBindings.get kind = some b → b.parentKeyProvider.isSome = true →
    ∀ sp, cfg.hierarchy.findParentKeySpec kind = some sp → sp.role ≠ .root
  components : ∀ seg ∈ cfg.topology.segments, ∀ kind b, seg.keyBindings.get kind = some b →
    ComponentsBuild (process (.agent seg.name)) b

end

section
variable {cfg : RootConfig} {process : Member → Process} {instanceID : String}

/-! ## Processors -/

/-- Whether the components build does not depend on the parent. -/
theorem componentsBuild_iff {P : Process} {b : KeyBinding} (parent : SealerRef) :
    ComponentsBuild P b ↔ ∃ proc, newProcessor P b parent = .ok proc := by
  have hany : ∀ {parent parent' : SealerRef}, (∃ proc, newProcessor P b parent = .ok proc) →
      ∃ proc, newProcessor P b parent' = .ok proc := by
    rintro parent parent' ⟨proc, h⟩
    obtain ⟨c, hc, h⟩ := bind_eq_ok.1 h
    obtain ⟨v, hv, h⟩ := bind_eq_ok.1 h
    obtain ⟨t, ht, -⟩ := bind_eq_ok.1 h
    exact ⟨_, bind_eq_ok.2 ⟨c, hc, bind_eq_ok.2 ⟨v, hv, bind_eq_ok.2 ⟨t, ht, rfl⟩⟩⟩⟩
  exact ⟨hany, hany⟩

/-- The components of a binding build when its processor does. -/
theorem Builds.components {mc : ManagerConfig} {kind : String} {b : KeyBinding} {proc : Processor}
    (h : Builds mc kind b proc) : ComponentsBuild mc.process b := (componentsBuild_iff _).2 ⟨proc, h.built⟩

/-- A binding builds when its parent resolves and its components build. -/
theorem builds_of_components {mc : ManagerConfig} {kind : String} {b : KeyBinding} {sp : KeySpec} {ref : SealerRef}
    (hsp : mc.hierarchy.findKeySpec kind = some sp) (hrole : sp.role ≠ .root) (hp : resolveParent mc kind b = .ok ref)
    (hc : ComponentsBuild mc.process b) : ∃ proc, Builds mc kind b proc ∧ proc.parent = ref := by
  obtain ⟨proc, hproc⟩ := (componentsBuild_iff ref).1 hc
  exact ⟨proc, .mk' hsp hrole hp hproc, newProcessor_parent hproc⟩

/-- What a manager that was built says of one of its bindings. -/
theorem builds_of_newManager {mc : ManagerConfig} {m : Manager} (hm : newManager mc = .ok m) {kind : String}
    {b : KeyBinding} (hb : mc.bindings.get kind = some b) {sp : KeySpec} (hsp : mc.hierarchy.findKeySpec kind = some sp)
    (hrole : sp.role ≠ .root) : ∃ proc, Builds mc kind b proc ∧ m.processor kind = some proc := by
  obtain ⟨sp', hsp', hbuild⟩ := newManager_isOk.1 ⟨m, hm⟩ _ (KeyBindings.get_eq_some.1 hb)
  rw [hsp] at hsp'
  cases hsp'
  obtain ⟨proc, hproc⟩ := hbuild hrole
  exact ⟨proc, hproc, (processor_newManager hm).2 ⟨b, hb, hproc⟩⟩

/-- A manager is built when each binding is of a kind of the hierarchy, with a parent and components. -/
theorem newManager_of_bindings {mc : ManagerConfig} (h : ∀ kind b, mc.bindings.get kind = some b →
    ∃ sp, mc.hierarchy.findKeySpec kind = some sp ∧ (sp.role ≠ .root →
      (∃ ref, resolveParent mc kind b = .ok ref) ∧ ComponentsBuild mc.process b)) : ∃ m, newManager mc = .ok m := by
  refine newManager_isOk.2 fun p hp => ?_
  obtain ⟨sp, hsp, hrest⟩ := h p.1 p.2 (KeyBindings.get_eq_some.2 hp)
  refine ⟨sp, hsp, fun hrole => ?_⟩
  obtain ⟨⟨ref, href⟩, hc⟩ := hrest hrole
  obtain ⟨proc, hproc, -⟩ := builds_of_components hsp hrole href hc
  exact ⟨proc, hproc⟩

/-! ## Kinds of segments -/

theorem RootConfig.Accepted.root (hcfg : cfg.Accepted) : RootSegment cfg.hierarchy cfg.segment cfg.keyBindings :=
  rootSegment_of_validate hcfg.hierarchy hcfg.rootSegment

theorem RootConfig.Accepted.agent (hcfg : cfg.Accepted) {seg : TopologySegment} (hseg : seg ∈ cfg.topology.segments) :
    AgentSegment cfg.hierarchy seg.segment seg.keyBindings :=
  agentSegment_of_validate hcfg.hierarchy (hcfg.agentSegment seg hseg)

/-- The segment behind a provider has the kind it is asked for. -/
theorem provider_contains (hcfg : cfg.Accepted) {kind name : String} {b : KeyBinding} {sp : KeySpec}
    (hv : validateParentProvider cfg.hierarchy cfg.topology cfg.segment kind b = .ok ())
    (hb : b.parentKeyProvider = some name) (hp : cfg.hierarchy.findParentKeySpec kind = some sp) :
    (∃ seg ∈ cfg.topology.segments, seg.name = name ∧ cfg.providerNode name = some (.agent name) ∧
      cfg.hierarchy.segmentContains seg.segment sp.kind = true) ∨
    (cfg.providerNode name = some .root ∧ cfg.hierarchy.segmentContains cfg.segment sp.kind = true) := by
  unfold validateParentProvider at hv
  rw [hb] at hv
  dsimp only at hv
  unfold providerSegment at hv
  cases hget : cfg.topology.getSegmentByName name with
  | some seg =>
    obtain ⟨hseg, hname⟩ := getSegmentByName_mem hget
    obtain ⟨⟨start, hstart⟩, stop, hstop⟩ := (hcfg.agent hseg).ends
    simp only [hget, hp, hstart, hstop, check_eq_ok] at hv
    exact .inl ⟨seg, hseg, hname, by simp [RootConfig.providerNode, hget], hv⟩
  | none =>
    by_cases hroot : name = "root"
    · subst hroot
      obtain ⟨⟨start, hstart⟩, stop, hstop⟩ := hcfg.root.ends
      simp only [hget, hp, if_true, hstart, hstop, check_eq_ok] at hv
      exact .inr ⟨by simp [RootConfig.providerNode, hget], hv⟩
    · simp only [hget, hroot, if_false] at hv
      cases hv

/-- A manager has a processor for every kind of its segment that is not of root role. -/
theorem processor_isSome {mc : ManagerConfig} {m : Manager} (hm : newManager mc = .ok m) {seg : HierarchySegment}
    {exemptRoot : Bool} (hcov : Covers mc.hierarchy seg mc.bindings exemptRoot) {kind : String} {sp : KeySpec}
    (hc : mc.hierarchy.segmentContains seg kind = true) (hsp : mc.hierarchy.findKeySpec kind = some sp)
    (hrole : sp.role ≠ .root) : (m.processor kind).isSome = true := by
  obtain ⟨b, hb⟩ := hcov.bound kind sp hc hsp fun _ => hrole
  obtain ⟨proc, -, hproc⟩ := builds_of_newManager hm hb hsp hrole
  rw [hproc]
  rfl

/-! ## Start-up -/

theorem startRoot_eq_ok {P : Process} {m : Manager} : cfg.startRoot P = .ok m ↔
    (∃ loc, cfg.newRootManager P = .ok loc) ∧ newManager (cfg.managerConfig P) = .ok m := by
  rw [RootConfig.startRoot, bind_eq_ok]
  exact ⟨fun ⟨loc, hloc, hm⟩ => ⟨⟨loc, hloc⟩, hm⟩, fun ⟨⟨loc, hloc⟩, hm⟩ => ⟨loc, hloc, hm⟩⟩

theorem start_root {m : Manager} : cfg.start process instanceID .root = some m ↔
    (∃ loc, cfg.newRootManager (process .root) = .ok loc) ∧ newManager (cfg.managerConfig (process .root)) = .ok m :=
  toOption_eq_some.trans startRoot_eq_ok

/-- The manager configuration of an agent with these connections. -/
def RootConfig.agentManagerConfig (cfg : RootConfig) (seg : TopologySegment) (names : List String) (P : Process) :
    ManagerConfig :=
  ⟨P, seg.keyBindings, cfg.hierarchy, some names, false⟩

/-- Where a process starts, the root has started. -/
theorem start_rootManager {node : Member} {m : Manager} (h : cfg.start process instanceID node = some m) :
    ∃ loc, cfg.newRootManager (process .root) = .ok loc := by
  cases node with
  | root => exact (start_root.1 h).1
  | agent name =>
    obtain ⟨m', hm', -⟩ := Option.bind_eq_some_iff.1 h
    exact (startRoot_eq_ok.1 (toOption_eq_some.1 hm')).1

/-- An agent that starts has one connection, to one of its providers. -/
theorem start_agent (hcfg : cfg.Accepted) {seg : TopologySegment} (hseg : seg ∈ cfg.topology.segments)
    (hid : instanceID ≠ "") {m : Manager} (h : cfg.start process instanceID (.agent seg.name) = some m) :
    ∃ name names, cfg.hasConnection name = true ∧ (∀ n, n ∈ names ↔ n = name) ∧
      newManager (cfg.agentManagerConfig seg names (process (.agent seg.name))) = .ok m := by
  obtain ⟨ids, name, -, hreg⟩ := register_of_mem hcfg hseg hid
  obtain ⟨-, -, h⟩ := Option.bind_eq_some_iff.1 h
  obtain ⟨ac, hac, hm⟩ := Option.bind_eq_some_iff.1 h
  obtain ⟨ccs, hccs, rfl⟩ := (hreg ac).1 (toOption_eq_some.1 hac)
  exact ⟨name, ccs.map ConnectionConfig.name, byNames_single.1 ⟨ccs, hccs⟩, fun n => byNames_single_names hccs,
    toOption_eq_some.1 hm⟩

/-- An agent with one provider starts, after the root, when its manager is built with a connection to it. -/
theorem start_agent_of_oneProvider (hcfg : cfg.Accepted) {seg : TopologySegment} (hseg : seg ∈ cfg.topology.segments)
    (hid : instanceID ≠ "") {root : Manager} (hroot : cfg.startRoot (process .root) = .ok root)
    (hone : cfg.OneProvider seg)
    (h : ∀ names, (∀ p ∈ seg.keyBindings.entries, ∀ n, p.2.parentKeyProvider = some n → n ∈ names) →
      ∃ m, newManager (cfg.agentManagerConfig seg names (process (.agent seg.name))) = .ok m) :
    ∃ m, cfg.start process instanceID (.agent seg.name) = some m := by
  obtain ⟨ids, first, ⟨p₀, hp₀, hfirst⟩, hreg⟩ := register_of_mem hcfg hseg hid
  obtain ⟨name, hconn, hone⟩ := hone
  obtain rfl : first = name := hone p₀ hp₀ first hfirst
  obtain ⟨ccs, hccs⟩ := byNames_single.2 hconn
  obtain ⟨m, hm⟩ := h (ccs.map ConnectionConfig.name)
    fun p hp n hn => (byNames_single_names hccs).2 (hone p hp n hn)
  exact ⟨m, Option.bind_eq_some_iff.2 ⟨root, toOption_eq_some.2 hroot,
    Option.bind_eq_some_iff.2 ⟨_, toOption_eq_some.2 ((hreg _).2 ⟨ccs, hccs, rfl⟩), toOption_eq_some.2 hm⟩⟩⟩

/-! ## What a served configuration needs -/

/-- A binding with a provider is built with the connection of that name. -/
theorem Builds.rpc {mc : ManagerConfig} {kind name : String} {b : KeyBinding} {proc : Processor}
    (h : Builds mc kind b proc) (hb : b.parentKeyProvider = some name) (hne : name ≠ "") :
    proc.parent = .rpc name ∧ ∃ names, mc.registry = some names ∧ name ∈ names := by
  have hp := h.parent
  unfold resolveParent at hp
  rw [hb] at hp
  dsimp only at hp
  rw [if_pos hne] at hp
  obtain ⟨names, hnames, hmem, href⟩ := resolveRemoteParent_eq_ok.1 hp
  exact ⟨href, names, hnames, hmem⟩

/-- The kinds an agent has bindings for are of the hierarchy and not of root role. -/
theorem RootConfig.Accepted.agentKind (hcfg : cfg.Accepted) {seg : TopologySegment} (hseg : seg ∈ cfg.topology.segments)
    {kind : String} {b : KeyBinding} (hb : seg.keyBindings.get kind = some b) :
    ∃ sp, cfg.hierarchy.findKeySpec kind = some sp ∧ sp.role ≠ .root := by
  have hc := (hcfg.agent hseg).inside kind b hb
  obtain ⟨sp, hsp⟩ := findKeySpec_of_contains hcfg.hierarchy hc
  exact ⟨sp, hsp, (hcfg.agent hseg).role kind sp hc hsp⟩

theorem wirable_of_served (hcfg : cfg.Accepted) (hid : instanceID ≠ "") (h : ParentsServed cfg process instanceID) :
    Wirable cfg process := by
  -- every binding of an agent is served, by the agent's manager
  have hagent : ∀ seg ∈ cfg.topology.segments, ∀ kind b, seg.keyBindings.get kind = some b →
      ∃ sp, cfg.hierarchy.findKeySpec kind = some sp ∧ sp.role ≠ .root ∧
        ParentServed cfg process instanceID (.agent seg.name) kind := by
    intro seg hseg kind b hb
    obtain ⟨sp, hsp, hrole⟩ := hcfg.agentKind hseg hb
    refine ⟨sp, hsp, hrole, h (.agent seg.name) seg.keyBindings kind b sp ?_ hb hsp hrole⟩
    rw [RootConfig.bindingsOf, getSegmentByName_of_mem hcfg.segmentNames hseg]
    rfl
  refine ⟨fun hseals => ?_, fun kind b sp hb hsp hrole => ?_, fun seg hseg => ?_,
    fun seg hseg kind b hb hprov sp₀ hsp₀ => ?_, fun seg hseg kind b hb => ?_⟩
  · rcases hseals with hsegs | ⟨kind, b, sp, hb, hsp, hrole⟩
    · obtain ⟨seg, hseg⟩ := List.exists_mem_of_ne_nil _ hsegs
      obtain ⟨b₀, hb₀, -⟩ := (hcfg.agent hseg).provider
      obtain ⟨_, -, -, m, -, hm, -⟩ := hagent seg hseg _ b₀ hb₀
      exact start_rootManager hm
    · obtain ⟨m, -, hm, -⟩ := h .root _ kind b sp rfl hb hsp hrole
      exact start_rootManager hm
  · obtain ⟨m, -, hm, -⟩ := h .root _ kind b sp rfl hb hsp hrole
    obtain ⟨proc, hbuild, -⟩ := builds_of_newManager (start_root.1 hm).2 hb hsp hrole
    refine ⟨?_, hbuild.components⟩
    cases hp : b.parentKeyProvider with
    | none => rfl
    | some name =>
      have hne := provider_ne_empty hcfg (hcfg.rootProviders _ (KeyBindings.get_eq_some.1 hb)) hp
      obtain ⟨-, _, hreg, -⟩ := hbuild.rpc hp hne
      cases hreg
  · obtain ⟨b₀, hb₀, -⟩ := (hcfg.agent hseg).provider
    obtain ⟨_, -, -, m, -, hm, -⟩ := hagent seg hseg _ b₀ hb₀
    obtain ⟨name, names, hconn, hnames, hm⟩ := start_agent hcfg hseg hid hm
    refine ⟨name, hconn, fun p hp n hn => (hnames n).1 ?_⟩
    have hb : seg.keyBindings.get p.1 = some p.2 := KeyBindings.get_eq_some.2 hp
    obtain ⟨sp, hsp, hrole, -⟩ := hagent seg hseg p.1 p.2 hb
    obtain ⟨proc, hbuild, -⟩ := builds_of_newManager hm hb hsp hrole
    obtain ⟨-, _, hreg, hmem⟩ := hbuild.rpc hn (provider_ne_empty hcfg (hcfg.agentProviders seg hseg p hp) hn)
    cases hreg
    exact hmem
  · obtain ⟨name, hname⟩ := Option.isSome_iff_exists.1 hprov
    obtain ⟨sp, hsp, hrole, m, p, hm, hp, hserves⟩ := hagent seg hseg kind b hb
    obtain ⟨_, names, -, -, hm⟩ := start_agent hcfg hseg hid hm
    obtain ⟨proc, hbuild, hproc⟩ := builds_of_newManager hm hb hsp hrole
    rw [hp] at hproc
    cases hproc
    have hne := provider_ne_empty hcfg (hcfg.agentProviders seg hseg _ (KeyBindings.get_eq_some.1 hb)) hname
    have hs := hserves sp₀ hsp₀
    rw [(hbuild.rpc hname hne).1] at hs
    exact hs.1
  · obtain ⟨sp, hsp, hrole, m, -, hm, -⟩ := hagent seg hseg kind b hb
    obtain ⟨_, names, -, -, hm⟩ := start_agent hcfg hseg hid hm
    obtain ⟨proc, hbuild, -⟩ := builds_of_newManager hm hb hsp hrole
    exact hbuild.components

/-! ## What a wirable configuration gives -/

/-- The root of a wirable configuration starts. -/
theorem Wirable.start_root (hcfg : cfg.Accepted) (hw : Wirable cfg process) (hseals : HasParentSeals cfg) :
    ∃ m, cfg.startRoot (process .root) = .ok m ∧ newManager (cfg.managerConfig (process .root)) = .ok m := by
  suffices h : ∃ m, newManager (cfg.managerConfig (process .root)) = .ok m by
    obtain ⟨m, hm⟩ := h
    exact ⟨m, startRoot_eq_ok.2 ⟨hw.rootVault hseals, hm⟩, hm⟩
  refine newManager_of_bindings fun kind b hb => ?_
  obtain ⟨sp, hsp⟩ := findKeySpec_of_contains hcfg.hierarchy (hcfg.root.inside kind b hb)
  refine ⟨sp, hsp, fun hrole => ?_⟩
  obtain ⟨hprov, hcomp⟩ := hw.root kind b sp hb hsp hrole
  refine ⟨?_, hcomp⟩
  obtain ⟨_, p, -, -, hp⟩ := KeyHierarchy.exists_findParentKeySpec hcfg.hierarchy hsp hrole
  by_cases hr : p.role = .root
  · exact ⟨.rootManager, resolveParent_eq_ok.2 (.inr ⟨by simp [KeyBinding.hasRemoteParent, hprov],
      resolveLocalParent_eq_ok.2 ⟨p, hp, .inr ⟨hr, rfl, rfl⟩⟩⟩)⟩
  · exact ⟨.self, resolveParent_eq_ok.2 (.inr ⟨by simp [KeyBinding.hasRemoteParent, hprov],
      resolveLocalParent_eq_ok.2 ⟨p, hp, .inl ⟨hr, rfl⟩⟩⟩)⟩

/-- The kind before a kind without a provider is on the same agent. -/
theorem RootConfig.Accepted.localParent (hcfg : cfg.Accepted) {seg : TopologySegment}
    (hseg : seg ∈ cfg.topology.segments)
    {kind : String} {b : KeyBinding} (hb : seg.keyBindings.get kind = some b) (hprov : b.parentKeyProvider = none)
    {p : KeySpec} (hp : cfg.hierarchy.findParentKeySpec kind = some p) :
    cfg.hierarchy.segmentContains seg.segment p.kind = true ∧ p.role ≠ .root := by
  have hagent := hcfg.agent hseg
  have hc : cfg.hierarchy.segmentContains seg.segment p.kind = true := by
    refine segmentContains_parent hcfg.hierarchy (hagent.inside kind b hb) ?_ hp
    rintro rfl
    obtain ⟨b₀, hb₀, hp₀⟩ := hagent.provider
    rw [hb] at hb₀
    cases hb₀
    rw [hprov] at hp₀
    cases hp₀
  exact ⟨hc, hagent.role _ p hc (findKeySpec_of_parent hcfg.hierarchy hp)⟩

/-- The agents of a wirable configuration start. -/
theorem Wirable.start_agent (hcfg : cfg.Accepted) (hid : instanceID ≠ "") (hw : Wirable cfg process)
    {seg : TopologySegment} (hseg : seg ∈ cfg.topology.segments) :
    ∃ m, cfg.start process instanceID (.agent seg.name) = some m := by
  obtain ⟨root, hroot, -⟩ := hw.start_root hcfg (.inl (List.ne_nil_of_mem hseg))
  refine start_agent_of_oneProvider hcfg hseg hid hroot (hw.agent seg hseg) fun names hnames => ?_
  refine newManager_of_bindings fun kind b hb => ?_
  obtain ⟨sp, hsp, hrole⟩ := hcfg.agentKind hseg hb
  refine ⟨sp, hsp, fun _ => ⟨?_, hw.components seg hseg kind b hb⟩⟩
  cases hprov : b.parentKeyProvider with
  | some name =>
    have hmem := KeyBindings.get_eq_some.1 hb
    have hne := provider_ne_empty hcfg (hcfg.agentProviders seg hseg _ hmem) hprov
    exact ⟨.rpc name, resolveParent_eq_ok.2 (.inl ⟨name, hprov, hne,
      resolveRemoteParent_eq_ok.2 ⟨names, rfl, hnames _ hmem name hprov, rfl⟩⟩)⟩
  | none =>
    obtain ⟨_, p, -, -, hp⟩ := KeyHierarchy.exists_findParentKeySpec hcfg.hierarchy hsp hrole
    exact ⟨.self, resolveParent_eq_ok.2 (.inr ⟨by simp [KeyBinding.hasRemoteParent, hprov],
      resolveLocalParent_eq_ok.2 ⟨p, hp, .inl ⟨(hcfg.localParent hseg hb hprov hp).2, rfl⟩⟩⟩)⟩

/-- The node behind a provider has started, with a processor for the kind it is asked for. -/
theorem Wirable.provider (hcfg : cfg.Accepted) (hid : instanceID ≠ "") (hw : Wirable cfg process)
    (hseals : HasParentSeals cfg) {kind name : String} {b : KeyBinding} {sp : KeySpec}
    (hv : validateParentProvider cfg.hierarchy cfg.topology cfg.segment kind b = .ok ())
    (hb : b.parentKeyProvider = some name) (hp : cfg.hierarchy.findParentKeySpec kind = some sp)
    (hrole : sp.role ≠ .root) :
    ∃ node m, cfg.providerNode name = some node ∧ cfg.start process instanceID node = some m ∧
      (m.processor sp.kind).isSome = true := by
  have hsp := findKeySpec_of_parent hcfg.hierarchy hp
  rcases provider_contains hcfg hv hb hp with ⟨seg, hseg, rfl, hnode, hc⟩ | ⟨hnode, hc⟩
  · obtain ⟨m, hm⟩ := hw.start_agent hcfg hid hseg
    obtain ⟨_, names, -, -, hm'⟩ := Krypton.start_agent hcfg hseg hid hm
    exact ⟨_, m, hnode, hm, processor_isSome hm' (hcfg.agent hseg).toCovers hc hsp hrole⟩
  · obtain ⟨m, hm, hmgr⟩ := hw.start_root hcfg hseals
    exact ⟨_, m, hnode, toOption_eq_some.2 hm, processor_isSome hmgr hcfg.root.toCovers hc hsp hrole⟩

/-- On the root the parent of a kind is the root manager or the root's own manager. -/
theorem Wirable.served_root (hcfg : cfg.Accepted) (hw : Wirable cfg process) {kind : String} {b : KeyBinding}
    {sp : KeySpec} (hb : cfg.keyBindings.get kind = some b) (hsp : cfg.hierarchy.findKeySpec kind = some sp)
    (hrole : sp.role ≠ .root) : ParentServed cfg process instanceID .root kind := by
  obtain ⟨m, hstart, hm⟩ := hw.start_root hcfg (.inr ⟨kind, b, sp, hb, hsp, hrole⟩)
  obtain ⟨proc, hbuild, hproc⟩ := builds_of_newManager hm hb hsp hrole
  refine ⟨m, proc, toOption_eq_some.2 hstart, hproc, fun p hp => ?_⟩
  have hprov := (hw.root kind b sp hb hsp hrole).1
  obtain ⟨name, hname, -⟩ | ⟨-, hlocal⟩ := resolveParent_eq_ok.1 hbuild.parent
  · rw [hprov] at hname
    cases hname
  · obtain ⟨p', hp', h⟩ := resolveLocalParent_eq_ok.1 hlocal
    have hp' : cfg.hierarchy.findParentKeySpec kind = some p' := hp'
    rw [hp] at hp'
    cases hp'
    rcases h with ⟨hr, href⟩ | ⟨hr, -, href⟩ <;> rw [href]
    · refine ⟨hr, processor_isSome hm hcfg.root.toCovers ?_ (findKeySpec_of_parent hcfg.hierarchy hp) hr⟩
      -- the root's segment starts with the first kind, which has no kind before it
      refine segmentContains_parent hcfg.hierarchy (hcfg.root.inside kind b hb) ?_ hp
      rintro rfl
      rw [KeyHierarchy.findParentKeySpec, hcfg.root.first] at hp
      cases hp
    · exact hr

theorem Wirable.served_agent (hcfg : cfg.Accepted) (hid : instanceID ≠ "") (hw : Wirable cfg process)
    {seg : TopologySegment} (hseg : seg ∈ cfg.topology.segments) {kind : String} {b : KeyBinding}
    (hb : seg.keyBindings.get kind = some b) : ParentServed cfg process instanceID (.agent seg.name) kind := by
  obtain ⟨sp, hsp, hrole⟩ := hcfg.agentKind hseg hb
  obtain ⟨m, hm⟩ := hw.start_agent hcfg hid hseg
  obtain ⟨_, names, -, -, hm'⟩ := Krypton.start_agent hcfg hseg hid hm
  obtain ⟨proc, hbuild, hproc⟩ := builds_of_newManager hm' hb hsp hrole
  refine ⟨m, proc, hm, hproc, fun p hp => ?_⟩
  have hv := hcfg.agentProviders seg hseg _ (KeyBindings.get_eq_some.1 hb)
  cases hprov : b.parentKeyProvider with
  | some name =>
    have hr := hw.remote seg hseg kind b hb (by rw [hprov]; rfl) p hp
    rw [(hbuild.rpc hprov (provider_ne_empty hcfg hv hprov)).1]
    exact ⟨hr, hw.provider hcfg hid (.inl (List.ne_nil_of_mem hseg)) hv hprov hp hr⟩
  | none =>
    obtain ⟨hc, hr⟩ := hcfg.localParent hseg hb hprov hp
    obtain ⟨name, hname, -⟩ | ⟨-, hlocal⟩ := resolveParent_eq_ok.1 hbuild.parent
    · rw [hprov] at hname
      cases hname
    · obtain ⟨p', hp', ⟨-, href⟩ | ⟨-, h, -⟩⟩ := resolveLocalParent_eq_ok.1 hlocal
      · rw [href]
        exact ⟨hr, processor_isSome hm' (hcfg.agent hseg).toCovers hc (findKeySpec_of_parent hcfg.hierarchy hp) hr⟩
      · cases h

end

/-- **When every parent seal has a server.** With an accepted configuration, every node starts and the parent sealer of
each kind bound there serves the preceding kind, exactly when the configuration is wirable: the vault of the root
manager opens, the root's bindings have no provider, those of an agent one provider with a connection and none for a
kind below the root key, and all components can be built. -/
theorem served_iff (cfg : RootConfig) (hv : cfg.validate = .ok ()) (process : Member → Process) (instanceID : String)
    (hid : instanceID ≠ "") : ParentsServed cfg process instanceID ↔ Wirable cfg process := by
  have hcfg := RootConfig.accepted_of_validate hv
  refine ⟨wirable_of_served hcfg hid, fun hw node bs kind b sp hbs hb hsp hrole => ?_⟩
  cases node with
  | root =>
    cases hbs
    exact hw.served_root hcfg hb hsp hrole
  | agent name =>
    obtain ⟨seg, hget, rfl⟩ := Option.map_eq_some_iff.1 hbs
    obtain ⟨hseg, rfl⟩ := getSegmentByName_mem hget
    exact hw.served_agent hcfg hid hseg hb

theorem demo_wirable : Wirable demoConfig fun _ => demoProcess where
  rootVault _ := ⟨_, rfl⟩
  root kind b sp hb hsp hrole := by
    have hmem := KeyBindings.get_eq_some.1 hb
    simp only [demoConfig, List.mem_singleton, Prod.mk.injEq] at hmem
    obtain ⟨rfl, rfl⟩ := hmem
    exact ⟨rfl, _, rfl⟩
  agent seg hseg := by
    cases List.mem_singleton.1 hseg
    exact ⟨"root", by decide, by decide⟩
  remote seg hseg kind b hb hprov sp hsp := by
    cases List.mem_singleton.1 hseg
    have hmem := KeyBindings.get_eq_some.1 hb
    simp only [demoEdge, List.mem_cons, List.not_mem_nil, or_false, Prod.mk.injEq] at hmem
    rcases hmem with ⟨rfl, rfl⟩ | ⟨rfl, rfl⟩
    · cases hsp
      decide
    · cases hprov
  components seg hseg kind b hb := by
    cases List.mem_singleton.1 hseg
    have hmem := KeyBindings.get_eq_some.1 hb
    simp only [demoEdge, List.mem_cons, List.not_mem_nil, or_false, Prod.mk.injEq] at hmem
    rcases hmem with ⟨rfl, rfl⟩ | ⟨rfl, rfl⟩ <;> exact ⟨_, rfl⟩

theorem demo_parents_served : ParentsServed demoConfig (fun _ => demoProcess) "1" :=
  (served_iff demoConfig (by decide +kernel) _ "1" (by decide)).2 demo_wirable

/-- An agent right below the root key. -/
def demoShallow : RootConfig :=
  { demoConfig with
    hierarchy := ⟨"shallow", [demoKeySpec "rk" .root, demoKeySpec "tek" .tek, demoKeySpec "dek" .dek]⟩
    segment := ⟨"rk", "rk"⟩
    keyBindings := ⟨[("rk", ⟨some demoSealer, none, none, none⟩)], by decide⟩ }

/-- A root whose own key encryption keys name the root as their provider. -/
def demoSelfProvided : RootConfig :=
  { demoConfig with keyBindings := ⟨[("kek", ⟨none, some demoCryptor, some demoVault, some "root"⟩)], by decide⟩ }

/-- A root whose vault of provider specs is a file, without the file's path. -/
def demoSpecless : RootConfig :=
  { demoConfig with rootKey := some ⟨[.staticSecret], { demoVault with type := .unsafeFile, config := none }⟩ }

/-- All three configurations are accepted. The agent's parent sealer is the sealer service of the root, which does not
serve the root key; the root with a provider does not start, nor does the one whose vault has no configuration. -/
theorem parents_left_unserved :
    (demoShallow.validate = .ok () ∧ ¬ ParentsServed demoShallow (fun _ => demoProcess) "1") ∧
      (demoSelfProvided.validate = .ok () ∧
        demoSelfProvided.startRoot demoProcess = .error (.detail .registryRequired (quote "root"))) ∧
      demoSpecless.validate = .ok () ∧ demoSpecless.startRoot demoProcess =
        .error (.context "root vault" (errConfigType "*sqlitevault.FileConfig" "unsafe-sqlite" "<nil>")) := by
  have hv : demoShallow.validate = .ok () := by decide +kernel
  refine ⟨⟨hv, fun h => ?_⟩, ⟨by decide +kernel, rfl⟩, by decide +kernel, rfl⟩
  have hw := wirable_of_served (RootConfig.accepted_of_validate hv) (by decide) h
  exact hw.remote demoEdge List.mem_cons_self "tek" _ rfl rfl (demoKeySpec "rk" .root) rfl rfl

end Krypton
