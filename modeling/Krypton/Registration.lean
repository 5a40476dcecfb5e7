import Krypton.Deployment
import Krypton.KeyProcessor.Build

/-!
# Registration of agents

An agent asks the root for its configuration (`AgentService.Register`): the hierarchy, its segment, the identities it
may meet, and a connection to its parent. It builds its manager from that.

* `registerIdentities_isOk` — with an accepted configuration the identities are always found;
* `registers_iff` — an agent of an accepted configuration gets a connection to all of its parent key providers exactly
  when they are one node that has a connection entry under the provider's name.
-/

namespace Krypton

open Lib

/-! ## The configuration of an agent -/

structure AgentConfig where
  name : String
  keyBindings : KeyBindings
  connections : List ConnectionConfig
  identityConfigs : List IdentityConfig
  segment : HierarchySegment
  hierarchy : KeyHierarchy

def newAgentConfig (h : KeyHierarchy) (seg : TopologySegment) (identities : List IdentityConfig)
    (connections : List ConnectionConfig) : AgentConfig :=
  ⟨seg.name, seg.keyBindings, connections, identities, seg.segment, h⟩

/-- The manager configuration of an agent process: its connections, and no root manager. -/
def AgentConfig.managerConfig (ac : AgentConfig) (P : Process) : ManagerConfig where
  process := P
  bindings := ac.keyBindings
  hierarchy := ac.hierarchy
  registry := some (ac.connections.map ConnectionConfig.name)
  hasRootManager := false

/-- The loop of `ByNames`: the connections that are asked for, and the names left without one. -/
def byNamesFrom : List ConnectionConfig → List String → List ConnectionConfig × List String
  | [], filters => ([], filters)
  | c :: cs, filters =>
    if filters.contains c.name then
      let (res, rest) := byNamesFrom cs (filters.filter (· ≠ c.name))
      (c :: res, rest)
    else byNamesFrom cs filters

def byNames (cs : List ConnectionConfig) (agentNames : List String) : Except Err (List ConnectionConfig) := do
  check (!agentNames.isEmpty) (.detail .noConnectionConfig "no agent names provided")
  let (res, missing) := byNamesFrom cs agentNames
  check missing.isEmpty (.detail .noConnectionConfig ("for agents [" ++ " ".intercalate (missing.map quote) ++ "]"))
  return res

namespace Topology

/-- The provider of the first binding that has one. -/
def parentName (t : Topology) (agentName : String) : Option String :=
  t.segments.findSome? fun seg =>
    if seg.name = agentName then
      seg.keyBindings.entries.findSome? fun p => if p.2.hasRemoteParent then p.2.parentKeyProvider else none
    else none

/-- The segments with a binding whose provider is this agent. -/
def childrenNames (t : Topology) (parentAgent : String) : List String :=
  (t.segments.filter fun seg => seg.keyBindings.entries.any fun p => p.2.parentKeyProvider == some parentAgent).map
    TopologySegment.name

end Topology

/-- The loop of `AgentIdentities`: the identities of the names asked for, the names left, and whether the agent was
met. -/
def agentIdentitiesFrom (agentName : String) :
    List IdentityConfig → List String → Bool → List IdentityConfig × List String × Bool
  | [], cns, allowed => ([], cns, allowed)
  | id :: ids, cns, allowed =>
    let allowed := allowed || id.name == agentName
    if cns.contains id.name then
      let (res, rest, allowed) := agentIdentitiesFrom agentName ids (cns.filter (· ≠ id.name)) allowed
      (id :: res, rest, allowed)
    else agentIdentitiesFrom agentName ids cns allowed

namespace RootConfig

def agentIdentities (cfg : RootConfig) (agentName : String) : Except Err (List IdentityConfig) :=
  match cfg.auth with
  | none => .error (.detail .authConfigMissing "no auth config found in root config")
  | some auth => do
    let (res, missing, allowed) :=
      agentIdentitiesFrom agentName auth.identityConfigs (cfg.name :: cfg.topology.childrenNames agentName) false
    check allowed (.detail .agentNotAllowed (quote agentName ++ " is not allowed to connect to root"))
    check missing.isEmpty (.detail .identityConfigsMissing ("[" ++ " ".intercalate missing ++ "]"))
    return res

/-- How a registration fails; the errors behind it are only logged. -/
inductive RegisterError where
  | agentNameRequired | instanceIDRequired | notInTopology | noIdentities | noParent | noConnections
  deriving DecidableEq, Repr

def RegisterError.message : RegisterError → String
  | .agentNameRequired => "agent name is required"
  | .instanceIDRequired => "instance ID is required"
  | .notInTopology => "agent not found in topology"
  | .noIdentities => "failed to get agent identity configs"
  | .noParent => "parent agent not found in topology"
  | .noConnections => "failed to get connection configs"

/-- The identities for an agent; a root without authentication gives none. -/
def registerIdentities (cfg : RootConfig) (agentName : String) : Except Err (List IdentityConfig) :=
  if cfg.auth.isSome then cfg.agentIdentities agentName else .ok []

/-- `Register` up to the record of the registration. -/
def register (cfg : RootConfig) (agentName instanceID : String) : Except RegisterError AgentConfig := do
  check (agentName ≠ "") .agentNameRequired
  check (instanceID ≠ "") .instanceIDRequired
  match cfg.topology.getSegmentByName agentName with
  | none => .error .notInTopology
  | some seg => do
    let ids ← (cfg.registerIdentities agentName).mapError fun _ => .noIdentities
    match cfg.topology.parentName agentName with
    | none => .error .noParent
    | some parentName => do
      let ccs ← (byNames cfg.connections [parentName]).mapError fun _ => .noConnections
      return newAgentConfig cfg.hierarchy seg ids ccs

end RootConfig

/-! ## Lookups by name -/

/-- The names without an entry are those without one among the later entries, the first entry's name taken out. -/
theorem filter_missing_cons {α : Type} (name : α → String) (a : α) (as : List α) (l : List String) :
    (l.filter fun n => !((a :: as).any fun b => name b == n)) =
      (l.filter (· ≠ name a)).filter fun n => !(as.any fun b => name b == n) := by
  rw [List.filter_filter]
  refine List.filter_congr fun n _ => ?_
  by_cases hn : name a = n
  · simp [hn]
  · simp [hn, Ne.symm hn]

theorem filter_ne_of_not_contains {l : List String} {n : String} (h : ¬ l.contains n = true) :
    l.filter (· ≠ n) = l := by
  refine List.filter_eq_self.2 fun m hm => ?_
  simp only [ne_eq, decide_not, Bool.not_eq_eq_eq_not, Bool.not_true, decide_eq_false_iff_not]
  rintro rfl
  exact h (by simpa using hm)

/-- The names left by `ByNames` are those without a connection. -/
theorem byNamesFrom_missing (cs : List ConnectionConfig) (filters : List String) :
    (byNamesFrom cs filters).2 = filters.filter fun n => !(cs.any fun c => c.name == n) := by
  induction cs generalizing filters with
  | nil => simp [byNamesFrom]
  | cons c cs ih =>
    rw [byNamesFrom, filter_missing_cons ConnectionConfig.name]
    split
    · rw [ih]
    · rename_i hc
      rw [ih, filter_ne_of_not_contains hc]

/-- The connections found are the ones asked for. -/
theorem byNamesFrom_names {c : ConnectionConfig} : ∀ {cs : List ConnectionConfig} {filters : List String},
    c ∈ (byNamesFrom cs filters).1 → c.name ∈ filters
  | [], _, h => absurd h List.not_mem_nil
  | d :: cs, filters, h => by
    rw [byNamesFrom] at h
    split at h
    · rename_i hd
      rcases List.mem_cons.1 h with rfl | h
      · simpa using hd
      · exact List.mem_of_mem_filter (byNamesFrom_names h)
    · exact byNamesFrom_names h

/-- Every name asked for that has a connection is found. -/
theorem mem_byNamesFrom {name : String} : ∀ {cs : List ConnectionConfig} {filters : List String},
    name ∈ filters → (cs.any fun c => c.name == name) = true →
      name ∈ (byNamesFrom cs filters).1.map ConnectionConfig.name
  | [], _, _, h => by cases h
  | d :: cs, filters, hf, h => by
    rw [byNamesFrom]
    rw [List.any_cons, Bool.or_eq_true, beq_iff_eq] at h
    by_cases hd : d.name = name
    · rw [if_pos (by simpa [hd] using hf)]
      simp [hd]
    · have h := h.resolve_left hd
      split
      · exact List.mem_map.2 ((List.mem_map.1
          (mem_byNamesFrom (List.mem_filter.2 ⟨hf, by simpa using Ne.symm hd⟩) h)).imp
          fun _ h => ⟨List.mem_cons_of_mem _ h.1, h.2⟩)
      · exact mem_byNamesFrom hf h

/-- Asking for one name gives its connection, or fails without one. -/
theorem byNames_single {cs : List ConnectionConfig} {name : String} :
    (∃ res, byNames cs [name] = .ok res) ↔ (cs.any fun c => c.name == name) = true := by
  unfold byNames
  simp only [bind_unit_eq_ok, check_eq_ok, byNamesFrom_missing]
  by_cases h : (cs.any fun c => c.name == name) = true
  · simp only [h, iff_true]
    exact ⟨_, rfl, by simp [h], rfl⟩
  · simp [h]

theorem byNames_single_names {cs res : List ConnectionConfig} {name n : String} (h : byNames cs [name] = .ok res) :
    n ∈ res.map ConnectionConfig.name ↔ n = name := by
  have hany := byNames_single.1 ⟨res, h⟩
  unfold byNames at h
  simp only [bind_unit_eq_ok] at h
  obtain ⟨-, -, h⟩ := h
  cases h
  constructor
  · intro hn
    obtain ⟨c, hc, rfl⟩ := List.mem_map.1 hn
    exact List.mem_singleton.1 (byNamesFrom_names hc)
  · rintro rfl
    exact mem_byNamesFrom List.mem_cons_self hany

/-- What is left after the loop of `AgentIdentities`. -/
theorem agentIdentitiesFrom_rest (agentName : String) (ids : List IdentityConfig) (cns : List String) (allowed : Bool) :
    (agentIdentitiesFrom agentName ids cns allowed).2 =
      (cns.filter fun n => !(ids.any fun id => id.name == n), allowed || ids.any fun id => id.name == agentName) := by
  induction ids generalizing cns allowed with
  | nil => simp [agentIdentitiesFrom]
  | cons id ids ih =>
    rw [agentIdentitiesFrom, filter_missing_cons IdentityConfig.name, List.any_cons, ← Bool.or_assoc]
    dsimp only
    split
    · rw [ih]
    · rename_i hc
      rw [ih, filter_ne_of_not_contains hc]

section
variable {cfg : RootConfig} {seg : TopologySegment}

/-- The children of an agent are segments. -/
theorem mem_childrenNames {t : Topology} {parent name : String} (h : name ∈ t.childrenNames parent) :
    name ∈ t.segments.map TopologySegment.name := by
  obtain ⟨seg, hseg, rfl⟩ := List.mem_map.1 h
  exact List.mem_map_of_mem (List.mem_filter.1 hseg).1

/-- With an accepted configuration the identities of every agent are found. -/
theorem registerIdentities_isOk (hcfg : cfg.Accepted) (hseg : seg ∈ cfg.topology.segments) :
    ∃ ids, cfg.registerIdentities seg.name = .ok ids := by
  unfold RootConfig.registerIdentities
  cases hauth : cfg.auth with
  | none => exact ⟨[], rfl⟩
  | some auth =>
    have hids := hcfg.identities auth hauth
    rw [Option.isSome_some, if_pos rfl]
    unfold RootConfig.agentIdentities
    rw [hauth]
    simp only [bind_unit_eq_ok, check_eq_ok, agentIdentitiesFrom_rest]
    refine ⟨_, ?_, ?_, rfl⟩
    · obtain ⟨id, hid, hname⟩ := hids seg.name (List.mem_cons_of_mem _ (List.mem_map_of_mem hseg))
      simpa using ⟨id, hid, hname⟩
    · rw [List.isEmpty_iff, List.filter_eq_nil_iff]
      intro n hn
      obtain ⟨id, hid, hname⟩ := hids n (by
        rcases List.mem_cons.1 hn with rfl | hn
        · exact List.mem_cons_self
        · exact List.mem_cons_of_mem _ (mem_childrenNames hn))
      simpa using ⟨id, hid, hname⟩

/-! ## Parent key providers -/

/-- The provider of a binding of an accepted configuration has a name. -/
theorem provider_ne_empty (hcfg : cfg.Accepted) {kind name : String} {binding : KeyBinding}
    (hv : validateParentProvider cfg.hierarchy cfg.topology cfg.segment kind binding = .ok ())
    (hp : binding.parentKeyProvider = some name) : name ≠ "" := by
  rintro rfl
  unfold validateParentProvider at hv
  rw [hp] at hv
  have hnone : providerSegment cfg.topology cfg.segment "" = none := by
    unfold providerSegment
    cases hget : cfg.topology.getSegmentByName "" with
    | none => rfl
    | some seg =>
      obtain ⟨hseg, hname⟩ := getSegmentByName_mem hget
      exact absurd hname (hcfg.segmentName seg hseg)
  dsimp only at hv
  rw [hnone] at hv
  cases hv

/-- The providers that the bindings of a segment name. -/
def TopologySegment.Names (seg : TopologySegment) (name : String) : Prop :=
  ∃ p ∈ seg.keyBindings.entries, p.2.parentKeyProvider = some name

/-- An agent of an accepted configuration has a provider, and `ParentName` gives one of its providers. -/
theorem parentName_of_mem (hcfg : cfg.Accepted) (hseg : seg ∈ cfg.topology.segments) :
    ∃ name, cfg.topology.parentName seg.name = some name ∧ seg.Names name := by
  have hremote : ∀ p ∈ seg.keyBindings.entries,
      (if p.2.hasRemoteParent then p.2.parentKeyProvider else none) = p.2.parentKeyProvider := by
    intro p hp
    cases hprov : p.2.parentKeyProvider with
    | none => simp
    | some name =>
      have hne := provider_ne_empty hcfg (hcfg.agentProviders seg hseg p hp) hprov
      simp [KeyBinding.hasRemoteParent, hprov, hne]
  -- the start kind of an agent's segment has a provider
  obtain ⟨p, hp, name, hname⟩ : ∃ p ∈ seg.keyBindings.entries, ∃ name, p.2.parentKeyProvider = some name := by
    obtain ⟨b, hb, hprov⟩ := (agentSegment_of_validate hcfg.hierarchy (hcfg.agentSegment seg hseg)).provider
    obtain ⟨name, hname⟩ := Option.isSome_iff_exists.1 hprov
    exact ⟨_, KeyBindings.get_eq_some.1 hb, name, hname⟩
  have hfound : (seg.keyBindings.entries.findSome? fun p =>
      if p.2.hasRemoteParent then p.2.parentKeyProvider else none).isSome = true := by
    rw [List.findSome?_isSome_iff]
    exact ⟨p, hp, by rw [hremote p hp, hname]; rfl⟩
  obtain ⟨first, hfirst⟩ := Option.isSome_iff_exists.1 hfound
  refine ⟨first, ?_, ?_⟩
  · unfold Topology.parentName
    obtain ⟨l₁, l₂, hl⟩ := List.append_of_mem hseg
    rw [hl, List.findSome?_append, List.findSome?_cons, if_pos rfl, hfirst]
    rw [Option.or_eq_some_iff]
    -- no segment before this one has its name
    refine .inr ⟨List.findSome?_eq_none_iff.2 fun s hs => if_neg fun hn => ?_, rfl⟩
    have hnd := hcfg.segmentNames
    rw [hl, List.map_append, List.map_cons, List.nodup_append] at hnd
    exact hnd.2.2 _ (List.mem_map_of_mem hs) _ List.mem_cons_self hn
  · obtain ⟨q, hq, hq'⟩ := List.exists_of_findSome?_eq_some hfirst
    rw [hremote q hq] at hq'
    exact ⟨q, hq, hq'⟩

/-! ## Registrations -/

/-- The registration of an agent hands out the connection that its parent's name has, if there is one. -/
theorem register_of_mem (hcfg : cfg.Accepted) (hseg : seg ∈ cfg.topology.segments) {instanceID : String}
    (hid : instanceID ≠ "") : ∃ ids name, seg.Names name ∧ ∀ ac, cfg.register seg.name instanceID = .ok ac ↔
      ∃ ccs, byNames cfg.connections [name] = .ok ccs ∧ newAgentConfig cfg.hierarchy seg ids ccs = ac := by
  obtain ⟨ids, hids⟩ := registerIdentities_isOk hcfg hseg
  obtain ⟨name, hname, hnames⟩ := parentName_of_mem hcfg hseg
  refine ⟨ids, name, hnames, fun ac => ?_⟩
  unfold RootConfig.register
  simp only [bind_unit_eq_ok, check_eq_ok, decide_eq_true_eq, getSegmentByName_of_mem hcfg.segmentNames hseg,
    hids, hname]
  rw [and_iff_right (hcfg.segmentName seg hseg), and_iff_right hid, bind_eq_ok]
  constructor
  · rintro ⟨_, hok, h⟩
    cases hok
    obtain ⟨ccs, hccs, h⟩ := bind_eq_ok.1 h
    exact ⟨ccs, mapError_eq_ok.1 hccs, Except.ok.inj h⟩
  · rintro ⟨ccs, hccs, rfl⟩
    exact ⟨ids, rfl, bind_eq_ok.2 ⟨ccs, mapError_eq_ok.2 hccs, rfl⟩⟩

/-- The agent can register and start: it gets a configuration with a connection for every provider its bindings name,
and its manager never misses the connection of a parent. -/
def RootConfig.Registers (cfg : RootConfig) (seg : TopologySegment) (instanceID : String) : Prop :=
  ∃ ac, cfg.register seg.name instanceID = .ok ac ∧
    (∀ p ∈ ac.keyBindings.entries, ∀ name, p.2.parentKeyProvider = some name →
      name ∈ ac.connections.map ConnectionConfig.name) ∧
    ∀ P err, newManager (ac.managerConfig P) = .error err → err.is .parentNotRegistered = false

/-- All providers of the segment's bindings are one name, and it has a connection entry. -/
def RootConfig.OneProvider (cfg : RootConfig) (seg : TopologySegment) : Prop :=
  ∃ name, cfg.hasConnection name = true ∧ ∀ p ∈ seg.keyBindings.entries, ∀ n, p.2.parentKeyProvider = some n → n = name

end

/-- **When an agent can register.** With an accepted configuration, an agent of the topology gets a connection for each
of its parent key providers exactly when they are all one name and that name has a connection entry. -/
theorem registers_iff (cfg : RootConfig) (hv : cfg.validate = .ok ()) (seg : TopologySegment)
    (hseg : seg ∈ cfg.topology.segments) (instanceID : String) (hid : instanceID ≠ "") :
    cfg.Registers seg instanceID ↔ cfg.OneProvider seg := by
  obtain ⟨ids, first, ⟨p₀, hp₀, hfirst⟩, hreg⟩ := register_of_mem (RootConfig.accepted_of_validate hv) hseg hid
  constructor
  · rintro ⟨ac, hac, hconns, -⟩
    obtain ⟨ccs, hccs, rfl⟩ := (hreg ac).1 hac
    refine ⟨first, byNames_single.1 ⟨ccs, hccs⟩, fun p hp n hn => ?_⟩
    exact (byNames_single_names hccs).1 (hconns p hp n hn)
  · rintro ⟨name, hconn, hone⟩
    obtain rfl : first = name := hone p₀ hp₀ first hfirst
    obtain ⟨ccs, hccs⟩ := byNames_single.2 hconn
    have hconns : ∀ p ∈ seg.keyBindings.entries, ∀ n, p.2.parentKeyProvider = some n →
        n ∈ ccs.map ConnectionConfig.name :=
      fun p hp n hn => (byNames_single_names hccs).2 (hone p hp n hn)
    refine ⟨newAgentConfig cfg.hierarchy seg ids ccs, (hreg _).2 ⟨ccs, hccs, rfl⟩, hconns, fun P err herr => ?_⟩
    by_contra hp
    obtain ⟨p, hmem, n, hn, names, hnames, hnot⟩ := newManager_not_registered (by simpa using hp) herr
    cases hnames
    exact hnot (hconns p hmem n hn)

theorem demoEdge_registers : demoConfig.Registers demoEdge "1" :=
  (registers_iff demoConfig (by decide +kernel) demoEdge List.mem_cons_self "1" (by decide)).2
    ⟨"root", by decide, by decide⟩

/-- The small deployment with another name for its root. -/
def demoRenamed : RootConfig :=
  { demoConfig with name := "hq", connections := [⟨"hq", .grpc, "localhost:1"⟩, ⟨"edge", .grpc, "localhost:2"⟩] }

/-- An agent that takes its parent keys from the root and from another agent. -/
def demoForked : RootConfig :=
  { demoConfig with
    topology := ⟨[
      { demoEdge with keyBindings := ⟨[("tek", ⟨some demoSealer, some demoCryptor, some demoVault, some "root"⟩),
        ("dek", ⟨none, some demoCryptor, some demoVault, some "far"⟩)], by decide⟩ },
      { demoEdge with name := "far" }]⟩
    connections := demoConfig.connections ++ [⟨"far", .grpc, "localhost:3"⟩] }

/-- Both configurations are accepted. The root does not find a connection for the provider `root`, and an agent with two
providers gets the connection of one of them. -/
theorem agents_left_out :
    (demoRenamed.validate = .ok () ∧ demoRenamed.register "edge" "1" = .error .noConnections) ∧
      demoForked.validate = .ok () ∧ ∃ ac, demoForked.register "edge" "1" = .ok ac ∧
        newManager (ac.managerConfig demoProcess) = .error (.detail .parentNotRegistered (quote "far")) :=
  ⟨⟨by decide +kernel, rfl⟩, by decide +kernel, _, rfl, rfl⟩

end Krypton
