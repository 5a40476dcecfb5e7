import Krypton.Config.Auth
import Krypton.Spec.Topology

/-!
# Root configuration

`RootConfig` and its validation (`internal/config`); the block for KMIP is not part of it.

* `RootConfig.Accepted`, `RootConfig.accepted_of_validate` — what an accepted configuration satisfies, by name.
-/

namespace Krypton

open Lib

inductive AddressType where
  | grpc
  | other (name : String)
  deriving DecidableEq, Repr

structure ConnectionConfig where
  name : String
  addressType : AddressType
  url : String
  deriving DecidableEq, Repr

structure RootKeySpec where
  allowedProviders : List SealerType
  vault : VaultSpec
  deriving DecidableEq, Repr

inductive ConfigRole where
  | root | agent
  | other (name : String)
  deriving DecidableEq, Repr

structure RootConfig where
  name : String
  role : ConfigRole
  segment : HierarchySegment
  rootKey : Option RootKeySpec
  keyBindings : KeyBindings
  hierarchy : KeyHierarchy
  topology : Topology
  connections : List ConnectionConfig
  auth : Option RootAuthConfig := none

/-! ## Validation -/

def RootKeySpec.validate (s : RootKeySpec) : Except Err Unit := do
  check (!s.allowedProviders.isEmpty) (.of .rootKeyNoProviders)
  checkAll (fun p => p.validate.mapError (.wrap .rootKeyUnknownProvider)) s.allowedProviders
  s.vault.validate.mapError (.context "vault")

def ConnectionConfig.validate (c : ConnectionConfig) : Except Err Unit := do
  check (c.name ≠ "") (.detail .invalidConnectionConfig "name cannot be empty")
  check (c.addressType = .grpc) (.wrap .invalidConnectionConfig (.of .addressTypeInvalid))
  check (c.url ≠ "") (.wrap .invalidConnectionConfig (.of .configAddressEmpty))

/-- Each connection is well formed and its name is new. -/
def validateConnections : List String → List ConnectionConfig → Except Err Unit
  | _, [] => .ok ()
  | seen, c :: cs => do
    c.validate
    check (!seen.contains c.name) (.detail .invalidConnectionConfig ("duplicate name " ++ quote c.name))
    validateConnections (c.name :: seen) cs

namespace RootConfig

def hasConnection (cfg : RootConfig) (name : String) : Bool := cfg.connections.any fun c => c.name == name

def connectionsValidate (cfg : RootConfig) : Except Err Unit := do
  validateConnections [] cfg.connections
  checkAll (fun seg => check (cfg.hasConnection seg.name)
    (.detail .invalidConnectionConfig ("no connection config for segment " ++ quote seg.name))) cfg.topology.segments
  check (cfg.hasConnection cfg.name)
    (.detail .invalidConnectionConfig ("no connection config for root " ++ quote cfg.name))

def authValidate (cfg : RootConfig) : Except Err Unit :=
  match cfg.auth with
  | none => .ok ()
  | some auth => do
    auth.validate.mapError (.context "auth")
    (validateAuthIdentities auth.identityConfigs (cfg.name :: cfg.topology.segments.map TopologySegment.name)).mapError
      (.context "auth identities")

def validate (cfg : RootConfig) : Except Err Unit := do
  check (cfg.name ≠ "") (.of .configNameEmpty)
  check (cfg.role = .root) (.detail .roleInvalid ("must be " ++ quote "root"))
  cfg.hierarchy.validate.mapError (.context "hierarchy")
  cfg.topology.validate.mapError (.context "topology")
  cfg.segment.validate.mapError (.context "segment")
  check (!cfg.keyBindings.entries.isEmpty) (.of .configKeyBindingsEmpty)
  match cfg.rootKey with
  | none => .error (.of .rootKeyMissing)
  | some rootKey => do
    rootKey.validate.mapError (.context "root key")
    (validateRootSegment cfg.hierarchy cfg.segment cfg.keyBindings).mapError (.context "root segment")
    (validateTopologyAgainstHierarchy cfg.hierarchy cfg.topology cfg.segment cfg.keyBindings).mapError
      (.context "topology")
    cfg.authValidate
    cfg.connectionsValidate.mapError (.context "connections")

/-! ## Accepted configurations -/

/-- What an accepted configuration satisfies. -/
structure Accepted (cfg : RootConfig) : Prop where
  name : cfg.name ≠ ""
  hierarchy : cfg.hierarchy.validate = .ok ()
  segmentName : ∀ seg ∈ cfg.topology.segments, seg.name ≠ ""
  segmentNames : (cfg.topology.segments.map TopologySegment.name).Nodup
  rootSegment : validateRootSegment cfg.hierarchy cfg.segment cfg.keyBindings = .ok ()
  agentSegment : ∀ seg ∈ cfg.topology.segments, validateAgentSegment cfg.hierarchy seg.segment seg.keyBindings = .ok ()
  rootProviders : ∀ p ∈ cfg.keyBindings.entries,
    validateParentProvider cfg.hierarchy cfg.topology cfg.segment p.1 p.2 = .ok ()
  agentProviders : ∀ seg ∈ cfg.topology.segments, ∀ p ∈ seg.keyBindings.entries,
    validateParentProvider cfg.hierarchy cfg.topology cfg.segment p.1 p.2 = .ok ()
  connections : ∀ seg ∈ cfg.topology.segments, cfg.hasConnection seg.name = true
  rootConnection : cfg.hasConnection cfg.name = true
  identities : ∀ auth ∈ cfg.auth, ∀ name ∈ cfg.name :: cfg.topology.segments.map TopologySegment.name,
    ∃ id ∈ auth.identityConfigs, id.name = name

theorem accepted_of_validate {cfg : RootConfig} (h : cfg.validate = .ok ()) : cfg.Accepted := by
  unfold validate at h
  simp only [bind_unit_eq_ok, mapError_eq_ok, check_eq_ok, decide_eq_true_eq] at h
  obtain ⟨hname, -, hh, ht, -, -, h⟩ := h
  cases hrk : cfg.rootKey with
  | none =>
    rw [hrk] at h
    cases h
  | some rootKey =>
    rw [hrk] at h
    simp only [bind_unit_eq_ok, mapError_eq_ok] at h
    obtain ⟨-, hroot, htop, hauth, hconn⟩ := h
    have htop := Topology.accepted_of_validate htop
    simp only [connectionsValidate, bind_unit_eq_ok, checkAll_eq_ok, check_eq_ok] at hconn
    obtain ⟨-, hconns, hrootConn⟩ := hconn
    refine ⟨hname, hh, fun seg hseg => ?_, htop.names, hroot, htop.agentSegment, htop.rootProviders,
      htop.agentProviders, hconns, hrootConn, fun auth hauth' name hn => ?_⟩
    · obtain ⟨i, hi⟩ := mem_zip_range hseg
      simp only [Topology.validate, checkAll_eq_ok, mapError_eq_ok] at ht
      have := ht _ hi
      simp only [TopologySegment.validate, bind_unit_eq_ok, check_eq_ok, decide_eq_true_eq] at this
      exact this.1
    · rw [authValidate, Option.mem_def.1 hauth'] at hauth
      simp only [bind_unit_eq_ok, mapError_eq_ok] at hauth
      exact validateAuthIdentities_ok hauth.2 name hn

end RootConfig

end Krypton
