import Krypton.Orchestrator.Task

/-!
# Start-up

What `cmd/root` builds from an accepted configuration: the key processor manager, without connections to other nodes but
with the root manager, and the connections the orchestrator uses. `demo` is a small deployment: a root for the root key
and the key encryption keys, and one agent below it.
-/

namespace Krypton

open Lib

/-- The manager configuration of the root process. -/
def RootConfig.managerConfig (cfg : RootConfig) (P : Process) : ManagerConfig where
  process := P
  bindings := cfg.keyBindings
  hierarchy := cfg.hierarchy
  registry := none
  hasRootManager := true

/-- The root process was started from an accepted configuration. -/
structure RootProcess.Wired (R : RootProcess) : Prop where
  valid : R.cfg.validate = .ok ()
  rootCfg : R.rootCfg = some R.cfg
  registry : R.registry = some (R.cfg.connections.map ConnectionConfig.name)
  manager : ∃ m, newManager (R.cfg.managerConfig R.process) = .ok m ∧ R.manager = some m

/-! ## A small deployment -/

def demoKeySpec (kind : String) (role : KeyRole) : KeySpec := ⟨kind, role, .aes256, ⟨[], true⟩⟩

def demoHierarchy : KeyHierarchy :=
  ⟨"demo", [demoKeySpec "rk" .root, demoKeySpec "kek" .kek, demoKeySpec "tek" .tek, demoKeySpec "dek" .dek]⟩

def demoVault : VaultSpec := ⟨"memory", .unsafeMemory, none⟩

def demoCryptor : CryptorSpec := ⟨"aes", some .aes256gcm⟩

def demoSealer : SealerSpec :=
  ⟨"transport", .staticSecret, some (.staticSecret ⟨.inline, some (.inline (some (List.replicate 32 1)))⟩), none⟩

def demoEdge : TopologySegment where
  name := "edge"
  segment := ⟨"tek", "dek"⟩
  keyBindings := ⟨[("tek", ⟨some demoSealer, some demoCryptor, some demoVault, some "root"⟩),
    ("dek", ⟨none, some demoCryptor, some demoVault, none⟩)], by decide⟩

def demoConfig : RootConfig where
  name := "root"
  role := .root
  segment := ⟨"rk", "kek"⟩
  rootKey := some ⟨[.staticSecret], demoVault⟩
  keyBindings := ⟨[("kek", ⟨none, some demoCryptor, some demoVault, none⟩)], by decide⟩
  hierarchy := demoHierarchy
  topology := ⟨[demoEdge]⟩
  connections := [⟨"root", .grpc, "localhost:1"⟩, ⟨"edge", .grpc, "localhost:2"⟩]

def demoProcess : Process := ⟨"root", fun _ => none, fun _ => true⟩

def demoManager : Manager := ⟨[("kek", ⟨some .aes256gcm, some (.memory "root"), none, .rootManager⟩)]⟩

def demo : RootProcess where
  cfg := demoConfig
  process := demoProcess
  aead := .tagged
  manager := some demoManager
  rootCfg := some demoConfig
  registry := some ["root", "edge"]

theorem demo_wired : demo.Wired where
  valid := by decide +kernel
  rootCfg := rfl
  registry := rfl
  manager := ⟨demoManager, rfl, rfl⟩

/-- The `n`-th of some identifiers. -/
def demoUuid : Nat → Uuid
  | 0 => ⟨"00000000-0000-4000-8000-000000000000", by decide⟩
  | 1 => ⟨"00000000-0000-4000-8000-000000000001", by decide⟩
  | 2 => ⟨"00000000-0000-4000-8000-000000000002", by decide⟩
  | 3 => ⟨"00000000-0000-4000-8000-000000000003", by decide⟩
  | _ => ⟨"00000000-0000-4000-8000-000000000004", by decide⟩

/-- Nothing fails; the random source and the clock are fixed. -/
def demoEnv (id : Nat) : Env where
  fails _ := false
  rpc _ := .ok
  now := 0
  uuid := demoUuid id
  draw := ⟨List.replicate 32 7, by decide, [], []⟩

end Krypton
