import Krypton.KeyProcessor.Build
import Krypton.Secrets

/-!
# The lifecycle gate

A manager hands out or uses the secret of a key only while the key is active, and reading the secret back asks for the
same of every key above it, on whatever node it is served. `Uses` is the chain of versions whose secrets a secret is
sealed under; the states of the keys play no part in it.

* `Resolved.gate` — a secret that is read back passes the gate of every version on its chain;
* `lifecycle_gate` — so does every call that needs one, and a key that leaves its state closes the gate for all keys
  below it.
-/

namespace Krypton

open Lib

/-! ## Calls that need a secret -/

/-- The calls of a manager that need the secret of a key. -/
inductive SecretCall where
  | exportSecret
  | «seal» (nonce plaintext aad : Bytes)
  | «unseal» (ciphertext aad : Bytes)

/-- The call for a key on a node; version 0 asks for the latest version where the call permits it. -/
def SecretCall.run (C : Cluster) (S : ClusterState) (fuel : Nat) (node tenantID keyID : String) (version : Nat) :
    SecretCall → Except Err Bytes
  | .exportSecret => Krypton.exportSecret C S fuel node tenantID keyID version
  | .seal nonce plaintext aad =>
    managerSeal C S (unsealVia C S fuel) node nonce ⟨tenantID, keyID, version, plaintext, aad⟩
  | .unseal ciphertext aad => managerUnseal C S (unsealVia C S fuel) node ⟨tenantID, keyID, version, ciphertext, aad⟩

/-! ## The chain of versions -/

/-- The managers of the deployment were built for this hierarchy. -/
def Cluster.Built (C : Cluster) (h : KeyHierarchy) : Prop :=
  ∀ node m, C.managers node = some m → ∃ cfg, cfg.hierarchy = h ∧ newManager cfg = .ok m

/-- The secret of `x` is sealed under that of `y`: the usable version of the parent that `x` asks for, on the node that
serves it. -/
def Uses (C : Cluster) (S : ClusterState) (x y : String × KeyVersion) : Prop :=
  ∃ p pid v, ProcessorOf C S x.1 x.2.ident p ∧ x.2.parentKeyID = some pid ∧ v ≠ 0 ∧
    Reaches C x.1 (x.2.parentKeyVersion.getD 0) p.parent y.1 v ∧
      resolveUsableKeyVersion (S.db y.1) x.2.tenantID pid v = .ok y.2

/-- The version's parent is served by the root manager, under this key. -/
def Topmost (C : Cluster) (S : ClusterState) (x : String × KeyVersion) (pid : String) : Prop :=
  ∃ p, ProcessorOf C S x.1 x.2.ident p ∧ x.2.parentKeyID = some pid ∧ p.parent = .rootManager

/-- The key of a version is active, and the version is usable; its kind is not of root role. -/
structure GateOpen (h : KeyHierarchy) (S : ClusterState) (x : String × KeyVersion) : Prop where
  version : x.2 ∈ (S.db x.1).keyVersions.rows ∧ x.2.processingState = .usable
  key : ∃ k ∈ (S.db x.1).keys.rows, k.id = x.2.keyID ∧ k.tenantID = x.2.tenantID ∧ k.lifeCycleState = .active ∧
    ∃ sp, h.findKeySpec k.kind = some sp ∧ sp.role ≠ .root

/-- The root manager's key is settled and permits decryption, and comes before `x`'s kind, in the root role. -/
structure RootGateOpen (h : KeyHierarchy) (S : ClusterState) (x : String × KeyVersion) (pid : String) : Prop where
  key : ∃ k, S.rootDB.getKeyByID pid x.2.tenantID = .ok k ∧ k.status = .completed ∧
    KeyLifecycle.validateKeyUsage k.lifeCycleState .decrypt = .ok ()
  role : ∃ k ∈ (S.db x.1).keys.rows, k.id = x.2.keyID ∧ ∃ sp, h.findParentKeySpec k.kind = some sp ∧ sp.role = .root

/-- All gates on the chain of a version are open, up to a key of the root manager. -/
structure ChainOpen (h : KeyHierarchy) (C : Cluster) (S : ClusterState) (x : String × KeyVersion) : Prop where
  keys : ∀ y, Relation.ReflTransGen (Uses C S) x y → GateOpen h S y
  root : ∀ y pid, Relation.ReflTransGen (Uses C S) x y → Topmost C S y pid → RootGateOpen h S y pid
  ends : ∃ y pid, Relation.ReflTransGen (Uses C S) x y ∧ Topmost C S y pid

section
variable {C : Cluster} {h : KeyHierarchy} {S S' : ClusterState} {node : String} {p : Processor} {kv : KeyVersion}
    {sec : Bytes}

/-! ## One version -/

theorem Cluster.Built.builds (hC : C.Built h) {kind : String} (hp : C.processor node kind = some p) :
    ∃ cfg binding, cfg.hierarchy = h ∧ Builds cfg kind binding p := by
  obtain ⟨m, hm, hp⟩ := Option.bind_eq_some_iff.1 hp
  obtain ⟨cfg, hcfg, hnew⟩ := hC node m hm
  obtain ⟨binding, -, hb⟩ := (processor_newManager hnew).1 hp
  exact ⟨cfg, binding, hcfg, hb⟩

theorem Serves.gateOpen {tenantID keyID : String} {version : Nat} {k : Key} (hC : C.Built h)
    (hs : Serves C S node tenantID keyID version k kv p) :
    GateOpen h S (node, kv) ∧ ProcessorOf C S node kv.ident p := by
  obtain ⟨hkv, ht, hid, -, hps⟩ := hs.version
  obtain ⟨hk, hkid, hkt⟩ := DB.getKeyByID_ok hs.key
  have hid' : k.id = kv.keyID := Option.some.inj (hkid.symm.trans hid)
  have ht' : k.tenantID = kv.tenantID := Option.some.inj (hkt.symm.trans ht)
  obtain ⟨cfg, binding, rfl, hb⟩ := hC.builds hs.processor
  exact ⟨⟨⟨hkv, hps⟩, k, hk, hid', ht', hs.active, hb.spec⟩, ⟨kv, hkv, rfl⟩, k.ident, ⟨k, hk, rfl⟩, hid', ht',
    hs.processor⟩

/-- What is above a version, by the sealer of its processor: nothing but the root manager, or one version. -/
theorem Uses.of_rootManager {y : String × KeyVersion} (hproc : ProcessorOf C S node kv.ident p)
    (hp : p.parent = .rootManager) : ¬ Uses C S (node, kv) y := by
  rintro ⟨q, _, _, hq, -, -, hreach, -⟩
  rw [hproc.unique hq] at hreach
  exact hreach.ne_rootManager hp

theorem Reaches.unique {ref : SealerRef} {v v₁ v₂ : Nat} {t₁ t₂ : String} (h₁ : Reaches C node v ref t₁ v₁)
    (h₂ : Reaches C node v ref t₂ v₂) : t₁ = t₂ ∧ v₁ = v₂ := by
  cases h₁ with
  | self =>
    cases h₂
    exact ⟨rfl, rfl⟩
  | rpc hd _ =>
    cases h₂ with
    | rpc hd' _ => exact ⟨Option.some.inj (hd.symm.trans hd'), rfl⟩

theorem Uses.unique {x y z : String × KeyVersion} (hy : Uses C S x y) (hz : Uses C S x z) : y = z := by
  obtain ⟨p, pid, v, hp, hpid, -, hreach, hres⟩ := hy
  obtain ⟨q, pid', v', hq, hpid', -, hreach', hres'⟩ := hz
  obtain rfl := hp.unique hq
  obtain rfl := Option.some.inj (hpid.symm.trans hpid')
  obtain ⟨hnode, rfl⟩ := hreach.unique hreach'
  rw [← hnode] at hres'
  exact Prod.ext hnode (Except.ok.inj (hres.symm.trans hres'))

/-! ## The whole chain -/

/-- A secret that is read back passes the gate of every version on its chain. -/
theorem Resolved.gate (hC : C.Built h) (hres : Resolved C S node p kv sec) (hproc : ProcessorOf C S node kv.ident p)
    (hopen : GateOpen h S (node, kv)) : ChainOpen h C S (node, kv) := by
  induction hres with
  | @underRoot node pid p kv entry key sec hw hp hkey hu =>
    have hstop : ∀ y, Relation.ReflTransGen (Uses C S) (node, kv) y → y = (node, kv) := by
      intro y hy
      rcases Relation.ReflTransGen.cases_head hy with h | ⟨z, hz, -⟩
      · exact h.symm
      · exact absurd hz (Uses.of_rootManager hproc hp)
    refine ⟨fun y hy => ?_, fun y pid' hy htop => ?_, (node, kv), pid, .refl, p, hproc, hw.parent, hp⟩
    · rw [hstop y hy]
      exact hopen
    · obtain rfl := hstop y hy
      obtain ⟨q, hq, hpid', -⟩ := htop
      obtain rfl := Option.some.inj (hw.parent.symm.trans hpid')
      obtain ⟨-, -, ⟨k, hk⟩, -⟩ := rootSealerKey_eq_ok.1 hkey
      refine ⟨⟨k, hk.found, hk.status, hk.usage⟩, ?_⟩
      obtain ⟨k', hk', hid, -, hproc'⟩ := hproc.key
      obtain ⟨row, hrow, rfl⟩ := hk'
      obtain ⟨cfg, binding, rfl, hb⟩ := hC.builds hproc'
      have hparent := hb.parent
      rw [hp] at hparent
      exact ⟨row, hrow, hid, resolveParent_rootManager hparent⟩
  | @underKey node pid target p q k kv pkv entry req key sec hw hp hreach hv hserves hcq _ hu ih =>
    obtain ⟨v, hr, -, rfl⟩ := reach_ok hp hreach
    obtain ⟨hgate, hq⟩ := hserves.gateOpen hC
    have huses : Uses C S (node, kv) (target, pkv) := ⟨p, pid, v, hproc, hw.parent, hv, hr, hserves.usable⟩
    have habove := ih hq hgate
    -- a version above is this one, or above the only one it uses
    have hcases : ∀ y, Relation.ReflTransGen (Uses C S) (node, kv) y →
        y = (node, kv) ∨ Relation.ReflTransGen (Uses C S) (target, pkv) y := by
      intro y hy
      rcases Relation.ReflTransGen.cases_head hy with h | ⟨z, hz, hy⟩
      · exact .inl h.symm
      · exact .inr (huses.unique hz ▸ hy)
    refine ⟨fun y hy => ?_, fun y pid' hy htop => ?_, ?_⟩
    · rcases hcases y hy with rfl | hy
      · exact hopen
      · exact habove.keys y hy
    · rcases hcases y hy with rfl | hy
      · obtain ⟨q', hq', -, hroot⟩ := htop
        rw [hproc.unique hq'] at hroot
        exact absurd hroot hp
      · exact habove.root y pid' hy htop
    · obtain ⟨y, pid', hy, htop⟩ := habove.ends
      exact ⟨y, pid', .head huses hy, htop⟩

/-- A call that succeeds has a version to work with, and all gates on its chain are open. -/
theorem SecretCall.run_ok (hC : C.Built h) {fuel version : Nat} {tenantID keyID : String} {call : SecretCall}
    {out : Bytes} (hrun : call.run C S fuel node tenantID keyID version = .ok out) :
    ∃ kv, resolveUsableKeyVersion (S.db node) tenantID keyID version = .ok kv ∧ (version = 0 ∨ kv.version = version) ∧
      ChainOpen h C S (node, kv) := by
  have hserved : ∃ k kv p sec, Serves C S node tenantID keyID version k kv p ∧
      resolveSecret C S (unsealVia C S fuel node) p kv = .ok sec := by
    cases call with
    | exportSecret =>
      obtain ⟨k, kv, p, hs, hsec⟩ := exportSecret_eq_ok.1 hrun
      exact ⟨k, kv, p, out, hs, hsec⟩
    | «seal» nonce plaintext aad =>
      obtain ⟨-, k, kv, p, sec, hs, hsec, -⟩ := managerSeal_eq_ok.1 hrun
      exact ⟨k, kv, p, sec, hs, hsec⟩
    | «unseal» ciphertext aad =>
      obtain ⟨-, k, kv, p, sec, hs, hsec, -⟩ := managerUnseal_eq_ok.1 hrun
      exact ⟨k, kv, p, sec, hs, hsec⟩
  obtain ⟨k, kv, p, sec, hs, hsec⟩ := hserved
  obtain ⟨hgate, hproc⟩ := hs.gateOpen hC
  exact ⟨kv, hs.usable, hs.version.2.2.2.1, (resolved_of_resolveSecret hsec).gate hC hproc hgate⟩

/-! ## Keys that change their state -/

/-- The two states differ at most in the states of keys. -/
structure SameRows (S S' : ClusterState) : Prop where
  keys : ∀ node i, (S.db node).HasKey i ↔ (S'.db node).HasKey i
  versions : ∀ node, (S'.db node).keyVersions = (S.db node).keyVersions

theorem resolveUsableKeyVersion_congr {db db' : DB} (hkvs : db'.keyVersions = db.keyVersions) (tenantID keyID : String)
    (version : Nat) : resolveUsableKeyVersion db' tenantID keyID version =
      resolveUsableKeyVersion db tenantID keyID version := by
  unfold resolveUsableKeyVersion DB.listKeyVersions
  rw [hkvs]

theorem ProcessorOf.congr {i : KeyVersionIdent} (hsame : SameRows S S') (hproc : ProcessorOf C S node i p) :
    ProcessorOf C S' node i p := by
  obtain ⟨hrow, k, hk, hrest⟩ := hproc
  exact ⟨(DB.hasVersion_congr (hsame.versions node)).2 hrow, k, (hsame.keys node k).1 hk, hrest⟩

/-- The chain of a version does not depend on the states of keys. -/
theorem Uses.congr (hsame : SameRows S S') {x y : String × KeyVersion} (hu : Uses C S x y) : Uses C S' x y := by
  obtain ⟨p, pid, v, hp, hpid, hv, hreach, hres⟩ := hu
  refine ⟨p, pid, v, hp.congr hsame, hpid, hv, hreach, ?_⟩
  rw [resolveUsableKeyVersion_congr (hsame.versions y.1)]
  exact hres

end

/-- The key of `y` is not active, or it is right below a root key that is not settled or permits no decryption. -/
def Closed (C : Cluster) (S : ClusterState) (y : String × KeyVersion) : Prop :=
  (∀ k ∈ (S.db y.1).keys.rows, k.id = y.2.keyID → k.lifeCycleState ≠ .active) ∨
    ∃ pid, Topmost C S y pid ∧ ∀ k, S.rootDB.getKeyByID pid y.2.tenantID = .ok k →
      k.status ≠ .completed ∨ k.lifeCycleState = .preActivation ∨ k.lifeCycleState = .destroyed

/-- **The lifecycle gate.** In every state of a deployment, when a call that needs the secret of a key succeeds, the key
and every key above it that a manager serves is active, with a usable version of the number asked for, on the node that
served it, and the root key on top is settled and permits decryption. So when one of these keys leaves its state, every
such call fails, with all other rows as they were. -/
theorem lifecycle_gate (C : Cluster) (h : KeyHierarchy) (hC : C.Built h) (S : ClusterState)
    (node tenantID keyID : String) (version : Nat) :
    (∀ fuel (call : SecretCall) out, call.run C S fuel node tenantID keyID version = .ok out →
      ∃ kv, resolveUsableKeyVersion (S.db node) tenantID keyID version = .ok kv ∧ (version = 0 ∨ kv.version = version) ∧
        ChainOpen h C S (node, kv)) ∧
    ∀ S', SameRows S S' → ∀ kv, resolveUsableKeyVersion (S.db node) tenantID keyID version = .ok kv →
      ∀ y, Relation.ReflTransGen (Uses C S) (node, kv) y → Closed C S' y →
        ∀ fuel (call : SecretCall) out, call.run C S' fuel node tenantID keyID version ≠ .ok out := by
  refine ⟨fun fuel call out hrun => ?_, fun S' hsame kv hkv y hy hclosed fuel call out hrun => ?_⟩
  · exact call.run_ok hC hrun
  · obtain ⟨kv', hkv', -, hopen⟩ := call.run_ok hC hrun
    rw [resolveUsableKeyVersion_congr (hsame.versions node), hkv] at hkv'
    cases hkv'
    have hy' : Relation.ReflTransGen (Uses C S') (node, kv) y :=
      Relation.ReflTransGen.mono (fun _ _ hu => Uses.congr hsame hu) _ _ hy
    rcases hclosed with hkey | ⟨pid, htop, hroot⟩
    · obtain ⟨k, hk, hid, -, hact, -⟩ := (hopen.keys y hy').key
      exact hkey k hk hid hact
    · obtain ⟨k, hk, hst, huse⟩ := (hopen.root y pid hy' htop).key
      rw [KeyLifecycle.validateKeyUsage_decrypt] at huse
      rcases hroot k hk with h | h | h
      · exact h hst
      · exact huse.1 h
      · exact huse.2 h

theorem RootProcess.Wired.built {R : RootProcess} (hR : R.Wired) : R.cluster.Built R.cfg.hierarchy := by
  intro node m hm
  obtain ⟨m', hnew, hm'⟩ := hR.manager
  have hm : R.manager = some m := hm
  rw [hm'] at hm
  cases hm
  exact ⟨_, rfl, hnew⟩

theorem demoServing_gate : ∃ kv, resolveUsableKeyVersion (demoServing.db "root") demoTenant (demoKey 2) 0 = .ok kv ∧
    ChainOpen demoHierarchy demo.cluster demoServing ("root", kv) := by
  obtain ⟨sec, hsec⟩ : ∃ sec, SecretCall.exportSecret.run demo.cluster demoServing demo.fuel "root" demoTenant
      (demoKey 2) 0 = .ok sec := exists_of_isOk (by decide +kernel)
  obtain ⟨kv, hkv, -, hopen⟩ := (lifecycle_gate demo.cluster demoHierarchy demo_wired.built demoServing
      "root" demoTenant (demoKey 2) 0).1 demo.fuel .exportSecret sec hsec
  exact ⟨kv, hkv, hopen⟩

end Krypton
