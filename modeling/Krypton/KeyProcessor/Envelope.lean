import Mathlib.Logic.Relation
import Krypton.KeyProcessor.Calls

/-!
# Envelopes

A key's secret lies in a vault, sealed for transport and by the key's parent, whose own secret lies sealed in a vault,
and so on up to a root key. `Resolved` is the recursion that reads a secret back, without a bound on its depth. `Opens`
is what it needs of the stored data: every version has its row and its vault entry, and each entry is the next secret in
the envelope of the one above; `ChainReady` is what it needs of the states of the keys.

* `resolved_of_resolveSecret`, `Resolved.resolveSecret` — the bounded recursion computes `Resolved`;
* `Resolved.opens` — a secret that a node could read back opens;
* `SecretCreated.opens` — so does one that was just created and recorded;
* `Opens.mono` — opening goes on while nothing that is stored gets lost (`Extends`);
* `Opens.resolved` — what opens is read back when the keys on the way up are ready.
-/

namespace Krypton

open Lib

/-! ## Reading a secret back -/

/-- The request that a processor makes to its parent for the secret in a vault entry. -/
def KeyVersion.parentRequest (kv : KeyVersion) (parentKeyID : String) (entry : VaultEntry) : SealRequest :=
  ⟨kv.tenantID, parentKeyID, kv.parentKeyVersion.getD 0, entry.material, entry.aad⟩

/-- The vault entry of a version with a parent. -/
structure Wrapped (S : ClusterState) (p : Processor) (kv : KeyVersion) (parentKeyID : String)
    (entry : VaultEntry) : Prop where
  vault : ∃ loc, p.vault = some loc ∧ S.vault (kv.slot loc) = some entry
  parent : kv.parentKeyID = some parentKeyID

/-- Under the parent's secret `key`, the entry holds `sec`. -/
def Unwraps (C : Cluster) (p : Processor) (key : Bytes) (entry : VaultEntry) (sec : Bytes) : Prop :=
  ∃ mid, decrypt C.aead key entry.material entry.aad = .ok mid ∧ transportUnseal C p mid entry.aad = .ok sec ∧ sec ≠ []

/-- The secret of a version, read back by a processor on a node. -/
inductive Resolved (C : Cluster) (S : ClusterState) : String → Processor → KeyVersion → Bytes → Prop where
  | underRoot {node pid : String} {p : Processor} {kv : KeyVersion} {entry : VaultEntry} {key sec : Bytes}
      (hw : Wrapped S p kv pid entry) (hp : p.parent = .rootManager)
      (hkey : rootSealerKey C.rootProcess S.rootDB S.specs .decrypt (kv.parentRequest pid entry) = .ok key)
      (hu : Unwraps C p key entry sec) : Resolved C S node p kv sec
  | underKey {node pid target : String} {p q : Processor} {k : Key} {kv pkv : KeyVersion} {entry : VaultEntry}
      {req : SealRequest} {key sec : Bytes} (hw : Wrapped S p kv pid entry) (hp : p.parent ≠ .rootManager)
      (hreach : reach C node p.parent (kv.parentRequest pid entry) = .ok (target, req)) (hv : req.keyVersion ≠ 0)
      (hserves : Serves C S target req.tenantID req.keyID req.keyVersion k pkv q) (hc : q.cryptor ≠ none)
      (hkey : Resolved C S target q pkv key) (hu : Unwraps C p key entry sec) : Resolved C S node p kv sec

section
variable {C : Cluster} {S S' : ClusterState} {node : String} {p : Processor} {kv : KeyVersion} {sec : Bytes}

/-- The bounded recursion only finds secrets that resolve. -/
theorem resolved_of_resolveSecret : ∀ {fuel : Nat} {node : String} {p : Processor} {kv : KeyVersion} {sec : Bytes},
    resolveSecret C S (unsealVia C S fuel node) p kv = .ok sec → Resolved C S node p kv sec := by
  intro fuel
  induction fuel with
  | zero =>
    intro node p kv sec h
    obtain ⟨_, _, _, _, -, -, -, hup, -⟩ := resolveSecret_eq_ok.1 h
    cases hup
  | succ fuel ih =>
    intro node p kv sec h
    obtain ⟨loc, entry, pid, mid, hl, hent, hpid, hup, htrans, hne⟩ := resolveSecret_eq_ok.1 h
    have hw : Wrapped S p kv pid entry := ⟨⟨loc, hl, hent⟩, hpid⟩
    rw [unsealVia] at hup
    split at hup
    · rename_i hp
      obtain ⟨key, hkey, hdec⟩ := rootUnseal_eq_ok.1 hup
      exact .underRoot hw hp hkey ⟨mid, hdec, htrans, hne⟩
    · rename_i hp
      obtain ⟨⟨target, req⟩, hreach, hup⟩ := bind_eq_ok.1 hup
      obtain ⟨hv, k, pkv, q, key, hserves, hsec, hc, hdec⟩ := managerUnseal_eq_ok.1 hup
      obtain ⟨v, -, -, rfl⟩ := reach_ok hp hreach
      exact .underKey hw hp hreach hv hserves hc (ih hsec) ⟨mid, hdec, htrans, hne⟩

/-- A secret that resolves is found by the recursion, once its bound is large enough. -/
theorem Resolved.resolveSecret (h : Resolved C S node p kv sec) :
    ∃ n, ∀ fuel ≥ n, resolveSecret C S (unsealVia C S fuel node) p kv = .ok sec := by
  induction h with
  | @underRoot node pid p kv entry key sec hw hp hkey hu =>
    obtain ⟨⟨loc, hl, hent⟩, hpid⟩ := hw
    obtain ⟨mid, hdec, htrans, hne⟩ := hu
    refine ⟨1, fun fuel hfuel => ?_⟩
    obtain ⟨fuel, rfl⟩ := Nat.exists_eq_add_of_le' hfuel
    refine resolveSecret_eq_ok.2 ⟨loc, entry, pid, mid, hl, hent, hpid, ?_, htrans, hne⟩
    rw [unsealVia, if_pos hp]
    exact rootUnseal_eq_ok.2 ⟨key, hkey, hdec⟩
  | @underKey node pid target p q k kv pkv entry req key sec hw hp hreach hv hserves hc _ hu ih =>
    obtain ⟨n, ih⟩ := ih
    obtain ⟨⟨loc, hl, hent⟩, hpid⟩ := hw
    obtain ⟨mid, hdec, htrans, hne⟩ := hu
    refine ⟨n + 1, fun fuel hfuel => ?_⟩
    obtain ⟨fuel, rfl⟩ := Nat.exists_eq_add_of_le' (Nat.le_of_add_left_le hfuel)
    refine resolveSecret_eq_ok.2 ⟨loc, entry, pid, mid, hl, hent, hpid, ?_, htrans, hne⟩
    obtain ⟨v, -, -, rfl⟩ := reach_ok hp hreach
    rw [unsealVia, if_neg hp]
    exact bind_eq_ok.2 ⟨_, hreach, managerUnseal_eq_ok.2 ⟨hv, k, pkv, q, key, hserves, ih fuel (by omega), hc, hdec⟩⟩

/-! ## What is stored -/

/-- The processor of a version's key on a node. -/
structure ProcessorOf (C : Cluster) (S : ClusterState) (node : String) (i : KeyVersionIdent)
    (p : Processor) : Prop where
  row : (S.db node).HasVersion i
  key : ∃ k, (S.db node).HasKey k ∧ k.id = i.keyID ∧ k.tenantID = i.tenantID ∧ C.processor node k.kind = some p

/-- The vault entry of a version, where the processor of its key will look for it. -/
structure SecretAt (C : Cluster) (S : ClusterState) (node : String) (i : KeyVersionIdent) (p : Processor)
    (entry : VaultEntry) : Prop where
  processor : ProcessorOf C S node i p
  cryptor : p.cryptor ≠ none
  vault : ∃ loc, p.vault = some loc ∧ S.vault (i.slot loc) = some entry

/-- The stored data give the secret of a version, whatever the states of the keys. -/
inductive Opens (C : Cluster) (S : ClusterState) : String → KeyVersionIdent → Bytes → Prop where
  | underRoot {node pid : String} {i : KeyVersionIdent} {p : Processor} {entry : VaultEntry} {key sec : Bytes}
      (h : SecretAt C S node i p entry) (hp : p.parent = .rootManager) (hpid : i.parentKeyID = some pid)
      (hkey : RootKeyAt C S i.tenantID pid (i.parentKeyVersion.getD 0) key) (hu : Unwraps C p key entry sec) :
      Opens C S node i sec
  | underKey {node target : String} {i j : KeyVersionIdent} {p : Processor} {entry : VaultEntry} {key sec : Bytes}
      (h : SecretAt C S node i p entry) (hpid : i.parentKeyID = some j.keyID) (ht : j.tenantID = i.tenantID)
      (hreach : Reaches C node (i.parentKeyVersion.getD 0) p.parent target j.version) (haad : p.parent.Takes entry.aad)
      (hv : j.version ≠ 0) (hkey : Opens C S target j key) (hu : Unwraps C p key entry sec) : Opens C S node i sec

/-- The identifiers of a stored version are read back as they are. -/
theorem DB.HasVersion.canonical {db : DB} {i : KeyVersionIdent} (h : db.HasVersion i) :
    Canonical i.tenantID ∧ Canonical i.keyID ∧ ∀ pid, i.parentKeyID = some pid → Canonical pid := by
  obtain ⟨kv, hkv, rfl⟩ := h
  exact keyVersion_canonical hkv

/-- What a node serves a request with is stored there. -/
theorem Serves.processorOf {tenantID keyID : String} {version : Nat} {k : Key}
    (h : Serves C S node tenantID keyID version k kv p) (hv : version ≠ 0) :
    ProcessorOf C S node kv.ident p ∧ uuidIn tenantID = some kv.tenantID ∧ uuidIn keyID = some kv.keyID ∧
      kv.version = version := by
  obtain ⟨hkv, ht, hid, hver, -⟩ := h.version
  obtain ⟨hk, hkid, hkt⟩ := DB.getKeyByID_ok h.key
  refine ⟨⟨⟨kv, hkv, rfl⟩, k.ident, ⟨k, hk, rfl⟩, ?_, ?_, h.processor⟩, ht, hid, hver.resolve_left hv⟩
  · exact Option.some.inj (hkid.symm.trans hid)
  · exact Option.some.inj (hkt.symm.trans ht)

/-- The version that serves a request with stored identifiers is the one the request names. -/
theorem Serves.named {tenantID keyID : String} {v : Nat} {k : Key} (h : Serves C S node tenantID keyID v k kv p)
    (hv : v ≠ 0) (ht : Canonical tenantID) (hk : Canonical keyID) :
    ProcessorOf C S node kv.ident p ∧ kv.tenantID = tenantID ∧ kv.keyID = keyID ∧ kv.version = v := by
  obtain ⟨hproc, ht', hid, hver⟩ := h.processorOf hv
  exact ⟨hproc, Option.some.inj (ht'.symm.trans ht), Option.some.inj (hid.symm.trans hk), hver⟩

/-- A secret that was read back opens. -/
theorem Resolved.opens (h : Resolved C S node p kv sec) (hproc : ProcessorOf C S node kv.ident p)
    (hc : p.cryptor ≠ none) : Opens C S node kv.ident sec := by
  induction h with
  | @underRoot node pid p kv entry key sec hw hp hkey hu =>
    obtain ⟨hct, -, hcp⟩ := hproc.row.canonical
    have hroot := rootKeyAt_of_sealerKey (kv.parentRequest pid entry) hct (hcp pid hw.parent) hkey
    exact .underRoot ⟨hproc, hc, hw.vault⟩ hp hw.parent hroot hu
  | @underKey node pid target p q k kv pkv entry req key sec hw hp hreach hv hserves hcq _ hu ih =>
    obtain ⟨hct, -, hcp⟩ := hproc.row.canonical
    obtain ⟨v, hr, haad, rfl⟩ := reach_ok hp hreach
    obtain ⟨hq, ht, rfl, rfl⟩ := hserves.named hv hct (hcp pid hw.parent)
    exact .underKey (j := pkv.ident) ⟨hproc, hc, hw.vault⟩ hw.parent ht hr haad hv (ih hq hcq) hu

/-! ## Nothing gets lost -/

/-- Whatever is stored for opening secrets in one state is stored in the other. -/
structure Extends (C : Cluster) (S S' : ClusterState) : Prop where
  secret : ∀ {node i p entry}, SecretAt C S node i p entry → SecretAt C S' node i p entry
  rootKey : ∀ {tenantID keyID version key},
    RootKeyAt C S tenantID keyID version key → RootKeyAt C S' tenantID keyID version key

theorem Extends.refl : Extends C S S := ⟨id, id⟩

theorem Extends.trans {S'' : ClusterState} (h : Extends C S S') (h' : Extends C S' S'') : Extends C S S'' :=
  ⟨fun hs => h'.secret (h.secret hs), fun hk => h'.rootKey (h.rootKey hk)⟩

/-- Keys and versions stay, and so do the vault entries of versions and what the specs of root keys with versions
build. -/
theorem Extends.of_kept (hkey : ∀ node i, (S.db node).HasKey i → (S'.db node).HasKey i)
    (hversion : ∀ node i, (S.db node).HasVersion i → (S'.db node).HasVersion i)
    (hroot : ∀ i, S.rootDB.HasVersion i → S'.rootDB.HasVersion i)
    (hvault : ∀ node i p loc, ProcessorOf C S node i p → p.vault = some loc →
      S'.vault (i.slot loc) = S.vault (i.slot loc))
    (hspec : ∀ kv ∈ S.rootDB.keyVersions.rows, ∀ spec, S.specs (kv.tenantID, kv.keyID) = some spec →
      ∃ spec', S'.specs (kv.tenantID, kv.keyID) = some spec' ∧ spec'.type = spec.type ∧
        spec'.getSealer C.rootProcess = spec.getSealer C.rootProcess) : Extends C S S' where
  secret {node i p entry} h := by
    obtain ⟨hproc, hc, loc, hl, hent⟩ := h
    obtain ⟨k, hk, hrest⟩ := hproc.key
    exact ⟨⟨hversion node i hproc.row, k, hkey node k hk, hrest⟩, hc, loc, hl,
      (hvault node i p loc hproc hl).trans hent⟩
  rootKey {tenantID keyID version key} h := by
    obtain ⟨hv, spec, hs, hkey, kv, hkv, rfl, rfl, hver, hlab⟩ := h
    obtain ⟨spec', hs', htype, hseal⟩ := hspec kv hkv spec hs
    obtain ⟨kv', hkv', hident⟩ := hroot kv.ident ⟨kv, hkv, rfl⟩
    rw [KeyVersion.ident, KeyVersion.ident, KeyVersionIdent.mk.injEq] at hident
    obtain ⟨ht', hid', hver', -, -, -, hlab', -⟩ := hident
    refine ⟨hv, spec', hs', hseal.trans hkey, kv', hkv', ht', hid', hver'.trans hver, ?_⟩
    rw [hlab', htype]
    exact hlab

theorem Opens.mono {i : KeyVersionIdent} (h : Opens C S node i sec) (hext : Extends C S S') :
    Opens C S' node i sec := by
  induction h with
  | underRoot hs hp hpid hkey hu => exact .underRoot (hext.secret hs) hp hpid (hext.rootKey hkey) hu
  | underKey hs hpid ht hreach haad hv _ hu ih => exact .underKey (hext.secret hs) hpid ht hreach haad hv ih hu

/-! ## New secrets -/

theorem transportUnseal_transportSeal {nonce aad c : Bytes} (h : transportSeal C p nonce sec aad = .ok c) :
    transportUnseal C p c aad = .ok sec := by
  unfold transportSeal at h
  unfold transportUnseal
  cases hs : p.transportSealer with
  | none =>
    rw [hs] at h
    cases h
    rfl
  | some key =>
    rw [hs] at h
    exact decrypt_encrypt h

theorem SecretDraw.secret_ne_nil (draw : SecretDraw) : draw.secret ≠ [] := by
  intro h
  have hsize := draw.size
  rw [h] at hsize
  cases hsize

/-- A secret opens from the moment it is recorded: created in one state, stored in a later one. -/
theorem SecretCreated.opens {fuel : Nat} {draw : SecretDraw} {aad : Bytes} {slot : VaultKey} {entry : VaultEntry}
    (h : SecretCreated C S fuel node p draw kv aad slot entry) (hext : Extends C S S')
    (hat : SecretAt C S' node kv.ident p entry) : Opens C S' node kv.ident draw.secret := by
  obtain ⟨pid, sealed, hpid, htrans, hseal⟩ := h.wrapped
  obtain ⟨hct, -, hcp⟩ := hat.processor.row.canonical
  have hopen : ∀ {key nonce : Bytes}, encrypt C.aead key nonce sealed aad = .ok entry.material →
      Unwraps C p key entry draw.secret := by
    intro key nonce henc
    refine ⟨sealed, ?_, ?_, draw.secret_ne_nil⟩
    · rw [h.entryAad]
      exact decrypt_encrypt henc
    · rw [h.entryAad]
      exact transportUnseal_transportSeal htrans
  unfold sealVia at hseal
  split at hseal
  · rename_i hp
    obtain ⟨key, hkey, henc⟩ := rootSeal_eq_ok.1 hseal
    have hroot := rootKeyAt_of_sealerKey ⟨kv.tenantID, pid, kv.parentKeyVersion.getD 0, sealed,
        aad⟩ hct (hcp pid hpid) hkey
    exact .underRoot hat hp hpid (hext.rootKey hroot) (hopen henc)
  · rename_i hp
    obtain ⟨⟨target, req⟩, hreach, hup⟩ := bind_eq_ok.1 hseal
    obtain ⟨hv, k, pkv, q, key, hserves, hsec, hc, henc⟩ := managerSeal_eq_ok.1 hup
    obtain ⟨v, hr, haad, rfl⟩ := reach_ok hp hreach
    obtain ⟨hq, ht, rfl, rfl⟩ := hserves.named hv hct (hcp pid hpid)
    have hparent := ((resolved_of_resolveSecret hsec).opens hq hc).mono hext
    refine .underKey (j := pkv.ident) hat hpid ht hr ?_ hv hparent (hopen henc)
    rw [h.entryAad]
    exact haad

/-! ## States on the way up -/

/-- `j` on `target` is the version under whose secret `i` on `node` is sealed. -/
def ParentOf (C : Cluster) (S : ClusterState) (x y : String × KeyVersionIdent) : Prop :=
  ∃ p, ProcessorOf C S x.1 x.2 p ∧ x.2.parentKeyID = some y.2.keyID ∧ y.2.tenantID = x.2.tenantID ∧
    (S.db y.1).HasVersion y.2 ∧ Reaches C x.1 (x.2.parentKeyVersion.getD 0) p.parent y.1 y.2.version

/-- The key is active and the version is usable. -/
structure UsableAt (S : ClusterState) (node : String) (i : KeyVersionIdent) : Prop where
  version : ∃ kv ∈ (S.db node).keyVersions.rows, kv.ident = i ∧ kv.processingState = .usable
  key : ∃ k ∈ (S.db node).keys.rows, k.id = i.keyID ∧ k.tenantID = i.tenantID ∧ k.lifeCycleState = .active

/-- The version and all those above it are usable, and the root manager permits decryption with the root key on top. -/
structure ChainReady (C : Cluster) (S : ClusterState) (node : String) (i : KeyVersionIdent) : Prop where
  keys : ∀ target j, Relation.ReflTransGen (ParentOf C S) (node, i) (target, j) → UsableAt S target j
  root : ∀ target j p pid, Relation.ReflTransGen (ParentOf C S) (node, i) (target, j) → ProcessorOf C S target j p →
    p.parent = .rootManager → j.parentKeyID = some pid → RootReady S .decrypt j.tenantID pid

theorem ChainReady.parent {target : String} {i j : KeyVersionIdent} (h : ChainReady C S node i)
    (hj : ParentOf C S (node, i) (target, j)) : ChainReady C S target j where
  keys _ _ hup := h.keys _ _ (.head hj hup)
  root _ _ _ _ hup := h.root _ _ _ _ (.head hj hup)

/-- Version numbers identify the versions of a key, in every database. -/
def ClusterState.Unique (S : ClusterState) : Prop := S.rootDB.UniqueVersions ∧ ∀ node, (S.db node).UniqueVersions

/-- A usable version of an active key is what the node serves requests with that select it. -/
theorem UsableAt.serves {i : KeyVersionIdent} {version : Nat} (h : UsableAt S node i) (hproc : ProcessorOf C S node i p)
    (hs : ∀ kv ∈ (S.db node).keyVersions.rows, kv.ident = i → (S.db node).Selects version kv) :
    ∃ k kv, kv.ident = i ∧ Serves C S node i.tenantID i.keyID version k kv p := by
  obtain ⟨kv, hkv, rfl, hps⟩ := h.version
  obtain ⟨k, hk, hid, ht, hact⟩ := h.key
  obtain ⟨k', hk', hid', -, hp⟩ := hproc.key
  have hsame : k.ident = k' := DB.eq_of_hasKey ⟨k, hk, rfl⟩ hk' (hid.trans hid'.symm)
  refine ⟨k, kv, rfl, resolveUsableKeyVersion_of_mem hkv (hs kv hkv rfl) hps, ?_, hact, ?_⟩
  · have hfound := DB.getKeyByID_of_mem hk
    rw [hid, ht] at hfound
    exact hfound
  · rw [← hsame] at hp
    exact hp

theorem ClusterState.Unique.selects {i : KeyVersionIdent} (hu : S.Unique) (hv : i.version ≠ 0) :
    ∀ kv ∈ (S.db node).keyVersions.rows, kv.ident = i → (S.db node).Selects i.version kv := by
  rintro kv hkv rfl
  exact (hu.2 node).selects hkv hv

/-- What a decrypted entry held is not empty. -/
theorem Unwraps.material_ne_nil {key : Bytes} {entry : VaultEntry} (h : Unwraps C p key entry sec) :
    entry.material ≠ [] := by
  obtain ⟨mid, hdec, -⟩ := h
  exact (decrypt_eq_ok.1 hdec).1

theorem ProcessorOf.unique {i : KeyVersionIdent} {q : Processor} (h : ProcessorOf C S node i p)
    (h' : ProcessorOf C S node i q) : q = p := by
  obtain ⟨k, hk, hid, -, hp⟩ := h.key
  obtain ⟨k', hk', hid', -, hq⟩ := h'.key
  obtain rfl := DB.eq_of_hasKey hk' hk (hid'.trans hid.symm)
  exact Option.some.inj (hq.symm.trans hp)

theorem Opens.secretAt {i : KeyVersionIdent} (h : Opens C S node i sec) : ∃ p entry, SecretAt C S node i p entry := by
  cases h with
  | underRoot hat _ _ _ _ => exact ⟨_, _, hat⟩
  | underKey hat _ _ _ _ _ _ _ => exact ⟨_, _, hat⟩

/-- **A secret that opens is read back when its chain is ready.** -/
theorem Opens.resolved {i : KeyVersionIdent} (h : Opens C S node i sec) (hu : S.Unique) (hready : ChainReady C S node i)
    (hkv : kv.ident = i) (hproc : ProcessorOf C S node i p) : Resolved C S node p kv sec := by
  induction h generalizing p kv with
  | @underRoot node pid i p₀ entry key sec hat hp hpid hkey hun =>
    subst hkv
    obtain rfl := hat.processor.unique hproc
    have hroot := hready.root node kv.ident p pid .refl hproc hp hpid
    exact .underRoot ⟨hat.vault, hpid⟩ hp (hkey.sealerKey (kv.parentRequest pid entry) hu.1 hroot) hun
  | @underKey node target i j p₀ entry key sec hat hpid ht hreach haad hv hj hun ih =>
    subst hkv
    obtain rfl := hat.processor.unique hproc
    obtain ⟨q, entry', hat'⟩ := hj.secretAt
    have hready' := hready.parent (j := j) ⟨p, hproc, hpid, ht, hat'.processor.row, hreach⟩
    obtain ⟨k, pkv, hpkv, hserves⟩ := (hready'.keys target j .refl).serves hat'.processor (hu.selects hv)
    obtain ⟨hct, -, hcp⟩ := hproc.row.canonical
    have hreach' := hreach.reach (kv.parentRequest j.keyID entry) hct (hcp _ hpid) hun.material_ne_nil haad
    have hserves' : Serves C S target kv.tenantID j.keyID j.version k pkv q := by
      have ht : j.tenantID = kv.tenantID := ht
      rwa [← ht]
    exact .underKey ⟨hat.vault, hpid⟩ hreach.ne_rootManager hreach' hv hserves' hat'.cryptor
      (ih hready' hpkv hat'.processor) hun

end

end Krypton
