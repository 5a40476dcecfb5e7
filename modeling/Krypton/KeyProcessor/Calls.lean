import Krypton.KeyProcessor.Manager

/-!
# When calls of a manager succeed

What it takes for the functions of `KeyProcessor.Manager` to succeed, and what is stored when they do. The lemmas ending
in `_eq_ok` say it exactly; for lookups by version number, `_ok` and `_of_mem` say it against the stored rows.

* `decrypt_encrypt` — the ciphers undo each other;
* `RootKeyAt`, `RootKeyAt.sealerKey` — what a root key's seals rest on;
* `resolveSecret_eq_ok`, `managerSeal_eq_ok`, `managerUnseal_eq_ok`, `reach_ok`, `createSecret_ok` — the calls on the
  way up;
* `ends_resolveSecret`, `ends_managerUnseal` — a call runs out of fuel only on its way up.
-/

namespace Krypton

open Lib

/-! ## Ciphers -/

section
variable {A : Aead} {key nonce p aad c : Bytes}

theorem encrypt_eq_ok : encrypt A key nonce p aad = .ok c ↔
    p ≠ [] ∧ key.length = keySize ∧ A.seal key nonce p aad = c := by
  simp only [encrypt, bind_unit_eq_ok, check_eq_ok, decide_eq_true_eq, pure, Except.pure, Except.ok.injEq]

theorem decrypt_eq_ok : decrypt A key c aad = .ok p ↔
    c ≠ [] ∧ key.length = keySize ∧ 28 < c.length ∧ A.open key c aad = some p := by
  simp only [decrypt, bind_unit_eq_ok, check_eq_ok, decide_eq_true_eq]
  cases A.open key c aad <;> simp

theorem length_seal (A : Aead) (key nonce aad : Bytes) (hp : p ≠ []) : 28 < (A.seal key nonce p aad).length := by
  have h := A.overhead key nonce p aad
  have hpos := List.length_pos_of_ne_nil hp
  omega

theorem seal_ne_nil (A : Aead) (key nonce aad : Bytes) (hp : p ≠ []) : A.seal key nonce p aad ≠ [] := by
  have h := length_seal A key nonce aad hp
  intro hnil
  rw [hnil] at h
  cases h

/-- What was encrypted is decrypted under the same key and data. -/
theorem decrypt_encrypt (h : encrypt A key nonce p aad = .ok c) : decrypt A key c aad = .ok p := by
  obtain ⟨hp, hk, rfl⟩ := encrypt_eq_ok.1 h
  exact decrypt_eq_ok.2 ⟨seal_ne_nil A key nonce aad hp, hk, length_seal A key nonce aad hp,
    A.open_seal key nonce p aad⟩

end

/-! ## Listings of versions -/

/-- No two rows are for the same version number of a key. -/
def DB.UniqueVersions (db : DB) : Prop :=
  ∀ a ∈ db.keyVersions.rows, ∀ b ∈ db.keyVersions.rows, a.tenantID = b.tenantID → a.keyID = b.keyID →
    a.version = b.version → a = b

section
variable {db : DB} {kv : KeyVersion}

theorem keyVersion_canonical (h : kv ∈ db.keyVersions.rows) :
    Canonical kv.tenantID ∧ Canonical kv.keyID ∧ ∀ p, kv.parentKeyID = some p → Canonical p := by
  obtain ⟨h1, h2, h3, -⟩ := db.keyVersions.ok_of_mem h
  exact ⟨h1, h2, h3⟩

/-- The row is the only one of its key that a request for a version number selects; 0 selects them all. -/
structure DB.Selects (db : DB) (version : Nat) (kv : KeyVersion) : Prop where
  selected : version = 0 ∨ kv.version = version
  only : ∀ r ∈ db.keyVersions.rows, r.tenantID = kv.tenantID → r.keyID = kv.keyID →
    version = 0 ∨ r.version = version → r = kv

theorem DB.UniqueVersions.selects (hu : db.UniqueVersions) (hkv : kv ∈ db.keyVersions.rows) (hv : kv.version ≠ 0) :
    db.Selects kv.version kv :=
  ⟨.inr rfl, fun r hr ht hk hver => hu r hr kv hkv ht hk (hver.resolve_left hv)⟩

/-- A listing of a stored key's versions starts with the row that its version number selects. -/
theorem listKeyVersions_head {version : Nat} (hkv : kv ∈ db.keyVersions.rows) (hs : db.Selects version kv)
    (order : List DB.KeyVersionOrder) {ps : Option KeyVersionProcessingState}
    (hps : ∀ s, ps = some s → kv.processingState = s) :
    ∃ l, db.listKeyVersions ⟨kv.tenantID, kv.keyID, version, none, ps, order⟩ = .ok (kv :: l) := by
  obtain ⟨ht, hk, -⟩ := keyVersion_canonical hkv
  obtain ⟨l, hl⟩ := @DB.listKeyVersions_of_parse db ⟨kv.tenantID, kv.keyID, version, none, ps, order⟩ _ _ hk ht
  have hmem : kv ∈ l := (DB.listKeyVersions_mem hl).2 ⟨hkv, ht, .inr hk, hs.selected, hps, nofun⟩
  cases l with
  | nil => cases hmem
  | cons r l =>
    obtain ⟨hr, htr, hkr, hvr, -⟩ := DB.listKeyVersions_key hl hk List.mem_cons_self
    have hsame : r = kv :=
      hs.only r hr (Option.some.inj (htr.symm.trans ht)) (Option.some.inj (hkr.symm.trans hk)) hvr
    exact ⟨l, by rw [hl, hsame]⟩

theorem resolveUsableKeyVersion_ok {tenantID keyID i : String} {version : Nat}
    (h : resolveUsableKeyVersion db tenantID keyID version = .ok kv) (hi : uuidIn keyID = some i) :
    kv ∈ db.keyVersions.rows ∧ uuidIn tenantID = some kv.tenantID ∧ uuidIn keyID = some kv.keyID ∧
      (version = 0 ∨ kv.version = version) ∧ kv.processingState = .usable := by
  unfold resolveUsableKeyVersion at h
  obtain ⟨l, hl, h⟩ := bind_eq_ok.1 h
  cases l with
  | nil => cases h
  | cons r l =>
    cases h
    obtain ⟨hr, ht, hk, hver, hps, -⟩ := DB.listKeyVersions_key hl hi List.mem_cons_self
    exact ⟨hr, ht, hk, hver, hps _ rfl⟩

theorem resolveUsableKeyVersion_of_mem {version : Nat} (hkv : kv ∈ db.keyVersions.rows) (hs : db.Selects version kv)
    (hps : kv.processingState = .usable) : resolveUsableKeyVersion db kv.tenantID kv.keyID version = .ok kv := by
  have hps' : ∀ s, some KeyVersionProcessingState.usable = some s → kv.processingState = s := by
    rintro s ⟨⟩
    exact hps
  unfold resolveUsableKeyVersion
  dsimp only
  obtain ⟨l, hl⟩ := listKeyVersions_head hkv hs
      (if version = 0 then [.createdAtDesc, .revisionDesc] else [.revisionDesc]) hps'
  rw [hl]
  rfl

/-- The version carries the provider's name of its key. -/
def Labelled (labels : Labels) (t : SealerType) : Prop :=
  ∃ label, label ≠ "" ∧ labels.get (providerKeyLabel t) = some label

theorem resolveLabel_ok {tenantID keyID label i : String} {version : Nat} {t : SealerType}
    (h : resolveLabel db tenantID keyID version t = .ok label) (hv : version ≠ 0) (hi : uuidIn keyID = some i) :
    ∃ kv ∈ db.keyVersions.rows, uuidIn tenantID = some kv.tenantID ∧ uuidIn keyID = some kv.keyID ∧
      kv.version = version ∧ Labelled kv.labels t := by
  unfold resolveLabel at h
  obtain ⟨kv, hkv, h⟩ := bind_eq_ok.1 h
  unfold fetchOne at hkv
  obtain ⟨l, hl, hkv⟩ := bind_eq_ok.1 hkv
  cases l with
  | nil => cases hkv
  | cons r l =>
    cases hkv
    obtain ⟨hr, ht, hk, hver, -⟩ := DB.listKeyVersions_key hl hi List.mem_cons_self
    refine ⟨kv, hr, ht, hk, hver.resolve_left hv, ?_⟩
    split at h
    · cases h
    · rename_i label' hget
      split at h
      · cases h
      · rename_i hne
        exact ⟨label', hne, hget⟩

theorem resolveLabel_of_mem (hkv : kv ∈ db.keyVersions.rows) (hu : db.UniqueVersions) (hv : kv.version ≠ 0)
    {t : SealerType} (hl : Labelled kv.labels t) :
    ∃ label, resolveLabel db kv.tenantID kv.keyID kv.version t = .ok label := by
  obtain ⟨label, hne, hget⟩ := hl
  obtain ⟨l, hlist⟩ := @listKeyVersions_head db kv kv.version hkv (hu.selects hkv hv) [.revisionDesc] none nofun
  refine ⟨label, ?_⟩
  unfold resolveLabel fetchOne
  rw [hlist]
  dsimp only [bind, Except.bind]
  rw [hget]
  exact if_neg hne

end

/-! ## What success of a call means -/

/-- The processor of a kind on a node. -/
def Cluster.processor (C : Cluster) (node kind : String) : Option Processor :=
  (C.managers node).bind fun m => m.processor kind

section
variable {C : Cluster} {S : ClusterState} {fuel : Nat} {node : String}

/-- The root key's provider seals and unseals with `key` for this version. -/
structure RootKeyAt (C : Cluster) (S : ClusterState) (tenantID keyID : String) (version : Nat)
    (key : Bytes) : Prop where
  nonzero : version ≠ 0
  provider : ∃ spec, S.specs (tenantID, keyID) = some spec ∧ spec.getSealer C.rootProcess = .ok key ∧
    ∃ kv ∈ S.rootDB.keyVersions.rows, kv.tenantID = tenantID ∧ kv.keyID = keyID ∧ kv.version = version ∧
      Labelled kv.labels spec.type

/-- The root manager permits this use of the root key. -/
def RootReady (S : ClusterState) (usage : KeyUsage) (tenantID keyID : String) : Prop :=
  Validator.validateTenant tenantID S.rootDB = .ok () ∧ ∃ k, MayUse S.rootDB tenantID keyID usage k

theorem exportSpec_eq_ok {specs : SpecStore} {tenantID keyID : String} {spec : SealerSpec} :
    exportSpec specs tenantID keyID = .ok spec ↔ specs (tenantID, keyID) = some spec := by
  unfold exportSpec
  cases specs (tenantID, keyID) <;> simp

theorem rootSealerKey_eq_ok {P : Process} {db : DB} {specs : SpecStore} {usage : KeyUsage} {req : SealRequest}
    {key : Bytes} : rootSealerKey P db specs usage req = .ok key ↔
      req.keyVersion ≠ 0 ∧ Validator.validateTenant req.tenantID db = .ok () ∧
        (∃ k, MayUse db req.tenantID req.keyID usage k) ∧ ∃ spec, specs (req.tenantID, req.keyID) = some spec ∧
          spec.getSealer P = .ok key ∧ ∃ label,
            resolveLabel db req.tenantID req.keyID req.keyVersion spec.type = .ok label := by
  unfold rootSealerKey
  rw [bind_unit_eq_ok, bind_unit_eq_ok, bind_unit_eq_ok, check_eq_ok, decide_eq_true_eq, Validator.validateKeyUsage_ok]
  refine and_congr_right fun _ => and_congr_right fun _ => and_congr_right fun _ => ?_
  rw [bind_eq_ok]
  refine exists_congr fun spec => and_congr exportSpec_eq_ok ?_
  rw [bind_eq_ok]
  constructor
  · rintro ⟨k, hk, h⟩
    obtain ⟨label, hl, h⟩ := bind_eq_ok.1 h
    cases h
    exact ⟨hk, label, hl⟩
  · rintro ⟨hk, label, hl⟩
    exact ⟨key, hk, bind_eq_ok.2 ⟨label, hl, rfl⟩⟩

theorem rootKeyAt_of_sealerKey {usage : KeyUsage} (req : SealRequest) {key : Bytes} (ht : Canonical req.tenantID)
    (hk : Canonical req.keyID) (h : rootSealerKey C.rootProcess S.rootDB S.specs usage req = .ok key) :
    RootKeyAt C S req.tenantID req.keyID req.keyVersion key := by
  obtain ⟨hv, -, -, spec, hspec, hkey, label, hl⟩ := rootSealerKey_eq_ok.1 h
  obtain ⟨kv, hkv, ht', hk', hver, hlab⟩ := resolveLabel_ok hl hv hk
  exact ⟨hv, spec, hspec, hkey, kv, hkv, Option.some.inj (ht'.symm.trans ht),
    Option.some.inj (hk'.symm.trans hk), hver, hlab⟩

theorem RootKeyAt.sealerKey {usage : KeyUsage} (req : SealRequest) {key : Bytes}
    (h : RootKeyAt C S req.tenantID req.keyID req.keyVersion key) (hu : S.rootDB.UniqueVersions)
    (hr : RootReady S usage req.tenantID req.keyID) :
    rootSealerKey C.rootProcess S.rootDB S.specs usage req = .ok key := by
  obtain ⟨hv, spec, hspec, hkey, kv, hkv, ht, hk, hver, hlab⟩ := h
  obtain ⟨label, hl⟩ := resolveLabel_of_mem hkv hu (by rw [hver]; exact hv) hlab
  rw [ht, hk, hver] at hl
  exact rootSealerKey_eq_ok.2 ⟨hv, hr.1, hr.2, spec, hspec, hkey, label, hl⟩

theorem resolveSecret_eq_ok {up : Caller} {p : Processor} {kv : KeyVersion} {sec : Bytes} :
    resolveSecret C S up p kv = .ok sec ↔ ∃ loc entry parentKeyID mid, p.vault = some loc ∧
      S.vault (kv.slot loc) = some entry ∧ kv.parentKeyID = some parentKeyID ∧
        up p.parent ⟨kv.tenantID, parentKeyID, kv.parentKeyVersion.getD 0, entry.material, entry.aad⟩ = .ok mid ∧
          transportUnseal C p mid entry.aad = .ok sec ∧ sec ≠ [] := by
  unfold resolveSecret callParent
  constructor
  · intro h
    split at h
    · cases h
    · rename_i loc hl
      split at h
      · cases h
      · rename_i entry hent
        obtain ⟨mid, hmid, h⟩ := bind_eq_ok.1 h
        obtain ⟨sec', hsec, h⟩ := bind_eq_ok.1 h
        rw [bind_unit_eq_ok, check_eq_ok, decide_eq_true_eq] at h
        obtain ⟨hne, h⟩ := h
        cases h
        split at hmid
        · cases hmid
        · rename_i parentKeyID hp
          exact ⟨loc, entry, parentKeyID, mid, hl, hent, hp, hmid, hsec, hne⟩
  · rintro ⟨loc, entry, parentKeyID, mid, hl, hent, hp, hmid, hsec, hne⟩
    rw [hl]
    dsimp only
    rw [hent]
    dsimp only
    rw [hp, bind_eq_ok]
    refine ⟨mid, hmid, bind_eq_ok.2 ⟨sec, hsec, ?_⟩⟩
    rw [bind_unit_eq_ok, check_eq_ok, decide_eq_true_eq]
    exact ⟨hne, rfl⟩

/-- The key, the version and the processor with which a node serves a request for a version of a key. -/
structure Serves (C : Cluster) (S : ClusterState) (node tenantID keyID : String) (version : Nat) (k : Key)
    (kv : KeyVersion) (p : Processor) : Prop where
  usable : resolveUsableKeyVersion (S.db node) tenantID keyID version = .ok kv
  key : (S.db node).getKeyByID keyID tenantID = .ok k
  active : k.lifeCycleState = .active
  processor : C.processor node k.kind = some p

/-- The version that serves a request is stored and usable, and has the number asked for. -/
theorem Serves.version {tenantID keyID : String} {version : Nat} {k : Key} {kv : KeyVersion} {p : Processor}
    (h : Serves C S node tenantID keyID version k kv p) :
    kv ∈ (S.db node).keyVersions.rows ∧ uuidIn tenantID = some kv.tenantID ∧ uuidIn keyID = some kv.keyID ∧
      (version = 0 ∨ kv.version = version) ∧ kv.processingState = .usable :=
  resolveUsableKeyVersion_ok h.usable (DB.getKeyByID_ok h.key).2.1

theorem resolveActiveKey_eq_ok {db : DB} {tenantID keyID : String} {version : Nat} {k : Key} {kv : KeyVersion} :
    resolveActiveKey db tenantID keyID version = .ok (k, kv) ↔
      resolveUsableKeyVersion db tenantID keyID version = .ok kv ∧ db.getKeyByID keyID tenantID = .ok k ∧
        k.lifeCycleState = .active := by
  unfold resolveActiveKey
  rw [bind_eq_ok]
  constructor
  · rintro ⟨kv', hkv, h⟩
    obtain ⟨k', hk, h⟩ := bind_eq_ok.1 h
    rw [bind_unit_eq_ok, check_eq_ok, decide_eq_true_eq] at h
    obtain ⟨hact, h⟩ := h
    cases h
    exact ⟨hkv, hk, hact⟩
  · rintro ⟨hkv, hk, hact⟩
    refine ⟨kv, hkv, bind_eq_ok.2 ⟨k, hk, ?_⟩⟩
    rw [bind_unit_eq_ok, check_eq_ok, decide_eq_true_eq]
    exact ⟨hact, rfl⟩

theorem resolveProcessorAndSecret_eq_ok {up : String → Caller} {tenantID keyID : String} {version : Nat} {p : Processor}
    {sec : Bytes} : resolveProcessorAndSecret C S up node tenantID keyID version = .ok (p, sec) ↔
      ∃ k kv, Serves C S node tenantID keyID version k kv p ∧ resolveSecret C S (up node) p kv = .ok sec := by
  unfold resolveProcessorAndSecret
  rw [bind_eq_ok]
  constructor
  · rintro ⟨⟨k, kv⟩, hkey, h⟩
    obtain ⟨hkv, hk, hact⟩ := resolveActiveKey_eq_ok.1 hkey
    dsimp only at h
    split at h
    · cases h
    · rename_i proc hp
      obtain ⟨sec', hs, h⟩ := bind_eq_ok.1 h
      cases h
      exact ⟨k, kv, ⟨hkv, hk, hact, hp⟩, hs⟩
  · rintro ⟨k, kv, ⟨hkv, hk, hact, hp⟩, hs⟩
    refine ⟨(k, kv), resolveActiveKey_eq_ok.2 ⟨hkv, hk, hact⟩, ?_⟩
    unfold Cluster.processor at hp
    dsimp only
    rw [hp]
    exact bind_eq_ok.2 ⟨sec, hs, rfl⟩

theorem exportSecret_eq_ok {tenantID keyID : String} {version : Nat} {sec : Bytes} :
    exportSecret C S fuel node tenantID keyID version = .ok sec ↔ ∃ k kv p,
      Serves C S node tenantID keyID version k kv p ∧ resolveSecret C S (unsealVia C S fuel node) p kv = .ok sec := by
  unfold exportSecret
  constructor
  · intro h
    cases hres : resolveProcessorAndSecret C S (unsealVia C S fuel) node tenantID keyID version with
    | error err =>
      rw [hres] at h
      cases h
    | ok x =>
      rw [hres] at h
      cases h
      obtain ⟨k, kv, hserves, hsec⟩ := resolveProcessorAndSecret_eq_ok.1 hres
      exact ⟨k, kv, x.1, hserves, hsec⟩
  · rintro ⟨k, kv, p, hserves, hsec⟩
    rw [resolveProcessorAndSecret_eq_ok.2 ⟨k, kv, hserves, hsec⟩]
    rfl

/-- Work with a key's secret, as `Seal` and `Unseal` of a manager do, succeeds when the secret resolves. -/
theorem withSecret_eq_ok {up : String → Caller} {tenantID keyID : String} {version : Nat} {f : Bytes → Except Err Bytes}
    {out : Bytes} :
    (check (version ≠ 0) (.of .keyVersionRequired) >>= fun _ =>
      resolveProcessorAndSecret C S up node tenantID keyID version >>= fun x =>
        match x.1.cryptor with
        | none => .error errNilPointer
        | some _ => f x.2) = .ok out ↔
      version ≠ 0 ∧ ∃ k kv p sec, Serves C S node tenantID keyID version k kv p ∧
        resolveSecret C S (up node) p kv = .ok sec ∧ p.cryptor ≠ none ∧ f sec = .ok out := by
  rw [bind_unit_eq_ok, check_eq_ok, decide_eq_true_eq]
  refine and_congr_right fun _ => ?_
  rw [bind_eq_ok]
  constructor
  · rintro ⟨⟨p, sec⟩, hres, h⟩
    obtain ⟨k, kv, hserves, hsec⟩ := resolveProcessorAndSecret_eq_ok.1 hres
    dsimp only at h
    split at h
    · cases h
    · rename_i c hc
      exact ⟨k, kv, p, sec, hserves, hsec, by rw [hc]; exact Option.some_ne_none c, h⟩
  · rintro ⟨k, kv, p, sec, hserves, hsec, hc, h⟩
    obtain ⟨c, hc⟩ := Option.ne_none_iff_exists'.1 hc
    refine ⟨(p, sec), resolveProcessorAndSecret_eq_ok.2 ⟨k, kv, hserves, hsec⟩, ?_⟩
    dsimp only
    rw [hc]
    exact h

theorem managerUnseal_eq_ok {up : String → Caller} {req : SealRequest} {out : Bytes} :
    managerUnseal C S up node req = .ok out ↔ req.keyVersion ≠ 0 ∧ ∃ k kv p sec,
      Serves C S node req.tenantID req.keyID req.keyVersion k kv p ∧ resolveSecret C S (up node) p kv = .ok sec ∧
        p.cryptor ≠ none ∧ decrypt C.aead sec req.payload req.aad = .ok out :=
  withSecret_eq_ok (f := fun sec => decrypt C.aead sec req.payload req.aad)

theorem managerSeal_eq_ok {up : String → Caller} {nonce : Bytes} {req : SealRequest} {out : Bytes} :
    managerSeal C S up node nonce req = .ok out ↔ req.keyVersion ≠ 0 ∧ ∃ k kv p sec,
      Serves C S node req.tenantID req.keyID req.keyVersion k kv p ∧ resolveSecret C S (up node) p kv = .ok sec ∧
        p.cryptor ≠ none ∧ encrypt C.aead sec nonce req.payload req.aad = .ok out :=
  withSecret_eq_ok (f := fun sec => encrypt C.aead sec nonce req.payload req.aad)

theorem rootUnseal_eq_ok {req : SealRequest} {out : Bytes} : rootUnseal C S req = .ok out ↔
    ∃ key, rootSealerKey C.rootProcess S.rootDB S.specs .decrypt req = .ok key ∧
      decrypt C.aead key req.payload req.aad = .ok out := bind_eq_ok

theorem rootSeal_eq_ok {nonce : Bytes} {req : SealRequest} {out : Bytes} : rootSeal C S nonce req = .ok out ↔
    ∃ key, rootSealerKey C.rootProcess S.rootDB S.specs .encrypt req = .ok key ∧
      encrypt C.aead key nonce req.payload req.aad = .ok out := bind_eq_ok

/-- Where a request for version `v` goes from a processor on `node`, and the version that is asked for there. -/
inductive Reaches (C : Cluster) (node : String) (v : Nat) : SealerRef → String → Nat → Prop where
  | self : Reaches C node v .self node v
  | rpc {name target : String} (hd : C.dial name = some target) (hv : 0 < toInt32 v) :
      Reaches C node v (.rpc name) target (toInt32 v).toNat

/-- A sealer service wants associated data. -/
def SealerRef.Takes (ref : SealerRef) (aad : Bytes) : Prop := ∀ name, ref = .rpc name → aad ≠ []

theorem toInt32_of_lt {n : Nat} (h : n < intBound) : toInt32 n = n := by
  unfold toInt32 intBound at *
  rw [Int.bmod_def]
  omega

theorem rpcRequest_eq_ok {req req' : SealRequest} : rpcRequest req = .ok req' ↔
    (Validator.isValidUUID req.tenantID = true ∧ Validator.isValidUUID req.keyID = true ∧ 0 < toInt32 req.keyVersion ∧
      req.payload ≠ [] ∧ req.aad ≠ []) ∧ { req with keyVersion := (toInt32 req.keyVersion).toNat } = req' := by
  simp only [rpcRequest, bind_unit_eq_ok, check_eq_ok, decide_eq_true_eq, pure, Except.pure, Except.ok.injEq, and_assoc]

theorem reach_ok {ref : SealerRef} (href : ref ≠ .rootManager) {req req' : SealRequest} {target : String}
    (h : reach C node ref req = .ok (target, req')) :
    ∃ v, Reaches C node req.keyVersion ref target v ∧ ref.Takes req.aad ∧ req' = { req with keyVersion := v } := by
  cases ref with
  | rootManager => exact absurd rfl href
  | self =>
    cases h
    exact ⟨req.keyVersion, .self, nofun, rfl⟩
  | rpc name =>
    obtain ⟨q, hq, h⟩ := bind_eq_ok.1 h
    obtain ⟨⟨-, -, hv, -, haad⟩, rfl⟩ := rpcRequest_eq_ok.1 hq
    split at h
    · cases h
    · rename_i t ht
      cases h
      exact ⟨_, .rpc ht hv, fun _ _ => haad, rfl⟩

theorem Reaches.reach {ref : SealerRef} (req : SealRequest) {target : String} {v : Nat}
    (h : Reaches C node req.keyVersion ref target v) (ht : Canonical req.tenantID) (hk : Canonical req.keyID)
    (hp : req.payload ≠ []) (haad : ref.Takes req.aad) :
    reach C node ref req = .ok (target, { req with keyVersion := v }) := by
  cases h with
  | self => rfl
  | rpc hd hv =>
    have hreq := rpcRequest_eq_ok.2 ⟨⟨Validator.isValidUUID_of_canonical ht,
        Validator.isValidUUID_of_canonical hk, hv, hp, haad _ rfl⟩, rfl⟩
    refine bind_eq_ok.2 ⟨_, hreq, ?_⟩
    rw [hd]

theorem Reaches.ne_rootManager {ref : SealerRef} {target : String} {v v' : Nat} (h : Reaches C node v ref target v') :
    ref ≠ .rootManager := by
  cases h <;> nofun

/-! ## Calls that agree -/

/-- Reading a secret back only depends on the answer of the parent. -/
theorem resolveSecret_congr {up up' : Caller} {p : Processor} {kv : KeyVersion}
    (h : ∀ sec aad, callParent up p kv sec aad = callParent up' p kv sec aad) :
    resolveSecret C S up p kv = resolveSecret C S up' p kv := by
  unfold resolveSecret
  simp only [h]

/-- The states of a version do not matter for its secret. -/
theorem resolveSecret_ident {up : Caller} {p : Processor} {kv kv' : KeyVersion} (h : kv.ident = kv'.ident) :
    resolveSecret C S up p kv = resolveSecret C S up p kv' := by
  rw [KeyVersion.ident, KeyVersion.ident, KeyVersionIdent.mk.injEq] at h
  obtain ⟨ht, hk, hv, hr, hp, hpv, -⟩ := h
  unfold resolveSecret callParent KeyVersion.slot
  rw [ht, hk, hv, hr, hp, hpv]

theorem resolveProcessorAndSecret_congr {S' : ClusterState} {up up' : String → Caller} {tenantID keyID : String}
    {version : Nat}
    (hkey : resolveActiveKey (S'.db node) tenantID keyID version = resolveActiveKey (S.db node) tenantID keyID version)
    (h : ∀ k kv p, Serves C S node tenantID keyID version k kv p →
      resolveSecret C S' (up' node) p kv = resolveSecret C S (up node) p kv) :
    resolveProcessorAndSecret C S' up' node tenantID keyID version =
      resolveProcessorAndSecret C S up node tenantID keyID version := by
  unfold resolveProcessorAndSecret
  rw [hkey]
  cases hactive : resolveActiveKey (S.db node) tenantID keyID version with
  | error err => rfl
  | ok x =>
    obtain ⟨k, kv⟩ := x
    obtain ⟨hkv, hk, hact⟩ := resolveActiveKey_eq_ok.1 hactive
    have hproc : ((C.managers node).bind fun m => m.processor k.kind) = C.processor node k.kind := rfl
    dsimp only [bind, Except.bind]
    rw [hproc]
    cases hp : C.processor node k.kind with
    | none => rfl
    | some p =>
      dsimp only
      rw [h k kv p ⟨hkv, hk, hact, hp⟩]

theorem managerUnseal_congr {up up' : String → Caller} {req : SealRequest}
    (h : ∀ k kv p, Serves C S node req.tenantID req.keyID req.keyVersion k kv p →
      resolveSecret C S (up node) p kv = resolveSecret C S (up' node) p kv) :
    managerUnseal C S up node req = managerUnseal C S up' node req := by
  unfold managerUnseal
  rw [resolveProcessorAndSecret_congr rfl h]

/-! ## Calls that end -/

/-- A call that does not give up for lack of fuel. -/
abbrev Ends {α : Type} (x : Except Err α) : Prop := FailsOnly (fun err => err.is .outOfFuel = false) x

theorem ends_keyParams {id tenantID : String} : Ends (keyParams id tenantID) := by
  unfold keyParams
  split <;> simp [errUuidSyntax]

theorem ends_getKeyByID {db : DB} {id tenantID : String} : Ends (db.getKeyByID id tenantID) := by
  unfold DB.getKeyByID
  split
  · rename_i err herr
    exact failsOnly_error.2 (ends_keyParams err herr)
  · split <;> simp

theorem ends_getTenant {db : DB} {id : String} : Ends (db.getTenant id) := by
  unfold DB.getTenant
  split
  · simp [errUuidSyntax]
  · split <;> simp

theorem ends_listKeyVersions {db : DB} {q : DB.ListKeyVersionsQuery} : Ends (db.listKeyVersions q) := by
  have hparams : Ends q.params := by
    unfold DB.ListKeyVersionsQuery.params
    split
    · split <;> simp [errUuidSyntax]
    · split
      · simp
      · rename_i err herr
        exact failsOnly_error.2 (ends_keyParams err herr)
  unfold DB.listKeyVersions
  split
  · rename_i err herr
    exact failsOnly_error.2 (hparams err herr)
  · simp

theorem ends_decrypt {A : Aead} {key ciphertext aad : Bytes} : Ends (decrypt A key ciphertext aad) := by
  refine (failsOnly_check (by simp)).bind fun _ _ => (failsOnly_check (by simp)).bind fun _ _ =>
    (failsOnly_check (by simp)).bind fun _ _ => ?_
  split <;> simp

theorem ends_getSealer {P : Process} {s : SealerSpec} : Ends (s.getSealer P) := by
  unfold SealerSpec.getSealer
  split
  · rename_i sec _
    have hsecret : Ends (sec.getSecret P) := by
      unfold SecretSpec.getSecret
      split <;> try simp [errConfigType]
      cases P.getenv _ <;> simp
    exact hsecret.bind fun _ _ => (failsOnly_check (by simp)).bind fun _ _ =>
      (failsOnly_check (by simp)).bind fun _ _ =>
      failsOnly_ok
  · simp

theorem ends_resolveLabel {db : DB} {tenantID keyID : String} {version : Nat} {t : SealerType} :
    Ends (resolveLabel db tenantID keyID version t) := by
  have hone : ∀ q, Ends (fetchOne db q) := fun q => ends_listKeyVersions.bind fun l _ => by cases l <;> simp
  refine (hone _).bind fun kv _ => ?_
  split
  · simp
  · split <;> simp

theorem ends_rootSealerKey {P : Process} {db : DB} {specs : SpecStore} {usage : KeyUsage} {req : SealRequest} :
    Ends (rootSealerKey P db specs usage req) := by
  have husage : Ends (Validator.validateKeyUsage req.tenantID req.keyID usage db) := by
    refine ends_getKeyByID.bind fun k _ => (failsOnly_check (by simp)).bind fun _ _ => ?_
    unfold KeyLifecycle.validateKeyUsage
    split <;> simp
  have hspec : Ends (exportSpec specs req.tenantID req.keyID) := by
    unfold exportSpec
    split <;> simp
  exact (failsOnly_check (by simp)).bind fun _ _ => ends_getTenant.map.bind fun _ _ => husage.bind fun _ _ =>
    hspec.bind fun _ _ => ends_getSealer.bind fun _ _ => ends_resolveLabel.bind fun _ _ => failsOnly_ok

theorem ends_rootUnseal {req : SealRequest} : Ends (rootUnseal C S req) :=
  ends_rootSealerKey.bind fun _ _ => ends_decrypt

theorem ends_reach {ref : SealerRef} {req : SealRequest} : Ends (reach C node ref req) := by
  unfold reach
  split
  · refine FailsOnly.bind ?_ fun _ _ => ?_
    · exact (failsOnly_check (by simp)).bind fun _ _ => (failsOnly_check (by simp)).bind fun _ _ =>
        (failsOnly_check (by simp)).bind fun _ _ => (failsOnly_check (by simp)).bind fun _ _ =>
          (failsOnly_check (by simp)).bind fun _ _ => failsOnly_ok
    · split <;> simp
  · simp

/-- Reading a secret back ends when the call of the parent does. -/
theorem ends_resolveSecret {up : Caller} {p : Processor} {kv : KeyVersion}
    (h : ∀ sec aad, Ends (callParent up p kv sec aad)) : Ends (resolveSecret C S up p kv) := by
  unfold resolveSecret
  split
  · simp [errNilPointer]
  · split
    · simp
    · refine (h _ _).bind fun _ _ => FailsOnly.bind ?_ fun _ _ => (failsOnly_check (by simp)).bind fun _ _ =>
        failsOnly_ok
      unfold transportUnseal
      split
      · simp
      · exact ends_decrypt

/-- Unsealing ends when reading back the secret of each version that may be used does. -/
theorem ends_managerUnseal {up : String → Caller} {req : SealRequest}
    (h : ∀ k kv p, Serves C S node req.tenantID req.keyID req.keyVersion k kv p →
      Ends (resolveSecret C S (up node) p kv)) :
    Ends (managerUnseal C S up node req) := by
  have hactive : Ends (resolveActiveKey (S.db node) req.tenantID req.keyID req.keyVersion) := by
    refine FailsOnly.bind (ends_listKeyVersions.bind fun l _ => ?_) fun _ _ => ends_getKeyByID.bind fun _ _ =>
      (failsOnly_check ?_).bind fun _ _ => failsOnly_ok
    · cases l <;> simp
    · simp
  refine (failsOnly_check (by simp)).bind fun _ _ => FailsOnly.bind (hactive.bind fun x hx => ?_) fun x _ => ?_
  · obtain ⟨k, kv⟩ := x
    obtain ⟨hkv, hk, hact⟩ := resolveActiveKey_eq_ok.1 hx
    dsimp only
    split
    · simp
    · rename_i p hp
      exact (h k kv p ⟨hkv, hk, hact, hp⟩).bind fun _ _ => failsOnly_ok
  · dsimp only
    split
    · simp [errNilPointer]
    · exact ends_decrypt

/-! ## Creating a secret -/

/-- A secret was drawn and wrapped: for transport, then by the parent. -/
structure SecretCreated (C : Cluster) (S : ClusterState) (fuel : Nat) (node : String) (p : Processor)
    (draw : SecretDraw) (kv : KeyVersion) (aad : Bytes) (slot : VaultKey) (entry : VaultEntry) : Prop where
  cryptor : p.cryptor ≠ none
  vault : ∃ loc, p.vault = some loc ∧ slot = kv.slot loc
  entryAad : entry.aad = aad
  wrapped : ∃ parentKeyID sealed, kv.parentKeyID = some parentKeyID ∧
    transportSeal C p draw.transportNonce draw.secret aad = .ok sealed ∧
      sealVia C S fuel node draw.parentNonce p.parent ⟨kv.tenantID, parentKeyID, kv.parentKeyVersion.getD 0,
        sealed, aad⟩ = .ok entry.material

theorem createSecret_ok {p : Processor} {draw : SecretDraw} {kv : KeyVersion} {aad : Bytes} {slot : VaultKey}
    {entry : VaultEntry} (h : createSecret C S fuel node p draw kv aad = .ok (slot, entry)) :
    SecretCreated C S fuel node p draw kv aad slot entry := by
  unfold createSecret at h
  split at h
  · cases h
  · rename_i c hc
    obtain ⟨sealed, hs, h⟩ := bind_eq_ok.1 h
    obtain ⟨material, hm, h⟩ := bind_eq_ok.1 h
    split at h
    · cases h
    · rename_i loc hl
      cases h
      unfold callParent at hm
      split at hm
      · cases hm
      · rename_i parentKeyID hp
        exact ⟨by rw [hc]; exact Option.some_ne_none c, ⟨loc, hl, rfl⟩, rfl, parentKeyID, sealed, hp, hs, hm⟩

theorem generateAndSealSecret_ok {kind : String} {draw : SecretDraw} {kv : KeyVersion} {aad : Bytes} {slot : VaultKey}
    {entry : VaultEntry} (h : generateAndSealSecret C S fuel node kind draw kv aad = .ok (slot, entry)) :
    ∃ p, C.processor node kind = some p ∧ createSecret C S fuel node p draw kv aad = .ok (slot, entry) := by
  unfold generateAndSealSecret at h
  split at h
  · cases h
  · rename_i p hp
    exact ⟨p, hp, h⟩

end

end Krypton
