import Krypton.Lib.Base64
import Krypton.Lib.Separated
import Krypton.Vault.Sqlite

/-!
# The OpenBao vault

The vault for production (`internal/vault/openbaovault`): every tenant is a namespace of an OpenBao server with a
key-value engine mounted in it, and an entry is a secret whose path names key, version and revision. Material and
associated data are written in base64. What the vault asks of the server is one request at a time, and preparing or
destroying a tenant takes two.

The server is a parameter (`BaoServer`): it answers each request somehow, and nothing but the hypotheses below is
known of it.

* `BaoServer.Stores` — it keeps secrets. A request that is answered as done was done, one that failed was done or not,
  and no request touches the secrets of another path; the deletion of a namespace need not have happened when it is
  answered;
* `BaoServer.Prompt` — when nothing goes wrong it accepts what it is asked for tenants that were prepared.

With them:

* `openBao_refines` — the secrets of the server keep the map of a vault, for tenants that are one segment of a path;
* `export_last_written` — over any run with failing requests, both vaults export what was imported last;
* `vault_answers` — without failing requests the two vaults answer alike.
-/

namespace Krypton

open Lib

/-! ## Requests -/

/-- A secret, as the fields of the JSON object. -/
structure KvData where
  keyMaterial : String
  aad : String
  deriving DecidableEq, Repr

structure ResponseError where
  statusCode : Nat
  errors : List String
  deriving DecidableEq, Repr

inductive ApiError where
  | response (e : ResponseError)
  | transport (text : String)
  deriving DecidableEq, Repr

def ApiError.err : ApiError → Err
  | .response e =>
    .plain ("Error making API request. Code: " ++ toString e.statusCode ++ ". " ++ String.intercalate "; " e.errors)
  | .transport text => .plain text

def kvSecretName : String := "kv-secrets"

def kvMountPath (tenantID : String) : String := tenantID ++ "/" ++ kvSecretName

def kvPath (keyID : String) (keyVersion keyRevision : Nat) : String :=
  keyID ++ "/" ++ toString keyVersion ++ "/" ++ toString keyRevision

def kvSecretPath (tenantID : String) : String := tenantID ++ "/sys/mounts/" ++ kvSecretName

def namespacePath (tenantID : String) : String := "sys/namespaces/" ++ tenantID

/-- The path of an entry below the engine of its tenant. -/
def VaultSlot.path (slot : VaultSlot) : String := kvPath slot.keyID slot.version slot.revision

/-- The type of the engine and its version. -/
def kvCreateRequest : List (String × String) := [("type", "kv"), ("version", "1")]

/-- A request of the client. -/
inductive BaoCall where
  /-- `Logical().Write`. -/
  | write (path : String) (body : List (String × String))
  /-- `Logical().Delete`. -/
  | remove (path : String)
  /-- `KVv1(mount).Put`. -/
  | put (mount path : String) (d : KvData)
  /-- `KVv1(mount).Get`. -/
  | get (mount path : String)
  /-- `KVv1(mount).Delete`. -/
  | delete (mount path : String)
  deriving DecidableEq, Repr

/-- What is answered; only a `get` returns a secret, and `none` is its `ErrSecretNotFound`. -/
abbrev BaoAnswer : Type := Except ApiError (Option KvData)

/-- A server: how it answers a request, given what goes wrong with it on the way. -/
structure BaoServer where
  State : Type
  init : State
  send : BaoCall → Option RequestFault → State → BaoAnswer × State

/-! ## The vault -/

def isKVPathDeleted : ApiError → Bool
  | .response e => e.statusCode == 404
  | .transport _ => false

/-- `strings.Contains`. -/
def containsText (sub : List Char) : List Char → Bool
  | [] => sub.isEmpty
  | c :: cs => sub.isPrefixOf (c :: cs) || containsText sub cs

def isKVPathExists : ApiError → Bool
  | .response e =>
    e.statusCode == 400 &&
      e.errors.any fun text => containsText ("path is already in use at " ++ kvSecretName ++ "/").toList text.toList
  | .transport _ => false

/-- `base64.StdEncoding`. -/
def stdEncoding : Padded where
  digits := "ABCDEFGHIJKLMNOPQRSTUVWXYZabcdefghijklmnopqrstuvwxyz0123456789+/".toList
  length := by decide
  nodup := by decide
  no_break := by decide
  pad := '='
  no_pad := by decide
  pad_no_break := by decide

def base64Encode (b : Bytes) : String := String.ofList (stdEncoding.encodePadded b)

def base64Decode (s : String) : Except Err Bytes :=
  match stdEncoding.decodePadded s.toList with
  | .ok b => .ok b
  | .error i => .error (.plain ("illegal base64 data at input byte " ++ toString i))

/-- `toKvData` of the encoded entry. -/
def VaultEntry.kvData (entry : VaultEntry) : KvData := ⟨base64Encode entry.material, base64Encode entry.aad⟩

namespace BaoServer

variable (B : BaoServer)

def prepareTenant (ev : VaultEvent) (tenantID : String) (s : B.State) : Except Err VaultReply × B.State :=
  match B.send (.write (namespacePath tenantID) []) (ev.faults 0) s with
  | (.error e, s) => (.error e.err, s)
  | (.ok _, s) =>
    match B.send (.write (kvSecretPath tenantID) kvCreateRequest) (ev.faults 1) s with
    | (.error e, s) => (if isKVPathExists e then .ok .done else .error e.err, s)
    | (.ok _, s) => (.ok .done, s)

/-- The second half of `DestroyTenant`. -/
def destroyNamespace (ev : VaultEvent) (tenantID : String) (s : B.State) : Except Err VaultReply × B.State :=
  match B.send (.remove (namespacePath tenantID)) (ev.faults 1) s with
  | (.error e, s) => (.error e.err, s)
  | (.ok _, s) => (.ok .done, s)

def destroyTenant (ev : VaultEvent) (tenantID : String) (s : B.State) : Except Err VaultReply × B.State :=
  match B.send (.remove (kvSecretPath tenantID)) (ev.faults 0) s with
  | (.error e, s) => if isKVPathDeleted e then B.destroyNamespace ev tenantID s else (.error e.err, s)
  | (.ok _, s) => B.destroyNamespace ev tenantID s

def importKey (ev : VaultEvent) (slot : VaultSlot) (keyMaterial : Option Bytes) (aad : Bytes) (s : B.State) :
    Except Err VaultReply × B.State :=
  match keyMaterial with
  | none => (.error errVaultInvalidRequest, s)
  | some m =>
    match B.send (.put (kvMountPath slot.tenantID) slot.path (VaultEntry.mk m aad).kvData) (ev.faults 0) s with
    | (.error e, s) => (.error e.err, s)
    | (.ok _, s) => (.ok .done, s)

/-- What is done with a secret that was found; the second request is the allocation of the memory for the material. -/
def readSecret (ev : VaultEvent) (d : KvData) : Except Err VaultReply := do
  let material ← base64Decode d.keyMaterial
  if material = [] then .error SecureMem.errInvalidSize
  match ev.faults 1 with
  | some f => .error f.err
  | none =>
    let aad ← base64Decode d.aad
    return .exported ⟨material, aad⟩

def exportKey (ev : VaultEvent) (slot : VaultSlot) (s : B.State) : Except Err VaultReply × B.State :=
  match B.send (.get (kvMountPath slot.tenantID) slot.path) (ev.faults 0) s with
  | (.error e, s) => (.error e.err, s)
  | (.ok none, s) => (.error errVaultKeyNotFound, s)
  | (.ok (some d), s) => (readSecret ev d, s)

def destroyKey (ev : VaultEvent) (slot : VaultSlot) (s : B.State) : Except Err VaultReply × B.State :=
  match B.send (.delete (kvMountPath slot.tenantID) slot.path) (ev.faults 0) s with
  | (.error e, s) => (if isKVPathDeleted e then .ok .done else .error e.err, s)
  | (.ok _, s) => (.ok .done, s)

def exec (s : B.State) (ev : VaultEvent) : Except Err VaultReply × B.State :=
  match ev.op with
  | .prepareTenant tenantID => B.prepareTenant ev tenantID s
  | .importKey slot keyMaterial aad => B.importKey ev slot keyMaterial aad s
  | .exportKey slot => B.exportKey ev slot s
  | .destroyKey slot => B.destroyKey ev slot s
  | .destroyTenant tenantID => B.destroyTenant ev tenantID s

end BaoServer

/-- The OpenBao vault on a server. -/
def openBaoVault (B : BaoServer) : VaultImpl := ⟨B.State, B.init, B.exec⟩

/-! ## What is asked of the server -/

/-- The requests of the vault for a tenant. -/
inductive BaoCall.For (tenantID : String) : BaoCall → Prop
  | namespace : For tenantID (.write (namespacePath tenantID) [])
  | mount : For tenantID (.write (kvSecretPath tenantID) kvCreateRequest)
  | unmount : For tenantID (.remove (kvSecretPath tenantID))
  | unname : For tenantID (.remove (namespacePath tenantID))
  | put (path : String) (d : KvData) : For tenantID (.put (kvMountPath tenantID) path d)
  | get (path : String) : For tenantID (.get (kvMountPath tenantID) path)
  | delete (path : String) : For tenantID (.delete (kvMountPath tenantID) path)

/-- What a request leaves for a secret of a tenant, `none` when it does not write it. Removing the engine or the
namespace of a tenant removes its secrets. -/
def BaoCall.writes (tenantID path : String) : BaoCall → Option (Option KvData)
  | .put mount p d => if mount = kvMountPath tenantID ∧ p = path then some (some d) else none
  | .delete mount p => if mount = kvMountPath tenantID ∧ p = path then some none else none
  | .remove p => if p = kvSecretPath tenantID ∨ p = namespacePath tenantID then some none else none
  | .write _ _ | .get _ _ => none

/-- Done, or there was nothing to do it to. -/
def BaoAnswer.gone : BaoAnswer → Bool
  | .ok _ => true
  | .error e => isKVPathDeleted e

/-- Done, or it had been done. -/
def BaoAnswer.there : BaoAnswer → Bool
  | .ok _ => true
  | .error e => isKVPathExists e

/-- The answer says that the request has taken effect. No answer does for the deletion of a namespace. -/
def BaoCall.settled : BaoCall → BaoAnswer → Bool
  | .remove path, r => r.gone && !"sys/namespaces/".toList.isPrefixOf path.toList
  | .delete _ _, r => r.gone
  | .put _ _ _, r | .write _ _, r | .get _ _, r => r.isOk

/-- **The server keeps secrets**, by the path of their engine and the path below it. -/
structure BaoServer.Stores (B : BaoServer) (secrets : B.State → String → String → Option KvData) : Prop where
  empty : ∀ mount path, secrets B.init mount path = none
  /-- A request of one tenant leaves in every place what it says, or is not answered as done and leaves the place. -/
  writes : ∀ t call, OneSegment t → call.For t → ∀ fault s t' path, OneSegment t' →
    secrets (B.send call fault s).2 (kvMountPath t') path =
        (call.writes t' path).getD (secrets s (kvMountPath t') path) ∨
      (call.settled (B.send call fault s).1 = false ∧
        secrets (B.send call fault s).2 (kvMountPath t') path = secrets s (kvMountPath t') path)
  reads : ∀ t path fault s d, OneSegment t → (B.send (.get (kvMountPath t) path) fault s).1 = .ok d →
    d = secrets s (kvMountPath t) path

/-- **The server accepts what it is asked** as long as nothing goes wrong: a namespace can be made at any time, an
engine in a namespace that was made, and secrets can be written where an engine is. -/
structure BaoServer.Prompt (B : BaoServer) (named mounted : B.State → String → Prop) : Prop where
  names : ∀ t s, OneSegment t → (B.send (.write (namespacePath t) []) none s).1.isOk = true ∧
    named (B.send (.write (namespacePath t) []) none s).2 t
  mounts : ∀ t s, OneSegment t → named s t →
    (B.send (.write (kvSecretPath t) kvCreateRequest) none s).1.there = true ∧
      mounted (B.send (.write (kvSecretPath t) kvCreateRequest) none s).2 t
  unmounts : ∀ t s, OneSegment t → (B.send (.remove (kvSecretPath t)) none s).1.gone = true
  unnames : ∀ t s, OneSegment t → (B.send (.remove (namespacePath t)) none s).1.isOk = true
  puts : ∀ t path d s, OneSegment t → mounted s t → (B.send (.put (kvMountPath t) path d) none s).1.isOk = true
  gets : ∀ t path s, OneSegment t → (B.send (.get (kvMountPath t) path) none s).1.isOk = true
  deletes : ∀ t path s, OneSegment t → (B.send (.delete (kvMountPath t) path) none s).1.gone = true
  /-- Only removing the engine or the namespace of a tenant takes its engine away. -/
  keeps : ∀ t call, OneSegment t → call.For t → ∀ s t', OneSegment t' → mounted s t' →
    (t' ≠ t ∨ ∀ path, call ≠ .remove path) → mounted (B.send call none s).2 t'

/-! ## Paths -/

theorem kvMountPath_inj {t t' : String} : kvMountPath t = kvMountPath t' ↔ t = t' := by
  simp [kvMountPath, ← String.toList_inj]

theorem kvSecretPath_inj {t t' : String} : kvSecretPath t = kvSecretPath t' ↔ t = t' := by
  simp [kvSecretPath, ← String.toList_inj]

theorem namespacePath_inj {t t' : String} : namespacePath t = namespacePath t' ↔ t = t' := by
  simp [namespacePath, ← String.toList_inj]

/-- The path of an engine is not that of a namespace. -/
theorem not_isPrefixOf_kvSecretPath {t : String} (ht : OneSegment t) :
    "sys/namespaces/".toList.isPrefixOf (kvSecretPath t).toList = false := by
  rw [← Bool.not_eq_true, List.isPrefixOf_iff_prefix]
  rintro ⟨rest, hrest⟩
  have hpath : "sys".toList ++ '/' :: ("namespaces/".toList ++ rest) =
      t.toList ++ '/' :: "sys/mounts/kv-secrets".toList := by
    have hsplit : (kvSecretPath t).toList = t.toList ++ '/' :: "sys/mounts/kv-secrets".toList := by
      simp [kvSecretPath, kvSecretName]
    rw [← hsplit, ← hrest]
    rfl
  have hsegment := (first_segment (by decide) ht hpath).2
  exact absurd (List.head_eq_of_cons_eq hsegment) (by decide)

theorem isPrefixOf_namespacePath (t : String) :
    "sys/namespaces/".toList.isPrefixOf (namespacePath t).toList = true := by
  rw [List.isPrefixOf_iff_prefix]
  exact ⟨t.toList, by simp [namespacePath]⟩

theorem kvSecretPath_ne_namespacePath {t : String} (ht : OneSegment t) (t' : String) :
    kvSecretPath t ≠ namespacePath t' := by
  intro heq
  have hpath := not_isPrefixOf_kvSecretPath ht
  rw [heq, isPrefixOf_namespacePath] at hpath
  cases hpath

theorem toList_kvPath (k : String) (v r : Nat) :
    (kvPath k v r).toList = (k.toList ++ '/' :: (toString v).toList) ++ '/' :: (toString r).toList := by
  unfold kvPath
  simp

theorem kvPath_inj {k k' : String} {v v' r r' : Nat} : kvPath k v r = kvPath k' v' r' ↔ k = k' ∧ v = v' ∧ r = r' := by
  constructor
  · intro h
    have hlist := congrArg String.toList h
    rw [toList_kvPath, toList_kvPath] at hlist
    obtain ⟨hrest, hr⟩ := last_segment (not_mem_toString (by decide) r) (not_mem_toString (by decide) r') hlist
    obtain ⟨hk, hv⟩ := last_segment (not_mem_toString (by decide) v) (not_mem_toString (by decide) v') hrest
    exact ⟨String.toList_inj.1 hk, Nat.repr_inj.1 (String.toList_inj.1 hv), Nat.repr_inj.1 (String.toList_inj.1 hr)⟩
  · intro h
    rw [h.1, h.2.1, h.2.2]

theorem slot_path_inj {slot slot' : VaultSlot} :
    kvMountPath slot.tenantID = kvMountPath slot'.tenantID ∧ slot.path = slot'.path ↔ slot = slot' := by
  obtain ⟨t, k, v, r⟩ := slot
  obtain ⟨t', k', v', r'⟩ := slot'
  simp only [VaultSlot.path, kvMountPath_inj, kvPath_inj, VaultSlot.mk.injEq]

/-! ## The server as a map -/

/-- The entry a secret stands for. -/
def KvData.entry (d : KvData) : Option VaultEntry :=
  match base64Decode d.keyMaterial, base64Decode d.aad with
  | .ok material, .ok aad => some ⟨material, aad⟩
  | _, _ => none

@[simp] theorem base64Decode_encode (b : Bytes) : base64Decode (base64Encode b) = .ok b := by
  unfold base64Decode base64Encode
  rw [String.toList_ofList, Padded.decode_encodePadded]

theorem entry_kvData (entry : VaultEntry) : entry.kvData.entry = some entry := by
  simp [KvData.entry, VaultEntry.kvData]

/-- The request writes what the operation writes. -/
def BaoCall.Does (call : BaoCall) (op : VaultOp) : Prop :=
  ∀ slot : VaultSlot, OneSegment slot.tenantID →
    call.writes slot.tenantID slot.path = (op.writes slot).map (Option.map VaultEntry.kvData)

namespace BaoCall

variable {t path : String} {slot : VaultSlot}

theorem does_write (body : List (String × String)) : (write path body).Does (.prepareTenant t) := fun _ _ => rfl

theorem does_get (slot : VaultSlot) : (get t path).Does (.exportKey slot) := fun _ _ => rfl

theorem does_put (entry : VaultEntry) : (put (kvMountPath slot.tenantID) slot.path entry.kvData).Does
    (.importKey slot (some entry.material) entry.aad) := by
  intro slot' _
  simp only [writes, VaultOp.writes, slot_path_inj]
  split <;> rfl

theorem does_delete : (delete (kvMountPath slot.tenantID) slot.path).Does (.destroyKey slot) := by
  intro slot' _
  simp only [writes, VaultOp.writes, slot_path_inj]
  split <;> rfl

theorem does_unmount (ht : OneSegment t) : (remove (kvSecretPath t)).Does (.destroyTenant t) := by
  intro slot _
  simp only [writes, VaultOp.writes, kvSecretPath_inj, kvSecretPath_ne_namespacePath ht, or_false, eq_comm (a := t)]
  split <;> rfl

theorem does_unname : (remove (namespacePath t)).Does (.destroyTenant t) := by
  intro slot hslot
  have hne : namespacePath t ≠ kvSecretPath slot.tenantID := (kvSecretPath_ne_namespacePath hslot t).symm
  simp only [writes, VaultOp.writes, namespacePath_inj, hne, false_or, eq_comm (a := t)]
  split <;> rfl

theorem settled_unmount (ht : OneSegment t) (r : BaoAnswer) : (remove (kvSecretPath t)).settled r = r.gone := by
  rw [settled, not_isPrefixOf_kvSecretPath ht, Bool.not_false, Bool.and_true]

end BaoCall

namespace BaoServer

variable {B : BaoServer} {secrets : B.State → String → String → Option KvData} {s s' : B.State} {t : String}
  {slot : VaultSlot} {call : BaoCall} {op : VaultOp} {ev : VaultEvent}

/-- What the server holds. -/
def entries (secrets : B.State → String → String → Option KvData) (s : B.State) : VaultMap := fun slot =>
  (secrets s (kvMountPath slot.tenantID) slot.path).bind KvData.entry

/-- The secrets were written by the vault. -/
def Inv (secrets : B.State → String → String → Option KvData) (s : B.State) : Prop :=
  ∀ slot : VaultSlot, OneSegment slot.tenantID → ∀ d, secrets s (kvMountPath slot.tenantID) slot.path = some d →
    ∃ entry : VaultEntry, d = entry.kvData

/-- What a request leaves behind for an operation that it carries out, and what its answer says about that. -/
structure Leaves (secrets : B.State → String → String → Option KvData) (op : VaultOp) (s : B.State) (settled : Bool)
    (s' : B.State) : Prop where
  inv : Inv secrets s'
  writes : ∀ slot : VaultSlot, OneSegment slot.tenantID → entries secrets s' slot = op.apply (entries secrets s) slot ∨
    (settled = false ∧ entries secrets s' slot = entries secrets s slot)

/-- **One request.** -/
theorem Stores.leaves (hB : B.Stores secrets) (h : Inv secrets s) (ht : OneSegment t) (hfor : call.For t)
    (hdoes : call.Does op) (fault : Option RequestFault) :
    Leaves secrets op s (call.settled (B.send call fault s).1) (B.send call fault s).2 := by
  constructor
  · intro slot hslot d hd
    rcases hB.writes t call ht hfor fault s slot.tenantID slot.path hslot with hnew | ⟨_, hold⟩
    · rw [hd, hdoes slot hslot] at hnew
      -- what is new is the text of an entry
      rcases hw : op.writes slot with _ | _ | entry
      · rw [hw] at hnew
        exact h slot hslot d hnew.symm
      · rw [hw] at hnew
        cases hnew
      · rw [hw] at hnew
        exact ⟨entry, Option.some.inj hnew⟩
    · exact h slot hslot d (hold.symm.trans hd)
  · intro slot hslot
    unfold entries VaultOp.apply
    rcases hB.writes t call ht hfor fault s slot.tenantID slot.path hslot with hnew | ⟨hunsettled, hold⟩
    · left
      rw [hnew, hdoes slot hslot]
      rcases op.writes slot with _ | _ | entry
      · rfl
      · rfl
      · exact entry_kvData entry
    · exact .inr ⟨hunsettled, by rw [hold]⟩

/-! ### Operations -/

theorem is_err (e : ApiError) : e.err.is .vaultKeyNotFound = false := by
  cases e <;> rfl

/-- An operation keeps the map: see `VaultImpl.Refines`. -/
structure Performs (secrets : B.State → String → String → Option KvData) (op : VaultOp) (s : B.State)
    (r : Except Err VaultReply × B.State) : Prop where
  inv : Inv secrets r.2
  writes : ∀ slot : VaultSlot, OneSegment slot.tenantID →
    entries secrets r.2 slot = op.apply (entries secrets s) slot ∨
      (¬ r.1.isOk = true ∧ entries secrets r.2 slot = entries secrets s slot)
  replies : r.1 = op.reply (entries secrets s) ∨ ∃ e, r.1 = .error e ∧ e.is .vaultKeyNotFound = false

/-- The last request of an operation was answered as done. -/
theorem Leaves.done (h : Leaves secrets op s true s') (hreply : op.reply (entries secrets s) = .ok .done) :
    Performs secrets op s (.ok .done, s') := by
  refine ⟨h.inv, fun slot hslot => ?_, .inl hreply.symm⟩
  rcases h.writes slot hslot with hnew | ⟨hfalse, _⟩
  · exact .inl hnew
  · cases hfalse

/-- A request of an operation failed. -/
theorem Leaves.failed {settled : Bool} (h : Leaves secrets op s settled s') (e : ApiError) :
    Performs secrets op s (.error e.err, s') := by
  refine ⟨h.inv, fun slot hslot => ?_, .inr ⟨e.err, rfl, is_err e⟩⟩
  rcases h.writes slot hslot with hnew | ⟨_, hold⟩
  · exact .inl hnew
  · exact .inr ⟨by simp [Except.isOk, Except.toBool], hold⟩

/-- An operation that was refused without a request. -/
theorem performs_refused (h : Inv secrets s) {e : Err} (he : e.is .vaultKeyNotFound = false) :
    Performs secrets op s (.error e, s) :=
  ⟨h, fun _ _ => .inr ⟨by simp [Except.isOk, Except.toBool], rfl⟩, .inr ⟨e, rfl, he⟩⟩

/-- Doing it again changes nothing. -/
theorem apply_twice (op : VaultOp) {entries entries' : VaultMap} (h : entries' slot = op.apply entries slot) :
    op.apply entries' slot = op.apply entries slot := by
  unfold VaultOp.apply at h ⊢
  cases hw : op.writes slot with
  | none => rw [h, hw]; rfl
  | some w => rfl

/-- A second request for the same operation, after one that was answered as done. -/
theorem Leaves.again {settled : Bool} {s₁ : B.State} (h : Leaves secrets op s true s₁)
    (h' : Leaves secrets op s₁ settled s') : Leaves secrets op s true s' := by
  refine ⟨h'.inv, fun slot hslot => .inl ?_⟩
  have hfirst : entries secrets s₁ slot = op.apply (entries secrets s) slot := by
    rcases h.writes slot hslot with hnew | ⟨hfalse, _⟩
    · exact hnew
    · cases hfalse
  rcases h'.writes slot hslot with hnew | ⟨_, hold⟩
  · exact hnew.trans (apply_twice op hfirst)
  · exact hold.trans hfirst

/-- Preparing a tenant writes nothing, whatever is answered. -/
theorem Leaves.settle {settled : Bool} (h : Leaves secrets (.prepareTenant t) s settled s') :
    Leaves secrets (.prepareTenant t) s true s' := by
  refine ⟨h.inv, fun slot hslot => .inl ?_⟩
  rcases h.writes slot hslot with hnew | ⟨_, hold⟩
  · exact hnew
  · exact hold

variable (hB : B.Stores secrets) (h : Inv secrets s)
include hB h

theorem performs_prepareTenant (ht : OneSegment t) :
    Performs secrets (.prepareTenant t) s (B.prepareTenant ev t s) := by
  have hname := (hB.leaves h ht .namespace (BaoCall.does_write (t := t) []) (ev.faults 0)).settle
  unfold prepareTenant
  rcases hr : B.send (.write (namespacePath t) []) (ev.faults 0) s with ⟨_ | _, s₁⟩
  · rw [hr] at hname
    exact hname.failed _
  · rw [hr] at hname
    have hmount := hname.again
      (hB.leaves hname.inv ht .mount (BaoCall.does_write (t := t) kvCreateRequest) (ev.faults 1))
    dsimp only
    rcases hr' : B.send (.write (kvSecretPath t) kvCreateRequest) (ev.faults 1) s₁ with ⟨e | _, s₂⟩
    · rw [hr'] at hmount
      dsimp only
      split
      · exact hmount.done rfl
      · exact hmount.failed e
    · rw [hr'] at hmount
      exact hmount.done rfl

/-- The namespace goes after the engine, so that it does not matter when. -/
theorem performs_destroyTenant (ht : OneSegment t) :
    Performs secrets (.destroyTenant t) s (B.destroyTenant ev t s) := by
  have hspace : ∀ s₁, Leaves secrets (.destroyTenant t) s true s₁ →
      Performs secrets (.destroyTenant t) s (B.destroyNamespace ev t s₁) := by
    intro s₁ hmount
    have hname := hmount.again (hB.leaves hmount.inv ht .unname BaoCall.does_unname (ev.faults 1))
    unfold destroyNamespace
    rcases hr : B.send (.remove (namespacePath t)) (ev.faults 1) s₁ with ⟨e | _, s₂⟩
    · rw [hr] at hname
      exact hname.failed e
    · rw [hr] at hname
      exact hname.done rfl
  have hmount := hB.leaves h ht .unmount (BaoCall.does_unmount ht) (ev.faults 0)
  rw [BaoCall.settled_unmount ht] at hmount
  unfold destroyTenant
  rcases hr : B.send (.remove (kvSecretPath t)) (ev.faults 0) s with ⟨e | _, s₁⟩
  · rw [hr] at hmount
    dsimp only
    split
    · rename_i hgone
      exact hspace s₁ (hgone ▸ hmount)
    · exact hmount.failed e
  · rw [hr] at hmount
    exact hspace s₁ hmount

theorem performs_importKey (hslot : OneSegment slot.tenantID) (keyMaterial : Option Bytes) (aad : Bytes) :
    Performs secrets (.importKey slot keyMaterial aad) s (B.importKey ev slot keyMaterial aad s) := by
  unfold importKey
  cases keyMaterial with
  | none => exact performs_refused h rfl
  | some m =>
    have hput := hB.leaves h hslot (.put slot.path _) (BaoCall.does_put ⟨m, aad⟩) (ev.faults 0)
    dsimp only at hput ⊢
    rcases hr : B.send (.put (kvMountPath slot.tenantID) slot.path (VaultEntry.mk m aad).kvData) (ev.faults 0) s with
      ⟨e | _, s₁⟩
    · rw [hr] at hput
      exact hput.failed e
    · rw [hr] at hput
      exact hput.done rfl

theorem performs_destroyKey (hslot : OneSegment slot.tenantID) :
    Performs secrets (.destroyKey slot) s (B.destroyKey ev slot s) := by
  have hdelete := hB.leaves h hslot (.delete slot.path) BaoCall.does_delete (ev.faults 0)
  unfold destroyKey
  rcases hr : B.send (.delete (kvMountPath slot.tenantID) slot.path) (ev.faults 0) s with ⟨e | _, s₁⟩
  · rw [hr] at hdelete
    dsimp only
    split
    · rename_i hgone
      have hsettled : (BaoCall.delete (kvMountPath slot.tenantID) slot.path).settled (.error e) = true := hgone
      exact (hsettled ▸ hdelete).done rfl
    · exact hdelete.failed e
  · rw [hr] at hdelete
    exact hdelete.done rfl

omit hB h in
/-- A secret the vault wrote is read back. -/
theorem readSecret_kvData (ev : VaultEvent) (entry : VaultEntry) :
    readSecret ev entry.kvData = .ok (.exported entry) ∨
      ∃ e, readSecret ev entry.kvData = .error e ∧ e.is .vaultKeyNotFound = false ∧
        (entry.material = [] ∨ ev.faults 1 ≠ none) := by
  unfold readSecret VaultEntry.kvData
  simp only [base64Decode_encode]
  dsimp only [bind, Except.bind, pure, Except.pure]
  by_cases hm : entry.material = []
  · rw [if_pos hm]
    exact .inr ⟨_, rfl, rfl, .inl hm⟩
  · rw [if_neg hm]
    cases hf : ev.faults 1 with
    | some f => exact .inr ⟨f.err, rfl, rfl, .inr (by simp)⟩
    | none => exact .inl rfl

/-- What reading a secret finds is what the map holds. -/
theorem get_cases (hslot : OneSegment slot.tenantID) (fault : Option RequestFault) :
    (∃ e, (B.send (.get (kvMountPath slot.tenantID) slot.path) fault s).1 = .error e) ∨
      ((B.send (.get (kvMountPath slot.tenantID) slot.path) fault s).1 = .ok none ∧ entries secrets s slot = none) ∨
      ∃ entry : VaultEntry,
        (B.send (.get (kvMountPath slot.tenantID) slot.path) fault s).1 = .ok (some entry.kvData) ∧
          entries secrets s slot = some entry := by
  cases hr : (B.send (.get (kvMountPath slot.tenantID) slot.path) fault s).1 with
  | error e => exact .inl ⟨e, rfl⟩
  | ok d =>
    have hd := hB.reads _ _ _ _ _ hslot hr
    unfold entries
    rw [← hd]
    cases d with
    | none => exact .inr (.inl ⟨rfl, rfl⟩)
    | some d =>
      obtain ⟨entry, rfl⟩ := h slot hslot d hd.symm
      exact .inr (.inr ⟨entry, rfl, entry_kvData entry⟩)

theorem performs_exportKey (hslot : OneSegment slot.tenantID) :
    Performs secrets (.exportKey slot) s (B.exportKey ev slot s) := by
  have hget := hB.leaves h hslot (.get slot.path) (BaoCall.does_get slot) (ev.faults 0)
  have hsame : ∀ slot' : VaultSlot, OneSegment slot'.tenantID →
      entries secrets (B.send (.get (kvMountPath slot.tenantID) slot.path) (ev.faults 0) s).2 slot' =
        (VaultOp.exportKey slot).apply (entries secrets s) slot' :=
    fun slot' hslot' => (hget.writes slot' hslot').elim id And.right
  have hcases := get_cases hB h hslot (ev.faults 0)
  unfold exportKey
  generalize B.send (.get (kvMountPath slot.tenantID) slot.path) (ev.faults 0) s = p at hget hsame hcases
  obtain ⟨r, s₁⟩ := p
  rcases hcases with ⟨e, rfl⟩ | ⟨rfl, hnone⟩ | ⟨entry, rfl, hsome⟩
  · exact hget.failed e
  · refine ⟨hget.inv, fun slot' hslot' => .inl (hsame slot' hslot'), .inl ?_⟩
    rw [VaultOp.reply, hnone]
  · refine ⟨hget.inv, fun slot' hslot' => .inl (hsame slot' hslot'), ?_⟩
    rw [VaultOp.reply, hsome]
    rcases readSecret_kvData ev entry with hread | ⟨e, hread, he, _⟩
    · exact .inl hread
    · exact .inr ⟨e, hread, he⟩

theorem performs_exec (ht : OneSegment ev.op.tenantID) : Performs secrets ev.op s (B.exec s ev) := by
  unfold exec
  revert ht
  cases ev.op with
  | prepareTenant tenantID => exact fun ht => performs_prepareTenant hB h ht
  | importKey slot keyMaterial aad => exact fun ht => performs_importKey hB h ht keyMaterial aad
  | exportKey slot => exact fun ht => performs_exportKey hB h ht
  | destroyKey slot => exact fun ht => performs_destroyKey hB h ht
  | destroyTenant tenantID => exact fun ht => performs_destroyTenant hB h ht

end BaoServer

theorem openBao_refines {B : BaoServer} {secrets : B.State → String → String → Option KvData} (hB : B.Stores secrets) :
    (openBaoVault B).Refines (BaoServer.Inv secrets) (BaoServer.entries secrets) where
  init slot _ d hd := by
    rw [show secrets (openBaoVault B).init _ _ = none from hB.empty _ _] at hd
    cases hd
  empty slot := by
    unfold BaoServer.entries
    rw [show secrets (openBaoVault B).init _ _ = none from hB.empty _ _]
    rfl
  keeps _ _ h ht := (BaoServer.performs_exec hB h ht).inv
  writes _ _ h ht := (BaoServer.performs_exec hB h ht).writes
  replies _ _ h ht := (BaoServer.performs_exec hB h ht).replies

/-! ## Answers without faults -/

namespace BaoServer

variable {B : BaoServer} {secrets : B.State → String → String → Option KvData} {named mounted : B.State → String → Prop}
  {s : B.State} {v : VaultModel} {t : String} {slot : VaultSlot} {ev : VaultEvent}

/-- Prepared tenants have an engine. -/
def Ready (mounted : B.State → String → Prop) (s : B.State) (v : VaultModel) : Prop :=
  ∀ t, OneSegment t → v.tenants t = true → mounted s t

theorem eq_ok_of_isOk {r : BaoAnswer × B.State} (h : r.1.isOk = true) : ∃ d s', r = (.ok d, s') := by
  obtain ⟨_ | d, s'⟩ := r
  · cases h
  · exact ⟨d, s', rfl⟩

variable (hB : B.Prompt named mounted) (hf : ∀ i, ev.faults i = none)
include hB hf

theorem prepareTenant_quiet (ht : OneSegment t) (hready : Ready mounted s v) :
    (B.prepareTenant ev t s).1 = .ok .done ∧
      Ready mounted (B.prepareTenant ev t s).2 (v.exec (.prepareTenant t)).2 := by
  have hkept : ∀ call : BaoCall, call.For t → (∀ path, call ≠ .remove path) → ∀ s t', OneSegment t' → mounted s t' →
      mounted (B.send call none s).2 t' :=
    fun call hfor hnot s t' ht' hm => hB.keeps t call ht hfor s t' ht' hm (.inr hnot)
  have hname := hkept _ .namespace (fun _ => BaoCall.noConfusion) s
  obtain ⟨hok, hnamed⟩ := hB.names t s ht
  unfold prepareTenant
  rw [hf 0, hf 1]
  obtain ⟨d, s₁, hr⟩ := eq_ok_of_isOk hok
  rw [hr] at hnamed hname ⊢
  have hmount := hkept _ .mount (fun _ => BaoCall.noConfusion) s₁
  obtain ⟨hthere, hmounted⟩ := hB.mounts t s₁ ht hnamed
  dsimp only
  have hnext : ∀ s₂, (B.send (.write (kvSecretPath t) kvCreateRequest) none s₁).2 = s₂ →
      Ready mounted s₂ (v.exec (.prepareTenant t)).2 := by
    rintro s₂ rfl t' ht' hprepared
    by_cases heq : t' = t
    · rw [heq]
      exact hmounted
    · have hbefore : v.tenants t' = true := by simpa [VaultModel.exec, Function.update_of_ne heq] using hprepared
      exact hmount t' ht' (hname t' ht' (hready t' ht' hbefore))
  rcases hr' : B.send (.write (kvSecretPath t) kvCreateRequest) none s₁ with ⟨e | _, s₂⟩
  · rw [hr'] at hthere hnext
    have hexists : isKVPathExists e = true := hthere
    dsimp only
    rw [if_pos hexists]
    exact ⟨rfl, hnext s₂ rfl⟩
  · rw [hr'] at hnext
    exact ⟨rfl, hnext s₂ rfl⟩

theorem destroyTenant_quiet (ht : OneSegment t) (hready : Ready mounted s v) :
    (B.destroyTenant ev t s).1 = .ok .done ∧
      Ready mounted (B.destroyTenant ev t s).2 (v.exec (.destroyTenant t)).2 := by
  -- the other tenants keep their engines
  have hkept : ∀ call : BaoCall, call.For t → ∀ s, Ready mounted s (v.exec (.destroyTenant t)).2 →
      Ready mounted (B.send call none s).2 (v.exec (.destroyTenant t)).2 := by
    intro call hfor s hs t' ht' hprepared
    have heq : t' ≠ t := by
      rintro rfl
      simp [VaultModel.exec] at hprepared
    exact hB.keeps t call ht hfor s t' ht' (hs t' ht' hprepared) (.inl heq)
  have hothers : Ready mounted s (v.exec (.destroyTenant t)).2 := by
    intro t' ht' hprepared
    have heq : t' ≠ t := by
      rintro rfl
      simp [VaultModel.exec] at hprepared
    exact hready t' ht' (by simpa [VaultModel.exec, Function.update_of_ne heq] using hprepared)
  have hspace : ∀ s₁, Ready mounted s₁ (v.exec (.destroyTenant t)).2 → (B.destroyNamespace ev t s₁).1 = .ok .done ∧
      Ready mounted (B.destroyNamespace ev t s₁).2 (v.exec (.destroyTenant t)).2 := by
    intro s₁ hs₁
    have hs₂ := hkept _ .unname s₁ hs₁
    obtain ⟨d, s₂, hr⟩ := eq_ok_of_isOk (hB.unnames t s₁ ht)
    unfold destroyNamespace
    rw [hf 1]
    rw [hr] at hs₂ ⊢
    exact ⟨rfl, hs₂⟩
  have hs₁ := hkept _ .unmount s hothers
  have hgone := hB.unmounts t s ht
  unfold destroyTenant
  rw [hf 0]
  rcases hr : B.send (.remove (kvSecretPath t)) none s with ⟨e | _, s₁⟩
  · rw [hr] at hgone hs₁
    have hdeleted : isKVPathDeleted e = true := hgone
    dsimp only
    rw [if_pos hdeleted]
    exact hspace s₁ hs₁
  · rw [hr] at hs₁
    exact hspace s₁ hs₁

omit hf in
/-- A request for an entry leaves the engines. -/
theorem ready_send (ht : OneSegment t) {call : BaoCall} (hfor : call.For t) (hnot : ∀ path, call ≠ .remove path)
    (hready : Ready mounted s v) : Ready mounted (B.send call none s).2 v :=
  fun t' ht' hprepared => hB.keeps t call ht hfor s t' ht' (hready t' ht' hprepared) (.inr hnot)

theorem importKey_quiet (hslot : OneSegment slot.tenantID) (m aad : Bytes) (hm : mounted s slot.tenantID)
    (hready : Ready mounted s v) :
    (B.importKey ev slot (some m) aad s).1 = .ok .done ∧ Ready mounted (B.importKey ev slot (some m) aad s).2 v := by
  have hs₁ := ready_send hB hslot (.put slot.path (VaultEntry.mk m aad).kvData) (fun _ => BaoCall.noConfusion) hready
  obtain ⟨d, s₁, hr⟩ := eq_ok_of_isOk (hB.puts _ slot.path (VaultEntry.mk m aad).kvData s hslot hm)
  unfold importKey
  dsimp only
  rw [hf 0]
  rw [hr] at hs₁ ⊢
  exact ⟨rfl, hs₁⟩

theorem destroyKey_quiet (hslot : OneSegment slot.tenantID) (hready : Ready mounted s v) :
    (B.destroyKey ev slot s).1 = .ok .done ∧ Ready mounted (B.destroyKey ev slot s).2 v := by
  have hs₁ := ready_send hB hslot (.delete slot.path) (fun _ => BaoCall.noConfusion) hready
  have hgone := hB.deletes _ slot.path s hslot
  unfold destroyKey
  rw [hf 0]
  rcases hr : B.send (.delete (kvMountPath slot.tenantID) slot.path) none s with ⟨e | _, s₁⟩
  · rw [hr] at hgone hs₁
    have hdeleted : isKVPathDeleted e = true := hgone
    dsimp only
    rw [if_pos hdeleted]
    exact ⟨rfl, hs₁⟩
  · rw [hr] at hs₁
    exact ⟨rfl, hs₁⟩

theorem exportKey_quiet (hstores : B.Stores secrets) (hI : Inv secrets s) (hslot : OneSegment slot.tenantID)
    (hmaterial : ∀ entry, entries secrets s slot = some entry → entry.material ≠ []) (hready : Ready mounted s v) :
    (B.exportKey ev slot s).1 = (VaultOp.exportKey slot).reply (entries secrets s) ∧
      Ready mounted (B.exportKey ev slot s).2 v := by
  have hs₁ := ready_send hB hslot (.get slot.path) (fun _ => BaoCall.noConfusion) hready
  have hcases := get_cases hstores hI hslot none
  have hok := hB.gets _ slot.path s hslot
  unfold exportKey
  rw [hf 0, VaultOp.reply]
  generalize B.send (.get (kvMountPath slot.tenantID) slot.path) none s = p at hs₁ hcases hok
  obtain ⟨r, s₁⟩ := p
  rcases hcases with ⟨e, rfl⟩ | ⟨rfl, hnone⟩ | ⟨entry, rfl, hsome⟩
  · cases hok
  · rw [hnone]
    exact ⟨rfl, hs₁⟩
  · rw [hsome]
    rcases readSecret_kvData ev entry with hread | ⟨e, _, _, hempty | hfault⟩
    · exact ⟨hread, hs₁⟩
    · exact absurd hempty (hmaterial entry hsome)
    · exact absurd (hf 1) hfault

/-- Without faults the server answers every allowed operation as the map does. -/
theorem exec_quiet (hstores : B.Stores secrets) (hI : Inv secrets s) (hready : Ready mounted s v)
    (hheld : v.Held (entries secrets s)) (hallows : v.Allows ev.op) :
    Ready mounted (B.exec s ev).2 (v.exec ev.op).2 ∧ (B.exec s ev).1 = ev.op.reply (entries secrets s) := by
  obtain ⟨op, faults, now⟩ := ev
  cases op with
  | prepareTenant t => exact (prepareTenant_quiet hB hf hallows.1 hready).symm
  | destroyTenant t => exact (destroyTenant_quiet hB hf hallows.1 hready).symm
  | importKey slot keyMaterial aad =>
    cases keyMaterial with
    | none => exact ⟨hready, rfl⟩
    | some m => exact (importKey_quiet hB hf hallows.1 m aad (hready _ hallows.1 hallows.2.1) hready).symm
  | exportKey slot =>
    exact (exportKey_quiet hB hf hstores hI hallows.1 (fun entry hentry =>
      hheld.material slot entry ((hheld.same slot hallows.1).symm.trans hentry)) hready).symm
  | destroyKey slot => exact (destroyKey_quiet hB hf hallows.1 hready).symm

end BaoServer

/-! ## The two vaults -/

/-- The vault behind a place, with the server for the places that are one. -/
def VaultLoc.impl (B : BaoServer) : VaultLoc → VaultImpl
  | .memory _ | .file _ => sqliteVault
  | .openBao _ => openBaoVault B

/-- Both vaults keep the map. -/
theorem VaultLoc.refines {B : BaoServer} {secrets : B.State → String → String → Option KvData} (hB : B.Stores secrets)
    (loc : VaultLoc) : ∃ Inv entries, (loc.impl B).Refines Inv entries := by
  cases loc with
  | memory process => exact ⟨_, _, sqlite_refines⟩
  | file path => exact ⟨_, _, sqlite_refines⟩
  | openBao address => exact ⟨_, _, openBao_refines hB⟩

/-- The tenant of an engine. -/
def demoMountTenant (mount : String) : String := String.ofList (mount.toList.take (mount.toList.length - 11))

theorem demoMountTenant_kvMountPath (t : String) : demoMountTenant (kvMountPath t) = t := by
  simp [demoMountTenant, kvMountPath, kvSecretName]

/-- The secrets are the whole state, and every request is accepted. -/
def demoHandle : BaoCall → (String → String → Option KvData) → BaoAnswer × (String → String → Option KvData)
  | .write _ _, s => (.ok none, s)
  | .remove path, s => (.ok none, fun mount p =>
      if path = kvSecretPath (demoMountTenant mount) ∨
        path = namespacePath (demoMountTenant mount) then none else s mount p)
  | .put mount path d, s => (.ok none, fun m p => if mount = m ∧ path = p then some d else s m p)
  | .get mount path, s => (.ok (s mount path), s)
  | .delete mount path, s => (.ok none, fun m p => if mount = m ∧ path = p then none else s m p)

def demoBao : BaoServer where
  State := String → String → Option KvData
  init _ _ := none
  send call fault s :=
    match fault with
    | none => demoHandle call s
    | some f => (.error (.transport f.text), if f.effect then (demoHandle call s).2 else s)

theorem demoHandle_writes (call : BaoCall) (s : String → String → Option KvData) (t path : String) :
    (demoHandle call s).2 (kvMountPath t) path = (call.writes t path).getD (s (kvMountPath t) path) := by
  cases call with
  | write p body => rfl
  | get mount p => rfl
  | put mount p d =>
    simp only [demoHandle, BaoCall.writes]
    split <;> rfl
  | delete mount p =>
    simp only [demoHandle, BaoCall.writes]
    split <;> rfl
  | remove p =>
    simp only [demoHandle, BaoCall.writes, demoMountTenant_kvMountPath]
    split <;> rfl

theorem demoBao_stores : demoBao.Stores fun s => s where
  empty _ _ := rfl
  writes t call _ _ fault s t' path _ := by
    cases fault with
    | none => exact .inl (demoHandle_writes call s t' path)
    | some f =>
      cases hf : f.effect with
      | true =>
        left
        rw [show (demoBao.send call (some f) s).2 = (demoHandle call s).2 by simp [demoBao, hf]]
        exact demoHandle_writes call s t' path
      | false =>
        right
        rw [show demoBao.send call (some f) s = (.error (.transport f.text), s) by simp [demoBao, hf]]
        exact ⟨by cases call <;> rfl, rfl⟩
  reads t path fault s d _ h := by
    cases fault with
    | none => exact (Except.ok.inj h).symm
    | some f => cases h

theorem demoBao_prompt : demoBao.Prompt (fun _ _ => True) fun _ _ => True where
  names _ _ _ := ⟨rfl, trivial⟩
  mounts _ _ _ _ := ⟨rfl, trivial⟩
  unmounts _ _ _ := rfl
  unnames _ _ _ := rfl
  puts _ _ _ _ _ _ := rfl
  gets _ _ _ _ := rfl
  deletes _ _ _ _ := rfl
  keeps _ _ _ _ _ _ _ _ _ := trivial

def demoSlot : VaultSlot := ⟨"tenant", "key", 1, 2⟩

/-- **The vaults are interchangeable.** When no request fails and callers prepare a tenant before they import for it,
every vault answers a run of operations as the map from slots to entries does. -/
theorem vault_answers (B : BaoServer) (secrets : B.State → String → String → Option KvData) (hB : B.Stores secrets)
    (named mounted : B.State → String → Prop) (hprompt : B.Prompt named mounted) (loc : VaultLoc)
    (calls : List (VaultOp × Int))
    (h : Along (fun v call => (v.exec call.1).2) (fun v call => v.Allows call.1) VaultModel.empty calls) :
    answers (loc.impl B).serve (loc.impl B).init calls =
      answers (fun v call => v.exec call.1) VaultModel.empty calls := by
  have hsqlite := sqlite_refines.answers (fun _ _ => True) trivial
    (fun t v call _ _ hheld hallows => ⟨trivial, sqlite_reply t v call hheld hallows⟩) h
  cases loc with
  | memory process => exact hsqlite
  | file path => exact hsqlite
  | openBao address =>
    refine (openBao_refines hB).answers (BaoServer.Ready mounted) (fun _ _ hprepared => by cases hprepared) ?_ h
    exact fun s v call hI hready hheld hallows =>
      BaoServer.exec_quiet hprompt (fun _ => rfl) hB hI hready hheld hallows

def demoVaultCalls : List (VaultOp × Int) :=
  [(.exportKey demoSlot, 0), (.prepareTenant "tenant", 1), (.importKey demoSlot (some [1, 2]) [3], 2),
    (.exportKey demoSlot, 3), (.prepareTenant "tenant", 4), (.destroyTenant "tenant", 5), (.destroyKey demoSlot, 6),
    (.exportKey demoSlot, 7)]

theorem demo_vault_answers : answers ((VaultLoc.openBao "bao").impl demoBao).serve
      ((VaultLoc.openBao "bao").impl demoBao).init demoVaultCalls =
    [.error errVaultKeyNotFound, .ok .done, .ok .done, .ok (.exported ⟨[1, 2], [3]⟩), .ok .done, .ok .done, .ok .done,
      .error errVaultKeyNotFound] :=
  (vault_answers demoBao (fun s => s) demoBao_stores _ _ demoBao_prompt (.openBao "bao") demoVaultCalls
    (by decide +kernel)).trans (by rfl)

end Krypton
