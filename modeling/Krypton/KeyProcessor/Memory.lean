import Krypton.KeyProcessor.Calls
import Krypton.SecureMem.Persist

/-!
# Managers in secure memory

`Manager.Seal` and `Manager.Unseal` as they handle memory: the payload comes in a `Data`, the secret of the key is in
another one that is destroyed at the end, and cryptor and processor each hand their result on through a persistent
vault. What is sealed and unsealed is the same as in `KeyProcessor.Manager`, which has only the bytes:
`ends_managerSealData` and `ends_managerUnsealData` say that the returned `Data` holds the bytes of `managerSeal` and
`managerUnseal` and that the calls fail together.

A manager finds its processor and its secret through a function that is given to it (`managerCrypt`). The one used here
takes the way up to the secret from `resolveProcessorAndSecret`, whose memory is left out: only the copy that is handed
to the manager is in memory (`resolveInMem`).
-/

namespace Krypton

open Lib SecureMem

/-- A request with its payload in memory. -/
structure SealDataRequest where
  tenantID : String
  keyID : String
  keyVersion : Nat
  text : DataID
  aad : Bytes

/-- What the request says in a memory. -/
def SealDataRequest.inMem (req : SealDataRequest) (m : Mem) : SealRequest :=
  ⟨req.tenantID, req.keyID, req.keyVersion, (m.secureBytes req.text).getD [], req.aad⟩

theorem SealDataRequest.inMem_eq (req : SealDataRequest) {m : Mem} {payload : Bytes}
    (h : m.secureBytes req.text = some payload) :
    req.inMem m = ⟨req.tenantID, req.keyID, req.keyVersion, payload, req.aad⟩ := by
  unfold SealDataRequest.inMem
  rw [h]
  rfl

section
variable {χ : Type} (rt : Runtime) (A : Aead)

/-- A check of a function that returns its error. -/
def liftErr {α : Type} (r : Except Err α) : Tx (Mem × χ) Fault α := Tx.lift (r.mapError Fault.error)

/-! ## The cryptor -/

/-- The checks of `Encrypt` and `Decrypt` on their request. -/
def validateCryptRequest (what : String) (text key : Bytes) : Except Err Unit := do
  check (text ≠ []) (.context ("invalid " ++ what) (.of .request))
  check (key ≠ []) (.context "invalid secret data" (.of .request))
  check (key.length = keySize) (.context "invalid key size" (.of .request))

/-- What is wrong when the reserved data is not in the vault. -/
def notFound (what : String) (cleaned : Except Err Unit) : Err :=
  match cleaned with
  | .error e => e
  | .ok _ => .plain ("allocated " ++ what ++ ": allocated data not found in vault")

def aesEncrypt (nonce : Bytes) (secret plaintext : DataID) (aad : Bytes) : Tx (Mem × χ) Fault DataID := do
  liftErr (validateCryptRequest "plaintext" (← bytesOf plaintext) (← bytesOf secret))
  let resp ← SecureMem.run rt fun hr => do
    let key ← bytesOf secret
    let p ← bytesOf plaintext
    let cipherBytes ← callProc ((reserve rt hr.persistentVault "cipherText" (12 + p.length + 16)).mapError
      (.context "failed to allocate secure memory for ciphertext"))
    (copyTo cipherBytes (A.seal key nonce p aad)).onFst
  getOrClean rt "cipherText" (notFound "ciphertext not found in vault after encryption") resp

def aesDecrypt (secret ciphertext : DataID) (aad : Bytes) : Tx (Mem × χ) Fault DataID := do
  liftErr (validateCryptRequest "ciphertext" (← bytesOf ciphertext) (← bytesOf secret))
  let resp ← SecureMem.run rt fun hr => do
    let key ← bytesOf secret
    let c ← bytesOf ciphertext
    if c.length < 12 + 16 then Tx.fail (.error (.context "ciphertext too short" (.of .request)))
    else
      let plainBytes ← callProc ((reserve rt hr.persistentVault "plainText" ((c.length : Int) - 12 - 16)).mapError
        (.context "failed to allocate secure memory for plaintext"))
      match A.open key c aad with
      | none => Tx.fail (.error (.plain "failed to decrypt: cipher: message authentication failed"))
      | some p => (copyTo plainBytes p).onFst
  getOrClean rt "plainText" (notFound "plaintext not found in vault after decryption") resp

/-! ## The processor -/

def persistSecName : String := "persistedSec"

def errSecNotPersisted : Err := .plain "persisted secret missing from handler response"

/-- `getPersistedSec`. -/
def getPersistedSec (resp : HandlerResponse) : Tx (Mem × χ) Fault DataID :=
  getOrClean rt persistSecName
    (fun cleaned => (joinErrors (errSecNotPersisted :: errorsOf [cleaned])).getD errSecNotPersisted) resp

/-- `processor.encrypt` and `processor.decrypt` around the call of the cryptor. -/
def processorCrypt (p : Processor) (crypt : Tx (Mem × χ) Fault DataID) : Tx (Mem × χ) Fault DataID := do
  let resp ← SecureMem.run rt fun sreq =>
    match p.cryptor with
    | none => Tx.fail .panic
    | some _ => do
      let out ← crypt
      callProc (importData sreq.persistentVault persistSecName out)
  getPersistedSec rt resp

def processorEncrypt (p : Processor) (nonce : Bytes) (secret plaintext : DataID) (aad : Bytes) :
    Tx (Mem × χ) Fault DataID :=
  processorCrypt rt p (aesEncrypt rt A nonce secret plaintext aad)

def processorDecrypt (p : Processor) (secret ciphertext : DataID) (aad : Bytes) : Tx (Mem × χ) Fault DataID :=
  processorCrypt rt p (aesDecrypt rt A secret ciphertext aad)

/-- The end of `resolveSecret`: the secret is copied into a `Data` of its own. -/
def resolveSecretData (sec : Bytes) : Tx (Mem × χ) Fault DataID := do
  let resp ← SecureMem.run rt fun sreq => do
    let dst ← callProc (newData rt sec.length)
    (copyTo dst sec).onFst
    callProc (importData sreq.persistentVault persistSecName dst)
  getPersistedSec rt resp

end

/-! ## The manager -/

section
variable {χ : Type} (rt : Runtime) (resolve : SealDataRequest → Tx (Mem × χ) Fault (Processor × DataID))

/-- `Manager.Seal` and `Manager.Unseal` around the call of the processor; `resolve` is `resolveProcessorAndSecret`. -/
def managerCrypt (crypt : Processor → DataID → Tx (Mem × χ) Fault DataID) (req : SealDataRequest) :
    Tx (Mem × χ) Fault DataID := do
  liftErr (check (req.keyVersion ≠ 0) (.of .keyVersionRequired))
  let found ← resolve req
  (crypt found.1 found.2).deferred (deferDestroy rt found.2)

def managerSealVia (A : Aead) (nonce : Bytes) (req : SealDataRequest) : Tx (Mem × χ) Fault DataID :=
  managerCrypt rt resolve (fun proc secret => processorEncrypt rt A proc nonce secret req.text req.aad) req

def managerUnsealVia (A : Aead) (req : SealDataRequest) : Tx (Mem × χ) Fault DataID :=
  managerCrypt rt resolve (fun proc secret => processorDecrypt rt A proc secret req.text req.aad) req

end

section
variable (rt : Runtime) (C : Cluster) (up : String → Caller) (node : String)

/-- `resolveProcessorAndSecret`, with the secret in memory. -/
def resolveInMem (req : SealDataRequest) : Tx (Mem × ClusterState) Fault (Processor × DataID) := do
  let S ← Tx.read Prod.snd
  let (proc, sec) ← liftErr (resolveProcessorAndSecret C S up node req.tenantID req.keyID req.keyVersion)
  let secret ← resolveSecretData rt sec
  return (proc, secret)

def managerSealData (nonce : Bytes) (req : SealDataRequest) : Tx (Mem × ClusterState) Fault DataID :=
  managerSealVia rt (resolveInMem rt C up node) C.aead nonce req

def managerUnsealData (req : SealDataRequest) : Tx (Mem × ClusterState) Fault DataID :=
  managerUnsealVia rt (resolveInMem rt C up node) C.aead req

end

/-! ## The same bytes -/

section
variable {rt : Runtime} {A : Aead} {χ : Type} {c : χ} {m : Mem} {secret text : DataID} {key payload aad : Bytes}

/-- A function that returned its error where it should fail. -/
theorem returns_error {D : DataID → Prop} {x : Except Err Bytes} {f : Fault} {m' : Mem} (hx : ∀ b, x ≠ .ok b) :
    Returns D m (· = c) x.toOption (.error f) (m', c) := by
  rw [toOption_eq_none hx]
  exact ⟨rfl, f, rfl⟩

theorem ends_liftErr_bind {α β : Type} {r : Except Err α} {f : α → Tx (Mem × χ) Fault β} {s : Mem × χ}
    {R : Except Fault β → Mem × χ → Prop} (hok : ∀ a, r = .ok a → (f a).Ends s R)
    (herr : ∀ e, r = .error e → R (.error (.error e)) s) : (liftErr r >>= f).Ends s R := by
  cases r with
  | ok a => exact hok a rfl
  | error e => exact herr e rfl

theorem validateCryptRequest_eq_ok {what : String} :
    validateCryptRequest what payload key = .ok () ↔ payload ≠ [] ∧ key.length = keySize := by
  simp only [validateCryptRequest, bind_unit_eq_ok, check_eq_ok, decide_eq_true_eq]
  constructor
  · rintro ⟨hp, -, hk⟩
    exact ⟨hp, hk⟩
  · rintro ⟨hp, hk⟩
    refine ⟨hp, ?_, hk⟩
    rintro rfl
    cases hk

theorem ends_bytesOf_bind {β : Type} {d : DataID} {bytes : Bytes} {f : Bytes → Tx (Mem × χ) Fault β}
    {R : Except Fault β → Mem × χ → Prop} (hd : m.secureBytes d = some bytes) (hf : (f bytes).Ends (m, c) R) :
    (bytesOf d >>= f).Ends (m, c) R := by
  refine Tx.Ends.ok_bind (Tx.read_of_eq (g := fun s : Mem × χ => (s.1.secureBytes d).getD []) ?_) hf
  rw [hd]
  rfl

theorem ends_aesEncrypt (hrt : rt.Healthy) (hA : A.Exact) {nonce : Bytes} (hkey : m.secureBytes secret = some key)
    (htext : m.secureBytes text = some payload) :
    (aesEncrypt rt A nonce secret text aad).Ends (m, c)
      (Returns (fun _ => False) m (· = c) (encrypt A key nonce payload aad).toOption) := by
  unfold aesEncrypt
  refine ends_bytesOf_bind htext (ends_bytesOf_bind hkey (ends_liftErr_bind ?_ ?_))
  · rintro _ hvalid
    obtain ⟨hp, hk⟩ := validateCryptRequest_eq_ok.1 hvalid
    rw [encrypt_eq_ok.2 ⟨hp, hk, rfl⟩]
    refine ends_run_persisted hrt ?_
    refine ends_bytesOf_bind (m := opened m) hkey (ends_bytesOf_bind (m := opened m) htext ?_)
    exact ends_reserve_copy hrt.allocates (by omega) (by rw [hA.seal_length]; omega) rfl
  · intro e hvalid
    refine returns_error fun b hb => ?_
    obtain ⟨hp, hk, -⟩ := encrypt_eq_ok.1 hb
    rw [validateCryptRequest_eq_ok.2 ⟨hp, hk⟩] at hvalid
    cases hvalid

theorem ends_reserve_nonpos {v : VaultID} {name : String} {size : Int} (hsize : size ≤ 0) :
    (reserve rt v name size).Ends m fun r _ => ∃ e, r = .error e := by
  unfold reserve
  refine Tx.Ends.ok_bind (a := ((m.store v).lookup name).isSome) rfl ?_
  cases (m.store v).lookup name with
  | some d => exact ⟨_, rfl⟩
  | none =>
    refine Tx.Ends.bind ends_newData ?_ fun e _ _ => ⟨e, rfl⟩
    rintro d m₁ ⟨-, -, hpos, -⟩
    omega

theorem ends_aesDecrypt (hrt : rt.Healthy) (hA : A.Exact) (hkey : m.secureBytes secret = some key)
    (htext : m.secureBytes text = some payload) :
    (aesDecrypt rt A secret text aad).Ends (m, c)
      (Returns (fun _ => False) m (· = c) (decrypt A key payload aad).toOption) := by
  unfold aesDecrypt
  refine ends_bytesOf_bind htext (ends_bytesOf_bind hkey (ends_liftErr_bind ?_ ?_))
  · rintro _ hvalid
    obtain ⟨hp, hk⟩ := validateCryptRequest_eq_ok.1 hvalid
    refine ends_run_persisted hrt ?_
    refine ends_bytesOf_bind (m := opened m) hkey (ends_bytesOf_bind (m := opened m) htext ?_)
    cases hdec : decrypt A key payload aad with
    | ok p =>
      obtain ⟨-, -, hlen, hopen⟩ := decrypt_eq_ok.1 hdec
      have hexact := hA.open_length _ _ _ _ hopen
      rw [if_neg (by omega), hopen]
      exact ends_reserve_copy hrt.allocates (by omega) (by omega) rfl
    | error e =>
      split_ifs with hshort
      · exact ⟨rfl, _, rfl⟩
      · cases hopen : A.open key payload aad with
        | none =>
          exact ends_callProc_bind (P := fun _ _ => True) trivial (fun _ _ _ => ⟨rfl, _, rfl⟩) fun _ _ _ =>
            ⟨rfl, _, rfl⟩
        | some p =>
          -- there is nothing behind nonce and tag, so no room can be reserved
          have hexact := hA.open_length _ _ _ _ hopen
          have hnot : ¬ 28 < payload.length := by
            intro hlen
            rw [decrypt_eq_ok.2 ⟨hp, hk, hlen, hopen⟩] at hdec
            cases hdec
          have hfail : ((reserve rt (requestFor m).persistentVault "plainText"
              ((payload.length : Int) - 12 - 16)).mapError
              (Err.context "failed to allocate secure memory for plaintext")).Ends (opened m)
                fun r _ => ∃ e, r = .error e :=
            (ends_reserve_nonpos (by omega)).mapError (fun _ _ => by rintro ⟨_, ⟨⟩⟩) fun e _ _ => ⟨_, rfl⟩
          refine ends_callProc_bind hfail (fun _ _ => by rintro ⟨_, ⟨⟩⟩) fun e _ _ => ⟨rfl, _, rfl⟩
  · intro e hvalid
    refine returns_error fun b hb => ?_
    obtain ⟨hp, hk, -⟩ := decrypt_eq_ok.1 hb
    rw [validateCryptRequest_eq_ok.2 ⟨hp, hk⟩] at hvalid
    cases hvalid

/-- The processor hands on what the cryptor returned. -/
theorem ends_processorCrypt (hrt : rt.Healthy) {p : Processor} {crypt : Tx (Mem × χ) Fault DataID} {out : Option Bytes}
    (hcrypt : crypt.Ends (opened m, c) (Returns (fun _ => False) (opened m) (· = c) out)) :
    (processorCrypt rt p crypt).Ends (m, c)
      (Returns (fun _ => False) m (· = c) (if p.cryptor.isSome then out else none)) := by
  unfold processorCrypt
  refine ends_run_persisted hrt ?_
  cases p.cryptor with
  | none => exact ⟨rfl, _, rfl⟩
  | some _ =>
    change Tx.Ends _ _ (LeavesOut _ m (· = c) persistSecName out ())
    refine Tx.Ends.bind hcrypt ?_ ?_
    · rintro d ⟨m₁, _⟩ h
      obtain ⟨rfl, bytes, rfl, hframe, hnew, -, hbytes⟩ := h.of_ok
      exact ends_import_persistent imports_importData hframe hnew id hbytes rfl
    · rintro f ⟨m₁, _⟩ h
      obtain ⟨rfl, rfl⟩ := h.of_error
      exact ⟨rfl, f, rfl⟩

theorem ends_resolveSecretData (hrt : rt.Healthy) {sec : Bytes} (hsec : sec ≠ []) :
    (resolveSecretData rt sec).Ends (m, c) (Returns (fun _ => False) m (· = c) (some sec)) := by
  have hpos := List.length_pos_of_ne_nil hsec
  unfold resolveSecretData
  refine ends_run_persisted hrt (ends_callProc_bind (ends_newData_healthy hrt.allocates (by omega)) ?_ ?_)
  · rintro d m₁ ⟨_, ⟨⟩, hfilled⟩
    refine hfilled.ends_copyTo_bind (by simp) fun m₂ hdone => ?_
    exact ends_import_persistent imports_importData hdone.frame (le_of_eq hdone.new.symm) id hdone.bytes rfl
  · rintro e m₁ ⟨_, ⟨⟩, -⟩

end

/-! ## The manager's calls -/

section
variable {rt : Runtime} {C : Cluster} {S : ClusterState} {up : String → Caller} {node : String} {m : Mem}

theorem resolveProcessorAndSecret_ne_nil {tenantID keyID : String} {version : Nat} {p : Processor} {sec : Bytes}
    (h : resolveProcessorAndSecret C S up node tenantID keyID version = .ok (p, sec)) : sec ≠ [] := by
  obtain ⟨_, _, -, hsec⟩ := resolveProcessorAndSecret_eq_ok.1 h
  obtain ⟨_, _, _, _, -, -, -, -, -, hne⟩ := resolveSecret_eq_ok.1 hsec
  exact hne

/-- What resolving leaves in memory: the secret, or nothing when there is none. -/
theorem ends_resolveInMem (hrt : rt.Healthy) {req : SealDataRequest} :
    (resolveInMem rt C up node req).Ends (m, S) fun r s =>
      match resolveProcessorAndSecret C S up node req.tenantID req.keyID req.keyVersion with
      | .ok (p, sec) => ∃ secret, r = .ok (p, secret) ∧
          Returns (fun _ => False) m (· = S) (some sec) (.ok secret) s
      | .error e => r = .error (.error e) ∧ s = (m, S) := by
  unfold resolveInMem
  refine Tx.Ends.ok_bind (a := S) rfl (ends_liftErr_bind ?_ ?_)
  · rintro ⟨p, sec⟩ hres
    rw [hres]
    refine Tx.Ends.bind (ends_resolveSecretData hrt (resolveProcessorAndSecret_ne_nil hres)) ?_ ?_
    · exact fun secret s h => ⟨secret, rfl, h⟩
    · intro f s h
      cases h.of_error.2
  · intro e hres
    rw [hres]
    exact ⟨rfl, rfl⟩

/-- Work with a key's secret in memory: a cryptor that gives the bytes of `f` makes a manager that does. -/
theorem ends_managerCrypt (hrt : rt.Healthy) {crypt : Processor → DataID → Tx (Mem × ClusterState) Fault DataID}
    {f : Bytes → Except Err Bytes} {req : SealDataRequest} {payload : Bytes}
    (htext : m.secureBytes req.text = some payload)
    (hcrypt : ∀ (p : Processor) (secret : DataID) (sec : Bytes) (m₁ : Mem), m₁.secureBytes secret = some sec →
      m₁.secureBytes req.text = some payload → (crypt p secret).Ends (m₁, S)
        (Returns (fun _ => False) m₁ (· = S) (if p.cryptor.isSome then (f sec).toOption else none))) :
    (managerCrypt rt (resolveInMem rt C up node) crypt req).Ends (m, S) (Returns (fun _ => False) m (· = S)
      (check (req.keyVersion ≠ 0) (.of .keyVersionRequired) >>= fun _ =>
        resolveProcessorAndSecret C S up node req.tenantID req.keyID req.keyVersion >>= fun x =>
          match x.1.cryptor with
          | none => .error errNilPointer
          | some _ => f x.2).toOption) := by
  unfold managerCrypt
  refine ends_liftErr_bind ?_ ?_
  · rintro _ hversion
    rw [hversion]
    refine Tx.Ends.bind (ends_resolveInMem hrt) ?_ ?_
    · rintro ⟨p, secret⟩ ⟨m₁, S₁⟩ hend
      cases hres : resolveProcessorAndSecret C S up node req.tenantID req.keyID req.keyVersion with
      | error e =>
        rw [hres] at hend
        cases hend.1
      | ok found =>
        obtain ⟨p, sec⟩ := found
        rw [hres] at hend
        obtain ⟨_, ⟨⟩, h⟩ := hend
        obtain ⟨rfl, _, ⟨⟩, hframe, hnew, -, hsec⟩ := h.of_ok
        have htext₁ : m₁.secureBytes req.text = some payload :=
          (hframe.bytes _ (exists_of_secureBytes htext) id).trans htext
        have hout := hcrypt p secret sec m₁ hsec htext₁
        have heq : (if p.cryptor.isSome then (f sec).toOption else none) =
            (match p.cryptor with
              | none => Except.error errNilPointer
              | some _ => f sec).toOption := by
          cases p.cryptor <;> rfl
        rw [heq] at hout
        -- the result is newer than the secret, so it survives the secret's destruction
        have hdone := ends_returns_deferDestroy rt (D := (· = secret)) (hout.mono fun r s h =>
          h.rebase (.refl m₁) (fun _ _ => False.elim) (by rintro _ rfl; exact exists_of_secureBytes hsec)) rfl
        refine hdone.mono fun r s h => h.rebase hframe ?_ fun _ => False.elim
        rintro _ hd rfl
        exact Nat.not_lt.2 hnew hd
    · rintro f s hend
      cases hres : resolveProcessorAndSecret C S up node req.tenantID req.keyID req.keyVersion with
      | error e =>
        rw [hres] at hend
        obtain ⟨-, rfl⟩ := hend
        exact ⟨rfl, _, rfl⟩
      | ok found =>
        rw [hres] at hend
        obtain ⟨_, h, -⟩ := hend
        cases h
  · rintro e hversion
    rw [hversion]
    exact ⟨rfl, _, rfl⟩

theorem ends_managerSealData (hrt : rt.Healthy) (hA : C.aead.Exact) {nonce payload : Bytes} {req : SealDataRequest}
    (htext : m.secureBytes req.text = some payload) :
    (managerSealData rt C up node nonce req).Ends (m, S) (Returns (fun _ => False) m (· = S)
      (managerSeal C S up node nonce (req.inMem m)).toOption) := by
  rw [req.inMem_eq htext]
  refine ends_managerCrypt hrt htext (f := fun sec => encrypt C.aead sec nonce payload req.aad) ?_
  intro p secret sec m₁ hsec htext₁
  exact ends_processorCrypt hrt (ends_aesEncrypt (m := opened m₁) hrt hA hsec htext₁)

theorem ends_managerUnsealData (hrt : rt.Healthy) (hA : C.aead.Exact) {payload : Bytes} {req : SealDataRequest}
    (htext : m.secureBytes req.text = some payload) :
    (managerUnsealData rt C up node req).Ends (m, S) (Returns (fun _ => False) m (· = S)
      (managerUnseal C S up node (req.inMem m)).toOption) := by
  rw [req.inMem_eq htext]
  refine ends_managerCrypt hrt htext (f := fun sec => decrypt C.aead sec payload req.aad) ?_
  intro p secret sec m₁ hsec htext₁
  exact ends_processorCrypt hrt (ends_aesDecrypt (m := opened m₁) hrt hA hsec htext₁)

end

end Krypton
