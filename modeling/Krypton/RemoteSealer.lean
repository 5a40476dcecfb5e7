import Krypton.KeyProcessor.Memory
import Krypton.Secrets

/-!
# Sealing through another process

A manager that another node serves is reached through two layers (`remotemanager.go` on the calling side, the sealer
service in `service.go` on the serving side). Both copy the payload between message and secure memory, wipe and destroy
their copies, and hand results on from vault to vault; the context vault of the call keeps the answer until it has been
written to the wire. Here both are modelled on the memories of the two processes: the state of a call is the memory of
the caller beside the memory and the stores of the serving node.

A message is a value: its bytes are read when it is marshalled, and wiping the bytes of a received message is a new
message with zero bytes, used from there on.

* `ends_handleRPC` — what the serving process answers: the bytes of the manager, or an error;
* `ends_rpcManagerCall` — what the caller gets: a new `Data` with those bytes;
* `ends_rpcManager` — together they are the hop `rpcRequest` of the envelope calls, and then the manager;
* `rpcManager_transparent` — a request with good identifiers, version, payload and associated data succeeds exactly when
  the manager does, with the same result.
-/

namespace Krypton

open Lib SecureMem

/-! ## The sealer service -/

/-- A seal or unseal request on the wire; the text is the plaintext or the ciphertext. -/
structure SealMessage where
  tenantID : String
  keyID : String
  keyVersion : Int
  text : Bytes
  aad : Bytes

/-- The error of a gRPC status. -/
def statusErr (code text : String) : Err := .plain ("rpc error: code = " ++ code ++ " desc = " ++ text)

def handlerKey : String := "handlerKey"

/-- `securemem.Zero`. -/
def zero (bytes : Bytes) : Bytes := bytes.map fun _ => 0

/-- The check, if it fails. -/
def failedCheck (b : Bool) (text : String) : List Err := if b then [] else [.plain text]

def validateRequest (msg : SealMessage) : Except Err Unit :=
  let errs := failedCheck (Validator.isValidUUID msg.tenantID) "tenant ID must be a valid UUID" ++
    (failedCheck (Validator.isValidUUID msg.keyID) "key ID must be a valid UUID" ++
      (failedCheck (0 < msg.keyVersion) "key version must be greater than 0" ++
        (failedCheck (msg.text ≠ []) "text is required" ++ failedCheck (msg.aad ≠ []) "AAD is required")))
  match joinErrors errs with
  | none => .ok ()
  | some e => .error (statusErr "InvalidArgument" e.text)

section
variable {χ : Type} (rt : Runtime)

/-- `vaultImport`: what cannot be imported is destroyed. -/
def vaultImport (failed : Err → Err) (v : VaultID) (name : String) (d : DataID) : Proc Unit := do
  match ← (importData v name d).attempt with
  | .ok _ => return ()
  | .error e =>
    let _ ← ((destroy rt d).attempt : Proc (Except Err Unit))
    Tx.fail (failed e)

/-- The import of the service, with its error. -/
def serviceImport (v : VaultID) (name : String) (d : DataID) : Proc Unit :=
  vaultImport rt (fun _ => statusErr "Internal" "failed to import into the vault") v name d

def addToContextVault (ctxVault : Option VaultID) (name : String) (d : DataID) : Proc Unit :=
  match ctxVault with
  | none => Tx.fail (statusErr "Internal" "failed to get the vault from the context")
  | some v => serviceImport rt v name d

/-- The service renames an error its sealer returned; a panic passes. -/
def mapReturned (f : Err → Err) : Fault → Fault
  | .error e => .error (f e)
  | fault => fault

/-- What `Seal` and `Unseal` of the service do in secure memory. -/
def serviceHandler (sealer : SealDataRequest → Tx (Mem × χ) Fault DataID) (failed : Err → Err) (msg : SealMessage)
    (hReq : HandlerRequest) : Tx (Mem × χ) Fault Unit := do
  let text ← callProc ((newData rt msg.text.length).mapError fun _ =>
    statusErr "Internal" "failed to process the securemem data")
  Tx.deferred (do
    (copyTo text msg.text).onFst
    let msg := { msg with text := zero msg.text }
    let out ← (sealer ⟨msg.tenantID, msg.keyID, msg.keyVersion.toNat, text, msg.aad⟩).mapError (mapReturned failed)
    callProc (serviceImport rt hReq.persistentVault handlerKey out)) (deferDestroy rt text)

/-- `Seal` and `Unseal` of the service. `name` is the new UUID under which the context vault keeps the result. -/
def serve (sealer : SealDataRequest → Tx (Mem × χ) Fault DataID) (failed : Err → Err) (missing : String)
    (ctxVault : Option VaultID) (name : String) (msg : SealMessage) : Tx (Mem × χ) Fault DataID := do
  liftErr (validateRequest msg)
  let resp ← SecureMem.run rt (serviceHandler rt sealer failed msg)
  let d ← getOrClean rt handlerKey (fun _ => statusErr "Internal" missing) resp
  let added ← callProc (addToContextVault rt ctxVault name d).attempt
  match added with
  | .ok _ => return d
  | .error e =>
    let _ ← callProc (destroyAll rt resp.vault).attempt
    Tx.fail (.error e)

def sealFailed (_ : Err) : Err := statusErr "Internal" "failed to seal the plaintext"

def unsealFailed (e : Err) : Err :=
  if e.is .operationNotAllowedInState || e.is .keyTransientState then statusErr "FailedPrecondition" e.text
  else statusErr "Internal" "failed to unseal the ciphertext"

/-- An RPC on the serving side: its handler makes a context vault, the answer is marshalled from the bytes the service
returned, and the end of the call destroys the vault. -/
def handleRPC (service : Option VaultID → SealMessage → Tx (Mem × χ) Fault DataID) (msg : SealMessage) :
    Tx (Mem × χ) Fault Bytes := do
  let v ← callProc newMemVault
  Tx.deferred (do
    let d ← service (some v) msg
    bytesOf d) fun _ => (destroyAll rt v).onFst

end

section
variable {χ : Type} (rt : Runtime) (sealer : SealDataRequest → Tx (Mem × χ) Fault DataID)

/-- `SealerService.Seal`. -/
def serviceSeal (name : String) (ctxVault : Option VaultID) (msg : SealMessage) : Tx (Mem × χ) Fault DataID :=
  serve rt sealer sealFailed "failed to get the ciphertext from the vault" ctxVault name msg

/-- `SealerService.Unseal`. -/
def serviceUnseal (name : String) (ctxVault : Option VaultID) (msg : SealMessage) : Tx (Mem × χ) Fault DataID :=
  serve rt sealer unsealFailed "failed to get the plaintext from the vault" ctxVault name msg

end

/-! ## The calling side -/

def errNilSecureBytes (what : String) : Err :=
  .plain ("securemem.Data is nil or has no bytes: " ++ what ++ " is nil or empty")

/-- How an end of the serving side arrives at the caller. -/
def overTheWire : Fault → Fault
  | .error e => .error e
  | _ => .error (statusErr "Unavailable" "error reading from server: EOF")

section
variable {σ : Type} (rt : Runtime)

/-- `RPCManager.Seal` and `RPCManager.Unseal` over a call to the serving side. -/
def rpcManagerCall (rpc : SealMessage → Tx σ Fault Bytes) (what : String) (req : SealDataRequest) :
    Tx (Mem × σ) Fault DataID := do
  if (← bytesOf req.text) = [] then Tx.fail (.error (errNilSecureBytes what))
  else
    let resp ← SecureMem.run rt fun hreq => Tx.deferred (do
      let text ← bytesOf req.text
      let out ← ((rpc ⟨req.tenantID, req.keyID, toInt32 req.keyVersion, text, req.aad⟩).mapError overTheWire).onSnd
      let data ← callProc (newData rt out.length)
      (copyTo data out).onFst
      -- the bytes of the response are wiped here and not read again
      callProc (vaultImport rt id hreq.persistentVault handlerKey data)) (deferDestroy rt req.text)
    getOrClean rt handlerKey (fun _ => errSecNotPersisted) resp

end

section
variable (caller server : Runtime) (C : Cluster) (up : String → Caller) (node : String)

/-- `RPCManager.Seal` against the service of a node. -/
def rpcManagerSeal (nonce : Bytes) (name : String) (req : SealDataRequest) :
    Tx (Mem × (Mem × ClusterState)) Fault DataID :=
  rpcManagerCall caller (handleRPC server (serviceSeal server (managerSealData server C up node nonce) name))
    "plaintext"
    req

/-- `RPCManager.Unseal` against the service of a node. -/
def rpcManagerUnseal (name : String) (req : SealDataRequest) : Tx (Mem × (Mem × ClusterState)) Fault DataID :=
  rpcManagerCall caller (handleRPC server (serviceUnseal server (managerUnsealData server C up node) name))
    "ciphertext" req

end

/-! ## What the service answers -/

/-- The bytes are `out`; without `out` it is an error. -/
def Answers (out : Option Bytes) (r : Except Fault Bytes) : Prop :=
  match out with
  | none => ∃ f, r = .error f
  | some bytes => r = .ok bytes

theorem Answers.of_ok {out : Option Bytes} {bytes : Bytes} (h : Answers out (.ok bytes)) : out = some bytes := by
  cases out with
  | none =>
    obtain ⟨_, h⟩ := h
    cases h
  | some b =>
    cases h
    rfl

theorem Answers.of_error {out : Option Bytes} {f : Fault} (h : Answers out (.error f)) : out = none := by
  cases out with
  | none => rfl
  | some b => cases h

section
variable {χ : Type} {rt : Runtime} {c : χ} {m : Mem}

theorem imports_vaultImport {failed : Err → Err} {v : VaultID} {name : String} {d : DataID} :
    Imports (vaultImport rt failed v name d) v name d := by
  intro m hd hname
  exact Tx.bind_of_ok (Tx.attempt_of_ok (importData_eq hd hname))

theorem failedCheck_eq_nil {b : Bool} {text : String} : failedCheck b text = [] ↔ b = true := by
  unfold failedCheck
  split_ifs with h <;> simp [h]

theorem validateRequest_eq_ok {msg : SealMessage} :
    validateRequest msg = .ok () ↔ Validator.isValidUUID msg.tenantID = true ∧ Validator.isValidUUID msg.keyID = true ∧
      0 < msg.keyVersion ∧ msg.text ≠ [] ∧ msg.aad ≠ [] := by
  have hjoin : ∀ errs : List Err, joinErrors errs = none ↔ errs = [] := by
    intro errs
    unfold joinErrors
    split_ifs with h <;> simp [h]
  have hok : validateRequest msg = .ok () ↔ joinErrors (failedCheck (Validator.isValidUUID msg.tenantID)
      "tenant ID must be a valid UUID" ++
        (failedCheck (Validator.isValidUUID msg.keyID) "key ID must be a valid UUID" ++
        (failedCheck (0 < msg.keyVersion) "key version must be greater than 0" ++
          (failedCheck (msg.text ≠ []) "text is required" ++ failedCheck (msg.aad ≠ []) "AAD is required")))) =
            none := by
    unfold validateRequest
    dsimp only
    split <;> simp_all
  rw [hok, hjoin]
  simp only [List.append_eq_nil_iff, failedCheck_eq_nil, decide_eq_true_eq]

/-- The service's handler leaves what the sealer returned. -/
theorem ends_serviceHandler (hrt : rt.Healthy) {sealer : SealDataRequest → Tx (Mem × χ) Fault DataID}
    {failed : Err → Err} {msg : SealMessage} {out : Option Bytes} (hne : msg.text ≠ [])
    (hsealer : ∀ (text : DataID) (m₁ : Mem), m₁.secureBytes text = some msg.text →
      (sealer ⟨msg.tenantID, msg.keyID, msg.keyVersion.toNat, text, msg.aad⟩).Ends (m₁, c)
        (Returns (fun _ => False) m₁ (· = c) out)) :
    (serviceHandler rt sealer failed msg (requestFor m)).Ends (opened m, c)
      (LeavesOut (fun _ => False) m (· = c) handlerKey out ()) := by
  have hpos := List.length_pos_of_ne_nil hne
  unfold serviceHandler
  have hnew : ((newData rt msg.text.length).mapError fun _ =>
      statusErr "Internal" "failed to process the securemem data").Ends (opened m) fun r m₁ =>
        ∃ d, r = .ok d ∧ Filled (opened m) (List.replicate (msg.text.length : Int).toNat 0) d m₁ :=
    (ends_newData_healthy hrt.allocates (by omega)).mapError (fun _ _ h => by simpa using h) (by rintro e m₁ ⟨_, ⟨⟩, -⟩)
  refine ends_callProc_bind hnew ?_ (by rintro e m₁ ⟨_, ⟨⟩, -⟩)
  rintro text m₁ ⟨_, ⟨⟩, hfilled⟩
  have htext : ¬ m.Exists text := by
    rw [hfilled.new]
    exact Nat.lt_irrefl _
  -- the copy of the payload is destroyed in any case; it is older than the result
  refine (ends_leaves_deferDestroy rt (D := (· = text)) ?_ rfl).mono fun r s h => h.mono ?_ fun _ => False.elim
  · refine hfilled.ends_copyTo_bind (by simp) fun m₂ hdone => ?_
    refine Tx.Ends.mapError_bind (hsealer text m₂ hdone.bytes) ?_ ?_
    · rintro d ⟨m₃, _⟩ h
      obtain ⟨rfl, bytes, rfl, hframe, hd, -, hbytes⟩ := h.of_ok
      have hall : Frame (· = text) (fun _ => False) (opened m) m₃ :=
        (hdone.frame.trans hframe).mono (fun _ _ => False.elim) fun _ => id
      have hlt : text < d := Nat.lt_of_lt_of_le (exists_of_secureBytes hdone.bytes) hd
      refine ends_import_persistent imports_vaultImport hall ?_ (Nat.ne_of_gt hlt) hbytes rfl
      exact Nat.le_of_lt (Nat.lt_of_le_of_lt (Nat.le_of_eq hdone.new.symm) hlt)
    · rintro f ⟨m₃, _⟩ h
      obtain ⟨rfl, rfl⟩ := h.of_error
      exact ⟨rfl, _, rfl⟩
  · rintro _ hd rfl
    exact htext hd

/-- The service returns the bytes of its sealer, in a `Data` that the context vault keeps. -/
theorem ends_serve (hrt : rt.Healthy) {sealer : SealDataRequest → Tx (Mem × χ) Fault DataID} {failed : Err → Err}
    {missing name : String} {v : VaultID} {msg : SealMessage} {out : Option Bytes} (hv : v < m.vaults.length)
    (hempty : m.store v = ∅) (hinvalid : ∀ e, validateRequest msg = .error e → out = none)
    (hsealer : validateRequest msg = .ok () → ∀ (text : DataID) (m₁ : Mem), m₁.secureBytes text = some msg.text →
      (sealer ⟨msg.tenantID, msg.keyID, msg.keyVersion.toNat, text, msg.aad⟩).Ends (m₁, c)
        (Returns (fun _ => False) m₁ (· = c) out)) :
    (serve rt sealer failed missing (some v) name msg).Ends (m, c) fun r s =>
      s.2 = c ∧ Answers out (r.map fun d => (s.1.secureBytes d).getD []) := by
  unfold serve
  refine ends_liftErr_bind (fun _ hvalid => ?_) fun e h => ⟨rfl, by rw [hinvalid e h]; exact ⟨_, rfl⟩⟩
  have hne := (validateRequest_eq_ok.1 hvalid).2.2.2.1
  refine Tx.Ends.bind (ends_run_healthy hrt (ends_serviceHandler hrt hne (hsealer hvalid))) ?_ ?_
  · rintro resp ⟨m₁, _⟩ ⟨rfl, hout⟩
    cases out with
    | none =>
      obtain ⟨_, h⟩ := hout
      cases h
    | some bytes =>
      obtain ⟨⟨⟩, hframe, d, hnew, -, hbytes, hname⟩ := hout
      refine Tx.Ends.ok_bind (getOrClean_eq hname) ?_
      have hfree : (m₁.store v).lookup name = none := by
        rw [hframe.store v hv id, hempty, AList.lookup_empty]
      have hadd : addToContextVault rt (some v) name d m₁ = (.ok (), m₁.setStore v ((m₁.store v).insert name d)) :=
        imports_vaultImport m₁ (exists_of_secureBytes hbytes) hfree
      refine Tx.Ends.ok_bind (callProc_of_ok (Tx.attempt_of_ok hadd)) ?_
      exact ⟨rfl, congrArg (fun b : Option Bytes => Except.ok (b.getD [])) hbytes⟩
  · rintro f ⟨m₁, _⟩ ⟨rfl, hout⟩
    cases out with
    | none => exact ⟨rfl, f, rfl⟩
    | some bytes => cases hout.1

/-- **The serving side.** A valid message is answered with the bytes of the sealer; an invalid one is answered with an
error, and so is one for which the sealer fails. -/
theorem ends_handleRPC (hrt : rt.Healthy) {sealer : SealDataRequest → Tx (Mem × χ) Fault DataID} {failed : Err → Err}
    {missing name : String} {service : Option VaultID → SealMessage → Tx (Mem × χ) Fault DataID} {msg : SealMessage}
    {out : Option Bytes} (hservice : ∀ v, service v msg = serve rt sealer failed missing v name msg)
    (hinvalid : ∀ e, validateRequest msg = .error e → out = none)
    (hsealer : validateRequest msg = .ok () → ∀ (text : DataID) (m₁ : Mem), m₁.secureBytes text = some msg.text →
      (sealer ⟨msg.tenantID, msg.keyID, msg.keyVersion.toNat, text, msg.aad⟩).Ends (m₁, c)
        (Returns (fun _ => False) m₁ (· = c) out)) :
    (handleRPC rt service msg).Ends (m, c) fun r s => s.2 = c ∧ Answers out r := by
  unfold handleRPC
  -- the context vault is new
  have htag : newMemVault m = (.ok m.vaults.length, { m with vaults := m.vaults ++ [∅] }) := rfl
  refine Tx.Ends.ok_bind (callProc_of_ok htag) ?_
  have hserve : (serve rt sealer failed missing (some m.vaults.length) name msg).Ends
      ({ m with vaults := m.vaults ++ [∅] }, c) fun r s =>
        s.2 = c ∧ Answers out (r.map fun d => (s.1.secureBytes d).getD []) :=
    ends_serve hrt (by simp) (by simp [Mem.store]) hinvalid hsealer
  rw [← hservice] at hserve
  refine Tx.Ends.deferred (Tx.Ends.bind hserve (R := fun r s => s.2 = c ∧ Answers out r) ?_ ?_) ?_
  · exact fun d s h => h
  · exact fun f s h => h
  · rintro r ⟨m₁, c₁⟩ hout
    exact Tx.Ends.onFst (P := fun _ _ => True) trivial fun _ _ _ => hout

end

/-! ## What the caller gets -/

section
variable {σ : Type} {rt : Runtime} {t : σ} {K : σ → Prop} {m : Mem}

/-- **The calling side.** The caller gets a new `Data` with the bytes of the answer, or an error if there are none. -/
theorem ends_rpcManagerCall (hrt : rt.Healthy) {rpc : SealMessage → Tx σ Fault Bytes} {what : String}
    {req : SealDataRequest} {payload : Bytes} {out : Option Bytes} (htext : m.secureBytes req.text = some payload)
    (hempty : payload = [] → K t ∧ out = none) (hout : ∀ bytes, out = some bytes → bytes ≠ [])
    (hrpc : (rpc ⟨req.tenantID, req.keyID, toInt32 req.keyVersion, payload, req.aad⟩).Ends t fun r t' =>
      K t' ∧ Answers out r) :
    (rpcManagerCall rt rpc what req).Ends (m, t) (Returns (· = req.text) m K out) := by
  have hex := exists_of_secureBytes htext
  unfold rpcManagerCall
  refine ends_bytesOf_bind htext ?_
  by_cases hnil : payload = []
  · obtain ⟨hK, rfl⟩ := hempty hnil
    rw [if_pos hnil]
    exact ⟨hK, _, rfl⟩
  rw [if_neg hnil]
  refine ends_run_persisted hrt (ends_leaves_deferDestroy rt ?_ rfl)
  refine ends_bytesOf_bind (m := opened m) htext ?_
  have hcall : ((rpc ⟨req.tenantID, req.keyID, toInt32 req.keyVersion, payload, req.aad⟩).mapError
      overTheWire).onSnd.Ends (opened m, t) fun r s => s.1 = opened m ∧ K s.2 ∧ Answers out r := by
    refine Tx.Ends.onSnd (hrpc.mapError (Q := fun r t' => K t' ∧ Answers out r) (fun _ _ h => h) ?_) fun r t' h =>
      ⟨rfl, h⟩
    rintro f t' ⟨hK, h⟩
    cases h.of_error
    exact ⟨hK, _, rfl⟩
  refine Tx.Ends.bind hcall ?_ ?_
  · rintro b ⟨_, t'⟩ ⟨rfl, hK, h⟩
    cases h.of_ok
    have hpos := List.length_pos_of_ne_nil (hout b rfl)
    refine ends_callProc_bind (ends_newData_healthy hrt.allocates (by omega)) ?_ (by rintro e m₁ ⟨_, ⟨⟩, -⟩)
    rintro data m₁ ⟨_, ⟨⟩, hfilled⟩
    refine hfilled.ends_copyTo_bind (by simp) fun m₂ hdone => ?_
    have hnew : m.data.length ≤ data := Nat.le_of_eq hdone.new.symm
    refine ends_import_persistent imports_vaultImport (hdone.frame.mono (fun _ _ => False.elim) fun _ => id) hnew ?_
      hdone.bytes hK
    exact Nat.ne_of_gt (Nat.lt_of_lt_of_le hex hnew)
  · rintro f ⟨_, t'⟩ ⟨rfl, hK, h⟩
    cases h.of_error
    exact ⟨hK, f, rfl⟩

end

/-! ## Transparency -/

section
variable {caller server : Runtime} {C : Cluster} {S : ClusterState} {up : String → Caller} {node : String} {m m' : Mem}

/-- The call ended with a `Data` that holds `bytes`. -/
def Gives {χ : Type} (bytes : Bytes) (r : Except Fault DataID) (s : Mem × χ) : Prop :=
  ∃ d, r = .ok d ∧ s.1.secureBytes d = some bytes

theorem returns_gives {χ : Type} {D : DataID → Prop} {K : χ → Prop} {x : Except Err Bytes} {r : Except Fault DataID}
    {s : Mem × χ} (h : Returns D m K x.toOption r s) (bytes : Bytes) : Gives bytes r s ↔ x = .ok bytes := by
  cases x with
  | error e =>
    obtain ⟨-, f, rfl⟩ := h
    constructor
    · rintro ⟨_, ⟨⟩, -⟩
    · rintro ⟨⟩
  | ok b =>
    obtain ⟨-, -, d, rfl, -, -, hbytes⟩ := h
    constructor
    · rintro ⟨_, ⟨⟩, h⟩
      rw [hbytes] at h
      cases h
      rfl
    · rintro ⟨⟩
      exact ⟨d, rfl, hbytes⟩

theorem managerSeal_ne_nil {nonce out : Bytes} {req : SealRequest} (h : managerSeal C S up node nonce req = .ok out) :
    out ≠ [] := by
  obtain ⟨-, _, _, _, sec, -, -, -, henc⟩ := managerSeal_eq_ok.1 h
  obtain ⟨hp, -, rfl⟩ := encrypt_eq_ok.1 henc
  exact seal_ne_nil _ _ _ _ hp

theorem managerUnseal_ne_nil (hA : C.aead.Exact) {out : Bytes} {req : SealRequest}
    (h : managerUnseal C S up node req = .ok out) : out ≠ [] := by
  obtain ⟨-, _, _, _, sec, -, -, -, hdec⟩ := managerUnseal_eq_ok.1 h
  obtain ⟨-, -, hlen, hopen⟩ := decrypt_eq_ok.1 hdec
  have hexact := hA.open_length _ _ _ _ hopen
  rintro rfl
  simp only [List.length_nil] at hexact
  omega

/-- Whether a seal succeeds does not depend on the nonce. -/
theorem managerSeal_nonce {nonce out : Bytes} (nonce' : Bytes) {req : SealRequest}
    (h : managerSeal C S up node nonce req = .ok out) : ∃ out', managerSeal C S up node nonce' req = .ok out' := by
  obtain ⟨hv, k, kv, p, sec, hserves, hsec, hc, henc⟩ := managerSeal_eq_ok.1 h
  obtain ⟨hp, hk, -⟩ := encrypt_eq_ok.1 henc
  exact ⟨_, managerSeal_eq_ok.2 ⟨hv, k, kv, p, sec, hserves, hsec, hc, encrypt_eq_ok.2 ⟨hp, hk, rfl⟩⟩⟩

theorem managerUnseal_managerSeal {nonce out : Bytes} {req : SealRequest}
    (h : managerSeal C S up node nonce req = .ok out) :
    managerUnseal C S up node { req with payload := out } = .ok req.payload := by
  obtain ⟨hv, k, kv, p, sec, hserves, hsec, hc, henc⟩ := managerSeal_eq_ok.1 h
  exact managerUnseal_eq_ok.2 ⟨hv, k, kv, p, sec, hserves, hsec, hc, decrypt_encrypt henc⟩

/-- The request that reaches the service is the one that passes its checks. -/
theorem rpcRequest_eq_ok_iff_validateRequest {tenantID keyID : String} {keyVersion : Nat} {payload aad : Bytes}
    {q : SealRequest} : rpcRequest ⟨tenantID, keyID, keyVersion, payload, aad⟩ = .ok q ↔
      validateRequest ⟨tenantID, keyID, toInt32 keyVersion, payload, aad⟩ = .ok () ∧
        ⟨tenantID, keyID, (toInt32 keyVersion).toNat, payload, aad⟩ = q := by
  rw [rpcRequest_eq_ok, validateRequest_eq_ok]

/-- A request that names a tenant, a key and a version and has associated data. -/
structure SealDataRequest.Proper (req : SealDataRequest) : Prop where
  tenantID : Validator.isValidUUID req.tenantID = true
  keyID : Validator.isValidUUID req.keyID = true
  keyVersion : 1 ≤ req.keyVersion ∧ req.keyVersion ≤ 2 ^ 31 - 1
  aad : req.aad ≠ []

/-- A proper request reaches the service as it is. -/
theorem SealDataRequest.Proper.rpcRequest {req : SealDataRequest} (h : req.Proper) {payload : Bytes}
    (hne : payload ≠ []) : Krypton.rpcRequest ⟨req.tenantID, req.keyID, req.keyVersion, payload, req.aad⟩ =
      .ok ⟨req.tenantID, req.keyID, req.keyVersion, payload, req.aad⟩ := by
  have hversion := h.keyVersion
  have hint : toInt32 req.keyVersion = req.keyVersion := toInt32_of_lt (by unfold intBound; omega)
  refine rpcRequest_eq_ok.2 ⟨⟨h.tenantID, h.keyID, ?_, hne, h.aad⟩, ?_⟩
  · rw [hint]
    omega
  · simp only [hint, Int.toNat_natCast]

/-- **A call of the service is a call of the sealer with the request that reaches it.** The client, the wire, the secure
memory of both sides and the service come to `rpcRequest` before the function `f` that the sealer computes. -/
theorem ends_rpcManager (hcaller : caller.Healthy) (hserver : server.Healthy)
    {service : Option VaultID → SealMessage → Tx (Mem × ClusterState) Fault DataID}
    {sealer : SealDataRequest → Tx (Mem × ClusterState) Fault DataID} {failed : Err → Err} {missing name what : String}
    {f : SealRequest → Except Err Bytes}
    (hservice : ∀ v msg, service v msg = serve server sealer failed missing v name msg)
    (hsealer : ∀ (q : SealDataRequest) (m₁ : Mem) (payload : Bytes), m₁.secureBytes q.text = some payload →
      (sealer q).Ends (m₁, S) (Returns (fun _ => False) m₁ (· = S) (f (q.inMem m₁)).toOption))
    (hf : ∀ q out, f q = .ok out → out ≠ []) {req : SealDataRequest} {payload : Bytes}
    (htext : m.secureBytes req.text = some payload) :
    (rpcManagerCall caller (handleRPC server service) what req).Ends (m, m', S)
      (Returns (· = req.text) m (fun t => t.2 = S) (rpcRequest (req.inMem m) >>= f).toOption) := by
  rw [req.inMem_eq htext]
  refine ends_rpcManagerCall hcaller htext ?_ ?_ (ends_handleRPC hserver (fun v => hservice v _) ?_ ?_)
  · intro hnil
    refine ⟨rfl, toOption_eq_none fun out hout => ?_⟩
    obtain ⟨q, hq, -⟩ := bind_eq_ok.1 hout
    exact (rpcRequest_eq_ok.1 hq).1.2.2.2.1 hnil
  · intro bytes h
    obtain ⟨q, -, hout⟩ := bind_eq_ok.1 (toOption_eq_some.1 h)
    exact hf q bytes hout
  · intro e he
    refine toOption_eq_none fun out hout => ?_
    obtain ⟨q, hq, -⟩ := bind_eq_ok.1 hout
    have hvalid := (rpcRequest_eq_ok_iff_validateRequest.1 hq).1
    rw [hvalid] at he
    cases he
  · intro hvalid text m₁ htext₁
    dsimp only at htext₁ ⊢
    have hreach := rpcRequest_eq_ok_iff_validateRequest.2 ⟨hvalid, rfl⟩
    have hcall := hsealer ⟨req.tenantID, req.keyID, (toInt32 req.keyVersion).toNat, text, req.aad⟩ m₁ payload htext₁
    rw [SealDataRequest.inMem_eq _ htext₁] at hcall
    dsimp only at hcall
    rw [bind_eq_of_ok hreach]
    exact hcall

/-- **The remote sealer is transparent.** Through the two layers an unseal gives exactly the bytes the manager gives,
and a seal succeeds exactly when the manager's does, with a ciphertext that the manager opens; the stores and vaults of
the serving side are as before. -/
theorem rpcManager_transparent (hcaller : caller.Healthy) (hserver : server.Healthy) (hA : C.aead.Exact)
    (nonce nonce' : Bytes) (name : String) {req : SealDataRequest} {payload : Bytes} (hreq : req.Proper)
    (htext : m.secureBytes req.text = some payload) (hne : payload ≠ []) :
    ((rpcManagerUnseal caller server C up node name req).Ends (m, m', S) fun r s => s.2.2 = S ∧
      ∀ bytes, Gives bytes r s ↔ managerUnseal C S up node (req.inMem m) = .ok bytes) ∧
    (rpcManagerSeal caller server C up node nonce name req).Ends (m, m', S) fun r s => s.2.2 = S ∧
      ((∃ bytes, Gives bytes r s) ↔ ∃ bytes, managerSeal C S up node nonce' (req.inMem m) = .ok bytes) ∧
        ∀ bytes, Gives bytes r s → managerUnseal C S up node { req.inMem m with payload := bytes } = .ok payload := by
  have hreach := hreq.rpcRequest hne
  have hreq := req.inMem_eq htext
  rw [← hreq] at hreach
  constructor
  · have hunseal : (rpcManagerUnseal caller server C up node name req).Ends (m, m', S)
        (Returns (· = req.text) m (fun t => t.2 = S)
          (rpcRequest (req.inMem m) >>= managerUnseal C S up node).toOption) :=
      ends_rpcManager hcaller hserver (fun _ _ => rfl) (fun _ _ _ h => ends_managerUnsealData hserver hA h)
        (fun _ _ h => managerUnseal_ne_nil hA h) htext
    rw [bind_eq_of_ok hreach] at hunseal
    exact hunseal.mono fun r s h => ⟨h.1, returns_gives h⟩
  · have hseal : (rpcManagerSeal caller server C up node nonce name req).Ends (m, m', S)
        (Returns (· = req.text) m (fun t => t.2 = S)
          (rpcRequest (req.inMem m) >>= managerSeal C S up node nonce).toOption) :=
      ends_rpcManager hcaller hserver (fun _ _ => rfl) (fun _ _ _ h => ends_managerSealData hserver hA h)
        (fun _ _ h => managerSeal_ne_nil h) htext
    rw [bind_eq_of_ok hreach] at hseal
    refine hseal.mono fun r s h => ⟨h.1, ⟨?_, ?_⟩, ?_⟩
    · rintro ⟨bytes, hgives⟩
      exact managerSeal_nonce nonce' ((returns_gives h bytes).1 hgives)
    · rintro ⟨bytes, hdirect⟩
      obtain ⟨out, hout⟩ := managerSeal_nonce nonce hdirect
      exact ⟨out, (returns_gives h out).2 hout⟩
    · intro bytes hgives
      rw [managerUnseal_managerSeal ((returns_gives h bytes).1 hgives), hreq]

theorem demoCalm_order (_ : Nat) (l : List (Sigma fun _ : String => DataID)) : l.Perm l := .refl l

/-- Every call of the operating system succeeds. -/
def demoCalm : Runtime where
  fails _ _ := none
  order _ l := l
  order_perm := demoCalm_order
  ctxErr _ := none

theorem demoCalm_healthy : demoCalm.Healthy := ⟨fun _ => ⟨rfl, rfl, rfl⟩, fun _ => rfl, fun _ => rfl⟩

/-- The small deployment with a cipher that keeps lengths. -/
def demoPadded : RootProcess := { demo with aead := .padded }

/-- Its stores and vaults once the key below the root key has its secret. -/
def demoPaddedServing : ClusterState :=
  (worldAfter demoPadded (demoReady ++ [(demoEnv 0, .handle 3 0 0 true)])).cluster

/-- The way up from its node. -/
def demoUp : String → Caller := unsealVia demoPadded.cluster demoPaddedServing demoPadded.fuel

/-- Three bytes to be sealed under that key. -/
def demoSealRequest : SealDataRequest := ⟨demoTenant, demoKey 2, 1, 0, [7]⟩

/-- The three bytes in the memory of a caller. -/
def demoCallerMem : Mem := ⟨[⟨some [1, 2, 3], false⟩], [], 0⟩

theorem demo_transparent :
    (managerSeal demoPadded.cluster demoPaddedServing demoUp "root" [] (demoSealRequest.inMem demoCallerMem)).isOk ∧
    ((rpcManagerUnseal demoCalm demoCalm demoPadded.cluster demoUp "root" "a" demoSealRequest).Ends
      (demoCallerMem, ⟨[], [], 0⟩, demoPaddedServing) fun r s => s.2.2 = demoPaddedServing ∧ ∀ bytes, Gives bytes r s ↔
        managerUnseal demoPadded.cluster demoPaddedServing demoUp "root" (demoSealRequest.inMem demoCallerMem) =
          .ok bytes) ∧
    (rpcManagerSeal demoCalm demoCalm demoPadded.cluster demoUp "root" [] "a" demoSealRequest).Ends
      (demoCallerMem, ⟨[], [], 0⟩, demoPaddedServing) fun r s => s.2.2 = demoPaddedServing ∧
        ((∃ bytes, Gives bytes r s) ↔ ∃ bytes, managerSeal demoPadded.cluster demoPaddedServing demoUp "root" []
          (demoSealRequest.inMem demoCallerMem) = .ok bytes) ∧
        ∀ bytes, Gives bytes r s → managerUnseal demoPadded.cluster demoPaddedServing demoUp "root"
          { demoSealRequest.inMem demoCallerMem with payload := bytes } = .ok [1, 2, 3] := by
  refine ⟨by decide +kernel, ?_⟩
  have hreq : demoSealRequest.Proper := ⟨by decide +kernel, by decide +kernel, by decide +kernel, by decide +kernel⟩
  exact rpcManager_transparent demoCalm_healthy demoCalm_healthy Aead.padded_exact [] [] "a" hreq rfl (by decide)

end

end Krypton
