import Krypton.RemoteSealer
import Krypton.SecureMem.Tidy

/-!
# Lifetimes of secrets

What a call of the sealer service leaves in secure memory. On the calling side that is the result, and only if the call
succeeds; of what was there before only the payload is touched. On the serving side it is what the way up to the key's
secret keeps for itself, and nothing else: the copy of the payload, the secret of the key, what cryptor and processor
hand on and the answer itself are destroyed by the time the RPC has ended, whichever allocation or protection fails on
the way and whenever the context is cancelled.

The way up (`resolveProcessorAndSecret` with the vaults and the parents' sealers behind it) is a parameter; what is
asked of it is `Resolves`: it hands over the secret in a `Data` of its own, and what else it made and did not destroy it
knows. A root that loads the secret of a provider for each call keeps that one. Memory that cannot be given back is not
counted (`Runtime.Releases`).

* `hands_managerCrypt` — a manager hands on its result, and keeps what its way up keeps;
* `tidy_handleRPC`, `hands_rpcManagerCall` — the two sides of a call;
* `remote_calls_tidy` — both sides together.
-/

namespace Krypton

open Lib SecureMem

section
variable {χ : Type} {rt : Runtime} {c : χ} {K : χ → Prop} {m m₁ : Mem} {A : Aead}

/-! ## Cryptor and processor -/

/-- Room in the persistent vault of a handler that has made nothing yet. -/
theorem ends_reserve_one {name : String} {size : Int} {f : Err → Err} :
    ((reserve rt (requestFor m).persistentVault name size).mapError f).Ends (opened m) fun r m₁ =>
      match r with
      | .ok d => OneLeft (fun _ => False) (fun _ => False) m name d m₁ ∧ ¬ m₁.ReadOnly d
      | .error _ => Tidy (fun _ => False) (fun _ => False) (opened m) (fun _ => False) m₁ := by
  refine Tx.Ends.mapError (P := fun r m₁ => match r with
    | .ok d => OneLeft (fun _ => False) (fun _ => False) m name d m₁ ∧ ¬ m₁.ReadOnly d
    | .error _ => Tidy (fun _ => False) (fun _ => False) (opened m) (fun _ => False) m₁)
      ?_ (fun _ _ h => h) fun _ _ h => h
  unfold reserve
  refine Tx.Ends.ok_bind (a := (((opened m).store (requestFor m).persistentVault).lookup name).isSome) rfl ?_
  rw [store_opened.2, AList.lookup_empty]
  refine Tx.Ends.bind tidy_newData ?_ ?_
  · intro d m₁ hnew
    obtain ⟨-, hd, hexists, hwritable, htidy⟩ := hnew
    refine ⟨.of_insert (htidy.mono (fun _ _ => id) (fun _ _ => id) fun _ _ _ => .inl) ?_ hexists, hwritable⟩
    rw [hd]
    exact Nat.lt_irrefl _
  · exact fun e m₁ hnew => hnew.2

/-- Writing to the one `Data` that was left. -/
theorem ends_copy_one {name : String} {d : DataID} {bytes : Bytes}
    (h : OneLeft (fun _ => False) (fun _ => False) m name d m₁) (hwritable : ¬ m₁.ReadOnly d) (hK : K c) :
    ((copyTo d bytes).onFst : Tx (Mem × χ) Fault Unit).Ends (m₁, c)
      (LeavesOne (fun _ => False) (fun _ _ => False) m K name ()) := by
  refine Tx.Ends.onFst (tidy_copyTo hwritable) fun r m₂ hcopy => ?_
  obtain ⟨rfl, -, htidy⟩ := hcopy
  refine ⟨hK, rfl, d, h.keep htidy fun d' hd' heq => ?_⟩
  subst heq
  exact h.new hd'

theorem hands_aesEncrypt (hrt : rt.Releases) {nonce aad : Bytes} {secret plaintext : DataID} (hc : K c) :
    (aesEncrypt rt A nonce secret plaintext aad).Ends (m, c) (Hands (fun _ => False) (fun _ _ => False) m K) := by
  unfold aesEncrypt
  refine Tx.Ends.ok_bind (x := bytesOf plaintext) rfl (Tx.Ends.ok_bind (x := bytesOf secret) rfl ?_)
  refine ends_liftErr_bind (fun _ _ => ends_run_hands hrt hc ?_) fun e _ => ⟨hc, Fault.noConfusion, .of_same ⟨rfl, rfl⟩⟩
  refine Tx.Ends.ok_bind (x := bytesOf secret) rfl (Tx.Ends.ok_bind (x := bytesOf plaintext) rfl ?_)
  refine ends_callProc_bind ends_reserve_one ?_ ?_
  · exact fun d m₁ hleft => ends_copy_one hleft.1 hleft.2 hc
  · exact fun e m₁ htidy => ⟨hc, Fault.noConfusion, .of_tidy htidy⟩

theorem hands_aesDecrypt (hrt : rt.Releases) {aad : Bytes} {secret ciphertext : DataID} (hc : K c) :
    (aesDecrypt rt A secret ciphertext aad).Ends (m, c) (Hands (fun _ => False) (fun _ _ => False) m K) := by
  unfold aesDecrypt
  refine Tx.Ends.ok_bind (x := bytesOf ciphertext) rfl (Tx.Ends.ok_bind (x := bytesOf secret) rfl ?_)
  refine ends_liftErr_bind (fun _ _ => ends_run_hands hrt hc ?_) fun e _ => ⟨hc, Fault.noConfusion, .of_same ⟨rfl, rfl⟩⟩
  refine Tx.Ends.ok_bind (x := bytesOf secret) rfl (Tx.Ends.ok_bind (x := bytesOf ciphertext) rfl ?_)
  split
  · exact ⟨hc, Fault.noConfusion, .of_tidy (.of_same ⟨rfl, rfl⟩)⟩
  · refine ends_callProc_bind ends_reserve_one ?_ ?_
    · intro d m₁ hleft
      split
      · -- the room for the plaintext is in the persistent vault
        exact ⟨hc, Fault.noConfusion, hleft.1.allHeld⟩
      · exact ends_copy_one hleft.1 hleft.2 hc
    · exact fun e m₁ htidy => ⟨hc, Fault.noConfusion, .of_tidy htidy⟩

/-- The processor hands on what its cryptor handed to it. -/
theorem hands_processorCrypt (hrt : rt.Releases) {p : Processor} {crypt : Tx (Mem × χ) Fault DataID}
    (hcrypt : ∀ m, crypt.Ends (m, c) (Hands (fun _ => False) (fun _ _ => False) m K)) (hc : K c) :
    (processorCrypt rt p crypt).Ends (m, c) (Hands (fun _ => False) (fun _ _ => False) m K) := by
  unfold processorCrypt
  refine ends_run_hands hrt hc ?_
  cases p.cryptor with
  | none => exact ⟨hc, Fault.noConfusion, .of_tidy (.of_same ⟨rfl, rfl⟩)⟩
  | some cryptor =>
    refine Tx.Ends.bind (hcrypt (opened m)) ?_ ?_
    · intro d s₁ hend
      obtain ⟨hK, hhanded⟩ := hend
      exact ends_import_one imports_importData hhanded.tidy hhanded.new hhanded.exists_ hK
    · exact fun f s₁ hend => ⟨hend.1, hend.2.1, .of_tidy hend.2.2⟩

end

/-! ## The manager -/

section
variable {χ : Type} {rt : Runtime} {c : χ} {K : χ → Prop} {U : χ → DataID → Prop} {m : Mem} {A : Aead}

/-- **What is asked of the way up.** It hands over the secret in a new `Data`; of what else it made, what is not
destroyed is in `U`. It touches nothing that was there, and keeps `K`. -/
def Resolves (resolve : SealDataRequest → Tx (Mem × χ) Fault (Processor × DataID)) (U : χ → DataID → Prop)
    (K : χ → Prop) : Prop :=
  ∀ req m c, K c → (resolve req).Ends (m, c) fun r s => Hands (fun _ => False) U m K (r.map Prod.snd) s

variable {resolve : SealDataRequest → Tx (Mem × χ) Fault (Processor × DataID)}

/-- Of a manager's call its result is left, and what the way up keeps. -/
theorem hands_managerCrypt (hrt : rt.Releases) (hresolve : Resolves resolve U K)
    {crypt : Processor → DataID → Tx (Mem × χ) Fault DataID}
    (hcrypt : ∀ p secret m c, (crypt p secret).Ends (m, c) (Hands (fun _ => False) (fun _ _ => False) m (· = c)))
    {req : SealDataRequest} (hc : K c) :
    (managerCrypt rt resolve crypt req).Ends (m, c) (Hands (fun _ => False) U m K) := by
  unfold managerCrypt
  refine ends_liftErr_bind (fun _ _ => ?_) fun e _ => ⟨hc, Fault.noConfusion, .of_same ⟨rfl, rfl⟩⟩
  refine Tx.Ends.bind (hresolve req m c hc) ?_ ?_
  · intro found s₁ hend
    obtain ⟨m₁, c₁⟩ := s₁
    obtain ⟨hK, hhanded⟩ := hend
    refine ends_hands_deferDestroy hrt hhanded ((hcrypt found.1 found.2 m₁ c₁).mono fun r s h => ?_) hK
    exact h.mono (fun _ _ => False.elim) (fun _ => id) id
  · exact fun f s₁ hend => hend

theorem hands_managerSealVia (hrt : rt.Releases) (hresolve : Resolves resolve U K) {nonce : Bytes}
    {req : SealDataRequest} (hc : K c) :
    (managerSealVia rt resolve A nonce req).Ends (m, c) (Hands (fun _ => False) U m K) :=
  hands_managerCrypt hrt hresolve
    (fun _ _ _ _ => hands_processorCrypt hrt (fun _ => hands_aesEncrypt hrt rfl) rfl) hc

theorem hands_managerUnsealVia (hrt : rt.Releases) (hresolve : Resolves resolve U K) {req : SealDataRequest}
    (hc : K c) : (managerUnsealVia rt resolve A req).Ends (m, c) (Hands (fun _ => False) U m K) :=
  hands_managerCrypt hrt hresolve
    (fun _ _ _ _ => hands_processorCrypt hrt (fun _ => hands_aesDecrypt hrt rfl) rfl) hc

end

/-! ## The service -/

section
variable {χ : Type} {rt : Runtime} {c : χ} {K : χ → Prop} {U : χ → DataID → Prop} {m : Mem}
  {sealer : SealDataRequest → Tx (Mem × χ) Fault DataID} {failed : Err → Err} {msg : SealMessage}

theorem leavesOne_serviceHandler (hrt : rt.Releases)
    (hsealer : ∀ req m, (sealer req).Ends (m, c) (Hands (fun _ => False) U m K)) (hc : K c) :
    (serviceHandler rt sealer failed msg (requestFor m)).Ends (opened m, c)
      (LeavesOne (fun _ => False) U m K handlerKey ()) := by
  unfold serviceHandler
  refine ends_callProc_bind (P := fun r m₁ => match r with
    | .ok d => ¬ m.Exists d ∧ m₁.Exists d ∧ ¬ m₁.ReadOnly d ∧
        Tidy (fun _ => False) (fun _ => False) (opened m) (· = d) m₁
    | .error _ => Tidy (fun _ => False) (fun _ => False) (opened m) (fun _ => False) m₁)
    (tidy_newData.mapError ?_ fun _ _ h => h.2) ?_ ?_
  · intro d m₁ hnew
    refine ⟨?_, hnew.2.2⟩
    rw [hnew.2.1]
    exact Nat.lt_irrefl _
  · intro text m₁ hnew
    obtain ⟨hnew, hexists, hwritable, htidy⟩ := hnew
    -- the copy of the payload is destroyed in any case
    refine ends_leavesOne_deferDestroy hrt ?_ fun h => hnew h
    refine Tx.Ends.bind (P := fun r s => r = .ok () ∧ s.2 = c ∧
        Tidy (· = text) (fun _ => False) m₁ (fun _ => False) s.1)
      (Tx.Ends.onFst (tidy_copyTo hwritable) fun r m₂ h => ⟨h.1, rfl, h.2.2⟩) ?_ ?_
    · intro _ s₂ hcopy
      obtain ⟨m₂, c₂⟩ := s₂
      obtain ⟨-, rfl, hcopy⟩ := hcopy
      have htidy : Tidy (fun _ => False) (fun _ => False) (opened m) (· = text) m₂ :=
        htidy.after hcopy (fun d hd heq => hnew (heq ▸ hd)) (fun _ _ => False.elim) (fun _ _ _ h => .inl h)
          fun _ _ _ => False.elim
      refine Tx.Ends.mapError_bind (hsealer _ m₂) ?_ ?_
      · intro d s₃ hend
        obtain ⟨hK, hhanded⟩ := hend
        refine ends_import_one imports_vaultImport (htidy.after hhanded.tidy (fun _ _ => False.elim)
          (fun _ _ => False.elim) (fun _ _ _ h => .inl (.inr (.inr h))) fun _ _ _ h => h.imp_right .inl) ?_
          hhanded.exists_ hK
        exact fun hd => hhanded.new (htidy.frame.exists_mono hd)
      · intro f s₃ hend
        obtain ⟨hK, hf, hend⟩ := hend
        refine ⟨hK, ?_, .of_tidy (htidy.after hend (fun _ _ => False.elim) (fun _ _ => False.elim)
          (fun _ _ _ h => .inl (.inr h)) fun _ _ _ => .inl)⟩
        cases f with
        | error e => exact Fault.noConfusion
        | panic => exact Fault.noConfusion
        | crash => exact absurd rfl hf
    · intro f s₂ hcopy
      cases hcopy.1
  · exact fun e m₁ htidy => ⟨hc, Fault.noConfusion, .of_tidy (htidy.mono (fun _ _ => id) (fun _ _ => id)
      fun _ _ _ => False.elim)⟩

/-- All that a call of the service leaves is in the context vault, or kept by its sealer. -/
theorem tidy_serve (hrt : rt.Releases) (hsealer : ∀ req m, (sealer req).Ends (m, c) (Hands (fun _ => False) U m K))
    (hc : K c) {missing name : String} {v : VaultID} (hv : v < m.vaults.length) (hempty : m.store v = ∅) :
    (serve rt sealer failed missing (some v) name msg).Ends (m, c) fun r s =>
      K s.2 ∧ r ≠ .error .crash ∧ Tidy (fun _ => False) (· = v) m (fun d => s.1.Holds v d ∨ U s.2 d) s.1 ∧
        ∀ d, s.1.Holds v d → ¬ m.Exists d := by
  unfold serve
  have hnothing : ∀ {m₁ : Mem} {c₁ : χ}, Tidy (fun _ => False) (fun _ => False) m (U c₁) m₁ →
      Tidy (fun _ => False) (· = v) m (fun d => m₁.Holds v d ∨ U c₁ d) m₁ ∧ ∀ d, m₁.Holds v d → ¬ m.Exists d := by
    intro m₁ c₁ htidy
    refine ⟨htidy.mono (fun _ _ => id) (fun _ _ => False.elim) fun _ _ _ => .inr, fun d hd => ?_⟩
    obtain ⟨n, hn⟩ := hd
    rw [htidy.frame.store v hv id, hempty, AList.lookup_empty] at hn
    cases hn
  refine ends_liftErr_bind (fun _ _ => ?_) fun e _ => ⟨hc, by simp, hnothing (.of_same ⟨rfl, rfl⟩)⟩
  refine Tx.Ends.bind (ends_run_tidy hrt hc (leavesOne_serviceHandler hrt hsealer hc)) ?_ ?_
  · intro resp s₁ hend
    obtain ⟨m₁, c₁⟩ := s₁
    obtain ⟨hK, rfl, d, hhanded, honly⟩ := hend
    refine Tx.Ends.ok_bind (getOrClean_eq ((honly handlerKey d).2 ⟨rfl, rfl⟩)) ?_
    have hstore : m₁.store v = ∅ := (hhanded.tidy.frame.store v hv id).trans hempty
    have hadd : addToContextVault rt (some v) name d m₁ = (.ok (), m₁.setStore v ((m₁.store v).insert name d)) :=
      imports_vaultImport m₁ hhanded.exists_ (by rw [hstore, AList.lookup_empty])
    have hset : (m₁.setStore v ((m₁.store v).insert name d)).store v = (∅ : AList fun _ => DataID).insert name d := by
      rw [store_setStore (Nat.lt_of_lt_of_le hv hhanded.tidy.frame.vaultsGrow), hstore]
    refine Tx.Ends.ok_bind (callProc_of_ok (Tx.attempt_of_ok hadd)) ⟨hK, nofun, ?_, fun d' hd' => ?_⟩
    · refine (hhanded.tidy.mono (fun _ _ => id) (fun _ _ => False.elim) fun _ _ _ => id).after tidy_setStore
        (fun _ _ => False.elim) (fun _ _ => id) (fun d' _ _ hd' => .inl (hd'.imp_left fun heq => ⟨name, ?_⟩))
        fun _ _ _ => False.elim
      exact (congrArg (AList.lookup name) hset).trans (heq ▸ AList.lookup_insert _)
    · obtain ⟨n, hn⟩ := hd'
      have hn : ((∅ : AList fun _ => DataID).insert name d).lookup n = some d' := hset ▸ hn
      by_cases hname : n = name
      · subst hname
        rw [AList.lookup_insert] at hn
        cases hn
        exact hhanded.new
      · rw [AList.lookup_insert_ne hname, AList.lookup_empty] at hn
        cases hn
  · exact fun f s₁ hend => ⟨hend.1, by simpa using hend.2.1, hnothing hend.2.2⟩

/-- **The serving side.** An RPC leaves nothing but what the sealer keeps. -/
theorem tidy_handleRPC (hrt : rt.Releases) (hsealer : ∀ req m, (sealer req).Ends (m, c) (Hands (fun _ => False) U m K))
    (hc : K c) {missing name : String} {service : Option VaultID → SealMessage → Tx (Mem × χ) Fault DataID}
    (hservice : ∀ v, service v msg = serve rt sealer failed missing v name msg) :
    (handleRPC rt service msg).Ends (m, c) fun r s =>
      K s.2 ∧ r ≠ .error .crash ∧ Tidy (fun _ => False) (fun _ => False) m (U s.2) s.1 := by
  unfold handleRPC
  have htag : newMemVault m = (.ok m.vaults.length, { m with vaults := m.vaults ++ [∅] }) := rfl
  refine Tx.Ends.ok_bind (callProc_of_ok htag) ?_
  have hopen : Tidy (fun _ => False) (fun _ => False) m (fun _ => False) { m with vaults := m.vaults ++ [∅] } := by
    refine .of_length ⟨fun _ _ _ => rfl, fun _ _ _ => id, fun v hv _ => ?_, le_rfl, by simp⟩ (fun _ h => h) rfl
    unfold Mem.store
    rw [List.getElem?_append_left hv]
  have hserve := @tidy_serve χ rt c K U { m with vaults := m.vaults ++ [∅] } sealer failed msg hrt hsealer hc missing
    name m.vaults.length (by simp) (by simp [Mem.store])
  rw [← hservice] at hserve
  refine Tx.Ends.deferred (Tx.Ends.bind hserve (R := fun r s => K s.2 ∧ r ≠ .error .crash ∧
    Tidy (fun _ => False) (· = m.vaults.length) { m with vaults := m.vaults ++ [∅] }
        (fun d => s.1.Holds m.vaults.length d ∨ U s.2 d) s.1 ∧
      ∀ d, s.1.Holds m.vaults.length d → ¬ m.Exists d) ?_ ?_) ?_
  · exact fun d s h => ⟨h.1, by simp [bytesOf, Tx.read], h.2.2⟩
  · exact fun f s h => ⟨h.1, by simpa using h.2.1, h.2.2⟩
  · intro r s₁ hend
    obtain ⟨m₁, c₁⟩ := s₁
    obtain ⟨hK, hr, htidy, hnew⟩ := hend
    refine Tx.Ends.onFst tidy_destroyAll fun _ m₂ hdestroy => ⟨hK, hr, ?_⟩
    have hnone : ∀ v, v < m.vaults.length → v = m.vaults.length → False := fun v hv heq => Nat.ne_of_lt hv heq
    refine (hopen.after htidy (fun _ _ => id) hnone (fun _ _ _ => False.elim) fun _ _ _ => id).after hdestroy.1
      (fun d hd hheld => hnew d hheld hd) hnone (fun d _ hd hheld => ?_) fun _ _ _ => False.elim
    rcases hheld with hheld | hkept
    · exact .inr (hdestroy.2 hrt d hheld hd)
    · exact .inl hkept

end

/-! ## The calling side -/

section
variable {σ : Type} {rt : Runtime} {t : σ} {K : σ → Prop} {m : Mem}

/-- **The calling side.** A remote call leaves its result, and of what was there touches the payload. -/
theorem hands_rpcManagerCall (hrt : rt.Releases) {rpc : SealMessage → Tx σ Fault Bytes} {what : String}
    {req : SealDataRequest} (hrpc : ∀ msg, (rpc msg).Ends t fun _ t' => K t') (ht : K t) :
    (rpcManagerCall rt rpc what req).Ends (m, t) (Hands (· = req.text) (fun _ _ => False) m K) := by
  unfold rpcManagerCall
  refine Tx.Ends.ok_bind (x := bytesOf req.text) rfl ?_
  split
  · exact ⟨ht, Fault.noConfusion, .of_same ⟨rfl, rfl⟩⟩
  · refine ends_run_hands hrt ht (ends_leavesOne_deferDestroy hrt ?_ fun _ => rfl)
    refine Tx.Ends.ok_bind (x := bytesOf req.text) rfl ?_
    refine Tx.Ends.bind (P := fun r s => s.1 = opened m ∧ K s.2 ∧ r ≠ .error .crash) ?_ ?_ ?_
    · refine Tx.Ends.onSnd ((hrpc _).mapError (Q := fun r t' => K t' ∧ r ≠ .error .crash) ?_ ?_) ?_
      · exact fun _ t' h => ⟨h, by simp⟩
      · intro f t' h
        refine ⟨h, ?_⟩
        cases f <;> simp [overTheWire]
      · exact fun r t' h => ⟨rfl, h⟩
    · intro out s₁ hend
      obtain ⟨m₁, t₁⟩ := s₁
      obtain ⟨rfl, hK, -⟩ := hend
      refine ends_callProc_bind tidy_newData ?_ ?_
      · intro d m₂ hnew
        obtain ⟨-, hd, hexists, hwritable, htidy⟩ := hnew
        have hnew : ¬ m.Exists d := by
          rw [hd]
          exact Nat.lt_irrefl _
        refine Tx.Ends.bind (P := fun r s => r = .ok () ∧ s.2 = t₁ ∧
            Tidy (· = d) (fun _ => False) m₂ (fun _ => False) s.1)
          (Tx.Ends.onFst (tidy_copyTo hwritable) fun r m₃ h => ⟨h.1, rfl, h.2.2⟩) ?_ ?_
        · intro _ s₃ hcopy
          obtain ⟨m₃, t₃⟩ := s₃
          obtain ⟨-, rfl, hcopy⟩ := hcopy
          refine ends_import_one imports_vaultImport (((htidy.mono (fun _ _ => False.elim) (fun _ _ => id)
            fun _ _ _ => id).after hcopy (fun d' hd' heq => absurd (heq ▸ hd') hnew) (fun _ _ => False.elim)
            (fun _ _ _ h => .inl (.inl h)) fun _ _ _ => False.elim)) hnew ?_ hK
          exact hcopy.frame.exists_mono hexists
        · intro f s₃ hcopy
          cases hcopy.1
      · exact fun e m₂ hnew => ⟨hK, Fault.noConfusion, .of_tidy (hnew.2.mono (fun _ _ => False.elim) (fun _ _ => id)
          fun _ _ _ => False.elim)⟩
    · intro f s₁ hend
      obtain ⟨m₁, t₁⟩ := s₁
      obtain ⟨rfl, hK, hf⟩ := hend
      exact ⟨hK, by simpa using hf, .of_tidy (.of_same ⟨rfl, rfl⟩)⟩

end

/-! ## Both sides -/

/-- What a call leaves in the memory `m` of its caller and `m'` of its server; `U` is what the way up to the secret
keeps. -/
structure LeftTidy {χ : Type} (U : χ → DataID → Prop) (K : χ → Prop) (req : SealDataRequest) (m m' : Mem)
    (r : Except Fault DataID) (s : Mem × (Mem × χ)) : Prop where
  /-- No write met protected memory. -/
  runs : r ≠ .error .crash
  /-- The server keeps none of what it made beside `U`, -/
  server : ∀ d, ¬ m'.Exists d → s.2.1.Exists d → U s.2.2 d ∨ s.2.1.Destroyed d
  /-- and the caller only the result. -/
  caller : ∀ d, ¬ m.Exists d → s.1.Exists d → r = .ok d ∨ s.1.Destroyed d
  /-- What was in use stays as it was, the payload apart. -/
  serverKept : ∀ d, m'.Exists d → s.2.1.secureBytes d = m'.secureBytes d
  callerKept : ∀ d, m.Exists d → d ≠ req.text → s.1.secureBytes d = m.secureBytes d
  /-- So do the vaults in memory. -/
  vaults : (∀ v, v < m.vaults.length → s.1.store v = m.store v) ∧ ∀ v, v < m'.vaults.length → s.2.1.store v = m'.store v
  stores : K s.2.2

section
variable {χ : Type} {caller server : Runtime} {U : χ → DataID → Prop} {K : χ → Prop} {m m' : Mem} {c : χ}

theorem LeftTidy.of_hands {req : SealDataRequest} {r : Except Fault DataID} {s : Mem × (Mem × χ)}
    (h : Hands (· = req.text) (fun _ _ => False) m
      (fun t => K t.2 ∧ Tidy (fun _ => False) (fun _ => False) m' (U t.2) t.1) r s) : LeftTidy U K req m m' r s := by
  obtain ⟨⟨hK, hserver⟩, hcaller⟩ := h
  have hends : r ≠ .error .crash ∧ Tidy (· = req.text) (fun _ => False) m (fun d => r = .ok d) s.1 := by
    cases r with
    | ok d =>
      refine ⟨nofun, hcaller.tidy.mono (fun _ _ => id) (fun _ _ => id) fun d' _ _ hd' => ?_⟩
      rw [hd'.resolve_right id]
    | error f =>
      refine ⟨fun heq => hcaller.1 (Except.error.inj heq), ?_⟩
      exact hcaller.2.mono (fun _ _ => id) (fun _ _ => id) fun _ _ _ => False.elim
  obtain ⟨hruns, htidy⟩ := hends
  exact ⟨hruns, hserver.clean, htidy.clean, fun d hd => hserver.frame.bytes d hd id, htidy.frame.bytes,
    ⟨fun v hv => htidy.frame.store v hv id, fun v hv => hserver.frame.store v hv id⟩, hK⟩

/-- One call, whatever sealer is behind the service. -/
theorem leftTidy_rpcManagerCall (hcaller : caller.Releases) (hserver : server.Releases)
    {service : Option VaultID → SealMessage → Tx (Mem × χ) Fault DataID}
    {sealer : SealDataRequest → Tx (Mem × χ) Fault DataID} {failed : Err → Err} {missing name what : String}
    (hservice : ∀ v msg, service v msg = serve server sealer failed missing v name msg)
    (hsealer : ∀ req m, (sealer req).Ends (m, c) (Hands (fun _ => False) U m K)) (hc : K c) (req : SealDataRequest) :
    (rpcManagerCall caller (handleRPC server service) what req).Ends (m, m', c) (LeftTidy U K req m m') := by
  refine (hands_rpcManagerCall hcaller ?_ ⟨hc, .of_same ⟨rfl, rfl⟩⟩).mono fun r s h => .of_hands h
  exact fun msg => (tidy_handleRPC hserver hsealer hc fun v => hservice v msg).mono fun r t' hend => ⟨hend.1, hend.2.2⟩

/-- **Nothing is left of a remote seal or unseal but its result and what the way up keeps.** Whichever allocations and
protections fail on the two sides, whenever their contexts are cancelled and whatever the request says: once the call
has ended the server has destroyed all that it made for it (the copy of the payload, the secret of the key, the answer)
but what the way up to the secret keeps, and the caller all but the result. -/
theorem remote_calls_tidy (hcaller : caller.Releases) (hserver : server.Releases)
    (resolve : SealDataRequest → Tx (Mem × χ) Fault (Processor × DataID)) (hresolve : Resolves resolve U K) (A : Aead)
    (nonce : Bytes) (name : String) (req : SealDataRequest) (hc : K c) :
    (rpcManagerCall caller (handleRPC server (serviceSeal server (managerSealVia server resolve A nonce) name))
        "plaintext" req).Ends (m, m', c) (LeftTidy U K req m m') ∧
      (rpcManagerCall caller (handleRPC server (serviceUnseal server (managerUnsealVia server resolve A) name))
        "ciphertext" req).Ends (m, m', c) (LeftTidy U K req m m') :=
  ⟨leftTidy_rpcManagerCall hcaller hserver (fun _ _ => rfl)
    (fun _ _ => hands_managerSealVia hserver hresolve hc) hc req,
    leftTidy_rpcManagerCall hcaller hserver (fun _ _ => rfl) (fun _ _ => hands_managerUnsealVia hserver hresolve hc) hc
      req⟩

end

/-! ### A way up that keeps a secret -/

/-- The secret a manager works with is a copy. -/
theorem hands_resolveSecretData {χ : Type} {rt : Runtime} {c : χ} {m : Mem} (hrt : rt.Releases) {sec : Bytes} :
    (resolveSecretData rt sec).Ends (m, c) (Hands (fun _ => False) (fun _ _ => False) m (· = c)) := by
  unfold resolveSecretData
  refine ends_run_hands hrt rfl (ends_callProc_bind tidy_newData ?_ ?_)
  · intro d m₁ hnew
    obtain ⟨-, hd, hexists, hwritable, htidy⟩ := hnew
    have hnew : ¬ m.Exists d := by
      rw [hd]
      exact Nat.lt_irrefl _
    refine Tx.Ends.bind (P := fun r s => r = .ok () ∧ s.2 = c ∧ Tidy (· = d) (fun _ => False) m₁ (fun _ => False) s.1)
      (Tx.Ends.onFst (tidy_copyTo hwritable) fun r m₂ h => ⟨h.1, rfl, h.2.2⟩) ?_ ?_
    · intro _ s₂ hcopy
      obtain ⟨m₂, c₂⟩ := s₂
      obtain ⟨-, rfl, hcopy⟩ := hcopy
      refine ends_import_one imports_importData (htidy.after hcopy (fun d' hd' heq => hnew (heq ▸ hd'))
        (fun _ _ => False.elim) (fun _ _ _ h => .inl (.inl h)) fun _ _ _ => False.elim) hnew ?_ rfl
      exact hcopy.frame.exists_mono hexists
    · intro f s₂ hcopy
      cases hcopy.1
  · exact fun e m₁ hnew => ⟨rfl, Fault.noConfusion, .of_tidy hnew.2⟩

/-- The secret of a provider is loaded for each call and not given back; the state is the list of those. -/
def demoResolve (rt : Runtime) (_ : SealDataRequest) : Tx (Mem × List DataID) Fault (Processor × DataID) := do
  let provider ← callProc (newData rt 3)
  (fun s => (.ok (), s.1, provider :: s.2) : Tx (Mem × List DataID) Fault Unit)
  let secret ← resolveSecretData rt (List.replicate keySize 5)
  return (⟨some .aes256gcm, none, none, .rootManager⟩, secret)

theorem demoResolve_resolves {rt : Runtime} (hrt : rt.Releases) :
    Resolves (demoResolve rt) (fun kept d => d ∈ kept) fun _ => True := by
  intro req m kept _
  unfold demoResolve
  refine ends_callProc_bind tidy_newData ?_ fun e m₁ hnew =>
    ⟨trivial, Fault.noConfusion, hnew.2.mono (fun _ _ => id) (fun _ _ => id) fun _ _ _ => False.elim⟩
  intro provider m₁ hnew
  obtain ⟨-, -, -, -, htidy⟩ := hnew
  have hkeep : (fun s => (.ok (), s.1, provider :: s.2) : Tx (Mem × List DataID) Fault Unit) (m₁, kept) =
      (.ok (), m₁, provider :: kept) := rfl
  refine Tx.Ends.ok_bind hkeep (Tx.Ends.bind (hands_resolveSecretData hrt) ?_ ?_)
  · intro secret s₂ hend
    obtain ⟨m₂, kept₂⟩ := s₂
    obtain ⟨rfl, hhanded⟩ := hend
    refine ⟨trivial, fun hd => hhanded.new (htidy.frame.exists_mono hd), hhanded.exists_, ?_⟩
    exact htidy.after hhanded.tidy (fun _ _ => False.elim) (fun _ _ => False.elim)
      (fun d _ _ heq => .inl (.inr (heq ▸ List.mem_cons_self))) fun _ _ _ hd => .inl (hd.resolve_right id)
  · intro f s₂ hend
    obtain ⟨m₂, kept₂⟩ := s₂
    obtain ⟨rfl, hf, hend⟩ := hend
    refine ⟨trivial, hf, htidy.after hend (fun _ _ => False.elim) (fun _ _ => False.elim) (fun d _ _ heq => ?_)
      fun _ _ _ => False.elim⟩
    exact .inl (heq ▸ List.mem_cons_self)

/-- From a time on no memory can be locked. -/
def demoExhausted : Runtime where
  fails call n := if call = .mlock ∧ 14 ≤ n then some (.plain "cannot allocate memory") else none
  order _ l := l
  order_perm := demoCalm_order
  ctxErr _ := none

theorem demoExhausted_releases : demoExhausted.Releases := fun _ => ⟨rfl, rfl, rfl⟩

/-- A remote seal on a server that runs out of memory. -/
def demoExhaustedSeal : Except Fault DataID × Mem × Mem × List DataID :=
  rpcManagerCall demoCalm (handleRPC demoExhausted (serviceSeal demoExhausted
    (managerSealVia demoExhausted (demoResolve demoExhausted) .padded []) "a")) "plaintext" demoSealRequest
    (demoCallerMem, ⟨[], [], 0⟩, [])

/-- The copy of the payload and the secret of the key are gone, the secret of the provider is not. -/
theorem demo_calls_tidy :
    demoExhaustedSeal.1.toOption = none ∧ demoExhaustedSeal.2.2.1.data.length = 3 ∧ demoExhaustedSeal.2.2.2 = [1] ∧
      demoExhaustedSeal.2.2.1.Destroyed 0 ∧ demoExhaustedSeal.2.2.1.Destroyed 2 := by
  have hlen : demoExhaustedSeal.2.2.1.data.length = 3 := by decide +kernel
  have hkept : demoExhaustedSeal.2.2.2 = [1] := by decide +kernel
  have htidy : LeftTidy (fun kept d => d ∈ kept) (fun _ => True) demoSealRequest demoCallerMem ⟨[], [], 0⟩
      demoExhaustedSeal.1 demoExhaustedSeal.2 :=
    (@remote_calls_tidy (List DataID) demoCalm demoExhausted _ _ demoCallerMem ⟨[], [], 0⟩ [] (fun _ => ⟨rfl, rfl, rfl⟩)
      demoExhausted_releases _ (demoResolve_resolves demoExhausted_releases) .padded [] "a" demoSealRequest trivial).1
  have hgone : ∀ d, d < 3 → d ≠ 1 → demoExhaustedSeal.2.2.1.Destroyed d := by
    intro d hd hne
    refine (htidy.server d (Nat.not_lt_zero d) (Nat.lt_of_lt_of_eq hd hlen.symm)).resolve_left fun hmem => ?_
    rw [hkept, List.mem_singleton] at hmem
    exact hne hmem
  exact ⟨by decide +kernel, hlen, hkept, hgone 0 (by decide) (by decide), hgone 2 (by decide) (by decide)⟩

end Krypton
