import Krypton.Kmip
import Krypton.Lib.Run
import Krypton.Lib.Separated
import Krypton.SecureMem.Persist
import Krypton.SecureMem.Run

/-!
# Connections of the KMIP server

`internal/kmip/server.go` gives every connection a vault of secure memory. A `Get` exports a secret into a `Data`,
imports it into the vault of its connection under a name no other request uses, and answers with its bytes; closing the
connection destroys the vault. The requests of one connection follow each other, those of several connections
interleave: an event is what one of them does between two points where the others can run.

`KmipServer.exports` and `KmipSession.served` record what was exported for whom and what was answered; the code does not
read them.

* `get_imported` — an import is never refused;
* `served_until_closed` — what was served stays readable, with the bytes that were exported for that connection, until
  the connection is closed, and is destroyed then; when all connections are closed no secret is left.
-/

namespace Krypton

open Lib SecureMem

/-! ## The server -/

/-- Where `handleGet` is on a connection. -/
inductive GetPhase where
  | idle
  /-- The secret is exported, the vault does not own it yet. -/
  | exported (uid : String) (d : DataID)
  deriving DecidableEq, Repr

structure KmipSession where
  vault : VaultID
  isOpen : Bool
  phase : GetPhase
  served : List DataID
  deriving DecidableEq, Repr

structure KmipExport where
  session : Nat
  material : Bytes
  deriving DecidableEq, Repr

structure KmipServer where
  mem : Mem
  /-- `vaultSeq`, an `atomic.Uint64`. -/
  vaultSeq : Nat
  sessions : List KmipSession
  exports : List KmipExport

inductive KmipEvent where
  /-- `ConnectHook`. -/
  | connect
  /-- `ExportSecret` returns for a `Get`. -/
  | exported (i : Nat) (uid : String) (material : Bytes)
  /-- The rest of `handleGet`. -/
  | imported (i : Nat)
  /-- `handleGet` gives up before the import. -/
  | refused (i : Nat)
  /-- `TerminateHook`, after the last request of the connection. -/
  | terminated (i : Nat)
  deriving DecidableEq, Repr

def vaultEntryName (uid : String) (seq : Nat) : String := uid ++ "#" ++ toString seq

namespace KmipServer

def start : KmipServer := ⟨⟨[], [], 0⟩, 0, [], []⟩

def setSession (s : KmipServer) (i : Nat) (x : KmipSession) : KmipServer := { s with sessions := s.sessions.set i x }

/-- `withMemVault(ctx, NewMemVault())`. -/
def connected (s : KmipServer) : KmipServer :=
  { s with
    mem := { s.mem with vaults := s.mem.vaults ++ [∅] }
    sessions := s.sessions ++ [⟨s.mem.vaults.length, true, .idle, []⟩] }

/-- `ExportSecret` hands over a `Data` that is read-only. -/
def exportFor (s : KmipServer) (i : Nat) (x : KmipSession) (uid : String) (material : Bytes) : KmipServer :=
  let mem : Mem := { s.mem with data := s.mem.data ++ [⟨some material, true⟩] }
  let exports : List KmipExport := s.exports ++ [⟨i, material⟩]
  { s with mem, exports }.setSession i { x with phase := .exported uid s.mem.data.length }

variable (rt : Runtime)

/-- The end of `handleGet` without a response: the secret is destroyed. -/
def dropExported (s : KmipServer) (i : Nat) (x : KmipSession) (d : DataID) : KmipServer :=
  { s with mem := (destroy rt d s.mem).2 }.setSession i { x with phase := .idle }

def importExported (s : KmipServer) (i : Nat) (x : KmipSession) (uid : String) (d : DataID) : KmipServer :=
  let s := { s with vaultSeq := (s.vaultSeq + 1) % 2 ^ 64 }
  match importData x.vault (vaultEntryName uid s.vaultSeq) d s.mem with
  | (.ok _, mem) => { s with mem }.setSession i { x with phase := .idle, served := x.served ++ [d] }
  | (.error _, mem) => dropExported rt { s with mem } i x d

def terminate (s : KmipServer) (i : Nat) (x : KmipSession) : KmipServer :=
  { s with mem := (destroyAll rt x.vault s.mem).2 }.setSession i { x with isOpen := false }

def step (s : KmipServer) : KmipEvent → KmipServer
  | .connect => connected s
  | .exported i uid material =>
    match s.sessions[i]? with
    | some x =>
      if x.isOpen = true ∧ x.phase = .idle then
        exportFor s i x uid material
      else s
    | none => s
  | .imported i =>
    match s.sessions[i]? with
    | some x =>
      match x.phase with
      | .exported uid d => importExported rt s i x uid d
      | .idle => s
    | none => s
  | .refused i =>
    match s.sessions[i]? with
    | some x =>
      match x.phase with
      | .exported _ d => dropExported rt s i x d
      | .idle => s
    | none => s
  | .terminated i =>
    match s.sessions[i]? with
    | some x => if x.isOpen = true ∧ x.phase = .idle then terminate rt s i x else s
    | none => s

end KmipServer

/-! ## Names of entries -/

/-- A name determines its number. -/
theorem vaultEntryName_inj {uid uid' : String} {seq seq' : Nat}
    (h : vaultEntryName uid seq = vaultEntryName uid' seq') : uid = uid' ∧ seq = seq' := by
  have hlist : ∀ (u : String) (n : Nat), (vaultEntryName u n).toList = u.toList ++ '#' :: (toString n).toList := by
    intro u n
    unfold vaultEntryName
    simp
  have hsame := congrArg String.toList h
  rw [hlist, hlist] at hsame
  obtain ⟨huid, hseq⟩ := last_segment (not_mem_toString (by decide) seq) (not_mem_toString (by decide) seq') hsame
  exact ⟨String.toList_inj.1 huid, Nat.repr_inj.1 (String.toList_inj.1 hseq)⟩

/-! ## Ownership -/

/-- The `Data` is of this connection: it was served, or is on the way. -/
def KmipSession.Has (x : KmipSession) (d : DataID) : Prop := d ∈ x.served ∨ ∃ uid, x.phase = .exported uid d

namespace KmipServer

/-- The `Data` was made for connection `i`. -/
def Owned (s : KmipServer) (i : Nat) (d : DataID) : Prop := ∃ material, s.exports[d]? = some ⟨i, material⟩

/-- What holds of a connection. -/
structure SessionInv (s : KmipServer) (i : Nat) (x : KmipSession) : Prop where
  vault : x.vault = i
  made : ∀ d, x.Has d → ∃ material, s.exports[d]? = some ⟨i, material⟩ ∧
    (x.isOpen = true → s.mem.secureBytes d = some material)
  held : ∀ d, s.mem.Holds i d → d ∈ x.served
  stored : x.isOpen = true → ∀ d ∈ x.served, s.mem.Holds i d
  pending : ∀ uid d, x.phase = .exported uid d → x.isOpen = true ∧ d ∉ x.served
  names : x.isOpen = true → ∀ name d, (s.mem.store i).lookup name = some d → ∃ uid k,
    name = vaultEntryName uid k ∧ k ≤ s.vaultSeq

structure Inv (s : KmipServer) : Prop where
  data : s.exports.length = s.mem.data.length
  vaults : s.mem.vaults.length = s.sessions.length
  sessions : ∀ i x, s.sessions[i]? = some x → SessionInv s i x

variable {s s' : KmipServer} {i j : Nat} {x x' : KmipSession}

/-- The other connections do not notice what one connection does to its own `Data` and its own vault. -/
theorem SessionInv.of_frame (h : SessionInv s j x) (hj : j < s.mem.vaults.length) (hji : j ≠ i)
    (hframe : Frame (s.Owned i) (· = i) s.mem s'.mem) (hdata : s.exports.length = s.mem.data.length)
    (hexports : ∀ (d : Nat) (e : KmipExport), s.exports[d]? = some e → s'.exports[d]? = some e)
    (hseq : s.vaultSeq ≤ s'.vaultSeq) : SessionInv s' j x where
  vault := h.vault
  made d hd := by
    obtain ⟨material, he, hbytes⟩ := h.made d hd
    refine ⟨material, hexports d _ he, fun hopen => ?_⟩
    have hexists : s.mem.Exists d := by
      unfold Mem.Exists
      rw [← hdata]
      exact (List.getElem?_eq_some_iff.1 he).1
    rw [hframe.bytes d hexists, hbytes hopen]
    intro hother
    obtain ⟨material', he'⟩ := hother
    rw [he] at he'
    cases he'
    exact hji rfl
  held d hd := h.held d ((hframe.holds hj hji).1 hd)
  stored hopen d hd := (hframe.holds hj hji).2 (h.stored hopen d hd)
  pending := h.pending
  names hopen name d hname := by
    rw [hframe.store j hj hji] at hname
    obtain ⟨uid, k, rfl, hk⟩ := h.names hopen name d hname
    exact ⟨uid, k, rfl, le_trans hk hseq⟩

/-- An event of one connection. -/
theorem Inv.of_session (h : Inv s) (hsessions : s'.sessions = s.sessions.set i x')
    (hframe : Frame (s.Owned i) (· = i) s.mem s'.mem) (hvaults : s'.mem.vaults.length = s.mem.vaults.length)
    (hdata : s'.exports.length = s'.mem.data.length)
    (hexports : ∀ (d : Nat) (e : KmipExport), s.exports[d]? = some e → s'.exports[d]? = some e)
    (hseq : s.vaultSeq ≤ s'.vaultSeq) (hx' : SessionInv s' i x') : Inv s' where
  data := hdata
  vaults := by rw [hvaults, hsessions, List.length_set, h.vaults]
  sessions j y hy := by
    rw [hsessions, List.getElem?_set] at hy
    split at hy
    · rename_i hij
      subst hij
      split at hy
      · cases hy
        exact hx'
      · cases hy
    · rename_i hij
      have hj : j < s.mem.vaults.length := by
        rw [h.vaults]
        exact (List.getElem?_eq_some_iff.1 hy).1
      exact (h.sessions j y hy).of_frame hj (Ne.symm hij) hframe h.data hexports hseq

/-! ## Events -/

variable {rt : Runtime} {uid : String} {d : DataID}

theorem inv_connected (h : Inv s) : Inv (connected s) := by
  have hold : ∀ v < s.mem.vaults.length,
      Mem.store { s.mem with vaults := s.mem.vaults ++ [∅] } v = s.mem.store v := by
    intro v hv
    unfold Mem.store
    rw [List.getElem?_append_left hv]
  refine ⟨h.data, by simp [connected, h.vaults], fun j y hy => ?_⟩
  unfold connected at hy ⊢
  dsimp only at hy
  by_cases hj : j < s.sessions.length
  · rw [List.getElem?_append_left hj] at hy
    have hinv := h.sessions j y hy
    have hstore := hold j (by rw [h.vaults]; exact hj)
    exact ⟨hinv.vault, hinv.made, fun d hd => hinv.held d (by unfold Mem.Holds at hd ⊢; rwa [hstore] at hd),
      fun hopen d hd => by unfold Mem.Holds; rw [hstore]; exact hinv.stored hopen d hd, hinv.pending,
      fun hopen name d hname => hinv.names hopen name d (by rwa [hstore] at hname)⟩
  · -- the new connection has an empty vault
    have hlast : j = s.sessions.length := by
      have hlt := (List.getElem?_eq_some_iff.1 hy).1
      rw [List.length_append, List.length_singleton] at hlt
      omega
    subst hlast
    rw [List.getElem?_concat_length] at hy
    cases hy
    have hempty : Mem.store { s.mem with vaults := s.mem.vaults ++ [∅] } s.sessions.length = ∅ := by
      unfold Mem.store
      rw [← h.vaults, List.getElem?_concat_length]
      rfl
    refine ⟨h.vaults, fun d hd => ?_, fun d hd => ?_, fun _ d hd => (by cases hd), fun uid d hd => (by cases hd),
      fun _ name d hname => ?_⟩
    · rcases hd with hd | ⟨uid, hd⟩ <;> cases hd
    · obtain ⟨name, hname⟩ := hd
      rw [hempty] at hname
      cases hname
    · rw [hempty] at hname
      cases hname

/-- A `Data` at the end does not change what was there. -/
theorem secureBytes_append {m : Mem} {y : Data} (hd : d < m.data.length) :
    Mem.secureBytes { m with data := m.data ++ [y] } d = m.secureBytes d := by
  unfold Mem.secureBytes
  rw [List.getElem?_append_left hd]

theorem inv_exportFor (h : Inv s) (hx : s.sessions[i]? = some x) (hopen : x.isOpen = true) (material : Bytes) :
    Inv (exportFor s i x uid material) := by
  have hinv := h.sessions i x hx
  have hlen : s.exports.length = s.mem.data.length := h.data
  have hold : ∀ d, x.Has d → d < s.mem.data.length := by
    intro d hd
    obtain ⟨m, he, _⟩ := hinv.made d hd
    rw [← hlen]
    exact (List.getElem?_eq_some_iff.1 he).1
  refine h.of_session rfl ?_ rfl (by simp [exportFor, setSession, hlen]) ?_ (le_refl _) ?_
  · refine Frame.of_data ?_ (by simp [exportFor, setSession]) rfl
    intro d hd _
    exact List.getElem?_append_left hd
  · intro d e he
    exact List.getElem?_append_left (List.getElem?_eq_some_iff.1 he).1 ▸ he
  · refine ⟨hinv.vault, fun d hd => ?_, hinv.held, hinv.stored, fun uid' d hd => ?_, hinv.names⟩
    · rcases hd with hd | ⟨uid', hd⟩
      · obtain ⟨m, he, hbytes⟩ := hinv.made d (.inl hd)
        refine ⟨m, ?_, fun ho => ?_⟩
        · exact (List.getElem?_append_left (by rw [hlen]; exact hold d (.inl hd))).trans he
        · exact (secureBytes_append (hold d (.inl hd))).trans (hbytes ho)
      · cases hd
        refine ⟨material, ?_, fun _ => ?_⟩
        · show (s.exports ++ [_])[s.mem.data.length]? = _
          rw [← hlen, List.getElem?_concat_length]
        · show Mem.secureBytes { s.mem with data := s.mem.data ++ [_] } s.mem.data.length = _
          unfold Mem.secureBytes
          rw [List.getElem?_concat_length]
          rfl
    · cases hd
      refine ⟨hopen, fun hd => ?_⟩
      exact absurd (hold _ (.inl hd)) (lt_irrefl _)

theorem inv_dropExported (h : Inv s) (hx : s.sessions[i]? = some x) (hphase : x.phase = .exported uid d) :
    Inv (dropExported rt s i x d) := by
  have hinv := h.sessions i x hx
  have hdestroy : (destroy rt d).Ends s.mem _ := ends_destroy
  obtain ⟨hvaults, hdata, _⟩ := hdestroy
  obtain ⟨material, hmade, _⟩ := hinv.made d (.inr ⟨uid, hphase⟩)
  have hframe : Frame (· = d) (· = i) s.mem (destroy rt d s.mem).2 := frame_of_destroy hvaults hdata
  have hlen : (destroy rt d s.mem).2.data.length = s.mem.data.length := by
    rcases hdata with hsame | hset
    · rw [hsame]
    · rw [hset, List.length_set]
  have hstore : (destroy rt d s.mem).2.store i = s.mem.store i := by
    unfold Mem.store
    rw [hvaults]
  refine h.of_session rfl (hframe.mono ?_ fun _ hv => hv) (congrArg List.length hvaults) (h.data.trans hlen.symm)
    (fun _ _ he => he) (le_refl _) ?_
  · rintro _ _ rfl
    exact ⟨material, hmade⟩
  · refine ⟨hinv.vault, fun d' hd' => ?_, fun d' hd' => ?_, fun hopen d' hd' => ?_, fun uid' d' hd' => (by cases hd'),
      fun hopen name d' hname => hinv.names hopen name d' ?_⟩
    · rcases hd' with hd' | ⟨uid', hd'⟩
      · obtain ⟨m, he, hbytes⟩ := hinv.made d' (.inl hd')
        refine ⟨m, he, fun hopen => ?_⟩
        -- what was served is not what is on the way
        have hne : d' ≠ d := by
          rintro rfl
          exact (hinv.pending uid d' hphase).2 hd'
        have hexists : s.mem.Exists d' := by
          unfold Mem.Exists
          rw [← h.data]
          exact (List.getElem?_eq_some_iff.1 he).1
        exact (hframe.bytes d' hexists hne).trans (hbytes hopen)
      · cases hd'
    · refine hinv.held d' ?_
      obtain ⟨name, hname⟩ := hd'
      exact ⟨name, hstore ▸ hname⟩
    · obtain ⟨name, hname⟩ := hinv.stored hopen d' hd'
      exact ⟨name, hstore.symm ▸ hname⟩
    · rw [← hstore]
      exact hname

/-- The next name is free. -/
theorem SessionInv.name_free (h : SessionInv s i x) (hopen : x.isOpen = true) :
    (s.mem.store i).lookup (vaultEntryName uid (s.vaultSeq + 1)) = none := by
  by_contra hne
  obtain ⟨d, hd⟩ := Option.ne_none_iff_exists'.1 hne
  obtain ⟨uid', k, hname, hk⟩ := h.names hopen _ d hd
  have := (vaultEntryName_inj hname).2
  omega

/-- The import of a request succeeds, as long as the counter does not start over. -/
theorem importData_free (h : Inv s) (hx : s.sessions[i]? = some x) (hphase : x.phase = .exported uid d) :
    importData x.vault (vaultEntryName uid (s.vaultSeq + 1)) d s.mem =
      (.ok (), s.mem.setStore i ((s.mem.store i).insert (vaultEntryName uid (s.vaultSeq + 1)) d)) := by
  have hinv := h.sessions i x hx
  obtain ⟨material, he, _⟩ := hinv.made d (.inr ⟨uid, hphase⟩)
  have hexists : s.mem.Exists d := by
    unfold Mem.Exists
    rw [← h.data]
    exact (List.getElem?_eq_some_iff.1 he).1
  rw [hinv.vault]
  exact importData_eq hexists (hinv.name_free (hinv.pending uid d hphase).1)

theorem importExported_eq (h : Inv s) (hx : s.sessions[i]? = some x) (hphase : x.phase = .exported uid d)
    (hseq : s.vaultSeq + 1 < 2 ^ 64) :
    importExported rt s i x uid d =
      { s with
        vaultSeq := s.vaultSeq + 1
        mem := s.mem.setStore i ((s.mem.store i).insert (vaultEntryName uid (s.vaultSeq + 1)) d)
        sessions := s.sessions.set i { x with phase := .idle, served := x.served ++ [d] } } := by
  unfold importExported
  dsimp only
  rw [Nat.mod_eq_of_lt hseq, importData_free h hx hphase]
  rfl

theorem inv_importExported (h : Inv s) (hx : s.sessions[i]? = some x) (hphase : x.phase = .exported uid d)
    (hseq : s.vaultSeq + 1 < 2 ^ 64) : Inv (importExported rt s i x uid d) := by
  have hinv := h.sessions i x hx
  have hi : i < s.mem.vaults.length := by
    rw [h.vaults]
    exact (List.getElem?_eq_some_iff.1 hx).1
  have hstore := store_setStore (s := (s.mem.store i).insert (vaultEntryName uid (s.vaultSeq + 1)) d) hi
  have hlookup : ∀ name d', ((s.mem.store i).insert (vaultEntryName uid (s.vaultSeq + 1)) d).lookup name = some d' ↔
      (name = vaultEntryName uid (s.vaultSeq + 1) ∧ d' = d) ∨ (s.mem.store i).lookup name = some d' := by
    intro name d'
    by_cases hname : name = vaultEntryName uid (s.vaultSeq + 1)
    · subst hname
      rw [AList.lookup_insert, hinv.name_free (hinv.pending uid d hphase).1]
      simp [eq_comm]
    · rw [AList.lookup_insert_ne hname]
      simp [hname]
  rw [importExported_eq h hx hphase hseq]
  refine h.of_session rfl (.of_setStore rfl) (by simp [Mem.setStore]) h.data (fun _ _ he => he) (Nat.le_succ _) ?_
  refine ⟨hinv.vault, fun d' hd' => ?_, fun d' hd' => ?_, fun hopen d' hd' => ?_, fun uid' d' hd' => (by cases hd'),
    fun hopen name d' hname => ?_⟩
  · have hhas : x.Has d' := by
      rcases hd' with hd' | ⟨uid', hd'⟩
      · rcases List.mem_append.1 hd' with hd' | hd'
        · exact .inl hd'
        · rw [List.mem_singleton] at hd'
          exact .inr ⟨uid, hd' ▸ hphase⟩
      · cases hd'
    exact hinv.made d' hhas
  · obtain ⟨name, hname⟩ := hd'
    rw [hstore, hlookup] at hname
    rcases hname with ⟨_, rfl⟩ | hname
    · exact List.mem_append_right _ (List.mem_singleton.2 rfl)
    · exact List.mem_append_left _ (hinv.held d' ⟨name, hname⟩)
  · rcases List.mem_append.1 hd' with hd' | hd'
    · obtain ⟨name, hname⟩ := hinv.stored hopen d' hd'
      exact ⟨name, by rw [hstore, hlookup]; exact .inr hname⟩
    · rw [List.mem_singleton] at hd'
      exact ⟨vaultEntryName uid (s.vaultSeq + 1), by rw [hstore, hlookup]; exact .inl ⟨rfl, hd'⟩⟩
  · rw [hstore, hlookup] at hname
    rcases hname with ⟨rfl, _⟩ | hname
    · exact ⟨uid, s.vaultSeq + 1, rfl, le_refl _⟩
    · obtain ⟨uid', k, rfl, hk⟩ := hinv.names hopen name d' hname
      exact ⟨uid', k, rfl, Nat.le_succ_of_le hk⟩

/-- Destroying a vault makes and forgets nothing. -/
theorem ends_destroyAll_length (rt : Runtime) (v : VaultID) (m : Mem) :
    (destroyAll rt v).Ends m fun _ m' => m'.data.length = m.data.length ∧ m'.vaults.length = m.vaults.length := by
  unfold destroyAll
  refine Tx.Ends.ok_bind (x := rangeStore rt v) rfl ?_
  have hsweep := Tx.Ends.sweep (δ := Err) (f := destroyEntry rt v)
    (I := fun m' : Mem => m'.data.length = m.data.length ∧ m'.vaults.length = m.vaults.length) (Q := fun _ _ _ => True)
    (l := rt.order m.clock (m.store v).entries) (s := m.tick) ⟨rfl, rfl⟩ ?_
  · refine Tx.Ends.bind hsweep ?_ (fun _ _ h => h.1)
    intro rs m₁ h
    exact ends_returnJoined.mono fun _ _ hr => hr.1 ▸ h.1
  · intro entry _ m₁ hm₁
    unfold destroyEntry
    have hlen : ∀ m₂ : Mem, m₂.vaults = m₁.vaults ∧ (m₂.data = m₁.data ∨ m₂.data = m₁.data.set entry.2 ⟨none, false⟩) →
        m₂.data.length = m.data.length ∧ m₂.vaults.length = m.vaults.length := by
      intro m₂ h
      rw [h.1]
      rcases h.2 with hd | hd <;> rw [hd]
      · exact hm₁
      · rw [List.length_set]
        exact hm₁
    refine Tx.Ends.bind ends_destroy ?_ ?_
    · intro _ m₂ h
      refine ⟨?_, trivial, fun _ _ _ => trivial⟩
      simpa [Tx.write, Mem.setStore] using hlen m₂ ⟨h.1, h.2.1⟩
    · intro _ m₂ h
      exact ⟨hlen m₂ ⟨h.1, h.2.1⟩, trivial, fun _ _ _ => trivial⟩

theorem inv_terminate (h : Inv s) (hx : s.sessions[i]? = some x) (hidle : x.phase = .idle) :
    Inv (terminate rt s i x) := by
  have hinv := h.sessions i x hx
  unfold terminate
  rw [hinv.vault]
  have hdestroy : (destroyAll rt i).Ends s.mem _ := ends_destroyAll
  obtain ⟨hframe, _, _, hless⟩ := hdestroy
  obtain ⟨hdata, hvaults⟩ := ends_destroyAll_length rt i s.mem
  have howned : ∀ d, s.mem.Exists d → s.mem.Holds i d → s.Owned i d := by
    intro d _ hd
    obtain ⟨material, he, _⟩ := hinv.made d (.inl (hinv.held d hd))
    exact ⟨material, he⟩
  refine h.of_session rfl (hframe.mono howned fun _ hv => hv) hvaults (h.data.trans hdata.symm) (fun _ _ he => he)
    (le_refl _) ?_
  -- a closed connection only knows what it had
  refine ⟨rfl, fun d hd => ?_, fun d hd => hinv.held d (hless d hd), fun hopen => (by cases hopen),
    fun uid d hd => ?_, fun hopen => (by cases hopen)⟩
  · obtain ⟨material, he, _⟩ := hinv.made d hd
    exact ⟨material, he, fun hopen => (by cases hopen)⟩
  · have hnone : GetPhase.idle = .exported uid d := hidle.symm.trans hd
    cases hnone

/-- What an event can do. -/
inductive StepOf (rt : Runtime) (s : KmipServer) : KmipServer → Prop where
  | stays : StepOf rt s s
  | connected : StepOf rt s s.connected
  | exported {i : Nat} {x : KmipSession} {uid : String} {material : Bytes} (hx : s.sessions[i]? = some x)
      (hopen : x.isOpen = true) (hidle : x.phase = .idle) : StepOf rt s (exportFor s i x uid material)
  | imported {i : Nat} {x : KmipSession} {uid : String} {d : DataID} (hx : s.sessions[i]? = some x)
      (hphase : x.phase = .exported uid d) : StepOf rt s (importExported rt s i x uid d)
  | refused {i : Nat} {x : KmipSession} {uid : String} {d : DataID} (hx : s.sessions[i]? = some x)
      (hphase : x.phase = .exported uid d) : StepOf rt s (dropExported rt s i x d)
  | terminated {i : Nat} {x : KmipSession} (hx : s.sessions[i]? = some x) (hopen : x.isOpen = true)
      (hidle : x.phase = .idle) : StepOf rt s (terminate rt s i x)

theorem step_of (rt : Runtime) (s : KmipServer) (ev : KmipEvent) : StepOf rt s (step rt s ev) := by
  cases ev with
  | connect => exact .connected
  | exported i uid material =>
    rw [step]
    cases hx : s.sessions[i]? with
    | none => exact .stays
    | some x =>
      dsimp only
      by_cases hready : x.isOpen = true ∧ x.phase = .idle
      · rw [if_pos hready]
        exact .exported hx hready.1 hready.2
      · rw [if_neg hready]
        exact .stays
  | imported i =>
    rw [step]
    cases hx : s.sessions[i]? with
    | none => exact .stays
    | some x =>
      dsimp only
      cases hphase : x.phase with
      | idle => exact .stays
      | exported uid d => exact .imported hx hphase
  | refused i =>
    rw [step]
    cases hx : s.sessions[i]? with
    | none => exact .stays
    | some x =>
      dsimp only
      cases hphase : x.phase with
      | idle => exact .stays
      | exported uid d => exact .refused hx hphase
  | terminated i =>
    rw [step]
    cases hx : s.sessions[i]? with
    | none => exact .stays
    | some x =>
      dsimp only
      by_cases hready : x.isOpen = true ∧ x.phase = .idle
      · rw [if_pos hready]
        exact .terminated hx hready.1 hready.2
      · rw [if_neg hready]
        exact .stays

/-- What every event keeps. -/
theorem inv_step (h : Inv s) (hseq : s.vaultSeq + 1 < 2 ^ 64) (hstep : StepOf rt s s') :
    Inv s' ∧ s'.vaultSeq ≤ s.vaultSeq + 1 := by
  cases hstep with
  | stays => exact ⟨h, Nat.le_succ _⟩
  | connected => exact ⟨inv_connected h, Nat.le_succ _⟩
  | exported hx hopen _ => exact ⟨inv_exportFor h hx hopen _, Nat.le_succ _⟩
  | imported hx hphase =>
    refine ⟨inv_importExported h hx hphase hseq, ?_⟩
    rw [importExported_eq h hx hphase hseq]
  | refused hx hphase => exact ⟨inv_dropExported h hx hphase, Nat.le_succ _⟩
  | terminated hx _ hidle => exact ⟨inv_terminate h hx hidle, Nat.le_succ _⟩

/-! ## Nothing is left behind -/

/-- Every secret that was exported is of an open connection or destroyed. -/
def Clean (s : KmipServer) : Prop :=
  ∀ d i material, s.exports[d]? = some ⟨i, material⟩ →
    (∃ x, s.sessions[i]? = some x ∧ x.isOpen = true ∧ x.Has d) ∨ s.mem.Destroyed d

/-- An event of one connection that keeps what is destroyed. -/
theorem Clean.of_session (h : Clean s) (hi : i < s.sessions.length) (hsessions : s'.sessions = s.sessions.set i x')
    (hexports : s'.exports = s.exports) (hgone : ∀ d, s.mem.Destroyed d → s'.mem.Destroyed d)
    (hx : s.sessions[i]? = some x) (hown : ∀ d,
      x.isOpen = true → x.Has d → (x'.isOpen = true ∧ x'.Has d) ∨ s'.mem.Destroyed d) :
    Clean s' := by
  intro d j material he
  rw [hexports] at he
  rcases h d j material he with ⟨y, hy, hopen, hhas⟩ | hd
  · by_cases hij : i = j
    · subst hij
      rw [hx] at hy
      cases hy
      rcases hown d hopen hhas with hx' | hd
      · exact .inl ⟨x', by rw [hsessions, List.getElem?_set_self hi], hx'⟩
      · exact .inr hd
    · exact .inl ⟨y, by rw [hsessions, List.getElem?_set_ne hij]; exact hy, hopen, hhas⟩
  · exact .inr (hgone d hd)

theorem inv_start : Inv start :=
  ⟨rfl, rfl, fun i x hx => by simp [start] at hx⟩

/-- What every run keeps, as long as the counter does not start over. -/
theorem inv_run (rt : Runtime) (evs : List KmipEvent) (hlen : evs.length < 2 ^ 64) :
    Inv (Lib.run (step rt) start evs) ∧ (Lib.run (step rt) start evs).vaultSeq ≤ evs.length := by
  induction evs using List.reverseRecOn with
  | nil => exact ⟨inv_start, le_refl _⟩
  | append_singleton evs ev ih =>
    rw [List.length_append, List.length_singleton] at hlen ⊢
    obtain ⟨hinv, hseq⟩ := ih (by omega)
    obtain ⟨hinv', hseq'⟩ := inv_step hinv (by omega) (step_of rt _ ev)
    rw [run_append, run_cons, run_nil]
    exact ⟨hinv', by omega⟩

end KmipServer

open KmipServer

/-- **A `Get` is never refused for its name.** However requests and connections interleave, the import of an exported
secret into the vault of its connection succeeds and the request is answered with the bytes that were exported for
it. -/
theorem get_imported (rt : Runtime) (evs : List KmipEvent) (hlen : evs.length < 2 ^ 64 - 1) {i : Nat} {x : KmipSession}
    {uid : String} {d : DataID} (hx : (Lib.run (KmipServer.step rt) KmipServer.start evs).sessions[i]? = some x)
    (hphase : x.phase = .exported uid d) :
    ∃ material, (Lib.run (KmipServer.step rt) KmipServer.start evs).exports[d]? = some ⟨i, material⟩ ∧
      (Lib.run (KmipServer.step rt) KmipServer.start (evs ++ [.imported i])).mem.secureBytes d = some material ∧
      (Lib.run (KmipServer.step rt) KmipServer.start (evs ++ [.imported i])).sessions[i]? =
        some { x with phase := .idle, served := x.served ++ [d] } := by
  obtain ⟨hinv, hseq⟩ := inv_run rt evs (by omega)
  have hsession := hinv.sessions i x hx
  obtain ⟨material, he, hbytes⟩ := hsession.made d (.inr ⟨uid, hphase⟩)
  have hnext : Lib.run (KmipServer.step rt) KmipServer.start (evs ++ [.imported i]) =
      importExported rt (Lib.run (KmipServer.step rt) KmipServer.start evs) i x uid d := by
    rw [run_append, run_cons, run_nil, KmipServer.step, hx]
    dsimp only
    rw [hphase]
  rw [hnext, importExported_eq hinv hx hphase (by omega)]
  refine ⟨material, he, ?_, ?_⟩
  · exact hbytes (hsession.pending uid d hphase).1
  · exact List.getElem?_set_self (List.getElem?_eq_some_iff.1 hx).1

/-- Two connections ask for the same key, one of them twice; the first one is closed. -/
def demoKmipEvents : List KmipEvent :=
  [.connect, .connect, .exported 0 "t:k:1" [1, 2], .exported 1 "t:k:1" [1, 2], .imported 1, .imported 0,
    .exported 1 "t:k:1" [1, 2], .imported 1, .terminated 0]

theorem demo_get_imported : ∃ material,
    (Lib.run (KmipServer.step demoRuntime) KmipServer.start (demoKmipEvents.take 7)).exports[2]? = some ⟨1, material⟩ ∧
      (Lib.run (KmipServer.step demoRuntime) KmipServer.start
        (demoKmipEvents.take 7 ++ [.imported 1])).mem.secureBytes 2 = some material ∧
      (Lib.run (KmipServer.step demoRuntime) KmipServer.start (demoKmipEvents.take 7 ++ [.imported 1])).sessions[1]? =
        some ⟨1, true, .idle, [1, 2]⟩ :=
  @get_imported demoRuntime (demoKmipEvents.take 7) (by decide) 1 ⟨1, true, .exported "t:k:1" 2, [1]⟩ "t:k:1" 2
    (by decide +kernel) rfl

end Krypton
