import Krypton.SecureMem.Persist

/-!
# Nothing is left behind

Who owns a `Data` that was made on the way. Whatever system calls of allocation and protection fail, and whenever the
context is cancelled, code that uses the package in its one pattern leaves at most the `Data` it returns: everything
else that it made is destroyed, as long as memory can be given back (`Runtime.Releases`). What code that is called on
the way keeps for itself is counted apart (`T`).

* `Tidy` — what a stretch of code did to memory, with the new `Data` that are still its own;
* `LeavesOne` and `Hands` — how a handler of the pattern ends, and the function around it;
* `ends_run_hands` — a handler that leaves one result makes a function that hands it on.
-/

namespace Krypton.SecureMem

open Lib

section
variable {m m₁ m₂ : Mem} {D D' : DataID → Prop} {V V' : VaultID → Prop} {own own' own'' : DataID → Prop}

theorem destroyed_iff {d : DataID} : m.Destroyed d ↔ m.Exists d ∧ m.secureBytes d = none := by
  unfold Mem.Destroyed Mem.Exists Mem.secureBytes
  constructor
  · intro h
    obtain ⟨x, hx, hnone⟩ := h
    refine ⟨(List.getElem?_eq_some_iff.1 hx).1, ?_⟩
    rw [hx]
    exact hnone
  · intro h
    obtain ⟨hd, hnone⟩ := h
    refine ⟨m.data[d], List.getElem?_eq_getElem hd, ?_⟩
    rw [List.getElem?_eq_getElem hd] at hnone
    exact hnone

/-- Frames in sequence: what is touched later counts if it existed before. -/
theorem Frame.after (h : Frame D V m m₁) (h' : Frame D' V' m₁ m₂) (hD : ∀ d, m.Exists d → D' d → D d)
    (hV : ∀ v, v < m.vaults.length → V' v → V v) : Frame D V m m₂ where
  bytes d hd hDd := (h'.bytes d (h.exists_mono hd) fun hd' => hDd (hD d hd hd')).trans (h.bytes d hd hDd)
  readOnly d hd hDd hro := h'.readOnly d (h.exists_mono hd) (fun hd' => hDd (hD d hd hd')) (h.readOnly d hd hDd hro)
  store v hv hVv :=
    (h'.store v (Nat.lt_of_lt_of_le hv h.vaultsGrow) fun hv' => hVv (hV v hv hv')).trans (h.store v hv hVv)
  dataGrow := Nat.le_trans h.dataGrow h'.dataGrow
  vaultsGrow := Nat.le_trans h.vaultsGrow h'.vaultsGrow

/-- From `m` on, only `Data` in `D` and vaults in `V` were touched, nothing that was destroyed came back, and every new
`Data` is destroyed or one of `own`. -/
structure Tidy (D : DataID → Prop) (V : VaultID → Prop) (m : Mem) (own : DataID → Prop) (m' : Mem) : Prop where
  frame : Frame D V m m'
  gone : ∀ d, m.Destroyed d → m'.Destroyed d
  clean : ∀ d, ¬ m.Exists d → m'.Exists d → own d ∨ m'.Destroyed d

namespace Tidy

theorem of_length (hframe : Frame D V m m₁) (hgone : ∀ d, m.Destroyed d → m₁.Destroyed d)
    (hlen : m₁.data.length = m.data.length) : Tidy D V m own m₁ where
  frame := hframe
  gone := hgone
  clean d hd hd₁ := by
    unfold Mem.Exists at hd₁
    rw [hlen] at hd₁
    exact absurd hd₁ hd

theorem of_same (h : Same m m₁) : Tidy D V m own m₁ := by
  refine of_length (.of_same h) (fun d hd => ?_) (by rw [h.1])
  unfold Mem.Destroyed
  rw [h.1]
  exact hd

/-- One stretch after another. The first one's own `Data` stay owned or are destroyed by the second. -/
theorem after (h : Tidy D V m own m₁) (h' : Tidy D' V' m₁ own' m₂) (hD : ∀ d, m.Exists d → D' d → D d)
    (hV : ∀ v, v < m.vaults.length → V' v → V v)
    (hown : ∀ d, ¬ m.Exists d → m₁.Exists d → own d → own'' d ∨ m₂.Destroyed d)
    (hown' : ∀ d, ¬ m₁.Exists d → m₂.Exists d → own' d → own'' d) : Tidy D V m own'' m₂ where
  frame := h.frame.after h'.frame hD hV
  gone d hd := h'.gone d (h.gone d hd)
  clean d hd hd₂ := by
    by_cases hd₁ : m₁.Exists d
    · rcases h.clean d hd hd₁ with ho | hgone
      · exact hown d hd hd₁ ho
      · exact .inr (h'.gone d hgone)
    · exact (h'.clean d hd₁ hd₂).imp_left (hown' d hd₁ hd₂)

theorem mono (h : Tidy D V m own m₁) (hD : ∀ d, m.Exists d → D d → D' d) (hV : ∀ v, v < m.vaults.length → V v → V' v)
    (hown : ∀ d, ¬ m.Exists d → m₁.Exists d → own d → own' d) : Tidy D' V' m own' m₁ where
  frame := (Frame.refl m).after h.frame hD hV
  gone := h.gone
  clean d hd hd₁ := (h.clean d hd hd₁).imp_left (hown d hd hd₁)

end Tidy

theorem tidy_opened : Tidy D V m own (opened m) :=
  .of_length (frame_opened.mono (fun _ _ => id) fun _ => False.elim) (fun _ hd => hd) rfl

end

/-! ## The operations -/

section
variable {rt : Runtime} {m : Mem} {v : VaultID} {d : DataID}

/-- `Data` that are made, are made writable. -/
theorem tidy_newData {size : Int} :
    (newData rt size).Ends m fun r m' =>
      m'.vaults = m.vaults ∧
        match r with
        | .ok d => d = m.data.length ∧ m'.Exists d ∧ ¬ m'.ReadOnly d ∧
          Tidy (fun _ => False) (fun _ => False) m (· = d) m'
        | .error _ => Tidy (fun _ => False) (fun _ => False) m (fun _ => False) m' := by
  refine ends_newData.mono ?_
  intro r m' h
  obtain ⟨hvaults, -, hr⟩ := h
  refine ⟨hvaults, ?_⟩
  cases r with
  | error e => exact .of_same ⟨hr, hvaults⟩
  | ok d =>
    have hframe := frame_of_newData (r := .ok d) hvaults hr
    obtain ⟨-, rfl, hdata⟩ := hr
    have hlen : m'.data.length = m.data.length + 1 := by rw [hdata]; simp
    have hlast : m'.data[m.data.length]? = some ⟨some (List.replicate size.toNat 0), false⟩ := by
      rw [hdata]
      exact List.getElem?_concat_length
    refine ⟨rfl, ?_, ?_, hframe, fun d hd => ?_, fun d hd hd' => ?_⟩
    · unfold Mem.Exists
      rw [hlen]
      exact Nat.lt_succ_self _
    · intro hro
      obtain ⟨x, hx, hxro⟩ := hro
      rw [hlast] at hx
      cases hx
      cases hxro
    · rw [destroyed_iff] at hd ⊢
      exact ⟨hframe.exists_mono hd.1, (hframe.bytes d hd.1 id).trans hd.2⟩
    · unfold Mem.Exists at hd hd'
      rw [hlen] at hd'
      exact .inl (Nat.le_antisymm (Nat.lt_succ_iff.1 hd') (Nat.not_lt.1 hd))

/-- Writing to memory that is not protected. -/
theorem tidy_copyTo {bytes : Bytes} (hro : ¬ m.ReadOnly d) :
    (copyTo d bytes).Ends m fun r m' =>
      r = .ok () ∧ m'.vaults = m.vaults ∧ Tidy (· = d) (fun _ => False) m (fun _ => False) m' := by
  unfold copyTo
  refine Tx.Ends.ok_bind (a := m.data[d]?) rfl ?_
  rcases hx : m.data[d]? with _ | ⟨_ | old, isReadOnly⟩
  · exact ⟨rfl, rfl, .of_same ⟨rfl, rfl⟩⟩
  · exact ⟨rfl, rfl, .of_same ⟨rfl, rfl⟩⟩
  · have hwritable : isReadOnly = false := by
      cases isReadOnly with
      | false => rfl
      | true => exact absurd ⟨_, hx, rfl⟩ hro
    subst hwritable
    refine ⟨rfl, rfl, .of_length (.of_update rfl) (fun d' hd' => ?_) List.length_set⟩
    have hne : d ≠ d' := by
      intro heq
      subst heq
      obtain ⟨x, hx', hnone⟩ := hd'
      rw [hx] at hx'
      cases hx'
      cases hnone
    obtain ⟨x, hx', hnone⟩ := hd'
    exact ⟨x, (List.getElem?_set_ne hne).trans hx', hnone⟩

theorem length_of_destroy {m' : Mem} (h : m'.data = m.data ∨ m'.data = m.data.set d ⟨none, false⟩) :
    m'.data.length = m.data.length := by
  rcases h with h | h
  · rw [h]
  · rw [h, List.length_set]

theorem tidy_destroy :
    (destroy rt d).Ends m fun _ m' =>
      m'.vaults = m.vaults ∧ Tidy (· = d) (fun _ => False) m (fun _ => False) m' ∧
        (rt.Releases → m'.Exists d → m'.Destroyed d) := by
  refine ends_destroy.mono ?_
  intro r m' h
  obtain ⟨hvaults, hdata, hrel⟩ := h
  refine ⟨hvaults, .of_length (frame_of_destroy hvaults hdata) (fun d' => destroyed_mono hdata)
    (length_of_destroy hdata), ?_⟩
  intro h hd
  unfold Mem.Exists at hd
  rw [length_of_destroy hdata] at hd
  exact (hrel h).2 hd

/-- A loop over a vault makes no `Data` if its body makes none. -/
theorem length_sweep {f : (Sigma fun _ : String => DataID) → Proc Unit}
    (hf : ∀ entry m, (f entry).Ends m fun _ m' => m'.data.length = m.data.length) :
    (do
      let entries ← rangeStore rt v
      let rs ← Tx.sweep f entries
      returnJoined rs : Proc Unit).Ends m fun _ m' => m'.data.length = m.data.length := by
  refine Tx.Ends.ok_bind (x := rangeStore rt v) rfl ?_
  have hsweep := Tx.Ends.sweep (δ := Err) (f := f) (I := fun m' => m'.data.length = m.data.length)
      (Q := fun _ _ _ => True)
    (l := rt.order m.clock (m.store v).entries) (s := m.tick) rfl
    (fun entry _ s hs => (hf entry s).mono fun _ _ h => ⟨h.trans hs, trivial, fun _ _ _ => trivial⟩)
  refine Tx.Ends.bind hsweep ?_ ?_
  · intro rs m₁ h
    refine ends_returnJoined.mono fun r m' hr => ?_
    rw [hr.1]
    exact h.1
  · exact fun e m₁ h => h.1

theorem tidy_destroyAll :
    (destroyAll rt v).Ends m fun _ m' =>
      Tidy (m.Holds v) (· = v) m (fun _ => False) m' ∧
        (rt.Releases → ∀ d, m.Holds v d → m.Exists d → m'.Destroyed d) := by
  have hlen : (destroyAll rt v).Ends m fun _ m' => m'.data.length = m.data.length := by
    refine length_sweep fun entry m => ?_
    unfold destroyEntry
    refine Tx.Ends.bind ends_destroy ?_ ?_
    · exact fun _ m₁ h => length_of_destroy h.2.1
    · exact fun _ m₁ h => length_of_destroy h.2.1
  have hdestroy := @ends_destroyAll rt m v
  exact ⟨.of_length hdestroy.1 hdestroy.2.2.1 hlen, hdestroy.2.1⟩

theorem tidy_markAllReadOnly :
    (markAllReadOnly rt v).Ends m fun _ m' => Tidy (fun _ => False) (fun _ => False) m (fun _ => False) m' := by
  have hlen : (markAllReadOnly rt v).Ends m fun _ m' => m'.data.length = m.data.length := by
    refine length_sweep fun entry m => ?_
    unfold markReadOnly
    refine Tx.Ends.ok_bind (a := m.data[entry.2]?) rfl ?_
    rcases m.data[entry.2]? with _ | ⟨_ | bytes, isReadOnly⟩
    · exact rfl
    · exact rfl
    · cases isReadOnly with
      | true => exact rfl
      | false =>
        refine Tx.Ends.bind ends_syscall ?_ ?_
        · intro _ m₁ h
          show (m₁.data.set _ _).length = _
          rw [List.length_set, h.1.1]
        · intro e m₁ h
          exact congrArg List.length h.1.1
  have hmark := (@ends_markAllReadOnly rt m v).1
  refine .of_length hmark (fun d hd => ?_) hlen
  rw [destroyed_iff] at hd ⊢
  exact ⟨hmark.exists_mono hd.1, (hmark.bytes d hd.1 id).trans hd.2⟩

theorem tidy_setStore {s : MemVault} : Tidy (fun _ => False) (· = v) m (fun _ => False) (m.setStore v s) :=
  .of_length (.of_setStore rfl) (fun _ hd => hd) rfl

end

/-! ## Handlers that leave one result -/

/-- The vault has `d` under `name`, and nothing else. -/
def Mem.Only (m : Mem) (v : VaultID) (name : String) (d : DataID) : Prop :=
  ∀ n x, (m.store v).lookup n = some x ↔ n = name ∧ x = d

/-- `d` is new since `m`, and beside `T` the only new `Data` that is not destroyed. -/
structure Handed (D T : DataID → Prop) (m : Mem) (d : DataID) (m' : Mem) : Prop where
  new : ¬ m.Exists d
  exists_ : m'.Exists d
  tidy : Tidy D (fun _ => False) m (fun x => x = d ∨ T x) m'

/-- How a function that returns a `Data` ends; the state beside the memory is in `K`, and says what is kept. -/
def Hands {χ : Type} (D : DataID → Prop) (T : χ → DataID → Prop) (m : Mem) (K : χ → Prop) (r : Except Fault DataID)
    (s : Mem × χ) : Prop :=
  K s.2 ∧
    match r with
    | .ok d => Handed D (T s.2) m d s.1
    | .error f => f ≠ .crash ∧ Tidy D (fun _ => False) m (T s.2) s.1

/-- The handler of `Run` on `m` made `d` and left it in the persistent vault; what else it made is in `T`. -/
structure OneLeft (D T : DataID → Prop) (m : Mem) (name : String) (d : DataID) (m₁ : Mem) : Prop where
  new : ¬ m.Exists d
  exists_ : m₁.Exists d
  tidy : Tidy D (· = (requestFor m).persistentVault) (opened m) (fun x => x = d ∨ T x) m₁
  only : m₁.Only (requestFor m).persistentVault name d

/-- All that the handler of `Run` on `m` made and did not destroy is in the persistent vault or in `T`. -/
structure AllHeld (D T : DataID → Prop) (m m₁ : Mem) : Prop where
  tidy : Tidy D (· = (requestFor m).persistentVault) (opened m)
    (fun x => m₁.Holds (requestFor m).persistentVault x ∨ T x) m₁
  new : ∀ d, m₁.Holds (requestFor m).persistentVault d → ¬ m.Exists d

/-- How such a handler ends; the state beside the memory is in `K`, and says what is kept. -/
def LeavesOne {χ α : Type} (D : DataID → Prop) (T : χ → DataID → Prop) (m : Mem) (K : χ → Prop) (name : String) (a : α)
    (r : Except Fault α) (s : Mem × χ) : Prop :=
  K s.2 ∧
    match r with
    | .ok a' => a' = a ∧ ∃ d, OneLeft D (T s.2) m name d s.1
    | .error f => f ≠ .crash ∧ AllHeld D (T s.2) m s.1

section
variable {rt : Runtime} {χ : Type} {c : χ} {K : χ → Prop} {D D' T own : DataID → Prop} {U : χ → DataID → Prop}
  {m m₁ m₂ : Mem} {name : String} {d : DataID}

theorem Hands.mono {U' : χ → DataID → Prop} {K' : χ → Prop} {r : Except Fault DataID} {s : Mem × χ}
    (h : Hands D U m K r s) (hD : ∀ d, m.Exists d → D d → D' d) (hU : ∀ d, U s.2 d → U' s.2 d) (hK : K s.2 → K' s.2) :
    Hands D' U' m K' r s := by
  refine ⟨hK h.1, ?_⟩
  cases r with
  | ok d => exact ⟨h.2.new, h.2.exists_, h.2.tidy.mono hD (fun _ _ => id) fun x _ _ => Or.imp_right (hU x)⟩
  | error f => exact ⟨h.2.1, h.2.2.mono hD (fun _ _ => id) fun x _ _ => hU x⟩

theorem OneLeft.allHeld (h : OneLeft D T m name d m₁) : AllHeld D T m m₁ where
  tidy := by
    refine h.tidy.mono (fun _ _ => id) (fun _ _ => id) fun d' _ _ hd' => hd'.imp_left fun heq => ?_
    subst heq
    exact ⟨name, (h.only name d').2 ⟨rfl, rfl⟩⟩
  new d' hd' := by
    obtain ⟨n, hn⟩ := hd'
    rw [((h.only n d').1 hn).2]
    exact h.new

theorem persistent_lt (h : Tidy D (· = (requestFor m).persistentVault) (opened m) own m₁) :
    (requestFor m).persistentVault < m₁.vaults.length := Nat.lt_of_lt_of_le inRange_opened.2 h.frame.vaultsGrow

/-- What makes no `Data` and leaves the vaults alone keeps it so. -/
theorem OneLeft.keep (h : OneLeft D T m name d m₁) (h' : Tidy D' (fun _ => False) m₁ (fun _ => False) m₂)
    (hD : ∀ d, m.Exists d → D' d → D d) : OneLeft D T m name d m₂ where
  new := h.new
  exists_ := h'.frame.exists_mono h.exists_
  tidy := h.tidy.after h' hD (fun _ _ => False.elim) (fun _ _ _ hd => .inl hd) fun _ _ _ => False.elim
  only := by
    unfold Mem.Only
    rw [h'.frame.store _ (persistent_lt h.tidy) id]
    exact h.only

/-- The temporary vault of such a handler is empty. -/
theorem not_holds_temporary (h : Tidy D (· = (requestFor m).persistentVault) (opened m) own m₁) :
    ¬ m₁.Holds (requestFor m).temporaryVault d := by
  intro hd
  obtain ⟨n, hn⟩ := hd
  have hne : (requestFor m).temporaryVault ≠ (requestFor m).persistentVault := Nat.ne_of_lt (Nat.lt_succ_self _)
  rw [h.frame.store _ inRange_opened.1 hne, store_opened.1, AList.lookup_empty] at hn
  cases hn

/-- The two vaults of `Run` are new. -/
theorem Tidy.sinceRun (h : Tidy D (· = (requestFor m).persistentVault) (opened m) own m₁) :
    Tidy D (fun _ => False) m own m₁ := by
  have hopened : Tidy D (fun _ => False) m (fun _ => False) (opened m) := tidy_opened
  refine hopened.after h (fun _ _ => id) (fun v hv heq => ?_) (fun _ _ _ => False.elim) fun _ _ _ => id
  subst heq
  exact absurd hv (Nat.not_lt.2 (Nat.le_succ _))

/-- Destroying the empty temporary vault touches no `Data`. -/
theorem tidy_temporary (h : Tidy D (· = (requestFor m).persistentVault) (opened m) own m₁) :
    (destroyAll rt (requestFor m).temporaryVault).Ends m₁ fun _ m₂ =>
      Tidy (fun _ => False) (· = (requestFor m).temporaryVault) m₁ (fun _ => False) m₂ := by
  refine tidy_destroyAll.mono fun _ m₂ hdestroy => ?_
  exact hdestroy.1.mono (fun d _ hd => not_holds_temporary h hd) (fun _ _ => id) fun _ _ _ => id

/-- The same, counted from before `Run`. -/
theorem Tidy.after_temporary (h : Tidy D (· = (requestFor m).persistentVault) (opened m) own m₁)
    (h' : Tidy (fun _ => False) (· = (requestFor m).temporaryVault) m₁ (fun _ => False) m₂) :
    Tidy D (fun _ => False) m own m₂ := by
  refine h.sinceRun.after h' (fun _ _ => False.elim) (fun v hv heq => ?_) (fun _ _ _ hd => .inl hd)
    fun _ _ _ => False.elim
  subst heq
  exact Nat.lt_irrefl _ hv

theorem ends_runHandler_tidy {handler : HandlerRequest → Tx (Mem × χ) Fault Unit}
    (h : (handler (requestFor m)).Ends (opened m, c) (LeavesOne D U m K name ())) :
    (runHandler rt handler (requestFor m)).Ends (opened m, c)
      (LeavesOne D U m K name (⟨(requestFor m).persistentVault⟩ : HandlerResponse)) := by
  unfold runHandler
  refine Tx.Ends.bind h ?_ ?_
  · intro _ s₁ hend
    obtain ⟨m₁, c₁⟩ := s₁
    obtain ⟨hK, -, d, hleft⟩ := hend
    refine ends_callProc_bind ends_ctxErr ?_ ?_
    · intro _ m₂ hsame
      have hleft := hleft.keep (.of_same hsame.1) fun _ _ => False.elim
      refine ends_callProc_bind tidy_markAllReadOnly ?_ ?_
      · exact fun _ m₃ hmark => ⟨hK, rfl, d, hleft.keep hmark fun _ _ => False.elim⟩
      · exact fun e m₃ hmark => ⟨hK, Fault.noConfusion, (hleft.keep hmark fun _ _ => False.elim).allHeld⟩
    · exact fun e m₂ hsame => ⟨hK, Fault.noConfusion, (hleft.keep (.of_same hsame.1) fun _ _ => False.elim).allHeld⟩
  · exact fun f s₁ hend => hend

/-- After a failure both vaults are destroyed. -/
theorem ends_cleanUp_tidy (hrt : rt.Releases) (h : AllHeld D T m m₁) :
    (do
      let _ ← ((destroyAll rt (requestFor m).temporaryVault).attempt : Proc (Except Err Unit))
      destroyAll rt (requestFor m).persistentVault : Proc Unit).Ends m₁ fun _ m' =>
        Tidy D (fun _ => False) m T m' := by
  refine Tx.Ends.attempt_bind (tidy_temporary h.tidy) fun _ m₂ htemp => ?_
  have hstore : m₂.store (requestFor m).persistentVault = m₁.store (requestFor m).persistentVault :=
    htemp.frame.store _ (persistent_lt h.tidy) (Nat.succ_ne_self _)
  have hholds : ∀ d, m₂.Holds (requestFor m).persistentVault d ↔ m₁.Holds (requestFor m).persistentVault d := by
    intro d
    unfold Mem.Holds
    rw [hstore]
  refine tidy_destroyAll.mono fun _ m₃ hdestroy => ?_
  refine (h.tidy.after_temporary htemp).after hdestroy.1 (fun d hd hheld => absurd hd (h.new d ((hholds d).1 hheld)))
    (fun v hv heq => ?_) (fun d _ hd hheld => ?_) fun _ _ _ => False.elim
  · subst heq
    exact absurd hv (Nat.not_lt.2 (Nat.le_succ _))
  · rcases hheld with hheld | hkept
    · exact .inr (hdestroy.2 hrt d ((hholds d).2 hheld) hd)
    · exact .inl hkept

theorem ends_ctxErr_tick : (ctxErr rt).Ends m fun _ m' => m' = m.tick := by
  unfold Tx.Ends ctxErr
  cases rt.ctxErr m.clock with
  | none => exact rfl
  | some e => exact rfl

/-- **`Run`.** A handler that leaves one result leaves it to the caller of `Run`, or nothing. -/
theorem ends_run_tidy (hrt : rt.Releases) {handler : HandlerRequest → Tx (Mem × χ) Fault Unit} (hc : K c)
    (h : (handler (requestFor m)).Ends (opened m, c) (LeavesOne D U m K name ())) :
    (SecureMem.run rt handler).Ends (m, c) fun r s => K s.2 ∧
      match r with
      | .ok resp => resp = ⟨(requestFor m).persistentVault⟩ ∧
          ∃ d, Handed D (U s.2) m d s.1 ∧ s.1.Only (requestFor m).persistentVault name d
      | .error f => f ≠ .crash ∧ Tidy D (fun _ => False) m (U s.2) s.1 := by
  unfold SecureMem.run
  refine ends_callProc_bind (P := fun _ m₁ => m₁ = m.tick) ends_ctxErr_tick ?_ ?_
  · intro _ m₁ htick
    subst htick
    refine Tx.Ends.ok_bind (callProc_of_ok newHandlerRequest_eq) (Tx.Ends.deferred (ends_runHandler_tidy h) ?_)
    intro r s₁ hend
    obtain ⟨m₁, c₁⟩ := s₁
    obtain ⟨hK, hend⟩ := hend
    cases r with
    | ok resp =>
      obtain ⟨rfl, d, hleft⟩ := hend
      refine Tx.Ends.onFst (tidy_temporary hleft.tidy) fun _ m₂ htemp => ⟨hK, rfl, d, ?_, ?_⟩
      · exact ⟨hleft.new, htemp.frame.exists_mono hleft.exists_, hleft.tidy.after_temporary htemp⟩
      · unfold Mem.Only
        rw [htemp.frame.store _ (persistent_lt hleft.tidy) (Nat.succ_ne_self _)]
        exact hleft.only
    | error f =>
      obtain ⟨hf, hheld⟩ := hend
      have hclean := ends_cleanUp_tidy hrt hheld
      cases f with
      | crash => exact absurd rfl hf
      | error e => exact Tx.Ends.onFst hclean fun _ m₂ h => ⟨hK, hf, h⟩
      | panic => exact Tx.Ends.onFst hclean fun _ m₂ h => ⟨hK, hf, h⟩
  · intro e m₁ htick
    subst htick
    exact ⟨hc, Fault.noConfusion, .of_same ⟨rfl, rfl⟩⟩

/-- **The pattern.** The function around such a handler returns its result, the only `Data` it leaves beside what is
kept, or fails and leaves none. -/
theorem ends_run_hands (hrt : rt.Releases) {handler : HandlerRequest → Tx (Mem × χ) Fault Unit}
    {missing : Except Err Unit → Err} (hc : K c)
    (h : (handler (requestFor m)).Ends (opened m, c) (LeavesOne D U m K name ())) :
    (SecureMem.run rt handler >>= getOrClean rt name missing).Ends (m, c) (Hands D U m K) := by
  refine Tx.Ends.bind (ends_run_tidy hrt hc h) ?_ ?_
  · intro resp s₁ hend
    obtain ⟨m₁, c₁⟩ := s₁
    obtain ⟨hK, rfl, d, hhanded, honly⟩ := hend
    unfold Tx.Ends
    rw [getOrClean_eq ((honly name d).2 ⟨rfl, rfl⟩)]
    exact ⟨hK, hhanded⟩
  · exact fun f s₁ hend => hend

/-! ## Inside a handler -/

/-- Before anything is in the persistent vault. -/
theorem store_persistent (h : Tidy D (fun _ => False) (opened m) own m₁) :
    m₁.store (requestFor m).persistentVault = ∅ := (h.frame.store _ inRange_opened.2 id).trans store_opened.2

/-- A handler may stop where it still owns nothing but `T`. -/
theorem AllHeld.of_tidy (h : Tidy D (fun _ => False) (opened m) T m₁) : AllHeld D T m m₁ where
  tidy := h.mono (fun _ _ => id) (fun _ _ => False.elim) fun _ _ _ => .inr
  new d hd := by
    obtain ⟨n, hn⟩ := hd
    rw [store_persistent h, AList.lookup_empty] at hn
    cases hn

/-- Importing what was made under a name. -/
theorem OneLeft.of_insert (h : Tidy D (fun _ => False) (opened m) (fun x => x = d ∨ T x) m₁) (hnew : ¬ m.Exists d)
    (hd : m₁.Exists d) : OneLeft D T m name d
      (m₁.setStore (requestFor m).persistentVault ((m₁.store (requestFor m).persistentVault).insert name d)) where
  new := hnew
  exists_ := hd
  tidy := by
    refine (h.mono (fun _ _ => id) (fun _ _ => False.elim) fun _ _ _ => id).after tidy_setStore (fun _ _ => False.elim)
      (fun _ _ => id) (fun _ _ _ hx => .inl hx) fun _ _ _ => False.elim
  only := by
    intro n x
    rw [store_setStore (Nat.lt_of_lt_of_le inRange_opened.2 h.frame.vaultsGrow), store_persistent h]
    by_cases hn : n = name
    · subst hn
      rw [AList.lookup_insert]
      simp [eq_comm]
    · rw [AList.lookup_insert_ne hn, AList.lookup_empty]
      simp [hn]

theorem ends_import_one {x : Proc Unit} (hx : Imports x (requestFor m).persistentVault name d)
    (h : Tidy D (fun _ => False) (opened m) (fun x => x = d ∨ U c x) m₁) (hnew : ¬ m.Exists d) (hd : m₁.Exists d)
    (hK : K c) : (callProc x).Ends (m₁, c) (LeavesOne D U m K name ()) := by
  have hname : (m₁.store (requestFor m).persistentVault).lookup name = none := by
    rw [store_persistent h, AList.lookup_empty]
  unfold Tx.Ends
  rw [callProc_of_ok (hx m₁ hd hname)]
  exact ⟨hK, rfl, d, .of_insert h hnew hd⟩

/-! ## Deferred destruction -/

theorem Tidy.drop {V : VaultID → Prop} {own' : DataID → Prop} {t : DataID} (h : Tidy D V m own m₁)
    (ht : m₁.Exists t → m₁.Destroyed t) (hown : ∀ x, own x → own' x ∨ x = t) : Tidy D V m own' m₁ where
  frame := h.frame
  gone := h.gone
  clean d hd hd₁ := by
    rcases h.clean d hd hd₁ with ho | hgone
    · rcases hown d ho with ho | heq
      · exact .inl ho
      · subst heq
        exact .inr (ht hd₁)
    · exact .inr hgone

/-- What `defer t.Destroy()` does, unless the process stopped. -/
theorem tidy_deferDestroy {α : Type} {t : DataID} {r : Except Fault α} (hr : r ≠ .error .crash) :
    (deferDestroy rt t r : Tx (Mem × χ) Err Unit).Ends (m, c) fun _ s =>
      s.2 = c ∧ s.1.vaults = m.vaults ∧ Tidy (· = t) (fun _ => False) m (fun _ => False) s.1 ∧
        (rt.Releases → s.1.Exists t → s.1.Destroyed t) := by
  have hdestroy : ((destroy rt t).onFst : Tx (Mem × χ) Err Unit).Ends (m, c) fun _ s =>
      s.2 = c ∧ s.1.vaults = m.vaults ∧ Tidy (· = t) (fun _ => False) m (fun _ => False) s.1 ∧
        (rt.Releases → s.1.Exists t → s.1.Destroyed t) :=
    Tx.Ends.onFst tidy_destroy fun _ m' h => ⟨rfl, h⟩
  unfold deferDestroy
  split
  · exact absurd rfl hr
  · exact hdestroy

/-- A `Data` that is destroyed at the end: one the handler made, or one it may touch. -/
theorem ends_leavesOne_deferDestroy (hrt : rt.Releases) {x : Tx (Mem × χ) Fault Unit} {t : DataID}
    (hx : x.Ends (m₁, c) (LeavesOne D (fun c d => U c d ∨ d = t) m K name ())) (ht : m.Exists t → D t) :
    (x.deferred (deferDestroy rt t)).Ends (m₁, c) (LeavesOne D U m K name ()) := by
  refine Tx.Ends.deferred hx fun r s₂ hend => ?_
  obtain ⟨m₂, c₂⟩ := s₂
  obtain ⟨hK, hend⟩ := hend
  have hD : ∀ d, m.Exists d → d = t → D d := by
    intro d hd heq
    subst heq
    exact ht hd
  cases r with
  | ok u =>
    obtain ⟨-, d, hleft⟩ := hend
    refine (tidy_deferDestroy (by simp)).mono fun _ s₃ hdone => ?_
    obtain ⟨m₃, c₃⟩ := s₃
    obtain ⟨rfl, -, htidy, hgone⟩ := hdone
    have hleft := hleft.keep htidy hD
    exact ⟨hK, rfl, d, hleft.new, hleft.exists_, hleft.tidy.drop (hgone hrt) fun x => or_assoc.2, hleft.only⟩
  | error f =>
    obtain ⟨hf, hheld⟩ := hend
    refine (tidy_deferDestroy (by simpa using hf)).mono fun _ s₃ hdone => ?_
    obtain ⟨m₃, c₃⟩ := s₃
    obtain ⟨rfl, hvaults, htidy, hgone⟩ := hdone
    have hholds : ∀ d, m₃.Holds (requestFor m).persistentVault d ↔ m₂.Holds (requestFor m).persistentVault d := by
      intro d
      unfold Mem.Holds Mem.store
      rw [show m₃.vaults = m₂.vaults from hvaults]
    refine ⟨hK, hf, ?_, fun d hd => hheld.new d ((hholds d).1 hd)⟩
    refine (hheld.tidy.after htidy hD (fun _ _ => False.elim) (fun d _ _ hd => .inl hd) fun _ _ _ => False.elim).drop
      (hgone hrt) fun d hd => ?_
    rcases hd with hd | hd | heq
    · exact .inl (.inl ((hholds d).2 hd))
    · exact .inl (.inr hd)
    · exact .inr heq

/-- A `Data` that a function made and destroys at the end, after it has handed on another. -/
theorem ends_hands_deferDestroy (hrt : rt.Releases) {x : Tx (Mem × χ) Fault DataID} {t : DataID}
    (ht : Handed (fun _ => False) (U c) m t m₁) (hx : x.Ends (m₁, c) (Hands (· = t) (fun _ _ => False) m₁ (· = c)))
    (hc : K c) : (x.deferred (deferDestroy rt t)).Ends (m₁, c) (Hands (fun _ => False) U m K) := by
  refine Tx.Ends.deferred hx fun r s₂ hend => ?_
  obtain ⟨m₂, c₂⟩ := s₂
  obtain ⟨rfl, hend⟩ := hend
  have hnew : ∀ d, m.Exists d → d = t → False := by
    intro d hd heq
    subst heq
    exact ht.new hd
  cases r with
  | ok d =>
    refine (tidy_deferDestroy (by simp)).mono fun _ s₃ hdone => ?_
    obtain ⟨m₃, c₃⟩ := s₃
    obtain ⟨rfl, -, htidy, hgone⟩ := hdone
    refine ⟨hc, fun hd => hend.new (ht.tidy.frame.exists_mono hd), htidy.frame.exists_mono hend.exists_, ?_⟩
    have hboth : Tidy (fun _ => False) (fun _ => False) m (fun x => x = d ∨ x = t ∨ U c₃ x) m₃ := by
      refine (ht.tidy.after hend.tidy hnew (fun _ _ => False.elim) (fun _ _ _ hx => .inl (.inr hx))
        fun _ _ _ hx => .inl (hx.resolve_right id)).after htidy hnew (fun _ _ => False.elim) (fun _ _ _ hx => .inl hx)
        fun _ _ _ => False.elim
    refine hboth.drop (hgone hrt) fun x hx => ?_
    rcases hx with heq | heq | hkept
    · exact .inl (.inl heq)
    · exact .inr heq
    · exact .inl (.inr hkept)
  | error f =>
    obtain ⟨hf, hend⟩ := hend
    refine (tidy_deferDestroy (by simpa using hf)).mono fun _ s₃ hdone => ?_
    obtain ⟨m₃, c₃⟩ := s₃
    obtain ⟨rfl, -, htidy, hgone⟩ := hdone
    have hboth : Tidy (fun _ => False) (fun _ => False) m (fun x => x = t ∨ U c₃ x) m₃ := by
      refine (ht.tidy.after hend hnew (fun _ _ => False.elim) (fun _ _ _ hx => .inl hx) fun _ _ _ => False.elim).after
        htidy hnew (fun _ _ => False.elim) (fun _ _ _ hx => .inl hx) fun _ _ _ => False.elim
    exact ⟨hc, hf, hboth.drop (hgone hrt) fun x hx => hx.symm⟩

end

end Krypton.SecureMem
