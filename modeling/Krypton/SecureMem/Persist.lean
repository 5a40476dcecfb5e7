import Krypton.SecureMem

/-!
# Results that outlive their handler

The package is used in one pattern: a handler leaves its result under a name in the persistent vault, and after `Run`
the caller takes it from the vault of the response (`getOrClean`). When the system calls that allocate and protect
memory succeed and the context is not cancelled (`Runtime.Healthy`), the caller gets the bytes the handler left there,
and everything that was there before is untouched (`ends_run_persisted`). Calls that release memory may fail.

* `LeavesOut` — how a handler ended that should leave `out` under a name, where `none` stands for an error;
* `Returns` — the same for the function around it, which returns the `Data`.
-/

namespace Krypton.SecureMem

open Lib

/-- Memory can be had and protected, and the context is not cancelled. -/
structure Runtime.Healthy (rt : Runtime) : Prop where
  allocates : rt.Allocates
  protects : rt.Protects
  ctxErr : ∀ n, rt.ctxErr n = none

section
variable {χ : Type} (rt : Runtime)

/-- Take a result from the vault of a response; if it is not there, the vault is destroyed and `missing` is the
error. -/
def getOrClean (name : String) (missing : Except Err Unit → Err) (resp : HandlerResponse) :
    Tx (Mem × χ) Fault DataID := do
  match ← callProc (get resp.vault name) with
  | some d => return d
  | none =>
    let cleaned ← callProc (destroyAll rt resp.vault).attempt
    Tx.fail (.error (missing cleaned))

/-- The bytes of a `Data`, none for a nil pointer. -/
def bytesOf (d : DataID) : Tx (Mem × χ) Fault Bytes := Tx.read fun s => (s.1.secureBytes d).getD []

/-- `defer d.Destroy()`. -/
def deferDestroy {α : Type} (d : DataID) (r : Except Fault α) : Tx (Mem × χ) Err Unit :=
  match r with
  | .error .crash => return ()
  | _ => (destroy rt d).onFst

end

/-! ## Filling new memory -/

/-- `d` is new in `m'` and holds `content`; the rest is as in `m`. -/
structure Filled (m : Mem) (content : Bytes) (d : DataID) (m' : Mem) : Prop where
  new : d = m.data.length
  bytes : m'.secureBytes d = some content
  writable : m'.data[d]? = some ⟨some content, false⟩
  frame : Frame (fun _ => False) (fun _ => False) m m'
  vaults : m'.vaults = m.vaults

section
variable {rt : Runtime} {m m' : Mem} {d : DataID} {bytes : Bytes}

theorem ends_newData_healthy {size : Int} (hrt : rt.Allocates) (hsize : 0 < size) :
    (newData rt size).Ends m fun r m' => ∃ d, r = .ok d ∧ Filled m (List.replicate size.toNat 0) d m' := by
  refine ends_newData.mono ?_
  rintro r m' ⟨hvaults, hok, hr⟩
  obtain ⟨d, rfl⟩ := hok hrt hsize
  have hframe := frame_of_newData (r := .ok d) hvaults hr
  obtain ⟨-, rfl, hdata⟩ := hr
  have hat : m'.data[m.data.length]? = some ⟨some (List.replicate size.toNat 0), false⟩ := by
    rw [hdata, List.getElem?_concat_length]
  exact ⟨_, rfl, rfl, by unfold Mem.secureBytes; rw [hat]; rfl, hat, hframe, hvaults⟩

theorem overwrite_of_length {old new : Bytes} (h : old.length = new.length) : overwrite old new = new := by
  simp [overwrite, h, List.drop_eq_nil_of_le (le_of_eq h)]

/-- Copying as many bytes as there is room for. -/
theorem copyTo_eq {old : Bytes} (hwritable : m.data[d]? = some ⟨some old, false⟩) (hlen : old.length = bytes.length) :
    copyTo d bytes m = (.ok (), m.update d ⟨some bytes, false⟩) := by
  have hbytes : (⟨some (overwrite old bytes), false⟩ : Data) = ⟨some bytes, false⟩ := by rw [overwrite_of_length hlen]
  rw [← hbytes]
  exact Tx.bind_of_ok (Tx.read_of_eq (g := fun m : Mem => m.data[d]?) hwritable)

theorem Filled.update {old : Bytes} (h : Filled m old d m') : Filled m bytes d (m'.update d ⟨some bytes, false⟩) := by
  have hd : d < m'.data.length := (List.getElem?_eq_some_iff.1 h.writable).1
  have hat : (m'.update d ⟨some bytes, false⟩).data[d]? = some ⟨some bytes, false⟩ := List.getElem?_set_self hd
  have hcopy : Frame (· = d) (fun _ => False) m' (m'.update d ⟨some bytes, false⟩) := .of_update rfl
  have hframe : Frame (· = d) (fun _ => False) m (m'.update d ⟨some bytes, false⟩) :=
    (h.frame.mono (fun _ _ => False.elim) fun _ => id).trans hcopy
  refine ⟨h.new, by unfold Mem.secureBytes; rw [hat]; rfl, hat, hframe.mono ?_ fun _ => id, h.vaults⟩
  rintro d' hd' rfl
  rw [h.new] at hd'
  exact Nat.lt_irrefl _ hd'

/-- Filling new memory in a handler. -/
theorem Filled.ends_copyTo_bind {χ β : Type} {c : χ} {old : Bytes} {f : Unit → Tx (Mem × χ) Fault β}
    {R : Except Fault β → Mem × χ → Prop} (h : Filled m old d m') (hlen : old.length = bytes.length)
    (hf : ∀ m₂, Filled m bytes d m₂ → (f ()).Ends (m₂, c) R) : ((copyTo d bytes).onFst >>= f).Ends (m', c) R := by
  have hrun : ((copyTo d bytes).onFst : Tx (Mem × χ) Fault Unit) (m', c) =
      (.ok (), (m'.update d ⟨some bytes, false⟩, c)) := by
    unfold Tx.onFst
    rw [copyTo_eq h.writable hlen]
  exact Tx.Ends.ok_bind hrun (hf _ h.update)

end

/-! ## Leaving a result -/

/-- Code that should return `a` and leave `out` in the persistent vault under `name`, in a new `Data` outside `D`, did
so, with an empty temporary vault and without touching what was outside `D`; or it failed, if `out` is none. The state
beside the memory is in `K`. -/
def LeavesOut {χ α : Type} (D : DataID → Prop) (m : Mem) (K : χ → Prop) (name : String) (out : Option Bytes) (a : α)
    (r : Except Fault α) (s : Mem × χ) : Prop :=
  K s.2 ∧
    match out with
    | none => ∃ f, r = .error f
    | some bytes => r = .ok a ∧ s.1.store (requestFor m).temporaryVault = ∅ ∧ Frame D (fun _ => False) m s.1 ∧
        (requestFor m).persistentVault < s.1.vaults.length ∧
          ∃ d, m.data.length ≤ d ∧ ¬ D d ∧ s.1.secureBytes d = some bytes ∧
            (s.1.store (requestFor m).persistentVault).lookup name = some d

/-- A function that should return a new `Data` outside `D` with the bytes `out` did so without touching what was outside
`D`; or it failed, if `out` is none. The state beside the memory is in `K`. -/
def Returns {χ : Type} (D : DataID → Prop) (m : Mem) (K : χ → Prop) (out : Option Bytes) (r : Except Fault DataID)
    (s : Mem × χ) : Prop :=
  K s.2 ∧
    match out with
    | none => ∃ f, r = .error f
    | some bytes => Frame D (fun _ => False) m s.1 ∧
        ∃ d, r = .ok d ∧ m.data.length ≤ d ∧ ¬ D d ∧ s.1.secureBytes d = some bytes

section
variable {rt : Runtime} {χ : Type} {c : χ} {K : χ → Prop} {D : DataID → Prop} {m m₁ : Mem} {name : String}

theorem frame_opened : Frame D (fun _ => False) m (opened m) := by
  refine ⟨fun _ _ _ => rfl, fun _ _ _ => id, fun v hv _ => ?_, le_rfl, by simp [opened]⟩
  unfold Mem.store opened
  dsimp only
  rw [List.getElem?_append_left (by simp; omega), List.getElem?_append_left hv]

theorem store_opened : (opened m).store (requestFor m).temporaryVault = ∅ ∧
    (opened m).store (requestFor m).persistentVault = ∅ := by
  constructor <;> simp [Mem.store, opened, requestFor]

theorem inRange_opened : (requestFor m).temporaryVault < (opened m).vaults.length ∧
    (requestFor m).persistentVault < (opened m).vaults.length := by
  constructor <;> simp [opened, requestFor]

theorem exists_of_secureBytes {d : DataID} {bytes : Bytes} (h : m.secureBytes d = some bytes) : m.Exists d :=
  exists_of_live (live_iff.2 (by rw [h]; rfl))

/-- Importing a new `Data` under a name into the persistent vault. -/
theorem leaves_of_insert {d : DataID} {bytes : Bytes} (hframe : Frame D (fun _ => False) (opened m) m₁)
    (hnew : m.data.length ≤ d) (hD : ¬ D d) (hbytes : m₁.secureBytes d = some bytes) (hK : K c) :
    LeavesOut D m K name (some bytes) () (.ok ())
      (m₁.setStore (requestFor m).persistentVault ((m₁.store (requestFor m).persistentVault).insert name d), c) := by
  have hin : (requestFor m).persistentVault < m₁.vaults.length :=
    Nat.lt_of_lt_of_le inRange_opened.2 hframe.vaultsGrow
  -- the persistent vault is the second of the two new ones
  have hset : Frame D (· = (requestFor m).persistentVault) m₁ (m₁.setStore (requestFor m).persistentVault
      ((m₁.store (requestFor m).persistentVault).insert name d)) := .of_setStore rfl
  have hall : Frame D (· = (requestFor m).persistentVault) m (m₁.setStore (requestFor m).persistentVault
      ((m₁.store (requestFor m).persistentVault).insert name d)) :=
    ((frame_opened.trans hframe).mono (fun _ _ => id) fun _ => False.elim).trans hset
  refine ⟨hK, rfl, ?_, ⟨hall.bytes, hall.readOnly, fun v hv _ => hall.store v hv ?_, hall.dataGrow, hall.vaultsGrow⟩,
    ?_, d, hnew, hD, hbytes, ?_⟩
  · rw [hset.store _ (Nat.lt_of_lt_of_le inRange_opened.1 hframe.vaultsGrow) (Nat.ne_of_lt (Nat.lt_succ_self _)),
      hframe.store _ inRange_opened.1 id, store_opened.1]
  · rintro rfl
    simp only [requestFor] at hv
    omega
  · simpa [Mem.setStore] using hin
  · rw [store_setStore hin, AList.lookup_insert]

theorem importData_eq {v : VaultID} {d : DataID} (hd : m.Exists d) (hname : (m.store v).lookup name = none) :
    importData v name d m = (.ok (), m.setStore v ((m.store v).insert name d)) := by
  have hnil : (m.data[d]?).isNone = false := by simpa [Mem.Exists] using hd
  have htaken : ((m.store v).lookup name).isSome = false := by rw [hname]; rfl
  refine (Tx.bind_of_ok (Tx.read_of_eq (g := fun m : Mem => (m.data[d]?).isNone) hnil)).trans ?_
  exact Tx.bind_of_ok (Tx.read_of_eq (g := fun m : Mem => ((m.store v).lookup name).isSome) htaken)

/-- `x` imports `d` under `name` into the vault `v` if the name is free. -/
def Imports (x : Proc Unit) (v : VaultID) (name : String) (d : DataID) : Prop :=
  ∀ m : Mem, m.Exists d → (m.store v).lookup name = none → x m = (.ok (), m.setStore v ((m.store v).insert name d))

theorem imports_importData {v : VaultID} {d : DataID} : Imports (importData v name d) v name d :=
  fun _ => importData_eq

theorem ends_import_persistent {x : Proc Unit} {d : DataID} {bytes : Bytes}
    (hx : Imports x (requestFor m).persistentVault name d) (hframe : Frame D (fun _ => False) (opened m) m₁)
    (hnew : m.data.length ≤ d) (hD : ¬ D d) (hbytes : m₁.secureBytes d = some bytes) (hK : K c) :
    (callProc x).Ends (m₁, c) (LeavesOut D m K name (some bytes) ()) := by
  have hname : (m₁.store (requestFor m).persistentVault).lookup name = none := by
    rw [hframe.store _ inRange_opened.2 id, store_opened.2, AList.lookup_empty]
  unfold Tx.Ends
  rw [callProc_of_ok (hx m₁ (exists_of_secureBytes hbytes) hname)]
  exact leaves_of_insert hframe hnew hD hbytes hK

/-- Reserving room in the persistent vault and filling it. -/
theorem ends_reserve_copy {bytes : Bytes} {size : Int} {f : Err → Err} (hrt : rt.Allocates) (hsize : 0 < size)
    (hlen : size.toNat = bytes.length) (hK : K c) :
    (do
      let d ← callProc ((reserve rt (requestFor m).persistentVault name size).mapError f)
      (copyTo d bytes).onFst : Tx (Mem × χ) Fault Unit).Ends (opened m,
        c) (LeavesOut (fun _ => False) m K name (some bytes) ()) := by
  have htaken : (((opened m).store (requestFor m).persistentVault).lookup name).isSome = false := by
    rw [store_opened.2, AList.lookup_empty]
    rfl
  have hnew := ends_newData_healthy (m := opened m) hrt hsize
  unfold Tx.Ends at hnew
  rcases hrun : newData rt size (opened m) with ⟨r, m₁⟩
  rw [hrun] at hnew
  obtain ⟨d, rfl, hfilled⟩ := hnew
  have hreserve : reserve rt (requestFor m).persistentVault name size (opened m) =
      (.ok d, m₁.setStore (requestFor m).persistentVault
        ((m₁.store (requestFor m).persistentVault).insert name d)) := by
    refine (Tx.bind_of_ok (Tx.read_of_eq
      (g := fun m' : Mem => ((m'.store (requestFor m).persistentVault).lookup name).isSome) htaken)).trans ?_
    exact Tx.bind_of_ok hrun
  refine Tx.Ends.ok_bind (callProc_of_ok (Tx.mapError_of_ok hreserve)) ?_
  unfold Tx.Ends Tx.onFst
  rw [copyTo_eq (m := m₁.setStore _ _) hfilled.writable (by rw [List.length_replicate, hlen])]
  have hdone : Filled (opened m) bytes d (m₁.update d ⟨some bytes, false⟩) := hfilled.update
  exact leaves_of_insert hdone.frame (le_of_eq hdone.new.symm) id hdone.bytes hK

theorem ctxErr_eq (hrt : rt.Healthy) : ctxErr rt m = (.ok (), m.tick) := by
  unfold ctxErr
  rw [hrt.ctxErr]

/-! ## Deferred destruction -/

theorem LeavesOut.mono {α : Type} {D' : DataID → Prop} {out : Option Bytes} {a : α} {r : Except Fault α} {s : Mem × χ}
    (h : LeavesOut D m K name out a r s) (hD : ∀ d, m.Exists d → D d → D' d) (hD' : ∀ d, D' d → m.Exists d) :
    LeavesOut D' m K name out a r s := by
  cases out with
  | none => exact h
  | some bytes =>
    obtain ⟨hK, hr, htemp, hframe, hin, d, hnew, -, hrest⟩ := h
    refine ⟨hK, hr, htemp, hframe.mono hD fun _ => id, hin, d, hnew, fun hd => ?_, hrest⟩
    exact Nat.not_lt.2 hnew (hD' d hd)

theorem Returns.of_ok {out : Option Bytes} {d : DataID} {s : Mem × χ} (h : Returns D m K out (.ok d) s) :
    K s.2 ∧ ∃ bytes, out = some bytes ∧ Frame D (fun _ => False) m s.1 ∧ m.data.length ≤ d ∧ ¬ D d ∧
      s.1.secureBytes d = some bytes := by
  obtain ⟨hK, hout⟩ := h
  cases out with
  | none =>
    obtain ⟨_, h⟩ := hout
    cases h
  | some bytes =>
    obtain ⟨hframe, _, ⟨⟩, hrest⟩ := hout
    exact ⟨hK, bytes, rfl, hframe, hrest⟩

theorem Returns.of_error {out : Option Bytes} {f : Fault} {s : Mem × χ} (h : Returns D m K out (.error f) s) :
    K s.2 ∧ out = none := by
  obtain ⟨hK, hout⟩ := h
  cases out with
  | none => exact ⟨hK, rfl⟩
  | some bytes =>
    obtain ⟨-, _, h, -⟩ := hout
    cases h

/-- What a function returned, seen from an earlier memory. -/
theorem Returns.rebase {D' : DataID → Prop} {out : Option Bytes} {r : Except Fault DataID} {s : Mem × χ}
    (h : Returns D m₁ K out r s) (hframe : Frame D' (fun _ => False) m m₁) (hD : ∀ d, m.Exists d → D d → D' d)
    (hD' : ∀ d, D' d → m.Exists d) : Returns D' m K out r s := by
  cases out with
  | none => exact h
  | some bytes =>
    obtain ⟨hK, hframe₁, d, hr, hnew, -, hrest⟩ := h
    have hnew' : m.data.length ≤ d := Nat.le_trans hframe.dataGrow hnew
    exact ⟨hK, hframe.rebase hframe₁ hD, d, hr, hnew', fun hd => Nat.not_lt.2 hnew' (hD' d hd), hrest⟩

/-- Destroying what is not needed keeps the rest, whether or not the system calls succeed. -/
theorem ends_deferDestroy {α : Type} {d : DataID} {r : Except Fault α} (hd : D d) :
    (deferDestroy rt d r).Ends (m, c) fun _ s => s.2 = c ∧ s.1.vaults = m.vaults ∧ Frame D (fun _ => False) m s.1 := by
  have hdestroy : (destroy rt d).onFst.Ends (m, c) fun _ s =>
      s.2 = c ∧ s.1.vaults = m.vaults ∧ Frame D (fun _ => False) m s.1 := by
    refine Tx.Ends.onFst ends_destroy ?_
    rintro _ m' ⟨hvaults, hdata, -⟩
    exact ⟨rfl, hvaults, (frame_of_destroy hvaults hdata).mono (by rintro _ - rfl; exact hd) fun _ => id⟩
  rcases r with (e | _ | _) | a
  · exact hdestroy
  · exact hdestroy
  · exact ⟨rfl, rfl, .refl m⟩
  · exact hdestroy

theorem ends_leaves_deferDestroy (rt : Runtime) {α : Type} {x : Tx (Mem × χ) Fault α} {s : Mem × χ} {out : Option Bytes}
    {a : α} {d : DataID} (hx : x.Ends s (LeavesOut D m K name out a)) (hd : D d) :
    (x.deferred (deferDestroy rt d)).Ends s (LeavesOut D m K name out a) := by
  refine Tx.Ends.deferred hx ?_
  rintro r ⟨m₁, c₁⟩ ⟨hK, hout⟩
  refine (ends_deferDestroy hd).mono ?_
  rintro - ⟨m₂, _⟩ ⟨rfl, hvaults, hframe₂⟩
  cases out with
  | none => exact ⟨hK, hout⟩
  | some bytes =>
    obtain ⟨hr, htemp, hframe, hin, d', hnew, hD, hbytes, hname⟩ := hout
    have hstore : ∀ v, m₂.store v = m₁.store v := fun v => by unfold Mem.store; rw [hvaults]
    refine ⟨hK, hr, (hstore _).trans htemp, hframe.trans hframe₂, by rw [hvaults]; exact hin, d', hnew, hD, ?_, ?_⟩
    · exact (hframe₂.bytes d' (exists_of_secureBytes hbytes) hD).trans hbytes
    · rw [hstore]
      exact hname

theorem ends_returns_deferDestroy (rt : Runtime) {x : Tx (Mem × χ) Fault DataID} {s : Mem × χ} {out : Option Bytes}
    {d : DataID}
    (hx : x.Ends s (Returns D m K out)) (hd : D d) : (x.deferred (deferDestroy rt d)).Ends s (Returns D m K out) := by
  refine Tx.Ends.deferred hx ?_
  rintro r ⟨m₁, c₁⟩ ⟨hK, hout⟩
  refine (ends_deferDestroy hd).mono ?_
  rintro - ⟨m₂, _⟩ ⟨rfl, -, hframe₂⟩
  cases out with
  | none => exact ⟨hK, hout⟩
  | some bytes =>
    obtain ⟨hframe, d', hr, hnew, hD, hbytes⟩ := hout
    refine ⟨hK, hframe.trans hframe₂, d', hr, hnew, hD, ?_⟩
    exact (hframe₂.bytes d' (exists_of_secureBytes hbytes) hD).trans hbytes

/-! ## Taking it after `Run` -/

theorem ends_runHandler_healthy (hrt : rt.Healthy) {handler : HandlerRequest → Tx (Mem × χ) Fault Unit}
    {out : Option Bytes} (h : (handler (requestFor m)).Ends (opened m, c) (LeavesOut D m K name out ())) :
    (runHandler rt handler (requestFor m)).Ends (opened m, c)
      (LeavesOut D m K name out (⟨(requestFor m).persistentVault⟩ : HandlerResponse)) := by
  unfold runHandler
  refine Tx.Ends.bind h ?_ ?_
  · rintro _ ⟨m₁, c₁⟩ ⟨hK, hout⟩
    cases out with
    | none =>
      obtain ⟨_, h⟩ := hout
      cases h
    | some bytes =>
      obtain ⟨-, htemp, hframe, hin, d, hnew, hD, hbytes, hname⟩ := hout
      refine Tx.Ends.ok_bind (callProc_of_ok (ctxErr_eq hrt)) (ends_callProc_bind ends_markAllReadOnly ?_ ?_)
      · rintro _ m₂ ⟨hticked, -, -⟩
        -- protecting the persistent vault touches no bytes and no entries
        have htick : Frame (fun _ => False) (fun _ => False) m₁ m₁.tick := .of_same ⟨rfl, rfl⟩
        have hmark := htick.trans hticked
        have htin : (requestFor m).temporaryVault < m₁.vaults.length := Nat.lt_of_succ_lt hin
        refine ⟨hK, rfl, ?_, hframe.trans (hmark.mono (fun _ _ => False.elim) fun _ => id), ?_, d, hnew, hD, ?_, ?_⟩
        · exact (hmark.store _ htin id).trans htemp
        · exact Nat.lt_of_lt_of_le hin hmark.vaultsGrow
        · exact (hmark.bytes d (exists_of_secureBytes hbytes) id).trans hbytes
        · exact (congrArg (AList.lookup name) (hmark.store _ hin id)).trans hname
      · rintro e m₂ ⟨-, -, hok⟩
        cases hok hrt.protects
  · rintro f ⟨m₁, c₁⟩ ⟨hK, hout⟩
    cases out with
    | none => exact ⟨hK, f, rfl⟩
    | some bytes => cases hout.1

theorem ends_run_healthy (hrt : rt.Healthy) {handler : HandlerRequest → Tx (Mem × χ) Fault Unit} {out : Option Bytes}
    (h : (handler (requestFor m)).Ends (opened m, c) (LeavesOut D m K name out ())) :
    (SecureMem.run rt handler).Ends (m, c) fun r s => K s.2 ∧
      match out with
      | none => ∃ f, r = .error f
      | some bytes => r = .ok ⟨(requestFor m).persistentVault⟩ ∧ Frame D (fun _ => False) m s.1 ∧
          ∃ d, m.data.length ≤ d ∧ ¬ D d ∧ s.1.secureBytes d = some bytes ∧
            (s.1.store (requestFor m).persistentVault).lookup name = some d := by
  unfold SecureMem.run
  refine Tx.Ends.ok_bind (callProc_of_ok (ctxErr_eq hrt)) (Tx.Ends.ok_bind (callProc_of_ok newHandlerRequest_eq) ?_)
  refine Tx.Ends.deferred (ends_runHandler_healthy hrt h) ?_
  rintro r ⟨m₁, c₁⟩ ⟨hK, hout⟩
  cases out with
  | none => exact ⟨hK, hout⟩
  | some bytes =>
    obtain ⟨rfl, htemp, hframe, hin, d, hnew, hD, hbytes, hname⟩ := hout
    refine Tx.Ends.onFst ends_destroyAll ?_
    rintro _ m₂ ⟨hclean, -⟩
    have hempty : ∀ d, ¬ m₁.Holds (requestFor m).temporaryVault d := by
      rintro d ⟨name', h⟩
      rw [htemp, AList.lookup_empty] at h
      cases h
    have hne : (requestFor m).persistentVault ≠ (requestFor m).temporaryVault := Nat.succ_ne_self _
    have hall : Frame D (· = (requestFor m).temporaryVault) m m₂ :=
      (hframe.mono (fun _ _ => id) fun _ => False.elim).trans
        (hclean.mono (fun d _ h => absurd h (hempty d)) fun _ => id)
    refine ⟨hK, rfl, ⟨hall.bytes, hall.readOnly, fun v hv _ => hall.store v hv (Nat.ne_of_lt hv), hall.dataGrow,
      hall.vaultsGrow⟩, d, hnew, hD, ?_, ?_⟩
    · exact (hclean.bytes d (exists_of_secureBytes hbytes) (hempty d)).trans hbytes
    · exact (congrArg (AList.lookup name) (hclean.store _ hin hne)).trans hname

theorem getOrClean_eq {missing : Except Err Unit → Err} {v : VaultID} {d : DataID}
    (hname : (m.store v).lookup name = some d) :
    (getOrClean rt name missing ⟨v⟩ : Tx (Mem × χ) Fault DataID) (m, c) = (.ok d, (m, c)) := by
  have hget : get v name m = (.ok (some d), m) := Tx.read_of_eq hname
  exact Tx.bind_of_ok (callProc_of_ok hget)

/-- **Results outlive their handler.** -/
theorem ends_run_persisted (hrt : rt.Healthy) {handler : HandlerRequest → Tx (Mem × χ) Fault Unit} {out : Option Bytes}
    {missing : Except Err Unit → Err} (h : (handler (requestFor m)).Ends (opened m, c) (LeavesOut D m K name out ())) :
    (SecureMem.run rt handler >>= getOrClean rt name missing).Ends (m, c) (Returns D m K out) := by
  refine Tx.Ends.bind (ends_run_healthy hrt h) ?_ ?_
  · rintro resp ⟨m₁, c₁⟩ ⟨hK, hout⟩
    cases out with
    | none =>
      obtain ⟨_, h⟩ := hout
      cases h
    | some bytes =>
      obtain ⟨hresp, hframe, d, hnew, hD, hbytes, hname⟩ := hout
      cases hresp
      unfold Tx.Ends
      rw [getOrClean_eq hname]
      exact ⟨hK, hframe, d, rfl, hnew, hD, hbytes⟩
  · rintro f ⟨m₁, c₁⟩ ⟨hK, hout⟩
    cases out with
    | none => exact ⟨hK, f, rfl⟩
    | some bytes => cases hout.1

end

end Krypton.SecureMem
