import Mathlib.Data.List.AList
import Krypton.Errors
import Krypton.Lib.Cleanup

/-!
# Secure memory

The package `internal/securemem`: regions of locked memory (`data.go`), vaults that keep such regions by name
(`memvault.go`), and `Run`, which gives a handler a temporary and a persistent vault and cleans up after it
(`handler.go`).

The memory of a process is a list of `Data` and a list of vaults; a pointer is a position in its list, and a position
past the end is the nil pointer. `Runtime` is what the package stands on: whether a system call fails, the order in
which a `range` over a map meets its entries, and the state of the context, each at a time; the clock of the memory
counts how often one of them was asked.

Code of the package is a `Proc`: it ends with a value or returns an error. A handler can end in other ways, see `Fault`.
What each operation can do to the memory is said once, by its `ends_` lemma; `Frame` is the part it leaves alone.
-/

namespace Krypton.SecureMem

open Lib

/-! ## Memory -/

/-- The `Data` of the package. Its name is only logged and left out. -/
structure Data where
  /-- The bytes of the region; `none` once it is wiped and given back. -/
  data : Option Bytes
  isReadOnly : Bool
  deriving DecidableEq, Repr

/-- A `*Data`. -/
abbrev DataID : Type := Nat

/-- A `*MemVault`. -/
abbrev VaultID : Type := Nat

/-- The `store` of a `MemVault`; the mutex is left out. -/
abbrev MemVault : Type := AList fun _ : String => DataID

structure Mem where
  data : List Data
  vaults : List MemVault
  clock : Nat

inductive Syscall where
  | mmap | madvise | mlock | protectRead | protectWrite | munlock | munmap
  deriving DecidableEq, Repr

structure Runtime where
  /-- The error of a system call made at a time. -/
  fails : Syscall → Nat → Option Err
  /-- The order in which a `range` over a map at a time meets its entries. -/
  order : Nat → List (Sigma fun _ : String => DataID) → List (Sigma fun _ : String => DataID)
  order_perm : ∀ n l, (order n l).Perm l
  /-- `ctx.Err()` at a time. -/
  ctxErr : Nat → Option Err

abbrev Proc (α : Type) : Type := Tx Mem Err α

namespace Mem

def tick (m : Mem) : Mem := { m with clock := m.clock + 1 }

/-- The entries of a vault. -/
def store (m : Mem) (v : VaultID) : MemVault := (m.vaults[v]?).getD ∅

def setStore (m : Mem) (v : VaultID) (s : MemVault) : Mem := { m with vaults := m.vaults.set v s }

def update (m : Mem) (d : DataID) (x : Data) : Mem := { m with data := m.data.set d x }

/-- `d.SecureBytes()`. -/
def secureBytes (m : Mem) (d : DataID) : Option Bytes := (m.data[d]?).bind Data.data

/-- `d` points at a `Data`. -/
def Exists (m : Mem) (d : DataID) : Prop := d < m.data.length

def Live (m : Mem) (d : DataID) : Prop := ∃ x, m.data[d]? = some x ∧ x.data.isSome

def Destroyed (m : Mem) (d : DataID) : Prop := ∃ x, m.data[d]? = some x ∧ x.data = none

def ReadOnly (m : Mem) (d : DataID) : Prop := ∃ x, m.data[d]? = some x ∧ x.isReadOnly = true

/-- The vault `v` has `d` under some name. -/
def Holds (m : Mem) (v : VaultID) (d : DataID) : Prop := ∃ name, (m.store v).lookup name = some d

end Mem

/-! ## System calls -/

section
variable (rt : Runtime)

def syscall (c : Syscall) : Proc Unit := fun m =>
  match rt.fails c m.clock with
  | none => (.ok (), m.tick)
  | some e => (.error e, m.tick)

/-- `errors.Join`. -/
def joinErrors (errs : List Err) : Option Err :=
  if errs = [] then none else some ⟨errs.flatMap Err.chain, "\n".intercalate (errs.map Err.text)⟩

def errorsOf (rs : List (Except Err Unit)) : List Err :=
  rs.filterMap fun r => match r with
    | .ok _ => none
    | .error e => some e

/-- Return the joined errors, if there are any. -/
def returnJoined (rs : List (Except Err Unit)) : Proc Unit :=
  match joinErrors (errorsOf rs) with
  | none => return ()
  | some e => Tx.fail e

def readonly : Proc Unit := syscall rt .protectRead

def readwrite : Proc Unit := syscall rt .protectWrite

/-- Unmap after a failed system call and return its error. -/
def unmapFailed (r : Except Err Unit) : Proc Unit :=
  match r with
  | .ok _ => return ()
  | .error e => do
    let unmap ← (syscall rt .munmap).attempt
    returnJoined [.error e, unmap]

def alloc (size : Nat) : Proc Bytes := do
  syscall rt .mmap
  let advised ← (syscall rt .madvise).attempt
  unmapFailed rt advised
  let locked ← (syscall rt .mlock).attempt
  unmapFailed rt locked
  return List.replicate size 0

/-- Unlock and unmap; the wiping of the bytes is part of `destroy`, which drops them. -/
def unalloc : Proc Unit := do
  let unlock ← (syscall rt .munlock).attempt
  let unmap ← (syscall rt .munmap).attempt
  returnJoined [unlock, unmap]

/-! ## Data -/

def errInvalidSize : Err := .plain "invalid size: must be greater than 0"

def newData (size : Int) : Proc DataID := do
  if size ≤ 0 then Tx.fail errInvalidSize
  else
    let bytes ← alloc rt size.toNat
    let d ← Tx.read fun m => m.data.length
    Tx.write fun m => { m with data := m.data ++ [⟨some bytes, false⟩] }
    return d

/-- `Data.Destroy`: nothing to do for a nil pointer and after an earlier call. -/
def destroy (d : DataID) : Proc Unit := do
  match ← Tx.read fun m => m.data[d]? with
  | none => return ()
  | some ⟨none, _⟩ => return ()
  | some ⟨some bytes, isReadOnly⟩ =>
    if isReadOnly then
      readwrite rt
      Tx.write fun m => m.update d ⟨some bytes, false⟩
    -- the deferred function drops the region even if `unalloc` failed
    (unalloc rt).deferred fun _ => (Tx.write fun m => m.update d ⟨none, false⟩ : Proc Unit)

def markReadOnly (d : DataID) : Proc Unit := do
  match ← Tx.read fun m => m.data[d]? with
  | none => return ()
  | some ⟨none, _⟩ => return ()
  | some ⟨some bytes, isReadOnly⟩ =>
    if isReadOnly then return ()
    else
      readonly rt
      Tx.write fun m => m.update d ⟨some bytes, true⟩

/-! ## Vaults -/

def errVaultDataAlreadyExists : Err := .plain "vault data with the same name already exists"

def errDataIsNil : Err := .plain "data is nil"

def newMemVault : Proc VaultID := do
  let v ← Tx.read fun m => m.vaults.length
  Tx.write fun m => { m with vaults := m.vaults ++ [∅] }
  return v

/-- `MemVault.Reserve`; the bytes it returns are those of the new `Data`. -/
def reserve (v : VaultID) (name : String) (size : Int) : Proc DataID := do
  if (← Tx.read fun m => ((m.store v).lookup name).isSome) then Tx.fail errVaultDataAlreadyExists
  else
    let d ← newData rt size
    Tx.write fun m => m.setStore v ((m.store v).insert name d)
    return d

def get (v : VaultID) (name : String) : Proc (Option DataID) := Tx.read fun m => (m.store v).lookup name

/-- The loop body of `DestroyAll`: an entry goes when its `Data` could be destroyed. -/
def destroyEntry (v : VaultID) (entry : Sigma fun _ : String => DataID) : Proc Unit := do
  destroy rt entry.2
  Tx.write fun m => m.setStore v ((m.store v).erase entry.1)

/-- `MemVault.Destroy`. -/
def vaultDestroy (v : VaultID) (name : String) : Proc Unit := do
  match ← get v name with
  | none => return ()
  | some d => destroyEntry rt v ⟨name, d⟩

/-- The entries of a vault as a `range` over it meets them. -/
def rangeStore (v : VaultID) : Proc (List (Sigma fun _ : String => DataID)) := fun m =>
  (.ok (rt.order m.clock (m.store v).entries), m.tick)

def destroyAll (v : VaultID) : Proc Unit := do
  let entries ← rangeStore rt v
  let rs ← Tx.sweep (destroyEntry rt v) entries
  returnJoined rs

def markAllReadOnly (v : VaultID) : Proc Unit := do
  let entries ← rangeStore rt v
  let rs ← Tx.sweep (fun entry => markReadOnly rt entry.2) entries
  returnJoined rs

/-- `MemVault.Import`. -/
def importData (v : VaultID) (name : String) (d : DataID) : Proc Unit := do
  if ← Tx.read fun m => (m.data[d]?).isNone then Tx.fail errDataIsNil
  else if ← Tx.read fun m => ((m.store v).lookup name).isSome then Tx.fail errVaultDataAlreadyExists
  else Tx.write fun m => m.setStore v ((m.store v).insert name d)

end

/-! ## Handlers and `Run` -/

/-- How code around the package can end other than with a value. -/
inductive Fault where
  /-- It returns an error. -/
  | error (e : Err)
  | panic
  /-- A write to protected memory: the process stops and nothing deferred is run. -/
  | crash
  deriving DecidableEq, Repr

/-- The first bytes are overwritten, as far as there is room. -/
def overwrite (old new : Bytes) : Bytes := new.take old.length ++ old.drop new.length

/-- `copy` into the bytes of a `Data`; none are there once it is destroyed. -/
def copyTo (d : DataID) (bytes : Bytes) : Tx Mem Fault Unit := do
  match ← Tx.read fun m => m.data[d]? with
  | some ⟨some old, isReadOnly⟩ =>
    if isReadOnly && !bytes.isEmpty then Tx.fail .crash
    else Tx.write fun m => m.update d ⟨some (overwrite old bytes), isReadOnly⟩
  | _ => return ()

structure HandlerRequest where
  temporaryVault : VaultID
  persistentVault : VaultID
  deriving DecidableEq, Repr

structure HandlerResponse where
  vault : VaultID
  deriving DecidableEq, Repr

def newHandlerRequest : Proc HandlerRequest := do
  let temporaryVault ← newMemVault
  let persistentVault ← newMemVault
  return { temporaryVault, persistentVault }

section
variable {χ : Type} (rt : Runtime)

/-- `ctx.Err()`. -/
def ctxErr : Proc Unit := fun m =>
  match rt.ctxErr m.clock with
  | none => (.ok (), m.tick)
  | some e => (.error e, m.tick)

/-- A call of the package from code that has other state beside the memory. -/
def callProc {α : Type} (x : Proc α) : Tx (Mem × χ) Fault α := (x.mapError Fault.error).onFst

/-- `Run` between the `defer` statement and the end. -/
def runHandler (handler : HandlerRequest → Tx (Mem × χ) Fault Unit) (req : HandlerRequest) :
    Tx (Mem × χ) Fault HandlerResponse := do
  handler req
  callProc (ctxErr rt)
  callProc (markAllReadOnly rt req.persistentVault)
  return { vault := req.persistentVault }

/-- The deferred function of `Run`. The persistent vault stays if there is a response. -/
def cleanUp (req : HandlerRequest) (resp : Except Fault HandlerResponse) : Proc Unit :=
  match resp with
  | .error .crash => return ()
  | .error _ => do
    let _ ← ((destroyAll rt req.temporaryVault).attempt : Proc (Except Err Unit))
    destroyAll rt req.persistentVault
  | .ok _ => destroyAll rt req.temporaryVault

def run (handler : HandlerRequest → Tx (Mem × χ) Fault Unit) : Tx (Mem × χ) Fault HandlerResponse := do
  callProc (ctxErr rt)
  let req ← callProc newHandlerRequest
  (runHandler rt handler req).deferred fun resp => (cleanUp rt req resp).onFst

end

/-- The request `Run` makes for its handler. -/
def requestFor (m : Mem) : HandlerRequest := ⟨m.vaults.length, m.vaults.length + 1⟩

/-- The memory in which `Run` calls its handler. -/
def opened (m : Mem) : Mem := { m.tick with vaults := m.vaults ++ [∅] ++ [∅] }

/-! ## What the operations leave alone -/

/-- Only the clock moved. -/
def Same (m m' : Mem) : Prop := m'.data = m.data ∧ m'.vaults = m.vaults

theorem Same.trans {m m₁ m₂ : Mem} (h : Same m m₁) (h' : Same m₁ m₂) : Same m m₂ :=
  ⟨h'.1.trans h.1, h'.2.trans h.2⟩

/-- The `Data` outside `D` keep their bytes and their protection, the vaults outside `V` their entries, and nothing is
forgotten. -/
structure Frame (D : DataID → Prop) (V : VaultID → Prop) (m m' : Mem) : Prop where
  bytes : ∀ d, m.Exists d → ¬ D d → m'.secureBytes d = m.secureBytes d
  readOnly : ∀ d, m.Exists d → ¬ D d → m.ReadOnly d → m'.ReadOnly d
  store : ∀ v, v < m.vaults.length → ¬ V v → m'.store v = m.store v
  dataGrow : m.data.length ≤ m'.data.length
  vaultsGrow : m.vaults.length ≤ m'.vaults.length

namespace Frame

variable {D D' : DataID → Prop} {V V' : VaultID → Prop} {m m₁ m₂ : Mem}

theorem refl (m : Mem) : Frame D V m m := ⟨fun _ _ _ => rfl, fun _ _ _ => id, fun _ _ _ => rfl, le_rfl, le_rfl⟩

theorem exists_mono (h : Frame D V m m₁) {d : DataID} (hd : m.Exists d) : m₁.Exists d :=
  Nat.lt_of_lt_of_le hd h.dataGrow

/-- What is touched later and did not exist before does not count. -/
theorem rebase (h : Frame D V m m₁) (h' : Frame D' V m₁ m₂) (hD' : ∀ d, m.Exists d → D' d → D d) : Frame D V m m₂ where
  bytes d hd hD := (h'.bytes d (h.exists_mono hd) fun h => hD (hD' d hd h)).trans (h.bytes d hd hD)
  readOnly d hd hD hro := h'.readOnly d (h.exists_mono hd) (fun h => hD (hD' d hd h)) (h.readOnly d hd hD hro)
  store v hv hV := (h'.store v (Nat.lt_of_lt_of_le hv h.vaultsGrow) hV).trans (h.store v hv hV)
  dataGrow := Nat.le_trans h.dataGrow h'.dataGrow
  vaultsGrow := Nat.le_trans h.vaultsGrow h'.vaultsGrow

theorem trans (h : Frame D V m m₁) (h' : Frame D V m₁ m₂) : Frame D V m m₂ := h.rebase h' fun _ _ => id

theorem mono (h : Frame D V m m₁) (hD : ∀ d, m.Exists d → D d → D' d) (hV : ∀ v, V v → V' v) : Frame D' V' m m₁ where
  bytes d hd hD' := h.bytes d hd fun h => hD' (hD d hd h)
  readOnly d hd hD' := h.readOnly d hd fun h => hD' (hD d hd h)
  store v hv hV' := h.store v hv fun h => hV' (hV v h)
  dataGrow := h.dataGrow
  vaultsGrow := h.vaultsGrow

/-- The `Data` outside `D` are the same. -/
theorem of_data (hdata : ∀ d, m.Exists d → ¬ D d → m₁.data[d]? = m.data[d]?) (hlen : m.data.length ≤ m₁.data.length)
    (hvaults : m₁.vaults = m.vaults) : Frame D V m m₁ where
  bytes d hd hD := by unfold Mem.secureBytes; rw [hdata d hd hD]
  readOnly d hd hD hro := by unfold Mem.ReadOnly; rw [hdata d hd hD]; exact hro
  store v _ _ := by unfold Mem.store; rw [hvaults]
  dataGrow := hlen
  vaultsGrow := by rw [hvaults]

theorem of_same (h : Same m m₁) : Frame D V m m₁ :=
  of_data (fun d _ _ => by rw [h.1]) (by rw [h.1]) h.2

theorem of_update {d : DataID} {x : Data} (hD : D d) : Frame D V m (m.update d x) := by
  refine of_data (fun d' _ hD' => ?_) (by simp [Mem.update]) rfl
  have hne : d ≠ d' := by rintro rfl; exact hD' hD
  exact List.getElem?_set_ne hne

theorem of_setStore {v : VaultID} {s : MemVault} (hV : V v) : Frame D V m (m.setStore v s) where
  bytes _ _ _ := rfl
  readOnly _ _ _ := id
  store v' _ hV' := by
    have hne : v ≠ v' := by rintro rfl; exact hV' hV
    unfold Mem.store Mem.setStore
    rw [List.getElem?_set_ne hne]
  dataGrow := le_rfl
  vaultsGrow := by simp [Mem.setStore]

end Frame

section
variable {m : Mem} {v : VaultID} {d : DataID}

theorem store_setStore {s : MemVault} (hv : v < m.vaults.length) : (m.setStore v s).store v = s := by
  unfold Mem.store Mem.setStore
  rw [List.getElem?_set_self hv]
  rfl

theorem holds_iff : m.Holds v d ↔ ∃ entry ∈ (m.store v).entries, entry.2 = d := by
  constructor
  · rintro ⟨name, h⟩
    exact ⟨⟨name, d⟩, AList.mem_lookup_iff.1 h, rfl⟩
  · rintro ⟨⟨name, _⟩, h, rfl⟩
    exact ⟨name, AList.mem_lookup_iff.2 h⟩

theorem holds_of_erase {name : String} (h : (m.setStore v ((m.store v).erase name)).Holds v d) : m.Holds v d := by
  obtain ⟨name', h⟩ := h
  by_cases hv : v < m.vaults.length
  · rw [store_setStore hv] at h
    by_cases hname : name' = name
    · subst hname
      rw [AList.lookup_erase] at h
      cases h
    · rw [AList.lookup_erase_ne hname] at h
      exact ⟨name', h⟩
  · rw [Mem.setStore, List.set_eq_of_length_le (not_lt.1 hv)] at h
    exact ⟨name', h⟩

theorem live_iff : m.Live d ↔ (m.secureBytes d).isSome := by
  unfold Mem.Live Mem.secureBytes
  cases m.data[d]? <;> simp

theorem exists_of_live (h : m.Live d) : m.Exists d := by
  obtain ⟨x, hx, -⟩ := h
  exact (List.getElem?_eq_some_iff.1 hx).1

theorem Frame.live {D : DataID → Prop} {V : VaultID → Prop} {m' : Mem} (h : Frame D V m m') (hd : ¬ D d)
    (hlive : m.Live d) : m'.Live d := by
  rw [live_iff, h.bytes d (exists_of_live hlive) hd]
  exact live_iff.1 hlive

theorem Frame.holds {D : DataID → Prop} {V : VaultID → Prop} {m' : Mem} (h : Frame D V m m') (hv : v < m.vaults.length)
    (hV : ¬ V v) : m'.Holds v d ↔ m.Holds v d := by
  unfold Mem.Holds
  rw [h.store v hv hV]

end

/-! ## What the operations do -/

/-- The system calls that give memory back succeed. -/
def Runtime.Releases (rt : Runtime) : Prop :=
  ∀ n, rt.fails .protectWrite n = none ∧ rt.fails .munlock n = none ∧ rt.fails .munmap n = none

section
variable {rt : Runtime} {m : Mem} {v : VaultID} {d : DataID}

theorem ends_syscall {c : Syscall} :
    (syscall rt c).Ends m fun r m' => Same m m' ∧ ((∀ n, rt.fails c n = none) → r = .ok ()) := by
  unfold Tx.Ends syscall
  cases h : rt.fails c m.clock with
  | none => exact ⟨⟨rfl, rfl⟩, fun _ => rfl⟩
  | some e => exact ⟨⟨rfl, rfl⟩, fun hok => by rw [hok] at h; cases h⟩

theorem errorsOf_eq_nil {rs : List (Except Err Unit)} : errorsOf rs = [] ↔ ∀ r ∈ rs, r = .ok () := by
  unfold errorsOf
  rw [List.filterMap_eq_nil_iff]
  refine forall₂_congr fun r _ => ?_
  cases r <;> simp

theorem ends_returnJoined {rs : List (Except Err Unit)} :
    (returnJoined rs).Ends m fun r m' => m' = m ∧ (r = .ok () ↔ ∀ r ∈ rs, r = .ok ()) := by
  unfold returnJoined joinErrors
  by_cases h : errorsOf rs = []
  · rw [if_pos h]
    exact ⟨rfl, fun _ => errorsOf_eq_nil.1 h, fun _ => rfl⟩
  · rw [if_neg h]
    exact ⟨rfl, fun hr => (by cases hr), fun hr => absurd (errorsOf_eq_nil.2 hr) h⟩

theorem ends_unmapFailed {r₀ : Except Err Unit} :
    (unmapFailed rt r₀).Ends m fun r m' => Same m m' ∧ (r₀ = .ok () → r = .ok ()) := by
  unfold unmapFailed
  cases r₀ with
  | ok _ => exact ⟨⟨rfl, rfl⟩, fun _ => rfl⟩
  | error e =>
    refine Tx.Ends.attempt_bind ends_syscall ?_
    rintro r m₁ ⟨hsame, -⟩
    refine ends_returnJoined.mono ?_
    rintro r' _ ⟨rfl, -⟩
    exact ⟨hsame, fun h => by cases h⟩

/-- New memory can be had. -/
def Runtime.Allocates (rt : Runtime) : Prop :=
  ∀ n, rt.fails .mmap n = none ∧ rt.fails .madvise n = none ∧ rt.fails .mlock n = none

theorem ends_alloc {size : Nat} :
    (alloc rt size).Ends m fun r m' =>
      Same m m' ∧ (∀ bytes, r = .ok bytes → bytes = List.replicate size 0) ∧
        (rt.Allocates → ∃ bytes, r = .ok bytes) := by
  unfold alloc
  refine Tx.Ends.bind ends_syscall ?_ ?_
  · rintro _ m₁ ⟨h₁, -⟩
    refine Tx.Ends.attempt_bind ends_syscall ?_
    rintro advised m₂ ⟨h₂, hadvised⟩
    refine Tx.Ends.bind ends_unmapFailed ?_ ?_
    · rintro _ m₃ ⟨h₃, -⟩
      refine Tx.Ends.attempt_bind ends_syscall ?_
      rintro locked m₄ ⟨h₄, hlocked⟩
      have hsame := ((h₁.trans h₂).trans h₃).trans h₄
      refine Tx.Ends.bind ends_unmapFailed ?_ ?_
      · rintro _ m₅ ⟨h₅, -⟩
        exact ⟨hsame.trans h₅, fun bytes h => by cases h; rfl, fun _ => ⟨_, rfl⟩⟩
      · rintro e m₅ ⟨h₅, hok⟩
        refine ⟨hsame.trans h₅, (by rintro _ ⟨⟩), fun halloc => ?_⟩
        cases hok (hlocked fun n => (halloc n).2.2)
    · rintro e m₃ ⟨h₃, hok⟩
      refine ⟨(h₁.trans h₂).trans h₃, (by rintro _ ⟨⟩), fun halloc => ?_⟩
      cases hok (hadvised fun n => (halloc n).2.1)
  · rintro e m₁ ⟨h₁, hok⟩
    refine ⟨h₁, (by rintro _ ⟨⟩), fun halloc => ?_⟩
    cases hok fun n => (halloc n).1

theorem ends_unalloc : (unalloc rt).Ends m fun r m' => Same m m' ∧ (rt.Releases → r = .ok ()) := by
  unfold unalloc
  refine Tx.Ends.attempt_bind ends_syscall ?_
  rintro unlock m₁ ⟨h₁, hunlock⟩
  refine Tx.Ends.attempt_bind ends_syscall ?_
  rintro unmap m₂ ⟨h₂, hunmap⟩
  refine ends_returnJoined.mono ?_
  rintro r _ ⟨rfl, hr⟩
  refine ⟨h₁.trans h₂, fun hrel => hr.2 ?_⟩
  rw [List.forall_mem_cons, List.forall_mem_singleton]
  exact ⟨hunlock fun n => (hrel n).2.1, hunmap fun n => (hrel n).2.2⟩

/-- A new `Data` is live, writable, zero, and at a new place. -/
theorem ends_newData {size : Int} :
    (newData rt size).Ends m fun r m' =>
      m'.vaults = m.vaults ∧ (rt.Allocates → 0 < size → ∃ d, r = .ok d) ∧
        match r with
        | .ok d => 0 < size ∧ d = m.data.length ∧ m'.data = m.data ++ [⟨some (List.replicate size.toNat 0), false⟩]
        | .error _ => m'.data = m.data := by
  unfold newData
  by_cases hsize : size ≤ 0
  · rw [if_pos hsize]
    exact ⟨rfl, fun _ h => absurd h (by omega), rfl⟩
  · rw [if_neg hsize]
    refine Tx.Ends.bind ends_alloc ?_ ?_
    · rintro bytes m₁ ⟨hsame, hbytes, -⟩
      cases hbytes bytes rfl
      refine ⟨hsame.2, fun _ _ => ⟨_, rfl⟩, by omega, ?_, ?_⟩
      · exact congrArg List.length hsame.1
      · exact congrArg (· ++ [_]) hsame.1
    · rintro e m₁ ⟨hsame, -, hok⟩
      refine ⟨hsame.2, fun halloc _ => ?_, hsame.1⟩
      obtain ⟨_, h⟩ := hok halloc
      cases h

/-- Destroying leaves the region as it is or drops it; it drops it if the system calls succeed. -/
theorem ends_destroy :
    (destroy rt d).Ends m fun r m' =>
      m'.vaults = m.vaults ∧ (m'.data = m.data ∨ m'.data = m.data.set d ⟨none, false⟩) ∧
        (rt.Releases → r = .ok () ∧ (m.Exists d → m'.Destroyed d)) := by
  unfold destroy
  refine Tx.Ends.ok_bind (a := m.data[d]?) rfl ?_
  rcases hx : m.data[d]? with _ | ⟨_ | bytes, isReadOnly⟩
  · refine ⟨rfl, .inl rfl, fun _ => ⟨rfl, fun hd => ?_⟩⟩
    exact absurd hd (by simpa [Mem.Exists] using hx)
  · exact ⟨rfl, .inl rfl, fun _ => ⟨rfl, fun _ => ⟨_, hx, rfl⟩⟩⟩
  · have hd : d < m.data.length := (List.getElem?_eq_some_iff.1 hx).1
    -- the rest, from a state in which the region is writable
    have hdrop : ∀ m₁ : Mem, m₁.vaults = m.vaults → m₁.data.set d ⟨none, false⟩ = m.data.set d ⟨none, false⟩ →
        ((unalloc rt).deferred fun _ => (Tx.write fun m => m.update d ⟨none, false⟩ : Proc Unit)).Ends m₁ fun r m' =>
          m'.vaults = m.vaults ∧ (m'.data = m.data ∨ m'.data = m.data.set d ⟨none, false⟩) ∧
            (rt.Releases → r = .ok () ∧ (m.Exists d → m'.Destroyed d)) := by
      intro m₁ hvaults hdata
      refine Tx.Ends.deferred ends_unalloc ?_
      rintro r m₂ ⟨hsame, hok⟩
      have hset : m₂.data.set d ⟨none, false⟩ = m.data.set d ⟨none, false⟩ := by rw [hsame.1, hdata]
      refine ⟨hsame.2.trans hvaults, .inr hset, fun hrel => ⟨hok hrel, fun _ => ⟨⟨none, false⟩, ?_, rfl⟩⟩⟩
      exact (congrArg (fun l : List Data => l[d]?) hset).trans (List.getElem?_set_self hd)
    cases isReadOnly with
    | false => exact hdrop m rfl rfl
    | true =>
      refine Tx.Ends.bind ends_syscall ?_ ?_
      · rintro _ m₁ ⟨hsame, -⟩
        refine hdrop (m₁.update d ⟨some bytes, false⟩) hsame.2 ?_
        change (m₁.data.set d _).set d _ = _
        rw [List.set_set, hsame.1]
      · rintro e m₁ ⟨hsame, hok⟩
        refine ⟨hsame.2, .inl hsame.1, fun hrel => ?_⟩
        cases hok fun n => (hrel n).1

/-- Protection alone changes nothing that a frame watches. -/
theorem frame_protect {D : DataID → Prop} {V : VaultID → Prop} {bytes : Bytes} {b : Bool}
    (hx : m.data[d]? = some ⟨some bytes, b⟩) : Frame D V m (m.update d ⟨some bytes, true⟩) := by
  have hd : d < m.data.length := (List.getElem?_eq_some_iff.1 hx).1
  refine ⟨fun d' _ _ => ?_, fun d' _ _ hro => ?_, fun _ _ _ => rfl, by simp [Mem.update], le_rfl⟩
  · unfold Mem.secureBytes Mem.update
    by_cases h : d = d'
    · subst h
      rw [List.getElem?_set_self hd, hx]
      rfl
    · rw [List.getElem?_set_ne h]
  · obtain ⟨x, hx', hxro⟩ := hro
    by_cases h : d = d'
    · subst h
      exact ⟨_, List.getElem?_set_self hd, rfl⟩
    · exact ⟨x, (List.getElem?_set_ne h).trans hx', hxro⟩

/-- `mprotect` can take the right to write. -/
def Runtime.Protects (rt : Runtime) : Prop := ∀ n, rt.fails .protectRead n = none

theorem ends_markReadOnly :
    (markReadOnly rt d).Ends m fun r m' =>
      Frame (fun _ => False) (fun _ => False) m m' ∧ (r = .ok () → m.Live d → m'.ReadOnly d) ∧
        (rt.Protects → r = .ok ()) := by
  unfold markReadOnly
  refine Tx.Ends.ok_bind (a := m.data[d]?) rfl ?_
  rcases hx : m.data[d]? with _ | ⟨_ | bytes, isReadOnly⟩
  · refine ⟨.of_same ⟨rfl, rfl⟩, ?_, fun _ => rfl⟩
    rintro - ⟨x, hx', -⟩
    rw [hx] at hx'
    cases hx'
  · refine ⟨.of_same ⟨rfl, rfl⟩, ?_, fun _ => rfl⟩
    rintro - ⟨x, hx', hlive⟩
    rw [hx] at hx'
    cases hx'
    cases hlive
  · cases isReadOnly with
    | true => exact ⟨.of_same ⟨rfl, rfl⟩, fun _ _ => ⟨_, hx, rfl⟩, fun _ => rfl⟩
    | false =>
      refine Tx.Ends.bind ends_syscall ?_ ?_
      · rintro _ m₁ ⟨hsame, -⟩
        have hx₁ : m₁.data[d]? = some ⟨some bytes, false⟩ := by rw [hsame.1, hx]
        refine ⟨(Frame.of_same hsame).trans (frame_protect hx₁), fun _ _ => ⟨⟨some bytes, true⟩, ?_, rfl⟩, fun _ => rfl⟩
        exact List.getElem?_set_self (List.getElem?_eq_some_iff.1 hx₁).1
      · rintro e m₁ ⟨hsame, hok⟩
        exact ⟨.of_same hsame, (by rintro ⟨⟩), fun hp => by cases hok hp⟩

theorem frame_of_newData {m' : Mem} {size : Int} {r : Except Err DataID} (hvaults : m'.vaults = m.vaults)
    (hr : match r with
      | .ok d => 0 < size ∧ d = m.data.length ∧ m'.data = m.data ++ [⟨some (List.replicate size.toNat 0), false⟩]
      | .error _ => m'.data = m.data) : Frame (fun _ => False) (fun _ => False) m m' := by
  cases r with
  | error e => exact .of_same ⟨hr, hvaults⟩
  | ok d =>
    obtain ⟨-, -, hdata⟩ := hr
    refine .of_data (fun d' hd' _ => ?_) (by rw [hdata]; simp) hvaults
    rw [hdata, List.getElem?_append_left hd']

theorem ends_copyTo {d : DataID} {bytes : Bytes} :
    (copyTo d bytes).Ends m fun r m' =>
      match r with
      | .ok _ => Frame (· = d) (fun _ => False) m m' ∧ (m.Live d → m'.Live d)
      | .error _ => m' = m := by
  unfold copyTo
  refine Tx.Ends.ok_bind (a := m.data[d]?) rfl ?_
  rcases hx : m.data[d]? with _ | ⟨_ | old, isReadOnly⟩
  · exact ⟨.refl m, id⟩
  · exact ⟨.refl m, id⟩
  · dsimp only
    split_ifs
    · exact rfl
    · refine ⟨.of_update rfl, fun _ => ⟨_, List.getElem?_set_self (List.getElem?_eq_some_iff.1 hx).1, rfl⟩⟩

/-! ## Whole vaults -/

theorem destroyed_mono {m m' : Mem} {d' : DataID} (h : m'.data = m.data ∨ m'.data = m.data.set d' ⟨none, false⟩)
    (hd : m.Destroyed d) : m'.Destroyed d := by
  obtain ⟨x, hx, hnone⟩ := hd
  rcases h with h | h
  · exact ⟨x, by rw [h]; exact hx, hnone⟩
  · by_cases hdd : d' = d
    · subst hdd
      exact ⟨_, by rw [h]; exact List.getElem?_set_self (List.getElem?_eq_some_iff.1 hx).1, rfl⟩
    · exact ⟨x, by rw [h, List.getElem?_set_ne hdd]; exact hx, hnone⟩

theorem frame_of_destroy {m m' : Mem} {V : VaultID → Prop} (hv : m'.vaults = m.vaults)
    (h : m'.data = m.data ∨ m'.data = m.data.set d ⟨none, false⟩) : Frame (· = d) V m m' := by
  rcases h with h | h
  · exact .of_same ⟨h, hv⟩
  · have hupdate : Frame (· = d) V m (m.update d ⟨none, false⟩) := .of_update rfl
    exact hupdate.trans (.of_same ⟨h, hv⟩)

/-- An entry is removed or kept; its `Data` goes if the system calls succeed. -/
theorem ends_destroyEntry {entry : Sigma fun _ : String => DataID} :
    (destroyEntry rt v entry).Ends m fun _ m' =>
      Frame (· = entry.2) (· = v) m m' ∧ (rt.Releases → m.Exists entry.2 → m'.Destroyed entry.2) ∧
        (∀ d, m.Destroyed d → m'.Destroyed d) ∧ ∀ d, m'.Holds v d → m.Holds v d := by
  unfold destroyEntry
  refine Tx.Ends.bind ends_destroy ?_ ?_
  · rintro _ m₁ ⟨hv, hd, hrel⟩
    refine ⟨(frame_of_destroy hv hd).trans (.of_setStore rfl), fun h => (hrel h).2, fun d => destroyed_mono hd,
      fun d h => ?_⟩
    have h₁ : m₁.Holds v d := holds_of_erase h
    unfold Mem.Holds Mem.store at h₁
    rw [hv] at h₁
    exact h₁
  · rintro e m₁ ⟨hv, hd, hrel⟩
    refine ⟨frame_of_destroy hv hd, fun h => (hrel h).2, fun d => destroyed_mono hd, fun d h => ?_⟩
    unfold Mem.Holds Mem.store at h
    rw [hv] at h
    exact h

theorem mem_rangeStore {entry : Sigma fun _ : String => DataID} :
    entry ∈ rt.order m.clock (m.store v).entries ↔ entry ∈ (m.store v).entries :=
  (rt.order_perm _ _).mem_iff

/-- **Destroying a vault.** Nothing but its own `Data` is touched, and all of that is gone if the system calls
succeed. -/
theorem ends_destroyAll :
    (destroyAll rt v).Ends m fun _ m' =>
      Frame (m.Holds v) (· = v) m m' ∧ (rt.Releases → ∀ d, m.Holds v d → m.Exists d → m'.Destroyed d) ∧
        (∀ d, m.Destroyed d → m'.Destroyed d) ∧ ∀ d, m'.Holds v d → m.Holds v d := by
  unfold destroyAll
  refine Tx.Ends.ok_bind (x := rangeStore rt v) rfl ?_
  have hsweep := Tx.Ends.sweep (δ := Err) (f := destroyEntry rt v)
    (I := fun m' => Frame (m.Holds v) (· = v) m m' ∧ (∀ d, m.Destroyed d → m'.Destroyed d) ∧ ∀ d,
      m'.Holds v d → m.Holds v d)
    (Q := fun entry _ m' => rt.Releases → m.Exists entry.2 → m'.Destroyed entry.2)
    (l := rt.order m.clock (m.store v).entries) (s := m.tick)
    ⟨.of_same ⟨rfl, rfl⟩, fun _ h => h, fun _ h => h⟩ ?_
  · refine Tx.Ends.bind hsweep ?_ (by rintro e m₁ ⟨-, -, _, ⟨⟩, -⟩)
    rintro rs m₁ ⟨⟨hframe, hmono, hless⟩, -, _, ⟨⟩, hall, -⟩
    refine ends_returnJoined.mono ?_
    rintro r _ ⟨rfl, -⟩
    refine ⟨hframe, fun hrel d hd hex => ?_, hmono, hless⟩
    obtain ⟨entry, hentry, rfl⟩ := holds_iff.1 hd
    obtain ⟨_, -, h⟩ := hall entry (mem_rangeStore.2 hentry)
    exact h hrel hex
  · rintro entry hentry s ⟨hframe, hmono, hless⟩
    refine ends_destroyEntry.mono ?_
    rintro r s' ⟨hf, hdone, hkeep, hl⟩
    have hin : m.Holds v entry.2 := holds_iff.2 ⟨entry, mem_rangeStore.1 hentry, rfl⟩
    have hframe' := hframe.trans (hf.mono (by rintro _ - rfl; exact hin) fun _ h => h)
    refine ⟨⟨hframe', fun d hd => hkeep d (hmono d hd), fun d hd => hless d (hl d hd)⟩, ?_, ?_⟩
    · exact fun hrel hex => hdone hrel (hframe.exists_mono hex)
    · exact fun b _ h hrel hex => hkeep _ (h hrel hex)

/-- **Protecting a vault.** If no call failed every live `Data` of the vault is read-only. -/
theorem ends_markAllReadOnly :
    (markAllReadOnly rt v).Ends m fun r m' =>
      Frame (fun _ => False) (fun _ => False) m m' ∧
        (r = .ok () → ∀ d, m.Holds v d → m.Live d → m'.ReadOnly d) ∧ (rt.Protects → r = .ok ()) := by
  unfold markAllReadOnly
  refine Tx.Ends.ok_bind (x := rangeStore rt v) rfl ?_
  have hsweep := Tx.Ends.sweep (δ := Err) (f := fun entry : Sigma fun _ : String => DataID => markReadOnly rt entry.2)
    (I := Frame (fun _ => False) (fun _ => False) m)
    (Q := fun entry r m' => (r = .ok () → m.Live entry.2 → m'.ReadOnly entry.2) ∧ (rt.Protects → r = .ok ()))
    (l := rt.order m.clock (m.store v).entries) (s := m.tick) (.of_same ⟨rfl, rfl⟩) ?_
  · refine Tx.Ends.bind hsweep ?_ (by rintro e m₁ ⟨-, -, _, ⟨⟩, -⟩)
    rintro rs m₁ ⟨hframe, -, _, ⟨⟩, hall, hfrom⟩
    refine ends_returnJoined.mono ?_
    rintro r _ ⟨rfl, hr⟩
    refine ⟨hframe, fun hok d hd hlive => ?_, fun hp => hr.2 ?_⟩
    · obtain ⟨entry, hentry, rfl⟩ := holds_iff.1 hd
      obtain ⟨r', hr', h, -⟩ := hall entry (mem_rangeStore.2 hentry)
      exact h (hr.1 hok r' hr') hlive
    · intro r' hr'
      obtain ⟨_, -, -, h⟩ := hfrom r' hr'
      exact h hp
  · rintro entry hentry s hframe
    refine ends_markReadOnly.mono ?_
    rintro r s' ⟨hf, hdone, hok⟩
    refine ⟨hframe.trans hf, ⟨fun hr h => hdone hr (hframe.live id h), hok⟩, fun b r' h => ⟨fun hr hl => ?_, h.2⟩⟩
    have hb : s.Exists b.2 := hframe.exists_mono (exists_of_live hl)
    exact hf.readOnly _ hb id (h.1 hr hl)

/-! ## Calls from other code -/

theorem ends_ctxErr : (ctxErr rt).Ends m fun r m' => Same m m' ∧ ((∀ n, rt.ctxErr n = none) → r = .ok ()) := by
  unfold Tx.Ends ctxErr
  cases h : rt.ctxErr m.clock with
  | none => exact ⟨⟨rfl, rfl⟩, fun _ => rfl⟩
  | some e => exact ⟨⟨rfl, rfl⟩, fun hok => by rw [hok] at h; cases h⟩

theorem newHandlerRequest_eq : newHandlerRequest m.tick = (.ok (requestFor m), opened m) := by
  change (Except.ok (HandlerRequest.mk m.vaults.length (m.vaults ++ [∅]).length), _) = _
  rw [List.length_append]
  rfl

theorem callProc_of_ok {χ α : Type} {c : χ} {x : Proc α} {b : α} {m' : Mem} (h : x m = (.ok b, m')) :
    (callProc x : Tx (Mem × χ) Fault α) (m, c) = (.ok b, (m', c)) := by
  unfold callProc Tx.onFst
  rw [Tx.mapError_of_ok h]

theorem ends_callProc_bind {χ α β : Type} {c : χ} {x : Proc α} {f : α → Tx (Mem × χ) Fault β}
    {P : Except Err α → Mem → Prop}
    {R : Except Fault β → Mem × χ → Prop} (hx : x.Ends m P) (hok : ∀ a m', P (.ok a) m' → (f a).Ends (m', c) R)
    (herr : ∀ e m', P (.error e) m' → R (.error (.error e)) (m', c)) : (callProc x >>= f).Ends (m, c) R := by
  have hcall : (callProc x : Tx (Mem × χ) Fault α).Ends (m, c) fun r s =>
      s.2 = c ∧ ((∃ a, r = .ok a ∧ P (.ok a) s.1) ∨ ∃ e, r = .error (.error e) ∧ P (.error e) s.1) :=
    (hx.mapError (Q := fun r m' => (∃ a, r = .ok a ∧ P (.ok a) m') ∨ ∃ e, r = .error (.error e) ∧ P (.error e) m')
      (fun a _ h => .inl ⟨a, rfl, h⟩) fun e _ h => .inr ⟨e, rfl, h⟩).onFst fun _ _ h => ⟨rfl, h⟩
  refine Tx.Ends.bind hcall ?_ ?_
  · rintro a ⟨m', _⟩ ⟨rfl, ⟨_, ⟨⟩, h⟩ | ⟨_, h, -⟩⟩
    · exact hok a m' h
    · cases h
  · rintro f ⟨m', _⟩ ⟨rfl, ⟨_, h, -⟩ | ⟨e, ⟨⟩, h⟩⟩
    · cases h
    · exact herr e m' h

end

end Krypton.SecureMem
