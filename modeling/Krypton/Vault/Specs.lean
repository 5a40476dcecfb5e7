import Krypton.Admin
import Krypton.Vault.OpenBao

/-!
# Provider specs in the root vault

The root manager keeps the provider of a root key as a document in its vault, in the slot of the key's version zero
(`importSpec`, `exportSpec`, `destroySpec` of `rootmanager.go`); the key material of the same vault has other versions.
Requests to the vault can fail, with or without effect, and so can what a transaction does before and after them.

Operations interleave at their requests to the vault. All have one, except for `RotateAuth`: it loads the spec and
stores it again, and in between other operations may change what is stored. A rotation that has loaded is part of the
state (`SpecState.rotating`).

How a document is written and read is a parameter (`Texts`), with the hypothesis that what was written for a new
provider is read back (`Texts.Keeps`).

* `specs_traced` — what one event leaves in the slot of a key and in the rotations;
* `provider_last_created` — what is loaded to seal with is the provider that was last created, up to changes that a
  rotation overlapped.
-/

namespace Krypton

open Lib

/-! ## The root manager and its vault -/

/-- `yaml.Marshal` and `yaml.Unmarshal` of a spec. -/
structure Texts where
  marshal : SealerSpec → Except String Bytes
  unmarshal : Bytes → Except String SealerSpec

/-- What is written for the spec is read as the spec. -/
def Texts.Keeps (T : Texts) (spec : SealerSpec) : Prop := ∀ b, T.marshal spec = .ok b → T.unmarshal b = .ok spec

/-- The requests leave the version and the revision zero. -/
def specSlot (tenantID keyID : String) : VaultSlot := ⟨tenantID, keyID, 0, 0⟩

theorem specSlot_inj {t k t' k' : String} : specSlot t k = specSlot t' k' ↔ t = t' ∧ k = k' := by
  simp [specSlot]

/-- A rotation that has loaded the spec, with the auth that it is about to store. -/
structure Rotation where
  tenantID : String
  keyID : String
  spec : SealerSpec
  deriving DecidableEq, Repr

/-- The root vault and the rotations under way. -/
structure SpecState (V : VaultImpl) where
  vault : V.State
  rotating : List Rotation

/-- What the root asks of its vault. -/
inductive SpecOp where
  | createProvider (req : CreateProviderRequest)
  /-- `RotateAuth` up to its export. -/
  | loadAuth (tenantID keyID : String) (auth : ProviderChoice Unit)
  /-- The rest of a `RotateAuth`, given by its place among those under way. -/
  | storeAuth (i : Nat)
  | removeProvider (tenantID keyID : String)
  /-- The part of sealing, unsealing and of rotating the provider's key. -/
  | loadSpec (tenantID keyID : String)
  /-- Key material, and the tenants of the vault. -/
  | other (op : VaultOp)

/-- The faults of one operation's requests. -/
abbrev Faults : Type := Nat → Option RequestFault

structure SpecEvent where
  op : SpecOp
  /-- What fails before the vault is asked: a check of the request, of the tenant or of the key, or memory. -/
  before : Option Err
  faults : Faults
  /-- What fails in the transaction after the vault has answered. -/
  after : Option Err
  now : Int

section Manager

variable (V : VaultImpl) (T : Texts)

def VaultImpl.importSpec (tenantID keyID : String) (spec : SealerSpec) (ev : SpecEvent) (s : V.State) :
    Except Err Unit × V.State :=
  match T.marshal spec with
  | .error text => (.error (.plain text), s)
  | .ok b =>
    if b = [] then (.error SecureMem.errInvalidSize, s)
    else
      let (r, s) := V.exec s ⟨.importKey (specSlot tenantID keyID) (some b) [], ev.faults, ev.now⟩
      (r.map fun _ => (), s)

def VaultImpl.exportSpec (tenantID keyID : String) (ev : SpecEvent) (s : V.State) :
    Except Err SealerSpec × V.State :=
  let (r, s) := V.exec s ⟨.exportKey (specSlot tenantID keyID), ev.faults, ev.now⟩
  match r with
  | .error e => (.error e, s)
  | .ok (.exported entry) => ((T.unmarshal entry.material).mapError .plain, s)
  | .ok .done => (.error (.plain "no key material"), s)

def VaultImpl.destroySpec (tenantID keyID : String) (ev : SpecEvent) (s : V.State) : Except Err Unit × V.State :=
  let (r, s) := V.exec s ⟨.destroyKey (specSlot tenantID keyID), ev.faults, ev.now⟩
  (r.map fun _ => (), s)

/-- The request of an operation, unless the operation ends before. -/
def VaultImpl.request {α : Type} (st : SpecState V) (ev : SpecEvent) (f : V.State → Except Err α × V.State) :
    Except Err α × SpecState V :=
  match ev.before with
  | some e => (.error e, st)
  | none => ((f st.vault).1, { st with vault := (f st.vault).2 })

/-- The end of the transaction. -/
def SpecEvent.finish {V : VaultImpl} {α : Type} (ev : SpecEvent) (p : Except Err α × SpecState V) :
    Except Err Unit × SpecState V :=
  (p.1 >>= fun _ => ev.after.elim (.ok ()) .error, p.2)

def VaultImpl.execSpec (st : SpecState V) (ev : SpecEvent) : Except Err Unit × SpecState V :=
  match ev.op with
  | .createProvider req =>
    match req.spec with
    | .error e => (.error e, st)
    | .ok (spec, _) => ev.finish (V.request st ev (V.importSpec T req.tenantID req.keyID spec ev))
  | .loadAuth tenantID keyID auth =>
    match providerAuth auth with
    | .error e => (.error e, st)
    | .ok (type, auth) =>
      match V.request st ev (V.exportSpec T tenantID keyID ev) with
      | (.error e, st) => (.error e, st)
      | (.ok spec, st) =>
        if spec.type ≠ type then (.error (.of .providerTypeMismatch), st)
        else (.ok (), { st with rotating := st.rotating ++ [⟨tenantID, keyID, { spec with auth := some auth }⟩] })
  | .storeAuth i =>
    match st.rotating[i]? with
    | none => (.ok (), st)
    | some rot => ev.finish (V.request { st with rotating := st.rotating.eraseIdx i } ev
        (V.importSpec T rot.tenantID rot.keyID rot.spec ev))
  | .removeProvider tenantID keyID => ev.finish (V.request st ev (V.destroySpec tenantID keyID ev))
  | .loadSpec tenantID keyID => ev.finish (V.request st ev (V.exportSpec T tenantID keyID ev))
  | .other op => ev.finish (V.request st ev fun s => V.exec s ⟨op, ev.faults, ev.now⟩)

def VaultImpl.stepSpec (st : SpecState V) (ev : SpecEvent) : SpecState V := (V.execSpec T st ev).2

def VaultImpl.initSpec : SpecState V := ⟨V.init, []⟩

end Manager

/-! ## What is asked of a run -/

/-- The tenant of the slot that is written or read. -/
def SpecOp.tenantID : SpecOp → String
  | .createProvider req => req.tenantID
  | .loadAuth t _ _ | .removeProvider t _ | .loadSpec t _ => t
  | .storeAuth _ => ""
  | .other op => op.tenantID

/-- Tenants are path segments, the text of a new spec can be read, and other operations leave the specs' slots and their
tenants alone. -/
def SpecEvent.Allowed (T : Texts) (ev : SpecEvent) : Prop :=
  OneSegment ev.op.tenantID ∧
    match ev.op with
    | .createProvider req => ∀ spec id, req.spec = .ok (spec, id) → T.Keeps spec
    | .other (.importKey slot _ _) | .other (.destroyKey slot) => slot.version ≠ 0
    | .other (.destroyTenant _) => False
    | .other _ | .loadAuth _ _ _ | .storeAuth _ | .removeProvider _ _ | .loadSpec _ _ => True

/-- The event makes the spec the key's provider, or leaves the key without one. -/
def SpecOp.Makes (tenantID keyID : String) : Option SealerSpec → SpecOp → Prop
  | some spec, op => ∃ req id, op = .createProvider req ∧ req.tenantID = tenantID ∧ req.keyID = keyID ∧
      req.spec = .ok (spec, id)
  | none, op => op = .removeProvider tenantID keyID

/-- A change of a key's provider that is reported as done, while no rotation of the key's auth is under way. -/
def VaultImpl.ChangesSpec (V : VaultImpl) (T : Texts) (tenantID keyID : String) (st : SpecState V) (ev : SpecEvent) :
    Prop :=
  (∃ spec, ev.op.Makes tenantID keyID spec) ∧ (V.execSpec T st ev).1.isOk = true ∧
    ∀ rot ∈ st.rotating, ¬ (rot.tenantID = tenantID ∧ rot.keyID = keyID)

/-! ## One request -/

section Requests

variable {V : VaultImpl} {T : Texts} {Inv : V.State → Prop} {entries : V.State → VaultMap} {s : V.State}
  {tenantID keyID t k : String} {ev : SpecEvent} {spec : SealerSpec}

/-- The entry is the text of a spec. -/
structure Texts.Text (T : Texts) (spec : SealerSpec) (entry : VaultEntry) : Prop where
  written : T.marshal spec = .ok entry.material
  read : T.unmarshal entry.material = .ok spec

/-- What an import leaves in the slot of a key: its text, or what was there. -/
theorem VaultImpl.Refines.importSpec (hV : V.Refines Inv entries) (hI : Inv s) (ht : OneSegment tenantID)
    (hkeeps : T.Keeps spec) (keyID : String) (ev : SpecEvent) (ht' : OneSegment t) (k : String) :
    (t = tenantID ∧ k = keyID ∧
        ∃ entry, entries (V.importSpec T tenantID keyID spec ev s).2 (specSlot t k) = some entry ∧ T.Text spec entry) ∨
      (entries (V.importSpec T tenantID keyID spec ev s).2 (specSlot t k) = entries s (specSlot t k) ∧
        (t = tenantID → k = keyID → (V.importSpec T tenantID keyID spec ev s).1.isOk = false)) := by
  unfold VaultImpl.importSpec
  cases hb : T.marshal spec with
  | error text => exact .inr ⟨rfl, fun _ _ => rfl⟩
  | ok b =>
    dsimp only
    split
    · exact .inr ⟨rfl, fun _ _ => rfl⟩
    · rcases hV.writes s ⟨.importKey (specSlot tenantID keyID) (some b) [], ev.faults,
        ev.now⟩ hI ht (specSlot t k) ht' with hnew | ⟨hfail, hold⟩
      · rw [VaultOp.apply, VaultOp.writes] at hnew
        split at hnew
        · rename_i hslot
          obtain ⟨rfl, rfl⟩ := specSlot_inj.1 hslot
          exact .inl ⟨rfl, rfl, ⟨b, []⟩, hnew, hb, hkeeps b hb⟩
        · rename_i hslot
          refine .inr ⟨hnew, fun ht hk => absurd ?_ hslot⟩
          rw [ht, hk]
      · refine .inr ⟨hold, fun _ _ => ?_⟩
        unfold VaultImpl.Acked at hfail
        cases hr : (V.exec s ⟨.importKey (specSlot tenantID keyID) (some b) [], ev.faults, ev.now⟩).1 with
        | error e => rfl
        | ok reply => exact absurd (by rw [hr]; rfl) hfail

theorem VaultImpl.Refines.inv_importSpec (hV : V.Refines Inv entries) (hI : Inv s) (ht : OneSegment tenantID) :
    Inv (V.importSpec T tenantID keyID spec ev s).2 := by
  unfold VaultImpl.importSpec
  cases T.marshal spec with
  | error text => exact hI
  | ok b =>
    dsimp only
    split
    · exact hI
    · exact hV.keeps s _ hI ht

/-- What a removal leaves. -/
theorem VaultImpl.Refines.destroySpec (hV : V.Refines Inv entries) (hI : Inv s) (ht : OneSegment tenantID)
    (keyID : String) (ev : SpecEvent) (ht' : OneSegment t) (k : String) :
    (t = tenantID ∧ k = keyID ∧ entries (V.destroySpec tenantID keyID ev s).2 (specSlot t k) = none) ∨
      (entries (V.destroySpec tenantID keyID ev s).2 (specSlot t k) = entries s (specSlot t k) ∧
        (t = tenantID → k = keyID → (V.destroySpec tenantID keyID ev s).1.isOk = false)) := by
  unfold VaultImpl.destroySpec
  dsimp only
  rcases hV.writes s ⟨.destroyKey (specSlot tenantID keyID), ev.faults, ev.now⟩ hI ht (specSlot t k) ht' with
    hnew | ⟨hfail, hold⟩
  · rw [VaultOp.apply, VaultOp.writes] at hnew
    split at hnew
    · rename_i hslot
      obtain ⟨rfl, rfl⟩ := specSlot_inj.1 hslot
      exact .inl ⟨rfl, rfl, hnew⟩
    · rename_i hslot
      refine .inr ⟨hnew, fun ht hk => absurd ?_ hslot⟩
      rw [ht, hk]
  · refine .inr ⟨hold, fun _ _ => ?_⟩
    unfold VaultImpl.Acked at hfail
    cases hr : (V.exec s ⟨.destroyKey (specSlot tenantID keyID), ev.faults, ev.now⟩).1 with
    | error e => rfl
    | ok reply => exact absurd (by rw [hr]; rfl) hfail

/-- An operation that writes no slot of a spec leaves them. -/
theorem VaultImpl.Refines.entries_exec (hV : V.Refines Inv entries) (hI : Inv s) (op : VaultOp)
    (ht : OneSegment op.tenantID) (ht' : OneSegment t) (hwrites : op.writes (specSlot t k) = none) :
    entries (V.exec s ⟨op, ev.faults, ev.now⟩).2 (specSlot t k) = entries s (specSlot t k) := by
  rcases hV.writes s ⟨op, ev.faults, ev.now⟩ hI ht (specSlot t k) ht' with h | h
  · rw [VaultOp.apply, hwrites] at h
    exact h
  · exact h.2

theorem exportSpec_state : (V.exportSpec T tenantID keyID ev s).2 =
    (V.exec s ⟨.exportKey (specSlot tenantID keyID), ev.faults, ev.now⟩).2 := by
  unfold VaultImpl.exportSpec
  dsimp only
  split <;> rfl

/-- What an export answers when the slot holds nothing or a text: that, or the error of the vault. -/
theorem VaultImpl.Refines.exportSpec_cases (hV : V.Refines Inv entries) (hI : Inv s) (ht : OneSegment tenantID)
    (keyID : String) (ev : SpecEvent)
    (hheld : ∀ entry, entries s (specSlot tenantID keyID) = some entry → ∃ spec, T.Text spec entry) :
    (∃ spec entry, (V.exportSpec T tenantID keyID ev s).1 = .ok spec ∧
        entries s (specSlot tenantID keyID) = some entry ∧ T.Text spec entry) ∨
      ∃ e, (V.exportSpec T tenantID keyID ev s).1 = .error e ∧
        (V.exec s ⟨.exportKey (specSlot tenantID keyID), ev.faults, ev.now⟩).1 = .error e ∧
        (e.is .vaultKeyNotFound = true → entries s (specSlot tenantID keyID) = none) := by
  have herror : ∀ e, (V.exec s ⟨.exportKey (specSlot tenantID keyID), ev.faults, ev.now⟩).1 = .error e →
      (V.exportSpec T tenantID keyID ev s).1 = .error e := by
    intro e he
    unfold VaultImpl.exportSpec
    dsimp only
    rw [he]
  rcases hV.replies s ⟨.exportKey (specSlot tenantID keyID), ev.faults, ev.now⟩ hI ht with hreply | ⟨e, he, hother⟩
  · rw [VaultOp.reply] at hreply
    cases hslot : entries s (specSlot tenantID keyID) with
    | none =>
      rw [hslot] at hreply
      exact .inr ⟨_, herror _ hreply, hreply, fun _ => rfl⟩
    | some entry =>
      rw [hslot] at hreply
      obtain ⟨spec, htext⟩ := hheld entry hslot
      refine .inl ⟨spec, entry, ?_, rfl, htext⟩
      unfold VaultImpl.exportSpec
      dsimp only
      rw [hreply]
      dsimp only
      rw [htext.read]
      rfl
  · refine .inr ⟨e, herror e he, he, fun hnotFound => ?_⟩
    rw [hother] at hnotFound
    cases hnotFound

/-! ## One event -/

/-- A spec of the admin service. -/
def Created (T : Texts) (spec : SealerSpec) : Prop :=
  (∃ (req : CreateProviderRequest) (id : String), req.spec = .ok (spec, id)) ∧ T.Keeps spec

/-- There is one kind of auth, and such a spec has it. -/
theorem Created.auth (h : Created T spec) (auth : SealerAuth) : { spec with auth := some auth } = spec := by
  obtain ⟨⟨req, id, hreq⟩, -⟩ := h
  unfold CreateProviderRequest.spec at hreq
  obtain ⟨-, hreq⟩ := bind_unit_eq_ok.1 hreq
  obtain ⟨_, -, hreq⟩ := bind_eq_ok.1 hreq
  obtain ⟨_, -, hreq⟩ := bind_eq_ok.1 hreq
  obtain ⟨_, -, hreq⟩ := bind_eq_ok.1 hreq
  obtain ⟨-, hreq⟩ := bind_unit_eq_ok.1 hreq
  cases hreq
  rfl

/-- The specs are those of the admin service: the stored ones, and those that rotations are about to store again. -/
structure SpecsHeld (T : Texts) (Inv : V.State → Prop) (entries : V.State → VaultMap) (st : SpecState V) : Prop where
  inv : Inv st.vault
  stored : ∀ t k, OneSegment t → ∀ entry, entries st.vault (specSlot t k) = some entry →
    ∃ spec, Created T spec ∧ T.Text spec entry
  rotating : ∀ rot ∈ st.rotating, OneSegment rot.tenantID ∧ Created T rot.spec

/-- What is in circulation for a key: what is stored, and what a rotation may store. -/
def Circulates (T : Texts) (entries : V.State → VaultMap) (tenantID keyID : String) (st : SpecState V) :
    Option SealerSpec → Prop
  | none => entries st.vault (specSlot tenantID keyID) = none
  | some spec => (∃ entry, entries st.vault (specSlot tenantID keyID) = some entry ∧ T.Text spec entry) ∨
      ⟨tenantID, keyID, spec⟩ ∈ st.rotating

/-- An event leaves what it says: everything in circulation after it was made by it, or was there and the event is not
a change that was done. -/
structure Traced (T : Texts) (Inv : V.State → Prop) (entries : V.State → VaultMap) (st : SpecState V) (op : SpecOp)
    (p : Except Err Unit × SpecState V) : Prop where
  held : SpecsHeld T Inv entries p.2
  traced : ∀ t k, OneSegment t → ∀ v, Circulates T entries t k p.2 v →
    op.Makes t k v ∨ (Circulates T entries t k st v ∧
      ((∃ spec, op.Makes t k spec) → p.1.isOk = true → ∃ rot ∈ st.rotating, rot.tenantID = t ∧ rot.keyID = k))

variable {st st' : SpecState V} {op : SpecOp} {r : Except Err Unit}

/-- What is in circulation depends on the slot and the rotations. -/
theorem Circulates.congr {v : Option SealerSpec} (h : Circulates T entries t k st' v)
    (hslot : entries st'.vault (specSlot t k) = entries st.vault (specSlot t k))
    (hrotating : ∀ spec, ⟨t, k, spec⟩ ∈ st'.rotating → Circulates T entries t k st (some spec)) :
    Circulates T entries t k st v := by
  cases v with
  | none => exact hslot.symm.trans h
  | some spec =>
    rcases h with ⟨entry, hentry, htext⟩ | hrot
    · exact .inl ⟨entry, hslot.symm.trans hentry, htext⟩
    · exact hrotating spec hrot

/-- A failure that leaves everything. -/
theorem traced_error (h : SpecsHeld T Inv entries st) (e : Err) : Traced T Inv entries st op (.error e, st) :=
  ⟨h, fun _ _ _ _ hv => .inr ⟨hv, fun _ hok => by cases hok⟩⟩

/-- An event that changes no slot and no rotation. -/
theorem traced_same (h : SpecsHeld T Inv entries st) (hmakes : ∀ t k v, ¬ op.Makes t k v) {s : V.State} (hI : Inv s)
    (hsame : ∀ t k, OneSegment t → entries s (specSlot t k) = entries st.vault (specSlot t k)) :
    Traced T Inv entries st op (r, { st with vault := s }) := by
  refine ⟨⟨hI, fun t k ht entry hentry => h.stored t k ht entry ((hsame t k ht).symm.trans hentry), h.rotating⟩, ?_⟩
  intro t k ht v hv
  refine .inr ⟨hv.congr (hsame t k ht) fun spec hrot => .inr hrot, ?_⟩
  rintro ⟨spec, hspec⟩
  exact absurd hspec (hmakes t k spec)

/-- The answer of an event is that of its request, or an error. -/
theorem finish_isOk {α : Type} {p : Except Err α × SpecState V} (h : (ev.finish p).1.isOk = true) :
    p.1.isOk = true := by
  obtain ⟨r, st⟩ := p
  cases r with
  | error e => cases h
  | ok a => rfl

variable (hV : V.Refines Inv entries) (h : SpecsHeld T Inv entries st)
include hV h

/-- What a create leaves. -/
theorem traced_createProvider {req : CreateProviderRequest} {id : String} (ht : OneSegment req.tenantID)
    (hspec : req.spec = .ok (spec, id)) (hkeeps : T.Keeps spec) :
    Traced T Inv entries st (.createProvider req)
      (ev.finish (V.request st ev (V.importSpec T req.tenantID req.keyID spec ev))) := by
  unfold VaultImpl.request
  cases hbefore : ev.before with
  | some e => exact traced_error h e
  | none =>
    have hcreated : Created T spec := ⟨⟨req, id, hspec⟩, hkeeps⟩
    refine ⟨⟨hV.inv_importSpec h.inv ht, fun t k ht' entry hentry => ?_, h.rotating⟩, fun t k ht' v hv => ?_⟩
    · rcases hV.importSpec h.inv ht hkeeps req.keyID ev ht' k with ⟨-, -, new, hnew, htext⟩ | ⟨hsame, -⟩
      · cases hnew.symm.trans hentry
        exact ⟨spec, hcreated, htext⟩
      · exact h.stored t k ht' entry (hsame.symm.trans hentry)
    · rcases hV.importSpec h.inv ht hkeeps req.keyID ev ht' k with ⟨rfl, rfl, new, hnew, htext⟩ | ⟨hsame, hfail⟩
      · -- the slot holds the new spec, whatever else is in circulation is with a rotation
        cases v with
        | none => cases hnew.symm.trans hv
        | some spec' =>
          rcases hv with ⟨entry, hentry, htext'⟩ | hrot
          · cases hnew.symm.trans hentry
            cases htext'.read.symm.trans htext.read
            exact .inl ⟨req, id, rfl, rfl, rfl, hspec⟩
          · exact .inr ⟨.inr hrot, fun _ _ => ⟨_, hrot, rfl, rfl⟩⟩
      · refine .inr ⟨hv.congr hsame fun spec hrot => .inr hrot, ?_⟩
        rintro ⟨spec', hmakes⟩ hok
        have hok := finish_isOk hok
        have hkey : t = req.tenantID ∧ k = req.keyID := by
          cases spec' with
          | none => cases hmakes
          | some spec' =>
            obtain ⟨_, _, heq, rfl, rfl, -⟩ := hmakes
            cases heq
            exact ⟨rfl, rfl⟩
        rw [show (V.importSpec T req.tenantID req.keyID spec ev st.vault).1.isOk = false from
          hfail hkey.1 hkey.2] at hok
        cases hok

/-- What a removal leaves. -/
theorem traced_removeProvider (ht : OneSegment tenantID) :
    Traced T Inv entries st (.removeProvider tenantID keyID)
      (ev.finish (V.request st ev (V.destroySpec tenantID keyID ev))) := by
  unfold VaultImpl.request
  cases hbefore : ev.before with
  | some e => exact traced_error h e
  | none =>
    refine ⟨⟨hV.keeps _ _ h.inv ht, fun t k ht' entry hentry => ?_, h.rotating⟩, fun t k ht' v hv => ?_⟩
    · rcases hV.destroySpec h.inv ht keyID ev ht' k with ⟨-, -, hnone⟩ | ⟨hsame, -⟩
      · cases hnone.symm.trans hentry
      · exact h.stored t k ht' entry (hsame.symm.trans hentry)
    · rcases hV.destroySpec h.inv ht keyID ev ht' k with ⟨rfl, rfl, hnone⟩ | ⟨hsame, hfail⟩
      · cases v with
        | none => exact .inl rfl
        | some spec =>
          rcases hv with ⟨entry, hentry, -⟩ | hrot
          · cases hnone.symm.trans hentry
          · exact .inr ⟨.inr hrot, fun _ _ => ⟨_, hrot, rfl, rfl⟩⟩
      · refine .inr ⟨hv.congr hsame fun spec hrot => .inr hrot, ?_⟩
        rintro ⟨spec, hmakes⟩ hok
        have hok := finish_isOk hok
        have hkey : t = tenantID ∧ k = keyID := by
          cases spec with
          | none =>
            cases hmakes
            exact ⟨rfl, rfl⟩
          | some spec =>
            obtain ⟨_, _, heq, -⟩ := hmakes
            cases heq
        rw [show (V.destroySpec tenantID keyID ev st.vault).1.isOk = false from hfail hkey.1 hkey.2] at hok
        cases hok

/-- The second half of a rotation stores what the first one found. -/
theorem traced_storeAuth {i : Nat} {rot : Rotation} (hrot : st.rotating[i]? = some rot) :
    Traced T Inv entries st (.storeAuth i) (ev.finish (V.request { st with rotating := st.rotating.eraseIdx i } ev
      (V.importSpec T rot.tenantID rot.keyID rot.spec ev))) := by
  have hmakes : ∀ t k v, ¬ (SpecOp.storeAuth i).Makes t k v := by
    rintro t k (_ | spec) hm
    · cases hm
    · obtain ⟨_, _, heq, -⟩ := hm
      cases heq
  have hmem := List.mem_of_getElem? hrot
  obtain ⟨ht, hcreated⟩ := h.rotating rot hmem
  have hothers : ∀ rot' ∈ st.rotating.eraseIdx i, rot' ∈ st.rotating := fun rot' => List.mem_of_mem_eraseIdx
  unfold VaultImpl.request
  cases hbefore : ev.before with
  | some e =>
    refine ⟨⟨h.inv, h.stored, fun rot' hrot' => h.rotating rot' (hothers rot' hrot')⟩, fun t k ht' v hv => ?_⟩
    exact .inr ⟨hv.congr rfl fun spec hspec => .inr (hothers _ hspec), fun hm => absurd hm.choose_spec (hmakes t k _)⟩
  | none =>
    refine ⟨⟨hV.inv_importSpec h.inv ht, fun t k ht' entry hentry => ?_,
      fun rot' hrot' => h.rotating rot' (hothers rot' hrot')⟩, fun t k ht' v hv => ?_⟩
    · rcases hV.importSpec h.inv ht hcreated.2 rot.keyID ev ht' k with ⟨-, -, new, hnew, htext⟩ | ⟨hsame, -⟩
      · cases hnew.symm.trans hentry
        exact ⟨rot.spec, hcreated, htext⟩
      · exact h.stored t k ht' entry (hsame.symm.trans hentry)
    · refine .inr ⟨?_, fun hm => absurd hm.choose_spec (hmakes t k _)⟩
      rcases hV.importSpec h.inv ht hcreated.2 rot.keyID ev ht' k with ⟨rfl, rfl, new, hnew, htext⟩ | ⟨hsame, -⟩
      · cases v with
        | none => cases hnew.symm.trans hv
        | some spec =>
          right
          rcases hv with ⟨entry, hentry, htext'⟩ | hspec
          · cases hnew.symm.trans hentry
            cases htext'.read.symm.trans htext.read
            exact hmem
          · exact hothers _ hspec
      · exact hv.congr hsame fun spec hspec => .inr (hothers _ hspec)

/-- An export leaves every slot as it was. -/
theorem entries_exportSpec (ht : OneSegment tenantID) (keyID : String) (ev : SpecEvent) :
    Inv (V.exportSpec T tenantID keyID ev st.vault).2 ∧ ∀ t k, OneSegment t →
      entries (V.exportSpec T tenantID keyID ev st.vault).2 (specSlot t k) = entries st.vault (specSlot t k) := by
  rw [exportSpec_state]
  exact ⟨hV.keeps st.vault ⟨.exportKey (specSlot tenantID keyID), ev.faults, ev.now⟩ h.inv ht,
    fun t k ht' => hV.entries_exec h.inv (.exportKey (specSlot tenantID keyID)) ht ht' rfl⟩

/-- The first half of a rotation: it takes what is stored. -/
theorem traced_loadAuth {type : SealerType} {auth : SealerAuth} {choice : ProviderChoice Unit}
    (ht : OneSegment tenantID) :
    Traced T Inv entries st (.loadAuth tenantID keyID choice)
      (match V.request st ev (V.exportSpec T tenantID keyID ev) with
      | (.error e, st) => (.error e, st)
      | (.ok spec, st) =>
        if spec.type ≠ type then (.error (.of .providerTypeMismatch), st)
        else (.ok (), { st with rotating := st.rotating ++
          [⟨tenantID, keyID, { spec with auth := some auth }⟩] })) := by
  have hmakes : ∀ t k v, ¬ (SpecOp.loadAuth tenantID keyID choice).Makes t k v := by
    rintro t k (_ | spec) hm
    · cases hm
    · obtain ⟨_, _, heq, -⟩ := hm
      cases heq
  unfold VaultImpl.request
  cases hbefore : ev.before with
  | some e => exact traced_error h e
  | none =>
    obtain ⟨hI, hsame⟩ := entries_exportSpec hV h ht keyID ev
    have hcases := hV.exportSpec_cases h.inv ht keyID ev fun entry hentry =>
      (h.stored tenantID keyID ht entry hentry).imp fun _ hspec => hspec.2
    generalize V.exportSpec T tenantID keyID ev st.vault = p at hI hsame hcases
    obtain ⟨r, s⟩ := p
    have hleft : ∀ r, Traced T Inv entries st (.loadAuth tenantID keyID choice) (r, { st with vault := s }) :=
      fun r => traced_same h hmakes hI hsame
    rcases hcases with ⟨spec, entry, rfl, hentry, htext⟩ | ⟨e, rfl, -⟩
    · dsimp only
      split
      · exact hleft _
      · obtain ⟨spec', hcreated, htext'⟩ := h.stored tenantID keyID ht entry hentry
        cases htext'.read.symm.trans htext.read
        rw [hcreated.auth]
        have hrotating : ∀ rot ∈ st.rotating ++ [⟨tenantID, keyID, spec⟩],
            rot ∈ st.rotating ∨ rot = ⟨tenantID, keyID, spec⟩ := by
          intro rot hrot
          simpa using hrot
        refine ⟨⟨hI, fun t k ht' entry hentry => h.stored t k ht' entry ((hsame t k ht').symm.trans hentry),
          fun rot hrot => ?_⟩, fun t k ht' v hv => ?_⟩
        · rcases hrotating rot hrot with hold | rfl
          · exact h.rotating rot hold
          · exact ⟨ht, hcreated⟩
        · refine .inr ⟨hv.congr (hsame t k ht') fun spec' hrot => ?_, fun hm => absurd hm.choose_spec (hmakes t k _)⟩
          rcases hrotating _ hrot with hold | hnew
          · exact .inr hold
          · cases hnew
            exact .inl ⟨entry, hentry, htext⟩
    · exact hleft _

/-- **One event.** -/
theorem specs_traced (hev : ev.Allowed T) : Traced T Inv entries st ev.op (V.execSpec T st ev) := by
  obtain ⟨ht, hop⟩ := hev
  unfold VaultImpl.execSpec
  cases hcase : ev.op with
  | createProvider req =>
    rw [hcase] at ht hop
    dsimp only
    cases hspec : req.spec with
    | error e => exact traced_error h e
    | ok p =>
      obtain ⟨spec, id⟩ := p
      exact traced_createProvider hV h ht hspec (hop spec id hspec)
  | loadAuth tenantID keyID choice =>
    rw [hcase] at ht
    dsimp only
    cases hauth : providerAuth choice with
    | error e => exact traced_error h e
    | ok p => exact traced_loadAuth hV h ht
  | storeAuth i =>
    dsimp only
    cases hrot : st.rotating[i]? with
    | none => exact traced_same h (by rintro t k (_ | spec) hm <;> simp [SpecOp.Makes] at hm) h.inv fun _ _ _ => rfl
    | some rot => exact traced_storeAuth hV h hrot
  | removeProvider tenantID keyID =>
    rw [hcase] at ht
    exact traced_removeProvider hV h ht
  | loadSpec tenantID keyID =>
    rw [hcase] at ht
    obtain ⟨hI, hsame⟩ := entries_exportSpec hV h ht keyID ev
    unfold VaultImpl.request
    cases hbefore : ev.before with
    | some e => exact traced_error h e
    | none => exact traced_same h (by rintro t k (_ | spec) hm <;> simp [SpecOp.Makes] at hm) hI hsame
  | other op =>
    rw [hcase] at ht hop
    unfold VaultImpl.request
    cases hbefore : ev.before with
    | some e => exact traced_error h e
    | none =>
      refine traced_same h (by rintro t k (_ | spec) hm <;> simp [SpecOp.Makes] at hm) (hV.keeps _ _ h.inv ht)
        fun t k ht' => hV.entries_exec h.inv op ht ht' ?_
      -- the slots of key material have a version
      have hversion : ∀ slot : VaultSlot, slot.version ≠ 0 → slot ≠ specSlot t k :=
        fun slot hv heq => hv (congrArg VaultSlot.version heq)
      cases op with
      | importKey slot keyMaterial aad =>
        cases keyMaterial with
        | none => rfl
        | some m => exact if_neg (hversion slot hop)
      | destroyKey slot => exact if_neg (hversion slot hop)
      | destroyTenant t => exact hop.elim
      | prepareTenant t => rfl
      | exportKey slot => rfl

/-! ## Runs -/

omit h in
theorem specsHeld_init : SpecsHeld T Inv entries V.initSpec where
  inv := hV.init
  stored t k _ entry hentry := by
    rw [show entries V.initSpec.vault (specSlot t k) = none from hV.empty _] at hentry
    cases hentry
  rotating rot hrot := absurd hrot List.not_mem_nil

omit h in
theorem specsHeld_step (st : SpecState V) (ev : SpecEvent) (h : SpecsHeld T Inv entries st) (hev : ev.Allowed T) :
    SpecsHeld T Inv entries (V.stepSpec T st ev) :=
  (specs_traced hV h hev).held

omit h in
theorem specsHeld_run {evs : List SpecEvent} (hevs : ∀ ev ∈ evs, ev.Allowed T) :
    SpecsHeld T Inv entries (run (V.stepSpec T) V.initSpec evs) :=
  run_inv (specsHeld_step hV) (specsHeld_init hV) (along_of_forall hevs)

omit h in
/-- **Where a key's provider comes from.** -/
theorem VaultImpl.Refines.spec_origin {evs : List SpecEvent} (hevs : ∀ ev ∈ evs, ev.Allowed T)
    (ht : OneSegment tenantID) {v : Option SealerSpec}
    (hv : Circulates T entries tenantID keyID (run (V.stepSpec T) V.initSpec evs) v) :
    (v = none ∧ Along (V.stepSpec T) (fun st ev => ¬ V.ChangesSpec T tenantID keyID st ev) V.initSpec evs) ∨
      Since (V.stepSpec T) (fun _ ev => ev.op.Makes tenantID keyID v) (V.ChangesSpec T tenantID keyID)
        V.initSpec evs := by
  have htraced := run_traced (Circulates T entries tenantID keyID) (fun v _ ev => ev.op.Makes tenantID keyID v)
    (V.ChangesSpec T tenantID keyID) (specsHeld_step hV) ?_ (specsHeld_init hV) (along_of_forall hevs) hv
  · refine htraced.imp_left fun hstart => ⟨?_, hstart.2⟩
    -- at first there is nothing
    cases v with
    | none => rfl
    | some spec =>
      rcases hstart.1 with ⟨entry, hentry, -⟩ | hrot
      · cases (hV.empty _).symm.trans hentry
      · cases hrot
  · intro st ev hst hev v hv
    rcases (specs_traced hV hst hev).traced tenantID keyID ht v hv with hmade | ⟨hbefore, hnot⟩
    · exact .inl hmade
    · refine .inr ⟨hbefore, ?_⟩
      rintro ⟨hmakes, hok, hnone⟩
      obtain ⟨rot, hrot, hkey⟩ := hnot hmakes hok
      exact hnone rot hrot hkey

end Requests

/-! ## The two vaults -/

/-- **Sealing uses the provider that was created last.** Whatever fails in a run of provider operations over a root
vault that also holds key material, loading a key's provider gives the spec of a create of that key, since which no
create or removal for it was done, except while a rotation of its auth was between its two requests. When it fails the
vault failed, and when there is no provider it was removed or never created. -/
theorem provider_last_created (B : BaoServer) (secrets : B.State → String → String → Option KvData)
    (hB : B.Stores secrets) (loc : VaultLoc) (T : Texts) (evs : List SpecEvent) (ev : SpecEvent)
    (tenantID keyID : String) (hevs : ∀ ev ∈ evs, ev.Allowed T) (ht : OneSegment tenantID) :
    (∀ spec, ((loc.impl B).exportSpec T tenantID keyID ev
          (run ((loc.impl B).stepSpec T) (loc.impl B).initSpec evs).vault).1 = .ok spec →
      Since ((loc.impl B).stepSpec T) (fun _ ev => ∃ req id, ev.op = .createProvider req ∧ req.tenantID = tenantID ∧
          req.keyID = keyID ∧ req.spec = .ok (spec, id))
        ((loc.impl B).ChangesSpec T tenantID keyID) (loc.impl B).initSpec evs) ∧
    ∀ e, ((loc.impl B).exportSpec T tenantID keyID ev
          (run ((loc.impl B).stepSpec T) (loc.impl B).initSpec evs).vault).1 = .error e →
      ((loc.impl B).exec (run ((loc.impl B).stepSpec T) (loc.impl B).initSpec evs).vault
          ⟨.exportKey (specSlot tenantID keyID), ev.faults, ev.now⟩).1 = .error e ∧
        (e.is .vaultKeyNotFound = true →
          Along ((loc.impl B).stepSpec T) (fun st ev => ¬ (loc.impl B).ChangesSpec T tenantID keyID st ev)
              (loc.impl B).initSpec evs ∨
            Since ((loc.impl B).stepSpec T) (fun _ ev => ev.op = .removeProvider tenantID keyID)
              ((loc.impl B).ChangesSpec T tenantID keyID) (loc.impl B).initSpec evs) := by
  obtain ⟨Inv, entries, hV⟩ := loc.refines hB
  have hheld := specsHeld_run hV hevs
  have hcases := hV.exportSpec_cases hheld.inv ht keyID ev fun entry hentry =>
    (hheld.stored tenantID keyID ht entry hentry).imp fun _ hspec => hspec.2
  constructor
  · intro spec hspec
    rcases hcases with ⟨spec', entry, hexport, hentry, htext⟩ | ⟨e, herror, -⟩
    · cases hexport.symm.trans hspec
      rcases hV.spec_origin hevs ht (v := some spec) (.inl ⟨entry, hentry, htext⟩) with ⟨hnone, -⟩ | hsince
      · cases hnone
      · exact hsince
    · cases herror.symm.trans hspec
  · intro e he
    rcases hcases with ⟨spec', entry, hexport, -⟩ | ⟨e', herror, hvault, hnotFound⟩
    · cases hexport.symm.trans he
    · cases herror.symm.trans he
      refine ⟨hvault, fun hnot => ?_⟩
      exact (hV.spec_origin hevs ht (v := none) (hnotFound hnot)).imp_left And.right

/-- The length of the name, the name and the secret, for specs of the admin service. -/
def demoTexts : Texts where
  marshal
    | ⟨name, .staticSecret, some (.staticSecret ⟨.inline, some (.inline (some raw))⟩), some .staticSecret⟩ =>
      .ok (UInt8.ofNat name.length :: name.toList.map (fun c => UInt8.ofNat c.toNat) ++ raw)
    | _ => .error "yaml: cannot marshal type"
  unmarshal
    | [] => .error "yaml: unexpected end"
    | n :: text => .ok ⟨String.ofList ((text.take n.toNat).map fun b => Char.ofNat b.toNat), .staticSecret,
        some (.staticSecret ⟨.inline, some (.inline (some (text.drop n.toNat)))⟩), some .staticSecret⟩

def demoProviderRequest : CreateProviderRequest :=
  ⟨"11111111-1111-1111-1111-111111111111", "22222222-2222-2222-2222-222222222222", .staticSecret "v1", .staticSecret (),
    .staticSecret ("provider", [1, 2, 3])⟩

def demoProviderSpec : SealerSpec :=
  ⟨"provider", .staticSecret, some (.staticSecret ⟨.inline, some (.inline (some [1, 2, 3]))⟩), some .staticSecret⟩

/-- A create, a rotation whose second answer is lost, and key material of the same vault in between. -/
def demoSpecEvents : List SpecEvent :=
  [⟨.createProvider demoProviderRequest, none, fun _ => none, none, 1⟩,
    ⟨.loadAuth demoProviderRequest.tenantID demoProviderRequest.keyID (.staticSecret ()), none, fun _ => none, none, 2⟩,
    ⟨.other (.importKey demoSlot (some [7]) []), none, fun _ => none, none, 3⟩,
    ⟨.storeAuth 0, none, fun _ => some ⟨true, "connection reset by peer"⟩, none, 4⟩]

theorem demo_provider_last_created :
    Since (((VaultLoc.memory "root").impl demoBao).stepSpec demoTexts) (fun _ ev => ∃ req id,
        ev.op = .createProvider req ∧ req.tenantID = demoProviderRequest.tenantID ∧
          req.keyID = demoProviderRequest.keyID ∧ req.spec = .ok (demoProviderSpec, id))
      (((VaultLoc.memory "root").impl demoBao).ChangesSpec demoTexts demoProviderRequest.tenantID
        demoProviderRequest.keyID) ((VaultLoc.memory "root").impl demoBao).initSpec demoSpecEvents :=
  (provider_last_created demoBao (fun s => s) demoBao_stores (.memory "root") demoTexts demoSpecEvents
    ⟨.loadSpec demoProviderRequest.tenantID demoProviderRequest.keyID, none, fun _ => none, none, 5⟩
    demoProviderRequest.tenantID demoProviderRequest.keyID (by
      intro ev hev
      simp only [demoSpecEvents, List.mem_cons, List.not_mem_nil, or_false] at hev
      rcases hev with rfl | rfl | rfl | rfl
      · refine ⟨by decide +kernel, fun spec id hspec b hb => ?_⟩
        cases hspec
        cases hb
        rfl
      · exact ⟨by decide +kernel, trivial⟩
      · exact ⟨by decide +kernel, by decide⟩
      · exact ⟨by decide +kernel, trivial⟩) (by decide +kernel)).1 demoProviderSpec (by rfl)

/-- A removal between the two requests of a rotation does not last. -/
example : (((VaultLoc.memory "root").impl demoBao).exportSpec demoTexts demoProviderRequest.tenantID
      demoProviderRequest.keyID ⟨.loadSpec "" "", none, fun _ => none, none, 5⟩
      (run (((VaultLoc.memory "root").impl demoBao).stepSpec demoTexts) ((VaultLoc.memory "root").impl demoBao).initSpec
        [⟨.createProvider demoProviderRequest, none, fun _ => none, none, 1⟩,
          ⟨.loadAuth demoProviderRequest.tenantID demoProviderRequest.keyID (.staticSecret ()), none, fun _ => none,
            none, 2⟩,
          ⟨.removeProvider demoProviderRequest.tenantID demoProviderRequest.keyID, none, fun _ => none, none, 3⟩,
          ⟨.storeAuth 0, none, fun _ => none, none, 4⟩]).vault).1 = .ok demoProviderSpec := by
  rfl

end Krypton
