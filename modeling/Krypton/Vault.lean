import Krypton.Lib.Run
import Krypton.KeyProcessor.Manager

/-!
# Vaults

The interface of the vaults (`internal/vault/vault.go`) and what it is for: a vault keeps one entry per slot, a slot
being a version and revision of a key of a tenant. `VaultModel` is that map; an implementation is a state and an answer
to every operation (`VaultImpl`). The requests an implementation sends can fail, with or without having taken effect.

* `VaultImpl.Refines.exported` — with failing requests in between, an implementation of the map exports what was written
  by the last import of the slot;
* `VaultImpl.Refines.notFound` — and finds nothing only when the slot was emptied or never filled.
-/

namespace Krypton

open Lib

/-! ## Operations -/

/-- The place of an entry in one vault. -/
structure VaultSlot where
  tenantID : String
  keyID : String
  version : Nat
  revision : Nat
  deriving DecidableEq, Repr

def VaultKey.vaultSlot (k : VaultKey) : VaultSlot := ⟨k.tenantID, k.keyID, k.version, k.revision⟩

inductive VaultOp where
  | prepareTenant (tenantID : String)
  | importKey (slot : VaultSlot) (keyMaterial : Option Bytes) (aad : Bytes)
  | exportKey (slot : VaultSlot)
  | destroyKey (slot : VaultSlot)
  | destroyTenant (tenantID : String)
  deriving DecidableEq, Repr

def VaultOp.tenantID : VaultOp → String
  | .prepareTenant t | .destroyTenant t => t
  | .importKey slot _ _ | .exportKey slot | .destroyKey slot => slot.tenantID

inductive VaultReply where
  | done
  | exported (entry : VaultEntry)
  deriving DecidableEq, Repr

def errVaultKeyNotFound : Err := .of .vaultKeyNotFound

def errVaultInvalidRequest : Err := .plain "invalid request"

/-- A request that fails for a reason outside of what the store holds, before or after it took effect. -/
structure RequestFault where
  effect : Bool
  text : String

def RequestFault.err (f : RequestFault) : Err := .plain f.text

/-- An operation, the faults of the requests it sends in their order, and the time. -/
structure VaultEvent where
  op : VaultOp
  faults : Nat → Option RequestFault
  now : Int

/-! ## The map -/

abbrev VaultMap : Type := VaultSlot → Option VaultEntry

/-- What an operation leaves in a slot, `none` when it does not write it. -/
def VaultOp.writes (slot : VaultSlot) : VaultOp → Option (Option VaultEntry)
  | .importKey slot' (some keyMaterial) aad => if slot' = slot then some (some ⟨keyMaterial, aad⟩) else none
  | .destroyKey slot' => if slot' = slot then some none else none
  | .destroyTenant tenantID => if slot.tenantID = tenantID then some none else none
  | .prepareTenant _ | .importKey _ none _ | .exportKey _ => none

/-- Only an import leaves an entry. -/
theorem VaultOp.writes_eq_entry {slot : VaultSlot} {op : VaultOp} {entry : VaultEntry} :
    op.writes slot = some (some entry) ↔ op = .importKey slot (some entry.material) entry.aad := by
  constructor
  · intro h
    cases op with
    | importKey slot' keyMaterial aad =>
      cases keyMaterial with
      | none => cases h
      | some m =>
        simp only [writes, Option.ite_none_right_eq_some] at h
        obtain ⟨rfl, hentry⟩ := h
        cases hentry
        rfl
    | destroyKey slot' => simp [writes] at h
    | destroyTenant tenantID => simp [writes] at h
    | prepareTenant tenantID => cases h
    | exportKey slot' => cases h
  · rintro rfl
    simp [writes]

/-- What empties a slot. -/
theorem VaultOp.writes_eq_nothing {slot : VaultSlot} {op : VaultOp} :
    op.writes slot = some none ↔ op = .destroyKey slot ∨ op = .destroyTenant slot.tenantID := by
  cases op with
  | importKey slot' keyMaterial aad => cases keyMaterial <;> simp [writes]
  | destroyKey slot' => simp [writes]
  | destroyTenant tenantID => simp [writes, eq_comm]
  | prepareTenant tenantID => simp [writes]
  | exportKey slot' => simp [writes]

def VaultOp.apply (op : VaultOp) (entries : VaultMap) : VaultMap := fun slot => (op.writes slot).getD (entries slot)

def VaultOp.reply (entries : VaultMap) : VaultOp → Except Err VaultReply
  | .importKey _ none _ => .error errVaultInvalidRequest
  | .exportKey slot =>
    match entries slot with
    | none => .error errVaultKeyNotFound
    | some entry => .ok (.exported entry)
  | .prepareTenant _ | .importKey _ (some _) _ | .destroyKey _ | .destroyTenant _ => .ok .done

/-- A vault as its callers see it: its entries, and the tenants it was prepared for. -/
structure VaultModel where
  entries : VaultMap
  tenants : String → Bool

def VaultModel.empty : VaultModel := ⟨fun _ => none, fun _ => false⟩

def VaultModel.exec (v : VaultModel) (op : VaultOp) : Except Err VaultReply × VaultModel :=
  (op.reply v.entries,
    { entries := op.apply v.entries
      tenants := match op with
        | .prepareTenant t => Function.update v.tenants t true
        | .destroyTenant t => Function.update v.tenants t false
        | .importKey _ _ _ | .exportKey _ | .destroyKey _ => v.tenants })

/-- The tenant's name is one segment of a path. -/
def OneSegment (tenantID : String) : Prop := '/' ∉ tenantID.toList

instance (tenantID : String) : Decidable (OneSegment tenantID) := inferInstanceAs (Decidable (¬ _))

/-- What a caller has to see to: the tenant is one segment and prepared before anything is imported for it, and an entry
has names and material. -/
def VaultModel.Allows (v : VaultModel) (op : VaultOp) : Prop :=
  OneSegment op.tenantID ∧
    match op with
    | .importKey slot keyMaterial _ =>
      v.tenants slot.tenantID = true ∧ slot.tenantID ≠ "" ∧ slot.keyID ≠ "" ∧ keyMaterial ≠ some []
    | .prepareTenant _ | .exportKey _ | .destroyKey _ | .destroyTenant _ => True

instance (v : VaultModel) : ∀ op, Decidable (v.Allows op)
  | .importKey _ _ _ => inferInstanceAs (Decidable (_ ∧ _))
  | .prepareTenant _ | .exportKey _ | .destroyKey _ | .destroyTenant _ => inferInstanceAs (Decidable (_ ∧ _))

/-- The entries are those of the model, and all of them have material. -/
structure VaultModel.Held (v : VaultModel) (entries : VaultMap) : Prop where
  same : ∀ slot, OneSegment slot.tenantID → entries slot = v.entries slot
  material : ∀ slot entry, v.entries slot = some entry → entry.material ≠ []

/-- An operation that is answered by an error writes nothing. -/
theorem VaultOp.writes_of_reply_error {entries : VaultMap} {op : VaultOp} {slot : VaultSlot}
    (h : ¬ (op.reply entries).isOk = true) : op.writes slot = none := by
  cases op with
  | importKey slot' keyMaterial aad =>
    cases keyMaterial with
    | none => rfl
    | some m => exact absurd rfl h
  | exportKey slot' => rfl
  | prepareTenant tenantID => rfl
  | destroyKey slot' => exact absurd rfl h
  | destroyTenant tenantID => exact absurd rfl h

namespace VaultModel

variable {v : VaultModel} {entries : VaultMap} {op : VaultOp}

theorem Held.reply (h : v.Held entries) (hallows : v.Allows op) : op.reply entries = op.reply v.entries := by
  cases op with
  | exportKey slot => rw [VaultOp.reply, VaultOp.reply, h.same slot hallows.1]
  | importKey slot keyMaterial aad => cases keyMaterial <;> rfl
  | prepareTenant tenantID => rfl
  | destroyKey slot => rfl
  | destroyTenant tenantID => rfl

theorem Held.material_exec (h : v.Held entries) (hallows : v.Allows op) (slot : VaultSlot) (entry : VaultEntry)
    (hentry : (v.exec op).2.entries slot = some entry) : entry.material ≠ [] := by
  unfold exec VaultOp.apply at hentry
  dsimp only at hentry
  cases hw : op.writes slot with
  | none =>
    rw [hw] at hentry
    exact h.material slot entry hentry
  | some written =>
    rw [hw, Option.getD_some] at hentry
    rw [hentry, VaultOp.writes_eq_entry] at hw
    subst hw
    intro hempty
    exact hallows.2.2.2.2 (by rw [hempty])

end VaultModel

/-- An import into the vaults of a deployment is the map's import into the vault of its place. -/
theorem update_vault (vault : Vault) (k : VaultKey) (entry : VaultEntry) (slot : VaultSlot) :
    Function.update vault k (some entry) ⟨k.loc, slot.tenantID, slot.keyID, slot.version, slot.revision⟩ =
      (VaultOp.importKey k.vaultSlot (some entry.material) entry.aad).apply
        (fun slot => vault ⟨k.loc, slot.tenantID, slot.keyID, slot.version, slot.revision⟩) slot := by
  simp only [VaultOp.apply, VaultOp.writes]
  by_cases hslot : k.vaultSlot = slot
  · subst hslot
    rw [if_pos rfl]
    exact Function.update_self ..
  · rw [if_neg hslot]
    refine Function.update_of_ne ?_ _ _
    intro h
    exact hslot (by rw [← h]; rfl)

/-! ## Implementations -/

structure VaultImpl where
  State : Type
  init : State
  exec : State → VaultEvent → Except Err VaultReply × State

namespace VaultImpl

variable (V : VaultImpl)

def step (s : V.State) (ev : VaultEvent) : V.State := (V.exec s ev).2

def Acked (s : V.State) (ev : VaultEvent) : Prop := (V.exec s ev).1.isOk = true

instance (s : V.State) (ev : VaultEvent) : Decidable (V.Acked s ev) := inferInstanceAs (Decidable (_ = true))

/-- The implementation keeps the map: an operation does to every slot what the map says or fails and leaves it, and the
answer is the map's or a failure. -/
structure Refines (Inv : V.State → Prop) (entries : V.State → VaultMap) : Prop where
  init : Inv V.init
  empty : ∀ slot, entries V.init slot = none
  keeps : ∀ s ev, Inv s → OneSegment ev.op.tenantID → Inv (V.step s ev)
  writes : ∀ s ev, Inv s → OneSegment ev.op.tenantID → ∀ slot, OneSegment slot.tenantID →
    entries (V.step s ev) slot = ev.op.apply (entries s) slot ∨
      (¬ V.Acked s ev ∧ entries (V.step s ev) slot = entries s slot)
  replies : ∀ s ev, Inv s → OneSegment ev.op.tenantID →
    (V.exec s ev).1 = ev.op.reply (entries s) ∨ ∃ e, (V.exec s ev).1 = .error e ∧ e.is .vaultKeyNotFound = false

variable {V} {Inv : V.State → Prop} {entries : V.State → VaultMap} {evs : List VaultEvent} {slot : VaultSlot}

/-- What a slot holds after a run: what the last operation that wrote it left there. -/
theorem Refines.last_written (hV : V.Refines Inv entries) (hevs : ∀ ev ∈ evs, OneSegment ev.op.tenantID)
    (hslot : OneSegment slot.tenantID) :
    Inv (run V.step V.init evs) ∧
      ((entries (run V.step V.init evs) slot = none ∧
          Along V.step (fun s ev => ¬ ((ev.op.writes slot).isSome ∧ V.Acked s ev)) V.init evs) ∨
        Since V.step (fun _ ev => ev.op.writes slot = some (entries (run V.step V.init evs) slot))
          (fun s ev => (ev.op.writes slot).isSome ∧ V.Acked s ev) V.init evs) := by
  have hwritten := run_written (fun s => entries s slot) (fun s ev => hV.keeps s ev)
    (fun s ev hI hev => hV.writes s ev hI hev slot hslot) hV.init hevs
  rw [hV.empty slot] at hwritten
  exact ⟨run_inv (fun s ev => hV.keeps s ev) hV.init (along_of_forall hevs), hwritten⟩

/-- **An export gives back the last import.** -/
theorem Refines.exported (hV : V.Refines Inv entries) (hevs : ∀ ev ∈ evs, OneSegment ev.op.tenantID)
    (hslot : OneSegment slot.tenantID) {ev : VaultEvent} (hev : ev.op = .exportKey slot) {entry : VaultEntry}
    (h : (V.exec (run V.step V.init evs) ev).1 = .ok (.exported entry)) :
    Since V.step (fun _ ev => ev.op = .importKey slot (some entry.material) entry.aad)
      (fun s ev => (ev.op.writes slot).isSome ∧ V.Acked s ev) V.init evs := by
  obtain ⟨hinv, hlast⟩ := hV.last_written hevs hslot
  have hheld : entries (run V.step V.init evs) slot = some entry := by
    rcases hV.replies _ ev hinv (by rw [hev]; exact hslot) with hreply | ⟨e, hfail, _⟩
    · rw [h, hev, VaultOp.reply] at hreply
      cases hs : entries (run V.step V.init evs) slot with
      | none => rw [hs] at hreply; cases hreply
      | some e => rw [hs] at hreply; cases hreply; rfl
    · rw [h] at hfail
      cases hfail
  rw [hheld] at hlast
  rcases hlast with ⟨hnone, _⟩ | ⟨evs₁, ev₁, evs₂, hsplit, hwrites, hafter⟩
  · cases hnone
  · exact ⟨evs₁, ev₁, evs₂, hsplit, VaultOp.writes_eq_entry.1 hwrites, hafter⟩

/-- **A missing key was removed or never imported.** -/
theorem Refines.notFound (hV : V.Refines Inv entries) (hevs : ∀ ev ∈ evs, OneSegment ev.op.tenantID)
    (hslot : OneSegment slot.tenantID) {ev : VaultEvent} (hev : ev.op = .exportKey slot) {e : Err}
    (h : (V.exec (run V.step V.init evs) ev).1 = .error e) (he : e.is .vaultKeyNotFound = true) :
    Along V.step (fun s ev => ¬ ((ev.op.writes slot).isSome ∧ V.Acked s ev)) V.init evs ∨
      Since V.step (fun _ ev => ev.op = .destroyKey slot ∨ ev.op = .destroyTenant slot.tenantID)
        (fun s ev => (ev.op.writes slot).isSome ∧ V.Acked s ev) V.init evs := by
  obtain ⟨hinv, hlast⟩ := hV.last_written hevs hslot
  have hheld : entries (run V.step V.init evs) slot = none := by
    rcases hV.replies _ ev hinv (by rw [hev]; exact hslot) with hreply | ⟨e', hfail, hother⟩
    · rw [h, hev, VaultOp.reply] at hreply
      cases hs : entries (run V.step V.init evs) slot with
      | none => rfl
      | some entry => rw [hs] at hreply; cases hreply
    · rw [h] at hfail
      cases hfail
      rw [he] at hother
      cases hother
  rw [hheld] at hlast
  rcases hlast with ⟨_, hnever⟩ | ⟨evs₁, ev₁, evs₂, hsplit, hwrites, hafter⟩
  · exact .inl hnever
  · exact .inr ⟨evs₁, ev₁, evs₂, hsplit, VaultOp.writes_eq_nothing.1 hwrites, hafter⟩

/-! ## Answers without faults -/

/-- An operation whose requests all succeed. -/
def serve (V : VaultImpl) (s : V.State) (call : VaultOp × Int) : Except Err VaultReply × V.State :=
  V.exec s ⟨call.1, fun _ => none, call.2⟩

variable {v : VaultModel} {s : V.State} {call : VaultOp × Int}

/-- An operation that is answered as the map answers it does what the map does. -/
theorem Refines.held_serve (hV : V.Refines Inv entries) (hI : Inv s) (hheld : v.Held (entries s))
    (hallows : v.Allows call.1) (hans : (V.serve s call).1 = call.1.reply (entries s)) :
    (V.serve s call).1 = (v.exec call.1).1 ∧ Inv (V.serve s call).2 ∧
      (v.exec call.1).2.Held (entries (V.serve s call).2) := by
  refine ⟨?_, hV.keeps s _ hI hallows.1, ?_, hheld.material_exec hallows⟩
  · rw [hans]
    exact hheld.reply hallows
  · intro slot hslot
    have happly : call.1.apply (entries s) slot = call.1.apply v.entries slot := by
      rw [VaultOp.apply, VaultOp.apply, hheld.same slot hslot]
    rcases hV.writes s ⟨call.1, fun _ => none, call.2⟩ hI hallows.1 slot hslot with hnext | ⟨hfail, hnext⟩
    · exact hnext.trans happly
    · -- only a refused import and an export can be answered by an error, and they write nothing
      have hreply : ¬ (call.1.reply (entries s)).isOk = true := by
        rw [← hans]
        exact hfail
      refine hnext.trans (Eq.trans ?_ happly)
      rw [VaultOp.apply, VaultOp.writes_of_reply_error hreply, Option.getD_none]

/-- **An implementation that answers every allowed operation answers as the map does.** -/
theorem Refines.answers (hV : V.Refines Inv entries) (Ready : V.State → VaultModel → Prop) (hinit : Ready V.init .empty)
    (hans : ∀ s v call, Inv s → Ready s v → v.Held (entries s) → v.Allows call.1 →
      Ready (V.serve s call).2 (v.exec call.1).2 ∧ (V.serve s call).1 = call.1.reply (entries s))
    {calls : List (VaultOp × Int)}
    (h : Along (fun v call => (v.exec call.1).2) (fun v call => v.Allows call.1) VaultModel.empty calls) :
    Lib.answers V.serve V.init calls = Lib.answers (fun v call => v.exec call.1) VaultModel.empty calls := by
  have hstart : Inv V.init ∧ Ready V.init .empty ∧ VaultModel.empty.Held (entries V.init) :=
    ⟨hV.init, hinit, fun slot _ => hV.empty slot, fun _ _ hnone => by cases hnone⟩
  refine answers_eq (R := fun s v => Inv s ∧ Ready s v ∧ v.Held (entries s)) ?_ hstart h
  intro s v call hR hallows
  obtain ⟨hI, hr, hheld⟩ := hR
  obtain ⟨hready, hreply⟩ := hans s v call hI hr hheld hallows
  obtain ⟨hsame, hI', hheld'⟩ := hV.held_serve hI hheld hallows hreply
  exact ⟨hsame, hI', hready, hheld'⟩

end VaultImpl

end Krypton
