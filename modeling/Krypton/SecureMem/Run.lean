import Krypton.SecureMem

/-!
# `Run` is all or nothing

A handler is any program that calls the package (`Call`), looks at what each call returned, and ends by returning, with
or without an error, or by panicking. Its `events` are the calls it made, with the memory before and after each.

If a handler puts no `Data` into two vaults (`ImportsOnce`) and destroys none that it has put into a vault
(`KeepsImported`), then after `Run` (`run_allOrNothing`): with a response, everything put into the temporary vault is
destroyed, and what the persistent vault holds is what was put into it, live if it was live then, and read-only; without
a response, everything put into either vault is destroyed. A `Reserve` puts the `Data` it makes into the vault.

`Effect` says what one call can do, `VaultInv` is what the calls of a handler keep for a vault.
-/

namespace Krypton.SecureMem

open Lib

/-! ## Handlers -/

/-- A call of a handler into the package. -/
inductive Call where
  | newMemVault
  | newData (size : Int)
  | secureBytes (d : DataID)
  /-- `copy(d.SecureBytes(), bytes)`. -/
  | copyTo (d : DataID) (bytes : Bytes)
  | destroy (d : DataID)
  | markReadOnly (d : DataID)
  | reserve (v : VaultID) (name : String) (size : Int)
  | importData (v : VaultID) (name : String) (d : DataID)
  | get (v : VaultID) (name : String)
  | vaultDestroy (v : VaultID) (name : String)
  | destroyAll (v : VaultID)
  | markAllReadOnly (v : VaultID)

/-- What a call returned. -/
inductive Answer where
  | done (r : Except Err Unit)
  | data (r : Except Err DataID)
  | found (d : Option DataID)
  | vault (v : VaultID)
  | bytes (b : Option Bytes)

inductive Handler where
  /-- Return an error, or nil. -/
  | ret (err : Option Err)
  | panic
  | call (c : Call) (next : Answer → Handler)

/-- A method of a vault; a nil pointer panics. -/
def onVault (v : VaultID) (x : Tx Mem Fault Answer) : Tx Mem Fault Answer := do
  if ← Tx.read fun m => decide (v < m.vaults.length) then x else Tx.fail .panic

/-- A method of a `Data` that looks into it; a nil pointer panics. -/
def onData (d : DataID) (x : Tx Mem Fault Answer) : Tx Mem Fault Answer := do
  if ← Tx.read fun m => decide (d < m.data.length) then x else Tx.fail .panic

/-- Hand the returned error on to the handler. -/
def answer {α : Type} (f : Except Err α → Answer) (x : Proc α) : Tx Mem Fault Answer := do
  let r ← x.attempt
  return f r

section
variable (rt : Runtime)

def perform : Call → Tx Mem Fault Answer
  | .newMemVault => do
    let v ← newMemVault.mapError .error
    return .vault v
  | .newData size => answer .data (newData rt size)
  | .secureBytes d => onData d (Tx.read fun m => .bytes (m.secureBytes d))
  | .copyTo d bytes => onData d (do
    copyTo d bytes
    return .done (.ok ()))
  | .destroy d => answer .done (destroy rt d)
  | .markReadOnly d => onData d (answer .done (markReadOnly rt d))
  | .reserve v name size => onVault v (answer .data (reserve rt v name size))
  -- a nil `Data` is refused before the vault is looked at
  | .importData v name d => do
    if ← Tx.read fun m => (m.data[d]?).isNone then return .done (.error errDataIsNil)
    else onVault v (answer .done (importData v name d))
  | .get v name => onVault v (Tx.read fun m => .found ((m.store v).lookup name))
  | .vaultDestroy v name => onVault v (answer .done (vaultDestroy rt v name))
  | .destroyAll v => onVault v (answer .done (destroyAll rt v))
  | .markAllReadOnly v => onVault v (answer .done (markAllReadOnly rt v))

def Handler.exec : Handler → Tx Mem Fault Unit
  | .ret none => return ()
  | .ret (some e) => Tx.fail (.error e)
  | .panic => Tx.fail .panic
  | .call c next => do
    let a ← perform rt c
    (next a).exec

/-! ## Events -/

/-- A call that was made, with what it returned. -/
structure Event where
  before : Mem
  call : Call
  answer : Answer
  after : Mem

/-- The calls of a handler's run that came back. -/
def Handler.events : Handler → Mem → List Event
  | .call c next, m =>
    match perform rt c m with
    | (.ok a, m') => ⟨m, c, a, m'⟩ :: (next a).events m'
    | (.error _, _) => []
  | _, _ => []

/-- The `Data` the call put into a vault, with the vault. -/
def Event.puts (e : Event) : List (VaultID × DataID) :=
  match e.call, e.answer with
  | .importData v _ d, .done (.ok _) => [(v, d)]
  | .reserve v _ _, .data (.ok d) => [(v, d)]
  | _, _ => []

/-- The `Data` the call was to destroy. -/
def Event.destroys (e : Event) : List DataID :=
  match e.call with
  | .destroy d => [d]
  | .vaultDestroy v name => ((e.before.store v).lookup name).toList
  | .destroyAll v => (e.before.store v).entries.map Sigma.snd
  | _ => []

/-- No `Data` is put into two vaults. -/
def ImportsOnce (events : List Event) : Prop :=
  ∀ x ∈ events.flatMap Event.puts, ∀ y ∈ events.flatMap Event.puts, x.2 = y.2 → x.1 = y.1

/-- No call destroys what an earlier one put into a vault. -/
def KeepsImported (events : List Event) : Prop :=
  events.Pairwise fun e e' => ∀ x ∈ e.puts, x.2 ∉ e'.destroys

/-- The calls of the handler in a `Run`, which does not call it when the context is cancelled. -/
def runEvents (handler : HandlerRequest → Handler) (m : Mem) : List Event :=
  if rt.ctxErr m.clock = none then (handler (requestFor m)).events rt (opened m) else []

end

/-- A call of the run put `d` into the vault `v`. -/
def Imported (events : List Event) (v : VaultID) (d : DataID) : Prop := ∃ e ∈ events, (v, d) ∈ e.puts

/-! ## What one call can do -/

/-- The effect of a call on what exists, what is live and what the vaults hold. -/
structure Effect (e : Event) : Prop where
  exist : ∀ d, e.before.Exists d → e.after.Exists d
  vaults : e.before.vaults.length ≤ e.after.vaults.length
  live : ∀ d, e.before.Live d → d ∉ e.destroys → e.after.Live d
  put : ∀ v d, (v, d) ∈ e.puts → e.after.Exists d
  holds : ∀ v, v < e.before.vaults.length → (∀ d, e.before.Holds v d → d ∉ e.destroys) →
    ∀ d, e.after.Holds v d ↔ e.before.Holds v d ∨ (v, d) ∈ e.puts

section
variable {rt : Runtime} {χ : Type} {c₀ : χ} {m m' : Mem} {c : Call} {a : Answer}

/-- A call that puts nothing into a vault and touches only what it destroys. -/
theorem Effect.of_frame {e : Event} {D : DataID → Prop} {V : VaultID → Prop} (h : Frame D V e.before e.after)
    (hputs : e.puts = []) (hD : ∀ d, D d → d ∈ e.destroys)
    (hV : ∀ v, V v → (∀ d, e.before.Holds v d → d ∉ e.destroys) → ∀ d, e.after.Holds v d ↔ e.before.Holds v d) :
    Effect e where
  exist _ hd := h.exists_mono hd
  vaults := h.vaultsGrow
  live d hlive hd := h.live (fun hDd => hd (hD d hDd)) hlive
  put v d hd := by rw [hputs] at hd; cases hd
  holds v hv hkeep d := by
    rw [hputs]
    by_cases hVv : V v
    · simpa using hV v hVv hkeep d
    · rw [h.holds hv hVv]
      simp

/-- A call that destroys nothing and leaves the vaults alone. -/
theorem Effect.of_kept {e : Event} (h : Frame (fun _ => False) (fun _ => False) e.before e.after)
    (hputs : e.puts = []) : Effect e :=
  .of_frame h hputs (fun _ => False.elim) fun _ => False.elim

/-- A call that put `d` under a new name. -/
theorem Effect.of_insert {e : Event} {m₁ : Mem} {v : VaultID} {name : String} {d : DataID}
    (h : Frame (fun _ => False) (fun _ => False) e.before m₁) (hvaults : m₁.vaults = e.before.vaults) (hd : m₁.Exists d)
    (hv : v < e.before.vaults.length) (hname : (e.before.store v).lookup name = none)
    (hafter : e.after = m₁.setStore v ((m₁.store v).insert name d)) (hputs : e.puts = [(v, d)]) : Effect e := by
  have hstore : m₁.store v = e.before.store v := h.store v hv id
  have hframe : Frame (fun _ => False) (· = v) e.before e.after :=
    hafter ▸ (h.mono (fun _ _ => id) fun _ => False.elim).trans (.of_setStore rfl)
  refine ⟨fun _ => hframe.exists_mono, hframe.vaultsGrow, fun _ hl _ => hframe.live id hl, ?_, ?_⟩
  · intro v' d' hd'
    rw [hputs, List.mem_singleton] at hd'
    cases hd'
    rw [hafter]
    exact hd
  · intro v' hv' _ d'
    rw [hputs, List.mem_singleton]
    by_cases hvv : v' = v
    · subst hvv
      unfold Mem.Holds
      rw [hafter, store_setStore (by rw [hvaults]; exact hv), hstore]
      constructor
      · rintro ⟨name', h'⟩
        by_cases hn : name' = name
        · subst hn
          rw [AList.lookup_insert] at h'
          cases h'
          exact .inr rfl
        · rw [AList.lookup_insert_ne hn] at h'
          exact .inl ⟨name', h'⟩
      · rintro (⟨name', h'⟩ | h')
        · have hn : name' ≠ name := by
            rintro rfl
            rw [hname] at h'
            cases h'
          exact ⟨name', by rw [AList.lookup_insert_ne hn]; exact h'⟩
        · cases h'
          exact ⟨name, AList.lookup_insert _⟩
    · rw [hframe.holds hv' hvv]
      simp [hvv]

/-- What a call does if it comes back; if it does not, nothing happened. -/
def CallEnds (c : Call) (m : Mem) (r : Except Fault Answer) (m' : Mem) : Prop :=
  match r with
  | .ok a => Effect ⟨m, c, a, m'⟩
  | .error _ => m' = m

theorem ends_onVault {v : VaultID} {x : Tx Mem Fault Answer} (h : v < m.vaults.length → x.Ends m (CallEnds c m)) :
    (onVault v x).Ends m (CallEnds c m) := by
  refine Tx.Ends.ok_bind (a := decide (v < m.vaults.length)) rfl ?_
  by_cases hv : v < m.vaults.length
  · rw [decide_eq_true hv]
    exact h hv
  · rw [decide_eq_false hv]
    exact rfl

theorem ends_onData {d : DataID} {x : Tx Mem Fault Answer} (h : x.Ends m (CallEnds c m)) :
    (onData d x).Ends m (CallEnds c m) := by
  refine Tx.Ends.ok_bind (a := decide (d < m.data.length)) rfl ?_
  by_cases hd : d < m.data.length
  · rw [decide_eq_true hd]
    exact h
  · rw [decide_eq_false hd]
    exact rfl

theorem ends_answer {α : Type} {f : Except Err α → Answer} {x : Proc α} {P : Except Err α → Mem → Prop}
    (hx : x.Ends m P) (h : ∀ r m', P r m' → Effect ⟨m, c, f r, m'⟩) : (answer f x).Ends m (CallEnds c m) :=
  Tx.Ends.attempt_bind hx h

theorem effect_refl (hputs : (⟨m, c, a, m⟩ : Event).puts = []) : Effect ⟨m, c, a, m⟩ := .of_kept (.refl m) hputs

theorem ends_reserve {v : VaultID} {name : String} {size : Int} (hv : v < m.vaults.length) :
    (reserve rt v name size).Ends m fun r m' => Effect ⟨m, .reserve v name size, .data r, m'⟩ := by
  unfold reserve
  refine Tx.Ends.ok_bind (a := ((m.store v).lookup name).isSome) rfl ?_
  cases hname : (m.store v).lookup name with
  | some d => exact effect_refl rfl
  | none =>
    refine Tx.Ends.bind ends_newData ?_ ?_
    · rintro d m₁ ⟨hvaults, -, hr⟩
      have hd : m₁.Exists d := by
        obtain ⟨-, rfl, hdata⟩ := hr
        unfold Mem.Exists
        rw [hdata]
        simp
      exact .of_insert (frame_of_newData (r := .ok d) hvaults hr) hvaults hd hv hname rfl rfl
    · rintro e m₁ ⟨hvaults, -, hr⟩
      exact .of_kept (.of_same ⟨hr, hvaults⟩) rfl

theorem ends_importData {v : VaultID} {name : String} {d : DataID} (hv : v < m.vaults.length) :
    (importData v name d).Ends m fun r m' => Effect ⟨m, .importData v name d, .done r, m'⟩ := by
  unfold importData
  refine Tx.Ends.ok_bind (a := (m.data[d]?).isNone) rfl ?_
  cases hd : m.data[d]? with
  | none => exact effect_refl rfl
  | some x =>
    refine Tx.Ends.ok_bind (a := ((m.store v).lookup name).isSome) rfl ?_
    cases hname : (m.store v).lookup name with
    | some d => exact effect_refl rfl
    | none => exact .of_insert (.refl m) rfl (List.getElem?_eq_some_iff.1 hd).1 hv hname rfl rfl

theorem ends_vaultDestroy {v : VaultID} {name : String} :
    (vaultDestroy rt v name).Ends m fun r m' => Effect ⟨m, .vaultDestroy v name, .done r, m'⟩ := by
  unfold vaultDestroy
  refine Tx.Ends.ok_bind (a := (m.store v).lookup name) rfl ?_
  cases hname : (m.store v).lookup name with
  | none => exact effect_refl rfl
  | some d =>
    refine ends_destroyEntry.mono ?_
    rintro r m' ⟨hframe, -⟩
    have hdestroys : (⟨m, .vaultDestroy v name, .done r, m'⟩ : Event).destroys = [d] := by simp [Event.destroys, hname]
    refine .of_frame hframe rfl (fun d' hd' => by rw [hdestroys]; exact List.mem_singleton.2 hd') ?_
    rintro _ rfl hkeep
    exact absurd (List.mem_singleton.2 rfl) (hdestroys ▸ hkeep d ⟨name, hname⟩)

theorem mem_destroys_destroyAll {v : VaultID} {d : DataID} :
    d ∈ (⟨m, .destroyAll v, a, m'⟩ : Event).destroys ↔ m.Holds v d := by
  rw [holds_iff]
  exact List.mem_map

theorem ends_call_destroyAll {v : VaultID} :
    (destroyAll rt v).Ends m fun r m' => Effect ⟨m, .destroyAll v, .done r, m'⟩ := by
  refine ends_destroyAll.mono ?_
  rintro r m' ⟨hframe, -, -, hless⟩
  refine .of_frame hframe rfl (fun d => mem_destroys_destroyAll.2) ?_
  rintro _ rfl hkeep d
  exact ⟨hless d, fun h => absurd (mem_destroys_destroyAll.2 h) (hkeep d h)⟩

/-- **One call.** -/
theorem ends_perform (c : Call) : (perform rt c).Ends m (CallEnds c m) := by
  cases c with
  | newMemVault =>
    refine .of_kept ?_ rfl
    refine ⟨fun _ _ _ => rfl, fun _ _ _ => id, fun v hv _ => ?_, le_rfl, ?_⟩
    · change ((m.vaults ++ [∅])[v]?).getD ∅ = (m.vaults[v]?).getD ∅
      rw [List.getElem?_append_left hv]
    · change m.vaults.length ≤ (m.vaults ++ [∅]).length
      simp
  | newData size =>
    refine ends_answer ends_newData ?_
    rintro r m' ⟨hvaults, -, hr⟩
    exact .of_kept (frame_of_newData hvaults hr) rfl
  | secureBytes d => exact ends_onData (effect_refl rfl)
  | copyTo d bytes =>
    refine ends_onData (Tx.Ends.bind ends_copyTo ?_ fun e m' h => h)
    rintro _ m' ⟨hframe, hlive⟩
    change Effect ⟨m, .copyTo d bytes, .done (.ok ()), m'⟩
    refine ⟨fun _ => hframe.exists_mono, hframe.vaultsGrow, fun d' hd' _ => ?_, fun _ _ h => (by cases h), ?_⟩
    · by_cases h : d' = d
      · subst h; exact hlive hd'
      · exact hframe.live h hd'
    · intro v hv _ d'
      rw [hframe.holds hv id]
      exact (or_iff_left fun h => by cases h).symm
  | destroy d =>
    refine ends_answer ends_destroy ?_
    rintro r m' ⟨hvaults, hdata, -⟩
    exact .of_frame (V := fun _ => False) (frame_of_destroy hvaults hdata) rfl (fun d' hd' => List.mem_singleton.2 hd')
      fun _ => False.elim
  | markReadOnly d => exact ends_onData (ends_answer ends_markReadOnly fun r m' h => .of_kept h.1 rfl)
  | reserve v name size => exact ends_onVault fun hv => ends_answer (ends_reserve hv) fun _ _ h => h
  | importData v name d =>
    refine Tx.Ends.ok_bind (a := (m.data[d]?).isNone) rfl ?_
    cases m.data[d]? with
    | none => exact effect_refl rfl
    | some x => exact ends_onVault fun hv => ends_answer (ends_importData hv) fun _ _ h => h
  | get v name => exact ends_onVault fun _ => effect_refl rfl
  | vaultDestroy v name => exact ends_onVault fun _ => ends_answer ends_vaultDestroy fun _ _ h => h
  | destroyAll v => exact ends_onVault fun _ => ends_answer ends_call_destroyAll fun _ _ h => h
  | markAllReadOnly v =>
    exact ends_onVault fun _ => ends_answer ends_markAllReadOnly fun r m' h => .of_kept h.1 rfl

/-! ## What a handler keeps -/

/-- A vault holds exactly what was put into it, all of it exists, and what was live when it was put there still is. -/
structure VaultInv (v : VaultID) (past : List Event) (m : Mem) : Prop where
  inRange : v < m.vaults.length
  holds : ∀ d, m.Holds v d ↔ Imported past v d
  exist : ∀ d, m.Holds v d → m.Exists d
  live : ∀ e ∈ past, ∀ d, (v, d) ∈ e.puts → e.after.Live d → m.Live d

/-- One call keeps it, unless it destroys what is there. -/
theorem VaultInv.step {v : VaultID} {past : List Event} {e : Event} (h : VaultInv v past e.before) (he : Effect e)
    (hkeep : ∀ e' ∈ past, ∀ x ∈ e'.puts, x.2 ∉ e.destroys) : VaultInv v (past ++ [e]) e.after := by
  have hheld : ∀ d, e.before.Holds v d → d ∉ e.destroys := by
    intro d hd
    obtain ⟨e', he', hput⟩ := (h.holds d).1 hd
    exact hkeep e' he' _ hput
  have hholds := he.holds v h.inRange hheld
  refine ⟨Nat.lt_of_lt_of_le h.inRange he.vaults, fun d => ?_, fun d hd => ?_, fun e' he' d hput hlive => ?_⟩
  · rw [hholds, h.holds]
    simp [Imported, or_and_right, exists_or]
  · rcases (hholds d).1 hd with hd | hput
    · exact he.exist d (h.exist d hd)
    · exact he.put v d hput
  · rcases List.mem_append.1 he' with he' | he'
    · exact he.live d (h.live e' he' d hput hlive) (hkeep e' he' _ hput)
    · cases List.mem_singleton.1 he'
      exact hlive

/-- **Every run of a handler keeps it.** -/
theorem VaultInv.exec {v : VaultID} (handler : Handler) (past : List Event) {m : Mem} (h : VaultInv v past m)
    (hkeep : KeepsImported (past ++ handler.events rt m)) :
    (handler.exec rt).Ends m fun _ m' => VaultInv v (past ++ handler.events rt m) m' := by
  induction handler generalizing past m with
  | ret err =>
    simp only [Handler.events, List.append_nil]
    cases err with
    | none => exact h
    | some e => exact h
  | panic =>
    simp only [Handler.events, List.append_nil]
    exact h
  | call c next ih =>
    have hcall : (perform rt c).Ends m (CallEnds c m) := ends_perform c
    unfold Tx.Ends CallEnds at hcall
    simp only [Handler.events] at hkeep ⊢
    change ((perform rt c) >>= fun a => (next a).exec rt).Ends m _
    rcases hrun : perform rt c m with ⟨e | a, m₁⟩
    · rw [hrun] at hcall
      have hend : (perform rt c).Ends m fun r m' => r = .error e ∧ m' = m := by
        unfold Tx.Ends
        rw [hrun]
        exact ⟨rfl, hcall⟩
      refine Tx.Ends.bind hend ?_ ?_
      · rintro _ _ ⟨⟨⟩, -⟩
      · rintro _ _ ⟨-, rfl⟩
        simpa using h
    · rw [hrun] at hcall hkeep
      have hstep : VaultInv v (past ++ [⟨m, c, a, m₁⟩]) m₁ := by
        refine VaultInv.step (e := ⟨m, c, a, m₁⟩) h hcall fun e' he' => ?_
        exact (List.pairwise_append.1 hkeep).2.2 e' he' _ List.mem_cons_self
      refine Tx.Ends.ok_bind hrun ?_
      have hrest := ih a _ hstep (by simpa using hkeep)
      simpa using hrest

theorem VaultInv.kept {v : VaultID} {past : List Event} (h : VaultInv v past m)
    (hframe : Frame (fun _ => False) (fun _ => False) m m') : VaultInv v past m' := by
  have hholds : ∀ d, m'.Holds v d ↔ m.Holds v d := fun d => hframe.holds h.inRange id
  refine ⟨Nat.lt_of_lt_of_le h.inRange hframe.vaultsGrow, fun d => (hholds d).trans (h.holds d), fun d hd => ?_, ?_⟩
  · exact hframe.exists_mono (h.exist d ((hholds d).1 hd))
  · exact fun e he d hput hlive => hframe.live id (h.live e he d hput hlive)

theorem VaultInv.opened {v : VaultID} (hv : v = (requestFor m).temporaryVault ∨ v = (requestFor m).persistentVault) :
    VaultInv v [] (opened m) := by
  have hempty : (SecureMem.opened m).store v = ∅ := by
    rcases hv with rfl | rfl <;> simp [Mem.store, SecureMem.opened, requestFor]
  have hnot : ∀ d, ¬ (SecureMem.opened m).Holds v d := by
    rintro d ⟨name, h⟩
    rw [hempty, AList.lookup_empty] at h
    cases h
  refine ⟨?_, fun d => ?_, fun d hd => absurd hd (hnot d), fun e he => absurd he List.not_mem_nil⟩
  · rcases hv with rfl | rfl <;> simp [SecureMem.opened, requestFor]
  · exact iff_of_false (hnot d) fun ⟨e, he, _⟩ => absurd he List.not_mem_nil

/-! ## All or nothing -/

/-- What is left after a `Run` in which the handler made the calls `events`. -/
def AllOrNothing (req : HandlerRequest) (events : List Event) (r : Except Fault HandlerResponse) (m' : Mem) : Prop :=
  match r with
  | .ok resp =>
    (∀ d, Imported events req.temporaryVault d → m'.Destroyed d) ∧
      (∀ d, m'.Holds resp.vault d ↔ Imported events req.persistentVault d) ∧
        ∀ e ∈ events, ∀ d, (req.persistentVault, d) ∈ e.puts → e.after.Live d → m'.Live d ∧ m'.ReadOnly d
  | .error .crash => True
  | .error _ => ∀ d, Imported events req.temporaryVault d ∨ Imported events req.persistentVault d → m'.Destroyed d

/-- The two vaults of a request before the deferred function runs. -/
structure RequestInv (req : HandlerRequest) (events : List Event) (m : Mem) : Prop where
  temporary : VaultInv req.temporaryVault events m
  persistent : VaultInv req.persistentVault events m

theorem RequestInv.kept {req : HandlerRequest} {events : List Event} (h : RequestInv req events m)
    (hframe : Frame (fun _ => False) (fun _ => False) m m') : RequestInv req events m' :=
  ⟨h.temporary.kept hframe, h.persistent.kept hframe⟩

theorem ends_runHandler {handler : HandlerRequest → Tx (Mem × χ) Fault Unit} {req : HandlerRequest}
    {events : List Event} (h : (handler req).Ends (m, c₀) fun _ s => RequestInv req events s.1) :
    (runHandler rt handler req).Ends (m, c₀) fun r s =>
      RequestInv req events s.1 ∧ ∀ resp, r = .ok resp → resp.vault = req.persistentVault ∧
        ∀ d, s.1.Holds req.persistentVault d → s.1.Live d → s.1.ReadOnly d := by
  unfold runHandler
  refine Tx.Ends.bind h ?_ fun e s hinv => ⟨hinv, by rintro _ ⟨⟩⟩
  rintro _ ⟨m₁, c₁⟩ hinv
  refine ends_callProc_bind ends_ctxErr ?_ ?_
  · rintro _ m₂ ⟨hsame, -⟩
    have hinv₂ := hinv.kept (.of_same hsame)
    refine ends_callProc_bind ends_markAllReadOnly ?_ ?_
    · rintro _ m₃ ⟨hframe, hro, -⟩
      refine ⟨hinv₂.kept hframe, ?_⟩
      rintro _ ⟨⟩
      refine ⟨rfl, fun d hd hlive => hro rfl d ?_ ?_⟩
      · exact (hframe.holds hinv₂.persistent.inRange id).1 hd
      · have hex := hinv₂.persistent.exist d ((hframe.holds hinv₂.persistent.inRange id).1 hd)
        rw [live_iff, ← hframe.bytes d hex id]
        exact live_iff.1 hlive
    · rintro e m₃ ⟨hframe, -⟩
      exact ⟨hinv₂.kept hframe, by rintro _ ⟨⟩⟩
  · rintro e m₂ ⟨hsame, -⟩
    exact ⟨hinv.kept (.of_same hsame), by rintro _ ⟨⟩⟩

/-- The deferred function after a response: the temporary vault goes, the persistent one stays. -/
theorem ends_cleanUp_ok {req : HandlerRequest} {events : List Event} {resp : HandlerResponse} (hrt : rt.Releases)
    (hne : req.persistentVault ≠ req.temporaryVault) (hone : ImportsOnce events) (hinv : RequestInv req events m)
    (hresp : resp.vault = req.persistentVault) (hro : ∀ d, m.Holds req.persistentVault d → m.Live d → m.ReadOnly d) :
    (cleanUp rt req (.ok resp)).Ends m fun _ m' => AllOrNothing req events (.ok resp) m' := by
  refine ends_destroyAll.mono ?_
  rintro _ m' ⟨hframe, hdone, -, -⟩
  refine ⟨fun d hd => ?_, fun d => ?_, fun e he d hput hlive => ?_⟩
  · have hheld := (hinv.temporary.holds d).2 hd
    exact hdone hrt d hheld (hinv.temporary.exist d hheld)
  · rw [hresp, ← hinv.persistent.holds]
    exact hframe.holds hinv.persistent.inRange hne
  · have hheld : m.Holds req.persistentVault d := (hinv.persistent.holds d).2 ⟨e, he, hput⟩
    -- what is in the persistent vault is not in the temporary one
    have hnot : ¬ m.Holds req.temporaryVault d := by
      intro h
      obtain ⟨e', he', hput'⟩ := (hinv.temporary.holds d).1 h
      exact hne (hone _ (List.mem_flatMap.2 ⟨e, he, hput⟩) _ (List.mem_flatMap.2 ⟨e', he', hput'⟩) rfl)
    have hl := hinv.persistent.live e he d hput hlive
    exact ⟨hframe.live hnot hl, hframe.readOnly d (hinv.persistent.exist d hheld) hnot (hro d hheld hl)⟩

/-- The deferred function without a response: both vaults go. -/
theorem ends_cleanUp_error {req : HandlerRequest} {events : List Event} {f : Fault} (hrt : rt.Releases)
    (hne : req.persistentVault ≠ req.temporaryVault) (hinv : RequestInv req events m) :
    (cleanUp rt req (.error f)).Ends m fun _ m' => AllOrNothing req events (.error f) m' := by
  have hboth : (do
      let _ ← ((destroyAll rt req.temporaryVault).attempt : Proc (Except Err Unit))
      destroyAll rt req.persistentVault : Proc Unit).Ends m fun _ m' =>
        ∀ d, Imported events req.temporaryVault d ∨ Imported events req.persistentVault d → m'.Destroyed d := by
    refine Tx.Ends.attempt_bind ends_destroyAll ?_
    rintro _ m₁ ⟨hframe, hdone, -, -⟩
    refine ends_destroyAll.mono ?_
    rintro _ m₂ ⟨-, hdone₂, hmono, -⟩ d (hd | hd)
    · have hheld := (hinv.temporary.holds d).2 hd
      exact hmono d (hdone hrt d hheld (hinv.temporary.exist d hheld))
    · have hheld := (hinv.persistent.holds d).2 hd
      have hheld₁ := (hframe.holds hinv.persistent.inRange hne).2 hheld
      exact hdone₂ hrt d hheld₁ (hframe.exists_mono (hinv.persistent.exist d hheld))
  cases f with
  | error e => exact hboth
  | panic => exact hboth
  | crash => exact trivial

/-- **`Run` is all or nothing.** Whatever the handler does and however it ends, the secrets it put into its vaults are
gone afterwards, except those of the persistent vault when `Run` gave a response. -/
theorem run_allOrNothing (hrt : rt.Releases) (handler : HandlerRequest → Handler) (m : Mem) (c₀ : χ)
    (hone : ImportsOnce (runEvents rt handler m)) (hkeep : KeepsImported (runEvents rt handler m)) :
    (run rt fun req => ((handler req).exec rt).onFst).Ends (m, c₀) fun r s =>
      AllOrNothing (requestFor m) (runEvents rt handler m) r s.1 := by
  unfold run
  cases hctx : rt.ctxErr m.clock with
  | some e =>
    -- the handler is not called
    have hrun : (ctxErr rt).Ends m fun r _ => r = .error e := by
      unfold Tx.Ends ctxErr
      rw [hctx]
    refine ends_callProc_bind hrun (by rintro _ _ ⟨⟩) ?_
    rintro _ m₁ ⟨⟩ d hd
    have hnil : runEvents rt handler m = [] := by simp [runEvents, hctx]
    rw [hnil] at hd
    rcases hd with ⟨_, h, -⟩ | ⟨_, h, -⟩ <;> cases h
  | none =>
    have hevents : runEvents rt handler m = (handler (requestFor m)).events rt (opened m) := by simp [runEvents, hctx]
    have hrun : ctxErr rt m = (.ok (), m.tick) := by
      unfold ctxErr
      rw [hctx]
    rw [hevents] at hone hkeep ⊢
    refine Tx.Ends.ok_bind (callProc_of_ok hrun) (Tx.Ends.ok_bind (callProc_of_ok newHandlerRequest_eq) ?_)
    have hexec : ((handler (requestFor m)).exec rt).Ends (opened m) fun _ m' =>
        RequestInv (requestFor m) ((handler (requestFor m)).events rt (opened m)) m' :=
      ⟨VaultInv.exec _ [] (.opened (.inl rfl)) hkeep, VaultInv.exec _ [] (.opened (.inr rfl)) hkeep⟩
    have hne : (requestFor m).persistentVault ≠ (requestFor m).temporaryVault := Nat.succ_ne_self _
    refine Tx.Ends.deferred (ends_runHandler (hexec.onFst fun _ _ h => h)) ?_
    rintro (f | resp) ⟨m₁, c₁⟩ ⟨hinv, hresp⟩
    · exact (ends_cleanUp_error hrt hne hinv).onFst fun _ _ h => h
    · exact (ends_cleanUp_ok hrt hne hone hinv (hresp resp rfl).1 (hresp resp rfl).2).onFst fun _ _ h => h

/-- Marking a region read-only fails at time 13, every other call succeeds. -/
def demoRuntime : Runtime where
  fails c n := if c = .protectRead ∧ n = 13 then some (.plain "cannot allocate memory") else none
  order _ l := l
  order_perm _ _ := .refl _
  ctxErr _ := none

/-- Two secrets for the response and one for the time of the call. -/
def demoHandler (req : HandlerRequest) : Handler :=
  .call (.reserve req.persistentVault "cipherText" 3) fun _ =>
  .call (.reserve req.temporaryVault "scratch" 2) fun _ =>
  .call (.newData 4) fun _ =>
  .call (.importData req.persistentVault "secret" 2) fun _ => .ret none

/-- One of the two regions is read-only already when the other cannot be made so; all three are destroyed. -/
theorem demo_allOrNothing :
    (run demoRuntime (fun req => ((demoHandler req).exec demoRuntime).onFst) (⟨[], [], 0⟩, ())).1 =
        .error (.error (.plain "cannot allocate memory")) ∧
      (run demoRuntime fun req => ((demoHandler req).exec demoRuntime).onFst).Ends (⟨[], [], 0⟩, ()) fun r s =>
        AllOrNothing (requestFor ⟨[], [], 0⟩) (runEvents demoRuntime demoHandler ⟨[], [], 0⟩) r s.1 := by
  refine ⟨by decide +kernel, ?_⟩
  have hrt : demoRuntime.Releases := by
    intro n
    simp [demoRuntime]
  refine run_allOrNothing hrt demoHandler _ () ?_ ?_
  · unfold ImportsOnce
    decide +kernel
  · unfold KeepsImported
    decide +kernel

end

end Krypton.SecureMem
