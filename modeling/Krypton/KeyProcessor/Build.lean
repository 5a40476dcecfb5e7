import Krypton.KeyProcessor.Manager
import Krypton.Spec.Segments

/-!
# What a manager is built from

`NewManager` goes over the bindings of a node and builds a processor for each kind that is not of root role.

* `newManager_isOk` — when it succeeds;
* `processor_newManager` — which processors it gives;
* `resolveParent_eq_ok`, `resolveParent_rootManager` — which parent sealer a processor gets;
* `newManager_not_registered` — what keeps a manager from finding the connection of a parent.
-/

namespace Krypton

open Lib

/-- `NewManager` builds this processor for a kind and its binding. -/
structure Builds (cfg : ManagerConfig) (kind : String) (binding : KeyBinding) (proc : Processor) : Prop where
  spec : ∃ sp, cfg.hierarchy.findKeySpec kind = some sp ∧ sp.role ≠ .root
  parent : resolveParent cfg kind binding = .ok proc.parent
  built : newProcessor cfg.process binding proc.parent = .ok proc

section
variable {cfg : ManagerConfig} {kind : String} {binding : KeyBinding} {proc : Processor}

theorem newProcessor_parent {P : Process} {parent : SealerRef} (h : newProcessor P binding parent = .ok proc) :
    proc.parent = parent := by
  unfold newProcessor at h
  obtain ⟨_, -, h⟩ := bind_eq_ok.1 h
  obtain ⟨_, -, h⟩ := bind_eq_ok.1 h
  obtain ⟨_, -, h⟩ := bind_eq_ok.1 h
  cases h
  rfl

theorem Builds.mk' {sp : KeySpec} {parent : SealerRef} (hsp : cfg.hierarchy.findKeySpec kind = some sp)
    (hr : sp.role ≠ .root)
    (hp : resolveParent cfg kind binding = .ok parent) (hb : newProcessor cfg.process binding parent = .ok proc) :
    Builds cfg kind binding proc := by
  obtain rfl := newProcessor_parent hb
  exact ⟨⟨sp, hsp, hr⟩, hp, hb⟩

/-- A kind and its binding give at most one processor. -/
theorem Builds.unique {proc' : Processor} (h : Builds cfg kind binding proc) (h' : Builds cfg kind binding proc') :
    proc = proc' := by
  have hp : proc.parent = proc'.parent := Except.ok.inj (h.parent.symm.trans h'.parent)
  have hb := h.built
  rw [hp] at hb
  exact Except.ok.inj (hb.symm.trans h'.built)

/-- The binding of one kind: skipped for the root role, built for the others. -/
theorem newProcessors_cons_ok {rest : List (String × KeyBinding)} {procs : List (String × Processor)} :
    newProcessors cfg ((kind, binding) :: rest) = .ok procs ↔
      ∃ sp, cfg.hierarchy.findKeySpec kind = some sp ∧
        ((sp.role = .root ∧ newProcessors cfg rest = .ok procs) ∨
          sp.role ≠ .root ∧ ∃ proc procs', Builds cfg kind binding proc ∧ newProcessors cfg rest = .ok procs' ∧
            procs = (kind, proc) :: procs') := by
  rw [newProcessors]
  cases hsp : cfg.hierarchy.findKeySpec kind with
  | none => simp
  | some sp =>
    simp only [Option.some.injEq, exists_eq_left']
    split
    · rename_i hr
      simp [hr]
    · rename_i hr
      rw [or_iff_right fun h => hr h.1]
      constructor
      · intro h
        obtain ⟨parent, hp, h⟩ := bind_eq_ok.1 h
        obtain ⟨proc, hb, h⟩ := bind_eq_ok.1 h
        obtain ⟨procs', hrest, h⟩ := bind_eq_ok.1 h
        cases h
        exact ⟨hr, proc, procs', .mk' hsp hr hp (mapError_eq_ok.1 hb), hrest, rfl⟩
      · rintro ⟨-, proc, procs', hbuild, hrest, rfl⟩
        exact bind_eq_ok.2 ⟨proc.parent, hbuild.parent, bind_eq_ok.2 ⟨proc, mapError_eq_ok.2 hbuild.built,
          bind_eq_ok.2 ⟨procs', hrest, rfl⟩⟩⟩

/-- Every binding is of a kind of the hierarchy, and builds unless the kind has root role. -/
def BuildsAll (cfg : ManagerConfig) (l : List (String × KeyBinding)) : Prop :=
  ∀ p ∈ l, ∃ sp, cfg.hierarchy.findKeySpec p.1 = some sp ∧ (sp.role ≠ .root → ∃ proc, Builds cfg p.1 p.2 proc)

theorem newProcessors_isOk {l : List (String × KeyBinding)} : (∃ procs, newProcessors cfg l = .ok procs) ↔
    BuildsAll cfg l := by
  induction l with
  | nil => exact ⟨fun _ _ h => absurd h List.not_mem_nil, fun _ => ⟨[], rfl⟩⟩
  | cons p rest ih =>
    obtain ⟨kind, binding⟩ := p
    unfold BuildsAll
    rw [List.forall_mem_cons, ← BuildsAll, ← ih]
    constructor
    · rintro ⟨procs, h⟩
      obtain ⟨sp, hsp, ⟨hr, hrest⟩ | ⟨hr, proc, procs', hb, hrest, rfl⟩⟩ := newProcessors_cons_ok.1 h
      · exact ⟨⟨sp, hsp, fun h => absurd hr h⟩, procs, hrest⟩
      · exact ⟨⟨sp, hsp, fun _ => ⟨proc, hb⟩⟩, procs', hrest⟩
    · rintro ⟨⟨sp, hsp, hb⟩, procs, hrest⟩
      by_cases hr : sp.role = .root
      · exact ⟨procs, newProcessors_cons_ok.2 ⟨sp, hsp, .inl ⟨hr, hrest⟩⟩⟩
      · obtain ⟨proc, hb⟩ := hb hr
        exact ⟨_, newProcessors_cons_ok.2 ⟨sp, hsp, .inr ⟨hr, proc, procs, hb, hrest, rfl⟩⟩⟩

theorem mem_newProcessors {l : List (String × KeyBinding)} {procs : List (String × Processor)}
    (h : newProcessors cfg l = .ok procs) : (kind, proc) ∈ procs ↔
      ∃ binding, (kind, binding) ∈ l ∧ Builds cfg kind binding proc := by
  induction l generalizing procs with
  | nil =>
    cases h
    exact ⟨fun h => absurd h List.not_mem_nil, fun ⟨_, h, _⟩ => absurd h List.not_mem_nil⟩
  | cons p rest ih =>
    obtain ⟨k, b⟩ := p
    simp only [List.mem_cons, Prod.mk.injEq]
    obtain ⟨sp, hsp, ⟨hr, hrest⟩ | ⟨hr, proc', procs', hb, hrest, rfl⟩⟩ := newProcessors_cons_ok.1 h
    · rw [ih hrest]
      constructor
      · rintro ⟨b', hb', hbuild⟩
        exact ⟨b', .inr hb', hbuild⟩
      · rintro ⟨b', ⟨rfl, rfl⟩ | hb', hbuild⟩
        · obtain ⟨sp', hsp', hr'⟩ := hbuild.spec
          rw [hsp] at hsp'
          cases hsp'
          exact absurd hr hr'
        · exact ⟨b', hb', hbuild⟩
    · rw [List.mem_cons, Prod.mk.injEq, ih hrest]
      constructor
      · rintro (⟨rfl, rfl⟩ | ⟨b', hb', hbuild⟩)
        · exact ⟨b, .inl ⟨rfl, rfl⟩, hb⟩
        · exact ⟨b', .inr hb', hbuild⟩
      · rintro ⟨b', ⟨rfl, rfl⟩ | hb', hbuild⟩
        · exact .inl ⟨rfl, hbuild.unique hb⟩
        · exact .inr ⟨b', hb', hbuild⟩

/-! ## Managers -/

/-- Processors are built for different kinds. -/
theorem newProcessors_kinds {l : List (String × KeyBinding)} {procs : List (String × Processor)}
    (h : newProcessors cfg l = .ok procs) : (procs.map Prod.fst).Sublist (l.map Prod.fst) := by
  induction l generalizing procs with
  | nil =>
    cases h
    exact .slnil
  | cons p rest ih =>
    obtain ⟨sp, -, ⟨-, hrest⟩ | ⟨-, proc, procs', -, hrest, rfl⟩⟩ := newProcessors_cons_ok.1 h
    · exact (ih hrest).cons _
    · exact (ih hrest).cons_cons _

theorem newManager_isOk : (∃ m, newManager cfg = .ok m) ↔ BuildsAll cfg cfg.bindings.entries := by
  rw [← newProcessors_isOk]
  unfold newManager
  constructor
  · rintro ⟨m, h⟩
    cases hp : newProcessors cfg cfg.bindings.entries with
    | error e =>
      rw [hp] at h
      cases h
    | ok procs => exact ⟨procs, rfl⟩
  · rintro ⟨procs, h⟩
    rw [h]
    exact ⟨⟨procs⟩, rfl⟩

/-- A manager has a processor for a kind exactly when the kind's binding builds it. -/
theorem processor_newManager {m : Manager} (h : newManager cfg = .ok m) :
    m.processor kind = some proc ↔ ∃ binding, cfg.bindings.get kind = some binding ∧ Builds cfg kind binding proc := by
  unfold newManager at h
  cases hp : newProcessors cfg cfg.bindings.entries with
  | error e =>
    rw [hp] at h
    cases h
  | ok procs =>
    rw [hp] at h
    cases h
    simp only [KeyBindings.get_eq_some]
    rw [← mem_newProcessors hp]
    exact assoc_eq_some (cfg.bindings.nodup.sublist (newProcessors_kinds hp))

/-! ## Parent sealers -/

theorem resolveLocalParent_eq_ok {ref : SealerRef} : resolveLocalParent cfg kind = .ok ref ↔
    ∃ sp, cfg.hierarchy.findParentKeySpec kind = some sp ∧
      ((sp.role ≠ .root ∧ ref = .self) ∨ sp.role = .root ∧ cfg.hasRootManager = true ∧ ref = .rootManager) := by
  unfold resolveLocalParent
  cases cfg.hierarchy.findParentKeySpec kind with
  | none => simp
  | some sp =>
    simp only [Option.some.injEq, exists_eq_left']
    split
    · rename_i hr
      rw [or_iff_left fun h => hr h.1, and_iff_right hr, Except.ok.injEq, eq_comm]
    · rename_i hr
      rw [or_iff_right fun h => hr h.1]
      rw [ne_eq, not_not] at hr
      cases cfg.hasRootManager with
      | false => exact ⟨nofun, fun h => absurd h.2.1 nofun⟩
      | true =>
        rw [and_iff_right hr, and_iff_right rfl, if_pos rfl, Except.ok.injEq, eq_comm]

theorem resolveRemoteParent_eq_ok {name : String} {ref : SealerRef} : resolveRemoteParent cfg name = .ok ref ↔
    ∃ names, cfg.registry = some names ∧ name ∈ names ∧ ref = .rpc name := by
  unfold resolveRemoteParent
  cases cfg.registry with
  | none => simp
  | some names =>
    simp only [Option.some.injEq, exists_eq_left', List.contains_eq_mem, decide_eq_true_eq]
    split
    · rename_i h
      rw [and_iff_right h, Except.ok.injEq, eq_comm]
    · rename_i h
      exact ⟨nofun, fun h' => absurd h'.1 h⟩

/-- A provider with a name is called through its connection, any other parent is local. -/
theorem resolveParent_eq_ok {ref : SealerRef} : resolveParent cfg kind binding = .ok ref ↔
    (∃ name, binding.parentKeyProvider = some name ∧ name ≠ "" ∧ resolveRemoteParent cfg name = .ok ref) ∨
      binding.hasRemoteParent = false ∧ resolveLocalParent cfg kind = .ok ref := by
  unfold resolveParent KeyBinding.hasRemoteParent
  cases binding.parentKeyProvider with
  | none => simp
  | some name => by_cases hn : name = "" <;> simp [hn]

/-- The root manager is the parent exactly of what comes right after the root role. -/
theorem resolveParent_rootManager (h : resolveParent cfg kind binding = .ok .rootManager) :
    ∃ sp, cfg.hierarchy.findParentKeySpec kind = some sp ∧ sp.role = .root := by
  rcases resolveParent_eq_ok.1 h with ⟨name, -, -, h⟩ | ⟨-, h⟩
  · obtain ⟨_, -, -, h⟩ := resolveRemoteParent_eq_ok.1 h
    cases h
  · obtain ⟨sp, hsp, ⟨-, h⟩ | ⟨hr, -⟩⟩ := resolveLocalParent_eq_ok.1 h
    · cases h
    · exact ⟨sp, hsp, hr⟩

/-! ## Parents without a connection -/

theorem buildOption_error {α β : Type} {build : α → Except Err β} {o : Option α} {err : Err}
    (h : buildOption build o = .error err) : ∃ a, build a = .error err := by
  cases o with
  | none => cases h
  | some a => exact ⟨a, map_eq_error.1 h⟩

theorem getSecret_error {P : Process} {secret : SecretSpec} {err : Err} (h : secret.getSecret P = .error err) :
    err.is .parentNotRegistered = false := by
  unfold SecretSpec.getSecret at h
  split at h
  · unfold Option.elim at h
    split at h <;> cases h
    rfl
  all_goals first | (cases h; rfl) | cases h

theorem resolveParent_not_registered {err : Err} (hp : err.is .parentNotRegistered = true)
    (h : resolveParent cfg kind binding = .error err) :
    ∃ name, binding.parentKeyProvider = some name ∧ ∃ names, cfg.registry = some names ∧ name ∉ names := by
  have hlocal : resolveLocalParent cfg kind ≠ .error err := by
    intro h
    unfold resolveLocalParent at h
    split at h
    · cases h
      cases hp
    · split at h
      · cases h
      · split at h
        · cases h
        · cases h
          cases hp
  unfold resolveParent at h
  split at h
  · rename_i name hname
    split at h
    · unfold resolveRemoteParent at h
      split at h
      · cases h
        cases hp
      · rename_i names hnames
        split at h
        · cases h
        · rename_i hmem
          exact ⟨name, hname, names, hnames, by simpa using hmem⟩
    · exact absurd h hlocal
  · exact absurd h hlocal

/-- No component reports a parent that is not registered. -/
theorem newProcessor_error {P : Process} {binding : KeyBinding} {parent : SealerRef} {err : Err}
    (h : newProcessor P binding parent = .error err) : err.is .parentNotRegistered = false := by
  unfold newProcessor at h
  rcases bind_eq_error.1 h with h | ⟨_, -, h⟩
  · obtain ⟨spec, h⟩ := buildOption_error h
    unfold CryptorSpec.getBundle at h
    split at h <;> cases h
    rfl
  rcases bind_eq_error.1 h with h | ⟨_, -, h⟩
  · obtain ⟨spec, h⟩ := buildOption_error h
    unfold VaultSpec.getVault VaultSpec.getVault.openAt at h
    split at h <;> first | (split at h <;> cases h <;> rfl) | (cases h; rfl)
  rcases bind_eq_error.1 h with h | ⟨_, -, h⟩
  · obtain ⟨spec, h⟩ := buildOption_error h
    unfold SealerSpec.getSealer at h
    split at h
    · rcases bind_eq_error.1 h with h | ⟨key, -, h⟩
      · exact getSecret_error h
      · rcases bind_eq_error.1 h with h | ⟨_, -, h⟩
        · rw [check_eq_error.1 h |>.2]; rfl
        · rcases bind_eq_error.1 h with h | ⟨_, -, h⟩
          · rw [check_eq_error.1 h |>.2]; rfl
          · cases h
    · cases h; rfl
  · cases h

/-- A manager that misses a parent's connection has a binding with a provider that is not registered. -/
theorem newProcessors_not_registered {err : Err} (hp : err.is .parentNotRegistered = true) :
    ∀ {l : List (String × KeyBinding)}, newProcessors cfg l = .error err →
      ∃ p ∈ l, ∃ name, p.2.parentKeyProvider = some name ∧ ∃ names, cfg.registry = some names ∧ name ∉ names
  | [], h => by cases h
  | (kind, binding) :: rest, h => by
    have hrest : newProcessors cfg rest = .error err → ∃ p ∈ (kind, binding) :: rest, ∃ name,
        p.2.parentKeyProvider = some name ∧ ∃ names, cfg.registry = some names ∧ name ∉ names := by
      intro h
      obtain ⟨p, hmem, hp⟩ := newProcessors_not_registered hp h
      exact ⟨p, List.mem_cons_of_mem _ hmem, hp⟩
    rw [newProcessors] at h
    split at h
    · cases h
      cases hp
    · split at h
      · exact hrest h
      · rcases bind_eq_error.1 h with h | ⟨parent, -, h⟩
        · obtain ⟨name, hname, names, hreg, hmem⟩ := resolveParent_not_registered hp h
          exact ⟨_, List.mem_cons_self, name, hname, names, hreg, hmem⟩
        · rcases bind_eq_error.1 h with h | ⟨proc, -, h⟩
          · obtain ⟨err', herr, rfl⟩ := mapError_eq_error.1 h
            rw [Err.is_context, newProcessor_error herr] at hp
            cases hp
          · rcases bind_eq_error.1 h with h | ⟨procs, -, h⟩
            · exact hrest h
            · cases h

theorem newManager_not_registered {err : Err} (hp : err.is .parentNotRegistered = true)
    (h : newManager cfg = .error err) : ∃ p ∈ cfg.bindings.entries, ∃ name, p.2.parentKeyProvider = some name ∧
      ∃ names, cfg.registry = some names ∧ name ∉ names :=
  newProcessors_not_registered hp (map_eq_error.1 h)

end

end Krypton
