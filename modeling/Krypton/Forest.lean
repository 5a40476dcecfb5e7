import Mathlib.Data.List.Count
import Krypton.Material

/-!
# The forest of keys

The keys of the root form a forest that follows the hierarchy: a key without a parent is of a kind with the root role,
and the parent of any other key is stored in the same tenant, one position earlier in the hierarchy (`Forest`). The
position of its kind is therefore a rank that goes down by one from a key to its parent, and each recursion along
parents ends.

* `DB.chain_stable`, `DB.layersFrom_stable` — the recursive queries end in any database with a rank;
* `forest_step` — a step of the root keeps the forest;
* `resolveSecret_stable`, `resolveSecret_ends` — reading a secret back goes up no further than the key's position;
* `keys_form_forest` — the forest in every reachable state, and what follows for the three recursions.
-/

namespace Krypton

open Lib

/-! ## Recursive queries -/

namespace DB

variable {db : DB} {rank : Key → Nat}

/-- The parent of a key, as the query for ancestors looks it up. -/
def parentOf (db : DB) (k : Key) : Option Key :=
  k.parentID.bind fun p => db.keys.rows.find? fun r => r.id == p && r.tenantID == k.tenantID

theorem chain_succ (n : Nat) (k : Key) : db.chain (n + 1) k = k :: (db.parentOf k).elim [] (db.chain n) := by
  rw [chain, ← parentOf]
  cases db.parentOf k <;> rfl

theorem mem_of_parentOf {k p : Key} (h : db.parentOf k = some p) :
    p ∈ db.keys.rows ∧ k.parentID = some p.id ∧ p.tenantID = k.tenantID := by
  obtain ⟨pid, hpid, hfind⟩ := Option.bind_eq_some_iff.1 h
  have hsel := List.find?_some hfind
  simp only [Bool.and_eq_true, beq_iff_eq] at hsel
  exact ⟨List.mem_of_find?_eq_some hfind, hpid.trans (congrArg some hsel.1.symm), hsel.2⟩

theorem parentOf_of_mem {k p : Key} (hp : p ∈ db.keys.rows) (hid : k.parentID = some p.id)
    (ht : p.tenantID = k.tenantID) : db.parentOf k = some p := by
  unfold parentOf
  rw [hid, Option.bind_some]
  cases hfind : db.keys.rows.find? fun r => r.id == p.id && r.tenantID == k.tenantID with
  | none => exact absurd (List.find?_eq_none.1 hfind p hp) (by simp [ht])
  | some r =>
    have hsel := List.find?_some hfind
    simp only [Bool.and_eq_true, beq_iff_eq] at hsel
    rw [key_eq_of_id (List.mem_of_find?_eq_some hfind) hp hsel.1]

/-- When ranks fall from a key to its parent, the chain of ancestors ends by itself after at most `rank k` of them. -/
theorem chain_stable (hrank : ∀ k ∈ db.keys.rows, ∀ p, db.parentOf k = some p → rank p < rank k) {b : Nat} {k : Key}
    (hk : k ∈ db.keys.rows) (hb : rank k ≤ b) :
    (db.chain b k).length ≤ rank k + 1 ∧ ∀ n ≥ b, db.chain n k = db.chain b k := by
  induction b generalizing k with
  | zero =>
    have hnone : db.parentOf k = none := by
      cases hp : db.parentOf k with
      | none => rfl
      | some p =>
        have hlt := hrank k hk p hp
        omega
    refine ⟨Nat.le_add_left _ _, fun n _ => ?_⟩
    cases n with
    | zero => rfl
    | succ n =>
      rw [chain_succ, hnone]
      rfl
  | succ b ih =>
    rw [chain_succ]
    cases hp : db.parentOf k with
    | none =>
      refine ⟨Nat.le_add_left _ _, fun n hn => ?_⟩
      obtain ⟨n, rfl⟩ := Nat.exists_eq_add_of_le' (Nat.le_of_add_left_le hn)
      rw [chain_succ, hp]
      rfl
    | some p =>
      have hlt := hrank k hk p hp
      obtain ⟨hlen, hstable⟩ := ih (mem_of_parentOf hp).1 (by omega)
      refine ⟨?_, fun n hn => ?_⟩
      · simp only [Option.elim, List.length_cons]
        omega
      · obtain ⟨n, rfl⟩ := Nat.exists_eq_add_of_le' (Nat.le_of_add_left_le hn)
        rw [chain_succ, hp]
        exact congrArg (k :: ·) (hstable n (by omega))

/-- When ranks fall from a key to its children, the layers below a layer end by themselves. -/
theorem layersFrom_stable (filters : List KeyFilter) (hrank : ∀ k ∈ db.keys.rows, ∀ p ∈ db.keys.rows,
      k.parentID = some p.id → rank k < rank p) {b : Nat} {layer : List Key}
    (hl : ∀ k ∈ layer, k ∈ db.keys.rows ∧ rank k ≤ b) :
    (db.layersFrom filters b layer).length ≤ b + 1 ∧ ∀ n ≥ b,
      db.layersFrom filters n layer = db.layersFrom filters b layer := by
  have hchild : ∀ {layer : List Key} {b : Nat}, (∀ k ∈ layer, k ∈ db.keys.rows ∧ rank k ≤ b) →
      ∀ k ∈ db.childLayer filters layer, k ∈ db.keys.rows ∧ rank k < b := by
    intro layer b hl k hk
    obtain ⟨hk, -, p, hp, hid, -⟩ := mem_childLayer.1 hk
    obtain ⟨hp, hle⟩ := hl p hp
    exact ⟨hk, Nat.lt_of_lt_of_le (hrank k hk p hp hid) hle⟩
  induction b generalizing layer with
  | zero =>
    cases layer with
    | nil => simp
    | cons x xs =>
      refine ⟨Nat.le_refl 1, fun n _ => ?_⟩
      have hnil : db.childLayer filters (x :: xs) = [] :=
        List.eq_nil_iff_forall_not_mem.2 fun k hk => Nat.not_lt_zero _ (hchild hl k hk).2
      cases n with
      | zero => rfl
      | succ n =>
        rw [layersFrom_cons, hnil, layersFrom_nil]
        rfl
  | succ b ih =>
    cases layer with
    | nil => simp
    | cons x xs =>
      obtain ⟨hlen, hstable⟩ := ih fun k hk => ⟨(hchild hl k hk).1, Nat.le_of_lt_succ (hchild hl k hk).2⟩
      refine ⟨?_, fun n hn => ?_⟩
      · rw [layersFrom_cons, List.length_cons]
        omega
      · obtain ⟨n, rfl⟩ := Nat.exists_eq_add_of_le' (Nat.le_of_add_left_le hn)
        rw [layersFrom_cons, layersFrom_cons]
        exact congrArg ((x :: xs) :: ·) (hstable n (by omega))

end DB

/-! ## The forest -/

/-- The key has its place in the hierarchy, below a stored key of the same tenant. -/
structure Placed (h : KeyHierarchy) (db : DB) (k : KeyIdent) : Prop where
  role : ∃ spec, h.findKeySpec k.kind = some spec ∧ (k.parentID = none ↔ spec.role = .root)
  parent : ∀ pid, k.parentID = some pid → ∃ p, db.HasKey p ∧ p.id = pid ∧ p.tenantID = k.tenantID ∧
    ∃ i, h.indexOf p.kind = some i ∧ h.indexOf k.kind = some (i + 1)

/-- Every key has its place. -/
def Forest (h : KeyHierarchy) (db : DB) : Prop := ∀ k, db.HasKey k → Placed h db k

section
variable {R : RootProcess} {A : World → Env → AdminCall → Prop} {e : Env} {w w' : World} {h : KeyHierarchy}
    {db db' : DB}

theorem Placed.mono {k : KeyIdent} (hp : Placed h db k) (hkeep : ∀ i, db.HasKey i → db'.HasKey i) : Placed h db' k where
  role := hp.role
  parent pid hpid := by
    obtain ⟨p, hkey, hrest⟩ := hp.parent pid hpid
    exact ⟨p, hkeep p hkey, hrest⟩

/-- An announced key has its place. -/
theorem NewKey.placed {req : AnnounceKeyRequest} {row : Key} (hnew : NewKey R e req db row db') :
    Placed R.cfg.hierarchy db row.ident := by
  obtain ⟨spec, hspec, hparent⟩ := Validator.validateKeyHierarchy_ok hnew.hierarchy
  have hkind : row.ident.kind = (announcedKey R e req).kind := by
    have hrow := congrArg Key.kind hnew.inserted.row_eq
    exact hrow
  obtain ⟨hbind, hnone⟩ := hnew.inserted.parentID
  refine ⟨⟨spec, by rw [hkind]; exact hspec, ?_⟩, fun pid hpid => ?_⟩
  · change row.parentID = none ↔ _
    rw [← hnone]
    rcases hparent with ⟨hn, hrole⟩ | ⟨hrole, _, _, _, hsome, -⟩
    · exact ⟨fun _ => hrole, fun _ => hn⟩
    · rw [hsome]
      exact ⟨nofun, fun h => absurd h hrole⟩
  · rcases hparent with ⟨hn, -⟩ | ⟨-, parentID, parent, i, hsome, hfound, hi, hk⟩
    · exact absurd (hpid.symm.trans (hnone.1 hn)) nofun
    · obtain ⟨hmem, hid, ht⟩ := DB.getKeyByID_ok hfound
      rw [hsome] at hbind
      have hpid' : row.parentID = some pid := hpid
      refine ⟨parent.ident, ⟨parent, hmem, rfl⟩, ?_, ?_, i, hi, by rw [hkind]; exact hk⟩
      · exact Option.some.inj (hid.symm.trans (hbind.trans hpid'))
      · exact Option.some.inj (ht.symm.trans hnew.inserted.tenantID)

/-- A step keeps the forest. -/
theorem forest_step (s : RootState) (op : Env × Op) (hf : Forest R.cfg.hierarchy s.world.db) :
    Forest R.cfg.hierarchy (step R s op).world.db := by
  rintro k ⟨row, hrow, rfl⟩
  have hkeep : ∀ i, s.world.db.HasKey i → (step R s op).world.db.HasKey i := fun i => step_keeps op
  rcases step_growsKeys s op row hrow with hold | ⟨req, hnew⟩
  · exact (hf row.ident hold).mono hkeep
  · exact hnew.placed.mono hkeep

/-! ## Versions below the versions of the parent -/

/-- The version belongs to a stored key, and is below the key's parent or below nothing. -/
def VersionPlaced (db : DB) (i : KeyVersionIdent) : Prop :=
  ∃ k, db.HasKey k ∧ k.id = i.keyID ∧ k.tenantID = i.tenantID ∧ (i.parentKeyID = none ∨ i.parentKeyID = k.parentID)

theorem Added.placed {row : KeyVersion} (hadd : Added e w row) : VersionPlaced w.db row.ident := by
  cases hadd with
  | derived hd => exact ⟨_, ⟨_, hd.stored, rfl⟩, rfl, rfl, .inr rfl⟩
  | provider hk _ _ _ hi =>
    obtain ⟨hkey, hid, ht⟩ := hk.hasKey
    refine ⟨_, hkey, Option.some.inj (hid.symm.trans hi.keyID), Option.some.inj (ht.symm.trans hi.tenantID), .inl ?_⟩
    exact hi.parentKeyID.2.1 rfl

theorem versionPlaced_change (hc : Change R A e w w') (hkeep : ∀ i, w.db.HasKey i → w'.db.HasKey i)
    (hv : ∀ i, w.db.HasVersion i → VersionPlaced w.db i) {i : KeyVersionIdent} (hi : w'.db.HasVersion i) :
    VersionPlaced w'.db i := by
  have hplaced : VersionPlaced w.db i := by
    rcases hc.version_cases hi with hold | ⟨row, hadd, rfl⟩
    · exact hv i hold
    · exact hadd.placed
  obtain ⟨k, hk, hrest⟩ := hplaced
  exact ⟨k, hkeep k hk, hrest⟩

/-! ## The recursions end -/

/-- The position of a key's kind. -/
def KeyHierarchy.position (h : KeyHierarchy) (k : Key) : Nat := (h.indexOf k.kind).getD 0

theorem KeyHierarchy.indexOf_lt {kind : String} {i : Nat} (hi : h.indexOf kind = some i) : i < h.keySpecs.length := by
  unfold indexOf at hi
  rw [List.findIdx?_eq_some_iff_getElem] at hi
  exact hi.1

theorem Forest.position_lt (hf : Forest h db) {k : Key} (hk : k ∈ db.keys.rows) : h.position k < h.keySpecs.length := by
  obtain ⟨spec, hspec, -⟩ := (hf k.ident ⟨k, hk, rfl⟩).role
  obtain ⟨i, hi, -⟩ := KeyHierarchy.findKeySpec_eq_some.1 hspec
  have hi : h.indexOf k.kind = some i := hi
  have hlt := KeyHierarchy.indexOf_lt hi
  rwa [KeyHierarchy.position, hi]

/-- A key is one position below its parent. -/
theorem Forest.position_parent (hf : Forest h db) {k p : Key} (hk : k ∈ db.keys.rows) (hp : p ∈ db.keys.rows)
    (hid : k.parentID = some p.id) : h.position k = h.position p + 1 := by
  obtain ⟨p', hp', hid', -, i, hi, hki⟩ := (hf k.ident ⟨k, hk, rfl⟩).parent p.id hid
  obtain rfl := DB.eq_of_hasKey hp' ⟨p, hp, rfl⟩ hid'
  have hi : h.indexOf p.kind = some i := hi
  have hki : h.indexOf k.kind = some (i + 1) := hki
  rw [KeyHierarchy.position, KeyHierarchy.position, hi, hki]
  rfl

/-- A version below another is of a key one position below the other's key. -/
theorem Forest.versionParent (hf : Forest h db) {kv : KeyVersion} (hv : VersionPlaced db kv.ident) {k : Key}
    (hk : k ∈ db.keys.rows) (hid : kv.keyID = k.id) {pid : String} (hpid : kv.parentKeyID = some pid) :
    ∃ p ∈ db.keys.rows, p.id = pid ∧ h.position k = h.position p + 1 := by
  obtain ⟨k', hk', hid', -, hnone | hparent⟩ := hv
  · exact absurd (hpid.symm.trans hnone) nofun
  · obtain rfl := DB.eq_of_hasKey hk' ⟨k, hk, rfl⟩ (hid'.trans hid)
    have hkp : k.parentID = some pid := hparent.symm.trans hpid
    obtain ⟨_, ⟨p, hp, rfl⟩, hpid', -⟩ := (hf k.ident ⟨k, hk, rfl⟩).parent pid hkp
    exact ⟨p, hp, hpid', hf.position_parent hk hp (hkp.trans (congrArg some hpid'.symm))⟩

/-- Where one condition is stricter than another on a list, and strictly so, it holds less often. -/
theorem countP_lt_countP {α : Type} {l : List α} {p q : α → Bool} (hpq : ∀ a ∈ l, p a = true → q a = true) {a : α}
    (ha : a ∈ l) (hp : p a = false) (hq : q a = true) : l.countP p < l.countP q := by
  have hsub : (l.filter q).countP p = l.countP p := by
    rw [List.countP_filter]
    refine List.countP_congr fun b hb => ?_
    rw [Bool.and_eq_true]
    exact ⟨fun h => h.1, fun h => ⟨h, hpq b hb h⟩⟩
  rw [← hsub, List.countP_eq_length_filter (p := q)]
  refine List.countP_lt_length_iff.2 ⟨a, List.mem_filter.2 ⟨ha, hq⟩, hp⟩

/-- No chain of ancestors is longer than the hierarchy, or than the table. -/
theorem Forest.chain_stable (hf : Forest h db) {k : Key} (hk : k ∈ db.keys.rows) :
    (db.chain h.keySpecs.length k).length ≤ h.keySpecs.length ∧
      ∀ n, h.keySpecs.length ≤ n ∨ db.keys.rows.length ≤ n → db.chain n k = db.chain h.keySpecs.length k := by
  have hup : ∀ k ∈ db.keys.rows, ∀ p, db.parentOf k = some p → h.position p < h.position k := by
    intro k hk p hp
    obtain ⟨hmem, hid, -⟩ := DB.mem_of_parentOf hp
    rw [hf.position_parent hk hmem hid]
    exact Nat.lt_succ_self _
  -- the keys higher up in the hierarchy
  have hcount : ∀ k ∈ db.keys.rows, ∀ p, db.parentOf k = some p →
      db.keys.rows.countP (fun r => h.position r < h.position p) < db.keys.rows.countP fun r =>
        h.position r < h.position k := by
    intro k hk p hp
    have hlt := hup k hk p hp
    refine countP_lt_countP (fun r _ hr => ?_) (DB.mem_of_parentOf hp).1 (by simp) (by simpa using hlt)
    simp only [decide_eq_true_eq] at hr ⊢
    omega
  have hpos := hf.position_lt hk
  obtain ⟨hlen, hstable⟩ := DB.chain_stable hup hk (Nat.le_of_lt hpos)
  obtain ⟨-, hstable'⟩ := DB.chain_stable hcount hk List.countP_le_length
  refine ⟨by omega, fun n hn => ?_⟩
  rcases hn with hn | hn
  · exact hstable n hn
  · rw [hstable' n hn, ← hstable' (max _ _) (Nat.le_max_left _ h.keySpecs.length)]
    exact hstable _ (Nat.le_max_right _ _)

/-- No tree has more layers than the hierarchy has positions, or than the table has rows. -/
theorem Forest.layersFrom_stable (hf : Forest h db) {k : Key} (hk : k ∈ db.keys.rows) (filters : List DB.KeyFilter) :
    (db.layersFrom filters h.keySpecs.length [k]).length ≤ h.keySpecs.length ∧
      ∀ n, h.keySpecs.length ≤ n ∨ db.keys.rows.length ≤ n →
        db.layersFrom filters n [k] = db.layersFrom filters h.keySpecs.length [k] := by
  -- what is left of the hierarchy below a key, and the keys lower down in it
  have hdown : ∀ c ∈ db.keys.rows, ∀ p ∈ db.keys.rows, c.parentID = some p.id →
      h.keySpecs.length - 1 - h.position c < h.keySpecs.length - 1 - h.position p := by
    intro c hc p hp hid
    have hpos := hf.position_parent hc hp hid
    have hlt := hf.position_lt hc
    omega
  have hcount : ∀ c ∈ db.keys.rows, ∀ p ∈ db.keys.rows, c.parentID = some p.id →
      db.keys.rows.countP (fun r => h.position c < h.position r) < db.keys.rows.countP fun r =>
        h.position p < h.position r := by
    intro c hc p hp hid
    have hpos := hf.position_parent hc hp hid
    refine countP_lt_countP (fun r _ hr => ?_) hc (by simp) (by simpa using (by omega : h.position p < h.position c))
    simp only [decide_eq_true_eq] at hr ⊢
    omega
  have hpos := hf.position_lt hk
  have htop : ∀ c ∈ [k], c ∈ db.keys.rows := fun c hc => List.mem_singleton.1 hc ▸ hk
  obtain ⟨hlen, hstable⟩ := DB.layersFrom_stable filters (b := h.keySpecs.length - 1) hdown
    fun c hc => ⟨htop c hc, Nat.sub_le _ _⟩
  obtain ⟨-, hstable'⟩ := DB.layersFrom_stable filters hcount fun c hc => ⟨htop c hc, List.countP_le_length⟩
  have hsame := hstable h.keySpecs.length (by omega)
  refine ⟨?_, fun n hn => ?_⟩
  · rw [hsame]
    omega
  · rcases hn with hn | hn
    · exact (hstable n (by omega)).trans hsame.symm
    · rw [hstable' n hn, ← hstable' (max _ _) (Nat.le_max_left _ h.keySpecs.length), hsame]
      exact hstable _ (Nat.le_trans (Nat.sub_le _ _) (Nat.le_max_right _ _))

/-- What serves a request for the parent of a stored version is a version of that parent. -/
theorem Serves.version_of_parent {C : Cluster} {S : ClusterState} (hdb : ∀ node, S.db node = db) {kv : KeyVersion}
    (hkv : kv ∈ db.keyVersions.rows) {pid : String} (hpid : kv.parentKeyID = some pid) {target tenantID : String}
    {version : Nat} {k' : Key} {kv' : KeyVersion} {p : Processor}
    (h : Serves C S target tenantID pid version k' kv' p) : kv' ∈ db.keyVersions.rows ∧ kv'.keyID = pid := by
  obtain ⟨hkv', -, hid, -⟩ := h.version
  have hcanon : Canonical pid := (keyVersion_canonical hkv).2.2 pid hpid
  exact ⟨hdb target ▸ hkv', Option.some.inj (hid.symm.trans hcanon)⟩

/-- Reading a secret back goes up at most as many keys as the key's position. -/
theorem resolveSecret_stable {C : Cluster} {S : ClusterState} (hdb : ∀ node, S.db node = db)
    (hf : Forest h db) (hv : ∀ i, db.HasVersion i → VersionPlaced db i) {i : Nat} :
    ∀ {k : Key} {kv : KeyVersion} {p : Processor} {node : String} {n m : Nat}, k ∈ db.keys.rows → h.position k = i →
      kv ∈ db.keyVersions.rows → kv.keyID = k.id → i ≤ n → i ≤ m →
        resolveSecret C S (unsealVia C S n node) p kv = resolveSecret C S (unsealVia C S m node) p kv := by
  induction i with
  | zero =>
    intro k kv p node n m hk hpos hkv hid _ _
    refine resolveSecret_congr fun sec aad => ?_
    unfold callParent
    cases hpid : kv.parentKeyID with
    | none => rfl
    | some pid =>
      obtain ⟨pr, hpr, -, hpos'⟩ := hf.versionParent (hv _ ⟨kv, hkv, rfl⟩) hk hid hpid
      omega
  | succ i ih =>
    intro k kv p node n m hk hpos hkv hid hn hm
    obtain ⟨n, rfl⟩ := Nat.exists_eq_add_of_le' (Nat.le_of_add_left_le hn)
    obtain ⟨m, rfl⟩ := Nat.exists_eq_add_of_le' (Nat.le_of_add_left_le hm)
    refine resolveSecret_congr fun sec aad => ?_
    unfold callParent
    cases hpid : kv.parentKeyID with
    | none => rfl
    | some pid =>
      obtain ⟨pr, hpr, hprid, hpos'⟩ := hf.versionParent (hv _ ⟨kv, hkv, rfl⟩) hk hid hpid
      dsimp only
      rw [unsealVia, unsealVia]
      split
      · rfl
      · rename_i href
        cases hreach : reach C node p.parent ⟨kv.tenantID, pid, kv.parentKeyVersion.getD 0, sec, aad⟩ with
        | error err => rfl
        | ok x =>
          obtain ⟨target, req⟩ := x
          obtain ⟨v, hr, -, rfl⟩ := reach_ok href hreach
          refine managerUnseal_congr fun k' kv' p' hserves => ?_
          -- the parent's version belongs to the parent, one position up
          obtain ⟨hkv', hid'⟩ := hserves.version_of_parent hdb hkv hpid
          exact ih hpr (by omega) hkv' (hid'.trans hprid.symm) (by omega) (by omega)

/-- Reading a secret back does not run out of fuel when there is as much as the key's position. -/
theorem resolveSecret_ends {C : Cluster} {S : ClusterState} (hdb : ∀ node, S.db node = db)
    (hf : Forest h db) (hv : ∀ i, db.HasVersion i → VersionPlaced db i) {n : Nat} :
    ∀ {k : Key} {kv : KeyVersion} {p : Processor} {node : String}, k ∈ db.keys.rows → h.position k ≤ n →
      kv ∈ db.keyVersions.rows → kv.keyID = k.id → Ends (resolveSecret C S (unsealVia C S n node) p kv) := by
  induction n with
  | zero =>
    intro k kv p node hk hpos hkv hid
    refine ends_resolveSecret fun sec aad => ?_
    unfold callParent
    cases hpid : kv.parentKeyID with
    | none => simp
    | some pid =>
      obtain ⟨pr, -, -, hpos'⟩ := hf.versionParent (hv _ ⟨kv, hkv, rfl⟩) hk hid hpid
      omega
  | succ n ih =>
    intro k kv p node hk hpos hkv hid
    refine ends_resolveSecret fun sec aad => ?_
    unfold callParent
    cases hpid : kv.parentKeyID with
    | none => simp
    | some pid =>
      obtain ⟨pr, hpr, hprid, hpos'⟩ := hf.versionParent (hv _ ⟨kv, hkv, rfl⟩) hk hid hpid
      dsimp only
      rw [unsealVia]
      split
      · exact ends_rootUnseal
      · rename_i href
        refine ends_reach.bind fun x hreach => ?_
        obtain ⟨target, req⟩ := x
        obtain ⟨v, hr, -, rfl⟩ := reach_ok href hreach
        refine ends_managerUnseal fun k' kv' p' hserves => ?_
        obtain ⟨hkv', hid'⟩ := hserves.version_of_parent hdb hkv hpid
        exact ih hpr (by omega) hkv' (hid'.trans hprid.symm)

/-! ## Every reachable state -/

theorem forest_run (R : RootProcess) (ops : List (Env × Op)) : Forest R.cfg.hierarchy (worldAfter R ops).db :=
  run_inv_always (I := fun s : RootState => Forest R.cfg.hierarchy s.world.db) forest_step
    (fun _ ⟨_, hk, _⟩ => absurd hk List.not_mem_nil) ops

theorem versionPlaced_run (R : RootProcess) (ops : List (Env × Op)) :
    ∀ i, (worldAfter R ops).db.HasVersion i → VersionPlaced (worldAfter R ops).db i := by
  refine run_inv_always (I := fun s : RootState => ∀ i, s.world.db.HasVersion i → VersionPlaced s.world.db i) ?_
    (fun _ ⟨_, hk, _⟩ => absurd hk List.not_mem_nil) ops
  intro s op hv i hi
  have hc : Change R (fun _ _ _ => True) op.1 s.world (step R s op).world := step_change s op fun _ _ => trivial
  exact versionPlaced_change hc (fun _ => step_keeps op) hv hi

end

/-- **The key table is a forest that follows the hierarchy.** In every reachable state each key has its place; so no
chain of parents is longer than the hierarchy, and the recursions that read ancestors, descendants and secrets go no
further once they have gone as far as the hierarchy is long; reading a secret never stops because its fuel is used
up. -/
theorem keys_form_forest (R : RootProcess) (ops : List (Env × Op)) :
    Forest R.cfg.hierarchy (worldAfter R ops).db ∧
      (∀ k ∈ (worldAfter R ops).db.keys.rows, ((worldAfter R ops).db.chain R.fuel k).length ≤ R.fuel ∧
        ∀ n, R.fuel ≤ n ∨ (worldAfter R ops).db.keys.rows.length ≤ n →
          (worldAfter R ops).db.chain n k = (worldAfter R ops).db.chain R.fuel k) ∧
      (∀ k ∈ (worldAfter R ops).db.keys.rows, ∀ filters,
        ((worldAfter R ops).db.layersFrom filters R.fuel [k]).length ≤ R.fuel ∧
          ∀ n, R.fuel ≤ n ∨ (worldAfter R ops).db.keys.rows.length ≤ n →
            (worldAfter R ops).db.layersFrom filters n [k] = (worldAfter R ops).db.layersFrom filters R.fuel [k]) ∧
      ∀ kv ∈ (worldAfter R ops).db.keyVersions.rows, ∀ node p, ∀ n ≥ R.fuel,
        resolveSecret R.cluster (worldAfter R ops).cluster
          (unsealVia R.cluster (worldAfter R ops).cluster n node) p kv =
          resolveSecret R.cluster (worldAfter R ops).cluster
            (unsealVia R.cluster (worldAfter R ops).cluster R.fuel node) p kv ∧
        ∀ err, resolveSecret R.cluster (worldAfter R ops).cluster
          (unsealVia R.cluster (worldAfter R ops).cluster n node) p kv = .error err → err.is .outOfFuel = false := by
  have hf := forest_run R ops
  have hv := versionPlaced_run R ops
  refine ⟨hf, fun k hk => hf.chain_stable hk, fun k hk => hf.layersFrom_stable hk, fun kv hkv node p n hn => ?_⟩
  obtain ⟨_, ⟨k, hk, rfl⟩, hid, -⟩ := hv kv.ident ⟨kv, hkv, rfl⟩
  have hpos := hf.position_lt hk
  have hlen : R.cfg.hierarchy.position k ≤ n := Nat.le_trans (Nat.le_of_lt hpos) hn
  exact ⟨resolveSecret_stable (fun _ => rfl) hf hv hk rfl hkv hid.symm hlen (Nat.le_of_lt hpos),
    resolveSecret_ends (fun _ => rfl) hf hv hk hlen hkv hid.symm⟩

end Krypton
