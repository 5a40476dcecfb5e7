import Krypton.Store

/-!
# What the statements do

One lemma for each statement of the database, saying what its result means for the rows. Updates of keys all have one
form, `DB.markKeys`: the keys with the given identifiers get new states.

* `getKeyByID_ok`, `getKeyByID_of_mem` — reading a key;
* `updateKeyStates_ok` — a compare-and-set that matched;
* `createKey_ok` — an insert;
* `createKeyVersion_ok`, `updateKeyVersionStates_ok` — the statements on key versions;
* `listKeyVersions_head` — the first row of a listing.
-/

namespace Krypton

open Lib

theorem table_ext {α ι : Type} {S : Schema α ι} {t t' : Table S} (h : t.rows = t'.rows) : t = t' := by
  cases t; cases t'; cases h; rfl

/-! ## Identifiers -/

theorem keyParams_ok {id tenantID : String} {i t : Uuid} :
    keyParams id tenantID = .ok (i, t) ↔ uuidIn id = some i.text ∧ uuidIn tenantID = some t.text := by
  unfold keyParams
  split
  · rename_i i' t' hi ht
    rw [Uuid.parse_eq_some] at hi ht
    constructor
    · rintro ⟨⟩; exact ⟨hi, ht⟩
    · rintro ⟨hi', ht'⟩
      rw [hi, Option.some.injEq] at hi'
      rw [ht, Option.some.injEq] at ht'
      cases i; cases t; cases i'; cases t'
      cases hi'; cases ht'; rfl
  · rename_i hn
    simp only [reduceCtorEq, false_iff, not_and]
    intro hi ht
    exact hn i t (Uuid.parse_eq_some.2 hi) (Uuid.parse_eq_some.2 ht)

theorem keyParams_congr {id id' tenantID tenantID' : String} (hid : uuidIn id = uuidIn id')
    (ht : uuidIn tenantID = uuidIn tenantID') : keyParams id tenantID = keyParams id' tenantID' := by
  rw [keyParams, keyParams, Uuid.parse_congr hid, Uuid.parse_congr ht]

theorem keyParams_error {id tenantID : String} {err : Err} (h : keyParams id tenantID = .error err) :
    err = errUuidSyntax := by
  unfold keyParams at h
  split at h
  · cases h
  · cases h; rfl

namespace DB

variable {db db' : DB}

theorem descendantParams_ok {id tenantID : String} {i t : Uuid} : descendantParams id tenantID = .ok (i, t) ↔
    ((uuidParse id).isSome = true ∧ (uuidParse tenantID).isSome = true) ∧ keyParams id tenantID = .ok (i, t) := by
  simp only [descendantParams, bind_unit_eq_ok, check_eq_ok, and_assoc]

theorem getDescendantKeys_of_params {id tenantID : String} {i t : Uuid} {filters : List KeyFilter}
    (h : descendantParams id tenantID = .ok (i, t)) : db.getDescendantKeys id tenantID filters =
      match db.keys.rows.find? fun r => r.id == i.text && r.tenantID == t.text && passes filters r with
      | none => .error (.of .keyNotFound)
      | some k => .ok (db.layersFrom filters db.keys.rows.length [k]) := by
  rw [getDescendantKeys, h]
  rfl

/-! ## Rows of keys -/

theorem key_eq_of_id {k k' : Key} (h : k ∈ db.keys.rows) (h' : k' ∈ db.keys.rows) (hid : k.id = k'.id) : k = k' :=
  db.keys.eq_of_clash h h' (by simp [keySchema, Key.ident, hid])

theorem key_eq_of_name {k k' : Key} (h : k ∈ db.keys.rows) (h' : k' ∈ db.keys.rows) (ht : k.tenantID = k'.tenantID)
    (hn : k.name = k'.name) : k = k' :=
  db.keys.eq_of_clash h h' (by simp [keySchema, Key.ident, ht, hn])

theorem ids_nodup (db : DB) : (db.keys.rows.map Key.id).Nodup := by
  refine List.pairwise_map.2 ((List.pairwise_map.1 db.keys.apart).imp fun {a b} hab heq => ?_)
  simp [keySchema, Key.ident, heq] at hab

theorem key_canonical {k : Key} (h : k ∈ db.keys.rows) : Canonical k.id ∧ Canonical k.tenantID :=
  let ⟨h1, h2, _⟩ := db.keys.ok_of_mem h
  ⟨h1, h2⟩

/-- The identifiers of a stored key pass the checks of a query for descendants. -/
theorem descendantParams_of_mem {k : Key} (h : k ∈ db.keys.rows) :
    descendantParams k.id k.tenantID = .ok (⟨k.id, (key_canonical h).1⟩, ⟨k.tenantID, (key_canonical h).2⟩) := by
  obtain ⟨hid, ht⟩ := key_canonical h
  exact descendantParams_ok.2 ⟨⟨Option.isSome_of_mem hid.parse, Option.isSome_of_mem ht.parse⟩,
    keyParams_ok.2 ⟨hid, ht⟩⟩

theorem getKeyByID_ok {id tenantID : String} {k : Key} (h : db.getKeyByID id tenantID = .ok k) :
    k ∈ db.keys.rows ∧ uuidIn id = some k.id ∧ uuidIn tenantID = some k.tenantID := by
  unfold getKeyByID at h
  split at h
  · cases h
  · rename_i i t hp
    obtain ⟨hi, ht⟩ := keyParams_ok.1 hp
    split at h
    · rename_i r hr
      cases h
      have hmem := List.mem_of_find?_eq_some hr
      have hsel := List.find?_some hr
      simp only [Bool.and_eq_true, beq_iff_eq] at hsel
      exact ⟨hmem, by rw [hi, hsel.1], by rw [ht, hsel.2]⟩
    · cases h

theorem getKeyByID_of_parse {id tenantID : String} {k : Key} (h : k ∈ db.keys.rows) (hid : uuidIn id = some k.id)
    (ht : uuidIn tenantID = some k.tenantID) : db.getKeyByID id tenantID = .ok k := by
  have hp : keyParams id tenantID = .ok (⟨k.id, (key_canonical h).1⟩, ⟨k.tenantID, (key_canonical h).2⟩) :=
    keyParams_ok.2 ⟨hid, ht⟩
  unfold getKeyByID
  rw [hp]
  have hf := Table.find_eq_some (t := db.keys) (p := fun r => r.id == k.id && r.tenantID == k.tenantID) h (by simp)
    fun b hb hbk => key_eq_of_id hb h (by simp only [Bool.and_eq_true, beq_iff_eq] at hbk; exact hbk.1)
  simp only [hf]

/-- A stored key is found by its own identifiers. -/
theorem getKeyByID_of_mem {k : Key} (h : k ∈ db.keys.rows) : db.getKeyByID k.id k.tenantID = .ok k :=
  getKeyByID_of_parse h (key_canonical h).1 (key_canonical h).2

theorem getKeyByID_error {id tenantID : String} {err : Err} (h : db.getKeyByID id tenantID = .error err) :
    err = errUuidSyntax ∨ err = .of .keyNotFound := by
  unfold getKeyByID at h
  split at h
  · rename_i er hp
    cases h
    exact .inl (keyParams_error hp)
  · split at h
    · cases h
    · cases h; exact .inr rfl

theorem getKeyByName_ok {tenantID name : String} {k : Key} (h : db.getKeyByName tenantID name = .ok k) :
    k ∈ db.keys.rows ∧ uuidIn tenantID = some k.tenantID ∧ k.name = name := by
  unfold getKeyByName at h
  split at h
  · cases h
  · rename_i t ht
    split at h
    · rename_i r hr
      cases h
      have hsel := List.find?_some hr
      simp only [Bool.and_eq_true, beq_iff_eq] at hsel
      exact ⟨List.mem_of_find?_eq_some hr, by rw [Uuid.parse_eq_some.1 ht, hsel.1], hsel.2⟩
    · cases h

/-! ## Tenants -/

/-- An upsert of a tenant leaves the other tables alone, and every tenant stays. -/
theorem upsertTenant_ok {t : Tenant} (h : db.upsertTenant t = .ok db') :
    db'.node = db.node ∧ db'.keys = db.keys ∧ db'.keyVersions = db.keyVersions ∧
      ∀ r ∈ db.tenants.rows, ∃ r' ∈ db'.tenants.rows, r'.id = r.id := by
  unfold upsertTenant at h
  split at h
  · cases h
  · split at h
    · rename_i tenants hins
      cases h
      exact ⟨rfl, rfl, rfl, fun r hr => ⟨r, (Table.mem_insert hins).2 (.inl hr), rfl⟩⟩
    · cases h
      refine ⟨rfl, rfl, rfl, fun r hr => ⟨_, List.mem_map_of_mem hr, ?_⟩⟩
      split <;> rfl

/-- After an upsert a tenant is one from before, or has the name and labels that were given. -/
theorem mem_upsertTenant {t r : Tenant} (h : db.upsertTenant t = .ok db') (hr : r ∈ db'.tenants.rows) :
    r ∈ db.tenants.rows ∨ r.name = t.name ∧ r.labels = t.labels := by
  unfold upsertTenant at h
  split at h
  · cases h
  · split at h
    · rename_i tenants hins
      cases h
      rcases (Table.mem_insert hins).1 hr with hr | rfl
      · exact .inl hr
      · exact .inr ⟨rfl, rfl⟩
    · cases h
      obtain ⟨r₀, hr₀, rfl⟩ := List.mem_map.1 hr
      dsimp only
      split
      · exact .inr ⟨rfl, rfl⟩
      · exact .inl hr₀

/-- Spellings of one identifier find the same tenant. -/
theorem getTenant_congr {id id' : String} (h : uuidIn id = uuidIn id') : db.getTenant id = db.getTenant id' := by
  rw [getTenant, getTenant, Uuid.parse_congr h]

theorem getTenant_ok {id : String} {t : Tenant} (h : db.getTenant id = .ok t) :
    t ∈ db.tenants.rows ∧ uuidIn id = some t.id := by
  unfold getTenant at h
  split at h
  · cases h
  · rename_i i hi
    split at h
    · rename_i r hr
      cases h
      have hid : t.id = i.text := by simpa using List.find?_some hr
      exact ⟨List.mem_of_find?_eq_some hr, by rw [hid]; exact Uuid.parse_eq_some.1 hi⟩
    · cases h

theorem getTenant_of_mem {id : String} {t : Tenant} (h : t ∈ db.tenants.rows) (hid : uuidIn id = some t.id) :
    db.getTenant id = .ok t := by
  have hp : Uuid.parse id = some ⟨t.id, uuidIn_idem hid⟩ := Uuid.parse_eq_some.2 hid
  unfold getTenant
  rw [hp]
  have hfind := Table.find_eq_some (t := db.tenants) (p := fun r => r.id == t.id) h (by simp)
    fun b hb hbt => db.tenants.eq_of_clash hb h (by simpa [tenantSchema] using hbt)
  simp only [hfind]

theorem getTenant_of_tenants (h : db'.tenants = db.tenants) (id : String) :
    db'.getTenant id = db.getTenant id := by
  rw [getTenant, getTenant, h]

/-! ## Updates of keys -/

/-- New states for a key. -/
def stateOf (lc : KeyLifeCycleState) (st : KeyProcessingStatus) (now : Int) (k : Key) : Key :=
  { k with lifeCycleState := lc, status := st, updatedAt := now }

/-- Give the keys with the listed identifiers new states. -/
def markKeys (db : DB) (ids : List String) (lc : KeyLifeCycleState) (st : KeyProcessingStatus) (now : Int) : DB :=
  { db with keys := db.keys.update (fun k => ids.contains k.id) (stateOf lc st now) (fun _ => rfl) }

/-- A row after marking. -/
def markKey (ids : List String) (lc : KeyLifeCycleState) (st : KeyProcessingStatus) (now : Int) (k : Key) : Key :=
  if ids.contains k.id then stateOf lc st now k else k

@[simp] theorem markKeys_keyVersions {ids lc st now} : (db.markKeys ids lc st now).keyVersions = db.keyVersions := rfl

theorem markKeys_keys_congr {ids lc st now} (h : db.keys = db'.keys) :
    (db.markKeys ids lc st now).keys = (db'.markKeys ids lc st now).keys := by
  simp only [markKeys, h]

theorem rows_markKeys {ids lc st now} :
    (db.markKeys ids lc st now).keys.rows = db.keys.rows.map (markKey ids lc st now) := rfl

theorem mem_markKeys {ids lc st now} {k' : Key} :
    k' ∈ (db.markKeys ids lc st now).keys.rows ↔ ∃ k ∈ db.keys.rows, markKey ids lc st now k = k' := by
  rw [rows_markKeys, List.mem_map]

@[simp] theorem markKey_ident {ids lc st now} {k : Key} : (markKey ids lc st now k).ident = k.ident := by
  unfold markKey; split <;> rfl

@[simp] theorem markKey_id {ids lc st now} {k : Key} : (markKey ids lc st now k).id = k.id := by
  unfold markKey; split <;> rfl

theorem markKey_of_mem {ids lc st now} {k : Key} (h : k.id ∈ ids) : markKey ids lc st now k = stateOf lc st now k := by
  simp [markKey, h]

theorem markKey_of_notMem {ids lc st now} {k : Key} (h : k.id ∉ ids) : markKey ids lc st now k = k := by
  simp [markKey, h]

/-- A marked database has the old rows and rows with the new status. -/
theorem mem_markKeys_cases {ids : List String} {lc : KeyLifeCycleState} {st : KeyProcessingStatus} {now : Int} {k : Key}
    (h : k ∈ (db.markKeys ids lc st now).keys.rows) :
    (k ∈ db.keys.rows ∧ k.id ∉ ids) ∨ (k.id ∈ ids ∧ k.lifeCycleState = lc ∧ k.status = st ∧
      ∃ k₀ ∈ db.keys.rows, k₀.ident = k.ident) := by
  obtain ⟨k₀, hk₀, rfl⟩ := mem_markKeys.1 h
  by_cases hid : k₀.id ∈ ids
  · rw [markKey_of_mem hid]
    exact .inr ⟨hid, rfl, rfl, k₀, hk₀, rfl⟩
  · rw [markKey_of_notMem hid]
    exact .inl ⟨hk₀, hid⟩

theorem markKeys_nil {lc st now} : db.markKeys [] lc st now = db := by
  have hrows : (db.markKeys [] lc st now).keys = db.keys := table_ext (by
    rw [rows_markKeys]
    exact (List.map_congr_left fun k _ => markKey_of_notMem (List.not_mem_nil)).trans (List.map_id _))
  cases db
  simp only [markKeys] at hrows ⊢
  rw [hrows]

theorem markKeys_markKeys {ids ids' lc st now} :
    (db.markKeys ids lc st now).markKeys ids' lc st now = db.markKeys (ids ++ ids') lc st now := by
  have hrows : ((db.markKeys ids lc st now).markKeys ids' lc st now).keys =
      (db.markKeys (ids ++ ids') lc st now).keys :=
    table_ext (by
      rw [rows_markKeys, rows_markKeys, rows_markKeys, List.map_map]
      refine List.map_congr_left fun k _ => ?_
      by_cases h : k.id ∈ ids <;> by_cases h' : k.id ∈ ids' <;>
        simp [markKey, stateOf, h, h'])
  simp only [markKeys] at hrows ⊢
  rw [hrows]

/-- A compare-and-set that matched: its key was in one of the expected states, and is now in the new ones. -/
theorem updateKeyStates_ok {q : UpdateKeyStatesQuery} (h : db.updateKeyStates q = .ok db') :
    ∃ k ∈ db.keys.rows, uuidIn q.id = some k.id ∧ uuidIn q.tenantID = some k.tenantID ∧
      (q.fromState = [] ∨ k.lifeCycleState ∈ q.fromState) ∧ (q.fromStatus = [] ∨ k.status ∈ q.fromStatus) ∧
        db' = db.markKeys [k.id] q.toState q.toStatus q.now := by
  unfold updateKeyStates at h
  split at h
  · cases h
  · rename_i i t hp
    obtain ⟨hi, ht⟩ := keyParams_ok.1 hp
    split at h
    · rename_i hany
      obtain ⟨k, hk, hsel⟩ := List.any_eq_true.1 hany
      have hsel' := hsel
      simp only [UpdateKeyStatesQuery.selects, Bool.and_eq_true, beq_iff_eq, Bool.or_eq_true, List.isEmpty_iff,
        List.contains_eq_mem, decide_eq_true_eq] at hsel
      obtain ⟨⟨⟨hid, htid⟩, hs⟩, hst⟩ := hsel
      refine ⟨k, hk, by rw [hi, hid], by rw [ht, htid], hs, hst, ?_⟩
      -- only the row of `k` is selected: identifiers are unique
      have hrow : ∀ r ∈ db.keys.rows, q.selects i.text t.text r = [k.id].contains r.id := by
        intro r hr
        by_cases hrk : r.id = k.id
        · rw [key_eq_of_id hr hk hrk, hsel']; simp
        · have : r.id ≠ i.text := fun he => hrk (he.trans hid.symm)
          simp [UpdateKeyStatesQuery.selects, this, hrk]
      have hkeys : db.keys.update (q.selects i.text t.text) q.set (fun _ => rfl) =
          (db.markKeys [k.id] q.toState q.toStatus q.now).keys := table_ext (by
        simp only [Table.update, Table.rows_modify, rows_markKeys]
        refine List.map_congr_left fun r hr => ?_
        rw [hrow r hr]
        rfl)
      cases h
      simp only [markKeys] at hkeys ⊢
      rw [hkeys]
    · cases h

/-- A compare-and-set on a stored key from states it is in succeeds. -/
theorem updateKeyStates_of_parse {k : Key} {q : UpdateKeyStatesQuery} (h : k ∈ db.keys.rows)
    (hid : uuidIn q.id = some k.id) (ht : uuidIn q.tenantID = some k.tenantID)
    (hs : q.fromState = [] ∨ k.lifeCycleState ∈ q.fromState) (hst : q.fromStatus = [] ∨ k.status ∈ q.fromStatus) :
    db.updateKeyStates q = .ok (db.markKeys [k.id] q.toState q.toStatus q.now) := by
  cases hu : db.updateKeyStates q with
  | ok db' =>
    obtain ⟨k', hk', hid', -, -, -, rfl⟩ := updateKeyStates_ok hu
    rw [show k'.id = k.id from Option.some.inj (hid'.symm.trans hid)]
  | error err =>
    exfalso
    have hp : keyParams q.id q.tenantID = .ok (⟨k.id, (key_canonical h).1⟩, ⟨k.tenantID, (key_canonical h).2⟩) :=
      keyParams_ok.2 ⟨hid, ht⟩
    simp only [updateKeyStates, hp] at hu
    split at hu
    · cases hu
    · rename_i hn
      exact hn (List.any_eq_true.2 ⟨k, h, by simp [UpdateKeyStatesQuery.selects, hs, hst]⟩)

theorem updateKeyStates_of_mem {k : Key} (h : k ∈ db.keys.rows) (lc : KeyLifeCycleState) (st : KeyProcessingStatus)
    (now : Int) : db.updateKeyStates ⟨k.id, k.tenantID, lc, st, [k.lifeCycleState], [k.status], now⟩ =
      .ok (db.markKeys [k.id] lc st now) :=
  updateKeyStates_of_parse h (key_canonical h).1 (key_canonical h).2 (.inr (List.mem_singleton_self _))
    (.inr (List.mem_singleton_self _))

/-! ## Trees of keys -/

theorem mem_childLayer {filters : List KeyFilter} {layer : List Key} {k : Key} :
    k ∈ db.childLayer filters layer ↔ k ∈ db.keys.rows ∧ passes filters k = true ∧
      ∃ p ∈ layer, k.parentID = some p.id ∧ k.tenantID = p.tenantID := by
  simp [childLayer, List.mem_insertionSort]

@[simp] theorem layersFrom_nil {filters : List KeyFilter} (n : Nat) :
    db.layersFrom filters n [] = [] := by cases n <;> rfl

theorem layersFrom_cons {filters : List KeyFilter} (n : Nat) (x : Key) (xs : List Key) :
    db.layersFrom filters (n + 1) (x :: xs) = (x :: xs) :: db.layersFrom filters n (db.childLayer filters (x :: xs)) :=
  rfl

theorem iterate_childLayer_nil {filters : List KeyFilter} : ∀ n : Nat, (db.childLayer filters)^[n] [] = []
  | 0 => rfl
  | n + 1 => by
    rw [Function.iterate_succ_apply', iterate_childLayer_nil n]
    simp [childLayer]

/-- The `n`-th layer of a tree is what the search finds in its `n`-th round, unless that is nothing. -/
theorem getElem?_layersFrom {filters : List KeyFilter} {l : List Key} : ∀ {fuel n : Nat} {layer : List Key},
    (db.layersFrom filters fuel layer)[n]? = some l ↔ n ≤ fuel ∧ (db.childLayer filters)^[n] layer = l ∧ l ≠ []
  | fuel, n, [] => by
    rw [layersFrom_nil, iterate_childLayer_nil]
    constructor
    · intro h; cases h
    · rintro ⟨-, rfl, hne⟩; exact absurd rfl hne
  | 0, 0, x :: xs => by
    simp only [layersFrom, List.getElem?_cons_zero, Option.some.injEq, Function.iterate_zero_apply]
    exact ⟨fun h => ⟨Nat.le_refl 0, h, h ▸ List.cons_ne_nil x xs⟩, fun h => h.2.1⟩
  | 0, n + 1, x :: xs => by
    simp only [layersFrom]
    constructor
    · intro h; cases h
    · exact fun h => absurd h.1 (Nat.not_succ_le_zero n)
  | fuel + 1, 0, x :: xs => by
    rw [layersFrom_cons]
    simp only [List.getElem?_cons_zero, Option.some.injEq, Function.iterate_zero_apply]
    exact ⟨fun h => ⟨Nat.zero_le _, h, h ▸ List.cons_ne_nil x xs⟩, fun h => h.2.1⟩
  | fuel + 1, n + 1, x :: xs => by
    rw [layersFrom_cons, List.getElem?_cons_succ, getElem?_layersFrom, Function.iterate_succ_apply,
      Nat.add_le_add_iff_right]

/-- Every key below the first layer is a stored key that passes the filters, in the tenant of the first layer. -/
theorem mem_layersFrom {filters : List KeyFilter} {k : Key} {t : String} :
    ∀ {fuel : Nat} {layer : List Key}, (∀ p ∈ layer, p.tenantID = t) → (∃ l ∈ db.layersFrom filters fuel layer, k ∈ l) →
      k ∈ layer ∨ k ∈ db.keys.rows ∧ passes filters k = true ∧ k.tenantID = t
  | _, [], _, ⟨l, hl, _⟩ => by simp at hl
  | 0, _ :: _, _, ⟨l, hl, hk⟩ => by
    simp only [layersFrom, List.mem_singleton] at hl
    exact .inl (hl ▸ hk)
  | fuel + 1, x :: xs, ht, ⟨l, hl, hk⟩ => by
    simp only [layersFrom, List.mem_cons] at hl
    rcases hl with rfl | hl
    · exact .inl hk
    · have hchild : ∀ c ∈ db.childLayer filters (x :: xs), c.tenantID = t := by
        intro c hc
        obtain ⟨-, -, p, hp, -, hcp⟩ := mem_childLayer.1 hc
        exact hcp.trans (ht p hp)
      rcases mem_layersFrom hchild ⟨l, hl, hk⟩ with h | h
      · have ht' := hchild k h
        rw [mem_childLayer] at h
        exact .inr ⟨h.1, h.2.1, ht'⟩
      · exact .inr h

theorem getDescendantKeys_ok {id tenantID : String} {filters : List KeyFilter} {kt : KeyTree}
    (h : db.getDescendantKeys id tenantID filters = .ok kt) :
    ∀ layer ∈ kt, ∀ k ∈ layer, k ∈ db.keys.rows ∧ passes filters k = true ∧ uuidIn tenantID = some k.tenantID := by
  obtain ⟨⟨i, t⟩, hparams, h⟩ := bind_eq_ok.1 h
  have ht := (keyParams_ok.1 (descendantParams_ok.1 hparams).2).2
  dsimp only at h
  split at h
  · cases h
  · rename_i k₀ hk₀
    cases h
    have hsel := List.find?_some hk₀
    simp only [Bool.and_eq_true, beq_iff_eq] at hsel
    intro layer hl k hk
    have hfirst : ∀ p ∈ [k₀], p.tenantID = t.text := fun p hp => by rw [List.mem_singleton.1 hp]; exact hsel.1.2
    rcases mem_layersFrom hfirst ⟨layer, hl, hk⟩ with hk | ⟨hk, hp, hkt⟩
    · rw [List.mem_singleton.1 hk]
      exact ⟨List.mem_of_find?_eq_some hk₀, hsel.2, by rw [ht, hsel.1.2]⟩
    · exact ⟨hk, hp, by rw [ht, hkt]⟩

/-! ## Inserted keys -/

/-- `db'` is `db` with `k` stored as `row`. -/
structure KeyInserted (db : DB) (k row : Key) (db' : DB) : Prop where
  id : uuidIn k.id = some row.id
  tenantID : uuidIn k.tenantID = some row.tenantID
  parentID : k.parentID.bind uuidIn = row.parentID ∧ (k.parentID = none ↔ row.parentID = none)
  row_eq : row = { k with id := row.id, tenantID := row.tenantID, parentID := row.parentID }
  rows : db'.keys.rows = db.keys.rows ++ [row]
  fresh : ∀ r ∈ db.keys.rows, r.id ≠ row.id
  tenants : db'.tenants = db.tenants
  keyVersions : db'.keyVersions = db.keyVersions
  node : db'.node = db.node

theorem KeyInserted.mem {k row r : Key} (h : KeyInserted db k row db') :
    r ∈ db'.keys.rows ↔ r ∈ db.keys.rows ∨ r = row := by
  rw [h.rows, List.mem_append, List.mem_singleton]

/-- A key is inserted under a name that its tenant did not have. -/
theorem KeyInserted.name_fresh {k row r : Key} (h : KeyInserted db k row db') (hr : r ∈ db.keys.rows)
    (ht : r.tenantID = row.tenantID) : r.name ≠ row.name := by
  intro hn
  have heq := key_eq_of_name (h.mem.2 (.inl hr)) (h.mem.2 (.inr rfl)) ht hn
  exact h.fresh r hr (congrArg Key.id heq)

theorem KeyInserted.columns {k row : Key} (h : KeyInserted db k row db') : row.kind = k.kind ∧ row.name = k.name ∧
    row.managedBy = k.managedBy ∧ row.labels = k.labels ∧ row.lifeCycleState = k.lifeCycleState ∧
      row.status = k.status ∧
    row.createdAt = k.createdAt := by
  rw [h.row_eq]
  exact ⟨rfl, rfl, rfl, rfl, rfl, rfl, rfl⟩

theorem parseNullable_ok {s : Option String} {p : Option Uuid} (h : Uuid.parseNullable s = some p) :
    s.bind uuidIn = p.map Uuid.text ∧ (s = none ↔ p.map Uuid.text = none) := by
  cases s with
  | none => cases h; simp
  | some s =>
    obtain ⟨u, hu, rfl⟩ := Option.map_eq_some_iff.1 h
    simpa using Uuid.parse_eq_some.1 hu

theorem createKey_ok {k : Key} (h : db.createKey k = .ok db') : ∃ row, KeyInserted db k row db' := by
  unfold createKey at h
  split at h
  · rename_i i t p hi ht hp
    split at h
    · cases h
    · rename_i keys hins
      split at h
      · cases h
        refine ⟨keyRow k i t p, Uuid.parse_eq_some.1 hi, Uuid.parse_eq_some.1 ht, parseNullable_ok hp, rfl,
          Table.rows_insert hins, fun r hr hid => ?_, rfl, rfl, rfl⟩
        have hc := Table.not_conflicts_of_insert hins
        simp only [Table.conflicts, List.any_eq_false] at hc
        exact hc r hr (by simp [keySchema, Key.ident, hid])
      · cases h
  · cases h

/-! ## Key versions -/

theorem keyVersion_eq {a b : KeyVersion} (ha : a ∈ db.keyVersions.rows) (hb : b ∈ db.keyVersions.rows)
    (ht : a.tenantID = b.tenantID) (hk : a.keyID = b.keyID) (hv : a.version = b.version)
    (hr : a.revision = b.revision) : a = b :=
  db.keyVersions.eq_of_clash ha hb (by simp [keyVersionSchema, KeyVersion.ident, ht, hk, hv, hr])

/-- `db'` is `db` with `kv` stored as `row`. -/
structure KeyVersionInserted (db : DB) (kv row : KeyVersion) (db' : DB) : Prop where
  tenantID : uuidIn kv.tenantID = some row.tenantID
  keyID : uuidIn kv.keyID = some row.keyID
  parentKeyID : kv.parentKeyID.bind uuidIn = row.parentKeyID ∧ (kv.parentKeyID = none ↔ row.parentKeyID = none)
  row_eq : row = { kv with tenantID := row.tenantID, keyID := row.keyID, parentKeyID := row.parentKeyID }
  rows : db'.keyVersions.rows = db.keyVersions.rows ++ [row]
  fresh : ∀ r ∈ db.keyVersions.rows, r.tenantID = row.tenantID → r.keyID = row.keyID → r.version = row.version →
    r.revision ≠ row.revision
  bound : row.version < intBound
  key : ∃ k ∈ db.keys.rows, k.id = row.keyID ∧ k.tenantID = row.tenantID
  tenants : db'.tenants = db.tenants
  keys : db'.keys = db.keys
  node : db'.node = db.node

theorem KeyVersionInserted.mem {kv row r : KeyVersion} (h : KeyVersionInserted db kv row db') :
    r ∈ db'.keyVersions.rows ↔ r ∈ db.keyVersions.rows ∨ r = row := by
  rw [h.rows, List.mem_append, List.mem_singleton]

/-- The columns that are stored as they are given. -/
theorem KeyVersionInserted.columns {kv row : KeyVersion} (h : KeyVersionInserted db kv row db') :
    row.version = kv.version ∧ row.revision = kv.revision ∧ row.labels = kv.labels ∧
      row.lifeCycleState = kv.lifeCycleState ∧ row.processingState = kv.processingState := by
  rw [h.row_eq]
  exact ⟨rfl, rfl, rfl, rfl, rfl⟩

theorem createKeyVersion_ok {kv : KeyVersion} (h : db.createKeyVersion kv = .ok db') :
    ∃ row, KeyVersionInserted db kv row db' := by
  unfold createKeyVersion at h
  split at h
  · rename_i t k p ht hk hp
    split at h
    · rename_i hb
      split at h
      · cases h
      · rename_i kvs hins
        split at h
        · rename_i href
          cases h
          simp only [keyVersionReferences, Bool.and_eq_true, List.any_eq_true, beq_iff_eq] at href
          refine ⟨keyVersionRow kv t k p, Uuid.parse_eq_some.1 ht, Uuid.parse_eq_some.1 hk, parseNullable_ok hp, rfl,
            Table.rows_insert hins, fun r hr h1 h2 h3 h4 => ?_, hb.1, href.1.2, rfl, rfl, rfl⟩
          have hc := Table.not_conflicts_of_insert hins
          simp only [Table.conflicts, List.any_eq_false] at hc
          exact hc r hr (by simp [keyVersionSchema, KeyVersion.ident, h1, h2, h3, h4])
        · cases h
    · cases h
  · cases h

/-- `db'` is `db` with new states on the one version `kv`. -/
structure KeyVersionUpdated (db : DB) (kv : KeyVersion) (lc : KeyLifeCycleState) (ps : KeyVersionProcessingState)
    (now : Int) (db' : DB) : Prop where
  mem : kv ∈ db.keyVersions.rows
  rows : db'.keyVersions.rows = db.keyVersions.rows.map fun r =>
    if r = kv then { r with lifeCycleState := lc, processingState := ps, updatedAt := now } else r
  tenants : db'.tenants = db.tenants
  keys : db'.keys = db.keys
  node : db'.node = db.node

theorem updateKeyVersionStates_ok {q : UpdateKeyVersionStatesQuery} (h : db.updateKeyVersionStates q = .ok db') :
    ∃ kv, uuidIn q.tenantID = some kv.tenantID ∧ uuidIn q.keyID = some kv.keyID ∧ kv.version = q.version ∧
      kv.revision = q.revision ∧ KeyVersionUpdated db kv q.toLifeCycleState q.toProcessingState q.now db' := by
  unfold updateKeyVersionStates at h
  split at h
  · cases h
  · split at h
    · cases h
    · rename_i k t hp
      obtain ⟨hk, ht⟩ := keyParams_ok.1 hp
      split at h
      · rename_i hany
        cases h
        obtain ⟨kv, hkv, hsel⟩ := List.any_eq_true.1 hany
        have hsel' := hsel
        simp only [UpdateKeyVersionStatesQuery.selects, Bool.and_eq_true, beq_iff_eq] at hsel
        obtain ⟨⟨⟨⟨⟨h1, h2⟩, h3⟩, h4⟩, -⟩, -⟩ := hsel
        refine ⟨kv, by rw [ht, h1], by rw [hk, h2], h3, h4, hkv, ?_, rfl, rfl, rfl⟩
        refine List.map_congr_left fun r hr => ?_
        by_cases hrk : r = kv
        · subst hrk; rw [if_pos hsel', if_pos rfl]; rfl
        · -- another row differs from the query in one of the columns
          have hns : q.selects t.text k.text r = false := by
            rw [Bool.eq_false_iff]
            intro hs
            simp only [UpdateKeyVersionStatesQuery.selects, Bool.and_eq_true, beq_iff_eq] at hs
            obtain ⟨⟨⟨⟨⟨g1, g2⟩, g3⟩, g4⟩, -⟩, -⟩ := hs
            exact hrk (keyVersion_eq hr hkv (g1.trans h1.symm) (g2.trans h2.symm) (g3.trans h3.symm) (g4.trans h4.symm))
          rw [hns, if_neg (by simp), if_neg hrk]
      · cases h

/-! ## Listings -/

theorem params_ok {q : ListKeyVersionsQuery} {t : Uuid} {k : Option Uuid} (h : q.params = .ok (t, k)) :
    uuidIn q.tenantID = some t.text ∧
      ((q.keyID = "" ∧ k = none) ∨ ∃ i, k = some i ∧ uuidIn q.keyID = some i.text) := by
  unfold ListKeyVersionsQuery.params at h
  split at h
  · rename_i hk
    split at h
    · rename_i t' ht
      cases h
      exact ⟨Uuid.parse_eq_some.1 ht, .inl ⟨hk, rfl⟩⟩
    · cases h
  · split at h
    · rename_i i t' hp
      cases h
      obtain ⟨hi, ht⟩ := keyParams_ok.1 hp
      exact ⟨ht, .inr ⟨i, rfl, hi⟩⟩
    · cases h

theorem params_of_parse {q : ListKeyVersionsQuery} {t i : Uuid} (ht : uuidIn q.tenantID = some t.text)
    (hk : uuidIn q.keyID = some i.text) : q.params = .ok (t, some i) := by
  have hne : q.keyID ≠ "" := by
    intro hne
    rw [hne] at hk
    cases hk
  unfold ListKeyVersionsQuery.params
  rw [if_neg hne, keyParams_ok.2 ⟨hk, ht⟩]

/-- The rows a listing returns, up to their order. -/
theorem listKeyVersions_mem {q : ListKeyVersionsQuery} {l : List KeyVersion} (h : db.listKeyVersions q = .ok l)
    {r : KeyVersion} : r ∈ l ↔ r ∈ db.keyVersions.rows ∧ uuidIn q.tenantID = some r.tenantID ∧
      (q.keyID = "" ∨ uuidIn q.keyID = some r.keyID) ∧ (q.version = 0 ∨ r.version = q.version) ∧
        (∀ s, q.processingState = some s → r.processingState = s) ∧
          ∀ s, q.lifeCycleState = some s → r.lifeCycleState = s := by
  unfold listKeyVersions at h
  split at h
  · cases h
  · rename_i t k hp
    obtain ⟨ht, hk⟩ := params_ok hp
    cases h
    have hkey : (k.all fun i => i.text == r.keyID) = true ↔ q.keyID = "" ∨ uuidIn q.keyID = some r.keyID := by
      rcases hk with ⟨hk, rfl⟩ | ⟨i, rfl, hi⟩
      · simp [hk]
      · have hne : q.keyID ≠ "" := by
          intro hne
          rw [hne] at hi
          cases hi
        simp [hi, hne]
    have hopt : ∀ {α : Type} [DecidableEq α] (o : Option α) (x : α),
        (o.all fun s => s == x) = true ↔ ∀ s, o = some s → x = s := by
      intro α _ o x
      cases o with
      | none => simp
      | some s => simpa using eq_comm
    rw [List.mem_insertionSort, List.mem_filter, ht]
    simp only [ListKeyVersionsQuery.selects, Bool.and_eq_true, Bool.or_eq_true, beq_iff_eq, hopt, hkey,
      Option.some.injEq]
    constructor
    · rintro ⟨hr, ⟨⟨⟨h1, h2⟩, h3⟩, h4⟩, h5⟩; exact ⟨hr, h1.symm, h2, h3, h4, h5⟩
    · rintro ⟨hr, h1, h2, h3, h4, h5⟩; exact ⟨hr, ⟨⟨⟨h1.symm, h2⟩, h3⟩, h4⟩, h5⟩

/-- The rows of a listing for a key, when the key is named by an identifier. -/
theorem listKeyVersions_key {q : ListKeyVersionsQuery} {l : List KeyVersion} (h : db.listKeyVersions q = .ok l)
    {i : String} (hi : uuidIn q.keyID = some i) {r : KeyVersion} (hr : r ∈ l) :
    r ∈ db.keyVersions.rows ∧ uuidIn q.tenantID = some r.tenantID ∧ uuidIn q.keyID = some r.keyID ∧
      (q.version = 0 ∨ r.version = q.version) ∧ (∀ s, q.processingState = some s → r.processingState = s) ∧
        ∀ s, q.lifeCycleState = some s → r.lifeCycleState = s := by
  obtain ⟨hmem, ht, hk, hrest⟩ := (listKeyVersions_mem h).1 hr
  refine ⟨hmem, ht, hk.resolve_left fun hne => ?_, hrest⟩
  rw [hne] at hi
  cases hi

theorem precedes_total (a b : KeyVersion) : ∀ os : List KeyVersionOrder, precedes os a b = true ∨ precedes os b a = true
  | [] => .inl rfl
  | o :: os => by
    have ih := precedes_total a b os
    cases o <;> simp only [precedes, Bool.or_eq_true, Bool.and_eq_true, beq_iff_eq, decide_eq_true_eq] <;>
      rcases ih with h | h <;> simp only [h, and_true] <;> omega

theorem precedes_trans {a b c : KeyVersion} : ∀ {os : List KeyVersionOrder}, precedes os a b = true →
    precedes os b c = true → precedes os a c = true
  | [], _, _ => rfl
  | o :: os, hab, hbc => by
    have ih := @precedes_trans a b c os
    cases o <;> simp only [precedes, Bool.or_eq_true, Bool.and_eq_true, beq_iff_eq, decide_eq_true_eq] at hab hbc ⊢ <;>
      rcases hab with hab | ⟨hab, hab'⟩ <;> rcases hbc with hbc | ⟨hbc, hbc'⟩
    all_goals first
      | exact .inl (by omega)
      | exact .inr ⟨hab.trans hbc, ih hab' hbc'⟩

/-- The first row of a listing comes before every other one. -/
theorem listKeyVersions_head {q : ListKeyVersionsQuery} {kv : KeyVersion} {l : List KeyVersion}
    (h : db.listKeyVersions q = .ok (kv :: l)) : ∀ r ∈ kv :: l, precedes q.orderBy kv r = true := by
  unfold listKeyVersions at h
  split at h
  · cases h
  · rename_i k t hp
    have : Std.Total fun a b => precedes q.orderBy a b = true := ⟨fun a b => precedes_total a b _⟩
    have : IsTrans KeyVersion fun a b => precedes q.orderBy a b = true := ⟨fun _ _ _ => precedes_trans⟩
    have hs := List.pairwise_insertionSort (fun a b => precedes q.orderBy a b = true)
      (db.keyVersions.rows.filter (q.selects k t))
    rw [Except.ok.inj h] at hs
    intro r hr
    rcases List.mem_cons.1 hr with rfl | hr
    · exact (precedes_total r r _).elim id id
    · exact (List.pairwise_cons.1 hs).1 r hr

/-- A listing of stored identifiers is never refused. -/
theorem listKeyVersions_of_parse {q : ListKeyVersionsQuery} {i t : String} (hk : uuidIn q.keyID = some i)
    (ht : uuidIn q.tenantID = some t) : ∃ l, db.listKeyVersions q = .ok l := by
  have hp : q.params = .ok (⟨t, uuidIn_idem ht⟩, some ⟨i, uuidIn_idem hk⟩) := params_of_parse ht hk
  unfold listKeyVersions
  rw [hp]
  exact ⟨_, rfl⟩

/-! ## Identities -/

/-- A key with this identity is stored. -/
def HasKey (db : DB) (i : KeyIdent) : Prop := ∃ k ∈ db.keys.rows, k.ident = i

theorem HasKey.congr {i : KeyIdent} (h : db.HasKey i) (hkeys : db'.keys = db.keys) : db'.HasKey i := by
  unfold HasKey
  rw [hkeys]
  exact h

theorem HasKey.markKeys {i : KeyIdent} (h : db.HasKey i) {ids lc st now} : (db.markKeys ids lc st now).HasKey i := by
  obtain ⟨k, hk, rfl⟩ := h
  exact ⟨_, mem_markKeys.2 ⟨k, hk, rfl⟩, markKey_ident⟩

theorem eq_of_hasKey {k k' : KeyIdent} (h : db.HasKey k) (h' : db.HasKey k') (hid : k.id = k'.id) : k = k' := by
  obtain ⟨a, ha, rfl⟩ := h
  obtain ⟨b, hb, rfl⟩ := h'
  rw [key_eq_of_id ha hb hid]

/-- A version with this identity is stored. -/
def HasVersion (db : DB) (i : KeyVersionIdent) : Prop := ∃ kv ∈ db.keyVersions.rows, kv.ident = i

instance (db : DB) (i : KeyVersionIdent) : Decidable (db.HasVersion i) := inferInstanceAs (Decidable (∃ _ ∈ _, _))

theorem hasVersion_congr {i : KeyVersionIdent} (h : db'.keyVersions = db.keyVersions) :
    db'.HasVersion i ↔ db.HasVersion i := by
  unfold HasVersion
  rw [h]

theorem KeyVersionInserted.hasVersion {kv row : KeyVersion} {i : KeyVersionIdent}
    (h : KeyVersionInserted db kv row db') : db'.HasVersion i ↔ db.HasVersion i ∨ i = row.ident := by
  unfold HasVersion
  constructor
  · rintro ⟨r, hr, rfl⟩
    rcases h.mem.1 hr with hr | rfl
    · exact .inl ⟨r, hr, rfl⟩
    · exact .inr rfl
  · rintro (⟨r, hr, rfl⟩ | rfl)
    · exact ⟨r, h.mem.2 (.inl hr), rfl⟩
    · exact ⟨row, h.mem.2 (.inr rfl), rfl⟩

/-- A row after an update of states. -/
theorem KeyVersionUpdated.mem_iff {kv r' : KeyVersion} {lc : KeyLifeCycleState} {ps : KeyVersionProcessingState}
    {now : Int} (h : KeyVersionUpdated db kv lc ps now db') :
    r' ∈ db'.keyVersions.rows ↔ ∃ r ∈ db.keyVersions.rows,
      (if r = kv then { r with lifeCycleState := lc, processingState := ps, updatedAt := now } else r) = r' := by
  rw [h.rows, List.mem_map]

theorem KeyVersionUpdated.hasVersion {kv : KeyVersion} {lc : KeyLifeCycleState} {ps : KeyVersionProcessingState}
    {now : Int} {i : KeyVersionIdent} (h : KeyVersionUpdated db kv lc ps now db') :
    db'.HasVersion i ↔ db.HasVersion i := by
  have hident : ∀ r : KeyVersion,
      (if r = kv then { r with lifeCycleState := lc, processingState := ps, updatedAt := now } else r).ident =
        r.ident := by
    intro r
    split <;> rfl
  unfold HasVersion
  constructor
  · rintro ⟨r', hr', rfl⟩
    obtain ⟨r, hr, rfl⟩ := h.mem_iff.1 hr'
    exact ⟨r, hr, (hident r).symm⟩
  · rintro ⟨r, hr, rfl⟩
    exact ⟨_, h.mem_iff.2 ⟨r, hr, rfl⟩, hident r⟩

end DB

end Krypton
