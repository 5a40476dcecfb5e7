import Krypton.Cascade
import Krypton.Forest
import Krypton.Store.Descendants

/-!
# Trees of keys and the actions on them

What an action on a key selects, and in which order. The tree below a key is a recursive query with filters; without
cascading the key is read alone and the filters are applied to it in memory. An action marks the selected keys and
prepares one job for each layer that has a key to move.

* `Layered` — the layers of a tree: each key once, no layer empty, and ancestors in earlier layers;
* `descendants_meet_reference` — the layers of the query are the keys at each distance that are reached through keys
  which meet the filters, and the two ways to fetch agree on the first layer;
* `ActionExact`, `applyKeyAction_exact` — an action moves exactly the selected keys, names each of them once, and orders
  its jobs along the tree; when it fails it changes nothing.
-/

namespace Krypton

open Lib

/-- The forest of the hierarchy has no cycle. -/
theorem Forest.acyclic {h : KeyHierarchy} {db : DB} (hf : Forest h db) : db.Acyclic := by
  have hlt : ∀ {a b : Key}, Relation.TransGen db.ParentOf a b → h.position a < h.position b := by
    intro a b hab
    induction hab with
    | single hp => rw [hf.position_parent hp.child hp.parent hp.parentID]; exact Nat.lt_succ_self _
    | tail _ hp ih =>
      rw [hf.position_parent hp.child hp.parent hp.parentID]
      exact Nat.lt_succ_of_lt ih
  exact fun k hk => Nat.lt_irrefl _ (hlt hk)

/-! ## Layers -/

namespace DB

/-- The layers of a tree of stored keys. -/
structure Layered (db : DB) (kt : KeyTree) : Prop where
  stored : ∀ layer ∈ kt, ∀ k ∈ layer, k ∈ db.keys.rows
  once : kt.flatten.Nodup
  filled : ∀ layer ∈ kt, layer ≠ []
  ancestors : ∀ {i j : Nat} {l l' : List Key} {x y : Key}, kt[i]? = some l → kt[j]? = some l' → x ∈ l → y ∈ l' →
    Relation.TransGen db.ParentOf x y → i < j

section
variable {db : DB} {filters : List KeyFilter} {k : Key}

theorem childLayer_nodup (layer : List Key) : (db.childLayer filters layer).Nodup :=
  (List.perm_insertionSort _ _).nodup_iff.2 (children_nodup layer)

/-- Without a cycle, the rows of the table bound the number of layers. -/
theorem layer_of_tree (h : db.Acyclic) (hk : k ∈ db.keys.rows) {n : Nat} {l : List Key} :
    (db.layersFrom filters db.keys.rows.length [k])[n]? = some l ↔ (db.childLayer filters)^[n] [k] = l ∧ l ≠ [] := by
  rw [getElem?_layersFrom]
  refine and_iff_right_of_imp fun ⟨hl, hne⟩ => ?_
  by_contra hn
  rw [h.descends.layer_eq_nil expands_layer hk (Nat.le_of_not_le hn)] at hl
  exact hne hl.symm

theorem layered_tree (h : db.Acyclic) (hk : k ∈ db.keys.rows) :
    db.Layered (db.layersFrom filters db.keys.rows.length [k]) where
  stored layer hl d hd := by
    obtain ⟨n, hn⟩ := List.mem_iff_getElem?.1 hl
    obtain ⟨rfl, -⟩ := (layer_of_tree h hk).1 hn
    exact h.descends.mem expands_layer hk hd
  once := by
    refine List.nodup_flatten.2 ⟨fun layer hl => ?_, List.pairwise_iff_getElem.2 fun i j hi hj hij => ?_⟩
    · obtain ⟨n, hn⟩ := List.mem_iff_getElem?.1 hl
      obtain ⟨rfl, -⟩ := (layer_of_tree h hk).1 hn
      cases n with
      | zero => exact List.nodup_singleton k
      | succ n =>
        rw [Function.iterate_succ_apply']
        exact childLayer_nodup _
    · intro d hdi hdj
      rw [← ((layer_of_tree h hk).1 (List.getElem?_eq_getElem hi)).1] at hdi
      rw [← ((layer_of_tree h hk).1 (List.getElem?_eq_getElem hj)).1] at hdj
      exact absurd (h.descends.unique expands_layer hk hdi hdj) (Nat.ne_of_lt hij)
  filled layer hl := by
    obtain ⟨n, hn⟩ := List.mem_iff_getElem?.1 hl
    exact ((layer_of_tree h hk).1 hn).2
  ancestors hi hj hx hy hxy := by
    obtain ⟨rfl, -⟩ := (layer_of_tree h hk).1 hi
    obtain ⟨rfl, -⟩ := (layer_of_tree h hk).1 hj
    exact h.descends.lt_of_ancestor expands_layer hk hx hxy hy

theorem layered_single (h : db.Acyclic) (hk : k ∈ db.keys.rows) : db.Layered [[k]] where
  stored layer hl d hd := by
    rw [List.mem_singleton.1 hl] at hd
    exact List.mem_singleton.1 hd ▸ hk
  once := List.nodup_singleton k
  filled layer hl := by
    rw [List.mem_singleton.1 hl]
    exact List.cons_ne_nil k []
  ancestors {i j l l' x y} hi hj hx hy hxy := by
    obtain rfl := List.mem_singleton.1 (List.mem_of_getElem? hi)
    obtain rfl := List.mem_singleton.1 (List.mem_of_getElem? hj)
    rw [List.mem_singleton.1 hx, List.mem_singleton.1 hy] at hxy
    exact absurd hxy (h k)

/-- The keys in the layers of a tree are the keys at each distance. -/
theorem mem_tree (h : db.Acyclic) (hk : k ∈ db.keys.rows) (hm : Meets filters k) {n : Nat} {d : Key} :
    (∃ layer, (db.layersFrom filters db.keys.rows.length [k])[n]? = some layer ∧ d ∈ layer) ↔
      db.Below filters k d n := by
  rw [← mem_iterate_iff hk hm]
  constructor
  · rintro ⟨layer, hl, hd⟩
    obtain ⟨rfl, -⟩ := (layer_of_tree h hk).1 hl
    exact hd
  · exact fun hd => ⟨_, (layer_of_tree h hk).2 ⟨rfl, List.ne_nil_of_mem hd⟩, hd⟩

theorem getKeyByID_of_ids (db : DB) {id tenantID : String} {i t : Uuid} (hparams : keyParams id tenantID = .ok (i, t)) :
    (∃ k ∈ db.keys.rows, k.id = i.text ∧ k.tenantID = t.text ∧ db.getKeyByID id tenantID = .ok k) ∨
      (∀ k ∈ db.keys.rows, k.id = i.text → k.tenantID ≠ t.text) ∧
        db.getKeyByID id tenantID = .error (.of .keyNotFound) := by
  obtain ⟨hi, ht⟩ := keyParams_ok.1 hparams
  by_cases hex : ∃ k ∈ db.keys.rows, k.id = i.text ∧ k.tenantID = t.text
  · obtain ⟨k, hk, hid, htid⟩ := hex
    exact .inl ⟨k, hk, hid, htid, getKeyByID_of_parse hk (hid ▸ hi) (htid ▸ ht)⟩
  · have hnone : (db.keys.rows.find? fun r => r.id == i.text && r.tenantID == t.text) = none := by
      refine List.find?_eq_none.2 fun k hk hsel => hex ⟨k, hk, ?_⟩
      simpa using hsel
    refine .inr ⟨fun k hk hid htid => hex ⟨k, hk, hid, htid⟩, ?_⟩
    unfold getKeyByID
    rw [hparams]
    simp only [hnone]

/-- The tree below a key that is stored. -/
theorem getDescendantKeys_of_found {id tenantID : String} {i t : Uuid}
    (hparams : descendantParams id tenantID = .ok (i, t))
    (hk : db.getKeyByID id tenantID = .ok k) : db.getDescendantKeys id tenantID filters =
      if passes filters k then .ok (db.layersFrom filters db.keys.rows.length [k]) else .error (.of .keyNotFound) := by
  obtain ⟨hmem, hid, ht⟩ := getKeyByID_ok hk
  have hfind : (db.keys.rows.find? fun r => r.id == k.id && r.tenantID == k.tenantID && passes filters r) =
      if passes filters k then some k else none := by
    split
    · rename_i hp
      refine Table.find_eq_some hmem (by simp [hp]) fun b hb hsel => key_eq_of_id hb hmem ?_
      simp only [Bool.and_eq_true, beq_iff_eq] at hsel
      exact hsel.1.1
    · rename_i hp
      refine List.find?_eq_none.2 fun b hb hsel => hp ?_
      simp only [Bool.and_eq_true, beq_iff_eq] at hsel
      rw [← key_eq_of_id hb hmem hsel.1.1]
      exact hsel.2
  obtain ⟨hi, hti⟩ := keyParams_ok.1 (descendantParams_ok.1 hparams).2
  rw [← Option.some.inj (hi.symm.trans hid), ← Option.some.inj (hti.symm.trans ht)] at hfind
  rw [getDescendantKeys_of_params hparams, hfind]
  cases passes filters k <;> rfl

theorem getDescendantKeys_of_missing {id tenantID : String} {i t : Uuid}
    (hparams : descendantParams id tenantID = .ok (i, t))
    (hnone : ∀ k ∈ db.keys.rows, k.id = i.text → k.tenantID ≠ t.text) :
    db.getDescendantKeys id tenantID filters = .error (.of .keyNotFound) := by
  have hfind : (db.keys.rows.find? fun r => r.id == i.text && r.tenantID == t.text && passes filters r) = none := by
    refine List.find?_eq_none.2 fun b hb hsel => ?_
    simp only [Bool.and_eq_true, beq_iff_eq] at hsel
    exact hnone b hb hsel.1.1 hsel.1.2
  rw [getDescendantKeys_of_params hparams, hfind]

/-- A tree has its key on top. -/
theorem getKeyByID_of_descendants {id tenantID : String} {kt : KeyTree}
    (h : db.getDescendantKeys id tenantID filters = .ok kt) :
    ∃ i t k, descendantParams id tenantID = .ok (i, t) ∧ db.getKeyByID id tenantID = .ok k := by
  obtain ⟨⟨i, t⟩, hparams, -⟩ := bind_eq_ok.1 h
  rcases getKeyByID_of_ids db (descendantParams_ok.1 hparams).2 with ⟨k, -, -, -, hk⟩ | ⟨hnone, -⟩
  · exact ⟨i, t, k, hparams, hk⟩
  · rw [getDescendantKeys_of_missing hparams hnone] at h
    cases h

end

end DB

/-! ## Fetching -/

section
variable {db : DB} {a : ApplyKeyActionRequest}

theorem take_layersFrom (filters : List DB.KeyFilter) (fuel : Nat) (k : Key) :
    (db.layersFrom filters fuel [k]).take 1 = [[k]] := by
  cases fuel <;> rfl

/-- Without cascading the first layer of the tree is fetched, and an error is the same error. -/
theorem fetchKeytree_single {i t : Uuid} (hf : a.NamesStates)
    (hparams : DB.descendantParams a.keyID a.tenantID = .ok (i, t)) : fetchKeytree { a with cascading := false } db =
      (fetchKeytree { a with cascading := true } db).map (List.take 1) := by
  simp only [fetchKeytree, if_true, Bool.false_eq_true, if_false]
  rcases DB.getKeyByID_of_ids db (DB.descendantParams_ok.1 hparams).2 with ⟨k, -, -, -, hk⟩ | ⟨hnone, hk⟩
  · rw [hk, DB.getDescendantKeys_of_found hparams hk]
    by_cases htakes : a.Takes k
    · rw [if_pos ((takes_iff_passes hf).2 htakes)]
      change (if _ then _ else _) = _
      rw [if_pos (takes_iff_any.2 htakes)]
      exact congrArg Except.ok (take_layersFrom _ _ k).symm
    · rw [if_neg fun h => htakes ((takes_iff_passes hf).1 h)]
      change (if _ then _ else _) = _
      rw [if_neg fun h => htakes (takes_iff_any.1 h)]
      rfl
  · rw [hk, DB.getDescendantKeys_of_missing hparams hnone]
    rfl

end

/-- **The query for descendants.** In a table where no key is above itself, the query for a key of a tenant returns in
its `n`-th layer exactly the keys `n` steps below it that are reached through keys which meet the filters, each once and
no layer empty; it finds nothing exactly when the key is not there or does not meet the filters. When every filter names
a lifecycle state, fetching without cascading gives the first layer of the tree, or the same error. -/
theorem descendants_meet_reference (db : DB) (hdb : db.Acyclic) (id tenantID : String) (i t : Uuid)
    (hi : uuidParse id = some i.text) (ht : uuidParse tenantID = some t.text)
    (hurn : isURN id = false ∧ isURN tenantID = false) (filters : List DB.KeyFilter) :
    ((∃ k ∈ db.keys.rows, k.id = i.text ∧ k.tenantID = t.text ∧ DB.Meets filters k ∧
        ∃ kt, db.descendantQuery id tenantID filters = some (.ok kt) ∧ kt.flatten.Nodup ∧ (∀ layer ∈ kt, layer ≠ []) ∧
          ∀ n d, (∃ layer, kt[n]? = some layer ∧ d ∈ layer) ↔ db.Below filters k d n) ∨
      ((∀ k ∈ db.keys.rows, k.id = i.text → k.tenantID = t.text → ¬ DB.Meets filters k) ∧
        db.descendantQuery id tenantID filters = some (.error (.of .keyNotFound)))) ∧
    db.descendantQuery id tenantID filters = some (db.getDescendantKeys id tenantID filters) ∧
    ∀ a : ApplyKeyActionRequest, a.keyID = id → a.tenantID = tenantID → a.NamesStates →
      fetchKeytree { a with cascading := false } db =
        (fetchKeytree { a with cascading := true } db).map (List.take 1) := by
  have hquery := DB.descendantQuery_eq hdb id tenantID filters
  have hkey : keyParams id tenantID = .ok (i, t) :=
    keyParams_ok.2 ⟨uuidIn_of_parse hi hurn.1, uuidIn_of_parse ht hurn.2⟩
  have hparams : DB.descendantParams id tenantID = .ok (i, t) :=
    DB.descendantParams_ok.2 ⟨⟨Option.isSome_of_mem hi, Option.isSome_of_mem ht⟩, hkey⟩
  refine ⟨?_, hquery, ?_⟩
  · rw [hquery]
    rcases DB.getKeyByID_of_ids db hkey with ⟨k, hk, hid, htid, hfound⟩ | ⟨hnone, -⟩
    · rw [DB.getDescendantKeys_of_found hparams hfound]
      by_cases hm : DB.Meets filters k
      · have htree : db.Layered (db.layersFrom filters db.keys.rows.length [k]) := DB.layered_tree hdb hk
        exact .inl ⟨k, hk, hid, htid, hm, _, by rw [if_pos (DB.passes_iff.2 hm)], htree.once, htree.filled,
          fun n d => DB.mem_tree hdb hk hm⟩
      · refine .inr ⟨fun k' hk' hid' _ => ?_, by rw [if_neg fun h => hm (DB.passes_iff.1 h)]⟩
        rwa [DB.key_eq_of_id hk' hk (hid'.trans hid.symm)]
    · rw [DB.getDescendantKeys_of_missing hparams hnone]
      exact .inr ⟨fun k hk hid htid => absurd htid (hnone k hk hid), rfl⟩
  · rintro a rfl rfl hf
    exact fetchKeytree_single hf hparams

/-- The root key and the active key below it are the two layers of the tree. -/
theorem demo_descendants : ∃ k ∈ (worldAfter demo (demoSecondKey ++ demoActivateSecond)).db.keys.rows, ∃ kt : KeyTree,
    k.id = demoKey 1 ∧ kt.length = 2 ∧
      (worldAfter demo (demoSecondKey ++ demoActivateSecond)).db.descendantQuery (demoKey 1) demoTenant
        [⟨some .active, []⟩] = some (.ok kt) ∧
      ∀ n d, (∃ layer, kt[n]? = some layer ∧ d ∈ layer) ↔
        (worldAfter demo (demoSecondKey ++ demoActivateSecond)).db.Below [⟨some .active, []⟩] k d n := by
  rcases (descendants_meet_reference (worldAfter demo (demoSecondKey ++ demoActivateSecond)).db
      (forest_run demo (demoSecondKey ++ demoActivateSecond)).acyclic (demoKey 1) demoTenant (demoUuid 1) (demoUuid 0)
      (by decide) (by decide) (by decide) [⟨some .active, []⟩]).1 with ⟨k, hk, hid, -, -, kt, hkt, -, -, hiff⟩ | ⟨-, h⟩
  · have hlen : ((worldAfter demo (demoSecondKey ++ demoActivateSecond)).db.descendantQuery (demoKey 1) demoTenant
        [⟨some .active, []⟩]).map (fun r => r.map List.length) = some (.ok 2) := by decide +kernel
    rw [hkt] at hlen
    exact ⟨k, hk, kt, hid, Except.ok.inj (Option.some.inj hlen), hkt, hiff⟩
  · have hok : ((worldAfter demo (demoSecondKey ++ demoActivateSecond)).db.descendantQuery (demoKey 1) demoTenant
        [⟨some .active, []⟩]).map (fun r => r.isOk) = some true := by decide +kernel
    rw [h] at hok
    cases hok

/-! ## Actions -/

/-- The keys an action selects: those that are reached from its key through keys which meet its filters, or, without
cascading, the key itself if one of the filters holds of it. -/
def ApplyKeyActionRequest.Selects (a : ApplyKeyActionRequest) (db : DB) (k : Key) : Prop :=
  ∃ top, db.getKeyByID a.keyID a.tenantID = .ok top ∧
    if a.cascading then ∃ n, db.Below (toStoreFilters a.keyFilters) top k n else k = top ∧ a.Takes top

/-- The keys an action moves: a key that is there already is left alone. -/
def ApplyKeyActionRequest.Moves (a : ApplyKeyActionRequest) (db : DB) (k : Key) : Prop :=
  a.Selects db k ∧ ¬ (k.lifeCycleState = a.handlerConfig.toState ∧ k.status = .completed)

/-- What an action that succeeds does to the database, and the group of jobs it prepares. -/
structure ActionExact (e : Env) (a : ApplyKeyActionRequest) (db db' : DB) (group : JobGroup) : Prop where
  rows : ∀ k', k' ∈ db'.keys.rows ↔ ∃ k ∈ db.keys.rows,
    (a.Moves db k ∧ k' = DB.stateOf a.handlerConfig.toState .pending e.now k) ∨ (¬ a.Moves db k ∧ k' = k)
  tenants : db'.tenants = db.tenants
  keyVersions : db'.keyVersions = db.keyVersions
  names : ∀ kid, kid ∈ group.flatMap Job.identifiers ↔ ∃ k ∈ db.keys.rows, a.Moves db k ∧ k.identifier = kid
  once : (group.flatMap Job.identifiers).Nodup
  filled : ∀ job ∈ group, job.identifiers ≠ []
  ordered : ∀ {i j : Nat} {job job' : Job} {x y : Key}, group[i]? = some job → group[j]? = some job' →
    x.identifier ∈ job.identifiers → y.identifier ∈ job'.identifiers → Relation.TransGen db.ParentOf x y →
      if a.bottomUp then j < i else i < j

section
variable {e : Env} {db : DB} {a : ApplyKeyActionRequest} {cfg : HandlerConfig} {kt : KeyTree}

/-- What is fetched is what the action selects, in layers. -/
theorem fetchKeytree_selects (hdb : db.Acyclic) (h : fetchKeytree a db = .ok kt) :
    db.Layered kt ∧ ∀ k, (∃ layer ∈ kt, k ∈ layer) ↔ a.Selects db k := by
  unfold fetchKeytree at h
  unfold ApplyKeyActionRequest.Selects
  cases hc : a.cascading with
  | false =>
    rw [hc] at h
    obtain ⟨top, htop, h⟩ := bind_eq_ok.1 h
    rw [mapError_eq_ok] at htop
    split at h
    · rename_i htakes
      cases h
      refine ⟨DB.layered_single hdb (DB.getKeyByID_ok htop).1, fun k => ?_⟩
      rw [htop]
      simp only [Except.ok.injEq, exists_eq_left', Bool.false_eq_true, if_false, List.mem_singleton, exists_eq_left]
      exact (and_iff_left (takes_iff_any.1 htakes)).symm
    · cases h
  | true =>
    rw [hc, if_pos rfl, mapError_eq_ok] at h
    obtain ⟨i, t, top, hparams, hk⟩ := DB.getKeyByID_of_descendants h
    rw [DB.getDescendantKeys_of_found hparams hk] at h
    split at h
    · rename_i hp
      cases h
      have hmem := (DB.getKeyByID_ok hk).1
      refine ⟨DB.layered_tree hdb hmem, fun k => ?_⟩
      rw [hk]
      simp only [Except.ok.injEq, exists_eq_left', if_true]
      rw [← exists_congr fun n => DB.mem_tree hdb hmem (DB.passes_iff.1 hp)]
      constructor
      · rintro ⟨layer, hl, hkl⟩
        obtain ⟨n, hn⟩ := List.mem_iff_getElem?.1 hl
        exact ⟨n, layer, hn, hkl⟩
      · rintro ⟨n, layer, hn, hkl⟩
        exact ⟨layer, List.mem_of_getElem? hn, hkl⟩
    · cases h

/-! ### The jobs of a tree -/

theorem jobsOf_eq_filterMap : ∀ kt : KeyTree, jobsOf cfg kt = kt.filterMap fun layer =>
    if toMove cfg.toState layer = [] then none
    else some (.layer cfg.handlerType ((toMove cfg.toState layer).map Key.identifier))
  | [] => rfl
  | layer :: layers => by
    rw [List.filterMap_cons, ← jobsOf_eq_filterMap layers]
    by_cases h : toMove cfg.toState layer = [] <;> simp [jobsOf, h]

/-- The identifiers in the jobs of a tree, in their order. -/
theorem flatMap_jobsOf (kt : KeyTree) : (jobsOf cfg kt).flatMap Job.identifiers =
    (toMove cfg.toState kt.flatten).map Key.identifier := by
  induction kt with
  | nil => rfl
  | cons layer layers ih =>
    have hmove : toMove cfg.toState (layer ++ layers.flatten) =
        toMove cfg.toState layer ++ toMove cfg.toState layers.flatten := List.filter_append _ _
    rw [List.flatten_cons, hmove, List.map_append, ← ih]
    by_cases h : toMove cfg.toState layer = []
    · simp [jobsOf, h]
    · simp [jobsOf, h, Job.identifiers]

theorem identifier_inj {x y : Key} (hx : x ∈ db.keys.rows) (hy : y ∈ db.keys.rows) (h : x.identifier = y.identifier) :
    x = y := DB.key_eq_of_id hx hy (congrArg KeyIdentifier.id h)

/-- Where no layer holds two keys of a relation, nor a later layer the first key of one whose second is in an earlier
layer, the jobs are ordered by the relation. -/
theorem job_lt {A : Key → Key → Prop} (hstored : ∀ layer ∈ kt, ∀ k ∈ layer, k ∈ db.keys.rows)
    (hlater : kt.Pairwise fun l l' => ∀ x ∈ l', ∀ y ∈ l, ¬ A x y) (hsame : ∀ l ∈ kt, ∀ x ∈ l, ∀ y ∈ l, ¬ A x y)
    {i j : Nat} {job job' : Job} {x y : Key} (hi : (jobsOf cfg kt)[i]? = some job)
    (hj : (jobsOf cfg kt)[j]? = some job')
    (hx : x ∈ db.keys.rows) (hy : y ∈ db.keys.rows) (hxi : x.identifier ∈ job.identifiers)
    (hyj : y.identifier ∈ job'.identifiers) (hxy : A x y) : i < j := by
  have hmem : ∀ {l : List Key} {z : Key}, l ∈ kt → z ∈ db.keys.rows →
      z.identifier ∈ (Job.layer cfg.handlerType ((toMove cfg.toState l).map Key.identifier)).identifiers → z ∈ l := by
    intro l z hl hz hzl
    obtain ⟨k, hk, hkz⟩ := List.mem_map.1 hzl
    have hkl := (mem_toMove.1 hk).1
    rwa [← identifier_inj (hstored l hl k hkl) hz hkz]
  rcases Nat.lt_trichotomy i j with h | rfl | h
  · exact h
  · -- both keys would be in one layer
    rw [hi] at hj
    cases hj
    obtain ⟨l, hl, -, rfl⟩ := mem_jobsOf.1 (List.mem_of_getElem? hi)
    exact absurd hxy (hsame l hl x (hmem hl hx hxi) y (hmem hl hy hyj))
  · have hjobs : (jobsOf cfg kt).Pairwise fun job job' => ∀ x ∈ db.keys.rows, ∀ y ∈ db.keys.rows,
        x.identifier ∈ job'.identifiers → y.identifier ∈ job.identifiers → ¬ A x y := by
      rw [jobsOf_eq_filterMap, List.pairwise_filterMap]
      refine hlater.imp_of_mem fun {l l'} hl hl' hll b hb b' hb' x hx y hy hxb hyb => ?_
      obtain ⟨-, ⟨⟩⟩ := Option.ite_none_left_eq_some.1 hb
      obtain ⟨-, ⟨⟩⟩ := Option.ite_none_left_eq_some.1 hb'
      exact hll x (hmem hl' hx hxb) y (hmem hl hy hyb)
    obtain ⟨hjl, rfl⟩ := List.getElem?_eq_some_iff.1 hj
    obtain ⟨hil, rfl⟩ := List.getElem?_eq_some_iff.1 hi
    exact absurd hxy (List.pairwise_iff_getElem.1 hjobs j i hjl hil h x hx y hy hxi hyj)

theorem mem_of_ancestor {x y : Key} (h : Relation.TransGen db.ParentOf x y) : x ∈ db.keys.rows ∧ y ∈ db.keys.rows := by
  induction h with
  | single h => exact ⟨h.parent, h.child⟩
  | tail _ h ih => exact ⟨ih.1, h.child⟩

/-- The jobs of a tree follow it down, or up. -/
theorem DB.Layered.jobs_ordered (h : db.Layered kt) {i j : Nat} {job job' : Job} {x y : Key}
    (hi : (jobsOf a.handlerConfig (a.ordered kt))[i]? = some job)
    (hj : (jobsOf a.handlerConfig (a.ordered kt))[j]? = some job') (hxi : x.identifier ∈ job.identifiers)
    (hyj : y.identifier ∈ job'.identifiers) (hxy : Relation.TransGen db.ParentOf x y) :
    if a.bottomUp then j < i else i < j := by
  have hstored : ∀ layer ∈ a.ordered kt, ∀ k ∈ layer, k ∈ db.keys.rows :=
    fun layer hl => h.stored layer (mem_ordered.1 hl)
  have hlater : kt.Pairwise fun l l' => ∀ x ∈ l', ∀ y ∈ l, ¬ Relation.TransGen db.ParentOf x y := by
    refine List.pairwise_iff_getElem.2 fun m n hm hn hmn x hx y hy hxy => ?_
    exact absurd (h.ancestors (List.getElem?_eq_getElem hn) (List.getElem?_eq_getElem hm) hx hy hxy) (Nat.lt_asymm hmn)
  have hsame : ∀ l ∈ a.ordered kt, ∀ x ∈ l, ∀ y ∈ l, ¬ Relation.TransGen db.ParentOf x y := by
    intro l hl x hx y hy hxy
    obtain ⟨n, hn⟩ := List.mem_iff_getElem?.1 (mem_ordered.1 hl)
    exact Nat.lt_irrefl n (h.ancestors hn hn hx hy hxy)
  obtain ⟨hx, hy⟩ := mem_of_ancestor hxy
  cases hb : a.bottomUp with
  | true =>
    have hord : a.ordered kt = kt.reverse := by simp [ApplyKeyActionRequest.ordered, hb]
    rw [hord] at hi hj hstored hsame
    -- going up, the jobs are ordered by the descendants
    refine job_lt (A := fun y x => Relation.TransGen db.ParentOf x y) hstored (List.pairwise_reverse.2 ?_)
      (fun l hl x hx y hy => hsame l hl y hy x hx) hj hi hy hx hyj hxi hxy
    exact hlater.imp fun {l l'} hll x hx y hy => hll y hy x hx
  | false =>
    have hord : a.ordered kt = kt := by simp [ApplyKeyActionRequest.ordered, hb]
    rw [hord] at hi hj hstored hsame
    exact job_lt hstored hlater hsame hi hj hx hy hxi hyj hxy

theorem mem_idsOf_iff (h : db.Layered kt) (hsel : ∀ k, (∃ layer ∈ kt, k ∈ layer) ↔ a.Selects db k) {k : Key}
    (hk : k ∈ db.keys.rows) : k.id ∈ idsOf a.handlerConfig (a.ordered kt) ↔ a.Moves db k := by
  unfold ApplyKeyActionRequest.Moves
  rw [mem_idsOf, ← hsel k]
  constructor
  · rintro ⟨layer, hl, k', hk', hid⟩
    obtain ⟨hkl, hnot⟩ := mem_toMove.1 hk'
    obtain rfl := DB.key_eq_of_id (h.stored layer (mem_ordered.1 hl) k' hkl) hk hid
    exact ⟨⟨layer, mem_ordered.1 hl, hkl⟩, hnot⟩
  · rintro ⟨⟨layer, hl, hkl⟩, hnot⟩
    exact ⟨layer, mem_ordered.2 hl, k, mem_toMove.2 ⟨hkl, hnot⟩, rfl⟩

theorem nodup_ordered (h : kt.flatten.Nodup) : (a.ordered kt).flatten.Nodup := by
  unfold ApplyKeyActionRequest.ordered
  split
  · exact ((List.reverse_perm kt).flatten.nodup_iff).2 h
  · exact h

/-- A tree that was fetched: the keys to move in it become pending, and the jobs name them. -/
theorem actionExact_of_fetch (hdb : db.Acyclic) (h : fetchKeytree a db = .ok kt) :
    ActionExact e a db (db.markKeys (idsOf a.handlerConfig (a.ordered kt)) a.handlerConfig.toState .pending e.now)
      (jobsOf a.handlerConfig (a.ordered kt)) := by
  obtain ⟨hlayered, hsel⟩ := fetchKeytree_selects hdb h
  have hmove : ∀ k, k ∈ toMove a.handlerConfig.toState (a.ordered kt).flatten ↔ a.Moves db k := by
    intro k
    unfold ApplyKeyActionRequest.Moves
    rw [mem_toMove, List.mem_flatten, ← hsel k]
    simp only [mem_ordered]
  have hstored : ∀ k, a.Moves db k → k ∈ db.keys.rows := by
    rintro k ⟨hk, -⟩
    obtain ⟨layer, hl, hkl⟩ := (hsel k).2 hk
    exact hlayered.stored layer hl k hkl
  refine ⟨fun k' => ?_, rfl, rfl, fun kid => ?_, ?_, fun job hjob => ?_, hlayered.jobs_ordered⟩
  · rw [DB.mem_markKeys]
    refine exists_congr fun k => and_congr_right fun hk => ?_
    by_cases hm : a.Moves db k
    · rw [DB.markKey_of_mem ((mem_idsOf_iff hlayered hsel hk).2 hm)]
      simp [hm, eq_comm]
    · rw [DB.markKey_of_notMem fun hid => hm ((mem_idsOf_iff hlayered hsel hk).1 hid)]
      simp [hm, eq_comm]
  · rw [flatMap_jobsOf, List.mem_map]
    exact exists_congr fun k => ⟨fun hk => ⟨hstored k ((hmove k).1 hk.1), (hmove k).1 hk.1, hk.2⟩,
      fun hk => ⟨(hmove k).2 hk.2.1, hk.2.2⟩⟩
  · rw [flatMap_jobsOf]
    refine List.Nodup.map_on (fun x hx y hy hxy => ?_) ((nodup_ordered hlayered.once).filter _)
    exact identifier_inj (hstored x ((hmove x).1 hx)) (hstored y ((hmove y).1 hy)) hxy
  · obtain ⟨layer, -, hne, rfl⟩ := mem_jobsOf.1 hjob
    exact fun hnil => hne (List.map_eq_nil_iff.1 hnil)

end

/-- **An action is exact, ordered and all or nothing.** In a forest of keys, an action that succeeds marks exactly the
selected keys that are not there yet, prepares one group that names each of them once, in jobs that are not empty and go
down the tree or up; one that fails leaves the database as it was, with no group. -/
theorem applyKeyAction_exact (e : Env) (a : ApplyKeyActionRequest) (w : World) (hdb : w.db.Acyclic) :
    ((transaction e id (applyKeyAction e a) w).1 = .ok () → ∃ group,
      (transaction e id (applyKeyAction e a) w).2.1 = [group] ∧
        ActionExact e a w.db (transaction e id (applyKeyAction e a) w).2.2.db group) ∧
    ∀ err, (transaction e id (applyKeyAction e a) w).1 = .error err →
      (transaction e id (applyKeyAction e a) w).2.1 = [] ∧
        (transaction e id (applyKeyAction e a) w).2.2.db = w.db := by
  rcases transaction_cases e id (ends_applyKeyAction (e := e) (s := w.session) (a := a)) with
    ⟨_, s, hq, heq⟩ | ⟨er, s, -, heq⟩ | ⟨_, s, er, -, -, heq⟩ | ⟨er, -, heq⟩ <;> rw [heq]
  · obtain ⟨kt, hkt, -, -, rfl⟩ | ⟨_, h, -⟩ := hq
    · exact ⟨fun _ => ⟨_, rfl, actionExact_of_fetch hdb hkt⟩, nofun⟩
    · cases h
  · exact ⟨nofun, fun _ _ => ⟨rfl, rfl⟩⟩
  · exact ⟨nofun, fun _ _ => ⟨rfl, rfl⟩⟩
  · exact ⟨nofun, fun _ _ => ⟨rfl, rfl⟩⟩

/-- Suspend the root key with the keys below it, the leaves first. -/
def demoSuspendTree : ApplyKeyActionRequest := actionRequest .suspend demoCascade

theorem demoSuspendTree_exact :
    (transaction (demoEnv 0) id (applyKeyAction (demoEnv 0) demoSuspendTree)
        (worldAfter demo (demoSecondKey ++ demoActivateSecond))).1.isOk = true ∧
      ∃ group, (group.flatMap Job.identifiers).length = 2 ∧
        ActionExact (demoEnv 0) demoSuspendTree (worldAfter demo (demoSecondKey ++ demoActivateSecond)).db
          (transaction (demoEnv 0) id (applyKeyAction (demoEnv 0) demoSuspendTree)
            (worldAfter demo (demoSecondKey ++ demoActivateSecond))).2.2.db group := by
  have hok : (transaction (demoEnv 0) id (applyKeyAction (demoEnv 0) demoSuspendTree)
      (worldAfter demo (demoSecondKey ++ demoActivateSecond))).1.isOk = true := by decide +kernel
  obtain ⟨⟨⟩, hrun⟩ := exists_of_isOk hok
  obtain ⟨group, hgroup, hexact⟩ := (applyKeyAction_exact (demoEnv 0) demoSuspendTree
    (worldAfter demo (demoSecondKey ++ demoActivateSecond))
    (forest_run demo (demoSecondKey ++ demoActivateSecond)).acyclic).1 hrun
  have hlen : ((transaction (demoEnv 0) id (applyKeyAction (demoEnv 0) demoSuspendTree)
      (worldAfter demo (demoSecondKey ++ demoActivateSecond))).2.1.map fun group =>
        (group.flatMap Job.identifiers).length) = [2] := by decide +kernel
  rw [hgroup, List.map_singleton] at hlen
  exact ⟨hok, group, List.singleton_inj.1 hlen, hexact⟩

end Krypton
