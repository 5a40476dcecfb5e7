import Mathlib.Data.List.Chain
import Mathlib.Data.List.Sort
import Krypton.Lib.Layers
import Krypton.Store.Statements

/-!
# The query for descendants

`GetDescendantKeys` as it is sent to the database (`pkg/store/sql/key.go`): the filters become conditions with numbered
parameters, written once for the anchor of a recursive query and once for its recursive part; the rows come back ordered
by depth and time of creation, and a loop puts them into layers.

* `compile_where` — the conditions say what the filters say, in both places;
* `descendantQuery_eq` — when no key is above itself, the query ends and returns the layers of `getDescendantKeys`;
* `mem_iterate_iff` — a layer has the keys at one distance that are reached through keys which meet the filters
  (`Below`).
-/

namespace Krypton

open Lib

namespace DB

/-! ## Filters as conditions -/

/-- A value that is sent along with the text of the query. -/
inductive Param where
  | uuid (u : Uuid)
  | state (s : KeyLifeCycleState)
  | statuses (l : List KeyProcessingStatus)

/-- A comparison of a column with a parameter, which is named by its number. -/
inductive Condition where
  | id (n : Nat)
  | tenantID (n : Nat)
  | lifeCycleState (n : Nat)
  /-- `processing_status = ANY($n)` -/
  | processingStatus (n : Nat)

/-- Parameters are counted from one. -/
def Condition.holds (args : List Param) (r : Key) : Condition → Bool
  | .id n => match args[n - 1]? with
    | some (.uuid u) => r.id == u.text
    | _ => false
  | .tenantID n => match args[n - 1]? with
    | some (.uuid u) => r.tenantID == u.text
    | _ => false
  | .lifeCycleState n => match args[n - 1]? with
    | some (.state s) => s == r.lifeCycleState
    | _ => false
  | .processingStatus n => match args[n - 1]? with
    | some (.statuses l) => l.contains r.status
    | _ => false

/-- `(… AND …) OR (… AND …)`; without a part there is no condition. -/
def whereHolds (args : List Param) (parts : List (List Condition)) (r : Key) : Bool :=
  parts.isEmpty || parts.any fun conds => conds.all (Condition.holds args r)

/-- The query while its filters are put together. -/
structure Draft where
  args : List Param
  argIdx : Nat
  anchorParts : List (List Condition)
  recursiveParts : List (List Condition)

/-- A condition on the next parameter, for a filter that has one. -/
def Draft.bind (q : Draft) (param : Option Param) (cond : Nat → Condition) : Draft × List Condition :=
  match param with
  | none => (q, [])
  | some p => ({ q with args := q.args ++ [p], argIdx := q.argIdx + 1 }, [cond q.argIdx])

/-- One filter; a filter without a condition is dropped. -/
def Draft.add (q : Draft) (f : KeyFilter) : Draft :=
  let (q, states) := q.bind (f.lifeCycleState.map .state) .lifeCycleState
  let (q, statuses) := q.bind (if f.status.isEmpty then none else some (.statuses f.status)) .processingStatus
  let conds := states ++ statuses
  if conds.isEmpty then q
  else { q with anchorParts := q.anchorParts ++ [conds], recursiveParts := q.recursiveParts ++ [conds] }

def compile (id tenantID : Uuid) (filters : List KeyFilter) : Draft :=
  filters.foldl Draft.add ⟨[.uuid id, .uuid tenantID], 3, [], []⟩

/-! ## The recursive query -/

/-- The anchor: the key itself. -/
def anchorRows (db : DB) (q : Draft) : List (Key × Nat) :=
  (db.keys.rows.filter fun r => Condition.holds q.args r (.id 1) && Condition.holds q.args r (.tenantID 2) &&
    whereHolds q.args q.anchorParts r).map fun r => (r, 0)

/-- The recursive part: the keys joined with the rows of the round before. -/
def joinChildren (db : DB) (q : Draft) (tree : List (Key × Nat)) : List (Key × Nat) :=
  (db.keys.rows.flatMap fun k => (tree.filter fun kt => k.parentID == some kt.1.id && k.tenantID == kt.1.tenantID).map
    fun kt => (k, kt.2 + 1)).filter fun r => whereHolds q.args q.recursiveParts r.1

/-- `ORDER BY depth ASC, created_at ASC`. -/
def orderRows (rows : List (Key × Nat)) : List (Key × Nat) :=
  rows.insertionSort fun a b => a.2 < b.2 ∨ a.2 = b.2 ∧ a.1.createdAt ≤ b.1.createdAt

/-- The loop over the rows: make room for the depth, then append. -/
def addRow (layers : KeyTree) (r : Key × Nat) : KeyTree :=
  (layers ++ List.replicate (r.2 + 1 - layers.length) []).modify r.2 (· ++ [r.1])

/-- `GetDescendantKeys`; `none` when the recursion does not end. -/
def descendantQuery (db : DB) (id tenantID : String) (filters : List KeyFilter) : Option (Except Err KeyTree) :=
  match descendantParams id tenantID with
  | .error err => some (.error err)
  | .ok (i, t) =>
    let q := compile i t filters
    (withRecursive (db.joinChildren q) db.keys.rows.length (db.anchorRows q)).map fun rows =>
      if (orderRows rows).any (fun r => r.2 == 0) then .ok ((orderRows rows).foldl addRow [])
      else .error (.of .keyNotFound)

/-! ## What the conditions say -/

section
variable {db : DB} {filters : List KeyFilter}

/-- Two drafts of one query: the later one has more parameters and more parts. -/
structure Draft.Grows (q q' : Draft) (parts : List (List Condition)) (params : List Param) : Prop where
  args : q'.args = q.args ++ params
  argIdx : q'.argIdx = q'.args.length + 1
  anchorParts : q'.anchorParts = q.anchorParts ++ parts
  recursiveParts : q'.recursiveParts = q.recursiveParts ++ parts

/-- The parts of a filter, for whatever parameters come after them. -/
theorem grows_add {q : Draft} (hq : q.argIdx = q.args.length + 1) (f : KeyFilter) : ∃ parts params,
    q.Grows (q.add f) parts params ∧ (parts = [] ↔ f.isEmpty = true) ∧
      ∀ more r, (parts.any fun conds => conds.all (Condition.holds ((q.add f).args ++ more) r)) =
        (!f.isEmpty && f.holds r) := by
  obtain ⟨lc, st⟩ := f
  cases lc with
  | none =>
    cases st with
    | nil => exact ⟨[], [], ⟨by simp [Draft.add, Draft.bind], by simpa [Draft.add, Draft.bind] using hq,
        by simp [Draft.add, Draft.bind], by simp [Draft.add, Draft.bind]⟩, by simp [KeyFilter.isEmpty],
        by simp [KeyFilter.isEmpty]⟩
    | cons x xs =>
      refine ⟨[[.processingStatus q.argIdx]], [.statuses (x :: xs)],
        ⟨rfl, ?_, rfl, rfl⟩, by simp [KeyFilter.isEmpty], ?_⟩
      · simp [Draft.add, Draft.bind, hq]
      · intro more r
        simp [Draft.add, Draft.bind, Condition.holds, hq, KeyFilter.isEmpty, KeyFilter.holds]
  | some s =>
    cases st with
    | nil =>
      refine ⟨[[.lifeCycleState q.argIdx]], [.state s], ⟨rfl, ?_, rfl, rfl⟩, by simp [KeyFilter.isEmpty], ?_⟩
      · simp [Draft.add, Draft.bind, hq]
      · intro more r
        simp [Draft.add, Draft.bind, Condition.holds, hq, KeyFilter.isEmpty, KeyFilter.holds]
    | cons x xs =>
      refine ⟨[[.lifeCycleState q.argIdx, .processingStatus (q.argIdx + 1)]], [.state s, .statuses (x :: xs)],
        ⟨by simp [Draft.add, Draft.bind], ?_, rfl, rfl⟩, by simp [KeyFilter.isEmpty], ?_⟩
      · simp [Draft.add, Draft.bind, hq]
      · intro more r
        simp [Draft.add, Draft.bind, Condition.holds, hq, KeyFilter.isEmpty, KeyFilter.holds]

theorem grows_foldl : ∀ (filters : List KeyFilter) {q : Draft}, q.argIdx = q.args.length + 1 → ∃ parts params,
    q.Grows (filters.foldl Draft.add q) parts params ∧ (parts = [] ↔ filters.all KeyFilter.isEmpty = true) ∧
      ∀ more r, (parts.any fun conds => conds.all (Condition.holds ((filters.foldl Draft.add q).args ++ more) r)) =
        filters.any fun f => !f.isEmpty && f.holds r
  | [], q, hq => ⟨[], [], ⟨by simp, hq, by simp, by simp⟩, by simp, by simp⟩
  | f :: fs, q, hq => by
    obtain ⟨parts, params, hg, hempty, hholds⟩ := grows_add hq f
    obtain ⟨parts', params', hg', hempty', hholds'⟩ := grows_foldl fs hg.argIdx
    refine ⟨parts ++ parts', params ++ params', ⟨?_, hg'.argIdx, ?_, ?_⟩, ?_, fun more r => ?_⟩
    · rw [List.foldl_cons, hg'.args, hg.args, List.append_assoc]
    · rw [List.foldl_cons, hg'.anchorParts, hg.anchorParts, List.append_assoc]
    · rw [List.foldl_cons, hg'.recursiveParts, hg.recursiveParts, List.append_assoc]
    · rw [List.append_eq_nil_iff, List.all_cons, Bool.and_eq_true, hempty, hempty']
    · -- the parameters of the later filters come after those of this one
      have hfirst := hholds (params' ++ more) r
      rw [← List.append_assoc, ← hg'.args] at hfirst
      rw [List.any_append, List.any_cons, List.foldl_cons, hfirst, hholds' more r]

theorem grows_compile (id tenantID : Uuid) (filters : List KeyFilter) : ∃ parts params,
    Draft.Grows ⟨[.uuid id, .uuid tenantID], 3, [], []⟩ (compile id tenantID filters) parts params ∧
      (parts = [] ↔ filters.all KeyFilter.isEmpty = true) ∧
      ∀ r, (parts.any fun conds => conds.all (Condition.holds (compile id tenantID filters).args r)) =
        filters.any fun f => !f.isEmpty && f.holds r := by
  obtain ⟨parts, params, hg, hempty, hholds⟩ := grows_foldl filters (q := ⟨[.uuid id, .uuid tenantID], 3, [], []⟩) rfl
  refine ⟨parts, params, hg, hempty, fun r => ?_⟩
  have h := hholds [] r
  rw [List.append_nil] at h
  exact h

/-- The conditions that the filters become select the keys that pass the filters, in the anchor and in the recursive
part. -/
theorem compile_where (id tenantID : Uuid) (filters : List KeyFilter) (r : Key) :
    whereHolds (compile id tenantID filters).args (compile id tenantID filters).anchorParts r = passes filters r ∧
      whereHolds (compile id tenantID filters).args (compile id tenantID filters).recursiveParts r =
        passes filters r := by
  obtain ⟨parts, params, hg, hempty, hholds⟩ := grows_compile id tenantID filters
  have hparts : whereHolds (compile id tenantID filters).args parts r = passes filters r := by
    have hnil : parts.isEmpty = filters.all KeyFilter.isEmpty := by
      rw [Bool.eq_iff_iff, List.isEmpty_iff, hempty]
    unfold whereHolds passes
    rw [hnil, hholds r]
  rw [hg.anchorParts, hg.recursiveParts, List.nil_append]
  exact ⟨hparts, hparts⟩

/-- The first two parameters stay the identifiers. -/
theorem compile_ids (id tenantID : Uuid) (filters : List KeyFilter) (r : Key) :
    Condition.holds (compile id tenantID filters).args r (.id 1) = (r.id == id.text) ∧
      Condition.holds (compile id tenantID filters).args r (.tenantID 2) = (r.tenantID == tenantID.text) := by
  obtain ⟨parts, params, hg, -⟩ := grows_compile id tenantID filters
  simp [Condition.holds, hg.args]

/-! ## What the rounds find -/

/-- The children of some keys that pass the filters, in the order of the table. -/
def children (db : DB) (filters : List KeyFilter) (layer : List Key) : List Key :=
  db.keys.rows.filter fun r => passes filters r && layer.any fun p =>
    r.parentID == some p.id && r.tenantID == p.tenantID

theorem childLayer_eq (layer : List Key) :
    db.childLayer filters layer = (db.children filters layer).insertionSort fun a b => a.createdAt ≤ b.createdAt := rfl

theorem rows_nodup (db : DB) : db.keys.rows.Nodup := .of_map _ db.ids_nodup

theorem children_nodup (layer : List Key) : (db.children filters layer).Nodup := db.rows_nodup.filter _

theorem mem_children {layer : List Key} {k : Key} : k ∈ db.children filters layer ↔ k ∈ db.keys.rows ∧
    passes filters k = true ∧ ∃ p ∈ layer, k.parentID = some p.id ∧ k.tenantID = p.tenantID := by
  simp [children]

theorem children_congr {layer layer' : List Key} (h : ∀ p, p ∈ layer ↔ p ∈ layer') :
    db.children filters layer = db.children filters layer' := by
  refine List.filter_congr fun r _ => ?_
  rw [Bool.eq_iff_iff]
  simp [h]

theorem flatMap_ite {α β : Type} {c : α → Bool} {g : α → β} :
    ∀ {l : List α}, (l.flatMap fun a => if c a = true then [g a] else []) = (l.filter c).map g
  | [] => rfl
  | a :: l => by
    rw [List.flatMap_cons, flatMap_ite]
    by_cases h : c a = true <;> simp [h]

/-- One round joins a layer of stored keys with its children: a key has one parent, so it is found once. -/
theorem joinChildren_layer {id tenantID : Uuid} {layer : List Key} {n : Nat} (hsub : ∀ p ∈ layer, p ∈ db.keys.rows)
    (hnd : layer.Nodup) : db.joinChildren (compile id tenantID filters) (layer.map fun k => (k, n)) =
      (db.children filters layer).map fun k => (k, n + 1) := by
  have hone : ∀ k : Key, ((layer.map fun p => (p, n)).filter fun kt =>
        k.parentID == some kt.1.id && k.tenantID == kt.1.tenantID).map (fun kt => (k, kt.2 + 1)) =
      if (layer.any fun p => k.parentID == some p.id && k.tenantID == p.tenantID) = true then [(k, n + 1)] else [] := by
    intro k
    have hfilter : layer.filter (fun p => k.parentID == some p.id && k.tenantID == p.tenantID) =
        (layer.find? fun p => k.parentID == some p.id && k.tenantID == p.tenantID).toList := by
      refine filter_eq_find hnd fun p hp q hq hpk hqk => ?_
      simp only [Bool.and_eq_true, beq_iff_eq] at hpk hqk
      exact key_eq_of_id (hsub p hp) (hsub q hq) (Option.some.inj (hpk.1.symm.trans hqk.1))
    rw [List.filter_map, List.map_map, ← List.isSome_find?]
    change (layer.filter fun p => k.parentID == some p.id && k.tenantID == p.tenantID).map (fun _ => (k, n + 1)) = _
    rw [hfilter]
    cases layer.find? fun p => k.parentID == some p.id && k.tenantID == p.tenantID <;> rfl
  unfold joinChildren
  rw [List.flatMap_congr fun k _ => hone k, flatMap_ite, List.filter_map, List.filter_filter]
  refine congrArg (List.map _) (List.filter_congr fun k _ => ?_)
  rw [Function.comp_apply, (compile_where id tenantID filters k).2]

/-! ## Ordered rows -/

section
variable {α : Type} {r : α → α → Prop} [DecidableRel r]

/-- What comes before everything in the second list stays in front of it. -/
theorem orderedInsert_append {a : α} {l m : List α} (h : ∀ b ∈ m, r a b) :
    (l ++ m).orderedInsert r a = l.orderedInsert r a ++ m := by
  induction l with
  | nil =>
    cases m with
    | nil => rfl
    | cons b m => rw [List.nil_append, List.orderedInsert_cons_of_le r m (h b List.mem_cons_self)]; rfl
  | cons c l ih =>
    rw [List.cons_append, List.orderedInsert_cons, List.orderedInsert_cons]
    split
    · rfl
    · rw [ih, List.cons_append]

theorem insertionSort_append {l m : List α} (h : ∀ a ∈ l, ∀ b ∈ m, r a b) :
    (l ++ m).insertionSort r = l.insertionSort r ++ m.insertionSort r := by
  induction l with
  | nil => rfl
  | cons a l ih =>
    rw [List.cons_append, List.insertionSort_cons, List.insertionSort_cons,
      ih fun b hb => h b (List.mem_cons_of_mem _ hb)]
    exact orderedInsert_append fun b hb => h a List.mem_cons_self b ((List.mem_insertionSort r).1 hb)

end

/-- Rows of one depth are ordered by time of creation. -/
theorem orderRows_layer (layer : List Key) (n : Nat) : orderRows (layer.map fun k => (k, n)) =
    (layer.insertionSort fun a b => a.createdAt ≤ b.createdAt).map fun k => (k, n) := by
  unfold orderRows
  exact (List.map_insertionSort _ _ _ _ fun a _ b _ => by simp).symm

theorem modify_last {layers : KeyTree} {layer : List Key} {f : List Key → List Key} :
    (layers ++ [layer]).modify layers.length f = layers ++ [f layer] :=
  List.modifyTailIdx_add (List.modifyHead f) 0 layers [layer]

theorem addRow_extend {layers : KeyTree} {k : Key} : addRow layers (k, layers.length) = layers ++ [[k]] := by
  simp [addRow, modify_last]

theorem addRow_last {layers : KeyTree} {layer : List Key} {k : Key} :
    addRow (layers ++ [layer]) (k, layers.length) = layers ++ [layer ++ [k]] := by
  simp [addRow, modify_last]

/-- The loop over the rows of one depth appends a layer. -/
theorem foldl_addRow_layer {layers : KeyTree} : ∀ {layer : List Key}, layer ≠ [] →
    (layer.map fun k => (k, layers.length)).foldl addRow layers = layers ++ [layer]
  | [], h => absurd rfl h
  | k :: ks, _ => by
    have hrest : ∀ (ks : List Key) (done : List Key),
        (ks.map fun k => (k, layers.length)).foldl addRow (layers ++ [done]) = layers ++ [done ++ ks] := by
      intro ks
      induction ks with
      | nil => intro done; simp
      | cons k ks ih =>
        intro done
        rw [List.map_cons, List.foldl_cons, addRow_last, ih, List.append_assoc, List.singleton_append]
    rw [List.map_cons, List.foldl_cons, addRow_extend, hrest ks [k], List.singleton_append]

/-- The rows that the rounds from a layer on collect, put into layers, are the layers of the search. -/
theorem foldl_addRow_withRecursive {id tenantID : Uuid} : ∀ {fuel : Nat} {layer : List Key} (layers : KeyTree)
    {rows : List (Key × Nat)}, (∀ p ∈ layer, p ∈ db.keys.rows) → layer.Nodup →
    withRecursive (db.joinChildren (compile id tenantID filters)) fuel (layer.map fun k => (k, layers.length)) =
      some rows → (∀ r ∈ rows, layers.length ≤ r.2) ∧ (orderRows rows).foldl addRow layers =
        layers ++ db.layersFrom filters fuel (layer.insertionSort fun a b => a.createdAt ≤ b.createdAt)
  | fuel, [], layers, rows, _, _, h => by
    have hrows : rows = [] := by cases fuel <;> exact (Option.some.inj h).symm
    subst hrows
    exact ⟨by simp, by rw [List.insertionSort_nil, layersFrom_nil, List.append_nil]; rfl⟩
  | 0, _ :: _, _, _, _, _, h => by cases h
  | fuel + 1, k :: ks, layers, rows, hsub, hnd, h => by
    obtain ⟨rest, hrest, rfl⟩ := Option.map_eq_some_iff.1 h
    rw [show ((k, layers.length) :: List.map (fun k => (k, layers.length)) ks) =
      (k :: ks).map fun k => (k, layers.length) from rfl] at hrest ⊢
    rw [joinChildren_layer hsub hnd] at hrest
    let sorted := (k :: ks).insertionSort fun a b => a.createdAt ≤ b.createdAt
    have hmem : ∀ p, p ∈ sorted ↔ p ∈ k :: ks := fun p => List.mem_insertionSort _
    have hne : sorted ≠ [] := List.ne_nil_of_mem ((hmem k).2 List.mem_cons_self)
    have hlen : (layers ++ [sorted]).length = layers.length + 1 := by simp
    obtain ⟨hdepth, hfold⟩ := foldl_addRow_withRecursive (layers ++ [sorted])
      (fun p hp => (mem_children.1 hp).1) (children_nodup (k :: ks)) (by rw [hlen]; exact hrest)
    rw [hlen] at hdepth
    refine ⟨fun r hr => ?_, ?_⟩
    · rcases List.mem_append.1 hr with hr | hr
      · obtain ⟨_, -, rfl⟩ := List.mem_map.1 hr
        exact Nat.le_refl _
      · exact Nat.le_of_succ_le (hdepth r hr)
    · -- the rows of this depth come before those of the later rounds
      have horder : orderRows ((k :: ks).map (fun k => (k, layers.length)) ++ rest) =
          sorted.map (fun k => (k, layers.length)) ++ orderRows rest := by
        rw [← orderRows_layer]
        refine insertionSort_append fun a ha b hb => .inl ?_
        obtain ⟨_, -, rfl⟩ := List.mem_map.1 ha
        exact hdepth b hb
      have hnext : db.childLayer filters sorted =
          (db.children filters (k :: ks)).insertionSort fun a b => a.createdAt ≤ b.createdAt := by
        rw [childLayer_eq, children_congr hmem]
      rw [horder, List.foldl_append, foldl_addRow_layer hne, hfold, List.append_assoc, List.singleton_append, ← hnext]
      obtain ⟨x, xs, hsorted⟩ := List.exists_cons_of_ne_nil hne
      rw [show (k :: ks).insertionSort (fun a b => a.createdAt ≤ b.createdAt) = x :: xs from hsorted, hsorted,
        layersFrom_cons]

/-! ## Forests of keys -/

/-- `p` is the parent of `c`. -/
structure ParentOf (db : DB) (p c : Key) : Prop where
  parent : p ∈ db.keys.rows
  child : c ∈ db.keys.rows
  parentID : c.parentID = some p.id

/-- No key is above itself. -/
def Acyclic (db : DB) : Prop := ∀ k, ¬ Relation.TransGen db.ParentOf k k

/-- `c` is a child of `p` that passes the filters. -/
structure PassingChild (db : DB) (filters : List KeyFilter) (p c : Key) : Prop where
  mem : c ∈ db.keys.rows
  passes : passes filters c = true
  parentID : c.parentID = some p.id
  tenantID : c.tenantID = p.tenantID

theorem expands_children : Expands (db.children filters) (PassingChild db filters) := by
  intro layer c
  rw [mem_children]
  constructor
  · rintro ⟨hmem, hpass, p, hp, hpar, ht⟩
    exact ⟨p, hp, hmem, hpass, hpar, ht⟩
  · rintro ⟨p, hp, h⟩
    exact ⟨h.mem, h.passes, p, hp, h.parentID, h.tenantID⟩

theorem expands_layer : Expands (db.childLayer filters) (PassingChild db filters) := by
  intro layer c
  rw [childLayer_eq, List.mem_insertionSort]
  exact expands_children layer c

theorem Acyclic.descends (h : db.Acyclic) : Descends (PassingChild db filters) db.ParentOf db.keys.rows where
  closed _ _ hc := hc.mem
  parent _ hp _ hc := ⟨hp, hc.mem, hc.parentID⟩
  one_parent _ _ _ hp hp' := key_eq_of_id hp.parent hp'.parent (Option.some.inj (hp.parentID.symm.trans hp'.parentID))
  acyclic := h

/-- The anchor finds the key, if it passes the filters. -/
theorem anchorRows_eq (id tenantID : Uuid) : db.anchorRows (compile id tenantID filters) =
    ((db.keys.rows.find? fun r => r.id == id.text && r.tenantID == tenantID.text && passes filters r).toList).map
      fun r => (r, 0) := by
  have hone : ∀ a ∈ db.keys.rows, ∀ b ∈ db.keys.rows,
      (a.id == id.text && a.tenantID == tenantID.text && passes filters a) = true →
      (b.id == id.text && b.tenantID == tenantID.text && passes filters b) = true → a = b := by
    intro a ha b hb hpa hpb
    simp only [Bool.and_eq_true, beq_iff_eq] at hpa hpb
    exact key_eq_of_id ha hb (hpa.1.1.trans hpb.1.1.symm)
  unfold anchorRows
  rw [← filter_eq_find db.rows_nodup hone]
  refine congrArg (List.map _) (List.filter_congr fun r _ => ?_)
  rw [(compile_ids id tenantID filters r).1, (compile_ids id tenantID filters r).2,
    (compile_where id tenantID filters r).1]

/-- The rounds are the layers of the search, with their depths. -/
theorem joinChildren_iterate {id tenantID : Uuid} {k : Key} (hk : k ∈ db.keys.rows) : ∀ n : Nat,
    (db.joinChildren (compile id tenantID filters))^[n] [(k, 0)] = ((db.children filters)^[n] [k]).map fun k => (k, n)
  | 0 => rfl
  | n + 1 => by
    have hlayer : (∀ p ∈ (db.children filters)^[n] [k], p ∈ db.keys.rows) ∧ ((db.children filters)^[n] [k]).Nodup := by
      cases n with
      | zero => exact ⟨fun p hp => List.mem_singleton.1 hp ▸ hk, List.nodup_singleton k⟩
      | succ n =>
        rw [Function.iterate_succ_apply']
        exact ⟨fun p hp => (mem_children.1 hp).1, children_nodup _⟩
    rw [Function.iterate_succ_apply', Function.iterate_succ_apply', joinChildren_iterate hk n,
      joinChildren_layer hlayer.1 hlayer.2]

/-- **The recursive query.** When no key is above itself the recursion ends, and its rows are the layers of the
search. -/
theorem descendantQuery_eq (h : db.Acyclic) (id tenantID : String) (filters : List KeyFilter) :
    db.descendantQuery id tenantID filters = some (db.getDescendantKeys id tenantID filters) := by
  unfold descendantQuery
  cases hparams : descendantParams id tenantID with
  | error err =>
    rw [getDescendantKeys, hparams]
    rfl
  | ok p =>
    obtain ⟨i, t⟩ := p
    rw [getDescendantKeys_of_params hparams]
    dsimp only
    rw [anchorRows_eq]
    cases hk : db.keys.rows.find? fun r => r.id == i.text && r.tenantID == t.text && passes filters r with
    | none =>
      have hnone : withRecursive (db.joinChildren (compile i t filters)) db.keys.rows.length [] = some [] := by
        cases db.keys.rows.length <;> rfl
      rw [Option.toList_none, List.map_nil, hnone]
      rfl
    | some k =>
      have hmem := List.mem_of_find?_eq_some hk
      have hend : (db.joinChildren (compile i t filters))^[db.keys.rows.length] [(k, 0)] = [] := by
        rw [joinChildren_iterate hmem, h.descends.layer_eq_nil expands_children hmem (Nat.le_refl _), List.map_nil]
      obtain ⟨rows, hrows⟩ := withRecursive_isSome hend
      have hlayer : ∀ p ∈ [k], p ∈ db.keys.rows := fun p hp => List.mem_singleton.1 hp ▸ hmem
      obtain ⟨-, hfold⟩ := foldl_addRow_withRecursive [] hlayer (List.nodup_singleton k) hrows
      have hroot : (orderRows rows).any (fun r => r.2 == 0) = true := by
        rw [List.any_eq_true]
        refine ⟨(k, 0), (List.mem_insertionSort _).2 ?_, rfl⟩
        cases hlen : db.keys.rows.length with
        | zero => rw [List.length_eq_zero_iff.1 hlen] at hmem; cases hmem
        | succ n =>
          rw [hlen] at hrows
          obtain ⟨rest, -, rfl⟩ := Option.map_eq_some_iff.1 hrows
          exact List.mem_append_left _ List.mem_cons_self
      rw [Option.toList_some, List.map_singleton, hrows, Option.map_some, if_pos hroot, hfold]
      rfl

/-! ## The keys below a key -/

/-- The key satisfies a filter that has a condition, or no filter has one. -/
def Meets (filters : List KeyFilter) (k : Key) : Prop :=
  (∀ f ∈ filters, f.lifeCycleState = none ∧ f.status = []) ∨
    ∃ f ∈ filters, ¬ (f.lifeCycleState = none ∧ f.status = []) ∧ (∀ s ∈ f.lifeCycleState, s = k.lifeCycleState) ∧
      (f.status ≠ [] → k.status ∈ f.status)

/-- A path down from `k` to `d` of `n` steps through keys of the tenant that all meet the filters. -/
def Below (db : DB) (filters : List KeyFilter) (k d : Key) (n : Nat) : Prop :=
  ∃ path : List Key, path.length = n + 1 ∧ path.head? = some k ∧ path.getLast? = some d ∧ path.IsChain db.ParentOf ∧
    ∀ x ∈ path, x.tenantID = k.tenantID ∧ Meets filters x

theorem passes_iff {k : Key} : passes filters k = true ↔ Meets filters k := by
  have hempty : ∀ f : KeyFilter, f.isEmpty = true ↔ f.lifeCycleState = none ∧ f.status = [] := by
    intro f
    simp [KeyFilter.isEmpty]
  have hholds : ∀ f : KeyFilter, f.holds k = true ↔
      (∀ s ∈ f.lifeCycleState, s = k.lifeCycleState) ∧ (f.status ≠ [] → k.status ∈ f.status) := by
    intro f
    simp [KeyFilter.holds, Option.all_eq_true, or_iff_not_imp_left]
  unfold passes Meets
  rw [Bool.or_eq_true, List.all_eq_true, List.any_eq_true]
  refine or_congr (forall₂_congr fun f _ => hempty f) (exists_congr fun f => and_congr_right fun _ => ?_)
  rw [Bool.and_eq_true, Bool.not_eq_true', ← Bool.not_eq_true, hempty, hholds]

theorem below_zero {k d : Key} (hk : Meets filters k) : db.Below filters k d 0 ↔ d = k := by
  constructor
  · rintro ⟨path, hlen, hhead, hlast, -⟩
    obtain ⟨x, rfl⟩ := List.length_eq_one_iff.1 hlen
    cases hhead
    cases hlast
    rfl
  · rintro rfl
    exact ⟨[d], rfl, rfl, rfl, .singleton d, fun x hx => by rw [List.mem_singleton.1 hx]; exact ⟨rfl, hk⟩⟩

/-- A path of one step more ends in a child of the last key of a shorter one. -/
theorem below_succ {k d : Key} {n : Nat} : db.Below filters k d (n + 1) ↔
    ∃ p, db.Below filters k p n ∧ db.ParentOf p d ∧ d.tenantID = k.tenantID ∧ Meets filters d := by
  constructor
  · rintro ⟨path, hlen, hhead, hlast, hchain, hall⟩
    obtain ⟨init, rfl⟩ : ∃ init, path = init ++ [d] := ⟨path.dropLast, (List.dropLast_append_getLast? d hlast).symm⟩
    have hinit : init.length = n + 1 := by simpa using hlen
    have hne : init ≠ [] := List.ne_nil_of_length_eq_add_one hinit
    obtain ⟨hi, -, hstep⟩ := List.isChain_append.1 hchain
    have hd := hall d (List.mem_append_right _ (List.mem_singleton_self d))
    refine ⟨init.getLast hne, ⟨init, hinit, ?_, List.getLast?_eq_some_getLast hne, hi,
      fun x hx => hall x (List.mem_append_left _ hx)⟩, ?_, hd.1, hd.2⟩
    · rwa [List.head?_append_of_ne_nil _ hne] at hhead
    · exact hstep _ (List.getLast?_eq_some_getLast hne) d rfl
  · rintro ⟨p, ⟨path, hlen, hhead, hlast, hchain, hall⟩, hpd, ht, hd⟩
    have hne : path ≠ [] := List.ne_nil_of_length_eq_add_one hlen
    refine ⟨path ++ [d], by simp [hlen], ?_, by simp, ?_, fun x hx => ?_⟩
    · rwa [List.head?_append_of_ne_nil _ hne]
    · refine List.isChain_append.2 ⟨hchain, .singleton d, fun x hx y hy => ?_⟩
      rw [hlast] at hx
      cases hx
      cases hy
      exact hpd
    · rcases List.mem_append.1 hx with hx | hx
      · exact hall x hx
      · rw [List.mem_singleton.1 hx]
        exact ⟨ht, hd⟩

theorem Below.tenantID {k d : Key} {n : Nat} (h : db.Below filters k d n) : d.tenantID = k.tenantID := by
  obtain ⟨path, -, -, hlast, -, hall⟩ := h
  exact (hall d (List.mem_of_getLast? hlast)).1

/-- A layer of the search has the keys at its distance. -/
theorem mem_iterate_iff {k : Key} (hk : k ∈ db.keys.rows) (hm : Meets filters k) : ∀ {n : Nat} {d : Key},
    d ∈ (db.childLayer filters)^[n] [k] ↔ db.Below filters k d n
  | 0, d => by rw [below_zero hm, Function.iterate_zero_apply, List.mem_singleton]
  | n + 1, d => by
    have hmem : ∀ p ∈ (db.childLayer filters)^[n] [k], p ∈ db.keys.rows := by
      intro p hp
      cases n with
      | zero => exact List.mem_singleton.1 hp ▸ hk
      | succ n =>
        obtain ⟨_, -, hchild⟩ := (mem_layer_succ expands_layer).1 hp
        exact hchild.mem
    rw [mem_layer_succ expands_layer, below_succ]
    refine exists_congr fun p => ?_
    constructor
    · rintro ⟨hp, hchild⟩
      have hbelow := (mem_iterate_iff hk hm).1 hp
      exact ⟨hbelow, ⟨hmem p hp, hchild.mem, hchild.parentID⟩, hchild.tenantID.trans hbelow.tenantID,
        passes_iff.1 hchild.passes⟩
    · rintro ⟨hbelow, hpd, ht, hd⟩
      exact ⟨(mem_iterate_iff hk hm).2 hbelow, hpd.child, passes_iff.2 hd, hpd.parentID, ht.trans hbelow.tenantID.symm⟩

end

end DB

end Krypton
