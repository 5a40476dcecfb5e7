import Krypton.Lib.Walk
import Krypton.KeyTrees

/-!
# The query for ancestors

`GetParentKeys` as it is sent to the database (`pkg/store/sql/key.go`): a recursive query that joins each row with its
parent in the same tenant, read with the topmost key first. Going up by `n` parents undoes a path down of `n` steps
(`walk_parentOf`), so the two recursive queries of the store are converse to each other.

* `ancestorQuery_eq` — when no key is above itself, the query ends and returns the keys of `getParentKeys`;
* `ancestors_converse` — a key is in layer `i` of the tree below another one exactly when that one stands `i` places
  before the end of its ancestors.
-/

namespace Krypton

open Lib

namespace DB

/-! ## The recursive query -/

/-- The recursive part: the keys joined with the rows of the round before. -/
def joinParents (db : DB) (chain : List (Key × Nat)) : List (Key × Nat) :=
  db.keys.rows.flatMap fun k => (chain.filter fun kc => kc.1.parentID == some k.id && k.tenantID == kc.1.tenantID).map
    fun kc => (k, kc.2 + 1)

/-- `ORDER BY depth DESC`. -/
def orderByDepth (rows : List (Key × Nat)) : List (Key × Nat) := rows.insertionSort fun a b => b.2 ≤ a.2

/-- `GetParentKeys`; `none` when the recursion does not end. -/
def ancestorQuery (db : DB) (id tenantID : String) : Option (Except Err (List Key)) :=
  match keyParams id tenantID with
  | .error e => some (.error e)
  | .ok (i, t) =>
    let anchor := (db.keys.rows.filter fun r => r.id == i.text && r.tenantID == t.text).map fun r => (r, 0)
    (withRecursive db.joinParents db.keys.rows.length anchor).map fun rows =>
      let keys := (orderByDepth rows).map Prod.fst
      if keys.isEmpty then .error (.of .keyNotFound) else .ok keys

section
variable {db : DB} {k d a : Key}

/-! ## Going up -/

theorem parentOf_eq_some {p : Key} :
    db.parentOf k = some p ↔ p ∈ db.keys.rows ∧ k.parentID = some p.id ∧ p.tenantID = k.tenantID :=
  ⟨mem_of_parentOf, fun ⟨hp, hid, ht⟩ => parentOf_of_mem hp hid ht⟩

theorem meets_nil : Meets [] k := .inl (by simp)

/-- Going up by `n` parents is the way back of a path down of `n` steps. -/
theorem walk_parentOf : ∀ {n : Nat} {d : Key}, d ∈ db.keys.rows → (walk db.parentOf n d = some a ↔ db.Below [] a d n)
  | 0, d, _ => by
    rw [below_zero meets_nil]
    simp [walk]
  | n + 1, d, hd => by
    simp only [walk, below_succ, Option.bind_eq_some_iff]
    refine exists_congr fun p => ?_
    rw [parentOf_eq_some]
    constructor
    · intro h
      obtain ⟨⟨hp, hid, ht⟩, hwalk⟩ := h
      have hbelow := (walk_parentOf hp).1 hwalk
      exact ⟨hbelow, ⟨hp, hd, hid⟩, ht.symm.trans hbelow.tenantID, meets_nil⟩
    · intro h
      obtain ⟨hbelow, hpd, ht, -⟩ := h
      exact ⟨⟨hpd.parent, hpd.parentID, hbelow.tenantID.trans ht.symm⟩, (walk_parentOf hpd.parent).2 hbelow⟩

theorem head?_chain (n : Nat) (k : Key) : (db.chain n k).head? = some k := by
  cases n with
  | zero => rfl
  | succ n =>
    rw [chain_succ]
    rfl

theorem chain_ne_nil (n : Nat) (k : Key) : db.chain n k ≠ [] := by
  intro hnil
  have hhead : (db.chain n k).head? = some k := head?_chain n k
  rw [hnil] at hhead
  cases hhead

/-- The keys of a chain are what the walk finds, as far as the fuel goes. -/
theorem getElem?_chain : ∀ {n i : Nat} {k : Key}, (db.chain n k)[i]? = if i ≤ n then walk db.parentOf i k else none
  | 0, 0, k => rfl
  | 0, i + 1, k => rfl
  | n + 1, 0, k => by
    rw [chain_succ]
    rfl
  | n + 1, i + 1, k => by
    rw [chain_succ, List.getElem?_cons_succ, walk]
    cases db.parentOf k with
    | none => simp
    | some p =>
      simp only [Option.elim, Option.bind_some, Nat.add_le_add_iff_right]
      exact getElem?_chain

/-- Without a cycle there are fewer ancestors than rows: the key would be in a layer below the last of them. -/
theorem Acyclic.walk_eq_none (h : db.Acyclic) (hk : k ∈ db.keys.rows) {n : Nat} (hn : db.keys.rows.length ≤ n) :
    walk db.parentOf n k = none := by
  cases hw : walk db.parentOf n k with
  | none => rfl
  | some a =>
    have hbelow := (walk_parentOf hk).1 hw
    have ha : a ∈ db.keys.rows := by
      obtain ⟨path, hlen, hhead, hlast, hchain, -⟩ := hbelow
      cases path with
      | nil => cases hlen
      | cons x path =>
        cases hhead
        cases path with
        | nil =>
          cases hlast
          exact hk
        | cons y path => exact (List.isChain_cons_cons.1 hchain).1.parent
    have hlayer := (mem_iterate_iff ha meets_nil).2 hbelow
    rw [h.descends.layer_eq_nil expands_layer ha hn] at hlayer
    cases hlayer

theorem Acyclic.getElem?_chain (h : db.Acyclic) (hk : k ∈ db.keys.rows) (i : Nat) :
    (db.chain db.keys.rows.length k)[i]? = walk db.parentOf i k := by
  rw [DB.getElem?_chain]
  split
  · rfl
  · rw [h.walk_eq_none hk (by omega)]

/-! ## What the rounds find -/

/-- A round finds the parent of the key of the round before. -/
theorem joinParents_single (n : Nat) : db.joinParents [(k, n)] = (db.parentOf k).toList.map fun p => (p, n + 1) := by
  have hone : ∀ r : Key, ([(k, n)].filter fun kc => kc.1.parentID == some r.id && r.tenantID == kc.1.tenantID).map
      (fun kc => (r, kc.2 + 1)) = if (k.parentID == some r.id && r.tenantID == k.tenantID) = true then [(r, n + 1)]
        else [] := by
    intro r
    rw [List.filter_cons]
    split <;> rfl
  have hfind : db.parentOf k = db.keys.rows.find? fun r => k.parentID == some r.id && r.tenantID == k.tenantID := by
    unfold parentOf
    cases k.parentID with
    | none => exact (List.find?_eq_none.2 fun r _ => by simp).symm
    | some p =>
      rw [Option.bind_some]
      refine congrArg (db.keys.rows.find? ·) (funext fun r => ?_)
      rw [Option.some_beq_some, Bool.beq_comm]
  unfold joinParents
  rw [List.flatMap_congr fun r _ => hone r, flatMap_ite, hfind, filter_eq_find db.rows_nodup]
  intro p hp q hq hpk hqk
  simp only [Bool.and_eq_true, beq_iff_eq] at hpk hqk
  exact key_eq_of_id hp hq (Option.some.inj (hpk.1.symm.trans hqk.1))

theorem joinParents_iterate : ∀ (n m : Nat) (k : Key),
    db.joinParents^[n] [(k, m)] = (walk db.parentOf n k).toList.map fun p => (p, m + n)
  | 0, _, _ => rfl
  | n + 1, m, k => by
    rw [Function.iterate_succ_apply, joinParents_single, walk]
    cases db.parentOf k with
    | none =>
      have hnil : db.joinParents [] = [] := by simp [joinParents]
      exact Function.iterate_fixed hnil n
    | some p =>
      rw [Option.toList_some, List.map_singleton, joinParents_iterate n (m + 1) p, Option.bind_some]
      simp only [Nat.add_right_comm m 1 n, Nat.add_assoc]

/-- The rows of a chain that ends come with their distance from the key. -/
theorem withRecursive_joinParents : ∀ {fuel n : Nat} {k : Key} {rows : List (Key × Nat)},
    withRecursive db.joinParents fuel [(k, n)] = some rows → rows = (db.chain fuel k).zipIdx n
  | 0, _, _, _, h => by cases h
  | fuel + 1, n, k, rows, h => by
    obtain ⟨rest, hrest, rfl⟩ := Option.map_eq_some_iff.1 h
    rw [joinParents_single] at hrest
    rw [chain_succ, List.zipIdx_cons]
    cases hp : db.parentOf k with
    | none =>
      rw [hp] at hrest
      have hnil : rest = [] := by cases fuel <;> exact (Option.some.inj hrest).symm
      rw [hnil]
      rfl
    | some p =>
      rw [hp] at hrest
      rw [withRecursive_joinParents hrest]
      rfl

theorem orderedInsert_last {α : Type} {r : α → α → Prop} [DecidableRel r] {a : α} :
    ∀ {l : List α}, (∀ b ∈ l, ¬ r a b) → l.orderedInsert r a = l ++ [a]
  | [], _ => rfl
  | c :: l, h => by
    obtain ⟨hc, hl⟩ := List.forall_mem_cons.1 h
    rw [List.orderedInsert_cons, if_neg hc, orderedInsert_last hl, List.cons_append]

/-- Rows that come with growing depth are turned round. -/
theorem orderByDepth_zipIdx : ∀ (l : List Key) (n : Nat), orderByDepth (l.zipIdx n) = (l.zipIdx n).reverse
  | [], _ => rfl
  | k :: l, n => by
    rw [List.zipIdx_cons, orderByDepth, List.insertionSort_cons, ← orderByDepth, orderByDepth_zipIdx l (n + 1),
      List.reverse_cons]
    refine orderedInsert_last fun b hb => ?_
    have hle := List.le_snd_of_mem_zipIdx (List.mem_reverse.1 hb)
    show ¬ b.2 ≤ n
    omega

/-- **The recursive query.** When no key is above itself the recursion ends, and its rows are the chain of ancestors. -/
theorem ancestorQuery_eq (h : db.Acyclic) (id tenantID : String) :
    db.ancestorQuery id tenantID = some (db.getParentKeys id tenantID) := by
  unfold ancestorQuery getParentKeys getKeyByID
  cases hp : keyParams id tenantID with
  | error e => rfl
  | ok params =>
    obtain ⟨i, t⟩ := params
    have hone : ∀ x ∈ db.keys.rows, ∀ y ∈ db.keys.rows, (x.id == i.text && x.tenantID == t.text) = true →
        (y.id == i.text && y.tenantID == t.text) = true → x = y := by
      intro x hx y hy hxi hyi
      simp only [Bool.and_eq_true, beq_iff_eq] at hxi hyi
      exact key_eq_of_id hx hy (hxi.1.trans hyi.1.symm)
    dsimp only
    rw [filter_eq_find db.rows_nodup hone]
    cases hk : db.keys.rows.find? fun r => r.id == i.text && r.tenantID == t.text with
    | none =>
      have hnone : withRecursive db.joinParents db.keys.rows.length [] = some [] := by
        cases db.keys.rows.length <;> rfl
      rw [Option.toList_none, List.map_nil, hnone]
      rfl
    | some k =>
      have hmem := List.mem_of_find?_eq_some hk
      have hend : db.joinParents^[db.keys.rows.length] [(k, 0)] = [] := by
        rw [joinParents_iterate, h.walk_eq_none hmem (Nat.le_refl _)]
        rfl
      obtain ⟨rows, hrows⟩ := withRecursive_isSome hend
      rw [Option.toList_some, List.map_singleton, hrows, Option.map_some, withRecursive_joinParents hrows,
        orderByDepth_zipIdx, List.map_reverse, List.zipIdx_map_fst, if_neg (by simp [chain_ne_nil])]

/-! ## The two directions -/

/-- Neighbours in a chain of stored keys are child and parent. -/
theorem isChain_chain : ∀ {n : Nat} {k : Key}, k ∈ db.keys.rows →
    (db.chain n k).IsChain fun c p => db.ParentOf p c ∧ p.tenantID = c.tenantID
  | 0, k, _ => .singleton k
  | n + 1, k, hk => by
    rw [chain_succ]
    cases hp : db.parentOf k with
    | none => exact .singleton k
    | some p =>
      obtain ⟨hmem, hid, ht⟩ := mem_of_parentOf hp
      refine List.isChain_cons.2 ⟨fun y hy => ?_, isChain_chain hmem⟩
      rw [Option.elim, head?_chain] at hy
      cases hy
      exact ⟨⟨hmem, hk, hid⟩, ht⟩

/-- The chain ends in a key that has no parent in its tenant. -/
theorem Acyclic.getLast?_chain (h : db.Acyclic) (hk : k ∈ db.keys.rows) :
    ∃ top, (db.chain db.keys.rows.length k).getLast? = some top ∧ db.parentOf top = none := by
  obtain ⟨top, htop⟩ : ∃ top, (db.chain db.keys.rows.length k).getLast? = some top :=
    ⟨_, List.getLast?_eq_some_getLast (chain_ne_nil _ k)⟩
  refine ⟨top, htop, ?_⟩
  -- one step after the last key the walk is over
  have hlast := htop
  rw [List.getLast?_eq_getElem?, h.getElem?_chain hk] at hlast
  have hpos : 0 < (db.chain db.keys.rows.length k).length := List.length_pos_of_mem (List.mem_of_getLast? htop)
  have hnext := h.getElem?_chain hk (db.chain db.keys.rows.length k).length
  rw [List.getElem?_eq_none (Nat.le_refl _), ← Nat.sub_add_cancel hpos, walk_succ_right, hlast,
    Option.bind_some] at hnext
  exact hnext.symm

/-- **Ancestors and descendants.** The tree below `a` has `d` in layer `i` exactly when `a` stands `i` places before the
end of the ancestors of `d`. Those end in `d`, each of them is the parent of the next one, and the first has no parent
in its tenant, so no parent at all where parents are of the same tenant. -/
theorem ancestors_converse (h : db.Acyclic) (ha : a ∈ db.keys.rows) (hd : d ∈ db.keys.rows) :
    ∃ (kt : KeyTree) (up : List Key),
      db.descendantQuery a.id a.tenantID [] = some (.ok kt) ∧ db.ancestorQuery d.id d.tenantID = some (.ok up) ∧
      (∀ i : Nat, (∃ layer, kt[i]? = some layer ∧ d ∈ layer) ↔ up.reverse[i]? = some a) ∧
      up.getLast? = some d ∧ up.IsChain (fun p c => db.ParentOf p c ∧ p.tenantID = c.tenantID) ∧
      ∃ top, up.head? = some top ∧ (∀ p, db.ParentOf p top → p.tenantID ≠ top.tenantID) ∧
        ((∀ p c, db.ParentOf p c → p.tenantID = c.tenantID) → ∀ p, ¬ db.ParentOf p top) := by
  obtain ⟨top, htop, hnone⟩ := h.getLast?_chain hd
  have hno : ∀ p, db.ParentOf p top → p.tenantID ≠ top.tenantID := by
    intro p hp ht
    rw [parentOf_of_mem hp.parent hp.parentID ht] at hnone
    cases hnone
  refine ⟨db.layersFrom [] db.keys.rows.length [a], (db.chain db.keys.rows.length d).reverse, ?_, ?_, ?_, ?_, ?_,
    top, ?_, hno, fun hall p hp => hno p hp (hall p top hp)⟩
  · rw [descendantQuery_eq h, getDescendantKeys_of_found (descendantParams_of_mem ha) (getKeyByID_of_mem ha),
      if_pos (passes_iff.2 meets_nil)]
  · rw [ancestorQuery_eq h, getParentKeys, getKeyByID_of_mem hd]
  · intro i
    rw [mem_tree h ha meets_nil, List.reverse_reverse, h.getElem?_chain hd, walk_parentOf hd]
  · rw [List.getLast?_reverse, head?_chain]
  · rw [List.isChain_reverse]
    exact isChain_chain hd
  · rw [List.head?_reverse, htop]

end

end DB

/-- The key that was created below the root key has it as its only ancestor. -/
theorem demoTree_converse : ∃ a ∈ (worldAfter demo (demoSecondKey ++ demoActivateSecond)).db.keys.rows,
    ∃ d ∈ (worldAfter demo (demoSecondKey ++ demoActivateSecond)).db.keys.rows, ∃ (kt : KeyTree) (up : List Key),
      a.id = demoKey 1 ∧ d.id = demoKey 2 ∧ up.map Key.id = [demoKey 1, demoKey 2] ∧
      (worldAfter demo (demoSecondKey ++ demoActivateSecond)).db.descendantQuery a.id a.tenantID [] = some (.ok kt) ∧
      ∀ i : Nat, (∃ layer, kt[i]? = some layer ∧ d ∈ layer) ↔ up.reverse[i]? = some a := by
  have hacyclic := (forest_run demo (demoSecondKey ++ demoActivateSecond)).acyclic
  obtain ⟨a, ha⟩ := exists_of_isOk (show ((worldAfter demo (demoSecondKey ++ demoActivateSecond)).db.getKeyByID
    (demoKey 1) demoTenant).isOk = true by decide +kernel)
  obtain ⟨d, hd⟩ := exists_of_isOk (show ((worldAfter demo (demoSecondKey ++ demoActivateSecond)).db.getKeyByID
    (demoKey 2) demoTenant).isOk = true by decide +kernel)
  obtain ⟨ham, haid, -⟩ := DB.getKeyByID_ok ha
  obtain ⟨hdm, hdid, hdt⟩ := DB.getKeyByID_ok hd
  have hida : a.id = demoKey 1 := (Option.some.inj ((demoUuid 1).canonical_text.symm.trans haid)).symm
  have hidd : d.id = demoKey 2 := (Option.some.inj ((demoUuid 2).canonical_text.symm.trans hdid)).symm
  have htd : d.tenantID = demoTenant := (Option.some.inj ((demoUuid 0).canonical_text.symm.trans hdt)).symm
  obtain ⟨kt, up, hkt, hup, hconv, -⟩ := DB.ancestors_converse hacyclic ham hdm
  have hids : ((worldAfter demo (demoSecondKey ++ demoActivateSecond)).db.ancestorQuery (demoKey 2) demoTenant).map
      (fun r => r.map (List.map Key.id)) = some (.ok [demoKey 1, demoKey 2]) := by decide +kernel
  rw [← hidd, ← htd, hup] at hids
  exact ⟨a, ham, d, hdm, kt, up, hida, hidd, by rw [Except.ok.inj (Option.some.inj hids), hidd], hkt, hconv⟩

end Krypton
