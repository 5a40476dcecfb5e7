import Mathlib.Data.List.Sort
import Mathlib.Order.RelClasses

/-!
# Reading a table in pages

A client reads the rows of a table in the order of a key, `n` at a time. Each request carries the key of the last row
read; the answer has the next rows and the key to go on from, if one row more than a page was found. The table may be
another one at each request.

* `page_cases` — a page is a piece of the remaining rows, and its key stands for the rest;
* `exists_pages` — reading a table that stays as it is ends;
* `Pages.flatten_eq` — and gives all its rows in order;
* `Pages.pairwise`, `Pages.mem_of_always` — with tables that change the rows still come in order, and none is left out
  that was there all the time.
-/

namespace Krypton.Lib

section
variable {α K : Type} (r : K → K → Prop) [DecidableRel r] (key : α → K)

/-- The rows after a key, in order. -/
def remaining (c : Option K) (l : List α) : List α :=
  (l.filter fun a => c.all fun k => r k (key a)).insertionSort fun a b => ¬ r (key b) (key a)

structure Page (α K : Type) where
  rows : List α
  /-- Where to go on, if there are more rows. -/
  next : Option K

/-- The next `n` rows; whether there are more is seen from one row more. -/
def page (n : Nat) (c : Option K) (l : List α) : Page α K :=
  let fetched := (remaining r key c l).take (n + 1)
  if fetched.length = n + 1 then ⟨fetched.take n, fetched[n - 1]?.map key⟩ else ⟨fetched, none⟩

/-- A client that goes on until there is nothing more, the tables it meets and the pages it gets. -/
inductive Pages (n : Nat) : Option K → List (List α) → List (List α) → Prop
  | last {c : Option K} {l : List α} : (page r key n c l).next = none → Pages n c [l] [(page r key n c l).rows]
  | more {c : Option K} {k : K} {l : List α} {ls pages : List (List α)} : (page r key n c l).next = some k →
      Pages n (some k) ls pages → Pages n c (l :: ls) ((page r key n c l).rows :: pages)

end

section
variable {α K : Type} {r : K → K → Prop} [DecidableRel r] {key : α → K} {n : Nat} {c : Option K} {l : List α}

theorem mem_remaining {a : α} : a ∈ remaining r key c l ↔ a ∈ l ∧ ∀ k ∈ c, r k (key a) := by
  simp [remaining, Option.all_eq_true]

variable [IsStrictTotalOrder K r]

/-- Rows with different keys come in strict order. -/
theorem pairwise_remaining (hl : (l.map key).Nodup) : (remaining r key c l).Pairwise fun a b => r (key a) (key b) := by
  have hle : IsTrans α fun a b => ¬ r (key b) (key a) := ⟨fun a b d hab hbd hda => by
    rcases trichotomous_of r (key b) (key a) with h | h | h
    · exact hab h
    · exact hbd (h ▸ hda)
    · exact hbd (trans_of r hda h)⟩
  have htotal : Std.Total fun a b : α => ¬ r (key b) (key a) := ⟨fun a b => by
    by_contra h
    simp only [not_or, not_not] at h
    exact irrefl_of r _ (trans_of r h.1 h.2)⟩
  have hsorted : (remaining r key c l).Pairwise fun a b => ¬ r (key b) (key a) := List.pairwise_insertionSort _ _
  have hnodup : ((remaining r key c l).map key).Nodup :=
    ((List.perm_insertionSort _ _).map key).nodup_iff.2 (hl.sublist (List.filter_sublist.map key))
  refine (hsorted.and (List.pairwise_map.1 hnodup)).imp fun {a b} h => ?_
  rcases trichotomous_of r (key a) (key b) with hab | hab | hab
  · exact hab
  · exact absurd hab h.2
  · exact absurd hab h.1

/-- What remains after a row in the middle is what comes after it. -/
theorem remaining_of_split (hl : (l.map key).Nodup) {done rest : List α} {a : α}
    (h : remaining r key c l = done ++ a :: rest) : remaining r key (some (key a)) l = rest := by
  have : Std.Irrefl fun a b : α => r (key a) (key b) := ⟨fun a => irrefl_of r (key a)⟩
  have : Std.Antisymm fun a b : α => r (key a) (key b) :=
    ⟨fun a b hab hba => absurd (trans_of r hab hba) (irrefl_of r _)⟩
  have hp := pairwise_remaining (r := r) (c := c) hl
  rw [h, List.pairwise_append, List.pairwise_cons] at hp
  obtain ⟨-, ⟨hafter, hrest⟩, hbefore⟩ := hp
  refine List.Pairwise.eq_of_mem_iff (pairwise_remaining hl) hrest fun b => ?_
  simp only [mem_remaining, Option.mem_def, Option.some.injEq, forall_eq']
  have hmem : ∀ d, d ∈ l ∧ (∀ k ∈ c, r k (key d)) ↔ d ∈ done ++ a :: rest := fun d => by rw [← h, mem_remaining]
  constructor
  · intro ⟨hb, hab⟩
    have hin : b ∈ done ++ a :: rest := (hmem b).1 ⟨hb, fun k hk =>
      trans_of r (((hmem a).2 (by simp)).2 k hk) hab⟩
    rcases List.mem_append.1 hin with hin | hin
    · exact absurd (trans_of r hab (hbefore b hin a List.mem_cons_self)) (irrefl_of r _)
    · rcases List.mem_cons.1 hin with rfl | hin
      · exact absurd hab (irrefl_of r _)
      · exact hin
  · intro hb
    exact ⟨((hmem b).2 (by simp [hb])).1, hafter b hb⟩

/-- The two kinds of page: all that remains, or `n` rows of it with the key of the last one. -/
theorem page_cases (hn : 0 < n) (hl : (l.map key).Nodup) :
    (page r key n c l = ⟨remaining r key c l, none⟩ ∧ (remaining r key c l).length ≤ n) ∨
      ∃ done a rest, remaining r key c l = done ++ a :: rest ∧ done.length + 1 = n ∧ rest ≠ [] ∧
        page r key n c l = ⟨done ++ [a], some (key a)⟩ ∧ remaining r key (some (key a)) l = rest := by
  by_cases hlen : (remaining r key c l).length ≤ n
  · left
    have hall : (remaining r key c l).take (n + 1) = remaining r key c l := List.take_of_length_le (by omega)
    refine ⟨?_, hlen⟩
    unfold page
    rw [hall, if_neg (by omega)]
  · right
    have hlt : n - 1 < (remaining r key c l).length := by omega
    have hsplit : remaining r key c l =
        (remaining r key c l).take (n - 1) ++ (remaining r key c l)[n - 1] :: (remaining r key c l).drop n := by
      have hdrop := List.drop_eq_getElem_cons hlt
      rw [show n - 1 + 1 = n by omega] at hdrop
      rw [← hdrop, List.take_append_drop]
    refine ⟨_, _, _, hsplit, ?_, ?_, ?_, remaining_of_split hl hsplit⟩
    · rw [List.length_take]
      omega
    · intro hnil
      have := List.drop_eq_nil_iff.1 hnil
      omega
    · have hfetched : ((remaining r key c l).take (n + 1)).length = n + 1 := by
        rw [List.length_take]
        omega
      unfold page
      rw [if_pos hfetched, List.take_take, show min n (n + 1) = n - 1 + 1 by omega,
        List.take_succ_eq_append_getElem hlt, List.getElem?_take_of_lt (by omega), List.getElem?_eq_getElem hlt,
        Option.map_some]

theorem page_last (hn : 0 < n) (hl : (l.map key).Nodup) (h : (page r key n c l).next = none) :
    (page r key n c l).rows = remaining r key c l := by
  obtain ⟨hpage, -⟩ | ⟨_, _, _, -, -, -, hpage, -⟩ := page_cases (r := r) (c := c) hn hl
  · rw [hpage]
  · rw [hpage] at h
    cases h

theorem page_more (hn : 0 < n) (hl : (l.map key).Nodup) {k : K} (h : (page r key n c l).next = some k) :
    ∃ done a rest, remaining r key c l = done ++ a :: rest ∧ done.length + 1 = n ∧ rest ≠ [] ∧ key a = k ∧
      (page r key n c l).rows = done ++ [a] ∧ remaining r key (some k) l = rest := by
  obtain ⟨hpage, -⟩ | ⟨done, a, rest, hrem, hlen, hrest, hpage, hnext⟩ := page_cases (r := r) (c := c) hn hl
  · rw [hpage] at h
    cases h
  · rw [hpage] at h
    obtain rfl : key a = k := Option.some.inj h
    exact ⟨done, a, rest, hrem, hlen, hrest, rfl, by rw [hpage], hnext⟩

/-! ## A table that stays -/

/-- What a client gets from a table that stays as it is. -/
theorem Pages.flatten_eq (hn : 0 < n) (hl : (l.map key).Nodup) {ls pages : List (List α)}
    (h : Pages r key n c ls pages) :
    (∀ l' ∈ ls, l' = l) → pages.flatten = remaining r key c l ∧ (∀ p ∈ pages.dropLast, p.length = n) ∧
      (remaining r key c l ≠ [] → ∀ p ∈ pages, p ≠ []) := by
  induction h with
  | @last c l' hnone =>
    intro hls
    obtain rfl := hls l' List.mem_cons_self
    rw [page_last hn hl hnone]
    simp
  | @more c k l' ls pages hsome hrun ih =>
    intro hls
    obtain rfl := hls l' List.mem_cons_self
    obtain ⟨hflat, hfull, hne⟩ := ih fun l' hl' => hls l' (List.mem_cons_of_mem _ hl')
    obtain ⟨done, a, rest, hrem, hlen, hrest, rfl, hrows, hnext⟩ := page_more hn hl hsome
    rw [hnext] at hflat hne
    have hpages : pages ≠ [] := by
      intro hnil
      rw [hnil] at hflat
      exact hrest hflat.symm
    rw [hrows]
    refine ⟨?_, ?_, ?_⟩
    · rw [List.flatten_cons, hflat, hrem, List.append_assoc, List.singleton_append]
    · rw [List.dropLast_cons_of_ne_nil hpages]
      refine List.forall_mem_cons.2 ⟨?_, hfull⟩
      rw [List.length_append, List.length_singleton, hlen]
    · intro _
      exact List.forall_mem_cons.2 ⟨by simp, hne hrest⟩

/-- Reading a table that stays as it is ends. -/
theorem exists_pages (hn : 0 < n) (hl : (l.map key).Nodup) (c : Option K) :
    ∃ m pages, Pages r key n c (List.replicate m l) pages := by
  -- each page takes at least one row from what remains
  induction hk : (remaining r key c l).length using Nat.strong_induction_on generalizing c with
  | _ k ih =>
    cases hnext : (page r key n c l).next with
    | none => exact ⟨1, _, .last hnext⟩
    | some k' =>
      obtain ⟨done, a, rest, hrem, -, -, -, -, hrest⟩ := page_more hn hl hnext
      have hlt : (remaining r key (some k') l).length < k := by
        rw [hrest, ← hk, hrem, List.length_append, List.length_cons]
        omega
      obtain ⟨m, pages, hrun⟩ := ih _ hlt (some k') rfl
      exact ⟨m + 1, _, .more hnext hrun⟩

/-! ## Tables that change -/

variable {ls pages : List (List α)}

/-- The rows of a page that is not the last one, up to the key it ends with. -/
theorem page_rows (hn : 0 < n) (hl : (l.map key).Nodup) {k : K} (h : (page r key n c l).next = some k) :
    (page r key n c l).rows.Pairwise (fun a b => r (key a) (key b)) ∧
      (∀ a ∈ (page r key n c l).rows, a ∈ l ∧ (∀ k' ∈ c, r k' (key a)) ∧ (key a = k ∨ r (key a) k)) ∧
      ∀ k' ∈ c, r k' k := by
  obtain ⟨done, a, rest, hrem, -, -, rfl, hrows, -⟩ := page_more hn hl h
  have hp := pairwise_remaining (r := r) (c := c) hl
  rw [hrem, ← List.singleton_append, ← List.append_assoc] at hp
  have hpair : (done ++ [a]).Pairwise fun a b => r (key a) (key b) := (List.pairwise_append.1 hp).1
  have hmem : ∀ b ∈ done ++ [a], b ∈ l ∧ ∀ k ∈ c, r k (key b) := by
    intro b hb
    rw [← mem_remaining, hrem]
    simp only [List.mem_append, List.mem_singleton] at hb
    simp only [List.mem_append, List.mem_cons]
    exact hb.imp_right Or.inl
  rw [hrows]
  refine ⟨hpair, ?_, (hmem a (by simp)).2⟩
  intro b hb
  refine ⟨(hmem b hb).1, (hmem b hb).2, ?_⟩
  rcases List.mem_append.1 hb with hb | hb
  · exact .inr ((List.pairwise_append.1 hpair).2.2 b hb a List.mem_cons_self)
  · exact .inl (by rw [List.mem_singleton.1 hb])

/-- The rows of all pages come after the key at the start, in strict order. -/
theorem Pages.pairwise (hn : 0 < n) (h : Pages r key n c ls pages) : (∀ l ∈ ls, (l.map key).Nodup) →
    pages.flatten.Pairwise (fun a b => r (key a) (key b)) ∧
      ∀ a ∈ pages.flatten, (∃ l ∈ ls, a ∈ l) ∧ ∀ k ∈ c, r k (key a) := by
  induction h with
  | @last c l hnone =>
    intro hls
    have hl := hls l List.mem_cons_self
    rw [page_last hn hl hnone]
    simp only [List.flatten_singleton, List.mem_singleton, exists_eq_left]
    exact ⟨pairwise_remaining hl, fun a ha => mem_remaining.1 ha⟩
  | @more c k l ls pages hsome hrun ih =>
    intro hls
    obtain ⟨hpair, hafter⟩ := ih fun l hl => hls l (List.mem_cons_of_mem _ hl)
    obtain ⟨hrows, hmem, hck⟩ := page_rows hn (hls l List.mem_cons_self) hsome
    rw [List.flatten_cons]
    refine ⟨List.pairwise_append.2 ⟨hrows, hpair, ?_⟩, ?_⟩
    · intro b hb d hd
      have hkd := (hafter d hd).2 k rfl
      rcases (hmem b hb).2.2 with heq | hlt
      · rwa [heq]
      · exact trans_of r hlt hkd
    · intro b hb
      rcases List.mem_append.1 hb with hb | hb
      · exact ⟨⟨l, List.mem_cons_self, (hmem b hb).1⟩, (hmem b hb).2.1⟩
      · obtain ⟨⟨l', hl', hbl⟩, hlt⟩ := hafter b hb
        exact ⟨⟨l', List.mem_cons_of_mem _ hl', hbl⟩, fun k' hk' => trans_of r (hck k' hk') (hlt k rfl)⟩

/-- A key that is in the table at every request is read. -/
theorem Pages.mem_of_always (hn : 0 < n) (h : Pages r key n c ls pages) : (∀ l ∈ ls, (l.map key).Nodup) →
    ∀ k : K, (∀ l ∈ ls, ∃ a ∈ l, key a = k) → (∀ k' ∈ c, r k' k) → ∃ a ∈ pages.flatten, key a = k := by
  induction h with
  | @last c l hnone =>
    intro hls k halways hafter
    obtain ⟨a, ha, rfl⟩ := halways l List.mem_cons_self
    rw [page_last hn (hls l List.mem_cons_self) hnone, List.flatten_singleton]
    exact ⟨a, mem_remaining.2 ⟨ha, hafter⟩, rfl⟩
  | @more c k₁ l ls pages hsome hrun ih =>
    intro hls k halways hafter
    obtain ⟨b, hb, rfl⟩ := halways l List.mem_cons_self
    obtain ⟨done, a, rest, hrem, -, -, rfl, hrows, hnext⟩ := page_more hn (hls l List.mem_cons_self) hsome
    rw [hrows, List.flatten_cons]
    have hin : b ∈ done ++ a :: rest := by
      rw [← hrem]
      exact mem_remaining.2 ⟨hb, hafter⟩
    rw [← List.singleton_append, ← List.append_assoc] at hin
    rcases List.mem_append.1 hin with hin | hin
    · exact ⟨b, List.mem_append_left _ hin, rfl⟩
    · -- the row is one of the rest, so the next request is still before it
      rw [← hnext] at hin
      obtain ⟨d, hd, hkey⟩ := ih (fun l hl => hls l (List.mem_cons_of_mem _ hl)) (key b)
        (fun l hl => halways l (List.mem_cons_of_mem _ hl)) (mem_remaining.1 hin).2
      exact ⟨d, List.mem_append_right _ hd, hkey⟩

end

end Krypton.Lib
