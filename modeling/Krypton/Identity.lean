import Mathlib.Data.List.Basic
import Krypton.Config.Auth

/-!
# Identities and selectors as text

An identity is written as a `kryptonid://` URI (`internal/identity/identity.go`). A selector is such a text with
wildcards (`selector.go`): `*` for a name, and `**` at the end for whatever follows. Both are read and written here, and
a selector is matched field by field.

* `Identity.parse_eq_ok`, `parseSelector_eq_ok` — what the two parsers accept, segment by segment;
* `selector_matches_glob` — matching a selector is matching the segments of its path (`globSegments`);
* `identity_text_canonical` — reading back what was written, and writing what was read.
-/

namespace Krypton

open Lib

/-! ## Writing identities -/

namespace Identity

def uri (id : Identity) : String :=
  String.ofList (scheme ++ id.domain.toList ++ id.fields.flatMap fun f => '/' :: f.type.toList ++ '/' :: f.name.toList)

end Identity

/-! ## Selectors -/

structure FieldSelector where
  type : String
  name : String
  deriving DecidableEq, Repr

structure Selector where
  domain : String
  fields : List FieldSelector
  deriving DecidableEq, Repr

/-- Any single name. -/
def anyName : String := "*"

/-- All remaining fields. -/
def anyRemaining : String := "**"

namespace FieldSelector

def matchesField (fs : FieldSelector) (f : IdentityField) : Bool :=
  if fs.type = anyRemaining then true
  else if fs.type ≠ f.type then false
  else if fs.name = anyName ∨ fs.name = anyRemaining then true
  else fs.name == f.name

def validate (fs : FieldSelector) : Except Err Unit :=
  if fs.type = anyRemaining then .ok ()
  else do
    check (fs.type ≠ "") (.of .emptyField)
    check (!Identity.hasInvalidChars fs.type) (.of .invalidCharacters)
    if fs.name = anyName ∨ fs.name = anyRemaining then .ok ()
    else do
      check (fs.name ≠ "") (.of .emptyField)
      check (!Identity.hasInvalidChars fs.name) (.of .invalidCharacters)

end FieldSelector

namespace Selector

/-- The loop of `Matches` over the fields of the selector from index `i` on. -/
def matchFrom (s : Selector) (id : Identity) : Nat → List FieldSelector → Bool
  | _, [] => id.fields.length == s.fields.length
  | i, fs :: rest =>
    if fs.type = anyRemaining then true
    else match id.fields[i]? with
      | none => false
      | some f =>
        if !fs.matchesField f then false
        else if fs.name = anyRemaining then true
        else matchFrom s id (i + 1) rest

def matchesIdentity (s : Selector) (id : Identity) : Bool :=
  if s.domain ≠ id.domain then false else s.matchFrom id 0 s.fields

/-- The loop of `String` over the fields. -/
def fieldsText : List FieldSelector → List Char
  | [] => []
  | fs :: rest =>
    '/' :: fs.type.toList ++ if fs.type = anyRemaining then [] else '/' :: fs.name.toList ++ fieldsText rest

def string (s : Selector) : String := String.ofList (Identity.scheme ++ s.domain.toList ++ fieldsText s.fields)

end Selector

/-- The loop of `parseFields` over the remaining segments. -/
def readFields : List String → Except Err (List FieldSelector)
  | [] => .ok []
  | [type] =>
    if type = anyRemaining then .ok [⟨anyRemaining, ""⟩]
    else .error (.detail .invalidSelectorPath "incomplete type/name pair")
  | type :: name :: rest =>
    if type = anyRemaining then .ok [⟨anyRemaining, ""⟩]
    else do
      (FieldSelector.mk type name).validate
      if name = anyRemaining then .ok [⟨type, name⟩]
      else do
        let fields ← readFields rest
        .ok (⟨type, name⟩ :: fields)

def parseFieldSelectors (path : List Char) : Except Err (List FieldSelector) :=
  if path = [] then .error (.detail .invalidSelectorPath "cannot be empty")
  else do
    let parts := (path.splitOn '/').map String.ofList
    check (!parts.dropLast.contains anyRemaining) (.detail .invalidSelectorPath "** must be the last segment")
    readFields parts

def parseSelector (raw : String) : Except Err Selector :=
  if !Identity.scheme.isPrefixOf raw.toList then .error (.of .invalidScheme)
  else do
    let after := raw.toList.drop Identity.scheme.length
    let domain := String.ofList (after.takeWhile (· ≠ '/'))
    let path := (after.dropWhile (· ≠ '/')).drop 1
    Identity.validateDomain domain
    let fields ← parseFieldSelectors path
    .ok ⟨domain, fields⟩

/-! ## Segments -/

/-- Segments, each after a slash. -/
def slashed (segs : List String) : List Char := segs.flatMap fun s => '/' :: s.toList

/-- The part of a text after its scheme and before the first slash. -/
def uriDomain (u : String) : String := String.ofList ((u.toList.drop Identity.scheme.length).takeWhile (· ≠ '/'))

def uriPath (u : String) : List Char := ((u.toList.drop Identity.scheme.length).dropWhile (· ≠ '/')).drop 1

/-- The segments of the path of a text. -/
def pathSegments (u : String) : List String :=
  if uriPath u = [] then [] else ((uriPath u).splitOn '/').map String.ofList

/-- No slash in a text that passes for a name. -/
theorem slash_notMem {s : String} (h : Identity.hasInvalidChars s = false) : '/' ∉ s.toList := by
  intro hm
  have := List.any_eq_false.1 h '/' hm
  exact this (by decide)

theorem slashed_eq : ∀ {segs : List String}, segs ≠ [] →
    slashed segs = '/' :: ['/'].intercalate (segs.map String.toList)
  | [], h => absurd rfl h
  | [s], _ => by simp [slashed, List.intercalate]
  | s :: s' :: segs, _ => by
    have ih := slashed_eq (List.cons_ne_nil s' segs)
    rw [slashed, List.flatMap_cons, ← slashed, ih]
    simp [List.intercalate]

/-- The segments of a path are where it is split. -/
theorem splitOn_slashed {segs : List String} (hne : segs ≠ []) (h : ∀ s ∈ segs, '/' ∉ s.toList) :
    (((slashed segs).drop 1).splitOn '/').map String.ofList = segs := by
  rw [slashed_eq hne, List.drop_one, List.tail_cons, List.splitOn_intercalate]
  · simp
  · intro l hl
    obtain ⟨s, hs, rfl⟩ := List.mem_map.1 hl
    exact h s hs
  · simpa using hne

theorem slashed_splitOn (path : List Char) : slashed ((path.splitOn '/').map String.ofList) = '/' :: path := by
  rw [slashed_eq (by simp), List.map_map]
  simp [List.intercalate_splitOn]

theorem dropWhile_slash (l : List Char) : l.dropWhile (· ≠ '/') = [] ∨ ∃ rest, l.dropWhile (· ≠ '/') = '/' :: rest := by
  cases h : l.dropWhile (· ≠ '/') with
  | nil => exact .inl rfl
  | cons c rest =>
    have hc := List.head?_dropWhile_not (· ≠ '/') l
    rw [h] at hc
    right
    exact ⟨rest, by simpa using hc⟩

/-- A text with the scheme is its domain and the segments of its path, unless it ends in a slash after the domain. -/
theorem toList_eq {u : String} (hs : Identity.scheme.isPrefixOf u.toList = true)
    (hend : uriPath u ≠ [] ∨ u.toList.getLast? ≠ some '/') :
    u.toList = Identity.scheme ++ (uriDomain u).toList ++ slashed (pathSegments u) := by
  obtain ⟨after, hafter⟩ := List.isPrefixOf_iff_prefix.1 hs
  have hdrop : u.toList.drop Identity.scheme.length = after := by rw [← hafter, List.drop_left]
  have hsplit : after = (uriDomain u).toList ++ after.dropWhile (· ≠ '/') := by
    rw [uriDomain, String.toList_ofList, hdrop, List.takeWhile_append_dropWhile]
  have hrest : after.dropWhile (· ≠ '/') = slashed (pathSegments u) := by
    unfold pathSegments
    rcases dropWhile_slash after with h | ⟨rest, h⟩
    · rw [if_pos (by rw [uriPath, hdrop, h]; rfl), h]
      rfl
    · have hpath : uriPath u = rest := by rw [uriPath, hdrop, h]; rfl
      have hne : uriPath u ≠ [] := by
        rcases hend with hend | hend
        · exact hend
        · -- a path that is empty would end the text in a slash
          intro hnil
          rw [hpath] at hnil
          refine absurd ?_ hend
          rw [← hafter, hsplit, h, hnil]
          simp
      rw [if_neg hne, hpath, slashed_splitOn, h]
  rw [← hrest, List.append_assoc, ← hsplit, hafter]

/-- A text made of a domain and segments is cut into them. -/
theorem cut_ofList {d : String} {segs : List String} (hd : '/' ∉ d.toList)
    (hsegs : ∀ s ∈ segs, s ≠ "" ∧ '/' ∉ s.toList) {u : String}
    (hu : u.toList = Identity.scheme ++ d.toList ++ slashed segs) :
    Identity.scheme.isPrefixOf u.toList = true ∧ uriDomain u = d ∧ pathSegments u = segs := by
  have hdrop : u.toList.drop Identity.scheme.length = d.toList ++ slashed segs := by
    rw [hu, List.append_assoc, List.drop_left]
  have hplain : ∀ c ∈ d.toList, (c ≠ '/' : Bool) = true := by
    intro c hc
    exact decide_eq_true fun he => hd (he ▸ hc)
  refine ⟨?_, ?_, ?_⟩
  · rw [List.isPrefixOf_iff_prefix, hu, List.append_assoc]
    exact List.prefix_append _ _
  · rw [uriDomain, hdrop, List.takeWhile_append_of_pos hplain]
    cases segs <;> simp [slashed]
  · have hpath : uriPath u = (slashed segs).drop 1 := by
      rw [uriPath, hdrop, List.dropWhile_append_of_pos hplain]
      cases segs <;> simp [slashed]
    unfold pathSegments
    rw [hpath]
    cases segs with
    | nil => rfl
    | cons s segs =>
      have hne : (slashed (s :: segs)).drop 1 ≠ [] := by
        have := (hsegs s List.mem_cons_self).1
        simp [slashed, this]
      rw [if_neg hne, splitOn_slashed (List.cons_ne_nil s segs) fun s hs => (hsegs s hs).2]

/-! ## What the parser of identities accepts -/

namespace Identity

/-- The segments of the path that fields are written as. -/
def segments (fields : List IdentityField) : List String := fields.flatMap fun f => [f.type, f.name]

theorem toList_uri (id : Identity) : id.uri.toList = scheme ++ id.domain.toList ++ slashed (segments id.fields) := by
  rw [uri, String.toList_ofList, slashed, segments, List.flatMap_assoc]
  simp

theorem parseFields_eq_ok : ∀ {parts : List String} {fields : List IdentityField},
    parseFields parts = .ok fields ↔ parts = segments fields ∧ ∀ f ∈ fields, validateField f = .ok ()
  | [], fields => by
    cases fields with
    | nil => simp [parseFields, segments]
    | cons f fs => simp [parseFields, segments]
  | [p], fields => by
    cases fields <;> simp [parseFields, segments]
  | type :: name :: rest, fields => by
    rw [parseFields, bind_unit_eq_ok, bind_eq_ok]
    constructor
    · intro ⟨hv, fields', hrest, hpure⟩
      obtain ⟨rfl, hall⟩ := parseFields_eq_ok.1 hrest
      cases hpure
      exact ⟨rfl, List.forall_mem_cons.2 ⟨hv, hall⟩⟩
    · intro ⟨hparts, hall⟩
      cases fields with
      | nil => cases hparts
      | cons f fs =>
        obtain ⟨hv, hall⟩ := List.forall_mem_cons.1 hall
        simp only [segments, List.flatMap_cons, List.cons_append, List.nil_append, List.cons.injEq] at hparts
        obtain ⟨rfl, rfl, rfl⟩ := hparts
        exact ⟨hv, fs, parseFields_eq_ok.2 ⟨rfl, hall⟩, rfl⟩

theorem length_segments (fields : List IdentityField) : (segments fields).length = 2 * fields.length := by
  induction fields with
  | nil => rfl
  | cons f fs ih =>
    rw [segments, List.flatMap_cons, List.length_append, ← segments, ih]
    simp only [List.length_cons, List.length_nil]
    omega

/-- An accepted text has the scheme, a domain, and a path made of the fields. -/
theorem parse_eq_ok {u : String} {id : Identity} : parse u = .ok id ↔
    scheme.isPrefixOf u.toList = true ∧ validateDomain (uriDomain u) = .ok () ∧ id.domain = uriDomain u ∧
      pathSegments u = segments id.fields ∧ ∀ f ∈ id.fields, validateField f = .ok () := by
  unfold parse
  by_cases hs : scheme.isPrefixOf u.toList = true
  · simp only [hs, Bool.not_true, Bool.false_eq_true, if_false, true_and]
    rw [bind_unit_eq_ok, ← uriDomain, ← uriPath]
    refine and_congr_right fun _ => ?_
    unfold pathSegments
    obtain ⟨domain, fields⟩ := id
    by_cases hpath : uriPath u = []
    · simp only [hpath, if_true, pure, Except.pure, Except.ok.injEq, Identity.mk.injEq]
      constructor
      · intro ⟨hd, hf⟩
        subst hf
        exact ⟨hd.symm, rfl, nofun⟩
      · intro ⟨hd, hsegs, _⟩
        have hlen := congrArg List.length hsegs
        rw [length_segments, List.length_nil] at hlen
        exact ⟨hd.symm, (List.eq_nil_of_length_eq_zero (by omega)).symm⟩
    · simp only [hpath, if_false]
      rw [bind_unit_eq_ok, bind_eq_ok, check_eq_ok, decide_eq_true_eq]
      constructor
      · intro ⟨_, fields', hfields, hpure⟩
        cases hpure
        obtain ⟨hparts, hall⟩ := parseFields_eq_ok.1 hfields
        exact ⟨rfl, hparts, hall⟩
      · intro ⟨hd, hparts, hall⟩
        have hlen := congrArg List.length hparts
        rw [length_segments] at hlen
        exact ⟨by omega, fields, parseFields_eq_ok.2 ⟨hparts, hall⟩, by rw [← hd]; rfl⟩
  · simp only [hs, Bool.not_false, if_true, reduceCtorEq, false_and, Bool.false_eq_true]

/-- The texts of a field that passes its check. -/
theorem segments_of_valid {fields : List IdentityField} (h : ∀ f ∈ fields, validateField f = .ok ()) :
    ∀ s ∈ segments fields, s ≠ "" ∧ '/' ∉ s.toList := by
  intro s hs
  obtain ⟨f, hf, hs⟩ := List.mem_flatMap.1 hs
  have hv := checkAll_eq_ok.1 (h f hf) s hs
  simp only [bind_unit_eq_ok, check_eq_ok, decide_eq_true_eq, Bool.not_eq_true'] at hv
  exact ⟨hv.1, slash_notMem hv.2⟩

theorem slash_of_validDomain {d : String} (h : validateDomain d = .ok ()) : '/' ∉ d.toList := by
  simp only [validateDomain, bind_unit_eq_ok, check_eq_ok, Bool.not_eq_true'] at h
  exact slash_notMem h.2

end Identity

/-! ## What the parser of selectors accepts -/

namespace Selector

/-- The segments of the path that the fields of a selector are written as. -/
def segments : List FieldSelector → List String
  | [] => []
  | fs :: rest => if fs.type = anyRemaining then [fs.type] else fs.type :: fs.name :: segments rest

/-- `**` stands in the last field only, and as a type without a name. -/
structure Placed (fields : List FieldSelector) : Prop where
  last : ∀ fs ∈ fields.dropLast, fs.type ≠ anyRemaining ∧ fs.name ≠ anyRemaining
  bare : ∀ fs ∈ fields, fs.type = anyRemaining → fs.name = ""

theorem placed_nil : Placed [] := ⟨nofun, nofun⟩

theorem placed_cons {fs : FieldSelector} {rest : List FieldSelector} : Placed (fs :: rest) ↔
    (fs.type = anyRemaining → fs.name = "" ∧ rest = []) ∧ (fs.name = anyRemaining → rest = []) ∧ Placed rest := by
  cases rest with
  | nil =>
    constructor
    · intro h
      exact ⟨fun ht => ⟨h.bare fs List.mem_cons_self ht, rfl⟩, fun _ => rfl, placed_nil⟩
    · intro ⟨hbare, _, _⟩
      refine ⟨nofun, fun fs' hfs' ht => ?_⟩
      rw [List.mem_singleton.1 hfs'] at ht ⊢
      exact (hbare ht).1
  | cons fs' rest =>
    constructor
    · intro h
      obtain ⟨hfirst, hlast⟩ := List.forall_mem_cons.1 h.last
      exact ⟨fun ht => absurd ht hfirst.1, fun hn => absurd hn hfirst.2, hlast,
        fun x hx => h.bare x (List.mem_cons_of_mem _ hx)⟩
    · intro ⟨htype, hname, hrest⟩
      have ht : fs.type ≠ anyRemaining := fun ht => List.cons_ne_nil fs' rest (htype ht).2
      have hn : fs.name ≠ anyRemaining := fun hn => List.cons_ne_nil fs' rest (hname hn)
      exact ⟨List.forall_mem_cons.2 ⟨⟨ht, hn⟩, hrest.last⟩, List.forall_mem_cons.2 ⟨fun h => absurd h ht, hrest.bare⟩⟩

theorem fieldsText_eq : ∀ fields : List FieldSelector, fieldsText fields = slashed (segments fields)
  | [] => rfl
  | fs :: rest => by
    rw [fieldsText, segments]
    split
    · simp [slashed]
    · rw [fieldsText_eq rest]
      simp [slashed]

theorem toList_string (s : Selector) :
    s.string.toList = Identity.scheme ++ s.domain.toList ++ slashed (segments s.fields) := by
  rw [string, String.toList_ofList, fieldsText_eq]

theorem segments_eq_nil {fields : List FieldSelector} : segments fields = [] ↔ fields = [] := by
  cases fields with
  | nil => simp [segments]
  | cons fs rest =>
    rw [segments]
    split <;> simp

/-- Only the last segment is `**`. -/
theorem Placed.segments : ∀ {fields : List FieldSelector}, Placed fields → anyRemaining ∉ (segments fields).dropLast
  | [], _ => by simp [Selector.segments]
  | fs :: rest, h => by
    obtain ⟨-, hname, hrest⟩ := placed_cons.1 h
    rw [Selector.segments]
    split
    · simp
    · rename_i ht
      by_cases hr : rest = []
      · subst hr
        simpa [Selector.segments] using Ne.symm ht
      · have hsegs : Selector.segments rest ≠ [] := mt segments_eq_nil.1 hr
        have hn : fs.name ≠ anyRemaining := fun hn => hr (hname hn)
        rw [List.dropLast_cons_of_ne_nil (List.cons_ne_nil _ _), List.dropLast_cons_of_ne_nil hsegs, List.mem_cons,
          List.mem_cons]
        intro hm
        rcases hm with hm | hm | hm
        · exact ht hm.symm
        · exact hn hm.symm
        · exact hrest.segments hm

theorem validate_bare : (FieldSelector.mk anyRemaining "").validate = .ok () := if_pos rfl

/-- The loop reads the fields back that segments are written from. -/
theorem readFields_segments : ∀ {fields : List FieldSelector}, Placed fields → (∀ fs ∈ fields, fs.validate = .ok ()) →
    readFields (segments fields) = .ok fields
  | [], _, _ => rfl
  | ⟨type, name⟩ :: rest, hplaced, hvalid => by
    obtain ⟨htype, hname, hrest⟩ := placed_cons.1 hplaced
    obtain ⟨hv, hvalid⟩ := List.forall_mem_cons.1 hvalid
    rw [segments]
    by_cases ht : type = anyRemaining
    · obtain ⟨rfl, rfl⟩ := htype ht
      subst ht
      rfl
    · rw [if_neg ht, readFields, if_neg ht, bind_eq_of_ok hv]
      by_cases hn : name = anyRemaining
      · rw [if_pos hn, hname hn]
      · rw [if_neg hn, bind_eq_of_ok (readFields_segments hrest hvalid)]

theorem not_mem_dropLast_cons_cons {α : Type} {a x y : α} {l : List α} (h : a ∉ (x :: y :: l).dropLast) :
    x ≠ a ∧ (l ≠ [] → y ≠ a) ∧ a ∉ l.dropLast := by
  rw [List.dropLast_cons_of_ne_nil (List.cons_ne_nil _ _), List.mem_cons, not_or] at h
  refine ⟨fun hx => h.1 hx.symm, ?_⟩
  cases l with
  | nil => exact ⟨fun hl => absurd rfl hl, List.not_mem_nil⟩
  | cons z l =>
    rw [List.dropLast_cons_of_ne_nil (List.cons_ne_nil _ _), List.mem_cons, not_or] at h
    exact ⟨fun _ hy => h.2.1 hy.symm, h.2.2⟩

/-- What the loop reads is written as the segments it was given, when only the last of them is `**`. -/
theorem of_readFields : ∀ {parts : List String} {fields : List FieldSelector}, anyRemaining ∉ parts.dropLast →
    readFields parts = .ok fields → parts = segments fields ∧ Placed fields ∧ ∀ fs ∈ fields, fs.validate = .ok ()
  | [], fields, _, h => by
    cases h
    exact ⟨rfl, placed_nil, nofun⟩
  | [type], fields, _, h => by
    rw [readFields] at h
    split at h
    · rename_i ht
      cases h
      exact ⟨by rw [ht]; rfl, placed_cons.2 ⟨fun _ => ⟨rfl, rfl⟩, nofun, placed_nil⟩,
        List.forall_mem_cons.2 ⟨validate_bare, nofun⟩⟩
    · cases h
  | type :: name :: rest, fields, hlast, h => by
    obtain ⟨ht, hname, hrest⟩ := not_mem_dropLast_cons_cons hlast
    rw [readFields, if_neg ht, bind_unit_eq_ok] at h
    obtain ⟨hv, h⟩ := h
    by_cases hn : name = anyRemaining
    · obtain rfl : rest = [] := by
        by_contra hr
        exact hname hr hn
      rw [if_pos hn] at h
      cases h
      exact ⟨by simp [segments, ht], placed_cons.2 ⟨fun h => absurd h ht, fun _ => rfl, placed_nil⟩,
        List.forall_mem_cons.2 ⟨hv, nofun⟩⟩
    · rw [if_neg hn, bind_eq_ok] at h
      obtain ⟨fields', hread, hok⟩ := h
      cases hok
      obtain ⟨hparts, hplaced, hvalid⟩ := of_readFields hrest hread
      exact ⟨by simp [segments, ht, hparts], placed_cons.2 ⟨fun h => absurd h ht, fun h => absurd h hn, hplaced⟩,
        List.forall_mem_cons.2 ⟨hv, hvalid⟩⟩

/-- The texts of the fields of a selector that pass their check. -/
theorem segments_of_valid : ∀ {fields : List FieldSelector}, (∀ fs ∈ fields, fs.validate = .ok ()) →
    ∀ s ∈ segments fields, s ≠ "" ∧ '/' ∉ s.toList
  | [], _ => by simp [segments]
  | fs :: rest, h => by
    obtain ⟨hv, hrest⟩ := List.forall_mem_cons.1 h
    have hany : ∀ s, s = anyName ∨ s = anyRemaining → s ≠ "" ∧ '/' ∉ s.toList := by
      intro s hs
      rcases hs with rfl | rfl <;> decide
    rw [segments]
    split
    · rename_i ht
      exact List.forall_mem_cons.2 ⟨hany _ (.inr ht), nofun⟩
    · rename_i ht
      rw [FieldSelector.validate, if_neg ht] at hv
      simp only [bind_unit_eq_ok, check_eq_ok, decide_eq_true_eq, Bool.not_eq_true'] at hv
      obtain ⟨htype, hchars, hname⟩ := hv
      refine List.forall_mem_cons.2 ⟨⟨htype, slash_notMem hchars⟩, List.forall_mem_cons.2 ⟨?_, segments_of_valid hrest⟩⟩
      split at hname
      · rename_i hn
        exact hany _ hn
      · simp only [bind_unit_eq_ok, check_eq_ok, decide_eq_true_eq, Bool.not_eq_true'] at hname
        exact ⟨hname.1, slash_notMem hname.2⟩

/-- An accepted text has the scheme, a domain, and a path made of fields, with `**` at its end only. -/
theorem parseSelector_eq_ok {raw : String} {s : Selector} : parseSelector raw = .ok s ↔
    Identity.scheme.isPrefixOf raw.toList = true ∧ Identity.validateDomain (uriDomain raw) = .ok () ∧
      s.domain = uriDomain raw ∧ uriPath raw ≠ [] ∧ pathSegments raw = segments s.fields ∧ Placed s.fields ∧
      ∀ fs ∈ s.fields, fs.validate = .ok () := by
  unfold parseSelector
  by_cases hs : Identity.scheme.isPrefixOf raw.toList = true
  · simp only [hs, Bool.not_true, Bool.false_eq_true, if_false, true_and]
    rw [bind_unit_eq_ok, ← uriDomain, ← uriPath, bind_eq_ok]
    refine and_congr_right fun _ => ?_
    unfold pathSegments parseFieldSelectors
    obtain ⟨domain, fields⟩ := s
    by_cases hpath : uriPath raw = []
    · simp [hpath]
    · simp only [hpath, if_false, not_false_eq_true, true_and, ne_eq]
      simp only [bind_unit_eq_ok, check_eq_ok, Bool.not_eq_true', List.contains_eq_mem, decide_eq_false_iff_not]
      constructor
      · intro h
        obtain ⟨fields', ⟨hlast, hread⟩, hok⟩ := h
        cases hok
        exact ⟨rfl, of_readFields hlast hread⟩
      · intro h
        obtain ⟨hd, hparts, hplaced, hvalid⟩ := h
        refine ⟨fields, ?_, by rw [← hd]⟩
        rw [hparts]
        exact ⟨hplaced.segments, readFields_segments hplaced hvalid⟩
  · simp only [hs, Bool.not_false, if_true, reduceCtorEq, false_and, Bool.false_eq_true]

end Selector

/-! ## Matching as a pattern of segments -/

/-- Match the segments of a path with those of a pattern. Types and names take turns, `value` tells that a name is next.
`*` in the place of a name stands for any one segment; `**` at the end stands for all the rest, which must not be empty
in the place of a name; every other segment stands for itself. -/
def globSegments : Bool → List String → List String → Bool
  | _, [], segs => segs.isEmpty
  | value, p :: ps, [] => p == anyRemaining && ps.isEmpty && !value
  | value, p :: ps, seg :: segs =>
    p == anyRemaining && ps.isEmpty || (p == seg || value && p == anyName) && globSegments (!value) ps segs

namespace Selector

theorem matchesField_eq {fs : FieldSelector} (ht : fs.type ≠ anyRemaining) (f : IdentityField) : fs.matchesField f =
    (fs.type == f.type && (fs.name == f.name || fs.name == anyName || fs.name == anyRemaining)) := by
  unfold FieldSelector.matchesField
  rw [if_neg ht]
  by_cases htype : fs.type = f.type
  · by_cases hname : fs.name = anyName ∨ fs.name = anyRemaining
    · rcases hname with hname | hname <;> simp [htype, hname]
    · obtain ⟨hany, hremaining⟩ := not_or.1 hname
      rw [if_neg (not_not.2 htype), if_neg hname]
      simp [htype, beq_false_of_ne hany, beq_false_of_ne hremaining]
  · simp [htype]

/-- The loop of `Matches` from a field on matches what is left of both paths. -/
theorem matchFrom_eq (s : Selector) (id : Identity) : ∀ {rest : List FieldSelector} {i : Nat}, Placed rest →
    i + rest.length = s.fields.length → i ≤ id.fields.length →
    s.matchFrom id i rest = globSegments false (segments rest) (Identity.segments (id.fields.drop i))
  | [], i, _, hlen, hi => by
    rw [matchFrom, segments, globSegments, Bool.eq_iff_iff, beq_iff_eq, List.isEmpty_iff, ← List.length_eq_zero_iff,
      Identity.length_segments, List.length_drop]
    rw [List.length_nil] at hlen
    omega
  | fs :: rest, i, hplaced, hlen, hi => by
    obtain ⟨htype, hname, hrest⟩ := placed_cons.1 hplaced
    rw [List.length_cons] at hlen
    rw [matchFrom, segments]
    by_cases ht : fs.type = anyRemaining
    · rw [if_pos ht, if_pos ht, ht]
      cases Identity.segments (id.fields.drop i) <;> simp [globSegments]
    · rw [if_neg ht, if_neg ht]
      by_cases hlt : i < id.fields.length
      · have hdrop : Identity.segments (id.fields.drop i) = id.fields[i].type :: id.fields[i].name ::
            Identity.segments (id.fields.drop (i + 1)) := by
          rw [List.drop_eq_getElem_cons hlt]
          rfl
        rw [hdrop, List.getElem?_eq_getElem hlt]
        simp only [matchesField_eq ht, globSegments, beq_false_of_ne ht, Bool.false_and, Bool.false_or, Bool.or_false,
          Bool.not_false, Bool.true_and, Bool.not_true]
        by_cases hn : fs.name = anyRemaining
        · -- the last segment of the pattern, with a name in its place
          rw [hname hn]
          by_cases heq : fs.type = id.fields[i].type <;> simp [hn, heq, segments]
        · rw [if_neg hn, matchFrom_eq s id hrest (by omega) (by omega), beq_false_of_ne hn]
          cases fs.type == id.fields[i].type <;> cases fs.name == id.fields[i].name <;>
            cases fs.name == anyName <;> simp
      · have hdrop : id.fields.drop i = [] := List.drop_eq_nil_of_le (by omega)
        rw [List.getElem?_eq_none (by omega), hdrop]
        simp [Identity.segments, globSegments]

end Selector

theorem globSegments_literal : ∀ {value : Bool} {ps segs : List String}, (∀ p ∈ ps, p ≠ anyName ∧ p ≠ anyRemaining) →
    (globSegments value ps segs = true ↔ ps = segs)
  | _, [], [], _ => by simp [globSegments]
  | _, [], _ :: _, _ => by simp [globSegments]
  | value, p :: ps, [], h => by
    obtain ⟨hp, -⟩ := List.forall_mem_cons.1 h
    simp [globSegments, beq_false_of_ne hp.2]
  | value, p :: ps, seg :: segs, h => by
    obtain ⟨hp, hps⟩ := List.forall_mem_cons.1 h
    simp only [globSegments, beq_false_of_ne hp.1, beq_false_of_ne hp.2, Bool.false_and, Bool.false_or, Bool.and_false,
      Bool.or_false, Bool.and_eq_true, beq_iff_eq, globSegments_literal hps, List.cons.injEq]

/-- **Matching a selector is matching its path.** A selector that was read matches an identity that was read exactly
when the domains are the same and the path of the one, as a pattern, matches the path of the other; without wildcards it
matches exactly the identity with the same text. -/
theorem selector_matches_glob {raw u : String} {s : Selector} {id : Identity} (hs : parseSelector raw = .ok s)
    (hu : Identity.parse u = .ok id) :
    (s.matchesIdentity id = true ↔ uriDomain raw = uriDomain u ∧
      globSegments false (pathSegments raw) (pathSegments u) = true) ∧
    ((∀ p ∈ pathSegments raw, p ≠ anyName ∧ p ≠ anyRemaining) → (s.matchesIdentity id = true ↔ u = raw)) := by
  obtain ⟨hsraw, -, hsd, hspath, hssegs, hplaced, -⟩ := Selector.parseSelector_eq_ok.1 hs
  obtain ⟨huraw, -, hud, husegs, -⟩ := Identity.parse_eq_ok.1 hu
  have hglob : s.matchesIdentity id = true ↔ uriDomain raw = uriDomain u ∧
      globSegments false (pathSegments raw) (pathSegments u) = true := by
    rw [Selector.matchesIdentity, Selector.matchFrom_eq s id hplaced (by omega) (Nat.zero_le _),
      List.drop_zero, ← hssegs, ← husegs, hsd, hud]
    by_cases hd : uriDomain raw = uriDomain u <;> simp [hd]
  refine ⟨hglob, fun hplain => ?_⟩
  rw [hglob, globSegments_literal hplain]
  constructor
  · intro ⟨hd, hsegs⟩
    -- the path of the selector is not empty, so neither is that of the identity
    have hupath : uriPath u ≠ [] := by
      intro hnil
      rw [pathSegments, if_neg hspath, pathSegments, if_pos hnil] at hsegs
      simp at hsegs
    rw [← String.toList_inj, toList_eq huraw (.inl hupath), toList_eq hsraw (.inl hspath), hd, hsegs]
  · intro heq
    rw [heq]
    exact ⟨rfl, rfl⟩

/-- `**` in the place of a type also matches the identity with nothing more. -/
theorem selector_matches_glob_rest :
    globSegments false ["node", "*", "**"] ["node", "root"] = true ∧
      (Selector.mk "acme" [⟨"node", "*"⟩, ⟨"**", ""⟩]).matchesIdentity ⟨"acme", [⟨"node", "root"⟩]⟩ = true := by
  have hglob : globSegments false ["node", "*", "**"] ["node", "root"] = true := by decide
  have hs : parseSelector "kryptonid://acme/node/*/**" = .ok ⟨"acme", [⟨"node", "*"⟩, ⟨"**", ""⟩]⟩ := by decide +kernel
  have hu : Identity.parse "kryptonid://acme/node/root" = .ok ⟨"acme", [⟨"node", "root"⟩]⟩ := by decide +kernel
  exact ⟨hglob, (selector_matches_glob hs hu).1.2 ⟨by decide +kernel, by decide +kernel⟩⟩

/-! ## Reading and writing -/

namespace Identity

variable {id : Identity} {u : String}

theorem parse_uri (hd : validateDomain id.domain = .ok ()) (hf : ∀ f ∈ id.fields, validateField f = .ok ()) :
    parse id.uri = .ok id := by
  obtain ⟨hs, hdomain, hsegs⟩ := cut_ofList (slash_of_validDomain hd) (segments_of_valid hf) id.toList_uri
  exact parse_eq_ok.2 ⟨hs, by rw [hdomain, hd], hdomain.symm, hsegs, hf⟩

theorem uri_of_parse (h : parse u = .ok id) (hend : u.toList.getLast? ≠ some '/') : id.uri = u := by
  obtain ⟨hs, -, hd, hsegs, -⟩ := parse_eq_ok.1 h
  rw [← String.toList_inj, toList_uri, toList_eq hs (.inr hend), hd, hsegs]

end Identity

namespace Selector

theorem pathSegments_ne_nil {u : String} : pathSegments u ≠ [] ↔ uriPath u ≠ [] := by
  unfold pathSegments
  split <;> simp [*]

theorem parseSelector_string {s : Selector} (hd : Identity.validateDomain s.domain = .ok ())
    (hf : ∀ fs ∈ s.fields, fs.validate = .ok ()) : parseSelector s.string = .ok s ↔
      s.fields ≠ [] ∧ Placed s.fields := by
  obtain ⟨hs, hdomain, hsegs⟩ := cut_ofList (Identity.slash_of_validDomain hd) (segments_of_valid hf) s.toList_string
  rw [parseSelector_eq_ok, ← pathSegments_ne_nil, hsegs, hdomain, Ne, segments_eq_nil]
  constructor
  · intro ⟨_, _, _, hne, _, hplaced, _⟩
    exact ⟨hne, hplaced⟩
  · intro ⟨hne, hplaced⟩
    exact ⟨hs, hd, rfl, hne, rfl, hplaced, hf⟩

theorem string_of_parse {raw : String} {s : Selector} (h : parseSelector raw = .ok s) : s.string = raw := by
  obtain ⟨hs, -, hd, hpath, hsegs, -⟩ := parseSelector_eq_ok.1 h
  rw [← String.toList_inj, toList_string, toList_eq hs (.inl hpath), hd, hsegs]

end Selector

/-- **Texts of identities and selectors.** A valid identity is read back from its URI. An accepted URI that does not end
in a slash is the one its identity is written as, so two of them never stand for one identity. A valid selector is read
back from its text exactly when it has a field and `**` stands in the last one only, without a name beside it as a type.
The text of every accepted selector is the one it was read from. -/
theorem identity_text_canonical :
    (∀ id : Identity, Identity.validateDomain id.domain = .ok () →
      (∀ f ∈ id.fields, Identity.validateField f = .ok ()) → Identity.parse id.uri = .ok id) ∧
    (∀ u id, Identity.parse u = .ok id → u.toList.getLast? ≠ some '/' →
      id.uri = u ∧ ∀ u', Identity.parse u' = .ok id → u'.toList.getLast? ≠ some '/' → u' = u) ∧
    (∀ s : Selector, Identity.validateDomain s.domain = .ok () → (∀ fs ∈ s.fields, fs.validate = .ok ()) →
      (parseSelector s.string = .ok s ↔ s.fields ≠ [] ∧ Selector.Placed s.fields)) ∧
    ∀ raw s, parseSelector raw = .ok s → s.string = raw := by
  refine ⟨fun id => Identity.parse_uri, ?_, fun s => Selector.parseSelector_string,
    fun raw s => Selector.string_of_parse⟩
  intro u id hu hend
  have huri := Identity.uri_of_parse hu hend
  refine ⟨huri, fun u' hu' hend' => ?_⟩
  rw [← Identity.uri_of_parse hu' hend', huri]

/-- A slash after the domain is read as an empty path, so two URIs stand for one identity; a selector without fields
passes its checks and is not read back. -/
theorem slash_after_domain :
    Identity.parse "kryptonid://acme/" = .ok ⟨"acme", []⟩ ∧ Identity.parse "kryptonid://acme" = .ok ⟨"acme", []⟩ ∧
      (Identity.mk "acme" []).uri ≠ "kryptonid://acme/" ∧
    Identity.validateDomain (Selector.mk "acme" []).domain = .ok () ∧
      parseSelector (Selector.mk "acme" []).string = .error (.detail .invalidSelectorPath "cannot be empty") :=
  ⟨by decide +kernel, by decide +kernel, by decide +kernel, by decide +kernel, by decide +kernel⟩

end Krypton
